import Mathlib.Data.List.Basic
import BlockAccess.Address
import BlockAccess.Proofs.Numeral

/-!
# How addresses are written

An address is written as a host, a colon and a port.  The colon is the last one, so the host may have
colons of its own, and it may stand in brackets.  `Composed` says so for any notion of a port, and
there are two of them.  A port that is only digits is what the written form of an address is
documented to have (`PlainPort`).  What is taken besides is what a numeral may have around its digits:
white space and a plus sign in front of them, and anything behind a NUL (`LoosePort`).

`parse?_iff` finds both parts again, and `update_composed` tells when an address is taken over, when
it stays as it was, and how far the two notions of a port agree.
-/

namespace BlockAccess.Address

open Text (IsDecimal isDigit untilNul)

/-! ## Hosts -/

/-- The host that is named by what stands in front of the colon. -/
inductive Names : Text → Text → Prop where
  /-- Brackets are no part of the host if something stands between them. -/
  | bracketed {host : Text} : host ≠ [] → Names (91 :: (host ++ [93])) host
  /-- Everything else is the host itself. -/
  | plain {host : Text} : (∀ h, h ≠ [] → host ≠ 91 :: (h ++ [93])) → Names host host

theorem unbracket_bracketed {host : Text} (h : host ≠ []) : unbracket (91 :: (host ++ [93])) = host := by
  have hlength : 2 < (91 :: (host ++ [93])).length := by
    have hpos := List.length_pos_iff.2 h
    simp only [List.length_cons, List.length_append, List.length_nil]
    omega
  have hlast : (91 :: (host ++ [93])).getLast? = some 93 := by
    rw [← List.cons_append, List.getLast?_append_of_ne_nil _ (List.cons_ne_nil _ _)]
    rfl
  unfold unbracket
  rw [hlast, decide_eq_true hlength]
  show (host ++ [93]).dropLast = host
  exact List.dropLast_concat

/-- What is between the ends of a text that has brackets there. -/
theorem exists_bracketed {host : Text} (hlength : 2 < host.length) (hhead : host.head? = some 91)
    (hlast : host.getLast? = some 93) : ∃ h, h ≠ [] ∧ host = 91 :: (h ++ [93]) := by
  obtain ⟨h, rfl⟩ := List.getLast?_eq_some_iff.1 hlast
  cases h with
  | nil => exact absurd hlength (by decide)
  | cons c r =>
    rw [List.cons_append, List.head?_cons, Option.some.injEq] at hhead
    refine ⟨r, ?_, by rw [hhead]; rfl⟩
    rintro rfl
    exact absurd hlength (by simp)

theorem unbracket_plain {host : Text} (h : ∀ g, g ≠ [] → host ≠ 91 :: (g ++ [93])) :
    unbracket host = host := by
  unfold unbracket
  rw [if_neg]
  simp only [Bool.and_eq_true, decide_eq_true_eq, beq_iff_eq, not_and]
  intro hends hlast
  obtain ⟨g, hne, heq⟩ := exists_bracketed hends.1 hends.2 hlast
  exact h g hne heq

/-- There is one host for all that can stand in front of the colon. -/
theorem names_iff {written host : Text} : Names written host ↔ unbracket written = host := by
  constructor
  · intro h
    cases h with
    | bracketed hne => exact unbracket_bracketed hne
    | plain hnone => exact unbracket_plain hnone
  · rintro rfl
    by_cases hbrackets : ∃ h, h ≠ [] ∧ written = 91 :: (h ++ [93])
    · obtain ⟨h, hne, rfl⟩ := hbrackets
      rw [unbracket_bracketed hne]
      exact .bracketed hne
    · have hnone : ∀ h, h ≠ [] → written ≠ 91 :: (h ++ [93]) :=
        fun h hne heq => hbrackets ⟨h, hne, heq⟩
      rw [unbracket_plain hnone]
      exact .plain hnone

/-! ## Ports -/

/-- A port from 1 to 65535, in digits and nothing else. -/
def PlainPort (t : Text) (p : UInt16) : Prop :=
  t ≠ [] ∧ IsDecimal t ∧ Numeral.value t = p.toNat ∧ p ≠ 0

/-- A port from 1 to 65535, up to the first NUL in any spelling of a number. -/
def LoosePort (t : Text) (p : UInt16) : Prop :=
  ∃ w : Numeral.Spelling, untilNul t = w.toText ∧ w.toInt = p.toNat ∧ p ≠ 0

variable {t : Text} {p : UInt16}

theorem PlainPort.loosePort (h : PlainPort t p) : LoosePort t p := by
  obtain ⟨hne, hdecimal, hvalue, hp⟩ := h
  have hnul : 0 ∉ t := fun hmem => absurd (hdecimal 0 hmem) (by decide)
  let w : Numeral.Spelling :=
    { blank := []
      sign := .absent
      digits := t
      isBlank := Text.isBlank_nil
      isDecimal := hdecimal
      digits_ne_nil := hne }
  exact ⟨w, Text.untilNul_eq_self hnul, congrArg _ hvalue, hp⟩

theorem LoosePort.plainPort (h : LoosePort t p) (hnul : 0 ∉ t)
    (hhead : ∀ c ∈ t.head?, isDigit c = true) : PlainPort t p := by
  obtain ⟨w, hw, hvalue, hp⟩ := h
  rw [Text.untilNul_eq_self hnul] at hw
  subst hw
  obtain ⟨hsign, hdigits⟩ := w.toText_eq_digits hhead
  have hmagnitude : (w.magnitude : Int) = p.toNat := by
    rwa [Numeral.Spelling.toInt, hsign, if_neg (by decide)] at hvalue
  refine ⟨w.toText_ne_nil, ?_, ?_, hp⟩
  · rw [hdigits]
    exact w.isDecimal
  · rw [hdigits]
    exact Int.ofNat.inj hmagnitude

/-- The numerals that are ports are loose ports. -/
theorem whole?_bind_toPort? :
    (Numeral.whole? t).bind Numeral.toPort? = some p ↔ LoosePort t p := by
  rw [Option.bind_eq_some_iff]
  constructor
  · rintro ⟨n, hwhole, hport⟩
    rcases Numeral.whole?_eq_some_iff.1 hwhole with ⟨-, rfl⟩ | ⟨w, htext, rfl⟩
    · cases hport
    · exact ⟨w, htext, w.toPort?_numeral.1 hport⟩
  · rintro ⟨w, htext, hvalue⟩
    exact ⟨w.numeral, Numeral.whole?_eq_some_iff.2 (.inr ⟨w, htext, rfl⟩), w.toPort?_numeral.2 hvalue⟩

theorem LoosePort.ne_nil (h : LoosePort t p) : t ≠ [] := by
  rintro rfl
  obtain ⟨w, hw, -⟩ := h
  exact w.toText_ne_nil hw.symm

/-! ## Addresses -/

/-- A text is composed of a host and a port, and the address has nothing else. -/
def Composed (Port : Text → UInt16 → Prop) (t : Text) (a : Address) : Prop :=
  ∃ host port, t = host ++ 58 :: port ∧ 58 ∉ port ∧ host ≠ [] ∧ Port port a.dataPort ∧
    Names host a.host ∧ a.rpcPort = 0 ∧ a.socketPath = []

/-- **The texts that are addresses.** -/
theorem parse?_iff {a : Address} : parse? t = some a ↔ Composed LoosePort t a := by
  unfold parse?
  constructor
  · intro h
    split at h
    · cases h
    next host port hsplit =>
    obtain ⟨rfl, hcolon⟩ := Text.splitLast_iff.1 hsplit
    simp only [Bool.or_eq_true, List.isEmpty_iff, Option.ite_none_left_eq_some, not_or] at h
    obtain ⟨⟨hhost, -⟩, h⟩ := h
    split at h
    · cases h
    next p hport =>
    cases h
    exact ⟨host, port, rfl, hcolon, hhost, whole?_bind_toPort?.1 hport, names_iff.2 rfl, rfl, rfl⟩
  · rintro ⟨host, port, rfl, hcolon, hhost, hport, hnames, hrpc, hpath⟩
    rw [Text.splitLast_append hcolon]
    simp only [Bool.or_eq_true, List.isEmpty_iff, hhost, hport.ne_nil, or_self, if_false,
      whole?_bind_toPort?.2 hport, names_iff.1 hnames]
    rw [← hrpc, ← hpath]

theorem update_eq_iff {a b : Address} : a.update t = (true, b) ↔ parse? t = some b := by
  unfold update
  cases parse? t <;> simp

/-- **Addresses are taken over whole, or not at all.**  What is taken over is composed of a host and a
loose port, whatever the address was before; on every other text the address stays as it was.  Among
the texts that are taken are all with a plain port, and they are the only ones where the port has no
NUL and begins with a digit. -/
theorem update_composed (a : Address) (t : Text) :
    (∀ b, a.update t = (true, b) ↔ Composed LoosePort t b) ∧
    ((∀ b, ¬Composed LoosePort t b) → a.update t = (false, a)) ∧
    (∀ b, Composed PlainPort t b → a.update t = (true, b)) ∧
    ((∀ host port, t = host ++ 58 :: port → 58 ∉ port → 0 ∉ port ∧
        ∀ c ∈ port.head?, isDigit c = true) →
      ∀ b, a.update t = (true, b) ↔ Composed PlainPort t b) := by
  have hloose : ∀ b, a.update t = (true, b) ↔ Composed LoosePort t b := by
    intro b
    rw [update_eq_iff, parse?_iff]
  have hplain : ∀ b, Composed PlainPort t b → Composed LoosePort t b := by
    rintro b ⟨host, port, ht, hcolon, hhost, hport, hrest⟩
    exact ⟨host, port, ht, hcolon, hhost, hport.loosePort, hrest⟩
  refine ⟨hloose, ?_, fun b hb => (hloose b).2 (hplain b hb), ?_⟩
  · intro hnone
    unfold update
    cases hparse : parse? t with
    | none => rfl
    | some b => exact absurd (parse?_iff.1 hparse) (hnone b)
  · intro hdigits b
    rw [hloose]
    constructor
    · rintro ⟨host, port, ht, hcolon, hhost, hport, hrest⟩
      obtain ⟨hnul, hhead⟩ := hdigits host port ht hcolon
      exact ⟨host, port, ht, hcolon, hhost, hport.plainPort hnul hhead, hrest⟩
    · exact hplain b

/-- There is only one way to take a text apart. -/
theorem port_eq {host port x y : Text} (ht : t = host ++ 58 :: port) (hcolon : 58 ∉ port)
    (hsplit : Text.splitLast 58 t = some (x, y)) : port = y := by
  rw [Text.splitLast_iff.2 ⟨ht, hcolon⟩, Option.some.injEq, Prod.mk.injEq] at hsplit
  exact hsplit.2

/-- With anything but digits behind the last colon there is no plain port. -/
theorem not_composed_plainPort {x y : Text} {c : UInt8} (hsplit : Text.splitLast 58 t = some (x, y))
    (hc : c ∈ y) (hdigit : isDigit c = false) (a : Address) : ¬Composed PlainPort t a := by
  rintro ⟨host, port, ht, hcolon, -, ⟨-, hdecimal, -⟩, -⟩
  rw [port_eq ht hcolon hsplit] at hdecimal
  exact absurd (hdecimal c hc) (by rw [hdigit]; decide)

/-- An address with a port for calls and a path, both of which are lost when it is replaced. -/
def homeWorker : Address :=
  { host := text "home", rpcPort := 29998, dataPort := 29999, socketPath := text "/run/worker" }

/-- A literal in brackets is taken over, and without a colon nothing is. -/
theorem update_composed_homeWorker :
    (∀ host port, text "[::1]:0080" = host ++ 58 :: port → 58 ∉ port → 0 ∉ port ∧
      ∀ c ∈ port.head?, isDigit c = true) ∧
    Composed PlainPort (text "[::1]:0080") { host := text "::1", dataPort := 80 } ∧
    homeWorker.update (text "[::1]:0080") = (true, { host := text "::1", dataPort := 80 }) ∧
    (∀ b, ¬Composed LoosePort (text "worker1") b) ∧
    homeWorker.update (text "worker1") = (false, homeWorker) := by
  have hport : ∀ host port, text "[::1]:0080" = host ++ 58 :: port → 58 ∉ port → 0 ∉ port ∧
      ∀ c ∈ port.head?, isDigit c = true := by
    intro host port ht hcolon
    rw [port_eq ht hcolon (y := text "0080") rfl]
    refine ⟨by decide, fun c hc => ?_⟩
    obtain rfl : 48 = c := Option.some.inj hc
    decide
  have hplain : Composed PlainPort (text "[::1]:0080") { host := text "::1", dataPort := 80 } :=
    ⟨text "[::1]", text "0080", by decide, by decide, by decide,
      ⟨by decide, by decide, by decide, by decide⟩, names_iff.2 (by decide), rfl, rfl⟩
  have hnone : ∀ b, ¬Composed LoosePort (text "worker1") b := by
    rintro b ⟨host, port, ht, -⟩
    have hcolon : 58 ∈ text "worker1" := ht ▸ List.mem_append_right _ (List.mem_cons_self ..)
    exact absurd hcolon (by decide)
  obtain ⟨-, -, -, hdigits⟩ := update_composed homeWorker (text "[::1]:0080")
  obtain ⟨-, hkept, -, -⟩ := update_composed homeWorker (text "worker1")
  exact ⟨hport, hplain, (hdigits hport _).2 hplain, hnone, hkept hnone⟩

/-- White space, a plus sign and what stands behind a NUL are all taken with a port, and none of the
three texts has a plain one. -/
theorem loose_ports_taken :
    homeWorker.update (text "h: 80") = (true, { host := text "h", dataPort := 80 }) ∧
    homeWorker.update (text "h:+80") = (true, { host := text "h", dataPort := 80 }) ∧
    homeWorker.update (text "h:80" ++ [0, 120]) = (true, { host := text "h", dataPort := 80 }) ∧
    (∀ b, ¬Composed PlainPort (text "h: 80") b) ∧ (∀ b, ¬Composed PlainPort (text "h:+80") b) ∧
    ∀ b, ¬Composed PlainPort (text "h:80" ++ [0, 120]) b := by
  refine ⟨by decide, by decide, by decide, ?_, ?_, ?_⟩
  · exact not_composed_plainPort (x := text "h") (y := text " 80") (c := 32) rfl (by decide) (by decide)
  · exact not_composed_plainPort (x := text "h") (y := text "+80") (c := 43) rfl (by decide) (by decide)
  · exact not_composed_plainPort (x := text "h") (y := text "80" ++ [0, 120]) (c := 0) rfl (by decide)
      (by decide)

end BlockAccess.Address
