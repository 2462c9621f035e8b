import BlockAccess.Command.Arguments
import BlockAccess.Proofs.Numeral

/-!
# Numbers on the command line

The block, its length and the range are written as arguments.  An argument without a minus sign is
read as the number that it writes (`Writes`), or it is refused.  One whose minus sign is the first
character is refused; one with white space in front of its minus sign is not, and is read as the
complement of what it writes (`Complements`).  There is no other way to be read (`number?_iff`).

A range is two such texts around a colon, and neither of them can hold another colon, so it does not
matter which colon is looked for (`range?_iff`).

The run goes by numbers that were read so from an argument.  `range_of_scan` follows the range through
the options, where the last one counts, and `operands_of_scan` the operands; `arguments_mean` is about
both.
-/

namespace BlockAccess.Command

open Numeral (Spelling)
open Text (untilNul)

/-! ## One number -/

/-- The text is the spelling of the number, without a minus sign. -/
def Writes (t : Text) (n : UInt64) : Prop :=
  ∃ w : Spelling, w.toText = t ∧ w.sign ≠ .minus ∧ w.magnitude = n.toNat

/-- The text is a spelling with a minus sign behind white space, and the number is the complement of
what the digits write. -/
def Complements (t : Text) (n : UInt64) : Prop :=
  ∃ w : Spelling, w.toText = t ∧ w.sign = .minus ∧ w.blank ≠ [] ∧ w.magnitude < UInt64.size ∧
    n = 0 - UInt64.ofNat w.magnitude

/-- The ways in which a text is read as a number. -/
def Reads (t : Text) (n : UInt64) : Prop := Writes t n ∨ Complements t n

theorem Complements.minus_mem {t : Text} {n : UInt64} (h : Complements t n) : 45 ∈ t := by
  obtain ⟨w, rfl, hsign, -⟩ := h
  exact w.minus_mem_toText_iff.2 hsign

/-- Where no minus sign is written, the number is the one that is. -/
theorem reads_iff_of_notMem {t : Text} {n : UInt64} (h : 45 ∉ t) : Reads t n ↔ Writes t n :=
  or_iff_left fun hc => h hc.minus_mem

/-- No number is written with a NUL or with a colon. -/
theorem Reads.notMem {t : Text} {n : UInt64} (h : Reads t n) {c : UInt8} (hc : c = 0 ∨ c = 58) :
    c ∉ t := by
  rcases h with ⟨w, rfl, -⟩ | ⟨w, rfl, -⟩
  · exact w.notMem_toText hc
  · exact w.notMem_toText hc

/-- **The texts that are read as a number.** -/
theorem number?_iff {t : Text} {n : UInt64} (h : 0 ∉ t) : number? t = some n ↔ Reads t n := by
  have hcut := Text.untilNul_eq_self h
  cases t with
  | nil =>
    constructor
    · intro hread
      exact absurd hread (by simp [number?, untilNul])
    · rintro (⟨w, hw, -⟩ | ⟨w, hw, -⟩) <;> exact absurd hw w.toText_ne_nil
  | cons c r =>
    have hminus : ∀ w : Spelling, w.toText = c :: r → (c = 45 ↔ w.sign = .minus ∧ w.blank = []) := by
      intro w hw
      rw [← w.head?_toText_eq_minus_iff, hw, List.head?_cons, Option.some.injEq]
    rw [number?, hcut]
    show (if c = 45 then none else (Numeral.whole? (c :: r)).bind Numeral.toUInt64?) = some n ↔ _
    rw [Option.ite_none_left_eq_some, Option.bind_eq_some_iff]
    constructor
    · rintro ⟨hc, m, hwhole, hword⟩
      rcases Numeral.whole?_eq_some_iff.1 hwhole with ⟨hnone, -⟩ | ⟨w, hw, rfl⟩
      · exact absurd (hcut.symm.trans hnone) (List.cons_ne_nil c r)
      replace hw : w.toText = c :: r := hw.symm.trans hcut
      by_cases hsign : w.sign = .minus
      · obtain ⟨hfit, hn⟩ := (w.toUInt64?_numeral_of_minus hsign).1 hword
        exact .inr ⟨w, hw, hsign, fun hblank => hc ((hminus w hw).2 ⟨hsign, hblank⟩), hfit, hn⟩
      · exact .inl ⟨w, hw, hsign, (w.toUInt64?_numeral hsign).1 hword⟩
    · rintro (⟨w, hw, hsign, hvalue⟩ | ⟨w, hw, hsign, hblank, hfit, hn⟩)
      · exact ⟨fun hc => hsign ((hminus w hw).1 hc).1, w.numeral,
          Numeral.whole?_eq_some_iff.2 (.inr ⟨w, hcut.trans hw.symm, rfl⟩),
          (w.toUInt64?_numeral hsign).2 hvalue⟩
      · exact ⟨fun hc => hblank ((hminus w hw).1 hc).2, w.numeral,
          Numeral.whole?_eq_some_iff.2 (.inr ⟨w, hcut.trans hw.symm, rfl⟩),
          (w.toUInt64?_numeral_of_minus hsign).2 ⟨hfit, hn⟩⟩

/-! ## A range -/

/-- The ways in which a text is read as a range. -/
def ReadsRange (t : Text) (r : UInt64 × UInt64) : Prop :=
  ∃ offset length, t = offset ++ 58 :: length ∧ Reads offset r.1 ∧ Reads length r.2

/-- **The texts that are read as a range.** -/
theorem range?_iff {t : Text} {r : UInt64 × UInt64} (h : 0 ∉ t) :
    range? t = some r ↔ ReadsRange t r := by
  unfold range?
  constructor
  · intro hread
    split at hread
    · cases hread
    next offset length hsplit =>
    obtain ⟨rfl, -⟩ := Text.splitFirst_iff.1 hsplit
    rw [List.mem_append, List.mem_cons, not_or, not_or] at h
    split at hread
    · next o l hoffset hlength =>
      cases hread
      exact ⟨offset, length, rfl, (number?_iff h.1).1 hoffset, (number?_iff h.2.2).1 hlength⟩
    · cases hread
  · rintro ⟨offset, length, rfl, hoffset, hlength⟩
    rw [Text.splitFirst_append (hoffset.notMem (.inr rfl))]
    simp only [(number?_iff (hoffset.notMem (.inl rfl))).2 hoffset,
      (number?_iff (hlength.notMem (.inl rfl))).2 hlength]

/-! ## All arguments -/

/-- The range stands among the arguments, right behind its option. -/
def Given (arguments : List Text) (r : UInt64 × UInt64) : Prop :=
  ∃ option t, [option, t] <:+: arguments ∧ isOption option (text "-p") = true ∧ range? t = some r

/-- What going through some arguments adds to what was found before. -/
structure Adds (arguments : List Text) (a b : Arguments) : Prop where
  /-- A range is an earlier one or was given. -/
  range : ∀ r, b.range = some r → a.range = some r ∨ Given arguments r
  /-- The operands are earlier ones, or they are the arguments from one of them on. -/
  operands : b.operands = a.operands ∨ b.operands <:+ arguments

namespace Adds

variable {a a' b : Arguments} {arguments rest : List Text}

/-- Nothing changes but what is no number. -/
theorem of_same (hrange : b.range = a.range) (hoperands : b.operands = a.operands) :
    Adds arguments a b where
  range _ hr := .inl (hrange ▸ hr)
  operands := .inl hoperands

/-- The rest of the arguments are operands. -/
theorem of_operands (hrange : b.range = a.range) (hoperands : b.operands = arguments) :
    Adds arguments a b where
  range _ hr := .inl (hrange ▸ hr)
  operands := .inr (hoperands ▸ List.suffix_refl arguments)

/-- What the rest of the arguments adds is added by all of them. -/
theorem of_rest (h : Adds rest a' b) (hrest : rest <:+ arguments)
    (hrange : ∀ r, a'.range = some r → a.range = some r ∨ Given arguments r)
    (hoperands : a'.operands = a.operands) : Adds arguments a b where
  range r hr := by
    rcases h.range r hr with hearlier | ⟨option, t, hwithin, hoption, hread⟩
    · exact hrange r hearlier
    · exact .inr ⟨option, t, hwithin.trans hrest.isInfix, hoption, hread⟩
  operands := by
    rcases h.operands with hsame | hsuffix
    · exact .inl (hsame.trans hoperands)
    · exact .inr (hsuffix.trans hrest)

end Adds

/-- **The arguments are gone through from the front.**  The cases are those of an option, of the
errand and of an operand, first where it is the last argument and then where more follow. -/
theorem adds_of_scan {a b : Arguments} {arguments : List Text}
    (h : a.scan arguments = some b) : Adds arguments a b := by
  fun_induction Arguments.scan a arguments with
  | case1 a => cases h; exact .of_same rfl rfl
  | case2 a x hverbose => cases h; exact .of_same rfl rfl
  | case3 a x _ herrand => cases h; exact .of_same rfl rfl
  | case4 a x => cases h; exact .of_operands rfl rfl
  | case5 a x y rest hverbose ih =>
    exact (ih h).of_rest (List.suffix_cons ..) (fun _ => .inl) rfl
  | case6 a x y rest _ hproperties ih =>
    exact (ih h).of_rest ((List.suffix_cons ..).trans (List.suffix_cons ..)) (fun _ => .inl) rfl
  | case7 => cases h
  | case8 a x y rest _ _ hoption r hread ih =>
    refine (ih h).of_rest ((List.suffix_cons ..).trans (List.suffix_cons ..)) (fun q hq => ?_) rfl
    cases hq
    exact .inr ⟨x, y, ⟨[], rest, rfl⟩, hoption, hread⟩
  | case9 a x y rest _ _ _ herrand ih =>
    exact (ih h).of_rest (List.suffix_cons ..) (fun _ => .inl) rfl
  | case10 a x y rest => cases h; exact .of_operands rfl rfl

theorem suffix_of_errand? {a : Arguments} {e : Errand} {operands : List Text}
    (h : errand? a = some (e, operands)) : operands <:+ a.operands := by
  unfold errand? at h
  split at h
  · split at h
    · cases h
    next address rest hoperands =>
    obtain ⟨x, -, hx⟩ := Option.map_eq_some_iff.1 h
    cases hx
    rw [hoperands]
    exact List.suffix_cons ..
  split at h
  · cases h
    exact List.suffix_refl _
  · cases h

theorem of_numbers? {b l output : Text} {x : UInt64 × UInt64 × Text}
    (h : numbers? b l output = some x) : number? b = some x.1 ∧ number? l = some x.2.1 := by
  unfold numbers? at h
  split at h
  · next n m hb hl =>
    cases h
    exact ⟨hb, hl⟩
  · cases h

/-- The first two operands are the block and its length. -/
theorem exists_of_operands? {operands : List Text} {x : UInt64 × UInt64 × Text}
    (h : operands? operands = some x) :
    ∃ b l, [b, l] <+: operands ∧ number? b = some x.1 ∧ number? l = some x.2.1 := by
  unfold operands? at h
  split at h
  · next b l => exact ⟨b, l, List.prefix_refl _, of_numbers? h⟩
  · next b l output => exact ⟨b, l, ⟨[output], rfl⟩, of_numbers? h⟩
  · cases h

/-- **Arguments mean the numbers that they write, unless white space hides a minus sign.**  For any
arguments and every one of them, as a number and as a range; and for the run that goes by them, whose
range and whose numbers of the block and its length stand among them. -/
theorem arguments_mean (arguments : List Text) :
    (∀ t ∈ arguments, 0 ∉ t →
      (∀ n, number? t = some n ↔ Writes t n ∨ Complements t n) ∧
      (∀ o l, range? t = some (o, l) ↔ ∃ x y, t = x ++ 58 :: y ∧
        (Writes x o ∨ Complements x o) ∧ (Writes y l ∨ Complements y l)) ∧
      (45 ∉ t → (∀ n, number? t = some n ↔ Writes t n) ∧
        ∀ o l, range? t = some (o, l) ↔ ∃ x y, t = x ++ 58 :: y ∧ Writes x o ∧ Writes y l)) ∧
    ∀ a, Arguments.scan {} (arguments.map untilNul) = some a →
      (∀ r, a.range = some r → ∃ option t, [option, t] <:+: arguments.map untilNul ∧
        isOption option (text "-p") = true ∧ ReadsRange t r) ∧
      ∀ e operands block length output, errand? a = some (e, operands) →
        operands? operands = some (block, length, output) →
        ∃ b l, [b, l] <:+: arguments.map untilNul ∧ Reads b block ∧ Reads l length := by
  constructor
  · intro t _ h
    refine ⟨fun n => number?_iff h, fun o l => range?_iff h, fun hminus => ⟨fun n => ?_, fun o l => ?_⟩⟩
    · rw [number?_iff h, reads_iff_of_notMem hminus]
    · rw [range?_iff h]
      constructor
      · rintro ⟨x, y, rfl, hx, hy⟩
        rw [List.mem_append, List.mem_cons, not_or, not_or] at hminus
        exact ⟨x, y, rfl, (reads_iff_of_notMem hminus.1).1 hx, (reads_iff_of_notMem hminus.2.2).1 hy⟩
      · rintro ⟨x, y, rfl, hx, hy⟩
        exact ⟨x, y, rfl, .inl hx, .inl hy⟩
  · intro a hscan
    have hnul : ∀ t ∈ arguments.map untilNul, 0 ∉ t := by
      intro t ht
      obtain ⟨u, -, rfl⟩ := List.mem_map.1 ht
      exact Text.zero_notMem_untilNul u
    have hadds := adds_of_scan hscan
    constructor
    · intro r hr
      rcases hadds.range r hr with hnone | ⟨option, t, hwithin, hoption, hread⟩
      · cases hnone
      · exact ⟨option, t, hwithin, hoption, (range?_iff (hnul t (hwithin.subset (by simp)))).1 hread⟩
    · intro e operands block length output herrand hoperands
      obtain ⟨b, l, hfront, hb, hl⟩ := exists_of_operands? hoperands
      have hsuffix : a.operands <:+ arguments.map untilNul := by
        rcases hadds.operands with hnone | hsuffix
        · rw [hnone]
          exact List.nil_suffix
        · exact hsuffix
      have hwithin : [b, l] <:+: arguments.map untilNul :=
        hfront.isInfix.trans ((suffix_of_errand? herrand).trans hsuffix).isInfix
      exact ⟨b, l, hwithin, (number?_iff (hnul b (hwithin.subset (by simp)))).1 hb,
        (number?_iff (hnul l (hwithin.subset (by simp)))).1 hl⟩

/-- Seven with all that may stand in front of it. -/
def plusSeven : Spelling where
  blank := text "  "
  sign := .plus
  digits := text "7"
  isBlank := by decide
  isDecimal := by decide
  digits_ne_nil := by decide

/-- Two bytes from the place 1 on, of a block 7 of 3 bytes. -/
def positioned : List Text := [text "-p", text "1: 2", text "local", text "  +7", text "3"]

/-- What these arguments come to. -/
def positionedArguments : Arguments :=
  { errand := text "local", range := some (1, 2), operands := [text "  +7", text "3"] }

theorem arguments_mean_positioned :
    (text "  +7" ∈ positioned ∧ 0 ∉ text "  +7" ∧ 45 ∉ text "  +7" ∧ number? (text "  +7") = some 7) ∧
    Arguments.scan {} (positioned.map untilNul) = some positionedArguments ∧
    (∃ option t, [option, t] <:+: positioned.map untilNul ∧ isOption option (text "-p") = true ∧
      ReadsRange t (1, 2)) ∧
    errand? positionedArguments = some (.localBlock, [text "  +7", text "3"]) ∧
    operands? [text "  +7", text "3"] = some (7, 3, []) ∧
    ∃ b l, [b, l] <:+: positioned.map untilNul ∧ Reads b 7 ∧ Reads l 3 := by
  have hscan : Arguments.scan {} (positioned.map untilNul) = some positionedArguments := by decide
  have herrand : errand? positionedArguments = some (.localBlock, [text "  +7", text "3"]) := by decide
  have hoperands : operands? [text "  +7", text "3"] = some (7, 3, []) := by decide
  have hmem : text "  +7" ∈ positioned := by decide
  obtain ⟨hread, hrun⟩ := arguments_mean positioned
  obtain ⟨hranges, hnumbers⟩ := hrun positionedArguments hscan
  have hseven := ((hread (text "  +7") hmem (by decide)).2.2 (by decide)).1 7
  exact ⟨⟨hmem, by decide, by decide, hseven.2 ⟨plusSeven, by decide, by decide, by decide⟩⟩, hscan,
    hranges (1, 2) rfl, herrand, hoperands, hnumbers _ _ _ _ _ herrand hoperands⟩

/-- Minus one behind a blank is the largest number there is, on its own and in a range. -/
theorem minus_one_read :
    number? (text " -1") = some 18446744073709551615 ∧
    range? (text "0: -1") = some (0, 18446744073709551615) ∧ ¬∃ n, Writes (text " -1") n := by
  refine ⟨by decide, by decide, ?_⟩
  rintro ⟨n, w, hw, hsign, -⟩
  exact hsign (w.minus_mem_toText_iff.1 (hw ▸ by decide))

end BlockAccess.Command
