import BlockAccess.Proofs.Address

/-!
# Written addresses are read again

The written form of an address has its host as it is, without brackets, and its port in digits.  An
address that was read has a host, a port that is not zero and no path, so its written form is read
again: the digits write the port (`plainPort_decimal`), and there is no colon behind the one in
front of them.  Only the host can change.  What is written for it is taken for what stands in front
of a colon, and if that is in brackets they are dropped.

Reading has dropped a pair of brackets already, so this happens to hosts that were written in two
pairs (`update_toText_iff`).  All others come back as they are, whether they were in brackets or not
and however many colons they have.
-/

namespace BlockAccess.Address

variable {a : Address} {t : Text}

/-- The digits of a port are a port. -/
theorem plainPort_decimal {p : UInt16} (h : p ≠ 0) : PlainPort (Text.decimal p.toNat) p :=
  ⟨Numeral.decimal_ne_nil _, Numeral.isDecimal_decimal _, Numeral.value_decimal _, h⟩

theorem PlainPort.colon_notMem {p : UInt16} (h : PlainPort t p) : 58 ∉ t :=
  fun hmem => absurd (h.2.1 58 hmem) (by decide)

theorem toText_eq (hpath : a.socketPath = []) :
    a.toText = a.host ++ 58 :: Text.decimal a.dataPort.toNat := by
  have hcolon : text ":" = [58] := by decide
  unfold toText
  rw [hpath, List.isEmpty_nil, if_pos rfl, hcolon, List.append_assoc, List.singleton_append]

/-- A written address is composed of its host and its port. -/
theorem composed_toText (hhost : a.host ≠ []) (hport : a.dataPort ≠ 0) (hpath : a.socketPath = []) :
    Composed PlainPort a.toText { host := unbracket a.host, dataPort := a.dataPort } := by
  have hplain := plainPort_decimal hport
  exact ⟨a.host, _, toText_eq hpath, hplain.colon_notMem, hhost, hplain, names_iff.2 rfl, rfl, rfl⟩

/-- No host is without a name. -/
theorem Names.ne_nil {written host : Text} (h : Names written host) (hne : written ≠ []) :
    host ≠ [] := by
  cases h with
  | bracketed hhost => exact hhost
  | plain _ => exact hne

/-- An address that was read is read again, and only its host can be another one. -/
theorem parse?_toText (h : Composed LoosePort t a) :
    parse? a.toText = some { host := unbracket a.host, dataPort := a.dataPort } := by
  obtain ⟨written, port, -, -, hne, ⟨-, -, -, hport⟩, hnames, -, hpath⟩ := h
  obtain ⟨host, digits, ht, hcolon, hhost, hplain, hrest⟩ :=
    composed_toText (hnames.ne_nil hne) hport hpath
  exact parse?_iff.2 ⟨host, digits, ht, hcolon, hhost, hplain.loosePort, hrest⟩

/-! ## Brackets -/

/-- A text with two pairs of brackets around it, and something between them. -/
def TwiceBracketed (written : Text) : Prop := ∃ h, h ≠ [] ∧ written = 91 :: 91 :: (h ++ [93, 93])

theorem twiceBracketed_iff {host : Text} :
    TwiceBracketed (91 :: (host ++ [93])) ↔ ∃ h, h ≠ [] ∧ host = 91 :: (h ++ [93]) := by
  have hsplit (h : Text) : 91 :: (host ++ [93]) = 91 :: 91 :: (h ++ [93, 93]) ↔
      host = 91 :: (h ++ [93]) := by
    have hlast : 91 :: (h ++ [93, 93]) = 91 :: (h ++ [93]) ++ [93] := by
      rw [List.cons_append, List.append_assoc, List.singleton_append]
    rw [hlast, List.cons_inj_right, List.append_left_inj]
  unfold TwiceBracketed
  simp only [hsplit]

/-- Without brackets around it a host stays as it is, and only then. -/
theorem unbracket_eq_self_iff {host : Text} :
    unbracket host = host ↔ ∀ h, h ≠ [] → host ≠ 91 :: (h ++ [93]) := by
  constructor
  · rintro hsame h hne rfl
    have hlength := congrArg List.length ((unbracket_bracketed hne).symm.trans hsame)
    simp only [List.length_cons, List.length_append, List.length_nil] at hlength
    omega
  · exact unbracket_plain

/-- A host that was read is in brackets if two pairs were written around it, and only then. -/
theorem Names.unbracket_eq_iff {written host : Text} (h : Names written host) :
    unbracket host = host ↔ ¬TwiceBracketed written := by
  rw [unbracket_eq_self_iff]
  cases h with
  | bracketed _ =>
    rw [twiceBracketed_iff]
    simp only [not_exists, not_and, ne_eq]
  | plain hnone =>
    refine iff_of_true hnone ?_
    rintro ⟨h, -, htwice⟩
    refine hnone (91 :: (h ++ [93])) (List.cons_ne_nil _ _) ?_
    rw [htwice, List.cons_append, List.append_assoc, List.singleton_append]

/-! ## Reading again -/

/-- **Written addresses are read again.**  Whatever text an address was read from, and whatever
address is replaced, the written form is taken over with the same port.  The host is the same as
well unless two pairs of brackets were written around it, of which the second is dropped then. -/
theorem update_toText_iff (old older : Address) (h : older.update t = (true, a)) :
    (∃ b, old.update a.toText = (true, b) ∧ Names a.host b.host ∧ b.dataPort = a.dataPort ∧
      b.rpcPort = a.rpcPort ∧ b.socketPath = a.socketPath) ∧
    (old.update a.toText = (true, a) ↔
      ∀ host port, t = host ++ 58 :: port → 58 ∉ port → ¬TwiceBracketed host) := by
  have hread : Composed LoosePort t a := parse?_iff.1 (update_eq_iff.1 h)
  have hagain := parse?_toText hread
  obtain ⟨host, port, ht, hcolon, -, -, hnames, hrpc, hpath⟩ := hread
  constructor
  · exact ⟨_, update_eq_iff.2 hagain, names_iff.2 rfl, rfl, hrpc.symm, hpath.symm⟩
  · have hsame : old.update a.toText = (true, a) ↔ unbracket a.host = a.host := by
      rw [update_eq_iff, hagain, Option.some.injEq]
      constructor
      · exact congrArg Address.host
      · intro hhost
        rw [hhost, ← hrpc, ← hpath]
    rw [hsame, hnames.unbracket_eq_iff]
    constructor
    · intro hone host' port' ht' hcolon'
      obtain ⟨rfl, -⟩ := Text.eq_of_last (ht.symm.trans ht') hcolon hcolon'
      exact hone
    · intro hone
      exact hone host port ht hcolon

theorem toText_eighty (host : Text) :
    ({ host, dataPort := 80 } : Address).toText = host ++ text ":80" := by
  have hport : Text.decimal (80 : UInt16).toNat = text "80" := by
    rw [Numeral.decimal_of_le (by decide), Numeral.decimal_of_lt (by decide)]
    decide
  rw [toText_eq rfl, hport]
  rfl

/-- Two pairs of brackets with nothing between them are a host that comes back as it is. -/
theorem update_toText_empty_brackets :
    homeWorker.update (text "[[]]:+080") = (true, { host := text "[]", dataPort := 80 }) ∧
      (∀ host port, text "[[]]:+080" = host ++ 58 :: port → 58 ∉ port → ¬TwiceBracketed host) ∧
      ({ host := text "[]", dataPort := 80 } : Address).toText = text "[]:80" ∧
      homeWorker.update (text "[]:80") = (true, { host := text "[]", dataPort := 80 }) := by
  have hread : homeWorker.update (text "[[]]:+080") =
      (true, { host := text "[]", dataPort := 80 }) := by decide
  have hwritten : ({ host := text "[]", dataPort := 80 } : Address).toText = text "[]:80" := by
    rw [toText_eighty]
    decide
  have hone : ∀ host port, text "[[]]:+080" = host ++ 58 :: port → 58 ∉ port →
      ¬TwiceBracketed host := by
    rintro host port ht hcolon ⟨h, hne, htwice⟩
    obtain ⟨rfl, -⟩ := Text.eq_of_last (a := text "[[]]") (b := text "+080") ht (by decide) hcolon
    have hlength := congrArg List.length htwice
    have hfour : (text "[[]]").length = 4 := by decide
    simp only [hfour, List.length_cons, List.length_append, List.length_nil] at hlength
    exact hne (List.length_eq_zero_iff.1 (by omega))
  obtain ⟨-, hagain⟩ := update_toText_iff homeWorker homeWorker hread
  rw [hwritten] at hagain
  exact ⟨hread, hone, hwritten, hagain.2 hone⟩

/-- A host in two pairs of brackets loses one of them each time it is read. -/
theorem brackets_lost :
    homeWorker.update (text "[[h]]:80") = (true, { host := text "[h]", dataPort := 80 }) ∧
      ({ host := text "[h]", dataPort := 80 } : Address).toText = text "[h]:80" ∧
      homeWorker.update (text "[h]:80") = (true, { host := text "h", dataPort := 80 }) ∧
      ({ host := text "h", dataPort := 80 } : Address) ≠
        { host := text "[h]", dataPort := 80 } := by
  refine ⟨by decide, ?_, by decide, by decide⟩
  rw [toText_eighty]
  decide

end BlockAccess.Address
