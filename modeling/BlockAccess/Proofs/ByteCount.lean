import Mathlib.Data.List.Basic
import BlockAccess.ByteCount
import BlockAccess.Proofs.Text.Cutting

/-!
# How sizes are written

A size is written as digits and a unit, with white space around both.  `Spelling` is such a way to
write one.  Its unit is the letter of a scale and a number of marks: the marks are the letters B at
the end, and there is at most one of them, or two where the scale has no letter of its own.  The
second of the two is what the rule for a final B lets through; a size with at most one mark is what
the settings are documented to take.

`parse_toText` reads a size as it was written, `exists_of_parse` finds out how a size that was read
had been written, and `parse_spellings` puts both together.
-/

namespace BlockAccess.ByteCount

open Text (IsBlank IsDecimal Stops isDigit isSpace upper trim)

/-! ## Units -/

/-- What a unit counts. -/
inductive Scale where
  | bytes
  | kilo
  | mega
  | giga
  | tera
  deriving DecidableEq, Repr

namespace Scale

/-- The letter of a scale, in upper case; single bytes have none. -/
def letter : Scale → Text
  | bytes => []
  | kilo => [75]
  | mega => [77]
  | giga => [71]
  | tera => [84]

/-- The number of bytes in a unit: a power of 1024. -/
def size : Scale → Nat
  | bytes => 1
  | kilo => 1024
  | mega => 1024 * 1024
  | giga => 1024 * 1024 * 1024
  | tera => 1024 * 1024 * 1024 * 1024

/-- A unit in upper case: the letter of the scale and its marks. -/
def unit (scale : Scale) (marks : Nat) : Text := scale.letter ++ List.replicate marks 66

/-- The marks that a unit may have: one, or two behind no letter. -/
def Allows (scale : Scale) (marks : Nat) : Prop := marks ≤ 1 ∨ scale = bytes ∧ marks = 2

end Scale

/-- No unit with one mark at most is two letters B. -/
theorem Scale.unit_ne_double {scale : Scale} {marks : Nat} (h : marks ≤ 1) :
    scale.unit marks ≠ [66, 66] := by
  obtain rfl | rfl : marks = 0 ∨ marks = 1 := by omega
  all_goals cases scale <;> decide

/-- Of the words that are looked up only the B is not the letter of a scale. -/
theorem bytesIn?_eq_some_iff {u : Text} {n : Nat} :
    bytesIn? u = some n ↔ (u = [66] ∧ n = 1) ∨ ∃ scale : Scale, u = scale.letter ∧ scale.size = n := by
  constructor
  · intro h
    unfold bytesIn? at h
    split at h <;> cases h
    · exact .inr ⟨.bytes, rfl, rfl⟩
    · exact .inl ⟨rfl, rfl⟩
    · exact .inr ⟨.kilo, rfl, rfl⟩
    · exact .inr ⟨.mega, rfl, rfl⟩
    · exact .inr ⟨.giga, rfl, rfl⟩
    · exact .inr ⟨.tera, rfl, rfl⟩
  · rintro (⟨rfl, rfl⟩ | ⟨scale, rfl, rfl⟩)
    · rfl
    · cases scale <;> rfl

/-- A final B is dropped behind another letter, and else everything stays. -/
theorem dropByteLetter_cases (u : Text) :
    dropByteLetter u = u ∨ u = dropByteLetter u ++ [66] := by
  unfold dropByteLetter
  split
  · next h =>
    simp only [Bool.and_eq_true, beq_iff_eq] at h
    exact .inr (List.dropLast_append_getLast? 66 h.2).symm
  · exact .inl rfl

/-- **The units.**  A word has a number of bytes if it is the letter of a scale with marks that the
scale allows. -/
theorem bytesIn?_dropByteLetter {u : Text} {n : Nat} :
    bytesIn? (dropByteLetter u) = some n ↔
      ∃ (scale : Scale) (marks : Nat), scale.Allows marks ∧ u = scale.unit marks ∧
        scale.size = n := by
  constructor
  · intro h
    rcases bytesIn?_eq_some_iff.1 h with ⟨hb, rfl⟩ | ⟨scale, hletter, rfl⟩
    · rcases dropByteLetter_cases u with hsame | hdropped
      · exact ⟨.bytes, 1, .inl (Nat.le_refl 1), hsame.symm.trans hb, rfl⟩
      · exact ⟨.bytes, 2, .inr ⟨rfl, rfl⟩, by rw [hdropped, hb]; rfl, rfl⟩
    · rcases dropByteLetter_cases u with hsame | hdropped
      · exact ⟨scale, 0, .inl (Nat.zero_le 1), by rw [← hsame, hletter]; exact (List.append_nil _).symm,
          rfl⟩
      · exact ⟨scale, 1, .inl (Nat.le_refl 1), by rw [hdropped, hletter]; rfl, rfl⟩
  · rintro ⟨scale, marks, hallowed, rfl, rfl⟩
    rcases hallowed with hone | ⟨rfl, rfl⟩
    · obtain rfl | rfl : marks = 0 ∨ marks = 1 := by omega
      all_goals cases scale <;> rfl
    · rfl

/-! ## Letters -/

theorem toNat_upper_le (c : UInt8) : (upper c).toNat ≤ c.toNat := by
  unfold upper
  split
  · next h =>
    simp only [Bool.and_eq_true, decide_eq_true_eq, UInt8.le_iff_toNat_le] at h
    rw [UInt8.toNat_sub_of_le]
    · exact Nat.sub_le ..
    · rw [UInt8.le_iff_toNat_le]
      exact Nat.le_trans (by decide) h.1
  · exact Nat.le_refl _

/-- What a unit is written with comes behind all digits and all white space. -/
theorem lt_of_mem_unit {u : Text} {scale : Scale} {marks : Nat}
    (h : u.map upper = scale.unit marks) : ∀ c ∈ u, 57 < c.toNat := by
  intro c hc
  have hmem : upper c ∈ scale.unit marks := h ▸ List.mem_map_of_mem hc
  have hupper : 57 < (upper c).toNat := by
    rcases List.mem_append.1 hmem with hletter | hmark
    · generalize upper c = d at hletter
      cases scale <;> simp only [Scale.letter, List.mem_singleton, List.not_mem_nil] at hletter <;>
        rw [hletter] <;> decide
    · rw [List.eq_of_mem_replicate hmark]
      decide
  exact Nat.lt_of_lt_of_le hupper (toNat_upper_le c)

/-! ## Spellings -/

/-- A way to write a size. -/
structure Spelling where
  before : Text
  digits : Text
  between : Text
  unit : Text
  after : Text
  scale : Scale
  /-- The number of letters B at the end of the unit. -/
  marks : Nat
  isBlank_before : IsBlank before
  isDecimal : IsDecimal digits
  digits_ne_nil : digits ≠ []
  isBlank_between : IsBlank between
  /-- The unit is written in either case. -/
  upper_unit : unit.map upper = scale.unit marks
  allows : scale.Allows marks
  isBlank_after : IsBlank after

namespace Spelling

variable (w : Spelling)

/-- The text of a spelling. -/
def toText : Text := w.before ++ (w.digits ++ (w.between ++ w.unit)) ++ w.after

/-- The number of bytes that a spelling means. -/
def bytes : Nat := Numeral.value w.digits * w.scale.size

theorem isSpace_of_mem_unit : ∀ c ∈ w.unit, isSpace c = false := by
  intro c hc
  have hlt := lt_of_mem_unit w.upper_unit c hc
  rw [← Bool.not_eq_true, Text.isSpace_iff]
  omega

theorem isDigit_of_mem_unit : ∀ c ∈ w.unit, isDigit c = false := by
  intro c hc
  have hlt := lt_of_mem_unit w.upper_unit c hc
  rw [← Bool.not_eq_true, Text.isDigit_iff]
  omega

/-- Behind the digits of a trimmed size there is its unit, and white space in front of that. -/
theorem exists_trim_toText :
    ∃ rest, trim w.toText = w.digits ++ rest ∧ Stops isDigit rest ∧ trim rest = w.unit := by
  have hdigits : ∀ c ∈ w.digits, isSpace c = false :=
    fun c hc => Text.isSpace_of_isDigit (w.isDecimal c hc)
  have hunit : trim w.unit = w.unit := Text.trim_eq_self (Text.isTight_of_forall w.isSpace_of_mem_unit)
  by_cases hbare : w.unit = []
  · -- Without a unit the white space in front of it is at the end and is trimmed as well.
    refine ⟨[], ?_, Text.stops_nil, by rw [hbare]; rfl⟩
    have hpadded : w.toText = w.before ++ w.digits ++ (w.between ++ w.after) := by
      rw [toText, hbare, List.append_nil, ← List.append_assoc, List.append_assoc]
    rw [hpadded, Text.trim_padded w.isBlank_before (w.isBlank_between.append w.isBlank_after),
      List.append_nil]
    exact Text.trim_eq_self (Text.isTight_of_forall hdigits)
  · refine ⟨w.between ++ w.unit, ?_, ?_, ?_⟩
    · rw [toText, Text.trim_padded w.isBlank_before w.isBlank_after]
      refine Text.trim_eq_self ⟨?_, ?_⟩
      · intro c hc
        rw [List.head?_append_of_ne_nil _ w.digits_ne_nil] at hc
        exact hdigits c (List.mem_of_mem_head? hc)
      · intro c hc
        rw [← List.append_assoc, List.getLast?_append_of_ne_nil _ hbare] at hc
        exact w.isSpace_of_mem_unit c (List.mem_of_mem_getLast? hc)
    · intro c hc
      rcases List.mem_append.1 (List.mem_of_mem_head? hc) with hblank | hletter
      · exact Text.isDigit_of_isSpace (w.isBlank_between c hblank)
      · exact w.isDigit_of_mem_unit c hletter
    · rw [← List.append_nil (w.between ++ w.unit), Text.trim_padded w.isBlank_between Text.isBlank_nil,
        hunit]

theorem takeWhile_trim_toText : (trim w.toText).takeWhile isDigit = w.digits := by
  obtain ⟨rest, htrim, hstops, -⟩ := w.exists_trim_toText
  rw [htrim, Text.takeWhile_append w.isDecimal hstops]

theorem trim_dropWhile_trim_toText : trim ((trim w.toText).dropWhile isDigit) = w.unit := by
  obtain ⟨rest, htrim, hstops, hunit⟩ := w.exists_trim_toText
  rw [htrim, Text.dropWhile_append w.isDecimal hstops, hunit]

/-- **A size is read as it was written, or is too large.** -/
theorem parse_toText : parse w.toText =
    if w.bytes < UInt64.size then .ok (UInt64.ofNat w.bytes) else .error .outOfRange := by
  have hunit : bytesIn? (dropByteLetter (w.unit.map upper)) = some w.scale.size :=
    bytesIn?_dropByteLetter.2 ⟨w.scale, w.marks, w.allows, w.upper_unit, rfl⟩
  have hsize : 1 ≤ w.scale.size := by cases w.scale <;> decide
  have hlimit : Numeral.limit = UInt64.size := rfl
  have hgrows : Numeral.value w.digits ≤ w.bytes := Nat.le_mul_of_pos_right _ hsize
  unfold parse
  simp only [takeWhile_trim_toText, trim_dropWhile_trim_toText, List.isEmpty_iff, w.digits_ne_nil,
    if_false, hunit, Numeral.ofDigits_eq_min]
  by_cases hfit : Numeral.value w.digits < UInt64.size
  · -- The digits fit, so the product decides.
    rw [Nat.min_eq_right (by omega), if_neg (Nat.not_le.2 hfit), ← bytes]
    by_cases hproduct : w.bytes < UInt64.size
    · rw [if_pos hproduct, if_neg (Nat.not_le.2 hproduct)]
    · rw [if_neg hproduct, if_pos (Nat.not_lt.1 hproduct)]
  · rw [Nat.min_eq_left (by omega), if_pos (Nat.le_of_eq hlimit.symm), if_neg (by omega)]

/-- The text of a size says what its unit is. -/
theorem unit_eq {t : Text} (h : w.toText = t) :
    w.scale.unit w.marks = (trim ((trim t).dropWhile isDigit)).map upper := by
  rw [← h, trim_dropWhile_trim_toText, upper_unit]

theorem parse_toText_eq_ok_iff {n : UInt64} : parse w.toText = .ok n ↔ w.bytes = n.toNat := by
  rw [parse_toText]
  constructor
  · intro h
    split at h
    · next hfit =>
      rw [← Except.ok.inj h]
      exact (UInt64.toNat_ofNat_of_lt' hfit).symm
    · cases h
  · intro h
    have hfit : w.bytes < UInt64.size := h ▸ n.toNat_lt
    rw [if_pos hfit, h, UInt64.ofNat_toNat]

end Spelling

/-- What is read as a size was written as one. -/
theorem exists_of_parse {t : Text} {n : UInt64} (h : parse t = .ok n) :
    ∃ w : Spelling, w.toText = t := by
  obtain ⟨before, after, hbefore, hafter, ht⟩ := Text.exists_padding t
  obtain ⟨between, behind, hbetween, hbehind, hrest⟩ :=
    Text.exists_padding ((trim t).dropWhile isDigit)
  unfold parse at h
  simp only [List.isEmpty_iff] at h
  split at h
  · cases h
  next hne =>
  split at h
  · cases h
  next hfit =>
  split at h
  · cases h
  next size hsize =>
  obtain ⟨scale, marks, hallows, hunit, rfl⟩ := bytesIn?_dropByteLetter.1 hsize
  let w : Spelling :=
    { before
      digits := (trim t).takeWhile isDigit
      between
      unit := trim ((trim t).dropWhile isDigit)
      after := behind ++ after
      scale
      marks
      isBlank_before := hbefore
      isDecimal := fun c hc => List.mem_takeWhile_imp hc
      digits_ne_nil := hne
      isBlank_between := hbetween
      upper_unit := hunit
      allows := hallows
      isBlank_after := hbehind.append hafter }
  refine ⟨w, ?_⟩
  calc w.toText
      = before ++ ((trim t).takeWhile isDigit ++ (between ++ trim ((trim t).dropWhile isDigit) ++
          behind)) ++ after := by
        simp only [Spelling.toText, w, List.append_assoc]
    _ = before ++ trim t ++ after := by rw [← hrest, List.takeWhile_append_dropWhile]
    _ = t := ht.symm

/-! ## All texts -/

/-- **The texts that are sizes.**  A text is read as a size exactly if it is the spelling of one that
is small enough, and it is read as that size.  A spelling of a larger one is out of range, and every
other text is at fault as well.  One mark at most is all that is read exactly if the text is no size
with two letters B behind its digits. -/
theorem parse_spellings (t : Text) :
    (∀ n, parse t = .ok n ↔ ∃ w : Spelling, w.toText = t ∧ w.bytes = n.toNat) ∧
    (∀ w : Spelling, w.toText = t → UInt64.size ≤ w.bytes → parse t = .error .outOfRange) ∧
    ((∀ w : Spelling, w.toText = t → UInt64.size ≤ w.bytes) → ∃ why, parse t = .error why) ∧
    ((∀ n, parse t = .ok n ↔ ∃ w : Spelling, w.marks ≤ 1 ∧ w.toText = t ∧ w.bytes = n.toNat) ↔
      ∀ w : Spelling, w.toText = t → w.bytes < UInt64.size → ¬(w.scale = .bytes ∧ w.marks = 2)) := by
  have hread : ∀ n, parse t = .ok n ↔ ∃ w : Spelling, w.toText = t ∧ w.bytes = n.toNat := by
    intro n
    constructor
    · intro h
      obtain ⟨w, rfl⟩ := exists_of_parse h
      exact ⟨w, rfl, w.parse_toText_eq_ok_iff.1 h⟩
    · rintro ⟨w, rfl, hbytes⟩
      exact w.parse_toText_eq_ok_iff.2 hbytes
  refine ⟨hread, ?_, ?_, ?_⟩
  · rintro w rfl hlarge
    rw [w.parse_toText, if_neg (Nat.not_lt.2 hlarge)]
  · intro hlarge
    cases hparse : parse t with
    | error why => exact ⟨why, rfl⟩
    | ok n =>
      obtain ⟨w, htext, hbytes⟩ := (hread n).1 hparse
      have hfit := n.toNat_lt
      exact absurd (hlarge w htext) (Nat.not_le.2 (hbytes ▸ hfit))
  · constructor
    · rintro hsingle w htext hfit ⟨hscale, hmarks⟩
      have hword : w.bytes = (UInt64.ofNat w.bytes).toNat := (UInt64.toNat_ofNat_of_lt' hfit).symm
      obtain ⟨v, hone, hv, -⟩ := (hsingle _).1 ((hread _).2 ⟨w, htext, hword⟩)
      have hunit := (v.unit_eq hv).trans (w.unit_eq htext).symm
      rw [hscale, hmarks] at hunit
      exact Scale.unit_ne_double hone hunit
    · intro hsingle n
      rw [hread]
      constructor
      · rintro ⟨w, htext, hbytes⟩
        have hfit : w.bytes < UInt64.size := hbytes ▸ n.toNat_lt
        exact ⟨w, w.allows.resolve_right (hsingle w htext hfit), htext, hbytes⟩
      · rintro ⟨w, -, htext, hbytes⟩
        exact ⟨w, htext, hbytes⟩

/-- Eight megabytes, with white space wherever there may be some. -/
def eightMegabytes : Spelling where
  before := text " "
  digits := text "8"
  between := text "\t"
  unit := text "mB"
  after := text "\n"
  scale := .mega
  marks := 1
  isBlank_before := by decide
  isDecimal := by decide
  digits_ne_nil := by decide
  isBlank_between := by decide
  upper_unit := by decide
  allows := .inl (by decide)
  isBlank_after := by decide

/-- The least number of terabytes that is too large, 2^24. -/
def tooManyTerabytes : Spelling where
  before := []
  digits := text "16777216"
  between := []
  unit := text "T"
  after := []
  scale := .tera
  marks := 0
  isBlank_before := Text.isBlank_nil
  isDecimal := by decide
  digits_ne_nil := by decide
  isBlank_between := Text.isBlank_nil
  upper_unit := by decide
  allows := .inl (by decide)
  isBlank_after := Text.isBlank_nil

/-- The two sizes above, and a text that is none. -/
theorem parse_spellings_telling :
    (∃ w : Spelling, w.marks ≤ 1 ∧ w.toText = text " 8\tmB\n" ∧ w.bytes = 8388608) ∧
    parse (text " 8\tmB\n") = .ok 8388608 ∧ UInt64.size ≤ tooManyTerabytes.bytes ∧
    parse (text "16777216T") = .error .outOfRange ∧ ∃ why, parse (text " ") = .error why := by
  have hread : parse (text " 8\tmB\n") = .ok 8388608 :=
    ((parse_spellings _).1 8388608).2 ⟨eightMegabytes, by decide, by decide⟩
  refine ⟨?_, hread, by decide, ?_, ?_⟩
  · refine ((parse_spellings _).2.2.2.2 (fun w hw _ hdouble => ?_) 8388608).1 hread
    have hunit := w.unit_eq hw
    rw [hdouble.1, hdouble.2] at hunit
    exact absurd hunit (by decide)
  · exact (parse_spellings _).2.1 tooManyTerabytes (by decide) (by decide)
  · refine (parse_spellings _).2.2.1 fun w hw => ?_
    have hdigits := w.takeWhile_trim_toText
    rw [hw] at hdigits
    exact absurd hdigits.symm w.digits_ne_nil

/-- Two letters B behind bare digits are read like one, and no unit has two marks. -/
theorem double_mark_parsed :
    parse (text "5BB") = .ok 5 ∧ ¬∃ w : Spelling, w.marks ≤ 1 ∧ w.toText = text "5BB" := by
  refine ⟨by decide, ?_⟩
  rintro ⟨w, hmarks, hw⟩
  exact Scale.unit_ne_double hmarks (w.unit_eq hw)

end BlockAccess.ByteCount
