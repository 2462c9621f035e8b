import BlockAccess.Numeral
import BlockAccess.Proofs.Text.Cutting

/-!
# How numbers are written

A number is written as white space, at most one sign and one or more digits.  `Spelling` is such a
way to write one, with its text and with the integer that it means.  Reading and writing then meet in
the middle, at the numeral that is handed on.

* `read?_toText`, `exists_of_read?`: what is read from the front of a text is a spelling, and all of
  its digits.
* `whole?_eq_some_iff`: the texts that are read as a whole.  They end at their first NUL, and one that
  is empty up to there is read as well.
* `toInt64?_numeral`, `toUInt64?_numeral`, `toPort?_numeral`: what the three ranges make of the
  numeral of a spelling.  The cut at `limit` is outside of all of them, so each of these lemmas speaks
  of the number as it was written (`toInt_numeral`).
* `value_decimal`, `isDecimal_decimal`: the digits of a number in a message write that number.
-/

namespace BlockAccess.Numeral

open Text (IsBlank IsDecimal Stops isDigit isSpace)

/-- What may stand in front of the digits. -/
inductive Sign where
  | absent
  | plus
  | minus
  deriving DecidableEq, Repr

/-- A sign as it is written. -/
def Sign.toText : Sign → Text
  | absent => []
  | plus => [43]
  | minus => [45]

/-- A way to write a number. -/
structure Spelling where
  blank : Text
  sign : Sign
  digits : Text
  isBlank : IsBlank blank
  isDecimal : IsDecimal digits
  digits_ne_nil : digits ≠ []

namespace Spelling

/-- The text of a spelling. -/
def toText (w : Spelling) : Text := w.blank ++ (w.sign.toText ++ w.digits)

/-- The number that the digits write. -/
def magnitude (w : Spelling) : Nat := value w.digits

/-- The integer that a spelling means. -/
def toInt (w : Spelling) : Int := if w.sign = .minus then -(w.magnitude : Int) else w.magnitude

/-- The numeral of a spelling. -/
def numeral (w : Spelling) : Numeral := ⟨decide (w.sign = .minus), ofDigits w.digits⟩

end Spelling

/-! ## Signs -/

/-- A digit is no sign. -/
theorem splitSign_of_isDigit {c : UInt8} (h : isDigit c = true) (r : Text) :
    splitSign (c :: r) = (false, c :: r) := by
  rw [Text.isDigit_iff] at h
  have hminus : c ≠ 45 := by
    rintro rfl
    exact absurd h (by decide)
  have hplus : c ≠ 43 := by
    rintro rfl
    exact absurd h (by decide)
  rw [splitSign, if_neg hminus, if_neg hplus]

theorem splitSign_toText (sign : Sign) {digits : Text} (hdigits : IsDecimal digits)
    (hne : digits ≠ []) (rest : Text) :
    splitSign (sign.toText ++ (digits ++ rest)) = (decide (sign = .minus), digits ++ rest) := by
  cases sign with
  | absent =>
    obtain ⟨c, r, rfl⟩ := List.exists_cons_of_ne_nil hne
    exact splitSign_of_isDigit (hdigits c (List.mem_cons_self ..)) (r ++ rest)
  | plus => rfl
  | minus => rfl

theorem splitSign_cases (t : Text) :
    ∃ sign : Sign, t = sign.toText ++ (splitSign t).2 ∧ (splitSign t).1 = decide (sign = .minus) := by
  cases t with
  | nil => exact ⟨.absent, rfl, rfl⟩
  | cons c r =>
    rw [splitSign]
    split
    · next h => exact ⟨.minus, by rw [h]; rfl, rfl⟩
    split
    · next h => exact ⟨.plus, by rw [h]; rfl, rfl⟩
    · exact ⟨.absent, rfl, rfl⟩

/-! ## Reading from the front -/

namespace Spelling

variable (w : Spelling) {rest : Text}

/-- Behind the white space there is a sign or a digit. -/
theorem stops_isSpace : Stops isSpace (w.sign.toText ++ (w.digits ++ rest)) := by
  cases w.sign with
  | absent =>
    obtain ⟨c, r, hcons⟩ := List.exists_cons_of_ne_nil w.digits_ne_nil
    have hdigit : isDigit c = true := w.isDecimal c (by rw [hcons]; exact List.mem_cons_self ..)
    rw [hcons]
    exact Text.stops_cons (Text.isSpace_of_isDigit hdigit)
  | plus => exact Text.stops_cons (by decide)
  | minus => exact Text.stops_cons (by decide)

/-- **A spelling is read whole, and no more than it.** -/
theorem read?_toText (h : Stops isDigit rest) :
    read? (w.toText ++ rest) = some (w.numeral, rest) := by
  have htrimmed : Text.trimLeft (w.toText ++ rest) = w.sign.toText ++ (w.digits ++ rest) := by
    rw [toText, List.append_assoc, List.append_assoc, Text.trimLeft_append w.isBlank]
    exact Text.dropWhile_of_stops w.stops_isSpace
  have htake : (w.digits ++ rest).takeWhile isDigit = w.digits := Text.takeWhile_append w.isDecimal h
  have hdrop : (w.digits ++ rest).dropWhile isDigit = rest := Text.dropWhile_append w.isDecimal h
  unfold read?
  simp only [htrimmed, splitSign_toText w.sign w.isDecimal w.digits_ne_nil, htake, hdrop,
    List.isEmpty_iff, w.digits_ne_nil, if_false]
  rfl

end Spelling

/-- What is read from the front of a text was written there. -/
theorem exists_of_read? {t rest : Text} {n : Numeral} (h : read? t = some (n, rest)) :
    ∃ w : Spelling, t = w.toText ++ rest ∧ w.numeral = n := by
  obtain ⟨sign, hsigned, hnegative⟩ := splitSign_cases (Text.trimLeft t)
  unfold read? at h
  simp only [List.isEmpty_iff, Option.ite_none_left_eq_some, Option.some.injEq, Prod.mk.injEq] at h
  obtain ⟨hne, hn, hrest⟩ := h
  let w : Spelling :=
    { blank := t.takeWhile isSpace
      sign
      digits := (splitSign (Text.trimLeft t)).2.takeWhile isDigit
      isBlank := fun c hc => List.mem_takeWhile_imp hc
      isDecimal := fun c hc => List.mem_takeWhile_imp hc
      digits_ne_nil := hne }
  refine ⟨w, ?_, ?_⟩
  · calc t = t.takeWhile isSpace ++ Text.trimLeft t := List.takeWhile_append_dropWhile.symm
      _ = t.takeWhile isSpace ++ (sign.toText ++ (w.digits ++ rest)) := by
        rw [← hrest, List.takeWhile_append_dropWhile, ← hsigned]
      _ = w.toText ++ rest := by
        show _ = t.takeWhile isSpace ++ (sign.toText ++ w.digits) ++ rest
        rw [List.append_assoc, List.append_assoc]
  · rw [← hn, hnegative]
    rfl

/-! ## Reading a whole text -/

namespace Spelling

variable (w : Spelling)

theorem toText_ne_nil : w.toText ≠ [] := by
  intro h
  exact w.digits_ne_nil (List.append_eq_nil_iff.1 (List.append_eq_nil_iff.1 h).2).2

theorem mem_toText {c : UInt8} (h : c ∈ w.toText) :
    isSpace c = true ∨ c ∈ w.sign.toText ∨ isDigit c = true := by
  rcases List.mem_append.1 h with hblank | h
  · exact .inl (w.isBlank c hblank)
  rcases List.mem_append.1 h with hsign | hdigit
  · exact .inr (.inl hsign)
  · exact .inr (.inr (w.isDecimal c hdigit))

/-- No number is written with a NUL or with a colon. -/
theorem notMem_toText {c : UInt8} (h : c = 0 ∨ c = 58) : c ∉ w.toText := by
  intro hmem
  rcases w.mem_toText hmem with hspace | hsign | hdigit
  · rcases h with rfl | rfl <;> exact absurd hspace (by decide)
  · rcases h with rfl | rfl <;> cases hs : w.sign <;> rw [hs] at hsign <;> revert hsign <;> decide
  · rcases h with rfl | rfl <;> exact absurd hdigit (by decide)

/-- The minus sign is where a minus is meant, and nowhere else. -/
theorem minus_mem_toText_iff : 45 ∈ w.toText ↔ w.sign = .minus := by
  constructor
  · intro h
    rcases w.mem_toText h with hspace | hsign | hdigit
    · exact absurd hspace (by decide)
    · cases hs : w.sign with
      | minus => rfl
      | absent | plus => rw [hs] at hsign; revert hsign; decide
    · exact absurd hdigit (by decide)
  · intro h
    refine List.mem_append_right _ (List.mem_append_left _ ?_)
    rw [h]
    decide

/-- A spelling begins with its minus sign if there is no white space in front of that. -/
theorem head?_toText_eq_minus_iff : w.toText.head? = some 45 ↔ w.sign = .minus ∧ w.blank = [] := by
  constructor
  · intro h
    refine ⟨w.minus_mem_toText_iff.1 (List.mem_of_mem_head? h), ?_⟩
    cases hblank : w.blank with
    | nil => rfl
    | cons c r =>
      rw [toText, hblank, List.cons_append, List.head?_cons, Option.some.injEq] at h
      exact absurd (w.isBlank c (hblank ▸ List.mem_cons_self ..)) (by rw [h]; decide)
  · rintro ⟨hsign, hblank⟩
    rw [toText, hsign, hblank]
    rfl

/-- A spelling that begins with a digit is digits and nothing else. -/
theorem toText_eq_digits (h : ∀ c ∈ w.toText.head?, isDigit c = true) :
    w.sign = .absent ∧ w.toText = w.digits := by
  have hblank : w.blank = [] := by
    cases hb : w.blank with
    | nil => rfl
    | cons c r =>
      have hspace : isSpace c = true := w.isBlank c (hb ▸ List.mem_cons_self ..)
      have hdigit : isDigit c = true := h c (by rw [toText, hb]; rfl)
      exact absurd hdigit (by rw [Text.isDigit_of_isSpace hspace]; decide)
  have hsign : w.sign = .absent := by
    cases hs : w.sign with
    | absent => rfl
    | plus => exact absurd (h 43 (by rw [toText, hblank, hs]; rfl)) (by decide)
    | minus => exact absurd (h 45 (by rw [toText, hblank, hs]; rfl)) (by decide)
  refine ⟨hsign, ?_⟩
  rw [toText, hblank, hsign]
  rfl

end Spelling

/-- **The texts that are read as a whole.**  Up to its first NUL such a text is the spelling of a
number, or it is empty and stands for zero. -/
theorem whole?_eq_some_iff {t : Text} {n : Numeral} :
    whole? t = some n ↔ (Text.untilNul t = [] ∧ n = ⟨false, 0⟩) ∨
      ∃ w : Spelling, Text.untilNul t = w.toText ∧ w.numeral = n := by
  unfold whole?
  cases hcut : Text.untilNul t with
  | nil =>
    simp only [Option.some.injEq, true_and]
    constructor
    · rintro rfl
      exact .inl rfl
    · rintro (rfl | ⟨w, hw, -⟩)
      · rfl
      · exact absurd hw.symm w.toText_ne_nil
  | cons c r =>
    simp only [List.cons_ne_nil, false_and, false_or]
    constructor
    · intro h
      split at h
      · next m hread =>
        obtain ⟨w, htext, hnumeral⟩ := exists_of_read? hread
        rw [List.append_nil] at htext
        exact ⟨w, htext, hnumeral.trans (Option.some.inj h)⟩
      · exact absurd h (by simp)
    · rintro ⟨w, htext, rfl⟩
      have hread := w.read?_toText (Text.stops_nil (p := isDigit))
      rw [List.append_nil, ← htext] at hread
      rw [hread]

/-! ## Ranges -/

namespace Spelling

variable (w : Spelling)

/-- The numeral means what is written, cut off on both sides at the limit. -/
theorem toInt_numeral : w.numeral.toInt = max (-(limit : Int)) (min limit w.toInt) := by
  have hcut : ofDigits w.digits = min limit w.magnitude := ofDigits_eq_min w.digits
  unfold Numeral.toInt numeral toInt
  simp only [hcut, limit, decide_eq_true_eq]
  split <;> omega

/-- A range that stays off the limit holds the numeral if it holds what is written. -/
theorem within_iff {lower upper : Int} (hlower : -(limit : Int) < lower)
    (hupper : upper < (limit : Int)) :
    lower ≤ w.numeral.toInt ∧ w.numeral.toInt ≤ upper ↔ lower ≤ w.toInt ∧ w.toInt ≤ upper := by
  rw [toInt_numeral]
  omega

theorem toInt_numeral_of_within {lower upper : Int} (hlower : -(limit : Int) < lower)
    (hupper : upper < (limit : Int)) (h : lower ≤ w.toInt ∧ w.toInt ≤ upper) :
    w.numeral.toInt = w.toInt := by
  rw [toInt_numeral]
  omega

/-- A signed word of 64 bits is what is written, or there is none for it. -/
theorem toInt64?_numeral {i : Int64} : toInt64? w.numeral = some i ↔ w.toInt = i.toInt := by
  have hlower : -(limit : Int) < Int64.minValue.toInt := by decide
  have hupper : Int64.maxValue.toInt < (limit : Int) := by decide
  rw [toInt64?, Option.ite_none_right_eq_some, w.within_iff hlower hupper, Option.some.injEq]
  constructor
  · rintro ⟨hin, rfl⟩
    rw [w.toInt_numeral_of_within hlower hupper hin]
    exact (Int64.toInt_ofInt_of_le hin.1 (Int.lt_add_one_of_le hin.2)).symm
  · intro h
    have hin : Int64.minValue.toInt ≤ w.toInt ∧ w.toInt ≤ Int64.maxValue.toInt :=
      h ▸ ⟨Int64.minValue_le_toInt i, Int64.toInt_le i⟩
    refine ⟨hin, ?_⟩
    rw [w.toInt_numeral_of_within hlower hupper hin, h, Int64.ofInt_toInt]

/-- A port is what is written, if that is a number from 1 to 65535. -/
theorem toPort?_numeral {p : UInt16} : toPort? w.numeral = some p ↔ w.toInt = p.toNat ∧ p ≠ 0 := by
  have hlower : -(limit : Int) < 1 := by decide
  have hupper : (65535 : Int) < (limit : Int) := by decide
  have hmagnitude : 0 ≤ w.numeral.toInt → (w.numeral.magnitude : Int) = w.numeral.toInt := by
    unfold Numeral.toInt
    split <;> omega
  have hpositive : p ≠ 0 ↔ 1 ≤ p.toNat := by
    rw [Ne, ← UInt16.toNat_inj, UInt16.toNat_zero]
    omega
  rw [toPort?, Option.ite_none_right_eq_some, w.within_iff hlower hupper, Option.some.injEq,
    hpositive]
  constructor
  · rintro ⟨hin, rfl⟩
    have hsame := w.toInt_numeral_of_within hlower hupper hin
    rw [UInt16.toNat_ofNat_of_lt' (by simp only [UInt16.size]; omega)]
    omega
  · rintro ⟨hvalue, hpos⟩
    have hlt := p.toNat_lt
    have hsame := w.toInt_numeral_of_within hlower hupper (by omega)
    have hword : w.numeral.magnitude = p.toNat := by omega
    rw [hword, UInt16.ofNat_toNat]
    exact ⟨by omega, rfl⟩

/-- The cut at the limit is no smaller than the first word that does not fit. -/
theorem magnitude_numeral (h : w.numeral.magnitude < UInt64.size ∨ w.magnitude < UInt64.size) :
    w.numeral.magnitude = w.magnitude := by
  have hcut : w.numeral.magnitude = min limit w.magnitude := ofDigits_eq_min w.digits
  have hsize : limit = UInt64.size := rfl
  omega

/-- An unsigned word of 64 bits is what is written, or there is none for it. -/
theorem toUInt64?_numeral {n : UInt64} (h : w.sign ≠ .minus) :
    toUInt64? w.numeral = some n ↔ w.magnitude = n.toNat := by
  have hsign : w.numeral.negative = false := decide_eq_false h
  rw [toUInt64?, Option.ite_none_right_eq_some, hsign, if_neg Bool.false_ne_true,
    Option.some.injEq]
  constructor
  · rintro ⟨hfit, rfl⟩
    have hsame := w.magnitude_numeral (.inl hfit)
    rw [hsame] at hfit ⊢
    exact (UInt64.toNat_ofNat_of_lt' hfit).symm
  · intro hvalue
    have hfit : w.magnitude < UInt64.size := hvalue ▸ n.toNat_lt
    rw [w.magnitude_numeral (.inr hfit), hvalue, UInt64.ofNat_toNat]
    exact ⟨n.toNat_lt, rfl⟩

/-- Behind a minus sign the word is the complement of what is written. -/
theorem toUInt64?_numeral_of_minus {n : UInt64} (h : w.sign = .minus) :
    toUInt64? w.numeral = some n ↔
      w.magnitude < UInt64.size ∧ n = 0 - UInt64.ofNat w.magnitude := by
  have hsign : w.numeral.negative = true := decide_eq_true h
  rw [toUInt64?, Option.ite_none_right_eq_some, hsign, if_pos rfl, Option.some.injEq]
  constructor
  · rintro ⟨hfit, rfl⟩
    have hsame := w.magnitude_numeral (.inl hfit)
    rw [hsame] at hfit ⊢
    exact ⟨hfit, rfl⟩
  · rintro ⟨hfit, rfl⟩
    rw [w.magnitude_numeral (.inr hfit)]
    exact ⟨hfit, rfl⟩

end Spelling

/-! ## Numbers in messages -/

theorem value_concat (ds : Text) (d : UInt8) : value (ds ++ [d]) = 10 * value ds + (d.toNat - 48) :=
  List.foldl_append

theorem toNat_digit {n : Nat} (h : n < 10) : (Text.digit n).toNat = 48 + n :=
  UInt8.toNat_ofNat_of_lt' (by simp only [UInt8.size]; omega)

theorem decimal_of_lt {n : Nat} (h : n < 10) : Text.decimal n = [Text.digit n] := by
  rw [Text.decimal, if_pos h]

theorem decimal_of_le {n : Nat} (h : 10 ≤ n) :
    Text.decimal n = Text.decimal (n / 10) ++ [Text.digit (n % 10)] := by
  rw [Text.decimal, if_neg (Nat.not_lt.2 h)]

/-- **The digits of a number write it.** -/
theorem value_decimal (n : Nat) : value (Text.decimal n) = n := by
  rcases Nat.lt_or_ge n 10 with h | h
  · rw [decimal_of_lt h, ← List.nil_append [_], value_concat, toNat_digit h]
    show 0 + (48 + n - 48) = n
    omega
  · have hlast := toNat_digit (Nat.mod_lt n (show 0 < 10 by decide))
    rw [decimal_of_le h, value_concat, value_decimal (n / 10), hlast]
    omega
termination_by n

theorem isDecimal_decimal (n : Nat) : IsDecimal (Text.decimal n) := by
  have hdigit {m : Nat} (hm : m < 10) : isDigit (Text.digit m) = true := by
    rw [Text.isDigit_iff, toNat_digit hm]
    omega
  rcases Nat.lt_or_ge n 10 with h | h
  · rw [decimal_of_lt h]
    intro c hc
    rw [List.mem_singleton.1 hc]
    exact hdigit h
  · rw [decimal_of_le h]
    intro c hc
    rcases List.mem_append.1 hc with hc | hc
    · exact isDecimal_decimal (n / 10) c hc
    · rw [List.mem_singleton.1 hc]
      exact hdigit (Nat.mod_lt n (by decide))
termination_by n

theorem decimal_ne_nil (n : Nat) : Text.decimal n ≠ [] := by
  rw [Text.decimal]
  split
  · exact List.cons_ne_nil _ _
  · exact List.append_ne_nil_of_right_ne_nil _ (List.cons_ne_nil _ _)

end BlockAccess.Numeral
