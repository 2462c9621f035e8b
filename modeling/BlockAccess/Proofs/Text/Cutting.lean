import Mathlib.Data.List.TakeWhile
import BlockAccess.Text

/-!
# Cutting texts

Whoever reads a setting, an address or an operand cuts it first: white space off its ends, a run of
characters of one kind off its front, or the whole in two at a mark.  What each cut leaves is settled
here from the side of the text as it was written, put together from pieces.

* `takeWhile_append`, `dropWhile_append`: a run ends where a character of another kind follows.
* `trim_padded`: white space around a text makes no difference.
* `IsTight`, `trim_eq_self`: a text with no white space at its ends is its own trimmed form.
* `exists_padding`: every text is its trimmed form with white space around it.
* `trim_append_cons`: what is trimmed of a text with a character of another kind inside.
* `splitFirst_iff`, `splitLast_iff`: the two parts around the first and the last mark.
* `splitOn_append`: the pieces between all marks.
* `untilNul_eq_self`, `zero_notMem_untilNul`: what ends at its first NUL.
-/

namespace BlockAccess.Text

/-- A text of nothing but white space. -/
def IsBlank (t : Text) : Prop := ∀ c ∈ t, isSpace c = true

/-- A text of nothing but decimal digits. -/
def IsDecimal (t : Text) : Prop := ∀ c ∈ t, isDigit c = true

instance (t : Text) : Decidable (IsBlank t) :=
  decidable_of_iff (t.all isSpace = true) List.all_eq_true

instance (t : Text) : Decidable (IsDecimal t) :=
  decidable_of_iff (t.all isDigit = true) List.all_eq_true

theorem isBlank_nil : IsBlank [] := fun _ h => nomatch h

theorem IsBlank.append {a b : Text} (ha : IsBlank a) (hb : IsBlank b) : IsBlank (a ++ b) := by
  intro c hc
  rcases List.mem_append.1 hc with h | h
  · exact ha c h
  · exact hb c h

/-! ## Classes of characters -/

theorem isDigit_iff (c : UInt8) : isDigit c = true ↔ 48 ≤ c.toNat ∧ c.toNat ≤ 57 := by
  simp only [isDigit, Bool.and_eq_true, decide_eq_true_eq, UInt8.le_iff_toNat_le]
  rfl

theorem isSpace_iff (c : UInt8) :
    isSpace c = true ↔ c.toNat = 32 ∨ 9 ≤ c.toNat ∧ c.toNat ≤ 13 := by
  simp only [isSpace, Bool.or_eq_true, beq_iff_eq, Bool.and_eq_true, decide_eq_true_eq,
    UInt8.le_iff_toNat_le, ← UInt8.toNat_inj]
  rfl

/-- No digit is white space. -/
theorem isSpace_of_isDigit {c : UInt8} (h : isDigit c = true) : isSpace c = false := by
  rw [isDigit_iff] at h
  rw [← Bool.not_eq_true, isSpace_iff]
  omega

/-- No white space is a digit. -/
theorem isDigit_of_isSpace {c : UInt8} (h : isSpace c = true) : isDigit c = false := by
  rw [← Bool.not_eq_true]
  intro hdigit
  rw [isSpace_of_isDigit hdigit] at h
  exact Bool.noConfusion h

/-! ## Runs -/

section Runs

variable {p : UInt8 → Bool} {run rest : Text}

/-- The head of a text, if there is one, is of another kind: a run ends in front of it. -/
def Stops (p : UInt8 → Bool) (t : Text) : Prop := ∀ c ∈ t.head?, p c = false

theorem stops_nil : Stops p [] := fun _ h => nomatch h

theorem stops_cons {c : UInt8} (h : p c = false) : Stops p (c :: rest) := by
  intro d hd
  rw [List.head?_cons, Option.mem_some_iff] at hd
  rw [← hd, h]

theorem takeWhile_of_stops (h : Stops p rest) : rest.takeWhile p = [] := by
  cases rest with
  | nil => rfl
  | cons c r => exact List.takeWhile_cons_of_neg (by rw [h c rfl]; decide)

theorem dropWhile_of_stops (h : Stops p rest) : rest.dropWhile p = rest := by
  cases rest with
  | nil => rfl
  | cons c r => exact List.dropWhile_cons_of_neg (by rw [h c rfl]; decide)

theorem takeWhile_append (hrun : ∀ c ∈ run, p c = true) (h : Stops p rest) :
    (run ++ rest).takeWhile p = run := by
  rw [List.takeWhile_append_of_pos hrun, takeWhile_of_stops h, List.append_nil]

theorem dropWhile_append (hrun : ∀ c ∈ run, p c = true) (h : Stops p rest) :
    (run ++ rest).dropWhile p = rest := by
  rw [List.dropWhile_append_of_pos hrun, dropWhile_of_stops h]

end Runs

/-! ## White space around a text -/

section Trim

variable {a b t : Text}

theorem trimLeft_append (ha : IsBlank a) : trimLeft (a ++ t) = trimLeft t :=
  List.dropWhile_append_of_pos ha

theorem trimRight_append (hb : IsBlank b) : trimRight (t ++ b) = trimRight t := by
  have hreverse : ∀ c ∈ b.reverse, isSpace c = true := fun c hc => hb c (List.mem_reverse.1 hc)
  rw [trimRight, List.reverse_append, List.dropWhile_append_of_pos hreverse, ← trimRight]

/-- White space is cut off behind a text before or after it is cut off in front. -/
theorem trimRight_trimLeft_append (hb : IsBlank b) :
    trimRight (trimLeft (t ++ b)) = trimRight (trimLeft t) := by
  rw [trimLeft, List.dropWhile_append, ← trimLeft]
  split
  · next hnone =>
    have hleft : trimLeft t = [] := List.isEmpty_iff.1 hnone
    have hblank : trimLeft b = [] := by
      rw [← List.append_nil b, trimLeft_append hb]
      rfl
    rw [← trimLeft, hblank, hleft]
  · exact trimRight_append hb

/-- **White space around a text makes no difference to what is read of it.** -/
theorem trim_padded (ha : IsBlank a) (hb : IsBlank b) : trim (a ++ t ++ b) = trim t := by
  rw [trim, List.append_assoc, trimLeft_append ha, trimRight_trimLeft_append hb, ← trim]

/-- A text that neither begins nor ends with white space. -/
structure IsTight (t : Text) : Prop where
  head : Stops isSpace t
  last : ∀ c ∈ t.getLast?, isSpace c = false

theorem isTight_of_forall (h : ∀ c ∈ t, isSpace c = false) : IsTight t where
  head c hc := h c (List.mem_of_mem_head? hc)
  last c hc := h c (List.mem_of_mem_getLast? hc)

/-- What stands between the ends of a text makes no difference. -/
theorem isTight_of_ends {c d : UInt8} (hc : isSpace c = false) (hd : isSpace d = false) :
    IsTight (c :: (t ++ [d])) where
  head := stops_cons hc
  last e he := by
    rw [← List.cons_append, List.getLast?_concat] at he
    exact Option.some.inj he ▸ hd

theorem trim_eq_self (h : IsTight t) : trim t = t := by
  have hfront : trimLeft t = t := dropWhile_of_stops h.head
  have hback : Stops isSpace t.reverse := by
    intro c hc
    rw [List.head?_reverse] at hc
    exact h.last c hc
  rw [trim, hfront, trimRight, dropWhile_of_stops hback, List.reverse_reverse]

/-- What is cut off in front is white space. -/
theorem exists_indent (t : Text) : ∃ a, IsBlank a ∧ t = a ++ trimLeft t :=
  ⟨t.takeWhile isSpace, fun _ hc => List.mem_takeWhile_imp hc,
    List.takeWhile_append_dropWhile.symm⟩

/-- What is cut off behind is white space. -/
theorem exists_trailing (t : Text) : ∃ b, IsBlank b ∧ t = trimRight t ++ b := by
  refine ⟨(t.reverse.takeWhile isSpace).reverse,
    fun c hc => List.mem_takeWhile_imp (List.mem_reverse.1 hc), ?_⟩
  rw [trimRight, ← List.reverse_append, List.takeWhile_append_dropWhile, List.reverse_reverse]

/-- Every text is its trimmed form with white space around it. -/
theorem exists_padding (t : Text) : ∃ a b, IsBlank a ∧ IsBlank b ∧ t = a ++ trim t ++ b := by
  obtain ⟨a, ha, hfront⟩ := exists_indent t
  obtain ⟨b, hb, hback⟩ := exists_trailing (trimLeft t)
  refine ⟨a, b, ha, hb, ?_⟩
  rw [List.append_assoc, trim, ← hback, ← hfront]

theorem trimLeft_of_isBlank (h : IsBlank t) : trimLeft t = [] := List.dropWhile_eq_nil_iff.2 h

theorem trim_of_isBlank (h : IsBlank t) : trim t = [] := by
  rw [trim, trimLeft_of_isBlank h]
  rfl

theorem mem_of_mem_trim {c : UInt8} (h : c ∈ trim t) : c ∈ t := by
  obtain ⟨a, b, -, -, ht⟩ := exists_padding t
  rw [ht]
  exact List.mem_append_left _ (List.mem_append_right _ h)

theorem mem_of_mem_trimLeft {c : UInt8} (h : c ∈ trimLeft t) : c ∈ t :=
  (List.dropWhile_sublist _).mem h

/-- White space that is cut off in front was cut off already. -/
theorem trim_trimLeft (t : Text) : trim (trimLeft t) = trim t := by
  obtain ⟨a, ha, hfront⟩ := exists_indent t
  calc trim (trimLeft t) = trim (a ++ trimLeft t ++ []) := (trim_padded ha isBlank_nil).symm
    _ = trim t := by rw [List.append_nil, ← hfront]

/-- White space that is cut off behind was cut off already. -/
theorem trim_trimRight (t : Text) : trim (trimRight t) = trim t := by
  obtain ⟨b, hb, hback⟩ := exists_trailing t
  calc trim (trimRight t) = trim ([] ++ trimRight t ++ b) := (trim_padded isBlank_nil hb).symm
    _ = trim t := by rw [List.nil_append, ← hback]

section

variable {c : UInt8} (hc : isSpace c = false)

include hc

/-- Cutting white space off in front does not go beyond a character of another kind. -/
theorem trimLeft_append_cons : trimLeft (a ++ c :: b) = trimLeft a ++ c :: b := by
  have hstop : (c :: b).dropWhile isSpace = c :: b := dropWhile_of_stops (stops_cons hc)
  rw [trimLeft, List.dropWhile_append, ← trimLeft, hstop]
  split
  · next hnone => rw [List.isEmpty_iff.1 hnone, List.nil_append]
  · rfl

theorem trimRight_append_cons : trimRight (a ++ c :: b) = a ++ c :: trimRight b := by
  have hleft := trimLeft_append_cons (a := b.reverse) (b := a.reverse) hc
  have hreverse : (a ++ c :: b).reverse = b.reverse ++ c :: a.reverse := by
    rw [List.reverse_append, List.reverse_cons, List.append_assoc, List.singleton_append]
  rw [trimRight, hreverse, ← trimLeft, hleft, List.reverse_append, List.reverse_cons,
    List.reverse_reverse, List.append_assoc, List.singleton_append]
  rfl

/-- A text with a character that is no white space is trimmed on either side of it. -/
theorem trim_append_cons : trim (a ++ c :: b) = trimLeft a ++ c :: trimRight b := by
  rw [trim, trimLeft_append_cons hc, trimRight_append_cons hc]

end

end Trim

/-! ## In two at a mark -/

section Split

variable {c : UInt8} {t a b : Text}

theorem splitFirst_append (h : c ∉ a) : splitFirst c (a ++ c :: b) = some (a, b) := by
  induction a with
  | nil => rw [List.nil_append, splitFirst, if_pos rfl]
  | cons x a ih =>
    have hx : x ≠ c := fun hxc => h (hxc ▸ List.mem_cons_self ..)
    have ha : c ∉ a := fun hmem => h (List.mem_cons_of_mem _ hmem)
    rw [List.cons_append, splitFirst, if_neg hx, ih ha, Option.map_some]

theorem splitFirst_iff : splitFirst c t = some (a, b) ↔ t = a ++ c :: b ∧ c ∉ a := by
  constructor
  · exact splitFirst_eq_some
  · rintro ⟨rfl, h⟩
    exact splitFirst_append h

theorem splitFirst_of_notMem (h : c ∉ t) : splitFirst c t = none := by
  match hb : splitFirst c t with
  | none => rfl
  | some (p, q) =>
    obtain ⟨rfl, -⟩ := splitFirst_eq_some hb
    exact absurd (List.mem_append_right p (List.mem_cons_self ..)) h

theorem splitLast_of_notMem (h : c ∉ b) : splitLast c b = none := by
  match hb : splitLast c b with
  | none => rfl
  | some (p, q) =>
    obtain ⟨rfl, -⟩ := splitLast_eq_some hb
    exact absurd (List.mem_append_right p (List.mem_cons_self ..)) h

theorem splitLast_append (h : c ∉ b) : splitLast c (a ++ c :: b) = some (a, b) := by
  induction a with
  | nil => simp only [List.nil_append, splitLast, splitLast_of_notMem h, if_true]
  | cons x a ih => simp only [List.cons_append, splitLast, ih]

theorem splitLast_iff : splitLast c t = some (a, b) ↔ t = a ++ c :: b ∧ c ∉ b := by
  constructor
  · exact splitLast_eq_some
  · rintro ⟨rfl, h⟩
    exact splitLast_append h

/-- A text comes apart at its last `c` in one way. -/
theorem eq_of_last {a' b' : Text} (h : a ++ c :: b = a' ++ c :: b') (hb : c ∉ b) (hb' : c ∉ b') :
    a = a' ∧ b = b' := by
  have hsplit : some (a, b) = some (a', b') := by
    rw [← splitLast_append hb, h, splitLast_append hb']
  rwa [Option.some.injEq, Prod.mk.injEq] at hsplit

end Split

/-! ## At every mark -/

section SplitOn

variable {c : UInt8} {t : Text}

theorem splitOn_of_notMem (h : c ∉ t) : splitOn c t = [t] := by
  induction t with
  | nil => rfl
  | cons x t ih =>
    rw [List.mem_cons, not_or] at h
    simp only [splitOn, ih h.2, if_neg (Ne.symm h.1)]

/-- A mark between two texts separates their pieces. -/
theorem splitOn_append (c : UInt8) (a b : Text) :
    splitOn c (a ++ c :: b) = splitOn c a ++ splitOn c b := by
  have hne (t : Text) : ∃ p ps, splitOn c t = p :: ps := by
    cases t with
    | nil => exact ⟨_, _, rfl⟩
    | cons x t =>
      rw [splitOn]
      repeat' split
      all_goals exact ⟨_, _, rfl⟩
  induction a with
  | nil =>
    obtain ⟨p, ps, hb⟩ := hne b
    simp only [List.nil_append, splitOn, hb, if_true, List.singleton_append]
  | cons x a ih =>
    obtain ⟨p, ps, ha⟩ := hne a
    rw [List.cons_append, splitOn, ih, ha, splitOn, ha]
    simp only [List.cons_append]
    split <;> rfl

end SplitOn

/-! ## Up to the first NUL -/

section UntilNul

variable {t : Text}

theorem untilNul_eq_self (h : 0 ∉ t) : untilNul t = t := by
  have hall : ∀ c ∈ t, (c != 0) = true := by
    intro c hc
    rw [bne_iff_ne]
    rintro rfl
    exact h hc
  rw [← List.append_nil t, untilNul, takeWhile_append hall stops_nil]
  exact (List.append_nil t).symm

theorem zero_notMem_untilNul (t : Text) : 0 ∉ untilNul t := by
  intro h
  exact absurd (List.mem_takeWhile_imp h) (by decide)

end UntilNul

end BlockAccess.Text
