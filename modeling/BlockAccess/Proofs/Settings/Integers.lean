import BlockAccess.Proofs.Numeral
import BlockAccess.Settings.Mount

/-!
# Settings that are integers

A value may be any bytes, and it is not looked at before somebody asks for it as an integer.  Then it
is read as a text that ends at its first NUL, and it has to be the spelling of a number of 64 bits up
to there.  `Answers` says what comes of it, for the client's settings and for a mount alike.

The end at a NUL shows in two ways.  Whatever stands behind a NUL is passed over, and a value that
begins with one is read as zero, while the empty value is refused.  A value without a NUL is the
spelling of a number as a whole, or it is refused.
-/

namespace BlockAccess.Settings

open Numeral (Spelling)
open Text (untilNul)

/-- What comes of asking for an integer where a key has a value. -/
structure Answers (k : Key) (v : Text) (answer : Except Failure Int64) : Prop where
  /-- Up to its first NUL the value is the spelling of the integer.  Or nothing stands there, and the
  value is read as zero. -/
  ok_iff : ∀ i, answer = .ok i ↔
    (∃ w : Spelling, untilNul v = w.toText ∧ w.toInt = i.toInt) ∨
      (v ≠ [] ∧ untilNul v = [] ∧ i = 0)
  /-- A value without a NUL is the spelling of the integer as a whole. -/
  ok_iff_of_notMem : 0 ∉ v → ∀ i, answer = .ok i ↔
    ∃ w : Spelling, v = w.toText ∧ w.toInt = i.toInt
  /-- There is an integer for such a value if the one that is written has 64 bits. -/
  exists_ok_iff_of_notMem : 0 ∉ v → ((∃ i, answer = .ok i) ↔ ∃ w : Spelling, v = w.toText ∧
    -9223372036854775808 ≤ w.toInt ∧ w.toInt < 9223372036854775808)
  /-- Every other value is refused, and the refusal names key and value. -/
  refused : (∀ i, answer ≠ .ok i) → answer = .error (.settings (.notAnInteger k v))

/-- The texts that are read as a whole and have a signed word. -/
theorem whole?_bind_toInt64? {v : Text} {i : Int64} :
    (Numeral.whole? v).bind Numeral.toInt64? = some i ↔
      (∃ w : Spelling, untilNul v = w.toText ∧ w.toInt = i.toInt) ∨ (untilNul v = [] ∧ i = 0) := by
  rw [Option.bind_eq_some_iff]
  constructor
  · rintro ⟨n, hwhole, hword⟩
    rcases Numeral.whole?_eq_some_iff.1 hwhole with ⟨hnone, rfl⟩ | ⟨w, htext, rfl⟩
    · exact .inr ⟨hnone, (Option.some.inj hword).symm⟩
    · exact .inl ⟨w, htext, w.toInt64?_numeral.1 hword⟩
  · rintro (⟨w, htext, hvalue⟩ | ⟨hnone, rfl⟩)
    · exact ⟨w.numeral, Numeral.whole?_eq_some_iff.2 (.inr ⟨w, htext, rfl⟩),
        w.toInt64?_numeral.2 hvalue⟩
    · exact ⟨⟨false, 0⟩, Numeral.whole?_eq_some_iff.2 (.inl ⟨hnone, rfl⟩), rfl⟩

theorem integer_eq_ok_iff {k : Key} {v : Text} {i : Int64} :
    integer k v = .ok i ↔ (∃ w : Spelling, untilNul v = w.toText ∧ w.toInt = i.toInt) ∨
      (v ≠ [] ∧ untilNul v = [] ∧ i = 0) := by
  cases v with
  | nil =>
    constructor
    · intro h
      exact absurd h (by simp [integer])
    · rintro (⟨w, hw, -⟩ | ⟨hne, -⟩)
      · exact absurd hw.symm w.toText_ne_nil
      · exact absurd rfl hne
  | cons c r =>
    have hread := whole?_bind_toInt64? (v := c :: r) (i := i)
    simp only [ne_eq, reduceCtorEq, not_false_eq_true, true_and, ← hread, integer,
      List.isEmpty_cons, Bool.false_eq_true, if_false]
    cases (Numeral.whole? (c :: r)).bind Numeral.toInt64? with
    | none => simp
    | some j => simp

theorem integer_eq_ok_iff_of_notMem {k : Key} {v : Text} (h : 0 ∉ v) {i : Int64} :
    integer k v = .ok i ↔ ∃ w : Spelling, v = w.toText ∧ w.toInt = i.toInt := by
  rw [integer_eq_ok_iff, Text.untilNul_eq_self h]
  constructor
  · rintro (hspelled | ⟨hne, hnil, -⟩)
    · exact hspelled
    · exact absurd hnil hne
  · exact .inl

theorem integer_answers (k : Key) (v : Text) : Answers k v (integer k v) where
  ok_iff _ := integer_eq_ok_iff
  ok_iff_of_notMem h _ := integer_eq_ok_iff_of_notMem h
  exists_ok_iff_of_notMem h := by
    constructor
    · rintro ⟨i, hi⟩
      obtain ⟨w, hw, hvalue⟩ := (integer_eq_ok_iff_of_notMem h).1 hi
      exact ⟨w, hw, hvalue ▸ i.le_toInt, hvalue ▸ i.toInt_lt⟩
    · rintro ⟨w, hw, hlower, hupper⟩
      exact ⟨.ofInt w.toInt, (integer_eq_ok_iff_of_notMem h).2
        ⟨w, hw, (Int64.toInt_ofInt_of_le hlower hupper).symm⟩⟩
  refused h := by
    unfold integer at h ⊢
    split
    · rfl
    next hne =>
    split
    · next i hi =>
      refine absurd ?_ (h i)
      simp only [hne, Bool.false_eq_true, if_false, hi]
    · rfl

/-- **Integers are read for what they are.**  For every value that a key has, through the client's
settings or through a mount. -/
theorem getInt_answers (s : Settings) (m : Mount) (k : Key) (v : Text) :
    (s.value? k = some v → Answers k v (s.getInt k)) ∧
      (m.get s k = .ok v → Answers k v (m.getInt s k)) := by
  constructor
  · intro h
    have hget : s.get k = .ok v := by rw [get, h]
    rw [getInt, hget]
    exact integer_answers k v
  · intro h
    rw [Mount.getInt, h]
    exact integer_answers k v

/-- The least number of 64 bits, with white space in front of it. -/
def least : Spelling where
  blank := text " \t"
  sign := .minus
  digits := text "09223372036854775808"
  isBlank := by decide
  isDecimal := by decide
  digits_ne_nil := by decide

/-- Settings whose value is no integer. -/
def hasty : Settings := initial.set .connectTimeout (text "soon")

/-- A mount with the least number of 64 bits. -/
def resting : Mount := { overrides := [(Key.name .connectTimeout, text " \t-09223372036854775808")] }

/-- The client is refused, and the mount has its number. -/
theorem getInt_answers_hasty :
    hasty.value? .connectTimeout = some (text "soon") ∧
      hasty.getInt .connectTimeout =
        .error (.settings (.notAnInteger .connectTimeout (text "soon"))) ∧
      resting.get hasty .connectTimeout = .ok (text " \t-09223372036854775808") ∧
      resting.getInt hasty .connectTimeout = .ok Int64.minValue := by
  have hmount : resting.get hasty .connectTimeout = .ok (text " \t-09223372036854775808") := by
    decide
  obtain ⟨hclient, -⟩ := getInt_answers hasty resting .connectTimeout (text "soon")
  obtain ⟨-, hresting⟩ := getInt_answers hasty resting .connectTimeout _
  refine ⟨rfl, (hclient rfl).refused fun i hi => ?_, hmount, ?_⟩
  · obtain ⟨w, hw, -⟩ := ((hclient rfl).ok_iff_of_notMem (by decide) i).1 hi
    rcases w.mem_toText (c := 115) (hw ▸ by decide) with hspace | hsign | hdigit
    · exact absurd hspace (by decide)
    · cases hs : w.sign <;> rw [hs] at hsign <;> revert hsign <;> decide
    · exact absurd hdigit (by decide)
  · exact ((hresting hmount).ok_iff_of_notMem (by decide) _).2 ⟨least, by decide, by decide⟩

/-- What stands behind a NUL is passed over, and nothing in front of one is zero.  Neither value is
the spelling of a number. -/
theorem getInt_cut :
    (initial.set .connectTimeout [49, 50, 0, 120]).getInt .connectTimeout = .ok 12 ∧
    (¬∃ w : Spelling, [49, 50, 0, 120] = w.toText) ∧
    (initial.set .connectTimeout [0]).getInt .connectTimeout = .ok 0 ∧
    ¬∃ w : Spelling, [0] = w.toText := by
  refine ⟨by decide, ?_, by decide, ?_⟩
  all_goals
    rintro ⟨w, hw⟩
    refine w.notMem_toText (.inl rfl) ?_
    rw [← hw]
    decide

end BlockAccess.Settings
