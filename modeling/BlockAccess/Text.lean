/-!
# Text and bytes

Everything that a client of the block store handles is a run of bytes: the blocks themselves, but
also host names, paths, settings and the messages of a worker.  None of these is bound to be valid
Unicode, and a setting or a message may hold a NUL, so text is kept as bytes too and a `String`
appears only where a constant is written down.

The classes of characters are those of ASCII.  A byte of 128 or more belongs to none of them, so a
no-break space is no white space here and a full-width digit is no digit.
-/

namespace BlockAccess

/-- A run of bytes. -/
abbrev Bytes := List UInt8

/-- Text is a run of bytes that is meant to be read; any byte may occur in it. -/
abbrev Text := List UInt8

/-- The text of a constant. -/
def text (s : String) : Text := s.toUTF8.data.toList

namespace Text

/-! ## Classes of characters -/

/-- White space: blank, tab, line feed, vertical tab, form feed and carriage return. -/
def isSpace (c : UInt8) : Bool := c == 32 || (9 ≤ c && c ≤ 13)

/-- The digits 0 to 9. -/
def isDigit (c : UInt8) : Bool := 48 ≤ c && c ≤ 57

/-- Upper case of an ASCII letter; every other byte stays. -/
def upper (c : UInt8) : UInt8 := if 97 ≤ c && c ≤ 122 then c - 32 else c

/-! ## Cutting -/

/-- Text without the white space in front of it. -/
def trimLeft (t : Text) : Text := t.dropWhile isSpace

/-- Text without the white space behind it. -/
def trimRight (t : Text) : Text := (t.reverse.dropWhile isSpace).reverse

/-- Text without the white space around it. -/
def trim (t : Text) : Text := trimRight (trimLeft t)

/-- The part in front of the first NUL: what remains of a text that is handed on with a NUL as its
end mark. -/
def untilNul (t : Text) : Text := t.takeWhile (· != 0)

/-- The parts before and after the first `c`, if there is one. -/
def splitFirst (c : UInt8) : Text → Option (Text × Text)
  | [] => none
  | x :: r =>
    if x = c then some ([], r)
    else (splitFirst c r).map fun p => (x :: p.1, p.2)

/-- The parts before and after the last `c`, if there is one. -/
def splitLast (c : UInt8) : Text → Option (Text × Text)
  | [] => none
  | x :: r =>
    match splitLast c r with
    | some p => some (x :: p.1, p.2)
    | none => if x = c then some ([], r) else none

/-- The pieces between the `c`s of a text, one more than there are `c`s. -/
def splitOn (c : UInt8) : Text → List Text
  | [] => [[]]
  | x :: r =>
    match splitOn c r with
    | [] => [[x]]
    | p :: ps => if x = c then [] :: p :: ps else (x :: p) :: ps

/-- What stands behind the first occurrence of a mark, if there is one. -/
def after (mark : Text) : Text → Option Text
  | [] => if mark.isEmpty then some [] else none
  | c :: r =>
    if mark.isPrefixOf (c :: r) then some ((c :: r).drop mark.length) else after mark r

theorem splitFirst_eq_some {c : UInt8} {t a b : Text} (h : splitFirst c t = some (a, b)) :
    t = a ++ c :: b ∧ c ∉ a := by
  induction t generalizing a with
  | nil => simp [splitFirst] at h
  | cons x r ih =>
    by_cases hx : x = c
    · simp only [splitFirst, hx, if_true, Option.some.injEq, Prod.mk.injEq] at h
      obtain ⟨rfl, rfl⟩ := h
      simp [hx]
    · simp only [splitFirst, hx, if_false, Option.map_eq_some_iff, Prod.mk.injEq] at h
      obtain ⟨⟨p, q⟩, hp, rfl, rfl⟩ := h
      obtain ⟨rfl, hmem⟩ := ih hp
      simp [Ne.symm hx, hmem]

theorem splitLast_ne_none {c : UInt8} {t : Text} (h : c ∈ t) : splitLast c t ≠ none := by
  induction t with
  | nil => simp at h
  | cons x r ih =>
    match hr : splitLast c r with
    | some p => simp [splitLast, hr]
    | none =>
      have hmem : c ∉ r := fun hmem => ih hmem hr
      have hx : x = c := by simpa [hmem, eq_comm] using h
      simp [splitLast, hr, hx]

theorem splitLast_eq_some {c : UInt8} {t a b : Text} (h : splitLast c t = some (a, b)) :
    t = a ++ c :: b ∧ c ∉ b := by
  induction t generalizing a with
  | nil => simp [splitLast] at h
  | cons x r ih =>
    match hr : splitLast c r with
    | some (p, q) =>
      simp only [splitLast, hr, Option.some.injEq, Prod.mk.injEq] at h
      obtain ⟨rfl, rfl⟩ := h
      obtain ⟨rfl, hmem⟩ := ih hr
      simp [hmem]
    | none =>
      by_cases hx : x = c
      · simp only [splitLast, hr, hx, if_true, Option.some.injEq, Prod.mk.injEq] at h
        obtain ⟨rfl, rfl⟩ := h
        exact ⟨by simp [hx], fun hmem => splitLast_ne_none hmem hr⟩
      · simp [splitLast, hr, hx] at h

/-! ## Numbers in messages -/

/-- The digit for a number below ten. -/
def digit (n : Nat) : UInt8 := UInt8.ofNat (48 + n)

/-- A number in decimal digits, without leading zeros. -/
def decimal (n : Nat) : Text :=
  if n < 10 then [digit n] else decimal (n / 10) ++ [digit (n % 10)]
termination_by n

/-- An integer in decimal digits, a minus sign in front where it is negative. -/
def signed (i : Int) : Text :=
  if i < 0 then 45 :: decimal i.natAbs else decimal i.natAbs

/-- Text in single quotes. -/
def quoted (t : Text) : Text := text "'" ++ t ++ text "'"

end Text

end BlockAccess
