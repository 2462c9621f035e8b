import BlockAccess.Text

/-!
# Numerals

Numbers come in as text in four places: the port of an address, an integer setting, a byte count and
an operand of the command.  The first, second and fourth share one reader, described here; a byte
count reads its digits itself and shares `Numeral.ofDigits`.

A numeral is white space, at most one sign and then decimal digits.  `Numeral.read?` takes the
numeral at the head of a text and hands back what follows; `Numeral.whole?` asks that nothing
follows.  Two rules of the latter are easy to overlook.  The text ends at its first NUL, whatever
stands behind it.  And a text that is empty then stands for zero: it is for the caller to refuse
empty text where that is wanted.

The magnitude is a natural number.  Which range is asked for, and what happens outside of it,
differs from caller to caller and is settled by the three functions at the end.  No range reaches
`Numeral.limit`, so whatever is larger is read as the limit: the work on a digit stays small however
many there are, and `Numeral.ofDigits_eq_min` says that nothing else is lost.
-/

namespace BlockAccess

/-- A numeral as written: its sign and its magnitude, which is at most `Numeral.limit`. -/
structure Numeral where
  negative : Bool
  magnitude : Nat
  deriving DecidableEq, Repr

namespace Numeral

/-- The number that decimal digits write, the most significant first, however large it is. -/
def value (ds : Text) : Nat := ds.foldl (fun n d => 10 * n + (d.toNat - 48)) 0

/-- The first number that does not fit into 64 bits. -/
def limit : Nat := 18446744073709551616

/-- The number that decimal digits write, the most significant first, but at most the limit. -/
def ofDigits (ds : Text) : Nat := ds.foldl (fun n d => min limit (10 * n + (d.toNat - 48))) 0

/-- A bound may be applied at every digit or once at the end. -/
theorem foldl_min (bound n : Nat) (ds : Text) :
    ds.foldl (fun n d => min bound (10 * n + (d.toNat - 48))) (min bound n)
      = min bound (ds.foldl (fun n d => 10 * n + (d.toNat - 48)) n) := by
  induction ds generalizing n with
  | nil => rfl
  | cons d ds ih =>
    have step : min bound (10 * min bound n + (d.toNat - 48))
        = min bound (10 * n + (d.toNat - 48)) := by omega
    rw [List.foldl_cons, step, ih, List.foldl_cons]

/-- Up to the limit the digits are read for what they write. -/
theorem ofDigits_eq_min (ds : Text) : ofDigits ds = min limit (value ds) := by
  have h := foldl_min limit 0 ds
  rwa [Nat.min_zero] at h

/-- The sign at the head of a text, if there is one, and the rest. -/
def splitSign : Text → Bool × Text
  | [] => (false, [])
  | c :: r => if c = 45 then (true, r) else if c = 43 then (false, r) else (false, c :: r)

/-- The numeral at the head of a text and what follows it; `none` where white space and sign are not
followed by a digit. -/
def read? (t : Text) : Option (Numeral × Text) :=
  let signed := splitSign (Text.trimLeft t)
  let digits := signed.2.takeWhile Text.isDigit
  if digits.isEmpty then none
  else some (⟨signed.1, ofDigits digits⟩, signed.2.dropWhile Text.isDigit)

/-- The numeral that a whole text is, up to its first NUL.  A text of which that leaves nothing is
zero. -/
def whole? (t : Text) : Option Numeral :=
  match Text.untilNul t with
  | [] => some ⟨false, 0⟩
  | c :: r =>
    match read? (c :: r) with
    | some (n, []) => some n
    | _ => none

/-- The integer that a numeral denotes. -/
def toInt (n : Numeral) : Int := if n.negative then -(n.magnitude : Int) else n.magnitude

/-- A signed number of 64 bits; `none` out of range. -/
def toInt64? (n : Numeral) : Option Int64 :=
  if Int64.minValue.toInt ≤ n.toInt ∧ n.toInt ≤ Int64.maxValue.toInt then
    some (Int64.ofInt n.toInt)
  else none

/-- An unsigned number of 64 bits; `none` where the magnitude is out of range.  A minus sign takes
the complement: minus one is the largest number there is. -/
def toUInt64? (n : Numeral) : Option UInt64 :=
  if n.magnitude < UInt64.size then
    some (if n.negative then 0 - UInt64.ofNat n.magnitude else UInt64.ofNat n.magnitude)
  else none

/-- A port: a number from 1 to 65535. -/
def toPort? (n : Numeral) : Option UInt16 :=
  if 1 ≤ n.toInt ∧ n.toInt ≤ 65535 then some (UInt16.ofNat n.magnitude) else none

end Numeral

end BlockAccess
