import BlockAccess.Numeral

/-!
# Byte counts

A size in the settings is written with or without a unit: `512`, `64KB`, `8 mb`, `1G`.  The unit is
a letter for a power of 1024, in either case.  A letter B may follow; so may one in place of the
unit.  The rule for that B is that the last one of two or more letters is dropped before the unit is
looked up, which is why `5BB` is a size and `5KBB` is none.

A text can be wrong in three ways.  They are tried in this order: it does not begin with a digit,
its digits are too large, its unit is unknown; and last, the product is too large.
-/

namespace BlockAccess

namespace ByteCount

/-- Why a text is no byte count. -/
inductive Fault where
  | notACount
  | outOfRange
  | unknownUnit
  deriving DecidableEq, Repr

/-- What the texts of two or more letters leave of a final B. -/
def dropByteLetter (unit : Text) : Text :=
  if 1 < unit.length && unit.getLast? == some 66 then unit.dropLast else unit

/-- The number of bytes in a unit in upper case: B or nothing for bytes, then K, M, G and T. -/
def bytesIn? (unit : Text) : Option Nat :=
  match unit with
  | [] => some 1
  | [66] => some 1
  | [75] => some 1024
  | [77] => some (1024 * 1024)
  | [71] => some (1024 * 1024 * 1024)
  | [84] => some (1024 * 1024 * 1024 * 1024)
  | _ => none

/-- The number of bytes that a text stands for. -/
def parse (t : Text) : Except Fault UInt64 :=
  let trimmed := Text.trim t
  let digits := trimmed.takeWhile Text.isDigit
  let unit := dropByteLetter ((Text.trim (trimmed.dropWhile Text.isDigit)).map Text.upper)
  let count := Numeral.ofDigits digits
  if digits.isEmpty then .error .notACount
  else if UInt64.size ≤ count then .error .outOfRange
  else
    match bytesIn? unit with
    | none => .error .unknownUnit
    | some n =>
      if UInt64.size ≤ count * n then .error .outOfRange
      else .ok (UInt64.ofNat (count * n))

end ByteCount

end BlockAccess
