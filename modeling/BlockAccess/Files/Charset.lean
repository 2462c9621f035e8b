import BlockAccess.Files.Charset.Names

/-!
# Names of character sets

Whoever opens a file can name the character set that its text is written in, and the system refuses
a set that it does not know.  Names are compared in a normal form: upper case, without characters
that occur in no name, and with two slashes, which stand at the end unless the name has them
elsewhere.
-/

namespace BlockAccess.Files.Charset

/-- Whether a character counts in a name. -/
def counts (c : UInt8) : Bool :=
  Text.isDigit c || (65 ≤ Text.upper c && Text.upper c ≤ 90) || c == 95 || c == 45 || c == 46
    || c == 58

/-- The normal form of a name that is to get `slashes` more slashes.  What stands behind a slash too
many does not belong to the name. -/
def normal : (slashes : Nat) → Text → Text
  | slashes, [] => List.replicate slashes 47
  | slashes, c :: r =>
    if c = 47 then
      match slashes with
      | 0 => []
      | left + 1 => 47 :: normal left r
    else if counts c then Text.upper c :: normal slashes r
    else normal slashes r

/-- The known names in their normal form. -/
def known : List Text := names.map fun name => normal 2 (text name)

/-- Whether a name is that of a known character set. -/
def isKnown (name : Text) : Bool := known.contains (normal 2 name)

end BlockAccess.Files.Charset
