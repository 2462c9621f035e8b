import BlockAccess.Files.Charset

/-!
# Modes of opening

What a file is opened for is asked for by letters.  The first one is `r`, `w` or `a`: for reading
what is there, for writing from the start, or for writing at the end.  Six more letters are looked
at.  A plus sign among them lets a file that is read be changed as well; an `x` demands that a file
that is written is new; the others have no effect.

Behind the last letter that means something, `,ccs=` and a name may say which character set the
file's text is to be converted from.  The name is no less looked at for letters: in `r,ccs=big5` the
sixth letter is the first of the name and means something, so that nothing is converted.  Only once
the file is open is it found out whether the set is known.
-/

namespace BlockAccess.Files

/-- What a file is opened for. -/
inductive Access where
  /-- For reading what is there. -/
  | read
  /-- For reading and changing what is there. -/
  | update
  /-- For writing from the start: a new file, or an old one emptied. -/
  | write
  /-- For writing at the end: a new file, or an old one as it is. -/
  | append
  /-- For writing a file that is not there yet. -/
  | create
  deriving DecidableEq, Repr

/-- What is asked for by the first letter and those behind it. -/
def Access.ofLetters? (letter : UInt8) (others : Text) : Option Access :=
  if letter = 114 then some (if others.contains 43 then .update else .read)
  else if letter = 119 then some (if others.contains 120 then .create else .write)
  else if letter = 97 then some (if others.contains 120 then .create else .append)
  else none

/-- How a file is opened. -/
structure Mode where
  access : Access
  /-- The character set to convert from, if one is named. -/
  charset : Option Text := none
  deriving DecidableEq, Repr

namespace Mode

/-- For reading what is there. -/
def read : Mode := { access := .read }

/-- For writing from the start. -/
def write : Mode := { access := .write }

/-- The letters behind the first that are looked at. -/
def others (t : Text) : Text := t.take 6

/-- Whether a letter is one behind which a character set can be named: a plus sign, `x` or `b`. -/
def isMeant (c : UInt8) : Bool := c == 43 || c == 120 || c == 98

/-- What stands behind the last of the letters that mean something. -/
def tail (t : Text) : Text :=
  t.drop ((others t).reverse.dropWhile (!isMeant ·)).length

/-- The character set that is named behind the first letter. -/
def charset? (t : Text) : Option Text :=
  (Text.after (text ",ccs=") (tail t)).map (·.takeWhile (· != 44))

/-- The mode that letters ask for. -/
def ofText? (t : Text) : Option Mode :=
  match Text.untilNul t with
  | [] => none
  | c :: r => (Access.ofLetters? c (others r)).map fun access => { access, charset := charset? r }

/-- Whether the text of a file can be converted as it is asked for. -/
def isConvertible (m : Mode) : Bool := m.charset.all Charset.isKnown

end Mode

end BlockAccess.Files
