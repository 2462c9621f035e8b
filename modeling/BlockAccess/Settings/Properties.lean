import BlockAccess.Files.ReadStream
import BlockAccess.Settings

/-!
# Properties files

A properties file sets keys line by line, `name=value`.  White space around a line, around the name
and around the value is dropped; a line is a comment if it begins with `#` or `!` after that, and
blank lines are passed over.  The name ends at the first equals sign, so a value may hold more of
them.  A line without one, and a name that is no key's, are noted with their line and have no
effect.

`applyText` is what a file's contents do to settings; `load` finds the file and reads it, and
`update` takes the new settings over if that goes well.
-/

namespace BlockAccess.Properties

/-- What a line says. -/
inductive Line where
  | ignored
  | noAssignment
  | unknown (name : Text)
  | assignment (key : Key) (value : Text)
  deriving DecidableEq, Repr

/-- Reads a line. -/
def Line.ofText (line : Text) : Line :=
  match Text.trim line with
  | [] => .ignored
  | c :: r =>
    if c = 35 || c = 33 then .ignored
    else
      match Text.splitFirst 61 (c :: r) with
      | none => .noAssignment
      | some (name, value) =>
        match Key.ofName? (Text.trim name) with
        | none => .unknown (Text.trim name)
        | some key => .assignment key (Text.trim value)

/-- What a line does to settings. -/
def Line.apply : Line → Settings → Settings
  | .assignment key value, s => s.set key value
  | _, s => s

/-- What is noted about a line. -/
def Line.notice? (path : Text) (number : Nat) : Line → Option Notice
  | .noAssignment => some (.noAssignment path number)
  | .unknown name => some (.unknownProperty path number name)
  | _ => none

/-- The lines of a file. -/
def lines (contents : Bytes) : List Line := (Text.splitOn 10 contents).map Line.ofText

/-- What the contents of a file do to settings. -/
def applyText (contents : Bytes) (s : Settings) : Settings :=
  (lines contents).foldl (fun s l => l.apply s) s

/-- What is noted about the lines of a file. -/
def notices (path : Text) (contents : Bytes) : List Notice :=
  ((lines contents).zipIdx 1).filterMap fun l => l.1.notice? path l.2

variable {W : Type} [Files.Filed W] [Journaled W]

/-- Loads a properties file.  The settings are `none` where the file is missing or cannot be read in
full, and nothing is changed then. -/
def load (path : Text) (s : Settings) (w : W) : Option Settings × W :=
  match (Files.Filed.files w).contents? path with
  | none => (none, note (.propertiesMissing path) w)
  | some b =>
    match Files.beginRead path w with
    | (none, w) => (none, w)
    | (some r, w) =>
      match r.readNoted (UInt64.ofNat b.length) w with
      | (got, _, w) =>
        if got.length = b.length then
          let w := (notices path got).foldl (fun w n => note n w) w
          (some (applyText got s), note (.propertiesLoaded path) w)
        else (none, note (.propertiesUnread path) w)

/-- Loads a properties file into settings, and says whether that was done.  If it was not, the
settings stay as they are. -/
def update (path : Text) (s : Settings) (w : W) : Bool × Settings × W :=
  match load path s w with
  | (none, w) => (false, s, w)
  | (some t, w) => (true, t, w)

end BlockAccess.Properties
