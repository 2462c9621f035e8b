import BlockAccess.Failure

/-!
# The journal

A client keeps a journal of what it does and of what goes wrong.  An entry is a `Notice`: a
constructor for the occasion and the values that belong to it.  Its level and its wording are
functions, so that a statement about the journal can speak of occasions and never needs to look at
text.

Unlike a failure's message, a notice is shown in full; where it passes on a failure it passes on the
message.

The state of a program keeps its journal in one of several places, depending on what else it keeps.
`Journaled` is what the library asks of a state: that a notice can be added.
-/

namespace BlockAccess

/-- How much a notice matters, least first. -/
inductive Level where
  | debug
  | info
  | warn
  | error
  deriving DecidableEq, Repr

namespace Level

/-- The place of a level in the order. -/
def rank : Level → Nat
  | debug => 0
  | info => 1
  | warn => 2
  | error => 3

/-- The name of a level. -/
def name : Level → Text
  | debug => text "debug"
  | info => text "info"
  | warn => text "warn"
  | error => text "error"

end Level

/-- What can be entered into the journal. -/
inductive Notice where
  -- streams
  | creatingReader (block position : UInt64) (count : UInt64)
  | emptyPacket (position block : UInt64)
  | closingFailed (block : UInt64) (cause : Failure)
  -- local blocks
  | blockMissing (block : UInt64) (path : Text) (address : Address)
  | shortRead (position : UInt64) (got : Nat) (wanted : UInt64)
  | unpinning (block : UInt64) (path : Text)
  | openingLocal (block : UInt64) (path : Text)
  -- files
  | lockRefused (path reason : Text)
  | openFailed (path reason : Text)
  | seekFailed (path : Text) (offset : UInt64) (reason : Text)
  | readFailed (reason : Text)
  -- remote blocks
  | readRefused (block position : UInt64) (status : Wire.Status) (message : Text)
  | cancelFailed (block : UInt64) (status : Wire.Status) (message : Text)
  | closingRemote (block : UInt64) (address : Address)
  -- channels
  | sendFailed (reason : Text)
  | receiveFailed (reason : Text)
  | badHeader
  | unresolved (address : Address) (reason : Text)
  | unconnected (address : Address) (reason : Text)
  | connected (address : Address)
  -- properties files
  | propertiesMissing (path : Text)
  | propertiesUnread (path : Text)
  | noAssignment (path : Text) (line : Nat)
  | unknownProperty (path : Text) (line : Nat) (name : Text)
  | propertiesLoaded (path : Text)
  -- the copying command
  | outputUnopened (path reason : Text)
  | nothingToRead (offset block : UInt64)
  | writeFailed (reason : Text)
  | rangeCopied (count : Nat) (wanted offset : UInt64)
  | blockCopied (count : Nat) (block : UInt64) (shortCircuit : Bool)
  | failed (cause : Failure)
  deriving DecidableEq, Repr

namespace Notice

/-- The level of a notice. -/
def level : Notice → Level
  | creatingReader .. | unpinning .. | openingLocal .. | closingRemote .. | connected ..
  | propertiesLoaded .. => .debug
  | rangeCopied .. | blockCopied .. => .info
  | emptyPacket .. | closingFailed .. | cancelFailed .. | noAssignment ..
  | unknownProperty .. => .warn
  | blockMissing .. | shortRead .. | lockRefused .. | openFailed .. | seekFailed .. | readFailed ..
  | readRefused .. | sendFailed .. | receiveFailed .. | badHeader | unresolved .. | unconnected ..
  | propertiesMissing .. | propertiesUnread .. | outputUnopened .. | nothingToRead ..
  | writeFailed .. | failed .. => .error

open Text (decimal quoted)

/-- The wording for a failure that ends the command. -/
def failedWording (f : Failure) : Text :=
  (match f with
    | .transport _ => text "transport failure: "
    | .settings _ => text "bad configuration: "
    | .misuse _ => text "invalid request: ") ++ f.message

/-- The wording of a notice. -/
def wording : Notice → Text
  | creatingReader block position count =>
    text "creating packet reader for block " ++ decimal block.toNat ++ text " at "
      ++ decimal position.toNat ++ text " (" ++ decimal count.toNat ++ text " bytes)"
  | emptyPacket position block =>
    text "empty packet at offset " ++ decimal position.toNat ++ text " of block "
      ++ decimal block.toNat
  | closingFailed block cause =>
    text "closing reader for block " ++ decimal block.toNat
      ++ text " after a failed positioned read: " ++ cause.message
  | blockMissing block path address =>
    text "block " ++ decimal block.toNat ++ text " not found at " ++ quoted path ++ text " on "
      ++ address.toText
  | shortRead position got wanted =>
    text "short read from block file at " ++ decimal position.toNat ++ text ": " ++ decimal got
      ++ text " of " ++ decimal wanted.toNat ++ text " bytes"
  | unpinning block path =>
    text "unpinning block " ++ decimal block.toNat ++ text " at " ++ quoted path
  | openingLocal block path =>
    text "short-circuit read of block " ++ decimal block.toNat ++ text " from " ++ quoted path
  | lockRefused path reason => text "flock " ++ path ++ text ": " ++ reason
  | openFailed path reason =>
    text "unable to open " ++ quoted path ++ text " for reading: " ++ reason
  | seekFailed path offset reason =>
    text "unable to seek " ++ quoted path ++ text " to " ++ decimal offset.toNat ++ text ": "
      ++ reason
  | readFailed reason => text "read error: " ++ reason
  | readRefused block position status message =>
    text "read of block " ++ decimal block.toNat ++ text " at " ++ decimal position.toNat
      ++ text " failed: " ++ status.name ++ text " " ++ message
  | cancelFailed block status message =>
    text "cancelling read of block " ++ decimal block.toNat ++ text " failed: " ++ status.name
      ++ text " " ++ message
  | closingRemote block address =>
    text "closing reader factory for block " ++ decimal block.toNat ++ text " on "
      ++ address.toText
  | sendFailed reason => text "send() failed: " ++ reason
  | receiveFailed reason => text "recv() failed: " ++ reason
  | badHeader => text "bad frame header from data channel"
  | unresolved address reason =>
    text "unable to resolve " ++ address.toText ++ text ": " ++ reason
  | unconnected address reason =>
    text "unable to connect to " ++ address.toText ++ text ": " ++ reason
  | connected address => text "connected data channel to " ++ address.toText
  | propertiesMissing path => text "properties file " ++ quoted path ++ text " does not exist"
  | propertiesUnread path => text "unable to read properties file " ++ quoted path
  | noAssignment path line =>
    path ++ text ":" ++ decimal line ++ text ": expected key=value"
  | unknownProperty path line name =>
    path ++ text ":" ++ decimal line ++ text ": unknown property " ++ quoted name
  | propertiesLoaded path => text "loaded properties from " ++ quoted path
  | outputUnopened path reason =>
    text "unable to open " ++ quoted path ++ text " for writing: " ++ reason
  | nothingToRead offset block =>
    text "nothing to read at offset " ++ decimal offset.toNat ++ text " of block "
      ++ decimal block.toNat
  | writeFailed reason => text "unable to write output: " ++ reason
  | rangeCopied count wanted offset =>
    text "read " ++ decimal count ++ text " of " ++ decimal wanted.toNat
      ++ text " requested bytes at offset " ++ decimal offset.toNat
  | blockCopied count block shortCircuit =>
    text "read " ++ decimal count ++ text " bytes of block " ++ decimal block.toNat
      ++ (if shortCircuit then text " (short-circuit)" else text " (remote)")
  | failed cause => failedWording cause

end Notice

/-- The notices so far, the latest last. -/
abbrev Journal := Array Notice

namespace Journal

/-- The notices of a level or above. -/
def atLeast (j : Journal) (l : Level) : List Notice :=
  j.toList.filter fun n => l.rank ≤ n.level.rank

end Journal

/-- A state that keeps a journal. -/
class Journaled (W : Type) where
  /-- The state with one more notice. -/
  note : Notice → W → W

export Journaled (note)

instance : Journaled Journal := ⟨fun n j => j.push n⟩

end BlockAccess
