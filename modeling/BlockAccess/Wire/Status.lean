import BlockAccess.Text

/-!
# Status codes

A worker answers with a code of 16 bits.  Five codes have a meaning; a client keeps any other code
as it is and calls it unknown.
-/

namespace BlockAccess.Wire

/-- The outcome that a response reports. -/
structure Status where
  code : UInt16
  deriving DecidableEq, Repr

namespace Status

/-- The request is served; without data, the end of the range. -/
def ok : Status := ⟨0⟩
/-- The worker does not have the block. -/
def notFound : Status := ⟨1⟩
/-- The request makes no sense to the worker. -/
def invalidArgument : Status := ⟨2⟩
/-- The request was cancelled by the client. -/
def cancelled : Status := ⟨3⟩
/-- The worker failed. -/
def internal : Status := ⟨4⟩

/-- The name of a status. -/
def name (s : Status) : Text :=
  if s = ok then text "OK"
  else if s = notFound then text "NOT_FOUND"
  else if s = invalidArgument then text "INVALID_ARGUMENT"
  else if s = cancelled then text "CANCELLED"
  else if s = internal then text "INTERNAL"
  else text "UNKNOWN"

end Status

end BlockAccess.Wire
