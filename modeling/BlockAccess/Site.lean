import BlockAccess.Channel
import BlockAccess.Files.ReadStream

/-!
# The state of a client

`Site` is all that a client program changes outside of its own values: its journal, the files, and
what went out over its connections.  The parts of the library ask for what they need of a state by a
class each, and `Site` has them all.
-/

namespace BlockAccess

/-- The surroundings of a client program. -/
structure Site where
  journal : Journal := #[]
  files : Files.Store := {}
  /-- The requests sent, connection by connection. -/
  sent : Array (List Wire.Request) := #[]
  /-- The number of calls counted so far. -/
  calls : Nat := 0

namespace Site

instance : Journaled Site := ⟨fun n s => { s with journal := s.journal.push n }⟩

instance : Files.Filed Site := ⟨Site.files, fun f s => { s with files := f }⟩

instance : Wired Site where
  connect s := (s.sent.size, { s with sent := s.sent.push [] })
  transmit n r s := { s with sent := s.sent.modify n (· ++ [r]) }

instance : Counting Site := ⟨fun s => (s.calls, { s with calls := s.calls + 1 })⟩

end Site

end BlockAccess
