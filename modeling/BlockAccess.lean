import BlockAccess.Main
import BlockAccess.Source.Scripted
import BlockAccess.Stream.Buffer
import BlockAccess.Stream.Destination
import BlockAccess.Proofs.Acts
import BlockAccess.Proofs.Signed
import BlockAccess.Proofs.Files.Paths
import BlockAccess.Proofs.Files.Opened
import BlockAccess.Proofs.Channel.Boundaries
import BlockAccess.Proofs.Stream.Run
import BlockAccess.Proofs.Stream.Upheld
import BlockAccess.Proofs.Stream.Moves
import BlockAccess.Proofs.Trace.Desk
import BlockAccess.Proofs.Trace.Discipline
import BlockAccess.Proofs.Stream.Bounds
import BlockAccess.Proofs.Source.Conforming
import BlockAccess.Proofs.Stream.Cursor
import BlockAccess.Proofs.Stream.Recovery
import BlockAccess.Proofs.Stream.Failing
import BlockAccess.Proofs.Source.Local
import BlockAccess.Proofs.Source.Remote
import BlockAccess.Proofs.Source.Negotiated
import BlockAccess.Proofs.Source.Bookkeeping
import BlockAccess.Proofs.Source.Conversation
import BlockAccess.Proofs.Source.Independent
import BlockAccess.Proofs.Stream.Interference
import BlockAccess.Proofs.Stream.Positions
import BlockAccess.Proofs.Stream.Buffered
import BlockAccess.Proofs.Stream.Interchange
import BlockAccess.Proofs.Command.Running
import BlockAccess.Proofs.Source.Truthful
import BlockAccess.Proofs.Stream.Sticky
import BlockAccess.Proofs.Stream.Course
import BlockAccess.Proofs.Stream.Windows
import BlockAccess.Proofs.Stream.Patience
import BlockAccess.Proofs.Stream.Reckoning
import BlockAccess.Proofs.Source.Tiling
import BlockAccess.Proofs.Source.Protected
import BlockAccess.Proofs.ByteCount
import BlockAccess.Proofs.Address
import BlockAccess.Proofs.Settings.Integers
import BlockAccess.Proofs.Command.Numbers
import BlockAccess.Proofs.Address.Rereading
import BlockAccess.Proofs.Settings.Overriding
import BlockAccess.Proofs.Settings.Loading
import BlockAccess.Proofs.Settings.Overlay
import BlockAccess.Proofs.Stream.Availability
