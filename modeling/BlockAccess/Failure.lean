import BlockAccess.Address
import BlockAccess.ByteCount
import BlockAccess.Settings.Key
import BlockAccess.Wire.Status

/-!
# Failures

What can go wrong comes in three kinds, told apart by the type: the caller asked for something that
makes no sense (`Misuse`), a block could not be fetched (`TransportFault`), or a setting is missing
or malformed (`SettingsFault`).  A constructor says which rule was broken and carries the values
involved; the wording is in one function per kind.

A message ends at its first NUL.  Messages are put together from names and settings that may hold
one, and whoever shows a message shows it up to there; `Failure.message` therefore gives that part.
-/

namespace BlockAccess

/-- A call that its caller must not make. -/
inductive Misuse where
  | closedStream
  | noDestination
  /-- A window of `count` bytes at `offset` does not fit into a destination of `size` bytes. -/
  | window (size offset count : UInt64)
  | seekBeforeStart (target : Int64)
  | seekPastEnd (target : UInt64) (block length : UInt64)
  | underflow (wanted : UInt64) (readable : Nat)
  | packetSizeZero
  | noDialler
  | badSocket
  | messageTooLong
  | frameTooLong (size : Nat)
  deriving DecidableEq, Repr

/-- A packet that cannot be had, or a reader that cannot be made. -/
inductive TransportFault where
  | emptyPackets (block : UInt64)
  /-- A packet of `size` bytes where a positioned read still wants only `left`. -/
  | overrun (size left : Nat)
  | noChannel (block : UInt64)
  | readRefused (block position : UInt64) (status : Wire.Status) (message : Text)
  | oversized (size : Nat) (packetSize : UInt64)
  | blockMissing (block : UInt64) (path : Text)
  | blockLocked (block : UInt64) (path : Text)
  | blockUnopened (block : UInt64) (path : Text)
  | shortRead (wanted offset : UInt64)
  | unresolved (address : Address) (reason : Text)
  | unconnected (address : Address) (reason : Text)
  | channelClosed
  | peerClosed
  | sendFailed (reason : Text)
  | receiveFailed (reason : Text)
  | malformedFrame
  | unexpectedFrame (kind : UInt8)
  | malformedRequest (size : Nat)
  | malformedResponse (size : Nat)
  /-- A response of `size` bytes that announces a message of `message` bytes. -/
  | messageOverrun (message : UInt16) (size : Nat)
  /-- A failure that a transport reports in its own words. -/
  | reported (message : Text)
  deriving DecidableEq, Repr

/-- A setting that cannot be used. -/
inductive SettingsFault where
  | unset (key : Key)
  | notAnInteger (key : Key) (value : Text)
  /-- A value that is no byte count; the key is named where the value is a setting's. -/
  | byteCount (key : Option Key) (value : Text) (why : ByteCount.Fault)
  | notPositive (key : Key)
  deriving DecidableEq, Repr

/-- Why an operation failed. -/
inductive Failure where
  | misuse (cause : Misuse)
  | transport (cause : TransportFault)
  | settings (cause : SettingsFault)
  deriving DecidableEq, Repr

open Text (decimal quoted)

namespace Misuse

/-- The wording of a misuse. -/
def wording : Misuse → Text
  | closedStream => text "Cannot do operations on a closed PacketInStream"
  | noDestination => text "Read buffer cannot be null"
  | window size offset count =>
    text "Buffer length: " ++ decimal size.toNat ++ text ", offset: " ++ decimal offset.toNat
      ++ text ", len: " ++ decimal count.toNat
  | seekBeforeStart target => text "Seek position is negative: " ++ Text.signed target.toInt
  | seekPastEnd target block length =>
    text "Seek position " ++ decimal target.toNat ++ text " is past the end of block "
      ++ decimal block.toNat ++ text " (" ++ decimal length.toNat ++ text " bytes)"
  | underflow wanted readable =>
    text "Cannot read " ++ decimal wanted.toNat ++ text " bytes from a buffer with "
      ++ decimal readable ++ text " readable"
  | packetSizeZero => text "packet size must be positive"
  | noDialler => text "no channel provider"
  | badSocket => text "invalid socket descriptor"
  | messageTooLong => text "response message too long"
  | frameTooLong size =>
    text "response of " ++ decimal size ++ text " bytes exceeds the frame limit"

end Misuse

namespace TransportFault

/-- The wording of a transport fault. -/
def wording : TransportFault → Text
  | emptyPackets block =>
    text "reader for block " ++ decimal block.toNat ++ text " keeps returning empty packets"
  | overrun size left =>
    text "packet of " ++ decimal size ++ text " bytes overruns the " ++ decimal left
      ++ text " bytes left in a positioned read"
  | noChannel block => text "no data channel for block " ++ decimal block.toNat
  | readRefused block position status message =>
    text "read of block " ++ decimal block.toNat ++ text " at " ++ decimal position.toNat
      ++ text " failed with " ++ status.name ++ text ": " ++ message
  | oversized size packetSize =>
    text "packet of " ++ decimal size ++ text " bytes exceeds the negotiated "
      ++ decimal packetSize.toNat ++ text " byte packet size"
  | blockMissing block path =>
    text "block " ++ decimal block.toNat ++ text " is not stored locally at " ++ quoted path
  | blockLocked block path =>
    text "unable to pin block " ++ decimal block.toNat ++ text " at " ++ quoted path
  | blockUnopened block path =>
    text "unable to open block " ++ decimal block.toNat ++ text " at " ++ quoted path
  | shortRead wanted offset =>
    text "unable to read " ++ decimal wanted.toNat ++ text " bytes at offset "
      ++ decimal offset.toNat ++ text " of local block file"
  | unresolved address reason =>
    text "unable to resolve " ++ address.toText ++ text ": " ++ reason
  | unconnected address reason =>
    text "unable to connect to " ++ address.toText ++ text ": " ++ reason
  | channelClosed => text "data channel is closed"
  | peerClosed => text "data channel closed by peer"
  | sendFailed reason => text "unable to write to data channel: " ++ reason
  | receiveFailed reason => text "unable to read from data channel: " ++ reason
  | malformedFrame => text "malformed frame on data channel"
  | unexpectedFrame kind =>
    text "unexpected message type " ++ decimal kind.toNat ++ text " on data channel"
  | malformedRequest size =>
    text "malformed read request: " ++ decimal size ++ text " byte body"
  | malformedResponse size =>
    text "malformed read response: " ++ decimal size ++ text " byte body"
  | messageOverrun message size =>
    text "malformed read response: message of " ++ decimal message.toNat ++ text " bytes in a "
      ++ decimal size ++ text " byte body"
  | reported message => message

end TransportFault

namespace SettingsFault

/-- The wording for a text that is no byte count. -/
def byteCountWording (value : Text) : ByteCount.Fault → Text
  | .notACount => quoted value ++ text " is not a byte count"
  | .outOfRange => quoted value ++ text " is out of range"
  | .unknownUnit => text "unknown unit in byte count " ++ quoted value

/-- The wording of a settings fault. -/
def wording : SettingsFault → Text
  | unset key => text "key " ++ key.name ++ text " not found"
  | notAnInteger key value => key.name ++ text ": " ++ quoted value ++ text " is not an integer"
  | byteCount none value why => byteCountWording value why
  | byteCount (some key) value why => key.name ++ text ": " ++ byteCountWording value why
  | notPositive key => key.name ++ text " must be positive"

end SettingsFault

namespace Failure

/-- The wording of a failure in full. -/
def wording : Failure → Text
  | misuse cause => cause.wording
  | transport cause => cause.wording
  | settings cause => cause.wording

/-- The message of a failure: its wording up to the first NUL. -/
def message (f : Failure) : Text := Text.untilNul f.wording

end Failure

end BlockAccess
