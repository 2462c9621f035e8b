import BlockAccess.Numeral

/-!
# Worker addresses

A worker is named by its host and the port of its data server; the port for calls and the path of a
socket on the same host belong to the address as well, but are never part of the written form
`host:port` that is read.

The port is what stands behind the last colon, so an IPv6 literal may be written with its colons as
they are.  It may also be put in brackets, which are then no part of the host.
-/

namespace BlockAccess

/-- The address of a worker. -/
structure Address where
  host : Text := []
  rpcPort : UInt16 := 0
  dataPort : UInt16 := 0
  /-- The path of the worker's socket for clients on the same host; empty where it has none. -/
  socketPath : Text := []
  deriving DecidableEq, Repr

namespace Address

/-- The written form: host and data port, and the socket path in parentheses where there is one. -/
def toText (a : Address) : Text :=
  let base := a.host ++ text ":" ++ Text.decimal a.dataPort.toNat
  if a.socketPath.isEmpty then base else base ++ text " (" ++ a.socketPath ++ text ")"

/-- A host without the brackets around it, if something stands between them. -/
def unbracket (host : Text) : Text :=
  if 2 < host.length && host.head? == some 91 && host.getLast? == some 93 then host.tail.dropLast
  else host

/-- The address that a text `host:port` writes: both parts are there, and the port is a numeral from
1 to 65535. -/
def parse? (t : Text) : Option Address :=
  match Text.splitLast 58 t with
  | none => none
  | some (host, port) =>
    if host.isEmpty || port.isEmpty then none
    else
      match (Numeral.whole? port).bind Numeral.toPort? with
      | none => none
      | some p => some { host := unbracket host, dataPort := p }

/-- Takes over the address that a text writes, and says whether there is one.  If there is none, the
address stays as it is. -/
def update (a : Address) (t : Text) : Bool × Address :=
  match parse? t with
  | none => (false, a)
  | some b => (true, b)

/-- The length from which the name of this host is too long to be told. -/
def hostNameLimit : Nat := 64

/-- The address of the worker on this host, given the host's name if the system tells it.  Without a
name the host is `localhost`. -/
def ofHostName (name : Option Text) : Address :=
  match name with
  | none => { host := text "localhost" }
  | some n =>
    if hostNameLimit ≤ n.length || (Text.untilNul n).isEmpty then { host := text "localhost" }
    else { host := Text.untilNul n }

end Address

end BlockAccess
