import BlockAccess.Files.Mode

/-!
# The files that a client sees

A client works in a directory of its own.  What it can observe of it is a tree of names, the
contents behind them, the locks on open files, and a few conditions that hold by name: that a file
may not be opened, or that reading it falls short.

Names and files are kept apart.  A directory leads from names to nodes, and a node stays as it is
when its name is taken away or given to another file: who has opened the file goes on with it, and
so do the locks.  Nodes are therefore numbered in the order in which they came to be and are never
reused.

A path is cut at its first NUL, like every name that goes to the system.  It is followed from the
working directory, or from the root if it begins with a slash.  The working directory lies two
levels below the root; of what is outside of it only the directories in between and three devices
are known.
-/

namespace BlockAccess.Files

/-- Why the system refuses an operation. -/
inductive Refusal where
  | notFound
  | denied
  | notDirectory
  | isDirectory
  | alreadyThere
  | nameTooLong
  | invalid
  | noSpace
  | locked
  /-- The system gives no reason. -/
  | unexplained
  deriving DecidableEq, Repr

namespace Refusal

/-- The system's words for a refusal. -/
def reason : Refusal → Text
  | notFound => text "No such file or directory"
  | denied => text "Permission denied"
  | notDirectory => text "Not a directory"
  | isDirectory => text "Is a directory"
  | alreadyThere => text "File exists"
  | nameTooLong => text "File name too long"
  | invalid => text "Invalid argument"
  | noSpace => text "No space left on device"
  | locked => text "Resource temporarily unavailable"
  | unexplained => text "Success"

end Refusal

/-- A device.  It keeps nothing of what is written to it. -/
inductive Device where
  | null
  | zero
  | full
  deriving DecidableEq, Repr

namespace Device

/-- Whether zeros can be read without end; otherwise there is nothing to be read. -/
def givesZeros : Device → Bool
  | null => false
  | zero | full => true

/-- Whether there is room for what is written. -/
def hasRoom : Device → Bool
  | full => false
  | null | zero => true

end Device

/-- What a name can lead to. -/
inductive Node where
  | file (contents : Bytes)
  /-- A directory: the number of the directory above it, and the names in it with the numbers of
  their nodes. -/
  | directory (above : Nat) (entries : List (Text × Nat))
  | device (device : Device)
  deriving DecidableEq, Repr

namespace Node

/-- Whether names can be followed from here. -/
def isDirectory : Node → Bool
  | directory .. => true
  | _ => false

/-- A directory with one more name in it. -/
def bind (name : Text) (n : Nat) : Node → Node
  | directory above entries => directory above ((name, n) :: entries)
  | node => node

/-- A directory without a name. -/
def unbind (name : Text) : Node → Node
  | directory above entries => directory above (entries.filter fun e => e.1 != name)
  | node => node

end Node

/-- The kinds of locks on an open file. -/
inductive Lock where
  | none
  | shared
  | exclusive
  deriving DecidableEq, Repr

/-- Whether two open files cannot hold these locks at the same time. -/
def Lock.excludes : Lock → Lock → Bool
  | .none, _ | _, .none => false
  | .shared, .shared => false
  | _, _ => true

/-- An open file: a number of its own, the node, and the lock that it holds on it. -/
structure Handle where
  ticket : Nat
  node : Nat
  lock : Lock
  deriving DecidableEq, Repr

/-- The number of the working directory. -/
def workingDirectory : Nat := 0

/-- The number of the root of all absolute paths. -/
def rootDirectory : Nat := 2

/-- The files, their names and the open files. -/
structure Store where
  /-- All nodes there ever were: at first the working directory and those above it, and the devices
  with their directory. -/
  nodes : Array Node :=
    #[.directory 1 [], .directory 2 [], .directory 2 [(text "dev", 3), (text "tmp", 1)],
      .directory 2 [(text "null", 4), (text "zero", 5), (text "full", 6)], .device .null,
      .device .zero, .device .full]
  handles : List Handle := []
  /-- The number for the next handle. -/
  nextTicket : Nat := 0
  /-- The paths that may not be opened. -/
  unreadable : List Text := []
  /-- The paths of files that, opened now, will deliver less than is asked for. -/
  shortReads : List Text := []
  /-- The largest offset that a file can be positioned at. -/
  offsetLimit : Nat := 9223372036854775807
  deriving Repr

namespace Store

/-! ## Following paths -/

/-- The longest name and the longest path that the system takes. -/
def nameLimit : Nat := 255

/-- See `nameLimit`. -/
def pathLimit : Nat := 4095

/-- The name that every directory has for itself. -/
def dot : Text := text "."

/-- The name that every directory has for the one above it.  The root is above itself. -/
def dots : Text := text ".."

/-- The node of a number. -/
def node? (s : Store) (n : Nat) : Option Node := s.nodes[n]?

/-- The node that a name leads to from a node, which must be a directory. -/
def enter (s : Store) (n : Nat) (name : Text) : Except Refusal Nat :=
  match s.node? n with
  | some (.directory above entries) =>
    if nameLimit < name.length then .error .nameTooLong
    else if name = dot then .ok n
    else if name = dots then .ok above
    else
      match entries.lookup name with
      | none => .error .notFound
      | some m => .ok m
  | some _ => .error .notDirectory
  | none => .error .notFound

/-- The node that names lead to one after the other. -/
def follow (s : Store) (n : Nat) : List Text → Except Refusal Nat
  | [] => .ok n
  | name :: rest =>
    match s.enter n name with
    | .error r => .error r
    | .ok m => s.follow m rest

/-- What a path says: where it begins, the names in it, and whether a slash at its end asks for a
directory. -/
structure Route where
  start : Nat
  names : List Text
  asksDirectory : Bool
  deriving DecidableEq, Repr

/-- Reads a path that may be of any length. -/
def Route.ofPath (path : Text) : Route :=
  let path := Text.untilNul path
  { start := if path.head? == some 47 then rootDirectory else workingDirectory
    names := (Text.splitOn 47 path).filter (!·.isEmpty)
    asksDirectory := path.getLast? == some 47 }

/-- Reads a path that is handed to the system. -/
def route (path : Text) : Except Refusal Route :=
  let cut := Text.untilNul path
  if cut.isEmpty then .error .notFound
  else if pathLimit < cut.length then .error .nameTooLong
  else .ok (Route.ofPath path)

/-- Where a route ends: at a node, or at a name in a directory that leads nowhere yet. -/
inductive Spot where
  | taken (node : Nat)
  | free (directory : Nat) (name : Text)
  deriving DecidableEq, Repr

/-- The spot to which names lead. -/
def locate (s : Store) (n : Nat) (names : List Text) : Except Refusal Spot :=
  match s.follow n names.dropLast with
  | .error r => .error r
  | .ok d =>
    match s.enter d (names.getLast?.getD dot) with
    | .ok m => .ok (.taken m)
    | .error .notFound => .ok (.free d (names.getLast?.getD dot))
    | .error r => .error r

/-- The node of a path. -/
def find (s : Store) (path : Text) : Except Refusal Nat :=
  match route path with
  | .error r => .error r
  | .ok r => s.follow r.start (if r.asksDirectory then r.names ++ [dot] else r.names)

/-- The spot of a path for a file.  A path that asks for a directory has none, whatever its last
name leads to. -/
def spot (s : Store) (path : Text) : Except Refusal Spot :=
  match route path with
  | .error r => .error r
  | .ok r =>
    if r.asksDirectory then
      match s.follow r.start (r.names.dropLast ++ [dot]) with
      | .error r => .error r
      | .ok _ => .error .isDirectory
    else s.locate r.start r.names

/-- The contents of a regular file; `none` for everything else. -/
def contents? (s : Store) (path : Text) : Option Bytes :=
  match s.find path with
  | .error _ => none
  | .ok n =>
    match s.node? n with
    | some (.file b) => some b
    | _ => none

/-! ## Changing files -/

/-- The store with a new node under a name in a directory. -/
def create (s : Store) (d : Nat) (name : Text) (node : Node) : Store :=
  { s with nodes := (s.nodes.modify d (Node.bind name s.nodes.size)).push node }

/-- The store with other contents in a node that is a file. -/
def refill (s : Store) (n : Nat) (b : Bytes) : Store :=
  match s.node? n with
  | some (.file _) => { s with nodes := s.nodes.setIfInBounds n (.file b) }
  | _ => s

/-- The store with directories along names that are followed from a node.  Nothing is made beyond a
name that cannot be a directory's. -/
def makeDirectories (s : Store) (n : Nat) : List Text → Store
  | [] => s
  | name :: rest =>
    match s.enter n name with
    | .ok m => s.makeDirectories m rest
    | .error .notFound => (s.create n name (.directory n [])).makeDirectories s.nodes.size rest
    | .error _ => s

/-- The store with a directory at a path, and all that it lies in. -/
def addDirectory (s : Store) (path : Text) : Store :=
  s.makeDirectories (Route.ofPath path).start (Route.ofPath path).names

/-- The path up to its last slash: the directory of the file that the path names. -/
def directoryOf (path : Text) : Text := (path.reverse.dropWhile (· != 47)).reverse

/-- The store with the given contents at a path: in the file of that name, or in a new one.  The
directories on the way are made first.  What is no file is left as it is. -/
def write (s : Store) (path : Text) (b : Bytes) : Store :=
  let s := s.addDirectory (directoryOf (Text.untilNul path))
  match s.spot path with
  | .error _ => s
  | .ok (.taken n) => s.refill n b
  | .ok (.free d name) => s.create d name (.file b)

/-- The store without the name of a path.  Only files can lose their names. -/
def remove (s : Store) (path : Text) : Store :=
  match route path, s.contents? path with
  | .ok r, some _ =>
    match s.follow r.start r.names.dropLast, r.names.getLast? with
    | .ok d, some name => { s with nodes := s.nodes.modify d (Node.unbind name) }
    | _, _ => s
  | _, _ => s

/-! ## Opening files -/

/-- Opens a file that is there for reading and changing. -/
def openForUpdate (s : Store) (path : Text) : Except Refusal Nat :=
  match s.find path with
  | .error r => .error r
  | .ok n => if (s.node? n).any Node.isDirectory then .error .isDirectory else .ok n

/-- The node of a path that is opened for writing: a new file where there is none, and otherwise
what is there, as it is wanted. -/
def openForWriting (s : Store) (path : Text) (access : Access) : Except Refusal Nat × Store :=
  match s.spot path with
  | .error r => (.error r, s)
  | .ok (.free d name) => (.ok s.nodes.size, s.create d name (.file []))
  | .ok (.taken n) =>
    if access = .create then (.error .alreadyThere, s)
    else if (s.node? n).any Node.isDirectory then (.error .isDirectory, s)
    else (.ok n, if access = .append then s else s.refill n [])

/-- The node that opening a path leads to. -/
def openNode (s : Store) (path : Text) (access : Access) : Except Refusal Nat × Store :=
  if s.unreadable.contains (Text.untilNul path) then (.error .denied, s)
  else
    match access with
    | .read => (s.find path, s)
    | .update => (s.openForUpdate path, s)
    | .write | .append | .create => s.openForWriting path access

/-- Whether some open file's lock on a node excludes a lock. -/
def isExcluded (s : Store) (node : Nat) (lock : Lock) : Bool :=
  s.handles.any fun h => h.node == node && h.lock.excludes lock

/-- Opens a file and takes a lock on it at once; if its text cannot be converted or the lock cannot
be had the file is closed again.  The file is opened first, so a file opened for writing is emptied
even if the lock is refused. -/
def openFile (s : Store) (path : Text) (mode : Mode) (lock : Lock) : Except Refusal Nat × Store :=
  match s.openNode path mode.access with
  | (.error r, s) => (.error r, s)
  | (.ok node, s) =>
    if !mode.isConvertible then (.error .invalid, s)
    else if s.isExcluded node lock then (.error .locked, s)
    else
      (.ok s.nextTicket,
        { s with
          handles := { ticket := s.nextTicket, node, lock } :: s.handles
          nextTicket := s.nextTicket + 1 })

/-- Whether a handle is still open. -/
def isOpen (s : Store) (ticket : Nat) : Bool := s.handles.any fun h => h.ticket == ticket

/-- The node behind an open handle. -/
def nodeOf? (s : Store) (ticket : Nat) : Option Nat :=
  (s.handles.find? fun h => h.ticket == ticket).map Handle.node

/-- Adds bytes at the end of the file behind an open handle. -/
def append (s : Store) (ticket : Nat) (b : Bytes) : Store :=
  match s.nodeOf? ticket with
  | none => s
  | some n =>
    match s.node? n with
    | some (.file contents) => s.refill n (contents ++ b)
    | _ => s

/-- Closes a handle and gives up its lock. -/
def close (s : Store) (ticket : Nat) : Store :=
  { s with handles := s.handles.filter fun h => h.ticket != ticket }

end Store

end BlockAccess.Files
