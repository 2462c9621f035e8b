import BlockAccess.Command

/-!
# The command as a program

`Command.run` works on a store of files.  The program takes into a store what the command can come
across on the way: the properties file, and then, as the settings say where it is, the block.  The
output file is opened before the run, so that one that cannot be opened is none in the store either,
and is filled after it.

The program has no sockets of its own.  Its network is that of a host whose devices are down.
-/

namespace BlockAccess.Command

/-- A path as the system takes it; `none` where it is no valid Unicode. -/
def systemPath? (path : Text) : Option String := String.fromUTF8? ⟨(Text.untilNul path).toArray⟩

/-- What a run goes by once its settings are known. -/
structure Plan where
  /-- The file of the block, if it is a local one. -/
  block : Option Text := none
  /-- The output file; empty for standard output. -/
  output : Text := []

/-- The plan of a run; `none` if it ends before a file is opened. -/
def plan? (a : Arguments) (settings : Settings) : Option Plan :=
  match errand? a with
  | none => none
  | some (errand, operands) =>
    match operands? operands with
    | none => none
    | some (block, _, output) =>
      match errand with
      | .remoteBlock _ => some { output }
      | .localBlock => some { block := (settings.blockPath block).toOption, output }

/-- The settings of a run; `none` if they cannot be loaded. -/
def settings? (a : Arguments) (files : Files.Store) : Option Settings :=
  if a.properties.isEmpty then some .initial
  else (Properties.load a.properties .initial ({ files } : Site)).1

/-- The store with a file that exists and may not be opened. -/
def withDenied (path : Text) (s : Files.Store) : Files.Store :=
  { s.write path [] with unreadable := Text.untilNul path :: s.unreadable }

/-- Takes a file into the store.  A file that is not there stays away. -/
def fetchFile (path : Text) (s : Files.Store) : IO Files.Store := do
  match systemPath? path with
  | none => return s
  | some p =>
    try
      let b ← IO.FS.readBinFile p
      return s.write path b.data.toList
    catch
      | .permissionDenied .. => return withDenied path s
      | _ => return s

/-- Takes the file of a block into the store, with the lock of whoever may be writing it. -/
def fetchBlock (path : Text) (s : Files.Store) : IO Files.Store := do
  let s ← fetchFile path s
  match systemPath? path with
  | none => return s
  | some p =>
    try
      let h ← IO.FS.Handle.mk p .read
      if ← h.tryLock false then
        h.unlock
        return s
      else return (s.openFile path .read .exclusive).2
    catch _ => return s

/-- Opens an output file for the system and takes it into the store. -/
def prepareOutput (path : Text) (s : Files.Store) : IO Files.Store := do
  match systemPath? path with
  | none => return s
  | some p =>
    try
      let _ ← IO.FS.Handle.mk p .append
      return s.write path []
    catch
      | .permissionDenied .. => return withDenied path s
      | .inappropriateType .. => return s.addDirectory path
      | _ => return s

/-- Takes the files of a plan into the store. -/
def Plan.prepare (p : Plan) (s : Files.Store) : IO Files.Store := do
  let s ← if p.output.isEmpty then pure s else prepareOutput p.output s
  match p.block with
  | none => return s
  | some path => fetchBlock path s

/-- Fills the output file of a plan from the store. -/
def Plan.deliver (p : Plan) (s : Files.Store) : IO Unit := do
  match s.contents? p.output, systemPath? p.output with
  | some b, some path => IO.FS.writeBinFile path ⟨b.toArray⟩
  | _, _ => return ()

/-- The address of the worker on this host. -/
def localWorker : IO Address := do
  try
    let name ← IO.FS.readFile "/proc/sys/kernel/hostname"
    return Address.ofHostName (some (Text.trim (text name)))
  catch _ => return Address.ofHostName none

/-- Writes text to a stream. -/
def emit (h : IO.FS.Stream) (t : Text) : IO Unit := do
  h.write ⟨t.toArray⟩
  h.flush

/-- A notice as the program shows it. -/
def shownNotice (n : Notice) : Text :=
  text "[" ++ n.level.name ++ text "] " ++ n.wording ++ text "\n"

end BlockAccess.Command

open BlockAccess BlockAccess.Command in
/-- Runs the command on the files of the system. -/
def main (args : List String) : IO UInt32 := do
  let arguments := args.map text
  let scanned := (Arguments.scan {} arguments).filter (!·.errand.isEmpty)
  let files ←
    match scanned with
    | some a => if a.properties.isEmpty then pure {} else fetchFile a.properties {}
    | none => pure {}
  let plan := scanned.bind fun a => (settings? a files).bind (plan? a)
  let files ←
    match plan with
    | some p => p.prepare files
    | none => pure files
  let result := run arguments (← localWorker) (Loopback.network {}) { files }
  emit (← IO.getStdout) result.standardOutput
  emit (← IO.getStderr) (result.standardError ++ result.shown.flatMap shownNotice)
  match plan with
  | some p => p.deliver result.site.files
  | none => pure ()
  return UInt32.ofNat result.exitCode
