import BlockAccess.Command.Arguments
import BlockAccess.Command.Copy
import BlockAccess.Opening
import BlockAccess.Settings.Properties
import BlockAccess.Site

/-!
# The copying command

The command copies a block, or a range of it, from the worker on this host or from a remote one, to
a file or to standard output.  `run` is the whole of it as a function: from the arguments, the name
of this host, the network and the site to the exit code, the output and the site afterwards.

What can be wrong is looked for in this order: that there is an errand, that the properties file can
be loaded, that the errand is known and its address well formed, that the operands are complete and
are numbers, that the output file can be opened; then the block is opened and copied.  Of these the
errand, the address and the operands, and a malformed range before all, are answered by the help
text.  The output file is emptied before the block is looked for.
-/

namespace BlockAccess.Command

/-- The help text. -/
def help : Text :=
  text "Usage:\n"
    ++ text "  blkiotool local [options] <block-id> <length> [<file-out>]\n"
    ++ text "  blkiotool remote [options] <host:port> <block-id> <length> [<file-out>]\n"
    ++ text "Options:\n"
    ++ text "  -c <file>        Load client properties from <file>\n"
    ++ text "  -p <off>:<len>   Positioned read of <len> bytes at <off> "
    ++ text "instead of the whole block\n"
    ++ text "  -v               Verbose details.\n"

/-- What the command leaves behind. -/
structure Result where
  exitCode : Nat
  standardOutput : Bytes := []
  standardError : Text := []
  /-- The least level of the notices that are shown. -/
  level : Level := .info
  site : Site

namespace Result

/-- The notices that are shown. -/
def shown (r : Result) : List Notice := r.site.journal.atLeast r.level

end Result

/-- The command ends with the help text. -/
def helped (site : Site) (level : Level) : Result :=
  { exitCode := 1, standardError := help, level, site }

/-- The command ends and closes its output. -/
def ended (success : Bool) (level : Level) (o : Output) (site : Site) : Result :=
  { exitCode := if success then 0 else 1, standardOutput := o.standard, level
    site := { site with files := o.finish site.files } }

/-- Opens the block of an errand and copies it.  A local block is closed also if copying fails. -/
def copyErrand (errand : Errand) (settings : Settings) (host : Address) (network : Network)
    (block length : UInt64) (range : Option (UInt64 × UInt64)) (o : Output) (site : Site) :
    Except Failure Bool × Output × Site :=
  match errand with
  | .localBlock =>
    match LocalBlock.ofSettings {} settings host block site with
    | (.error f, site) => (.error f, o, site)
    | (.ok b, site) =>
      match copy b.source b.supply range o (Stream.start block length) site with
      | (.error f, o, site) => (.error f, o, (b.shutDown site).2)
      | (.ok success, o, site) => (.ok success, o, site)
  | .remoteBlock address =>
    match RemoteBlock.ofSettings {} settings network address { blockId := block } with
    | .error f => (.error f, o, site)
    | .ok b => copy b.source b.supply range o (Stream.start block length) site

/-- Copies and closes the output. -/
def execute (errand : Errand) (settings : Settings) (host : Address) (network : Network)
    (block length : UInt64) (range : Option (UInt64 × UInt64)) (level : Level) (o : Output)
    (site : Site) : Result :=
  match copyErrand errand settings host network block length range o site with
  | (.error f, o, site) => ended false level o (note (.failed f) site)
  | (.ok success, o, site) => ended success level o site

/-- Runs the command once its settings are known. -/
def runWith (a : Arguments) (settings : Settings) (host : Address) (network : Network)
    (site : Site) : Result :=
  match errand? a with
  | none => helped site a.level
  | some (errand, operands) =>
    match operands? operands with
    | none => helped site a.level
    | some (block, length, []) =>
      execute errand settings host network block length a.range a.level { target := .standard }
        site
    | some (block, length, path) =>
      match Output.openFile site.files path with
      | (.error r, files) =>
        { exitCode := 1, level := a.level
          site := note (.outputUnopened path r.reason) { site with files } }
      | (.ok o, files) =>
        execute errand settings host network block length a.range a.level o { site with files }

/-- Runs the command.  `host` is the address of the worker on this host.  The system hands an
argument over with a NUL as its end mark, so nothing behind one is seen. -/
def run (arguments : List Text) (host : Address) (network : Network) (site : Site) : Result :=
  match Arguments.scan {} (arguments.map Text.untilNul) with
  | none => helped site .info
  | some a =>
    if a.errand.isEmpty then helped site a.level
    else if a.properties.isEmpty then runWith a .initial host network site
    else
      match Properties.load a.properties .initial site with
      | (none, site) => { exitCode := 1, level := a.level, site }
      | (some settings, site) => runWith a settings host network site

end BlockAccess.Command
