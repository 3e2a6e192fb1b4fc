import ScriptScan.Arguments
import ScriptScan.Host
import ScriptScan.Scanner
import ScriptScan.Settings

namespace ScriptScan

structure Printed where
  out : String
  err : String
  deriving DecidableEq

namespace Printed

def nothing : Printed := ⟨"", ""⟩

def append (a b : Printed) : Printed := ⟨a.out ++ b.out, a.err ++ b.err⟩

end Printed

/-- Counts of scanned files, of those with errors, and of errors. -/
structure Tally where
  files : Nat := 0
  failed : Nat := 0
  errors : Nat := 0
  deriving DecidableEq

namespace Tally

def record (t : Tally) (errors : Nat) : Tally :=
  ⟨t.files + 1, if errors = 0 then t.failed else t.failed + 1, t.errors + errors⟩

def success (t : Tally) : Bool := t.failed == 0

end Tally

structure Effect where
  printed : Printed
  result : Except Failure Tally

namespace Command

def tokens (host : Host) (colored : Bool) (format : Listing.Format) (showEof : Bool)
    (path : String) : Effect :=
  match host.source path with
  | .error e => ⟨.nothing, .error e⟩
  | .ok f =>
      let (ts, log) := scanInto .empty f.content
      ⟨⟨Listing.render format showEof ts, Report.renderAll colored f log.entries⟩,
        .ok (({} : Tally).record log.errorCount)⟩

def checkSource (colored verbose : Bool) (f : SourceFile) : Printed × Nat :=
  let (ts, log) := scanInto .empty f.content
  let printed :=
    if log.entries.isEmpty then
      if verbose then ⟨f.name ++ ": ok (" ++ ts.length.repr ++ " tokens)\n", ""⟩ else .nothing
    else
      ⟨"", Report.renderAll colored f log.entries ++
        if log.hasErrors then "\n" ++ Report.renderClosing colored log.errorCount f.name else ""⟩
  (printed, log.errorCount)

/-- Checks files one after another, up to the first that cannot be read. -/
def check (host : Host) (colored verbose : Bool) (tally : Tally) : List String → Effect
  | [] => ⟨.nothing, .ok tally⟩
  | path :: paths =>
      match host.source path with
      | .error e => ⟨.nothing, .error e⟩
      | .ok f =>
          let (printed, errors) := checkSource colored verbose f
          let rest := check host colored verbose (tally.record errors) paths
          ⟨printed.append rest.printed, rest.result⟩

def checkAll (host : Host) (colored verbose : Bool) (paths : List String) : Effect :=
  if paths.isEmpty then ⟨.nothing, .error .noInput⟩ else check host colored verbose {} paths

def load (host : Host) (node : Node) : Except Failure Settings :=
  node.text.bind (Settings.ofText host.tomlMessage)

def settingsAt (host : Host) (path : String) : Except Failure Settings :=
  if (host.node path).isMissing then .error (.configMissing path) else load host (host.node path)

/-- The settings in force: those of the file that is asked for, else of the first file that exists
among the usual ones. -/
def settings (host : Host) : Option String → Except Failure Settings
  | some path => settingsAt host path
  | none =>
      match [host.node "quill.toml", host.userConfig].find? (!·.isMissing) with
      | some node => load host node
      | none => .ok {}

def colorFor (noColor : Bool) (s : Settings) : Except Failure ColorChoice :=
  if noColor then .ok .never else s.colorChoice

def formatFor (name : Option String) (s : Settings) : Except Failure Listing.Format :=
  match name with
  | some name => Settings.formatNamed name
  | none => s.listingFormat

def execute (host : Host) (i : Arguments.Invocation) (s : Settings) : Effect :=
  match colorFor i.noColor s with
  | .error e => ⟨.nothing, .error e⟩
  | .ok choice =>
      let colored := choice.enabled host.terminal
      match i.command with
      | .check files => checkAll host colored (i.verbose || s.verbose) files
      | .tokens file name noEof =>
          match formatFor name s with
          | .error e => ⟨.nothing, .error e⟩
          | .ok format => tokens host colored format (s.showEof && !noEof) file

def effect (host : Host) (i : Arguments.Invocation) : Effect :=
  match settings host i.config with
  | .error e => ⟨.nothing, .error e⟩
  | .ok s => execute host i s

structure Response where
  exit : Nat
  printed : Printed
  deriving DecidableEq

def respond (e : Effect) : Response :=
  match e.result with
  | .ok tally => ⟨if tally.success then 0 else 1, e.printed⟩
  | .error failure =>
      ⟨2, e.printed.append ⟨"", "error: " ++ failure.message ++ "\n"⟩⟩

def versionText : Arguments.Scope → String
  | .outer => "quillt 0.1.0\n"
  | .tokens => "quillt-tokens 0.1.0\n"
  | .check => "quillt-check 0.1.0\n"

/-- The response to a command line; none if the command line cannot be understood. -/
def run? (host : Host) (args : List String) : Option Response :=
  match Arguments.parse host.variableNamed args with
  | .error .usage => none
  | .error (.version scope) => some ⟨0, ⟨versionText scope, ""⟩⟩
  | .ok i => some (respond (effect host i))

end Command

end ScriptScan
