import ScriptScan.Command

namespace ScriptScan.Main

def reason : IO.Error → String
  | .permissionDenied _ code details | .inappropriateType _ code details
  | .resourceExhausted _ code details | .hardwareFault code details | .noSuchThing _ code details
  | .otherError code details => details ++ " (os error " ++ code.toNat.repr ++ ")"
  | e => toString e

def pathExists (path : String) : IO Bool := do
  try
    let _ ← IO.FS.realPath path
    return true
  catch _ => return false

/-- What is found at a path of the machine. Only a directory is told apart from a plain file, by the
code of the failure to read it. -/
def readNode (path : String) : IO Node := do
  if !(← pathExists path) then return .missing
  try
    return .file (← IO.FS.readBinFile path)
  catch
    | .inappropriateType _ 21 _ => return .directory
    | e => return .present true (.error (reason e))

def paths (i : Arguments.Invocation) : List String :=
  "quill.toml" :: i.config.toList ++
    match i.command with
    | .tokens file _ _ => [file]
    | .check files => files

def userConfigPath? : IO (Option String) := do
  match ← IO.getEnv "XDG_CONFIG_HOME", ← IO.getEnv "HOME" with
  | some dir, home =>
      if dir.startsWith "/" then return some (dir ++ "/quill/quill.toml")
      else return home.map (· ++ "/.config/quill/quill.toml")
  | none, home => return home.map (· ++ "/.config/quill/quill.toml")

def usage : String :=
  "error: unknown command line\n\nUsage: quillt [OPTIONS] <tokens|check> <FILE>...\n"

def variableNames : List String := ["QUILLT_VERBOSE", "QUILLT_NO_COLOR", "QUILLT_CONFIG"]

def host (variableNamed : String → Option String) (looked : List String) : IO Host := do
  let nodes ← looked.mapM fun path => return (path, ← readNode path)
  let userConfig ← match ← userConfigPath? with
    | some path => readNode path
    | none => pure .missing
  let terminal ← (← IO.getStderr).isTty
  -- `Toml.parse?` gives no reason for refusing a text, so there is one for all.
  return ⟨fun path => (nodes.lookup path).getD .missing, userConfig, variableNamed, terminal,
    fun _ => "TOML parse error"⟩

end ScriptScan.Main

def main (args : List String) : IO UInt32 := do
  let values ← ScriptScan.Main.variableNames.mapM fun name => return (name, ← IO.getEnv name)
  let variableNamed := fun name => (values.lookup name).bind id
  let looked := match ScriptScan.Arguments.parse variableNamed args with
    | .ok i => ScriptScan.Main.paths i
    | .error _ => []
  let host ← ScriptScan.Main.host variableNamed looked
  match ScriptScan.Command.run? host args with
  | none =>
      (← IO.getStderr).putStr ScriptScan.Main.usage
      return 2
  | some r =>
      (← IO.getStdout).putStr r.printed.out
      (← IO.getStderr).putStr r.printed.err
      return r.exit.toUInt32
