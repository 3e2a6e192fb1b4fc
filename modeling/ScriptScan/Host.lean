import ScriptScan.Failure
import ScriptScan.SourceFile

namespace ScriptScan

/-- What is found at a path: whether it is a plain file, and its content or the reason why that
cannot be read. -/
inductive Node where
  | missing
  | present (plain : Bool) (content : Except String ByteArray)

namespace Node

def file (bytes : ByteArray) : Node := present true (.ok bytes)

def directory : Node := present false (.error "Is a directory (os error 21)")

def isMissing : Node → Bool
  | missing => true
  | present _ _ => false

def text : Node → Except Failure String
  | missing => .error (.unreadable "No such file or directory (os error 2)")
  | present _ (.error reason) => .error (.unreadable reason)
  | present _ (.ok bytes) =>
      match String.fromUTF8? bytes with
      | some s => .ok s
      | none => .error .notText

end Node

structure Host where
  node : String → Node
  /-- The configuration file in the user's own directory. -/
  userConfig : Node
  variableNamed : String → Option String
  /-- Whether error output goes to a terminal. -/
  terminal : Bool
  /-- What the TOML reader says of a text that it refuses. Nothing else depends on its words. -/
  tomlMessage : String → String

namespace Host

def source (host : Host) (path : String) : Except Failure SourceFile :=
  match host.node path with
  | .missing => .error (.inputMissing path)
  | .present false _ => .error (.inputNotFile path)
  | .present true content => (Node.present true content).text.map fun text => ⟨path, text⟩

end Host

end ScriptScan
