import ScriptScan.Span

namespace ScriptScan

inductive Level where
  | error
  | note
  | help
  deriving DecidableEq

namespace Level

def name : Level → String
  | error => "error"
  | note => "note"
  | help => "help"

def isError (l : Level) : Bool := l == error

end Level

structure Code where
  letters : String
  number : Nat
  deriving DecidableEq

namespace Code

/-- The letters and the number, which is filled up to four digits. -/
def text (c : Code) : String :=
  let digits := c.number.repr
  c.letters ++ String.ofList (List.replicate (4 - digits.length) '0') ++ digits

def summary (c : Code) : String := "DiagnosticCode(" ++ c.text ++ ")"

def unknownCharacter : Code := ⟨"E", 1001⟩
def unterminatedString : Code := ⟨"E", 1002⟩
def missingDigits : Code := ⟨"E", 1003⟩
def unterminatedComment : Code := ⟨"E", 1004⟩
def undecodableNumber : Code := ⟨"E", 1005⟩

end Code

structure Diagnostic where
  level : Level
  message : String
  code : Option Code := none
  span : Span := Span.nowhere
  notes : List String := []
  helps : List String := []
  deriving DecidableEq

structure Log where
  entries : List Diagnostic
  deriving DecidableEq

namespace Log

def empty : Log := ⟨[]⟩

def report (l : Log) (d : Diagnostic) : Log := ⟨l.entries ++ [d]⟩

def reportAll (l : Log) (ds : List Diagnostic) : Log := ⟨l.entries ++ ds⟩

def errorCount (l : Log) : Nat := l.entries.countP (·.level.isError)

def hasErrors (l : Log) : Bool := l.entries.any (·.level.isError)

end Log

end ScriptScan
