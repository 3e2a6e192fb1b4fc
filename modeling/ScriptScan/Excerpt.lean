import ScriptScan.SourceFile
import ScriptScan.Span

namespace ScriptScan

def spaces (n : Nat) : String := String.ofList (List.replicate n ' ')

def alignRight (width : Nat) (s : String) : String := spaces (width - s.length) ++ s

/-- One line of a text with a range of its columns, the end excluded. -/
structure Excerpt where
  line : List Char
  number : Nat
  startColumn : Nat
  endColumn : Nat
  deriving DecidableEq

namespace Excerpt

def gutterWidth (e : Excerpt) : Nat := e.number.repr.length

/-- The blanks before the carets: a tab under each tab of the line, else a space. -/
def indent (e : Excerpt) : List Char :=
  let before := e.line.take (e.startColumn - 1)
  before.map (fun c => if c = '\t' then '\t' else ' ') ++
    List.replicate (e.startColumn - 1 - before.length) ' '

def carets (e : Excerpt) : List Char :=
  List.replicate (max 1 (e.endColumn - e.startColumn)) '^'

def sourceRow (e : Excerpt) (width : Nat) : String :=
  alignRight width e.number.repr ++ " | " ++ String.ofList e.line

def caretRow (e : Excerpt) (width : Nat) : String :=
  spaces width ++ " | " ++ String.ofList (e.indent ++ e.carets)

def text (e : Excerpt) (width : Nat) : String := e.sourceRow width ++ "\n" ++ e.caretRow width

/-- The first line of a span. A span that goes on after that line is cut at its end. -/
def ofSpan? (f : SourceFile) (s : Span) : Option Excerpt :=
  (f.line? s.line).map fun line =>
    let stop := f.lineColumn (min s.stop f.size)
    ⟨line, s.line, s.column, if stop.1 = s.line then stop.2 else line.length + 1⟩

end Excerpt

end ScriptScan
