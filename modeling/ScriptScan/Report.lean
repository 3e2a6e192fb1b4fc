import ScriptScan.Color
import ScriptScan.Diagnostic
import ScriptScan.Excerpt

namespace ScriptScan

def Level.color : Level → Color
  | error => .red
  | note => .cyan
  | help => .green

namespace Report

structure Piece where
  color : Option Color
  text : String
  deriving DecidableEq

abbrev Row := List Piece

def plain (s : String) : Piece := ⟨none, s⟩

def painted (c : Color) (s : String) : Piece := ⟨some c, s⟩

def Piece.write (colored : Bool) (p : Piece) : String :=
  match colored, p.color with
  | true, some c => "\x1b[1;" ++ c.sgr ++ "m" ++ p.text ++ "\x1b[0m"
  | _, _ => p.text

def writeRow (colored : Bool) (row : Row) : String :=
  String.join (row.map (·.write colored)) ++ "\n"

def writeRows (colored : Bool) (rows : List Row) : String :=
  String.join (rows.map (writeRow colored))

def title (d : Diagnostic) : String :=
  match d.code with
  | some c => d.level.name ++ "[" ++ c.text ++ "]"
  | none => d.level.name

def headerRow (c : Color) (name message : String) : Row :=
  [painted c name, painted .standard (": " ++ message)]

def placeRows (width : Nat) (f : SourceFile) (s : Span) : List Row :=
  if s.line = 0 then []
  else [[plain (spaces width), painted .blue "-->", plain (" " ++ f.name ++ ":" ++ s.text)]]

def excerptRows (width : Nat) : Option Excerpt → List Row
  | none => []
  | some e =>
      [[plain (spaces width ++ " "), painted .blue "|"],
        [plain (e.sourceRow width)], [plain (e.caretRow width)]]

def remarkRow (width : Nat) (level : Level) (text : String) : Row :=
  [plain (spaces width ++ " "), painted .blue "=", plain " ", painted level.color level.name,
    plain (": " ++ text)]

def rows (f : SourceFile) (d : Diagnostic) : List Row :=
  let excerpt := Excerpt.ofSpan? f d.span
  let width := (excerpt.map Excerpt.gutterWidth).getD 1
  headerRow d.level.color (title d) d.message ::
    placeRows width f d.span ++ excerptRows width excerpt ++
    d.notes.map (remarkRow width .note) ++ d.helps.map (remarkRow width .help)

def render (colored : Bool) (f : SourceFile) (d : Diagnostic) : String :=
  writeRows colored (rows f d)

def renderAll (colored : Bool) (f : SourceFile) (ds : List Diagnostic) : String :=
  "\n".intercalate (ds.map (render colored f))

def closingRows (count : Nat) (name : String) : List Row :=
  let plural := if count = 1 then "" else "s"
  [headerRow Level.error.color Level.error.name
      ("aborting due to " ++ count.repr ++ " previous error" ++ plural),
    [],
    headerRow Level.error.color Level.error.name ("could not tokenize `" ++ name ++ "`")]

def renderClosing (colored : Bool) (count : Nat) (name : String) : String :=
  writeRows colored (closingRows count name)

end Report

end ScriptScan
