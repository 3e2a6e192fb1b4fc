import ScriptScan.Text.Bytes
import ScriptScan.Text.Escape

namespace ScriptScan

structure SourceFile where
  name : String
  content : String

namespace SourceFile

def chars (f : SourceFile) : List Char := f.content.toList

def size (f : SourceFile) : Nat := Text.byteSize f.chars

def startsAfter (offset : Nat) : List Char → List Nat
  | [] => []
  | c :: cs =>
      let next := offset + c.utf8Size
      if c = '\n' then next :: startsAfter next cs else startsAfter next cs

def lineStarts (f : SourceFile) : List Nat := 0 :: startsAfter 0 f.chars

def lineCount (f : SourceFile) : Nat := f.lineStarts.length

/-- The start of a line, lines counted from zero. -/
def lineStart? (f : SourceFile) (n : Nat) : Option Nat := f.lineStarts[n]?

def isLineEnd (c : Char) : Bool := c = '\n' || c = '\r'

def trimLineEnd (cs : List Char) : List Char := (cs.reverse.dropWhile isLineEnd).reverse

/-- A line without its end, lines counted from one. -/
def line? (f : SourceFile) : Nat → Option (List Char)
  | 0 => none
  | n + 1 => do
      let start ← f.lineStart? n
      let piece ← Text.slice? f.chars start ((f.lineStart? (n + 1)).getD f.size)
      return trimLineEnd piece

/-- The line that holds an offset, lines counted from zero: the last that starts at or before it. -/
def lineIndex (f : SourceFile) (offset : Nat) : Nat :=
  f.lineStarts.countP (· ≤ offset) - 1

/-- The line and the column of an offset, both counted from one. The column counts characters
where the offset falls between two of them, and bytes elsewhere. -/
def lineColumn (f : SourceFile) (offset : Nat) : Nat × Nat :=
  let line := f.lineIndex offset
  let start := f.lineStarts.getD line 0
  match Text.slice? f.chars start offset with
  | some piece => (line + 1, piece.length + 1)
  | none => (line + 1, offset - start + 1)

def summary (f : SourceFile) : String :=
  "SourceFile \x7b name: " ++ Text.quoted f.name ++ ", line_count: " ++ f.lineCount.repr ++ " \x7d"

end SourceFile

end ScriptScan
