import ScriptScan.Text.Bytes

namespace ScriptScan

/-- A point of a text. Lines and columns count from one, columns in characters. -/
structure Location where
  offset : Nat
  line : Nat
  column : Nat
  deriving DecidableEq

namespace Location

def start : Location := ⟨0, 1, 1⟩

def step (p : Location) (c : Char) : Location :=
  if c = '\n' then ⟨p.offset + c.utf8Size, p.line + 1, 1⟩
  else ⟨p.offset + c.utf8Size, p.line, p.column + 1⟩

def advance (p : Location) (cs : List Char) : Location :=
  cs.foldl step p

theorem advance_append (p : Location) (a b : List Char) :
    p.advance (a ++ b) = (p.advance a).advance b := by
  simp [advance]

@[simp] theorem offset_step (p : Location) (c : Char) :
    (p.step c).offset = p.offset + c.utf8Size := by
  unfold step; split <;> rfl

@[simp] theorem offset_advance (p : Location) (cs : List Char) :
    (p.advance cs).offset = p.offset + Text.byteSize cs := by
  induction cs generalizing p with
  | nil => rfl
  | cons c cs ih =>
      rw [show p.advance (c :: cs) = (p.step c).advance cs from rfl, ih, offset_step, Nat.add_assoc]
      rfl

end Location

/-- The bytes from `start` up to `stop`, and the line and column of the first of them. -/
structure Span where
  start : Nat
  stop : Nat
  line : Nat
  column : Nat
  deriving DecidableEq

namespace Span

def nowhere : Span := ⟨0, 0, 0, 0⟩

def between (a b : Location) : Span := ⟨a.offset, b.offset, a.line, a.column⟩

def size (s : Span) : Nat := s.stop - s.start

def isEmpty (s : Span) : Bool := s.start == s.stop

def text (s : Span) : String := s.line.repr ++ ":" ++ s.column.repr

end Span

end ScriptScan
