import ScriptScan.Span

namespace ScriptScan

structure Cursor where
  source : List Char
  rest : List Char
  location : Location

namespace Cursor

def ofList (cs : List Char) : Cursor := ⟨cs, cs, .start⟩

def ofString (s : String) : Cursor := ofList s.toList

def atEnd (k : Cursor) : Bool := k.rest.isEmpty

/-- The character at the cursor, NUL at the end. -/
def current (k : Cursor) : Char := k.rest.headD '\x00'

def peek (k : Cursor) : Char := k.rest.tail.headD '\x00'

def advance (k : Cursor) : Cursor :=
  match k.rest with
  | [] => k
  | c :: cs => { k with rest := cs, location := k.location.step c }

def advanceBy (k : Cursor) : Nat → Cursor
  | 0 => k
  | n + 1 => k.advance.advanceBy n

def matchChar (k : Cursor) (c : Char) : Bool × Cursor :=
  if k.rest.head? = some c then (true, k.advance) else (false, k)

def eatWhile (k : Cursor) (p : Char → Bool) : Nat × Cursor :=
  let n := (k.rest.takeWhile p).length
  (n, k.advanceBy n)

def slice? (k : Cursor) (start stop : Nat) : Option (List Char) :=
  Text.slice? k.source start stop

def sliceFrom? (k : Cursor) (start : Nat) : Option (List Char) :=
  k.slice? start k.location.offset

theorem rest_advance (k : Cursor) : k.advance.rest = k.rest.tail := by
  unfold advance; split <;> simp_all

theorem rest_advanceBy (k : Cursor) (n : Nat) : (k.advanceBy n).rest = k.rest.drop n := by
  induction n generalizing k with
  | zero => rfl
  | succ n ih => rw [advanceBy, ih, rest_advance, List.drop_tail]

end Cursor

end ScriptScan
