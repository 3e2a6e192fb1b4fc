import ScriptScan.Span

/-!
A cursor that keeps its place as a number of bytes. It reads characters out of the UTF-8 bytes of
the text, and its counters are words of 32 bits.

Reading can fail: `none` stands for an index outside of the bytes, and for a slice that is out of
bounds or cuts a character.
-/

namespace ScriptScan

structure ByteCursor where
  source : String
  position : Nat
  line : UInt32
  column : UInt32
  deriving DecidableEq

namespace ByteCursor

def ofString (s : String) : ByteCursor := ⟨s, 0, 1, 1⟩

def atEnd (k : ByteCursor) : Bool := k.source.utf8ByteSize ≤ k.position

def slice? (k : ByteCursor) (start stop : Nat) : Option (List Char) :=
  Text.slice? k.source.toList start stop

def sliceFrom? (k : ByteCursor) (start : Nat) : Option (List Char) :=
  k.slice? start k.position

def sliceAfter? (k : ByteCursor) (start : Nat) : Option (List Char) :=
  Text.dropBytes? k.source.toList start

def remaining? (k : ByteCursor) : Option (List Char) := k.sliceAfter? k.position

/-- The character that begins at a byte, NUL at the end and after it. A byte below 128 is a whole
character; only at other bytes is the text cut. -/
def charAt? (k : ByteCursor) (offset : Nat) : Option Char :=
  if k.source.utf8ByteSize ≤ offset then some '\x00'
  else do
    let byte ← k.source.toUTF8[offset]?
    if byte < 128 then some (Char.ofNat byte.toNat)
    else
      let rest ← k.sliceAfter? offset
      some (rest.headD '\x00')

def current? (k : ByteCursor) : Option Char := k.charAt? k.position

def peek? (k : ByteCursor) : Option Char :=
  if k.atEnd then some '\x00'
  else do
    let c ← k.current?
    k.charAt? (k.position + c.utf8Size)

def advance? (k : ByteCursor) : Option ByteCursor :=
  if k.atEnd then some k
  else do
    let c ← k.current?
    let position := k.position + c.utf8Size
    if c = '\n' then some { k with position, line := k.line + 1, column := 1 }
    else some { k with position, column := k.column + 1 }

def matchChar? (k : ByteCursor) (c : Char) : Option (Bool × ByteCursor) :=
  if k.atEnd then some (false, k)
  else do
    let d ← k.current?
    if d = c then
      let k ← k.advance?
      some (true, k)
    else some (false, k)

def left (k : ByteCursor) : Nat := k.source.utf8ByteSize - k.position

theorem left_lt_of_advance? {k next : ByteCursor} (he : ¬ k.atEnd = true)
    (h : k.advance? = some next) : next.left < k.left := by
  rw [advance?, if_neg he] at h
  obtain ⟨c, -, h⟩ := Option.bind_eq_some_iff.mp h
  have hpos := c.utf8Size_pos
  have hlt : k.position < k.source.utf8ByteSize := by simpa [atEnd] using he
  split at h
  · cases h
    simp only [left]
    omega
  · cases h
    simp only [left]
    omega

theorem left_le_of_advance? {k next : ByteCursor} (h : k.advance? = some next) :
    next.left ≤ k.left := by
  by_cases he : k.atEnd = true
  · rw [advance?, if_pos he] at h
    cases h
    exact Nat.le_refl _
  · exact Nat.le_of_lt (left_lt_of_advance? he h)

/-- Moves over all characters up to the first that fails `p`, and counts them. -/
def eatWhile? (k : ByteCursor) (p : Char → Bool) : Option (Nat × ByteCursor) :=
  if _he : k.atEnd then some (0, k)
  else do
    let c ← k.current?
    if p c then
      match _h : k.advance? with
      | none => none
      | some next =>
          let (n, k) ← next.eatWhile? p
          some (n + 1, k)
    else some (0, k)
termination_by k.left
decreasing_by exact left_lt_of_advance? _he _h

theorem eatWhile?_of_atEnd {k : ByteCursor} (p : Char → Bool) (he : k.atEnd = true) :
    k.eatWhile? p = some (0, k) := by
  rw [eatWhile?, dif_pos he]

theorem eatWhile?_of_not {k : ByteCursor} {p : Char → Bool} {c : Char} (he : k.atEnd = false)
    (hc : k.current? = some c) (hp : p c = false) : k.eatWhile? p = some (0, k) := by
  rw [eatWhile?, dif_neg (by simp [he]), hc]
  simp only [Option.bind_eq_bind, Option.bind_some, hp, Bool.false_eq_true, if_false]

theorem eatWhile?_of_advance? {k next : ByteCursor} {p : Char → Bool} {c : Char}
    (he : k.atEnd = false) (hc : k.current? = some c) (hp : p c = true)
    (hk : k.advance? = some next) :
    k.eatWhile? p = (next.eatWhile? p).map fun r => (r.1 + 1, r.2) := by
  rw [eatWhile?, dif_neg (by simp [he]), hc]
  simp only [Option.bind_eq_bind, Option.bind_some, hp, if_true]
  split
  · rename_i h
    rw [hk] at h
    cases h
  · rename_i h
    rw [hk] at h
    cases h
    exact Option.map_eq_bind.symm

/-- A way to move that gets on wherever there is text left. -/
structure Move where
  run? : ByteCursor → Option ByteCursor
  left_lt : ∀ {k next : ByteCursor}, ¬ k.atEnd = true → run? k = some next → next.left < k.left

def until? (found? : ByteCursor → Option Bool) (move : Move) (k : ByteCursor) :
    Option (Bool × ByteCursor) :=
  if _he : k.atEnd then some (false, k)
  else do
    let here ← found? k
    if here then some (true, k)
    else
      match _h : move.run? k with
      | none => none
      | some next => until? found? move next
termination_by k.left
decreasing_by exact move.left_lt _he _h

section Until

variable {found? : ByteCursor → Option Bool} {move : Move} {k : ByteCursor}

theorem until?_of_atEnd (he : k.atEnd = true) : until? found? move k = some (false, k) := by
  rw [until?, dif_pos he]

theorem until?_of_found (he : k.atEnd = false) (hf : found? k = some true) :
    until? found? move k = some (true, k) := by
  rw [until?, dif_neg (by simp [he]), hf]
  rfl

theorem until?_of_move {next : ByteCursor} (he : k.atEnd = false) (hf : found? k = some false)
    (hk : move.run? k = some next) : until? found? move k = until? found? move next := by
  rw [until?, dif_neg (by simp [he]), hf]
  simp only [Option.bind_eq_bind, Option.bind_some, Bool.false_eq_true, if_false]
  split
  · rename_i h
    rw [hk] at h
    cases h
  · rename_i h
    rw [hk] at h
    cases h
    rfl

end Until

end ByteCursor

end ScriptScan
