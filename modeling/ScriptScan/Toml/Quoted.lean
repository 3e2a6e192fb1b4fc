namespace ScriptScan.Toml

def isLineChar (c : Char) : Bool := c = '\t' || (0x20 ≤ c.toNat && c.toNat ≠ 0x7F)

def isSpace (c : Char) : Bool := c = ' ' || c = '\t'

def simpleEscape? : Char → Option Char
  | 'b' => some '\x08'
  | 't' => some '\t'
  | 'n' => some '\n'
  | 'f' => some '\x0c'
  | 'r' => some '\r'
  | '"' => some '"'
  | '\\' => some '\\'
  | _ => none

def hexValue? (c : Char) : Option Nat :=
  if c.isDigit then some (c.toNat - '0'.toNat)
  else if 'a' ≤ c ∧ c ≤ 'f' then some (c.toNat - 'a'.toNat + 10)
  else if 'A' ≤ c ∧ c ≤ 'F' then some (c.toNat - 'A'.toNat + 10)
  else none

def codePoint? (n : Nat) (cs : List Char) : Option Char := do
  let ds ← (cs.take n).mapM hexValue?
  let v := ds.foldl (fun v d => v * 16 + d) 0
  if ds.length = n ∧ v.isValidChar then return Char.ofNat v else none

/-- The character that an escape stands for, given what follows the backslash, and how many
characters that takes. -/
def escape? : List Char → Option (Char × Nat)
  | [] => none
  | 'u' :: cs => (codePoint? 4 cs).map (·, 5)
  | 'U' :: cs => (codePoint? 8 cs).map (·, 9)
  | c :: _ => (simpleEscape? c).map (·, 1)

def blankRun : List Char → Nat
  | '\r' :: '\n' :: cs => blankRun cs + 2
  | c :: cs => if isSpace c || c = '\n' then blankRun cs + 1 else 0
  | [] => 0

def lineEnd? : List Char → Option Nat
  | '\n' :: _ => some 1
  | '\r' :: '\n' :: _ => some 2
  | _ => none

def continuation? (cs : List Char) : Option Nat :=
  if (lineEnd? (cs.dropWhile isSpace)).isSome then some (blankRun cs) else none

/-- What one character, given what follows it, adds to a string, and how many characters after it
belong to it. -/
abbrev Piece := Char → List Char → Option (List Char × Nat)

def literalPiece : Piece := fun c _ => if isLineChar c then some ([c], 0) else none

def basicPiece : Piece := fun c cs =>
  if c = '\\' then (escape? cs).map fun (x, n) => ([x], n) else literalPiece c cs

def onLines (piece : Piece) : Piece := fun c cs =>
  match lineEnd? (c :: cs) with
  | some n => some (['\n'], n - 1)
  | none => piece c cs

def folding (piece : Piece) : Piece := fun c cs =>
  match c, continuation? cs with
  | '\\', some n => some ([], n)
  | _, _ => piece c cs

def closeOne (quote : Char) : List Char → Option (List Char × List Char)
  | c :: cs => if c = quote then some ([], cs) else none
  | [] => none

/-- The end of a string on several lines: three quotes, before which up to two more belong to the
string. -/
def closeThree (quote : Char) (cs : List Char) : Option (List Char × List Char) :=
  let run := (cs.takeWhile (· = quote)).length
  if run < 3 then none
  else
    let extra := min (run - 3) 2
    some (List.replicate extra quote, cs.drop (3 + extra))

def body? (close : List Char → Option (List Char × List Char)) (piece : Piece)
    (cs : List Char) : Option (List Char × List Char) :=
  match close cs with
  | some r => some r
  | none =>
      match cs with
      | [] => none
      | c :: cs =>
          (piece c cs).bind fun p =>
            (body? close piece (cs.drop p.2)).map fun r => (p.1 ++ r.1, r.2)
termination_by cs.length
decreasing_by simp only [List.length_drop, List.length_cons]; omega

def skipLineEnd (cs : List Char) : List Char := cs.drop ((lineEnd? cs).getD 0)

def lineString? : List Char → Option (List Char × List Char)
  | '"' :: cs => body? (closeOne '"') basicPiece cs
  | '\'' :: cs => body? (closeOne '\'') literalPiece cs
  | _ => none

def string? : List Char → Option (List Char × List Char)
  | '"' :: '"' :: '"' :: cs =>
      body? (closeThree '"') (folding (onLines basicPiece)) (skipLineEnd cs)
  | '\'' :: '\'' :: '\'' :: cs =>
      body? (closeThree '\'') (onLines literalPiece) (skipLineEnd cs)
  | cs => lineString? cs

end ScriptScan.Toml
