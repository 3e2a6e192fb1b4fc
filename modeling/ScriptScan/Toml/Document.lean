import ScriptScan.Toml.Quoted
import ScriptScan.Toml.Scalar

namespace ScriptScan.Toml

/-- How deep values may be nested, and how many parts a key may have, plus one. -/
def depthLimit : Nat := 80

def skipSpaces (cs : List Char) : List Char := cs.dropWhile isSpace

def skipGap (inComment : Bool) : List Char → List Char
  | [] => []
  | c :: cs =>
      if inComment && isLineChar c then skipGap true cs
      else if isSpace c || c = '\n' then skipGap false cs
      else if c = '#' then skipGap true cs
      else if c = '\r' && cs.head? = some '\n' then skipGap false cs
      else c :: cs

def endLine? (cs : List Char) : Option (List Char) :=
  let cs := skipSpaces cs
  let cs := if cs.head? = some '#' then cs.dropWhile isLineChar else cs
  if cs.isEmpty then some [] else (lineEnd? cs).map cs.drop

def isBareKeyChar (c : Char) : Bool := c.isAlphanum || c = '_' || c = '-'

def simpleKey? (cs : List Char) : Option (String × List Char) :=
  if cs.head? = some '"' ∨ cs.head? = some '\'' then
    (lineString? cs).map fun (text, rest) => (String.ofList text, rest)
  else
    let name := cs.takeWhile isBareKeyChar
    if name.isEmpty then none else some (String.ofList name, cs.dropWhile isBareKeyChar)

def keyParts? : Nat → List Char → Option (List String × List Char)
  | 0, _ => none
  | fuel + 1, cs => do
      let (part, cs) ← simpleKey? (skipSpaces cs)
      match skipSpaces cs with
      | '.' :: cs =>
          let (parts, cs) ← keyParts? fuel cs
          return (part :: parts, cs)
      | cs => return ([part], cs)

/-- A key, cut before its last part. -/
def key? (cs : List Char) : Option ((List String × String) × List Char) := do
  let (parts, cs) ← keyParts? (cs.length + 1) cs
  let last ← parts.getLast?
  if parts.length < depthLimit then return ((parts.dropLast, last), cs) else none

def closed (entries : Entries) : Value := .table .inline entries

mutual

/-- A value in an array or table that is `depth` levels deep. -/
def value? (depth : Nat) : Nat → List Char → Option (Value × List Char)
  | 0, _ => none
  | fuel + 1, cs =>
      match cs with
      | '[' :: cs =>
          if depth + 1 < depthLimit then
            (items? (depth + 1) fuel (skipGap false cs)).map fun (vs, cs) => (.array vs, cs)
          else none
      | '{' :: cs =>
          if depth + 1 < depthLimit then do
            let (ps, cs) ← pairs? (depth + 1) fuel true (skipSpaces cs)
            return (closed (← insertAll? .inline [] ps), cs)
          else none
      | c :: _ =>
          if c = '"' ∨ c = '\'' then
            (string? cs).map fun (text, cs) => (.string (String.ofList text), cs)
          else readScalar? cs
      | [] => none

def items? (depth : Nat) : Nat → List Char → Option (List Value × List Char)
  | 0, _ => none
  | fuel + 1, cs =>
      match cs with
      | ']' :: cs => some ([], cs)
      | cs => do
          let (v, cs) ← value? depth fuel cs
          match skipGap false cs with
          | ',' :: cs =>
              let (vs, cs) ← items? depth fuel (skipGap false cs)
              return (v :: vs, cs)
          | ']' :: cs => return ([v], cs)
          | _ => none

/-- The rest of an inline table, from a pair on; only the first may be missing. -/
def pairs? (depth : Nat) : Nat → Bool → List Char → Option (List Pair × List Char)
  | 0, _, _ => none
  | fuel + 1, first, cs =>
      match first, cs with
      | true, '}' :: cs => some ([], cs)
      | _, cs => do
          let ((path, key), cs) ← key? cs
          let (v, cs) ← value? depth fuel (skipSpaces (← expect? '=' cs))
          match skipSpaces cs with
          | ',' :: cs =>
              let (ps, cs) ← pairs? depth fuel false cs
              return (⟨path, key, v⟩ :: ps, cs)
          | '}' :: cs => return ([⟨path, key, v⟩], cs)
          | _ => none

end

inductive Line where
  | blank
  | pair (p : Pair)
  | header (repeated : Bool) (path : List String) (key : String)

def pairLine? (cs : List Char) : Option (Line × List Char) := do
  let ((path, key), cs) ← key? cs
  let cs := skipSpaces (← expect? '=' cs)
  let (v, cs) ← value? 0 (2 * cs.length + 2) cs
  return (.pair ⟨path, key, v⟩, ← endLine? cs)

def line? (cs : List Char) : Option (Line × List Char) :=
  match skipSpaces cs with
  | '[' :: '[' :: cs => do
      let ((path, key), cs) ← key? cs
      return (.header true path key, ← endLine? (← expect? ']' (← expect? ']' cs)))
  | '[' :: cs => do
      let ((path, key), cs) ← key? cs
      return (.header false path key, ← endLine? (← expect? ']' cs))
  | cs =>
      match endLine? cs with
      | some rest => some (.blank, rest)
      | none => pairLine? cs

def lines? : Nat → List Char → Option (List Line)
  | _, [] => some []
  | 0, _ :: _ => none
  | fuel + 1, cs => do
      let (l, cs) ← line? cs
      return l :: (← lines? fuel cs)

def sections : List Line → List Pair × List Section
  | [] => ([], [])
  | .blank :: ls => sections ls
  | .pair p :: ls =>
      let (ps, ss) := sections ls
      (p :: ps, ss)
  | .header repeated path key :: ls =>
      let (ps, ss) := sections ls
      ([], ⟨repeated, path, key, ps⟩ :: ss)

def skipByteOrderMark : List Char → List Char
  | '\uFEFF' :: cs => cs
  | cs => cs

def parse? (text : String) : Option Entries := do
  let cs := skipByteOrderMark text.toList
  let (pairs, ss) := sections (← lines? (cs.length + 1) cs)
  assemble? pairs ss

end ScriptScan.Toml
