import ScriptScan.Number.Numeral
import ScriptScan.Toml.Value

namespace ScriptScan.Toml

def isWordChar (c : Char) : Bool :=
  c.isAlphanum || c = '_' || c = '+' || c = '-' || c = '.' || c = ':'

/-- Digits in which single underscores may stand between two digits; the underscores are dropped. -/
def digits? (isDigit : Char → Bool) : List Char → Option (List Char)
  | [] => none
  | [c] => if isDigit c then some [c] else none
  | c :: '_' :: cs => if isDigit c then (digits? isDigit cs).map (c :: ·) else none
  | c :: cs => if isDigit c then (digits? isDigit cs).map (c :: ·) else none

def splitSign : List Char → Bool × List Char
  | '-' :: cs => (true, cs)
  | '+' :: cs => (false, cs)
  | cs => (false, cs)

def wholeDigits? (cs : List Char) : Option (List Char) :=
  match cs with
  | '0' :: _ :: _ => none
  | _ => digits? Char.isDigit cs

def inRange (n : Int) : Bool := -9223372036854775808 ≤ n && n ≤ 9223372036854775807

def bounded? (n : Int) : Option Value := if inRange n then some (.integer n) else none

def radixInteger? (r : Radix) (cs : List Char) : Option Value := do
  let n ← Digits.toNat? r.base (← digits? (Digits.isOf r.base) cs)
  bounded? n

def integer? : List Char → Option Value
  | '0' :: 'x' :: cs => radixInteger? .hexadecimal cs
  | '0' :: 'o' :: cs => radixInteger? .octal cs
  | '0' :: 'b' :: cs => radixInteger? .binary cs
  | cs => do
      let (negative, body) := splitSign cs
      let n ← Digits.toNat? 10 (← wholeDigits? body)
      bounded? (if negative then -(n : Int) else n)

def isDigitOrUnderscore (c : Char) : Bool := c.isDigit || c = '_'

def floatExponent? : List Char → Option (Option Numeral.Exponent)
  | [] => some none
  | m :: cs =>
      if Numeral.Plain.isExponentMarker m then do
        let (negative, body) := splitSign cs
        let ds ← digits? Char.isDigit body
        return some ⟨m, negative, ds⟩
      else none

def floatFraction? : List Char → Option (Option (List Char) × List Char)
  | '.' :: cs => do
      let ds ← digits? Char.isDigit (cs.takeWhile isDigitOrUnderscore)
      return (some ds, cs.dropWhile isDigitOrUnderscore)
  | cs => some (none, cs)

def floatParts? (cs : List Char) : Option Numeral.Plain := do
  let whole ← wholeDigits? (cs.takeWhile isDigitOrUnderscore)
  let (fraction, rest) ← floatFraction? (cs.dropWhile isDigitOrUnderscore)
  let exponent ← floatExponent? rest
  if fraction.isNone && exponent.isNone then none
  else return ⟨whole, fraction, exponent, false⟩

/-- A float. A positive one has to be finite once it is rounded. -/
def float? (cs : List Char) : Option Value := do
  let (negative, body) := splitSign cs
  if body = ['i', 'n', 'f'] ∨ body = ['n', 'a', 'n'] then
    return .float (String.ofList cs)
  let d ← (← floatParts? body).decimal?
  if negative || d.toBinary64?.isSome then return .float (String.ofList cs) else none

/-- A number of exactly `n` digits between two bounds, and what follows it. -/
def field? (n low high : Nat) (cs : List Char) : Option (Nat × List Char) := do
  let ds := cs.take n
  let v ← Digits.toNat? 10 ds
  if ds.length = n ∧ low ≤ v ∧ v ≤ high then return (v, cs.drop n) else none

def expect? (c : Char) : List Char → Option (List Char)
  | d :: cs => if d = c then some cs else none
  | [] => none

def isLeapYear (year : Nat) : Bool :=
  year % 4 == 0 && (year % 100 != 0 || year % 400 == 0)

def daysInMonth (year month : Nat) : Nat :=
  if month = 2 then if isLeapYear year then 29 else 28
  else if month = 4 ∨ month = 6 ∨ month = 9 ∨ month = 11 then 30
  else 31

def afterDate? (cs : List Char) : Option (List Char) := do
  let (year, cs) ← field? 4 0 9999 cs
  let (month, cs) ← field? 2 1 12 (← expect? '-' cs)
  let (_, cs) ← field? 2 1 (daysInMonth year month) (← expect? '-' cs)
  return cs

def afterTime? (cs : List Char) : Option (List Char) := do
  let (_, cs) ← field? 2 0 23 cs
  let (_, cs) ← field? 2 0 59 (← expect? ':' cs)
  let (_, cs) ← field? 2 0 60 (← expect? ':' cs)
  match cs with
  | '.' :: d :: rest => if d.isDigit then return rest.dropWhile Char.isDigit else none
  | _ => return cs

def isOffset : List Char → Bool
  | [] => true
  | ['Z'] => true
  | ['z'] => true
  | c :: cs =>
      (c = '+' || c = '-') &&
        match field? 2 0 23 cs with
        | some (_, ':' :: rest) => (field? 2 0 59 rest).any (·.2.isEmpty)
        | _ => false

def isDate (cs : List Char) : Bool := (afterDate? cs).any (·.isEmpty)

def isOffsetTime (cs : List Char) : Bool := (afterTime? cs).any isOffset

def isTime (cs : List Char) : Bool :=
  (afterTime? cs).any (·.isEmpty) ||
    match afterDate? cs with
    | some [] => true
    | some (c :: rest) => (c = 'T' || c = 't') && isOffsetTime rest
    | none => false

def scalar? (cs : List Char) : Option Value :=
  if cs = "true".toList then some (.boolean true)
  else if cs = "false".toList then some (.boolean false)
  else if isTime cs then some (.time (String.ofList cs))
  else (float? cs).orElse fun _ => integer? cs

/-- The unquoted value at the head of a text, and what follows it. A space may divide a date from
its time of day. -/
def readScalar? (cs : List Char) : Option (Value × List Char) := do
  let word := cs.takeWhile isWordChar
  let rest := cs.dropWhile isWordChar
  let v ← scalar? word
  match rest with
  | ' ' :: more =>
      let clock := more.takeWhile isWordChar
      if isDate word && isOffsetTime clock then
        return (.time (String.ofList (word ++ ' ' :: clock)), more.dropWhile isWordChar)
      else return (v, rest)
  | _ => return (v, rest)

end ScriptScan.Toml
