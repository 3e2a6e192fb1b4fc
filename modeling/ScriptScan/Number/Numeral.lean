import ScriptScan.Number.Digits
import ScriptScan.Number.Value

namespace ScriptScan

namespace Numeral

inductive Error where
  | outOfRange
  | notInteger
  | exponentTooLarge
  | malformed (text : String)
  | malformedFloat (text : String)
  | malformedRadix (r : Radix)
  deriving DecidableEq

def maxExponent : Nat := 10000

structure Exponent where
  marker : Char
  negative : Bool
  digits : List Char
  deriving DecidableEq

def Exponent.chars (e : Exponent) : List Char :=
  e.marker :: (if e.negative then ['-'] else []) ++ e.digits

structure Plain where
  whole : List Char
  fraction : Option (List Char)
  exponent : Option Exponent
  suffixed : Bool
  deriving DecidableEq

def fractionChars : Option (List Char) → List Char
  | none => []
  | some ds => '.' :: ds

def exponentChars : Option Exponent → List Char
  | none => []
  | some e => e.chars

def suffixChars (suffixed : Bool) : List Char := if suffixed then ['n'] else []

namespace Plain

def body (p : Plain) : List Char := p.whole ++ fractionChars p.fraction ++ exponentChars p.exponent

def chars (p : Plain) : List Char := p.body ++ suffixChars p.suffixed

def format (p : Plain) : NumberFormat :=
  if p.exponent.isSome then .exponential else .decimal

def decimal? (p : Plain) : Option Decimal := do
  let fraction := p.fraction.getD []
  let digits ← Digits.toNat? 10 (p.whole ++ fraction)
  match p.exponent with
  | none => return ⟨digits, -(fraction.length : Int)⟩
  | some e =>
      let power ← Digits.toNat? 10 e.digits
      return ⟨digits, (if e.negative then -(power : Int) else power) - fraction.length⟩

def power (p : Plain) : Except Error Nat :=
  match p.exponent with
  | none => .ok 0
  | some e =>
      match Digits.toNat? 10 e.digits with
      | none => .error .exponentTooLarge
      | some n =>
          if maxExponent < n then .error .exponentTooLarge
          else if e.negative ∧ n ≠ 0 then .error .notInteger
          else .ok n

def integer (p : Plain) : Except Error Nat :=
  if p.fraction.isSome then .error .notInteger
  else p.power.bind fun power =>
    match Digits.toNat? 10 p.whole with
    | none => .error (.malformed (String.ofList p.whole))
    | some n => .ok (n * tenTo power)

def float (p : Plain) : Except Error Binary64 :=
  match p.decimal? with
  | none => .error (.malformedFloat (String.ofList p.body))
  | some d =>
      match d.toBinary64? with
      | none => .error .outOfRange
      | some x => .ok x

def value (p : Plain) : Except Error NumberValue :=
  if p.suffixed then p.integer.map .integer else p.float.map .float

/-- The fraction at the head of a text: a point counts only before a digit. -/
def readFraction? : List Char → Option (List Char)
  | '.' :: d :: cs => if d.isDigit then some ((d :: cs).takeWhile Char.isDigit) else none
  | _ => none

def isExponentMarker (c : Char) : Bool := c = 'e' || c = 'E'

/-- The exponent at the head of a text: its marker counts only before digits, which may have a minus
sign. -/
def readExponent? : List Char → Option Exponent
  | m :: '-' :: d :: cs =>
      if isExponentMarker m && d.isDigit then some ⟨m, true, (d :: cs).takeWhile Char.isDigit⟩
      else none
  | m :: d :: cs =>
      if isExponentMarker m && d.isDigit then some ⟨m, false, (d :: cs).takeWhile Char.isDigit⟩
      else none
  | _ => none

/-- The longest decimal literal at the head of a text that starts with a digit. -/
def read (cs : List Char) : Plain :=
  let whole := cs.takeWhile Char.isDigit
  let afterWhole := cs.dropWhile Char.isDigit
  let fraction := readFraction? afterWhole
  let afterFraction := afterWhole.drop (fractionChars fraction).length
  let exponent := readExponent? afterFraction
  let afterExponent := afterFraction.drop (exponentChars exponent).length
  ⟨whole, fraction, exponent, afterExponent.head? == some 'n'⟩

end Plain

/-- The parts of a literal with a radix marker, the leading zero left out. -/
structure Marked where
  radix : Radix
  marker : Char
  digits : List Char
  suffixed : Bool
  deriving DecidableEq

namespace Marked

def chars (m : Marked) : List Char := m.marker :: m.digits ++ suffixChars m.suffixed

def value (m : Marked) : Except Error NumberValue :=
  if m.suffixed then
    match Digits.toNat? m.radix.base m.digits with
    | none => .error (.malformedRadix m.radix)
    | some n => .ok (.integer n)
  else
    match Digits.toBinary64? m.radix.base m.digits with
    | none => .error .outOfRange
    | some x => .ok (.float x)

/-- The longest literal after a leading zero and a marker; it may lack digits. -/
def read (radix : Radix) (marker : Char) (cs : List Char) : Marked :=
  let digits := cs.takeWhile (Digits.isOf radix.base)
  let rest := cs.dropWhile (Digits.isOf radix.base)
  ⟨radix, marker, digits, rest.head? == some 'n'⟩

end Marked

end Numeral

end ScriptScan
