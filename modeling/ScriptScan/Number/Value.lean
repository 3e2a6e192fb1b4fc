import ScriptScan.Number.Decimal

namespace ScriptScan

inductive Radix where
  | binary
  | octal
  | hexadecimal
  deriving DecidableEq

namespace Radix

def base : Radix → Nat
  | binary => 2
  | octal => 8
  | hexadecimal => 16

def name : Radix → String
  | binary => "binary"
  | octal => "octal"
  | hexadecimal => "hexadecimal"

def ofMarker? (c : Char) : Option Radix :=
  match c.toLower with
  | 'b' => some binary
  | 'o' => some octal
  | 'x' => some hexadecimal
  | _ => none

end Radix

inductive NumberFormat where
  | decimal
  | exponential
  | radix (r : Radix)
  deriving DecidableEq

namespace NumberFormat

def name : NumberFormat → String
  | decimal => "decimal"
  | exponential => "exponential"
  | radix r => r.name

def base : NumberFormat → Nat
  | decimal => 10
  | exponential => 10
  | radix r => r.base

end NumberFormat

inductive NumberValue where
  | float (x : Binary64)
  | integer (n : Nat)
  deriving DecidableEq

namespace NumberValue

def text : NumberValue → String
  | float x => (Decimal.shortest x).text
  | integer n => n.repr ++ "n"

end NumberValue

end ScriptScan
