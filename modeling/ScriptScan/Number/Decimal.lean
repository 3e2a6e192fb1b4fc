import ScriptScan.Number.Binary64

namespace ScriptScan

structure Decimal where
  digits : Nat
  exponent : Int
  deriving DecidableEq

namespace Decimal

/-- The nearest binary64 number, if it is finite. Beyond `10 ^ 308` nothing is finite, and below
`10 ^ -330` everything is nearest to zero, so no large powers have to be written out there. -/
def toBinary64? (d : Decimal) : Option Binary64 :=
  if d.digits = 0 then some Binary64.zero
  else if 308 < d.exponent then none
  else if d.exponent + d.digits.log2 < -330 then some Binary64.zero
  else if 0 ≤ d.exponent then
    Binary64.nearest? (d.digits * tenTo d.exponent.toNat * twoTo 1074) 1
  else Binary64.nearest? (d.digits * twoTo 1074) (tenTo (-d.exponent).toNat)

def unitsQuotient (x : Binary64) (exponent : Int) : Nat × Nat :=
  if 0 ≤ exponent then (x.units, twoTo 1074 * tenTo exponent.toNat)
  else (x.units * tenTo (-exponent).toNat, twoTo 1074)

/-- The multiples of `10 ^ exponent` next to `x`, the nearer one first and the upper one of two
that are equally near. -/
def neighbours (x : Binary64) (exponent : Int) : List Decimal :=
  let (a, d) := unitsQuotient x exponent
  let below : Decimal := ⟨a / d, exponent⟩
  let above : Decimal := ⟨a / d + 1, exponent⟩
  if 2 * (a % d) < d then [below, above] else [above, below]

/-- The first decimal that reads as `x` among its neighbours on `fuel` grids, each ten times as fine
as the one before. -/
def search (x : Binary64) (exponent : Int) : Nat → Option Decimal
  | 0 => none
  | fuel + 1 =>
      match (neighbours x exponent).find? fun d => d.toBinary64? == some x with
      | some d => some d
      | none => search x (exponent - 1) fuel

def exact (x : Binary64) : Decimal := ⟨x.units * Nat.pow 5 1074, -1074⟩

/-- The decimal with the fewest digits that reads as `x`, the nearest one to `x` of these. -/
def shortest (x : Binary64) : Decimal := (search x 309 1384).getD (exact x)

def padZeros (width : Nat) (s : String) : String :=
  String.ofList (List.replicate (width - s.length) '0') ++ s

def text (d : Decimal) : String :=
  if d.digits = 0 then "0"
  else if 0 ≤ d.exponent then (d.digits * tenTo d.exponent.toNat).repr
  else
    let places := (-d.exponent).toNat
    (d.digits / tenTo places).repr ++ "." ++ padZeros places (d.digits % tenTo places).repr

end Decimal

end ScriptScan
