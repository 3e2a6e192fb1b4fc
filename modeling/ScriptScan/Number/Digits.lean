import ScriptScan.Number.Binary64

namespace ScriptScan.Digits

/-- The value of a digit, letters in either case; 36 stands for no digit at all. -/
def value (c : Char) : Nat :=
  if c.isDigit then c.toNat - '0'.toNat
  else if c.isLower then c.toNat - 'a'.toNat + 10
  else if c.isUpper then c.toNat - 'A'.toNat + 10
  else 36

def isOf (base : Nat) (c : Char) : Bool := value c < base

def toNat? (base : Nat) (cs : List Char) : Option Nat :=
  if cs ≠ [] ∧ cs.all (isOf base) then
    some (cs.foldl (fun n c => n * base + value c) 0)
  else none

/-- The float that digits denote when each step of `x * base + digit` is rounded. -/
def toBinary64? (base : Nat) (cs : List Char) : Option Binary64 :=
  cs.foldl (fun acc c =>
    acc.bind fun x => (x.mulNat? base).bind fun y => y.addNat? (value c)) (some Binary64.zero)

end ScriptScan.Digits
