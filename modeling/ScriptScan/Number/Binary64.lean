import ScriptScan.Number.Power

/-!
The non-negative finite numbers of the binary64 format, and rounding to the nearest of them.

A number is kept as the bits of its encoding, which grow with its value. Values are counted in
units of `2 ^ -1074`, the least positive number of the format, so that they are natural numbers.
-/

namespace ScriptScan

structure Binary64 where
  bits : Nat
  finite : bits < 0x7FF * twoTo 52
  deriving DecidableEq

namespace Binary64

/-- The value, in units of `2 ^ -1074`, of an encoding: below `2 ^ 52` it is the significand
itself, above that the significand has a hidden bit and is shifted. -/
def unitsOfBits (bits : Nat) : Nat :=
  if bits / twoTo 52 = 0 then bits
  else (twoTo 52 + bits % twoTo 52) * twoTo (bits / twoTo 52 - 1)

def units (x : Binary64) : Nat := unitsOfBits x.bits

/-- The natural number nearest to `a / d`, the even one of two. -/
def divNearest (a d : Nat) : Nat :=
  let q := a / d
  let r := a % d
  if 2 * r < d then q
  else if d < 2 * r then q + 1
  else q + q % 2

/-- The encoding of the number nearest to `a / d` units, exponents unbounded above. The significand
of a value has 53 bits, or fewer at the least exponent; one that rounds up to 54 bits carries into
the exponent. -/
def nearestBits (a d : Nat) : Nat :=
  let shift := (a / d).log2 - 52
  shift * twoTo 52 + divNearest a (d * twoTo shift)

def ofBits? (bits : Nat) : Option Binary64 :=
  if h : bits < 0x7FF * twoTo 52 then some ⟨bits, h⟩ else none

def nearest? (a d : Nat) : Option Binary64 := ofBits? (nearestBits a d)

def zero : Binary64 := ⟨0, by decide⟩

def mulNat? (x : Binary64) (n : Nat) : Option Binary64 := nearest? (x.units * n) 1

def addNat? (x : Binary64) (n : Nat) : Option Binary64 := nearest? (x.units + n * twoTo 1074) 1

end Binary64

end ScriptScan
