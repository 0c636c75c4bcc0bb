/-! Finite double precision numbers, exactly.
A magnitude is held as its rank among the finite magnitudes in increasing order, so magnitudes
compare as natural numbers do, and every rank below the bound is a number. Magnitudes are
measured in units, the least positive one. -/
namespace EntitySelect

/-- A finite double: a sign, and the rank of the magnitude. Zero has two signs. -/
structure Double where
  negative : Bool
  rank : Nat
  finite : rank < 2047 <<< 52
  deriving DecidableEq, Repr

namespace Double

/-- One, in units. -/
def one : Nat := 1 <<< 1074

/-- The magnitude of a rank, in units. Above the first `2 ^ 53` ranks, every further run of
`2 ^ 52` ranks lies twice as far apart. -/
def unitsOf (rank : Nat) : Nat :=
  let k := rank >>> 52 - 1
  (rank - k <<< 52) <<< k

def units (d : Double) : Nat := unitsOf d.rank

/-- A quotient to the nearest whole number, and from the middle to the even one. -/
def roundDiv (num den : Nat) : Nat :=
  let q := num / den
  let r := num % den
  if 2 * r < den then q else if den < 2 * r then q + 1 else q + q % 2

/-- The rank nearest to `num / den` units. The result may lie past the last finite rank. -/
def nearestRank (num den : Nat) : Nat :=
  let k := Nat.log2 (num / den) - 52
  k <<< 52 + roundDiv num (den <<< k)

/-- The double nearest to `num / den` units, if that is finite. -/
def nearest? (negative : Bool) (num den : Nat) : Option Double :=
  if h : nearestRank num den < 2047 <<< 52 then some ⟨negative, nearestRank num den, h⟩
  else none

def zero (negative : Bool) : Double := ⟨negative, 0, by decide⟩

/-- Increases with the value; the two zeros have one key. -/
def key (d : Double) : Int := if d.negative then -(d.rank : Int) else d.rank

/-- The double nearest to a whole number. -/
def ofInt? (n : Int) : Option Double := nearest? (n < 0) (n.natAbs * one) 1

/-- The double nearest to a power of ten, in units. -/
def tenUnits (exponent : Nat) : Nat := unitsOf (nearestRank (Nat.pow 10 exponent * one) 1)

/-- Divides by a power of ten, in steps of at most `10 ^ 308`, each rounded. -/
def shrink (d : Double) (exponent : Nat) : Option Double :=
  if d.rank = 0 then some d
  else if exponent ≤ 308 then nearest? d.negative (d.units * one) (tenUnits exponent)
  else (nearest? d.negative (d.units * one) (tenUnits 308)).bind (shrink · (exponent - 308))
termination_by exponent

/-- A significand times a power of ten. The significand is rounded to a double first, then one
multiplication or division by a double power of ten is, so the result is not always the double
nearest to the decimal. Nothing but zero may be scaled by more than `10 ^ 308`. -/
def ofScaled? (negative : Bool) (significand : Nat) (exponent : Int) : Option Double := do
  let d ← nearest? negative (significand * one) 1
  if exponent < 0 then d.shrink exponent.natAbs
  else if exponent ≤ 308 then nearest? negative (d.units * tenUnits exponent.natAbs) one
  else if significand = 0 then some d
  else none

/-- Ranks below `2 ^ 53` are their own number of units. -/
theorem unitsOf_of_lt {rank : Nat} (h : rank < 1 <<< 53) : unitsOf rank = rank := by
  have : rank >>> 52 - 1 = 0 := by omega
  simp only [unitsOf, this, Nat.zero_shiftLeft, Nat.sub_zero, Nat.shiftLeft_zero]

example : (ofInt? 1).map (·.rank) = some (1023 <<< 52) := by decide +kernel
example : ofInt? (2 ^ 53 + 1) = ofInt? (2 ^ 53) := by decide +kernel
example : ofScaled? false 1 400 = none := by decide +kernel
example : ofScaled? false 1 (-400) = some (zero false) := by decide +kernel

end Double
end EntitySelect
