import EntitySelect.Decimal.Double

/-! The text of a double: the fewest digits that no other double is nearer to. -/
namespace EntitySelect

/-- A decimal, `digits * 10 ^ exponent`. -/
structure Decimal where
  digits : Nat
  exponent : Int
  deriving DecidableEq, Repr

namespace Decimal

/-- The value in units, as a quotient. -/
def quotient (d : Decimal) : Nat × Nat :=
  if 0 ≤ d.exponent then (d.digits * Nat.pow 10 d.exponent.natAbs * Double.one, 1)
  else (d.digits * Double.one, Nat.pow 10 d.exponent.natAbs)

/-- The rank of the nearest double. -/
def rank (d : Decimal) : Nat := Double.nearestRank d.quotient.1 d.quotient.2

/-- How many powers of ten a positive number of units reaches: the least `p` with the value below
`10 ^ p`. -/
def reachOf (units : Nat) : Int :=
  ((toString (units * Nat.pow 10 400 / Double.one)).length : Int) - 400

/-- Of the two neighbours of a magnitude among the multiples of `10 ^ exponent`, the nearer one
that reads back as that magnitude. In the middle the even one is nearer. -/
def onGrid (rank : Nat) (exponent : Int) : Option Decimal :=
  let step := quotient ⟨1, exponent⟩
  let num := Double.unitsOf rank * step.2
  let low : Decimal := ⟨num / step.1, exponent⟩
  let high : Decimal := ⟨num / step.1 + 1, exponent⟩
  let near := Double.roundDiv num step.1
  let choices := if near = low.digits then [low, high] else [high, low]
  choices.find? (·.rank = rank)

/-- Every magnitude has finitely many decimals: a unit is `5 ^ 1074` times `10 ^ (-1074)`. -/
def exact (rank : Nat) : Decimal := ⟨Double.unitsOf rank * Nat.pow 5 1074, -1074⟩

/-- The decimal with the fewest digits that reads back as the magnitude. Seventeen digits are
always enough; the exact decimal only makes the search total. -/
def shortest (rank : Nat) : Decimal :=
  let p := reachOf (Double.unitsOf rank)
  ((List.range 18).findSome? fun n : Nat => onGrid rank (p - n)).getD (exact rank)

/-- Plain digits with a point for values from `10 ^ (-5)` up to below `10 ^ 16`, otherwise one
digit before the point and a signed exponent. -/
def text (d : Decimal) : String :=
  let ds := (toString d.digits).toList
  let top : Int := d.exponent + ds.length - 1
  if -5 ≤ top ∧ top ≤ 15 then
    if 0 ≤ d.exponent then
      String.ofList (ds ++ List.replicate d.exponent.natAbs '0') ++ ".0"
    else if 0 ≤ top then
      String.ofList (ds.take (top.natAbs + 1) ++ '.' :: ds.drop (top.natAbs + 1))
    else
      "0." ++ String.ofList (List.replicate (top.natAbs - 1) '0' ++ ds)
  else
    let mantissa := if ds.length ≤ 1 then ds else ds.take 1 ++ '.' :: ds.drop 1
    String.ofList mantissa ++ "e" ++ (if top < 0 then "-" else "+") ++ toString top.natAbs

end Decimal

/-- A double always shows a point or an exponent, so it never reads as a whole number. -/
def Double.text (d : Double) : String :=
  (if d.negative then "-" else "") ++
    if d.rank = 0 then "0.0" else (Decimal.shortest d.rank).text

end EntitySelect
