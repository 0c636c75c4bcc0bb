import EntitySelect.Condition.Comparison
import EntitySelect.Join.Resolution

/-! The condition of a statement for a condition tree. It has the shape of the tree, with a column
for each property. -/
namespace EntitySelect

/-- A condition of a statement, and whether a table of field values was joined for it. -/
structure CompiledCondition where
  clause : Where
  addsFieldTable : Bool
  deriving Repr

/-- Rows without a partner may be left out where the comparison has to hold and a null value cannot
make it hold. -/
def Leaf.joinKind (l : Leaf) (underOr : Bool) : JoinKind :=
  if underOr || l.effective == .isNull then .left else .inner

/-- The comparison of a property. The value is looked at before the property. -/
def Leaf.compile (layout : Layout) (catalog : Catalog) (underOr : Bool) (l : Leaf) :
    Resolving CompiledCondition := do
  match l.comparison with
  | .error e => throw e
  | .ok (comparison, value) =>
    let r ← layout.resolve catalog l.field (l.joinKind underOr) l.langcode
    return ⟨.compare r.column comparison value, r.addsFieldTable⟩

namespace Condition

mutual
/-- `underOr` says whether a group above is a disjunction. -/
def compile (layout : Layout) (catalog : Catalog) (underOr : Bool) :
    Condition → Resolving CompiledCondition
  | .leaf l => l.compile layout catalog underOr
  | .group c parts => do
    let (clauses, adds) ← compileParts layout catalog (underOr || c == .or) parts
    return ⟨.group c clauses, adds⟩
/-- The parts of a group, from left to right. -/
def compileParts (layout : Layout) (catalog : Catalog) (underOr : Bool) :
    List Condition → Resolving (List Where × Bool)
  | [] => return ([], false)
  | c :: rest => do
    let first ← compile layout catalog underOr c
    let (clauses, adds) ← compileParts layout catalog underOr rest
    return (first.clause :: clauses, first.addsFieldTable || adds)
end

end Condition

def Conditions.compile (layout : Layout) (catalog : Catalog) (g : Conditions) :
    Resolving CompiledCondition :=
  g.toCondition.compile layout catalog false

end EntitySelect
