import EntitySelect.Select.Clause

/-! Condition trees: what a query asks of an entity, before anything is known of tables. -/
namespace EntitySelect

/-- The operators of conditions. -/
inductive Operator where
  | equal | notEqual | greater | atLeast | less | atMost
  | startsWith | contains | endsWith
  | oneOf | noneOf
  | between
  | isNull | isNotNull
  deriving DecidableEq, Repr

namespace Operator

def all : List Operator :=
  [.equal, .notEqual, .greater, .atLeast, .less, .atMost, .startsWith, .contains, .endsWith,
    .oneOf, .noneOf, .between, .isNull, .isNotNull]

def word : Operator → String
  | .equal => "="
  | .notEqual => "<>"
  | .greater => ">"
  | .atLeast => ">="
  | .less => "<"
  | .atMost => "<="
  | .startsWith => "STARTS_WITH"
  | .contains => "CONTAINS"
  | .endsWith => "ENDS_WITH"
  | .oneOf => "IN"
  | .noneOf => "NOT IN"
  | .between => "BETWEEN"
  | .isNull => "IS NULL"
  | .isNotNull => "IS NOT NULL"

def ofWord? (w : String) : Option Operator := all.find? (·.word == w)

@[simp] theorem ofWord?_word (o : Operator) : ofWord? o.word = some o := by
  cases o <;> decide

/-- A list asks for one of its items, any other value for itself. -/
def defaultFor : Json → Operator
  | .array _ => .oneOf
  | _ => .equal

end Operator

/-- One comparison of a property, `name` or `field.column`, with a value. -/
structure Leaf where
  field : String
  value : Json := .null
  /-- Without one, the value decides. -/
  operator : Option Operator := none
  /-- The language the property is read in. -/
  langcode : Option String := none
  deriving DecidableEq, Repr

/-- The operator in effect. -/
def Leaf.effective (l : Leaf) : Operator := l.operator.getD (Operator.defaultFor l.value)

/-- A condition: a comparison, or conditions under a conjunction. -/
inductive Condition where
  | leaf (l : Leaf)
  | group (conjunction : Conjunction) (parts : List Condition)
  deriving Repr

namespace Condition

mutual
def decEq : (a b : Condition) → Decidable (a = b)
  | .leaf a, .leaf b => if h : a = b then isTrue (h ▸ rfl) else isFalse (by simp [h])
  | .group c as, .group d bs =>
    match decEqParts as bs with
    | isTrue h => if hc : c = d then isTrue (hc ▸ h ▸ rfl) else isFalse (by simp [hc])
    | isFalse h => isFalse (by simp [h])
  | .leaf _, .group .. | .group .., .leaf _ => isFalse (by simp)
def decEqParts : (a b : List Condition) → Decidable (a = b)
  | [], [] => isTrue rfl
  | a :: as, b :: bs =>
    match decEq a b, decEqParts as bs with
    | isTrue h, isTrue hs => isTrue (h ▸ hs ▸ rfl)
    | isFalse h, _ => isFalse (by simp [h])
    | _, isFalse h => isFalse (by simp [h])
  | [], _ :: _ | _ :: _, [] => isFalse (by simp)
end

instance : DecidableEq Condition := decEq

/-- The property has a value. -/
def present (field : String) : Condition := .leaf { field, operator := some .isNotNull }

/-- The property has no value. -/
def missing (field : String) : Condition := .leaf { field, operator := some .isNull }

mutual
/-- The comparisons of a tree, from left to right. -/
def leaves : Condition → List Leaf
  | .leaf l => [l]
  | .group _ parts => partLeaves parts
def partLeaves : List Condition → List Leaf
  | [] => []
  | c :: rest => leaves c ++ partLeaves rest
end

@[simp] theorem partLeaves_eq (parts : List Condition) : partLeaves parts = parts.flatMap leaves := by
  induction parts <;> simp_all [partLeaves]

end Condition

/-- Conditions under a conjunction, the top of every tree. -/
structure Conditions where
  conjunction : Conjunction := .and
  parts : List Condition := []
  deriving DecidableEq, Repr

namespace Conditions

def toCondition (g : Conditions) : Condition := .group g.conjunction g.parts

def add (g : Conditions) (c : Condition) : Conditions := { g with parts := g.parts ++ [c] }

def leaves (g : Conditions) : List Leaf := g.parts.flatMap Condition.leaves

end Conditions
end EntitySelect
