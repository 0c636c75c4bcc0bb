import EntitySelect.Dataset.Order
import EntitySelect.Json.Printer
import EntitySelect.Text.Like

/-! Whether joined rows fulfil conditions. Nothing compares with null: a comparison with it does not
hold, and only the null tests see it. -/
namespace EntitySelect

/-- The fields of a stored row. -/
abbrev Record := List (String × Json)

/-- Joined rows by table label. A label without a row reads as null. -/
abbrev Scope := List (String × Record)

/-- The value of a column; the first row of a label counts. -/
def Scope.read (s : Scope) (c : Column) : Json :=
  match s.lookup c.table with
  | some row => (row.lookup c.name).getD .null
  | none => .null

namespace Json

/-- The order of two values that compare at all: two numbers, two strings or two truth values. -/
def order? : Json → Json → Option Ordering
  | .number a, .number b => some (order (.number a) (.number b))
  | .string a, .string b => some (order (.string a) (.string b))
  | .bool a, .bool b => some (order (.bool a) (.bool b))
  | _, _ => none

/-- Two values compare as equal. -/
def equals (a b : Json) : Bool := order? a b == some .eq

/-- The text that a pattern is held against. -/
def plainText : Json → String
  | .string s => s
  | v => v.text

end Json

namespace Comparison

/-- Whether a value fulfils a comparison with another. -/
def holds (c : Comparison) (actual expected : Json) : Bool :=
  match c with
  | .isNull => actual.isNull
  | .isNotNull => !actual.isNull
  | .equal => actual.equals expected
  | .notEqual => (actual.order? expected).any (· != .eq)
  | .greater => (actual.order? expected).any (· == .gt)
  | .atLeast => (actual.order? expected).any (· != .lt)
  | .less => (actual.order? expected).any (· == .lt)
  | .atMost => (actual.order? expected).any (· != .gt)
  | .oneOf => expected.items.any actual.equals
  | .noneOf =>
    !actual.isNull && !expected.items.any Json.isNull && !expected.items.any actual.equals
  | .between =>
    match expected with
    | .array [low, high] =>
      (actual.order? low).any (· != .lt) && (actual.order? high).any (· != .gt)
    | _ => false
  | .like =>
    match expected with
    | .string pattern => !actual.isNull && Text.like actual.plainText pattern
    | _ => false

end Comparison

/-- A row of a joined table fulfils an equation. -/
def JoinTerm.holds (s : Scope) : JoinTerm → Bool
  | .columns left right => (s.read left).equals (s.read right)
  | .value column v => (s.read column).equals v

namespace Where

mutual
/-- Parts without any comparison do not count, and a group of nothing else holds. -/
def holds (s : Scope) : Where → Bool
  | .group .and parts => allHold s parts
  | .group .or parts => areEmpty parts || someHold s parts
  | .compare column c v => c.holds (s.read column) v
def allHold (s : Scope) : List Where → Bool
  | [] => true
  | w :: rest => (isEmpty w || holds s w) && allHold s rest
def someHold (s : Scope) : List Where → Bool
  | [] => false
  | w :: rest => (!isEmpty w && holds s w) || someHold s rest
end

end Where
end EntitySelect
