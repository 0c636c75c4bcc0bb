import EntitySelect.Condition.Basic
import EntitySelect.Json.Record

/-! Reading and writing condition trees.
A part of a tree is read as a comparison if that is possible, and as a group otherwise. Both fields
of a group may be left out, so an object that fails to be a comparison is a group without
conditions, unless one of its group fields is wrong too. -/
namespace EntitySelect
open Written

/-- A conjunction; `unit` says what may stand beside its word when it is written as an object. -/
def Conjunction.ofWritten? (unit : Written → Bool) : Written → Option Conjunction :=
  word? ofWord? unit

def Operator.ofWritten? : Written → Option Operator := word? ofWord? isUnit

def Leaf.ofWritten? (w : Written) : Option Leaf := do
  let [field, value, operator, langcode] ←
    w.slots? ["field", "value", "operator", "langcode"] | none
  return {
    field := ← field.required string?
    value := ← value.default .null value?
    operator := ← operator.optional Operator.ofWritten?
    langcode := ← langcode.optional string? }

/-- The conjunction of a group written as an object. -/
def Conjunction.ofFields? (unit : Written → Bool) (fields : List (Option String × Written)) :
    Option Conjunction := do
  let [conjunction] ← (Written.object fields).slots? ["conjunction"] | none
  conjunction.default .and (ofWritten? unit)

/-- The conjunction of a group written as an array. -/
def Conjunction.ofItems? (unit : Written → Bool) : List Written → Option Conjunction
  | [] => some .and
  | c :: _ => ofWritten? unit c

namespace Condition

mutual
/-- A part of a tree: a comparison if possible, else a group. -/
def ofWritten? : Written → Option Condition
  | .array items =>
    match Leaf.ofWritten? (.array items) with
    | some l => some (.leaf l)
    | none =>
      match Conjunction.ofItems? isUnit items, itemParts? items with
      | some c, some parts => some (.group c parts)
      | _, _ => none
  | .object fields =>
    match Leaf.ofWritten? (.object fields) with
    | some l => some (.leaf l)
    | none =>
      match Conjunction.ofFields? isUnit fields, fieldParts fields with
      | some c, [] => some (.group c [])
      | some c, [some parts] => some (.group c parts)
      | _, _ => none
  | _ => none
/-- The conditions of a group. -/
def parts? : Written → Option (List Condition)
  | .array items => ofItems? items
  | _ => none
def ofItems? : List Written → Option (List Condition)
  | [] => some []
  | w :: rest =>
    match ofWritten? w, ofItems? rest with
    | some c, some rest => some (c :: rest)
    | _, _ => none
/-- The conditions of a group written as an array: its second item. -/
def itemParts? : List Written → Option (List Condition)
  | [] | [_] => some []
  | [_, w] => parts? w
  | _ :: _ :: _ :: _ => none
/-- The conditions of a group written as an object, once for each field of their name. -/
def fieldParts : List (Option String × Written) → List (Option (List Condition))
  | [] => []
  | (name, w) :: rest =>
    if name = some "conditions" then parts? w :: fieldParts rest else fieldParts rest
end

end Condition

namespace Conditions

def ofFields? (unit : Written → Bool) (fields : List (Option String × Written)) :
    Option Conditions :=
  match Conjunction.ofFields? unit fields, Condition.fieldParts fields with
  | some c, [] => some ⟨c, []⟩
  | some c, [some parts] => some ⟨c, parts⟩
  | _, _ => none

/-- The top of a tree is a group. -/
def ofWritten? : Written → Option Conditions
  | .array items =>
    match Conjunction.ofItems? isUnit items, Condition.itemParts? items with
    | some c, some parts => some ⟨c, parts⟩
    | _, _ => none
  | .object fields => ofFields? isUnit fields
  | _ => none

/-- The names under which a group looks for its fields. -/
def fieldNames : List String := ["conjunction", "conditions"]

/-- The tree that a text describes. Bounds hold for everything but the fields of the top that a
group does not have. -/
def ofText? (text : String) : Option Conditions :=
  match Written.ofText? text with
  | some (.object fields) =>
    if fields.all fun (name, v) => match name with
        | some name => !fieldNames.contains name || v.fits (depthLimit - 1)
        | none => false
    then ofWritten? (.object fields) else none
  | some w => if w.fits depthLimit then ofWritten? w else none
  | none => none

end Conditions

def Leaf.toJson (l : Leaf) : Json :=
  .record ([("field", .string l.field), ("value", l.value)] ++
    Json.optionalField "operator" (fun o => .string o.word) l.operator ++
    Json.optionalField "langcode" .string l.langcode)

namespace Condition

mutual
def toJson : Condition → Json
  | .leaf l => l.toJson
  | .group c parts =>
    .record [("conjunction", .string c.word), ("conditions", .array (partsToJson parts))]
def partsToJson : List Condition → List Json
  | [] => []
  | c :: rest => toJson c :: partsToJson rest
end

@[simp] theorem partsToJson_eq (parts : List Condition) : partsToJson parts = parts.map toJson := by
  induction parts <;> simp_all [partsToJson]

end Condition

def Conditions.toJson (g : Conditions) : Json := g.toCondition.toJson

end EntitySelect
