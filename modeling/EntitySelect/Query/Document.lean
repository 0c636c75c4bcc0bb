import EntitySelect.Catalog.Document
import EntitySelect.Condition.Document
import EntitySelect.Query.Basic

/-! Query documents: reading and writing them. A query is an object that holds its top conditions
among its own fields. -/
namespace EntitySelect
open Written

def Direction.ofWritten? : Written → Option Direction := word? ofWord? isUnit

def Age.ofWritten? : Written → Option Age := word? ofWord? isUnit

def Sorting.ofWritten? (w : Written) : Option Sorting := do
  let [field, direction, langcode] ← w.slots? ["field", "direction", "langcode"] | none
  return {
    field := ← field.required string?
    direction := ← direction.default .asc Direction.ofWritten?
    langcode := ← langcode.optional string? }

def Window.ofWritten? (w : Written) : Option Window := do
  let [start, length] ← w.slots? ["start", "length"] | none
  return { start := ← start.required uint64?, length := ← length.required uint64? }

def Pager.ofWritten? (w : Written) : Option Pager := do
  let [limit, element, page] ← w.slots? ["limit", "element", "page"] | none
  return {
    limit := ← limit.required uint64?
    element := ← element.default 0 uint32?
    page := ← page.default 0 uint64? }

/-- Null or nothing at all. Only the conjunction of a query may be written with either. -/
def Written.isUnitOrEmpty : Written → Bool
  | .null | .object [] => true
  | _ => false

namespace Query

/-- The names of a query's own fields. -/
def fieldNames : List String :=
  ["entity_type", "sort", "range", "pager", "count", "access_check", "age", "tags", "metadata"]

def ofWritten? : Written → Option Query
  | .array _ => none
  | w => do
    let [entityType, sort, range, pager, count, accessCheck, age, tags, metadata] ←
      w.slots? fieldNames | none
    let .object fields := w | none
    return {
      entityType := ← entityType.required string?
      conditions := ← Conditions.ofFields? isUnitOrEmpty fields
      sorts := ← sort.default [] (list? Sorting.ofWritten?)
      window := ← range.optional Window.ofWritten?
      pager := ← pager.optional Pager.ofWritten?
      count := ← count.default false bool?
      accessCheck := ← accessCheck.optional bool?
      age := ← age.default .current Age.ofWritten?
      tags := ← tags.default Dict.empty names?
      metadata := ← metadata.default Dict.empty (dict? value?) }

/-- Fields that are records or lists of records: what such a record holds under other names may be
out of bounds. -/
def recordFields : List String := ["sort", "range", "pager"]

/-- The query that a text describes. -/
def ofText? (text : String) : Option Query :=
  match Written.ofText? text with
  | some (.object fields) =>
    if fields.all fun (name, w) => match name with
        | some name => recordFields.contains name || w.fits (depthLimit - 1)
        | none => false
    then ofWritten? (.object fields) else none
  | _ => none

end Query

def Sorting.toJson (s : Sorting) : Json :=
  .record ([("field", .string s.field), ("direction", .string s.direction.word)] ++
    Json.optionalField "langcode" .string s.langcode)

def Window.toJson (w : Window) : Json :=
  .record [("start", .word w.start), ("length", .word w.length)]

def Pager.toJson (p : Pager) : Json :=
  .record [("limit", .word p.limit), ("element", .word p.element.toUInt64), ("page", .word p.page)]

def PageState.toJson (s : PageState) : Json :=
  .record [("element", .word s.pager.element.toUInt64), ("limit", .word s.pager.limit),
    ("page", .word s.pager.page), ("total", .count s.total), ("total_pages", .count s.totalPages)]

def Query.toJson (q : Query) : Json :=
  .record [
    ("entity_type", .string q.entityType),
    ("conjunction", .string q.conditions.conjunction.word),
    ("conditions", .array (q.conditions.parts.map Condition.toJson)),
    ("sort", .array (q.sorts.map Sorting.toJson)),
    ("range", .orNull Window.toJson q.window),
    ("pager", .orNull Pager.toJson q.pager),
    ("count", .bool q.count),
    ("access_check", .orNull .bool q.accessCheck),
    ("age", .string q.age.word),
    ("tags", q.tags.toJson),
    ("metadata", .ofDict q.metadata)]

end EntitySelect
