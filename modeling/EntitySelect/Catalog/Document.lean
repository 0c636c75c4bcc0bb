import EntitySelect.Catalog.Loading
import EntitySelect.Json.Record

/-! Catalog documents: reading them and writing their entries. -/
namespace EntitySelect
open Written

def EntityKeys.ofWritten? (w : Written) : Option EntityKeys := do
  let [id, revision, bundle] ← w.slots? ["id", "revision", "bundle"] | none
  return {
    id := ← id.required string?
    revision := ← revision.optional string?
    bundle := ← bundle.optional string? }

def EntityType.ofWritten? (w : Written) : Option EntityType := do
  let [name, base, data, keys] ←
    w.slots? ["entity_type", "base_table", "data_table", "entity_keys"] | none
  return {
    name := ← name.required string?
    baseTable := ← base.optional string?
    dataTable := ← data.optional string?
    keys := ← keys.required EntityKeys.ofWritten? }

def Table.ofWritten? (w : Written) : Option Table := do
  let [name, columns] ← w.slots? ["name", "columns"] | none
  return { name := ← name.required string?, columns := ← columns.required names? }

def Field.ofWritten? (w : Written) : Option Field := do
  let [name, bundles] ← w.slots? ["field_name", "bundles"] | none
  return {
    name := ← name.required string?
    bundles := ← bundles.default Dict.empty (dict? names?) }

def CatalogDocument.ofWritten? (w : Written) : Option CatalogDocument := do
  let [entityTypes, tables, fields] ← w.slots? ["entity_types", "tables", "fields"] | none
  return {
    entityTypes := ← entityTypes.default [] (list? EntityType.ofWritten?)
    tables := ← tables.default [] (list? Table.ofWritten?)
    fields := ← fields.default [] (list? Field.ofWritten?) }

/-- The catalog that a text describes; `source` says in errors where the text is from. -/
def Catalog.ofText (text source : String) : Except CatalogError Catalog :=
  match (Written.ofText? text).bind CatalogDocument.ofWritten? with
  | some d => d.load source
  | none => .error (.malformed source .notACatalog)

def NameSet.toJson (s : NameSet) : Json := .strings s.names

def EntityKeys.toJson (k : EntityKeys) : Json :=
  .record ([("id", .string k.id)] ++ Json.optionalField "revision" .string k.revision ++
    Json.optionalField "bundle" .string k.bundle)

def EntityType.toJson (t : EntityType) : Json :=
  .record ([("entity_type", .string t.name)] ++
    Json.optionalField "base_table" .string t.baseTable ++
    Json.optionalField "data_table" .string t.dataTable ++ [("entity_keys", t.keys.toJson)])

def Table.toJson (t : Table) : Json :=
  .record [("name", .string t.name), ("columns", t.columns.toJson)]

def Field.toJson (f : Field) : Json :=
  .record [("field_name", .string f.name), ("bundles", .ofDict (f.bundles.map NameSet.toJson))]

end EntitySelect
