import EntitySelect.Json.Record
import EntitySelect.Proofs.Dict

/-! Values whose objects are in order at every depth. Reading gives no others, and these are read
back as they were written. -/
namespace EntitySelect

/-- The fields of each object, at every depth, are in the order of their names, each name once. -/
inductive Json.Canonical : Json → Prop
  | null : Canonical .null
  | bool (b : Bool) : Canonical (.bool b)
  | number (n : Number) : Canonical (.number n)
  | string (s : String) : Canonical (.string s)
  | array {items : List Json} : (∀ v ∈ items, Canonical v) → Canonical (.array items)
  | object {fields : List (String × Json)} : (∀ f ∈ fields, Canonical f.2) →
    fields.Pairwise (fun a b => a.1 < b.1) → Canonical (.object fields)

theorem Json.canonical_record {fields : List (String × Json)}
    (h : ∀ f ∈ fields, f.2.Canonical) : (record fields).Canonical :=
  .object (fun f hf => h f (Dict.mem_of_mem_ofList hf)) (Dict.ofList fields).ordered

/-- What is read from each thing made of an item is that item. -/
theorem mapM_map_eq_some {α β : Type} {read : β → Option α} {write : α → β} {xs : List α}
    (h : ∀ x ∈ xs, read (write x) = some x) : (xs.map write).mapM read = some xs := by
  induction xs with
  | nil => rfl
  | cons x xs ih =>
    rw [List.forall_mem_cons] at h
    rw [List.map_cons, List.mapM_cons, h.1, ih h.2]
    rfl

namespace Written

theorem itemValues?_eq (items : List Written) : itemValues? items = items.mapM value? := by
  induction items with
  | nil => rfl
  | cons w rest ih =>
    rw [itemValues?, ih, List.mapM_cons]
    cases value? w <;> cases rest.mapM value? <;> rfl

/-- A field with its value, if its name and its value can be read. -/
def member? {α : Type} (read : Written → Option α) (f : Option String × Written) :
    Option (String × α) :=
  f.1.bind fun name => (read f.2).map (name, ·)

theorem fieldValues?_eq (fields : List (Option String × Written)) :
    fieldValues? fields = fields.mapM (member? value?) := by
  induction fields with
  | nil => rfl
  | cons f rest ih =>
    obtain ⟨name, w⟩ := f
    unfold fieldValues?
    rw [List.mapM_cons, ← ih]
    cases name <;> cases h : value? w <;> cases fieldValues? rest <;> simp [member?, h]

/-- A value in canonical form is read back as it was written. -/
theorem value?_ofJson {v : Json} (h : v.Canonical) : (ofJson v).value? = some v := by
  induction h with
  | null | bool | number | string => rfl
  | array h ih =>
    rw [ofJson, ofItems_eq, value?, itemValues?_eq, mapM_map_eq_some ih, Option.map_some]
  | @object fields h ordered ih =>
    have hentries : ∀ f ∈ fields, member? value? (some f.1, ofJson f.2) = some f :=
      fun f hf => by simp [member?, ih f hf]
    have hrecord : Json.record fields = .object fields :=
      congrArg Json.ofDict (Dict.ofList_entries ⟨fields, ordered⟩)
    rw [ofJson, ofFields_eq, value?, fieldValues?_eq, mapM_map_eq_some hentries, Option.map_some,
      hrecord]

mutual
/-- Whatever is read as a value is in canonical form, in whatever order it was written. -/
theorem canonical_of_value? : ∀ {w : Written} {v : Json}, w.value? = some v → v.Canonical
  | .null, _, h => by
    cases h
    exact .null
  | .bool b, _, h => by
    cases h
    exact .bool b
  | .number n, _, h => by
    obtain ⟨n, -, rfl⟩ := Option.map_eq_some_iff.1 h
    exact .number n
  | .string s, _, h => by
    obtain ⟨s, -, rfl⟩ := Option.map_eq_some_iff.1 h
    exact .string s
  | .array items, _, h => by
    obtain ⟨vs, hvs, rfl⟩ := Option.map_eq_some_iff.1 h
    exact .array (canonical_of_itemValues? hvs)
  | .object fields, _, h => by
    obtain ⟨vs, hvs, rfl⟩ := Option.map_eq_some_iff.1 h
    exact Json.canonical_record (canonical_of_fieldValues? hvs)
theorem canonical_of_itemValues? : ∀ {items : List Written} {vs : List Json},
    itemValues? items = some vs → ∀ v ∈ vs, v.Canonical
  | [], _, h => by
    cases h
    simp
  | w :: rest, _, h => by
    rw [itemValues?] at h
    split at h
    · next hv hvs =>
      cases h
      exact List.forall_mem_cons.2 ⟨canonical_of_value? hv, canonical_of_itemValues? hvs⟩
    · cases h
theorem canonical_of_fieldValues? : ∀ {fields : List (Option String × Written)}
    {vs : List (String × Json)}, fieldValues? fields = some vs → ∀ f ∈ vs, f.2.Canonical
  | [], _, h => by
    cases h
    simp
  | (name, w) :: rest, _, h => by
    unfold fieldValues? at h
    split at h
    · next hv hvs =>
      cases h
      exact List.forall_mem_cons.2 ⟨canonical_of_value? hv, canonical_of_fieldValues? hvs⟩
    · cases h
end

end Written
end EntitySelect
