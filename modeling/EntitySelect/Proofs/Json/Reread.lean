import EntitySelect.Proofs.Json.Canonical
import EntitySelect.Proofs.Json.Record

/-! What is found in a written record, list or map when it is read again. -/
namespace EntitySelect

/-- The name of a field that may be left out is found where it was not. -/
theorem Json.lookup_optionalField {α : Type} (name other : String) (write : α → Json)
    (o : Option α) :
    (optionalField name write o).lookup other = if other = name then o.map write else none := by
  cases o with
  | none => simp [optionalField]
  | some x =>
    by_cases h : other = name
    · simp [optionalField, h]
    · simp [optionalField, List.lookup_cons, h, beq_eq_false_iff_ne.2 h]

namespace Written
variable {α : Type} {fields : List (String × Json)}

/-- The fields of a record as they are written, in the order of their names. -/
def ofRecord (fields : List (String × Json)) : List (Option String × Written) :=
  ofFields (Dict.ofList fields).entries

theorem ofJson_record (fields : List (String × Json)) :
    ofJson (.record fields) = .object (ofRecord fields) := by
  rw [Json.record, ofJson, ofRecord]

/-- Fields whose names differ are found under their names, in whatever order they were given. -/
theorem given_ofJson_record (hapart : (fields.map (·.1)).Nodup) (i : Nat) (name : String) :
    (ofJson (.record fields)).given i name = ((fields.lookup name).map ofJson).toList := by
  calc
    _ = (((Dict.ofList fields).entries.filter (·.1 == name)).map (·.2)).map ofJson := by
      simp [ofJson_record, ofRecord, given, List.filter_map, Function.comp_def]
    _ = ((Dict.ofList fields).find? name).toList.map ofJson := by
      rw [filter_eq_lookup (Dict.nodup_keys _)]
      rfl
    _ = (fields.lookup name).toList.map ofJson := by rw [Dict.find?_ofList hapart]
    _ = _ := by cases fields.lookup name <;> rfl

/-- The slots of a written record are its fields. -/
theorem slots?_ofJson_record (hapart : (fields.map (·.1)).Nodup) (names : List String) :
    (ofJson (.record fields)).slots? names =
      some (names.map fun name => (fields.lookup name).map ofJson) := by
  rw [slots?_eq_some_iff]
  constructor
  · rw [ofJson_record]
    intro f hf
    rw [ofRecord, ofFields_eq] at hf
    obtain ⟨e, -, rfl⟩ := List.mem_map.1 hf
    rfl
  · simp only [given_ofJson_record hapart, List.map_map]
    rw [← List.zipIdx_map_fst 0 names, List.map_map]
    simp [Function.comp_def]

section Slots
variable {read : Written → Option α} {write : α → Json}

/-- A field that was left out for want of a value has none. -/
theorem Slot.optional_map (hnull : read .null = none) {o : Option α}
    (h : ∀ x ∈ o, read (ofJson (write x)) = some x) :
    Slot.optional read ((o.map write).map ofJson) = some o := by
  cases o with
  | none => rfl
  | some x =>
    rw [Slot.optional_eq_some_iff hnull]
    exact .inr ⟨_, x, rfl, rfl, h x rfl⟩

/-- A field that was written as null for want of a value has none. -/
theorem Slot.optional_orNull (hnull : read .null = none) {o : Option α}
    (h : ∀ x ∈ o, read (ofJson (write x)) = some x) :
    Slot.optional read (some (ofJson (.orNull write o))) = some o := by
  cases o with
  | none => rfl
  | some x =>
    rw [Slot.optional_eq_some_iff hnull]
    exact .inr ⟨_, x, rfl, rfl, h x rfl⟩

theorem list?_ofJson {xs : List α} (h : ∀ x ∈ xs, read (ofJson (write x)) = some x) :
    list? read (ofJson (.array (xs.map write))) = some xs := by
  rw [ofJson, list?, ofItems_eq, List.map_map]
  exact mapM_map_eq_some h

end Slots

theorem names?_ofJson (s : NameSet) : names? (ofJson (.strings s.names)) = some s := by
  rw [names?, Json.strings, list?_ofJson fun _ _ => rfl, Option.map_some, NameSet.ofNames_names]

/-- A map of values in canonical form is read back. -/
theorem dict?_ofJson {d : Dict Json} (h : ∀ v ∈ d.values, v.Canonical) :
    dict? value? (ofJson (.ofDict d)) = some d := by
  have hentries : ∀ e ∈ d.entries, member? value? (some e.1, ofJson e.2) = some e := fun e he => by
    simp [member?, value?_ofJson (h e.2 (List.mem_map_of_mem he))]
  have hread := mapM_map_eq_some hentries
  rw [Json.ofDict, ofJson, dict?, ofFields_eq]
  exact (congrArg (Option.map Dict.ofList) hread).trans (congrArg some d.ofList_entries)

theorem canonical_of_dict? {w : Written} {d : Dict Json} (h : dict? value? w = some d) :
    ∀ v ∈ d.values, v.Canonical := by
  cases w with
  | object fields =>
    obtain ⟨entries, hentries, rfl⟩ := Option.map_eq_some_iff.1 h
    have hcanonical := canonical_of_fieldValues? ((fieldValues?_eq fields).trans hentries)
    intro v hv
    obtain ⟨e, he, rfl⟩ := List.mem_map.1 hv
    exact hcanonical e (Dict.mem_of_mem_ofList he)
  | _ => cases h

theorem uint64?_ofJson (n : UInt64) : uint64? (ofJson (.word n)) = some n :=
  Number.toUInt64?_ofUInt64 n

theorem uint32?_ofJson (n : UInt32) : uint32? (ofJson (.word n.toUInt64)) = some n := by
  simp [uint32?, uint64?_ofJson, n.toNat_lt]

end Written
end EntitySelect
