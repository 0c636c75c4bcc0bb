import EntitySelect.Proofs.Condition.Reading
import EntitySelect.Proofs.Json.Reread

/-! A written condition tree is read as the tree it was written from. -/
namespace EntitySelect
open Written

theorem Conjunction.ofWritten?_ofJson (unit : Written → Bool) (c : Conjunction) :
    Conjunction.ofWritten? unit (ofJson (.string c.word)) = some c := by
  cases c <;> rfl

theorem Operator.ofWritten?_ofJson (o : Operator) :
    Operator.ofWritten? (ofJson (.string o.word)) = some o :=
  (Operator.ofWritten?_eq_some_iff _ o).2 (.inl rfl)

/-- The fields that a comparison is written with. -/
def Leaf.fields (l : Leaf) : List (String × Json) :=
  [("field", .string l.field), ("value", l.value)] ++
    Json.optionalField "operator" (fun o => .string o.word) l.operator ++
    Json.optionalField "langcode" .string l.langcode

theorem Leaf.ofWritten?_toJson {l : Leaf} (h : l.value.Canonical) :
    Leaf.ofWritten? (ofJson l.toJson) = some l := by
  have hapart : (l.fields.map (·.1)).Nodup := by
    rw [fields]
    cases l.operator <;> cases l.langcode <;> simp [Json.optionalField]
  have hoperator : l.fields.lookup "operator" = l.operator.map fun o => .string o.word := by
    simp [fields, List.lookup_append, List.lookup_cons, Json.lookup_optionalField]
  have hlangcode : l.fields.lookup "langcode" = l.langcode.map .string := by
    simp [fields, List.lookup_append, List.lookup_cons, Json.lookup_optionalField]
  rw [Leaf.ofWritten?_eq_some_slots]
  refine ⟨_, _, _, _, slots?_ofJson_record hapart _, rfl, value?_ofJson h, ?_, ?_⟩
  · simp only [hoperator]
    exact Slot.optional_map rfl fun o _ => Operator.ofWritten?_ofJson o
  · simp only [hlangcode]
    exact Slot.optional_map rfl fun _ _ => rfl

/-- What has no field for a property is not a comparison. -/
theorem Leaf.ofWritten?_eq_none {w : Written} (h : w.given 0 "field" = []) :
    Leaf.ofWritten? w = none := by
  rw [Option.eq_none_iff_forall_ne_some]
  intro l hl
  have hspells := (Leaf.ofWritten?_eq_some_iff w l).1 hl
  simp [hspells.field] at h

namespace Condition

theorem ofItems?_eq (items : List Written) : ofItems? items = items.mapM ofWritten? := by
  induction items with
  | nil => rfl
  | cons w rest ih =>
    rw [ofItems?, ih, List.mapM_cons]
    cases ofWritten? w <;> cases rest.mapM ofWritten? <;> rfl

end Condition

/-- The fields that a group is written with. -/
def Conditions.fields (g : Conditions) : List (String × Json) :=
  [("conjunction", .string g.conjunction.word),
    ("conditions", .array (g.parts.map Condition.toJson))]

/-- The fields of a group are found among those of a record that has them. -/
theorem Conditions.read_fields {fields : List (String × Json)} {g : Conditions}
    (hapart : (fields.map (·.1)).Nodup)
    (hconjunction : fields.lookup "conjunction" = some (.string g.conjunction.word))
    (hconditions : fields.lookup "conditions" = some (.array (g.parts.map Condition.toJson)))
    (hparts : ∀ c ∈ g.parts, Condition.ofWritten? (ofJson c.toJson) = some c)
    (unit : Written → Bool) :
    Conjunction.ofFields? unit (ofRecord fields) = some g.conjunction ∧
      Condition.fieldParts (ofRecord fields) = [some g.parts] := by
  constructor
  · have hslots := slots?_ofJson_record hapart ["conjunction"]
    rw [ofJson_record, List.map_singleton, hconjunction, Option.map_some] at hslots
    rw [Conjunction.ofFields?, hslots]
    exact Conjunction.ofWritten?_ofJson unit g.conjunction
  · have hgiven := given_ofJson_record hapart 1 "conditions"
    rw [ofJson_record, hconditions, Option.map_some] at hgiven
    rw [Condition.fieldParts_eq, hgiven, ofJson, Option.toList_some, List.map_singleton,
      Condition.parts?, Condition.ofItems?_eq, ofItems_eq, List.map_map]
    exact congrArg ([·]) (mapM_map_eq_some hparts)

namespace Condition

/-- The values of all comparisons are in canonical form. -/
def Canonical (c : Condition) : Prop := ∀ l ∈ c.leaves, l.value.Canonical

theorem ofWritten?_group {g : Conditions}
    (h : ∀ c ∈ g.parts, ofWritten? (ofJson c.toJson) = some c) :
    ofWritten? (ofJson g.toJson) = some g.toCondition := by
  have hapart : (g.fields.map (·.1)).Nodup := by simp [Conditions.fields]
  have hobject : ofJson g.toJson = .object (ofRecord g.fields) := by
    rw [Conditions.toJson, Conditions.toCondition, toJson, partsToJson_eq]
    exact ofJson_record g.fields
  -- a comparison is tried first, but there is no field for a property
  have hleaf : Leaf.ofWritten? (.object (ofRecord g.fields)) = none := by
    apply Leaf.ofWritten?_eq_none
    rw [← ofJson_record, given_ofJson_record hapart]
    rfl
  obtain ⟨hconjunction, hparts⟩ := Conditions.read_fields hapart rfl rfl h isUnit
  rw [hobject, ofWritten?, hleaf]
  simp only [hconjunction, hparts, Conditions.toCondition]

mutual
/-- A comparison is not read back as a group, nor a group as a comparison. -/
theorem ofWritten?_toJson : ∀ {c : Condition}, c.Canonical →
    ofWritten? (ofJson c.toJson) = some c
  | .leaf l, h => by
    have hl := Leaf.ofWritten?_toJson (h l (by simp [leaves]))
    have hobject : ofJson l.toJson = .object (ofRecord l.fields) := ofJson_record l.fields
    rw [toJson, hobject, ofWritten?, ← hobject, hl]
  | .group j parts, h => ofWritten?_group (g := ⟨j, parts⟩) (forall_ofWritten?_toJson h)
theorem forall_ofWritten?_toJson : ∀ {parts : List Condition},
    (∀ l ∈ partLeaves parts, l.value.Canonical) → ∀ c ∈ parts, ofWritten? (ofJson c.toJson) = some c
  | [], _ => by simp
  | c :: rest, h => by
    rw [partLeaves, List.forall_mem_append] at h
    exact List.forall_mem_cons.2 ⟨ofWritten?_toJson h.1, forall_ofWritten?_toJson h.2⟩
end

mutual
/-- Whatever is read as a condition has values in canonical form only. -/
theorem canonical_of_ofWritten? : ∀ {c : Condition} {w : Written}, ofWritten? w = some c →
    c.Canonical
  | .leaf l, w, h => by
    rcases ofWritten?_cases h with ⟨l', hl, heq⟩ | ⟨-, j, cs, heq, -⟩
    · cases heq
      intro l' hl'
      obtain rfl : l' = l := by simpa [leaves] using hl'
      rcases hl.value with ⟨-, hnull⟩ | ⟨v, -, hv⟩
      · exact hnull ▸ .null
      · exact canonical_of_value? hv
    · cases heq
  | .group j parts, w, h => by
    rcases ofWritten?_cases h with ⟨l', hl, heq⟩ | ⟨-, j, cs, heq, hcs⟩
    · cases heq
    · cases heq
      exact canonical_of_reads hcs
theorem canonical_of_reads : ∀ {parts : List Condition} {items : List Written},
    Reads items parts → ∀ l ∈ partLeaves parts, l.value.Canonical
  | [], _, _ => by simp
  | c :: rest, _, .cons hc hrest => by
    rw [partLeaves, List.forall_mem_append]
    exact ⟨canonical_of_ofWritten? hc, canonical_of_reads hrest⟩
end

end Condition
end EntitySelect
