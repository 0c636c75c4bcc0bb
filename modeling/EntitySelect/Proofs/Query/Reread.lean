import EntitySelect.Proofs.Condition.Reread
import EntitySelect.Proofs.Query.Reading

/-! A written query is read as the query it was written from, however that one came about. -/
namespace EntitySelect
open Written

theorem Direction.ofWritten?_ofJson (d : Direction) :
    Direction.ofWritten? (ofJson (.string d.word)) = some d := by
  cases d <;> rfl

theorem Age.ofWritten?_ofJson (a : Age) : Age.ofWritten? (ofJson (.string a.word)) = some a := by
  cases a <;> rfl

/-- The fields that an ordering is written with. -/
def Sorting.fields (s : Sorting) : List (String × Json) :=
  [("field", .string s.field), ("direction", .string s.direction.word)] ++
    Json.optionalField "langcode" .string s.langcode

theorem Sorting.ofWritten?_toJson (s : Sorting) :
    Sorting.ofWritten? (ofJson s.toJson) = some s := by
  have hapart : (s.fields.map (·.1)).Nodup := by
    rw [fields]
    cases s.langcode <;> simp [Json.optionalField]
  have hlangcode : s.fields.lookup "langcode" = s.langcode.map .string := by
    simp [fields, List.lookup_cons, Json.lookup_optionalField]
  have hslots : (ofJson s.toJson).slots? ["field", "direction", "langcode"] =
      some [some (.string (some s.field)), some (ofJson (.string s.direction.word)),
        (s.langcode.map .string).map ofJson] := by
    rw [← hlangcode]
    exact slots?_ofJson_record hapart _
  have hread : Slot.optional string? ((s.langcode.map .string).map ofJson) = some s.langcode :=
    Slot.optional_map rfl fun _ _ => rfl
  rw [Sorting.ofWritten?, hslots]
  simp only [Option.bind_eq_bind, Option.bind_some, Slot.required, Slot.default, string?,
    Direction.ofWritten?_ofJson, hread, Option.pure_def]

theorem Window.ofWritten?_toJson (w : Window) : Window.ofWritten? (ofJson w.toJson) = some w := by
  have hslots : (ofJson w.toJson).slots? ["start", "length"] =
      some [some (ofJson (.word w.start)), some (ofJson (.word w.length))] :=
    slots?_ofJson_record (by simp) _
  simp [Window.ofWritten?, hslots, Slot.required, uint64?_ofJson]

theorem Pager.ofWritten?_toJson (p : Pager) : Pager.ofWritten? (ofJson p.toJson) = some p := by
  have hslots : (ofJson p.toJson).slots? ["limit", "element", "page"] =
      some [some (ofJson (.word p.limit)), some (ofJson (.word p.element.toUInt64)),
        some (ofJson (.word p.page))] :=
    slots?_ofJson_record (by simp) _
  simp [Pager.ofWritten?, hslots, Slot.required, Slot.default, uint64?_ofJson, uint32?_ofJson]

namespace Query

/-- The values of all comparisons and of the metadata are in canonical form. -/
structure Canonical (q : Query) : Prop where
  conditions : ∀ c ∈ q.conditions.parts, c.Canonical
  metadata : ∀ v ∈ q.metadata.values, v.Canonical

/-- A query that was built, or read from a document, or read and built on. Values given to a
builder are in canonical form, as all values are that have been read. -/
inductive Reachable : Query → Prop
  | start (entityType : String) (conjunction : Conjunction) :
    Reachable { entityType, conditions := { conjunction } }
  | read {w : Written} {q : Query} : ofWritten? w = some q → Reachable q
  | addCondition {q : Query} {c : Condition} : Reachable q → c.Canonical →
    Reachable (q.addCondition c)
  | sortBy {q : Query} (s : Sorting) : Reachable q → Reachable (q.sortBy s)
  | withWindow {q : Query} (w : Window) : Reachable q → Reachable (q.withWindow w)
  | withPager {q : Query} (limit : UInt64) (element : UInt32) : Reachable q →
    Reachable (q.withPager limit element)
  | withPage {q : Query} (page : UInt64) : Reachable q → Reachable (q.withPage page)
  | asCount {q : Query} : Reachable q → Reachable q.asCount
  | withAccessCheck {q : Query} (enabled : Bool) : Reachable q →
    Reachable (q.withAccessCheck enabled)
  | inheritAccessCheck {q : Query} (enabled : Bool) : Reachable q →
    Reachable (q.inheritAccessCheck enabled)
  | withAge {q : Query} (age : Age) : Reachable q → Reachable (q.withAge age)
  | addTag {q : Query} (tag : String) : Reachable q → Reachable (q.addTag tag)
  | setMetadata {q : Query} {value : Json} (key : String) : Reachable q → value.Canonical →
    Reachable (q.setMetadata key value)

theorem canonical_of_ofWritten? {w : Written} {q : Query} (h : ofWritten? w = some q) :
    q.Canonical := by
  cases w with
  | object fields =>
    have hconditions := Condition.canonical_of_reads (reads_of_ofWritten? h)
    simp only [ofWritten?, Option.bind_eq_bind, Option.bind_eq_some_iff] at h
    obtain ⟨slots, -, h⟩ := h
    split at h
    · simp only [Option.bind_eq_some_iff, Option.pure_def, Option.some.injEq] at h
      obtain ⟨_, -, g, -, _, -, _, -, _, -, _, -, _, -, _, -, _, -, m, hm, rfl⟩ := h
      refine ⟨fun c hc l hl => hconditions l ?_, ?_⟩
      · rw [Condition.partLeaves_eq]
        exact List.mem_flatMap.2 ⟨c, hc, hl⟩
      · rcases (Slot.default_eq_some_iff ..).1 hm with ⟨-, rfl⟩ | ⟨w, -, hw⟩
        · simp [Dict.values, Dict.empty]
        · exact canonical_of_dict? hw
    · cases h
  | _ => cases h

theorem Reachable.canonical {q : Query} (h : q.Reachable) : q.Canonical := by
  induction h with
  | start entityType conjunction => exact ⟨by simp, by simp [Dict.values, Dict.empty]⟩
  | read h => exact canonical_of_ofWritten? h
  | addCondition _ hc ih =>
    exact ⟨List.forall_mem_append.2 ⟨ih.conditions, List.forall_mem_singleton.2 hc⟩, ih.metadata⟩
  | setMetadata key _ hv ih =>
    refine ⟨ih.conditions, fun v hmem => ?_⟩
    exact (Dict.mem_values_insert hmem).elim (· ▸ hv) (ih.metadata v)
  | sortBy _ _ ih | withWindow _ _ ih | withPager _ _ _ ih | withPage _ _ ih | asCount _ ih
  | withAccessCheck _ _ ih | inheritAccessCheck _ _ ih | withAge _ _ ih | addTag _ _ ih =>
    exact ⟨ih.conditions, ih.metadata⟩

/-- The fields that a query is written with. -/
def fields (q : Query) : List (String × Json) :=
  [("entity_type", .string q.entityType),
    ("conjunction", .string q.conditions.conjunction.word),
    ("conditions", .array (q.conditions.parts.map Condition.toJson)),
    ("sort", .array (q.sorts.map Sorting.toJson)),
    ("range", .orNull Window.toJson q.window),
    ("pager", .orNull Pager.toJson q.pager),
    ("count", .bool q.count),
    ("access_check", .orNull .bool q.accessCheck),
    ("age", .string q.age.word),
    ("tags", q.tags.toJson),
    ("metadata", .ofDict q.metadata)]

theorem nodup_fields (q : Query) : (q.fields.map (·.1)).Nodup := by simp [fields]

theorem ofJson_toJson (q : Query) :
    ofJson q.toJson = .object (ofRecord q.fields) :=
  ofJson_record q.fields

/-- What is found under the names of a query's own fields. -/
theorem slots?_toJson (q : Query) : (ofJson q.toJson).slots? fieldNames =
    some [some (.string (some q.entityType)), some (ofJson (.array (q.sorts.map Sorting.toJson))),
      some (ofJson (.orNull Window.toJson q.window)), some (ofJson (.orNull Pager.toJson q.pager)),
      some (.bool q.count), some (ofJson (.orNull .bool q.accessCheck)),
      some (ofJson (.string q.age.word)), some (ofJson q.tags.toJson),
      some (ofJson (.ofDict q.metadata))] :=
  slots?_ofJson_record q.nodup_fields fieldNames

/-- The conditions are found among the other fields of their query. -/
theorem ofFields?_toJson {q : Query} (h : q.Canonical) :
    Conditions.ofFields? isUnitOrEmpty (ofRecord q.fields) = some q.conditions := by
  have hparts : ∀ c ∈ q.conditions.parts, Condition.ofWritten? (ofJson c.toJson) = some c :=
    fun c hc => Condition.ofWritten?_toJson (h.conditions c hc)
  obtain ⟨hconjunction, hconditions⟩ :=
    Conditions.read_fields q.nodup_fields rfl rfl hparts isUnitOrEmpty
  rw [Conditions.ofFields?, hconjunction, hconditions]

/-- A query is read back from what it is written as. -/
theorem Reachable.read_toJson {q : Query} (h : q.Reachable) :
    Query.ofWritten? (ofJson q.toJson) = some q := by
  have hconditions := ofFields?_toJson h.canonical
  have hsorts := list?_ofJson fun s (_ : s ∈ q.sorts) => s.ofWritten?_toJson
  have hwindow := Slot.optional_orNull rfl fun w (_ : w ∈ q.window) => w.ofWritten?_toJson
  have hpager := Slot.optional_orNull rfl fun p (_ : p ∈ q.pager) => p.ofWritten?_toJson
  have haccess : Slot.optional bool? (some (ofJson (.orNull .bool q.accessCheck))) =
      some q.accessCheck := Slot.optional_orNull rfl fun _ _ => rfl
  have htags : names? (ofJson q.tags.toJson) = some q.tags := names?_ofJson q.tags
  have hmetadata := dict?_ofJson h.canonical.metadata
  have hslots := q.slots?_toJson
  rw [ofJson_toJson] at hslots ⊢
  rw [ofWritten?, hslots]
  · simp only [Option.bind_eq_bind, Option.bind_some, Slot.required, Slot.default, string?, bool?,
      hconditions, hsorts, hwindow, hpager, haccess, Age.ofWritten?_ofJson, htags, hmetadata,
      Option.pure_def]
  · rintro items ⟨⟩

/-- Groups within groups, one of them empty, an empty language, and access left undecided. -/
theorem Reachable.read_toJson_of_nested :
    let new : Query := { entityType := "node", conditions := { conjunction := .or } }
    let q := (((new.addCondition (.group .and [.group .or [],
        .leaf { field := "title", langcode := some "" },
        .leaf { field := "nid", value := .array [.word 1], operator := some .noneOf }])).sortBy
      { field := "nid", direction := .desc }).withPager 10 0).setMetadata "view"
      (.object [("name", .string "front")])
    q.Reachable ∧ ofWritten? (ofJson q.toJson) = some q := by
  intro new q
  have hcondition : Condition.Canonical (.group .and [.group .or [],
      .leaf { field := "title", langcode := some "" },
      .leaf { field := "nid", value := .array [.word 1], operator := some .noneOf }]) := by
    simp only [Condition.Canonical, Condition.leaves, Condition.partLeaves, List.nil_append,
      List.singleton_append, List.forall_mem_cons, List.not_mem_nil, false_implies, implies_true,
      and_true]
    exact ⟨.null, .array (List.forall_mem_singleton.2 (.number _))⟩
  have hvalue : Json.Canonical (.object [("name", .string "front")]) :=
    .object (List.forall_mem_singleton.2 (.string _)) (List.pairwise_singleton ..)
  have h : q.Reachable :=
    .setMetadata "view" (.withPager 10 0 (.sortBy _ (.addCondition (.start "node" .or) hcondition)))
      hvalue
  exact ⟨h, h.read_toJson⟩

end Query
end EntitySelect
