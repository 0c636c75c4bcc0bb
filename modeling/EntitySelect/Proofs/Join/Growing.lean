import EntitySelect.Proofs.Join.Requests
import Mathlib.Data.List.Forall2

/-! What requests add to a statement, whatever it has joined before: joins of their tables behind
those that are there, each with its entry in the registry. -/
namespace EntitySelect

/-- The equations of the join are those for a table of field values. -/
def Join.ForField (layout : Layout) (root : String) (k : Join) : Prop :=
  ∃ langcode, k.on = layout.fieldTerms langcode root k.label

namespace Layout
variable {layout : Layout}

/-- The equations of a join tell the two kinds of tables apart. -/
theorem forField_wanted_iff {r : Request} {root label : String} :
    (layout.wanted r root label).ForField layout root ↔ r.place.source = .fieldTable := by
  have hne : langcodeColumn ≠ Field.entityTypeColumn := by decide
  unfold Join.ForField wanted terms
  cases r.place.source with
  | fieldTable => exact iff_of_true ⟨r.langcode, rfl⟩ rfl
  | entityTable =>
    -- rows of an entity table are not told by an entity type
    refine iff_of_false ?_ nofun
    rintro ⟨langcode, h⟩
    cases hlangcode : r.langcode <;>
      simp [entityTerms, fieldTerms, languageTerms, hlangcode, hne] at h

/-- The entry of the registry and the join that the request `r` makes. -/
def Made (layout : Layout) (root : String) (r : Request) (e : (String × Option String) × String)
    (join : Join) : Prop :=
  layout.atBase r.place = false ∧ ∃ label, e = (r.pair, label) ∧ join = layout.wanted r root label

/-- From the joins `j` to the joins `k` only `new` has been added, with the entries `entries` of the
registry; `adds` tells whether one of them is for a table of field values. -/
structure Grown (layout : Layout) (rs : List Request) (j k : Joining) (adds : Bool)
    (entries : List ((String × Option String) × String)) (new : List Join) : Prop where
  statement : k.statement = { j.statement with joins := j.statement.joins ++ new }
  registry : k.registry.entries = j.registry.entries ++ entries
  made : List.Forall₂ (fun e join => ∃ r ∈ rs, layout.Made j.statement.label r e join) entries new
  adds : adds = true ↔ ∃ join ∈ new, join.ForField layout j.statement.label

namespace Grown
variable {rs more : List Request} {i j k : Joining} {b c : Bool}
  {entries later : List ((String × Option String) × String)} {new further : List Join}

theorem refl (layout : Layout) (rs : List Request) (j : Joining) :
    layout.Grown rs j j false [] [] where
  statement := by rw [List.append_nil]
  registry := (List.append_nil _).symm
  made := .nil
  adds := by simp

theorem append (h : layout.Grown rs j k b entries new)
    (h' : layout.Grown more k i c later further) :
    layout.Grown (rs ++ more) j i (b || c) (entries ++ later) (new ++ further) := by
  have hlabel : k.statement.label = j.statement.label := by rw [h.statement]
  have hmade := h'.made
  have hadds := h'.adds
  rw [hlabel] at hmade hadds
  refine ⟨?_, ?_, List.rel_append (h.made.imp ?_) (hmade.imp ?_), ?_⟩
  · rw [h'.statement, h.statement, List.append_assoc]
  · rw [h'.registry, h.registry, List.append_assoc]
  · rintro e join ⟨r, hr, hrest⟩
    exact ⟨r, List.mem_append_left _ hr, hrest⟩
  · rintro e join ⟨r, hr, hrest⟩
    exact ⟨r, List.mem_append_right _ hr, hrest⟩
  · rw [Bool.or_eq_true, h.adds, hadds]
    simp only [List.mem_append, or_and_right, exists_or]

end Grown

/-- A request adds one join, or none. -/
theorem grown_enter (layout : Layout) (r : Request) (j : Joining) : ∃ entries new,
    layout.Grown [r] j (layout.enter r.place r.kind r.langcode j).2
      (layout.enter r.place r.kind r.langcode j).1.addsFieldTable entries new := by
  rcases layout.enter_cases r j with ⟨-, he⟩ | ⟨-, _, -, he⟩ | ⟨hbase, hnew, he⟩
  · rw [he]
    exact ⟨[], [], .refl ..⟩
  · rw [he]
    exact ⟨[], [], .refl ..⟩
  · rw [he]
    refine ⟨_, [layout.wanted r j.statement.label _], rfl, ?_,
      .cons ⟨r, List.mem_singleton_self r, hbase, _, rfl, rfl⟩ .nil, ?_⟩
    · rw [adjoin, Registry.register, hnew]
      rfl
    · simp only [List.mem_singleton, exists_eq_left, forField_wanted_iff, beq_iff_eq]

/-- Requests add joins one after the other. -/
theorem grown_enterAll (layout : Layout) (rs : List Request) (j : Joining) : ∃ entries new,
    layout.Grown rs j (layout.enterAll rs j) (layout.addsFieldTable rs j) entries new := by
  induction rs generalizing j with
  | nil => exact ⟨[], [], .refl ..⟩
  | cons r rs ih =>
    obtain ⟨entries, new, hr⟩ := layout.grown_enter r j
    obtain ⟨later, further, hrs⟩ := ih (layout.enter r.place r.kind r.langcode j).2
    exact ⟨_, _, hr.append hrs⟩

/-- A table that has been asked for is known from then on. -/
theorem exists_get?_of_mem {rs : List Request} {r : Request} (hr : r ∈ rs)
    (hbase : layout.atBase r.place = false) (j : Joining) :
    ∃ label, (layout.enterAll rs j).registry.get? r.place.table r.langcode = some label := by
  induction rs generalizing j with
  | nil => cases hr
  | cons r' rs ih =>
    rw [enterAll_cons]
    rcases List.mem_cons.1 hr with rfl | hr
    · rcases layout.enter_cases r j with ⟨hat, -⟩ | ⟨-, label, hknown, he⟩ | ⟨-, hnew, he⟩
      · cases hbase.symm.trans hat
      · rw [he]
        exact ⟨label, get?_enterAll hknown⟩
      · rw [he]
        exact ⟨_, get?_enterAll (get?_adjoin hnew)⟩
    · exact ih hr _

end Layout
end EntitySelect
