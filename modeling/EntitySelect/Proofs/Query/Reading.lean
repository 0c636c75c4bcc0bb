import EntitySelect.Query.Document
import EntitySelect.Proofs.Condition.Reading

/-! Which conditions of a document survive its reading. -/
namespace EntitySelect
open Written

/-- Every node that has a field spells a comparison, and nothing above it does. -/
def Written.Intact (w : Written) : Prop :=
  ∀ (i : Nat) (u : Written) path fields,
    w.conditions[i]? = some u → u.node? path = some (.object fields) →
    (object fields).given 0 "field" ≠ [] →
    ¬ u.Covered path ∧ ∃ l, (object fields).Spells l

namespace Conditions

/-- The text was accepted with these conditions, as a query or as a tree of its own. -/
def AcceptedFrom (g : Conditions) (text : String) : Prop :=
  Conditions.ofText? text = some g ∨ ∃ q, Query.ofText? text = some q ∧ q.conditions = g

/-- Every node that has a field was read as the comparison it spells. -/
def KeepsAll (g : Conditions) (w : Written) : Prop :=
  ∀ (i : Nat) (u : Written) path fields,
    w.conditions[i]? = some u → u.node? path = some (.object fields) →
    (object fields).given 0 "field" ≠ [] →
    ∃ l, ∃ c : Condition, (object fields).Spells l ∧ g.parts[i]? = some c ∧
      c.node? path = some (.leaf l)

theorem reads_of_ofFields? {unit : Written → Bool} {fields : List (Option String × Written)}
    {g : Conditions} (h : ofFields? unit fields = some g) :
    Condition.Reads (object fields).conditions g.parts := by
  rw [ofFields?] at h
  split at h
  · cases h
    exact Condition.reads_of_fieldParts (Or.inl ⟨‹_›, rfl⟩)
  · cases h
    exact Condition.reads_of_fieldParts (Or.inr ‹_›)
  · cases h

theorem reads_of_ofWritten? {w : Written} {g : Conditions} (h : ofWritten? w = some g) :
    Condition.Reads w.conditions g.parts := by
  cases w with
  | array items =>
    rw [ofWritten?] at h
    split at h
    · cases h
      exact Condition.reads_of_itemParts? ‹_›
    · cases h
  | object fields => exact reads_of_ofFields? h
  | _ => cases h

theorem exists_reads_of_ofText? {text : String} {g : Conditions} (h : ofText? text = some g) :
    ∃ w, Written.ofText? text = some w ∧ Condition.Reads w.conditions g.parts := by
  rw [ofText?] at h
  split at h
  · rename_i fields hw
    split at h
    · exact ⟨_, hw, reads_of_ofWritten? h⟩
    · cases h
  · rename_i w _ hw
    split at h
    · exact ⟨_, hw, reads_of_ofWritten? h⟩
    · cases h
  · cases h

end Conditions

namespace Query

theorem reads_of_ofWritten? {fields : List (Option String × Written)} {q : Query}
    (h : ofWritten? (.object fields) = some q) :
    Condition.Reads (object fields).conditions q.conditions.parts := by
  simp only [ofWritten?, Option.bind_eq_bind, Option.bind_eq_some_iff] at h
  obtain ⟨slots, -, h⟩ := h
  split at h
  · simp only [Option.bind_eq_some_iff, Option.pure_def, Option.some.injEq] at h
    obtain ⟨_, -, g, hg, _, -, _, -, _, -, _, -, _, -, _, -, _, -, _, -, rfl⟩ := h
    exact Conditions.reads_of_ofFields? hg
  · cases h

theorem exists_reads_of_ofText? {text : String} {q : Query} (h : ofText? text = some q) :
    ∃ w, Written.ofText? text = some w ∧ Condition.Reads w.conditions q.conditions.parts := by
  rw [ofText?] at h
  split at h
  · rename_i fields hw
    split at h
    · exact ⟨_, hw, reads_of_ofWritten? h⟩
    · cases h
  · cases h

end Query

namespace Conditions

theorem AcceptedFrom.exists_reads {text : String} {g : Conditions} (h : g.AcceptedFrom text) :
    ∃ w, Written.ofText? text = some w ∧ Condition.Reads w.conditions g.parts := by
  rcases h with h | ⟨q, h, rfl⟩
  · exact exists_reads_of_ofText? h
  · exact Query.exists_reads_of_ofText? h

theorem keepsAll_iff_of_reads {w : Written} {g : Conditions}
    (h : Condition.Reads w.conditions g.parts) : g.KeepsAll w ↔ w.Intact := by
  constructor
  · intro hkeeps i u path fields hu hv hfield
    obtain ⟨c, hc, hread⟩ := h.getElem? hu
    obtain ⟨l, c', hl, hc', hnode⟩ := hkeeps i u path fields hu hv hfield
    obtain rfl : c = c' := Option.some.inj (hc.symm.trans hc')
    exact (Condition.kept_iff hread hv).mp ⟨l, hl, hnode⟩
  · intro hintact i u path fields hu hv hfield
    obtain ⟨c, hc, hread⟩ := h.getElem? hu
    obtain ⟨l, hl, hnode⟩ :=
      (Condition.kept_iff hread hv).mpr (hintact i u path fields hu hv hfield)
    exact ⟨l, c, hl, hc, hnode⟩

/-- An accepted document keeps all its comparisons if and only if every node that has a field spells
a comparison and nothing above it does. Whatever else it says, each node has one of three fates. -/
theorem keepsAll_iff_intact {text : String} {g : Conditions} (h : g.AcceptedFrom text) :
    ∃ w, Written.ofText? text = some w ∧ (g.KeepsAll w ↔ w.Intact) ∧
      List.Forall₂ (fun u c => ∀ path v, u.node? path = some v → Condition.Fate u c path v)
        w.conditions g.parts := by
  obtain ⟨w, hw, hreads⟩ := h.exists_reads
  refine ⟨w, hw, keepsAll_iff_of_reads hreads, ?_⟩
  apply hreads.imp
  intro u c hread path v hv
  exact Condition.fate_of_ofWritten? hread hv

/-- A comparison that hides another one, and beside it one with an unknown operator. -/
theorem keepsAll_iff_intact_of_hidden :
    let text := "\x7b\"conditions\":[\x7b\"field\":\"a\",\"value\":1,\"conditions\":" ++
      "[\x7b\"field\":\"b\"\x7d]\x7d,\x7b\"field\":\"x\",\"operator\":\"LIKE\"\x7d]\x7d"
    let g : Conditions := { parts := [.leaf { field := "a", value := .word 1 }, .group .and []] }
    g.AcceptedFrom text ∧
      ∃ w, Written.ofText? text = some w ∧ (g.KeepsAll w ↔ w.Intact) ∧
        List.Forall₂ (fun u c => ∀ path v, u.node? path = some v → Condition.Fate u c path v)
          w.conditions g.parts := by
  intro text g
  have h : g.AcceptedFrom text := Or.inl (by decide +kernel)
  exact ⟨h, keepsAll_iff_intact h⟩

/-- A comparison with an unknown operator is accepted as a group without conditions. -/
theorem exists_accepted_not_keepsAll :
    ¬ ∀ text g, AcceptedFrom g text → ∃ w, Written.ofText? text = some w ∧ g.KeepsAll w := by
  intro h
  let node := object [(some "field", .string (some "x")), (some "operator", .string (some "LIKE"))]
  obtain ⟨text, haccepted, hparsed⟩ : ∃ text,
      AcceptedFrom { parts := [.group .and []] } text ∧
        Written.ofText? text = some (.object [(some "conditions", .array [node])]) :=
    ⟨"\x7b\"conditions\":[\x7b\"field\":\"x\",\"operator\":\"LIKE\"\x7d]\x7d",
      Or.inl (by decide +kernel), by with_unfolding_all rfl⟩
  obtain ⟨w, hw, hkeeps⟩ := h text _ haccepted
  rw [hparsed] at hw
  cases hw
  have hnode : (object [(some "conditions", .array [node])]).conditions[0]? = some node := by
    simp [Written.conditions, given, items]
  have hfield : node.given 0 "field" ≠ [] := by
    simp [node, given]
  obtain ⟨l, c, -, hc, hl⟩ := hkeeps 0 node [] _ hnode rfl hfield
  cases hc
  cases hl

end Conditions
end EntitySelect
