import EntitySelect.Condition.Document
import EntitySelect.Proofs.Json.Record
import Mathlib.Data.List.Forall2

/-! What becomes of each node of a written tree. A node that spells a comparison is read as that
comparison and hides everything below it; every other node is read as a group. -/
namespace EntitySelect
open Written

namespace Written

/-- The node spells the comparison `l`: each field written at most once and with a good value. -/
structure Spells (w : Written) (l : Leaf) : Prop where
  record : w.IsRecord 4
  field : w.given 0 "field" = [.string (some l.field)]
  value : (w.given 1 "value" = [] ∧ l.value = .null) ∨
    ∃ v, w.given 1 "value" = [v] ∧ v.value? = some l.value
  operator : (w.given 2 "operator" ∈ [[], [.null]] ∧ l.operator = none) ∨
    ∃ o v, w.given 2 "operator" = [v] ∧ l.operator = some o ∧
      (v = .string (some o.word) ∨ v = .object [(some o.word, .null)])
  langcode : (w.given 3 "langcode" ∈ [[], [.null]] ∧ l.langcode = none) ∨
    ∃ s, w.given 3 "langcode" = [.string (some s)] ∧ l.langcode = some s

def items : Written → List Written
  | .array items => items
  | _ => []

/-- What is written as the conditions of a group. -/
def conditions (w : Written) : List Written := (w.given 1 "conditions").flatMap items

/-- The nodes below a node. An array that spells a comparison has none, for its second item is a
value. -/
def parts : Written → List Written
  | .array items => if (Leaf.ofWritten? (.array items)).isSome then [] else (array items).conditions
  | w => w.conditions

/-- The node at the end of a path, each step of which is a position among the parts. -/
def node? : List Nat → Written → Option Written
  | [], w => some w
  | i :: path, w => w.parts[i]?.bind (node? path)

/-- On the way to the end of a path, before it, stands a comparison. -/
inductive Covered : Written → List Nat → Prop
  | here {w : Written} {l : Leaf} {path : List Nat} : w.Spells l → path ≠ [] → Covered w path
  | deeper {w v : Written} {i : Nat} {path : List Nat} :
    w.parts[i]? = some v → Covered v path → Covered w (i :: path)

end Written

namespace Condition

def parts : Condition → List Condition
  | .leaf _ => []
  | .group _ parts => parts

/-- The condition at the end of a path. -/
def node? : List Nat → Condition → Option Condition
  | [], c => some c
  | i :: path, c => c.parts[i]?.bind (node? path)

end Condition

theorem Operator.ofWord?_eq_some_iff (w : String) (o : Operator) :
    Operator.ofWord? w = some o ↔ w = o.word := by
  constructor
  · intro h
    have hw := List.find?_some h
    exact (eq_of_beq hw).symm
  · rintro rfl
    exact Operator.ofWord?_word o

theorem Operator.ofWritten?_eq_some_iff (w : Written) (o : Operator) :
    Operator.ofWritten? w = some o ↔
      w = .string (some o.word) ∨ w = .object [(some o.word, .null)] := by
  rw [Operator.ofWritten?, word?_eq_some_iff]
  simp only [Operator.ofWord?_eq_some_iff, exists_eq_left]

theorem Leaf.ofWritten?_eq_some_slots (w : Written) (l : Leaf) :
    Leaf.ofWritten? w = some l ↔
      ∃ field value operator langcode : Slot,
        w.slots? ["field", "value", "operator", "langcode"] =
          some [field, value, operator, langcode] ∧
        field.required string? = some l.field ∧ value.default .null value? = some l.value ∧
        operator.optional Operator.ofWritten? = some l.operator ∧
        langcode.optional string? = some l.langcode := by
  constructor
  · intro h
    rw [Leaf.ofWritten?, Option.bind_eq_bind, Option.bind_eq_some_iff] at h
    obtain ⟨slots, hs, h⟩ := h
    split at h
    · simp only [Option.bind_eq_bind, Option.bind_eq_some_iff, Option.pure_def,
        Option.some.injEq] at h
      obtain ⟨_, hf, _, hv, _, ho, _, hl, rfl⟩ := h
      exact ⟨_, _, _, _, hs, hf, hv, ho, hl⟩
    · simp at h
  · rintro ⟨field, value, operator, langcode, hs, hf, hv, ho, hl⟩
    simp [Leaf.ofWritten?, hs, hf, hv, ho, hl]

/-- A node is read as a comparison if and only if it spells it. -/
theorem Leaf.ofWritten?_eq_some_iff (w : Written) (l : Leaf) :
    Leaf.ofWritten? w = some l ↔ w.Spells l := by
  have hoperator := @Slot.optional_eq_some_iff _ Operator.ofWritten? rfl
  have hlangcode := @Slot.optional_eq_some_iff _ string? rfl
  simp only [Leaf.ofWritten?_eq_some_slots, slots?_eq_some_iff, List.zipIdx_cons, List.zipIdx_nil,
    List.map_cons, List.map_nil, List.cons.injEq, and_true, Slot.required_eq_some_iff,
    Slot.default_eq_some_iff, hoperator, hlangcode, string?_eq_some_iff]
  constructor
  · rintro ⟨a, b, c, d, ⟨hw, ha, hb, hc, hd⟩, hf, hv, ho, hl⟩
    rw [← ha] at hf
    rw [← hb] at hv
    rw [← hc] at ho
    rw [← hd] at hl
    refine ⟨hw, ?_, hv, ?_, ?_⟩
    · obtain ⟨v, hf, rfl⟩ := hf
      exact hf
    · apply ho.imp_right
      rintro ⟨v, o, hv, hlo, hr⟩
      exact ⟨o, v, hv, hlo, (Operator.ofWritten?_eq_some_iff v o).mp hr⟩
    · apply hl.imp_right
      rintro ⟨v, s, hv, hls, rfl⟩
      exact ⟨s, hv, hls⟩
  · rintro ⟨hw, hf, hv, ho, hl⟩
    obtain ⟨a, ha⟩ : ∃ a : Slot, w.given 0 "field" = a.toList := ⟨some _, hf⟩
    obtain ⟨b, hb⟩ : ∃ b : Slot, w.given 1 "value" = b.toList := by
      rcases hv with ⟨hv, -⟩ | ⟨v, hv, -⟩
      · exact ⟨none, hv⟩
      · exact ⟨some v, hv⟩
    obtain ⟨c, hc⟩ : ∃ c : Slot, w.given 2 "operator" = c.toList := by
      rcases ho with ⟨ho, -⟩ | ⟨o, v, ho, -⟩
      · exact exists_slot_of_mem ho
      · exact ⟨some v, ho⟩
    obtain ⟨d, hd⟩ : ∃ d : Slot, w.given 3 "langcode" = d.toList := by
      rcases hl with ⟨hl, -⟩ | ⟨s, hl, -⟩
      · exact exists_slot_of_mem hl
      · exact ⟨some _, hl⟩
    refine ⟨a, b, c, d, ⟨hw, ha, hb, hc, hd⟩, ?_, ?_, ?_, ?_⟩
    · rw [← ha]
      exact ⟨_, hf, rfl⟩
    · rw [← hb]
      exact hv
    · rw [← hc]
      apply ho.imp_right
      rintro ⟨o, v, hv, hlo, hr⟩
      exact ⟨v, o, hv, hlo, (Operator.ofWritten?_eq_some_iff v o).mpr hr⟩
    · rw [← hd]
      apply hl.imp_right
      rintro ⟨s, hv, hls⟩
      exact ⟨_, s, hv, hls, rfl⟩

namespace Condition

/-- The conditions are those that the nodes are read as, one for each. -/
abbrev Reads (items : List Written) (cs : List Condition) : Prop :=
  List.Forall₂ (fun w c => ofWritten? w = some c) items cs

theorem reads_of_ofItems? {items : List Written} {cs : List Condition}
    (h : ofItems? items = some cs) : Reads items cs := by
  induction items generalizing cs with
  | nil =>
    cases h
    exact .nil
  | cons w rest ih =>
    rw [ofItems?] at h
    split at h
    · cases h
      exact .cons ‹_› (ih ‹_›)
    · cases h

theorem reads_of_parts? {w : Written} {cs : List Condition} (h : parts? w = some cs) :
    ∃ items, w = .array items ∧ Reads items cs := by
  cases w with
  | array items => exact ⟨items, rfl, reads_of_ofItems? h⟩
  | _ => simp [parts?] at h

theorem fieldParts_eq (fields : List (Option String × Written)) :
    fieldParts fields = ((object fields).given 1 "conditions").map parts? := by
  induction fields with
  | nil => rfl
  | cons f fields ih =>
    obtain ⟨name, w⟩ := f
    rw [fieldParts, ih]
    by_cases h : name = some "conditions" <;> simp [given, h]

/-- The conditions of an accepted group are read one by one. -/
theorem reads_of_fieldParts {fields : List (Option String × Written)} {cs : List Condition}
    (h : fieldParts fields = [] ∧ cs = [] ∨ fieldParts fields = [some cs]) :
    Reads (object fields).conditions cs := by
  rw [fieldParts_eq, List.map_eq_nil_iff] at h
  rw [conditions]
  rcases h with ⟨h, rfl⟩ | h
  · rw [h]
    exact .nil
  · obtain ⟨w, hw, hcs⟩ := List.map_eq_singleton_iff.mp h
    obtain ⟨items, rfl, hitems⟩ := reads_of_parts? hcs
    rw [hw, List.flatMap_singleton]
    exact hitems

theorem reads_of_itemParts? {items : List Written} {cs : List Condition}
    (h : itemParts? items = some cs) : Reads (array items).conditions cs := by
  rcases items with _ | ⟨c, _ | ⟨w, _ | ⟨v, items⟩⟩⟩
  · cases h
    exact .nil
  · cases h
    exact .nil
  · obtain ⟨items, rfl, hitems⟩ := reads_of_parts? h
    have hconditions : (array [c, array items]).conditions = items := by
      simp [conditions, given, Written.items]
    rw [hconditions]
    exact hitems
  · simp [itemParts?] at h

/-- Whatever is accepted without spelling a comparison is a group of its parts. -/
theorem ofWritten?_cases {w : Written} {c : Condition} (h : ofWritten? w = some c) :
    (∃ l, w.Spells l ∧ c = .leaf l) ∨
      (∀ l, ¬ w.Spells l) ∧ ∃ j cs, c = .group j cs ∧ Reads w.parts cs := by
  simp only [← Leaf.ofWritten?_eq_some_iff]
  cases hl : Leaf.ofWritten? w with
  | some l =>
    left
    refine ⟨l, rfl, ?_⟩
    cases w <;> simp_all [ofWritten?]
  | none =>
    right
    refine ⟨by simp, ?_⟩
    cases w with
    | array items =>
      have hparts : (array items).parts = (array items).conditions := by
        rw [Written.parts, hl]
        rfl
      rw [hparts]
      rw [ofWritten?, hl] at h
      simp only at h
      split at h
      · cases h
        exact ⟨_, _, rfl, reads_of_itemParts? ‹_›⟩
      · cases h
    | object fields =>
      rw [ofWritten?, hl] at h
      simp only at h
      split at h
      · cases h
        exact ⟨_, _, rfl, reads_of_fieldParts (Or.inl ⟨‹_›, rfl⟩)⟩
      · cases h
        exact ⟨_, _, rfl, reads_of_fieldParts (Or.inr ‹_›)⟩
      · cases h
    | _ => simp [ofWritten?] at h

theorem Reads.getElem? {items : List Written} {cs : List Condition} (h : Reads items cs) {i : Nat}
    {w : Written} (hw : items[i]? = some w) : ∃ c, cs[i]? = some c ∧ ofWritten? w = some c := by
  induction h generalizing i with
  | nil => simp at hw
  | cons hc _ ih =>
    cases i with
    | zero =>
      cases hw
      exact ⟨_, rfl, hc⟩
    | succ i => exact ih hw

/-- A node is read for what it is, unless a comparison above hides it. -/
theorem covered_or_read {w : Written} {c : Condition} (h : ofWritten? w = some c)
    {path : List Nat} {v : Written} (hv : w.node? path = some v) :
    (w.Covered path ∧ c.node? path = none) ∨
      (¬ w.Covered path ∧ ∃ d, c.node? path = some d ∧ ofWritten? v = some d) := by
  induction path generalizing w c with
  | nil =>
    right
    cases hv
    refine ⟨?_, c, rfl, h⟩
    intro hcovered
    cases hcovered with
    | here _ hpath => exact hpath rfl
  | cons i path ih =>
    rw [Written.node?, Option.bind_eq_some_iff] at hv
    obtain ⟨u, hu, hv⟩ := hv
    rcases ofWritten?_cases h with ⟨l, hl, rfl⟩ | ⟨hl, j, cs, rfl, hcs⟩
    · left
      exact ⟨.here hl (List.cons_ne_nil i path), rfl⟩
    · obtain ⟨d, hd, hread⟩ := hcs.getElem? hu
      have hnode : (group j cs).node? (i :: path) = d.node? path := by
        rw [node?, parts, hd, Option.bind_some]
      have hcovered : w.Covered (i :: path) ↔ u.Covered path := by
        constructor
        · intro hcovered
          cases hcovered with
          | here hl' _ => exact absurd hl' (hl _)
          | deeper hu' hcovered =>
            cases hu.symm.trans hu'
            exact hcovered
        · exact .deeper hu
      rw [hnode, hcovered]
      exact ih hread hv

/-- What becomes of the node `v` at the end of a path from a node that is read as `c`: a comparison
above hides it, or it is read as the comparison it spells, or it spells none and is read as a group
of its parts. -/
def Fate (w : Written) (c : Condition) (path : List Nat) (v : Written) : Prop :=
  (w.Covered path ∧ c.node? path = none) ∨
    (¬ w.Covered path ∧ ∃ l, v.Spells l ∧ c.node? path = some (.leaf l)) ∨
      (¬ w.Covered path ∧ (∀ l, ¬ v.Spells l) ∧
        ∃ j cs, c.node? path = some (.group j cs) ∧ cs.length = v.parts.length)

theorem fate_of_ofWritten? {w : Written} {c : Condition} (h : ofWritten? w = some c)
    {path : List Nat} {v : Written} (hv : w.node? path = some v) : Fate w c path v := by
  rcases covered_or_read h hv with hcovered | ⟨hopen, d, hd, hread⟩
  · exact Or.inl hcovered
  · right
    rcases ofWritten?_cases hread with ⟨l, hl, rfl⟩ | ⟨hl, j, cs, rfl, hcs⟩
    · exact Or.inl ⟨hopen, l, hl, hd⟩
    · exact Or.inr ⟨hopen, hl, j, cs, hd, hcs.length_eq.symm⟩

/-- A node is kept if and only if it spells a comparison and nothing above it does. -/
theorem kept_iff {w : Written} {c : Condition} (h : ofWritten? w = some c) {path : List Nat}
    {v : Written} (hv : w.node? path = some v) :
    (∃ l, v.Spells l ∧ c.node? path = some (.leaf l)) ↔ ¬ w.Covered path ∧ ∃ l, v.Spells l := by
  rcases fate_of_ofWritten? h hv with ⟨hcovered, hnone⟩ | ⟨hopen, l, hl, hd⟩ | ⟨-, hl, -⟩
  · simp [hcovered, hnone]
  · constructor
    · intro _
      exact ⟨hopen, l, hl⟩
    · intro _
      exact ⟨l, hl, hd⟩
  · simp [hl]

end Condition

end EntitySelect
