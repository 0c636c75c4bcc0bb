import EntitySelect.Proofs.Condition.Compiling
import EntitySelect.Proofs.Condition.Operators

/-! When a condition tree holds. The clause of a tree holds exactly if the tree does, and a
comparison without a disjunction above it has to hold itself. -/
namespace EntitySelect

namespace Leaf

/-- A value is accepted by the operator of a leaf. -/
def accepts (l : Leaf) (actual : Json) : Bool := l.effective.accepts l.value actual

/-- The comparison that a leaf asks for holds of the values that the leaf accepts. -/
theorem fulfils_comparison (l : Leaf) (actual : Json) :
    Comparison.fulfils actual l.comparison = l.accepts actual := by
  rw [accepts, ← Operator.fulfils_comparison, comparison]
  cases l.effective.comparison l.value <;> rfl

theorem clause_isEmpty {layout : Layout} {catalog : Catalog} {l : Leaf}
    (h : l.Ready layout catalog) (column : Column) : (l.clause column).isEmpty = false := by
  obtain ⟨⟨c, v⟩, hfits⟩ := h.fits
  rw [clause, hfits]
  rfl

theorem clause_holds {layout : Layout} {catalog : Catalog} {l : Leaf}
    (h : l.Ready layout catalog) (column : Column) (s : Scope) :
    (l.clause column).holds s = l.accepts (s.read column) := by
  obtain ⟨⟨c, v⟩, hfits⟩ := h.fits
  rw [clause, ← fulfils_comparison, hfits]
  rfl

/-- A leaf whose table is joined inwards does not accept null. -/
theorem accepts_null {l : Leaf} (h : l.joinKind false = .inner) : l.accepts .null = false := by
  refine Operator.accepts_null (fun heq => ?_) l.value
  rw [joinKind, heq] at h
  cases h

end Leaf

namespace Condition

mutual
/-- Whether a tree holds where `p` says which comparisons do. Groups without any comparison do not
count, and a tree of nothing else holds. -/
def holds (p : Leaf → Bool) : Condition → Bool
  | .leaf l => p l
  | .group .and parts => allHold p parts
  | .group .or parts => (partLeaves parts).isEmpty || someHold p parts
def allHold (p : Leaf → Bool) : List Condition → Bool
  | [] => true
  | c :: rest => (c.leaves.isEmpty || holds p c) && allHold p rest
def someHold (p : Leaf → Bool) : List Condition → Bool
  | [] => false
  | c :: rest => (!c.leaves.isEmpty && holds p c) || someHold p rest
end

mutual
/-- Only the comparisons in a tree count. -/
theorem holds_congr {p p' : Leaf → Bool} : ∀ {c : Condition}, (∀ l ∈ c.leaves, p l = p' l) →
    c.holds p = c.holds p'
  | .leaf l, h => by
    rw [holds, holds]
    exact h l (List.mem_singleton_self l)
  | .group .and parts, h => by
    rw [holds, holds]
    exact (partsHold_congr h).1
  | .group .or parts, h => by
    rw [holds, holds, (partsHold_congr h).2]
theorem partsHold_congr {p p' : Leaf → Bool} : ∀ {parts : List Condition},
    (∀ l ∈ partLeaves parts, p l = p' l) →
    allHold p parts = allHold p' parts ∧ someHold p parts = someHold p' parts
  | [], _ => ⟨rfl, rfl⟩
  | c :: rest, h => by
    have hc : c.holds p = c.holds p' := holds_congr fun l hl => h l (List.mem_append_left _ hl)
    obtain ⟨hall, hsome⟩ := partsHold_congr fun l hl => h l (List.mem_append_right _ hl)
    rw [allHold, allHold, someHold, someHold, hc, hall, hsome]
    exact ⟨rfl, rfl⟩
end

section Clause
variable {f : Leaf → Where}

mutual
theorem clause_isEmpty : ∀ {c : Condition}, (∀ l ∈ c.leaves, (f l).isEmpty = false) →
    (c.clause f).isEmpty = c.leaves.isEmpty
  | .leaf l, h => h l (List.mem_singleton_self l)
  | .group _ parts, h => by
    rw [clause, Where.isEmpty, leaves]
    exact partClauses_isEmpty h
theorem partClauses_isEmpty : ∀ {parts : List Condition},
    (∀ l ∈ partLeaves parts, (f l).isEmpty = false) →
    Where.areEmpty (partClauses f parts) = (partLeaves parts).isEmpty
  | [], _ => rfl
  | c :: rest, h => by
    have hc : (c.clause f).isEmpty = c.leaves.isEmpty :=
      clause_isEmpty fun l hl => h l (List.mem_append_left _ hl)
    have hrest : Where.areEmpty (partClauses f rest) = (partLeaves rest).isEmpty :=
      partClauses_isEmpty fun l hl => h l (List.mem_append_right _ hl)
    rw [partClauses, Where.areEmpty, partLeaves, hc, hrest]
    cases c.leaves <;> rfl
end

mutual
/-- The clause of a tree says what the tree says. -/
theorem clause_holds (s : Scope) : ∀ {c : Condition}, (∀ l ∈ c.leaves, (f l).isEmpty = false) →
    (c.clause f).holds s = c.holds fun l => (f l).holds s
  | .leaf l, _ => by rw [clause, holds]
  | .group .and parts, h => by
    rw [clause, Where.holds, holds]
    exact (partClauses_hold s h).1
  | .group .or parts, h => by
    rw [clause, Where.holds, holds, partClauses_isEmpty h]
    exact congrArg _ (partClauses_hold s h).2
theorem partClauses_hold (s : Scope) : ∀ {parts : List Condition},
    (∀ l ∈ partLeaves parts, (f l).isEmpty = false) →
    Where.allHold s (partClauses f parts) = allHold (fun l => (f l).holds s) parts ∧
      Where.someHold s (partClauses f parts) = someHold (fun l => (f l).holds s) parts
  | [], _ => ⟨rfl, rfl⟩
  | c :: rest, h => by
    have hleaves : ∀ l ∈ c.leaves, (f l).isEmpty = false :=
      fun l hl => h l (List.mem_append_left _ hl)
    have hc := clause_holds s hleaves
    have hempty := clause_isEmpty hleaves
    obtain ⟨hall, hsome⟩ := partClauses_hold s fun l hl => h l (List.mem_append_right _ hl)
    constructor
    · rw [partClauses, Where.allHold, allHold, hc, hempty, hall]
    · rw [partClauses, Where.someHold, someHold, hc, hempty, hsome]
end

end Clause

section Necessary
variable {l : Leaf}

mutual
/-- Below a disjunction everything is marked. -/
theorem not_mem_marked : ∀ {c : Condition}, (false, l) ∉ c.marked true
  | .leaf _ => by simp [marked]
  | .group _ parts => by
    rw [marked, Bool.true_or]
    exact not_mem_partsMarked
theorem not_mem_partsMarked : ∀ {parts : List Condition}, (false, l) ∉ partsMarked true parts
  | [] => by simp [partsMarked]
  | c :: rest => by
    rw [partsMarked, List.mem_append]
    rintro (h | h)
    · exact not_mem_marked h
    · exact not_mem_partsMarked h
end

theorem mem_leaves_of_mem_marked {b underOr : Bool} {c : Condition}
    (h : (b, l) ∈ c.marked underOr) : l ∈ c.leaves := by
  rw [← marked_leaves underOr c]
  exact List.mem_map.2 ⟨_, h, rfl⟩

mutual
/-- A comparison without a disjunction above it holds where the tree holds. -/
theorem holds_of_mem_marked {p : Leaf → Bool} : ∀ {c : Condition}, (false, l) ∈ c.marked false →
    c.holds p = true → p l = true
  | .leaf l', hl, h => by
    rw [marked, List.mem_singleton] at hl
    obtain ⟨-, rfl⟩ := Prod.mk.inj hl
    rwa [holds] at h
  | .group .or parts, hl, _ => by
    rw [marked] at hl
    exact absurd hl not_mem_partsMarked
  | .group .and parts, hl, h => by
    rw [marked] at hl
    rw [holds] at h
    exact holds_of_mem_partsMarked hl h
theorem holds_of_mem_partsMarked {p : Leaf → Bool} : ∀ {parts : List Condition},
    (false, l) ∈ partsMarked false parts → allHold p parts = true → p l = true
  | [], hl, _ => by simp [partsMarked] at hl
  | c :: rest, hl, h => by
    rw [allHold, Bool.and_eq_true, Bool.or_eq_true] at h
    rw [partsMarked, List.mem_append] at hl
    rcases hl with hl | hl
    · refine holds_of_mem_marked hl (h.1.resolve_left ?_)
      intro hempty
      have hmem := mem_leaves_of_mem_marked hl
      rw [List.isEmpty_iff.1 hempty] at hmem
      cases hmem
    · exact holds_of_mem_partsMarked hl h.2
end

end Necessary

end Condition
end EntitySelect
