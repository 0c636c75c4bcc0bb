import EntitySelect.Proofs.Condition.Truth

/-! Condition trees that differ only in the order of the conditions of their groups. They have the
same comparisons, each under the same groups, and hold for the same values. -/
namespace EntitySelect

namespace Condition

mutual
/-- The conditions of groups stand in another order, at any depth. -/
inductive Permuted : Condition → Condition → Prop
  | leaf (l : Leaf) : Permuted (.leaf l) (.leaf l)
  | group (c : Conjunction) {parts parts' : List Condition} (h : PermutedParts parts parts') :
    Permuted (.group c parts) (.group c parts')
inductive PermutedParts : List Condition → List Condition → Prop
  | nil : PermutedParts [] []
  | cons {c c' : Condition} {rest rest' : List Condition} (h : Permuted c c')
    (hrest : PermutedParts rest rest') : PermutedParts (c :: rest) (c' :: rest')
  | swap (c c' : Condition) (rest : List Condition) :
    PermutedParts (c :: c' :: rest) (c' :: c :: rest)
  | trans {parts mid parts' : List Condition} (h : PermutedParts parts mid)
    (h' : PermutedParts mid parts') : PermutedParts parts parts'
end

mutual
/-- The comparisons are the same, and so is what stands above each of them. -/
theorem Permuted.marked_perm : ∀ {c c' : Condition}, Permuted c c' → ∀ underOr,
    (c.marked underOr).Perm (c'.marked underOr)
  | _, _, .leaf _, _ => .refl _
  | _, _, .group _ h, underOr => by
    rw [marked, marked]
    exact h.partsMarked_perm _
theorem PermutedParts.partsMarked_perm : ∀ {parts parts' : List Condition},
    PermutedParts parts parts' → ∀ underOr,
      (partsMarked underOr parts).Perm (partsMarked underOr parts')
  | _, _, .nil, _ => .refl _
  | _, _, .cons h hrest, underOr => by
    rw [partsMarked, partsMarked]
    exact (h.marked_perm underOr).append (hrest.partsMarked_perm underOr)
  | _, _, .swap c c' rest, underOr => by
    simp only [partsMarked, ← List.append_assoc]
    exact List.perm_append_comm.append_right _
  | _, _, .trans h h', underOr => (h.partsMarked_perm underOr).trans (h'.partsMarked_perm underOr)
end

theorem Permuted.leaves_perm {c c' : Condition} (h : Permuted c c') : c.leaves.Perm c'.leaves := by
  rw [← marked_leaves false c, ← marked_leaves false c']
  exact (h.marked_perm false).map _

mutual
theorem Permuted.refl : ∀ c : Condition, Permuted c c
  | .leaf l => .leaf l
  | .group c parts => .group c (.refl parts)
theorem PermutedParts.refl : ∀ parts : List Condition, PermutedParts parts parts
  | [] => .nil
  | c :: rest => .cons (.refl c) (.refl rest)
end

/-- The conditions of a group can stand in any order. -/
theorem PermutedParts.of_perm {parts parts' : List Condition} (h : parts.Perm parts') :
    PermutedParts parts parts' := by
  induction h with
  | nil => exact .nil
  | cons c _ ih => exact .cons (.refl c) ih
  | swap c c' rest => exact .swap c' c rest
  | trans _ _ ih ih' => exact ih.trans ih'

theorem PermutedParts.partLeaves_perm {parts parts' : List Condition}
    (h : PermutedParts parts parts') : (partLeaves parts).Perm (partLeaves parts') :=
  (Permuted.group .and h).leaves_perm

section Holds
variable {p : Leaf → Bool}

mutual
/-- Conjunctions and disjunctions do not depend on the order of what they join. -/
theorem Permuted.holds_eq : ∀ {c c' : Condition}, Permuted c c' → c.holds p = c'.holds p
  | _, _, .leaf _ => rfl
  | _, _, .group .and h => by
    rw [holds, holds, h.partsHold_eq.1]
  | _, _, .group .or h => by
    rw [holds, holds, h.partsHold_eq.2, h.partLeaves_perm.isEmpty_eq]
theorem PermutedParts.partsHold_eq : ∀ {parts parts' : List Condition},
    PermutedParts parts parts' →
      allHold p parts = allHold p parts' ∧ someHold p parts = someHold p parts'
  | _, _, .nil => ⟨rfl, rfl⟩
  | _, _, .cons h hrest => by
    obtain ⟨hall, hsome⟩ := hrest.partsHold_eq
    rw [allHold, allHold, someHold, someHold, h.leaves_perm.isEmpty_eq, h.holds_eq, hall, hsome]
    exact ⟨rfl, rfl⟩
  | _, _, .swap c c' rest => by
    simp only [allHold, someHold]
    exact ⟨Bool.and_left_comm .., Bool.or_left_comm ..⟩
  | _, _, .trans h h' => by
    obtain ⟨hall, hsome⟩ := h.partsHold_eq
    obtain ⟨hall', hsome'⟩ := h'.partsHold_eq
    exact ⟨hall.trans hall', hsome.trans hsome'⟩
end

mutual
/-- Where no comparison stands under a disjunction, all of them have to hold. -/
theorem holds_eq_all : ∀ {c : Condition}, (∀ m ∈ c.marked false, m.1 = false) →
    c.holds p = c.leaves.all p
  | .leaf l, _ => by simp [holds, leaves]
  | .group .and parts, h => by
    rw [marked] at h
    rw [holds, leaves, allHold_eq_all h]
  | .group .or parts, h => by
    have hnone : partLeaves parts = [] := by
      rw [marked] at h
      rw [← partsMarked_leaves true, List.map_eq_nil_iff, List.eq_nil_iff_forall_not_mem]
      rintro ⟨underOr, l⟩ hm
      obtain rfl : underOr = false := h _ hm
      exact not_mem_partsMarked hm
    rw [holds, leaves, hnone]
    rfl
theorem allHold_eq_all : ∀ {parts : List Condition}, (∀ m ∈ partsMarked false parts, m.1 = false) →
    allHold p parts = (partLeaves parts).all p
  | [], _ => rfl
  | c :: rest, h => by
    rw [partsMarked, List.forall_mem_append] at h
    rw [allHold, partLeaves, List.all_append, holds_eq_all h.1, allHold_eq_all h.2]
    cases c.leaves <;> rfl
end

end Holds

end Condition
end EntitySelect
