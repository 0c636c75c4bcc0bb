import Mathlib.Data.List.Nodup
import Mathlib.Data.List.Induction

/-! Lists without their repetitions. Each element stays where it first occurs. -/
namespace EntitySelect

/-- Names that tell elements apart tell lists of them apart. -/
theorem map_eq_map_iff_of_inj {f : α → β} {l l' : List α}
    (hf : ∀ a ∈ l, ∀ b ∈ l', f a = f b → a = b) : l.map f = l'.map f ↔ l = l' := by
  refine ⟨fun h => ?_, congrArg _⟩
  have hlength := congrArg List.length h
  rw [List.length_map, List.length_map] at hlength
  refine List.ext_getElem hlength fun i hi hi' => ?_
  refine hf _ (List.getElem_mem hi) _ (List.getElem_mem hi') ?_
  have hget := List.getElem_of_eq h (by rwa [List.length_map])
  rwa [List.getElem_map, List.getElem_map] at hget

section Repeats
variable {α β : Type} [BEq β] [LawfulBEq β]

theorem eraseDups_concat (l : List β) (b : β) :
    (l ++ [b]).eraseDups = if b ∈ l then l.eraseDups else l.eraseDups ++ [b] := by
  rw [List.eraseDups_append, List.removeAll]
  by_cases hb : b ∈ l
  · simp [hb]
  · simp [hb, List.eraseDups_cons]

theorem nodup_eraseDups (l : List β) : l.eraseDups.Nodup := by
  induction l using List.reverseRecOn with
  | nil => exact List.nodup_nil
  | append_singleton l b ih =>
    rw [eraseDups_concat]
    split
    · exact ih
    · next hnew =>
      refine List.nodup_append.2 ⟨ih, List.nodup_singleton b, ?_⟩
      intro a ha c hc hac
      rw [hac, List.mem_singleton.1 hc] at ha
      exact hnew (List.mem_eraseDups.1 ha)

/-- What occurs first before something else does so by an element that stands before all that the
other occurs by. -/
theorem pairwise_eraseDups {r : α → α → Prop} (f : α → β) {l : List α} (h : l.Pairwise r) :
    (l.map f).eraseDups.Pairwise fun x y => ∃ a ∈ l, f a = x ∧ ∀ b ∈ l, f b = y → r a b := by
  induction l using List.reverseRecOn with
  | nil => exact .nil
  | append_singleton l c ih =>
    obtain ⟨hl, -, hlast⟩ := List.pairwise_append.1 h
    have hold : (l.map f).eraseDups.Pairwise fun x y =>
        ∃ a ∈ l ++ [c], f a = x ∧ ∀ b ∈ l ++ [c], f b = y → r a b := by
      refine (ih hl).imp ?_
      rintro x y ⟨a, ha, hax, hall⟩
      refine ⟨a, List.mem_append_left _ ha, hax, fun b hb hby => ?_⟩
      rcases List.mem_append.1 hb with hb | hb
      · exact hall b hb hby
      · exact hlast a ha b hb
    rw [List.map_append, List.map_singleton, eraseDups_concat]
    split
    · exact hold
    · next hnew =>
      refine List.pairwise_append.2 ⟨hold, List.pairwise_singleton .., ?_⟩
      intro x hx y hy
      obtain ⟨a, ha, rfl⟩ := List.mem_map.1 (List.mem_eraseDups.1 hx)
      refine ⟨a, List.mem_append_left _ ha, rfl, fun b hb hby => ?_⟩
      rcases List.mem_append.1 hb with hb | hb
      · rw [List.mem_singleton.1 hy] at hby
        exact absurd (List.mem_map.2 ⟨b, hb, hby⟩) hnew
      · exact hlast a ha b hb

/-- Names that tell elements apart are repeated where the elements are. -/
theorem eraseDups_map [BEq α] [LawfulBEq α] {f : α → β} {l : List α}
    (hf : ∀ a ∈ l, ∀ b ∈ l, f a = f b → a = b) : (l.map f).eraseDups = l.eraseDups.map f := by
  induction l using List.reverseRecOn with
  | nil => rfl
  | append_singleton l b ih =>
    have hl := ih fun a ha c hc =>
      hf a (List.mem_append_left _ ha) c (List.mem_append_left _ hc)
    have hmem : f b ∈ l.map f ↔ b ∈ l := by
      rw [List.mem_map]
      constructor
      · rintro ⟨a, ha, heq⟩
        rwa [← hf a (List.mem_append_left _ ha) b (by simp) heq]
      · exact fun hb => ⟨b, hb, rfl⟩
    rw [List.map_append, List.map_singleton, eraseDups_concat, eraseDups_concat, hl]
    simp only [hmem]
    split
    · rfl
    · rw [List.map_append, List.map_singleton]

end Repeats

end EntitySelect
