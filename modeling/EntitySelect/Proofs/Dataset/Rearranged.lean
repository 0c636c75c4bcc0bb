import EntitySelect.Proofs.Dataset.Sorting
import Mathlib.Data.List.Pairwise

/-! Two ways of sorting the same elements. They agree if in both the same elements are overtaken by
the same; and if the elements come in blocks, it does not matter how they stand in their blocks. -/
namespace EntitySelect

section Rearranged
variable {α : Type} [BEq α] {l l₁ l₂ : List α} {overtakes overtakes' : α → α → Prop} {a b : α}

/-- One element stands before another in a rearranged list: it came first and is not overtaken, or
it overtakes the other. -/
def Ahead (l : List α) (overtakes : α → α → Prop) (a b : α) : Prop :=
  if l.idxOf a ≤ l.idxOf b then ¬overtakes b a else overtakes a b

theorem ahead_iff_of_lt (h : l.idxOf a < l.idxOf b) : Ahead l overtakes a b ↔ ¬overtakes b a :=
  iff_of_eq (if_pos (Nat.le_of_lt h))

theorem ahead_iff_of_gt (h : l.idxOf b < l.idxOf a) : Ahead l overtakes a b ↔ overtakes a b :=
  iff_of_eq (if_neg (Nat.not_le.2 h))

/-- Sorting rearranges: what is less overtakes. -/
theorem Before.ahead {cmp : α → α → Ordering} (hswap : ∀ a b, (cmp a b).swap = cmp b a)
    (h : Before cmp (fun a b => l.idxOf a ≤ l.idxOf b) a b) : Ahead l (cmp · · = .lt) a b := by
  unfold Ahead
  split
  · intro hlt
    have hle := h.isLE
    rw [← hswap, hlt] at hle
    cases hle
  · next hlast => exact h.resolve_right fun heq => hlast heq.2

variable [LawfulBEq α]

theorem pairwise_idxOf_lt (hl : l.Nodup) : l.Pairwise fun a b => l.idxOf a < l.idxOf b := by
  rw [List.pairwise_iff_getElem]
  intro i j hi hj hij
  rwa [hl.idxOf_getElem, hl.idxOf_getElem]

theorem idxOf_lt_or_gt (ha : a ∈ l) (hne : a ≠ b) : l.idxOf a < l.idxOf b ∨ l.idxOf b < l.idxOf a :=
  Nat.lt_or_gt_of_ne fun h => hne ((List.idxOf_inj ha).1 h)

theorem Ahead.eq_of_ahead (ha : a ∈ l) (h : Ahead l overtakes a b) (h' : Ahead l overtakes b a) :
    a = b := by
  by_contra hne
  rcases idxOf_lt_or_gt ha hne with hlt | hgt
  · exact (ahead_iff_of_lt hlt).1 h ((ahead_iff_of_gt hlt).1 h')
  · exact (ahead_iff_of_lt hgt).1 h' ((ahead_iff_of_gt hgt).1 h)

/-- Two ways of rearranging agree exactly if the same elements are overtaken by the same. -/
theorem rearranged_eq_iff (hl : l.Nodup) (h₁ : l₁.Perm l) (h₂ : l₂.Perm l)
    (hahead : l₁.Pairwise (Ahead l overtakes)) (hahead' : l₂.Pairwise (Ahead l overtakes')) :
    l₁ = l₂ ↔ l.Pairwise fun a b => overtakes b a ↔ overtakes' b a := by
  constructor
  · rintro rfl
    have hsymm : Std.Symm fun a b => Ahead l overtakes a b ∧ Ahead l overtakes' a b ∨
        Ahead l overtakes b a ∧ Ahead l overtakes' b a := ⟨fun _ _ h => h.symm⟩
    have hboth : l₁.Pairwise fun a b => Ahead l overtakes a b ∧ Ahead l overtakes' a b ∨
        Ahead l overtakes b a ∧ Ahead l overtakes' b a := (hahead.and hahead').imp Or.inl
    refine (pairwise_idxOf_lt hl).imp_of_mem fun {a b} ha hb hlt => ?_
    have hne : a ≠ b := fun h => Nat.ne_of_lt hlt (congrArg (l.idxOf ·) h)
    have h := hboth.forall (h₁.mem_iff.2 ha) (h₁.mem_iff.2 hb) hne
    rw [ahead_iff_of_lt hlt, ahead_iff_of_lt hlt, ahead_iff_of_gt hlt, ahead_iff_of_gt hlt] at h
    rcases h with ⟨hno, hno'⟩ | ⟨hyes, hyes'⟩
    · exact iff_of_false hno hno'
    · exact iff_of_true hyes hyes'
  · intro hsame
    have hiff {a b : α} (ha : a ∈ l) (hb : b ∈ l) (hlt : l.idxOf a < l.idxOf b) :
        overtakes b a ↔ overtakes' b a := by
      have h := List.pairwise_iff_getElem.1 hsame _ _ (List.idxOf_lt_length_of_mem ha)
        (List.idxOf_lt_length_of_mem hb) hlt
      rwa [List.getElem_idxOf, List.getElem_idxOf] at h
    have hahead₂ : l₂.Pairwise (Ahead l overtakes) := by
      refine (hahead'.and (h₂.nodup_iff.2 hl)).imp_of_mem fun {a b} ha hb h => ?_
      rw [h₂.mem_iff] at ha hb
      obtain ⟨h, hne⟩ := h
      rcases idxOf_lt_or_gt ha hne with hlt | hgt
      · exact (ahead_iff_of_lt hlt).2 (mt (hiff ha hb hlt).1 ((ahead_iff_of_lt hlt).1 h))
      · exact (ahead_iff_of_gt hgt).2 ((hiff hb ha hgt).2 ((ahead_iff_of_gt hgt).1 h))
    have hmap := map_eq_of_perm (f := id) (h₁.trans h₂.symm) hahead hahead₂
      fun a ha b _ h h' => h.eq_of_ahead (h₁.mem_iff.1 ha) h'
    rwa [List.map_id, List.map_id] at hmap

end Rearranged

section Placed
variable {ρ α γ : Type} {rows : List ρ} {f f' : ρ → List α}

/-- What comes from each thing, with the place of the thing. -/
def placed (rows : List ρ) (f : ρ → List α) : List (Nat × α) :=
  rows.zipIdx.flatMap fun e => (f e.1).map (e.2, ·)

theorem map_snd_placed (rows : List ρ) (f : ρ → List α) :
    (placed rows f).map (·.2) = rows.flatMap f := by
  have hfst : rows.zipIdx.map (·.1) = rows := List.zipIdx_map_fst ..
  rw [placed, List.map_flatMap]
  simp only [List.map_map, Function.comp_def, List.map_id']
  conv_rhs => rw [← hfst, List.flatMap_map]

theorem mem_placed {a : Nat × α} :
    a ∈ placed rows f ↔ ∃ b, rows[a.1]? = some b ∧ a.2 ∈ f b := by
  obtain ⟨i, a⟩ := a
  simp only [placed, List.mem_flatMap, List.mem_map, Prod.mk.injEq, Prod.exists,
    List.mem_zipIdx_iff_getElem?]
  constructor
  · rintro ⟨b, _, hb, a, ha, rfl, rfl⟩
    exact ⟨b, hb, ha⟩
  · rintro ⟨b, hb, ha⟩
    exact ⟨b, i, hb, a, ha, rfl, rfl⟩

theorem placed_perm (h : ∀ b ∈ rows, (f b).Perm (f' b)) :
    (placed rows f).Perm (placed rows f') :=
  List.Perm.flatMap_left _ fun e he => (h e.1 (List.fst_mem_of_mem_zipIdx he)).map _

theorem pairwise_placed (rows : List ρ) (f : ρ → List α) :
    (placed rows f).Pairwise fun a b => a.1 ≤ b.1 := by
  rw [placed, List.pairwise_flatMap]
  constructor
  · intro e _
    rw [List.pairwise_map]
    exact List.pairwise_of_forall fun _ _ => Nat.le_refl _
  · refine (pairwise_zipIdx rows).imp fun {e e'} hlt a ha a' ha' => ?_
    obtain ⟨_, -, rfl⟩ := List.mem_map.1 ha
    obtain ⟨_, -, rfl⟩ := List.mem_map.1 ha'
    exact Nat.le_of_lt hlt

/-- The order of what comes from one thing does not matter to what depends on the thing alone. -/
theorem map_sortWith_flatMap {cmp : α → α → Ordering} {p : α → Prop}
    (hswap : ∀ a b, (cmp a b).swap = cmp b a)
    (htrans : ∀ a b c, p a → p b → p c → (cmp a b).isLE → (cmp b c).isLE → (cmp a c).isLE)
    (hp : ∀ b ∈ rows, ∀ a ∈ f b, p a) (hperm : ∀ b ∈ rows, (f b).Perm (f' b)) {g : α → γ}
    {n : ρ → γ} (hg : ∀ b ∈ rows, ∀ a ∈ f b, g a = n b) :
    (sortWith cmp (rows.flatMap f)).map g = (sortWith cmp (rows.flatMap f')).map g := by
  have hplaced : ∀ a ∈ placed rows f, p a.2 := by
    intro a ha
    obtain ⟨b, hb, ha⟩ := mem_placed.1 ha
    exact hp b (List.mem_of_getElem? hb) a.2 ha
  have hplaced' : ∀ a ∈ placed rows f', p a.2 := fun a ha =>
    hplaced a ((placed_perm hperm).mem_iff.2 ha)
  have hsorted (f : ρ → List α) (hf : ∀ a ∈ placed rows f, p a.2) :
      (sortWith (fun a b : Nat × α => cmp a.2 b.2) (placed rows f)).Pairwise
        (Before (fun a b => cmp a.2 b.2) fun a b => a.1 ≤ b.1) :=
    pairwise_sortWith (fun a b => hswap a.2 b.2) (fun a b c => htrans a.2 b.2 c.2) hf
      (pairwise_placed rows f)
  rw [← map_snd_placed rows f, ← map_snd_placed rows f', sortWith_map, sortWith_map, List.map_map,
    List.map_map]
  refine map_eq_of_perm ?_ (hsorted f hplaced) (hsorted f' hplaced') fun a ha a' ha' haa' ha'a => ?_
  · exact (sortWith_perm _ _).trans ((placed_perm hperm).trans (sortWith_perm _ _).symm)
  · -- what is before and after the same is from the same place
    obtain ⟨hle, hge⟩ := haa'.of_before (fun a b => hswap a.2 b.2) ha'a
    have hplace : a.1 = a'.1 := Nat.le_antisymm hle hge
    obtain ⟨b, hb, ha⟩ := mem_placed.1 ((sortWith_perm _ _).mem_iff.1 ha)
    obtain ⟨b', hb', ha'⟩ := mem_placed.1 ((sortWith_perm _ _).mem_iff.1 ha')
    rw [← hplace, hb] at hb'
    obtain rfl := Option.some.inj hb'
    have hmem := List.mem_of_getElem? hb
    exact (hg b hmem a.2 ha).trans (hg b hmem a'.2 ha').symm

end Placed

/-- Elements that compare alike one by one are sorted alike. -/
theorem map_sortWith_of_forall₂ {α β γ : Type} {as : List α} {bs : List β} {r : α → β → Prop}
    {cmp : α → α → Ordering} {cmp' : β → β → Ordering} {f : α → γ} {g : β → γ}
    (h : List.Forall₂ r as bs)
    (hcmp : ∀ a b, r a b → ∀ a' b', r a' b' → cmp a a' = cmp' b b')
    (hfg : ∀ a b, r a b → f a = g b) :
    (sortWith cmp as).map f = (sortWith cmp' bs).map g := by
  obtain ⟨hlength, hzip⟩ := List.forall₂_iff_zip.1 h
  have hleft : (as.zip bs).map (·.1) = as := List.map_fst_zip (Nat.le_of_eq hlength)
  have hright : (as.zip bs).map (·.2) = bs := List.map_snd_zip (Nat.le_of_eq hlength.symm)
  have hsame : sortWith (fun e e' : α × β => cmp e.1 e'.1) (as.zip bs) =
      sortWith (fun e e' : α × β => cmp' e.2 e'.2) (as.zip bs) :=
    sortWith_congr fun e he e' he' => hcmp _ _ (hzip he) _ _ (hzip he')
  have hsorted : sortWith cmp as =
      (sortWith (fun e e' : α × β => cmp e.1 e'.1) (as.zip bs)).map (·.1) := by
    rw [← sortWith_map, hleft]
  have hsorted' : sortWith cmp' bs =
      (sortWith (fun e e' : α × β => cmp' e.2 e'.2) (as.zip bs)).map (·.2) := by
    rw [← sortWith_map, hright]
  rw [hsorted, hsorted', hsame, List.map_map, List.map_map]
  exact List.map_congr_left fun e he => hfg _ _ (hzip ((sortWith_perm _ _).mem_iff.1 he))
end EntitySelect
