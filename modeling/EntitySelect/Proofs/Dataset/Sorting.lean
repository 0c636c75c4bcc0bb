import EntitySelect.Proofs.Dataset.Order
import Mathlib.Data.List.Perm.Basic

/-! Sorting is stable. What is sorted stands in order, and what no key tells apart stands as it
stood before. Nothing but comparisons counts, so rows are sorted as the things that they are made
of. -/
namespace EntitySelect

section Lists
variable {α β : Type} {cmp cmp' : α → α → Ordering} {r : α → α → Prop} {l l' : List α}

/-- Puts an element into elements that are ordered backwards, before those that it is not less
than. -/
def placeWith (cmp : α → α → Ordering) (a : α) : List α → List α
  | [] => [a]
  | b :: rest => if cmp a b = .lt then b :: placeWith cmp a rest else a :: b :: rest

/-- Sorts the way rows are sorted. -/
def sortWith (cmp : α → α → Ordering) (l : List α) : List α :=
  (l.foldl (fun sorted a => placeWith cmp a sorted) []).reverse

/-- Rows are sorted by their keys. -/
theorem sortRows_eq (ds : List Direction) (rows : List KeyedRow) :
    sortRows ds rows = sortWith (fun r s => orderKeys ds r.keys s.keys) rows := by
  have hplace (r : KeyedRow) (sorted : List KeyedRow) :
      placeRow ds r sorted = placeWith (fun r s => orderKeys ds r.keys s.keys) r sorted := by
    induction sorted with
    | nil => rfl
    | cons s rest ih => rw [placeRow, placeWith, ih]
  simp only [sortRows, sortWith, hplace]

theorem placeWith_map (f : α → β) (cmp : β → β → Ordering) (a : α) (l : List α) :
    placeWith cmp (f a) (l.map f) = (placeWith (fun a b => cmp (f a) (f b)) a l).map f := by
  induction l with
  | nil => rfl
  | cons b rest ih =>
    rw [List.map_cons, placeWith, placeWith]
    split
    · rw [List.map_cons, ih]
    · rfl

/-- What is made of other things is sorted as they are. -/
theorem sortWith_map (f : α → β) (cmp : β → β → Ordering) (l : List α) :
    sortWith cmp (l.map f) = (sortWith (fun a b => cmp (f a) (f b)) l).map f := by
  have h (sorted : List α) :
      (l.map f).foldl (fun sorted b => placeWith cmp b sorted) (sorted.map f) =
        (l.foldl (fun sorted a => placeWith (fun a b => cmp (f a) (f b)) a sorted) sorted).map
          f := by
    induction l generalizing sorted with
    | nil => rfl
    | cons a rest ih => rw [List.map_cons, List.foldl_cons, placeWith_map, ih, List.foldl_cons]
  rw [sortWith, sortWith, List.map_reverse, ← h []]
  rfl

theorem placeWith_perm (cmp : α → α → Ordering) (a : α) (l : List α) :
    (placeWith cmp a l).Perm (a :: l) := by
  induction l with
  | nil => exact .refl _
  | cons b rest ih =>
    rw [placeWith]
    split
    · exact (ih.cons b).trans (.swap ..)
    · exact .refl _

theorem foldl_placeWith_perm (cmp : α → α → Ordering) (l sorted : List α) :
    (l.foldl (fun sorted a => placeWith cmp a sorted) sorted).Perm (sorted ++ l) := by
  induction l generalizing sorted with
  | nil => rw [List.foldl_nil, List.append_nil]
  | cons a rest ih =>
    rw [List.foldl_cons]
    exact (ih _).trans (((placeWith_perm cmp a sorted).append_right rest).trans
      List.perm_middle.symm)

theorem sortWith_perm (cmp : α → α → Ordering) (l : List α) : (sortWith cmp l).Perm l :=
  (List.reverse_perm _).trans (foldl_placeWith_perm cmp l [])

theorem placeWith_congr {a : α} (h : ∀ b ∈ l, cmp a b = cmp' a b) :
    placeWith cmp a l = placeWith cmp' a l := by
  induction l with
  | nil => rfl
  | cons b rest ih =>
    rw [placeWith, placeWith, h b List.mem_cons_self,
      ih fun c hc => h c (List.mem_cons_of_mem _ hc)]

/-- Only how the elements compare with each other counts. -/
theorem sortWith_congr (h : ∀ a ∈ l, ∀ b ∈ l, cmp a b = cmp' a b) :
    sortWith cmp l = sortWith cmp' l := by
  have hfold (sorted : List α) (hs : ∀ a ∈ l, ∀ b ∈ sorted ++ l, cmp a b = cmp' a b) :
      l.foldl (fun sorted a => placeWith cmp a sorted) sorted =
        l.foldl (fun sorted a => placeWith cmp' a sorted) sorted := by
    clear h
    induction l generalizing sorted with
    | nil => rfl
    | cons a rest ih =>
      have hplace : placeWith cmp a sorted = placeWith cmp' a sorted :=
        placeWith_congr fun b hb => hs a List.mem_cons_self b (List.mem_append_left _ hb)
      rw [List.foldl_cons, List.foldl_cons, ← hplace]
      apply ih
      intro c hc b hb
      refine hs c (List.mem_cons_of_mem _ hc) b ?_
      rcases List.mem_append.1 hb with hb | hb
      · rcases List.mem_cons.1 ((placeWith_perm cmp a sorted).mem_iff.1 hb) with rfl | hb
        · exact List.mem_append_right _ List.mem_cons_self
        · exact List.mem_append_left _ hb
      · exact List.mem_append_right _ (List.mem_cons_of_mem _ hb)
  rw [sortWith, sortWith, hfold [] h]

/-- Elements are numbered in their order. -/
theorem pairwise_zipIdx (l : List α) : l.zipIdx.Pairwise fun a b => a.2 < b.2 := by
  have hrange : (l.zipIdx.map (·.2)).Pairwise (· < ·) := by
    rw [List.zipIdx_map_snd]
    exact List.pairwise_lt_range'
  exact List.pairwise_map.1 hrange

/-- One comes before the other: it is less, or it is not greater and came first. -/
def Before (cmp : α → α → Ordering) (r : α → α → Prop) (a b : α) : Prop :=
  cmp a b = .lt ∨ cmp a b = .eq ∧ r a b

theorem Before.isLE {a b : α} (h : Before cmp r a b) : (cmp a b).isLE := by
  rcases h with h | ⟨h, -⟩
  · rw [h]
    rfl
  · rw [h]
    rfl

theorem Before.of_isLE {a b : α} (h : (cmp a b).isLE) (hr : r a b) : Before cmp r a b := by
  cases hcmp : cmp a b with
  | lt => exact .inl hcmp
  | eq => exact .inr ⟨hcmp, hr⟩
  | gt =>
    rw [hcmp] at h
    cases h

/-- What comes before and after the same is told apart by nothing. -/
theorem Before.of_before (hswap : ∀ a b, (cmp a b).swap = cmp b a) {a b : α}
    (h : Before cmp r a b) (h' : Before cmp r b a) : r a b ∧ r b a := by
  rcases h with hlt | ⟨heq, hr⟩
  · have hle := h'.isLE
    rw [← hswap, hlt] at hle
    cases hle
  · refine ⟨hr, (h'.resolve_left fun hlt => ?_).2⟩
    rw [← hswap, heq] at hlt
    cases hlt

section Stable
variable {p : α → Prop} (hswap : ∀ a b, (cmp a b).swap = cmp b a)
  (htrans : ∀ a b c, p a → p b → p c → (cmp a b).isLE → (cmp b c).isLE → (cmp a c).isLE)
include hswap htrans

/-- The last element is put behind all that are not greater. -/
theorem pairwise_placeWith {a : α} (ha : p a) (hp : ∀ b ∈ l, p b)
    (hl : l.Pairwise fun b c => Before cmp r c b) (hr : ∀ b ∈ l, r b a) :
    (placeWith cmp a l).Pairwise fun b c => Before cmp r c b := by
  induction l with
  | nil => exact List.pairwise_singleton ..
  | cons b rest ih =>
    obtain ⟨hb, hrest⟩ := List.pairwise_cons.1 hl
    obtain ⟨hpb, hprest⟩ := List.forall_mem_cons.1 hp
    obtain ⟨hrb, hrrest⟩ := List.forall_mem_cons.1 hr
    rw [placeWith]
    split
    · next hlt =>
      refine List.pairwise_cons.2 ⟨?_, ih hprest hrest hrrest⟩
      intro c hc
      rcases List.mem_cons.1 ((placeWith_perm cmp a rest).mem_iff.1 hc) with rfl | hc
      · exact .inl hlt
      · exact hb c hc
    · next hge =>
      have hle : (cmp b a).isLE := by
        rw [← hswap a b]
        cases hab : cmp a b with
        | lt => exact absurd hab hge
        | eq => rfl
        | gt => rfl
      refine List.pairwise_cons.2 ⟨?_, hl⟩
      intro c hc
      rcases List.mem_cons.1 hc with rfl | hc
      · exact .of_isLE hle hrb
      · exact .of_isLE (htrans c b a (hprest c hc) hpb ha (hb c hc).isLE hle) (hrrest c hc)

/-- Sorted elements stand in order, and where they compare as equal as they stood before. -/
theorem pairwise_sortWith (hp : ∀ a ∈ l, p a) (hl : l.Pairwise r) :
    (sortWith cmp l).Pairwise (Before cmp r) := by
  have hfold (sorted : List α) (hps : ∀ a ∈ sorted, p a)
      (hsorted : sorted.Pairwise fun b c => Before cmp r c b)
      (hr : ∀ b ∈ sorted, ∀ a ∈ l, r b a) :
      (l.foldl (fun sorted a => placeWith cmp a sorted) sorted).Pairwise
        fun b c => Before cmp r c b := by
    induction l generalizing sorted with
    | nil => exact hsorted
    | cons a rest ih =>
      obtain ⟨hpa, hprest⟩ := List.forall_mem_cons.1 hp
      obtain ⟨hra, hlrest⟩ := List.pairwise_cons.1 hl
      rw [List.foldl_cons]
      refine ih hprest hlrest _ ?_ ?_ ?_
      · intro b hb
        rcases List.mem_cons.1 ((placeWith_perm cmp a sorted).mem_iff.1 hb) with rfl | hb
        · exact hpa
        · exact hps b hb
      · exact pairwise_placeWith hswap htrans hpa hps hsorted
          fun b hb => hr b hb a List.mem_cons_self
      · intro b hb c hc
        rcases List.mem_cons.1 ((placeWith_perm cmp a sorted).mem_iff.1 hb) with rfl | hb
        · exact hra c hc
        · exact hr b hb c (List.mem_cons_of_mem _ hc)
  rw [sortWith, List.pairwise_reverse]
  exact hfold [] nofun .nil nofun

end Stable

/-- What stands in order stands in one way only, as far as order tells apart. -/
theorem map_eq_of_perm {f : α → β} (hperm : l.Perm l') (hl : l.Pairwise r) (hl' : l'.Pairwise r)
    (hf : ∀ a ∈ l, ∀ b ∈ l, r a b → r b a → f a = f b) : l.map f = l'.map f := by
  induction l generalizing l' with
  | nil => rw [hperm.nil_eq]
  | cons a rest ih =>
    obtain ⟨ha, hrest⟩ := List.pairwise_cons.1 hl
    obtain ⟨u, v, rfl⟩ := List.append_of_mem (hperm.mem_iff.1 List.mem_cons_self)
    obtain ⟨hu, hv, huv⟩ := List.pairwise_append.1 hl'
    have hrestperm : rest.Perm (u ++ v) := (hperm.trans List.perm_middle).cons_inv
    have hfront : ∀ b ∈ u, f b = f a := by
      intro b hb
      have hmem : b ∈ rest := hrestperm.mem_iff.2 (List.mem_append_left _ hb)
      exact hf b (List.mem_cons_of_mem _ hmem) a List.mem_cons_self
        (huv b hb a List.mem_cons_self) (ha b hmem)
    have htail := ih hrestperm hrest (hl'.sublist ((List.sublist_cons_self a v).append_left u))
      fun b hb c hc => hf b (List.mem_cons_of_mem _ hb) c (List.mem_cons_of_mem _ hc)
    rw [List.map_cons, htail, List.map_append, List.map_append, List.map_cons,
      List.map_eq_replicate_iff.2 hfront, ← List.cons_append, ← List.replicate_succ,
      List.replicate_succ', List.append_assoc]
    rfl

end Lists

end EntitySelect
