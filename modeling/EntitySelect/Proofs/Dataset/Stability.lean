import EntitySelect.Proofs.Dataset.Sorting

/-! Sorting keeps the order of what ties. With the order of all else that leaves one list only, so
nothing more is to be said of what sorting gives. -/
namespace EntitySelect

section Ties
variable {α : Type} {cmp : α → α → Ordering} [Std.OrientedCmp cmp] {p : α → Prop}
  {l l' : List α} {a b c : α}

/-- What is in order, with the ties of each element as they are given, is so in one way only. -/
theorem eq_of_filter_eq (hperm : l'.Perm l) (hl : l.Pairwise fun a b => (cmp a b).isLE)
    (hl' : l'.Pairwise fun a b => (cmp a b).isLE)
    (h : ∀ a ∈ l, l'.filter (cmp a · = .eq) = l.filter (cmp a · = .eq)) : l' = l := by
  induction l generalizing l' with
  | nil => exact hperm.eq_nil
  | cons a l ih =>
    cases l' with
    | nil => exact hperm.nil_eq
    | cons b l' =>
      obtain ⟨ha, hrest⟩ := List.pairwise_cons.1 hl
      obtain ⟨hb, hrest'⟩ := List.pairwise_cons.1 hl'
      have hself : cmp a a = .eq := Std.ReflCmp.compare_self
      -- the first elements tie, so each is the first of the ties of one of them
      have htie : cmp a b = .eq := by
        rcases List.mem_cons.1 (hperm.mem_iff.1 List.mem_cons_self) with rfl | hmem
        · exact hself
        · rcases List.mem_cons.1 (hperm.mem_iff.2 List.mem_cons_self) with rfl | hmem'
          · exact hself
          · exact Std.OrientedCmp.isLE_antisymm (ha b hmem) (hb a hmem')
      have hties := h a List.mem_cons_self
      simp only [List.filter_cons, hself, htie, decide_true, if_true] at hties
      obtain ⟨rfl, -⟩ := List.cons.inj hties
      have hrests : ∀ c ∈ l, l'.filter (cmp c · = .eq) = l.filter (cmp c · = .eq) := by
        intro c hc
        have hties := h c (List.mem_cons_of_mem _ hc)
        simp only [List.filter_cons] at hties
        split at hties
        · exact (List.cons.inj hties).2
        · exact hties
      rw [ih hperm.cons_inv hrest hrest' hrests]

section Transitive
variable (htrans : ∀ a b c, p a → p b → p c → (cmp a b).isLE → (cmp b c).isLE → (cmp a c).isLE)
include htrans

theorem tie_of_tie (ha : p a) (hb : p b) (hc : p c) (hab : cmp a b = .eq) (hac : cmp a c = .eq) :
    cmp b c = .eq := by
  have hba := Std.OrientedCmp.eq_symm hab
  have hca := Std.OrientedCmp.eq_symm hac
  exact Std.OrientedCmp.isLE_antisymm
    (htrans b a c hb ha hc (Ordering.isLE_of_eq_eq hba) (Ordering.isLE_of_eq_eq hac))
    (htrans c a b hc ha hb (Ordering.isLE_of_eq_eq hca) (Ordering.isLE_of_eq_eq hab))

/-- What ties with one element ties with each other. -/
theorem pairwise_filter_tie (hp : ∀ a ∈ l, p a) (ha : p a) :
    (l.filter (cmp a · = .eq)).Pairwise (cmp · · = .eq) := by
  refine List.pairwise_of_forall_mem_list fun b hb c hc => ?_
  obtain ⟨hb, hab⟩ := List.mem_filter.1 hb
  obtain ⟨hc, hac⟩ := List.mem_filter.1 hc
  exact tie_of_tie htrans ha (hp b hb) (hp c hc) (of_decide_eq_true hab) (of_decide_eq_true hac)

/-- What ties with an element stands after sorting as it stood. -/
theorem filter_sortWith (hp : ∀ a ∈ l, p a) (ha : p a) :
    (sortWith cmp l).filter (cmp a · = .eq) = l.filter (cmp a · = .eq) := by
  -- sorted with their places, elements that tie stand in the order of the places
  let cmp' (b c : α × Nat) : Ordering := cmp b.1 c.1
  have hswap (b c : α) : cmp b c = (cmp c b).swap := Std.OrientedCmp.eq_swap
  have horiented : Std.OrientedCmp cmp' := ⟨hswap ..⟩
  have htrans' (b c d : α × Nat) := htrans b.1 c.1 d.1
  have hpairs : ∀ b ∈ l.zipIdx, p b.1 := fun b hb => hp b.1 (List.fst_mem_of_mem_zipIdx hb)
  have hperm : (sortWith cmp' l.zipIdx).Perm l.zipIdx := sortWith_perm _ _
  have hbefore : (sortWith cmp' l.zipIdx).Pairwise (Before cmp' fun b c => b.2 < c.2) :=
    pairwise_sortWith (fun _ _ => Std.OrientedCmp.eq_swap.symm) htrans' hpairs (pairwise_zipIdx l)
  have hties : ((sortWith cmp' l.zipIdx).filter (cmp a ·.1 = .eq)).Pairwise (cmp' · · = .eq) :=
    pairwise_filter_tie (a := (a, 0)) htrans' (fun b hb => hpairs b (hperm.mem_iff.1 hb)) ha
  have hplaces : ((sortWith cmp' l.zipIdx).filter (cmp a ·.1 = .eq)).Pairwise
      fun b c => b.2 < c.2 := by
    refine ((hbefore.filter _).and hties).imp fun {b c} ⟨hbefore, htie⟩ => ?_
    refine (hbefore.resolve_left fun hlt => ?_).2
    cases htie.symm.trans hlt
  have hfilter : (sortWith cmp' l.zipIdx).filter (cmp a ·.1 = .eq) =
      l.zipIdx.filter (cmp a ·.1 = .eq) :=
    List.Perm.eq_of_pairwise (fun b c _ _ hbc hcb => absurd hbc (Nat.lt_asymm hcb)) hplaces
      ((pairwise_zipIdx l).filter _) (hperm.filter _)
  have hfst : l.zipIdx.map Prod.fst = l := List.zipIdx_map_fst ..
  calc
    (sortWith cmp l).filter (cmp a · = .eq)
    _ = ((sortWith cmp' l.zipIdx).map Prod.fst).filter (cmp a · = .eq) := by
      rw [← sortWith_map, hfst]
    _ = ((sortWith cmp' l.zipIdx).filter (cmp a ·.1 = .eq)).map Prod.fst := List.filter_map
    _ = (l.zipIdx.filter (cmp a ·.1 = .eq)).map Prod.fst := by rw [hfilter]
    _ = (l.zipIdx.map Prod.fst).filter (cmp a · = .eq) := by
      rw [List.filter_map]
      rfl
    _ = l.filter (cmp a · = .eq) := by rw [hfst]

/-- The ties of each element stand as they stood exactly if all that tie with each other do. -/
theorem forall_tied_sublist_iff (hp : ∀ a ∈ l, p a) (hperm : l'.Perm l) :
    (∀ tied : List α, tied.Sublist l → tied.Pairwise (cmp · · = .eq) → tied.Sublist l') ↔
      ∀ a ∈ l, l'.filter (cmp a · = .eq) = l.filter (cmp a · = .eq) := by
  constructor
  · intro h a ha
    have hsub := (h _ List.filter_sublist (pairwise_filter_tie htrans hp (hp a ha))).filter
      (cmp a · = .eq)
    simp only [List.filter_filter, Bool.and_self] at hsub
    exact (hsub.eq_of_length (hperm.filter _).length_eq.symm).symm
  · intro h tied hsub hties
    cases tied with
    | nil => exact List.nil_sublist _
    | cons a rest =>
      have hself : ∀ b ∈ a :: rest, decide (cmp a b = .eq) = true :=
        List.forall_mem_cons.2 ⟨decide_eq_true Std.ReflCmp.compare_self,
          fun b hb => decide_eq_true (List.rel_of_pairwise_cons hties hb)⟩
      have hfilter := hsub.filter (cmp a · = .eq)
      rw [List.filter_eq_self.2 hself, ← h a (hsub.subset List.mem_cons_self)] at hfilter
      exact hfilter.trans List.filter_sublist

/-- Sorting gives the one list that is in order and keeps the order of what ties. -/
theorem eq_sortWith_iff (hp : ∀ a ∈ l, p a) : l' = sortWith cmp l ↔
    l'.Perm l ∧ (l'.Pairwise fun a b => (cmp a b).isLE) ∧
      ∀ tied : List α, tied.Sublist l → tied.Pairwise (cmp · · = .eq) → tied.Sublist l' := by
  have hperm := sortWith_perm cmp l
  have hsorted : (sortWith cmp l).Pairwise fun a b => (cmp a b).isLE :=
    (pairwise_sortWith (r := fun _ _ => True) (fun _ _ => Std.OrientedCmp.eq_swap.symm) htrans hp
      (List.pairwise_of_forall fun _ _ => trivial)).imp Before.isLE
  constructor
  · rintro rfl
    refine ⟨hperm, hsorted, (forall_tied_sublist_iff htrans hp hperm).2 fun a ha => ?_⟩
    exact filter_sortWith htrans hp (hp a ha)
  · rintro ⟨hperm', hsorted', hstable⟩
    refine eq_of_filter_eq (hperm'.trans hperm.symm) hsorted hsorted' fun a ha => ?_
    have hmem := hperm.mem_iff.1 ha
    rw [filter_sortWith htrans hp (hp a hmem)]
    exact (forall_tied_sublist_iff htrans hp hperm').1 hstable a hmem

end Transitive
end Ties

end EntitySelect
