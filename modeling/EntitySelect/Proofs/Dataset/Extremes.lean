import EntitySelect.Dataset.Evaluation
import EntitySelect.Proofs.Dataset.Order

/-! The least and the greatest of several values. Which of several equal values is taken depends on
their order, but nothing else does. -/
namespace EntitySelect

/-- Of values two of which are compared at a time the kept one is the extreme one. -/
theorem foldl_keep {α : Type} {keep : α → α → α} {le : α → α → Prop} {p : α → Prop}
    (hrefl : ∀ a, le a a) (htrans : ∀ a b c, p a → p b → p c → le a b → le b c → le a c)
    (hkeep : ∀ a b, (keep a b = a ∨ keep a b = b) ∧ le (keep a b) a ∧ le (keep a b) b)
    {a : α} {l : List α} (h : ∀ v ∈ a :: l, p v) :
    l.foldl keep a ∈ a :: l ∧ ∀ v ∈ a :: l, le (l.foldl keep a) v := by
  induction l generalizing a with
  | nil =>
    refine ⟨List.mem_singleton_self a, fun v hv => ?_⟩
    rw [List.mem_singleton.1 hv]
    exact hrefl a
  | cons b rest ih =>
    obtain ⟨ha, hbrest⟩ := List.forall_mem_cons.1 h
    obtain ⟨hb, hrest⟩ := List.forall_mem_cons.1 hbrest
    obtain ⟨heither, hlea, hleb⟩ := hkeep a b
    have hm : p (keep a b) := by
      rcases heither with heq | heq
      · rwa [heq]
      · rwa [heq]
    obtain ⟨hmem, hall⟩ := ih (List.forall_mem_cons.2 ⟨hm, hrest⟩)
    obtain ⟨hfirst, hothers⟩ := List.forall_mem_cons.1 hall
    have hout := (List.forall_mem_cons.2 ⟨hm, hrest⟩) _ hmem
    rw [List.foldl_cons]
    constructor
    · rcases List.mem_cons.1 hmem with heq | hmem
      · rw [heq]
        rcases heither with heq | heq
        · rw [heq]
          exact List.mem_cons_self
        · rw [heq]
          exact List.mem_cons_of_mem _ List.mem_cons_self
      · exact List.mem_cons_of_mem _ (List.mem_cons_of_mem _ hmem)
    · refine List.forall_mem_cons.2 ⟨htrans _ _ _ hout hm ha hfirst hlea, ?_⟩
      exact List.forall_mem_cons.2 ⟨htrans _ _ _ hout hm hb hfirst hleb, hothers⟩

namespace Aggregate

/-- One value is at least as extreme as another. -/
def Favors : Aggregate → Json → Json → Prop
  | .min, a, b => (a.order b).isLE
  | .max, a, b => (b.order a).isLE

theorem favors_self (f : Aggregate) (a : Json) : f.Favors a a := by
  cases f <;> simp [Favors, Json.order_self]

theorem Favors.trans {f : Aggregate} {p : Json → Prop} (hp : Json.Consistent p) (a b c : Json)
    (ha : p a) (hb : p b) (hc : p c) (hab : f.Favors a b) (hbc : f.Favors b c) : f.Favors a c := by
  cases f with
  | min => exact hp a b c ha hb hc hab hbc
  | max => exact hp c b a hc hb ha hbc hab

/-- The extreme value of those that are not null, or null if there is none. -/
def pick (f : Aggregate) (values : List Json) : Json :=
  match values.filter (!·.isNull) with
  | [] => .null
  | v :: rest =>
    match f with
    | .min => Group.leastOf v rest
    | .max => Group.greatestOf v rest

theorem aggregate_eq (g : Group) (f : Aggregate) (column : Column) :
    g.aggregate f column = f.pick (g.scopes.map (·.read column)) := by
  cases f <;> rfl

/-- Of one value there is nothing to pick. -/
theorem pick_singleton (f : Aggregate) (v : Json) : f.pick [v] = v := by
  cases v <;> cases f <;> rfl

theorem leastOf_eq_foldl (v : Json) (rest : List Json) : Group.leastOf v rest =
    rest.foldl (fun least v => if least.order v = .gt then v else least) v := by
  induction rest generalizing v with
  | nil => rfl
  | cons w rest ih => rw [Group.leastOf, ih, List.foldl_cons]

theorem greatestOf_eq_foldl (v : Json) (rest : List Json) : Group.greatestOf v rest =
    rest.foldl (fun greatest v => if greatest.order v = .gt then greatest else v) v := by
  induction rest generalizing v with
  | nil => rfl
  | cons w rest ih => rw [Group.greatestOf, ih, List.foldl_cons]

variable {f : Aggregate} {p : Json → Prop} {values values' : List Json}

/-- The picked value is one of the values, and none is more extreme. -/
theorem pick_spec (hp : Json.Consistent p) (h : ∀ v ∈ values, p v)
    (hsome : values.filter (!·.isNull) ≠ []) : f.pick values ∈ values.filter (!·.isNull) ∧
      ∀ v ∈ values.filter (!·.isNull), f.Favors (f.pick values) v := by
  have hshown : ∀ v ∈ values.filter (!·.isNull), p v := fun v hv => h v (List.mem_filter.1 hv).1
  unfold pick
  cases hvalues : values.filter (!·.isNull) with
  | nil => exact absurd hvalues hsome
  | cons v rest =>
    rw [hvalues] at hshown
    cases f with
    | min =>
      simp only [leastOf_eq_foldl]
      refine foldl_keep (favors_self .min) (Favors.trans hp) (fun a b => ?_) hshown
      split
      · next hgt => exact ⟨.inr rfl, Json.isLE_of_gt hgt, favors_self .min b⟩
      · next hle => exact ⟨.inl rfl, favors_self .min a, Json.isLE_of_not_gt hle⟩
    | max =>
      simp only [greatestOf_eq_foldl]
      refine foldl_keep (favors_self .max) (Favors.trans hp) (fun a b => ?_) hshown
      split
      · next hgt => exact ⟨.inl rfl, favors_self .max a, Json.isLE_of_gt hgt⟩
      · next hle => exact ⟨.inr rfl, Json.isLE_of_not_gt hle, favors_self .max b⟩

/-- Picking from several values gives one of them. -/
theorem pick_mem (hp : Json.Consistent p) (h : ∀ v ∈ values, p v) (hne : values ≠ []) :
    f.pick values ∈ values := by
  by_cases hsome : values.filter (!·.isNull) = []
  · have hnull : f.pick values = .null := by rw [pick, hsome]
    obtain ⟨v, hv⟩ := List.exists_mem_of_ne_nil _ hne
    have hvnull := List.filter_eq_nil_iff.1 hsome v hv
    cases v with
    | null => rwa [hnull]
    | _ => exact absurd rfl hvnull
  · exact (List.mem_filter.1 (pick_spec hp h hsome).1).1

/-- The order of the values does not matter. -/
theorem pick_perm (hp : Json.Consistent p) (h : ∀ v ∈ values, p v) (hperm : values.Perm values') :
    (f.pick values).order (f.pick values') = .eq := by
  have h' : ∀ v ∈ values', p v := fun v hv => h v (hperm.mem_iff.2 hv)
  have hshown := hperm.filter (!·.isNull)
  by_cases hsome : values.filter (!·.isNull) = []
  · have hsome' : values'.filter (!·.isNull) = [] := by
      rw [hsome] at hshown
      exact hshown.nil_eq.symm
    rw [pick, pick, hsome, hsome']
    rfl
  · have hsome' : values'.filter (!·.isNull) ≠ [] := by
      intro hnil
      rw [hnil] at hshown
      exact hsome hshown.eq_nil
    obtain ⟨hmem, hall⟩ := pick_spec (f := f) hp h hsome
    obtain ⟨hmem', hall'⟩ := pick_spec (f := f) hp h' hsome'
    have hle := hall _ (hshown.mem_iff.2 hmem')
    have hle' := hall' _ (hshown.mem_iff.1 hmem)
    cases f with
    | min => exact Json.order_eq_of_isLE hle hle'
    | max => exact Json.order_eq_of_isLE hle' hle

end Aggregate
end EntitySelect
