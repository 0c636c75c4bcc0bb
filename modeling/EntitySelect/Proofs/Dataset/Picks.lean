import Mathlib.Data.List.Perm.Basic
import Mathlib.Data.List.Nodup
import Mathlib.Logic.Function.Basic

/-! One of several candidates for each of several names. In which order the names are gone through
matters only for the order in which the picks come. -/
namespace EntitySelect

section Picks
variable {ι α : Type} [DecidableEq ι] {cands cands' : ι → List (Option α)} {is js : List ι}

/-- A candidate for each name; any other name has none. The first name changes slowest. -/
def picks (cands : ι → List (Option α)) : List ι → List (ι → Option α)
  | [] => [fun _ => none]
  | i :: rest => (cands i).flatMap fun a? =>
      (picks cands rest).map fun pick => Function.update pick i a?

theorem flatMap_swap_perm {β γ : Type} (l : List α) (m : List β) (f : α → β → List γ) :
    (l.flatMap fun a => m.flatMap (f a)).Perm (m.flatMap fun b => l.flatMap fun a => f a b) := by
  induction l with
  | nil =>
    simp only [List.flatMap_nil]
    rw [List.flatMap_eq_nil_iff.2 fun _ _ => rfl]
  | cons a rest ih =>
    simp only [List.flatMap_cons]
    exact (ih.append_left _).trans (List.flatMap_append_perm m (f a) _)

theorem picks_swap_perm {i j : ι} (hne : i ≠ j) (rest : List ι) :
    (picks cands (i :: j :: rest)).Perm (picks cands (j :: i :: rest)) := by
  simp only [picks, List.map_flatMap, List.map_map, Function.comp_def]
  refine (flatMap_swap_perm _ _ _).trans (.of_eq ?_)
  congr 1
  funext b?
  congr 1
  funext a?
  congr 1
  funext pick
  exact Function.update_comm hne.symm b? a? pick

theorem picks_perm (hperm : is.Perm js) (hapart : is.Nodup) :
    (picks cands is).Perm (picks cands js) := by
  induction hperm with
  | nil => exact .refl _
  | cons i _ ih =>
    exact List.Perm.flatMap_left _ fun _ _ => (ih (List.nodup_cons.1 hapart).2).map _
  | swap i j rest =>
    refine picks_swap_perm ?_ rest
    rintro rfl
    exact (List.nodup_cons.1 hapart).1 List.mem_cons_self
  | trans h₁ _ ih₁ ih₂ => exact (ih₁ hapart).trans (ih₂ (h₁.nodup_iff.1 hapart))

/-- Conditions on the single picks are conditions on the candidates. -/
theorem filter_picks (hapart : is.Nodup) (ok : ι → Option α → Bool) :
    (picks cands is).filter (fun pick => is.all fun i => ok i (pick i)) =
      picks (fun i => (cands i).filter (ok i)) is := by
  induction is with
  | nil => rfl
  | cons i rest ih =>
    obtain ⟨hi, hrest⟩ := List.nodup_cons.1 hapart
    rw [picks, picks, List.filter_flatMap, ← ih hrest]
    have hstep (a? : Option α) :
        ((picks cands rest).map fun pick => Function.update pick i a?).filter
            (fun pick => (i :: rest).all fun j => ok j (pick j)) =
          if ok i a? = true then
            ((picks cands rest).filter fun pick => rest.all fun j => ok j (pick j)).map
              fun pick => Function.update pick i a?
          else [] := by
      have hall (pick : ι → Option α) :
          ((i :: rest).all fun j => ok j (Function.update pick i a? j)) =
            (ok i a? && rest.all fun j => ok j (pick j)) := by
        rw [List.all_cons, Function.update_self]
        congr 1
        rw [Bool.eq_iff_iff, List.all_eq_true, List.all_eq_true]
        refine forall₂_congr fun j hj => ?_
        have hne : j ≠ i := by
          rintro rfl
          exact hi hj
        rw [Function.update_of_ne hne]
      rw [List.filter_map, Function.comp_def]
      simp only [hall]
      split
      · next hok => simp only [hok, Bool.true_and]
      · next hok => simp [hok]
    simp only [hstep]
    induction cands i with
    | nil => rfl
    | cons a? more ihmore =>
      rw [List.flatMap_cons, ihmore, List.filter_cons]
      split
      · rw [List.flatMap_cons]
      · rfl

/-- The first picks are the first candidates. -/
theorem head?_picks (h : picks cands is ≠ []) : (picks cands is).head? =
    some fun i => if i ∈ is then (cands i).head?.join else none := by
  induction is with
  | nil => simp [picks]
  | cons i rest ih =>
    rw [picks] at h ⊢
    cases hcands : cands i with
    | nil => simp [hcands] at h
    | cons a? more =>
      have hrest : picks cands rest ≠ [] := by
        intro hnil
        simp [hnil] at h
      obtain ⟨first, others, hfirst⟩ := List.exists_cons_of_ne_nil hrest
      have hhead := ih hrest
      rw [hfirst, List.head?_cons] at hhead
      rw [hfirst, List.flatMap_cons, List.map_cons, List.cons_append, List.head?_cons,
        Option.some.inj hhead]
      congr 1
      funext j
      by_cases hj : j = i
      · rw [hj, Function.update_self, if_pos List.mem_cons_self, hcands]
        rfl
      · rw [Function.update_of_ne hj]
        simp only [List.mem_cons, hj, false_or]

/-- The first picks do not depend on the order of the names. -/
theorem head?_picks_perm (hperm : is.Perm js) (hapart : is.Nodup) :
    (picks cands is).head? = (picks cands js).head? := by
  have hpicks : (picks cands is).Perm (picks cands js) := picks_perm hperm hapart
  by_cases hnil : picks cands is = []
  · rw [hnil] at hpicks ⊢
    rw [hpicks.nil_eq]
  · have hnil' : picks cands js ≠ [] := fun h => hnil (h ▸ hpicks).eq_nil
    rw [head?_picks hnil, head?_picks hnil']
    simp only [hperm.mem_iff]

end Picks

end EntitySelect
