import EntitySelect.Proofs.Dataset.Extremes
import EntitySelect.Proofs.Query.Compiling

/-! What orderings make of a statement, and the values that its orders read. A label of the select
list keeps its value when more is selected, so every order reads what its ordering meant. -/
namespace EntitySelect

namespace Group

/-- The value that stands under a label of the select list. -/
def labelled (g : Group) (s : Select) (label : String) : Option Json :=
  (s.selectLabels.zip (g.values s)).lookup label

theorem zip_values (g : Group) (s : Select) : s.selectLabels.zip (g.values s) =
    s.fields.map (fun f => (f.label, g.first.read f.column)) ++
      s.expressions.map (fun e => (e.label, g.aggregate e.function e.argument)) := by
  rw [Select.selectLabels, values, List.zip_append (by simp), List.zip_map', List.zip_map']

/-- A selected field stands under its label. -/
theorem labelled_field {g : Group} {s : Select} {f : SelectedField} (hf : f ∈ s.fields)
    (hapart : (s.fields.map (·.label)).Nodup) :
    g.labelled s f.label = some (g.first.read f.column) := by
  have hfield : (s.fields.map fun f => (f.label, g.first.read f.column)).lookup f.label =
      some (g.first.read f.column) := by
    refine lookup_of_mem ?_ (List.mem_map.2 ⟨f, hf, rfl⟩)
    rw [List.map_map]
    exact hapart
  rw [labelled, zip_values, List.lookup_append, hfield, Option.some_or]

/-- One statement selects all that another selects, under the same labels. -/
def Extends (g : Group) (s s' : Select) : Prop :=
  ∀ label v, g.labelled s label = some v → g.labelled s' label = some v

theorem Extends.refl (g : Group) (s : Select) : g.Extends s s := fun _ _ h => h

theorem Extends.trans {g : Group} {s s' s'' : Select} (h : g.Extends s s')
    (h' : g.Extends s' s'') : g.Extends s s'' := fun label v hv => h' label v (h label v hv)

section Expression
variable (g : Group) (s : Select) (function : Aggregate) (argument : Column) (wanted : String)

theorem labelled_addExpression (label : String) :
    g.labelled (s.addExpression function argument wanted).2 label =
      (g.labelled s label).or (if label = (s.addExpression function argument wanted).1
        then some (g.aggregate function argument) else none) := by
  simp only [labelled, zip_values, Select.addExpression, List.map_append, List.map_cons,
    List.map_nil, ← List.append_assoc]
  rw [List.lookup_append, List.lookup_cons]
  congr 1
  by_cases h : label = Label.fresh s.selectLabels wanted
  · simp [h]
  · simp [h, beq_eq_false_iff_ne.2 h]

theorem extends_addExpression : g.Extends s (s.addExpression function argument wanted).2 := by
  intro label v hv
  rw [labelled_addExpression, hv, Option.some_or]

/-- The new label is not one of the old ones. -/
theorem labelled_addExpression_self :
    g.labelled (s.addExpression function argument wanted).2
      (s.addExpression function argument wanted).1 = some (g.aggregate function argument) := by
  have hnone : g.labelled s (s.addExpression function argument wanted).1 = none := by
    rw [labelled, List.lookup_eq_none_iff]
    intro p hp
    rw [bne_iff_ne]
    intro heq
    have hmem := (List.of_mem_zip hp).1
    rw [← heq] at hmem
    exact Label.fresh_not_mem s.selectLabels wanted hmem
  rw [labelled_addExpression, hnone, if_pos rfl, Option.none_or]

end Expression

theorem orderKey_label {g : Group} {s : Select} {label : String} {v : Json}
    (h : g.labelled s label = some v) (direction : Direction) :
    g.orderKey s ⟨.label label, direction⟩ = .ok v := by
  rw [labelled] at h
  simp only [orderKey, h]

theorem orderKey_extends {g : Group} {s s' : Select} (h : g.Extends s s') {o : Order} {v : Json}
    (hv : g.orderKey s o = .ok v) : g.orderKey s' o = .ok v := by
  obtain ⟨target, direction⟩ := o
  cases target with
  | column c => exact hv
  | label a =>
    cases hlabel : g.labelled s a with
    | none =>
      rw [labelled] at hlabel
      simp only [orderKey, hlabel] at hv
      cases hv
    | some w =>
      rw [orderKey_label hlabel] at hv
      rw [orderKey_label (h a w hlabel), hv]

end Group

namespace ResolvedSort

/-- The value that a group is ordered by: that of its first row, or the extreme one where a
property can have several. -/
def Reads (r : ResolvedSort) (simple : Bool) (g : Group) (s : Select) (v : Json) : Prop :=
  match r.source with
  | .key label => g.labelled s label = some v
  | .property p =>
    v = if simple || p.source == .entityTable then g.first.read p.column
      else g.aggregate (extreme r.sorting.direction) p.column

theorem Reads.extends {r : ResolvedSort} {simple : Bool} {g : Group} {s s' : Select} {v : Json}
    (h : r.Reads simple g s v) (hs : g.Extends s s') : r.Reads simple g s' v := by
  unfold Reads at h ⊢
  split at h
  · exact hs _ _ h
  · exact h

/-- An ordering adds one order, which reads the value that is meant. -/
theorem orderBy_spec {r : ResolvedSort} {simple : Bool} {g : Group} {s : Select} {v : Json}
    (h : r.Reads simple g s v) : ∃ o, (orderBy simple s r).orders = s.orders ++ [o] ∧
      g.orderKey (orderBy simple s r) o = .ok v ∧ g.Extends s (orderBy simple s r) := by
  cases hsource : r.source with
  | key label =>
    simp only [Reads, hsource] at h
    simp only [orderBy, hsource]
    exact ⟨_, rfl, Group.orderKey_label h r.sorting.direction, .refl g s⟩
  | property p =>
    simp only [Reads, hsource] at h
    simp only [orderBy, hsource]
    by_cases hplain : (simple || p.source == .entityTable) = true
    · rw [if_pos hplain] at h
      simp only [if_pos hplain]
      exact ⟨_, rfl, congrArg Except.ok h.symm, .refl g s⟩
    · rw [if_neg hplain] at h
      simp only [if_neg hplain]
      have hextends : g.Extends s (s.addExpression (extreme r.sorting.direction) p.column
          (groupLabel r.sorting)).2 := Group.extends_addExpression g s _ _ _
      refine ⟨_, rfl, ?_, hextends⟩
      rw [h]
      exact Group.orderKey_label (Group.labelled_addExpression_self g s _ _ _) r.sorting.direction

/-- Orderings add one order each. -/
theorem foldl_orderBy_spec {rs : List ResolvedSort} {simple : Bool} {g : Group} {s : Select}
    {vs : List Json} (h : List.Forall₂ (fun r v => r.Reads simple g s v) rs vs) :
    ∃ os, (rs.foldl (orderBy simple) s).orders = s.orders ++ os ∧
      List.Forall₂ (fun o v => g.orderKey (rs.foldl (orderBy simple) s) o = .ok v) os vs ∧
      g.Extends s (rs.foldl (orderBy simple) s) := by
  induction rs generalizing s vs with
  | nil =>
    cases h
    exact ⟨[], (List.append_nil _).symm, .nil, .refl g s⟩
  | cons r rs ih =>
    cases h with
    | cons hr hrs =>
      obtain ⟨o, horders, hkey, hextends⟩ := orderBy_spec hr
      obtain ⟨os, horders', hkeys, hextends'⟩ := ih (hrs.imp fun _ _ h => h.extends hextends)
      refine ⟨o :: os, ?_, ?_, hextends.trans hextends'⟩
      · rw [List.foldl_cons, horders', horders, List.append_assoc, List.singleton_append]
      · exact .cons (Group.orderKey_extends hextends' hkey) hkeys

theorem directions_orderBy (simple : Bool) (s : Select) (r : ResolvedSort) :
    (orderBy simple s r).orders.map (·.direction) =
      s.orders.map (·.direction) ++ [r.sorting.direction] := by
  unfold orderBy
  split
  · exact List.map_append
  · split
    · exact List.map_append
    · exact List.map_append

theorem directions_foldl_orderBy (simple : Bool) (rs : List ResolvedSort) (s : Select) :
    (rs.foldl (orderBy simple) s).orders.map (·.direction) =
      s.orders.map (·.direction) ++ rs.map (·.sorting.direction) := by
  induction rs generalizing s with
  | nil => exact (List.append_nil _).symm
  | cons r rs ih =>
    rw [List.foldl_cons, ih, directions_orderBy, List.append_assoc, List.singleton_append,
      List.map_cons]

end ResolvedSort

theorem mapM_eq_ok_of_forall₂ {α β ε : Type} {f : α → Except ε β} {as : List α} {bs : List β}
    (h : List.Forall₂ (fun a b => f a = .ok b) as bs) : as.mapM f = .ok bs := by
  induction h with
  | nil => rfl
  | cons hab _ ih =>
    rw [List.mapM_cons, hab, ih]
    rfl

end EntitySelect
