import EntitySelect.Proofs.Query.Mentions
import EntitySelect.Proofs.Query.Pages
import EntitySelect.Proofs.Select.WellFormed

/-! The statement of a query is well formed, whatever the catalog says. Labels that are made in the
select list and in the joins are used by the clauses after them just as they were made. -/
namespace EntitySelect

namespace Operator
variable {o : Operator} {c : Comparison} {v : Json} {p : Comparison × Json}

end Operator

namespace Select.WellSelected
variable {s : Select}

theorem orderBy (h : s.WellSelected) {target : OrderTarget}
    (htarget : ∀ label, target.label? = some label → label ∈ s.selectLabels)
    (direction : Direction) : (s.orderBy target direction).WellSelected where
  labelled := h.labelled
  grouped := h.grouped
  ordered := List.forall_mem_append.2 ⟨h.ordered, List.forall_mem_singleton.2 htarget⟩
  aggregated := h.aggregated

/-- A computed column gets a label of its own. -/
theorem addExpression (h : s.WellSelected) (hgrouped : s.groupBy ≠ []) (function : Aggregate)
    (argument : Column) (wanted : String) :
    (s.addExpression function argument wanted).2.WellSelected where
  labelled := addExpression_selectLabels_nodup h.labelled function argument wanted
  grouped := h.grouped
  ordered o ho label hlabel := by
    rw [addExpression_selectLabels]
    exact List.mem_append_left _ (h.ordered o ho label hlabel)
  aggregated _ := hgrouped

end Select.WellSelected

namespace ResolvedSort
variable {simple : Bool} {s : Select}

/-- An ordering goes by a label that is there, or by one that it adds. -/
theorem wellSelected_orderBy {r : ResolvedSort} (h : s.WellSelected)
    (hgrouped : simple = false → s.groupBy ≠ [])
    (hkey : ∀ label, r.source = .key label → label ∈ s.fields.map (·.label)) :
    (orderBy simple s r).WellSelected := by
  unfold orderBy
  cases hsource : r.source with
  | key label =>
    refine h.orderBy ?_ r.sorting.direction
    rintro _ ⟨⟩
    exact List.mem_append_left _ (hkey label hsource)
  | property p =>
    simp only
    split
    · refine h.orderBy ?_ r.sorting.direction
      rintro _ ⟨⟩
    · next hplain =>
      have hsimple : simple = false := by
        cases simple with
        | true => exact absurd rfl hplain
        | false => rfl
      refine (h.addExpression (hgrouped hsimple) (extreme r.sorting.direction) p.column _).orderBy
        ?_ r.sorting.direction
      rintro _ ⟨⟩
      rw [Select.addExpression_selectLabels]
      exact List.mem_concat_self

theorem wellSelected_foldl_orderBy {rs : List ResolvedSort} (h : s.WellSelected)
    (hgrouped : simple = false → s.groupBy ≠ [])
    (hkeys : ∀ r ∈ rs, ∀ label, r.source = .key label → label ∈ s.fields.map (·.label)) :
    (rs.foldl (orderBy simple) s).WellSelected := by
  induction rs generalizing s with
  | nil => exact h
  | cons r rs ih =>
    obtain ⟨hr, hrs⟩ := List.forall_mem_cons.1 hkeys
    have hfields : (orderBy simple s r).body.fields = s.body.fields := by rw [body_orderBy]
    refine ih (wellSelected_orderBy h hgrouped hr) ?_ ?_
    · rwa [groupBy_orderBy]
    · exact hfields.symm ▸ hrs

end ResolvedSort

namespace Query
variable {q : Query} {t : EntityType} {base : String} {catalog : Catalog} {c : Compiled}

/-- Before it is ordered a statement selects the key columns, and groups by their labels unless it
is simple. -/
theorem wellSelected_grouped (q : Query) (t : EntityType) (base : String) (catalog : Catalog)
    (layout : Layout) (simple : Bool) (parts : List Where) :
    (q.grouped layout (q.start t base).1 simple parts
        (q.joined t base catalog).statement).WellSelected ∧
      (simple = false → (q.grouped layout (q.start t base).1 simple parts
        (q.joined t base catalog).statement).groupBy ≠ []) := by
  obtain ⟨key, value, hne, hfields, hgroupBy⟩ :=
    @finish_keys q t base _ layout simple parts [] (q.joined_spec t base catalog).frame
  have hexpressions := q.expressions_grouped t base catalog layout simple parts
  have horders := (q.grouped_joined t base catalog layout simple parts).2
  rw [finish_eq, List.foldl_nil] at hfields hgroupBy
  simp only at hfields hgroupBy
  generalize q.grouped layout (q.start t base).1 simple parts
    (q.joined t base catalog).statement = s at hfields hgroupBy hexpressions horders ⊢
  refine ⟨⟨?_, ?_, ?_, ?_⟩, ?_⟩
  · simp [Select.selectLabels, hfields, hexpressions, hne]
  · intro label hlabel
    rw [hgroupBy] at hlabel
    rw [hfields]
    cases simple with
    | true => cases hlabel
    | false =>
      rcases List.mem_cons.1 hlabel with rfl | hlabel
      · exact ⟨_, List.mem_cons_self, rfl⟩
      · obtain ⟨revision, -, rfl⟩ := List.mem_map.1 hlabel
        exact ⟨_, List.mem_cons_of_mem _ List.mem_cons_self, rfl⟩
  · rw [horders]
    intro o ho
    cases ho
  · exact fun hsome => absurd hexpressions hsome
  · rintro rfl
    rw [hgroupBy]
    exact List.cons_ne_nil key _

theorem wellSelected_of_compileOver (hover : q.compileOver catalog t base = .ok c) :
    c.statement.WellSelected := by
  obtain ⟨rs, parts, hresolves, hstatement⟩ := exists_resolved hover
  obtain ⟨hselected, hgrouped⟩ := q.wellSelected_grouped t base catalog
    (q.placement t base catalog) c.simple parts
  have hkeys : ∀ r ∈ rs, ∀ label, r.source = .key label →
      label ∈ (q.grouped (q.placement t base catalog) (q.start t base).1 c.simple parts
        (q.joined t base catalog).statement).fields.map (·.label) := by
    intro r hr label hsource
    rw [(q.grouped_joined t base catalog (q.placement t base catalog) c.simple parts).1]
    obtain ⟨s, -, -, hresolve⟩ := exists_of_mem_forall₂ hresolves hr
    rcases hresolve with ⟨label', hlabel, hsource'⟩ | ⟨-, _, _, -, hsource', -⟩
    · rw [hsource] at hsource'
      cases hsource'
      rcases q.start_label? t base s.field with ⟨hnone, -⟩ | ⟨other, hother, -, hfield⟩
      · rw [hnone] at hlabel
        cases hlabel
      · obtain rfl := Option.some.inj (hother.symm.trans hlabel)
        exact List.mem_map.2 ⟨_, hfield, rfl⟩
    · rw [hsource] at hsource'
      cases hsource'
  have h := ResolvedSort.wellSelected_foldl_orderBy hselected hgrouped hkeys
  rw [hstatement, finish_eq]
  exact ⟨h.labelled, h.grouped, h.ordered, h.aggregated⟩

end Query
end EntitySelect
