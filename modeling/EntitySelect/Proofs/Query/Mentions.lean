import EntitySelect.Proofs.Query.SortKeys
import EntitySelect.Proofs.Select.Mentions

/-! Where the columns of a statement come from: the key columns of the base table, the equations of
the joins, and the properties that are asked for. Each belongs to a table of the statement. -/
namespace EntitySelect

theorem exists_of_mem_forall₂ {α β : Type} {r : α → β → Prop} {as : List α} {bs : List β}
    (h : List.Forall₂ r as bs) {b : β} (hb : b ∈ bs) : ∃ a ∈ as, r a b := by
  induction h with
  | nil => cases hb
  | @cons a b' as bs hab _ ih =>
    rcases List.mem_cons.1 hb with rfl | hb
    · exact ⟨a, List.mem_cons_self, hab⟩
    · obtain ⟨a', ha', hr⟩ := ih hb
      exact ⟨a', List.mem_cons_of_mem _ ha', hr⟩

namespace ResolvedSort
variable {column : Column}

/-- The column of a property that is ordered by. -/
def column? (r : ResolvedSort) : Option Column :=
  match r.source with
  | .key _ => none
  | .property p => some p.column

/-- An ordering mentions only the column of its property. -/
theorem mem_orderMentions_orderBy {simple : Bool} {s : Select} {r : ResolvedSort}
    (h : column ∈ (orderBy simple s r).orderMentions) :
    column ∈ s.orderMentions ∨ r.column? = some column := by
  unfold orderBy at h
  cases hsource : r.source with
  | key label =>
    simp only [hsource] at h
    refine ((Select.mem_orderMentions_orderBy ..).1 h).imp_right ?_
    exact nofun
  | property p =>
    simp only [hsource] at h
    rw [column?, hsource]
    split at h
    · exact (Select.mem_orderMentions_orderBy ..).1 h
    · rcases (Select.mem_orderMentions_orderBy ..).1 h with h | h
      · exact ((Select.mem_orderMentions_addExpression ..).1 h).imp_right (congrArg some)
      · cases h

theorem mem_orderMentions_foldl_orderBy {simple : Bool} {rs : List ResolvedSort} {s : Select}
    (h : column ∈ (rs.foldl (orderBy simple) s).orderMentions) :
    column ∈ s.orderMentions ∨ ∃ r ∈ rs, r.column? = some column := by
  induction rs generalizing s with
  | nil => exact .inl h
  | cons r rs ih =>
    rcases ih h with h | ⟨r', hr', hcolumn⟩
    · refine (mem_orderMentions_orderBy h).imp_right fun hcolumn => ?_
      exact ⟨r, List.mem_cons_self, hcolumn⟩
    · exact .inr ⟨r', List.mem_cons_of_mem _ hr', hcolumn⟩

end ResolvedSort

namespace Query
variable {q : Query} {t : EntityType} {base : String} {catalog : Catalog} {c : Compiled}

/-- The columns that a statement for a query may mention. -/
inductive Mentioned (q : Query) (t : EntityType) (base : String) (catalog : Catalog) :
    Column → Prop
  | key : Mentioned q t base catalog ⟨baseLabel, t.keys.row⟩
  | id : Mentioned q t base catalog ⟨baseLabel, t.keys.id⟩
  /-- The equations of a join are those that the first request for its table asks for. -/
  | term {r : Request} {label : String} {term : JoinTerm} {column : Column} :
    (q.placement t base catalog).first (q.requests t base catalog) r.pair = some r →
    (q.joined t base catalog).registry.get? r.place.table r.langcode = some label →
    term ∈ (q.placement t base catalog).terms r.place.source r.langcode baseLabel label →
    column ∈ term.mentions → Mentioned q t base catalog column
  | place {r : Request} : r ∈ q.requests t base catalog → Mentioned q t base catalog
    ((q.placement t base catalog).column (q.joined t base catalog) r.place r.langcode)

/-- A comparison is made in the column of a property that is asked for. -/
theorem mentioned_leaf {l : Leaf} (hl : l ∈ q.conditions.leaves)
    (hready : l.Ready (q.placement t base catalog) catalog) : q.Mentioned t base catalog
      (l.column (q.placement t base catalog) catalog (q.joined t base catalog)) := by
  obtain ⟨place, hplace⟩ := hready.located
  rw [← Conditions.leaves_toCondition] at hl
  obtain ⟨underOr, hm⟩ := Condition.exists_marked_of_mem hl false
  simp only [Leaf.column, hplace]
  apply Mentioned.place (r := ⟨place, l.joinKind underOr, l.langcode⟩)
  refine List.mem_append_left _ (List.mem_filterMap.2 ⟨_, hm, ?_⟩)
  exact Leaf.request?_of_locate hplace underOr

theorem mentioned_sort {s : Sorting} {r : ResolvedSort} {column : Column} (hs : s ∈ q.activeSorts)
    (h : Resolves (q.placement t base catalog) catalog (q.start t base).1
      (q.joined t base catalog) s r) (hcolumn : r.column? = some column) :
    q.Mentioned t base catalog column := by
  rcases h.2 with ⟨label, -, hsource⟩ | ⟨hkey, place, p, hplace, hsource, hp, -⟩
  · rw [ResolvedSort.column?, hsource] at hcolumn
    cases hcolumn
  · rw [ResolvedSort.column?, hsource] at hcolumn
    cases hcolumn
    rw [hp]
    exact .place (mem_requests_of_sort hs hkey hplace)

end Query

namespace CompiledAs
variable {q : Query} {t : EntityType} {base : String} {catalog : Catalog} {c : Compiled}
  {column : Column}

/-- All that does not order a statement mentions key columns, joins and properties only. -/
theorem mentioned (h : CompiledAs q t base catalog c) (hcolumn : column ∈ c.statement.mentions) :
    q.Mentioned t base catalog column ∨ column ∈ c.statement.orderMentions := by
  rcases Select.mem_mentions.1 hcolumn with ⟨f, hf, rfl⟩ | ⟨j, hj, term, hterm, hcolumn⟩ |
    hcolumn | hcolumn
  · left
    obtain ⟨key, value, -, hfields, -⟩ := h.keys
    rw [hfields] at hf
    rcases List.mem_pair.1 hf with rfl | rfl
    · exact .key
    · exact .id
  · left
    rw [h.joins] at hj
    obtain ⟨r, hfirst, hlabel, hjoin⟩ := (q.joined_spec t base catalog).created j hj
    rw [hjoin] at hterm
    exact .term hfirst hlabel hterm hcolumn
  · left
    rw [h.condition, Condition.clause_mentions, Conditions.leaves_toCondition] at hcolumn
    obtain ⟨l, hl, hcolumn⟩ := List.mem_flatMap.1 hcolumn
    obtain ⟨⟨comparison, v⟩, hfits⟩ := (h.ready l hl).fits
    rw [Leaf.clause, hfits] at hcolumn
    obtain rfl := List.mem_singleton.1 hcolumn
    exact Query.mentioned_leaf hl (h.ready l hl)
  · exact .inr hcolumn

end CompiledAs

namespace Query
variable {q : Query} {t : EntityType} {base : String} {catalog : Catalog} {c : Compiled}
  {column : Column}

theorem orderMentions_grouped (q : Query) (t : EntityType) (base : String) (catalog : Catalog)
    (layout : Layout) (simple : Bool) (parts : List Where) :
    (q.grouped layout (q.start t base).1 simple parts
      (q.joined t base catalog).statement).orderMentions = [] := by
  have hun := q.ungrouped_grouped layout (q.start t base).1 simple parts
    (q.joined t base catalog).statement
  have hfilled : (q.filled layout simple parts
      (q.joined t base catalog).statement).orderMentions = [] := by
    rw [filled, (q.joined_spec t base catalog).frame]
    rfl
  exact (congrArg Select.orderMentions hun).trans hfilled

theorem expressions_grouped (q : Query) (t : EntityType) (base : String) (catalog : Catalog)
    (layout : Layout) (simple : Bool) (parts : List Where) :
    (q.grouped layout (q.start t base).1 simple parts
      (q.joined t base catalog).statement).expressions = [] := by
  have h := q.orderMentions_grouped t base catalog layout simple parts
  rw [Select.orderMentions, List.append_eq_nil_iff, List.map_eq_nil_iff] at h
  exact h.1

/-- A statement mentions key columns, joins and properties only. -/
theorem mentioned_of_mem (hover : q.compileOver catalog t base = .ok c)
    (hcolumn : column ∈ c.statement.mentions) : q.Mentioned t base catalog column := by
  refine ((compiledAs hover).mentioned hcolumn).elim id fun horder => ?_
  obtain ⟨rs, parts, hresolves, hstatement⟩ := exists_resolved hover
  rw [hstatement] at horder
  rcases ResolvedSort.mem_orderMentions_foldl_orderBy horder with h | ⟨r, hr, hcolumn⟩
  · have hnone := q.orderMentions_grouped t base catalog (q.placement t base catalog) c.simple parts
    exact absurd h (hnone ▸ List.not_mem_nil)
  · obtain ⟨s, hs, hresolve⟩ := exists_of_mem_forall₂ hresolves hr
    exact mentioned_sort hs hresolve hcolumn

/-- A column that is mentioned is read from the base table or from a table that is joined. -/
theorem Mentioned.table_mem (h : q.Mentioned t base catalog column) :
    column.table ∈ (q.joined t base catalog).statement.tableLabels := by
  rw [Select.tableLabels, List.mem_cons, List.mem_map, joined_label]
  cases h with
  | key => exact .inl rfl
  | id => exact .inl rfl
  | @term r label term _ hfirst hlabel hterm hcolumn =>
    have hjoin := (q.joined_spec t base catalog).opened r label hfirst hlabel
    refine (Layout.hangsOn_wanted term hterm column hcolumn).imp_right fun htable => ?_
    exact ⟨_, hjoin, htable.symm⟩
  | @place r hr =>
    cases hatBase : (q.placement t base catalog).atBase r.place with
    | true =>
      left
      rw [Layout.column_of_atBase hatBase, joined_label]
    | false =>
      obtain ⟨first, label, -, hlabel, hjoin⟩ := exists_join_of_request hr hatBase
      refine .inr ⟨_, hjoin, ?_⟩
      rw [Layout.column_of_get? hatBase hlabel]
      rfl

end Query

namespace CompiledAs
variable {q : Query} {t : EntityType} {base : String} {catalog : Catalog} {c : Compiled}

/-- Without orderings, every column that is mentioned belongs to a table of the statement. -/
theorem checkLabels_eq_ok (h : CompiledAs q t base catalog c) (hunsorted : q.activeSorts = []) :
    c.statement.checkLabels = .ok () := by
  obtain ⟨hexpressions, horders⟩ := h.unsorted hunsorted
  apply Select.checkLabels_eq_ok
  intro column hcolumn
  rw [h.tableLabels_eq]
  rcases h.mentioned hcolumn with hmentioned | horder
  · exact hmentioned.table_mem
  · rw [Select.orderMentions, hexpressions, horders] at horder
    cases horder

end CompiledAs

namespace Query
variable {q : Query} {t : EntityType} {base : String} {catalog : Catalog} {c : Compiled}

/-- Every column that the statement of a query mentions belongs to one of its tables. -/
theorem table_mem_of_mem_mentions (hover : q.compileOver catalog t base = .ok c) {column : Column}
    (hcolumn : column ∈ c.statement.mentions) : column.table ∈ c.statement.tableLabels := by
  rw [(compiledAs hover).tableLabels_eq]
  exact (mentioned_of_mem hover hcolumn).table_mem

theorem checkLabels_eq_ok (hover : q.compileOver catalog t base = .ok c) :
    c.statement.checkLabels = .ok () :=
  Select.checkLabels_eq_ok fun _ hcolumn => table_mem_of_mem_mentions hover hcolumn

end Query

end EntitySelect
