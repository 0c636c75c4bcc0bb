import EntitySelect.Proofs.Query.Choices
import EntitySelect.Proofs.Query.Orders

/-! The values that the rows of a query are ordered by, told by the rows that are chosen for a row
of the base table. Several of them that are one row of the result go by the value of the first, or
by the extreme value where the property is a field. -/
namespace EntitySelect

/-- A property is one of the key columns. -/
def EntityKeys.has (k : EntityKeys) (property : String) : Bool :=
  property == k.id || k.revision == some property

namespace Query
variable (q : Query) (t : EntityType) (base : String) (catalog : Catalog)

/-- The value that an ordering looks at. -/
def sortValue (s : Sorting) (row : Record × Choice) : Json :=
  if t.keys.has s.field then Record.value row.1 s.field
  else (q.placement t base catalog).value catalog row.1 row.2
    { field := s.field, langcode := s.langcode }

/-- An ordering is by the values of a field. -/
def sortsByField (s : Sorting) : Bool :=
  !t.keys.has s.field && match (q.placement t base catalog).locate catalog s.field with
    | .ok (some place) => place.source == .fieldTable
    | _ => false

/-- The value that several rows are ordered by as one. -/
def sortKey (rows : List (Record × Choice)) (s : Sorting) : Json :=
  let values := rows.map (q.sortValue t base catalog s)
  if q.sortsByField t base catalog s then (ResolvedSort.extreme s.direction).pick values
  else values.headD .null

def sortKeys (rows : List (Record × Choice)) : List Json :=
  q.activeSorts.map (q.sortKey t base catalog rows)

/-- The rows that joined rows show, that of the base table first. -/
def joint (s : Scope) : Record × Choice :=
  ((s.lookup baseLabel).getD [], q.shown t base catalog s)

variable {q t base catalog}

/-- The label of a key column stands for its column of the base table. -/
theorem start_label? (q : Query) (t : EntityType) (base property : String) :
    ((q.start t base).1.label? property = none ∧ t.keys.has property = false) ∨
    ∃ label, (q.start t base).1.label? property = some label ∧ t.keys.has property = true ∧
      ⟨⟨baseLabel, property⟩, label⟩ ∈ (q.start t base).2.fields := by
  unfold start KeyColumns.select KeyColumns.label? EntityKeys.has
  simp only [Select.addField, List.nil_append, List.cons_append]
  cases t.keys.revision with
  | none =>
    by_cases hid : property = t.keys.id
    · right
      simp [hid]
    · left
      simp [beq_eq_false_iff_ne.2 hid]
  | some revision =>
    by_cases hrevision : property = revision
    · right
      simp [hrevision]
    · by_cases hid : property = t.keys.id
      · right
        simp [hid, List.lookup_cons, beq_eq_false_iff_ne.2 (hid ▸ hrevision)]
      · left
        simp [List.lookup_cons, beq_eq_false_iff_ne.2 hid, beq_eq_false_iff_ne.2 hrevision,
          Ne.symm hrevision]

theorem read_base (s : Scope) (column : String) :
    s.read ⟨baseLabel, column⟩ = Record.value (q.joint t base catalog s).1 column := by
  unfold Scope.read joint
  cases s.lookup baseLabel <;> rfl

theorem mem_requests_of_sort {s : Sorting} (hs : s ∈ q.activeSorts)
    (hkey : (q.start t base).1.label? s.field = none) {place : Location}
    (hplace : (q.placement t base catalog).locate catalog s.field = .ok (some place)) :
    ⟨place, .left, s.langcode⟩ ∈ q.requests t base catalog := by
  refine List.mem_append_right _ (List.mem_filterMap.2 ⟨s, hs, ?_⟩)
  rw [Sorting.request?, hkey, hplace]

/-- The column of an ordering holds the value that the ordering looks at. -/
theorem read_sort {s : Sorting} (hs : s ∈ q.activeSorts)
    (hkey : (q.start t base).1.label? s.field = none) (hhas : t.keys.has s.field = false)
    {place : Location}
    (hplace : (q.placement t base catalog).locate catalog s.field = .ok (some place))
    (scope : Scope) :
    scope.read ((q.placement t base catalog).column (q.joined t base catalog) place s.langcode) =
      q.sortValue t base catalog s (q.joint t base catalog scope) := by
  rw [sortValue, hhas, if_neg Bool.false_ne_true]
  simp only [Layout.value, hplace]
  cases hatBase : (q.placement t base catalog).atBase place with
  | true => rw [if_pos rfl, Layout.column_of_atBase hatBase, joined_label, read_base]
  | false =>
    obtain ⟨-, label, -, hlabel, -⟩ :=
      exists_join_of_request (mem_requests_of_sort hs hkey hplace) hatBase
    simp only at hlabel
    rw [Layout.column_of_get? hatBase hlabel]
    simp only [Bool.false_eq_true, if_false, Scope.read, joint, shown, hlabel, Option.bind_some]
    cases scope.lookup label <;> rfl

/-- What an ordering is resolved to: a label of the key columns, or the column of its property. -/
def Resolves (layout : Layout) (catalog : Catalog) (keys : KeyColumns) (j : Joining) (s : Sorting)
    (r : ResolvedSort) : Prop :=
  r.sorting = s ∧
    ((∃ label, keys.label? s.field = some label ∧ r.source = .key label) ∨
      keys.label? s.field = none ∧ ∃ place p, layout.locate catalog s.field = .ok (some place) ∧
        r.source = .property p ∧ p.column = layout.column j place s.langcode ∧
          p.source = place.source)

theorem resolves_of_gives {layout : Layout} {keys : KeyColumns} {s : Sorting} {r : ResolvedSort}
    {j k : Joining} (h : Gives (resolveSort layout catalog keys s) j r k) (rs : List Request) :
    Resolves layout catalog keys (layout.enterAll rs k) s r := by
  unfold resolveSort at h
  cases hkey : keys.label? s.field with
  | some label =>
    rw [hkey] at h
    obtain ⟨rfl, -⟩ := gives_pure_iff.1 h
    exact ⟨rfl, .inl ⟨label, hkey, rfl⟩⟩
  | none =>
    rw [hkey] at h
    obtain ⟨p, i, hp, h⟩ := gives_bind_iff.1 h
    obtain ⟨rfl, rfl⟩ := gives_pure_iff.1 h
    obtain ⟨place, hplace, rfl, rfl⟩ := Layout.gives_resolve_iff.1 hp
    have hcolumn := @Layout.column_enter layout ⟨place, .left, s.langcode⟩ rs j
    refine ⟨rfl, .inr ⟨hkey, place, _, hplace, rfl, hcolumn.symm, ?_⟩⟩
    rcases layout.enter_cases ⟨place, .left, s.langcode⟩ j with
      ⟨-, he⟩ | ⟨-, _, -, he⟩ | ⟨-, -, he⟩
    · exact congrArg (·.1.source) he
    · exact congrArg (·.1.source) he
    · exact congrArg (·.1.source) he

/-- Later joins do not touch what an ordering was resolved to. -/
theorem forall₂_resolves {layout : Layout} {keys : KeyColumns} {sorts : List Sorting}
    {rs : List ResolvedSort} {j k : Joining}
    (h : Gives (sorts.mapM (resolveSort layout catalog keys)) j rs k) :
    List.Forall₂ (Resolves layout catalog keys k) sorts rs := by
  induction sorts generalizing j rs with
  | nil =>
    obtain ⟨rfl, -⟩ := gives_pure_iff.1 h
    exact .nil
  | cons s sorts ih =>
    obtain ⟨r, i, rest, hr, hrest, rfl⟩ := gives_mapM_cons_iff.1 h
    have hhead := resolves_of_gives hr
      (sorts.filterMap (Sorting.request? layout catalog keys))
    rw [← (gives_resolveSorts hrest).1] at hhead
    exact .cons hhead (ih hrest)

theorem sortings_of_resolves {layout : Layout} {keys : KeyColumns} {j : Joining}
    {sorts : List Sorting} {rs : List ResolvedSort}
    (h : List.Forall₂ (Resolves layout catalog keys j) sorts rs) : rs.map (·.sorting) = sorts := by
  induction h with
  | nil => rfl
  | cons hr _ ih => rw [List.map_cons, hr.1, ih]

/-- The statement of a query, put together from what its orderings are resolved to. -/
theorem exists_resolved {c : Compiled} (h : q.compileOver catalog t base = .ok c) :
    ∃ rs parts, List.Forall₂ (Resolves (q.placement t base catalog) catalog (q.start t base).1
        (q.joined t base catalog)) q.activeSorts rs ∧
      c.statement = q.finish (q.placement t base catalog) (q.start t base).1 c.simple parts rs
        (q.joined t base catalog).statement := by
  unfold compileOver at h
  simp only at h
  split at h
  · cases h
  · next condition sorts joining hrun =>
    obtain ⟨condition', i, hcondition, hrest⟩ := gives_bind_iff.1 (show Gives _ _ _ _ from hrun)
    obtain ⟨sorts', k, hsorts, hpure⟩ := gives_bind_iff.1 hrest
    obtain ⟨hout, rfl⟩ := gives_pure_iff.1 hpure
    obtain ⟨rfl, rfl⟩ := Prod.mk.inj hout
    obtain ⟨hcompiles, -⟩ := Condition.gives_compile hcondition
    have hjoined : joining = q.joined t base catalog := by
      rw [joined, requests, Layout.enterAll_append, (gives_resolveSorts hsorts).1, hcompiles.joins]
      rfl
    obtain rfl := Except.ok.inj h
    refine ⟨sorts, topParts condition.clause, ?_, ?_⟩
    · rw [← hjoined]
      exact forall₂_resolves hsorts
    · rw [← hjoined]

/-- Before it is ordered, a statement selects the key columns and has no orders. -/
theorem grouped_joined (q : Query) (t : EntityType) (base : String) (catalog : Catalog)
    (layout : Layout) (simple : Bool) (parts : List Where) :
    (q.grouped layout (q.start t base).1 simple parts
        (q.joined t base catalog).statement).fields = (q.start t base).2.fields ∧
      (q.grouped layout (q.start t base).1 simple parts
        (q.joined t base catalog).statement).orders = [] := by
  have hun := q.ungrouped_grouped layout (q.start t base).1 simple parts
    (q.joined t base catalog).statement
  have hframe := (q.joined_spec t base catalog).frame
  have hfilled : (q.filled layout simple parts
        (q.joined t base catalog).statement).fields = (q.start t base).2.fields ∧
      (q.filled layout simple parts (q.joined t base catalog).statement).orders = [] := by
    rw [filled, hframe]
    exact ⟨rfl, rfl⟩
  exact ⟨(congrArg Select.fields hun).trans hfilled.1, (congrArg Select.orders hun).trans hfilled.2⟩

theorem start_labels_nodup (q : Query) (t : EntityType) (base : String) :
    ((q.start t base).2.fields.map (·.label)).Nodup := by
  obtain ⟨key, value, hne, hstart, -⟩ := q.start_spec t base
  rw [hstart]
  simp [hne]

/-- An ordering reads the value that several rows are ordered by as one; a statement that does not
group has one row for each. -/
theorem reads_sortKey {s : Sorting} {r : ResolvedSort} (hs : s ∈ q.activeSorts)
    (h : Resolves (q.placement t base catalog) catalog (q.start t base).1
      (q.joined t base catalog) s r) {simple : Bool} {g : Group}
    (hsingle : simple = true → g.rest = []) (layout : Layout) (parts : List Where) :
    r.Reads simple g (q.grouped layout (q.start t base).1 simple parts
      (q.joined t base catalog).statement)
      (q.sortKey t base catalog (g.scopes.map (q.joint t base catalog)) s) := by
  obtain ⟨rfl, hsource⟩ := h
  have hhead : ((g.scopes.map (q.joint t base catalog)).map
      (q.sortValue t base catalog r.sorting)).headD .null =
        q.sortValue t base catalog r.sorting (q.joint t base catalog g.first) := rfl
  rcases hsource with ⟨label, hlabel, hsource⟩ | ⟨hnone, place, p, hplace, hsource, hcolumn, hp⟩
  · rcases q.start_label? t base r.sorting.field with ⟨hnone, -⟩ | ⟨label', hlabel', hhas, hfield⟩
    · rw [hnone] at hlabel
      cases hlabel
    · obtain rfl : label' = label := Option.some.inj (hlabel'.symm.trans hlabel)
      obtain ⟨hfields, -⟩ := q.grouped_joined t base catalog layout simple parts
      rw [← hfields] at hfield
      have hvalue := Group.labelled_field (g := g) hfield (hfields ▸ q.start_labels_nodup t base)
      simp only [ResolvedSort.Reads, hsource, sortKey, sortsByField, hhas, Bool.not_true,
        Bool.false_and, Bool.false_eq_true, if_false, hhead]
      rw [hvalue, read_base, sortValue, hhas, if_pos rfl]
  · have hhas : t.keys.has r.sorting.field = false := by
      rcases q.start_label? t base r.sorting.field with ⟨-, hhas⟩ | ⟨label, hlabel, -⟩
      · exact hhas
      · rw [hnone] at hlabel
        cases hlabel
    have hread (scope : Scope) : scope.read p.column =
        q.sortValue t base catalog r.sorting (q.joint t base catalog scope) := by
      rw [hcolumn, read_sort hs hnone hhas hplace]
    have hvalues : (g.scopes.map (q.joint t base catalog)).map
        (q.sortValue t base catalog r.sorting) = g.scopes.map (·.read p.column) := by
      rw [List.map_map]
      exact List.map_congr_left fun scope _ => (hread scope).symm
    have hfield : q.sortsByField t base catalog r.sorting = (p.source == .fieldTable) := by
      rw [sortsByField, hhas, hplace, hp]
      rfl
    simp only [ResolvedSort.Reads, hsource, sortKey, hfield, hhead]
    cases hsourceKind : p.source with
    | entityTable =>
      rw [← hread]
      simp
    | fieldTable =>
      rw [hvalues, beq_self_eq_true, if_pos rfl]
      cases simple with
      | false => exact (Aggregate.aggregate_eq ..).symm
      | true =>
        rw [Group.scopes, hsingle rfl, List.map_singleton, Aggregate.pick_singleton]
        rfl

/-- The result row of a group of joined rows. -/
theorem row_eq {c : Compiled} (h : q.compileOver catalog t base = .ok c) {g : Group}
    (hsingle : c.simple = true → g.rest = []) :
    g.row c.statement = .ok ⟨g.values c.statement,
      q.sortKeys t base catalog (g.scopes.map (q.joint t base catalog))⟩ := by
  obtain ⟨rs, parts, hresolves, hstatement⟩ := exists_resolved h
  have hreads : List.Forall₂ (fun r v => r.Reads c.simple g
      (q.grouped (q.placement t base catalog) (q.start t base).1 c.simple parts
        (q.joined t base catalog).statement) v) rs
      (q.sortKeys t base catalog (g.scopes.map (q.joint t base catalog))) := by
    rw [sortKeys, List.forall₂_map_right_iff]
    have hmem := (List.forall₂_and_left _ _).2 ⟨fun s (hs : s ∈ q.activeSorts) => hs, hresolves⟩
    exact (hmem.imp fun s r h => reads_sortKey h.1 h.2 hsingle _ parts).flip
  obtain ⟨os, horders, hkeys, -⟩ := ResolvedSort.foldl_orderBy_spec hreads
  rw [(q.grouped_joined t base catalog (q.placement t base catalog) c.simple parts).2,
    List.nil_append] at horders
  have hkeys' : c.statement.orders.mapM (g.orderKey c.statement) =
      .ok (q.sortKeys t base catalog (g.scopes.map (q.joint t base catalog))) := by
    have hfinal : c.statement.orders = os := by
      rw [hstatement]
      exact horders
    rw [hfinal, hstatement]
    exact mapM_eq_ok_of_forall₂ hkeys
  rw [Group.row, hkeys']
  rfl

/-- The directions of a statement are those of the orderings. -/
theorem directions_eq {c : Compiled} (h : q.compileOver catalog t base = .ok c) :
    c.statement.orders.map (·.direction) = q.activeSorts.map (·.direction) := by
  obtain ⟨rs, parts, hresolves, hstatement⟩ := exists_resolved h
  have hdirections := ResolvedSort.directions_foldl_orderBy c.simple rs
    (q.grouped (q.placement t base catalog) (q.start t base).1 c.simple parts
      (q.joined t base catalog).statement)
  rw [(q.grouped_joined t base catalog (q.placement t base catalog) c.simple parts).2,
    List.map_nil, List.nil_append] at hdirections
  rw [hstatement, finish_eq, ← sortings_of_resolves hresolves, List.map_map]
  exact hdirections

end Query
end EntitySelect
