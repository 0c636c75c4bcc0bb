import EntitySelect.Proofs.Dataset.Blocks
import EntitySelect.Proofs.Query.Compiling

/-! Inner joins lose nothing. A table is joined inwards only for a comparison that has to hold and
that null cannot fulfil, so rows without a partner would be dropped by the condition anyway. Who
asks for the table after that does not matter. -/
namespace EntitySelect

namespace Select

/-- The statement with left joins only. -/
def allLeft (s : Select) : Select := { s with joins := s.joins.map Join.asLeft }

theorem tableLabels_allLeft (s : Select) : s.allLeft.tableLabels = s.tableLabels := by
  rw [tableLabels, allLeft, List.map_map]
  rfl

theorem tables_allLeft (s : Select) : s.allLeft.tables = s.tables := by
  rw [tables, allLeft, List.map_map]
  rfl

theorem mentions_allLeft (s : Select) : s.allLeft.mentions = s.mentions := by
  simp only [mentions, allLeft, List.flatMap_map]
  rfl

theorem checkLabels_allLeft (s : Select) : s.allLeft.checkLabels = s.checkLabels := by
  rw [checkLabels, checkLabels, mentions_allLeft, tableLabels_allLeft]

end Select

namespace Dataset
variable {d : Dataset} {s : Select}

/-- The kinds of joins do not matter where the condition sees to it that every inner join has found
a row. -/
theorem block_allLeft (hapart : s.tableLabels.Nodup)
    (hneeded : ∀ j ∈ s.joins, j.kind = .inner →
      ∀ t, s.condition.holds t = true → (t.lookup j.label).isSome) (b : Record) :
    d.block s.allLeft b = d.block s b :=
  filter_expand_asLeft (List.nodup_cons.1 hapart).2 (lookup_base_of_nodup hapart b) hneeded

theorem scopes_allLeft (hapart : s.tableLabels.Nodup)
    (hneeded : ∀ j ∈ s.joins, j.kind = .inner →
      ∀ t, s.condition.holds t = true → (t.lookup j.label).isSome) :
    d.scopes s.allLeft = d.scopes s := by
  have hblock : d.block s.allLeft = d.block s := funext (block_allLeft hapart hneeded)
  rw [scopes_eq, scopes_eq, s.tables_allLeft, hblock]
  rfl

theorem fetchAll_allLeft (hapart : s.tableLabels.Nodup)
    (hneeded : ∀ j ∈ s.joins, j.kind = .inner →
      ∀ t, s.condition.holds t = true → (t.lookup j.label).isSome) :
    d.fetchAll s.allLeft = d.fetchAll s := by
  rw [fetchAll, fetchAll, s.checkLabels_allLeft, scopes_allLeft hapart hneeded]
  rfl

end Dataset

namespace Query
variable {q : Query} {t : EntityType} {base : String} {catalog : Catalog}

/-- Orderings never ask for inner joins. -/
theorem kind_of_mem_sortRequests {r : Request} (h : r ∈ q.sortRequests t base catalog) :
    r.kind = .left := by
  obtain ⟨s, -, hs⟩ := List.mem_filterMap.1 h
  unfold Sorting.request? at hs
  split at hs
  · cases hs
    rfl
  · cases hs

/-- An inner join is asked for by a comparison that has to hold. -/
theorem exists_leaf_of_inner {r : Request} (h : r ∈ q.requests t base catalog)
    (hkind : r.kind = .inner) : ∃ l, (false, l) ∈ q.conditions.toCondition.marked false ∧
      l.joinKind false = .inner ∧ l.langcode = r.langcode ∧
        (q.placement t base catalog).locate catalog l.field = .ok (some r.place) := by
  rcases List.mem_append.1 h with h | h
  · obtain ⟨⟨underOr, l⟩, hl, hr⟩ := List.mem_filterMap.1 h
    unfold Leaf.request? at hr
    split at hr
    · next place hplace =>
      cases hr
      cases underOr with
      | true => cases hkind
      | false => exact ⟨l, hl, hkind, rfl, hplace⟩
    · cases hr
  · rw [kind_of_mem_sortRequests h] at hkind
    cases hkind

end Query

namespace CompiledAs
variable {q : Query} {t : EntityType} {base : String} {catalog : Catalog} {c : Compiled}

/-- Rows that fulfil the condition have found a partner in every inner join. -/
theorem lookup_isSome (h : CompiledAs q t base catalog c) {j : Join} (hj : j ∈ c.statement.joins)
    (hkind : j.kind = .inner) {s : Scope} (hs : c.statement.condition.holds s = true) :
    (s.lookup j.label).isSome := by
  rw [h.joins] at hj
  obtain ⟨r, hfirst, hlabel, hjoin⟩ := (q.joined_spec t base catalog).created j hj
  have hinner : r.kind = .inner := by
    rw [hjoin] at hkind
    exact hkind
  obtain ⟨l, hl, hl', hlangcode, hplace⟩ :=
    Query.exists_leaf_of_inner (Layout.mem_of_first hfirst) hinner
  have hbase : (q.placement t base catalog).atBase r.place = false :=
    Layout.atBase_of_first hfirst
  -- the comparison is made in the table of this very join
  have hcolumn : l.column (q.placement t base catalog) catalog (q.joined t base catalog) =
      ⟨j.label, r.place.column⟩ := by
    simp only [Leaf.column, hplace]
    exact Layout.column_of_get? hbase (hlangcode ▸ hlabel)
  rw [h.condition_holds] at hs
  have haccepts := Condition.holds_of_mem_marked hl hs
  simp only [hcolumn] at haccepts
  cases hlookup : s.lookup j.label with
  | some row => rfl
  | none =>
    rw [Scope.read, hlookup, Leaf.accepts_null hl'] at haccepts
    cases haccepts

theorem tableLabels_eq (h : CompiledAs q t base catalog c) :
    c.statement.tableLabels = (q.joined t base catalog).statement.tableLabels := by
  rw [Select.tableLabels, Select.tableLabels, h.joins, h.label, (q.joined_spec t base catalog).label]
  rfl

theorem apart (h : CompiledAs q t base catalog c) : c.statement.tableLabels.Nodup := by
  rw [h.tableLabels_eq]
  exact (q.joined_spec t base catalog).apart

end CompiledAs

/-- The statement of a query gives the same rows when all its joins are left joins, and so does the
question for their number. -/
theorem Query.fetch_allLeft {q : Query} {catalog : Catalog} {c : Compiled}
    (h : q.compile catalog = .ok c) (d : Dataset) :
    d.fetchAll c.statement.allLeft = d.fetchAll c.statement ∧
      d.fetchCount c.statement.allLeft.countQuery = d.fetchCount c.statement.countQuery := by
  obtain ⟨t, base, -, -, hover⟩ := compile_eq_ok_iff.1 h
  have hcompiled := compiledAs hover
  have hneeded : ∀ j ∈ c.statement.joins, j.kind = .inner →
      ∀ s, c.statement.condition.holds s = true → (s.lookup j.label).isSome :=
    fun j hj hkind s hs => hcompiled.lookup_isSome hj hkind hs
  constructor
  · exact Dataset.fetchAll_allLeft hcompiled.apart hneeded
  · have hinner : d.fetchAll { c.statement with orders := [] }.allLeft =
        d.fetchAll { c.statement with orders := [] } :=
      Dataset.fetchAll_allLeft hcompiled.apart hneeded
    exact congrArg (Except.map List.length) hinner

/-- Nodes, and the tags that some of them have. -/
def Catalog.tagged : Catalog where
  entityTypes := Dict.ofList
    [("node", { name := "node", baseTable := some "node", keys := { id := "nid" } })]
  tables := Dict.ofList [
    ("node", ⟨"node", NameSet.ofNames ["nid", "title"]⟩),
    ("field_data_tags",
      ⟨"field_data_tags", NameSet.ofNames ["entity_id", "entity_type", "tags_value"]⟩)]
  fields := Dict.ofList
    [("tags", { name := "tags", bundles := Dict.ofList [("node", NameSet.ofNames ["page"])] })]

/-- The node 1 has two tags, the node 2 has none. -/
def Dataset.tagged : Dataset where
  tables := Dict.ofList [
    ("node", [
      [("nid", .word 1), ("title", .string "x")],
      [("nid", .word 2), ("title", .string "x")]]),
    ("field_data_tags", [
      [("entity_type", .string "node"), ("entity_id", .word 1), ("tags_value", .string "a")],
      [("entity_type", .string "node"), ("entity_id", .word 1), ("tags_value", .string "b")]])]

theorem Dataset.keyed_tagged : ∃ t, Catalog.tagged.describe "node" = some t ∧
    t.baseTable = some "node" ∧ Keyed t.keys (Dataset.tagged.tableRows "node") :=
  ⟨_, rfl, rfl, by decide, by decide, by decide⟩

/-- Asks for a tag that the later question for its absence can only read from an inner join. -/
def Query.tagged : Query where
  entityType := "node"
  conditions := { parts := [
    .leaf { field := "tags", operator := some .isNotNull },
    .group .or [.missing "tags", .leaf { field := "title", value := .string "x" }]] }

theorem Query.exists_compiled_tagged : ∃ c, Query.tagged.compile Catalog.tagged = .ok c := ⟨_, rfl⟩

theorem Query.fetch_allLeft_tagged : ∃ c, Query.tagged.compile Catalog.tagged = .ok c ∧
    c.statement.joins.map (·.kind) = [.inner] ∧
    Dataset.tagged.fetchAll c.statement.allLeft = Dataset.tagged.fetchAll c.statement ∧
    Dataset.tagged.fetchCount c.statement.allLeft.countQuery =
      Dataset.tagged.fetchCount c.statement.countQuery := by
  have hkinds : (Query.tagged.compile Catalog.tagged).toOption.map
      (·.statement.joins.map (·.kind)) = some [.inner] := by decide +kernel
  obtain ⟨c, hc⟩ := Query.exists_compiled_tagged
  rw [hc] at hkinds
  exact ⟨c, hc, Option.some.inj hkinds, Query.fetch_allLeft hc Dataset.tagged⟩

end EntitySelect
