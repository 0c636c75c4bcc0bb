import EntitySelect.Proofs.Query.Unsorted

/-! Orderings only order. A statement that gives all its rows gives the keys of the rows of the base
table that fulfil the conditions, and the joins that are made for orderings neither add a key nor
take one away. Rows of the base table may have their keys in common. -/
namespace EntitySelect

namespace CompiledAs
variable {q : Query} {t : EntityType} {base : String} {catalog : Catalog} {c : Compiled}
  {d : Dataset}

/-- The rows of a statement that neither groups nor cuts are those of the rows of the base table
that fulfil the conditions. -/
theorem mem_pairs_iff (h : CompiledAs q t base catalog c) (hsimple : c.simple = true)
    (hwindow : q.effectiveWindow = none) {rows : List Row}
    (hrows : d.fetchAll c.statement = .ok rows) {p? : Option (UInt64 × UInt64)} :
    p? ∈ rows.map Row.pair? ↔
      ∃ b ∈ d.tableRows base, q.Matches t base catalog d b ∧ t.keys.pair? b = p? := by
  obtain ⟨-, scopes, groups, sorted, hscopes, hgroup, hsorted, rfl⟩ :=
    Dataset.fetchAll_eq_ok_iff.1 hrows
  obtain ⟨-, rfl⟩ := Dataset.scopes_eq_ok_iff.1 hscopes
  rw [h.group_of_simple hsimple] at hgroup
  obtain rfl := Except.ok.inj hgroup
  have hvalues := Group.map_values_of_mapM_row hsorted
  have hperm := ((sortRows_perm (c.statement.orders.map (·.direction)) sorted).map
    (·.values)).map Row.pair?
  rw [hvalues] at hperm
  rw [h.window, hwindow]
  refine hperm.mem_iff.trans ?_
  simp only [List.map_map, List.mem_map, List.mem_flatMap, Function.comp_apply, h.table]
  constructor
  · rintro ⟨s, ⟨b, hb, hs⟩, rfl⟩
    exact ⟨b, hb, h.matches_of_mem_block hs, (h.pair?_of_mem_block (g := ⟨s, []⟩) hs).symm⟩
  · rintro ⟨b, hb, hmatches, rfl⟩
    obtain ⟨s, hs⟩ := h.exists_mem_block hmatches
    exact ⟨s, ⟨b, hb, hs⟩, h.pair?_of_mem_block (g := ⟨s, []⟩) hs⟩

/-- Its ids are collected under the keys of these rows. -/
theorem keys_of_simple (h : CompiledAs q t base catalog c) (hsimple : c.simple = true)
    (hwindow : q.effectiveWindow = none) {rows : List Row}
    (hrows : d.fetchAll c.statement = .ok rows) {ids : KeyedIds}
    (hids : KeyedIds.ofRows rows = .ok ids) :
    ids.keys.Nodup ∧ ∀ key, key ∈ ids.keys ↔ ∃ b ∈ d.tableRows base,
      q.Matches t base catalog d b ∧ (t.keys.pair? b).map (·.1) = some key := by
  obtain ⟨ps, hps, rfl⟩ := KeyedIds.ofRows_eq_ok_iff.1 hids
  have hempty : ({} : KeyedIds).keys.Nodup := List.nodup_nil
  obtain ⟨hnodup, hmem⟩ := KeyedIds.keys_addPairs hempty
  refine ⟨hnodup, fun key => (hmem key).trans ?_⟩
  have hpairs (p : UInt64 × UInt64) : p ∈ ps ↔
      ∃ b ∈ d.tableRows base, q.Matches t base catalog d b ∧ t.keys.pair? b = some p := by
    rw [← h.mem_pairs_iff hsimple hwindow hrows, hps]
    simp
  constructor
  · rintro (hnone | hkey)
    · cases hnone
    · obtain ⟨p, hp, rfl⟩ := List.mem_map.1 hkey
      obtain ⟨b, hb, hmatches, heq⟩ := (hpairs p).1 hp
      exact ⟨b, hb, hmatches, by rw [heq, Option.map_some]⟩
  · rintro ⟨b, hb, hmatches, heq⟩
    obtain ⟨p, hp, rfl⟩ := Option.map_eq_some_iff.1 heq
    exact .inr (List.mem_map.2 ⟨p, (hpairs p).2 ⟨b, hb, hmatches, hp⟩, rfl⟩)

end CompiledAs

namespace Query
variable {q : Query} {catalog : Catalog} {d : Dataset}

/-- Where all rows are asked for, the result holds the keys of the rows of the base table that
fulfil the conditions. -/
theorem keys_of_execute {t : EntityType} {base : String}
    (ht : catalog.describe q.entityType = some t) (hbase : t.baseTable = some base)
    (hcount : q.count = false) (hwindow : q.window = none) (hpager : q.activePager = none)
    {out : Output} (hout : (q.execute catalog d.connection).1 = .ok out) :
    ∃ ids, out = .entities ids none ∧ ids.keys.Nodup ∧
      ∀ key, key ∈ ids.keys ↔ ∃ b ∈ d.tableRows base,
        q.Matches t base catalog d b ∧ (t.keys.pair? b).map (·.1) = some key := by
  obtain ⟨c, hc⟩ := exists_compiled_of_execute hout
  have h := compiledAs_of_compile hc ht hbase
  obtain ⟨page, rows, ids, hpage, hrows, hids, rfl⟩ :=
    (execute_entities_iff hc (h.count.trans hcount)).1 hout
  rw [h.pager, hpager] at hpage
  obtain rfl : page = none := hpage
  have hsimple : c.simple = true := by
    rw [h.simple, needsExactRows, hcount, hwindow, hpager]
    exact Bool.or_true _
  have heffective : q.effectiveWindow = none :=
    (effectiveWindow_of_unpaged hpager).trans hwindow
  exact ⟨ids, rfl, h.keys_of_simple hsimple heffective hrows hids⟩

/-- With any orderings a query that asks for all ids gives the same keys as without, each once. -/
theorem execute_sorted_keys (hcount : q.count = false) (hwindow : q.window = none)
    (hpager : q.activePager = none) {sorts : List Sorting} {sorted plain : Output}
    (hsorted : ({ q with sorts := sorts }.execute catalog d.connection).1 = .ok sorted)
    (hplain : ({ q with sorts := [] }.execute catalog d.connection).1 = .ok plain) :
    ∃ ids ids', sorted = .entities ids none ∧ plain = .entities ids' none ∧
      ids.keys.Nodup ∧ ids'.keys.Nodup ∧ ids.keys.Perm ids'.keys := by
  obtain ⟨c, hc⟩ := exists_compiled_of_execute hplain
  obtain ⟨t, base, ht, hbase, -⟩ := compile_eq_ok_iff.1 hc
  obtain ⟨ids, hids, hnodup, hmem⟩ := keys_of_execute (q := { q with sorts := sorts }) ht hbase
    hcount hwindow hpager hsorted
  obtain ⟨ids', hids', hnodup', hmem'⟩ := keys_of_execute (q := { q with sorts := [] }) ht hbase
    hcount hwindow hpager hplain
  refine ⟨ids, ids', hids, hids', hnodup, hnodup', ?_⟩
  rw [List.perm_ext_iff_of_nodup hnodup hnodup']
  intro key
  exact (hmem key).trans (hmem' key).symm

/-- Nodes by their tags in a table that holds a node twice: the node without tags comes first, and
each is found once. -/
theorem execute_sorted_keys_doubled :
    let rows := [1, 2, 1].map fun nid => [("nid", Json.word nid)]
    let d : Dataset := { tables := Dataset.tagged.tables.insert "node" rows }
    ∃ ids ids' : KeyedIds,
      (({ entityType := "node", sorts := [{ field := "tags" }] } : Query).execute
        Catalog.tagged d.connection).1 = .ok (.entities ids none) ∧
      (({ entityType := "node" } : Query).execute Catalog.tagged d.connection).1 =
        .ok (.entities ids' none) ∧
      ids.keys = [2, 1] ∧ ids'.keys = [1, 2] ∧ ids.keys.Perm ids'.keys := by
  intro rows d
  have hsorted : (({ entityType := "node", sorts := [{ field := "tags" }] } : Query).execute
      Catalog.tagged d.connection).1 = .ok (.entities ⟨[(2, 2), (1, 1)]⟩ none) :=
    eq_ok_of_toOption (by decide +kernel)
  have hplain : (({ entityType := "node" } : Query).execute Catalog.tagged d.connection).1 =
      .ok (.entities ⟨[(1, 1), (2, 2)]⟩ none) := eq_ok_of_toOption (by decide +kernel)
  obtain ⟨ids, ids', hids, hids', -, -, hperm⟩ :=
    execute_sorted_keys (q := { entityType := "node" }) rfl rfl rfl hsorted hplain
  obtain ⟨rfl, -⟩ := Output.entities.inj hids
  obtain ⟨rfl, -⟩ := Output.entities.inj hids'
  exact ⟨_, _, hsorted, hplain, rfl, rfl, hperm⟩

end Query
end EntitySelect
