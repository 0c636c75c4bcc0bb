import EntitySelect.Proofs.Query.Compilable
import EntitySelect.Proofs.Query.Pages
import EntitySelect.Proofs.Query.Unsorted

/-! Counting agrees with listing. A count needs no ordering, so its statement has only the joins
that the conditions ask for; the rows of the base table behind it are those of the list. -/
namespace EntitySelect

namespace Query
variable {q : Query} {t : EntityType} {base : String} {catalog : Catalog} {c c' : Compiled}
  {d : Dataset}

theorem activeSorts_asCount (q : Query) : q.asCount.activeSorts = [] := if_pos rfl

theorem activePager_asCount (q : Query) : q.asCount.activePager = none := if_pos rfl

theorem requests_asCount (q : Query) (t : EntityType) (base : String) (catalog : Catalog) :
    q.asCount.requests t base catalog = q.conditionRequests t base catalog := by
  rw [requests, sortRequests, activeSorts_asCount, List.filterMap_nil, List.append_nil]
  rfl

/-- What can be listed can be counted. -/
theorem exists_compiled_asCount (hc : q.compile catalog = .ok c) :
    ∃ c', q.asCount.compile catalog = .ok c' := by
  refine exists_compiled_of_subset (q := q) rfl rfl rfl ?_ ⟨c, hc⟩
  rw [activeSorts_asCount]
  exact List.nil_subset _

/-- A query that asks for less to begin with names the first of the tables. -/
theorem tables_isPrefix {q' : Query} (h : CompiledAs q t base catalog c)
    (h' : CompiledAs q' t base catalog c')
    (hplacement : q'.placement t base catalog = q.placement t base catalog)
    (hstart : q'.start t base = q.start t base)
    (hrequests : q'.requests t base catalog <+: q.requests t base catalog) :
    c'.statement.tables <+: c.statement.tables := by
  obtain ⟨more, hmore⟩ := hrequests
  have hjoins : c'.statement.joins <+: c.statement.joins := by
    rw [h.joins, h'.joins, joined, joined, hplacement, hstart, ← hmore, Layout.enterAll_append]
    exact Layout.joins_prefix_enterAll ..
  rw [Select.tables, Select.tables, h.table, h'.table]
  exact (List.prefix_cons_inj base).2 (hjoins.map _)

/-- The tables that a count joins are joined for the list as well. -/
theorem tables_asCount_subset (h : CompiledAs q t base catalog c)
    (h' : CompiledAs q.asCount t base catalog c') : c'.statement.tables ⊆ c.statement.tables :=
  (tables_isPrefix h h' rfl rfl ⟨_, congrArg (· ++ _) (q.requests_asCount t base catalog)⟩).subset

end Query

namespace CompiledAs
variable {q : Query} {t : EntityType} {base : String} {catalog : Catalog} {c : Compiled}
  {d : Dataset}

/-- The number of rows of a statement without orderings. -/
theorem fetchCount_unsorted (h : CompiledAs q t base catalog c) (hunsorted : q.activeSorts = [])
    (hexact : q.needsExactRows = true) (hpager : q.activePager = none)
    (hcovers : d.Covers c.statement) (hkeyed : Keyed t.keys (d.tableRows base)) :
    d.fetchCount c.statement.countQuery =
      .ok (Window.cut q.window (q.matching t base catalog d)).length := by
  obtain ⟨rows, hrows, hpairs⟩ := h.fetchAll_unsorted hunsorted hcovers hkeyed
  rw [h.blocks_eq_matching hexact, Query.effectiveWindow_of_unpaged hpager] at hpairs
  have hlengths := congrArg List.length hpairs
  rw [List.length_map, List.length_map] at hlengths
  rw [h.fetchCount_eq hunsorted, hrows, ← hlengths]
  rfl

/-- The number of ids that are collected from the rows of a statement. -/
theorem size_of_fetchAll (h : CompiledAs q t base catalog c) (hpager : q.activePager = none)
    (hkeyed : Keyed t.keys (d.tableRows base)) {rows : List Row}
    (hrows : d.fetchAll c.statement = .ok rows) {ids : KeyedIds}
    (hids : KeyedIds.ofRows rows = .ok ids) :
    ids.size = (Window.cut q.window (q.matching t base catalog d)).length := by
  cases hwindow : q.window with
  | none =>
    have heffective := (Query.effectiveWindow_of_unpaged hpager).trans hwindow
    exact (h.entries_perm hkeyed heffective hrows hids).length_eq
  | some w =>
    have hexact : q.needsExactRows = true := by
      rw [Query.needsExactRows, hwindow]
      exact Bool.or_true _
    obtain ⟨ps, hps, hperm⟩ := h.pairs_of_cut hkeyed hrows
    rw [h.blocks_eq_matching hexact] at hperm
    rw [Query.effectiveWindow_of_unpaged hpager, hwindow] at hps
    -- the rows that are shown have different keys, so none of them is dropped
    have hapart : ((Window.cut (some w) ps).map (·.1)).Nodup := by
      have hkeys := hkeyed.pairs_apart.sublist (q.keys_matching_sublist t base catalog d)
      exact ((hperm.map _).nodup_iff.2 hkeys).sublist ((Window.cut_sublist (some w) ps).map _)
    rw [KeyedIds.ofRows_eq_ok hps, KeyedIds.addPairs_empty_of_nodup hapart] at hids
    obtain rfl := Except.ok.inj hids
    simp only [KeyedIds.size, Window.cut, Window.show, List.length_take, List.length_drop,
      hperm.length_eq]

end CompiledAs

namespace Query
variable {q : Query} {t : EntityType} {base : String} {catalog : Catalog} {d : Dataset}

/-- The count of a query that is not paged is the number of ids that the query lists. -/
theorem execute_asCount (ht : catalog.describe q.entityType = some t)
    (hbase : t.baseTable = some base) (hkeyed : Keyed t.keys (d.tableRows base))
    (hpager : q.activePager = none) {ids : KeyedIds} {page : Option PageState}
    (hlist : (q.execute catalog d.connection).1 = .ok (.entities ids page)) :
    (q.asCount.execute catalog d.connection).1 = .ok (.count ids.size) := by
  obtain ⟨c, hc⟩ := exists_compiled_of_execute hlist
  have h := compiledAs_of_compile hc ht hbase
  have hcount : q.count = false := by
    cases hcount : q.count with
    | false => rfl
    | true =>
      obtain ⟨n, -, hout⟩ := (execute_count_iff hc (h.count.trans hcount)).1 hlist
      cases hout
  obtain ⟨page', rows, ids', -, hrows, hids, hout⟩ :=
    (execute_entities_iff hc (h.count.trans hcount)).1 hlist
  obtain ⟨rfl, -⟩ := Output.entities.inj hout
  obtain ⟨c', hc'⟩ := exists_compiled_asCount hc
  have h' := compiledAs_of_compile hc' ht hbase
  have hcovers : d.Covers c'.statement := by
    obtain ⟨-, scopes, -, -, hscopes, -⟩ := Dataset.fetchAll_eq_ok_iff.1 hrows
    intro table htable
    exact (Dataset.scopes_eq_ok_iff.1 hscopes).1 table (tables_asCount_subset h h' htable)
  refine (execute_count_iff hc' h'.count).2 ⟨_, ?_, rfl⟩
  change d.fetchCount c'.statement.countQuery = _
  rw [h'.fetchCount_unsorted (activeSorts_asCount q) rfl (activePager_asCount q) hcovers hkeyed,
    h.size_of_fetchAll hpager hkeyed hrows hids]
  rfl

/-- Of the three rows that an ordering by tags gives, two are of the node that has two tags. -/
theorem execute_asCount_tagged :
    let q : Query := { entityType := "node", sorts := [{ field := "tags", direction := .desc }] }
    ∃ ids, (q.execute Catalog.tagged Dataset.tagged.connection).1 = .ok (.entities ids none) ∧
      ids.entries = [(1, 1), (2, 2)] ∧
      (q.asCount.execute Catalog.tagged Dataset.tagged.connection).1 = .ok (.count 2) := by
  intro q
  have hlist : (q.execute Catalog.tagged Dataset.tagged.connection).1 =
      .ok (.entities ⟨[(1, 1), (2, 2)]⟩ none) := eq_ok_of_toOption (by decide +kernel)
  obtain ⟨t, ht, hbase, hkeyed⟩ := Dataset.keyed_tagged
  exact ⟨_, hlist, rfl, execute_asCount ht hbase hkeyed rfl hlist⟩

end Query
end EntitySelect
