import EntitySelect.Proofs.Query.Counting
import EntitySelect.Proofs.Query.Listing

/-! A window that leaves room for all rows. The statement without a window sorts all joined rows and
keeps each key where it first occurs; the statement with the window sorts one row for each group.
Both give the same ids, and they agree on the order as far as grouping does not change which rows
come before which. -/
namespace EntitySelect

namespace Query
variable (q : Query) (t : EntityType) (base : String) (catalog : Catalog) (d : Dataset)

/-- As one group, what is found for a row of the base table comes strictly before what is found for
another. -/
def Precedes (b b' : Record) : Prop :=
  q.compare t base catalog (q.found t base catalog d b) (q.found t base catalog d b') = .lt

/-- Something that is found for a row of the base table comes strictly before all that is found for
another. -/
def Leads (b b' : Record) : Prop :=
  ∃ r ∈ q.found t base catalog d b, ∀ r' ∈ q.found t base catalog d b',
    q.compare t base catalog [r] [r'] = .lt

/-- All that is found, in order. -/
def sortedRows : List (Record × Choice) :=
  sortWith (fun r r' => q.compare t base catalog [r] [r'])
    ((d.tableRows base).flatMap (q.found t base catalog d))

/-- The rows of the base table, each as one group, in order. -/
def sortedGroups : List Record :=
  sortWith (fun b b' => q.compare t base catalog (q.found t base catalog d b)
    (q.found t base catalog d b')) (q.foundRows t base catalog d)

variable {q t base catalog d}

theorem mem_sortedRows {r : Record × Choice} : r ∈ q.sortedRows t base catalog d ↔
    r.1 ∈ q.foundRows t base catalog d ∧ r ∈ q.found t base catalog d r.1 := by
  rw [sortedRows, (sortWith_perm _ _).mem_iff, List.mem_flatMap]
  constructor
  · rintro ⟨b, hb, hr⟩
    obtain rfl := found_fst hr
    exact ⟨mem_foundRows.2 ⟨hb, List.ne_nil_of_mem hr⟩, hr⟩
  · rintro ⟨hb, hr⟩
    exact ⟨r.1, (mem_foundRows.1 hb).1, hr⟩

/-- Every row of the base table that something is found for is in order somewhere. -/
theorem eraseDups_sortedRows_perm (hapart : (q.foundRows t base catalog d).Nodup) :
    ((q.sortedRows t base catalog d).map (·.1)).eraseDups.Perm (q.foundRows t base catalog d) := by
  refine (List.perm_ext_iff_of_nodup (nodup_eraseDups _) hapart).2 fun b => ?_
  rw [List.mem_eraseDups, List.mem_map]
  constructor
  · rintro ⟨r, hr, rfl⟩
    exact (mem_sortedRows.1 hr).1
  · intro hb
    obtain ⟨r, hr⟩ := List.exists_mem_of_ne_nil _ (mem_foundRows.1 hb).2
    obtain rfl := found_fst hr
    exact ⟨r, mem_sortedRows.2 ⟨hb, hr⟩, rfl⟩

section Order
variable (hc : q.SortsConsistently t base catalog d)
  (hapart : (q.foundRows t base catalog d).Nodup)
include hc hapart

/-- A group overtakes another if it comes before the other as a whole. -/
theorem ahead_sortedGroups : (q.sortedGroups t base catalog d).Pairwise
    (Ahead (q.foundRows t base catalog d) (q.Precedes t base catalog d)) := by
  have hswap (b b' : Record) : (q.compare t base catalog (q.found t base catalog d b)
      (q.found t base catalog d b')).swap = q.compare t base catalog (q.found t base catalog d b')
        (q.found t base catalog d b) := compare_swap ..
  have hsorted := pairwise_sortWith hswap
    (fun b b' b'' hb hb' hb'' => compare_trans hc (areFound_found hb) (areFound_found hb')
      (areFound_found hb'')) (fun b hb => hb)
    ((pairwise_idxOf_lt hapart).imp fun h => Nat.le_of_lt h)
  exact hsorted.imp fun h => h.ahead hswap

/-- Joined rows stand in order, and within one another as the rows of the base table do. -/
theorem before_sortedRows : (q.sortedRows t base catalog d).Pairwise
    (Before (fun r r' => q.compare t base catalog [r] [r']) fun r r' =>
      (q.foundRows t base catalog d).idxOf r.1 ≤ (q.foundRows t base catalog d).idxOf r'.1) := by
  have hfound : (d.tableRows base).flatMap (q.found t base catalog d) =
      (q.foundRows t base catalog d).flatMap (q.found t base catalog d) := by
    unfold foundRows
    induction d.tableRows base with
    | nil => rfl
    | cons b rest ih =>
      rw [List.flatMap_cons, ih, List.filter_cons]
      cases hb : q.found t base catalog d b with
      | nil => rfl
      | cons r more =>
        simp only [List.isEmpty_cons, Bool.not_false, if_true, List.flatMap_cons, hb]
  refine pairwise_sortWith (fun r r' => compare_swap [r] [r'])
    (fun r r' r'' hr hr' hr'' => compare_trans hc hr hr' hr'')
    (fun r hr => areFound_singleton hr) ?_
  rw [hfound, List.pairwise_flatMap]
  constructor
  · intro b _
    refine List.pairwise_of_forall_mem_list fun r hr r' hr' => ?_
    exact Nat.le_of_eq (by rw [found_fst hr, found_fst hr'])
  · refine (pairwise_idxOf_lt hapart).imp fun {b b'} hlt r hr r' hr' => ?_
    rw [found_fst hr, found_fst hr']
    exact Nat.le_of_lt hlt

/-- A key overtakes another if one of its rows comes before all rows of the other. -/
theorem ahead_sortedRows : ((q.sortedRows t base catalog d).map (·.1)).eraseDups.Pairwise
    (Ahead (q.foundRows t base catalog d) (q.Leads t base catalog d)) := by
  have hmem (b : Record) := (eraseDups_sortedRows_perm hapart).mem_iff (a := b)
  refine (pairwise_eraseDups (·.1) (before_sortedRows hc hapart)).imp_of_mem ?_
  rintro _ b' - hb' ⟨r, hr, rfl, hall⟩
  have hbefore : ∀ r' ∈ q.found t base catalog d b', Before
      (fun r r' => q.compare t base catalog [r] [r']) (fun r r' =>
        (q.foundRows t base catalog d).idxOf r.1 ≤ (q.foundRows t base catalog d).idxOf r'.1)
      r r' := by
    intro r' hr'
    obtain rfl := found_fst hr'
    exact hall r' (mem_sortedRows.2 ⟨(hmem _).1 hb', hr'⟩) rfl
  unfold Ahead
  split
  · rintro ⟨r', hr', hlt⟩
    have hle := (hbefore r' hr').isLE
    rw [← compare_swap, hlt r (mem_sortedRows.1 hr).2] at hle
    cases hle
  · next hlast =>
    refine ⟨r, (mem_sortedRows.1 hr).2, fun r' hr' => (hbefore r' hr').resolve_right ?_⟩
    rintro ⟨-, hidx⟩
    rw [found_fst hr'] at hidx
    exact hlast hidx

/-- Grouping keeps the order exactly if it does not change which rows come before which. -/
theorem sortedGroups_eq_iff :
    q.sortedGroups t base catalog d = ((q.sortedRows t base catalog d).map (·.1)).eraseDups ↔
      (q.foundRows t base catalog d).Pairwise fun b b' =>
        q.Precedes t base catalog d b' b ↔ q.Leads t base catalog d b' b :=
  rearranged_eq_iff hapart (sortWith_perm _ _) (eraseDups_sortedRows_perm hapart)
    (ahead_sortedGroups hc hapart) (ahead_sortedRows hc hapart)

end Order

section Keys
variable (hkeyed : Keyed t.keys (d.tableRows base))
include hkeyed

theorem foundRows_nodup : (q.foundRows t base catalog d).Nodup :=
  (List.Nodup.of_map _ hkeyed.values_apart).sublist List.filter_sublist

theorem keys_foundRows_nodup :
    ((q.foundRows t base catalog d).map fun b => (t.keys.pair b).1).Nodup :=
  hkeyed.pairs_apart.sublist (List.filter_sublist.map _)

theorem pair?_of_foundRows {b : Record} (hb : b ∈ q.foundRows t base catalog d) :
    t.keys.pair? b = some (t.keys.pair b) := hkeyed.pair?_eq (mem_foundRows.1 hb).1

/-- Rows of the base table with the same key are the same row. -/
theorem eq_of_pair_eq {b b' : Record} (hb : b ∈ q.foundRows t base catalog d)
    (hb' : b' ∈ q.foundRows t base catalog d) (h : (t.keys.pair b).1 = (t.keys.pair b').1) :
    b = b' := List.inj_on_of_nodup_map (keys_foundRows_nodup hkeyed) hb hb' h

/-- Without a window the ids are those of the rows that come first under their keys. -/
theorem entries_unwindowed {c : Compiled} (hover : q.compileOver catalog t base = .ok c)
    (hsimple : c.simple = true) (hwindow : q.effectiveWindow = none) {rows : List Row}
    (hrows : d.fetchAll c.statement = .ok rows) {ids : KeyedIds}
    (hids : KeyedIds.ofRows rows = .ok ids) :
    ids.entries = ((q.sortedRows t base catalog d).map (·.1)).eraseDups.map t.keys.pair := by
  have hpairs : rows.map Row.pair? =
      (((q.sortedRows t base catalog d).map (·.1)).map t.keys.pair).map some := by
    rw [pairs_of_simple hover hsimple hrows, hwindow, List.map_map, List.map_map]
    exact List.map_congr_left fun r hr => pair?_of_foundRows hkeyed (mem_sortedRows.1 hr).1
  have hbase : ∀ b ∈ (q.sortedRows t base catalog d).map (·.1),
      b ∈ q.foundRows t base catalog d := by
    intro b hb
    obtain ⟨r, hr, rfl⟩ := List.mem_map.1 hb
    exact (mem_sortedRows.1 hr).1
  rw [KeyedIds.ofRows_eq_ok hpairs] at hids
  obtain rfl := Except.ok.inj hids
  rw [KeyedIds.entries_addPairs, eraseDups_map]
  · intro b hb b' hb' heq
    exact eq_of_pair_eq hkeyed (hbase b hb) (hbase b' hb') (congrArg Prod.fst heq)
  · intro e he e' he' hkey
    obtain ⟨b, hb, rfl⟩ := List.mem_map.1 he
    obtain ⟨b', hb', rfl⟩ := List.mem_map.1 he'
    rw [eq_of_pair_eq hkeyed (hbase b hb) (hbase b' hb') hkey]

/-- With a window that leaves room for all they are those of the groups. -/
theorem entries_windowed {c : Compiled} (hover : q.compileOver catalog t base = .ok c)
    (hexact : q.needsExactRows = true) {n : UInt64} (hwindow : q.effectiveWindow = some ⟨0, n⟩)
    (hroom : (q.foundRows t base catalog d).length ≤ n.toNat) {rows : List Row}
    (hrows : d.fetchAll c.statement = .ok rows) {ids : KeyedIds}
    (hids : KeyedIds.ofRows rows = .ok ids) :
    ids.entries = (q.sortedGroups t base catalog d).map t.keys.pair := by
  have hperm : (q.sortedGroups t base catalog d).Perm (q.foundRows t base catalog d) :=
    sortWith_perm _ _
  have hpairs : rows.map Row.pair? =
      ((q.sortedGroups t base catalog d).map t.keys.pair).map some := by
    have hcut : Window.cut (some ⟨0, n⟩) (q.sortedGroups t base catalog d) =
        q.sortedGroups t base catalog d :=
      List.take_of_length_le (Nat.le_trans (Nat.le_of_eq hperm.length_eq) hroom)
    rw [pairs_of_exact hover hexact hkeyed hrows, hwindow]
    change (Window.cut (some ⟨0, n⟩) (q.sortedGroups t base catalog d)).map t.keys.pair? = _
    rw [hcut, List.map_map]
    exact List.map_congr_left fun b hb => pair?_of_foundRows hkeyed (hperm.mem_iff.1 hb)
  have hkeys : ((q.sortedGroups t base catalog d).map fun b => (t.keys.pair b).1).Nodup :=
    (hperm.map _).nodup_iff.2 (keys_foundRows_nodup hkeyed)
  rw [KeyedIds.ofRows_eq_ok hpairs, KeyedIds.addPairs_empty_of_nodup] at hids
  · rw [← Except.ok.inj hids]
  · rw [List.map_map]
    exact hkeys

end Keys

/-- With a window that leaves room for all ids, a query gives the ids that it gives without. Where
the values that are sorted by compare consistently, it gives them in the same order exactly if
grouping does not change which rows come before which. -/
theorem execute_withWindow (ht : catalog.describe q.entityType = some t)
    (hbase : t.baseTable = some base) (hkeyed : Keyed t.keys (d.tableRows base))
    (hcount : q.count = false) (hwindow : q.window = none) (hpager : q.activePager = none)
    {all shown : Output} (hall : (q.execute catalog d.connection).1 = .ok all) {n : UInt64}
    (hshown : ((q.withWindow ⟨0, n⟩).execute catalog d.connection).1 = .ok shown) :
    ∃ ids ids', all = .entities ids none ∧ shown = .entities ids' none ∧
      (ids.size ≤ n.toNat → ids'.entries.Perm ids.entries ∧
        (q.SortsConsistently t base catalog d → (ids' = ids ↔
          (q.foundRows t base catalog d).Pairwise fun b b' =>
            q.Precedes t base catalog d b' b ↔ q.Leads t base catalog d b' b))) := by
  obtain ⟨c, hc⟩ := exists_compiled_of_execute hall
  obtain ⟨c', hc'⟩ := exists_compiled_of_execute hshown
  have h := compiledAs_of_compile hc ht hbase
  have h' := compiledAs_of_compile hc' ht hbase
  obtain ⟨page, rows, ids, hpage, hrows, hids, rfl⟩ :=
    (execute_entities_iff hc (h.count.trans hcount)).1 hall
  obtain ⟨page', rows', ids', hpage', hrows', hids', rfl⟩ :=
    (execute_entities_iff hc' (h'.count.trans hcount)).1 hshown
  have hpager' : (q.withWindow ⟨0, n⟩).activePager = none := hpager
  rw [h.pager, hpager] at hpage
  rw [h'.pager, hpager'] at hpage'
  obtain rfl : page = none := hpage
  obtain rfl : page' = none := hpage'
  have hsimple : c.simple = true := by
    rw [h.simple, needsExactRows, hcount, hwindow, hpager]
    exact Bool.or_true _
  have hexact : (q.withWindow ⟨0, n⟩).needsExactRows = true := Bool.or_true _
  have hentries := entries_unwindowed hkeyed (compileOver_of_compile hc ht hbase) hsimple
    ((effectiveWindow_of_unpaged hpager).trans hwindow) hrows hids
  have hapart : (q.foundRows t base catalog d).Nodup := foundRows_nodup hkeyed
  have hfirst := eraseDups_sortedRows_perm hapart
  refine ⟨ids, ids', rfl, rfl, fun hroom => ?_⟩
  rw [KeyedIds.size, hentries, List.length_map, hfirst.length_eq] at hroom
  have hentries' := entries_windowed (q := q.withWindow ⟨0, n⟩) hkeyed
    (compileOver_of_compile hc' ht hbase) hexact (effectiveWindow_of_unpaged hpager') hroom hrows'
    hids'
  change ids'.entries = (q.sortedGroups t base catalog d).map t.keys.pair at hentries'
  have hgroups : (q.sortedGroups t base catalog d).Perm (q.foundRows t base catalog d) :=
    sortWith_perm _ _
  refine ⟨?_, fun hconsistent => ?_⟩
  · rw [hentries, hentries']
    exact (hgroups.trans hfirst.symm).map _
  · rw [← sortedGroups_eq_iff hconsistent hapart, KeyedIds.eq_iff_entries, hentries, hentries',
      map_eq_map_iff_of_inj]
    intro b hb b' hb' heq
    exact eq_of_pair_eq hkeyed (hgroups.mem_iff.1 hb) (hfirst.mem_iff.1 hb')
      (congrArg Prod.fst heq)

/-- Nodes by their tags from the last, those without tags at the end. -/
theorem execute_withWindow_tagged :
    let q : Query := { entityType := "node", sorts := [{ field := "tags", direction := .desc }] }
    ∃ t ids, (q.execute Catalog.tagged Dataset.tagged.connection).1 = .ok (.entities ids none) ∧
      ((q.withWindow ⟨0, 2⟩).execute Catalog.tagged Dataset.tagged.connection).1 =
        .ok (.entities ids none) ∧
      ids.entries = [(1, 1), (2, 2)] ∧
      q.SortsConsistently t "node" Catalog.tagged Dataset.tagged ∧
      (q.foundRows t "node" Catalog.tagged Dataset.tagged).Pairwise fun b b' =>
        q.Precedes t "node" Catalog.tagged Dataset.tagged b' b ↔
          q.Leads t "node" Catalog.tagged Dataset.tagged b' b := by
  intro q
  have hall : (q.execute Catalog.tagged Dataset.tagged.connection).1 =
      .ok (.entities ⟨[(1, 1), (2, 2)]⟩ none) := eq_ok_of_toOption (by decide +kernel)
  have hshown : ((q.withWindow ⟨0, 2⟩).execute Catalog.tagged Dataset.tagged.connection).1 =
      .ok (.entities ⟨[(1, 1), (2, 2)]⟩ none) := eq_ok_of_toOption (by decide +kernel)
  obtain ⟨t, ht, hbase, hkeyed⟩ := Dataset.keyed_tagged
  obtain ⟨ids, ids', hids, hids', h⟩ := execute_withWindow ht hbase hkeyed rfl rfl rfl hall hshown
  obtain ⟨rfl, -⟩ := Output.entities.inj hids
  obtain ⟨rfl, -⟩ := Output.entities.inj hids'
  have hconsistent : q.SortsConsistently t "node" Catalog.tagged Dataset.tagged := by
    obtain rfl := Option.some.inj ht
    exact sortsConsistently_of_isExact (by decide +kernel)
  exact ⟨t, _, hall, hshown, rfl, hconsistent, ((h (by decide)).2 hconsistent).1 rfl⟩

/-- Nodes by their titles. The window holds both nodes, and yet it puts the node 2 first: the node 1
stands at the first of its titles without the window, and at the title that is joined first with
it. -/
theorem exists_reordered_withWindow :
    let q : Query := { entityType := "node", sorts := [{ field := "title" }] }
    ∃ t, Catalog.translated.describe q.entityType = some t ∧ t.baseTable = some "node" ∧
      Keyed t.keys (Dataset.translated.tableRows "node") ∧
      (q.execute Catalog.translated Dataset.translated.connection).1 =
        .ok (.entities ⟨[(1, 1), (2, 2)]⟩ none) ∧
      ((q.withWindow ⟨0, 2⟩).execute Catalog.translated Dataset.translated.connection).1 =
        .ok (.entities ⟨[(2, 2), (1, 1)]⟩ none) := by
  intro q
  obtain ⟨t, ht, hbase, hkeyed⟩ := Dataset.keyed_translated
  exact ⟨t, ht, hbase, hkeyed, eq_ok_of_toOption (by decide +kernel),
    eq_ok_of_toOption (by decide +kernel)⟩

end Query
end EntitySelect
