import EntitySelect.Proofs.Dataset.Groups
import EntitySelect.Proofs.Query.Counting
import EntitySelect.Proofs.Query.Permuted
import EntitySelect.Proofs.Query.SortedKeys

/-! The order of conditions. It decides which table is joined first, and so the order of the joined
rows, but not which rows are joined. Groups of rows that go by the value of their first row are the
only place where that order shows. -/
namespace EntitySelect

namespace Query

/-- Where orderings look at single rows, what is found first for a row of the base table is ordered
alike by two queries. -/
def SortsAlike (q q' : Query) (t : EntityType) (base : String) (catalog : Catalog) (d : Dataset) :
    Prop :=
  ∀ b ∈ d.tableRows base, ∀ s ∈ q.activeSorts, q.sortsByField t base catalog s = false →
    ∀ r ∈ (q.found t base catalog d b).head?, ∀ r' ∈ (q'.found t base catalog d b).head?,
      (q.sortValue t base catalog s r).order (q.sortValue t base catalog s r') = .eq

/-- The same rows that are found, in two orders, and ordered alike where orderings look at the first
of them. -/
structure Alike (q : Query) (t : EntityType) (base : String) (catalog : Catalog) (d : Dataset)
    (rows rows' : List (Record × Choice)) : Prop where
  found : q.AreFound t base catalog d rows
  perm : rows.Perm rows'
  heads : ∀ s ∈ q.activeSorts, q.sortsByField t base catalog s = false →
    ∀ r ∈ rows.head?, ∀ r' ∈ rows'.head?,
      (q.sortValue t base catalog s r).order (q.sortValue t base catalog s r') = .eq

namespace Alike
variable {q : Query} {t : EntityType} {base : String} {catalog : Catalog} {d : Dataset}
  {rows rows' more more' : List (Record × Choice)}

theorem found_right (h : q.Alike t base catalog d rows rows') :
    q.AreFound t base catalog d rows' := by
  refine ⟨fun hnil => h.found.1 ?_, fun r hr => h.found.2 r (h.perm.mem_iff.2 hr)⟩
  rw [hnil] at h
  exact h.perm.eq_nil

/-- What comes behind the first rows does not show. -/
theorem append (h : q.Alike t base catalog d rows rows')
    (hmore : ∀ r ∈ more, ∃ b ∈ d.tableRows base, r ∈ q.found t base catalog d b)
    (hperm : more.Perm more') : q.Alike t base catalog d (rows ++ more) (rows' ++ more') where
  found := by
    refine ⟨List.append_ne_nil_of_left_ne_nil h.found.1 _, fun r hr => ?_⟩
    exact (List.mem_append.1 hr).elim (h.found.2 r) (hmore r)
  perm := h.perm.append hperm
  heads := by
    rw [List.head?_append_of_ne_nil _ h.found.1, List.head?_append_of_ne_nil _ h.found_right.1]
    exact h.heads

/-- They have keys that compare as equal. -/
theorem sortKeys (hc : q.SortsConsistently t base catalog d)
    (h : q.Alike t base catalog d rows rows') :
    List.Forall₂ (fun v w => v.order w = .eq) (q.sortKeys t base catalog rows)
      (q.sortKeys t base catalog rows') := by
  rw [Query.sortKeys, Query.sortKeys, List.forall₂_map_left_iff, List.forall₂_map_right_iff,
    List.forall₂_same]
  intro s hs
  rw [sortKey, sortKey]
  cases hfield : q.sortsByField t base catalog s with
  | true =>
    refine Aggregate.pick_perm (hc s hs) (fun v hv => ?_) (h.perm.map _)
    obtain ⟨r, hr, rfl⟩ := List.mem_map.1 hv
    obtain ⟨b, hb, hr⟩ := h.found.2 r hr
    exact ⟨b, hb, r, hr, rfl⟩
  | false =>
    obtain ⟨r, more, hrows⟩ := List.exists_cons_of_ne_nil h.found.1
    obtain ⟨r', more', hrows'⟩ := List.exists_cons_of_ne_nil h.found_right.1
    have hheads := h.heads s hs hfield
    rw [hrows, hrows'] at hheads ⊢
    exact hheads r rfl r' rfl

theorem compare_eq (hc : q.SortsConsistently t base catalog d)
    (h : q.Alike t base catalog d rows rows') (hmore : q.Alike t base catalog d more more') :
    q.compare t base catalog rows more = q.compare t base catalog rows' more' :=
  orderKeys_congr hc (forall₂_sortKeys hc h.found) (forall₂_sortKeys hc h.found_right)
    (forall₂_sortKeys hc hmore.found) (forall₂_sortKeys hc hmore.found_right) (h.sortKeys hc)
    (hmore.sortKeys hc)

end Alike

/-- Groups of two statements that have the same rows, ordered alike, of which the first come from
one row of the base table. -/
def SameRows (q : Query) (cs : Conditions) (t : EntityType) (base : String) (catalog : Catalog)
    (d : Dataset) (c c' : Compiled) (g g' : Group) : Prop :=
  (∃ b, g.first ∈ d.block c.statement b ∧ g'.first ∈ d.block c'.statement b) ∧
    q.Alike t base catalog d (g.scopes.map (q.joint t base catalog))
      (g'.scopes.map ((q.withConditions cs).joint t base catalog))

section Rows
variable {q : Query} {cs : Conditions} {t : EntityType} {base : String} {catalog : Catalog}
  {d : Dataset} {c c' : Compiled} (hperm : q.conditions.toCondition.Permuted cs.toCondition)
  (hlinks : ∀ pair,
    (q.withConditions cs).link? t base catalog pair = q.link? t base catalog pair)
include hperm hlinks

/-- What is found first is the same without disjunctions. -/
theorem sortsAlike_of_free (hfree : ∀ m ∈ q.conditions.toCondition.marked false, m.1 = false) :
    q.SortsAlike (q.withConditions cs) t base catalog d := by
  intro b _ s _ _ r hr r' hr'
  have hhead : (q.found t base catalog d b).head? =
      ((q.withConditions cs).found t base catalog d b).head? := by
    rw [found, found, List.head?_map, List.head?_map, head?_choices hperm hlinks hfree]
  rw [Option.mem_def] at hr hr'
  rw [← hhead, hr] at hr'
  rw [Option.some.inj hr']
  exact Json.order_self _

/-- A statement that does not group gives the same rows, in the same order. -/
theorem pairs_of_simple_withConditions (hover : q.compileOver catalog t base = .ok c)
    (hover' : (q.withConditions cs).compileOver catalog t base = .ok c')
    (hc : q.SortsConsistently t base catalog d) (hsimple : c.simple = true)
    {out out' : List Row} (hout : d.fetchAll c.statement = .ok out)
    (hout' : d.fetchAll c'.statement = .ok out') : out.map Row.pair? = out'.map Row.pair? := by
  have hsimple' : c'.simple = true :=
    (simple_withConditions hperm (compiledAs hover) (compiledAs hover')).symm.trans hsimple
  rw [pairs_of_simple hover hsimple hout, pairs_of_simple hover' hsimple' hout', Window.map_cut,
    Window.map_cut]
  refine congrArg (Window.cut q.effectiveWindow) ?_
  refine map_sortWith_flatMap (p := fun r => q.AreFound t base catalog d [r])
    (n := t.keys.pair?) (fun r r' => compare_swap [r] [r'])
    (fun r r' r'' hr hr' hr'' => compare_trans hc hr hr' hr'') (fun b hb r hr => ?_)
    (fun b _ => found_perm hperm hlinks b) fun b _ r hr => by rw [found_fst hr]
  exact areFound_singleton (List.mem_flatMap.2 ⟨b, hb, hr⟩)

/-- The same rows are found for a row of the base table. -/
theorem map_joint_block_perm (h : CompiledAs q t base catalog c)
    (h' : CompiledAs (q.withConditions cs) t base catalog c') (b : Record) :
    ((d.block c.statement b).map (q.joint t base catalog)).Perm
      ((d.block c'.statement b).map ((q.withConditions cs).joint t base catalog)) := by
  rw [h.map_joint_block, h'.map_joint_block]
  exact found_perm hperm hlinks b

/-- A row of the base table starts a group with the same rows, or none. -/
theorem sameRows_block (h : CompiledAs q t base catalog c)
    (h' : CompiledAs (q.withConditions cs) t base catalog c')
    (halike : q.SortsAlike (q.withConditions cs) t base catalog d) {b : Record}
    (hb : b ∈ d.tableRows base) :
    Option.Rel (q.SameRows cs t base catalog d c c')
      (Group.ofScopes? (d.block c.statement b)) (Group.ofScopes? (d.block c'.statement b)) := by
  have hfound := h.map_joint_block (d := d) b
  have hfound' := h'.map_joint_block (d := d) b
  have hblock := map_joint_block_perm hperm hlinks (d := d) h h' b
  cases hleft : d.block c.statement b with
  | nil =>
    rw [hleft, List.map_nil] at hblock
    rw [List.map_eq_nil_iff.1 hblock.nil_eq.symm]
    exact .none
  | cons first rest =>
    cases hright : d.block c'.statement b with
    | nil =>
      rw [hleft, hright] at hblock
      exact absurd hblock.eq_nil (by simp)
    | cons first' rest' =>
      rw [hleft] at hfound
      rw [hright] at hfound'
      rw [hleft, hright] at hblock
      refine .some ⟨⟨b, hleft ▸ List.mem_cons_self, hright ▸ List.mem_cons_self⟩, ?_, hblock, ?_⟩
      · refine ⟨by simp [Group.scopes], fun r hr => ⟨b, hb, ?_⟩⟩
        rw [← hfound]
        exact hr
      · have hheads := halike b hb
        rw [← hfound, ← hfound'] at hheads
        exact hheads

/-- What is found for one more row of the base table leaves groups with the same rows. -/
theorem SameRows.append (h : CompiledAs q t base catalog c)
    (h' : CompiledAs (q.withConditions cs) t base catalog c') {b : Record}
    (hb : b ∈ d.tableRows base) {g g' : Group} (hg : q.SameRows cs t base catalog d c c' g g') :
    q.SameRows cs t base catalog d c c' { g with rest := g.rest ++ d.block c.statement b }
      { g' with rest := g'.rest ++ d.block c'.statement b } := by
  obtain ⟨hfirst, hrows⟩ := hg
  have hmore : ∀ r ∈ (d.block c.statement b).map (q.joint t base catalog),
      ∃ b ∈ d.tableRows base, r ∈ q.found t base catalog d b := by
    intro r hr
    rw [h.map_joint_block] at hr
    exact ⟨b, hb, hr⟩
  have hboth := hrows.append hmore (map_joint_block_perm hperm hlinks h h' b)
  rw [← List.map_append, ← List.map_append] at hboth
  exact ⟨hfirst, hboth⟩

/-- Groups have the same rows, and they are ordered alike if their first rows are. -/
theorem forall₂_groups (h : CompiledAs q t base catalog c)
    (h' : CompiledAs (q.withConditions cs) t base catalog c')
    (halike : q.SortsAlike (q.withConditions cs) t base catalog d) :
    List.Forall₂ (q.SameRows cs t base catalog d c c')
      (Dataset.groupBy t.keys.grouping ((d.tableRows base).flatMap (d.block c.statement)))
      (Dataset.groupBy t.keys.grouping ((d.tableRows base).flatMap (d.block c'.statement))) :=
  Dataset.forall₂_groupBy
    (fun _ _ _ hs => h.map_read_grouping hs) (fun _ _ _ hs => h'.map_read_grouping hs)
    (fun _ hb => sameRows_block hperm hlinks h h' halike hb)
    fun _ hb _ _ hg => SameRows.append hperm hlinks h h' hb hg

/-- A statement that groups does so too, if the first rows of the groups are ordered alike. -/
theorem pairs_of_complex_withConditions (hover : q.compileOver catalog t base = .ok c)
    (hover' : (q.withConditions cs).compileOver catalog t base = .ok c')
    (hc : q.SortsConsistently t base catalog d) (hsimple : c.simple = false)
    (halike : q.SortsAlike (q.withConditions cs) t base catalog d)
    {out out' : List Row} (hout : d.fetchAll c.statement = .ok out)
    (hout' : d.fetchAll c'.statement = .ok out') : out.map Row.pair? = out'.map Row.pair? := by
  have h := compiledAs hover
  have h' := compiledAs hover'
  have hsimple' : c'.simple = false := (simple_withConditions hperm h h').symm.trans hsimple
  obtain ⟨-, scopes, groups, rows, hscopes, hgroup, hrows, rfl⟩ :=
    Dataset.fetchAll_eq_ok_iff.1 hout
  obtain ⟨-, scopes', groups', rows', hscopes', hgroup', hrows', rfl⟩ :=
    Dataset.fetchAll_eq_ok_iff.1 hout'
  obtain ⟨-, rfl⟩ := Dataset.scopes_eq_ok_iff.1 hscopes
  obtain ⟨-, rfl⟩ := Dataset.scopes_eq_ok_iff.1 hscopes'
  rw [h.group_of_complex hsimple] at hgroup
  rw [h'.group_of_complex hsimple'] at hgroup'
  rw [h.table] at hgroup
  rw [h'.table] at hgroup'
  have hgroups := forall₂_groups hperm hlinks h h' halike
  rw [Except.ok.inj hgroup, Except.ok.inj hgroup'] at hgroups
  rw [pairs_of_groups hover hrows (List.map_id groups).symm (by simp [hsimple]),
    pairs_of_groups hover' hrows' (List.map_id groups').symm (by simp [hsimple']), h.window,
    h'.window, Window.map_cut, Window.map_cut]
  refine congrArg (Window.cut q.effectiveWindow) ?_
  refine map_sortWith_of_forall₂ hgroups (fun g g' hg k k' hk => ?_) fun g g' hg => ?_
  · exact hg.2.compare_eq hc hk.2
  · obtain ⟨⟨b, hb, hb'⟩, -⟩ := hg
    exact (h.pair?_of_mem_block hb).trans (h'.pair?_of_mem_block hb').symm

/-- The order of conditions does not show in the result where no group goes by its first row, or
where the first rows are ordered alike. -/
theorem pairs_withConditions (hover : q.compileOver catalog t base = .ok c)
    (hover' : (q.withConditions cs).compileOver catalog t base = .ok c')
    (hc : q.SortsConsistently t base catalog d)
    (hcase : c.simple = true ∨ q.SortsAlike (q.withConditions cs) t base catalog d)
    {out out' : List Row} (hout : d.fetchAll c.statement = .ok out)
    (hout' : d.fetchAll c'.statement = .ok out') : out.map Row.pair? = out'.map Row.pair? := by
  cases hsimple : c.simple with
  | true => exact pairs_of_simple_withConditions hperm hlinks hover hover' hc hsimple hout hout'
  | false =>
    rw [hsimple] at hcase
    exact pairs_of_complex_withConditions hperm hlinks hover hover' hc hsimple
      (hcase.resolve_left Bool.false_ne_true) hout hout'

/-- The same number of rows is counted. -/
theorem total_withConditions (hover : q.compileOver catalog t base = .ok c)
    (hover' : (q.withConditions cs).compileOver catalog t base = .ok c') (hcount : q.count = true)
    {n n' : Nat} (hn : d.fetchCount c.statement.countQuery = .ok n)
    (hn' : d.fetchCount c'.statement.countQuery = .ok n') : n' = n := by
  have hunsorted : q.activeSorts = [] := if_pos hcount
  have hc : q.SortsConsistently t base catalog d := by
    intro s hs
    rw [hunsorted] at hs
    cases hs
  have halike : q.SortsAlike (q.withConditions cs) t base catalog d := by
    intro b _ s hs
    rw [hunsorted] at hs
    cases hs
  rw [(compiledAs hover).fetchCount_eq hunsorted] at hn
  rw [(compiledAs hover').fetchCount_eq hunsorted] at hn'
  cases hout : d.fetchAll c.statement with
  | error e =>
    rw [hout] at hn
    cases hn
  | ok out =>
    cases hout' : d.fetchAll c'.statement with
    | error e =>
      rw [hout'] at hn'
      cases hn'
    | ok out' =>
      rw [hout] at hn
      rw [hout'] at hn'
      have hlengths := congrArg List.length
        (pairs_withConditions hperm hlinks hover hover' hc (.inr halike) hout hout')
      rw [List.length_map, List.length_map] at hlengths
      rw [← Except.ok.inj hn, ← Except.ok.inj hn']
      exact hlengths.symm

/-- The state of a pager is the same, since all results are counted for it. -/
theorem paged_withConditions (ht : catalog.describe q.entityType = some t)
    (hbase : t.baseTable = some base) {pager : Option Pager} {page page' : Option PageState}
    (hpage : q.Paged catalog d.connection pager page)
    (hpage' : (q.withConditions cs).Paged catalog d.connection pager page') : page' = page := by
  cases pager with
  | none =>
    obtain rfl : page = none := hpage
    exact hpage'
  | some pager =>
    obtain ⟨c, total, hc, htotal, rfl⟩ := hpage
    obtain ⟨c', total', hc', htotal', rfl⟩ := hpage'
    have hsame : total' = total := total_withConditions (q := q.toCount) hperm hlinks
      (compileOver_of_compile hc ht hbase) (compileOver_of_compile hc' ht hbase) rfl htotal htotal'
    rw [hsame]

/-- The same rows of the base table fulfil the conditions. -/
theorem matches_withConditions_iff (h : CompiledAs q t base catalog c)
    (h' : CompiledAs (q.withConditions cs) t base catalog c') (b : Record) :
    (q.withConditions cs).Matches t base catalog d b ↔ q.Matches t base catalog d b := by
  have hfound := map_joint_block_perm hperm hlinks (d := d) h h' b
  rw [← h.block_ne_nil_iff, ← h'.block_ne_nil_iff, not_iff_not, ← List.map_eq_nil_iff,
    ← List.map_eq_nil_iff (l := d.block c.statement b), ← List.length_eq_zero_iff,
    ← List.length_eq_zero_iff, hfound.length_eq]

/-- Where all rows are asked for, the same keys are found. -/
theorem keys_withConditions (ht : catalog.describe q.entityType = some t)
    (hbase : t.baseTable = some base) (hexact : q.needsExactRows = false) {ids ids' : KeyedIds}
    {page page' : Option PageState}
    (hout : (q.execute catalog d.connection).1 = .ok (.entities ids page))
    (hout' : ((q.withConditions cs).execute catalog d.connection).1 = .ok (.entities ids' page')) :
    ids'.keys.Perm ids.keys := by
  rw [needsExactRows, Bool.or_eq_false_iff, Bool.or_eq_false_iff, Option.isSome_eq_false_iff,
    Option.isNone_iff_eq_none, Option.isSome_eq_false_iff, Option.isNone_iff_eq_none] at hexact
  obtain ⟨⟨hcount, hpager⟩, hwindow⟩ := hexact
  obtain ⟨c, hc⟩ := exists_compiled_of_execute hout
  obtain ⟨c', hc'⟩ := exists_compiled_of_execute hout'
  obtain ⟨_, hids, hnodup, hmem⟩ := keys_of_execute ht hbase hcount hwindow hpager hout
  obtain ⟨_, hids', hnodup', hmem'⟩ :=
    keys_of_execute (q := q.withConditions cs) ht hbase hcount hwindow hpager hout'
  obtain ⟨rfl, -⟩ := Output.entities.inj hids
  obtain ⟨rfl, -⟩ := Output.entities.inj hids'
  refine (List.perm_ext_iff_of_nodup hnodup' hnodup).2 fun key => ?_
  rw [hmem, hmem']
  simp only [matches_withConditions_iff hperm hlinks (compiledAs_of_compile hc ht hbase)
    (compiledAs_of_compile hc' ht hbase)]

end Rows

variable {q : Query} {cs : Conditions} {catalog : Catalog} {d : Dataset}

/-- Conditions can change places in their groups. Whether the query compiles does not depend on it,
and where no table is read in two ways by which the first reading would decide, neither do the
number of results and the state of the pager. The order of the results depends on it only through
groups that go by their first rows: it is the same where nothing has to be grouped, where there are
no disjunctions, and where those first rows are ordered alike. -/
theorem execute_withConditions (hperm : q.conditions.toCondition.Permuted cs.toCondition) :
    ((∃ c, q.compile catalog = .ok c) ↔ ∃ c, (q.withConditions cs).compile catalog = .ok c) ∧
    ∀ {t : EntityType} {base : String}, catalog.describe q.entityType = some t →
      t.baseTable = some base →
      (∀ pair, (q.withConditions cs).link? t base catalog pair = q.link? t base catalog pair) →
      ∀ {out out' : Output}, (q.execute catalog d.connection).1 = .ok out →
      ((q.withConditions cs).execute catalog d.connection).1 = .ok out' →
      (q.count = true → out' = out) ∧
      (q.count = false → ∃ ids ids' page, out = .entities ids page ∧ out' = .entities ids' page ∧
        (q.needsExactRows = false → ids'.keys.Perm ids.keys) ∧
        (q.SortsConsistently t base catalog d →
          (q.needsExactRows = false ∨
            (∀ m ∈ q.conditions.toCondition.marked false, m.1 = false) ∨
            q.SortsAlike (q.withConditions cs) t base catalog d) → ids' = ids)) := by
  refine ⟨exists_compile_withConditions_iff hperm, ?_⟩
  intro t base ht hbase hlinks out out' hout hout'
  obtain ⟨c, hc⟩ := exists_compiled_of_execute hout
  obtain ⟨c', hc'⟩ := exists_compiled_of_execute hout'
  have h := compiledAs_of_compile hc ht hbase
  have h' := compiledAs_of_compile hc' ht hbase
  have hover := compileOver_of_compile hc ht hbase
  have hover' := compileOver_of_compile hc' ht hbase
  constructor
  · intro hcount
    obtain ⟨n, hn, rfl⟩ := (execute_count_iff hc (h.count.trans hcount)).1 hout
    obtain ⟨n', hn', rfl⟩ := (execute_count_iff hc' (h'.count.trans hcount)).1 hout'
    rw [total_withConditions hperm hlinks hover hover' hcount hn hn']
  · intro hcount
    obtain ⟨page, rows, ids, hpage, hrows, hids, rfl⟩ :=
      (execute_entities_iff hc (h.count.trans hcount)).1 hout
    obtain ⟨page', rows', ids', hpage', hrows', hids', rfl⟩ :=
      (execute_entities_iff hc' (h'.count.trans hcount)).1 hout'
    rw [h.pager] at hpage
    rw [h'.pager] at hpage'
    obtain rfl : page' = page := paged_withConditions hperm hlinks ht hbase hpage hpage'
    refine ⟨ids, ids', page', rfl, rfl, fun hexact => ?_, fun hconsistent hcase => ?_⟩
    · exact keys_withConditions hperm hlinks ht hbase hexact hout hout'
    · have hshown : c.simple = true ∨ q.SortsAlike (q.withConditions cs) t base catalog d := by
        rcases hcase with hexact | hfree | halike
        · left
          rw [h.simple_eq, hexact]
          exact Bool.or_true _
        · exact .inr (sortsAlike_of_free hperm hlinks hfree)
        · exact .inr halike
      have hpairs := pairs_withConditions hperm hlinks hover hover' hconsistent hshown hrows hrows'
      obtain ⟨ps, hps, rfl⟩ := KeyedIds.ofRows_eq_ok_iff.1 hids
      rw [KeyedIds.ofRows_eq_ok (hpairs.symm.trans hps)] at hids'
      exact (Except.ok.inj hids').symm

/-- Nodes by their titles: those with the title `c` and the tag `y`, or with `a` and `x`, or
with `b`. -/
def titled : Query where
  entityType := "node"
  conditions := {
    conjunction := .or
    parts := [
      .group .and [.leaf { field := "title", value := .string "c" },
        .leaf { field := "tags", value := .string "y" }],
      .group .and [.leaf { field := "title", value := .string "a" },
        .leaf { field := "tags", value := .string "x" }],
      .leaf { field := "title", value := .string "b" }] }
  sorts := [{ field := "title" }]

/-- The same conditions, with the first tag before the first title. -/
def tagsFirst : Conditions where
  conjunction := .or
  parts := [
    .group .and [.leaf { field := "tags", value := .string "y" },
      .leaf { field := "title", value := .string "c" }],
    .group .and [.leaf { field := "title", value := .string "a" },
      .leaf { field := "tags", value := .string "x" }],
    .leaf { field := "title", value := .string "b" }]

theorem permuted_tagsFirst : titled.conditions.toCondition.Permuted tagsFirst.toCondition :=
  .group .or (.cons (.group .and (.swap _ _ _)) (.refl _))

/-- The same conditions backwards. Titles are still joined first. -/
def backwards : Conditions where
  conjunction := .or
  parts := titled.conditions.parts.reverse

/-- The first node with a title up to `b` and a tag, by the titles. -/
def firstTagged : Query where
  entityType := "node"
  conditions := { parts := [
    .leaf { field := "title", operator := some .atMost, value := .string "b" },
    .leaf { field := "tags", operator := some .isNotNull }] }
  sorts := [{ field := "title" }]
  window := some ⟨0, 1⟩

/-- The tag before the title. -/
def firstTitled : Conditions where
  parts := [
    .leaf { field := "tags", operator := some .isNotNull },
    .leaf { field := "title", operator := some .atMost, value := .string "b" }]

/-- Without a window nothing is grouped. With a window, groups go by the first of the titles: it is
the same one where titles are joined first in both queries, and where there is no disjunction. -/
theorem execute_withConditions_titled :
    ((titled.execute Catalog.translated Dataset.translated.connection).1 =
        .ok (.entities ⟨[(1, 1), (2, 2)]⟩ none) ∧
      ((titled.withConditions tagsFirst).execute Catalog.translated
        Dataset.translated.connection).1 = .ok (.entities ⟨[(1, 1), (2, 2)]⟩ none)) ∧
    (((titled.withWindow ⟨0, 2⟩).execute Catalog.translated Dataset.translated.connection).1 =
        .ok (.entities ⟨[(2, 2), (1, 1)]⟩ none) ∧
      (((titled.withWindow ⟨0, 2⟩).withConditions backwards).execute Catalog.translated
        Dataset.translated.connection).1 = .ok (.entities ⟨[(2, 2), (1, 1)]⟩ none)) ∧
    (firstTagged.execute Catalog.translated Dataset.translated.connection).1 =
        .ok (.entities ⟨[(1, 1)]⟩ none) ∧
      ((firstTagged.withConditions firstTitled).execute Catalog.translated
        Dataset.translated.connection).1 = .ok (.entities ⟨[(1, 1)]⟩ none) := by
  obtain ⟨t, ht, hbase, -⟩ := Dataset.keyed_translated
  have hsame {q : Query} {cs : Conditions} {ids : KeyedIds}
      (hperm : q.conditions.toCondition.Permuted cs.toCondition)
      (hnode : q.entityType = "node") (hcount : q.count = false)
      (hapart : ∀ l ∈ q.links t "node" Catalog.translated,
        ∀ l' ∈ q.links t "node" Catalog.translated, l.pair = l'.pair → l = l')
      (hconsistent : q.SortsConsistently t "node" Catalog.translated Dataset.translated)
      (hcase : q.needsExactRows = false ∨
        (∀ m ∈ q.conditions.toCondition.marked false, m.1 = false) ∨
        q.SortsAlike (q.withConditions cs) t "node" Catalog.translated Dataset.translated)
      (hout : (q.execute Catalog.translated Dataset.translated.connection).1 =
        .ok (.entities ids none))
      (hruns : ((q.withConditions cs).execute Catalog.translated
        Dataset.translated.connection).1.toOption.isSome = true) :
      ((q.withConditions cs).execute Catalog.translated Dataset.translated.connection).1 =
        .ok (.entities ids none) := by
    obtain ⟨out', hsome⟩ := Option.isSome_iff_exists.1 hruns
    have hout' := eq_ok_of_toOption hsome
    have hlinks := link?_withConditions_of_apart hperm hapart
    obtain ⟨-, hentities⟩ :=
      (execute_withConditions hperm).2 (hnode ▸ ht) hbase hlinks hout hout'
    obtain ⟨_, ids', _, hids, rfl, -, heq⟩ := hentities hcount
    obtain ⟨rfl, rfl⟩ := Output.entities.inj hids
    rw [hout', heq hconsistent hcase]
  obtain rfl := Option.some.inj ht
  have hungrouped : (titled.execute Catalog.translated Dataset.translated.connection).1 =
      .ok (.entities ⟨[(1, 1), (2, 2)]⟩ none) := eq_ok_of_toOption (by decide +kernel)
  have halike : ((titled.withWindow ⟨0, 2⟩).execute Catalog.translated
      Dataset.translated.connection).1 = .ok (.entities ⟨[(2, 2), (1, 1)]⟩ none) :=
    eq_ok_of_toOption (by decide +kernel)
  have hfree : (firstTagged.execute Catalog.translated Dataset.translated.connection).1 =
      .ok (.entities ⟨[(1, 1)]⟩ none) := eq_ok_of_toOption (by decide +kernel)
  refine ⟨⟨hungrouped, ?_⟩, ⟨halike, ?_⟩, hfree, ?_⟩
  · exact hsame permuted_tagsFirst rfl rfl (by decide +kernel)
      (sortsConsistently_of_isExact (by decide +kernel)) (.inl rfl) hungrouped (by decide +kernel)
  · exact hsame (.group .or (.of_perm (List.reverse_perm _).symm)) rfl rfl (by decide +kernel)
      (sortsConsistently_of_isExact (by decide +kernel))
      (.inr (.inr (by unfold SortsAlike; decide +kernel))) halike (by decide +kernel)
  · exact hsame (.group .and (.swap _ _ _)) rfl rfl (by decide +kernel)
      (sortsConsistently_of_isExact (by decide +kernel)) (.inr (.inl (by decide +kernel))) hfree
      (by decide +kernel)

end Query

/-- The titles of nodes and their tags are in one table. -/
def Catalog.shared : Catalog where
  entityTypes := Dict.ofList [("node", {
    name := "node", baseTable := some "node", dataTable := some "field_data_tags",
    keys := { id := "nid" } })]
  tables := Dict.ofList [
    ("node", ⟨"node", NameSet.ofNames ["nid"]⟩),
    ("field_data_tags", ⟨"field_data_tags",
      NameSet.ofNames ["nid", "title", "entity_id", "entity_type", "revision_id", "tags_value"]⟩)]
  fields := Dict.ofList
    [("tags", { name := "tags", bundles := Dict.ofList [("node", NameSet.ofNames ["page"])] })]

/-- A row with the title of the node 1 and a tag of the node 2. -/
def Dataset.shared : Dataset where
  tables := Dict.ofList [
    ("node", [[("nid", .word 1)]]),
    ("field_data_tags", [
      [("nid", .word 1), ("title", .string "x"), ("entity_type", .string "node"),
        ("entity_id", .word 2), ("revision_id", .word 2), ("tags_value", .string "y")]])]

namespace Query

/-- The number of nodes with the title `x` and the tag `y`. -/
def titledAndTagged : Query where
  entityType := "node"
  conditions := { parts := [
    .leaf { field := "title", value := .string "x" },
    .leaf { field := "tags", value := .string "y" }] }
  count := true

/-- The tag before the title. -/
def taggedAndTitled : Conditions where
  parts := [
    .leaf { field := "tags", value := .string "y" },
    .leaf { field := "title", value := .string "x" }]

/-- Two ways in which the order of conditions shows. With a window, the node 1 goes by the first of
its titles, and which one that is depends on whether titles or tags are joined first. And where
titles and tags are in one table, that table is joined the way the first condition asks for. -/
theorem exists_not_withConditions :
    (titled.conditions.toCondition.Permuted tagsFirst.toCondition ∧
      ((titled.withWindow ⟨0, 2⟩).execute Catalog.translated Dataset.translated.connection).1 =
        .ok (.entities ⟨[(2, 2), (1, 1)]⟩ none) ∧
      (((titled.withWindow ⟨0, 2⟩).withConditions tagsFirst).execute Catalog.translated
        Dataset.translated.connection).1 = .ok (.entities ⟨[(1, 1), (2, 2)]⟩ none)) ∧
    titledAndTagged.conditions.toCondition.Permuted taggedAndTitled.toCondition ∧
      (titledAndTagged.execute Catalog.shared Dataset.shared.connection).1 = .ok (.count 1) ∧
      ((titledAndTagged.withConditions taggedAndTitled).execute Catalog.shared
        Dataset.shared.connection).1 = .ok (.count 0) := by
  refine ⟨⟨permuted_tagsFirst, ?_, ?_⟩, .group .and (.swap _ _ _), ?_, ?_⟩
  · exact eq_ok_of_toOption (by decide +kernel)
  · exact eq_ok_of_toOption (by decide +kernel)
  · exact eq_ok_of_toOption (by decide +kernel)
  · exact eq_ok_of_toOption (by decide +kernel)

end Query
end EntitySelect
