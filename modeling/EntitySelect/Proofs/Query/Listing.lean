import EntitySelect.Proofs.Dataset.Rearranged
import EntitySelect.Proofs.Query.SortKeys
import EntitySelect.Proofs.Query.SortedKeys

/-! The rows of a result in their order, told by what is found for each row of the base table. A
statement that does not group sorts all that is found; one that groups sorts the rows of the base
table. -/
namespace EntitySelect

namespace Query
variable (q : Query) (t : EntityType) (base : String) (catalog : Catalog) (d : Dataset)

/-- What is found for a row of the base table: the row with each of its choices. -/
def found (b : Record) : List (Record × Choice) := (q.choices t base catalog d b).map (b, ·)

/-- The rows of the base table that something is found for. -/
def foundRows : List Record :=
  (d.tableRows base).filter fun b => !(q.found t base catalog d b).isEmpty

/-- How several rows, taken as one, compare with several others. -/
def compare (rows rows' : List (Record × Choice)) : Ordering :=
  orderKeys (q.activeSorts.map (·.direction)) (q.sortKeys t base catalog rows)
    (q.sortKeys t base catalog rows')

/-- A value that an ordering looks at. -/
def LooksAt (s : Sorting) (v : Json) : Prop :=
  ∃ b ∈ d.tableRows base, ∃ r ∈ q.found t base catalog d b, q.sortValue t base catalog s r = v

/-- The values that each ordering looks at compare consistently. -/
def SortsConsistently : Prop :=
  ∀ s ∈ q.activeSorts, Json.Consistent (q.LooksAt t base catalog d s)

variable {q t base catalog d}

/-- Exact values compare consistently. -/
theorem sortsConsistently_of_isExact (h : ∀ s ∈ q.activeSorts, ∀ b ∈ d.tableRows base,
    ∀ r ∈ q.found t base catalog d b, (q.sortValue t base catalog s r).isExact = true) :
    q.SortsConsistently t base catalog d := by
  intro s hs
  apply Json.consistent_of_isExact
  rintro v ⟨b, hb, r, hr, rfl⟩
  exact h s hs b hb r hr

theorem compare_swap (rows rows' : List (Record × Choice)) :
    (q.compare t base catalog rows rows').swap = q.compare t base catalog rows' rows :=
  orderKeys_swap ..

theorem found_fst {b : Record} {r : Record × Choice} (h : r ∈ q.found t base catalog d b) :
    r.1 = b := by
  obtain ⟨choice, -, rfl⟩ := List.mem_map.1 h
  rfl

theorem mem_foundRows {b : Record} : b ∈ q.foundRows t base catalog d ↔
    b ∈ d.tableRows base ∧ q.found t base catalog d b ≠ [] := by
  simp [foundRows]

/-- Rows that are found for a row of the base table. -/
def AreFound (q : Query) (t : EntityType) (base : String) (catalog : Catalog) (d : Dataset)
    (rows : List (Record × Choice)) : Prop :=
  rows ≠ [] ∧ ∀ r ∈ rows, ∃ b ∈ d.tableRows base, r ∈ q.found t base catalog d b

theorem areFound_found {b : Record} (h : b ∈ q.foundRows t base catalog d) :
    q.AreFound t base catalog d (q.found t base catalog d b) := by
  obtain ⟨hb, hne⟩ := mem_foundRows.1 h
  exact ⟨hne, fun r hr => ⟨b, hb, hr⟩⟩

theorem areFound_singleton {r : Record × Choice}
    (h : r ∈ (d.tableRows base).flatMap (q.found t base catalog d)) :
    q.AreFound t base catalog d [r] := by
  refine ⟨List.cons_ne_nil _ _, fun r' hr' => ?_⟩
  rw [List.mem_singleton.1 hr']
  exact List.mem_flatMap.1 h

/-- Rows that are found are ordered by values that the orderings look at. -/
theorem forall₂_sortKeys (hc : q.SortsConsistently t base catalog d)
    {rows : List (Record × Choice)} (h : q.AreFound t base catalog d rows) :
    List.Forall₂ (q.LooksAt t base catalog d) q.activeSorts (q.sortKeys t base catalog rows) := by
  rw [sortKeys, List.forall₂_map_right_iff, List.forall₂_same]
  intro s hs
  have hlooks : ∀ v ∈ rows.map (q.sortValue t base catalog s), q.LooksAt t base catalog d s v := by
    intro v hv
    obtain ⟨r, hr, rfl⟩ := List.mem_map.1 hv
    obtain ⟨b, hb, hr⟩ := h.2 r hr
    exact ⟨b, hb, r, hr, rfl⟩
  have hne : rows.map (q.sortValue t base catalog s) ≠ [] := by
    simpa using h.1
  simp only [sortKey]
  split
  · exact hlooks _ (Aggregate.pick_mem (hc s hs) hlooks hne)
  · obtain ⟨v, rest, hvalues⟩ := List.exists_cons_of_ne_nil hne
    rw [hvalues] at hlooks ⊢
    exact hlooks v List.mem_cons_self

theorem compare_trans (hc : q.SortsConsistently t base catalog d)
    {rows rows' rows'' : List (Record × Choice)} (h : q.AreFound t base catalog d rows)
    (h' : q.AreFound t base catalog d rows') (h'' : q.AreFound t base catalog d rows'')
    (hle : (q.compare t base catalog rows rows').isLE)
    (hle' : (q.compare t base catalog rows' rows'').isLE) :
    (q.compare t base catalog rows rows'').isLE := by
  have hcmp : Std.TransCmp fun a b : Keys (q.LooksAt t base catalog d) q.activeSorts =>
      orderKeys (q.activeSorts.map (·.direction)) a.1 b.1 := transCmp_orderKeys hc
  exact hcmp.isLE_trans (a := ⟨_, forall₂_sortKeys hc h⟩) (b := ⟨_, forall₂_sortKeys hc h'⟩)
    (c := ⟨_, forall₂_sortKeys hc h''⟩) hle hle'

end Query

namespace CompiledAs
variable {q : Query} {t : EntityType} {base : String} {catalog : Catalog} {c : Compiled}
  {d : Dataset}

theorem joint_of_mem_block (h : CompiledAs q t base catalog c) {b : Record} {s : Scope}
    (hs : s ∈ d.block c.statement b) :
    q.joint t base catalog s = (b, q.shown t base catalog s) := by
  rw [Query.joint, h.lookup_base hs, Option.getD_some]

/-- What is joined to a row of the base table shows what is found for it. -/
theorem map_joint_block (h : CompiledAs q t base catalog c) (b : Record) :
    (d.block c.statement b).map (q.joint t base catalog) = q.found t base catalog d b := by
  rw [Query.found, ← h.map_shown_block, List.map_map]
  exact List.map_congr_left fun s hs => h.joint_of_mem_block hs

/-- A statement that does not group joins at most once where the number of rows matters. -/
theorem length_block_le_one (h : CompiledAs q t base catalog c) (hsimple : c.simple = true)
    (hexact : q.needsExactRows = true) (b : Record) : (d.block c.statement b).length ≤ 1 := by
  have htimes := h.times_le_one (d := d) hexact b
  rwa [Compiled.times, hsimple, if_pos rfl] at htimes

/-- Where the number of rows matters, all that is joined to a row of the base table is one group,
whether the statement groups or not. -/
theorem group_eq_of_exact (h : CompiledAs q t base catalog c) (hexact : q.needsExactRows = true)
    {rows : List Record} (hkeyed : Keyed t.keys rows) :
    Dataset.group c.statement (rows.flatMap (d.block c.statement)) =
      .ok (rows.filterMap fun b => Group.ofScopes? (d.block c.statement b)) := by
  rw [h.group_eq hkeyed]
  split
  · next hsimple =>
    rw [List.map_flatMap, List.filterMap_eq_flatMap_toList]
    congr 1
    refine List.flatMap_congr fun b _ => ?_
    have hlength := h.length_block_le_one (d := d) hsimple hexact b
    match hblock : d.block c.statement b with
    | [] => rfl
    | [s] => rfl
    | _ :: _ :: _ =>
      rw [hblock] at hlength
      exact absurd hlength (by simp)
  · rfl

end CompiledAs

namespace Query
variable {q : Query} {t : EntityType} {base : String} {catalog : Catalog} {c : Compiled}
  {d : Dataset}

/-- The rows of a statement whose groups are made of things that tell their rows. -/
theorem pairs_of_groups {α : Type} (hover : q.compileOver catalog t base = .ok c)
    {groups : List Group} {rows : List KeyedRow}
    (hrows : groups.mapM (·.row c.statement) = .ok rows) {as : List α} {group : α → Group}
    (hgroups : groups = as.map group)
    (hsingle : ∀ a ∈ as, c.simple = true → (group a).rest = []) {w? : Option Window} :
    (Window.cut w? ((sortRows (c.statement.orders.map (·.direction)) rows).map (·.values))).map
        Row.pair? =
      (Window.cut w? (sortWith (fun a a' => q.compare t base catalog
        ((group a).scopes.map (q.joint t base catalog))
        ((group a').scopes.map (q.joint t base catalog))) as)).map
          fun a => Row.pair? ((group a).values c.statement) := by
  let row (a : α) : KeyedRow := ⟨(group a).values c.statement,
    q.sortKeys t base catalog ((group a).scopes.map (q.joint t base catalog))⟩
  have hmapM : groups.mapM (·.row c.statement) = .ok (as.map row) := by
    refine mapM_eq_ok_of_forall₂ ?_
    rw [hgroups, List.forall₂_map_left_iff, List.forall₂_map_right_iff, List.forall₂_same]
    exact fun a ha => row_eq hover (hsingle a ha)
  rw [hmapM] at hrows
  obtain rfl := Except.ok.inj hrows
  rw [sortRows_eq, sortWith_map, directions_eq hover, Window.map_cut, Window.map_cut, List.map_map,
    List.map_map]
  rfl

/-- A statement that does not group gives all that is found, in order. -/
theorem pairs_of_simple (hover : q.compileOver catalog t base = .ok c) (hsimple : c.simple = true)
    {out : List Row} (hout : d.fetchAll c.statement = .ok out) :
    out.map Row.pair? = (Window.cut q.effectiveWindow
      (sortWith (fun r r' => q.compare t base catalog [r] [r'])
        ((d.tableRows base).flatMap (q.found t base catalog d)))).map
          fun r => t.keys.pair? r.1 := by
  have h := compiledAs hover
  obtain ⟨-, scopes, groups, rows, hscopes, hgroup, hrows, rfl⟩ :=
    Dataset.fetchAll_eq_ok_iff.1 hout
  obtain ⟨-, rfl⟩ := Dataset.scopes_eq_ok_iff.1 hscopes
  rw [h.group_of_simple hsimple] at hgroup
  rw [pairs_of_groups hover hrows (Except.ok.inj hgroup).symm fun _ _ _ => rfl, h.window]
  have hfound : (d.tableRows base).flatMap (q.found t base catalog d) =
      ((d.tableRows c.statement.table).flatMap (d.block c.statement)).map
        (q.joint t base catalog) := by
    rw [List.map_flatMap, h.table]
    simp only [h.map_joint_block]
  rw [hfound, sortWith_map, ← Window.map_cut, List.map_map]
  refine List.map_congr_left fun s hs => ?_
  have hmem := (sortWith_perm _ _).mem_iff.1 ((Window.cut_sublist _ _).subset hs)
  obtain ⟨b, -, hs⟩ := List.mem_flatMap.1 hmem
  rw [h.pair?_of_mem_block (g := ⟨s, []⟩) hs, Function.comp_apply, h.joint_of_mem_block hs]

/-- The groups of a statement that groups are those of the rows of the base table that something is
found for. -/
theorem exists_groups (h : CompiledAs q t base catalog c) :
    ∃ group : Record → Group,
      (∀ b ∈ q.foundRows t base catalog d, (group b).scopes = d.block c.statement b) ∧
      ((d.tableRows base).filterMap fun b => Group.ofScopes? (d.block c.statement b)) =
        (q.foundRows t base catalog d).map group := by
  let group (b : Record) : Group := (Group.ofScopes? (d.block c.statement b)).getD ⟨[], []⟩
  have hempty (b : Record) : (q.found t base catalog d b).isEmpty =
      (d.block c.statement b).isEmpty := by
    rw [← h.map_joint_block, List.isEmpty_map]
  refine ⟨group, ?_, ?_⟩
  · intro b hb
    obtain ⟨-, hne⟩ := mem_foundRows.1 hb
    rw [← List.isEmpty_eq_false_iff, hempty, List.isEmpty_eq_false_iff] at hne
    obtain ⟨first, rest, hblock⟩ := List.exists_cons_of_ne_nil hne
    simp only [group, hblock, Group.ofScopes?, Option.getD_some]
    rfl
  · simp only [foundRows, hempty]
    induction d.tableRows base with
    | nil => rfl
    | cons b rest ih =>
      rw [List.filterMap_cons, ih, List.filter_cons]
      cases hblock : d.block c.statement b with
      | nil => rfl
      | cons first more =>
        simp only [Group.ofScopes?, List.isEmpty_cons, Bool.not_false, if_true, List.map_cons]
        congr 1
        simp only [group, hblock, Group.ofScopes?, Option.getD_some]

/-- Where the number of rows matters, there is one row for each row of the base table that
something is found for. -/
theorem pairs_of_exact (hover : q.compileOver catalog t base = .ok c)
    (hexact : q.needsExactRows = true) (hkeyed : Keyed t.keys (d.tableRows base))
    {out : List Row} (hout : d.fetchAll c.statement = .ok out) :
    out.map Row.pair? = (Window.cut q.effectiveWindow
      (sortWith (fun b b' => q.compare t base catalog (q.found t base catalog d b)
        (q.found t base catalog d b')) (q.foundRows t base catalog d))).map t.keys.pair? := by
  have h := compiledAs hover
  obtain ⟨group, hscopesOf, hgroups⟩ := exists_groups (d := d) h
  obtain ⟨-, scopes, groups, rows, hscopes, hgroup, hrows, rfl⟩ :=
    Dataset.fetchAll_eq_ok_iff.1 hout
  obtain ⟨-, rfl⟩ := Dataset.scopes_eq_ok_iff.1 hscopes
  rw [h.table, h.group_eq_of_exact hexact hkeyed, hgroups] at hgroup
  have hsingle : ∀ b ∈ q.foundRows t base catalog d, c.simple = true → (group b).rest = [] := by
    intro b hb hsimple
    have hlength := h.length_block_le_one (d := d) hsimple hexact b
    rw [← hscopesOf b hb, Group.scopes, List.length_cons] at hlength
    exact List.length_eq_zero_iff.1 (by omega)
  rw [pairs_of_groups hover hrows (Except.ok.inj hgroup).symm hsingle, h.window]
  have hcompare : ∀ b ∈ q.foundRows t base catalog d,
      (group b).scopes.map (q.joint t base catalog) = q.found t base catalog d b := by
    intro b hb
    rw [hscopesOf b hb, h.map_joint_block]
  rw [sortWith_congr fun b hb b' hb' => by rw [hcompare b hb, hcompare b' hb']]
  refine List.map_congr_left fun b hb => ?_
  have hmem := (sortWith_perm _ _).mem_iff.1 ((Window.cut_sublist _ _).subset hb)
  apply h.pair?_of_mem_block
  rw [← hscopesOf b hmem]
  exact List.mem_cons_self

end Query

/-- Nodes with a title for each language, and with tags. -/
def Catalog.translated : Catalog where
  entityTypes := Dict.ofList [("node", {
    name := "node", baseTable := some "node", dataTable := some "node_data",
    keys := { id := "nid" } })]
  tables := Dict.ofList [
    ("node", ⟨"node", NameSet.ofNames ["nid"]⟩),
    ("node_data", ⟨"node_data", NameSet.ofNames ["nid", "title"]⟩),
    ("field_data_tags", ⟨"field_data_tags",
      NameSet.ofNames ["entity_id", "entity_type", "revision_id", "tags_value"]⟩)]
  fields := Dict.ofList
    [("tags", { name := "tags", bundles := Dict.ofList [("node", NameSet.ofNames ["page"])] })]

/-- The node 1 has two tags and two titles, one after and one before that of the node 2. -/
def Dataset.translated : Dataset where
  tables := Dict.ofList [
    ("node", [[("nid", .word 1)], [("nid", .word 2)]]),
    ("node_data", [
      [("nid", .word 1), ("title", .string "c")],
      [("nid", .word 1), ("title", .string "a")],
      [("nid", .word 2), ("title", .string "b")]]),
    ("field_data_tags", [
      [("entity_type", .string "node"), ("entity_id", .word 1), ("revision_id", .word 1),
        ("tags_value", .string "x")],
      [("entity_type", .string "node"), ("entity_id", .word 1), ("revision_id", .word 1),
        ("tags_value", .string "y")]])]

theorem Dataset.keyed_translated : ∃ t, Catalog.translated.describe "node" = some t ∧
    t.baseTable = some "node" ∧ Keyed t.keys (Dataset.translated.tableRows "node") :=
  ⟨_, rfl, rfl, by decide, by decide, by decide⟩

end EntitySelect
