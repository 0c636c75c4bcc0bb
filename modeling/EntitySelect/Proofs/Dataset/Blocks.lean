import EntitySelect.Proofs.Dataset.Joins
import EntitySelect.Proofs.Json.Printed

/-! The rows of a statement, base row by base row. What is joined to one row of the base table is a
block, and grouping by columns that tell the base rows apart makes one group of each block. -/
namespace EntitySelect

/-- The part of a list that a window shows, and all of it without a window. -/
def Window.cut (w? : Option Window) (rows : List α) : List α :=
  match w? with
  | some w => w.show rows
  | none => rows

theorem Window.map_cut (f : α → β) (w? : Option Window) (rows : List α) :
    (Window.cut w? rows).map f = Window.cut w? (rows.map f) := by
  cases w? with
  | none => rfl
  | some w => simp [cut, Window.show, List.map_take, List.map_drop]

theorem sortRows_nil (rows : List KeyedRow) : sortRows [] rows = rows := by
  have h (sorted : List KeyedRow) :
      rows.foldl (fun sorted r => placeRow [] r sorted) sorted = rows.reverse ++ sorted := by
    induction rows generalizing sorted with
    | nil => rfl
    | cons r rest ih =>
      have hplace : placeRow [] r sorted = r :: sorted := by
        cases sorted <;> rfl
      rw [List.foldl_cons, hplace, ih, List.reverse_cons, List.append_assoc]
      rfl
  rw [sortRows, h, List.append_nil, List.reverse_reverse]

/-- The rows as one group, if there are any. -/
def Group.ofScopes? : List Scope → Option Group
  | [] => none
  | first :: rest => some ⟨first, rest⟩

theorem Group.values_of_row {s : Select} {g : Group} {r : KeyedRow} (h : g.row s = .ok r) :
    r.values = g.values s := by
  unfold Group.row at h
  cases hkeys : s.orders.mapM (g.orderKey s) with
  | error e => simp [hkeys, bind, Except.bind] at h
  | ok keys =>
    simp only [hkeys, bind, Except.bind, pure, Except.pure] at h
    cases h
    rfl

/-- The rows of groups are made of their values. -/
theorem Group.map_values_of_mapM_row {s : Select} {groups : List Group} {rows : List KeyedRow}
    (h : groups.mapM (·.row s) = .ok rows) : rows.map (·.values) = groups.map (·.values s) := by
  induction groups generalizing rows with
  | nil =>
    rw [List.mapM_nil] at h
    cases h
    rfl
  | cons g rest ih =>
    rw [List.mapM_cons] at h
    cases hhead : g.row s with
    | error e => simp [hhead, bind, Except.bind] at h
    | ok r =>
      cases hrest : rest.mapM (·.row s) with
      | error e => simp [hhead, hrest, bind, Except.bind] at h
      | ok more =>
        simp only [hhead, hrest, bind, Except.bind, pure, Except.pure] at h
        cases h
        rw [List.map_cons, List.map_cons, Group.values_of_row hhead, ih hrest]

/-- Without orders every group has a row. -/
theorem Group.mapM_row_of_orders_nil {s : Select} (h : s.orders = []) (groups : List Group) :
    groups.mapM (·.row s) = .ok (groups.map fun g => ⟨g.values s, []⟩) := by
  have hrow : (fun g : Group => g.row s) = fun g => pure ⟨g.values s, []⟩ := by
    funext g
    rw [Group.row, h]
    rfl
  rw [hrow, List.mapM_pure]
  rfl

/-- The tables that a statement names. -/
def Select.tables (s : Select) : List String := s.table :: s.joins.map (·.table)

theorem Select.checkLabels_eq_ok {s : Select}
    (h : ∀ column ∈ s.mentions, column.table ∈ s.tableLabels) : s.checkLabels = .ok () := by
  have hnone : s.mentions.find? (fun column => !s.tableLabels.contains column.table) = none := by
    rw [List.find?_eq_none]
    intro column hcolumn
    simpa using h column hcolumn
  rw [checkLabels, hnone]

namespace Dataset
variable {d : Dataset} {s : Select}

/-- All that is joined to a row of the base table and fulfils the condition. -/
def block (d : Dataset) (s : Select) (b : Record) : List Scope :=
  (d.expand s.joins [(s.label, b)]).filter s.condition.holds

/-- Before anything is joined the labels of the joins are free. -/
theorem lookup_base_of_nodup (h : s.tableLabels.Nodup) (b : Record) :
    ∀ j ∈ s.joins, ([(s.label, b)] : Scope).lookup j.label = none := by
  intro j hj
  have hne : j.label ≠ s.label := by
    intro heq
    exact (List.nodup_cons.1 h).1 (List.mem_map.2 ⟨j, hj, heq⟩)
  rw [List.lookup_cons, beq_eq_false_iff_ne.2 hne]
  rfl

/-- The rows of a statement are those of the blocks, unless a table is missing. -/
theorem scopes_eq : d.scopes s = match d.missing? s.tables with
    | some table => .error (.tableNotFound table)
    | none => .ok ((d.tableRows s.table).flatMap (d.block s)) := by
  have hblocks (rows : List Record) :
      ((rows.map fun b => [(s.label, b)]).flatMap (d.expand s.joins)).filter s.condition.holds =
        rows.flatMap (d.block s) := by
    rw [List.flatMap_map, List.filter_flatMap]
    rfl
  rw [Dataset.scopes, Select.tables, missing?, List.find?_cons]
  cases htable : d.tables.find? s.table with
  | none => simp [Dataset.rows, htable, bind, Except.bind]
  | some rows =>
    have hrows : d.rows s.table = .ok rows := rows_eq_ok_iff.2 htable
    have htableRows : d.tableRows s.table = rows := by rw [tableRows, htable, Option.getD_some]
    rw [hrows, htableRows, ← hblocks]
    cases hmissing : d.missing? (s.joins.map (·.table)) with
    | some table =>
      rw [missing?] at hmissing
      simp [joinAll_eq, missing?, hmissing, bind, Except.bind]
    | none =>
      rw [missing?] at hmissing
      simp [joinAll_eq, missing?, hmissing, bind, Except.bind, pure, Except.pure]

/-- The dataset contains every table that the statement names. -/
def Covers (d : Dataset) (s : Select) : Prop :=
  ∀ table ∈ s.tables, (d.tables.find? table).isSome

theorem scopes_eq_ok_iff {scopes : List Scope} :
    d.scopes s = .ok scopes ↔
      d.Covers s ∧ scopes = (d.tableRows s.table).flatMap (d.block s) := by
  rw [scopes_eq, Covers, ← missing?_eq_none_iff]
  cases d.missing? s.tables with
  | some table => simp
  | none => simp [eq_comm]

/-- What it takes for a statement to give rows. -/
theorem fetchAll_eq_ok_iff {out : List Row} : d.fetchAll s = .ok out ↔
    s.checkLabels = .ok () ∧ ∃ scopes groups rows, d.scopes s = .ok scopes ∧
      group s scopes = .ok groups ∧ groups.mapM (·.row s) = .ok rows ∧
      out = Window.cut s.window ((sortRows (s.orders.map (·.direction)) rows).map (·.values)) := by
  unfold fetchAll
  cases s.checkLabels with
  | error e => simp [bind, Except.bind]
  | ok _ =>
    cases d.scopes s with
    | error e => simp [bind, Except.bind]
    | ok scopes =>
      cases hgroup : group s scopes with
      | error e => simp [bind, Except.bind, hgroup]
      | ok groups =>
        cases hrows : groups.mapM (·.row s) with
        | error e => simp [bind, Except.bind, hgroup, hrows]
        | ok rows =>
          simp only [bind, Except.bind, pure, Except.pure, hgroup, hrows, Except.ok.injEq, true_and]
          constructor
          · rintro rfl
            exact ⟨_, _, _, rfl, hgroup, hrows, rfl⟩
          · rintro ⟨scopes', groups', rows', rfl, hgroup', hrows', rfl⟩
            rw [hgroup] at hgroup'
            cases hgroup'
            rw [hrows] at hrows'
            cases hrows'
            rfl

section Grouping
variable {key : List Json} {groups : List (List Json × Group)}

theorem addToGroup_of_not_mem (h : key ∉ groups.map (·.1)) (t : Scope) :
    addToGroup key t groups = groups ++ [(key, ⟨t, []⟩)] := by
  induction groups with
  | nil => rfl
  | cons e rest ih =>
    obtain ⟨k, g⟩ := e
    rw [List.map_cons, List.mem_cons, not_or] at h
    rw [addToGroup, if_neg (Ne.symm h.1), ih h.2]
    rfl

theorem addToGroup_last (h : key ∉ groups.map (·.1)) (t : Scope) (g : Group) :
    addToGroup key t (groups ++ [(key, g)]) =
      groups ++ [(key, { g with rest := g.rest ++ [t] })] := by
  induction groups with
  | nil => rw [List.nil_append, addToGroup, if_pos rfl, List.nil_append]
  | cons e rest ih =>
    obtain ⟨k, g'⟩ := e
    rw [List.map_cons, List.mem_cons, not_or] at h
    rw [List.cons_append, addToGroup, if_neg (Ne.symm h.1), ih h.2]
    rfl

variable {columns : List Column}

theorem addToGroup_map {α β : Type} [DecidableEq α] [DecidableEq β] {f : α → β}
    (hf : ∀ a b, f a = f b → a = b) (key : α) (t : Scope) (groups : List (α × Group)) :
    addToGroup (f key) t (groups.map (Prod.map f id)) =
      (addToGroup key t groups).map (Prod.map f id) := by
  induction groups with
  | nil => rfl
  | cons e rest ih =>
    obtain ⟨k, g⟩ := e
    simp only [List.map_cons, Prod.map_apply, addToGroup, ih]
    by_cases h : k = key
    · simp [h]
    · simp [h, mt (hf k key) h]

/-- Rows are grouped by their values, since different values have different texts. -/
theorem groupBy_eq (columns : List Column) (scopes : List Scope) : groupBy columns scopes =
    (scopes.foldl (fun groups t => addToGroup (columns.map t.read) t groups) []).map (·.2) := by
  have hinj (vs ws : List Json) (h : (Json.array vs).text = (Json.array ws).text) : vs = ws := by
    have harray := Json.text_injective h
    rwa [Json.array.injEq] at harray
  have hfold (groups : List (List Json × Group)) :
      scopes.foldl (fun groups t => addToGroup (groupKey columns t) t groups)
          (groups.map (Prod.map (fun vs => (Json.array vs).text) id)) =
        (scopes.foldl (fun groups t => addToGroup (columns.map t.read) t groups) groups).map
          (Prod.map (fun vs => (Json.array vs).text) id) := by
    induction scopes generalizing groups with
    | nil => rfl
    | cons t rest ih =>
      rw [List.foldl_cons, List.foldl_cons, ← ih, ← addToGroup_map hinj]
      rfl
  have h := hfold []
  rw [List.map_nil] at h
  rw [groupBy, h, List.map_map]
  rfl

/-- Rows with the key of the last group go to it. -/
theorem foldl_addToGroup_last (h : key ∉ groups.map (·.1)) {rest : List Scope}
    (hkey : ∀ t ∈ rest, columns.map t.read = key) (g : Group) :
    rest.foldl (fun groups t => addToGroup (columns.map t.read) t groups) (groups ++ [(key, g)]) =
      groups ++ [(key, { g with rest := g.rest ++ rest })] := by
  induction rest generalizing g with
  | nil => simp
  | cons t rest ih =>
    rw [List.foldl_cons, hkey t List.mem_cons_self, addToGroup_last h,
      ih fun u hu => hkey u (List.mem_cons_of_mem _ hu)]
    simp

/-- A block whose key is new becomes a group behind the others. -/
theorem foldl_addToGroup (h : key ∉ groups.map (·.1)) {block : List Scope}
    (hkey : ∀ t ∈ block, columns.map t.read = key) :
    block.foldl (fun groups t => addToGroup (columns.map t.read) t groups) groups =
      groups ++ (Group.ofScopes? block).toList.map (key, ·) := by
  cases block with
  | nil => simp [Group.ofScopes?]
  | cons first rest =>
    rw [List.foldl_cons, hkey first List.mem_cons_self, addToGroup_of_not_mem h,
      foldl_addToGroup_last h fun t ht => hkey t (List.mem_cons_of_mem _ ht)]
    rfl

/-- Grouping by columns that are the same within a block and differ between blocks gives the
blocks. -/
theorem groupBy_flatMap {rows : List Record} {block : Record → List Scope}
    {key : Record → List Json} (hapart : (rows.map key).Nodup)
    (hkey : ∀ b ∈ rows, ∀ t ∈ block b, columns.map t.read = key b) :
    groupBy columns (rows.flatMap block) =
      rows.filterMap fun b => Group.ofScopes? (block b) := by
  have hfold (groups : List (List Json × Group)) (hnew : ∀ b ∈ rows, key b ∉ groups.map (·.1)) :
      ((rows.flatMap block).foldl
          (fun groups t => addToGroup (columns.map t.read) t groups) groups).map (·.2) =
        groups.map (·.2) ++ rows.filterMap fun b => Group.ofScopes? (block b) := by
    induction rows generalizing groups with
    | nil => simp
    | cons b rest ih =>
      obtain ⟨hb, hapart⟩ := List.nodup_cons.1 hapart
      rw [List.flatMap_cons, List.foldl_append,
        foldl_addToGroup (hnew b List.mem_cons_self) (hkey b List.mem_cons_self),
        ih hapart fun c hc => hkey c (List.mem_cons_of_mem _ hc)]
      · rw [List.map_append, List.append_assoc, List.filterMap_cons]
        cases Group.ofScopes? (block b) <;> rfl
      · intro c hc hmem
        rw [List.map_append, List.mem_append] at hmem
        rcases hmem with hmem | hmem
        · exact hnew c (List.mem_cons_of_mem _ hc) hmem
        · have heq : key c = key b := by
            rw [List.map_map] at hmem
            obtain ⟨g, -, hg⟩ := List.mem_map.1 hmem
            exact hg.symm
          exact hb (List.mem_map.2 ⟨c, hc, heq⟩)
  have h := hfold [] (by simp)
  rwa [List.map_nil, List.nil_append, ← groupBy_eq] at h

end Grouping

end Dataset
end EntitySelect
