import EntitySelect.Proofs.Query.Calls
import EntitySelect.Proofs.Query.Matching

/-! Rows that a query does not see. A field table is read for one entity type only, and a table that
is read in certain languages is read in no other; what else is in such tables never matters, neither
for the ids nor for their number. -/
namespace EntitySelect

theorem Json.equals_string_iff {v : Json} {s : String} :
    v.equals (.string s) = true ↔ v = .string s := by
  cases v <;> simp [equals, order?, order]

/-- A table with the values of a field. -/
def Catalog.HoldsField (catalog : Catalog) (table : String) : Prop :=
  ∃ name ∈ catalog.fields.keys,
    table = Field.tableName name .current ∨ table = Field.tableName name .revision

instance (catalog : Catalog) : DecidablePred catalog.HoldsField := fun _ =>
  inferInstanceAs (Decidable (∃ _ ∈ _, _))

namespace Dataset

/-- Two datasets with the same rows, but for those that are hidden. -/
def AgreeBut (hidden : String → Record → Prop) [∀ table, DecidablePred (hidden table)]
    (d d' : Dataset) : Prop :=
  ∀ table, (d.tables.find? table).map (·.filter fun row => ¬ hidden table row) =
    (d'.tables.find? table).map (·.filter fun row => ¬ hidden table row)

/-- What finds no hidden row finds the same among the rows that are left. -/
theorem filter_visible {hidden : Record → Prop} [DecidablePred hidden] {p : Record → Bool}
    (hp : ∀ row, p row = true → ¬ hidden row) (rows : List Record) :
    (rows.filter fun row => ¬ hidden row).filter p = rows.filter p := by
  rw [List.filter_filter]
  apply List.filter_congr
  intro row _
  cases hrow : p row with
  | false => rfl
  | true => simp [hp row hrow]

namespace AgreeBut
variable {hidden : String → Record → Prop} [∀ table, DecidablePred (hidden table)] {d d' : Dataset}

/-- The more is hidden, the more datasets agree. -/
theorem mono {more : String → Record → Prop} [∀ table, DecidablePred (more table)]
    (h : AgreeBut hidden d d') (hmore : ∀ table row, hidden table row → more table row) :
    AgreeBut more d d' := by
  intro table
  have hfilter (rows : List Record) :
      (rows.filter fun row => ¬ hidden table row).filter (fun row => ¬ more table row) =
        rows.filter fun row => ¬ more table row := by
    apply filter_visible
    intro row hrow hhidden
    exact of_decide_eq_true hrow (hmore table row hhidden)
  have hmap := congrArg (Option.map (List.filter fun row => ¬ more table row)) (h table)
  simp only [Option.map_map, Function.comp_def, hfilter] at hmap
  exact hmap

theorem isNone_eq (h : AgreeBut hidden d d') (table : String) :
    (d.tables.find? table).isNone = (d'.tables.find? table).isNone := by
  have hmap := congrArg Option.isNone (h table)
  rwa [Option.isNone_map, Option.isNone_map] at hmap

theorem missing?_eq (h : AgreeBut hidden d d') (tables : List String) :
    d.missing? tables = d'.missing? tables := by
  simp only [missing?, h.isNone_eq]

theorem filter_tableRows (h : AgreeBut hidden d d') {table : String} {p : Record → Bool}
    (hp : ∀ row, p row = true → ¬ hidden table row) :
    (d.tableRows table).filter p = (d'.tableRows table).filter p := by
  have hrows (e : Dataset) : (((e.tables.find? table).map
      (·.filter fun row => ¬ hidden table row)).getD []).filter p =
        (e.tableRows table).filter p := by
    rw [tableRows]
    cases e.tables.find? table with
    | none => rfl
    | some rows => exact filter_visible hp rows
  rw [← hrows d, ← hrows d', h table]

theorem tableRows_eq (h : AgreeBut hidden d d') {table : String}
    (hall : ∀ row, ¬ hidden table row) : d.tableRows table = d'.tableRows table := by
  have hfilter := h.filter_tableRows fun row (_ : (fun _ => true) row = true) => hall row
  rwa [List.filter_true, List.filter_true] at hfilter

end AgreeBut
end Dataset

namespace Query
variable (q : Query) (t : EntityType) (base : String) (catalog : Catalog)

/-- A query does not see a row of a table: the row belongs to a field of another entity type, or the
table is read in languages only that the row is not in. -/
def Hides (table : String) (row : Record) : Prop :=
  table ≠ base ∧
    (catalog.HoldsField table ∧
        Record.value row Field.entityTypeColumn ≠ .string q.entityType ∨
      ∀ r ∈ q.requests t base catalog, r.place.table = table →
        ∃ l ∈ r.langcode, Record.value row langcodeColumn ≠ .string l)

instance (table : String) : DecidablePred (q.Hides t base catalog table) := fun _ =>
  inferInstanceAs (Decidable (_ ∧ (_ ∨ _)))

variable {q t base catalog}

/-- What belongs to a row of the base table is seen. -/
theorem not_hides_of_belongs (hdata : ∀ table ∈ t.dataTable, ¬ catalog.HoldsField table)
    {r : Request} (hr : r ∈ q.requests t base catalog) {b row : Record}
    (h : (q.placement t base catalog).belongs r.link b row = true) :
    ¬ q.Hides t base catalog r.place.table row := by
  rw [Layout.belongs, Bool.and_eq_true] at h
  obtain ⟨hentity, hlanguage⟩ := h
  rintro ⟨hne, ⟨hfield, htype⟩ | hlangcodes⟩
  · obtain ⟨specifier, hlocate⟩ := locate_of_mem_requests hr
    rcases (Layout.holds_of_locate hlocate).stored with ⟨-, htable⟩ | ⟨hsource, -⟩
    · rcases List.mem_append.1 htable with htable | htable
      · exact hdata _ (Option.mem_toList.1 htable) hfield
      · exact hne (List.mem_singleton.1 htable)
    · simp only [Request.link, hsource, Bool.and_eq_true] at hentity
      exact htype (Json.equals_string_iff.1 hentity.2)
  · obtain ⟨l, hl, hother⟩ := hlangcodes r hr rfl
    rw [Option.mem_def] at hl
    rw [Request.link, hl] at hlanguage
    exact hother (Json.equals_string_iff.1 hlanguage)

/-- Counting for a pager asks for less, and so sees no more. -/
theorem hides_toCount {table : String} {row : Record} (h : q.Hides t base catalog table row) :
    q.toCount.Hides t base catalog table row := by
  refine ⟨h.1, h.2.imp_right fun hlangcodes r hr => hlangcodes r ?_⟩
  rw [requests, sortRequests, show q.toCount.activeSorts = [] from rfl, List.filterMap_nil,
    List.append_nil] at hr
  exact List.mem_append_left _ hr

end Query

namespace CompiledAs
variable {q : Query} {t : EntityType} {base : String} {catalog : Catalog} {c : Compiled}
  {d d' : Dataset}

/-- Each join has the same choices where only hidden rows differ. -/
theorem choices_eq_of_agreeBut (h : CompiledAs q t base catalog c)
    (hdata : ∀ table ∈ t.dataTable, ¬ catalog.HoldsField table)
    (hagree : Dataset.AgreeBut (q.Hides t base catalog) d d') {j : Join}
    (hj : j ∈ c.statement.joins) (b : Record) :
    j.choices (d.tableRows j.table) [(baseLabel, b)] =
      j.choices (d'.tableRows j.table) [(baseLabel, b)] := by
  have hne := h.label_ne_base hj
  rw [h.joins] at hj
  obtain ⟨r, hfirst, -, hjoin⟩ := (q.joined_spec t base catalog).created j hj
  have htable : j.table = r.place.table := by
    rw [hjoin]
    rfl
  have hpartners : j.partners (d.tableRows r.place.table) [(baseLabel, b)] =
      j.partners (d'.tableRows r.place.table) [(baseLabel, b)] := by
    rw [hjoin]
    change ((q.placement t base catalog).wanted r baseLabel j.label).partners _ _ =
      ((q.placement t base catalog).wanted r baseLabel j.label).partners _ _
    rw [Layout.partners_wanted hne, Layout.partners_wanted hne]
    exact hagree.filter_tableRows fun row hrow =>
      Query.not_hides_of_belongs hdata (Layout.mem_of_first hfirst) hrow
  rw [htable, Join.choices, Join.choices, hpartners]

theorem scopes_eq_of_agreeBut (h : CompiledAs q t base catalog c)
    (hdata : ∀ table ∈ t.dataTable, ¬ catalog.HoldsField table)
    (hagree : Dataset.AgreeBut (q.Hides t base catalog) d d') :
    d.scopes c.statement = d'.scopes c.statement := by
  have hbase : d.tableRows c.statement.table = d'.tableRows c.statement.table :=
    hagree.tableRows_eq fun row hhides => hhides.1 h.table
  have hblock (b : Record) : d.block c.statement b = d'.block c.statement b := by
    rw [Dataset.block, Dataset.block, h.label]
    rw [(h.hanging b).expand_congr fun j hj => h.choices_eq_of_agreeBut hdata hagree hj b]
  rw [Dataset.scopes_eq, Dataset.scopes_eq, hagree.missing?_eq, hbase, funext hblock]

/-- A statement gives the same rows, and the same number of them, where only hidden rows differ. -/
theorem fetch_eq_of_agreeBut (h : CompiledAs q t base catalog c)
    (hdata : ∀ table ∈ t.dataTable, ¬ catalog.HoldsField table)
    (hagree : Dataset.AgreeBut (q.Hides t base catalog) d d') :
    d.fetchAll c.statement = d'.fetchAll c.statement ∧
      d.fetchCount c.statement.countQuery = d'.fetchCount c.statement.countQuery := by
  have hscopes := h.scopes_eq_of_agreeBut hdata hagree
  have hunordered : d.scopes c.statement.countQuery.inner =
      d'.scopes c.statement.countQuery.inner := hscopes
  constructor
  · rw [Dataset.fetchAll, Dataset.fetchAll, hscopes]
  · rw [Dataset.fetchCount, Dataset.fetchCount, Dataset.fetchAll, Dataset.fetchAll, hunordered]

end CompiledAs

namespace Query
variable {q : Query} {t : EntityType} {base : String} {catalog : Catalog} {d d' : Dataset}

/-- A query gives the same on two datasets that differ in rows only that it does not see: the same
ids in the same order, the same number, the same page or the same error, with the same calls. -/
theorem execute_of_agreeBut (ht : catalog.describe q.entityType = some t)
    (hbase : t.baseTable = some base)
    (hdata : ∀ table ∈ t.dataTable, ¬ catalog.HoldsField table)
    (hagree : Dataset.AgreeBut (q.Hides t base catalog) d d') :
    q.execute catalog d.connection = q.execute catalog d'.connection := by
  cases hc : q.compile catalog with
  | error e => rw [execute_of_error hc, execute_of_error hc]
  | ok c =>
    obtain ⟨total, htotal⟩ := exists_compiled_toCount hc
    obtain ⟨hall, hcount⟩ := (compiledAs_of_compile hc ht hbase).fetch_eq_of_agreeBut hdata hagree
    obtain ⟨-, hcountTotal⟩ := (compiledAs_of_compile htotal ht hbase).fetch_eq_of_agreeBut hdata
      (hagree.mono fun table row => hides_toCount)
    have hcounted : d.connection.counted c.statement = d'.connection.counted c.statement :=
      congrArg (Except.mapError QueryError.backend) hcount
    have hcountedTotal :
        d.connection.counted total.statement = d'.connection.counted total.statement :=
      congrArg (Except.mapError QueryError.backend) hcountTotal
    have hlisted (page : Option PageState) :
        d.connection.listed c.statement page = d'.connection.listed c.statement page := by
      simp only [Connection.listed, Dataset.connection, hall]
    simp only [execute_eq_outcome hc htotal, outcome, hcounted, hcountedTotal, hlisted]

/-- Pages of nodes in the order of their English tags. -/
def englishTags : Query where
  entityType := "node"
  sorts := [{ field := "tags", langcode := some "en" }]
  pager := some { limit := 1 }

/-- A German tag of a node and an English one of a user are not seen among the tags of nodes. -/
theorem execute_of_agreeBut_tagged :
    let tag (entityType langcode value : String) : Record := [("entity_type", .string entityType),
      ("entity_id", .word 1), ("langcode", .string langcode), ("tags_value", .string value)]
    let withTags (rows : List Record) : Dataset :=
      ⟨Dataset.tagged.tables.insert "field_data_tags" rows⟩
    englishTags.execute Catalog.tagged
        (withTags [tag "node" "de" "a", tag "user" "en" "a", tag "node" "en" "b"]).connection =
      englishTags.execute Catalog.tagged (withTags [tag "node" "en" "b"]).connection := by
  intro tag withTags
  obtain ⟨t, ht, hbase, hdata, hrows⟩ : ∃ t, Catalog.tagged.describe "node" = some t ∧
      t.baseTable = some "node" ∧ t.dataTable = none ∧
      [tag "node" "de" "a", tag "user" "en" "a", tag "node" "en" "b"].filter
          (fun row => ¬ englishTags.Hides t "node" Catalog.tagged "field_data_tags" row) =
        [tag "node" "en" "b"].filter
          (fun row => ¬ englishTags.Hides t "node" Catalog.tagged "field_data_tags" row) :=
    ⟨_, rfl, rfl, rfl, by decide +kernel⟩
  refine execute_of_agreeBut ht hbase (by rw [hdata]; exact nofun) fun table => ?_
  simp only [withTags, Dict.find?_insert]
  split
  · next htable =>
    subst htable
    exact congrArg some hrows
  · rfl

end Query
end EntitySelect
