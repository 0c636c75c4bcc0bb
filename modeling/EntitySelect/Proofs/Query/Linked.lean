import EntitySelect.Dataset.Evaluation
import EntitySelect.Proofs.Dataset.Blending
import EntitySelect.Proofs.Query.Declared
import EntitySelect.Proofs.Query.Listing
import EntitySelect.Proofs.Query.Matching

/-! Which rows are joined. A joined table is linked to the base table by the ids of entities or
revisions, and rows with different ids are linked only if the ids blend. -/
namespace EntitySelect

namespace Layout
variable {layout : Layout}

/-- The column of a joined table that holds the ids of entities or revisions. -/
def idColumn (layout : Layout) : Source → String
  | .entityTable => layout.entityIdColumn
  | .fieldTable => layout.fieldIdColumn

/-- The equation between the ids of a joined table and those of the base table. -/
def idTerm (layout : Layout) (source : Source) (root label : String) : JoinTerm :=
  .columns ⟨label, layout.idColumn source⟩ ⟨root, layout.entityIdColumn⟩

theorem idTerm_mem_wanted (r : Request) (root label : String) :
    layout.idTerm r.place.source root label ∈ (layout.wanted r root label).on := by
  obtain ⟨⟨source, table, column⟩, kind, langcode⟩ := r
  cases source <;> exact List.mem_cons_self

theorem idTerm_holds {source : Source} {root label : String} (hne : label ≠ root)
    (b row : Record) : (layout.idTerm source root label).holds [(root, b), (label, row)] =
      (Record.value row (layout.idColumn source)).equals (Record.value b layout.entityIdColumn) :=
  JoinTerm.columns_holds_beside hne b row _ _

end Layout

/-- Among the joined rows of a statement is `row`, for the join `j`, beside the base row `b`. -/
def Dataset.Links (d : Dataset) (s : Select) (b : Record) (j : Join) (row : Record) : Prop :=
  j ∈ s.joins ∧ ∃ rows joined, d.rows s.table = .ok rows ∧
    d.joinAll s.joins (rows.map fun b => [(s.label, b)]) = .ok joined ∧
    ∃ scope ∈ joined, scope.lookup s.label = some b ∧ scope.lookup j.label = some row

namespace CompiledAs
variable {q : Query} {t : EntityType} {base : String} {catalog : Catalog} {c : Compiled}
  {d : Dataset} {b row : Record} {j : Join}

/-- Rows are linked where they are partners. -/
theorem mem_partners_of_links (h : CompiledAs q t base catalog c)
    (hlinks : d.Links c.statement b j row) :
    row ∈ j.partners (d.tableRows j.table) [(baseLabel, b)] := by
  obtain ⟨hj, rows, joined, -, hjoined, scope, hscope, hlookup, hrow⟩ := hlinks
  rw [h.label] at hjoined hlookup
  rw [Dataset.joinAll_eq] at hjoined
  split at hjoined
  · cases hjoined
  · obtain rfl := Except.ok.inj hjoined
    rw [List.flatMap_map, List.mem_flatMap] at hscope
    obtain ⟨b', -, hexpand⟩ := hscope
    rw [Dataset.lookup_of_mem_expand hexpand fun k hk => (h.label_ne_base hk).symm] at hlookup
    obtain rfl : b' = b := by simpa using hlookup
    have hchoice := (h.hanging b').lookup_mem_choices hexpand j hj
    rw [hrow] at hchoice
    exact Join.some_mem_choices_iff.1 hchoice

/-- Every join is linked by ids. -/
theorem exists_idTerm_mem (h : CompiledAs q t base catalog c) (hj : j ∈ c.statement.joins) :
    ∃ source, (q.placement t base catalog).idTerm source c.statement.label j.label ∈ j.on := by
  rw [h.joins] at hj
  obtain ⟨r, -, -, hwanted⟩ := (q.joined_spec t base catalog).created j hj
  refine ⟨r.place.source, ?_⟩
  rw [hwanted, h.label]
  exact Layout.idTerm_mem_wanted r baseLabel j.label

/-- The ids of linked rows compare as equal. -/
theorem equals_of_links (h : CompiledAs q t base catalog c)
    (hlinks : d.Links c.statement b j row) {source : Source}
    (hterm : (q.placement t base catalog).idTerm source c.statement.label j.label ∈ j.on) :
    (Record.value row ((q.placement t base catalog).idColumn source)).equals
      (Record.value b (q.placement t base catalog).entityIdColumn) = true := by
  have hne : j.label ≠ baseLabel := h.label_ne_base hlinks.1
  have hon := (List.mem_filter.1 (h.mem_partners_of_links hlinks)).2
  rw [h.label] at hterm
  rw [← Layout.idTerm_holds hne]
  exact List.all_eq_true.1 hon _ hterm

end CompiledAs

namespace JoinTerm
variable {s : Scope} {v w : Word}

theorem columns_holds_iff {left right : Column} (hleft : s.read left = v.toJson)
    (hright : s.read right = w.toJson) :
    (JoinTerm.columns left right).holds s = true ↔ v.value = v.against w := by
  rw [holds, hleft, hright, Word.equals_iff]

theorem value_holds_iff {column : Column} (hread : s.read column = v.toJson) :
    (JoinTerm.value column w.toJson).holds s = true ↔ v.value = v.against w := by
  rw [holds, hread, Word.equals_iff]

end JoinTerm

/-- Whole numbers are compared exactly, but for those that blend, which compare as equal. So are they
ordered, so are joins and conditions decided, and a join links rows with different ids only if the
ids blend. -/
theorem Word.exact_unless_blends (v w : Word) :
    v.toJson.order w.toJson = compare v.value (v.against w) ∧
    v.Decides v.against ∧
    (∀ (s : Scope) (left right : Column), s.read left = v.toJson → s.read right = w.toJson →
      ((JoinTerm.columns left right).holds s = true ↔ v.value = v.against w)) ∧
    (∀ (s : Scope) (column : Column), s.read column = v.toJson →
      ((JoinTerm.value column w.toJson).holds s = true ↔ v.value = v.against w)) ∧
    ∀ (q : Query) (catalog : Catalog) (c : Compiled) (t : EntityType) (base : String) (d : Dataset)
      (b row : Record) (j : Join), q.compile catalog = .ok c →
      catalog.describe q.entityType = some t → t.baseTable = some base →
      d.Links c.statement b j row →
      (∃ source,
        (q.placement t base catalog).idTerm source c.statement.label j.label ∈ j.on) ∧
      ∀ source m n,
        (q.placement t base catalog).idTerm source c.statement.label j.label ∈ j.on →
        (Record.value row ((q.placement t base catalog).idColumn source)).id? = some m →
        (Record.value b (q.placement t base catalog).entityIdColumn).id? = some n →
        m = n ∨ (Word.ofUInt64 m).Blends (.ofUInt64 n) := by
  refine ⟨order_eq v w, decides_against v, ?_, ?_, ?_⟩
  · exact fun s left right => JoinTerm.columns_holds_iff
  · exact fun s column => JoinTerm.value_holds_iff
  · intro q catalog c t base d b row j hc ht hbase hlinks
    have hcompiled := Query.compiledAs_of_compile hc ht hbase
    refine ⟨hcompiled.exists_idTerm_mem hlinks.1, ?_⟩
    intro source m n hterm hm hn
    exact Json.ids_of_equals hm hn (hcompiled.equals_of_links hlinks hterm)

namespace Dataset

/-- A node whose id is above `2 ^ 63`. -/
def largeNode : Record := [("nid", .word 9223372036854775809)]

/-- A tag of the node before it. -/
def largeTag : Record := [("entity_type", .string "node"),
  ("entity_id", .word 9223372036854775808), ("revision_id", .word 1), ("tags_value", .string "a")]

def large : Dataset where
  tables := Dict.ofList [
    ("node", [[("nid", .word 9223372036854775808)], largeNode]),
    ("field_data_tags", [largeTag])]

end Dataset

/-- The join of the tags. -/
def Join.tags : Join := ⟨.inner, "field_data_tags", "field_data_tags", [
  .columns ⟨"field_data_tags", "entity_id"⟩ ⟨baseLabel, "nid"⟩,
  .value ⟨"field_data_tags", "entity_type"⟩ (.string "node")]⟩

/-- The tag is linked to the wrong node, whose id blends with that of the right one. -/
theorem Word.exact_unless_blends_large : ∃ c,
    (Query.byTag .current none).compile Catalog.translated = .ok c ∧
    Dataset.large.Links c.statement Dataset.largeNode Join.tags Dataset.largeTag ∧
    (JoinTerm.columns ⟨"field_data_tags", "entity_id"⟩ ⟨baseLabel, "nid"⟩).holds
      [(baseLabel, Dataset.largeNode), ("field_data_tags", Dataset.largeTag)] = true ∧
    (JoinTerm.value ⟨"field_data_tags", "entity_id"⟩ (.word 9223372036854775809)).holds
      [(baseLabel, Dataset.largeNode), ("field_data_tags", Dataset.largeTag)] = true ∧
    ((9223372036854775808 : UInt64) = 9223372036854775809 ∨
      (Word.ofUInt64 9223372036854775808).Blends (.ofUInt64 9223372036854775809)) := by
  obtain ⟨-, -, hcolumns, hvalue, hlinked⟩ := exact_unless_blends
    (.ofUInt64 9223372036854775808) (.ofUInt64 9223372036854775809)
  -- what is compiled is known by its evaluation only
  have hstatement : ((Query.byTag .current none).compile Catalog.translated).toOption.map
      (fun c => (c.statement.table, c.statement.label, c.statement.joins)) =
        some ("node", baseLabel, [Join.tags]) := by decide +kernel
  obtain ⟨c, hc, hparts⟩ := Option.map_eq_some_iff.1 hstatement
  obtain ⟨htable, hlabel, hjoins⟩ : c.statement.table = "node" ∧ c.statement.label = baseLabel ∧
      c.statement.joins = [Join.tags] := by simpa using hparts
  have hlinks : Dataset.large.Links c.statement Dataset.largeNode Join.tags Dataset.largeTag := by
    rw [Dataset.Links, htable, hlabel, hjoins]
    refine ⟨List.mem_singleton_self _, _, _, rfl, rfl, ?_⟩
    exact ⟨[(baseLabel, Dataset.largeNode), ("field_data_tags", Dataset.largeTag)],
      by decide +kernel, rfl, rfl⟩
  obtain ⟨-, hids⟩ := hlinked _ _ c _ "node" Dataset.large _ _ _ (eq_ok_of_toOption hc) rfl rfl
    hlinks
  rw [hlabel] at hids
  refine ⟨c, eq_ok_of_toOption hc, hlinks, ?_, ?_,
    hids .fieldTable _ _ List.mem_cons_self rfl rfl⟩
  · exact (hcolumns _ _ _ rfl rfl).2 (by decide)
  · exact (hvalue _ _ rfl).2 (by decide)

/-- Neither of `2 ^ 63 + 1` and `2 ^ 63` comes before the other, and by the tag of one node two are
found. -/
theorem Word.exists_order_ne_compare :
    (∃ v w : Word, v.value = 2 ^ 63 + 1 ∧ w.value = 2 ^ 63 ∧
      v.toJson.order w.toJson ≠ compare v.value w.value) ∧
    ((Query.byTag .current none).execute Catalog.translated Dataset.large.connection).1 =
      .ok (.entities ⟨[(9223372036854775808, 9223372036854775808),
        (9223372036854775809, 9223372036854775809)]⟩ none) := by
  refine ⟨⟨.ofUInt64 9223372036854775809, .ofUInt64 9223372036854775808, rfl, rfl, ?_⟩, ?_⟩
  · decide +kernel
  · exact eq_ok_of_toOption (by decide +kernel)

end EntitySelect
