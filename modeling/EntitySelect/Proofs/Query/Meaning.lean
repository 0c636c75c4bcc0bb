import EntitySelect.Proofs.Query.JoinKinds

/-! What the conditions of a query say of a row of the base table, without statements and joins: for
every table that is read in a language one of the rows that belong to it can be chosen, so that the
condition tree holds. A compiled statement joins and compares just so. -/
namespace EntitySelect

/-- A table other than the base table that is read, and the language it is read in. -/
structure Link where
  table : String
  source : Source
  langcode : Option String
  deriving DecidableEq, Repr

def Link.pair (l : Link) : String × Option String := (l.table, l.langcode)

/-- The row that is read for each table and language, or none where a row is absent. -/
abbrev Choice := String × Option String → Option Record

namespace Layout
variable (layout : Layout) (catalog : Catalog)

/-- The table that a comparison reads, unless that is the base table. -/
def link? (l : Leaf) : Option Link :=
  match layout.locate catalog l.field with
  | .ok (some place) =>
    if layout.atBase place then none else some ⟨place.table, place.source, l.langcode⟩
  | _ => none

/-- A row of a table belongs to a row of the base table: it is about the same entity or revision, in
a field table of the right type, and in the language that is asked for. -/
def belongs (link : Link) (b row : Record) : Bool :=
  (match link.source with
    | .entityTable =>
      (Record.value row layout.entityIdColumn).equals (Record.value b layout.entityIdColumn)
    | .fieldTable =>
      (Record.value row layout.fieldIdColumn).equals (Record.value b layout.entityIdColumn) &&
        (Record.value row Field.entityTypeColumn).equals (.string layout.entityType)) &&
  link.langcode.all fun l => (Record.value row langcodeColumn).equals (.string l)

/-- The value that a comparison looks at. An absent row reads as null. -/
def value (b : Record) (choice : Choice) (l : Leaf) : Json :=
  match layout.locate catalog l.field with
  | .ok (some place) =>
    if layout.atBase place then Record.value b place.column
    else match choice (place.table, l.langcode) with
      | some row => Record.value row place.column
      | none => .null
  | _ => .null

end Layout

/-- A choice of rows for a row of the base table. Of the links to a table in a language the first
counts, and a row is absent only if none belongs to it. -/
structure Fits (layout : Layout) (links : List Link) (d : Dataset) (b : Record) (choice : Choice) :
    Prop where
  present : ∀ link, links.find? (·.pair == link.pair) = some link →
    ∀ row, choice link.pair = some row →
      row ∈ d.tableRows link.table ∧ layout.belongs link b row = true
  absent : ∀ link, links.find? (·.pair == link.pair) = some link → choice link.pair = none →
    ∀ row ∈ d.tableRows link.table, layout.belongs link b row = false

namespace Query
variable (q : Query) (t : EntityType) (base : String) (catalog : Catalog)

/-- The tables that the conditions read. -/
def links : List Link := q.conditions.leaves.filterMap ((q.placement t base catalog).link? catalog)

/-- The table of a name that is read in a language, as the first comparison to read it takes it. -/
def link? (pair : String × Option String) : Option Link :=
  (q.links t base catalog).find? (·.pair == pair)

/-- A row of the base table fulfils the conditions. -/
def Matches (d : Dataset) (b : Record) : Prop :=
  ∃ choice, Fits (q.placement t base catalog) (q.links t base catalog) d b choice ∧
    q.conditions.toCondition.holds (fun l =>
      l.accepts ((q.placement t base catalog).value catalog b choice l)) = true

end Query

def Request.link (r : Request) : Link := ⟨r.place.table, r.place.source, r.langcode⟩

namespace JoinTerm
variable {root label : String}

/-- Two columns are compared in a row of a joined table and the base row beside it. -/
theorem columns_holds_beside (hne : label ≠ root) (b row : Record) (c c' : String) :
    (columns ⟨label, c⟩ ⟨root, c'⟩).holds [(root, b), (label, row)] =
      (Record.value row c).equals (Record.value b c') := by
  simp [holds, Scope.read, List.lookup_cons, beq_eq_false_iff_ne.2 hne, Record.value]

theorem value_holds_beside (hne : label ≠ root) (b row : Record) (c : String) (v : Json) :
    (value ⟨label, c⟩ v).holds [(root, b), (label, row)] = (Record.value row c).equals v := by
  simp [holds, Scope.read, List.lookup_cons, beq_eq_false_iff_ne.2 hne, Record.value]

end JoinTerm

namespace Layout
variable {layout : Layout} {catalog : Catalog}

theorem link?_of_locate {l : Leaf} {place : Location}
    (h : layout.locate catalog l.field = .ok (some place)) :
    layout.link? catalog l =
      if layout.atBase place then none else some ⟨place.table, place.source, l.langcode⟩ := by
  rw [link?, h]

/-- The first request for a table is that of the first comparison to read it. -/
theorem find?_links (ms : List (Bool × Leaf)) (pair : String × Option String) :
    ((ms.map (·.2)).filterMap (layout.link? catalog)).find? (·.pair == pair) =
      (layout.first (Condition.requestsOf layout catalog ms) pair).map Request.link := by
  induction ms with
  | nil => rfl
  | cons m ms ih =>
    obtain ⟨underOr, l⟩ := m
    rw [List.map_cons, List.filterMap_cons, Condition.requestsOf, List.filterMap_cons]
    by_cases hlocated : ∃ place, layout.locate catalog l.field = .ok (some place)
    · obtain ⟨place, hplace⟩ := hlocated
      rw [link?_of_locate hplace, Leaf.request?_of_locate hplace]
      cases hbase : layout.atBase place with
      | true =>
        rw [if_pos rfl, first, List.find?_cons_of_neg (by simp [hbase])]
        exact ih
      | false =>
        rw [if_neg Bool.false_ne_true, first]
        by_cases hpair : (place.table, l.langcode) = pair
        · rw [List.find?_cons_of_pos (by simpa [Link.pair] using hpair),
            List.find?_cons_of_pos (by simpa [hbase, Request.pair] using hpair)]
          rfl
        · rw [List.find?_cons_of_neg (by simpa [Link.pair] using hpair),
            List.find?_cons_of_neg (by simpa [hbase, Request.pair] using hpair)]
          exact ih
    · have hlink : layout.link? catalog l = none := by
        unfold link?
        split
        · exact absurd ⟨_, ‹_›⟩ hlocated
        · rfl
      have hrequest : l.request? layout catalog underOr = none := by
        unfold Leaf.request?
        split
        · exact absurd ⟨_, ‹_›⟩ hlocated
        · rfl
      rw [hlink, hrequest]
      exact ih

section Joins
variable {r : Request} {root label : String}

/-- Requested joins hang on the base table. -/
theorem hangsOn_wanted : (layout.wanted r root label).HangsOn root := by
  intro term hterm column hcolumn
  rcases exists_mem_terms_iff.1 ⟨term, hterm, hcolumn⟩ with rfl | ⟨name, -, rfl⟩
  · exact .inl rfl
  · exact .inr rfl

/-- The partners of a base row in a requested join are the rows that belong to it. -/
theorem partners_wanted (hne : label ≠ root) (rows : List Record) (b : Record) :
    (layout.wanted r root label).partners rows [(root, b)] =
      rows.filter (layout.belongs r.link b) := by
  apply List.filter_congr
  intro row _
  obtain ⟨⟨source, table, column⟩, kind, langcode⟩ := r
  have hcolumns (c c' : String) := JoinTerm.columns_holds_beside hne b row c c'
  have hvalue (c : String) (v : Json) := JoinTerm.value_holds_beside hne b row c v
  have hlanguage : (languageTerms langcode label).all (·.holds [(root, b), (label, row)]) =
      langcode.all fun l => (Record.value row langcodeColumn).equals (.string l) := by
    cases langcode with
    | none => rfl
    | some l => simp [languageTerms, hvalue]
  cases source with
  | entityTable =>
    change ((layout.entityTerms langcode root label).all
      (·.holds [(root, b), (label, row)])) = _
    rw [entityTerms, List.all_cons, hcolumns, hlanguage]
    rfl
  | fieldTable =>
    change ((layout.fieldTerms langcode root label).all
      (·.holds [(root, b), (label, row)])) = _
    rw [fieldTerms, List.all_cons, List.all_cons, hcolumns, hvalue, hlanguage, ← Bool.and_assoc]
    rfl

end Joins
end Layout

/-- A left join takes a partner, or none where there is no partner. -/
theorem Join.mem_choices_asLeft {j : Join} {rows : List Record} {s : Scope}
    {row? : Option Record} : row? ∈ j.asLeft.choices rows s ↔
      (∀ row, row? = some row → row ∈ j.partners rows s) ∧
        (row? = none → j.partners rows s = []) := by
  rw [choices, partners_asLeft]
  by_cases hfound : j.partners rows s = []
  · cases row? <;> simp [hfound, asLeft]
  · cases row? <;> simp [hfound]

end EntitySelect
