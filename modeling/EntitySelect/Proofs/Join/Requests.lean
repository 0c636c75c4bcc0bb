import EntitySelect.Proofs.Join.Resolving
import EntitySelect.Proofs.Select.Label
import Mathlib.Data.List.Nodup
import Mathlib.Logic.Basic

/-! What a list of requests for properties makes of a statement. A table is joined once for each
language, the way the first request for it asks; later requests read the table that is there. -/
namespace EntitySelect

/-- A property to be read: its place, its language, and how its table is joined if it has to be. -/
structure Request where
  place : Location
  kind : JoinKind
  langcode : Option String
  deriving DecidableEq, Repr

/-- The table and language that a request is about. -/
def Request.pair (r : Request) : String × Option String := (r.place.table, r.langcode)

theorem Registry.get?_register (g : Registry) (table other : String)
    (langcode otherLangcode : Option String) (label : String) :
    (g.register table langcode label).get? other otherLangcode =
      (g.get? other otherLangcode).or
        (if (other, otherLangcode) = (table, langcode) then some label else none) := by
  unfold register
  split
  · next h =>
    by_cases heq : (other, otherLangcode) = (table, langcode)
    · obtain ⟨rfl, rfl⟩ := Prod.mk.inj heq
      obtain ⟨old, hold⟩ := Option.isSome_iff_exists.1 h
      simp [hold]
    · simp [heq]
  · next h =>
    simp only [get?, List.lookup_append]
    by_cases heq : (other, otherLangcode) = (table, langcode)
    · simp [heq]
    · rw [if_neg heq]
      congr 1
      simp only [List.lookup_cons, List.lookup_nil]
      split
      · next hb => exact absurd (by simpa using hb) heq
      · rfl

namespace Layout

/-- Whether a place is in the base table, which is never joined. -/
def atBase (layout : Layout) (place : Location) : Bool :=
  place.source == .entityTable && place.table == layout.baseTable

/-- How the rows of a table belong to a row of the base table. -/
def terms (layout : Layout) (source : Source) (langcode : Option String) (base label : String) :
    List JoinTerm :=
  match source with
  | .entityTable => layout.entityTerms langcode base label
  | .fieldTable => layout.fieldTerms langcode base label

/-- The columns of a joined table that tell which of its rows belong to a row of the base table. -/
def joinColumns (layout : Layout) (source : Source) (langcode : Option String) : List String :=
  (match source with
    | .entityTable => [layout.entityIdColumn]
    | .fieldTable => [layout.fieldIdColumn, Field.entityTypeColumn]) ++
  langcode.toList.map fun _ => langcodeColumn

/-- The equations of a join read one column of the base table. -/
theorem exists_mem_terms_iff {layout : Layout} {source : Source} {langcode : Option String}
    {root label : String} {column : Column} :
    (∃ term ∈ layout.terms source langcode root label, column ∈ term.mentions) ↔
      column = ⟨root, layout.entityIdColumn⟩ ∨
        ∃ name ∈ layout.joinColumns source langcode, column = ⟨label, name⟩ := by
  rw [← List.mem_flatMap]
  cases source with
  | entityTable =>
    cases langcode with
    | none => simp [terms, entityTerms, languageTerms, joinColumns, JoinTerm.mentions, or_comm]
    | some l =>
      simp [terms, entityTerms, languageTerms, joinColumns, JoinTerm.mentions, or_left_comm]
  | fieldTable =>
    cases langcode <;>
      simp [terms, fieldTerms, languageTerms, joinColumns, JoinTerm.mentions, or_left_comm]

/-- The join that a request asks for. -/
def wanted (layout : Layout) (r : Request) (base label : String) : Join :=
  ⟨r.kind, r.place.table, label, layout.terms r.place.source r.langcode base label⟩

/-- The joins once a new table has been joined for a request. -/
def adjoin (layout : Layout) (r : Request) (j : Joining) : Joining :=
  let joined := j.statement.addJoin r.kind r.place.table
    (layout.terms r.place.source r.langcode j.statement.label)
  ⟨joined.2, j.registry.register r.place.table r.langcode joined.1⟩

/-- The label of the table that a place is read from. -/
def label (layout : Layout) (j : Joining) (place : Location) (langcode : Option String) : String :=
  if layout.atBase place then j.statement.label
  else (j.registry.get? place.table langcode).getD ""

/-- The column of a place. -/
def column (layout : Layout) (j : Joining) (place : Location) (langcode : Option String) : Column :=
  ⟨layout.label j place langcode, place.column⟩

theorem column_of_atBase {layout : Layout} {place : Location} (h : layout.atBase place = true)
    (j : Joining) (langcode : Option String) :
    layout.column j place langcode = ⟨j.statement.label, place.column⟩ := by
  rw [column, label, if_pos h]

theorem column_of_get? {layout : Layout} {place : Location} {j : Joining}
    {langcode : Option String} {label : String} (h : layout.atBase place = false)
    (hlabel : j.registry.get? place.table langcode = some label) :
    layout.column j place langcode = ⟨label, place.column⟩ := by
  rw [column, Layout.label, h, if_neg Bool.false_ne_true, hlabel]
  rfl

/-- All that a request can do: nothing at the base table and at a table that is there already, else
one more join. -/
theorem enter_cases (layout : Layout) (r : Request) (j : Joining) :
    (layout.atBase r.place = true ∧
      layout.enter r.place r.kind r.langcode j =
        (⟨⟨j.statement.label, r.place.column⟩, r.place.source, false⟩, j)) ∨
    (layout.atBase r.place = false ∧ ∃ label,
      j.registry.get? r.place.table r.langcode = some label ∧
      layout.enter r.place r.kind r.langcode j =
        (⟨⟨label, r.place.column⟩, r.place.source, false⟩, j)) ∨
    (layout.atBase r.place = false ∧ j.registry.get? r.place.table r.langcode = none ∧
      layout.enter r.place r.kind r.langcode j =
        (⟨⟨(j.statement.addJoin r.kind r.place.table
            (layout.terms r.place.source r.langcode j.statement.label)).1, r.place.column⟩,
          r.place.source, r.place.source == .fieldTable⟩, layout.adjoin r j)) := by
  obtain ⟨⟨source, table, column⟩, kind, langcode⟩ := r
  cases source with
  | entityTable =>
    by_cases hbase : table = layout.baseTable
    · left
      simp [atBase, enter, hbase]
    · right
      cases hget : j.registry.get? table langcode with
      | some label => simp [atBase, enter, join, hbase, hget]
      | none =>
        refine .inr ⟨by simp [atBase, hbase], rfl, ?_⟩
        simp only [enter, join, if_neg hbase, hget]
        rfl
  | fieldTable =>
    right
    cases hget : j.registry.get? table langcode with
    | some label => simp [atBase, enter, join, hget]
    | none =>
      refine .inr ⟨by simp [atBase], rfl, ?_⟩
      simp only [enter, join, hget]
      rfl

/-- The joins after a list of requests. -/
def enterAll (layout : Layout) (rs : List Request) (j : Joining) : Joining :=
  rs.foldl (fun j r => (layout.enter r.place r.kind r.langcode j).2) j

@[simp] theorem enterAll_nil (layout : Layout) (j : Joining) : layout.enterAll [] j = j := rfl

@[simp] theorem enterAll_cons (layout : Layout) (r : Request) (rs : List Request) (j : Joining) :
    layout.enterAll (r :: rs) j =
      layout.enterAll rs (layout.enter r.place r.kind r.langcode j).2 := rfl

theorem enterAll_append (layout : Layout) (rs more : List Request) (j : Joining) :
    layout.enterAll (rs ++ more) j = layout.enterAll more (layout.enterAll rs j) :=
  List.foldl_append

/-- Whether one of the requests joins a table of field values. -/
def addsFieldTable (layout : Layout) : List Request → Joining → Bool
  | [], _ => false
  | r :: rs, j =>
    let (resolution, j) := layout.enter r.place r.kind r.langcode j
    resolution.addsFieldTable || addsFieldTable layout rs j

theorem addsFieldTable_append (layout : Layout) (rs more : List Request) (j : Joining) :
    layout.addsFieldTable (rs ++ more) j =
      (layout.addsFieldTable rs j || layout.addsFieldTable more (layout.enterAll rs j)) := by
  induction rs generalizing j with
  | nil => simp [addsFieldTable]
  | cons r rs ih => simp only [List.cons_append, addsFieldTable, ih, enterAll_cons, Bool.or_assoc]

/-- A table that has been joined stays so. -/
theorem get?_enter {layout : Layout} {r : Request} {j : Joining} {table : String}
    {langcode : Option String} {label : String} (h : j.registry.get? table langcode = some label) :
    (layout.enter r.place r.kind r.langcode j).2.registry.get? table langcode = some label := by
  rcases layout.enter_cases r j with ⟨-, he⟩ | ⟨-, _, -, he⟩ | ⟨-, -, he⟩
  · rw [he]; exact h
  · rw [he]; exact h
  · rw [he]
    simp only [adjoin, Registry.get?_register, h, Option.some_or]

/-- A table that has just been joined goes by the label of its join. -/
theorem get?_adjoin {layout : Layout} {r : Request} {j : Joining}
    (h : j.registry.get? r.place.table r.langcode = none) :
    (layout.adjoin r j).registry.get? r.place.table r.langcode =
      some (j.statement.addJoin r.kind r.place.table
        (layout.terms r.place.source r.langcode j.statement.label)).1 := by
  rw [adjoin, Registry.get?_register, h, Option.none_or, if_pos rfl]

@[simp] theorem label_enter (layout : Layout) (r : Request) (j : Joining) :
    (layout.enter r.place r.kind r.langcode j).2.statement.label = j.statement.label := by
  rcases layout.enter_cases r j with ⟨-, he⟩ | ⟨-, _, -, he⟩ | ⟨-, -, he⟩
  · rw [he]
  · rw [he]
  · rw [he]
    rfl

theorem get?_enterAll {layout : Layout} {rs : List Request} {j : Joining} {table : String}
    {langcode : Option String} {label : String} (h : j.registry.get? table langcode = some label) :
    (layout.enterAll rs j).registry.get? table langcode = some label := by
  induction rs generalizing j with
  | nil => exact h
  | cons r rs ih => exact ih (get?_enter h)

@[simp] theorem label_enterAll (layout : Layout) (rs : List Request) (j : Joining) :
    (layout.enterAll rs j).statement.label = j.statement.label := by
  induction rs generalizing j with
  | nil => rfl
  | cons r rs ih => rw [enterAll_cons, ih, label_enter]

/-- Joins are only added, behind those that are there. -/
theorem joins_prefix_enterAll (layout : Layout) (rs : List Request) (j : Joining) :
    j.statement.joins <+: (layout.enterAll rs j).statement.joins := by
  induction rs generalizing j with
  | nil => exact List.prefix_refl _
  | cons r rs ih =>
    refine List.IsPrefix.trans ?_ (ih (layout.enter r.place r.kind r.langcode j).2)
    rcases layout.enter_cases r j with ⟨-, he⟩ | ⟨-, _, -, he⟩ | ⟨-, -, he⟩
    · exact he ▸ List.prefix_refl _
    · exact he ▸ List.prefix_refl _
    · rw [he, adjoin, Select.addJoin_joins]
      exact List.prefix_append ..

end Layout
end EntitySelect
