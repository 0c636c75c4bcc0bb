import EntitySelect.Proofs.Join.Joined

/-! Properties that are asked for one after the other. Each table is joined once for each language,
by the first ask that needs it and the way that ask says; an ask that fails changes nothing; and
what has been answered once is answered the same way from then on. -/
namespace EntitySelect

/-- A property that is asked for: its language, and how its table is joined if it has to be. -/
structure Ask where
  specifier : String
  kind : JoinKind
  langcode : Option String
  deriving DecidableEq, Repr

/-- What an ask comes to, if its property has a place. -/
def Ask.request? (layout : Layout) (catalog : Catalog) (a : Ask) : Option Request :=
  match layout.locate catalog a.specifier with
  | .ok (some place) => some ⟨place, a.kind, a.langcode⟩
  | _ => none

/-- The equations of the join restrict it to a language, and to no other. -/
def Join.InLanguage (k : Join) (langcode : Option String) : Prop :=
  ∀ v, .value ⟨k.label, langcodeColumn⟩ v ∈ k.on ↔ ∃ l, langcode = some l ∧ v = .string l

namespace Layout
variable {layout : Layout} {catalog : Catalog} {start : Select} {asks : List Ask} {a : Ask}
  {j : Joining}

/-- What is answered, and the joins after it. -/
def answer (layout : Layout) (catalog : Catalog) (a : Ask) (j : Joining) :
    Except QueryError Resolution × Joining :=
  (layout.resolve catalog a.specifier a.kind a.langcode).run.run j

/-- The joins after a sequence of asks, some of which may fail. -/
def answerAll (layout : Layout) (catalog : Catalog) (asks : List Ask) (j : Joining) : Joining :=
  asks.foldl (fun j a => (layout.answer catalog a j).2) j

theorem answer_of_locate {place : Location}
    (h : layout.locate catalog a.specifier = .ok (some place)) (j : Joining) :
    layout.answer catalog a j =
      (.ok (layout.enter place a.kind a.langcode j).1,
        (layout.enter place a.kind a.langcode j).2) := by
  rw [answer, resolve, h]
  rfl

/-- An ask fails where its property has no place, and changes nothing then. -/
theorem exists_answer_eq_error (h : ∀ place, layout.locate catalog a.specifier ≠ .ok (some place))
    (j : Joining) : ∃ e, layout.answer catalog a j = (.error e, j) := by
  unfold answer resolve
  cases hlocate : layout.locate catalog a.specifier with
  | error e => exact ⟨e, rfl⟩
  | ok found =>
    cases found with
    | none => exact ⟨_, rfl⟩
    | some place => exact absurd hlocate (h place)

theorem answerAll_concat (layout : Layout) (catalog : Catalog) (asks : List Ask) (a : Ask)
    (j : Joining) : layout.answerAll catalog (asks ++ [a]) j =
      (layout.answer catalog a (layout.answerAll catalog asks j)).2 := by
  rw [answerAll, List.foldl_append]
  rfl

/-- Only the asks whose properties have a place count. -/
theorem answerAll_eq (layout : Layout) (catalog : Catalog) (asks : List Ask) (j : Joining) :
    layout.answerAll catalog asks j =
      layout.enterAll (asks.filterMap (Ask.request? layout catalog)) j := by
  induction asks generalizing j with
  | nil => rfl
  | cons a asks ih =>
    change layout.answerAll catalog asks (layout.answer catalog a j).2 = _
    rw [ih, List.filterMap_cons]
    by_cases hplace : ∃ place, layout.locate catalog a.specifier = .ok (some place)
    · obtain ⟨place, hplace⟩ := hplace
      rw [answer_of_locate hplace, Ask.request?, hplace]
      rfl
    · have hnone := not_exists.1 hplace
      obtain ⟨e, he⟩ := exists_answer_eq_error hnone j
      have hrequest : a.request? layout catalog = none := by
        unfold Ask.request?
        split
        · next hsome => exact absurd hsome (hnone _)
        · rfl
      rw [he, hrequest]

/-- The entry of the registry and the join stand for each other, and one of the asks made both: the
first that needed the table in the language. The join is of the kind and has the equations that this
ask is answered with. -/
inductive Created (layout : Layout) (catalog : Catalog) (start : Select) (asks : List Ask) :
    (String × Option String) × String → Join → Prop
  | intro {before after : List Ask} {a : Ask} {place : Location} {label : String} :
    asks = before ++ a :: after → layout.locate catalog a.specifier = .ok (some place) →
    layout.atBase place = false →
    (layout.answerAll catalog before { statement := start }).registry.get? place.table
      a.langcode = none →
    Created layout catalog start asks ((place.table, a.langcode), label)
      ⟨a.kind, place.table, label, layout.terms place.source a.langcode start.label label⟩

theorem Created.concat {e : (String × Option String) × String} {k : Join}
    (h : layout.Created catalog start asks e k) (a : Ask) :
    layout.Created catalog start (asks ++ [a]) e k := by
  obtain @⟨before, after, b, _, _, hasks, hplace, hbase, hnew⟩ := h
  have happend : asks ++ [a] = before ++ b :: (after ++ [a]) := by
    rw [hasks, List.append_assoc, List.cons_append]
  exact .intro happend hplace hbase hnew

theorem inLanguage_terms (layout : Layout) (kind : JoinKind) (table : String) (source : Source)
    (langcode : Option String) (root label : String) :
    (Join.mk kind table label (layout.terms source langcode root label)).InLanguage langcode := by
  have hne : langcodeColumn ≠ Field.entityTypeColumn := by decide
  intro v
  cases source <;> cases langcode <;>
    simp [terms, entityTerms, fieldTerms, languageTerms, hne]

theorem Created.inLanguage {e : (String × Option String) × String} {k : Join}
    (h : layout.Created catalog start asks e k) : k.InLanguage e.1.2 := by
  cases h
  exact layout.inLanguage_terms _ _ _ _ _ _

/-- Every ask keeps the registry and the joins in step. -/
theorem forall₂_created (hstart : start.joins = []) (asks : List Ask) :
    List.Forall₂ (layout.Created catalog start asks)
      (layout.answerAll catalog asks { statement := start }).registry.entries
      (layout.answerAll catalog asks { statement := start }).statement.joins := by
  induction asks using List.reverseRecOn with
  | nil =>
    change List.Forall₂ _ [] start.joins
    rw [hstart]
    exact .nil
  | append_singleton asks a ih =>
    have hkept := ih.imp fun e k h => Created.concat h a
    rw [answerAll_concat]
    by_cases hplace : ∃ place, layout.locate catalog a.specifier = .ok (some place)
    · obtain ⟨place, hplace⟩ := hplace
      have hlabel : (layout.answerAll catalog asks { statement := start }).statement.label =
          start.label := by
        rw [answerAll_eq, label_enterAll]
      rw [answer_of_locate hplace]
      rcases layout.enter_cases ⟨place, a.kind, a.langcode⟩
        (layout.answerAll catalog asks { statement := start }) with
        ⟨-, he⟩ | ⟨-, label, -, he⟩ | ⟨hbase, hnew, he⟩
      · rw [he]
        exact hkept
      · rw [he]
        exact hkept
      · rw [he, adjoin, Registry.register, hnew, Select.addJoin_joins, hlabel]
        refine List.rel_append hkept (.cons ?_ .nil)
        exact .intro rfl hplace hbase hnew
    · obtain ⟨e, he⟩ := exists_answer_eq_error (not_exists.1 hplace)
        (layout.answerAll catalog asks { statement := start })
      rw [he]
      exact hkept

/-- What a sequence of asks has made of the statement `start`, which had no joins. -/
structure Wired (layout : Layout) (catalog : Catalog) (start : Select) (asks : List Ask)
    (j : Joining) : Prop where
  /-- Nothing but joins has been added. -/
  frame : j.statement = { start with joins := j.statement.joins }
  apart : j.statement.tableLabels.Nodup
  pairs : (j.registry.entries.map (·.1)).Nodup
  /-- There is one join for each table and language that is registered. -/
  joins : List.Forall₂ (fun e k => layout.Created catalog start asks e k ∧ k.InLanguage e.1.2)
    j.registry.entries j.statement.joins
  size : j.registry.size = j.statement.joins.length

/-- What the ask `a` is answered with, where its property has the place `place`. -/
structure Answered (layout : Layout) (catalog : Catalog) (a : Ask) (j : Joining)
    (place : Location) (r : Resolution) (k : Joining) : Prop where
  located : layout.locate catalog a.specifier = .ok (some place)
  name : r.column.name = place.column
  source : r.source = place.source
  /-- The base table is read as it is, without a join. -/
  base : layout.atBase place = true → r.column.table = j.statement.label ∧ k = j
  joined : layout.atBase place = false →
    k.registry.get? place.table a.langcode = some r.column.table
  adds : r.addsFieldTable = true ↔
    place.source = .fieldTable ∧ ∃ join, k.statement.joins = j.statement.joins ++ [join]
  /-- Whatever is asked for in between, the same ask is answered with the same column again. -/
  again : ∀ later, layout.answer catalog a (layout.answerAll catalog later k) =
    (.ok { r with addsFieldTable := false }, layout.answerAll catalog later k)

theorem wired_answerAll (hstart : start.joins = []) (asks : List Ask) :
    layout.Wired catalog start asks (layout.answerAll catalog asks { statement := start }) := by
  have hcreated : List.Forall₂ (layout.Created catalog start asks) _ _ :=
    forall₂_created hstart asks
  have heq := layout.answerAll_eq catalog asks { statement := start }
  have hjoined := (Joined.nil layout hstart).enterAll
    (asks.filterMap (Ask.request? layout catalog))
  refine {
    frame := ?_, apart := ?_, pairs := ?_, joins := ?_, size := hcreated.length_eq }
  · rw [heq]
    exact hjoined.frame
  · rw [heq]
    exact hjoined.apart
  · rw [heq, pairs_enterAll]
    exact nodup_eraseDups _
  · exact hcreated.imp fun e k h => ⟨h, h.inLanguage⟩

/-- A request for a table that is known reads it and leaves all as it is. -/
theorem enter_of_known {r : Request} {label : String} (hbase : layout.atBase r.place = false)
    (h : j.registry.get? r.place.table r.langcode = some label) :
    layout.enter r.place r.kind r.langcode j =
      (⟨⟨label, r.place.column⟩, r.place.source, false⟩, j) := by
  rcases layout.enter_cases r j with ⟨hbase', -⟩ | ⟨-, label', hlabel, he⟩ | ⟨-, hnew, -⟩
  · rw [hbase] at hbase'
    cases hbase'
  · rw [h] at hlabel
    cases hlabel
    exact he
  · rw [h] at hnew
    cases hnew

theorem enter_of_atBase {r : Request} (hbase : layout.atBase r.place = true) (j : Joining) :
    layout.enter r.place r.kind r.langcode j =
      (⟨⟨j.statement.label, r.place.column⟩, r.place.source, false⟩, j) := by
  rcases layout.enter_cases r j with ⟨-, he⟩ | ⟨hbase', -⟩ | ⟨hbase', -⟩
  · exact he
  · rw [hbase] at hbase'
    cases hbase'
  · rw [hbase] at hbase'
    cases hbase'

/-- What a place in the base table is read as, no matter what is joined. -/
theorem answerAll_again_of_atBase {place : Location}
    (h : layout.locate catalog a.specifier = .ok (some place)) (hbase : layout.atBase place = true)
    (later : List Ask) (k : Joining) :
    layout.answer catalog a (layout.answerAll catalog later k) =
      (.ok ⟨⟨k.statement.label, place.column⟩, place.source, false⟩,
        layout.answerAll catalog later k) := by
  rw [answer_of_locate h, enter_of_atBase (r := ⟨place, a.kind, a.langcode⟩) hbase, answerAll_eq,
    label_enterAll]

theorem answerAll_again_of_known {place : Location} {k : Joining} {label : String}
    (h : layout.locate catalog a.specifier = .ok (some place)) (hbase : layout.atBase place = false)
    (hknown : k.registry.get? place.table a.langcode = some label) (later : List Ask) :
    layout.answer catalog a (layout.answerAll catalog later k) =
      (.ok ⟨⟨label, place.column⟩, place.source, false⟩, layout.answerAll catalog later k) := by
  have hlater : (layout.answerAll catalog later k).registry.get? place.table a.langcode =
      some label := by
    rw [answerAll_eq]
    exact get?_enterAll hknown
  rw [answer_of_locate h, enter_of_known (r := ⟨place, a.kind, a.langcode⟩) hbase hlater]

/-- All that an ask can be answered with, and how it leaves the joins. -/
theorem answered_of_locate {place : Location}
    (h : layout.locate catalog a.specifier = .ok (some place)) (j : Joining) :
    layout.Answered catalog a j place (layout.enter place a.kind a.langcode j).1
      (layout.enter place a.kind a.langcode j).2 := by
  rcases layout.enter_cases ⟨place, a.kind, a.langcode⟩ j with
    ⟨hbase, he⟩ | ⟨hbase, label, hknown, he⟩ | ⟨hbase, hnew, he⟩
  · rw [he]
    refine {
      located := h, name := rfl, source := rfl, base := fun _ => ⟨rfl, rfl⟩
      joined := fun hnot => ?_, adds := ?_
      again := fun later => answerAll_again_of_atBase h hbase later j }
    · cases hbase.symm.trans hnot
    · refine iff_of_false Bool.false_ne_true ?_
      rintro ⟨hsource, -⟩
      simp [atBase, hsource] at hbase
  · rw [he]
    refine {
      located := h, name := rfl, source := rfl, base := fun hat => ?_
      joined := fun _ => hknown, adds := ?_, again := answerAll_again_of_known h hbase hknown }
    · cases hbase.symm.trans hat
    · refine iff_of_false Bool.false_ne_true ?_
      rintro ⟨-, join, happend⟩
      have hlength := congrArg List.length happend
      simp at hlength
  · rw [he]
    have hget : (layout.adjoin ⟨place, a.kind, a.langcode⟩ j).registry.get? place.table
        a.langcode = some _ := get?_adjoin hnew
    refine {
      located := h, name := rfl, source := rfl, base := fun hat => ?_
      joined := fun _ => hget, adds := ?_, again := answerAll_again_of_known h hbase hget }
    · cases hbase.symm.trans hat
    · rw [beq_iff_eq]
      exact ⟨fun hsource => ⟨hsource, _, rfl⟩, fun hsource => hsource.1⟩

/-- Whatever has been asked for of a statement without joins, its joins and the registry match; and
an ask succeeds exactly if its property has a place, is then answered with the column there, and
leaves all as it is otherwise. -/
theorem answerAll_spec (layout : Layout) (catalog : Catalog) {start : Select}
    (hstart : start.joins = []) (asks : List Ask) :
    let j := layout.answerAll catalog asks { statement := start }
    layout.Wired catalog start asks j ∧
      ∀ a, ((∃ r, (layout.answer catalog a j).1 = .ok r) ↔
          ∃ place, layout.locate catalog a.specifier = .ok (some place)) ∧
        (∀ e, (layout.answer catalog a j).1 = .error e → (layout.answer catalog a j).2 = j) ∧
        ∀ r, (layout.answer catalog a j).1 = .ok r →
          ∃ place, layout.Answered catalog a j place r (layout.answer catalog a j).2 := by
  intro j
  refine ⟨wired_answerAll hstart asks, fun a => ?_⟩
  by_cases hplace : ∃ place, layout.locate catalog a.specifier = .ok (some place)
  · obtain ⟨place, hplace⟩ := hplace
    rw [answer_of_locate hplace]
    refine ⟨iff_of_true ⟨_, rfl⟩ ⟨place, hplace⟩, ?_, ?_⟩
    · rintro e ⟨⟩
    · rintro r ⟨⟩
      exact ⟨place, answered_of_locate hplace j⟩
  · obtain ⟨e, he⟩ := exists_answer_eq_error (not_exists.1 hplace) j
    rw [he]
    refine ⟨iff_of_false ?_ hplace, fun _ _ => rfl, ?_⟩
    · rintro ⟨r, ⟨⟩⟩
    · rintro r ⟨⟩

/-- Nodes without properties of their own, and the tags that they carry. -/
def tags : Layout :=
  ⟨"node", "node", ["node"], .current, "nid", Field.entityIdColumn, Dict.ofList [("tags", true)]⟩

/-- Tags are asked for after a property that does not exist, and read again after another one. -/
theorem answerAll_spec_tags :
    let catalog : Catalog := { tables := Dict.ofList [("node", ⟨"node", NameSet.ofNames ["nid"]⟩),
      ("field_data_tags", ⟨"field_data_tags", NameSet.ofNames ["tags_value"]⟩)] }
    let start : Select := { table := "node", label := "base_table", conjunction := .and }
    start.joins = [] ∧ ∃ r k, tags.answer catalog ⟨"tags", .inner, some "de"⟩
        (tags.answerAll catalog [⟨"title", .left, none⟩] { statement := start }) = (.ok r, k) ∧
      r = ⟨⟨"field_data_tags", "tags_value"⟩, .fieldTable, true⟩ ∧
      tags.answer catalog ⟨"tags", .inner, some "de"⟩
        (tags.answerAll catalog [⟨"nid", .left, none⟩] k) =
          (.ok ⟨r.column, .fieldTable, false⟩, tags.answerAll catalog [⟨"nid", .left, none⟩] k) := by
  intro catalog start
  have hstart : start.joins = [] := rfl
  obtain ⟨-, hasks⟩ := answerAll_spec tags catalog hstart [⟨"title", .left, none⟩]
  obtain ⟨-, -, hanswered⟩ := hasks ⟨"tags", .inner, some "de"⟩
  obtain ⟨place, h⟩ := hanswered ⟨⟨"field_data_tags", "tags_value"⟩, .fieldTable, true⟩ rfl
  exact ⟨hstart, _, _, rfl, rfl, h.again [⟨"nid", .left, none⟩]⟩

end Layout
end EntitySelect
