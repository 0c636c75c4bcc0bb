import EntitySelect.Proofs.Select.Mentions
import EntitySelect.Proofs.Select.Rendering
import EntitySelect.Proofs.Text.Words
import Mathlib.Data.List.Basic

/-! What the SQL of a statement is spelled with: the names of the statement, keywords, placeholders
and numbers. Values have no part in it. -/
namespace EntitySelect

/-- The words of SQL that stand in every statement of their kind. -/
def keywords : List String :=
  ["SELECT", "AS", "FROM", "INNER", "LEFT", "OUTER", "JOIN", "ON", "WHERE", "AND", "OR", "GROUP",
    "ORDER", "BY", "ASC", "DESC", "LIMIT", "OFFSET", "MIN", "MAX", "LIKE", "ESCAPE", "'\\'", "IN",
    "NOT", "BETWEEN", "IS", "NULL", "COUNT", "expression", "subquery"]

/-- The words that SQL over some names is spelled with. -/
inductive Spells (names : List String) : String → Prop
  | name {name : String} : name ∈ names → Spells names name
  | keyword {word : String} : word ∈ keywords → Spells names word
  | placeholder (n : Nat) : Spells names (placeholder n)
  | number (n : Nat) : Spells names (toString n)

def Spelled (names : List String) (text : String) : Prop :=
  ∀ word ∈ Text.words text, Spells names word

/-- Fixed text without any words but keywords. -/
def isFixed (text : String) : Bool := (Text.words text).all keywords.contains

/-- Fixed text that can stand between other text. -/
def isConnective (text : String) : Bool :=
  isFixed text && Text.startsWithMark text && Text.endsWithMark text

section Spelled
variable {names : List String} {before joint after text name : String}

theorem spelled_of_isFixed (h : isFixed text = true) : Spelled names text := by
  intro word hword
  have hkeyword := List.all_eq_true.1 h word hword
  exact .keyword (by simpa using hkeyword)

/-- A text without marks is one word. -/
theorem Spells.spelled (h : Spells names text) (hmarks : ∀ c ∈ text.toList, Text.isMark c = false) :
    Spelled names text := by
  intro word hword
  rwa [Text.eq_of_mem_words hmarks hword]

theorem spelled_name (h : name ∈ names) (hname : Text.isIdentifier name = true) :
    Spelled names name :=
  (Spells.name h).spelled (Text.isMark_of_mem_word (Text.isWord_of_isIdentifier hname))

theorem spelled_number (n : Nat) : Spelled names (toString n) :=
  (Spells.number n).spelled (Text.isMark_of_mem_word (Text.isWord_number n))

theorem spelled_placeholder (n : Nat) : Spelled names (placeholder n) := by
  refine (Spells.placeholder n).spelled fun c hc => ?_
  unfold placeholder at hc
  rw [String.toList_append] at hc
  rcases List.mem_append.1 hc with hc | hc
  · have hmarks : (":db_condition_placeholder_".toList.all fun c => !Text.isMark c) = true := by
      decide
    simpa using List.all_eq_true.1 hmarks c hc
  · exact Text.isMark_of_mem_word (Text.isWord_number n) c hc

theorem Spelled.append (hbefore : Spelled names before) (hafter : Spelled names after)
    (h : Text.endsWithMark before = true ∨ Text.startsWithMark after = true) :
    Spelled names (before ++ after) := by
  intro word hword
  rw [Text.words_append h] at hword
  exact (List.mem_append.1 hword).elim (hbefore word) (hafter word)

/-- Fixed text that ends with a mark stands before other text. -/
theorem Spelled.headed (hafter : Spelled names after) (h : isFixed before = true)
    (hends : Text.endsWithMark before = true) : Spelled names (before ++ after) :=
  (spelled_of_isFixed h).append hafter (.inl hends)

/-- Fixed text that starts with a mark stands after other text. -/
theorem Spelled.closed (hbefore : Spelled names before) (h : isFixed after = true)
    (hstarts : Text.startsWithMark after = true) : Spelled names (before ++ after) :=
  hbefore.append (spelled_of_isFixed h) (.inr hstarts)

theorem Spelled.between (hbefore : Spelled names before) (h : isConnective joint = true)
    (hafter : Spelled names after) : Spelled names (before ++ joint ++ after) := by
  simp only [isConnective, Bool.and_eq_true] at h
  obtain ⟨⟨hfixed, hstarts⟩, hends⟩ := h
  refine (hbefore.append (spelled_of_isFixed hfixed) (.inr hstarts)).append hafter (.inl ?_)
  exact Text.endsWithMark_append hends

theorem spelled_intercalate (h : isConnective joint = true) {texts : List String}
    (htexts : ∀ text ∈ texts, Spelled names text) : Spelled names (joint.intercalate texts) := by
  simp only [isConnective, Bool.and_eq_true] at h
  obtain ⟨⟨hfixed, hstarts⟩, hends⟩ := h
  intro word hword
  rcases Text.mem_words_intercalate hstarts hends hword with hword | ⟨text, htext, hword⟩
  · exact spelled_of_isFixed hfixed word hword
  · exact htexts text htext word hword

end Spelled

theorem Conjunction.isConnective_word (c : Conjunction) :
    isConnective (" " ++ c.word ++ " ") = true := by
  cases c with
  | and => decide
  | or => decide

section Clauses
variable {names : List String} (hnames : ∀ name ∈ names, Text.isIdentifier name = true)
include hnames

theorem Column.spelled_text {c : Column} (h : c.names ⊆ names) : Spelled names c.text := by
  have hname {name : String} (hmem : name ∈ c.names) : Spelled names name :=
    spelled_name (h hmem) (hnames name (h hmem))
  have htable : Spelled names c.table := hname List.mem_cons_self
  have hcolumn : Spelled names c.name := hname (List.mem_cons_of_mem _ List.mem_cons_self)
  exact htable.between (by decide) hcolumn

theorem JoinTerm.spelled_sql {term : JoinTerm} (h : ∀ c ∈ term.mentions, c.names ⊆ names)
    (n : Nat) : Spelled names (term.sql n) := by
  cases term with
  | columns left right =>
    have hleft := Column.spelled_text hnames (h left List.mem_cons_self)
    have hright := Column.spelled_text hnames (h right (List.mem_cons_of_mem _ List.mem_cons_self))
    exact hleft.between (by decide) hright
  | value column v =>
    have hcolumn := Column.spelled_text hnames (h column List.mem_cons_self)
    exact hcolumn.between (by decide) (spelled_placeholder n)

/-- The names of a join. -/
structure Join.NamedIn (names : List String) (j : Join) : Prop where
  table : j.table ∈ names
  label : j.label ∈ names
  on : ∀ term ∈ j.on, ∀ c ∈ term.mentions, c.names ⊆ names

theorem Join.spelled_sql {j : Join} (h : j.NamedIn names) (n : Nat) : Spelled names (j.sql n) := by
  have hkind : Spelled names j.kind.word := by
    cases j.kind with
    | inner => exact spelled_of_isFixed (by decide)
    | left => exact spelled_of_isFixed (by decide)
  have htable := spelled_name h.table (hnames _ h.table)
  have hlabel := spelled_name h.label (hnames _ h.label)
  have hon : Spelled names (" AND ".intercalate (numbered JoinTerm.sql JoinTerm.values n j.on)) := by
    refine spelled_intercalate (by decide) fun text htext => ?_
    obtain ⟨term, hterm, m, rfl⟩ := exists_of_mem_numbered htext
    exact JoinTerm.spelled_sql hnames (h.on term hterm) m
  exact ((hkind.between (by decide) htable).between (by decide) hlabel).between (by decide) hon

theorem Comparison.spelled_sql {c : Column} (h : c.names ⊆ names) (comparison : Comparison)
    (v : Json) (n : Nat) : Spelled names (comparison.sql c v n) := by
  have hcolumn := Column.spelled_text hnames h
  have hword : Spelled names comparison.word := spelled_of_isFixed (by cases comparison <;> decide)
  have hhead : Spelled names (c.text ++ " " ++ comparison.word) :=
    hcolumn.between (by decide) hword
  have hitem : Spelled names (c.text ++ " " ++ comparison.word ++ " " ++ placeholder n) :=
    hhead.between (by decide) (spelled_placeholder n)
  have hitems : Spelled names (", ".intercalate (placeholders n v.items.length)) := by
    refine spelled_intercalate (by decide) fun text htext => ?_
    obtain ⟨m, -, rfl⟩ := List.mem_map.1 htext
    exact spelled_placeholder m
  have hlist : Spelled names (c.text ++ " " ++ comparison.word ++ " (" ++
      ", ".intercalate (placeholders n v.items.length) ++ ")") :=
    (hhead.between (by decide) hitems).closed (by decide) (by decide)
  cases comparison with
  | isNull | isNotNull => exact hhead
  | oneOf | noneOf => exact hlist
  | between => exact hitem.between (by decide) (spelled_placeholder (n + 1))
  | like => exact hitem.closed (by decide) (by decide)
  | equal | notEqual | greater | atLeast | less | atMost => exact hitem

end Clauses

mutual
/-- A condition is spelled with the names of its columns. -/
theorem Where.spelled_sql {names : List String}
    (hnames : ∀ name ∈ names, Text.isIdentifier name = true) (n : Nat) :
    ∀ w : Where, (∀ c ∈ w.mentions, c.names ⊆ names) → Spelled names (w.sql n)
  | .group c parts, h => by
    rw [Where.sql]
    have hparts := spelled_intercalate c.isConnective_word
      (Where.spelled_partSqls hnames n parts h)
    have hopened : Spelled names ("(" ++ (" " ++ c.word ++ " ").intercalate (partSqls n parts)) :=
      hparts.headed (by decide) (by decide)
    exact hopened.closed (by decide) (by decide)
  | .compare column comparison v, h => by
    rw [Where.sql]
    exact Comparison.spelled_sql hnames (h column List.mem_cons_self) comparison v n
theorem Where.spelled_partSqls {names : List String}
    (hnames : ∀ name ∈ names, Text.isIdentifier name = true) (n : Nat) :
    ∀ parts : List Where, (∀ c ∈ partsMention parts, c.names ⊆ names) →
      ∀ text ∈ partSqls n parts, Spelled names text
  | [], _ => nofun
  | w :: rest, h => by
    rw [partsMention, List.forall_mem_append] at h
    rw [partSqls]
    split
    · exact Where.spelled_partSqls hnames n rest h.2
    · exact List.forall_mem_cons.2
        ⟨Where.spelled_sql hnames n w h.1, Where.spelled_partSqls hnames _ rest h.2⟩
end

namespace Select
variable {s : Select} {names : List String}

theorem names_column_subset (hsub : s.names ⊆ names) :
    ∀ c ∈ s.mentions, c.names ⊆ names := by
  intro c hc name hname
  exact hsub (mem_names.2 (.inr (.inr (.inr (.inr (.inl ⟨c, hc, hname⟩))))))

theorem namedIn_of_mem (hsub : s.names ⊆ names) : ∀ j ∈ s.joins, j.NamedIn names := by
  intro j hj
  refine ⟨hsub (mem_names.2 (.inr (.inl ⟨j, hj, rfl⟩))), ?_, ?_⟩
  · refine hsub (mem_names.2 (.inr (.inr (.inl ?_))))
    exact List.mem_cons_of_mem _ (List.mem_map_of_mem hj)
  · intro term hterm c hc
    exact names_column_subset hsub c (mem_mentions.2 (.inr (.inl ⟨j, hj, term, hterm, hc⟩)))

section Clauses
variable (hnames : ∀ name ∈ names, Text.isIdentifier name = true) (hsub : s.names ⊆ names)
include hnames hsub

theorem spelled_of_mem_names {name : String} (h : name ∈ s.names) : Spelled names name :=
  spelled_name (hsub h) (hnames name (hsub h))

theorem spelled_column {c : Column} (h : c ∈ s.mentions) : Spelled names c.text :=
  Column.spelled_text hnames (names_column_subset hsub c h)

theorem spelled_selectList : Spelled names s.selectList := by
  have hlabel {label : String} (h : label ∈ s.selectLabels) : Spelled names label := by
    apply spelled_of_mem_names hnames hsub
    exact mem_names.2 (.inr (.inr (.inr (.inl h))))
  have hcolumns : ∀ text ∈ s.fields.map (fun f => f.column.text ++ " AS " ++ f.label) ++
      s.expressions.map (fun e => e.text ++ " AS " ++ e.label), Spelled names text := by
    intro text htext
    rcases List.mem_append.1 htext with htext | htext
    · obtain ⟨f, hf, rfl⟩ := List.mem_map.1 htext
      have hcolumn := spelled_column hnames hsub (mem_mentions.2 (.inl ⟨f, hf, rfl⟩))
      refine hcolumn.between (by decide) (hlabel ?_)
      exact List.mem_append_left _ (List.mem_map_of_mem hf)
    · obtain ⟨e, he, rfl⟩ := List.mem_map.1 htext
      have hmention : e.argument ∈ s.orderMentions :=
        List.mem_append_left _ (List.mem_map_of_mem he)
      have hcolumn := spelled_column hnames hsub (mem_mentions.2 (.inr (.inr (.inr hmention))))
      have hfunction : Spelled names e.function.word :=
        spelled_of_isFixed (by cases e.function <;> decide)
      have hcall : Spelled names e.text :=
        (hfunction.between (by decide) hcolumn).closed (by decide) (by decide)
      refine hcall.between (by decide) (hlabel ?_)
      exact List.mem_append_right _ (List.mem_map_of_mem he)
  unfold selectList
  split
  · exact spelled_number 1
  · exact spelled_intercalate (by decide) hcolumns

theorem spelled_order {o : Order} (ho : o ∈ s.orders) : Spelled names o.text := by
  have htarget : Spelled names o.target.text := by
    cases htarget : o.target with
    | label name =>
      apply spelled_of_mem_names hnames hsub
      exact mem_names.2 (.inr (.inr (.inr (.inr (.inr (.inr ⟨o, ho, by rw [htarget]; rfl⟩))))))
    | column c =>
      apply spelled_column hnames hsub
      refine mem_mentions.2 (.inr (.inr (.inr (List.mem_append_right _ ?_))))
      exact List.mem_filterMap.2 ⟨o, ho, by rw [htarget]; rfl⟩
  have hdirection : Spelled names o.direction.word :=
    spelled_of_isFixed (by cases o.direction <;> decide)
  exact htarget.between (by decide) hdirection

theorem spelled_whereText (n : Nat) : Spelled names (whereText n s) := by
  refine spelled_intercalate s.conjunction.isConnective_word ?_
  apply Where.spelled_partSqls hnames
  intro c hc
  exact names_column_subset hsub c (mem_mentions.2 (.inr (.inr (.inl hc))))

/-- Every clause is spelled with the names of the statement. -/
theorem spelled_clauses : ∀ text ∈ s.clauses, Spelled names text := by
  have hname {name : String} (h : name ∈ s.names) : Spelled names name :=
    spelled_of_mem_names hnames hsub h
  have hselect : Spelled names ("SELECT " ++ s.selectList) :=
    (spelled_selectList hnames hsub).headed (by decide) (by decide)
  have hfrom : Spelled names ("FROM " ++ s.table ++ " " ++ s.label) := by
    have htable : Spelled names ("FROM " ++ s.table) :=
      (hname (mem_names.2 (.inl rfl))).headed (by decide) (by decide)
    refine htable.between (by decide) (hname ?_)
    exact mem_names.2 (.inr (.inr (.inl List.mem_cons_self)))
  have hgroup : Spelled names ("GROUP BY " ++ ", ".intercalate s.groupBy) := by
    refine (spelled_intercalate (by decide) ?_).headed (by decide) (by decide)
    intro label hlabel
    exact hname (mem_names.2 (.inr (.inr (.inr (.inr (.inr (.inl hlabel)))))))
  have horder : Spelled names ("ORDER BY " ++ ", ".intercalate (s.orders.map Order.text)) := by
    refine (spelled_intercalate (by decide) ?_).headed (by decide) (by decide)
    intro text htext
    obtain ⟨o, ho, rfl⟩ := List.mem_map.1 htext
    exact spelled_order hnames hsub ho
  have hwindow (w : Window) : Spelled names
      ("LIMIT " ++ toString w.length.toNat ++ " OFFSET " ++ toString w.start.toNat) := by
    have hlimit : Spelled names ("LIMIT " ++ toString w.length.toNat) :=
      (spelled_number _).headed (by decide) (by decide)
    exact hlimit.between (by decide) (spelled_number _)
  intro text htext
  simp only [clauses_eq, clausesFrom, List.mem_append] at htext
  rcases htext with ((((htext | htext) | htext) | htext) | htext) | htext
  · rcases List.mem_pair.1 htext with rfl | rfl
    · exact hselect
    · exact hfrom
  · obtain ⟨j, hj, m, rfl⟩ := exists_of_mem_numbered htext
    exact Join.spelled_sql hnames (namedIn_of_mem hsub j hj) m
  · split at htext
    · cases htext
    · rw [List.mem_singleton.1 htext]
      exact (spelled_whereText hnames hsub _).headed (by decide) (by decide)
  · split at htext
    · cases htext
    · rw [List.mem_singleton.1 htext]
      exact hgroup
  · split at htext
    · cases htext
    · rw [List.mem_singleton.1 htext]
      exact horder
  · split at htext
    · rw [List.mem_singleton.1 htext]
      exact hwindow _
    · cases htext

/-- A statement whose names are identifiers is spelled with them in SQL. -/
theorem spelled_sql : Spelled names s.sql.text :=
  spelled_intercalate (by decide) (spelled_clauses hnames hsub)

theorem spelled_countQuery : Spelled names s.countQuery.sql.text := by
  have hinner : Spelled names s.countQuery.inner.sql.text :=
    spelled_sql hnames fun _ hname => hsub (s.names_unordered_subset hname)
  have hhead : Spelled names ("SELECT COUNT(*) AS expression\nFROM (" ++
      s.countQuery.inner.sql.text) :=
    hinner.headed (by decide) (by decide)
  exact hhead.closed (by decide) (by decide)

end Clauses
end Select
end EntitySelect
