import EntitySelect.Proofs.Dict
import EntitySelect.Proofs.Select.Mentions
import EntitySelect.Proofs.Select.Rendering
import EntitySelect.Proofs.Text.Parameters
import Std.Data.String.ToNat

/-! Values are bound and never spliced. The placeholders of a statement are numbered in the order of
its values, each occurs once in the text and is bound to its value, and the text does not change
with the values. -/
namespace EntitySelect

section Placeholders

theorem placeholder_injective : Function.Injective placeholder := by
  intro n m h
  exact Nat.repr_injective ((String.append_right_inj ":db_condition_placeholder_").1 h)

/-- A placeholder is an identifier behind a colon. -/
theorem exists_placeholder_eq (n : Nat) :
    ∃ word, Text.isIdentifier word = true ∧ placeholder n = ":" ++ word := by
  have hcolon : ":db_condition_placeholder_" = ":" ++ "db_condition_placeholder_" := by simp
  have hstem (number : String) (h : Text.isWord number = true) :
      ∃ word, Text.isIdentifier word = true ∧
        ":db_condition_placeholder_" ++ number = ":" ++ word :=
    ⟨"db_condition_placeholder_" ++ number, Text.isIdentifier_append (by decide) h,
      by rw [hcolon, String.append_assoc]⟩
  exact hstem (toString n) (Text.isWord_number n)

theorem parameters_placeholder (n : Nat) : Text.parameters (placeholder n) = [placeholder n] := by
  obtain ⟨word, hword, hn⟩ := exists_placeholder_eq n
  rw [hn, Text.parameters_colon (Text.isWord_of_isIdentifier hword)]

theorem placeholders_append (n a b : Nat) :
    placeholders n a ++ placeholders (n + a) b = placeholders n (a + b) := by
  rw [placeholders, placeholders, placeholders, ← List.map_append, List.range'_append_1]

theorem flatMap_parameters_placeholders (n count : Nat) :
    (placeholders n count).flatMap Text.parameters = placeholders n count := by
  rw [placeholders, List.flatMap_map, List.map_eq_flatMap]
  simp only [parameters_placeholder]

/-- The texts of a list have the placeholders of its values, if each has those of its own values. -/
theorem flatMap_parameters_numbered {text : Nat → α → String} {values : α → List Json} {l : List α}
    (h : ∀ a ∈ l, ∀ n, Text.parameters (text n a) = placeholders n (values a).length) (n : Nat) :
    (numbered text values n l).flatMap Text.parameters =
      placeholders n (l.flatMap values).length := by
  induction l generalizing n with
  | nil => rfl
  | cons a rest ih =>
    obtain ⟨ha, hrest⟩ := List.forall_mem_cons.1 h
    rw [numbered, List.flatMap_cons, ha, ih hrest, placeholders_append, List.flatMap_cons,
      List.length_append]

theorem placeholders_nodup (n count : Nat) : (placeholders n count).Nodup :=
  List.Nodup.map placeholder_injective List.nodup_range'

end Placeholders

/-- SQL with a placeholder for each value: they occur in the order of the values, each once, and
each is bound to its value and to nothing else. -/
structure Sql.Binds (sql : Sql) (values : List Json) : Prop where
  occur : Text.parameters sql.text = placeholders 0 values.length
  apart : (Text.parameters sql.text).Nodup
  keys : sql.arguments.keys.Perm (placeholders 0 values.length)
  bound : ∀ i v, values[i]? = some v → sql.arguments.find? (placeholder i) = some v

/-- A column whose names are without colons. -/
def Column.IsPlain (c : Column) : Prop := ∀ name ∈ c.names, Text.IsPlain name

theorem Column.IsPlain.text {c : Column} (h : c.IsPlain) : Text.IsPlain c.text := by
  have htable : Text.IsPlain (c.table ++ ".") :=
    Text.isPlain_append (h c.table List.mem_cons_self) (by decide)
  exact Text.isPlain_append htable (h c.name (List.mem_cons_of_mem _ List.mem_cons_self))

namespace JoinTerm

theorem parameters_sql {term : JoinTerm} (h : ∀ c ∈ term.mentions, c.IsPlain) (n : Nat) :
    Text.parameters (term.sql n) = placeholders n term.values.length := by
  cases term with
  | columns left right =>
    have hleft := (h left List.mem_cons_self).text
    have hright := (h right (List.mem_cons_of_mem _ List.mem_cons_self)).text
    exact Text.parameters_of_isPlain
      (Text.isPlain_append (Text.isPlain_append hleft (by decide)) hright)
  | value column v =>
    have hcolumn := (h column List.mem_cons_self).text
    exact (Text.parameters_headed (Text.isPlain_append hcolumn (by decide))).trans
      (parameters_placeholder n)

end JoinTerm

namespace Join

/-- A join whose names are without colons. -/
structure IsPlain (j : Join) : Prop where
  table : Text.IsPlain j.table
  label : Text.IsPlain j.label
  on : ∀ term ∈ j.on, ∀ c ∈ term.mentions, c.IsPlain

theorem parameters_sql {j : Join} (h : j.IsPlain) (n : Nat) :
    Text.parameters (j.sql n) = placeholders n j.values.length := by
  have hkind : Text.IsPlain (j.kind.word ++ " ") := by
    cases j.kind with
    | inner => decide
    | left => decide
  have htable : Text.IsPlain (j.kind.word ++ " " ++ j.table ++ " ") :=
    Text.isPlain_append (Text.isPlain_append hkind h.table) (by decide)
  have hhead : Text.IsPlain (j.kind.word ++ " " ++ j.table ++ " " ++ j.label ++ " ON ") :=
    Text.isPlain_append (Text.isPlain_append htable h.label) (by decide)
  rw [sql, Text.parameters_headed hhead, Text.parameters_intercalate (by decide) (by decide)]
  exact flatMap_parameters_numbered (fun term hterm => JoinTerm.parameters_sql (h.on term hterm)) n

end Join

theorem Comparison.parameters_sql {column : Column} (h : column.IsPlain) (comparison : Comparison)
    (v : Json) (n : Nat) : Text.parameters (comparison.sql column v n) =
      placeholders n (comparison.values v).length := by
  have hword : Text.IsPlain comparison.word := by cases comparison <;> decide
  have hhead : Text.IsPlain (column.text ++ " " ++ comparison.word) :=
    Text.isPlain_append (Text.isPlain_append h.text (by decide)) hword
  have hitem : Text.parameters (column.text ++ " " ++ comparison.word ++ " " ++ placeholder n) =
      placeholders n 1 :=
    (Text.parameters_headed (Text.isPlain_append hhead (by decide))).trans
      (parameters_placeholder n)
  have hlist : Text.parameters (column.text ++ " " ++ comparison.word ++ " (" ++
      ", ".intercalate (placeholders n v.items.length) ++ ")") =
        placeholders n v.items.length := by
    rw [Text.parameters_closed (by decide) (by decide),
      Text.parameters_headed (Text.isPlain_append hhead (by decide)),
      Text.parameters_intercalate (by decide) (by decide)]
    exact flatMap_parameters_placeholders n v.items.length
  cases comparison with
  | isNull | isNotNull => exact Text.parameters_of_isPlain hhead
  | oneOf | noneOf => exact hlist
  | between =>
    refine (Text.parameters_between (by decide) (by decide)).trans ?_
    rw [hitem, parameters_placeholder]
    rfl
  | like => exact (Text.parameters_closed (by decide) (by decide)).trans hitem
  | equal | notEqual | greater | atLeast | less | atMost => exact hitem

theorem Conjunction.isPlain_joint (c : Conjunction) : Text.IsPlain (" " ++ c.word ++ " ") ∧
    Text.startsWithMark (" " ++ c.word ++ " ") = true := by
  cases c with
  | and => decide
  | or => decide

namespace Where

mutual
/-- The placeholders of a condition are numbered from left to right. -/
theorem parameters_sql (n : Nat) : ∀ w : Where, (∀ c ∈ w.mentions, c.IsPlain) →
    Text.parameters (w.sql n) = placeholders n w.values.length
  | .group c parts, h => by
    obtain ⟨hplain, hstarts⟩ := c.isPlain_joint
    rw [sql, Text.parameters_closed (by decide) (by decide), Text.parameters_headed (by decide),
      Text.parameters_intercalate hplain hstarts, parameters_partSqls n parts h, values]
  | .compare column comparison v, h => by
    rw [sql, values]
    exact Comparison.parameters_sql (h column List.mem_cons_self) comparison v n
theorem parameters_partSqls (n : Nat) : ∀ parts : List Where,
    (∀ c ∈ partsMention parts, c.IsPlain) →
      (partSqls n parts).flatMap Text.parameters = placeholders n (partValues parts).length
  | [], _ => rfl
  | w :: rest, h => by
    rw [partsMention, List.forall_mem_append] at h
    rw [partSqls, partValues]
    split
    · next hempty =>
      rw [parameters_partSqls n rest h.2, values_of_isEmpty hempty, List.nil_append]
    · rw [List.flatMap_cons, parameters_sql n w h.1, parameters_partSqls _ rest h.2,
        placeholders_append, List.length_append]
end

end Where

namespace Select
variable {s : Select}

theorem map_fst_bound (s : Select) : ((placeholders 0 s.values.length).zip s.values).map (·.1) =
    placeholders 0 s.values.length :=
  List.map_fst_zip (by simp [placeholders])

theorem bound_nodup (s : Select) :
    (((placeholders 0 s.values.length).zip s.values).map (·.1)).Nodup := by
  rw [map_fst_bound]
  exact placeholders_nodup 0 s.values.length

theorem keys_arguments (s : Select) :
    s.arguments.keys.Perm (placeholders 0 s.values.length) := by
  have hperm := (Dict.entries_ofList_perm s.bound_nodup).map (·.1)
  rwa [map_fst_bound, ← arguments_eq] at hperm

theorem find?_arguments {i : Nat} {v : Json} (h : s.values[i]? = some v) :
    s.arguments.find? (placeholder i) = some v := by
  have hi := (List.getElem?_eq_some_iff.1 h).1
  have hplaceholder : (placeholders 0 s.values.length)[i]? = some (placeholder i) := by
    simp [placeholders, hi]
  rw [arguments_eq]
  refine Dict.find?_ofList_of_mem s.bound_nodup (List.mem_iff_getElem?.2 ⟨i, ?_⟩)
  exact List.getElem?_zip_eq_some.2 ⟨hplaceholder, h⟩

section Clauses
variable (hplain : ∀ name ∈ s.names, Text.IsPlain name)
include hplain

theorem isPlain_column {c : Column} (h : c ∈ s.mentions) : c.IsPlain := fun name hname =>
  hplain name (mem_names.2 (.inr (.inr (.inr (.inr (.inl ⟨c, h, hname⟩))))))

theorem isPlain_join {j : Join} (h : j ∈ s.joins) : j.IsPlain where
  table := hplain _ (mem_names.2 (.inr (.inl ⟨j, h, rfl⟩)))
  label := hplain _ (mem_names.2
    (.inr (.inr (.inl (List.mem_cons_of_mem _ (List.mem_map_of_mem h))))))
  on term hterm _ hc :=
    isPlain_column hplain (mem_mentions.2 (.inr (.inl ⟨j, h, term, hterm, hc⟩)))

theorem isPlain_selectList : Text.IsPlain s.selectList := by
  have hlabel {label : String} (h : label ∈ s.selectLabels) : Text.IsPlain label :=
    hplain label (mem_names.2 (.inr (.inr (.inr (.inl h)))))
  have hcolumns : ∀ text ∈ s.fields.map (fun f => f.column.text ++ " AS " ++ f.label) ++
      s.expressions.map (fun e => e.text ++ " AS " ++ e.label), Text.IsPlain text := by
    intro text htext
    rcases List.mem_append.1 htext with htext | htext
    · obtain ⟨f, hf, rfl⟩ := List.mem_map.1 htext
      have hcolumn := (isPlain_column hplain (mem_mentions.2 (.inl ⟨f, hf, rfl⟩))).text
      have hlabel := hlabel (List.mem_append_left _ (List.mem_map_of_mem hf))
      exact Text.isPlain_append (Text.isPlain_append hcolumn (by decide)) hlabel
    · obtain ⟨e, he, rfl⟩ := List.mem_map.1 htext
      have hmention : e.argument ∈ s.orderMentions :=
        List.mem_append_left _ (List.mem_map_of_mem he)
      have hcolumn :=
        (isPlain_column hplain (mem_mentions.2 (.inr (.inr (.inr hmention))))).text
      have hfunction : Text.IsPlain (e.function.word ++ "(") := by
        cases e.function with
        | min => decide
        | max => decide
      have hcall : Text.IsPlain e.text :=
        Text.isPlain_append (Text.isPlain_append hfunction hcolumn) (by decide)
      have hlabel := hlabel (List.mem_append_right _ (List.mem_map_of_mem he))
      exact Text.isPlain_append (Text.isPlain_append hcall (by decide)) hlabel
  unfold selectList
  split
  · decide
  · exact Text.isPlain_intercalate (by decide) hcolumns

theorem isPlain_order {o : Order} (ho : o ∈ s.orders) : Text.IsPlain o.text := by
  have htarget : Text.IsPlain o.target.text := by
    cases htarget : o.target with
    | label name =>
      exact hplain name (mem_names.2
        (.inr (.inr (.inr (.inr (.inr (.inr ⟨o, ho, by rw [htarget]; rfl⟩)))))))
    | column c =>
      apply Column.IsPlain.text
      apply isPlain_column hplain
      refine mem_mentions.2 (.inr (.inr (.inr (List.mem_append_right _ ?_))))
      exact List.mem_filterMap.2 ⟨o, ho, by rw [htarget]; rfl⟩
  have hdirection : Text.IsPlain o.direction.word := by cases o.direction <;> decide
  exact Text.isPlain_append (Text.isPlain_append htarget (by decide)) hdirection

theorem parameters_whereText (n : Nat) :
    Text.parameters (s.whereText n) = placeholders n s.condition.values.length := by
  obtain ⟨hjoint, hstarts⟩ := s.conjunction.isPlain_joint
  rw [whereText, Text.parameters_intercalate hjoint hstarts]
  refine Where.parameters_partSqls n s.conditions fun c hc => ?_
  exact isPlain_column hplain (mem_mentions.2 (.inr (.inr (.inl hc))))

/-- The joins have the first placeholders and the condition has the others. -/
theorem parameters_sql : Text.parameters s.sql.text = placeholders 0 s.values.length := by
  have hname {name : String} (h : name ∈ s.names) : Text.IsPlain name := hplain name h
  have hselect : Text.parameters ("SELECT " ++ s.selectList) = [] :=
    Text.parameters_of_isPlain (Text.isPlain_append (by decide) (isPlain_selectList hplain))
  have hfrom : Text.parameters ("FROM " ++ s.table ++ " " ++ s.label) = [] := by
    have htable := hname (mem_names.2 (.inl rfl))
    have hlabel := hname (mem_names.2 (.inr (.inr (.inl List.mem_cons_self))))
    exact Text.parameters_of_isPlain (Text.isPlain_append (Text.isPlain_append
      (Text.isPlain_append (by decide) htable) (by decide)) hlabel)
  have hwhere (n : Nat) : (if s.condition.isEmpty then [] else ["WHERE " ++ s.whereText n]).flatMap
      Text.parameters = placeholders n s.condition.values.length := by
    split
    · next hempty =>
      rw [Where.values_of_isEmpty hempty]
      rfl
    · rw [List.flatMap_singleton, Text.parameters_headed (by decide), parameters_whereText hplain]
  have hgroup : (if s.groupBy.isEmpty then [] else ["GROUP BY " ++ ", ".intercalate s.groupBy]
      ).flatMap Text.parameters = [] := by
    split
    · rfl
    · rw [List.flatMap_singleton]
      refine Text.parameters_of_isPlain (Text.isPlain_append (by decide)
        (Text.isPlain_intercalate (by decide) fun label hlabel => ?_))
      exact hname (mem_names.2 (.inr (.inr (.inr (.inr (.inr (.inl hlabel)))))))
  have horder : (if s.orders.isEmpty then []
      else ["ORDER BY " ++ ", ".intercalate (s.orders.map Order.text)]).flatMap
        Text.parameters = [] := by
    split
    · rfl
    · rw [List.flatMap_singleton]
      refine Text.parameters_of_isPlain (Text.isPlain_append (by decide)
        (Text.isPlain_intercalate (by decide) (List.forall_mem_map.2 fun o ho => ?_)))
      exact isPlain_order hplain ho
  have hwindow (w : Window) : Text.parameters
      ("LIMIT " ++ toString w.length.toNat ++ " OFFSET " ++ toString w.start.toNat) = [] := by
    have hnumber (n : Nat) : Text.IsPlain (toString n) :=
      Text.isPlain_of_isWord (Text.isWord_number n)
    exact Text.parameters_of_isPlain (Text.isPlain_append (Text.isPlain_append
      (Text.isPlain_append (by decide) (hnumber _)) (by decide)) (hnumber _))
  have hjoins := flatMap_parameters_numbered
    (fun j hj => Join.parameters_sql (isPlain_join hplain (j := j) hj)) 0
  rw [sql, Text.parameters_intercalate (by decide) (by decide), clauses_eq, clausesFrom]
  simp only [List.flatMap_append, List.flatMap_cons, List.flatMap_nil, hselect, hfrom, hjoins,
    hwhere, hgroup, horder, List.nil_append, List.append_nil]
  rw [values, List.length_append, ← placeholders_append, Nat.zero_add]
  cases s.window with
  | none => exact List.append_nil _
  | some w => rw [List.flatMap_singleton, hwindow, List.append_nil]

theorem binds_sql : s.sql.Binds s.values where
  occur := parameters_sql hplain
  apart := by
    rw [parameters_sql hplain]
    exact placeholders_nodup 0 s.values.length
  keys := s.keys_arguments
  bound _ _ h := find?_arguments h

end Clauses

theorem binds_countQuery (hplain : ∀ name ∈ s.names, Text.IsPlain name) :
    s.countQuery.sql.Binds s.values := by
  have hinner : s.countQuery.inner.sql.Binds s.values :=
    binds_sql fun name hname => hplain name (s.names_unordered_subset hname)
  have hoccur : Text.parameters s.countQuery.sql.text =
      Text.parameters s.countQuery.inner.sql.text :=
    (Text.parameters_closed (by decide) (by decide)).trans (Text.parameters_headed (by decide))
  exact ⟨hoccur.trans hinner.occur, hoccur ▸ hinner.apart, hinner.keys, hinner.bound⟩

end Select

/-- What can be seen of a value in the text: how many items a list of alternatives has. -/
def Comparison.erase (comparison : Comparison) (v : Json) : Json :=
  match comparison with
  | .oneOf | .noneOf => .array (v.items.map fun _ => .null)
  | _ => .null

theorem Comparison.length_values_erase (comparison : Comparison) (v : Json) :
    (comparison.values (comparison.erase v)).length = (comparison.values v).length := by
  cases comparison <;> simp [erase, values, Json.items]

theorem Comparison.sql_erase (comparison : Comparison) (column : Column) (v : Json) (n : Nat) :
    comparison.sql column (comparison.erase v) n = comparison.sql column v n := by
  cases comparison <;> simp [erase, sql, Json.items]

/-- What leaves the text of each item and the number of its values leaves the texts of a list. -/
theorem numbered_map {text : Nat → α → String} {values : α → List Json} {f : α → α}
    (htext : ∀ n a, text n (f a) = text n a)
    (hlength : ∀ a, (values (f a)).length = (values a).length) (n : Nat) (l : List α) :
    numbered text values n (l.map f) = numbered text values n l := by
  induction l generalizing n with
  | nil => rfl
  | cons a rest ih => rw [List.map_cons, numbered, numbered, htext, hlength, ih]

namespace JoinTerm

def erased : JoinTerm → JoinTerm
  | .columns left right => .columns left right
  | .value column _ => .value column .null

theorem length_values_erased (term : JoinTerm) :
    term.erased.values.length = term.values.length := by
  cases term <;> rfl

theorem sql_erased (n : Nat) (term : JoinTerm) : term.erased.sql n = term.sql n := by
  cases term <;> rfl

end JoinTerm

namespace Join

def erased (j : Join) : Join := { j with on := j.on.map JoinTerm.erased }

theorem length_values_erased (j : Join) : j.erased.values.length = j.values.length := by
  simp only [values, erased, List.length_flatMap, List.map_map, Function.comp_def,
    JoinTerm.length_values_erased]

theorem sql_erased (n : Nat) (j : Join) : j.erased.sql n = j.sql n := by
  have hon := numbered_map JoinTerm.sql_erased JoinTerm.length_values_erased n j.on
  rw [sql, sql, ← hon]
  rfl

end Join

namespace Where

mutual
def erased : Where → Where
  | .group c parts => .group c (partsErased parts)
  | .compare column comparison v => .compare column comparison (comparison.erase v)
def partsErased : List Where → List Where
  | [] => []
  | w :: rest => erased w :: partsErased rest
end

@[simp] theorem partsErased_eq (parts : List Where) : partsErased parts = parts.map erased := by
  induction parts <;> simp_all [partsErased]

mutual
theorem isEmpty_erased : ∀ w : Where, w.erased.isEmpty = w.isEmpty
  | .group _ parts => by
    rw [erased, isEmpty, isEmpty]
    exact areEmpty_erased parts
  | .compare .. => rfl
theorem areEmpty_erased : ∀ parts : List Where, areEmpty (partsErased parts) = areEmpty parts
  | [] => rfl
  | w :: rest => by
    rw [partsErased, areEmpty, areEmpty, isEmpty_erased w, areEmpty_erased rest]
end

mutual
theorem length_values_erased : ∀ w : Where, w.erased.values.length = w.values.length
  | .group _ parts => by
    rw [erased, values, values]
    exact length_partValues_erased parts
  | .compare _ comparison v => comparison.length_values_erase v
theorem length_partValues_erased : ∀ parts : List Where,
    (partValues (partsErased parts)).length = (partValues parts).length
  | [] => rfl
  | w :: rest => by
    rw [partsErased, partValues, partValues, List.length_append, List.length_append,
      length_values_erased w, length_partValues_erased rest]
end

mutual
theorem sql_erased (n : Nat) : ∀ w : Where, w.erased.sql n = w.sql n
  | .group c parts => by rw [erased, sql, sql, partSqls_erased n parts]
  | .compare column comparison v => comparison.sql_erase column v n
/-- Placeholders are numbered by the numbers of values before them. -/
theorem partSqls_erased (n : Nat) : ∀ parts : List Where,
    partSqls n (partsErased parts) = partSqls n parts
  | [] => rfl
  | w :: rest => by
    rw [partsErased, partSqls, partSqls, isEmpty_erased w, length_values_erased w,
      sql_erased n w, partSqls_erased n rest, partSqls_erased _ rest]
end

end Where

namespace Select

/-- The statement without its values. -/
def erased (s : Select) : Select :=
  { s with joins := s.joins.map Join.erased, conditions := s.conditions.map Where.erased }

theorem text_erased (s : Select) : s.erased.sql.text = s.sql.text := by
  have hcondition : s.erased.condition = s.condition.erased := by
    rw [condition, condition, Where.erased, Where.partsErased_eq]
    rfl
  have hcount : (s.erased.joins.flatMap Join.values).length =
      (s.joins.flatMap Join.values).length := by
    simp only [erased, List.flatMap_map, List.length_flatMap, Join.length_values_erased]
  have hwhere (n : Nat) : s.erased.whereText n = s.whereText n := by
    rw [whereText, whereText, erased, ← Where.partsErased_eq, Where.partSqls_erased]
  have hclauses : s.erased.clauses = s.clauses := by
    rw [clauses_eq, clauses_eq, clausesFrom, clausesFrom, hcount, hwhere, hcondition,
      Where.isEmpty_erased, erased, numbered_map Join.sql_erased Join.length_values_erased]
    rfl
  exact congrArg "\n".intercalate hclauses

/-- Values are bound, in the text of a statement and in that of the question for the number of its
rows. The texts show nothing of the values but how many there are. -/
theorem sql_binds (s : Select) :
    ((∀ name ∈ s.names, Text.IsPlain name) →
      s.sql.Binds s.values ∧ s.countQuery.sql.Binds s.values) ∧
    ∀ s' : Select, s.erased = s'.erased →
      s.sql.text = s'.sql.text ∧ s.countQuery.sql.text = s'.countQuery.sql.text := by
  refine ⟨fun hplain => ⟨binds_sql hplain, binds_countQuery hplain⟩, fun s' h => ⟨?_, ?_⟩⟩
  · rw [← s.text_erased, h, s'.text_erased]
  · have hinner : s.countQuery.inner.erased = s'.countQuery.inner.erased :=
      congrArg (fun s : Select => { s with orders := [] }) h
    have htext : s.countQuery.inner.sql.text = s'.countQuery.inner.sql.text := by
      rw [← text_erased, hinner, text_erased]
    exact congrArg (fun text => "SELECT COUNT(*) AS expression\nFROM (" ++ text ++ ") subquery")
      htext

/-- Nodes in a language, by their titles. -/
def titledIn (langcode : String) (titles : List String) : Select where
  table := "node"
  label := "base_table"
  conjunction := .or
  joins := [⟨.inner, "node_data", "node_data", [
    .columns ⟨"node_data", "nid"⟩ ⟨"base_table", "nid"⟩,
    .value ⟨"node_data", "langcode"⟩ (.string langcode)]⟩]
  conditions := [
    .group .and [
      .compare ⟨"node_data", "title"⟩ .oneOf (.array (titles.map .string)),
      .compare ⟨"base_table", "nid"⟩ .between (.array [.word 1, .word 9])],
    .group .or [],
    .compare ⟨"node_data", "title"⟩ .like (.string "a%")]

/-- A title that looks like SQL is bound like any other. -/
theorem sql_binds_titled :
    Text.parameters (titledIn "en" ["x", "' OR 1 = 1 --"]).sql.text = placeholders 0 6 ∧
    (titledIn "en" ["x", "' OR 1 = 1 --"]).sql.arguments.find? (placeholder 2) =
      some (.string "' OR 1 = 1 --") ∧
    (titledIn "en" ["x", "' OR 1 = 1 --"]).sql.text = (titledIn "de" ["y", "z"]).sql.text := by
  obtain ⟨hbinds, hsame⟩ := sql_binds (titledIn "en" ["x", "' OR 1 = 1 --"])
  have hsql := (hbinds (by decide)).1
  exact ⟨hsql.occur, hsql.bound 2 _ rfl, (hsame (titledIn "de" ["y", "z"]) rfl).1⟩

end Select
end EntitySelect
