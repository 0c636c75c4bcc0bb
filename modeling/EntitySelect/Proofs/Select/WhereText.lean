import EntitySelect.Dataset.Filter
import EntitySelect.Proofs.Select.Binding
import EntitySelect.Proofs.Select.Phrases

/-! The text behind WHERE means the condition. It has one reading, which is the condition without its
empty parts once the values are put in for the parameters; and that holds where the condition
does. -/
namespace EntitySelect

theorem isParameter_placeholder (n : Nat) : Text.isParameter (placeholder n) = true := by
  obtain ⟨word, hword, hn⟩ := exists_placeholder_eq n
  obtain ⟨c, rest, hrest, -⟩ := Text.isIdentifier_iff.1 hword
  have hall := List.all_eq_true.1 (Text.isWord_of_isIdentifier hword)
  refine Text.isParameter_iff.2 ⟨word.toList, ?_, ?_, hall⟩
  · rw [hn]
    exact String.toList_append
  · rw [hrest]
    exact List.cons_ne_nil c rest

section Bound
variable {args : Dict Json} {n : Nat} {vs more : List Json}

/-- The values are bound from placeholder `n` on. -/
def BoundFrom (args : Dict Json) (n : Nat) (vs : List Json) : Prop :=
  ∀ i v, vs[i]? = some v → args.find? (placeholder (n + i)) = some v

theorem BoundFrom.left (h : BoundFrom args n (vs ++ more)) : BoundFrom args n vs := by
  intro i v hv
  refine h i v ?_
  rw [List.getElem?_append_left (List.getElem?_eq_some_iff.1 hv).1, hv]

theorem BoundFrom.right (h : BoundFrom args n (vs ++ more)) :
    BoundFrom args (n + vs.length) more := by
  intro i v hv
  rw [Nat.add_assoc]
  refine h (vs.length + i) v ?_
  rw [List.getElem?_append_right (Nat.le_add_right ..), Nat.add_sub_cancel_left, hv]

theorem BoundFrom.mapM_find? (h : BoundFrom args n vs) :
    (placeholders n vs.length).mapM args.find? = some vs := by
  induction vs generalizing n with
  | nil => rfl
  | cons v rest ih =>
    have hfirst : args.find? (placeholder n) = some v := h 0 v rfl
    have hrest := ih (n := n + 1) (@BoundFrom.right args n [v] rest h)
    change (placeholder n :: placeholders (n + 1) rest.length).mapM args.find? = _
    rw [List.mapM_cons, hfirst, hrest]
    rfl

end Bound

/-- The connective of a list, as far as its text shows it: that of a single part is AND. -/
def Conjunction.among (c : Conjunction) (parts : List α) : Conjunction :=
  if parts.length = 1 then .and else c

namespace Comparison

/-- The value as far as it counts: not at all in a null test, and as a list in IN and NOT IN. -/
def tidy (comparison : Comparison) (v : Json) : Json :=
  match comparison with
  | .isNull | .isNotNull => .null
  | .oneOf | .noneOf => .array v.items
  | _ => v

/-- The value that is made of bound values. -/
def ofValues (comparison : Comparison) (vs : List Json) : Json :=
  match comparison, vs with
  | .isNull, _ | .isNotNull, _ => .null
  | .oneOf, _ | .noneOf, _ | .between, _ => .array vs
  | _, [v] => v
  | _, _ => .null

theorem ofValues_values {comparison : Comparison} {v : Json}
    (h : comparison = .between → ∃ low high, v = .array [low, high]) :
    comparison.ofValues (comparison.values v) = comparison.tidy v := by
  cases comparison with
  | between =>
    obtain ⟨low, high, rfl⟩ := h rfl
    rfl
  | _ => rfl

theorem holds_tidy (comparison : Comparison) (actual v : Json) :
    comparison.holds actual (comparison.tidy v) = comparison.holds actual v := by
  cases comparison <;> rfl

theorem length_values {comparison : Comparison} {n : Nat} (h : n ∈ comparison.arity?) (v : Json) :
    (comparison.values v).length = n := by
  cases comparison <;> cases h <;> rfl

end Comparison

namespace Phrase

mutual
/-- What a phrase says, with the values that are bound to its parameters. -/
def bind? (args : Dict Json) : Phrase → Option Where
  | .compare column comparison names =>
    (names.mapM args.find?).map fun vs => .compare column comparison (comparison.ofValues vs)
  | .group c parts => (bindParts? args parts).map (.group c)
def bindParts? (args : Dict Json) : List Phrase → Option (List Where)
  | [] => some []
  | p :: rest =>
    match bind? args p, bindParts? args rest with
    | some w, some rest => some (w :: rest)
    | _, _ => none
end

theorem text_compare (column : Column) (comparison : Comparison) (v : Json) (n : Nat) :
    (compare column comparison (placeholders n (comparison.values v).length)).text =
      comparison.sql column v n := by
  cases comparison with
  | isNull | isNotNull => exact String.append_empty
  | oneOf | noneOf =>
    simp only [text, Comparison.tail, Comparison.sql, Comparison.values, String.append_assoc]
  | between | like | equal | notEqual | greater | atLeast | less | atMost =>
    simp only [text, Comparison.tail, Comparison.sql, Comparison.values, placeholders,
      List.length_cons, List.length_nil, List.range', List.map_cons, List.map_nil,
      String.append_assoc]

theorem intercalate_among (c : Conjunction) (parts : List Phrase) :
    (" " ++ (c.among parts).word ++ " ").intercalate (partTexts parts) =
      (" " ++ c.word ++ " ").intercalate (partTexts parts) := by
  unfold Conjunction.among
  split
  · next hone =>
    obtain ⟨p, rfl⟩ := List.length_eq_one_iff.1 hone
    rw [partTexts, partTexts, String.intercalate_singleton, String.intercalate_singleton]
  · rfl

end Phrase

namespace Where

mutual
/-- A condition without its empty parts. -/
def tidy : Where → Where
  | .group c parts => .group (c.among (tidyParts parts)) (tidyParts parts)
  | .compare column comparison v => .compare column comparison (comparison.tidy v)
def tidyParts : List Where → List Where
  | [] => []
  | w :: rest => if isEmpty w then tidyParts rest else tidy w :: tidyParts rest
end

mutual
/-- What the text of a condition says, from placeholder `n` on. -/
def phrase (n : Nat) : Where → Phrase
  | .group c parts => .group (c.among (partPhrases n parts)) (partPhrases n parts)
  | .compare column comparison v =>
    .compare column comparison (placeholders n (comparison.values v).length)
def partPhrases (n : Nat) : List Where → List Phrase
  | [] => []
  | w :: rest =>
    if isEmpty w then partPhrases n rest
    else phrase n w :: partPhrases (n + (values w).length) rest
end

mutual
/-- Whether a condition holds in which every part counts: all parts of AND, or one of OR. -/
def truth (s : Scope) : Where → Bool
  | .group .and parts => allTrue s parts
  | .group .or parts => someTrue s parts
  | .compare column comparison v => comparison.holds (s.read column) v
def allTrue (s : Scope) : List Where → Bool
  | [] => true
  | w :: rest => truth s w && allTrue s rest
def someTrue (s : Scope) : List Where → Bool
  | [] => false
  | w :: rest => truth s w || someTrue s rest
end

section Text

mutual
theorem text_phrase (n : Nat) : ∀ w : Where, (w.phrase n).text = w.sql n
  | .group c parts => by
    rw [phrase, Phrase.text, sql, Phrase.intercalate_among, partTexts_partPhrases n parts]
  | .compare column comparison v => Phrase.text_compare column comparison v n
theorem partTexts_partPhrases (n : Nat) : ∀ parts : List Where,
    Phrase.partTexts (partPhrases n parts) = partSqls n parts
  | [] => rfl
  | w :: rest => by
    rw [partPhrases, partSqls]
    split
    · exact partTexts_partPhrases n rest
    · rw [Phrase.partTexts, text_phrase n w, partTexts_partPhrases _ rest]
end

theorem partPhrases_ne_nil {parts : List Where} (h : areEmpty parts = false) (n : Nat) :
    partPhrases n parts ≠ [] := by
  induction parts with
  | nil => cases h
  | cons w rest ih =>
    rw [partPhrases]
    split
    · next hempty =>
      rw [areEmpty, hempty, Bool.true_and] at h
      exact ih h
    · exact List.cons_ne_nil _ _

mutual
theorem proper_phrase (n : Nat) : ∀ w : Where, w.isEmpty = false →
    (∀ c ∈ w.mentions, Text.isIdentifier c.table = true ∧ Text.isIdentifier c.name = true) →
    (w.phrase n).Proper
  | .group c parts, hempty, hcolumns =>
    ⟨partPhrases_ne_nil hempty n, fun hone => if_pos hone, partsProper_partPhrases n parts hcolumns⟩
  | .compare column comparison v, _, hcolumns => by
    obtain ⟨htable, hname⟩ := hcolumns column List.mem_cons_self
    refine ⟨htable, hname, fun name hmem => ?_, fun k hk => ?_⟩
    · obtain ⟨i, -, rfl⟩ := List.mem_map.1 hmem
      exact isParameter_placeholder i
    · rw [placeholders, List.length_map, List.length_range', Comparison.length_values hk]
theorem partsProper_partPhrases (n : Nat) : ∀ parts : List Where,
    (∀ c ∈ partsMention parts, Text.isIdentifier c.table = true ∧ Text.isIdentifier c.name = true) →
    Phrase.PartsProper (partPhrases n parts)
  | [], _ => trivial
  | w :: rest, hcolumns => by
    rw [partsMention, List.forall_mem_append] at hcolumns
    rw [partPhrases]
    split
    · exact partsProper_partPhrases n rest hcolumns.2
    · next hempty =>
      exact ⟨proper_phrase n w (Bool.eq_false_iff.2 hempty) hcolumns.1,
        partsProper_partPhrases _ rest hcolumns.2⟩
end

end Text

section Values
variable {args : Dict Json}

theorem length_partPhrases (n : Nat) (parts : List Where) :
    (partPhrases n parts).length = (tidyParts parts).length := by
  induction parts generalizing n with
  | nil => rfl
  | cons w rest ih =>
    rw [partPhrases, tidyParts]
    split
    · exact ih n
    · rw [List.length_cons, List.length_cons, ih]

mutual
theorem bind?_phrase (n : Nat) : ∀ w : Where,
    (∀ column v, (column, .between, v) ∈ w.comparisons → ∃ low high, v = .array [low, high]) →
    BoundFrom args n w.values → (w.phrase n).bind? args = some w.tidy
  | .group c parts, hpairs, hbound => by
    rw [phrase, Phrase.bind?, bindParts?_partPhrases n parts hpairs hbound, tidy,
      Conjunction.among, length_partPhrases]
    rfl
  | .compare column comparison v, hpairs, hbound => by
    have hvalue : comparison.ofValues (comparison.values v) = comparison.tidy v := by
      refine Comparison.ofValues_values fun hbetween => hpairs column v ?_
      rw [hbetween]
      exact List.mem_cons_self
    rw [values] at hbound
    rw [phrase, Phrase.bind?, hbound.mapM_find?, tidy, ← hvalue]
    rfl
theorem bindParts?_partPhrases (n : Nat) : ∀ parts : List Where,
    (∀ column v, (column, .between, v) ∈ partComparisons parts → ∃ low high, v = .array [low, high]) →
    BoundFrom args n (partValues parts) →
    Phrase.bindParts? args (partPhrases n parts) = some (tidyParts parts)
  | [], _, _ => rfl
  | w :: rest, hpairs, hbound => by
    have hfirst := fun column v h => hpairs column v (List.mem_append_left _ h)
    have hrest := fun column v h => hpairs column v (List.mem_append_right _ h)
    rw [partPhrases, tidyParts]
    split
    · next hempty =>
      rw [partValues, values_of_isEmpty hempty] at hbound
      exact bindParts?_partPhrases n rest hrest hbound
    · rw [Phrase.bindParts?, bind?_phrase n w hfirst hbound.left,
        bindParts?_partPhrases _ rest hrest hbound.right]
end

end Values

section Truth
variable (s : Scope)

/-- The connective of a single part does not matter. -/
theorem truth_among (c : Conjunction) (parts : List Where) :
    (group (c.among parts) parts).truth s = (group c parts).truth s := by
  unfold Conjunction.among
  split
  · next hone =>
    obtain ⟨w, rfl⟩ := List.length_eq_one_iff.1 hone
    cases c with
    | and => rfl
    | or => simp [truth, allTrue, someTrue]
  · rfl

mutual
theorem truth_tidy : ∀ w : Where, w.isEmpty = false → w.tidy.truth s = w.holds s
  | .group .and parts, _ => by
    rw [tidy, truth_among, truth, holds, allTrue_tidyParts parts]
  | .group .or parts, hempty => by
    rw [isEmpty] at hempty
    rw [tidy, truth_among, truth, holds, someTrue_tidyParts parts, hempty, Bool.false_or]
  | .compare column comparison v, _ => comparison.holds_tidy (s.read column) v
theorem allTrue_tidyParts : ∀ parts : List Where, allTrue s (tidyParts parts) = allHold s parts
  | [] => rfl
  | w :: rest => by
    rw [tidyParts, allHold]
    split
    · next hempty => rw [allTrue_tidyParts rest, hempty, Bool.true_or, Bool.true_and]
    · next hempty =>
      have hfalse := Bool.eq_false_iff.2 hempty
      rw [allTrue, truth_tidy w hfalse, allTrue_tidyParts rest, hfalse, Bool.false_or]
theorem someTrue_tidyParts : ∀ parts : List Where, someTrue s (tidyParts parts) = someHold s parts
  | [] => rfl
  | w :: rest => by
    rw [tidyParts, someHold]
    split
    · next hempty =>
      rw [someTrue_tidyParts rest, hempty, Bool.not_true, Bool.false_and, Bool.false_or]
    · next hempty =>
      have hfalse := Bool.eq_false_iff.2 hempty
      rw [someTrue, truth_tidy w hfalse, someTrue_tidyParts rest, hfalse, Bool.not_false,
        Bool.true_and]
end

end Truth
end Where

namespace Select
variable {s : Select}

theorem boundFrom_arguments (s : Select) :
    BoundFrom s.arguments (s.joins.flatMap Join.values).length s.condition.values := by
  have hall : BoundFrom s.arguments 0 s.values := by
    intro i v hv
    rw [Nat.zero_add]
    exact find?_arguments hv
  simpa using hall.right

theorem where_ne {word : String} (h : word.toList.head?.any (· != 'W') = true)
    (text more : String) : "WHERE " ++ text ≠ word ++ more := by
  obtain ⟨c, hhead, hc⟩ := (Option.any_eq_true ..).1 h
  obtain ⟨rest, hrest⟩ := List.head?_eq_some_iff.1 hhead
  intro heq
  have hlist := congrArg String.toList heq
  simp only [String.toList_append, hrest, String.reduceToList, List.cons_append] at hlist
  obtain ⟨rfl, -⟩ := List.cons.inj hlist
  cases hc

theorem where_ne_join (text : String) (n : Nat) (j : Join) : "WHERE " ++ text ≠ j.sql n := by
  have hkind : j.kind.word.toList.head?.any (· != 'W') = true := by
    cases j.kind with
    | inner => decide
    | left => decide
  simp only [Join.sql, String.append_assoc]
  exact where_ne hkind text _

/-- There is one WHERE, unless the condition is empty. -/
theorem where_mem_clauses {text : String} : "WHERE " ++ text ∈ s.clauses ↔
    s.condition.isEmpty = false ∧ text = s.whereText (s.joins.flatMap Join.values).length := by
  have hselect : "WHERE " ++ text ≠ "SELECT " ++ s.selectList := where_ne (by decide) text _
  have hfrom : "WHERE " ++ text ≠ "FROM " ++ s.table ++ " " ++ s.label := by
    rw [String.append_assoc, String.append_assoc]
    exact where_ne (by decide) text _
  have hjoins : "WHERE " ++ text ∉ numbered Join.sql Join.values 0 s.joins := by
    intro h
    obtain ⟨j, -, n, heq⟩ := exists_of_mem_numbered h
    exact where_ne_join text n j heq
  have hgroup : "WHERE " ++ text ∉
      if s.groupBy.isEmpty then [] else ["GROUP BY " ++ ", ".intercalate s.groupBy] := by
    split
    · exact List.not_mem_nil
    · exact fun h => where_ne (by decide) text _ (List.mem_singleton.1 h)
  have horder : "WHERE " ++ text ∉ if s.orders.isEmpty then []
      else ["ORDER BY " ++ ", ".intercalate (s.orders.map Order.text)] := by
    split
    · exact List.not_mem_nil
    · exact fun h => where_ne (by decide) text _ (List.mem_singleton.1 h)
  have hwindow (w : Window) : "WHERE " ++ text ≠
      "LIMIT " ++ toString w.length.toNat ++ " OFFSET " ++ toString w.start.toNat := by
    rw [String.append_assoc, String.append_assoc]
    exact where_ne (by decide) text _
  have hwhere (n : Nat) : "WHERE " ++ text ∈
      (if s.condition.isEmpty then [] else ["WHERE " ++ s.whereText n]) ↔
        s.condition.isEmpty = false ∧ text = s.whereText n := by
    cases s.condition.isEmpty with
    | true => simp
    | false => simp [String.append_right_inj]
  simp only [clauses_eq, clausesFrom, List.mem_append, List.mem_cons, List.not_mem_nil, hselect,
    hfrom, hjoins, hgroup, horder, hwhere, Nat.zero_add, or_false, false_or]
  cases s.window with
  | none => simp only [List.not_mem_nil, or_false]
  | some w => simp only [List.mem_singleton, hwindow w, or_false]

/-- The text behind WHERE has one reading. With the values that are bound it is the condition without
its empty parts, and so holds where the condition does. There is no such text if and only if the
condition is empty. -/
theorem reads_whereText (s : Select)
    (hcolumns : ∀ c ∈ s.condition.mentions,
      Text.isIdentifier c.table = true ∧ Text.isIdentifier c.name = true)
    (hpairs : ∀ column v, (column, .between, v) ∈ s.condition.comparisons →
      ∃ low high, v = .array [low, high]) :
    ((∃ text, "WHERE " ++ text ∈ s.clauses) ↔ s.condition.isEmpty = false) ∧
    ∀ text, "WHERE " ++ text ∈ s.clauses → ∃ p : Phrase, (∀ p', p'.Reads text ↔ p' = p) ∧
      p.bind? s.arguments = some s.condition.tidy ∧
      ∀ scope, s.condition.tidy.truth scope = s.condition.holds scope := by
  refine ⟨⟨fun ⟨text, h⟩ => (where_mem_clauses.1 h).1,
    fun h => ⟨_, where_mem_clauses.2 ⟨h, rfl⟩⟩⟩, fun text h => ?_⟩
  obtain ⟨hempty, rfl⟩ := where_mem_clauses.1 h
  have hreads (n : Nat) : (s.condition.phrase n).Reads (s.whereText n) := by
    refine ⟨Where.proper_phrase n s.condition hempty hcolumns, ?_⟩
    rw [whereText, ← Where.partTexts_partPhrases]
    exact Phrase.intercalate_among s.conjunction _
  refine ⟨_, fun p' => ⟨fun h' => Phrase.eq_of_reads h' (hreads _), ?_⟩, ?_, ?_⟩
  · rintro rfl
    exact hreads _
  · exact Where.bind?_phrase _ s.condition hpairs s.boundFrom_arguments
  · exact fun scope => Where.truth_tidy scope s.condition hempty

theorem reads_whereText_titled : ∃ p : Phrase,
    p.Reads ("(node_data.title IN (:db_condition_placeholder_1, :db_condition_placeholder_2) AND " ++
      "base_table.nid BETWEEN :db_condition_placeholder_3 AND :db_condition_placeholder_4) OR " ++
      "node_data.title LIKE :db_condition_placeholder_5 ESCAPE '\\'") ∧
    p.bind? (titledIn "en" ["x", "y"]).arguments = some (.group .or [
      .group .and [
        .compare ⟨"node_data", "title"⟩ .oneOf (.array [.string "x", .string "y"]),
        .compare ⟨"base_table", "nid"⟩ .between (.array [.word 1, .word 9])],
      .compare ⟨"node_data", "title"⟩ .like (.string "a%")]) := by
  have hpairs : ∀ column v,
      (column, .between, v) ∈ (titledIn "en" ["x", "y"]).condition.comparisons →
        ∃ low high, v = .array [low, high] := by
    intro column v h
    have hv : column = ⟨"base_table", "nid"⟩ ∧ v = .array [.word 1, .word 9] := by
      simpa [titledIn, condition, Where.comparisons] using h
    exact ⟨_, _, hv.2⟩
  refine ((reads_whereText (titledIn "en" ["x", "y"]) (by decide) hpairs).2 _ ?_).imp
    fun p h => ⟨(h.1 p).2 rfl, h.2.1⟩
  decide +kernel

end Select
end EntitySelect
