import EntitySelect.Proofs.Select.Label

/-! Statements that are built call by call. Whatever is added, and by whatever names, the search for
a free label ends, the labels of a statement stay apart, and each label goes on to name what it was
given for. -/
namespace EntitySelect

namespace Label
variable {taken : List String} {base : String} {tries n : Nat}

/-- The search as a loop that asks for one name after the other, and gives up after some tries. -/
def search (taken : List String) (base : String) : Nat → Nat → Option String
  | 0, _ => none
  | tries + 1, n =>
    if numbered base n ∈ taken then search taken base tries (n + 1) else some (numbered base n)

theorem search_eq_some {m : Nat} (hn : n ≤ m) (htries : m < n + tries)
    (hfree : numbered base m ∉ taken) (hleast : ∀ k, n ≤ k → k < m → numbered base k ∈ taken) :
    search taken base tries n = some (numbered base m) := by
  induction tries generalizing n with
  | zero => omega
  | succ tries ih =>
    rw [search]
    rcases Nat.eq_or_lt_of_le hn with rfl | hlt
    · rw [if_neg hfree]
    · rw [if_pos (hleast n (Nat.le_refl n) hlt)]
      exact ih hlt (by omega) fun k hk => hleast k (Nat.le_of_succ_le hk)

/-- The loop ends, after at most one try more than there are labels. -/
theorem search_eq_firstFree (taken : List String) (base : String) (n : Nat) :
    search taken base (taken.length + 1) n = some (firstFree taken base n) := by
  obtain ⟨m, hn, hbound, heq, hfree, hleast⟩ := firstFree_least taken base n
  rw [heq]
  exact search_eq_some hn (Nat.lt_succ_of_le hbound) hfree hleast

/-- The first of the wanted names that is free, or if none is, the last of them with the least
number from two on that makes it free. -/
inductive Chosen (taken : List String) : List String → String → Prop
  | free {name : String} (h : name ∉ taken) (others : List String) :
    Chosen taken (name :: others) name
  | other {name label : String} {others : List String} (h : name ∈ taken)
    (hothers : Chosen taken others label) : Chosen taken (name :: others) label
  | suffixed {name : String} {n : Nat} (h : name ∈ taken) (hn : 2 ≤ n)
    (hfree : numbered name n ∉ taken) (hleast : ∀ k, 2 ≤ k → k < n → numbered name k ∈ taken) :
    Chosen taken [name] (numbered name n)

theorem chosen_fresh (taken : List String) (wanted : String) :
    Chosen taken [wanted] (fresh taken wanted) := by
  unfold fresh
  split
  · next hmem =>
    obtain ⟨n, hn, -, heq, hfree, hleast⟩ := firstFree_least taken wanted 2
    rw [heq]
    exact .suffixed hmem hn hfree hleast
  · next hfree => exact .free hfree []

end Label

/-- A call on a statement that is being built. -/
inductive Addition where
  | field (column : Column)
  | expression (function : Aggregate) (argument : Column) (wanted : String)
  | join (kind : JoinKind) (table : String) (on : String → List JoinTerm)
  | groupBy (label : String)

namespace Addition

/-- The names that the new label may have, the best one first. -/
def wanted : Addition → List String
  | .field c => [c.name, c.table ++ "_" ++ c.name]
  | .expression _ _ name => [name]
  | .join _ table _ => [table]
  | .groupBy _ => []

/-- The labels that the new label is kept apart from. -/
def taken (s : Select) : Addition → List String
  | .field _ | .expression .. => s.selectLabels
  | .join .. => s.tableLabels
  | .groupBy _ => []

end Addition

namespace Select
variable {s : Select} {call : Addition} {label : String}

/-- The label that a call gives back, if it is one that makes one, and the statement after it. -/
def add (s : Select) : Addition → Option String × Select
  | .field c => (s.addField c).map some id
  | .expression function argument wanted => (s.addExpression function argument wanted).map some id
  | .join kind table on => (s.addJoin kind table on).map some id
  | .groupBy label => (none, s.addGroupBy label)

/-- The statement after a sequence of calls. -/
def addAll (s : Select) (calls : List Addition) : Select :=
  calls.foldl (fun s call => (s.add call).2) s

def join? (s : Select) (label : String) : Option Join := s.joins.find? (·.label == label)

/-- A label names what was asked for when it was given. -/
def Names (s : Select) : Addition → String → Prop
  | .field c, label => s.field? label = some ⟨c, label⟩
  | .expression function argument _, label =>
    s.expression? label = some ⟨function, argument, label⟩
  | .join kind table on, label => s.join? label = some ⟨kind, table, label, on label⟩
  | .groupBy _, _ => False

/-- Each label stands for one thing, and is grouped by at most once. -/
structure Apart (s : Select) : Prop where
  selected : s.selectLabels.Nodup
  joined : s.tableLabels.Nodup
  grouped : s.groupBy.Nodup

theorem addGroupBy_eq (s : Select) (label : String) :
    s.addGroupBy label =
      { s with groupBy := if label ∈ s.groupBy then s.groupBy else s.groupBy ++ [label] } := by
  unfold addGroupBy
  split <;> rfl

theorem Apart.add (h : s.Apart) (call : Addition) : (s.add call).2.Apart := by
  cases call with
  | field c => exact { h with selected := addField_selectLabels_nodup h.selected c }
  | expression function argument wanted =>
    have hselected := addExpression_selectLabels_nodup h.selected function argument wanted
    exact { h with selected := hselected }
  | join kind table on =>
    exact { h with joined := addJoin_tableLabels_nodup h.joined kind table on }
  | groupBy label =>
    have hgrouped := addGroupBy_nodup h.grouped label
    rw [addGroupBy_eq] at hgrouped
    simp only [Select.add, addGroupBy_eq]
    exact { h with grouped := hgrouped }

theorem Apart.addAll (h : s.Apart) (calls : List Addition) : (s.addAll calls).Apart := by
  induction calls generalizing s with
  | nil => exact h
  | cons call calls ih => exact ih (h.add call)

theorem chosen_fieldLabel (s : Select) (c : Column) :
    Label.Chosen s.selectLabels [c.name, c.table ++ "_" ++ c.name] (s.fieldLabel c) := by
  unfold fieldLabel
  split
  · next hmem => exact .other hmem (Label.chosen_fresh s.selectLabels _)
  · next hfree =>
    rw [Label.fresh_of_not_mem hfree]
    exact .free hfree _

/-- A call chooses its label among the names that it wants. -/
theorem chosen_add {given : String} (h : (s.add call).1 = some given) :
    Label.Chosen (call.taken s) call.wanted given := by
  cases call with
  | field c =>
    cases h
    exact s.chosen_fieldLabel c
  | expression function argument wanted =>
    cases h
    exact Label.chosen_fresh s.selectLabels wanted
  | join kind table on =>
    cases h
    exact Label.chosen_fresh s.tableLabels table
  | groupBy label => cases h

/-- What is put behind a list under a new label is what is found under it. -/
theorem find?_concat_of_not_mem {α : Type} (f : α → String) {l : List α} {a : α}
    (h : f a ∉ l.map f) : (l ++ [a]).find? (f · == f a) = some a := by
  have hnone : l.find? (f · == f a) = none := by
    rw [List.find?_eq_none]
    intro b hb heq
    exact h (List.mem_map.2 ⟨b, hb, eq_of_beq heq⟩)
  rw [List.find?_append, hnone]
  simp

/-- What a label was given for is found under it. -/
theorem names_add {given : String} (h : (s.add call).1 = some given) :
    (s.add call).2.Names call given := by
  cases call with
  | field c =>
    cases h
    have hnew : s.fieldLabel c ∉ s.fields.map (·.label) := fun hmem =>
      addField_label_not_mem s c (List.mem_append_left _ hmem)
    exact find?_concat_of_not_mem SelectedField.label (a := ⟨c, s.fieldLabel c⟩) hnew
  | expression function argument wanted =>
    cases h
    have hnew : Label.fresh s.selectLabels wanted ∉ s.expressions.map (·.label) := fun hmem =>
      Label.fresh_not_mem s.selectLabels wanted (List.mem_append_right _ hmem)
    exact find?_concat_of_not_mem Expression.label
      (a := ⟨function, argument, Label.fresh s.selectLabels wanted⟩) hnew
  | join kind table on =>
    cases h
    have hnew : Label.fresh s.tableLabels table ∉ s.joins.map (·.label) := fun hmem =>
      addJoin_label_not_mem s kind table on (List.mem_cons_of_mem _ hmem)
    exact find?_concat_of_not_mem Join.label
      (a := ⟨kind, table, Label.fresh s.tableLabels table, _⟩) hnew
  | groupBy label => cases h

/-- More is added behind what is there. -/
structure Grows (s s' : Select) : Prop where
  fields : s.fields <+: s'.fields
  expressions : s.expressions <+: s'.expressions
  joins : s.joins <+: s'.joins

theorem grows_add (s : Select) (call : Addition) : s.Grows (s.add call).2 := by
  cases call with
  | field c => exact ⟨List.prefix_append .., List.prefix_rfl, List.prefix_rfl⟩
  | expression function argument wanted =>
    exact ⟨List.prefix_rfl, List.prefix_append .., List.prefix_rfl⟩
  | join kind table on => exact ⟨List.prefix_rfl, List.prefix_rfl, List.prefix_append ..⟩
  | groupBy label =>
    simp only [add, addGroupBy_eq]
    exact ⟨List.prefix_rfl, List.prefix_rfl, List.prefix_rfl⟩

theorem Names.mono {s' : Select} (h : s.Names call label) (hgrows : s.Grows s') :
    s'.Names call label := by
  cases call with
  | field c => exact hgrows.fields.find?_eq_some h
  | expression function argument wanted => exact hgrows.expressions.find?_eq_some h
  | join kind table on => exact hgrows.joins.find?_eq_some h
  | groupBy label => exact h

theorem Names.addAll (h : s.Names call label) (calls : List Addition) :
    (s.addAll calls).Names call label := by
  induction calls generalizing s with
  | nil => exact h
  | cons next calls ih => exact ih (h.mono (s.grows_add next))

theorem addAll_append (s : Select) (before after : List Addition) :
    s.addAll (before ++ after) = (s.addAll before).addAll after :=
  List.foldl_append

theorem exists_add_eq_some (s : Select) (h : call.wanted ≠ []) :
    ∃ given, (s.add call).1 = some given := by
  cases call with
  | groupBy label => exact absurd rfl h
  | _ => exact ⟨_, rfl⟩

/-- The labels of a statement, however it was built: they stay apart, and each call that makes one
finds it after finitely many tries, takes the best name that was free at the time, and can be read
back by it from then on. -/
theorem addAll_labels (table label : String) (conjunction : Conjunction) (calls : List Addition) :
    (addAll { table, label, conjunction } calls).Apart ∧
    ∀ before call after, calls = before ++ call :: after →
      let s := addAll { table, label, conjunction } before
      (∀ base, Label.search (call.taken s) base ((call.taken s).length + 1) 2 =
        some (Label.firstFree (call.taken s) base 2)) ∧
      (call.wanted ≠ [] → ∃ given, (s.add call).1 = some given ∧
        Label.Chosen (call.taken s) call.wanted given ∧
        (addAll { table, label, conjunction } calls).Names call given) := by
  constructor
  · have hstart : Apart { table, label, conjunction } :=
      ⟨List.nodup_nil, List.nodup_singleton label, List.nodup_nil⟩
    exact hstart.addAll calls
  · rintro before call after rfl s
    refine ⟨fun base => Label.search_eq_firstFree _ base 2, fun hwanted => ?_⟩
    obtain ⟨given, hgiven⟩ := s.exists_add_eq_some hwanted
    refine ⟨given, hgiven, chosen_add hgiven, ?_⟩
    rw [addAll_append]
    exact (names_add hgiven).addAll after

/-- A column is asked for once more, after calls whose labels look like those of the search. -/
theorem addAll_labels_crowded :
    let before : List Addition := [.field ⟨"base_table", "x"⟩,
      .expression .min ⟨"base_table", "y"⟩ "base_table_x_2",
      .expression .max ⟨"base_table", "y"⟩ "base_table_x", .join .left "base_table" fun _ => []]
    let after : List Addition := [.groupBy "x", .field ⟨"base_table_2", "x"⟩, .groupBy "x"]
    let s := addAll { table := "base_table", label := "base_table", conjunction := .and }
      (before ++ .field ⟨"base_table", "x"⟩ :: after)
    s.Apart ∧ s.field? "base_table_x_3" = some ⟨⟨"base_table", "x"⟩, "base_table_x_3"⟩ := by
  intro before after s
  have hlabel : ((addAll { table := "base_table", label := "base_table", conjunction := .and }
      before).add (.field ⟨"base_table", "x"⟩)).1 = some "base_table_x_3" := by decide +kernel
  obtain ⟨hapart, hcalls⟩ := addAll_labels "base_table" "base_table" .and
    (before ++ .field ⟨"base_table", "x"⟩ :: after)
  obtain ⟨-, hfound⟩ := hcalls before (.field ⟨"base_table", "x"⟩) after rfl
  obtain ⟨given, hgiven, -, hnames⟩ := hfound (List.cons_ne_nil _ _)
  obtain rfl : given = "base_table_x_3" := Option.some.inj (hgiven.symm.trans hlabel)
  exact ⟨hapart, hnames⟩

end Select
end EntitySelect
