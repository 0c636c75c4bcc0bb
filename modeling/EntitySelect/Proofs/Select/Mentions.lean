import EntitySelect.Select.Basic
import Mathlib.Tactic.Tauto

/-! What a statement mentions: the columns that it reads, and all names that are in it. -/
namespace EntitySelect

def Column.names (c : Column) : List String := [c.table, c.name]

namespace OrderTarget

def column? : OrderTarget → Option Column
  | .column c => some c
  | .label _ => none

def label? : OrderTarget → Option String
  | .label name => some name
  | .column _ => none

end OrderTarget

namespace Where

mutual
/-- The comparisons in a condition, from left to right. -/
def comparisons : Where → List (Column × Comparison × Json)
  | .group _ parts => partComparisons parts
  | .compare column comparison v => [(column, comparison, v)]
def partComparisons : List Where → List (Column × Comparison × Json)
  | [] => []
  | w :: rest => comparisons w ++ partComparisons rest
end

@[simp] theorem partComparisons_eq (parts : List Where) :
    partComparisons parts = parts.flatMap comparisons := by
  induction parts <;> simp_all [partComparisons]

mutual
theorem map_comparisons : ∀ w : Where, w.comparisons.map (·.1) = w.mentions
  | .group _ parts => by
    rw [comparisons, mentions]
    exact map_partComparisons parts
  | .compare .. => rfl
theorem map_partComparisons :
    ∀ parts : List Where, (partComparisons parts).map (·.1) = partsMention parts
  | [] => rfl
  | w :: rest => by
    rw [partComparisons, partsMention, List.map_append, map_comparisons w, map_partComparisons rest]
end

end Where

namespace Select
variable {s : Select} {column : Column}

/-- The columns that the expressions and the orders of a statement mention. -/
def orderMentions (s : Select) : List Column :=
  s.expressions.map (·.argument) ++ s.orders.filterMap (·.target.column?)

theorem mem_mentions : column ∈ s.mentions ↔
    (∃ f ∈ s.fields, f.column = column) ∨ (∃ j ∈ s.joins, ∃ term ∈ j.on, column ∈ term.mentions) ∨
      column ∈ s.condition.mentions ∨ column ∈ s.orderMentions := by
  change column ∈ s.fields.map (·.column) ++ s.expressions.map (·.argument) ++
    s.joins.flatMap (fun j => j.on.flatMap JoinTerm.mentions) ++ s.condition.mentions ++
    s.orders.filterMap (·.target.column?) ↔ _
  simp only [orderMentions, List.mem_append, List.mem_map, List.mem_flatMap]
  constructor
  · rintro ((((h | h) | h) | h) | h)
    · exact .inl h
    · exact .inr (.inr (.inr (.inl h)))
    · exact .inr (.inl h)
    · exact .inr (.inr (.inl h))
    · exact .inr (.inr (.inr (.inr h)))
  · rintro (h | h | h | h | h)
    · exact .inl (.inl (.inl (.inl h)))
    · exact .inl (.inl (.inr h))
    · exact .inl (.inr h)
    · exact .inl (.inl (.inl (.inr h)))
    · exact .inr h

/-- The columns of the orders come after all others. -/
theorem mentions_eq_append (s : Select) : s.mentions =
    { s with orders := [] }.mentions ++ s.orders.filterMap (·.target.column?) :=
  congrArg (· ++ _) (List.append_nil _).symm

/-- A statement without its orders mentions nothing else. -/
theorem mentions_unordered_subset (s : Select) : { s with orders := [] }.mentions ⊆ s.mentions := by
  rw [s.mentions_eq_append]
  exact List.subset_append_left ..

theorem mem_orderMentions_orderBy (target : OrderTarget) (direction : Direction) :
    column ∈ (s.orderBy target direction).orderMentions ↔
      column ∈ s.orderMentions ∨ target.column? = some column := by
  simp [orderMentions, orderBy, or_assoc]

theorem mem_orderMentions_addExpression (function : Aggregate) (argument : Column)
    (wanted : String) :
    column ∈ (s.addExpression function argument wanted).2.orderMentions ↔
      column ∈ s.orderMentions ∨ argument = column := by
  simp only [orderMentions, addExpression, List.map_append, List.map_singleton, List.mem_append,
    List.mem_singleton, eq_comm]
  tauto

/-- All names in a statement: those of tables and columns, and the labels by which they are read,
grouped and ordered. -/
def names (s : Select) : List String :=
  s.table :: s.joins.map (·.table) ++ s.tableLabels ++ s.selectLabels ++
    s.mentions.flatMap Column.names ++ s.groupBy ++ s.orders.filterMap (·.target.label?)

theorem mem_names {name : String} : name ∈ s.names ↔
    name = s.table ∨ (∃ j ∈ s.joins, j.table = name) ∨ name ∈ s.tableLabels ∨
      name ∈ s.selectLabels ∨ (∃ c ∈ s.mentions, name ∈ c.names) ∨ name ∈ s.groupBy ∨
      ∃ o ∈ s.orders, o.target.label? = some name := by
  simp only [names, List.mem_append, List.mem_cons, List.mem_map, List.mem_flatMap,
    List.mem_filterMap, or_assoc]

/-- The names in a statement without its orders. -/
theorem names_unordered_subset (s : Select) : { s with orders := [] }.names ⊆ s.names := by
  intro name h
  rw [mem_names] at h ⊢
  rcases h with h | h | h | h | ⟨c, hc, h⟩ | h | ⟨o, ho, -⟩
  · exact .inl h
  · exact .inr (.inl h)
  · exact .inr (.inr (.inl h))
  · exact .inr (.inr (.inr (.inl h)))
  · exact .inr (.inr (.inr (.inr (.inl ⟨c, s.mentions_unordered_subset hc, h⟩))))
  · exact .inr (.inr (.inr (.inr (.inr (.inl h)))))
  · cases ho

end Select
end EntitySelect
