import EntitySelect.Proofs.Dataset.Blocks
import EntitySelect.Proofs.Query.Orders
import EntitySelect.Proofs.Select.Mentions

/-! Statements that cannot go wrong. Every column that is mentioned belongs to a table of the
statement, and every label that rows are grouped or ordered by is one of the select list. So a
dataset answers such a statement with rows, unless it lacks one of the tables. -/
namespace EntitySelect

namespace Select

/-- The select list of a statement: its labels differ, and what rows are grouped and ordered by is
found in it. -/
structure WellSelected (s : Select) : Prop where
  labelled : s.selectLabels.Nodup
  grouped : ∀ label ∈ s.groupBy, ∃ f ∈ s.fields, f.label = label
  ordered : ∀ o ∈ s.orders, ∀ label, o.target.label? = some label → label ∈ s.selectLabels
  aggregated : s.expressions ≠ [] → s.groupBy ≠ []

variable {s : Select}

theorem exists_field? {label : String} (h : ∃ f ∈ s.fields, f.label = label) :
    ∃ f, s.field? label = some f := by
  obtain ⟨f, hf, hlabel⟩ := h
  rw [← Option.isSome_iff_exists, field?, List.find?_isSome]
  exact ⟨f, hf, beq_iff_eq.2 hlabel⟩

end Select

namespace Select.WellSelected
variable {s : Select}

end Select.WellSelected

namespace Dataset
variable {d : Dataset} {s : Select}

/-- A dataset succeeds with a statement if it has all its tables; else it names one that it has
not. -/
def Settles (d : Dataset) (s : Select) (answer : Except DatasetError α) : Prop :=
  d.Covers s ∧ (∃ a, answer = .ok a) ∨
    ∃ table ∈ s.tables, d.tables.find? table = none ∧ answer = .error (.tableNotFound table)

theorem Settles.map {answer : Except DatasetError α} (h : d.Settles s answer) (f : α → β) :
    d.Settles s (answer.map f) := by
  rcases h with ⟨hcovers, a, rfl⟩ | ⟨table, htable, hnone, rfl⟩
  · exact .inl ⟨hcovers, f a, rfl⟩
  · exact .inr ⟨table, htable, hnone, rfl⟩

end Dataset
end EntitySelect
