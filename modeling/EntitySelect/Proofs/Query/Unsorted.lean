import EntitySelect.Dataset.Evaluation
import EntitySelect.Proofs.Query.Answers
import EntitySelect.Proofs.Query.Executing
import EntitySelect.Proofs.Query.Mentions

/-! What a query without orderings gives over a dataset: the rows of the base table that fulfil the
conditions, in the order of the table. -/
namespace EntitySelect

theorem Window.cut_sublist (w? : Option Window) (rows : List α) :
    (Window.cut w? rows).Sublist rows := by
  cases w? with
  | none => exact List.Sublist.refl rows
  | some w => exact (List.take_sublist ..).trans (List.drop_sublist ..)

namespace CompiledAs
variable {q : Query} {t : EntityType} {base : String} {catalog : Catalog} {c : Compiled}
  {d : Dataset}

/-- Without orderings a statement over a dataset that has its tables gives its rows. -/
theorem fetchAll_unsorted (h : CompiledAs q t base catalog c) (hunsorted : q.activeSorts = [])
    (hcovers : d.Covers c.statement) (hkeyed : Keyed t.keys (d.tableRows base)) :
    ∃ rows, d.fetchAll c.statement = .ok rows ∧
      rows.map Row.pair? = (Window.cut q.effectiveWindow ((d.tableRows base).flatMap fun b =>
        List.replicate (c.times d b) (t.keys.pair b))).map some := by
  obtain ⟨-, horders⟩ := h.unsorted hunsorted
  have hscopes := Dataset.scopes_eq_ok_iff.2 ⟨hcovers, rfl⟩
  rw [h.table] at hscopes
  have hgroup := h.group_eq (d := d) hkeyed
  refine ⟨_, Dataset.fetchAll_eq_ok_iff.2 ⟨h.checkLabels_eq_ok hunsorted, _, _, _, hscopes, hgroup,
    Group.mapM_row_of_orders_nil horders _, rfl⟩, ?_⟩
  have hpairs := h.pairs_of_group hkeyed hgroup
  rw [horders, List.map_nil, sortRows_nil, Window.map_cut, Window.map_cut, ← hpairs, h.window]
  simp only [List.map_map]
  rfl

end CompiledAs

namespace Query
variable {q : Query} {t : EntityType} {base : String} {catalog : Catalog} {c : Compiled}
  {d : Dataset}

theorem effectiveWindow_of_unpaged (h : q.activePager = none) : q.effectiveWindow = q.window := by
  rw [effectiveWindow, h]
  rfl

end Query
end EntitySelect
