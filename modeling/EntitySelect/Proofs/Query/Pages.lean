import EntitySelect.Dataset.Evaluation
import EntitySelect.Proofs.Query.Executing
import EntitySelect.Proofs.Query.Answers
import EntitySelect.Proofs.Query.Paging

/-! The pages of a query over a dataset. The statements for a page, for the number of all results
and for all results at once differ in joins, grouping and window, but the rows of the base table
behind them are the same. -/
namespace EntitySelect

namespace Query
variable {q : Query} {t : EntityType} {base : String} {catalog : Catalog} {c : Compiled}
  {d : Dataset} {pager : Pager}

end Query

namespace CompiledAs
variable {q : Query} {t : EntityType} {base : String} {catalog : Catalog} {c : Compiled}
  {d : Dataset}

/-- Without a window all rows that fulfil the conditions are in the result, in some order. -/
theorem entries_perm (h : CompiledAs q t base catalog c)
    (hkeyed : Keyed t.keys (d.tableRows base)) (hwindow : q.effectiveWindow = none)
    {rows : List Row} (hrows : d.fetchAll c.statement = .ok rows) {ids : KeyedIds}
    (hids : KeyedIds.ofRows rows = .ok ids) :
    ids.entries.Perm (q.matching t base catalog d) := by
  obtain ⟨ps, hps, hperm⟩ := h.pairs_of_uncut hkeyed hwindow hrows
  rw [KeyedIds.ofRows_eq_ok hps] at hids
  obtain rfl := Except.ok.inj hids
  have hmem (e : UInt64 × UInt64) : e ∈ ps ↔ e ∈ q.matching t base catalog d := by
    rw [hperm.mem_iff, KeyedIds.mem_blocks_iff, h.map_filter_times]
  have hkeys := hkeyed.pairs_apart.sublist (q.keys_matching_sublist t base catalog d)
  have hfunctional : ∀ e ∈ ps, ∀ e' ∈ ps, e.1 = e'.1 → e = e' := fun e he e' he' heq =>
    List.inj_on_of_nodup_map hkeys ((hmem e).1 he) ((hmem e').1 he') heq
  obtain ⟨hapart, hentries⟩ : (KeyedIds.addPairs {} ps).keys.Nodup ∧
      ∀ e, e ∈ (KeyedIds.addPairs {} ps).entries ↔ e ∈ [] ++ ps :=
    KeyedIds.addPairs_spec List.nodup_nil hfunctional
  apply (List.perm_ext_iff_of_nodup (List.Nodup.of_map _ hapart) (List.Nodup.of_map _ hkeys)).2
  intro e
  exact (hentries e).trans (hmem e)

end CompiledAs

namespace Query
variable {q : Query} {t : EntityType} {base : String} {catalog : Catalog} {d : Dataset}
  {pager : Pager}

/-- Nodes by their tags, one on a page. -/
def pagedTags : Query where
  entityType := "node"
  sorts := [{ field := "tags" }]
  pager := some { limit := 1 }

end Query
end EntitySelect
