import EntitySelect.Select.Basic
import Mathlib.Data.List.Nodup
import Std.Data.String.ToNat

/-! Labels stay apart. A fresh label is none of those taken, so the tables of a statement keep
different labels when one is joined, and so do the entries of its select list. -/
namespace EntitySelect

namespace Label

theorem numbered_injective (base : String) : Function.Injective (numbered base) := by
  intro n m h
  exact Nat.repr_injective ((String.append_right_inj (base ++ "_")).1 h)

/-- The search ends with the least number that makes the name free. Each one before it is of a label
of its own, so there are no more of them than labels. -/
theorem firstFree_least (taken : List String) (base : String) (n : Nat) :
    ∃ m, n ≤ m ∧ m ≤ n + taken.length ∧ firstFree taken base n = numbered base m ∧
      numbered base m ∉ taken ∧ ∀ k, n ≤ k → k < m → numbered base k ∈ taken := by
  fun_induction firstFree taken base n with
  | case1 taken n hmem ih =>
    obtain ⟨m, hm, hbound, heq, hfree, hleast⟩ := ih
    have hlength := List.length_erase_of_mem hmem
    have hpos := List.length_pos_of_mem hmem
    -- the name that was struck out is met no more
    have hne : numbered base m ≠ numbered base n := by
      intro heq
      have := numbered_injective base heq
      omega
    refine ⟨m, by omega, by omega, heq, fun hm => hfree ((List.mem_erase_of_ne hne).2 hm), ?_⟩
    intro k hk hkm
    rcases Nat.eq_or_lt_of_le hk with rfl | hk
    · exact hmem
    · exact List.mem_of_mem_erase (hleast k hk hkm)
  | case2 taken n hfree =>
    exact ⟨n, Nat.le_refl n, Nat.le_add_right n _, rfl, hfree,
      fun k hk hkn => absurd hkn (Nat.not_lt.2 hk)⟩

theorem firstFree_not_mem (taken : List String) (base : String) (n : Nat) :
    firstFree taken base n ∉ taken := by
  obtain ⟨m, -, -, heq, hfree, -⟩ := firstFree_least taken base n
  rwa [heq]

theorem fresh_not_mem (taken : List String) (wanted : String) : fresh taken wanted ∉ taken := by
  unfold fresh
  split
  · exact firstFree_not_mem taken wanted 2
  · assumption

end Label

namespace Select

@[simp] theorem addJoin_joins (s : Select) (kind : JoinKind) (table : String)
    (on : String → List JoinTerm) :
    (s.addJoin kind table on).2.joins = s.joins ++ [⟨kind, table, (s.addJoin kind table on).1,
      on (s.addJoin kind table on).1⟩] := rfl

theorem addJoin_label_not_mem (s : Select) (kind : JoinKind) (table : String)
    (on : String → List JoinTerm) : (s.addJoin kind table on).1 ∉ s.tableLabels :=
  Label.fresh_not_mem s.tableLabels table

theorem addJoin_tableLabels (s : Select) (kind : JoinKind) (table : String)
    (on : String → List JoinTerm) :
    (s.addJoin kind table on).2.tableLabels = s.tableLabels ++ [(s.addJoin kind table on).1] := by
  simp [tableLabels, addJoin]

theorem addJoin_tableLabels_nodup {s : Select} (h : s.tableLabels.Nodup) (kind : JoinKind)
    (table : String) (on : String → List JoinTerm) :
    (s.addJoin kind table on).2.tableLabels.Nodup := by
  rw [addJoin_tableLabels, ← List.concat_eq_append]
  exact h.concat (addJoin_label_not_mem s kind table on)

theorem addField_label_not_mem (s : Select) (c : Column) : (s.addField c).1 ∉ s.selectLabels :=
  Label.fresh_not_mem s.selectLabels _

theorem addField_selectLabels_nodup {s : Select} (h : s.selectLabels.Nodup) (c : Column) :
    (s.addField c).2.selectLabels.Nodup := by
  have hlabels : (s.addField c).2.selectLabels =
      s.fields.map (·.label) ++ (s.addField c).1 :: s.expressions.map (·.label) := by
    simp [selectLabels, addField]
  rw [hlabels, List.nodup_middle]
  exact List.nodup_cons.2 ⟨addField_label_not_mem s c, h⟩

theorem addExpression_selectLabels (s : Select) (function : Aggregate) (argument : Column)
    (wanted : String) : (s.addExpression function argument wanted).2.selectLabels =
      s.selectLabels ++ [(s.addExpression function argument wanted).1] := by
  simp [selectLabels, addExpression]

theorem addExpression_selectLabels_nodup {s : Select} (h : s.selectLabels.Nodup)
    (function : Aggregate) (argument : Column) (wanted : String) :
    (s.addExpression function argument wanted).2.selectLabels.Nodup := by
  rw [addExpression_selectLabels, ← List.concat_eq_append]
  exact h.concat (Label.fresh_not_mem s.selectLabels wanted)

theorem addGroupBy_nodup {s : Select} (h : s.groupBy.Nodup) (label : String) :
    (s.addGroupBy label).groupBy.Nodup := by
  unfold addGroupBy
  split
  · exact h
  · next hnew =>
    rw [← List.concat_eq_append]
    exact h.concat hnew

end Select
end EntitySelect
