import EntitySelect.Query.KeyedIds
import EntitySelect.Query.Pager
import Mathlib.Data.List.Nodup

/-! The pages of a list. Every element is on one page before the last, and on no other. -/
namespace EntitySelect

namespace Pager
variable {pager : Pager}

theorem toNat_limit_pos (h : pager.isActive = true) : 0 < pager.limit.toNat := by
  have hpos : (0 : UInt64) < pager.limit := by simpa [isActive] using h
  exact UInt64.lt_iff_toNat_lt.1 hpos

/-- Behind the largest word there is nothing left of a list. -/
theorem drop_saturatingMul {l : List α} (hsize : l.length < UInt64.size) (a b : UInt64) :
    l.drop (saturatingMul a b).toNat = l.drop (a.toNat * b.toNat) := by
  rw [toNat_saturatingMul]
  by_cases hfits : a.toNat * b.toNat ≤ UInt64.size - 1
  · rw [Nat.min_eq_left hfits]
  · rw [List.drop_eq_nil_of_le (by omega), List.drop_eq_nil_of_le (by omega)]

theorem totalPages_state (h : pager.isActive = true) (p : UInt64) (total : Nat) :
    ({ pager with page := p }.state total).totalPages =
      (total + pager.limit.toNat - 1) / pager.limit.toNat := if_pos h

/-- The pages before page `p` hold all of a list exactly if nothing of it is left. -/
theorem totalPages_le_iff (h : pager.isActive = true) (p total : Nat) :
    (total + pager.limit.toNat - 1) / pager.limit.toNat ≤ p ↔
      total ≤ p * pager.limit.toNat := by
  have hpos := toNat_limit_pos h
  rw [← Nat.lt_succ_iff, Nat.div_lt_iff_lt_mul hpos, Nat.succ_mul]
  omega

theorem isBeyondLast_iff (h : pager.isActive = true) (p : UInt64) (total : Nat) :
    ({ pager with page := p }.state total).isBeyondLast = true ↔
      0 < p ∧ total ≤ p.toNat * pager.limit.toNat := by
  rw [PageState.isBeyondLast, totalPages_state h, Bool.and_eq_true, decide_eq_true_iff,
    decide_eq_true_iff]
  exact and_congr_right' (totalPages_le_iff h p.toNat total)

end Pager
end EntitySelect
