import EntitySelect.Proofs.Query.Paging
import Mathlib.Algebra.Group.Nat.Defs
import Mathlib.Order.Bounds.Basic
import Mathlib.Order.CompletePartialOrder
import Mathlib.Order.Interval.Set.Disjoint

/-! The numbers of a page, up to the largest word. The product behind a window may saturate and the
number of pages is rounded up, yet both say what the same sums without any bound would say. -/
namespace EntitySelect

/-- The places in a list that a window covers. -/
def Window.places (w : Window) : Set Nat := Set.Ico w.start.toNat (w.start.toNat + w.length.toNat)

namespace Pager
variable {p : Pager} {total : UInt64}

/-- Division of words that rounds up: one more than the quotient, if something is left over. -/
def divCeil (a b : UInt64) : UInt64 := if a % b = 0 then a / b else a / b + 1

/-- The sum does not wrap round: where something is left over, the divisor is at least two. -/
theorem toNat_divCeil {a b : UInt64} (h : 0 < b.toNat) :
    (divCeil a b).toNat = (a.toNat + b.toNat - 1) / b.toNat := by
  have hsum := Nat.div_add_mod' a.toNat b.toNat
  have hmod := Nat.mod_lt a.toNat h
  unfold divCeil
  split
  · next hzero =>
    have hzero : a.toNat % b.toNat = 0 := congrArg UInt64.toNat hzero
    rw [UInt64.toNat_div]
    refine (Nat.div_eq_of_lt_le ?_ ?_).symm
    · omega
    · rw [Nat.succ_mul]
      omega
  · next hrest =>
    have hrest : 0 < a.toNat % b.toNat := by
      rw [Nat.pos_iff_ne_zero, ← UInt64.toNat_mod]
      exact fun hzero => hrest (UInt64.toNat_inj.1 hzero)
    have hhalf : a.toNat / b.toNat ≤ a.toNat / 2 := Nat.div_le_div_left (by omega) (by omega)
    have hroom : a.toNat / b.toNat + 1 < 2 ^ 64 := by
      have := a.toNat_lt
      omega
    rw [UInt64.toNat_add, UInt64.toNat_div, UInt64.toNat_one, Nat.mod_eq_of_lt hroom]
    refine (Nat.div_eq_of_lt_le ?_ ?_).symm
    · rw [Nat.succ_mul]
      omega
    · rw [Nat.succ_mul, Nat.succ_mul]
      omega

/-- What a page comes to if there are `total` rows, in numbers without a bound. -/
structure Exact (p : Pager) (total : UInt64) : Prop where
  pages : IsLeast {k : Nat | total.toNat ≤ k * p.limit.toNat} (p.state total.toNat).totalPages
  /-- The number of pages is a word, and can be computed in words. -/
  words : (divCeil total p.limit).toNat = (p.state total.toNat).totalPages
  window : ∃ start : UInt64, p.window? = some ⟨start, p.limit⟩ ∧
    start.toNat = min (p.page.toNat * p.limit.toNat) (2 ^ 64 - 1)
  beyond : (p.state total.toNat).isBeyondLast = true ↔
    0 < p.page ∧ total.toNat ≤ p.page.toNat * p.limit.toNat
  behind : (p.state total.toNat).isBeyondLast = true ↔
    0 < p.page ∧ ∃ w ∈ p.window?, total ≤ w.start
  /-- The window of the next page starts where that of this page ends. -/
  adjacent : ∀ next : UInt64, next.toNat = p.page.toNat + 1 →
    next.toNat * p.limit.toNat ≤ 2 ^ 64 - 1 →
    ∃ w ∈ p.window?, ∃ w' ∈ { p with page := next }.window?,
      w'.start.toNat = w.start.toNat + w.length.toNat ∧ Disjoint w.places w'.places
  /-- On lists that a word can count, that holds of every page: two of them show what one of twice
  the length would. -/
  shown : ∀ next : UInt64, next.toNat = p.page.toNat + 1 →
    ∃ w ∈ p.window?, ∃ w' ∈ { p with page := next }.window?,
      ∀ {α : Type} (rows : List α), rows.length < 2 ^ 64 →
        w.show rows ++ w'.show rows = (rows.drop w.start.toNat).take (2 * p.limit.toNat)

theorem window?_eq (h : p.isActive = true) :
    p.window? = some ⟨saturatingMul p.page p.limit, p.limit⟩ := if_pos h

/-- A start that saturates lies behind every word that the product lies behind. -/
theorem le_saturatingMul_iff {a b : UInt64} :
    total ≤ saturatingMul a b ↔ total.toNat ≤ a.toNat * b.toNat := by
  have hword : total.toNat ≤ UInt64.size - 1 := Nat.le_pred_of_lt total.toNat_lt
  rw [UInt64.le_iff_toNat_le, toNat_saturatingMul, le_min_iff]
  exact and_iff_left hword

theorem exact_of_isActive (h : p.isActive = true) (total : UInt64) : p.Exact total where
  pages := by
    rw [totalPages_state h p.page]
    exact ⟨(totalPages_le_iff h _ _).1 le_rfl, fun k hk => (totalPages_le_iff h k _).2 hk⟩
  words := by
    rw [totalPages_state h p.page]
    exact toNat_divCeil (toNat_limit_pos h)
  window := ⟨_, window?_eq h, toNat_saturatingMul p.page p.limit⟩
  beyond := isBeyondLast_iff h p.page total.toNat
  behind := by
    rw [window?_eq h]
    simpa [le_saturatingMul_iff] using isBeyondLast_iff h p.page total.toNat
  adjacent next hnext hfits := by
    refine ⟨_, window?_eq h, _, window?_eq (p := { p with page := next }) h, ?_⟩
    have hstep : next.toNat * p.limit.toNat = p.page.toNat * p.limit.toNat + p.limit.toNat := by
      rw [hnext, Nat.succ_mul]
    have hstart : (saturatingMul next p.limit).toNat =
        (saturatingMul p.page p.limit).toNat + p.limit.toNat := by
      have hfits : next.toNat * p.limit.toNat ≤ UInt64.size - 1 := hfits
      have hfits' : p.page.toNat * p.limit.toNat ≤ UInt64.size - 1 := by omega
      rw [toNat_saturatingMul, toNat_saturatingMul, Nat.min_eq_left hfits,
        Nat.min_eq_left hfits', hstep]
    refine ⟨hstart, ?_⟩
    rw [Window.places, Window.places, ← hstart]
    exact Set.Ico_disjoint_Ico_same
  shown next hnext := by
    refine ⟨_, window?_eq h, _, window?_eq (p := { p with page := next }) h, fun rows hrows => ?_⟩
    rw [Window.show, Window.show, drop_saturatingMul hrows, drop_saturatingMul hrows, hnext,
      Nat.succ_mul, Nat.two_mul, List.take_add, List.drop_drop]

/-- A pager without a limit is off. All others count exactly. -/
theorem exact_or_off (p : Pager) (total : UInt64) :
    (0 < p.limit → p.Exact total) ∧
      (p.limit = 0 → p.window? = none ∧ (p.state total.toNat).totalPages = 0) := by
  constructor
  · intro h
    exact exact_of_isActive (decide_eq_true h) total
  · intro h
    have hoff : p.isActive = false := by rw [isActive, h]; rfl
    simp [window?, state, hoff]

/-- With pages of `2 ^ 63 - 1` rows, the window of page two starts at `2 ^ 64 - 2` and that of page
three saturates. -/
theorem exact_or_off_saturated :
    let p : Pager := { limit := 0x7fffffffffffffff, page := 2 }
    let off : Pager := { limit := 0, page := 2 }
    let total : UInt64 := 0xffffffffffffffff
    0 < p.limit ∧ p.Exact total ∧ p.window? = some ⟨0xfffffffffffffffe, 0x7fffffffffffffff⟩ ∧
      (p.state total.toNat).totalPages = 3 ∧ (p.state total.toNat).isBeyondLast = false ∧
      { p with page := 3 }.window? = some ⟨0xffffffffffffffff, 0x7fffffffffffffff⟩ ∧
      off.limit = 0 ∧ off.window? = none ∧ (off.state total.toNat).totalPages = 0 := by
  intro p off total
  have hlimit : 0 < p.limit := by decide
  exact ⟨hlimit, (exact_or_off p total).1 hlimit, by decide, by decide, by decide, by decide, rfl,
    (exact_or_off off total).2 rfl⟩

end Pager
end EntitySelect
