import EntitySelect.Dataset.Order
import Mathlib.Data.Nat.Log
import Mathlib.Tactic.Positivity
import Mathlib.Tactic.Ring

/-! Rounding to doubles keeps the order of numbers. It may make different numbers equal. -/
namespace EntitySelect
namespace Double
variable {num num' den : Nat}

theorem roundDiv_mul (q : Nat) (hden : 0 < den) : roundDiv (q * den) den = q := by
  simp [roundDiv, Nat.mul_div_cancel q hden, hden]

theorem roundDiv_mul_mul (num den : Nat) {k : Nat} (hk : 0 < k) :
    roundDiv (num * k) (den * k) = roundDiv num den := by
  have hquotient : num * k / (den * k) = num / den := Nat.mul_div_mul_right _ _ hk
  have hrest : 2 * (num * k % (den * k)) = 2 * (num % den) * k := by
    rw [Nat.mul_mod_mul_right, Nat.mul_assoc]
  simp only [roundDiv, hquotient, hrest, Nat.mul_lt_mul_right hk]

theorem roundDiv_mono (h : num ≤ num') : roundDiv num den ≤ roundDiv num' den := by
  have hquotient : num / den ≤ num' / den := Nat.div_le_div_right h
  rcases Nat.eq_or_lt_of_le hquotient with heq | hlt
  · have hrest : num % den ≤ num' % den := by
      have hnum := Nat.div_add_mod num den
      have hnum' := Nat.div_add_mod num' den
      rw [heq] at hnum
      omega
    simp only [roundDiv, heq]
    split_ifs <;> omega
  · calc
      roundDiv num den ≤ num / den + 1 := by
        simp only [roundDiv]
        split_ifs <;> omega
      _ ≤ num' / den := hlt
      _ ≤ roundDiv num' den := by
        simp only [roundDiv]
        split_ifs <;> omega

/-- Near `num / den` units the doubles lie two to this power apart. -/
def scaleOf (num den : Nat) : Nat := Nat.log2 (num / den) - 52

theorem nearestRank_eq (num den : Nat) : nearestRank num den =
    scaleOf num den * 2 ^ 52 + roundDiv num (den * 2 ^ scaleOf num den) := by
  simp only [nearestRank, scaleOf, Nat.shiftLeft_eq]

theorem lt_of_scaleOf (hden : 0 < den) : num < 2 ^ 53 * (den * 2 ^ scaleOf num den) := by
  have hlog : num / den < 2 ^ (scaleOf num den + 53) := by
    refine Nat.lt_of_lt_of_le Nat.lt_log2_self (Nat.pow_le_pow_right (by decide) ?_)
    rw [scaleOf]
    omega
  calc
    num < 2 ^ (scaleOf num den + 53) * den := (Nat.div_lt_iff_lt_mul hden).1 hlog
    _ = _ := by ring

theorem le_of_scaleOf_pos (hden : 0 < den) (h : 0 < scaleOf num den) :
    2 ^ 52 * (den * 2 ^ scaleOf num den) ≤ num := by
  have hlog : Nat.log2 (num / den) = scaleOf num den + 52 := by
    rw [scaleOf] at h ⊢
    omega
  have hquotient : num / den ≠ 0 := by
    intro hzero
    rw [hzero] at hlog
    simp at hlog
  calc
    2 ^ 52 * (den * 2 ^ scaleOf num den) = 2 ^ Nat.log2 (num / den) * den := by
      rw [hlog]
      ring
    _ ≤ num := (Nat.le_div_iff_mul_le hden).1 (Nat.log2_self_le hquotient)

theorem scaleOf_mono (den : Nat) (h : num ≤ num') : scaleOf num den ≤ scaleOf num' den := by
  have hlog : Nat.log2 (num / den) ≤ Nat.log2 (num' / den) := by
    simp only [Nat.log2_eq_log_two]
    exact Nat.log_mono_right (Nat.div_le_div_right h)
  exact Nat.sub_le_sub_right hlog 52

/-- The greater of two numbers is not rounded to the lesser rank. -/
theorem nearestRank_mono (hden : 0 < den) (h : num ≤ num') :
    nearestRank num den ≤ nearestRank num' den := by
  rw [nearestRank_eq, nearestRank_eq]
  rcases Nat.eq_or_lt_of_le (scaleOf_mono den h) with heq | hlt
  · rw [heq]
    exact Nat.add_le_add_left (roundDiv_mono h) _
  · -- rounding up ends at the first double of the next scale at the latest
    have hstep : 0 < den * 2 ^ scaleOf num den := by positivity
    have hstep' : 0 < den * 2 ^ scaleOf num' den := by positivity
    have hupper : roundDiv num (den * 2 ^ scaleOf num den) ≤ 2 ^ 53 := by
      rw [← roundDiv_mul (2 ^ 53) hstep]
      exact roundDiv_mono (lt_of_scaleOf hden).le
    have hlower : 2 ^ 52 ≤ roundDiv num' (den * 2 ^ scaleOf num' den) := by
      rw [← roundDiv_mul (2 ^ 52) hstep']
      exact roundDiv_mono (le_of_scaleOf_pos hden (by omega))
    omega

/-- A number of `53 + k` digits is rounded to a multiple of `2 ^ k`. -/
theorem nearestRank_of_le {n k : Nat} (hlow : 2 ^ (52 + k) ≤ n) (hhigh : n < 2 ^ (53 + k)) :
    nearestRank n 1 = k * 2 ^ 52 + roundDiv n (2 ^ k) := by
  have hpos := Nat.two_pow_pos (52 + k)
  have hlog : Nat.log2 n = 52 + k := by
    rw [Nat.log2_eq_iff (by omega), Nat.add_right_comm]
    exact ⟨hlow, hhigh⟩
  have hscale : scaleOf n 1 = k := by
    rw [scaleOf, Nat.div_one, hlog, Nat.add_sub_cancel_left]
  rw [nearestRank_eq, hscale, Nat.one_mul]

/-- A number of 53 digits before its zeros is a double. -/
theorem nearestRank_scaled {q k : Nat} (hlow : 2 ^ 52 ≤ q) (hhigh : q < 2 ^ 53) :
    nearestRank (q * 2 ^ k) 1 = k * 2 ^ 52 + q := by
  have hlow' : 2 ^ (52 + k) ≤ q * 2 ^ k := by
    rw [Nat.pow_add]
    exact Nat.mul_le_mul_right _ hlow
  have hhigh' : q * 2 ^ k < 2 ^ (53 + k) := by
    rw [Nat.pow_add]
    exact Nat.mul_lt_mul_of_pos_right hhigh (by positivity)
  rw [nearestRank_of_le hlow' hhigh', roundDiv_mul q (by positivity)]

/-- One is a power of two, kept closed off: it is too large to be computed with. -/
theorem exists_one : ∃ e, one = 2 ^ e ∧ e = 1074 := by
  have hshift (e : Nat) : 1 <<< e = 2 ^ e := Nat.one_shiftLeft e
  exact ⟨_, hshift _, rfl⟩

/-- The rank nearest to a whole number, with its sign. -/
def signedRank (n : Int) : Int :=
  if n < 0 then -(nearestRank (n.natAbs * one) 1 : Int) else nearestRank (n.natAbs * one) 1

theorem signedRank_mono {m n : Int} (h : m ≤ n) : signedRank m ≤ signedRank n := by
  have hmono {a b : Nat} (hab : a ≤ b) : nearestRank (a * one) 1 ≤ nearestRank (b * one) 1 :=
    nearestRank_mono (by decide) (Nat.mul_le_mul_right _ hab)
  rw [signedRank, signedRank]
  split_ifs with hm hn
  · have := hmono (show n.natAbs ≤ m.natAbs by omega)
    omega
  · omega
  · omega
  · have := hmono (show m.natAbs ≤ n.natAbs by omega)
    omega

end Double

/-- Every whole number of 64 bits has a nearest double. -/
theorem Number.key_whole (w : Word) : (Number.whole w).key = Double.signedRank w.value := by
  have hlower := w.lower
  have hupper := w.upper
  have hfinite : Double.nearestRank (w.value.natAbs * Double.one) 1 < 2047 <<< 52 :=
    calc
      _ ≤ Double.nearestRank (2 ^ 64 * Double.one) 1 :=
        Double.nearestRank_mono (by decide) (Nat.mul_le_mul_right _ (by omega))
      _ < 2047 <<< 52 := by decide +kernel
  rw [Number.key, Double.ofInt?, Double.nearest?, dif_pos hfinite]
  simp only [Option.map_some, Option.getD_some, Double.key, Double.signedRank, decide_eq_true_eq]

end EntitySelect
