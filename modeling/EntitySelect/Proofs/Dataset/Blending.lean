import EntitySelect.Proofs.Dataset.Comparing
import EntitySelect.Proofs.Dataset.Transitivity
import EntitySelect.Query.KeyedIds

/-! Which whole numbers are told apart. Below `2 ^ 63` all are. From there on doubles are compared,
which lie `2 ^ 11` apart, so whole numbers with the same nearest multiple of it compare as equal. -/
namespace EntitySelect
namespace Double

/-- Whole numbers are rounded to multiples of a power of two that depends on their digits only. -/
theorem nearestRank_whole {n k : Nat} (hlow : 2 ^ (52 + k) ≤ n) (hhigh : n < 2 ^ (53 + k)) :
    nearestRank (n * one) 1 = (1074 + k) * 2 ^ 52 + roundDiv n (2 ^ k) := by
  obtain ⟨e, hone, he⟩ := exists_one
  have hlow' : 2 ^ (52 + (e + k)) ≤ n * 2 ^ e := by
    rw [Nat.add_left_comm, Nat.pow_add, Nat.mul_comm]
    exact Nat.mul_le_mul_right _ hlow
  have hhigh' : n * 2 ^ e < 2 ^ (53 + (e + k)) := by
    rw [Nat.add_left_comm, Nat.pow_add, Nat.mul_comm]
    exact Nat.mul_lt_mul_of_pos_left hhigh (Nat.two_pow_pos e)
  rw [hone, nearestRank_of_le hlow' hhigh', Nat.add_comm e k, Nat.pow_add,
    roundDiv_mul_mul _ _ (Nat.two_pow_pos e), ← he, Nat.add_comm k e]

/-- From `2 ^ 63` on, and a little below it, ranks count multiples of `2 ^ 11`. -/
theorem signedRank_of_le {n : Int} (hlow : 2 ^ 63 - 512 ≤ n) (hhigh : n < 2 ^ 64) :
    signedRank n = 1085 * 2 ^ 52 + roundDiv n.toNat (2 ^ 11) := by
  by_cases hlarge : 2 ^ 63 ≤ n
  · have hrank := nearestRank_whole (n := n.toNat) (k := 11) (by omega) (by omega)
    have habs : n.natAbs = n.toNat := by omega
    rw [signedRank, if_neg (by omega), habs, hrank]
    rfl
  · have hround : roundDiv n.toNat (2 ^ 11) = 2 ^ 52 := by
      simp only [roundDiv]
      split_ifs <;> omega
    have hlower : signedRank (2 ^ 63 - 512) = 1085 * 2 ^ 52 + (2 ^ 52 : Nat) := by decide +kernel
    have hupper : signedRank (2 ^ 63) = 1085 * 2 ^ 52 + (2 ^ 52 : Nat) := by decide +kernel
    have hleft := signedRank_mono hlow
    have hright := signedRank_mono (show n ≤ 2 ^ 63 by omega)
    rw [hround]
    omega

/-- Whole numbers further below `2 ^ 63` have lesser doubles. -/
theorem signedRank_lt_of_lt {m n : Int} (hm : m < 2 ^ 63 - 512) (hn : 2 ^ 63 ≤ n) :
    signedRank m < signedRank n :=
  calc
    signedRank m ≤ signedRank (2 ^ 63 - 513) := signedRank_mono (by omega)
    _ < signedRank (2 ^ 63) := by decide +kernel
    _ ≤ signedRank n := signedRank_mono hn

end Double

namespace Word

/-- A whole number as a value. -/
abbrev toJson (w : Word) : Json := .number (.whole w)

/-- Two whole numbers that differ and compare as equal: at least one is `2 ^ 63` or more, and they
have the same nearest multiple of `2 ^ 11`, of two as near the even one. -/
def Blends (v w : Word) : Prop :=
  v.value ≠ w.value ∧ (2 ^ 63 ≤ v.value ∨ 2 ^ 63 ≤ w.value) ∧
    2 ^ 63 - 512 ≤ v.value ∧ 2 ^ 63 - 512 ≤ w.value ∧
    Double.roundDiv v.value.toNat (2 ^ 11) = Double.roundDiv w.value.toNat (2 ^ 11)

instance (v w : Word) : Decidable (v.Blends w) := inferInstanceAs (Decidable (_ ∧ _))

/-- The whole number that `w` counts as when it is compared with `v`. -/
def against (v w : Word) : Int := if v.Blends w then v.value else w.value

theorem key_eq_iff {v w : Word} (hlarge : 2 ^ 63 ≤ v.value ∨ 2 ^ 63 ≤ w.value) :
    (Number.whole v).key = (Number.whole w).key ↔ v.value = w.value ∨ v.Blends w := by
  have hv := v.upper
  have hw := w.upper
  rw [Number.key_whole, Number.key_whole, Blends]
  by_cases hnear : 2 ^ 63 - 512 ≤ v.value ∧ 2 ^ 63 - 512 ≤ w.value
  · rw [Double.signedRank_of_le hnear.1 (by omega), Double.signedRank_of_le hnear.2 (by omega)]
    constructor
    · intro hrank
      by_cases heq : v.value = w.value
      · exact .inl heq
      · exact .inr ⟨heq, hlarge, hnear.1, hnear.2, by omega⟩
    · rintro (heq | ⟨-, -, -, -, hround⟩)
      · rw [heq]
      · rw [hround]
  · constructor
    · intro hrank
      rcases hlarge with hlarge | hlarge
      · have := Double.signedRank_lt_of_lt (m := w.value) (by omega) hlarge
        omega
      · have := Double.signedRank_lt_of_lt (m := v.value) (by omega) hlarge
        omega
    · rintro (heq | ⟨-, -, hv', hw', -⟩)
      · rw [heq]
      · exact absurd ⟨hv', hw'⟩ hnear

/-- Whole numbers are compared exactly, but for those that blend. -/
theorem order_eq (v w : Word) : v.toJson.order w.toJson = compare v.value (v.against w) := by
  by_cases hlarge : 2 ^ 63 ≤ v.value ∨ 2 ^ 63 ≤ w.value
  · have hkeys : (Json.number (.whole v)).isExact = false ∨
        (Json.number (.whole w)).isExact = false := by
      simp only [Json.isExact, decide_eq_false_iff_not]
      omega
    rw [Json.order, Number.order_of_not_isExact hkeys, against]
    split
    · next hblends =>
      rw [(key_eq_iff hlarge).2 (.inr hblends)]
      simp
    · next hblends =>
      have hiff : (Number.whole v).key = (Number.whole w).key ↔ v.value = w.value :=
        (key_eq_iff hlarge).trans (or_iff_left hblends)
      rcases Int.lt_trichotomy v.value w.value with hlt | heq | hgt
      · have hle := Number.key_mono hlt.le
        rw [Int.compare_eq_lt.2 hlt, Int.compare_eq_lt]
        exact lt_of_le_of_ne hle fun h => hlt.ne (hiff.1 h)
      · rw [Int.compare_eq_eq.2 (hiff.2 heq), Int.compare_eq_eq.2 heq]
      · have hle := Number.key_mono hgt.le
        rw [Int.compare_eq_gt.2 hgt, Int.compare_eq_gt]
        exact lt_of_le_of_ne hle fun h => hgt.ne (hiff.1 h.symm).symm
  · have hblends : ¬ v.Blends w := fun h => hlarge h.2.1
    rw [against, if_neg hblends]
    exact Number.order_whole (by omega) (by omega)

theorem comparable (v w : Word) : v.toJson.Comparable w.toJson := trivial

theorem order?_eq (v w : Word) :
    v.toJson.order? w.toJson = some (compare v.value (v.against w)) :=
  congrArg some (order_eq v w)

theorem equals_iff {v w : Word} : v.toJson.equals w.toJson = true ↔ v.value = v.against w := by
  rw [Json.equals, order?_eq, beq_iff_eq, Option.some_inj, Int.compare_eq_eq]

/-- The comparisons of a statement mean what their signs say of the whole number `v`, if the numbers
that it is compared with count as `read` says. -/
structure Decides (v : Word) (read : Word → Int) : Prop where
  equal : ∀ w, Comparison.equal.holds v.toJson w.toJson = true ↔ v.value = read w
  notEqual : ∀ w, Comparison.notEqual.holds v.toJson w.toJson = true ↔ v.value ≠ read w
  greater : ∀ w, Comparison.greater.holds v.toJson w.toJson = true ↔ v.value > read w
  atLeast : ∀ w, Comparison.atLeast.holds v.toJson w.toJson = true ↔ v.value ≥ read w
  less : ∀ w, Comparison.less.holds v.toJson w.toJson = true ↔ v.value < read w
  atMost : ∀ w, Comparison.atMost.holds v.toJson w.toJson = true ↔ v.value ≤ read w
  oneOf : ∀ ws : List Word,
    Comparison.oneOf.holds v.toJson (.array (ws.map toJson)) = true ↔ v.value ∈ ws.map read
  noneOf : ∀ ws : List Word,
    Comparison.noneOf.holds v.toJson (.array (ws.map toJson)) = true ↔ v.value ∉ ws.map read
  between : ∀ low high : Word,
    Comparison.between.holds v.toJson (.array [low.toJson, high.toJson]) = true ↔
      read low ≤ v.value ∧ v.value ≤ read high

theorem decides_against (v : Word) : v.Decides v.against := by
  have hequal (w : Word) : Comparison.equal.holds v.toJson w.toJson = true ↔
      v.value = v.against w := equals_iff
  have hnotEqual (w : Word) : Comparison.notEqual.holds v.toJson w.toJson = true ↔
      v.value ≠ v.against w :=
    (Comparison.notEqual_holds_iff_not (comparable v w)).trans (not_congr (hequal w))
  have hless (w : Word) : Comparison.less.holds v.toJson w.toJson = true ↔
      v.value < v.against w := by
    rw [Comparison.holds, order?_eq, Option.any_some, beq_iff_eq, Int.compare_eq_lt]
  have hgreater (w : Word) : Comparison.greater.holds v.toJson w.toJson = true ↔
      v.value > v.against w := by
    rw [Comparison.holds, order?_eq, Option.any_some, beq_iff_eq, Int.compare_eq_gt]
  have hatLeast (w : Word) : Comparison.atLeast.holds v.toJson w.toJson = true ↔
      v.value ≥ v.against w := by
    rw [Comparison.holds, order?_eq, Option.any_some, bne_iff_ne, Ne, Int.compare_eq_lt, not_lt]
  have hatMost (w : Word) : Comparison.atMost.holds v.toJson w.toJson = true ↔
      v.value ≤ v.against w := by
    rw [Comparison.holds, order?_eq, Option.any_some, bne_iff_ne, Ne, Int.compare_eq_gt, not_lt]
  refine ⟨hequal, hnotEqual, hgreater, hatLeast, hless, hatMost, fun ws => ?_, fun ws => ?_,
    fun low high => ?_⟩
  · rw [Comparison.oneOf_holds_iff]
    simp only [List.mem_map, exists_exists_and_eq_and, hequal, eq_comm (a := v.value)]
  · rw [Comparison.noneOf_holds_iff, List.forall_mem_map]
    simp only [hnotEqual, List.mem_map, not_exists, not_and, eq_comm (a := v.value), ne_eq]
    constructor
    · exact fun h w hw => h.2.2 w hw (comparable v w)
    · exact fun h => ⟨Json.noConfusion, by simp, fun w hw _ => h w hw⟩
  · rw [Comparison.between_holds_iff, hatLeast, hatMost]

end Word

/-- Two ids that compare as equal are one, unless they blend. -/
theorem Json.ids_of_equals {v w : Json} {m n : UInt64} (hv : v.id? = some m) (hw : w.id? = some n)
    (h : v.equals w = true) : m = n ∨ (Word.ofUInt64 m).Blends (.ofUInt64 n) := by
  obtain ⟨hcomparable, horder⟩ := Comparison.equal_holds_iff.1 h
  cases v with
  | number v =>
    cases w with
    | number w =>
      cases v with
      | double _ => cases hv
      | whole v =>
        cases w with
        | double _ => cases hw
        | whole w =>
          obtain rfl := Word.eq_ofUInt64 hv
          obtain rfl := Word.eq_ofUInt64 hw
          have hequals := Word.equals_iff.1 h
          rw [Word.against] at hequals
          split at hequals
          · next hblends => exact .inr hblends
          · rw [Word.value_ofUInt64, Word.value_ofUInt64] at hequals
            exact .inl (UInt64.toNat_inj.1 (by omega))
    | _ => exact hcomparable.elim
  | string v =>
    cases w with
    | string w =>
      have hcompare : compare v w = .eq := horder
      obtain rfl := Std.LawfulEqCmp.eq_of_compare hcompare
      exact .inl (Option.some_inj.1 (hv.symm.trans hw))
    | _ => exact hcomparable.elim
  | _ => cases hv

end EntitySelect
