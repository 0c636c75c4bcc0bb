import EntitySelect.Proofs.Dataset.Order
import EntitySelect.Proofs.Decimal.Rounding

/-! Where the order of values is not transitive. Whole numbers below `2 ^ 63` compare exactly with
each other and as doubles with all other numbers, so a third number may be equal to two that
differ. -/
namespace EntitySelect

namespace Number

theorem order_whole {v w : Word} (hv : v.value < 0x8000000000000000)
    (hw : w.value < 0x8000000000000000) :
    (whole v).order (whole w) = compare v.value w.value :=
  if_pos ⟨hv, hw⟩

/-- A pair with a number that does not compare exactly is compared as doubles. -/
theorem order_of_not_isExact {m n : Number}
    (h : (Json.number m).isExact = false ∨ (Json.number n).isExact = false) :
    m.order n = compare m.key n.key := by
  cases m with
  | double d => cases n <;> rfl
  | whole v =>
    cases n with
    | double d => rfl
    | whole w =>
      simp only [Json.isExact, decide_eq_false_iff_not] at h
      exact if_neg (not_and_or.2 h)

theorem key_mono {v w : Word} (h : v.value ≤ w.value) : (whole v).key ≤ (whole w).key := by
  rw [key_whole, key_whole]
  exact Double.signedRank_mono h

/-- Rounding does not turn an order around. -/
theorem key_le_of_isLE {m n : Number} (h : (m.order n).isLE) : m.key ≤ n.key := by
  by_cases hexact : (Json.number m).isExact = false ∨ (Json.number n).isExact = false
  · rw [order_of_not_isExact hexact] at h
    exact Int.isLE_compare.1 h
  · rw [not_or, Bool.not_eq_false, Bool.not_eq_false] at hexact
    obtain ⟨hm, hn⟩ := hexact
    cases m with
    | double _ => cases hm
    | whole v =>
      cases n with
      | double _ => cases hn
      | whole w =>
        rw [order_whole (of_decide_eq_true hm) (of_decide_eq_true hn)] at h
        exact key_mono (Int.isLE_compare.1 h)

end Number

namespace Json

/-- Of two whole numbers that compare exactly the greater comes first, and between them stands a
number that compares with each of them as a double and has the same one. -/
def Blurs : (a b c : Json) → Prop
  | .number (.whole v), .number n, .number (.whole w) =>
    w.value < v.value ∧ v.value < 0x8000000000000000 ∧ (number n).isExact = false ∧
      (Number.whole v).key = n.key ∧ n.key = (Number.whole w).key
  | _, _, _ => False

theorem kind_le_of_isLE {a b : Json} (h : (a.order b).isLE) : a.kind ≤ b.kind := by
  by_cases hkind : a.kind = b.kind
  · exact hkind.le
  · rw [order_of_kind_ne hkind] at h
    exact Nat.isLE_compare.1 h

/-- Numbers compare inconsistently only where one of them blurs the others. -/
theorem blurs_of_numbers {m n o : Number} (hmn : (m.order n).isLE) (hno : (n.order o).isLE)
    (hmo : m.order o = .gt) : Blurs (.number m) (.number n) (.number o) := by
  have hmn' := Number.key_le_of_isLE hmn
  have hno' := Number.key_le_of_isLE hno
  by_cases hexact : (number m).isExact = false ∨ (number o).isExact = false
  · rw [Number.order_of_not_isExact hexact, Int.compare_eq_gt] at hmo
    omega
  · rw [not_or, Bool.not_eq_false, Bool.not_eq_false] at hexact
    obtain ⟨hm, ho⟩ := hexact
    cases m with
    | double _ => cases hm
    | whole v =>
      cases o with
      | double _ => cases ho
      | whole w =>
        have hgt : w.value < v.value := by
          rw [Number.order_whole (of_decide_eq_true hm) (of_decide_eq_true ho)] at hmo
          exact Int.compare_eq_gt.1 hmo
        have hwv := Number.key_mono hgt.le
        refine ⟨hgt, of_decide_eq_true hm, ?_, by omega, by omega⟩
        by_contra hn
        have hconsistent := consistent_of_isExact (p := (·.isExact = true)) (fun _ h => h)
          (.number (.whole v)) (.number n) (.number (.whole w)) hm (Bool.eq_true_of_not_eq_false hn)
          ho hmn hno
        rw [order, hmo] at hconsistent
        cases hconsistent

theorem exists_number {a : Json} (h : a.kind = 2) : ∃ n, a = .number n := by
  cases a with
  | number n => exact ⟨n, rfl⟩
  | _ => cases h

theorem isExact_of_kind_ne {a : Json} (h : a.kind ≠ 2) : a.isExact = true := by
  cases a with
  | number n => exact absurd rfl h
  | _ => rfl

/-- Values compare inconsistently only where one of them blurs the others. -/
theorem blurs_of_order {a b c : Json} (hab : (a.order b).isLE) (hbc : (b.order c).isLE)
    (hac : a.order c = .gt) : Blurs a b c := by
  have hkab := kind_le_of_isLE hab
  have hkbc := kind_le_of_isLE hbc
  have hkca := kind_le_of_isLE (isLE_of_gt hac)
  by_cases hnumber : a.kind = 2
  · obtain ⟨m, rfl⟩ := exists_number hnumber
    obtain ⟨n, rfl⟩ := exists_number (a := b) (by omega)
    obtain ⟨o, rfl⟩ := exists_number (a := c) (by omega)
    exact blurs_of_numbers hab hbc hac
  · have hconsistent := consistent_of_isExact (p := (·.isExact = true)) (fun _ h => h) a b c
      (isExact_of_kind_ne hnumber) (isExact_of_kind_ne (by omega)) (isExact_of_kind_ne (by omega))
      hab hbc
    rw [hac] at hconsistent
    cases hconsistent

theorem Blurs.order {a b c : Json} (h : Blurs a b c) :
    a.order b = .eq ∧ b.order c = .eq ∧ a.order c = .gt := by
  match a, b, c, h with
  | .number (.whole v), .number n, .number (.whole w), ⟨hgt, hv, hn, hvn, hnw⟩ =>
    refine ⟨?_, ?_, ?_⟩
    · exact (Number.order_of_not_isExact (.inr hn)).trans (Int.compare_eq_eq.2 hvn)
    · exact (Number.order_of_not_isExact (.inl hn)).trans (Int.compare_eq_eq.2 hnw)
    · exact (Number.order_whole hv (hgt.trans hv)).trans (Int.compare_eq_gt.2 hgt)

/-- The order is total, and it is transitive but where a number blurs two others. -/
theorem order_trans_iff (a b c : Json) :
    b.order a = (a.order b).swap ∧ a.order a = .eq ∧
      ((a.order b).isLE ∧ (b.order c).isLE ∧ a.order c = .gt ↔ Blurs a b c) := by
  refine ⟨(order_swap a b).symm, order_self a, fun h => blurs_of_order h.1 h.2.1 h.2.2, fun h => ?_⟩
  obtain ⟨hab, hbc, hac⟩ := h.order
  rw [hab, hbc]
  exact ⟨rfl, rfl, hac⟩

/-- The double `2 ^ 53` is equal to two whole numbers, the greater of which comes first. -/
theorem exists_order_not_trans :
    ¬ ∀ a b c : Json, b.order a = (a.order b).swap ∧ a.order a = .eq ∧
      ((a.order b).isLE → (b.order c).isLE → (a.order c).isLE) := by
  intro h
  let a : Json := .number (.whole ⟨2 ^ 53 + 1, by decide, by decide⟩)
  let b : Json := .number (.double ⟨false, 1076 <<< 52, by decide⟩)
  let c : Json := .number (.whole ⟨2 ^ 53, by decide, by decide⟩)
  have hfails : ¬ ((a.order b).isLE → (b.order c).isLE → (a.order c).isLE) := by decide +kernel
  exact hfails (h a b c).2.2

end Json
end EntitySelect
