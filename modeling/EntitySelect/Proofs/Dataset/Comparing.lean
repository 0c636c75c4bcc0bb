import EntitySelect.Dataset.Filter

/-! Comparisons with lists, told by comparisons with their items. IN and BETWEEN are made of `=`,
and of `>=` and `<=`. NOT IN asks that no item is equal; that is `<>` of all items only where all of
them compare with the value at all. -/
namespace EntitySelect

/-- Truth values, numbers and strings compare with their own kind. Nothing else compares. -/
def Json.Comparable : Json → Json → Prop
  | .bool _, .bool _ | .number _, .number _ | .string _, .string _ => True
  | _, _ => False

theorem Json.order?_eq_some_iff {a b : Json} {o : Ordering} :
    a.order? b = some o ↔ a.Comparable b ∧ a.order b = o := by
  cases a <;> cases b <;> simp [order?, Comparable, order]

/-- Null does not compare. -/
theorem Json.Comparable.ne_null {a b : Json} (h : a.Comparable b) : a ≠ .null ∧ b ≠ .null := by
  constructor
  · rintro rfl
    cases b <;> exact h
  · rintro rfl
    cases a <;> exact h

namespace Comparison
variable {a b : Json} {items : List Json}

theorem any_order?_iff {p : Ordering → Bool} :
    (a.order? b).any p = true ↔ a.Comparable b ∧ p (a.order b) = true := by
  rw [Option.any_eq_true]
  constructor
  · rintro ⟨o, ho, hp⟩
    obtain ⟨hcomparable, rfl⟩ := Json.order?_eq_some_iff.1 ho
    exact ⟨hcomparable, hp⟩
  · rintro ⟨hcomparable, hp⟩
    exact ⟨_, Json.order?_eq_some_iff.2 ⟨hcomparable, rfl⟩, hp⟩

theorem equal_holds_iff : equal.holds a b = true ↔ a.Comparable b ∧ a.order b = .eq := by
  rw [holds, Json.equals, beq_iff_eq, Json.order?_eq_some_iff]

theorem notEqual_holds_iff : notEqual.holds a b = true ↔ a.Comparable b ∧ a.order b ≠ .eq := by
  rw [holds, any_order?_iff, bne_iff_ne]

/-- Where values compare, they are equal or unequal. -/
theorem notEqual_holds_iff_not (h : a.Comparable b) :
    notEqual.holds a b = true ↔ ¬ equal.holds a b = true := by
  rw [notEqual_holds_iff, equal_holds_iff]
  exact ⟨fun hne heq => hne.2 heq.2, fun hne => ⟨h, fun heq => hne ⟨h, heq⟩⟩⟩

theorem oneOf_holds_iff :
    oneOf.holds a (.array items) = true ↔ ∃ x ∈ items, equal.holds a x = true :=
  List.any_eq_true

/-- NOT IN asks nothing of the items that do not compare with the value, null apart. -/
theorem noneOf_holds_iff : noneOf.holds a (.array items) = true ↔
    a ≠ .null ∧ .null ∉ items ∧ ∀ x ∈ items, a.Comparable x → notEqual.holds a x = true := by
  have hitem (x : Json) : ¬ equal.holds a x = true ↔
      (a.Comparable x → notEqual.holds a x = true) := by
    constructor
    · exact fun hne hcomparable => (notEqual_holds_iff_not hcomparable).2 hne
    · intro h heq
      have hcomparable := (equal_holds_iff.1 heq).1
      exact (notEqual_holds_iff_not hcomparable).1 (h hcomparable) heq
  have hnone : (items.any a.equals = false) ↔ ∀ x ∈ items, ¬ equal.holds a x = true :=
    List.any_eq_false
  have hnull : items.any Json.isNull = false ↔ .null ∉ items := by
    simp only [List.any_eq_false, Json.isNull_iff]
    exact ⟨fun h hmem => h _ hmem rfl, fun h x hx heq => h (heq ▸ hx)⟩
  rw [holds, Json.items, Bool.and_eq_true, Bool.and_eq_true, Bool.not_eq_true', Bool.not_eq_true',
    Bool.not_eq_true', hnone, hnull, ← Bool.not_eq_true, Json.isNull_iff, and_assoc]
  simp only [hitem]

theorem between_holds_iff {low high : Json} : between.holds a (.array [low, high]) = true ↔
    atLeast.holds a low = true ∧ atMost.holds a high = true :=
  Bool.and_eq_true_iff

/-- `<>` of all items is NOT IN, and all of them compare with the value. -/
theorem forall_notEqual_holds_iff (hitems : items ≠ []) :
    (∀ x ∈ items, notEqual.holds a x = true) ↔
      noneOf.holds a (.array items) = true ∧ ∀ x ∈ items, a.Comparable x := by
  rw [noneOf_holds_iff]
  constructor
  · intro h
    have hcomparable (x : Json) (hx : x ∈ items) : a.Comparable x :=
      (notEqual_holds_iff.1 (h x hx)).1
    obtain ⟨x, hx⟩ := List.exists_mem_of_ne_nil items hitems
    refine ⟨⟨(hcomparable x hx).ne_null.1, ?_, fun y hy _ => h y hy⟩, hcomparable⟩
    exact fun hnull => (hcomparable _ hnull).ne_null.2 rfl
  · rintro ⟨⟨-, -, h⟩, hcomparable⟩ x hx
    exact h x hx (hcomparable x hx)

/-- Comparisons with lists are made of comparisons with their items, but for NOT IN where it holds
although an item does not compare with the value: then `<>` does not hold of that item. -/
theorem list_holds_iff (a : Json) {items : List Json} (hitems : items ≠ []) (low high : Json) :
    (oneOf.holds a (.array items) = true ↔ ∃ x ∈ items, equal.holds a x = true) ∧
    (noneOf.holds a (.array items) = true ↔
      a ≠ .null ∧ .null ∉ items ∧ ∀ x ∈ items, a.Comparable x → notEqual.holds a x = true) ∧
    ((∀ x ∈ items, notEqual.holds a x = true) ↔
      noneOf.holds a (.array items) = true ∧ ∀ x ∈ items, a.Comparable x) ∧
    (between.holds a (.array [low, high]) = true ↔
      atLeast.holds a low = true ∧ atMost.holds a high = true) :=
  ⟨oneOf_holds_iff, noneOf_holds_iff, forall_notEqual_holds_iff hitems, between_holds_iff⟩

/-- A number that is in the list only as a string. -/
theorem list_holds_iff_mixed : [Json.string "5", .word 4] ≠ [] ∧
    noneOf.holds (.word 5) (.array [.string "5", .word 4]) = true ∧
    ¬ ∀ x ∈ [Json.string "5", .word 4], notEqual.holds (.word 5) x = true := by
  have hitems : [Json.string "5", .word 4] ≠ [] := List.cons_ne_nil _ _
  obtain ⟨-, hnone, hall, -⟩ := list_holds_iff (.word 5) hitems .null .null
  refine ⟨hitems, hnone.2 ⟨nofun, by decide, ?_⟩, fun h => ?_⟩
  · rw [List.forall_mem_cons, List.forall_mem_singleton]
    exact ⟨fun h => h.elim, fun _ => by decide +kernel⟩
  · exact (hall.1 h).2 _ List.mem_cons_self

/-- NOT IN is not `<>` of all items: the item of another kind is not equal, but it does not compare
either. -/
theorem exists_noneOf_not_notEqual : ¬ ∀ (a : Json) (items : List Json), items ≠ [] →
    (noneOf.holds a (.array items) = true ↔ ∀ x ∈ items, notEqual.holds a x = true) := by
  intro h
  have hall := (h (.word 5) [.string "5"] (List.cons_ne_nil _ _)).1 (by decide +kernel)
  exact absurd (hall _ List.mem_cons_self) (by decide +kernel)

end Comparison
end EntitySelect
