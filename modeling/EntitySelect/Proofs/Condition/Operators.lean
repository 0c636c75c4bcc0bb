import EntitySelect.Proofs.Condition.Literal

/-! What the operators of conditions accept, said without the comparisons of statements. The
comparison that an operator asks for holds of just the values that the operator accepts. -/
namespace EntitySelect

/-- The text of a value has a wanted text between some marks. Null has no text, and marks that take
too much room have no place in any text. -/
def Json.hasText (actual wanted : Json) (before after : List Text.Mark) : Bool :=
  match wanted.sought? with
  | some sought =>
    let ms := before ++ (sought.toList.map .literal ++ after)
    !actual.isNull && (Text.fits ms && Text.matchesMarks ms actual.plainText.toList)
  | none => false

theorem Json.order?_null (v : Json) : Json.order? .null v = none := by cases v <;> rfl

/-- Whether a value is accepted by an operator. A wanted value that does not fit the operator accepts
nothing. -/
def Operator.accepts (o : Operator) (wanted actual : Json) : Bool :=
  match o with
  | .equal => (actual.order? wanted).any Ordering.isEq
  | .notEqual => (actual.order? wanted).any Ordering.isNe
  | .greater => (actual.order? wanted).any Ordering.isGT
  | .atLeast => (actual.order? wanted).any Ordering.isGE
  | .less => (actual.order? wanted).any Ordering.isLT
  | .atMost => (actual.order? wanted).any Ordering.isLE
  | .startsWith => actual.hasText wanted [] [.any]
  | .contains => actual.hasText wanted [.any] [.any]
  | .endsWith => actual.hasText wanted [.any] []
  | .oneOf =>
    match wanted with
    | .array items => items.any fun v => (actual.order? v).any Ordering.isEq
    | _ => false
  | .noneOf =>
    match wanted with
    | .array items => !items.isEmpty && (!actual.isNull && !items.any Json.isNull &&
        !items.any fun v => (actual.order? v).any Ordering.isEq)
    | _ => false
  | .between =>
    match wanted with
    | .array [low, high] =>
      (actual.order? low).any Ordering.isGE && (actual.order? high).any Ordering.isLE
    | _ => false
  | .isNull => actual.isNull
  | .isNotNull => !actual.isNull

/-- Only one operator accepts null. -/
theorem Operator.accepts_null {o : Operator} (ho : o ≠ .isNull) (wanted : Json) :
    o.accepts wanted .null = false := by
  have htext (before after : List Text.Mark) : Json.null.hasText wanted before after = false := by
    unfold Json.hasText
    split <;> rfl
  cases o with
  | isNull => exact absurd rfl ho
  | isNotNull => rfl
  | startsWith | contains | endsWith => exact htext _ _
  | oneOf =>
    simp only [accepts, Json.order?_null]
    split
    · exact List.any_eq_false.2 fun _ _ => Bool.false_ne_true
    · rfl
  | noneOf =>
    simp only [accepts]
    split
    · exact Bool.and_false _
    · rfl
  | between =>
    simp only [accepts, Json.order?_null]
    split <;> rfl
  | equal | notEqual | greater | atLeast | less | atMost =>
    simp only [accepts, Json.order?_null, Option.any_none]

namespace Comparison
variable {ε : Type} {actual wanted : Json} {c : Comparison} {p : Ordering → Bool}

/-- A value fulfils a comparison that is asked for, if one is. -/
def fulfils (actual : Json) : Except ε (Comparison × Json) → Bool
  | .ok (c, v) => c.holds actual v
  | .error _ => false

/-- Nothing compares with the values that a single value must not be. -/
theorem fulfils_single (o : Operator) (h : ∀ v, c.holds actual v = (actual.order? v).any p) :
    fulfils actual (o.single c wanted) = (actual.order? wanted).any p := by
  cases wanted with
  | null | array | object => cases actual <;> rfl
  | bool | number | string => exact h _

theorem fulfils_literal (o : Operator) {before : String} (hbefore : before = "" ∨ before = "%")
    (after : String) : fulfils actual (o.literal before after wanted) =
      actual.hasText wanted (Text.marks before.toList) (Text.marks after.toList) := by
  unfold Json.hasText
  cases hs : wanted.sought? with
  | some sought =>
    rw [Operator.literal_of_sought? hs, fulfils, holds, Text.like, Text.marks_wrapped hbefore]
  | none =>
    cases wanted with
    | string | number => cases hs
    | null | bool | array | object => rfl

theorem holds_order (actual v : Json) : equal.holds actual v = (actual.order? v).any Ordering.isEq ∧
    notEqual.holds actual v = (actual.order? v).any Ordering.isNe ∧
    greater.holds actual v = (actual.order? v).any Ordering.isGT ∧
    atLeast.holds actual v = (actual.order? v).any Ordering.isGE ∧
    less.holds actual v = (actual.order? v).any Ordering.isLT ∧
    atMost.holds actual v = (actual.order? v).any Ordering.isLE := by
  simp only [holds, Json.equals]
  cases actual.order? v with
  | none => decide
  | some o => cases o <;> decide

end Comparison

namespace Operator
open Comparison

/-- The comparison that an operator asks for, with the value it asks for, holds of the values that
the operator accepts. -/
theorem fulfils_comparison (o : Operator) (wanted actual : Json) :
    fulfils actual (o.comparison wanted) = o.accepts wanted actual := by
  have horder := holds_order actual
  simp only [forall_and] at horder
  obtain ⟨hequal, hnotEqual, hgreater, hatLeast, hless, hatMost⟩ := horder
  have hequals : actual.equals = fun v => (actual.order? v).any Ordering.isEq := funext hequal
  cases o with
  | equal => exact fulfils_single _ hequal
  | notEqual => exact fulfils_single _ hnotEqual
  | greater => exact fulfils_single _ hgreater
  | atLeast => exact fulfils_single _ hatLeast
  | less => exact fulfils_single _ hless
  | atMost => exact fulfils_single _ hatMost
  | startsWith => exact fulfils_literal _ (.inl rfl) "%"
  | contains => exact fulfils_literal _ (.inr rfl) "%"
  | endsWith => exact fulfils_literal _ (.inr rfl) ""
  | oneOf =>
    -- a list of alternatives that is empty does not fit, and neither does a single value
    rcases wanted with _ | _ | _ | _ | ⟨_ | ⟨v, rest⟩⟩ | _
    case array.cons => exact congrArg (v :: rest).any hequals
    all_goals rfl
  | noneOf =>
    rcases wanted with _ | _ | _ | _ | ⟨_ | ⟨v, rest⟩⟩ | _
    case array.cons =>
      rw [comparison, listed, fulfils, holds, Json.items, hequals]
      rfl
    all_goals rfl
  | between =>
    rcases wanted with _ | _ | _ | _ | ⟨_ | ⟨low, _ | ⟨high, _ | _⟩⟩⟩ | _
    case array.cons.cons.nil => exact congrArg₂ and (hatLeast low) (hatMost high)
    all_goals rfl
  | isNull | isNotNull => rfl

end Operator
end EntitySelect
