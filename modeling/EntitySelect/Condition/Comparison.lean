import EntitySelect.Query.Error
import EntitySelect.Text.Like

/-! The comparison that a condition asks for, if its value fits its operator. -/
namespace EntitySelect

/-- Neither a list, nor an object, nor null. -/
def Operator.single (o : Operator) (c : Comparison) : Json → Except ValueFlaw (Comparison × Json)
  | .array _ | .object _ => .error (.notSingle o)
  | .null => .error (.null o)
  | v => .ok (c, v)

/-- A string, or a number by its text; the text is matched literally. -/
def Operator.literal (o : Operator) (before after : String) :
    Json → Except ValueFlaw (Comparison × Json)
  | .string s => .ok (.like, .string (before ++ Text.escapeLike s ++ after))
  | .number n => .ok (.like, .string (before ++ Text.escapeLike n.text ++ after))
  | _ => .error (.notText o)

/-- A list that is not empty. -/
def Operator.listed (o : Operator) (c : Comparison) : Json → Except ValueFlaw (Comparison × Json)
  | .array (v :: rest) => .ok (c, .array (v :: rest))
  | _ => .error (.notList o)

/-- The comparison of a statement for an operator and its value. -/
def Operator.comparison (o : Operator) (v : Json) : Except ValueFlaw (Comparison × Json) :=
  match o with
  | .equal => o.single .equal v
  | .notEqual => o.single .notEqual v
  | .greater => o.single .greater v
  | .atLeast => o.single .atLeast v
  | .less => o.single .less v
  | .atMost => o.single .atMost v
  | .startsWith => o.literal "" "%" v
  | .contains => o.literal "%" "%" v
  | .endsWith => o.literal "%" "" v
  | .oneOf => o.listed .oneOf v
  | .noneOf => o.listed .noneOf v
  | .between =>
    match v with
    | .array [low, high] => .ok (.between, .array [low, high])
    | _ => .error .notPair
  | .isNull => .ok (.isNull, .null)
  | .isNotNull => .ok (.isNotNull, .null)

/-- The comparison for a leaf. -/
def Leaf.comparison (l : Leaf) : Except QueryError (Comparison × Json) :=
  match l.effective.comparison l.value with
  | .ok c => .ok c
  | .error flaw => .error (.invalidCondition l.field flaw)

end EntitySelect
