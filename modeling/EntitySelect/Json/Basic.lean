import EntitySelect.Dict
import EntitySelect.Decimal.Shortest

/-! JSON values. Numbers are of two kinds that never mix: whole numbers of 64 bits, signed or
unsigned, and doubles; `1` and `1.0` are different values. -/
namespace EntitySelect

/-- A whole number that fits 64 bits, signed or unsigned: one from `-2 ^ 63` to below `2 ^ 64`. -/
structure Word where
  value : Int
  lower : -0x8000000000000000 ≤ value
  upper : value < 0x10000000000000000
  deriving DecidableEq, Repr

/-- A JSON number. -/
inductive Number where
  | whole (w : Word)
  | double (d : Double)
  deriving DecidableEq, Repr

/-- A JSON value. The fields of an object are held in the order of their names, each name once;
`Json.record` builds objects of that form from any fields. -/
inductive Json where
  | null
  | bool (b : Bool)
  | number (n : Number)
  | string (s : String)
  | array (items : List Json)
  | object (fields : List (String × Json))
  deriving Inhabited, Repr

namespace Word

def ofUInt64 (n : UInt64) : Word :=
  ⟨n.toNat, by omega, by have := n.toNat_lt; omega⟩

/-- The word as an unsigned number, if it is one. -/
def toUInt64? (w : Word) : Option UInt64 :=
  if 0 ≤ w.value then some (UInt64.ofNat w.value.toNat) else none

@[simp] theorem toUInt64?_ofUInt64 (n : UInt64) : (ofUInt64 n).toUInt64? = some n := by
  simp [toUInt64?, ofUInt64]

theorem value_inj {v w : Word} : v.value = w.value ↔ v = w := by
  cases v
  cases w
  rw [Word.mk.injEq]

theorem value_ofUInt64 (n : UInt64) : (ofUInt64 n).value = n.toNat := rfl

theorem eq_ofUInt64 {w : Word} {n : UInt64} (h : w.toUInt64? = some n) : w = ofUInt64 n := by
  obtain ⟨hpos, hn⟩ := Option.ite_none_right_eq_some.1 h
  have hupper := w.upper
  have hvalue : n.toNat = w.value.toNat := by
    rw [← Option.some_inj.1 hn]
    exact UInt64.toNat_ofNat_of_lt' (by rw [UInt64.size]; omega)
  rw [← value_inj, value_ofUInt64]
  omega

end Word

namespace Number

/-- A whole number where it fits, else the nearest double, if there is one. -/
def ofInt? (n : Int) : Option Number :=
  if h : -0x8000000000000000 ≤ n ∧ n < 0x10000000000000000 then some (.whole ⟨n, h.1, h.2⟩)
  else (Double.ofInt? n).map .double

def ofUInt64 (n : UInt64) : Number := .whole (.ofUInt64 n)

/-- Only whole numbers are unsigned words; `1.0` is none. -/
def toUInt64? : Number → Option UInt64
  | .whole w => w.toUInt64?
  | .double _ => none

@[simp] theorem toUInt64?_ofUInt64 (n : UInt64) : (ofUInt64 n).toUInt64? = some n :=
  Word.toUInt64?_ofUInt64 n

end Number

namespace Json

mutual
/-- Equality of values is equality of their trees. -/
def decEq : (a b : Json) → Decidable (a = b)
  | .null, .null => isTrue rfl
  | .bool a, .bool b => if h : a = b then isTrue (h ▸ rfl) else isFalse (by simp [h])
  | .number a, .number b => if h : a = b then isTrue (h ▸ rfl) else isFalse (by simp [h])
  | .string a, .string b => if h : a = b then isTrue (h ▸ rfl) else isFalse (by simp [h])
  | .array a, .array b =>
    match decEqItems a b with
    | isTrue h => isTrue (h ▸ rfl)
    | isFalse h => isFalse (by simpa using h)
  | .object a, .object b =>
    match decEqFields a b with
    | isTrue h => isTrue (h ▸ rfl)
    | isFalse h => isFalse (by simpa using h)
  | .null, .bool _ | .null, .number _ | .null, .string _ | .null, .array _ | .null, .object _
  | .bool _, .null | .bool _, .number _ | .bool _, .string _ | .bool _, .array _
  | .bool _, .object _ | .number _, .null | .number _, .bool _ | .number _, .string _
  | .number _, .array _ | .number _, .object _ | .string _, .null | .string _, .bool _
  | .string _, .number _ | .string _, .array _ | .string _, .object _ | .array _, .null
  | .array _, .bool _ | .array _, .number _ | .array _, .string _ | .array _, .object _
  | .object _, .null | .object _, .bool _ | .object _, .number _ | .object _, .string _
  | .object _, .array _ => isFalse (by simp)
def decEqItems : (a b : List Json) → Decidable (a = b)
  | [], [] => isTrue rfl
  | a :: as, b :: bs =>
    match decEq a b, decEqItems as bs with
    | isTrue h, isTrue hs => isTrue (h ▸ hs ▸ rfl)
    | isFalse h, _ => isFalse (by simp [h])
    | _, isFalse h => isFalse (by simp [h])
  | [], _ :: _ | _ :: _, [] => isFalse (by simp)
def decEqFields : (a b : List (String × Json)) → Decidable (a = b)
  | [], [] => isTrue rfl
  | (k, a) :: as, (l, b) :: bs =>
    match decEq a b, decEqFields as bs with
    | isTrue h, isTrue hs =>
      if hk : k = l then isTrue (hk ▸ h ▸ hs ▸ rfl) else isFalse (by simp [hk])
    | isFalse h, _ => isFalse (by simp [h])
    | _, isFalse h => isFalse (by simp [h])
  | [], _ :: _ | _ :: _, [] => isFalse (by simp)
end

instance : DecidableEq Json := decEq

def isNull : Json → Bool
  | .null => true
  | _ => false

@[simp] theorem isNull_iff {v : Json} : v.isNull = true ↔ v = .null := by cases v <;> simp [isNull]

/-- An object of the given fields; of two with one name the later counts. -/
def record (fields : List (String × Json)) : Json := .object (Dict.ofList fields).entries

def ofDict (d : Dict Json) : Json := .object d.entries

def strings (items : List String) : Json := .array (items.map .string)

def word (n : UInt64) : Json := .number (.ofUInt64 n)

/-- A count; every count that occurs fits 64 bits. -/
def count (n : Nat) : Json := ((Number.ofInt? n).map number).getD .null

/-- A text, or null for none. -/
def orNull (f : α → Json) : Option α → Json
  | some x => f x
  | none => .null

/-- A field that is left out when there is nothing to write. -/
def optionalField (name : String) (f : α → Json) : Option α → List (String × Json)
  | some x => [(name, f x)]
  | none => []

example : record [("b", .null), ("a", .bool true), ("b", .string "x")] =
    .object [("a", .bool true), ("b", .string "x")] := by decide

end Json
end EntitySelect
