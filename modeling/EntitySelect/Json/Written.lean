import EntitySelect.Json.Token

/-! JSON as it was written: object fields in their order, repeated names and all, and numbers and
strings that may have no value. What a part of a document means is decided by who reads it. -/
namespace EntitySelect

/-- A JSON text as a tree. -/
inductive Written where
  | null
  | bool (b : Bool)
  | number (n : Option Number)
  | string (s : Option String)
  | array (items : List Written)
  | object (fields : List (Option String × Written))
  deriving Inhabited, Repr

namespace Written

/-- An array or object that is still open. -/
inductive Frame where
  /-- Items read so far, the last one first. -/
  | array (items : List Written)
  /-- Fields read so far, the last one first, and the name of the field being read. -/
  | object (fields : List (Option String × Written)) (name : Option String)

/-- What may come next. -/
inductive State where
  /-- A value. -/
  | value (outer : List Frame)
  /-- The first item of an array, or its end. -/
  | item (outer : List Frame)
  /-- A field name, or the end of the object if it has no field yet. -/
  | field (fields : List (Option String × Written)) (outer : List Frame)
  /-- The colon after a field name. -/
  | colon (fields : List (Option String × Written)) (name : Option String) (outer : List Frame)
  /-- A comma or the end of the array. -/
  | afterItem (items : List Written) (outer : List Frame)
  /-- A comma or the end of the object. -/
  | afterField (fields : List (Option String × Written)) (outer : List Frame)
  /-- Nothing. -/
  | done (whole : Written)

/-- Hands a finished value to the innermost open array or object. -/
def settle (v : Written) : List Frame → State
  | [] => .done v
  | .array items :: outer => .afterItem (v :: items) outer
  | .object fields name :: outer => .afterField ((name, v) :: fields) outer

/-- Starts or finishes a value. -/
def State.onValue (outer : List Frame) : Json.Token → Option State
  | .null => some (settle .null outer)
  | .bool b => some (settle (.bool b) outer)
  | .number n => some (settle (.number n) outer)
  | .string s => some (settle (.string s) outer)
  | .openArray => some (.item outer)
  | .openObject => some (.field [] outer)
  | _ => none

def State.next : State → Json.Token → Option State
  | .value outer, t => State.onValue outer t
  | .item outer, .closeArray => some (settle (.array []) outer)
  | .item outer, t => State.onValue (.array [] :: outer) t
  | .field fields outer, .string name => some (.colon fields name outer)
  | .field [] outer, .closeObject => some (settle (.object []) outer)
  | .colon fields name outer, .colon => some (.value (.object fields name :: outer))
  | .afterItem items outer, .comma => some (.value (.array items :: outer))
  | .afterItem items outer, .closeArray => some (settle (.array items.reverse) outer)
  | .afterField (f :: fields) outer, .comma => some (.field (f :: fields) outer)
  | .afterField fields outer, .closeObject => some (settle (.object fields.reverse) outer)
  | _, _ => none

/-- The one value that a text consists of. -/
def ofText? (text : String) : Option Written :=
  match (Json.tokens? text.toList).bind (List.foldlM State.next (.value [])) with
  | some (.done v) => some v
  | _ => none

mutual
/-- The value, unless a number or a string in it has none. A name that occurs twice counts with its
last value. -/
def value? : Written → Option Json
  | .null => some .null
  | .bool b => some (.bool b)
  | .number n => n.map .number
  | .string s => s.map .string
  | .array items => (itemValues? items).map .array
  | .object fields => (fieldValues? fields).map Json.record
def itemValues? : List Written → Option (List Json)
  | [] => some []
  | v :: rest =>
    match value? v, itemValues? rest with
    | some v, some rest => some (v :: rest)
    | _, _ => none
def fieldValues? : List (Option String × Written) → Option (List (String × Json))
  | [] => some []
  | (name, v) :: rest =>
    match name, value? v, fieldValues? rest with
    | some name, some v, some rest => some ((name, v) :: rest)
    | _, _, _ => none
end

/-- How deep arrays and objects may nest in text that is read as values. -/
def depthLimit : Nat := 127

mutual
/-- At most `depth` arrays and objects within each other, and every number and string has a
value. -/
def fits (depth : Nat) : Written → Bool
  | .null | .bool _ => true
  | .number n => n.isSome
  | .string s => s.isSome
  | .array items => match depth with
    | 0 => false
    | depth + 1 => itemsFit depth items
  | .object fields => match depth with
    | 0 => false
    | depth + 1 => fieldsFit depth fields
def itemsFit (depth : Nat) : List Written → Bool
  | [] => true
  | v :: rest => fits depth v && itemsFit depth rest
def fieldsFit (depth : Nat) : List (Option String × Written) → Bool
  | [] => true
  | (name, v) :: rest => name.isSome && fits depth v && fieldsFit depth rest
end

/-- The value that a text consists of, if nothing in it is out of bounds. -/
def ofBoundedText? (text : String) : Option Written :=
  (ofText? text).filter (fits depthLimit)

mutual
/-- A value, written down. -/
def ofJson : Json → Written
  | .null => .null
  | .bool b => .bool b
  | .number n => .number (some n)
  | .string s => .string (some s)
  | .array items => .array (ofItems items)
  | .object fields => .object (ofFields fields)
def ofItems : List Json → List Written
  | [] => []
  | v :: rest => ofJson v :: ofItems rest
def ofFields : List (String × Json) → List (Option String × Written)
  | [] => []
  | (name, v) :: rest => (some name, ofJson v) :: ofFields rest
end

@[simp] theorem ofItems_eq (items : List Json) : ofItems items = items.map ofJson := by
  induction items <;> simp_all [ofItems]

@[simp] theorem ofFields_eq (fields : List (String × Json)) :
    ofFields fields = fields.map (fun f => (some f.1, ofJson f.2)) := by
  induction fields <;> simp_all [ofFields]

end Written

/-- The value of a text. -/
def Json.ofText? (text : String) : Option Json :=
  (Written.ofBoundedText? text).bind Written.value?

end EntitySelect
