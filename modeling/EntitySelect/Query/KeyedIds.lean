import EntitySelect.Query.Error

/-! Results of a query: entity ids by key, in the order of the rows they come from. -/
namespace EntitySelect

/-- A result row, the values of the select list. -/
abbrev Row := List Json

/-- Entity ids by row key. The key is a revision id where revisions are the rows, and the entity id
itself otherwise. -/
structure KeyedIds where
  entries : List (UInt64 × UInt64) := []
  deriving DecidableEq, Repr

/-- An id is an unsigned whole number, or its decimal digits behind an optional plus sign. -/
def digitsId? (cs : List Char) : Option UInt64 :=
  let ds := match cs with
    | '+' :: rest => rest
    | cs => cs
  if ds.isEmpty || !ds.all Char.isDigit then none
  else
    let n := ds.foldl (fun n c => n * 10 + (c.toNat - '0'.toNat)) 0
    if n < UInt64.size then some (UInt64.ofNat n) else none

def Json.id? : Json → Option UInt64
  | .number n => n.toUInt64?
  | .string s => digitsId? s.toList
  | _ => none

/-- The id a value stands for. -/
def Json.id (v : Json) : Except QueryError UInt64 :=
  match v.id? with
  | some n => .ok n
  | none => .error (.malformedRow (.notAnId v))

namespace KeyedIds

def put (key id : UInt64) : List (UInt64 × UInt64) → List (UInt64 × UInt64)
  | [] => [(key, id)]
  | (k, v) :: rest => if k = key then (k, id) :: rest else (k, v) :: put key id rest

/-- A key keeps its first place and its last id. -/
def insert (ids : KeyedIds) (key id : UInt64) : KeyedIds := ⟨put key id ids.entries⟩

def get? (ids : KeyedIds) (key : UInt64) : Option UInt64 := ids.entries.lookup key

def keys (ids : KeyedIds) : List UInt64 := ids.entries.map (·.1)

def entityIds (ids : KeyedIds) : List UInt64 := ids.entries.map (·.2)

def size (ids : KeyedIds) : Nat := ids.entries.length

def isEmpty (ids : KeyedIds) : Bool := ids.entries.isEmpty

/-- Adds a row. Its first column is the key and its second the id; further columns do not count. -/
def addRow (ids : KeyedIds) (row : Row) : Except QueryError KeyedIds :=
  match row with
  | key :: id :: _ => do
    let key ← key.id
    let id ← id.id
    return ids.insert key id
  | _ => .error (.malformedRow (.tooShort row.length))

def ofRows (rows : List Row) : Except QueryError KeyedIds := rows.foldlM addRow {}

def toJson (ids : KeyedIds) : Json :=
  .array (ids.entries.map fun e => .array [.word e.1, .word e.2])

end KeyedIds
end EntitySelect
