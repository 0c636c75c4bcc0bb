import EntitySelect.Json.Written

/-! Reading records. A record is written as an object of named fields or as an array of its
fields in their order. What an object holds under other names is not looked at. -/
namespace EntitySelect.Written

/-- What was written for a field of a record, if anything. -/
abbrev Slot := Option Written

/-- The slots of the named fields. A field must not be given twice. -/
def slots? (names : List String) : Written → Option (List Slot)
  | .array items =>
    if items.length ≤ names.length then
      some (items.map some ++ List.replicate (names.length - items.length) none)
    else none
  | .object fields =>
    if fields.all (·.1.isSome) then
      names.mapM fun name =>
        match fields.filter (·.1 == some name) with
        | [] => some none
        | [(_, v)] => some (some v)
        | _ => none
    else none
  | _ => none

/-- A field that must be given. -/
def Slot.required (read : Written → Option α) (slot : Slot) : Option α := slot.bind read

/-- A field that stands for a value when left out. -/
def Slot.default (value : α) (read : Written → Option α) : Slot → Option α
  | none => some value
  | some v => read v

/-- A field that may be left out or null. -/
def Slot.optional (read : Written → Option α) : Slot → Option (Option α)
  | none | some .null => some none
  | some v => (read v).map some

def string? : Written → Option String
  | .string s => s
  | _ => none

def bool? : Written → Option Bool
  | .bool b => some b
  | _ => none

def uint64? : Written → Option UInt64
  | .number (some n) => n.toUInt64?
  | _ => none

def uint32? (w : Written) : Option UInt32 :=
  w.uint64?.bind fun n => if n.toNat < UInt32.size then some n.toUInt32 else none

def list? (read : Written → Option α) : Written → Option (List α)
  | .array items => items.mapM read
  | _ => none

/-- Repeated names are one. -/
def names? (w : Written) : Option NameSet := (w.list? string?).map NameSet.ofNames

/-- Of two entries with one name the later counts. -/
def dict? (read : Written → Option α) : Written → Option (Dict α)
  | .object fields =>
    let entry (f : Option String × Written) : Option (String × α) :=
      f.1.bind fun name => (read f.2).map (name, ·)
    (fields.mapM entry).map Dict.ofList
  | _ => none

/-- Nothing but null. -/
def isUnit : Written → Bool
  | .null => true
  | _ => false

/-- One of finitely many words: the word itself, or an object that has it as its only name, with
`unit` holding of the value. -/
def word? (ofWord : String → Option α) (unit : Written → Bool) : Written → Option α
  | .string s => s.bind ofWord
  | .object [(name, v)] => if unit v then name.bind ofWord else none
  | _ => none

end EntitySelect.Written
