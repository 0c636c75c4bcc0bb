import EntitySelect.Json.Basic

/-! The compact text of a JSON value: no blanks, object fields in order of their names. -/
namespace EntitySelect

/-- Quotes, backslashes and control characters are escaped, nothing else is. -/
def escapeJsonChar (c : Char) : List Char :=
  if c = '"' then ['\\', '"']
  else if c = '\\' then ['\\', '\\']
  else if c = '\x08' then ['\\', 'b']
  else if c = '\t' then ['\\', 't']
  else if c = '\n' then ['\\', 'n']
  else if c = '\x0c' then ['\\', 'f']
  else if c = '\r' then ['\\', 'r']
  else if c < ' ' then
    ['\\', 'u', '0', '0', Nat.digitChar (c.toNat / 16), Nat.digitChar (c.toNat % 16)]
  else [c]

/-- A string in quotes. -/
def quoteJson (s : String) : String :=
  String.ofList ('"' :: s.toList.flatMap escapeJsonChar ++ ['"'])

namespace Number

/-- Whole numbers have digits only; doubles always show a point or an exponent. -/
def text : Number → String
  | .whole w => toString w.value
  | .double d => d.text

end Number

namespace Json

mutual
/-- The compact text of a value. -/
def text : Json → String
  | .null => "null"
  | .bool b => if b then "true" else "false"
  | .number n => n.text
  | .string s => quoteJson s
  | .array items => "[" ++ ",".intercalate (itemTexts items) ++ "]"
  | .object fields => "\x7b" ++ ",".intercalate (fieldTexts fields) ++ "\x7d"
def itemTexts : List Json → List String
  | [] => []
  | v :: rest => text v :: itemTexts rest
def fieldTexts : List (String × Json) → List String
  | [] => []
  | (name, v) :: rest => (quoteJson name ++ ":" ++ text v) :: fieldTexts rest
end

@[simp] theorem itemTexts_eq (items : List Json) : itemTexts items = items.map text := by
  induction items <;> simp_all [itemTexts]

@[simp] theorem fieldTexts_eq (fields : List (String × Json)) :
    fieldTexts fields = fields.map (fun f => quoteJson f.1 ++ ":" ++ text f.2) := by
  induction fields <;> simp_all [fieldTexts]

example : (Json.array [.null, .string "a\n\x01"]).text = "[null,\"a\\n\\u0001\"]" := by cbv

end Json
end EntitySelect
