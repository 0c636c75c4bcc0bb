/-! Text that is looked at character by character: white space, the plain identifiers of SQL, which
are the only names that may stand unquoted in a statement, and lines. -/
namespace EntitySelect.Text

section Blank

/-- White space, in the sense of the character property of that name. -/
def isBlank (c : Char) : Bool :=
  let n := c.toNat
  (0x9 ≤ n && n ≤ 0xd) || n == 0x20 || n == 0x85 || n == 0xa0 || n == 0x1680 ||
  (0x2000 ≤ n && n ≤ 0x200a) || n == 0x2028 || n == 0x2029 || n == 0x202f || n == 0x205f ||
  n == 0x3000

/-- Nothing but white space, or nothing at all. -/
def isBlankText (s : String) : Bool := s.toList.all isBlank

example : isBlankText "\u00a0\t" = true := by decide
example : isBlankText "\ufeff" = false := by decide

end Blank

section Identifiers

def isIdentifierStart (c : Char) : Bool := c.isAlpha || c == '_'

def isWordChar (c : Char) : Bool := c.isAlphanum || c == '_'

/-- A letter or an underscore, then letters, digits and underscores; ASCII only. -/
def isIdentifier (s : String) : Bool :=
  match s.toList with
  | [] => false
  | c :: rest => isIdentifierStart c && rest.all isWordChar

/-- Replaces what may not stand in an identifier by an underscore. -/
def wordChars (s : String) : String :=
  String.ofList (s.toList.map fun c => if isWordChar c then c else '_')

example : isIdentifier "node_field_data" = true := by decide
example : isIdentifier "a\n" = false := by decide
example : isIdentifier "9a" = false := by decide

end Identifiers

section Lines

/-- The pieces between separators, at least one. -/
def pieces (separator : Char) : List Char → List (List Char)
  | [] => [[]]
  | c :: rest =>
    if c = separator then [] :: pieces separator rest
    else match pieces separator rest with
      | [] => [[c]]
      | piece :: more => (c :: piece) :: more

/-- A carriage return that ends a line is not part of it. -/
def dropReturn (cs : List Char) : List Char :=
  if cs.getLast? = some '\r' then cs.dropLast else cs

/-- The lines of a text. A final line end closes the last line and opens none; a carriage return
counts as part of a line end only before the line feed. -/
def lines (s : String) : List String :=
  let all := pieces '\n' s.toList
  let closed := all.dropLast.map (fun l => String.ofList (dropReturn l))
  match all.getLast? with
  | some (c :: cs) => closed ++ [String.ofList (c :: cs)]
  | _ => closed

example : lines "a\r\n\nb\r" = ["a", "", "b\r"] := by decide
example : lines "a\n" = ["a"] := by decide

end Lines

end EntitySelect.Text
