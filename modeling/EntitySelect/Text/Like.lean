import EntitySelect.Text.ByteSequence
import EntitySelect.Text.Fold

/-! SQL LIKE. A pattern is a list of marks, and a text matches when it can be cut into consecutive
parts, one for each mark. The room that a pattern takes is limited: it stands for two automata over
bytes, one that reads a text from its start and one that reads it from its end, and each must fit in
`sizeLimit`. -/
namespace EntitySelect.Text

section Patterns

/-- One element of a pattern. -/
inductive Mark where
  /-- One character, up to case. -/
  | literal (c : Char)
  /-- Any one character. -/
  | one
  /-- Any number of characters. -/
  | any
  deriving DecidableEq, Repr

/-- A backslash makes the next character literal; one with nothing after it stands for nothing. -/
def marks : List Char → List Mark
  | [] => []
  | '\\' :: c :: rest => .literal c :: marks rest
  | ['\\'] => []
  | '%' :: rest => .any :: marks rest
  | '_' :: rest => .one :: marks rest
  | c :: rest => .literal c :: marks rest

/-- What is left of a text from each of its positions, the longest first. -/
def suffixes : List Char → List (List Char)
  | [] => [[]]
  | c :: rest => (c :: rest) :: suffixes rest

/-- What may be left of a text after a mark, given what may be left before it. Both lists start with
the longest, and the others are suffixes of it, so `any` needs only that one. -/
def advance : Mark → List (List Char) → List (List Char)
  | .literal c, rests => rests.filterMap fun rest =>
    match rest with
    | d :: more => if sameLetter c d then some more else none
    | [] => none
  | .one, rests => rests.filterMap List.tail?
  | .any, longest :: _ => suffixes longest
  | .any, [] => []

/-- Whether the whole text matches the marks. -/
def matchesMarks (ms : List Mark) (text : List Char) : Bool :=
  (ms.foldl (fun rests m => advance m rests) [text]).any List.isEmpty

theorem mem_suffixes {s t : List Char} : s ∈ suffixes t ↔ s <:+ t := by
  induction t with
  | nil => simp [suffixes]
  | cons c rest ih => simp [suffixes, ih, List.suffix_cons_iff]

end Patterns

section Room

/-- Bytes that a state takes. -/
def stateSize : Nat := 32

/-- Bytes that an arrow labelled with a range takes, in a state with a list of them. -/
def arrowSize : Nat := 8

/-- Bytes that a choice of a next state takes, where nothing is read. -/
def linkSize : Nat := 4

/-- Bytes that one automaton may take. -/
def sizeLimit : Nat := 10 * 1024 * 1024

/-- Bytes taken by the automaton of each direction. -/
structure Size where
  forward : Nat
  backward : Nat
  deriving DecidableEq, Repr

instance : Add Size := ⟨fun a b => ⟨a.forward + b.forward, a.backward + b.backward⟩⟩

/-- What is left to read in the states of the automaton for some sequences, level by level. A
character has at most four bytes, so five levels show all. -/
def restsOf : Nat → List ByteSequence → List (List ByteSequence)
  | 0, _ => []
  | levels + 1, seqs => seqs :: (heads seqs).flatMap fun r => restsOf levels (after r seqs)

/-- Forwards, states with the same rest are one state. -/
def forwardSize (seqs : List ByteSequence) : Nat :=
  ((restsOf 5 seqs).eraseDups.map fun rest =>
    stateSize + arrowSize * (heads rest).length).foldr (· + ·) 0

/-- Backwards, every beginning of a sequence has a state with one arrow, and the sequences are
choices between two states of their own; one-byte characters are read as they are forwards. -/
def backwardSize (seqs : List ByteSequence) : Nat :=
  if seqs.all (·.length == 1) then forwardSize seqs
  else stateSize * ((seqs.flatMap beginnings).eraseDups.length + 2) + linkSize * seqs.length

def charsSize (seqs : List ByteSequence) : Size := ⟨forwardSize seqs, backwardSize seqs⟩

/-- Room for any one character. -/
def oneSize : Size := charsSize everySequence

/-- Room for a mark. A character without case takes a state for each byte; repetition adds a state
with two choices. -/
def Mark.size : Mark → Size
  | .literal c =>
    match variants c with
    | [_] => ⟨stateSize * c.utf8Size, stateSize * c.utf8Size⟩
    | letters => charsSize (sequencesOf letters)
  | .one => oneSize
  | .any => oneSize + ⟨stateSize + 2 * linkSize, stateSize + 2 * linkSize⟩

/-- Room beside the marks. Both automata have a start, the two ends of the text and a success; the
forward one also notes where the match starts and ends. -/
def frameSize : Size := ⟨6 * stateSize, 4 * stateSize⟩

def patternSize (ms : List Mark) : Size := ms.foldl (fun size m => size + m.size) frameSize

/-- Whether both automata of a pattern fit. -/
def fits (ms : List Mark) : Bool :=
  let size := patternSize ms
  size.forward ≤ sizeLimit && size.backward ≤ sizeLimit

example : oneSize = ⟨416, 964⟩ := by decide +kernel
example : (Mark.literal 'a').size = ⟨80, 80⟩ := by decide +kernel
example : (Mark.literal 'k').size = ⟨168, 236⟩ := by decide +kernel
example : (Mark.literal '\u00e9').size = ⟨120, 168⟩ := by decide +kernel

end Room

/-- SQL LIKE with backslash as the escape character, up to case. A pattern that takes too much room
matches nothing. -/
def like (text pattern : String) : Bool :=
  let ms := marks pattern.toList
  fits ms && matchesMarks ms text.toList

/-- Puts a backslash before every character that a pattern would read as a mark. -/
def escapeChars : List Char → List Char
  | [] => []
  | c :: rest =>
    if c = '\\' ∨ c = '%' ∨ c = '_' then '\\' :: c :: escapeChars rest else c :: escapeChars rest

def escapeLike (s : String) : String := String.ofList (escapeChars s.toList)

example : like "a\nb" "A_%B" = true := by decide +kernel
example : like "axb" "a\\_b" = false := by decide +kernel
example : like "a" "a\\" = true := by decide +kernel

end EntitySelect.Text
