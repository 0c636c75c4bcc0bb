/-! Sets of characters by their bytes. A sequence of byte ranges stands for the characters whose
bytes lie in the ranges, each byte in its own. -/
namespace EntitySelect.Text

/-- The bytes from `first` to `last`. -/
structure ByteRange where
  first : UInt8
  last : UInt8
  deriving DecidableEq, Repr

abbrev ByteSequence := List ByteRange

/-- Every character: the well-formed sequences of bytes, surrogates left out. -/
def everySequence : List ByteSequence := [
  [⟨0x00, 0x7f⟩],
  [⟨0xc2, 0xdf⟩, ⟨0x80, 0xbf⟩],
  [⟨0xe0, 0xe0⟩, ⟨0xa0, 0xbf⟩, ⟨0x80, 0xbf⟩],
  [⟨0xe1, 0xec⟩, ⟨0x80, 0xbf⟩, ⟨0x80, 0xbf⟩],
  [⟨0xed, 0xed⟩, ⟨0x80, 0x9f⟩, ⟨0x80, 0xbf⟩],
  [⟨0xee, 0xef⟩, ⟨0x80, 0xbf⟩, ⟨0x80, 0xbf⟩],
  [⟨0xf0, 0xf0⟩, ⟨0x90, 0xbf⟩, ⟨0x80, 0xbf⟩, ⟨0x80, 0xbf⟩],
  [⟨0xf1, 0xf3⟩, ⟨0x80, 0xbf⟩, ⟨0x80, 0xbf⟩, ⟨0x80, 0xbf⟩],
  [⟨0xf4, 0xf4⟩, ⟨0x80, 0x8f⟩, ⟨0x80, 0xbf⟩, ⟨0x80, 0xbf⟩]]

def sequenceOf (c : Char) : ByteSequence := (String.utf8EncodeChar c).map fun b => ⟨b, b⟩

/-- Two sequences that differ in the last byte only, where the second goes on from the first. -/
def join? : ByteSequence → ByteSequence → Option ByteSequence
  | [a], [b] => if a.last + 1 = b.first then some [⟨a.first, b.last⟩] else none
  | a :: more, b :: others => if a = b then (join? more others).map (a :: ·) else none
  | _, _ => none

/-- The sequences of some characters in ascending order, neighbours joined. -/
def sequencesOf : List Char → List ByteSequence
  | [] => []
  | c :: rest =>
    match sequencesOf rest with
    | [] => [sequenceOf c]
    | next :: more =>
      match join? (sequenceOf c) next with
      | some joined => joined :: more
      | none => sequenceOf c :: next :: more

/-- The ranges that start some sequence. -/
def heads (seqs : List ByteSequence) : List ByteRange := (seqs.filterMap List.head?).eraseDups

/-- What is left of the sequences that start with a range, after it. -/
def after (r : ByteRange) (seqs : List ByteSequence) : List ByteSequence :=
  seqs.filterMap fun s => if s.head? = some r then s.tail? else none

/-- The beginnings of a sequence, the empty one left out. -/
def beginnings (s : ByteSequence) : List ByteSequence :=
  (List.range s.length).map fun n => s.take (n + 1)

example : sequencesOf ['A', 'a'] = [[⟨0x41, 0x41⟩], [⟨0x61, 0x61⟩]] := by decide +kernel
example : sequencesOf ['\u03a3', '\u03c2', '\u03c3'] =
    [[⟨0xce, 0xce⟩, ⟨0xa3, 0xa3⟩], [⟨0xcf, 0xcf⟩, ⟨0x82, 0x83⟩]] := by decide +kernel
example : sequencesOf ['\u013f', '\u0140'] =
    [[⟨0xc4, 0xc4⟩, ⟨0xbf, 0xbf⟩], [⟨0xc5, 0xc5⟩, ⟨0x80, 0x80⟩]] := by decide +kernel

end EntitySelect.Text
