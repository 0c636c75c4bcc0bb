import EntitySelect.Json.Basic

/-! The tokens of JSON text. Numbers out of range and strings that escape half a surrogate pair
are tokens without a value: text that holds one is well formed, and only reading it fails. -/
namespace EntitySelect.Json

inductive Token where
  | openArray | closeArray | openObject | closeObject | comma | colon
  | null
  | bool (b : Bool)
  /-- A number; none when no double is that large. -/
  | number (n : Option Number)
  /-- A string; none when an escape names half a character. -/
  | string (s : Option String)
  deriving Repr

/-- One element of a string between its quotes: a character, or an escaped code unit. -/
inductive StringUnit where
  | plain (c : Char)
  | escaped (unit : Nat)

def isHigh (unit : Nat) : Bool := 0xd800 ≤ unit && unit < 0xdc00

def isLow (unit : Nat) : Bool := 0xdc00 ≤ unit && unit < 0xe000

/-- Escaped surrogates count in pairs only. -/
def spell? : List StringUnit → Option (List Char)
  | [] => some []
  | .plain c :: rest => (spell? rest).map (c :: ·)
  | .escaped high :: .escaped low :: rest =>
    if isHigh high then
      if isLow low then
        (spell? rest).map (Char.ofNat (0x10000 + (high - 0xd800) * 0x400 + (low - 0xdc00)) :: ·)
      else none
    else if isLow high then none
    else (spell? (.escaped low :: rest)).map (Char.ofNat high :: ·)
  | .escaped unit :: rest =>
    if isHigh unit || isLow unit then none else (spell? rest).map (Char.ofNat unit :: ·)

def hexDigit? (c : Char) : Option Nat :=
  if c.isDigit then some (c.toNat - '0'.toNat)
  else if 'a' ≤ c ∧ c ≤ 'f' then some (c.toNat - 'a'.toNat + 10)
  else if 'A' ≤ c ∧ c ≤ 'F' then some (c.toNat - 'A'.toNat + 10)
  else none

def hexUnit? (a b c d : Char) : Option Nat := do
  let a ← hexDigit? a
  let b ← hexDigit? b
  let c ← hexDigit? c
  let d ← hexDigit? d
  return ((a * 16 + b) * 16 + c) * 16 + d

/-- What a backslash makes of the next character. -/
def escaped? (c : Char) : Option Char :=
  match c with
  | '"' => some '"'
  | '\\' => some '\\'
  | '/' => some '/'
  | 'b' => some '\x08'
  | 'f' => some '\x0c'
  | 'n' => some '\n'
  | 'r' => some '\r'
  | 't' => some '\t'
  | _ => none

/-- The rest of a string after its first quote, and what follows its last. -/
def stringBody? : List Char → Option (List StringUnit × List Char)
  | [] => none
  | '"' :: rest => some ([], rest)
  | '\\' :: 'u' :: a :: b :: c :: d :: rest =>
    match hexUnit? a b c d, stringBody? rest with
    | some unit, some (units, rest) => some (.escaped unit :: units, rest)
    | _, _ => none
  | '\\' :: c :: rest =>
    match escaped? c, stringBody? rest with
    | some c, some (units, rest) => some (.plain c :: units, rest)
    | _, _ => none
  | c :: rest =>
    if c < ' ' ∨ c = '\\' then none
    else match stringBody? rest with
      | some (units, rest) => some (.plain c :: units, rest)
      | none => none

theorem stringBody?_length {cs : List Char} {units : List StringUnit} {rest : List Char}
    (h : stringBody? cs = some (units, rest)) : rest.length < cs.length := by
  fun_induction stringBody? cs generalizing units rest
  case case1 => cases h
  all_goals simp only [List.length_cons]; grind

/-- The value of decimal digits. -/
def digitsValue (ds : List Char) : Nat :=
  ds.foldl (fun n c => n * 10 + (c.toNat - '0'.toNat)) 0

/-- A number as written: sign, digits before and after the point, exponent. -/
structure Numeral where
  negative : Bool
  whole : List Char
  fraction : Option (List Char)
  exponent : Option Int

namespace Numeral

/-- Appends a run of digits to a significand for as long as it fits 64 bits. The second component
counts the digits from the first that did not fit. -/
def significand (start : Nat) : List Char → Nat × Nat
  | [] => (start, 0)
  | c :: rest =>
    let next := start * 10 + (c.toNat - '0'.toNat)
    if next < UInt64.size then significand next rest else (start, rest.length + 1)

/-- A numeral without point and exponent is a whole number if that fits 64 bits, signed or
unsigned. Every other numeral, minus zero included, is a double, read from the digits that fit
64 bits. -/
def number? (n : Numeral) : Option Number :=
  let fraction := n.fraction.getD []
  let (whole, skipped) := significand 0 n.whole
  let (all, left) := significand whole fraction
  if n.fraction.isNone && n.exponent.isNone && skipped == 0 then
    if n.negative && whole == 0 then some (.double (.zero true))
    else Number.ofInt? (if n.negative then -(whole : Int) else whole)
  else
    let scale : Int := n.exponent.getD 0 + skipped - (fraction.length - left : Nat)
    (Double.ofScaled? n.negative all scale).map .double

end Numeral

/-- The digits at the head of a text, at least one, and what follows them. -/
def someDigits? (cs : List Char) : Option (List Char × List Char) :=
  match cs.takeWhile Char.isDigit with
  | [] => none
  | c :: ds => some (c :: ds, cs.dropWhile Char.isDigit)

/-- The digits after a point, if there is one. -/
def fraction? : List Char → Option (Option (List Char) × List Char)
  | '.' :: rest => (someDigits? rest).map fun (ds, rest) => (some ds, rest)
  | cs => some (none, cs)

/-- A sign, if there is one; whether it is a minus. -/
def sign : List Char → Bool × List Char
  | '-' :: rest => (true, rest)
  | '+' :: rest => (false, rest)
  | cs => (false, cs)

/-- The exponent, if there is one. -/
def exponent? : List Char → Option (Option Int × List Char)
  | [] => some (none, [])
  | c :: rest =>
    if c = 'e' ∨ c = 'E' then
      (someDigits? (sign rest).2).map fun (ds, after) =>
        let n : Int := digitsValue ds
        (some (if (sign rest).1 then -n else n), after)
    else some (none, c :: rest)

/-- Digits before the point: a zero alone, or digits that start with none. -/
def wholeDigits? : List Char → Option (List Char × List Char)
  | '0' :: rest => some (['0'], rest)
  | cs => someDigits? cs

/-- A number without its sign. -/
def unsigned? (negative : Bool) (cs : List Char) : Option (Numeral × List Char) :=
  match wholeDigits? cs with
  | none => none
  | some (whole, rest) =>
    match fraction? rest with
    | none => none
    | some (fraction, rest) =>
      match exponent? rest with
      | none => none
      | some (exponent, rest) => some (⟨negative, whole, fraction, exponent⟩, rest)

theorem someDigits?_length {cs ds rest : List Char} (h : someDigits? cs = some (ds, rest)) :
    rest.length < cs.length := by
  have hsplit := @List.takeWhile_append_dropWhile _ Char.isDigit cs
  have := congrArg List.length hsplit
  unfold someDigits? at h
  split at h <;> grind

theorem wholeDigits?_length {cs ds rest : List Char} (h : wholeDigits? cs = some (ds, rest)) :
    rest.length < cs.length := by
  unfold wholeDigits? at h
  split at h
  · grind
  · exact someDigits?_length h

theorem fraction?_length {cs rest : List Char} {ds : Option (List Char)}
    (h : fraction? cs = some (ds, rest)) : rest.length ≤ cs.length := by
  unfold fraction? at h
  split at h
  · obtain ⟨⟨ds, after⟩, hd, he⟩ := Option.map_eq_some_iff.1 h
    have := someDigits?_length hd
    grind
  · grind

theorem sign_length (cs : List Char) : (sign cs).2.length ≤ cs.length := by
  unfold sign
  split <;> simp

theorem exponent?_length {cs rest : List Char} {n : Option Int}
    (h : exponent? cs = some (n, rest)) : rest.length ≤ cs.length := by
  unfold exponent? at h
  split at h
  · grind
  · next c cs =>
    split at h
    · obtain ⟨⟨ds, after⟩, hd, he⟩ := Option.map_eq_some_iff.1 h
      have := someDigits?_length hd
      have := sign_length cs
      grind
    · grind

theorem unsigned?_length {negative : Bool} {cs : List Char} {n : Numeral} {rest : List Char}
    (h : unsigned? negative cs = some (n, rest)) : rest.length < cs.length := by
  unfold unsigned? at h
  split at h
  · cases h
  · next h₁ =>
    have := wholeDigits?_length h₁
    split at h
    · cases h
    · next h₂ =>
      have := fraction?_length h₂
      split at h
      · cases h
      · next h₃ =>
        have := exponent?_length h₃
        grind

/-- The four blanks that may stand between tokens. -/
def isJsonBlank (c : Char) : Bool := c == ' ' || c == '\t' || c == '\n' || c == '\r'

def punctuation? (c : Char) : Option Token :=
  match c with
  | '[' => some .openArray
  | ']' => some .closeArray
  | '\x7b' => some .openObject
  | '\x7d' => some .closeObject
  | ',' => some .comma
  | ':' => some .colon
  | _ => none

/-- The tokens of a text, if it consists of tokens and blanks. -/
def tokens? (cs : List Char) : Option (List Token) :=
  match cs with
  | [] => some []
  | 'n' :: 'u' :: 'l' :: 'l' :: rest => (tokens? rest).map (.null :: ·)
  | 't' :: 'r' :: 'u' :: 'e' :: rest => (tokens? rest).map (.bool true :: ·)
  | 'f' :: 'a' :: 'l' :: 's' :: 'e' :: rest => (tokens? rest).map (.bool false :: ·)
  | '"' :: rest =>
    match h : stringBody? rest with
    | some (units, after) =>
      have : after.length < rest.length := stringBody?_length h
      (tokens? after).map (.string ((spell? units).map String.ofList) :: ·)
    | none => none
  | '-' :: rest =>
    match h : unsigned? true rest with
    | some (n, after) =>
      have : after.length < rest.length := unsigned?_length h
      (tokens? after).map (.number n.number? :: ·)
    | none => none
  | c :: rest =>
    if isJsonBlank c then tokens? rest
    else match punctuation? c with
      | some t => (tokens? rest).map (t :: ·)
      | none =>
        match h : unsigned? false (c :: rest) with
        | some (n, after) =>
          have : after.length < rest.length + 1 := unsigned?_length h
          (tokens? after).map (.number n.number? :: ·)
        | none => none
termination_by cs.length
decreasing_by all_goals grind

end EntitySelect.Json
