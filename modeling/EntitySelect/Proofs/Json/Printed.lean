import EntitySelect.Dataset.Order
import EntitySelect.Json.Printer
import EntitySelect.Json.Token
import EntitySelect.Proofs.Decimal.Shortest

/-! The compact texts of values. A value ends where its text ends, whatever follows it in a list or
an object, and different values have different texts. -/
namespace EntitySelect

/-- No number goes on here. -/
def Delimited (cs : List Char) : Prop := ∀ c ∈ cs.head?, Decimal.isNumeric c = false

namespace Number

/-- The text of a whole number is its sign and digits. -/
theorem toList_toString (n : Int) :
    (toString n).toList = Text.sign (n < 0) ++ (toString n.natAbs).toList := by
  cases n with
  | ofNat m =>
    have hnonneg : ¬Int.ofNat m < 0 := Int.not_lt.2 (Int.natCast_nonneg m)
    rw [decide_eq_false hnonneg]
    rfl
  | negSucc m =>
    rw [decide_eq_true (Int.negSucc_lt_zero m)]
    exact String.toList_append

/-- The text of a number starts with a digit behind a sign. -/
theorem exists_text (n : Number) : ∃ negative c cs, n.text.toList = Text.sign negative ++ c :: cs ∧
    c.isDigit = true ∧ ∀ c' ∈ cs, Decimal.isNumeric c' = true := by
  cases n with
  | whole w =>
    obtain ⟨c, cs, hcs, hdigits⟩ := Decimal.exists_digits w.value.natAbs
    obtain ⟨hc, hrest⟩ := List.forall_mem_cons.1 hdigits
    exact ⟨w.value < 0, c, cs, by rw [text, toList_toString, hcs], hc,
      fun c' h => Decimal.isNumeric_of_isDigit (hrest c' h)⟩
  | double d =>
    obtain ⟨e, -, htext⟩ := d.exists_text
    obtain ⟨c, whole, mark, rest, hform, hdigits, hmark, hrest⟩ := e.exists_text
    obtain ⟨hc, hwhole⟩ := List.forall_mem_cons.1 hdigits
    refine ⟨d.negative, c, whole ++ mark :: rest, by rw [text, htext, hform]; rfl, hc, ?_⟩
    refine List.forall_mem_append.2 ⟨fun c' h => Decimal.isNumeric_of_isDigit (hwhole c' h),
      List.forall_mem_cons.2 ⟨?_, hrest⟩⟩
    rcases hmark with rfl | rfl <;> rfl

theorem isNumeric_of_mem_text {n : Number} : ∀ c ∈ n.text.toList, Decimal.isNumeric c = true := by
  obtain ⟨negative, c, cs, htext, hc, hcs⟩ := n.exists_text
  rw [htext]
  refine List.forall_mem_append.2
    ⟨?_, List.forall_mem_cons.2 ⟨Decimal.isNumeric_of_isDigit hc, hcs⟩⟩
  cases negative
  · exact List.forall_mem_nil _
  · exact List.forall_mem_singleton.2 rfl

/-- The text of a whole number shows no point and no exponent, that of a double does. -/
theorem text_whole_ne_double (w : Word) (d : Double) : (whole w).text ≠ (double d).text := by
  intro h
  obtain ⟨e, -, htext⟩ := d.exists_text
  obtain ⟨c, digits, mark, rest, hform, -, hmark, -⟩ := e.exists_text
  have hmem : mark ∈ (toString w.value).toList := by
    rw [text, text] at h
    rw [h, htext, hform]
    simp
  rw [toList_toString, List.mem_append] at hmem
  rcases hmem with hmem | hmem
  · rw [Text.sign] at hmem
    split at hmem
    · rw [List.mem_singleton] at hmem
      rcases hmark with rfl | rfl <;> cases hmem
    · cases hmem
  · have hdigit := Decimal.isDigit_of_mem_digits mark hmem
    rcases hmark with rfl | rfl <;> cases hdigit

theorem text_injective {n m : Number} (h : n.text = m.text) : n = m := by
  cases n with
  | whole v =>
    cases m with
    | whole w =>
      obtain ⟨c, cs, hcs, hdigits⟩ := Decimal.exists_digits v.value.natAbs
      obtain ⟨c', cs', hcs', hdigits'⟩ := Decimal.exists_digits w.value.natAbs
      have hsame := congrArg String.toList h
      rw [text, text, toList_toString, toList_toString, hcs, hcs'] at hsame
      obtain ⟨hsign, hdigits⟩ := Text.sign_append_inj (hdigits c List.mem_cons_self)
        (hdigits' c' List.mem_cons_self) hsame
      have habs : v.value.natAbs = w.value.natAbs := by
        rw [← Decimal.ofDigitChars_digits v.value.natAbs, hcs, hdigits, ← hcs',
          Decimal.ofDigitChars_digits]
      rw [decide_eq_decide] at hsign
      have hvalue : v.value = w.value := by omega
      rw [Word.value_inj.1 hvalue]
    | double d => exact absurd h (text_whole_ne_double v d)
  | double d =>
    cases m with
    | whole w => exact absurd h.symm (text_whole_ne_double w d)
    | double d' => exact congrArg _ (Double.text_injective h)

/-- A number ends where no number goes on. -/
theorem text_append_inj {n m : Number} {r r' : List Char} (hr : Delimited r) (hr' : Delimited r')
    (h : n.text.toList ++ r = m.text.toList ++ r') : n = m ∧ r = r' := by
  have hspan (n : Number) {r : List Char} (hr : Delimited r) :
      (n.text.toList ++ r).takeWhile Decimal.isNumeric = n.text.toList := by
    rw [List.takeWhile_append_of_pos isNumeric_of_mem_text]
    cases r with
    | nil => simp
    | cons c r => simp [hr c rfl]
  have htext : n.text.toList = m.text.toList := by rw [← hspan n hr, h, hspan m hr']
  rw [htext] at h
  exact ⟨text_injective (String.toList_inj.1 htext), List.append_cancel_left h⟩

end Number

namespace Json

/-- How a character is read back: control characters without a letter of their own by number. -/
def unitOf (c : Char) : StringUnit :=
  if c < ' ' ∧ c ∉ ['\x08', '\t', '\n', '\x0c', '\r'] then .escaped c.toNat else .plain c

theorem hexUnit?_of_lt : ∀ n < 32,
    hexUnit? '0' '0' (Nat.digitChar (n / 16)) (Nat.digitChar (n % 16)) = some n := by decide

theorem stringBody?_escape (c : Char) (rest : List Char) :
    stringBody? (escapeJsonChar c ++ rest) =
      (stringBody? rest).map (Prod.map (unitOf c :: ·) id) := by
  have hshort {e : Char} (hu : e ≠ 'u') (hq : unitOf c = .plain c) (he : escaped? e = some c) :
      stringBody? ('\\' :: e :: rest) = (stringBody? rest).map (Prod.map (unitOf c :: ·) id) := by
    rw [stringBody?, he, hq]
    · cases stringBody? rest <;> rfl
    · grind
  unfold escapeJsonChar
  split_ifs with hquote hslash hb ht hn hf hr hcontrol
  iterate 7
    · subst c
      exact hshort (by decide) rfl rfl
  · have hunit : unitOf c = .escaped c.toNat := if_pos ⟨hcontrol, by simp [*]⟩
    have hlt : c.toNat < 32 := hcontrol
    rw [List.cons_append, List.cons_append, List.cons_append, List.cons_append, List.cons_append,
      List.cons_append, List.nil_append, stringBody?, hexUnit?_of_lt _ hlt, hunit]
    cases stringBody? rest <;> rfl
  · have hunit : unitOf c = .plain c := if_neg fun h => hcontrol h.1
    rw [List.singleton_append, stringBody?, if_neg (not_or.2 ⟨hcontrol, hslash⟩), hunit]
    · cases stringBody? rest <;> rfl
    · exact hquote
    · grind
    · grind

/-- What is read of a string that was written ends at its own last quote. -/
theorem stringBody?_escaped (cs : List Char) (rest : List Char) :
    stringBody? (cs.flatMap escapeJsonChar ++ '"' :: rest) = some (cs.map unitOf, rest) := by
  induction cs with
  | nil => simp [stringBody?]
  | cons c cs ih =>
    rw [List.flatMap_cons, List.append_assoc, stringBody?_escape, ih]
    rfl

theorem spell?_escaped {n : Nat} (h : n < 0xd800) (units : List StringUnit) :
    spell? (.escaped n :: units) = (spell? units).map (Char.ofNat n :: ·) := by
  have hhigh : isHigh n = false := by simp [isHigh, h]
  have hlow : isLow n = false := by
    simp only [isLow, Bool.and_eq_false_iff, decide_eq_false_iff_not]
    omega
  match units with
  | [] => simp [spell?, hhigh, hlow]
  | .plain c :: rest => simp [spell?, hhigh, hlow]
  | .escaped low :: rest => simp [spell?, hhigh, hlow]

theorem spell?_units (cs : List Char) : spell? (cs.map unitOf) = some cs := by
  induction cs with
  | nil => rfl
  | cons c cs ih =>
    rw [List.map_cons, unitOf]
    split
    · next hcontrol =>
      have hlt : c.toNat < 32 := hcontrol.1
      rw [spell?_escaped (by omega), ih, Char.ofNat_toNat]
      rfl
    · rw [spell?, ih]
      rfl

/-- A quoted string ends at its own quote, and different strings are quoted differently. -/
theorem quoteJson_append_inj {s s' : String} {r r' : List Char}
    (h : (quoteJson s).toList ++ r = (quoteJson s').toList ++ r') : s = s' ∧ r = r' := by
  have hquoted (s : String) (r : List Char) : (quoteJson s).toList ++ r =
      '"' :: (s.toList.flatMap escapeJsonChar ++ '"' :: r) := by
    simp [quoteJson]
  rw [hquoted, hquoted, List.cons_inj_right] at h
  have hread := congrArg stringBody? h
  rw [stringBody?_escaped, stringBody?_escaped, Option.some.injEq, Prod.mk.injEq] at hread
  have hspelled := congrArg spell? hread.1
  rw [spell?_units, spell?_units, Option.some.injEq, String.toList_inj] at hspelled
  exact ⟨hspelled, hread.2⟩

section Lists
variable {α : Type} {write : α → String} {close : Char} {xs ys : List α} {r r' : List Char}

/-- Items, each behind a comma. -/
def following (write : α → String) (xs : List α) : List Char :=
  xs.flatMap fun x => ',' :: (write x).toList

theorem toList_intercalate_cons (x : α) (xs : List α) :
    (",".intercalate ((x :: xs).map write)).toList = (write x).toList ++ following write xs := by
  induction xs generalizing x with
  | nil => simp [following]
  | cons y ys ih =>
    have hrest := ih y
    rw [List.map_cons] at hrest
    rw [List.map_cons, List.map_cons, String.intercalate_cons_cons, String.toList_append,
      String.toList_append, hrest, List.append_assoc]
    rfl

theorem delimited_following (hclose : Decimal.isNumeric close = false) :
    Delimited (following write xs ++ close :: r) := by
  cases xs with
  | nil => simpa [following, Delimited] using hclose
  | cons x xs =>
    rintro c ⟨⟩
    rfl

/-- Items that end where their text ends are told apart behind commas. -/
theorem following_inj (hclose : Decimal.isNumeric close = false) (hcomma : close ≠ ',')
    (hitem : ∀ x ∈ xs, ∀ y r r', Delimited r → Delimited r' →
      (write x).toList ++ r = (write y).toList ++ r' → x = y ∧ r = r')
    (h : following write xs ++ close :: r = following write ys ++ close :: r') :
    xs = ys ∧ r = r' := by
  induction xs generalizing ys with
  | nil =>
    cases ys with
    | nil => exact ⟨rfl, (List.cons.inj h).2⟩
    | cons y ys => exact absurd (List.cons.inj h).1 hcomma
  | cons x xs ih =>
    cases ys with
    | nil => exact absurd (List.cons.inj h).1.symm hcomma
    | cons y ys =>
      obtain ⟨hx, hxs⟩ := List.forall_mem_cons.1 hitem
      rw [following, following, List.flatMap_cons, List.flatMap_cons, List.cons_append,
        List.cons_append, List.cons_append, List.cons_append, List.cons_inj_right,
        List.append_assoc, List.append_assoc] at h
      obtain ⟨rfl, hrest⟩ := hx y _ _ (delimited_following hclose) (delimited_following hclose) h
      obtain ⟨rfl, rfl⟩ := ih hxs hrest
      exact ⟨rfl, rfl⟩

/-- Lists of such items are told apart, where no item starts as the list ends. -/
theorem intercalate_inj (hclose : Decimal.isNumeric close = false) (hcomma : close ≠ ',')
    (hstart : ∀ x : α, ∃ c cs, (write x).toList = c :: cs ∧ c ≠ close)
    (hitem : ∀ x ∈ xs, ∀ y r r', Delimited r → Delimited r' →
      (write x).toList ++ r = (write y).toList ++ r' → x = y ∧ r = r')
    (h : (",".intercalate (xs.map write)).toList ++ close :: r =
      (",".intercalate (ys.map write)).toList ++ close :: r') : xs = ys ∧ r = r' := by
  have hempty (y : α) (ys : List α) (r r' : List Char) :
      close :: r ≠ (",".intercalate ((y :: ys).map write)).toList ++ close :: r' := by
    obtain ⟨c, cs, hc, hne⟩ := hstart y
    rw [toList_intercalate_cons, hc]
    rintro h
    exact hne (List.cons.inj h).1.symm
  cases xs with
  | nil =>
    cases ys with
    | nil => exact ⟨rfl, (List.cons.inj h).2⟩
    | cons y ys => exact absurd h (hempty y ys r r')
  | cons x xs =>
    cases ys with
    | nil => exact absurd h.symm (hempty x xs r' r)
    | cons y ys =>
      obtain ⟨hx, hxs⟩ := List.forall_mem_cons.1 hitem
      rw [toList_intercalate_cons, toList_intercalate_cons, List.append_assoc,
        List.append_assoc] at h
      obtain ⟨rfl, hrest⟩ := hx y _ _ (delimited_following hclose) (delimited_following hclose) h
      obtain ⟨rfl, rfl⟩ := following_inj hclose hcomma hxs hrest
      exact ⟨rfl, rfl⟩

end Lists

/-- Induction over values, with all items and all fields at once. -/
@[elab_as_elim]
theorem induction {P : Json → Prop} (null : P .null) (bool : ∀ b, P (.bool b))
    (number : ∀ n, P (.number n)) (string : ∀ s, P (.string s))
    (array : ∀ items, (∀ v ∈ items, P v) → P (.array items))
    (object : ∀ fields : List (String × Json), (∀ f ∈ fields, P f.2) → P (.object fields))
    (v : Json) : P v :=
  @Json.rec P (fun items => ∀ v ∈ items, P v) (fun fields => ∀ f ∈ fields, P f.2) (fun f => P f.2)
    null bool number string array object
    (List.forall_mem_nil _) (fun _ _ hv hrest => List.forall_mem_cons.2 ⟨hv, hrest⟩)
    (List.forall_mem_nil _) (fun _ _ hf hrest => List.forall_mem_cons.2 ⟨hf, hrest⟩)
    (fun _ _ hv => hv) v

/-- The kind of value that a first character announces; six is none. -/
def kindOf (c : Char) : Nat :=
  if c = 'n' then 0
  else if c = 't' ∨ c = 'f' then 1
  else if c = '-' ∨ c.isDigit = true then 2
  else if c = '"' then 3
  else if c = '[' then 4
  else if c = '\x7b' then 5
  else 6

theorem kindOf_of_isDigit {c : Char} (h : c.isDigit = true) : kindOf c = 2 := by
  have hne {d : Char} (hd : d.isDigit = false) : c ≠ d := by
    rintro rfl
    rw [h] at hd
    cases hd
  rw [kindOf, if_neg (hne rfl), if_neg (not_or.2 ⟨hne rfl, hne rfl⟩), if_pos (.inr h)]

/-- The first character of a text tells what kind of value follows. -/
theorem exists_text (v : Json) : ∃ c cs, v.text.toList = c :: cs ∧ kindOf c = v.kind := by
  cases v with
  | null => exact ⟨_, _, rfl, rfl⟩
  | bool b => cases b <;> exact ⟨_, _, rfl, rfl⟩
  | number n =>
    obtain ⟨negative, c, cs, htext, hc, -⟩ := n.exists_text
    rw [text, htext]
    cases negative
    · exact ⟨c, cs, rfl, kindOf_of_isDigit hc⟩
    · exact ⟨'-', c :: cs, rfl, rfl⟩
  | string s => exact ⟨_, _, String.toList_ofList, rfl⟩
  | array items =>
    refine ⟨'[', (",".intercalate (itemTexts items) ++ "]").toList, ?_, rfl⟩
    rw [text, String.append_assoc, String.toList_append]
    rfl
  | object fields =>
    refine ⟨'\x7b', (",".intercalate (fieldTexts fields) ++ "\x7d").toList, ?_, rfl⟩
    rw [text, String.append_assoc, String.toList_append]
    rfl

theorem kind_eq_of_append {v w : Json} {r r' : List Char}
    (h : v.text.toList ++ r = w.text.toList ++ r') : v.kind = w.kind := by
  obtain ⟨c, cs, hv, hkind⟩ := v.exists_text
  obtain ⟨c', cs', hw, hkind'⟩ := w.exists_text
  rw [hv, hw] at h
  rw [← hkind, ← hkind', (List.cons.inj h).1]

/-- The text of a field. -/
def fieldText (f : String × Json) : String := quoteJson f.1 ++ ":" ++ f.2.text

theorem toList_array (items : List Json) : (array items).text.toList =
    '[' :: ((",".intercalate (items.map text)).toList ++ [']']) := by
  rw [text, itemTexts_eq, String.toList_append, String.toList_append]
  rfl

theorem toList_object (fields : List (String × Json)) : (object fields).text.toList =
    '\x7b' :: ((",".intercalate (fields.map fieldText)).toList ++ ['\x7d']) := by
  rw [text, fieldTexts_eq, String.toList_append, String.toList_append]
  rfl

theorem exists_fieldText (f : String × Json) :
    ∃ c cs, (fieldText f).toList = c :: cs ∧ c ≠ '\x7d' := by
  have htext : (fieldText f).toList =
      '"' :: (f.1.toList.flatMap escapeJsonChar ++ '"' :: ':' :: f.2.text.toList) := by
    simp [fieldText, quoteJson]
  exact ⟨_, _, htext, by decide⟩

theorem fieldText_append_inj {f g : String × Json} {r r' : List Char}
    (hvalue : f.2.text.toList ++ r = g.2.text.toList ++ r' → f.2 = g.2 ∧ r = r')
    (h : (fieldText f).toList ++ r = (fieldText g).toList ++ r') : f = g ∧ r = r' := by
  have hfield (f : String × Json) (r : List Char) : (fieldText f).toList ++ r =
      (quoteJson f.1).toList ++ ':' :: (f.2.text.toList ++ r) := by
    simp [fieldText]
  rw [hfield, hfield] at h
  obtain ⟨hname, hrest⟩ := quoteJson_append_inj h
  obtain ⟨hv, hr⟩ := hvalue (List.cons.inj hrest).2
  exact ⟨Prod.ext hname hv, hr⟩

/-- A value ends where its text ends, whatever stands behind it but more of a number. -/
theorem text_append_inj {v w : Json} {r r' : List Char} (hr : Delimited r) (hr' : Delimited r')
    (h : v.text.toList ++ r = w.text.toList ++ r') : v = w ∧ r = r' := by
  have hstart (close : Char) (hclose : kindOf close = 6) (v : Json) :
      ∃ c cs, v.text.toList = c :: cs ∧ c ≠ close := by
    obtain ⟨c, cs, htext, hkind⟩ := v.exists_text
    refine ⟨c, cs, htext, ?_⟩
    rintro rfl
    rw [hclose] at hkind
    cases v <;> cases hkind
  -- the first characters agree, so both values are of one kind
  have hkind := kind_eq_of_append h
  induction v using Json.induction generalizing w r r' with
  | null =>
    cases w <;> try cases hkind
    exact ⟨rfl, List.append_cancel_left h⟩
  | bool b =>
    cases w <;> try cases hkind
    next b' =>
    cases b <;> cases b'
    · exact ⟨rfl, List.append_cancel_left h⟩
    · cases h
    · cases h
    · exact ⟨rfl, List.append_cancel_left h⟩
  | number n =>
    cases w <;> try cases hkind
    obtain ⟨rfl, hrest⟩ := Number.text_append_inj hr hr' h
    exact ⟨rfl, hrest⟩
  | string s =>
    cases w <;> try cases hkind
    obtain ⟨rfl, hrest⟩ := quoteJson_append_inj h
    exact ⟨rfl, hrest⟩
  | array items ih =>
    cases w <;> try cases hkind
    rw [toList_array, toList_array, List.cons_append, List.cons_append, List.cons_inj_right,
      List.append_assoc, List.append_assoc] at h
    obtain ⟨rfl, hrest⟩ := intercalate_inj rfl (by decide) (hstart ']' rfl)
      (fun v hv w r r' hr hr' h => ih v hv hr hr' h (kind_eq_of_append h)) h
    exact ⟨rfl, hrest⟩
  | object fields ih =>
    cases w <;> try cases hkind
    rw [toList_object, toList_object, List.cons_append, List.cons_append, List.cons_inj_right,
      List.append_assoc, List.append_assoc] at h
    obtain ⟨rfl, hrest⟩ := intercalate_inj rfl (by decide) exists_fieldText
      (fun f hf g r r' hr hr' => fieldText_append_inj fun hvalue =>
        ih f hf hr hr' hvalue (kind_eq_of_append hvalue)) h
    exact ⟨rfl, hrest⟩

/-- Different values have different texts. -/
theorem text_injective {v w : Json} (h : v.text = w.text) : v = w := by
  have hnil : Delimited [] := by rintro c ⟨⟩
  have hsame : v.text.toList ++ [] = w.text.toList ++ [] := by rw [h]
  exact (text_append_inj hnil hnil hsame).1

end Json
end EntitySelect
