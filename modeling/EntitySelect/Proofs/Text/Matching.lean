import EntitySelect.Text.Like
import Mathlib.Data.List.Forall2

/-! LIKE by its definition: the whole text can be cut into consecutive parts, one for each mark of
the pattern. The matcher keeps all that may be left of the text after some of the marks, so no way
to cut it is missed. -/
namespace EntitySelect.Text

/-- The marks that a pattern is made of, from left to right. -/
inductive Spells : List Char → List Mark → Prop
  | nil : Spells [] []
  /-- A backslash with nothing after it is no mark. -/
  | lone : Spells ['\\'] []
  | escaped (c : Char) {rest : List Char} {ms : List Mark} :
      Spells rest ms → Spells ('\\' :: c :: rest) (.literal c :: ms)
  | any {rest : List Char} {ms : List Mark} : Spells rest ms → Spells ('%' :: rest) (.any :: ms)
  | one {rest : List Char} {ms : List Mark} : Spells rest ms → Spells ('_' :: rest) (.one :: ms)
  | literal {c : Char} {rest : List Char} {ms : List Mark} (hescape : c ≠ '\\') (hany : c ≠ '%')
      (hone : c ≠ '_') : Spells rest ms → Spells (c :: rest) (.literal c :: ms)

/-- The part of a text that a mark stands for. -/
def Mark.Covers : Mark → List Char → Prop
  | .literal c, part => ∃ d, part = [d] ∧ sameLetter c d = true
  | .one, part => ∃ d, part = [d]
  | .any, _ => True

/-- A text is made of consecutive parts, one for each mark. -/
def Cuts (ms : List Mark) (text : List Char) : Prop :=
  ∃ parts, parts.flatten = text ∧ List.Forall₂ Mark.Covers ms parts

theorem marks_literal {c : Char} (hescape : c ≠ '\\') (hany : c ≠ '%') (hone : c ≠ '_')
    (rest : List Char) : marks (c :: rest) = .literal c :: marks rest := by
  rw [marks.eq_def]
  split <;> simp_all

theorem spells_marks (pattern : List Char) : Spells pattern (marks pattern) := by
  fun_induction marks pattern with
  | case1 => exact .nil
  | case2 c rest ih => exact .escaped c ih
  | case3 => exact .lone
  | case4 rest ih => exact .any ih
  | case5 rest ih => exact .one ih
  | case6 c rest hescaped hlone hany hone ih =>
    refine .literal ?_ (fun h => hany h) (fun h => hone h) ih
    rintro rfl
    cases rest with
    | nil => exact hlone rfl rfl
    | cons d more => exact hescaped d more rfl rfl

/-- A pattern is made of its marks only. -/
theorem Spells.eq_marks {pattern : List Char} {ms : List Mark} (h : Spells pattern ms) :
    ms = marks pattern := by
  induction h with
  | nil | lone => rfl
  | escaped c _ ih | any _ ih | one _ ih => rw [ih, marks]
  | literal hescape hany hone _ ih => rw [ih, marks_literal hescape hany hone]

/-- What may be left of a text, the longest first: of two rests the later is in the earlier. -/
abbrev Nested (rests : List (List Char)) : Prop := rests.Pairwise fun s t => t <:+ s

theorem nested_suffixes (text : List Char) : Nested (suffixes text) := by
  induction text with
  | nil => simp [suffixes, Nested]
  | cons c rest ih =>
    refine List.pairwise_cons.2 ⟨fun t ht => ?_, ih⟩
    exact (mem_suffixes.1 ht).trans (List.suffix_cons c rest)

/-- What is left of a text behind a first character of a kind. -/
def behind? (p : Char → Bool) : List Char → Option (List Char)
  | d :: more => if p d then some more else none
  | [] => none

theorem behind?_eq_some_iff {p : Char → Bool} {text rest : List Char} :
    behind? p text = some rest ↔ ∃ d, p d = true ∧ d :: rest = text := by
  cases text with
  | nil => simp [behind?]
  | cons c more =>
    rw [behind?, Option.ite_none_right_eq_some, Option.some_inj]
    constructor
    · rintro ⟨hc, rfl⟩
      exact ⟨c, hc, rfl⟩
    · rintro ⟨d, hd, heq⟩
      cases heq
      exact ⟨hd, rfl⟩

theorem advance_literal (c : Char) (rests : List (List Char)) :
    advance (.literal c) rests = rests.filterMap (behind? (sameLetter c)) := by
  refine List.filterMap_congr fun text _ => ?_
  cases text <;> rfl

theorem advance_one (rests : List (List Char)) :
    advance .one rests = rests.filterMap (behind? fun _ => true) := by
  refine List.filterMap_congr fun text _ => ?_
  cases text <;> rfl

/-- Taking first characters off keeps the order. -/
theorem nested_behind (p : Char → Bool) {rests : List (List Char)} (h : Nested rests) :
    Nested (rests.filterMap (behind? p)) := by
  refine h.filterMap _ fun s t hst s' hs t' ht => ?_
  obtain ⟨c, -, rfl⟩ := behind?_eq_some_iff.1 hs
  obtain ⟨d, -, rfl⟩ := behind?_eq_some_iff.1 ht
  rcases List.suffix_cons_iff.1 hst with heq | hsuffix
  · exact (List.cons.inj heq).2 ▸ List.suffix_refl t'
  · exact (List.suffix_cons d t').trans hsuffix

theorem mem_behind_iff {p : Char → Bool} {rests : List (List Char)} {rest : List Char} :
    rest ∈ rests.filterMap (behind? p) ↔ ∃ d, p d = true ∧ d :: rest ∈ rests := by
  simp only [List.mem_filterMap, behind?_eq_some_iff]
  constructor
  · rintro ⟨text, htext, d, hd, rfl⟩
    exact ⟨d, hd, htext⟩
  · rintro ⟨d, hd, htext⟩
    exact ⟨_, htext, d, hd, rfl⟩

theorem nested_advance (m : Mark) {rests : List (List Char)} (h : Nested rests) :
    Nested (advance m rests) := by
  cases m with
  | literal c => exact advance_literal c rests ▸ nested_behind _ h
  | one => exact advance_one rests ▸ nested_behind _ h
  | any =>
    cases rests with
    | nil => exact .nil
    | cons longest shorter => exact nested_suffixes longest

/-- After a mark there is left what stands behind a part that the mark covers. -/
theorem mem_advance_iff {m : Mark} {rests : List (List Char)} (h : Nested rests)
    {rest : List Char} : rest ∈ advance m rests ↔ ∃ part, m.Covers part ∧ part ++ rest ∈ rests := by
  cases m with
  | literal c =>
    rw [advance_literal, mem_behind_iff]
    constructor
    · rintro ⟨d, hsame, hmem⟩
      exact ⟨[d], ⟨d, rfl, hsame⟩, hmem⟩
    · rintro ⟨_, ⟨d, rfl, hsame⟩, hmem⟩
      exact ⟨d, hsame, hmem⟩
  | one =>
    rw [advance_one, mem_behind_iff]
    constructor
    · rintro ⟨d, -, hmem⟩
      exact ⟨[d], ⟨d, rfl⟩, hmem⟩
    · rintro ⟨_, ⟨d, rfl⟩, hmem⟩
      exact ⟨d, rfl, hmem⟩
  | any =>
    simp only [Mark.Covers, true_and]
    cases rests with
    | nil => simp [advance]
    | cons longest shorter =>
      -- the others are suffixes of the longest, and so is all that is left of them
      rw [advance, mem_suffixes]
      constructor
      · rintro ⟨part, heq⟩
        exact ⟨part, heq ▸ List.mem_cons_self⟩
      · rintro ⟨part, hmem⟩
        refine (List.suffix_append part rest).trans ?_
        rcases List.mem_cons.1 hmem with heq | hshorter
        · exact heq ▸ List.suffix_refl _
        · exact List.rel_of_pairwise_cons h hshorter

/-- After all marks there is left what stands behind parts that the marks cover. -/
theorem mem_foldl_advance_iff (ms : List Mark) {rests : List (List Char)} (h : Nested rests)
    {rest : List Char} : rest ∈ ms.foldl (fun rests m => advance m rests) rests ↔
      ∃ parts, List.Forall₂ Mark.Covers ms parts ∧ parts.flatten ++ rest ∈ rests := by
  induction ms generalizing rests with
  | nil => simp
  | cons m ms ih =>
    rw [List.foldl_cons, ih (nested_advance m h)]
    constructor
    · rintro ⟨parts, hparts, hrest⟩
      obtain ⟨part, hpart, hmem⟩ := (mem_advance_iff h).1 hrest
      exact ⟨part :: parts, .cons hpart hparts, by rwa [List.flatten_cons, List.append_assoc]⟩
    · rintro ⟨_, ⟨⟩ | @⟨_, part, _, parts, hpart, hparts⟩, hmem⟩
      rw [List.flatten_cons, List.append_assoc] at hmem
      exact ⟨parts, hparts, (mem_advance_iff h).2 ⟨part, hpart, hmem⟩⟩

theorem matchesMarks_iff {ms : List Mark} {text : List Char} :
    matchesMarks ms text = true ↔ Cuts ms text := by
  rw [matchesMarks, List.any_eq_true]
  constructor
  · rintro ⟨rest, hrest, hempty⟩
    obtain ⟨parts, hparts, hmem⟩ :=
      (mem_foldl_advance_iff ms (List.pairwise_singleton _ text)).1 hrest
    rw [List.isEmpty_iff.1 hempty, List.append_nil, List.mem_singleton] at hmem
    exact ⟨parts, hmem, hparts⟩
  · rintro ⟨parts, hflatten, hparts⟩
    refine ⟨[], (mem_foldl_advance_iff ms (List.pairwise_singleton _ text)).2 ?_, rfl⟩
    exact ⟨parts, hparts, by rw [List.append_nil, hflatten, List.mem_singleton]⟩

/-- A text is like a pattern exactly if it can be cut into one part for each mark of the pattern. -/
theorem like_iff_cuts {text pattern : String} (hfits : fits (marks pattern.toList) = true) :
    like text pattern = true ↔ ∃ ms, Spells pattern.toList ms ∧ Cuts ms text.toList := by
  rw [like, hfits, Bool.true_and, matchesMarks_iff]
  constructor
  · intro h
    exact ⟨_, spells_marks _, h⟩
  · rintro ⟨ms, hms, h⟩
    exact hms.eq_marks ▸ h

/-- A line break, an escaped sign, and the letter k as the sign of kelvins. -/
theorem like_iff_cuts_kelvin : fits (marks "_ \u212a\\%%".toList) = true ∧
    ∃ ms, Spells "_ \u212a\\%%".toList ms ∧ Cuts ms "5 k%\n".toList := by
  have hfits : fits (marks "_ \u212a\\%%".toList) = true := by decide +kernel
  have hlike : like "5 k%\n" "_ \u212a\\%%" = true := by decide +kernel
  exact ⟨hfits, (like_iff_cuts hfits).1 hlike⟩

end EntitySelect.Text
