import EntitySelect.Proofs.Text.Words
import EntitySelect.Select.Sql
import Mathlib.Data.List.Basic

/-! The grammar of conditions in SQL. A phrase is a comparison of a column with parameters, or a list
of phrases with one connective between them, in parentheses. Every text has one reading at most: a
name ends at the next mark, no comparison begins like another and goes on at a blank, and the AND
inside a range is met while its comparison is still being read. -/
namespace EntitySelect

namespace Text

/-- A colon with a word behind it. -/
def isParameter (name : String) : Bool :=
  match name.toList with
  | c :: rest => c == ':' && !rest.isEmpty && rest.all isWordChar
  | [] => false

/-- No word goes on here. -/
def Breaks (text : List Char) : Prop := ∀ c ∈ text.head?, isWordChar c = false

/-- A phrase can end here: nothing follows, or a blank, or a parenthesis that is closed. -/
def Stops (text : List Char) : Prop := ∀ c ∈ text.head?, c = ' ' ∨ c = ')'

/-- A list of phrases can end here. -/
def Closes (text : List Char) : Prop := ∀ c ∈ text.head?, c = ')'

section Ends
variable {text more : List Char}

theorem Closes.stops (h : Closes text) : Stops text := fun c hc => .inr (h c hc)

theorem Stops.breaks (h : Stops text) : Breaks text := by
  intro c hc
  rcases h c hc with rfl | rfl <;> rfl

theorem Stops.left (h : Stops (text ++ more)) : Stops text := by
  cases text with
  | nil => exact nofun
  | cons c rest => exact h

theorem breaks_cons {c : Char} (h : isWordChar c = false) (text : List Char) :
    Breaks (c :: text) := by
  rintro _ ⟨⟩
  exact h

theorem stops_blank (text : List Char) : Stops (' ' :: text) := by
  rintro _ ⟨⟩
  exact .inl rfl

theorem closes_cons (text : List Char) : Closes (')' :: text) := by
  rintro _ ⟨⟩
  rfl

theorem closes_nil : Closes [] := by
  intro c hc
  cases hc

theorem not_closes_blank (text : List Char) : ¬ Closes (' ' :: text) := by
  intro h
  cases h ' ' rfl

end Ends

/-- A word is read to its end. -/
theorem word_cancel {word word' text text' : List Char} (hword : ∀ c ∈ word, isWordChar c = true)
    (hword' : ∀ c ∈ word', isWordChar c = true) (htext : Breaks text) (htext' : Breaks text')
    (h : word ++ text = word' ++ text') : word = word' ∧ text = text' := by
  induction word generalizing word' with
  | nil =>
    cases word' with
    | nil => exact ⟨rfl, h⟩
    | cons c rest =>
      have hbreak := htext c (by rw [List.nil_append] at h; rw [h]; rfl)
      rw [hword' c List.mem_cons_self] at hbreak
      cases hbreak
  | cons c rest ih =>
    cases word' with
    | nil =>
      have hbreak := htext' c (by rw [List.nil_append] at h; rw [← h]; rfl)
      rw [hword c List.mem_cons_self] at hbreak
      cases hbreak
    | cons c' rest' =>
      obtain ⟨rfl, htail⟩ := List.cons.inj h
      obtain ⟨rfl, rfl⟩ := ih (fun d hd => hword d (List.mem_cons_of_mem _ hd))
        (fun d hd => hword' d (List.mem_cons_of_mem _ hd)) htail
      exact ⟨rfl, rfl⟩

theorem identifier_cancel {name name' : String} {text text' : List Char}
    (hname : isIdentifier name = true) (hname' : isIdentifier name' = true)
    (htext : Breaks text) (htext' : Breaks text')
    (h : name.toList ++ text = name'.toList ++ text') : name = name' ∧ text = text' := by
  have hword := List.all_eq_true.1 (isWord_of_isIdentifier hname)
  have hword' := List.all_eq_true.1 (isWord_of_isIdentifier hname')
  exact (word_cancel hword hword' htext htext' h).imp_left String.toList_inj.1

theorem isParameter_iff {name : String} : isParameter name = true ↔ ∃ rest,
    name.toList = ':' :: rest ∧ rest ≠ [] ∧ ∀ c ∈ rest, isWordChar c = true := by
  unfold isParameter
  cases name.toList with
  | nil => simp
  | cons c rest => simp [List.all_eq_true, and_assoc]

theorem parameter_cancel {name name' : String} {text text' : List Char}
    (hname : isParameter name = true) (hname' : isParameter name' = true)
    (htext : Breaks text) (htext' : Breaks text')
    (h : name.toList ++ text = name'.toList ++ text') : name = name' ∧ text = text' := by
  obtain ⟨rest, hrest, -, hword⟩ := isParameter_iff.1 hname
  obtain ⟨rest', hrest', -, hword'⟩ := isParameter_iff.1 hname'
  rw [hrest, hrest'] at h
  obtain ⟨rfl, rfl⟩ := word_cancel hword hword' htext htext' (List.cons.inj h).2
  exact ⟨String.toList_inj.1 (hrest.trans hrest'.symm), rfl⟩

/-- The first of some texts, and what stands behind it. -/
theorem toList_intercalate_cons (sep text : String) (texts : List String) (more : List Char) :
    (sep.intercalate (text :: texts)).toList ++ more = text.toList ++
      if texts.isEmpty then more else sep.toList ++ ((sep.intercalate texts).toList ++ more) := by
  cases texts with
  | nil => rw [String.intercalate_singleton]; rfl
  | cons next rest =>
    rw [String.intercalate_cons_cons, String.toList_append, String.toList_append]
    simp

/-- Parameters are read up to the parenthesis that closes their list. -/
theorem parameters_cancel {names names' : List String} {text text' : List Char}
    (hnames : ∀ name ∈ names, isParameter name = true)
    (hnames' : ∀ name ∈ names', isParameter name = true)
    (h : (", ".intercalate names).toList ++ ')' :: text =
      (", ".intercalate names').toList ++ ')' :: text') : names = names' ∧ text = text' := by
  -- behind a parameter stands a comma or the parenthesis
  have hbreaks (names : List String) (text : List Char) : Breaks (if names.isEmpty then ')' :: text
      else ", ".toList ++ ((", ".intercalate names).toList ++ ')' :: text)) := by
    split
    · exact breaks_cons rfl text
    · exact breaks_cons rfl _
  induction names generalizing names' with
  | nil =>
    cases names' with
    | nil => simpa using h
    | cons name' rest' =>
      obtain ⟨word', hword', -⟩ := isParameter_iff.1 (hnames' name' List.mem_cons_self)
      rw [toList_intercalate_cons, hword'] at h
      cases h
  | cons name rest ih =>
    obtain ⟨hname, hrest⟩ := List.forall_mem_cons.1 hnames
    cases names' with
    | nil =>
      obtain ⟨word, hword, -⟩ := isParameter_iff.1 hname
      rw [toList_intercalate_cons, hword] at h
      cases h
    | cons name' rest' =>
      obtain ⟨hname', hrest'⟩ := List.forall_mem_cons.1 hnames'
      rw [toList_intercalate_cons, toList_intercalate_cons] at h
      obtain ⟨rfl, htail⟩ := parameter_cancel hname hname' (hbreaks rest _) (hbreaks rest' _) h
      cases rest with
      | nil =>
        cases rest' with
        | nil => exact ⟨rfl, (List.cons.inj htail).2⟩
        | cons next' more' => simp at htail
      | cons next more =>
        cases rest' with
        | nil => simp at htail
        | cons next' more' =>
          obtain ⟨heq, htext⟩ := ih hrest hrest' (List.append_cancel_left htail)
          exact ⟨congrArg _ heq, htext⟩

end Text

/-- How many parameters a comparison has; a list of alternatives can have any number. -/
def Comparison.arity? : Comparison → Option Nat
  | .isNull | .isNotNull => some 0
  | .oneOf | .noneOf => none
  | .between => some 2
  | _ => some 1

/-- What stands behind the word of a comparison. -/
def Comparison.tail : Comparison → List String → String
  | .oneOf, names | .noneOf, names => " (" ++ ", ".intercalate names ++ ")"
  | .between, [low, high] => " " ++ low ++ " AND " ++ high
  | .like, [name] => " " ++ name ++ " ESCAPE '\\'"
  | .equal, [name] | .notEqual, [name] | .greater, [name] | .atLeast, [name] | .less, [name]
  | .atMost, [name] => " " ++ name
  | _, _ => ""

/-- What the text of a condition says. -/
inductive Phrase where
  | compare (column : Column) (comparison : Comparison) (names : List String)
  | group (conjunction : Conjunction) (parts : List Phrase)
  deriving Repr

namespace Phrase

mutual
def text : Phrase → String
  | .compare column comparison names =>
    column.text ++ " " ++ comparison.word ++ comparison.tail names
  | .group c parts => "(" ++ (" " ++ c.word ++ " ").intercalate (partTexts parts) ++ ")"
def partTexts : List Phrase → List String
  | [] => []
  | p :: rest => text p :: partTexts rest
end

mutual
/-- A phrase of the grammar. Between the parts of a group stands its connective; that of a single
part is nowhere in the text, and counts as AND. -/
def Proper : Phrase → Prop
  | .compare column comparison names =>
    Text.isIdentifier column.table = true ∧ Text.isIdentifier column.name = true ∧
      (∀ name ∈ names, Text.isParameter name = true) ∧
        ∀ n ∈ comparison.arity?, names.length = n
  | .group c parts => parts ≠ [] ∧ (parts.length = 1 → c = .and) ∧ PartsProper parts
def PartsProper : List Phrase → Prop
  | [] => True
  | p :: rest => Proper p ∧ PartsProper rest
end

/-- A phrase is what a text says that stands behind WHERE: there the outermost group has no
parentheses. -/
def Reads : Phrase → String → Prop
  | .group c parts, text =>
    Proper (.group c parts) ∧ (" " ++ c.word ++ " ").intercalate (partTexts parts) = text
  | .compare .., _ => False

end Phrase

namespace Comparison

/-- Two words are the beginning of others. -/
theorem word_prefix_cases {c c' : Comparison} (h : c.word.toList <+: c'.word.toList) :
    c = c' ∨ (c, c') ∈ [(greater, atLeast), (less, atMost), (less, notEqual)] := by
  revert h
  cases c <;> cases c' <;> decide

/-- Where one word ends, no other goes on. -/
theorem word_eq_of_append {c c' : Comparison} {more : List Char}
    (h : c'.word.toList = c.word.toList ++ more) (hmore : Text.Stops more) :
    c = c' ∧ more = [] := by
  rcases word_prefix_cases ⟨more, h.symm⟩ with rfl | hmem
  · exact ⟨rfl, List.self_eq_append_right.1 h⟩
  · exfalso
    simp only [List.mem_cons, Prod.mk.injEq, List.not_mem_nil, or_false] at hmem
    rcases hmem with ⟨rfl, rfl⟩ | ⟨rfl, rfl⟩ | ⟨rfl, rfl⟩
    · obtain rfl : ['='] = more := by simpa [word] using h
      exact absurd (hmore '=' rfl) (by decide)
    · obtain rfl : ['='] = more := by simpa [word] using h
      exact absurd (hmore '=' rfl) (by decide)
    · obtain rfl : ['>'] = more := by simpa [word] using h
      exact absurd (hmore '>' rfl) (by decide)

theorem word_cancel {c c' : Comparison} {text text' : List Char} (htext : Text.Stops text)
    (htext' : Text.Stops text') (h : c.word.toList ++ text = c'.word.toList ++ text') :
    c = c' ∧ text = text' := by
  rcases List.append_eq_append_iff.1 h with ⟨more, hword, rfl⟩ | ⟨more, hword, rfl⟩
  · obtain ⟨rfl, rfl⟩ := word_eq_of_append hword htext.left
    exact ⟨rfl, rfl⟩
  · obtain ⟨rfl, rfl⟩ := word_eq_of_append hword htext'.left
    exact ⟨rfl, rfl⟩

theorem tail_cases (c : Comparison) (names : List String) :
    (c.tail names).toList = [] ∨ ∃ more, (c.tail names).toList = ' ' :: more := by
  unfold tail
  split <;> simp

theorem stops_tail (c : Comparison) (names : List String) {text : List Char}
    (h : Text.Stops text) : Text.Stops ((c.tail names).toList ++ text) := by
  rcases c.tail_cases names with htail | ⟨more, htail⟩
  · rwa [htail]
  · rw [htail]
    exact Text.stops_blank _

/-- Parameters are read as many as the comparison has, so a range is not cut at its AND. -/
theorem tail_cancel {c : Comparison} {names names' : List String} {text text' : List Char}
    (hnames : ∀ name ∈ names, Text.isParameter name = true)
    (hnames' : ∀ name ∈ names', Text.isParameter name = true)
    (harity : ∀ n ∈ c.arity?, names.length = n) (harity' : ∀ n ∈ c.arity?, names'.length = n)
    (htext : Text.Stops text) (htext' : Text.Stops text')
    (h : (c.tail names).toList ++ text = (c.tail names').toList ++ text') :
    names = names' ∧ text = text' := by
  have hblank (more : List Char) : Text.Breaks (' ' :: more) := Text.breaks_cons rfl more
  cases c with
  | isNull | isNotNull =>
    obtain rfl := List.length_eq_zero_iff.1 (harity 0 rfl)
    obtain rfl := List.length_eq_zero_iff.1 (harity' 0 rfl)
    exact ⟨rfl, h⟩
  | oneOf | noneOf =>
    simp only [tail, String.toList_append, List.append_assoc, String.reduceToList,
      List.cons_append, List.nil_append] at h
    exact Text.parameters_cancel hnames hnames' (List.cons.inj (List.cons.inj h).2).2
  | between =>
    obtain ⟨low, high, rfl⟩ := List.length_eq_two.1 (harity 2 rfl)
    obtain ⟨low', high', rfl⟩ := List.length_eq_two.1 (harity' 2 rfl)
    obtain ⟨hlow, hhigh⟩ := List.forall_mem_cons.1 hnames
    obtain ⟨hlow', hhigh'⟩ := List.forall_mem_cons.1 hnames'
    simp only [tail, String.toList_append, List.append_assoc, String.reduceToList,
      List.cons_append, List.nil_append] at h
    obtain ⟨rfl, hrest⟩ :=
      Text.parameter_cancel hlow hlow' (hblank _) (hblank _) (List.cons.inj h).2
    simp only [List.cons.injEq, true_and] at hrest
    obtain ⟨rfl, rfl⟩ := Text.parameter_cancel (hhigh high List.mem_cons_self)
      (hhigh' high' List.mem_cons_self) htext.breaks htext'.breaks hrest
    exact ⟨rfl, rfl⟩
  | like =>
    obtain ⟨name, rfl⟩ := List.length_eq_one_iff.1 (harity 1 rfl)
    obtain ⟨name', rfl⟩ := List.length_eq_one_iff.1 (harity' 1 rfl)
    simp only [tail, String.toList_append, List.append_assoc, String.reduceToList,
      List.cons_append, List.nil_append] at h
    obtain ⟨rfl, hrest⟩ := Text.parameter_cancel (hnames name List.mem_cons_self)
      (hnames' name' List.mem_cons_self) (hblank _) (hblank _) (List.cons.inj h).2
    simp only [List.cons.injEq, true_and] at hrest
    exact ⟨rfl, hrest⟩
  | equal | notEqual | greater | atLeast | less | atMost =>
    obtain ⟨name, rfl⟩ := List.length_eq_one_iff.1 (harity 1 rfl)
    obtain ⟨name', rfl⟩ := List.length_eq_one_iff.1 (harity' 1 rfl)
    simp only [tail, String.toList_append, String.reduceToList, List.cons_append,
      List.nil_append] at h
    obtain ⟨rfl, rfl⟩ := Text.parameter_cancel (hnames name List.mem_cons_self)
      (hnames' name' List.mem_cons_self) htext.breaks htext'.breaks (List.cons.inj h).2
    exact ⟨rfl, rfl⟩

end Comparison

namespace Phrase

theorem compare_cancel {column column' : Column} {c c' : Comparison} {names names' : List String}
    {rest rest' : List Char} (hp : (compare column c names).Proper)
    (hp' : (compare column' c' names').Proper) (hrest : Text.Stops rest)
    (hrest' : Text.Stops rest')
    (h : (compare column c names).text.toList ++ rest =
      (compare column' c' names').text.toList ++ rest') :
    compare column c names = compare column' c' names' ∧ rest = rest' := by
  obtain ⟨table, name⟩ := column
  obtain ⟨table', name'⟩ := column'
  obtain ⟨htable, hname, hnames, harity⟩ := hp
  obtain ⟨htable', hname', hnames', harity'⟩ := hp'
  simp only [text, Column.text, String.toList_append, List.append_assoc, String.reduceToList,
    List.cons_append, List.nil_append] at h
  obtain ⟨heq, h⟩ := Text.identifier_cancel htable htable' (Text.breaks_cons rfl _)
    (Text.breaks_cons rfl _) h
  obtain ⟨heq', h⟩ := Text.identifier_cancel hname hname' (Text.breaks_cons rfl _)
    (Text.breaks_cons rfl _) (List.cons.inj h).2
  simp only at heq heq'
  obtain ⟨rfl, h⟩ := Comparison.word_cancel (c.stops_tail names hrest)
    (c'.stops_tail names' hrest') (List.cons.inj h).2
  obtain ⟨rfl, rfl⟩ := Comparison.tail_cancel hnames hnames' harity harity' hrest hrest' h
  exact ⟨by rw [heq, heq'], rfl⟩

/-- A comparison starts with a name, and a group with a parenthesis. -/
theorem compare_ne_group {column : Column} {comparison : Comparison} {names : List String}
    {c : Conjunction} {parts : List Phrase} {rest rest' : List Char}
    (hp : (compare column comparison names).Proper) :
    (compare column comparison names).text.toList ++ rest ≠
      (group c parts).text.toList ++ rest' := by
  obtain ⟨d, more, htable, hstart, -⟩ := Text.isIdentifier_iff.1 hp.1
  intro h
  simp only [text, Column.text, String.toList_append, htable, List.append_assoc,
    String.reduceToList, List.cons_append, List.nil_append] at h
  obtain ⟨rfl, -⟩ := List.cons.inj h
  cases hstart

/-- The first of several texts, up to the connective behind it. -/
theorem toList_joined (c : Conjunction) (text next : String) (texts : List String)
    (rest : List Char) : ((" " ++ c.word ++ " ").intercalate (text :: next :: texts)).toList ++ rest =
      text.toList ++ ' ' :: (c.word.toList ++
        ' ' :: (((" " ++ c.word ++ " ").intercalate (next :: texts)).toList ++ rest)) := by
  simp only [Text.toList_intercalate_cons, String.toList_append, String.reduceToList]
  simp

theorem conjunction_eq {c c' : Conjunction} {parts : List Phrase} (h : (group c parts).Proper)
    (h' : (group c' parts).Proper) (hsame : parts.length = 1 ∨ c = c') : c = c' := by
  rcases hsame with hone | hsame
  · exact (h.2.1 hone).trans (h'.2.1 hone).symm
  · exact hsame

mutual
/-- Where a phrase ends, no other phrase goes on. -/
theorem text_cancel : ∀ {p p' : Phrase} {rest rest' : List Char}, p.Proper → p'.Proper →
    Text.Stops rest → Text.Stops rest' → p.text.toList ++ rest = p'.text.toList ++ rest' →
      p = p' ∧ rest = rest'
  | .compare .., .compare .., _, _, hp, hp', hrest, hrest', h =>
    compare_cancel hp hp' hrest hrest' h
  | .compare .., .group .., _, _, hp, _, _, _, h => absurd h (compare_ne_group hp)
  | .group .., .compare .., _, _, _, hp', _, _, h => absurd h.symm (compare_ne_group hp')
  | .group c parts, .group c' parts', rest, rest', hp, hp', hrest, hrest', h => by
    simp only [text, String.toList_append, List.append_assoc, String.reduceToList,
      List.cons_append, List.nil_append] at h
    obtain ⟨rfl, hsame, hrest⟩ := partTexts_cancel hp.2.2 hp'.2.2 hp.1 hp'.1
      (Text.closes_cons rest) (Text.closes_cons rest') (List.cons.inj h).2
    exact ⟨by rw [conjunction_eq hp hp' hsame], (List.cons.inj hrest).2⟩
/-- Where a list of phrases ends, no other list goes on. -/
theorem partTexts_cancel : ∀ {ps ps' : List Phrase} {c c' : Conjunction} {rest rest' : List Char},
    PartsProper ps → PartsProper ps' → ps ≠ [] → ps' ≠ [] → Text.Closes rest →
    Text.Closes rest' →
    ((" " ++ c.word ++ " ").intercalate (partTexts ps)).toList ++ rest =
      ((" " ++ c'.word ++ " ").intercalate (partTexts ps')).toList ++ rest' →
      ps = ps' ∧ (ps.length = 1 ∨ c = c') ∧ rest = rest'
  | [], _, _, _, _, _, _, _, hne, _, _, _, _ => absurd rfl hne
  | _, [], _, _, _, _, _, _, _, hne', _, _, _ => absurd rfl hne'
  | [p], [p'], c, c', rest, rest', hp, hp', _, _, hrest, hrest', h => by
    simp only [partTexts, String.intercalate_singleton] at h
    obtain ⟨rfl, htail⟩ := text_cancel hp.1 hp'.1 hrest.stops hrest'.stops h
    exact ⟨rfl, .inl rfl, htail⟩
  | [p], p' :: q' :: ps', c, c', rest, rest', hp, hp', _, _, hrest, _, h => by
    simp only [partTexts, String.intercalate_singleton] at h
    rw [toList_joined] at h
    obtain ⟨-, htail⟩ := text_cancel hp.1 hp'.1 hrest.stops (Text.stops_blank _) h
    exact absurd (htail ▸ hrest) (Text.not_closes_blank _)
  | p :: q :: ps, [p'], c, c', rest, rest', hp, hp', _, _, _, hrest', h => by
    simp only [partTexts, String.intercalate_singleton] at h
    rw [toList_joined] at h
    obtain ⟨-, htail⟩ := text_cancel hp.1 hp'.1 (Text.stops_blank _) hrest'.stops h
    exact absurd (htail ▸ hrest') (Text.not_closes_blank _)
  | p :: q :: ps, p' :: q' :: ps', c, c', rest, rest', hp, hp', _, _, hrest, hrest', h => by
    simp only [partTexts] at h
    rw [toList_joined, toList_joined] at h
    obtain ⟨rfl, htail⟩ :=
      text_cancel hp.1 hp'.1 (Text.stops_blank _) (Text.stops_blank _) h
    -- both connectives start at the same place
    obtain rfl : c = c' := by
      cases c <;> cases c' <;> simp [Conjunction.word] at htail ⊢
    have hparts := List.append_cancel_left (List.cons.inj htail).2
    obtain ⟨heq, -, hrest⟩ := partTexts_cancel hp.2 hp'.2 (List.cons_ne_nil q ps)
      (List.cons_ne_nil q' ps') hrest hrest' (List.cons.inj hparts).2
    exact ⟨congrArg _ heq, .inr rfl, hrest⟩
end

/-- A text behind WHERE has one reading at most. -/
theorem eq_of_reads {p p' : Phrase} {text : String} (h : p.Reads text) (h' : p'.Reads text) :
    p = p' := by
  cases p with
  | compare column comparison names => cases h
  | group c parts =>
    cases p' with
    | compare column comparison names => cases h'
    | group c' parts' =>
      obtain ⟨hp, rfl⟩ := h
      obtain ⟨hp', h⟩ := h'
      obtain ⟨rfl, hsame, -⟩ := partTexts_cancel hp.2.2 hp'.2.2 hp.1 hp'.1
        Text.closes_nil Text.closes_nil (by rw [h])
      rw [conjunction_eq hp hp' hsame]

end Phrase
end EntitySelect
