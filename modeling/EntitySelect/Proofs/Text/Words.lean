import EntitySelect.Text.Basic

/-! The words of a text: what is left of it between marks, which are blanks and punctuation.
Identifiers and numbers are words of their own. -/
namespace EntitySelect.Text

theorem isIdentifier_iff {name : String} : isIdentifier name = true ↔ ∃ c rest,
    name.toList = c :: rest ∧ isIdentifierStart c = true ∧ ∀ d ∈ rest, isWordChar d = true := by
  unfold isIdentifier
  cases name.toList with
  | nil => simp
  | cons c rest =>
    rw [Bool.and_eq_true, List.all_eq_true]
    constructor
    · intro h
      exact ⟨c, rest, rfl, h⟩
    · rintro ⟨c', rest', heq, h⟩
      cases heq
      exact h

/-- Whether a text has only characters that may stand in an identifier. -/
def isWord (text : String) : Bool := text.toList.all isWordChar

theorem isWord_of_isIdentifier {name : String} (h : isIdentifier name = true) :
    isWord name = true := by
  obtain ⟨c, rest, hname, hstart, hrest⟩ := isIdentifier_iff.1 h
  rw [isWord, hname, List.all_eq_true]
  refine List.forall_mem_cons.2 ⟨?_, hrest⟩
  rcases Bool.or_eq_true_iff.1 hstart with halpha | hscore
  · simp [isWordChar, Char.isAlphanum, halpha]
  · simp [isWordChar, hscore]

/-- An identifier stays one when a word is put behind it. -/
theorem isIdentifier_append {name more : String} (h : isIdentifier name = true)
    (hmore : isWord more = true) : isIdentifier (name ++ more) = true := by
  obtain ⟨c, rest, hname, hstart, hrest⟩ := isIdentifier_iff.1 h
  refine isIdentifier_iff.2 ⟨c, rest ++ more.toList, ?_, hstart, ?_⟩
  · rw [String.toList_append, hname, List.cons_append]
  · intro d hd
    exact (List.mem_append.1 hd).elim (hrest d) (List.all_eq_true.1 hmore d)

theorem isWord_number (n : Nat) : isWord (toString n) = true := by
  have hdigits : (toString n).toList = Nat.toDigits 10 n := Nat.toList_repr
  rw [isWord, hdigits, List.all_eq_true]
  intro c hc
  have hdigit := Nat.isDigit_of_mem_toDigits (by omega) (by omega) hc
  simp [isWordChar, Char.isAlphanum, hdigit]

theorem isWord_wordChars (s : String) : isWord (wordChars s) = true := by
  rw [isWord, wordChars, String.toList_ofList, List.all_eq_true]
  intro c hc
  obtain ⟨d, -, rfl⟩ := List.mem_map.1 hc
  split
  · assumption
  · decide

/-- Blanks and punctuation. -/
def isMark (c : Char) : Bool := [' ', '\n', '.', ',', '(', ')', '=', '<', '>', '*'].contains c

/-- The runs of characters between marks. -/
def runs (text : List Char) : List (List Char) := (text.splitOnP isMark).filter (!·.isEmpty)

def words (text : String) : List String := (runs text.toList).map String.ofList

def startsWithMark (text : String) : Bool := text.toList.head?.any isMark

def endsWithMark (text : String) : Bool := text.toList.getLast?.any isMark

theorem isMark_eq_false {c : Char} (h : isWordChar c = true) : isMark c = false := by
  rw [isMark, List.contains_eq_mem, decide_eq_false_iff_not]
  intro hmem
  simp only [List.mem_cons, List.not_mem_nil, or_false] at hmem
  rcases hmem with rfl | rfl | rfl | rfl | rfl | rfl | rfl | rfl | rfl | rfl <;> cases h

theorem isMark_of_mem_word {text : String} (h : isWord text = true) :
    ∀ c ∈ text.toList, isMark c = false := fun c hc => isMark_eq_false (List.all_eq_true.1 h c hc)

/-- A text without marks has no words besides itself. -/
theorem eq_of_mem_words {text word : String} (h : ∀ c ∈ text.toList, isMark c = false)
    (hword : word ∈ words text) : word = text := by
  rw [words, runs, List.splitOnP_eq_singleton h] at hword
  obtain ⟨piece, hpiece, rfl⟩ := List.mem_map.1 hword
  obtain rfl := List.mem_singleton.1 (List.mem_filter.1 hpiece).1
  exact String.ofList_toList

theorem runs_mark {before after : List Char} {c : Char} (hc : isMark c = true) :
    runs (before ++ c :: after) = runs before ++ runs after := by
  simp only [runs, List.splitOnP_append_cons before after hc, List.filter_append]

/-- Texts that are put together at a mark keep their words. -/
theorem words_append {before after : String}
    (h : endsWithMark before = true ∨ startsWithMark after = true) :
    words (before ++ after) = words before ++ words after := by
  rw [words, words, words, ← List.map_append, String.toList_append]
  congr 1
  rcases h with h | h
  · obtain ⟨c, hlast, hc⟩ := (Option.any_eq_true ..).1 h
    obtain ⟨init, hinit⟩ := List.getLast?_eq_some_iff.1 hlast
    rw [hinit, List.append_assoc, List.singleton_append, runs_mark hc, runs_mark hc]
    exact congrArg (· ++ _) (List.append_nil _).symm
  · obtain ⟨c, hhead, hc⟩ := (Option.any_eq_true ..).1 h
    obtain ⟨rest, hrest⟩ := List.head?_eq_some_iff.1 hhead
    have hnil : runs ([] ++ c :: rest) = runs [] ++ runs rest := runs_mark hc
    rw [hrest, runs_mark hc]
    exact congrArg _ hnil.symm

theorem endsWithMark_append {before after : String} (h : endsWithMark after = true) :
    endsWithMark (before ++ after) = true := by
  rw [endsWithMark, Option.any_eq_true] at h ⊢
  obtain ⟨c, hlast, hc⟩ := h
  refine ⟨c, ?_, hc⟩
  rw [String.toList_append, List.getLast?_append, hlast, Option.some_or]

/-- A text between others, that begins and ends with a mark. -/
theorem words_between {before between after : String} (hstarts : startsWithMark between = true)
    (hends : endsWithMark between = true) :
    words (before ++ between ++ after) = words before ++ words between ++ words after := by
  rw [words_append (.inl (endsWithMark_append hends)), words_append (.inr hstarts)]

/-- The words of texts that are put together by separators. -/
theorem mem_words_intercalate {sep word : String} {texts : List String}
    (hstarts : startsWithMark sep = true) (hends : endsWithMark sep = true)
    (h : word ∈ words (sep.intercalate texts)) :
    word ∈ words sep ∨ ∃ text ∈ texts, word ∈ words text := by
  induction texts with
  | nil => cases h
  | cons text rest ih =>
    cases rest with
    | nil =>
      rw [String.intercalate_singleton] at h
      exact .inr ⟨text, List.mem_cons_self, h⟩
    | cons next rest =>
      rw [String.intercalate_cons_cons, words_between hstarts hends, List.mem_append,
        List.mem_append] at h
      rcases h with (h | h) | h
      · exact .inr ⟨text, List.mem_cons_self, h⟩
      · exact .inl h
      · refine (ih h).imp_right ?_
        rintro ⟨other, hother, h⟩
        exact ⟨other, List.mem_cons_of_mem _ hother, h⟩

end EntitySelect.Text
