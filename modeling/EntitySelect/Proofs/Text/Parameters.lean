import EntitySelect.Proofs.Text.Words
import Mathlib.Data.List.TakeWhile

/-! The parameters of an SQL text: its colons, each with all that belongs to the same word. They are
those of its parts where the parts are put together at a mark. -/
namespace EntitySelect

namespace Text

/-- Text without a colon. -/
abbrev IsPlain (text : String) : Prop := ':' ∉ text.toList

/-- The colons of a text with the word characters that follow them. -/
def parameterRuns : List Char → List (List Char)
  | [] => []
  | c :: rest =>
    if c = ':' then (c :: rest.takeWhile isWordChar) :: parameterRuns rest else parameterRuns rest

def parameters (text : String) : List String := (parameterRuns text.toList).map String.ofList

theorem isPlain_append {before after : String} (hbefore : IsPlain before)
    (hafter : IsPlain after) : IsPlain (before ++ after) := by
  rw [IsPlain, String.toList_append]
  exact fun h => (List.mem_append.1 h).elim hbefore hafter

theorem isPlain_of_isWord {text : String} (h : isWord text = true) : IsPlain text := by
  intro hcolon
  have hword := List.all_eq_true.1 h ':' hcolon
  cases hword

theorem isPlain_intercalate {sep : String} (hsep : IsPlain sep) {texts : List String}
    (htexts : ∀ text ∈ texts, IsPlain text) : IsPlain (sep.intercalate texts) := by
  induction texts with
  | nil => exact (by decide : IsPlain "")
  | cons text rest ih =>
    obtain ⟨htext, hrest⟩ := List.forall_mem_cons.1 htexts
    cases rest with
    | nil => rwa [String.intercalate_singleton]
    | cons next rest =>
      rw [String.intercalate_cons_cons]
      exact isPlain_append (isPlain_append htext hsep) (ih hrest)

theorem parameterRuns_append_of_not_mem {before : List Char} (h : ':' ∉ before)
    (after : List Char) : parameterRuns (before ++ after) = parameterRuns after := by
  induction before with
  | nil => rfl
  | cons c rest ih =>
    rw [List.mem_cons, not_or] at h
    rw [List.cons_append, parameterRuns, if_neg (Ne.symm h.1), ih h.2]

theorem takeWhile_append_of_nil {after : List Char} (h : after.takeWhile isWordChar = [])
    (before : List Char) : (before ++ after).takeWhile isWordChar = before.takeWhile isWordChar := by
  induction before with
  | nil => exact h
  | cons c rest ih => rw [List.cons_append, List.takeWhile_cons, List.takeWhile_cons, ih]

/-- A parameter ends where the text after it starts with no word character. -/
theorem parameterRuns_append {after : List Char} (h : after.takeWhile isWordChar = [])
    (before : List Char) :
    parameterRuns (before ++ after) = parameterRuns before ++ parameterRuns after := by
  induction before with
  | nil => rfl
  | cons c rest ih =>
    rw [List.cons_append, parameterRuns, parameterRuns, ih, takeWhile_append_of_nil h]
    split
    · rfl
    · rfl

theorem startsWithMark_append {before : String} (h : startsWithMark before = true)
    (after : String) : startsWithMark (before ++ after) = true := by
  rw [startsWithMark, Option.any_eq_true] at h ⊢
  obtain ⟨c, hhead, hc⟩ := h
  refine ⟨c, ?_, hc⟩
  rw [String.toList_append, List.head?_append, hhead, Option.some_or]

theorem takeWhile_of_startsWithMark {text : String} (h : startsWithMark text = true) :
    text.toList.takeWhile isWordChar = [] := by
  obtain ⟨c, hhead, hc⟩ := (Option.any_eq_true ..).1 h
  obtain ⟨rest, hrest⟩ := List.head?_eq_some_iff.1 hhead
  have hword : isWordChar c = false := by
    cases hword : isWordChar c with
    | false => rfl
    | true => rw [isMark_eq_false hword] at hc; cases hc
  rw [hrest, List.takeWhile_cons_of_neg (by simp [hword])]

section Parts
variable {before between after : String}

theorem parameters_append (h : startsWithMark after = true) :
    parameters (before ++ after) = parameters before ++ parameters after := by
  rw [parameters, String.toList_append, parameterRuns_append (takeWhile_of_startsWithMark h),
    List.map_append]
  rfl

theorem parameters_headed (h : IsPlain before) : parameters (before ++ after) = parameters after := by
  rw [parameters, String.toList_append, parameterRuns_append_of_not_mem h]
  rfl

theorem parameters_of_isPlain (h : IsPlain before) : parameters before = [] := by
  have hnil := parameterRuns_append_of_not_mem h []
  rw [List.append_nil] at hnil
  rw [parameters, hnil]
  rfl

theorem parameters_closed (h : IsPlain after) (hstarts : startsWithMark after = true) :
    parameters (before ++ after) = parameters before := by
  rw [parameters_append hstarts, parameters_of_isPlain h, List.append_nil]

theorem parameters_between (h : IsPlain between) (hstarts : startsWithMark between = true) :
    parameters (before ++ between ++ after) = parameters before ++ parameters after := by
  rw [String.append_assoc, parameters_append (startsWithMark_append hstarts after),
    parameters_headed h]

theorem parameters_intercalate (h : IsPlain between) (hstarts : startsWithMark between = true)
    (texts : List String) : parameters (between.intercalate texts) = texts.flatMap parameters := by
  induction texts with
  | nil => rfl
  | cons text rest ih =>
    cases rest with
    | nil => rw [String.intercalate_singleton, List.flatMap_singleton]
    | cons next rest =>
      rw [String.intercalate_cons_cons, parameters_between h hstarts, ih]
      rfl

end Parts

/-- A word with a colon before it is one parameter. -/
theorem parameters_colon {word : String} (h : isWord word = true) :
    parameters (":" ++ word) = [":" ++ word] := by
  have htoList : (":" ++ word).toList = ':' :: word.toList := String.toList_append
  have hrest : parameterRuns word.toList = [] := by
    have hnil := parameterRuns_append_of_not_mem (isPlain_of_isWord h) []
    rwa [List.append_nil] at hnil
  have htake : word.toList.takeWhile isWordChar = word.toList :=
    List.takeWhile_eq_self_iff.2 (List.all_eq_true.1 h)
  rw [parameters, htoList, parameterRuns, if_pos rfl, htake, hrest, ← htoList, List.map_singleton,
    String.ofList_toList]

end Text
end EntitySelect
