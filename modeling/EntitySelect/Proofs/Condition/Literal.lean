import EntitySelect.Condition.Comparison
import EntitySelect.Dataset.Filter
import EntitySelect.Proofs.Text.Matching

/-! The operators that look for a text in another find just that text, up to case. Escaping makes
every character its own mark, so nothing in the text that is looked for is read as a wildcard. -/
namespace EntitySelect
namespace Text

/-- An escaped text stands for its characters, whatever follows it. -/
theorem marks_escapeChars_append (cs rest : List Char) :
    marks (escapeChars cs ++ rest) = cs.map .literal ++ marks rest := by
  induction cs with
  | nil => rfl
  | cons c cs ih =>
    rw [escapeChars, List.map_cons, List.cons_append]
    split
    · rw [List.cons_append, List.cons_append, marks, ih]
    · next hplain =>
      simp only [not_or] at hplain
      rw [List.cons_append, marks_literal hplain.1 hplain.2.1 hplain.2.2, ih]

/-- A text between wildcards, or between nothing. -/
theorem marks_wrapped {before : String} (hbefore : before = "" ∨ before = "%") (s after : String) :
    marks (before ++ escapeLike s ++ after).toList =
      marks before.toList ++ (s.toList.map .literal ++ marks after.toList) := by
  have hescaped : (escapeLike s).toList = escapeChars s.toList := String.toList_ofList
  rw [String.toList_append, String.toList_append, hescaped, List.append_assoc]
  rcases hbefore with rfl | rfl
  · exact marks_escapeChars_append ..
  · exact congrArg (Mark.any :: ·) (marks_escapeChars_append ..)

end Text

/-- The text that a value is looked for as: a string, or a number as it is written. -/
def Json.sought? : Json → Option String
  | .string s => some s
  | .number n => some n.text
  | _ => none

namespace Operator
open Text

theorem literal_of_sought? {s : Json} {sought : String} (h : s.sought? = some sought) (o : Operator)
    (before after : String) :
    o.literal before after s = .ok (.like, .string (before ++ escapeLike sought ++ after)) := by
  cases s with
  | string s | number n =>
    cases h
    rfl
  | _ => cases h

end Operator
end EntitySelect
