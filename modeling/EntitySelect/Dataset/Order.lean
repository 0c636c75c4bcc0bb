import EntitySelect.Select.Clause

/-! The order of values, and the order of rows by values. -/
namespace EntitySelect

/-- The kinds of values, from the least to the greatest. -/
def Json.kind : Json → Nat
  | .null => 0
  | .bool _ => 1
  | .number _ => 2
  | .string _ => 3
  | .array _ => 4
  | .object _ => 5

/-- The double nearest to a number. -/
def Number.key : Number → Int
  | .whole w => ((Double.ofInt? w.value).map Double.key).getD 0
  | .double d => d.key

/-- Whole numbers below `2 ^ 63` compare exactly with each other; all other pairs of numbers compare
as doubles. -/
def Number.order (a b : Number) : Ordering :=
  match a, b with
  | .whole v, .whole w =>
    if v.value < 0x8000000000000000 ∧ w.value < 0x8000000000000000 then compare v.value w.value
    else compare a.key b.key
  | _, _ => compare a.key b.key

/-- Values of one kind compare by their content, except that no two lists and no two objects
differ. -/
def Json.order : Json → Json → Ordering
  | .bool a, .bool b => compare a.toNat b.toNat
  | .number a, .number b => a.order b
  | .string a, .string b => compare a b
  | a, b => compare a.kind b.kind

/-- An order, in a direction. -/
def Direction.turn : Direction → Ordering → Ordering
  | .asc, o => o
  | .desc, o => o.swap

/-- A result row and the values it is ordered by. -/
structure KeyedRow where
  values : List Json
  keys : List Json
  deriving DecidableEq, Repr

/-- Compares by each key in its direction until one decides. A key that is not there is null. -/
def orderKeys : List Direction → List Json → List Json → Ordering
  | [], _, _ => .eq
  | d :: ds, as, bs =>
    (d.turn ((as.headD .null).order (bs.headD .null))).then (orderKeys ds as.tail bs.tail)

/-- Puts a row into rows that are ordered backwards, before those that it is not less than. -/
def placeRow (ds : List Direction) (r : KeyedRow) : List KeyedRow → List KeyedRow
  | [] => [r]
  | s :: rest =>
    if orderKeys ds r.keys s.keys = .lt then s :: placeRow ds r rest else r :: s :: rest

/-- Rows in order; rows that no direction tells apart stay as they are. -/
def sortRows (ds : List Direction) (rows : List KeyedRow) : List KeyedRow :=
  (rows.foldl (fun sorted r => placeRow ds r sorted) []).reverse

theorem placeRow_perm (ds : List Direction) (r : KeyedRow) (rows : List KeyedRow) :
    (placeRow ds r rows).Perm (r :: rows) := by
  induction rows with
  | nil => simp [placeRow]
  | cons s rest ih =>
    unfold placeRow
    split
    · exact (ih.cons s).trans (.swap ..)
    · exact .refl _

theorem sortRows_perm (ds : List Direction) (rows : List KeyedRow) :
    (sortRows ds rows).Perm rows := by
  have h (sorted : List KeyedRow) :
      (rows.foldl (fun sorted r => placeRow ds r sorted) sorted).Perm (sorted ++ rows) := by
    induction rows generalizing sorted with
    | nil => simp
    | cons r rest ih =>
      exact (ih _).trans (((placeRow_perm ds r sorted).append_right rest).trans
        (List.perm_middle.symm))
  simpa [sortRows] using (List.reverse_perm _).trans (h [])

end EntitySelect
