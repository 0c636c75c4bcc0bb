import EntitySelect.Proofs.Dataset.Stability
import EntitySelect.Proofs.Dataset.Transitivity

/-! Rows are sorted by one ordering after the other, and rows that no ordering tells apart stay in
their order. Where keys compare exactly these rules leave one list only, and sorting gives it. -/
namespace EntitySelect

namespace Json
variable {a b : Json}

/-- One value is less than another: it is of a lesser kind, or of the same kind and less as a truth
value, a whole number or a string. No list is less than a list, and no object less than an object. -/
inductive Less : Json → Json → Prop
  | kind {a b : Json} (h : a.kind < b.kind) : Less a b
  | bool : Less (.bool false) (.bool true)
  | whole {v w : Word} (h : v.value < w.value) : Less (.number (.whole v)) (.number (.whole w))
  | string {s t : String} (h : s < t) : Less (.string s) (.string t)

/-- Neither of two values is less than the other. -/
def Ties (a b : Json) : Prop := ¬a.Less b ∧ ¬b.Less a

theorem Less.order (h : a.Less b) (ha : a.isExact = true) (hb : b.isExact = true) :
    a.order b = .lt := by
  cases h with
  | kind h => rw [order_of_kind_ne (Nat.ne_of_lt h), Nat.compare_eq_lt.2 h]
  | bool => rfl
  | whole h =>
    rw [Json.order, Number.order_whole (of_decide_eq_true ha) (of_decide_eq_true hb)]
    exact Int.compare_eq_lt.2 h
  | string h => exact compareOfLessAndEq_eq_lt.2 h

theorem less_of_order (ha : a.isExact = true) (hb : b.isExact = true) (h : a.order b = .lt) :
    a.Less b := by
  revert h
  fun_cases order a b with
  | case1 a b =>
    intro h
    cases a <;> cases b <;> first | exact .bool | cases h
  | case2 m n =>
    intro h
    cases m with
    | double _ => cases ha
    | whole v =>
      cases n with
      | double _ => cases hb
      | whole w =>
        rw [Number.order_whole (of_decide_eq_true ha) (of_decide_eq_true hb)] at h
        exact .whole (Int.compare_eq_lt.1 h)
  | case3 s t => exact fun h => .string (compareOfLessAndEq_eq_lt.1 h)
  | case4 => exact fun h => .kind (Nat.compare_eq_lt.1 h)

theorem order_eq_lt_iff (ha : a.isExact = true) (hb : b.isExact = true) :
    a.order b = .lt ↔ a.Less b :=
  ⟨less_of_order ha hb, fun h => h.order ha hb⟩

theorem order_eq_gt_iff (ha : a.isExact = true) (hb : b.isExact = true) :
    a.order b = .gt ↔ b.Less a := by
  rw [← order_eq_lt_iff hb ha, ← order_swap b a, Ordering.swap_eq_gt]

theorem order_eq_iff_ties (ha : a.isExact = true) (hb : b.isExact = true) :
    a.order b = .eq ↔ a.Ties b := by
  rw [Ties, ← order_eq_lt_iff ha hb, ← order_eq_gt_iff ha hb]
  cases a.order b <;> simp

end Json

/-- Which of two values comes first: the lesser in ascending order, the greater in descending. -/
def Direction.Leads : Direction → Json → Json → Prop
  | .asc, a, b => a.Less b
  | .desc, a, b => b.Less a

/-- The key for an ordering. A key that is not there is null. -/
def keyAt (keys : List Json) (i : Nat) : Json := keys[i]?.getD .null

/-- Keys without doubles and without whole numbers from `2 ^ 63` on. -/
def ExactKeys (keys : List Json) : Prop := ∀ v ∈ keys, v.isExact = true

instance (keys : List Json) : Decidable (ExactKeys keys) :=
  inferInstanceAs (Decidable (∀ v ∈ keys, v.isExact = true))

/-- No ordering tells keys apart. -/
def TiedKeys (ds : List Direction) (as bs : List Json) : Prop :=
  ∀ i < ds.length, (keyAt as i).Ties (keyAt bs i)

/-- Of the orderings that tell keys apart the first puts the ones before the others. -/
def LeadingKeys (ds : List Direction) (as bs : List Json) : Prop :=
  ∃ (i : Nat) (h : i < ds.length), (∀ j < i, (keyAt as j).Ties (keyAt bs j)) ∧
    ds[i].Leads (keyAt as i) (keyAt bs i)

/-- Rows in the order of their keys. -/
structure StablySorted (ds : List Direction) (rows sorted : List KeyedRow) : Prop where
  /-- Each row is there as often as it is given. -/
  perm : sorted.Perm rows
  /-- Every earlier row is at most every later one. -/
  ordered : sorted.Pairwise fun r s => LeadingKeys ds r.keys s.keys ∨ TiedKeys ds r.keys s.keys
  /-- Rows that no ordering tells apart stand in the order that they are given in. -/
  stable : ∀ tied : List KeyedRow, tied.Sublist rows →
    tied.Pairwise (fun r s => TiedKeys ds r.keys s.keys) → tied.Sublist sorted

section Keys
variable {d : Direction} {ds : List Direction} {as bs cs : List Json}

theorem keyAt_zero : keyAt as 0 = as.headD .null := by
  cases as <;> rfl

theorem keyAt_succ (i : Nat) : keyAt as (i + 1) = keyAt as.tail i := by
  cases as <;> rfl

theorem ExactKeys.head (h : ExactKeys as) : (as.headD .null).isExact = true := by
  cases as with
  | nil => rfl
  | cons a as => exact h a List.mem_cons_self

theorem ExactKeys.tail (h : ExactKeys as) : ExactKeys as.tail :=
  fun v hv => h v (List.mem_of_mem_tail hv)

theorem Direction.turn_eq_lt_iff {a b : Json} (ha : a.isExact = true) (hb : b.isExact = true) :
    d.turn (a.order b) = .lt ↔ d.Leads a b := by
  cases d with
  | asc => exact Json.order_eq_lt_iff ha hb
  | desc => rw [turn, Ordering.swap_eq_lt, Json.order_eq_gt_iff ha hb, Leads]

/-- Turning a comparison around does not tell apart what ties. -/
theorem Direction.turn_eq_eq_iff {a b : Json} (ha : a.isExact = true) (hb : b.isExact = true) :
    d.turn (a.order b) = .eq ↔ a.Ties b := by
  rw [← Json.order_eq_iff_ties ha hb]
  cases d with
  | asc => rfl
  | desc => rw [turn, Ordering.swap_eq_eq]

theorem tiedKeys_cons : TiedKeys (d :: ds) as bs ↔
    (as.headD .null).Ties (bs.headD .null) ∧ TiedKeys ds as.tail bs.tail := by
  simp only [TiedKeys, List.length_cons, ← keyAt_zero, ← keyAt_succ]
  exact Nat.forall_lt_succ_left

theorem leadingKeys_cons : LeadingKeys (d :: ds) as bs ↔
    d.Leads (as.headD .null) (bs.headD .null) ∨
      (as.headD .null).Ties (bs.headD .null) ∧ LeadingKeys ds as.tail bs.tail := by
  simp only [LeadingKeys, ← keyAt_zero, ← keyAt_succ]
  constructor
  · rintro ⟨_ | i, hi, hties, hlead⟩
    · exact .inl hlead
    · obtain ⟨hhead, htail⟩ := Nat.forall_lt_succ_left.1 hties
      exact .inr ⟨hhead, i, Nat.lt_of_succ_lt_succ hi, htail, hlead⟩
  · rintro (hlead | ⟨hhead, i, hi, htail, hlead⟩)
    · exact ⟨0, Nat.succ_pos _, nofun, hlead⟩
    · exact ⟨i + 1, Nat.succ_lt_succ hi, Nat.forall_lt_succ_left.2 ⟨hhead, htail⟩, hlead⟩

theorem orderKeys_eq_eq_iff (ha : ExactKeys as) (hb : ExactKeys bs) :
    orderKeys ds as bs = .eq ↔ TiedKeys ds as bs := by
  induction ds generalizing as bs with
  | nil => exact iff_of_true rfl nofun
  | cons d ds ih =>
    rw [orderKeys, Ordering.then_eq_eq, tiedKeys_cons, Direction.turn_eq_eq_iff ha.head hb.head,
      ih ha.tail hb.tail]

theorem orderKeys_eq_lt_iff (ha : ExactKeys as) (hb : ExactKeys bs) :
    orderKeys ds as bs = .lt ↔ LeadingKeys ds as bs := by
  induction ds generalizing as bs with
  | nil => exact iff_of_false nofun fun ⟨_, hi, _⟩ => Nat.not_lt_zero _ hi
  | cons d ds ih =>
    rw [orderKeys, Ordering.then_eq_lt, leadingKeys_cons, Direction.turn_eq_lt_iff ha.head hb.head,
      Direction.turn_eq_eq_iff ha.head hb.head, ih ha.tail hb.tail]

theorem isLE_orderKeys_iff (ha : ExactKeys as) (hb : ExactKeys bs) :
    (orderKeys ds as bs).isLE ↔ LeadingKeys ds as bs ∨ TiedKeys ds as bs := by
  rw [← orderKeys_eq_lt_iff ha hb, ← orderKeys_eq_eq_iff ha hb]
  cases orderKeys ds as bs <;> simp

/-- Missing keys count as null, and keys that no ordering is for do not count. -/
theorem orderKeys_takeD (ds : List Direction) (as bs : List Json) :
    orderKeys ds (as.takeD ds.length .null) (bs.takeD ds.length .null) = orderKeys ds as bs := by
  induction ds generalizing as bs with
  | nil => rfl
  | cons d ds ih =>
    rw [orderKeys, orderKeys, ← ih as.tail bs.tail]
    rfl

theorem ExactKeys.forall₂_takeD (h : ExactKeys as) (ds : List Direction) :
    List.Forall₂ (fun _ v => v.isExact = true) ds (as.takeD ds.length .null) := by
  induction ds generalizing as with
  | nil => exact .nil
  | cons d ds ih => exact .cons h.head (ih h.tail)

/-- Exact keys compare consistently, however many there are. -/
theorem orderKeys_trans (ha : ExactKeys as) (hb : ExactKeys bs) (hc : ExactKeys cs)
    (hab : (orderKeys ds as bs).isLE) (hbc : (orderKeys ds bs cs).isLE) :
    (orderKeys ds as cs).isLE := by
  have hconsistent : ∀ d ∈ ds, Json.Consistent fun v => v.isExact = true :=
    fun _ _ => Json.consistent_of_isExact fun _ h => h
  have htrans : Std.TransCmp fun as bs : Keys (fun _ v => v.isExact = true) ds =>
      orderKeys (ds.map id) as.1 bs.1 := transCmp_orderKeys hconsistent
  have h := htrans.isLE_trans (a := ⟨_, ha.forall₂_takeD ds⟩) (b := ⟨_, hb.forall₂_takeD ds⟩)
    (c := ⟨_, hc.forall₂_takeD ds⟩)
  simp only [List.map_id, orderKeys_takeD] at h
  exact h hab hbc

end Keys

namespace KeyedRow
variable {ds : List Direction} {rows : List KeyedRow}

/-- How rows compare by their keys. -/
def order (ds : List Direction) (r s : KeyedRow) : Ordering := orderKeys ds r.keys s.keys

instance : Std.OrientedCmp (order ds) := ⟨(orderKeys_swap ..).symm⟩

theorem pairwise_isLE_iff (h : ∀ r ∈ rows, ExactKeys r.keys) :
    (rows.Pairwise fun r s => (order ds r s).isLE) ↔
      rows.Pairwise fun r s => LeadingKeys ds r.keys s.keys ∨ TiedKeys ds r.keys s.keys :=
  List.Pairwise.iff_of_mem fun {r s} hr hs => isLE_orderKeys_iff (h r hr) (h s hs)

theorem pairwise_tie_iff (h : ∀ r ∈ rows, ExactKeys r.keys) :
    (rows.Pairwise fun r s => order ds r s = .eq) ↔
      rows.Pairwise fun r s => TiedKeys ds r.keys s.keys :=
  List.Pairwise.iff_of_mem fun {r s} hr hs => orderKeys_eq_eq_iff (h r hr) (h s hs)

end KeyedRow

/-- Rows with exact keys are sorted to the one list of them in which every earlier row is at most
every later one, by the first ordering that tells the two apart, and rows that no ordering tells
apart stand as they are given. -/
theorem stablySorted_iff {ds : List Direction} {rows sorted : List KeyedRow}
    (hexact : ∀ r ∈ rows, ExactKeys r.keys) :
    StablySorted ds rows sorted ↔ sorted = sortRows ds rows := by
  have hsort : sortRows ds rows = sortWith (KeyedRow.order ds) rows := sortRows_eq ds rows
  have hiff : sorted = sortWith (KeyedRow.order ds) rows ↔ _ :=
    eq_sortWith_iff (p := fun r => ExactKeys r.keys) (fun _ _ _ => orderKeys_trans) hexact
  have hexact' (hperm : sorted.Perm rows) : ∀ r ∈ sorted, ExactKeys r.keys :=
    fun r hr => hexact r (hperm.mem_iff.1 hr)
  have htied {tied : List KeyedRow} (h : tied.Sublist rows) : ∀ r ∈ tied, ExactKeys r.keys :=
    fun r hr => hexact r (h.subset hr)
  rw [hsort, hiff]
  constructor
  · rintro ⟨hperm, hordered, hstable⟩
    refine ⟨hperm, (KeyedRow.pairwise_isLE_iff (hexact' hperm)).2 hordered, fun tied h hties => ?_⟩
    exact hstable tied h ((KeyedRow.pairwise_tie_iff (htied h)).1 hties)
  · rintro ⟨hperm, hordered, hstable⟩
    refine ⟨hperm, (KeyedRow.pairwise_isLE_iff (hexact' hperm)).1 hordered, fun tied h hties => ?_⟩
    exact hstable tied h ((KeyedRow.pairwise_tie_iff (htied h)).2 hties)

/-- Keys of all kinds, more and fewer than there are orderings: lists tie, null ties with a key that
is not there, and descending order leaves both as they are given. -/
theorem stablySorted_iff_mixed :
    let row (id : UInt64) (keys : List Json) : KeyedRow := ⟨[.word id], keys⟩
    let ds := [Direction.desc, Direction.asc]
    let rows := [row 1 [.null], row 2 [.array [.null]], row 3 [.string "x", .word 2, .bool true],
      row 4 [], row 5 [.array []], row 6 [.string "x", .word 1], row 7 [.bool false],
      row 8 [.string "x", .word 2, .null]]
    let sorted := [row 2 [.array [.null]], row 5 [.array []], row 6 [.string "x", .word 1],
      row 3 [.string "x", .word 2, .bool true], row 8 [.string "x", .word 2, .null],
      row 7 [.bool false], row 1 [.null], row 4 []]
    (∀ r ∈ rows, ExactKeys r.keys) ∧ sortRows ds rows = sorted ∧ StablySorted ds rows sorted := by
  intro row ds rows sorted
  have hexact : ∀ r ∈ rows, ExactKeys r.keys := by decide
  have hsorted : sortRows ds rows = sorted := by decide +kernel
  exact ⟨hexact, hsorted, (stablySorted_iff hexact).2 hsorted.symm⟩

end EntitySelect
