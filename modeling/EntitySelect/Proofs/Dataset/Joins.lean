import EntitySelect.Dataset.Evaluation
import Mathlib.Data.List.Nodup

/-! How joined rows come about. Each row of the base table is joined on its own, and what is joined
stands behind what was there before. -/
namespace EntitySelect

namespace Join

/-- The join with its rows kept where there is no partner. -/
def asLeft (j : Join) : Join := { j with kind := .left }

/-- The rows of a table that belong to joined rows. -/
def partners (j : Join) (rows : List Record) (s : Scope) : List Record :=
  rows.filter fun row => j.on.all (·.holds (s ++ [(j.label, row)]))

/-- What can be joined to joined rows: a partner, or nothing if a left join finds none. -/
def choices (j : Join) (rows : List Record) (s : Scope) : List (Option Record) :=
  if (j.partners rows s).isEmpty && j.kind == .left then [none] else (j.partners rows s).map some

theorem extend_eq (j : Join) (rows : List Record) (s : Scope) :
    j.extend rows s = (j.choices rows s).map fun row? => s ++ row?.toList.map (j.label, ·) := by
  have hfound :
      (rows.map fun row => s ++ [(j.label, row)]).filter (fun t => j.on.all (·.holds t)) =
        (j.partners rows s).map fun row => s ++ [(j.label, row)] := by
    rw [partners, List.filter_map]
    rfl
  rw [extend, hfound, choices, List.isEmpty_map]
  split
  · simp
  · simp

theorem partners_asLeft (j : Join) (rows : List Record) (s : Scope) :
    j.asLeft.partners rows s = j.partners rows s := rfl

/-- An inner join is a left join that forgets the rows without a partner. -/
theorem choices_asLeft (j : Join) (rows : List Record) (s : Scope) :
    j.asLeft.choices rows s = j.choices rows s ∨
      j.kind = .inner ∧ j.choices rows s = [] ∧ j.asLeft.choices rows s = [none] := by
  rw [choices, choices, partners_asLeft]
  by_cases hfound : j.partners rows s = []
  · cases hkind : j.kind with
    | left => simp [asLeft, hfound]
    | inner => simp [asLeft, hfound]
  · left
    simp [hfound]

/-- What can be joined but for nothing are the partners. -/
theorem some_mem_choices_iff {j : Join} {rows : List Record} {s : Scope} {row : Record} :
    some row ∈ j.choices rows s ↔ row ∈ j.partners rows s := by
  rw [choices]
  split
  · next hnone =>
    have hempty : j.partners rows s = [] := List.isEmpty_iff.1 (Bool.and_eq_true_iff.1 hnone).1
    simp [hempty]
  · simp

/-- The equations of a join are about the label of the base table and its own label only. -/
def HangsOn (j : Join) (root : String) : Prop :=
  ∀ term ∈ j.on, ∀ c ∈ term.mentions, c.table = root ∨ c.table = j.label

end Join

theorem Scope.read_congr {s t : Scope} {c : Column} (h : s.lookup c.table = t.lookup c.table) :
    s.read c = t.read c := by
  rw [read, read, h]

theorem JoinTerm.holds_congr {s t : Scope} {term : JoinTerm}
    (h : ∀ c ∈ term.mentions, s.read c = t.read c) : term.holds s = term.holds t := by
  cases term with
  | columns left right =>
    rw [holds, holds, h left (by simp [mentions]), h right (by simp [mentions])]
  | value column v => rw [holds, holds, h column (by simp [mentions])]

/-- What can be joined depends on the base row only. -/
theorem Join.choices_congr {j : Join} {root : String} (h : j.HangsOn root) {s t : Scope}
    (hroot : s.lookup root = t.lookup root) (hs : s.lookup j.label = none)
    (ht : t.lookup j.label = none) (rows : List Record) : j.choices rows s = j.choices rows t := by
  have hpartners : j.partners rows s = j.partners rows t := by
    apply List.filter_congr
    intro row _
    rw [Bool.eq_iff_iff, List.all_eq_true, List.all_eq_true]
    apply forall₂_congr
    intro term hterm
    rw [JoinTerm.holds_congr]
    intro c hc
    apply Scope.read_congr
    rw [List.lookup_append, List.lookup_append]
    rcases h term hterm c hc with hc | hc
    · rw [hc, hroot]
    · rw [hc, hs, ht]
  rw [choices, choices, hpartners]

namespace Dataset
variable {d : Dataset}

/-- The rows of a table, none if there is no such table. -/
def tableRows (d : Dataset) (table : String) : List Record := (d.tables.find? table).getD []

/-- All that the joins make of joined rows. -/
def expand (d : Dataset) : List Join → Scope → List Scope
  | [], s => [s]
  | j :: rest, s => (j.extend (d.tableRows j.table) s).flatMap (d.expand rest)

theorem rows_eq_ok_iff {table : String} {rows : List Record} :
    d.rows table = .ok rows ↔ d.tables.find? table = some rows := by
  unfold Dataset.rows
  cases d.tables.find? table <;> simp

/-- The first of some tables that is not there. -/
def missing? (d : Dataset) (tables : List String) : Option String :=
  tables.find? fun table => (d.tables.find? table).isNone

theorem missing?_eq_none_iff {tables : List String} :
    d.missing? tables = none ↔ ∀ table ∈ tables, (d.tables.find? table).isSome := by
  rw [missing?, List.find?_eq_none]
  simp only [Bool.not_eq_true, Option.isNone_eq_false_iff]

/-- Joining goes wrong only where a table is missing. -/
theorem joinAll_eq (js : List Join) (scopes : List Scope) :
    d.joinAll js scopes = match d.missing? (js.map (·.table)) with
      | some table => .error (.tableNotFound table)
      | none => .ok (scopes.flatMap (d.expand js)) := by
  induction js generalizing scopes with
  | nil =>
    change Except.ok scopes = Except.ok (scopes.flatMap fun s => [s])
    rw [List.flatMap_singleton']
  | cons j rest ih =>
    rw [joinAll, List.map_cons, missing?, List.find?_cons]
    cases htable : d.tables.find? j.table with
    | none => simp [Dataset.rows, htable]
    | some rows =>
      have hrows : d.rows j.table = .ok rows := rows_eq_ok_iff.2 htable
      have hstep : scopes.flatMap (d.expand (j :: rest)) =
          (scopes.flatMap (j.extend rows)).flatMap (d.expand rest) := by
        rw [List.flatMap_assoc]
        simp only [expand, tableRows, htable, Option.getD_some]
      simp only [hrows, ih, hstep, Option.isNone_some, missing?]

/-- Joining adds behind what is there, and adds rows of the joined tables only. -/
theorem exists_append_of_mem_expand {js : List Join} {s t : Scope} (h : t ∈ d.expand js s) :
    ∃ added, t = s ++ added ∧ ∀ e ∈ added, ∃ j ∈ js, e.1 = j.label := by
  induction js generalizing s with
  | nil =>
    rw [expand, List.mem_singleton] at h
    exact ⟨[], by simp [h], by simp⟩
  | cons j rest ih =>
    rw [expand, List.mem_flatMap] at h
    obtain ⟨s', hs', ht⟩ := h
    rw [Join.extend_eq, List.mem_map] at hs'
    obtain ⟨row?, -, rfl⟩ := hs'
    obtain ⟨added, rfl, hadded⟩ := ih ht
    refine ⟨row?.toList.map (j.label, ·) ++ added, by rw [List.append_assoc], ?_⟩
    intro e he
    rcases List.mem_append.1 he with he | he
    · obtain ⟨row, -, rfl⟩ := List.mem_map.1 he
      exact ⟨j, List.mem_cons_self, rfl⟩
    · obtain ⟨k, hk, hlabel⟩ := hadded e he
      exact ⟨k, List.mem_cons_of_mem _ hk, hlabel⟩

/-- A label that no join has is read as before. -/
theorem lookup_of_mem_expand {js : List Join} {s t : Scope} {label : String}
    (h : t ∈ d.expand js s) (hlabel : ∀ j ∈ js, label ≠ j.label) :
    t.lookup label = s.lookup label := by
  obtain ⟨added, rfl, hadded⟩ := exists_append_of_mem_expand h
  have hnone : added.lookup label = none := by
    rw [List.lookup_eq_none_iff]
    intro e he
    obtain ⟨j, hj, hlabel'⟩ := hadded e he
    rw [bne_iff_ne, hlabel']
    exact hlabel j hj
  rw [List.lookup_append, hnone, Option.or_none]

/-- Joining leaves the labels of other joins as they are. -/
theorem lookup_joined {s : Scope} {j : Join} {label : String} (hne : label ≠ j.label)
    (row? : Option Record) :
    (s ++ row?.toList.map (j.label, ·)).lookup label = s.lookup label := by
  have hnone : (row?.toList.map (j.label, ·)).lookup label = none := by
    rw [List.lookup_eq_none_iff]
    intro e he
    obtain ⟨row, -, rfl⟩ := List.mem_map.1 he
    exact bne_iff_ne.2 hne
  rw [List.lookup_append, hnone, Option.or_none]

theorem lookup_self_joined {s : Scope} {j : Join} (hj : s.lookup j.label = none)
    (row? : Option Record) : (s ++ row?.toList.map (j.label, ·)).lookup j.label = row? := by
  rw [List.lookup_append, hj, Option.none_or]
  cases row? <;> simp

/-- Joins yet to be made, each on the same base row and under a label of its own. -/
structure Hanging (root : String) (js : List Join) (s : Scope) : Prop where
  apart : (root :: js.map (·.label)).Nodup
  hang : ∀ j ∈ js, j.HangsOn root
  free : ∀ j ∈ js, s.lookup j.label = none

namespace Hanging
variable {root : String} {j : Join} {rest js : List Join} {s t : Scope}

theorem ne_label (h : Hanging root (j :: rest) s) {k : Join} (hk : k ∈ rest) :
    k.label ≠ j.label := by
  have hlabel := (List.nodup_cons.1 (List.nodup_cons.1 h.apart).2).1
  intro heq
  exact hlabel (List.mem_map.2 ⟨k, hk, heq⟩)

theorem root_ne_label (h : Hanging root js s) (hj : j ∈ js) : root ≠ j.label := by
  intro heq
  exact (List.nodup_cons.1 h.apart).1 (List.mem_map.2 ⟨j, hj, heq.symm⟩)

/-- The other joins are still to be made after the first. -/
theorem joined (h : Hanging root (j :: rest) s) (row? : Option Record) :
    Hanging root rest (s ++ row?.toList.map (j.label, ·)) where
  apart := h.apart.sublist ((List.sublist_cons_self ..).cons_cons root)
  hang k hk := h.hang k (List.mem_cons_of_mem _ hk)
  free k hk := by
    rw [lookup_joined (h.ne_label hk)]
    exact h.free k (List.mem_cons_of_mem _ hk)

/-- They have the choices that they had before. -/
theorem choices_joined (h : Hanging root (j :: rest) s) (row? : Option Record) {k : Join}
    (hk : k ∈ rest) (rows : List Record) :
    k.choices rows (s ++ row?.toList.map (j.label, ·)) = k.choices rows s :=
  Join.choices_congr (h.hang k (List.mem_cons_of_mem _ hk))
    (lookup_joined (h.root_ne_label List.mem_cons_self) row?) ((h.joined row?).free k hk)
    (h.free k (List.mem_cons_of_mem _ hk)) rows

/-- Left joins hang on the same base row. -/
theorem asLeft (h : Hanging root js s) : Hanging root (js.map Join.asLeft) s where
  apart := by
    rw [List.map_map]
    exact h.apart
  hang := List.forall_mem_map.2 h.hang
  free := List.forall_mem_map.2 h.free

/-- Where each join has the same choices in two datasets, the same rows are joined. -/
theorem expand_congr (h : Hanging root js s) {d' : Dataset}
    (hchoices : ∀ j ∈ js,
      j.choices (d.tableRows j.table) s = j.choices (d'.tableRows j.table) s) :
    d.expand js s = d'.expand js s := by
  induction js generalizing s with
  | nil => rfl
  | cons j rest ih =>
    obtain ⟨hj, hrest⟩ := List.forall_mem_cons.1 hchoices
    simp only [expand, Join.extend_eq, hj, List.flatMap_map]
    congr 1
    funext row?
    refine ih (h.joined row?) fun k hk => ?_
    rw [h.choices_joined row? hk, h.choices_joined row? hk]
    exact hrest k hk

/-- The first join is not touched again. -/
theorem lookup_head (h : Hanging root (j :: rest) s) {row? : Option Record}
    (ht : t ∈ d.expand rest (s ++ row?.toList.map (j.label, ·))) : t.lookup j.label = row? := by
  rw [lookup_of_mem_expand ht fun k hk => (h.ne_label hk).symm,
    lookup_self_joined (h.free j List.mem_cons_self)]

/-- Every join finds one of its choices. -/
theorem lookup_mem_choices (h : Hanging root js s) (ht : t ∈ d.expand js s) :
    ∀ j ∈ js, t.lookup j.label ∈ j.choices (d.tableRows j.table) s := by
  induction js generalizing s with
  | nil => simp
  | cons j rest ih =>
    rw [expand, List.mem_flatMap] at ht
    obtain ⟨s', hs', ht⟩ := ht
    rw [Join.extend_eq, List.mem_map] at hs'
    obtain ⟨row?, hrow?, rfl⟩ := hs'
    intro k hk
    rcases List.mem_cons.1 hk with rfl | hk
    · rw [h.lookup_head ht]
      exact hrow?
    · rw [← h.choices_joined row? hk]
      exact ih (h.joined row?) ht k hk

/-- Any choices for the joins are found together. -/
theorem exists_mem_expand (h : Hanging root js s) {p : Join → Option Record → Prop}
    (hchoice : ∀ j ∈ js, ∃ row? ∈ j.choices (d.tableRows j.table) s, p j row?) :
    ∃ t ∈ d.expand js s, ∀ j ∈ js, p j (t.lookup j.label) := by
  induction js generalizing s with
  | nil => exact ⟨s, List.mem_singleton_self s, by simp⟩
  | cons j rest ih =>
    obtain ⟨row?, hrow?, hp⟩ := hchoice j List.mem_cons_self
    have hrest : ∀ k ∈ rest, ∃ next? ∈
        k.choices (d.tableRows k.table) (s ++ row?.toList.map (j.label, ·)), p k next? := by
      intro k hk
      rw [h.choices_joined row? hk]
      exact hchoice k (List.mem_cons_of_mem _ hk)
    obtain ⟨t, ht, hlookup⟩ := ih (h.joined row?) hrest
    refine ⟨t, ?_, ?_⟩
    · rw [expand, List.mem_flatMap]
      refine ⟨_, ?_, ht⟩
      rw [Join.extend_eq]
      exact List.mem_map_of_mem hrow?
    · intro k hk
      rcases List.mem_cons.1 hk with rfl | hk
      · rw [h.lookup_head ht]
        exact hp
      · exact hlookup k hk

end Hanging

/-- Joined rows that show a row for every inner join come about in left joins too, and no others
do. -/
theorem filter_expand_asLeft {js : List Join} {s : Scope} {p : Scope → Bool}
    (hapart : (js.map (·.label)).Nodup) (hnew : ∀ j ∈ js, s.lookup j.label = none)
    (hneeded : ∀ j ∈ js, j.kind = .inner → ∀ t, p t = true → (t.lookup j.label).isSome) :
    (d.expand (js.map Join.asLeft) s).filter p = (d.expand js s).filter p := by
  induction js generalizing s with
  | nil => rfl
  | cons j rest ih =>
    obtain ⟨hlabel, hapart⟩ := List.nodup_cons.1 hapart
    have hother : ∀ k ∈ rest, j.label ≠ k.label := by
      intro k hk heq
      exact hlabel (List.mem_map.2 ⟨k, hk, heq.symm⟩)
    have hrest : ∀ k ∈ rest, k.kind = .inner → ∀ t, p t = true → (t.lookup k.label).isSome :=
      fun k hk => hneeded k (List.mem_cons_of_mem _ hk)
    have hnew' (row? : Option Record) :
        ∀ k ∈ rest, (s ++ row?.toList.map (j.label, ·)).lookup k.label = none := by
      intro k hk
      rw [lookup_joined (hother k hk).symm]
      exact hnew k (List.mem_cons_of_mem _ hk)
    simp only [List.map_cons, expand, Join.extend_eq, List.flatMap_map, List.filter_flatMap]
    rcases j.choices_asLeft (d.tableRows j.table) s with heq | ⟨hinner, hnil, hleft⟩
    · change List.flatMap _ (j.asLeft.choices (d.tableRows j.table) s) = _
      rw [heq]
      congr 1
      funext row?
      exact ih hapart (hnew' row?) hrest
    · -- nothing is joined, so the label of this join stays without a row
      change List.flatMap _ (j.asLeft.choices (d.tableRows j.table) s) = _
      rw [hnil, hleft, List.flatMap_nil, List.flatMap_singleton, List.filter_eq_nil_iff]
      intro t ht hp
      have hsome := hneeded j List.mem_cons_self hinner t hp
      have hlookup : t.lookup j.label = s.lookup j.label := by
        rw [lookup_of_mem_expand ht]
        · simp
        · intro k hk
          obtain ⟨k', hk', rfl⟩ := List.mem_map.1 hk
          exact hother k' hk'
      simp [hlookup, hnew j List.mem_cons_self] at hsome

end Dataset
end EntitySelect
