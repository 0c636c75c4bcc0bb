import EntitySelect.Proofs.Dict
import EntitySelect.Proofs.Join.Requests
import EntitySelect.Proofs.Repeats

/-! The joins of a statement that is joined through requests only. Labels differ, the registry lists
the joins in their order, and every join is the one that the first request for its table and
language asked for. -/
namespace EntitySelect

theorem Registry.mem_of_get? {g : Registry} {pair : String × Option String} {label : String}
    (h : g.get? pair.1 pair.2 = some label) : (pair, label) ∈ g.entries := mem_of_lookup h

namespace Layout
variable {layout : Layout} {start : Select} {rs : List Request} {j : Joining}

/-- The first request for a table in a language. -/
def first (layout : Layout) (rs : List Request) (pair : String × Option String) : Option Request :=
  rs.find? fun r => !layout.atBase r.place && r.pair == pair

theorem first_append (layout : Layout) (rs more : List Request) (pair : String × Option String) :
    layout.first (rs ++ more) pair = (layout.first rs pair).or (layout.first more pair) :=
  List.find?_append

theorem first_singleton (layout : Layout) (r : Request) (pair : String × Option String) :
    layout.first [r] pair =
      if layout.atBase r.place = false ∧ r.pair = pair then some r else none := by
  simp only [first, List.find?_cons, List.find?_nil]
  split
  · next h => rw [if_pos (by simpa using h)]
  · next h => rw [if_neg (by simpa using h)]

theorem pair_of_first {pair : String × Option String} {r : Request}
    (h : layout.first rs pair = some r) : r.pair = pair := by
  have := List.find?_some h
  simp only [Bool.and_eq_true, beq_iff_eq] at this
  exact this.2

theorem atBase_of_first {pair : String × Option String} {r : Request}
    (h : layout.first rs pair = some r) : layout.atBase r.place = false := by
  have := List.find?_some h
  simp only [Bool.and_eq_true, Bool.not_eq_true'] at this
  exact this.1

theorem mem_of_first {pair : String × Option String} {r : Request}
    (h : layout.first rs pair = some r) : r ∈ rs := List.mem_of_find?_eq_some h

/-- What the requests so far have made of the statement `start`. -/
structure Joined (layout : Layout) (start : Select) (rs : List Request) (j : Joining) : Prop where
  /-- Nothing but joins has been added. -/
  frame : j.statement = { start with joins := j.statement.joins }
  listed : j.registry.entries.map (fun e => (e.1.1, e.2)) =
    j.statement.joins.map fun k => (k.table, k.label)
  apart : j.statement.tableLabels.Nodup
  known : ∀ pair : String × Option String,
    (j.registry.get? pair.1 pair.2).isSome = (layout.first rs pair).isSome
  /-- A table that is known is joined the way its first request asks for. -/
  opened : ∀ r label, layout.first rs r.pair = some r →
    j.registry.get? r.place.table r.langcode = some label →
    layout.wanted r start.label label ∈ j.statement.joins
  /-- There are no other joins. -/
  created : ∀ k ∈ j.statement.joins, ∃ r, layout.first rs r.pair = some r ∧
    j.registry.get? r.place.table r.langcode = some k.label ∧
    k = layout.wanted r start.label k.label

namespace Joined

theorem nil (layout : Layout) {start : Select} (h : start.joins = []) :
    Joined layout start [] { statement := start } where
  frame := rfl
  listed := by simp [h]
  apart := by simp [Select.tableLabels, h]
  known _ := rfl
  opened _ _ hr := by cases hr
  created := by simp [h]

theorem label (h : Joined layout start rs j) : j.statement.label = start.label := by
  rw [h.frame]

/-- A label is registered once. -/
theorem entry_unique (h : Joined layout start rs j) {e e' : (String × Option String) × String}
    (he : e ∈ j.registry.entries) (he' : e' ∈ j.registry.entries) (hlabel : e.2 = e'.2) :
    e = e' := by
  have hlabels : (j.registry.entries.map (·.2)).Nodup := by
    have hlisted := congrArg (List.map (·.2)) h.listed
    rw [List.map_map, List.map_map] at hlisted
    exact hlisted ▸ (List.nodup_cons.1 h.apart).2
  exact List.inj_on_of_nodup_map hlabels he he' hlabel

/-- A label is registered for one table in one language only. -/
theorem pair_unique (h : Joined layout start rs j) {pair other : String × Option String}
    {label : String} (hpair : j.registry.get? pair.1 pair.2 = some label)
    (hother : j.registry.get? other.1 other.2 = some label) : pair = other :=
  congrArg Prod.fst (h.entry_unique (Registry.mem_of_get? hpair) (Registry.mem_of_get? hother) rfl)

/-- The request `r` leaves all as it is: its table needs no join. -/
theorem keep (h : Joined layout start rs j) {r : Request}
    (hr : layout.atBase r.place = true ∨ (j.registry.get? r.place.table r.langcode).isSome) :
    Joined layout start (rs ++ [r]) j := by
  have hfirst (pair : String × Option String) :
      layout.first (rs ++ [r]) pair = layout.first rs pair := by
    rw [first_append, first_singleton]
    rcases hr with hbase | hknown
    · simp [hbase]
    · split
      · next hp =>
        rw [← hp.2]
        have := h.known r.pair
        rw [Request.pair, hknown] at this
        obtain ⟨q, hq⟩ := Option.isSome_iff_exists.1 this.symm
        rw [Request.pair, hq, Option.some_or]
      · exact Option.or_none
  exact {
    frame := h.frame
    listed := h.listed
    apart := h.apart
    known := fun pair => by rw [hfirst]; exact h.known pair
    opened := fun q label hq => h.opened q label (hfirst q.pair ▸ hq)
    created := fun k hk => by
      obtain ⟨q, hq, hrest⟩ := h.created k hk
      exact ⟨q, by rw [hfirst, hq], hrest⟩ }

/-- The request `r` joins a table that was not there. -/
theorem adjoin (h : Joined layout start rs j) {r : Request} (hbase : layout.atBase r.place = false)
    (hnew : j.registry.get? r.place.table r.langcode = none) :
    Joined layout start (rs ++ [r]) (layout.adjoin r j) := by
  have hget (table : String) (langcode : Option String) :=
    Registry.get?_register j.registry r.place.table table r.langcode langcode
      (j.statement.addJoin r.kind r.place.table
        (layout.terms r.place.source r.langcode j.statement.label)).1
  have hnone : layout.first rs r.pair = none := by
    have := h.known r.pair
    rw [Request.pair, hnew] at this
    exact Option.isSome_eq_false_iff.1 this.symm |> Option.isNone_iff_eq_none.1
  have hfirst (pair : String × Option String) : layout.first (rs ++ [r]) pair =
      (layout.first rs pair).or (if r.pair = pair then some r else none) := by
    rw [first_append, first_singleton]
    simp [hbase]
  -- a known table keeps its first request, and the new one has the request `r`
  have hcase {q : Request} (hq : layout.first (rs ++ [r]) q.pair = some q) :
      layout.first rs q.pair = some q ∨ q = r := by
    rw [hfirst] at hq
    cases hold : layout.first rs q.pair with
    | some old => exact .inl (by simpa [hold] using hq)
    | none =>
      rw [hold, Option.none_or] at hq
      split at hq
      · exact .inr (Option.some.inj hq).symm
      · cases hq
  have hself : layout.first (rs ++ [r]) r.pair = some r := by
    rw [hfirst, hnone, if_pos rfl, Option.none_or]
  refine ⟨?_, ?_, ?_, ?_, ?_, ?_⟩
  · exact congrArg (fun s : Select => { s with joins := (layout.adjoin r j).statement.joins })
      h.frame
  · simp only [Layout.adjoin, Registry.register, hnew, Option.isSome_none, Bool.false_eq_true,
      if_false, List.map_append, h.listed, Select.addJoin_joins, List.map_cons, List.map_nil]
  · exact Select.addJoin_tableLabels_nodup h.apart ..
  · intro pair
    simp only [Layout.adjoin, hget, hfirst, Option.isSome_or, h.known pair]
    congr 1
    by_cases hp : r.pair = pair
    · subst hp
      simp [Request.pair]
    · rw [if_neg hp, if_neg (fun heq => hp heq.symm)]
      rfl
  · intro q label hq hlabel
    simp only [Layout.adjoin, Select.addJoin_joins, List.mem_append, List.mem_singleton]
    simp only [Layout.adjoin, hget] at hlabel
    rcases hcase hq with hold | rfl
    · left
      have hknown := h.known q.pair
      rw [hold] at hknown
      obtain ⟨old, hold'⟩ := Option.isSome_iff_exists.1 hknown
      simp only [Request.pair] at hold'
      rw [hold', Option.some_or] at hlabel
      exact h.opened q label hold (hold'.trans hlabel)
    · right
      rw [hnew, Option.none_or, if_pos rfl] at hlabel
      cases hlabel
      rw [wanted, ← h.label]
  · intro k hk
    simp only [Layout.adjoin, Select.addJoin_joins, List.mem_append, List.mem_singleton] at hk
    simp only [Layout.adjoin, hget]
    rcases hk with hk | rfl
    · obtain ⟨q, hq, hlabel, hk⟩ := h.created k hk
      refine ⟨q, ?_, ?_, hk⟩
      · rw [hfirst, hq, Option.some_or]
      · rw [hlabel, Option.some_or]
    · refine ⟨r, hself, ?_, ?_⟩
      · rw [hnew, Option.none_or, if_pos rfl]
      · rw [wanted, ← h.label]

theorem enter (h : Joined layout start rs j) (r : Request) :
    Joined layout start (rs ++ [r]) (layout.enter r.place r.kind r.langcode j).2 := by
  rcases layout.enter_cases r j with ⟨hbase, he⟩ | ⟨-, label, hknown, he⟩ | ⟨hbase, hnew, he⟩
  · rw [he]
    exact h.keep (.inl hbase)
  · rw [he]
    exact h.keep (.inr (by rw [hknown]; rfl))
  · rw [he]
    exact h.adjoin hbase hnew

theorem enterAll (h : Joined layout start rs j) (more : List Request) :
    Joined layout start (rs ++ more) (layout.enterAll more j) := by
  induction more generalizing rs j with
  | nil => simpa using h
  | cons r more ih => simpa using ih (h.enter r)

end Joined

/-- Tables are registered in the order in which requests first ask for them. -/
theorem pairs_enterAll (layout : Layout) (rs : List Request) (start : Select) :
    (layout.enterAll rs { statement := start }).registry.entries.map (·.1) =
      ((rs.filter fun r => !layout.atBase r.place).map Request.pair).eraseDups := by
  induction rs using List.reverseRecOn with
  | nil => rfl
  | append_singleton rs r ih =>
    rw [enterAll_append, List.filter_append, List.map_append]
    generalize layout.enterAll rs { statement := start } = j at ih ⊢
    rw [enterAll_cons, enterAll_nil]
    rcases layout.enter_cases r j with ⟨hbase, he⟩ | ⟨hbase, label, hknown, he⟩ | ⟨hbase, hnew, he⟩
    · rw [he, ih, List.filter_cons_of_neg (by simp [hbase]), List.filter_nil, List.map_nil,
        List.append_nil]
    · have hmem : r.pair ∈ (rs.filter fun r => !layout.atBase r.place).map Request.pair := by
        rw [← List.mem_eraseDups, ← ih]
        have hentry : (r.pair, label) ∈ j.registry.entries := Registry.mem_of_get? hknown
        exact List.mem_map.2 ⟨_, hentry, rfl⟩
      rw [he, ih, List.filter_cons_of_pos (by simp [hbase]), List.filter_nil, List.map_singleton,
        eraseDups_concat, if_pos hmem]
    · have hnot : r.pair ∉ (rs.filter fun r => !layout.atBase r.place).map Request.pair := by
        rw [← List.mem_eraseDups, ← ih]
        intro hmem
        obtain ⟨e, he, heq⟩ := List.mem_map.1 hmem
        have hne := List.lookup_eq_none_iff.1 hnew e he
        rw [heq, Request.pair, bne_self_eq_false] at hne
        cases hne
      rw [he, adjoin, List.filter_cons_of_pos (by simp [hbase]), List.filter_nil,
        List.map_singleton, eraseDups_concat, if_neg hnot, ← ih, Registry.register,
        if_neg (by rw [hnew]; exact Bool.false_ne_true), List.map_append]
      rfl

end Layout
end EntitySelect
