import EntitySelect.Proofs.Dataset.Picks
import EntitySelect.Proofs.Query.Matching

/-! What is joined to a row of the base table, told without joins and labels: for each table that is
read in a language one of the rows that belong to it, in all combinations that fulfil the
conditions. -/
namespace EntitySelect

namespace Query
variable (q : Query) (t : EntityType) (base : String) (catalog : Catalog)

/-- The tables that are read, each with its language, as they are first asked for. -/
def pairs : List (String × Option String) :=
  (((q.requests t base catalog).filter fun r =>
    !(q.placement t base catalog).atBase r.place).map Request.pair).eraseDups

/-- What can be read from a table for a row of the base table: the rows that belong to it, or
nothing if there are none. The first request for the table says how rows belong to it. -/
def candidates (d : Dataset) (b : Record) (pair : String × Option String) : List (Option Record) :=
  match (q.placement t base catalog).first (q.requests t base catalog) pair with
  | some r =>
    let found := (d.tableRows r.place.table).filter ((q.placement t base catalog).belongs r.link b)
    if found.isEmpty then [none] else found.map some
  | none => [none]

/-- A row of the base table fulfils the conditions with the rows that are chosen for it. -/
def accepts (b : Record) (choice : Choice) : Bool :=
  q.conditions.toCondition.holds fun l =>
    l.accepts ((q.placement t base catalog).value catalog b choice l)

/-- The choices for a row of the base table that fulfil the conditions. -/
def choices (d : Dataset) (b : Record) : List Choice :=
  (picks (q.candidates t base catalog d b) (q.pairs t base catalog)).filter
    (q.accepts t base catalog b)

variable {q t base catalog}

theorem registered_pairs :
    (q.joined t base catalog).registry.entries.map (·.1) = q.pairs t base catalog :=
  Layout.pairs_enterAll ..

theorem pairs_nodup : (q.pairs t base catalog).Nodup := nodup_eraseDups _

/-- A join is the one that the first request for its table asks for. -/
def Opens (q : Query) (t : EntityType) (base : String) (catalog : Catalog)
    (e : (String × Option String) × String) (j : Join) : Prop :=
  ∃ r, (q.placement t base catalog).first (q.requests t base catalog) e.1 = some r ∧
    j.asLeft = ((q.placement t base catalog).wanted r baseLabel e.2).asLeft

/-- The joins stand in the order in which their tables are registered. -/
theorem forall₂_opens : List.Forall₂ (q.Opens t base catalog)
    (q.joined t base catalog).registry.entries (q.joined t base catalog).statement.joins := by
  have hspec := q.joined_spec t base catalog
  have hlabels : List.Forall₂ Eq
      ((q.joined t base catalog).registry.entries.map fun e => (e.1.1, e.2))
      ((q.joined t base catalog).statement.joins.map fun j => (j.table, j.label)) := by
    rw [hspec.listed]
    exact List.forall₂_refl _
  rw [List.forall₂_map_left_iff, List.forall₂_map_right_iff] at hlabels
  rw [List.forall₂_iff_zip] at hlabels ⊢
  refine ⟨hlabels.1, fun {e j} hmem => ?_⟩
  obtain ⟨he, hj⟩ := List.of_mem_zip hmem
  have hlabel : e.2 = j.label := congrArg Prod.snd (hlabels.2 hmem)
  obtain ⟨r, hr, hget, hjoin⟩ := hspec.created j hj
  have hregistered : (r.pair, j.label) ∈ (q.joined t base catalog).registry.entries :=
    Registry.mem_of_get? hget
  have hentry := hspec.entry_unique he hregistered hlabel
  refine ⟨r, ?_, ?_⟩
  · rw [hentry]
    exact hr
  · rw [hlabel]
    exact congrArg Join.asLeft hjoin

/-- What a left join can join to a row of the base table. -/
theorem choices_eq_candidates {e : (String × Option String) × String} {j : Join}
    (h : q.Opens t base catalog e j) (hne : j.label ≠ baseLabel) (d : Dataset) (b : Record) :
    j.asLeft.choices (d.tableRows j.table) [(baseLabel, b)] =
      q.candidates t base catalog d b e.1 := by
  obtain ⟨r, hr, hjoin⟩ := h
  have hlabel : j.label = e.2 := congrArg Join.label hjoin
  have htable : j.table = r.place.table := congrArg Join.table hjoin
  rw [hlabel] at hne
  rw [hjoin, Join.choices, Join.partners_asLeft, Layout.partners_wanted hne, candidates, hr, htable]
  simp [Join.asLeft]

end Query

namespace CompiledAs
variable {q : Query} {t : EntityType} {base : String} {catalog : Catalog} {c : Compiled}
  {d : Dataset}

/-- Left joins show every combination of what they can join. -/
theorem map_shown_expand {b : Record} {es : List ((String × Option String) × String)}
    {js : List Join} (hopens : List.Forall₂ (q.Opens t base catalog) es js) {s : Scope}
    (h : Dataset.Hanging baseLabel (js.map Join.asLeft) s) (hbase : s.lookup baseLabel = some b) :
    (d.expand (js.map Join.asLeft) s).map
        (fun s pair => (es.lookup pair).bind fun label => s.lookup label) =
      picks (q.candidates t base catalog d b) (es.map (·.1)) := by
  induction hopens generalizing s with
  | nil => rfl
  | @cons e j es js hopen _ ih =>
    obtain ⟨pair, label⟩ := e
    have hlabel : j.label = label := by
      obtain ⟨r, -, hjoin⟩ := hopen
      exact congrArg Join.label hjoin
    have hne : j.asLeft.label ≠ baseLabel := (h.root_ne_label List.mem_cons_self).symm
    have hchoices : j.asLeft.choices (d.tableRows j.table) s =
        q.candidates t base catalog d b pair := by
      rw [← Query.choices_eq_candidates hopen hne]
      apply Join.choices_congr (h.hang j.asLeft List.mem_cons_self)
      · rw [hbase, List.lookup_cons_self]
      · exact h.free j.asLeft List.mem_cons_self
      · rw [List.lookup_cons, beq_eq_false_iff_ne.2 hne]
        rfl
    rw [List.map_cons, Dataset.expand, Join.extend_eq, List.flatMap_map, List.map_flatMap,
      List.map_cons, picks]
    change (j.asLeft.choices (d.tableRows j.table) s).flatMap _ = _
    rw [hchoices]
    congr 1
    funext row?
    have hjoined := h.joined row?
    have hbase' : (s ++ row?.toList.map (j.asLeft.label, ·)).lookup baseLabel = some b := by
      rw [Dataset.lookup_joined hne.symm, hbase]
    rw [← ih hjoined hbase', List.map_map]
    apply List.map_congr_left
    intro s' hs'
    have hself : s'.lookup label = row? := by
      rw [← hlabel]
      exact h.lookup_head hs'
    funext other
    rw [List.lookup_cons, Function.comp_apply]
    by_cases hother : other = pair
    · rw [hother, Function.update_self, beq_self_eq_true, ← hself]
      rfl
    · rw [Function.update_of_ne hother, beq_eq_false_iff_ne.2 hother]

/-- What is joined to a row of the base table shows the choices that fulfil the conditions. -/
theorem map_shown_block (h : CompiledAs q t base catalog c) (b : Record) :
    (d.block c.statement b).map (q.shown t base catalog) = q.choices t base catalog d b := by
  have hopens : List.Forall₂ (q.Opens t base catalog) (q.joined t base catalog).registry.entries
      (q.joined t base catalog).statement.joins := Query.forall₂_opens
  have hexpand := map_shown_expand (d := d) (b := b) hopens (h.joins ▸ (h.hanging b).asLeft)
    (List.lookup_cons_self ..)
  rw [Query.registered_pairs, ← h.joins] at hexpand
  rw [Query.choices, ← hexpand, List.filter_map, ← Dataset.block_allLeft h.apart
    fun j hj hkind s hs => h.lookup_isSome hj hkind hs]
  have hblock : d.block c.statement.allLeft b =
      (d.expand (c.statement.joins.map Join.asLeft) [(baseLabel, b)]).filter
        c.statement.condition.holds := by
    rw [Dataset.block, ← h.label]
    rfl
  rw [hblock]
  refine congrArg (List.map _) (List.filter_congr fun s hs => ?_)
  exact h.condition_holds_of_shows (h.lookup_base_of_mem_expand hs) (q.shows_shown s)

end CompiledAs
end EntitySelect
