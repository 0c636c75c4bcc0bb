import EntitySelect.Proofs.Query.Meaning

/-! A row of the base table gives joined rows exactly if it fulfils the conditions. Joined rows are
a choice, and every choice is among the joined rows; the joins that orderings add take part in
neither. -/
namespace EntitySelect

namespace Query
variable {q : Query} {t : EntityType} {base : String} {catalog : Catalog}

theorem link?_eq (pair : String × Option String) :
    q.link? t base catalog pair =
      ((q.placement t base catalog).first (q.conditionRequests t base catalog) pair).map
        Request.link := by
  rw [link?, links, ← Conditions.leaves_toCondition, ← Condition.marked_leaves false]
  exact Layout.find?_links ..

/-- What the conditions read is joined for the conditions. -/
theorem first_of_link? {pair : String × Option String} {link : Link}
    (h : q.link? t base catalog pair = some link) : ∃ r,
      (q.placement t base catalog).first (q.requests t base catalog) pair = some r ∧
        r.link = link := by
  rw [link?_eq, Option.map_eq_some_iff] at h
  obtain ⟨r, hr, hlink⟩ := h
  refine ⟨r, ?_, hlink⟩
  rw [requests, Layout.first_append, hr, Option.some_or]

/-- The table of a request is joined, and goes by one label. -/
theorem exists_join {pair : String × Option String} {r : Request}
    (h : (q.placement t base catalog).first (q.requests t base catalog) pair = some r) : ∃ label,
      (q.joined t base catalog).registry.get? pair.1 pair.2 = some label ∧
        (q.placement t base catalog).wanted r baseLabel label ∈
          (q.joined t base catalog).statement.joins := by
  obtain rfl := Layout.pair_of_first h
  have hknown := (q.joined_spec t base catalog).known r.pair
  rw [h] at hknown
  obtain ⟨label, hlabel⟩ := Option.isSome_iff_exists.1 hknown
  exact ⟨label, hlabel, (q.joined_spec t base catalog).opened r label h hlabel⟩

/-- The table of a request is joined, unless it is the base table. -/
theorem exists_join_of_request {r : Request} (hr : r ∈ q.requests t base catalog)
    (hbase : (q.placement t base catalog).atBase r.place = false) : ∃ first label,
      (q.placement t base catalog).first (q.requests t base catalog) r.pair = some first ∧
      (q.joined t base catalog).registry.get? r.place.table r.langcode = some label ∧
      (q.placement t base catalog).wanted first baseLabel label ∈
        (q.joined t base catalog).statement.joins := by
  have hsome : ((q.placement t base catalog).first (q.requests t base catalog) r.pair).isSome := by
    rw [Layout.first, List.find?_isSome]
    exact ⟨r, hr, by simp [hbase]⟩
  obtain ⟨first, hfirst⟩ := Option.isSome_iff_exists.1 hsome
  obtain ⟨label, hlabel, hjoin⟩ := exists_join hfirst
  exact ⟨first, label, hfirst, hlabel, hjoin⟩

theorem pair_of_link? {pair : String × Option String} {link : Link}
    (h : q.link? t base catalog pair = some link) : link.pair = pair := by
  simpa using List.find?_some h

/-- A table that a comparison reads is read first by some comparison. -/
theorem exists_link? {l : Leaf} {link : Link} (hl : l ∈ q.conditions.leaves)
    (h : (q.placement t base catalog).link? catalog l = some link) :
    ∃ first, q.link? t base catalog link.pair = some first := by
  rw [← Option.isSome_iff_exists, Query.link?, List.find?_isSome]
  exact ⟨link, List.mem_filterMap.2 ⟨l, hl, h⟩, beq_self_eq_true link.pair⟩

/-- The table that a comparison reads is joined. -/
theorem exists_join_of_link {l : Leaf} {link : Link} (hl : l ∈ q.conditions.leaves)
    (h : (q.placement t base catalog).link? catalog l = some link) : ∃ label,
      (q.joined t base catalog).registry.get? link.table link.langcode = some label ∧
        ∃ j ∈ (q.joined t base catalog).statement.joins, j.label = label := by
  obtain ⟨first, hfirst⟩ := exists_link? hl h
  obtain ⟨r, hr, -⟩ := first_of_link? hfirst
  obtain ⟨label, hlabel, hjoin⟩ := exists_join hr
  exact ⟨label, hlabel, _, hjoin, rfl⟩

/-- Joined rows show the rows of a choice. -/
def Shows (q : Query) (t : EntityType) (base : String) (catalog : Catalog) (s : Scope)
    (choice : Choice) : Prop :=
  ∀ link label, q.link? t base catalog link.pair = some link →
    (q.joined t base catalog).registry.get? link.table link.langcode = some label →
    s.lookup label = choice link.pair

/-- The rows that joined rows show. -/
def shown (q : Query) (t : EntityType) (base : String) (catalog : Catalog) (s : Scope) : Choice :=
  fun pair => ((q.joined t base catalog).registry.get? pair.1 pair.2).bind fun label =>
    s.lookup label

theorem shows_shown (s : Scope) : q.Shows t base catalog s (q.shown t base catalog s) := by
  intro link label _ hlabel
  have hget : (q.joined t base catalog).registry.get? link.pair.1 link.pair.2 = some label :=
    hlabel
  simp only [shown, hget, Option.bind_some]

/-- The column of a comparison holds the value that the comparison looks at. -/
theorem read_column {l : Leaf} (hl : l ∈ q.conditions.leaves)
    (hready : l.Ready (q.placement t base catalog) catalog) {s : Scope} {b : Record}
    {choice : Choice} (hbase : s.lookup baseLabel = some b)
    (hshows : q.Shows t base catalog s choice) :
    s.read (l.column (q.placement t base catalog) catalog (q.joined t base catalog)) =
      (q.placement t base catalog).value catalog b choice l := by
  obtain ⟨place, hplace⟩ := hready.located
  simp only [Leaf.column, Layout.value, hplace]
  cases hatBase : (q.placement t base catalog).atBase place with
  | true =>
    rw [Layout.column_of_atBase hatBase, joined_label]
    simp only [if_pos, Scope.read, hbase]
    rfl
  | false =>
    have hlink : (q.placement t base catalog).link? catalog l =
        some ⟨place.table, place.source, l.langcode⟩ := by
      rw [Layout.link?_of_locate hplace, hatBase, if_neg Bool.false_ne_true]
    obtain ⟨link, hfirst⟩ := exists_link? hl hlink
    have hpair : link.pair = (place.table, l.langcode) := pair_of_link? hfirst
    obtain ⟨label, hlabel, -⟩ := exists_join_of_link hl hlink
    have hchoice : s.lookup label = choice link.pair := by
      have htable : link.table = place.table := congrArg Prod.fst hpair
      have hlangcode : link.langcode = l.langcode := congrArg Prod.snd hpair
      apply hshows link label
      · rw [hpair]
        exact hfirst
      · rw [htable, hlangcode]
        exact hlabel
    have hget : (q.joined t base catalog).registry.get? place.table l.langcode = some label :=
      hlabel
    rw [Layout.column_of_get? hatBase hget]
    simp only [Bool.false_eq_true, if_false, Scope.read, hchoice, hpair]
    cases choice (place.table, l.langcode) <;> rfl

end Query

namespace CompiledAs
variable {q : Query} {t : EntityType} {base : String} {catalog : Catalog} {c : Compiled}
  {d : Dataset}

theorem condition_holds_of_shows (h : CompiledAs q t base catalog c) {s : Scope} {b : Record}
    {choice : Choice} (hbase : s.lookup baseLabel = some b)
    (hshows : q.Shows t base catalog s choice) :
    c.statement.condition.holds s = q.conditions.toCondition.holds fun l =>
      l.accepts ((q.placement t base catalog).value catalog b choice l) := by
  rw [h.condition_holds]
  apply Condition.holds_congr
  intro l hl
  rw [Conditions.leaves_toCondition] at hl
  rw [Query.read_column hl (h.ready l hl) hbase hshows]

theorem hangsOn (h : CompiledAs q t base catalog c) {j : Join} (hj : j ∈ c.statement.joins) :
    j.HangsOn baseLabel := by
  rw [h.joins] at hj
  obtain ⟨r, -, -, hjoin⟩ := (q.joined_spec t base catalog).created j hj
  rw [hjoin]
  exact Layout.hangsOn_wanted

theorem hanging (h : CompiledAs q t base catalog c) (b : Record) :
    Dataset.Hanging baseLabel c.statement.joins [(baseLabel, b)] where
  apart := h.label ▸ h.apart
  hang _ hj := h.hangsOn hj
  free := h.label ▸ Dataset.lookup_base_of_nodup h.apart b

/-- The rows of a block are those that fulfil the condition when all joins are left joins. -/
theorem mem_block_iff (h : CompiledAs q t base catalog c) {b : Record} {s : Scope} :
    s ∈ d.block c.statement b ↔
      s ∈ d.expand (c.statement.joins.map Join.asLeft) [(baseLabel, b)] ∧
        c.statement.condition.holds s = true := by
  rw [← Dataset.block_allLeft h.apart fun j hj hkind s hs => h.lookup_isSome hj hkind hs,
    Dataset.block, List.mem_filter, ← h.label]
  rfl

theorem label_ne_base (h : CompiledAs q t base catalog c) {j : Join} (hj : j ∈ c.statement.joins) :
    j.label ≠ baseLabel := by
  intro heq
  have hapart := h.apart
  rw [Select.tableLabels, h.label] at hapart
  exact (List.nodup_cons.1 hapart).1 (List.mem_map.2 ⟨j, hj, heq⟩)

theorem lookup_base_of_mem_expand (h : CompiledAs q t base catalog c) {b : Record} {s : Scope}
    (hs : s ∈ d.expand (c.statement.joins.map Join.asLeft) [(baseLabel, b)]) :
    s.lookup baseLabel = some b := by
  rw [Dataset.lookup_of_mem_expand hs]
  · simp
  · intro k hk
    obtain ⟨j, hj, rfl⟩ := List.mem_map.1 hk
    exact (h.label_ne_base hj).symm

theorem lookup_base (h : CompiledAs q t base catalog c) {b : Record} {s : Scope}
    (hs : s ∈ d.block c.statement b) : s.lookup baseLabel = some b :=
  h.lookup_base_of_mem_expand (h.mem_block_iff.1 hs).1

/-- Joined rows are a choice. -/
theorem matches_of_mem_block (h : CompiledAs q t base catalog c) {b : Record} {s : Scope}
    (hs : s ∈ d.block c.statement b) : q.Matches t base catalog d b := by
  obtain ⟨hexpand, hholds⟩ := h.mem_block_iff.1 hs
  have hshows : q.Shows t base catalog s (q.shown t base catalog s) := Query.shows_shown s
  -- what is chosen for a table is one of the choices of its join
  have hchosen (link : Link) (hlink : q.link? t base catalog link.pair = some link) :
      (∀ row, q.shown t base catalog s link.pair = some row → row ∈ (d.tableRows link.table).filter
        ((q.placement t base catalog).belongs link b)) ∧
      (q.shown t base catalog s link.pair = none → (d.tableRows link.table).filter
        ((q.placement t base catalog).belongs link b) = []) := by
    obtain ⟨r, hr, rfl⟩ := Query.first_of_link? hlink
    obtain ⟨label, hlabel, hjoin⟩ := Query.exists_join hr
    rw [← h.joins] at hjoin
    have hmem := (h.hanging b).asLeft.lookup_mem_choices hexpand _ (List.mem_map_of_mem hjoin)
    have hne : label ≠ baseLabel := h.label_ne_base hjoin
    rw [← hshows r.link label hlink hlabel, ← Layout.partners_wanted hne]
    exact Join.mem_choices_asLeft.1 hmem
  refine ⟨q.shown t base catalog s, ⟨?_, ?_⟩, ?_⟩
  · intro link hlink row hrow
    exact List.mem_filter.1 ((hchosen link hlink).1 row hrow)
  · intro link hlink hnone row hrow
    have hempty := (hchosen link hlink).2 hnone
    rw [List.filter_eq_nil_iff] at hempty
    exact Bool.eq_false_iff.2 (hempty row hrow)
  · rw [← h.condition_holds_of_shows (h.lookup_base hs) hshows]
    exact hholds

/-- Each join can show the row that is chosen for its table. A join that was made for an ordering
can show any. -/
theorem exists_mem_choices (h : CompiledAs q t base catalog c) {b : Record} {choice : Choice}
    (hfits : Fits (q.placement t base catalog) (q.links t base catalog) d b choice) {j : Join}
    (hj : j ∈ c.statement.joins) :
    ∃ row? ∈ j.asLeft.choices (d.tableRows j.table) [(baseLabel, b)], ∀ link,
      q.link? t base catalog link.pair = some link →
      (q.joined t base catalog).registry.get? link.table link.langcode = some j.label →
      row? = choice link.pair := by
  have hne := h.label_ne_base hj
  rw [h.joins] at hj
  obtain ⟨r, hr, hlabel, hjoin⟩ := (q.joined_spec t base catalog).created j hj
  have hpartners : j.partners (d.tableRows j.table) [(baseLabel, b)] =
      (d.tableRows r.place.table).filter ((q.placement t base catalog).belongs r.link b) := by
    have htable : j.table = r.place.table := by
      rw [hjoin]
      rfl
    rw [htable, hjoin]
    exact Layout.partners_wanted hne (d.tableRows r.place.table) b
  -- the label stands for the table of this request only
  have hunique (link : Link)
      (hget : (q.joined t base catalog).registry.get? link.table link.langcode = some j.label) :
      link.pair = r.pair :=
    (q.joined_spec t base catalog).pair_unique hget hlabel
  cases hlink : q.link? t base catalog r.pair with
  | some link =>
    obtain ⟨r', hr', hrlink⟩ := Query.first_of_link? hlink
    rw [hr] at hr'
    obtain rfl := Option.some.inj hr'
    rw [← hrlink] at hlink
    refine ⟨choice r.pair, ?_, ?_⟩
    · rw [Join.mem_choices_asLeft, hpartners, List.filter_eq_nil_iff]
      constructor
      · intro row hrow
        exact List.mem_filter.2 (hfits.present r.link hlink row hrow)
      · intro hnone row hrow
        rw [hfits.absent r.link hlink hnone row hrow]
        exact Bool.false_ne_true
    · intro other _ hget
      rw [hunique other hget]
  | none =>
    have hsome : j.asLeft.choices (d.tableRows j.table) [(baseLabel, b)] ≠ [] := by
      rw [Join.choices]
      split
      · simp
      · next hfound => simpa [Join.asLeft] using hfound
    obtain ⟨row?, hrow?⟩ := List.exists_mem_of_ne_nil _ hsome
    refine ⟨row?, hrow?, ?_⟩
    intro other hother hget
    rw [hunique other hget, hlink] at hother
    cases hother

/-- Every choice is among the joined rows. -/
theorem exists_mem_block (h : CompiledAs q t base catalog c) {b : Record}
    (hmatches : q.Matches t base catalog d b) : ∃ s, s ∈ d.block c.statement b := by
  obtain ⟨choice, hfits, hholds⟩ := hmatches
  have hchoices : ∀ k ∈ c.statement.joins.map Join.asLeft,
      ∃ row? ∈ k.choices (d.tableRows k.table) [(baseLabel, b)], ∀ link,
        q.link? t base catalog link.pair = some link →
        (q.joined t base catalog).registry.get? link.table link.langcode = some k.label →
        row? = choice link.pair := by
    intro k hk
    obtain ⟨j, hj, rfl⟩ := List.mem_map.1 hk
    exact h.exists_mem_choices hfits hj
  obtain ⟨s, hs, hlookup⟩ := (h.hanging b).asLeft.exists_mem_expand hchoices
  have hshows : q.Shows t base catalog s choice := by
    intro link label hlink hlabel
    obtain ⟨r, hr, rfl⟩ := Query.first_of_link? hlink
    obtain ⟨label', hlabel', hjoin⟩ := Query.exists_join hr
    obtain rfl : label' = label := Option.some.inj (hlabel'.symm.trans hlabel)
    rw [← h.joins] at hjoin
    exact hlookup _ (List.mem_map_of_mem hjoin) r.link hlink hlabel
  refine ⟨s, h.mem_block_iff.2 ⟨hs, ?_⟩⟩
  rw [h.condition_holds_of_shows (h.lookup_base_of_mem_expand hs) hshows]
  exact hholds

theorem block_ne_nil_iff (h : CompiledAs q t base catalog c) {b : Record} :
    d.block c.statement b ≠ [] ↔ q.Matches t base catalog d b := by
  constructor
  · intro hne
    obtain ⟨s, hs⟩ := List.exists_mem_of_ne_nil _ hne
    exact h.matches_of_mem_block hs
  · intro hmatches
    obtain ⟨s, hs⟩ := h.exists_mem_block hmatches
    exact List.ne_nil_of_mem hs

end CompiledAs
end EntitySelect
