import EntitySelect.Proofs.Condition.Permuted
import EntitySelect.Proofs.Query.Compilable
import EntitySelect.Proofs.Query.Listing

/-! Queries whose conditions differ only in their order. They read the same tables and accept the
same choices of rows, so the same is found for each row of the base table, in some order. -/
namespace EntitySelect

namespace Query

/-- The query with other conditions. -/
def withConditions (q : Query) (cs : Conditions) : Query := { q with conditions := cs }

section Conjunctions
variable (q : Query) (t : EntityType) (base : String) (catalog : Catalog)

/-- The comparisons that read the base table accept one of its rows. -/
def acceptsBase (b : Record) : Bool :=
  q.conditions.leaves.all fun l => ((q.placement t base catalog).link? catalog l).isSome ||
    l.accepts ((q.placement t base catalog).value catalog b (fun _ => none) l)

/-- The comparisons that read a table in a language accept a row of it. -/
def acceptsRow (b : Record) (pair : String × Option String) (row? : Option Record) : Bool :=
  q.conditions.leaves.all fun l =>
    ((q.placement t base catalog).link? catalog l).map Link.pair != some pair ||
      l.accepts ((q.placement t base catalog).value catalog b (fun _ => row?) l)

variable {q t base catalog}

/-- A comparison looks at one row only. -/
theorem value_congr {layout : Layout} {l : Leaf} {b : Record} {f g : Choice}
    (h : ∀ link, layout.link? catalog l = some link → f link.pair = g link.pair) :
    layout.value catalog b f l = layout.value catalog b g l := by
  unfold Layout.value
  split
  · next place hplace =>
    split
    · rfl
    · next hbase =>
      rw [Layout.link?_of_locate hplace, if_neg hbase] at h
      have hsame : f (place.table, l.langcode) = g (place.table, l.langcode) := h _ rfl
      rw [hsame]
  · rfl

theorem mem_pairs_of_link? {l : Leaf} {link : Link} (hl : l ∈ q.conditions.leaves)
    (h : (q.placement t base catalog).link? catalog l = some link) :
    link.pair ∈ q.pairs t base catalog := by
  obtain ⟨first, hfirst⟩ := exists_link? hl h
  obtain ⟨r, hr, -⟩ := first_of_link? hfirst
  have hfound := List.find?_some hr
  rw [Bool.and_eq_true, beq_iff_eq] at hfound
  rw [pairs, List.mem_eraseDups, List.mem_map]
  exact ⟨r, List.mem_filter.2 ⟨List.mem_of_find?_eq_some hr, hfound.1⟩, hfound.2⟩

/-- Without disjunctions each table has comparisons of its own, and all of them have to hold. -/
theorem accepts_eq_all (hfree : ∀ m ∈ q.conditions.toCondition.marked false, m.1 = false)
    (b : Record) (choice : Choice) : q.accepts t base catalog b choice =
      (q.acceptsBase t base catalog b && (q.pairs t base catalog).all fun pair =>
        q.acceptsRow t base catalog b pair (choice pair)) := by
  rw [accepts, Condition.holds_eq_all hfree, Conditions.leaves_toCondition, Bool.eq_iff_iff,
    Bool.and_eq_true, acceptsBase, List.all_eq_true, List.all_eq_true, List.all_eq_true]
  simp only [acceptsRow, List.all_eq_true, Bool.or_eq_true, bne_iff_ne]
  constructor
  · intro h
    refine ⟨fun l hl => ?_, fun pair _ l hl => ?_⟩
    · cases hlink : (q.placement t base catalog).link? catalog l with
      | some link => exact .inl rfl
      | none =>
        right
        rw [value_congr (g := choice) (by simp [hlink])]
        exact h l hl
    · by_cases hpair : ((q.placement t base catalog).link? catalog l).map Link.pair = some pair
      · right
        rw [value_congr (g := choice) fun link hlink => by simp_all]
        exact h l hl
      · exact .inl hpair
  · rintro ⟨hbase, hrows⟩ l hl
    cases hlink : (q.placement t base catalog).link? catalog l with
    | none =>
      have haccepts := (hbase l hl).resolve_left (by simp [hlink])
      rwa [value_congr (g := choice) (by simp [hlink])] at haccepts
    | some link =>
      have haccepts := (hrows link.pair (mem_pairs_of_link? hl hlink) l hl).resolve_left
        (by simp [hlink])
      rwa [value_congr (g := choice) (by simp [hlink])] at haccepts

/-- Without disjunctions the rows of each table can be chosen on their own. -/
theorem choices_eq_picks (hfree : ∀ m ∈ q.conditions.toCondition.marked false, m.1 = false)
    (d : Dataset) (b : Record) : q.choices t base catalog d b =
      if q.acceptsBase t base catalog b then
        picks (fun pair => (q.candidates t base catalog d b pair).filter
          (q.acceptsRow t base catalog b pair)) (q.pairs t base catalog)
      else [] := by
  rw [choices, ← filter_picks pairs_nodup, funext (accepts_eq_all hfree b)]
  split
  · next hbase => simp only [hbase, Bool.true_and]
  · next hbase => simp [hbase]

end Conjunctions

section Permuted
variable {q : Query} {cs : Conditions} {t : EntityType} {base : String} {catalog : Catalog}
  {d : Dataset} (hperm : q.conditions.toCondition.Permuted cs.toCondition)
include hperm

theorem leaves_perm : q.conditions.leaves.Perm cs.leaves := by
  rw [← Conditions.leaves_toCondition, ← Conditions.leaves_toCondition]
  exact hperm.leaves_perm

/-- In which order conditions stand does not matter for whether a query compiles. -/
theorem exists_compile_withConditions_iff :
    (∃ c, q.compile catalog = .ok c) ↔ ∃ c, (q.withConditions cs).compile catalog = .ok c := by
  rw [exists_compile_iff, exists_compile_iff]
  refine exists₂_congr fun t base => and_congr_right' (and_congr_right' ?_)
  rw [exists_compileOver_iff, exists_compileOver_iff]
  exact and_congr (forall_congr' fun l => imp_congr (leaves_perm hperm).mem_iff Iff.rfl) Iff.rfl

/-- The same joins are asked for. -/
theorem requests_perm : (q.requests t base catalog).Perm
    ((q.withConditions cs).requests t base catalog) :=
  ((hperm.marked_perm false).filterMap _).append_right _

theorem pairs_perm :
    (q.pairs t base catalog).Perm ((q.withConditions cs).pairs t base catalog) := by
  refine (List.perm_ext_iff_of_nodup pairs_nodup pairs_nodup).2 fun pair => ?_
  rw [pairs, pairs, List.mem_eraseDups, List.mem_eraseDups]
  exact (((requests_perm hperm).filter _).map _).mem_iff

/-- Both statements group, or neither does. -/
theorem simple_withConditions {c c' : Compiled} (h : CompiledAs q t base catalog c)
    (h' : CompiledAs (q.withConditions cs) t base catalog c') : c.simple = c'.simple := by
  have hall : (q.requests t base catalog).all
      (fun r => (q.placement t base catalog).atBase r.place) =
        ((q.withConditions cs).requests t base catalog).all
          fun r => (q.placement t base catalog).atBase r.place := (requests_perm hperm).all_eq
  rw [h.simple_eq, h'.simple_eq, hall]
  rfl

theorem accepts_withConditions : (q.withConditions cs).accepts t base catalog =
    q.accepts t base catalog := by
  funext b choice
  exact hperm.holds_eq.symm

/-- Where no table is read in two ways, the first comparison to read a table reads it as any other
does. -/
theorem link?_withConditions_of_apart (hapart : ∀ l ∈ q.links t base catalog,
    ∀ l' ∈ q.links t base catalog, l.pair = l'.pair → l = l') (pair : String × Option String) :
    (q.withConditions cs).link? t base catalog pair = q.link? t base catalog pair := by
  have hlinks : (q.links t base catalog).Perm ((q.withConditions cs).links t base catalog) :=
    (leaves_perm hperm).filterMap _
  cases hfind : q.link? t base catalog pair with
  | none =>
    rw [link?, List.find?_eq_none] at hfind ⊢
    exact fun l hl => hfind l (hlinks.mem_iff.2 hl)
  | some l =>
    have hl := List.mem_of_find?_eq_some hfind
    cases hfind' : (q.withConditions cs).link? t base catalog pair with
    | none =>
      rw [link?, List.find?_eq_none] at hfind'
      exact absurd (beq_iff_eq.2 (pair_of_link? hfind)) (hfind' l (hlinks.mem_iff.1 hl))
    | some l' =>
      have hl' := hlinks.mem_iff.2 (List.mem_of_find?_eq_some hfind')
      rw [hapart l' hl' l hl ((pair_of_link? hfind').trans (pair_of_link? hfind).symm)]

section Links
variable (hlinks : ∀ pair,
  (q.withConditions cs).link? t base catalog pair = q.link? t base catalog pair)
include hlinks

omit hperm in
/-- The same rows can be chosen. -/
theorem candidates_withConditions : (q.withConditions cs).candidates t base catalog d =
    q.candidates t base catalog d := by
  funext b pair
  have hfirst : ((q.placement t base catalog).first
      ((q.withConditions cs).requests t base catalog) pair).map Request.link =
        ((q.placement t base catalog).first (q.requests t base catalog) pair).map Request.link := by
    have hconditions := hlinks pair
    rw [link?_eq, link?_eq] at hconditions
    rw [requests, requests, Layout.first_append, Layout.first_append, Option.map_or, Option.map_or]
    exact congrArg (Option.or · _) hconditions
  have hplacement : (q.withConditions cs).placement t base catalog =
      q.placement t base catalog := rfl
  unfold candidates
  rw [hplacement]
  cases hr : (q.placement t base catalog).first (q.requests t base catalog) pair with
  | none =>
    rw [hr, Option.map_none, Option.map_eq_none_iff] at hfirst
    rw [hfirst]
  | some r =>
    rw [hr, Option.map_some, Option.map_eq_some_iff] at hfirst
    obtain ⟨r', hr', hlink⟩ := hfirst
    have htable : r'.place.table = r.place.table := congrArg Link.table hlink
    rw [hr']
    simp only [hlink, htable]

theorem choices_perm (b : Record) : (q.choices t base catalog d b).Perm
    ((q.withConditions cs).choices t base catalog d b) := by
  rw [choices, choices, accepts_withConditions hperm, candidates_withConditions hlinks]
  exact (picks_perm (pairs_perm hperm) pairs_nodup).filter _

theorem found_perm (b : Record) : (q.found t base catalog d b).Perm
    ((q.withConditions cs).found t base catalog d b) := (choices_perm hperm hlinks b).map _

/-- Without disjunctions the choice that comes first is the same. -/
theorem head?_choices (hfree : ∀ m ∈ q.conditions.toCondition.marked false, m.1 = false)
    (b : Record) : (q.choices t base catalog d b).head? =
      ((q.withConditions cs).choices t base catalog d b).head? := by
  have hfree' : ∀ m ∈ (q.withConditions cs).conditions.toCondition.marked false, m.1 = false :=
    fun m hm => hfree m ((hperm.marked_perm false).mem_iff.2 hm)
  have hbase : (q.withConditions cs).acceptsBase t base catalog b =
      q.acceptsBase t base catalog b := (leaves_perm hperm).all_eq.symm
  have hrow : (q.withConditions cs).acceptsRow t base catalog b =
      q.acceptsRow t base catalog b := by
    funext pair row?
    exact (leaves_perm hperm).all_eq.symm
  rw [choices_eq_picks hfree, choices_eq_picks hfree', hbase, hrow,
    candidates_withConditions hlinks]
  split
  · exact head?_picks_perm (pairs_perm hperm) pairs_nodup
  · rfl

end Links

end Permuted

end Query
end EntitySelect
