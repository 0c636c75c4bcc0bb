import EntitySelect.Proofs.Query.Compiling

/-! Which queries compile, and what the others fail with: the first of their comparisons, and then
of their orderings, that cannot be compiled. Nothing can fail but a comparison whose value does not
fit its operator, and a property without a place; in which order properties are resolved does not
matter. -/
namespace EntitySelect

variable {layout : Layout} {catalog : Catalog} {underOr : Bool} {j : Joining}

/-- What keeps a property from being read. -/
def Layout.fault? (layout : Layout) (catalog : Catalog) (specifier : String) : Option QueryError :=
  match layout.locate catalog specifier with
  | .error e => some e
  | .ok none => some (layout.notFound specifier)
  | .ok (some _) => none

/-- What keeps a leaf from being compiled. Its value goes before its property. -/
def Leaf.fault? (layout : Layout) (catalog : Catalog) (l : Leaf) : Option QueryError :=
  match l.comparison with
  | .error e => some e
  | .ok _ => layout.fault? catalog l.field

namespace Layout

theorem fault?_eq_none_iff {specifier : String} : layout.fault? catalog specifier = none ↔
    ∃ place, layout.locate catalog specifier = .ok (some place) := by
  unfold fault?
  rcases layout.locate catalog specifier with e | _ | place <;> simp

theorem failure?_resolve (specifier : String) (kind : JoinKind) (langcode : Option String)
    (j : Joining) : failure? (layout.resolve catalog specifier kind langcode) j =
      layout.fault? catalog specifier := by
  unfold resolve fault?
  rcases layout.locate catalog specifier with e | _ | place <;> rfl

end Layout

namespace Leaf

theorem fault?_eq_none_iff {l : Leaf} :
    l.fault? layout catalog = none ↔ l.Ready layout catalog := by
  unfold fault?
  cases hfits : l.comparison with
  | error e =>
    refine ⟨nofun, ?_⟩
    rintro ⟨⟨p, hp⟩, -⟩
    rw [hfits] at hp
    cases hp
  | ok p =>
    rw [Layout.fault?_eq_none_iff]
    exact ⟨fun h => ⟨⟨p, hfits⟩, h⟩, fun h => h.located⟩

theorem failure?_compile (l : Leaf) (j : Joining) :
    failure? (l.compile layout catalog underOr) j = l.fault? layout catalog := by
  unfold Leaf.compile fault?
  cases l.comparison with
  | error e => rfl
  | ok p =>
    change failure? (layout.resolve catalog l.field (l.joinKind underOr) l.langcode >>= _) j = _
    rw [failure?_bind fun _ _ => failure?_pure _ _, Layout.failure?_resolve, Option.or_none]

end Leaf

namespace Condition

mutual
/-- A tree fails with the fault of its first leaf that has one. -/
theorem failure?_compile {underOr : Bool} {j : Joining} : ∀ c : Condition,
    failure? (c.compile layout catalog underOr) j = c.leaves.findSome? (Leaf.fault? layout catalog)
  | .leaf l => by
    rw [compile, Leaf.failure?_compile, leaves, List.findSome?_singleton]
  | .group c parts => by
    rw [compile, failure?_bind fun _ _ => failure?_pure _ _, Option.or_none,
      failure?_compileParts, leaves]
theorem failure?_compileParts {underOr : Bool} {j : Joining} : ∀ parts : List Condition,
    failure? (compileParts layout catalog underOr parts) j =
      (partLeaves parts).findSome? (Leaf.fault? layout catalog)
  | [] => by
    rw [compileParts, failure?_pure, partLeaves, List.findSome?_nil]
  | c :: rest => by
    have hrest (first : CompiledCondition) (i : Joining) :
        failure? (compileParts layout catalog underOr rest >>= fun out =>
            pure (first.clause :: out.1, first.addsFieldTable || out.2)) i =
          (partLeaves rest).findSome? (Leaf.fault? layout catalog) := by
      rw [failure?_bind fun _ _ => failure?_pure _ _, Option.or_none, failure?_compileParts]
    rw [compileParts, failure?_bind hrest, failure?_compile, partLeaves, List.findSome?_append]
end

end Condition

namespace Sorting

/-- An ordering that can be compiled: it is by a key column, or its property has a place. -/
def Ready (layout : Layout) (catalog : Catalog) (keys : KeyColumns) (s : Sorting) : Prop :=
  keys.label? s.field = none → ∃ place, layout.locate catalog s.field = .ok (some place)

/-- What keeps an ordering from being compiled. -/
def fault? (layout : Layout) (catalog : Catalog) (keys : KeyColumns) (s : Sorting) :
    Option QueryError :=
  match keys.label? s.field with
  | some _ => none
  | none => layout.fault? catalog s.field

theorem fault?_eq_none_iff {keys : KeyColumns} {s : Sorting} :
    s.fault? layout catalog keys = none ↔ s.Ready layout catalog keys := by
  unfold fault? Ready
  cases keys.label? s.field with
  | some label => exact iff_of_true rfl nofun
  | none =>
    rw [Layout.fault?_eq_none_iff]
    exact ⟨fun h _ => h, fun h => h rfl⟩

end Sorting

namespace Query
variable {q : Query} {t : EntityType} {base : String}

/-- What keeps a query from being compiled: the first fault of its conditions, or else of its
orderings. -/
def fault? (q : Query) (t : EntityType) (base : String) (catalog : Catalog) : Option QueryError :=
  (q.conditions.leaves.findSome? (Leaf.fault? (q.placement t base catalog) catalog)).or
    (q.activeSorts.findSome?
      (Sorting.fault? (q.placement t base catalog) catalog (q.start t base).1))

theorem failure?_resolveSort (keys : KeyColumns) (s : Sorting) (j : Joining) :
    failure? (resolveSort layout catalog keys s) j = s.fault? layout catalog keys := by
  unfold resolveSort Sorting.fault?
  cases keys.label? s.field with
  | some label => rfl
  | none =>
    change failure? (layout.resolve catalog s.field .left s.langcode >>= _) j = _
    rw [failure?_bind fun _ _ => failure?_pure _ _, Layout.failure?_resolve, Option.or_none]

theorem failure?_resolveAll (j : Joining) :
    failure? (q.resolveAll (q.placement t base catalog) catalog (q.start t base).1) j =
      q.fault? t base catalog := by
  have hsorts (condition : CompiledCondition) (i : Joining) :
      failure? (q.activeSorts.mapM (resolveSort (q.placement t base catalog) catalog
          (q.start t base).1) >>= fun sorts => pure (condition, sorts)) i =
        q.activeSorts.findSome?
          (Sorting.fault? (q.placement t base catalog) catalog (q.start t base).1) := by
    rw [failure?_bind fun _ _ => failure?_pure _ _, Option.or_none,
      failure?_mapM fun s _ => failure?_resolveSort _ s _]
  rw [resolveAll, failure?_bind hsorts, Conditions.compile, Condition.failure?_compile,
    Conditions.leaves_toCondition, fault?]

/-- A query over an entity type with a base table fails with its first fault. -/
theorem compileOver_eq_error_iff {e : QueryError} :
    q.compileOver catalog t base = .error e ↔ q.fault? t base catalog = some e := by
  rw [← failure?_resolveAll { statement := (q.start t base).2 }, failure?, compileOver]
  simp only [placement]
  rcases (q.resolveAll (t.layout q.entityType base catalog q.age) catalog
    (q.start t base).1).run.run { statement := (q.start t base).2 } with ⟨_ | _, _⟩
  · simp
  · simp

/-- A query compiles exactly if all its comparisons and orderings do. -/
theorem exists_compileOver_iff : (∃ c, q.compileOver catalog t base = .ok c) ↔
    (∀ l ∈ q.conditions.leaves, l.Ready (q.placement t base catalog) catalog) ∧
      ∀ s ∈ q.activeSorts, s.Ready (q.placement t base catalog) catalog (q.start t base).1 := by
  have hnone : q.fault? t base catalog = none ↔
      (∀ l ∈ q.conditions.leaves, l.Ready (q.placement t base catalog) catalog) ∧
        ∀ s ∈ q.activeSorts, s.Ready (q.placement t base catalog) catalog (q.start t base).1 := by
    rw [fault?, Option.or_eq_none_iff, List.findSome?_eq_none_iff, List.findSome?_eq_none_iff]
    simp only [Leaf.fault?_eq_none_iff, Sorting.fault?_eq_none_iff]
  rw [← hnone, Option.eq_none_iff_forall_ne_some]
  simp only [ne_eq, ← compileOver_eq_error_iff]
  cases q.compileOver catalog t base <;> simp

theorem exists_compile_iff : (∃ c, q.compile catalog = .ok c) ↔ ∃ t base,
    catalog.describe q.entityType = some t ∧ t.baseTable = some base ∧
      ∃ c, q.compileOver catalog t base = .ok c := by
  simp only [compile_eq_ok_iff]
  constructor
  · rintro ⟨c, t, base, ht, hbase, hc⟩
    exact ⟨t, base, ht, hbase, c, hc⟩
  · rintro ⟨t, base, ht, hbase, c, hc⟩
    exact ⟨c, t, base, ht, hbase, hc⟩

/-- Without a described entity type, or without a base table for it, nothing is looked up. -/
theorem compile_eq_error_iff {e : QueryError} : q.compile catalog = .error e ↔
    (catalog.describe q.entityType = none ∧ e = .unknownEntityType q.entityType) ∨
    (∃ t, catalog.describe q.entityType = some t ∧ t.baseTable = none ∧
      e = .noBaseTable q.entityType) ∨
    ∃ t base, catalog.describe q.entityType = some t ∧ t.baseTable = some base ∧
      q.fault? t base catalog = some e := by
  unfold compile
  cases ht : catalog.describe q.entityType with
  | none => simp [eq_comm]
  | some t =>
    cases hbase : t.baseTable with
    | none => simp [hbase, eq_comm]
    | some base => simp [hbase, compileOver_eq_error_iff]

/-- A query stays compilable when orderings are left out, or when another part of its rows is asked
for. -/
theorem exists_compiled_of_subset {q' : Query} (htype : q'.entityType = q.entityType)
    (hconditions : q'.conditions = q.conditions) (hage : q'.age = q.age)
    (hsorts : q'.activeSorts ⊆ q.activeSorts) (hc : ∃ c, q.compile catalog = .ok c) :
    ∃ c, q'.compile catalog = .ok c := by
  obtain ⟨t, base, ht, hbase, hover⟩ := exists_compile_iff.1 hc
  obtain ⟨hleaves, hready⟩ := exists_compileOver_iff.1 hover
  refine exists_compile_iff.2 ⟨t, base, htype ▸ ht, hbase, exists_compileOver_iff.2 ?_⟩
  have hstart : (q'.start t base).1 = (q.start t base).1 := by
    rw [start, start, hconditions]
  have hplacement : q'.placement t base catalog = q.placement t base catalog := by
    rw [placement, placement, htype, hage]
  rw [hstart, hplacement, hconditions]
  exact ⟨hleaves, fun s hs => hready s (hsorts hs)⟩

end Query
end EntitySelect
