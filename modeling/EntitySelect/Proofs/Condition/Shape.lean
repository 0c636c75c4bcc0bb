import EntitySelect.Proofs.Join.Asked
import EntitySelect.Proofs.Join.Growing
import EntitySelect.Proofs.Query.Compilable

/-! What a condition tree is compiled to, whatever the statement has joined before. The clause is
the tree with one comparison in the place of each leaf. A leaf may read a table that an earlier one
has joined, but what it comes to, and what it fails with, depends on that leaf only; of several
leaves that fail the first one counts. -/
namespace EntitySelect

/-- The values that an operator takes. -/
def Operator.Takes (o : Operator) (v : Json) : Prop :=
  match o with
  | .isNull | .isNotNull => True
  | .between => ∃ low high, v = .array [low, high]
  | .oneOf | .noneOf => ∃ first rest, v = .array (first :: rest)
  | .startsWith | .contains | .endsWith => (∃ s, v = .string s) ∨ ∃ n, v = .number n
  | _ => (∃ b, v = .bool b) ∨ (∃ n, v = .number n) ∨ ∃ s, v = .string s

/-- A clause of the shape of a tree: the same groups, and a clause for each leaf. -/
inductive Condition.Mirrors (r : Leaf → Where → Prop) : Condition → Where → Prop
  | leaf {l : Leaf} {w : Where} : r l w → Mirrors r (.leaf l) w
  | group {c : Conjunction} {parts : List Condition} {ws : List Where} :
    List.Forall₂ (Mirrors r) parts ws → Mirrors r (.group c parts) (.group c ws)

namespace Leaf

/-- What a leaf is compiled to: the comparison of its place, in the base table or in the table that
is registered for it. -/
inductive Becomes (layout : Layout) (catalog : Catalog) (k : Joining) (l : Leaf) : Where → Prop
  | base {place : Location} {c : Comparison} {v : Json} :
    layout.locate catalog l.field = .ok (some place) →
    l.effective.comparison l.value = .ok (c, v) → layout.atBase place = true →
    Becomes layout catalog k l (.compare ⟨k.statement.label, place.column⟩ c v)
  | joined {place : Location} {c : Comparison} {v : Json} {label : String} :
    layout.locate catalog l.field = .ok (some place) →
    l.effective.comparison l.value = .ok (c, v) → layout.atBase place = false →
    k.registry.get? place.table l.langcode = some label →
    Becomes layout catalog k l (.compare ⟨label, place.column⟩ c v)

/-- A registered table, and the join that was made of it for a leaf. -/
inductive Opens (layout : Layout) (catalog : Catalog) (root : String) (l : Leaf) :
    (String × Option String) × String → Join → Prop
  | intro {place : Location} {label : String} (kind : JoinKind) :
    layout.locate catalog l.field = .ok (some place) → layout.atBase place = false →
    Opens layout catalog root l ((place.table, l.langcode), label)
      ⟨kind, place.table, label, layout.terms place.source l.langcode root label⟩

/-- What a leaf fails with. The value is looked at before the property. -/
inductive Fails (layout : Layout) (catalog : Catalog) (l : Leaf) : QueryError → Prop
  | value {flaw : ValueFlaw} : l.effective.comparison l.value = .error flaw →
    Fails layout catalog l (.invalidCondition l.field flaw)
  | lookup {e : QueryError} : l.effective.Takes l.value →
    layout.locate catalog l.field = .error e → Fails layout catalog l e
  | nowhere : l.effective.Takes l.value → layout.locate catalog l.field = .ok none →
    Fails layout catalog l (layout.notFound l.field)

end Leaf

/-- A tree that has been compiled over the statement `s`, with the joins `new`. -/
structure Conditions.CompiledTo (g : Conditions) (layout : Layout) (catalog : Catalog) (s : Select)
    (out : CompiledCondition) (k : Joining) (new : List Join) : Prop where
  mirrors : g.toCondition.Mirrors (Leaf.Becomes layout catalog k) out.clause
  /-- Nothing but joins has been added. -/
  statement : k.statement = { s with joins := s.joins ++ new }
  /-- The tables that are registered are those of the new joins, each made for some leaf. -/
  opened : List.Forall₂ (fun e join => ∃ l ∈ g.leaves, l.Opens layout catalog s.label e join)
    k.registry.entries new
  adds : out.addsFieldTable = true ↔ ∃ join ∈ new, join.ForField layout s.label

namespace Operator
variable {o : Operator} {c : Comparison} {v : Json}

theorem exists_single_iff : (∃ p, o.single c v = .ok p) ↔
    (∃ b, v = .bool b) ∨ (∃ n, v = .number n) ∨ ∃ s, v = .string s := by
  cases v <;> simp [single]

theorem exists_literal_iff {before after : String} : (∃ p, o.literal before after v = .ok p) ↔
    (∃ s, v = .string s) ∨ ∃ n, v = .number n := by
  cases v <;> simp [literal]

theorem exists_listed_iff : (∃ p, o.listed c v = .ok p) ↔
    ∃ first rest, v = .array (first :: rest) := by
  rcases v with _ | _ | _ | _ | ⟨_ | _⟩ | _ <;> simp [listed]

/-- An operator takes the values that there is a comparison for. -/
theorem takes_iff : o.Takes v ↔ ∃ p, o.comparison v = .ok p := by
  cases o with
  | isNull | isNotNull => exact iff_of_true trivial ⟨_, rfl⟩
  | between =>
    simp only [Takes, comparison]
    split
    · next low high => exact iff_of_true ⟨low, high, rfl⟩ ⟨_, rfl⟩
    · next hnot =>
      refine iff_of_false ?_ ?_
      · rintro ⟨low, high, rfl⟩
        exact hnot low high rfl
      · rintro ⟨p, hp⟩
        cases hp
  | oneOf | noneOf => exact exists_listed_iff.symm
  | startsWith | contains | endsWith => exact exists_literal_iff.symm
  | _ => exact exists_single_iff.symm

end Operator

namespace Leaf
variable {layout : Layout} {catalog : Catalog} {l : Leaf}

theorem comparison_eq_ok_iff {p : Comparison × Json} :
    l.comparison = .ok p ↔ l.effective.comparison l.value = .ok p := by
  unfold comparison
  cases l.effective.comparison l.value <;> simp

theorem ready_iff : l.Ready layout catalog ↔ l.effective.Takes l.value ∧
    ∃ place, layout.locate catalog l.field = .ok (some place) := by
  simp only [Operator.takes_iff, ← comparison_eq_ok_iff]
  exact ⟨fun h => ⟨h.fits, h.located⟩, fun h => ⟨h.1, h.2⟩⟩

/-- A leaf fails with what keeps it from being compiled. -/
theorem fails_iff {e : QueryError} :
    l.Fails layout catalog e ↔ l.fault? layout catalog = some e := by
  have htakes := @Operator.takes_iff l.effective l.value
  -- only one of the two ways to fail is open, depending on whether the operator takes the value
  unfold fault? comparison
  cases hvalue : l.effective.comparison l.value with
  | error flaw =>
    rw [hvalue] at htakes
    have hnot : ¬ l.effective.Takes l.value := fun h => nomatch htakes.1 h
    constructor
    · rintro (h | ⟨h, -⟩ | ⟨h, -⟩)
      · rw [hvalue] at h
        cases h
        rfl
      · exact absurd h hnot
      · exact absurd h hnot
    · rintro ⟨⟩
      exact .value hvalue
  | ok p =>
    have hyes : l.effective.Takes l.value := htakes.2 ⟨p, hvalue⟩
    simp only [Layout.fault?]
    constructor
    · rintro (h | ⟨-, h⟩ | ⟨-, h⟩)
      · rw [hvalue] at h
        cases h
      · rw [h]
      · rw [h]
    · intro h
      split at h
      · next hlookup =>
        cases h
        exact .lookup hyes hlookup
      · next hnowhere =>
        cases h
        exact .nowhere hyes hnowhere
      · cases h

/-- The column that a leaf is compared in is registered. -/
theorem becomes_clause {j : Joining} (hready : l.Ready layout catalog)
    (hknown : ∀ place, layout.locate catalog l.field = .ok (some place) →
      layout.atBase place = false →
      ∃ label, j.registry.get? place.table l.langcode = some label) :
    l.Becomes layout catalog j (l.clause (l.column layout catalog j)) := by
  obtain ⟨⟨⟨c, v⟩, hfits⟩, place, hplace⟩ := hready
  have hvalue := comparison_eq_ok_iff.1 hfits
  have hclause : l.clause (l.column layout catalog j) =
      .compare (layout.column j place l.langcode) c v := by
    rw [clause, hfits, column, hplace]
  rw [hclause]
  cases hat : layout.atBase place with
  | true =>
    rw [Layout.column_of_atBase hat]
    exact .base hplace hvalue hat
  | false =>
    obtain ⟨label, hlabel⟩ := hknown place hplace hat
    rw [Layout.column_of_get? hat hlabel]
    exact .joined hplace hvalue hat hlabel

end Leaf

namespace Condition
variable {r : Leaf → Where → Prop} {f : Leaf → Where}

mutual
theorem mirrors_clause : ∀ {c : Condition}, (∀ l ∈ c.leaves, r l (f l)) → c.Mirrors r (c.clause f)
  | .leaf l, h => .leaf (h l (List.mem_singleton_self l))
  | .group _ _, h => .group (mirrors_partClauses h)
theorem mirrors_partClauses : ∀ {parts : List Condition}, (∀ l ∈ partLeaves parts, r l (f l)) →
    List.Forall₂ (Mirrors r) parts (partClauses f parts)
  | [], _ => .nil
  | c :: rest, h => by
    obtain ⟨hc, hrest⟩ :=
      List.forall_mem_append.1 (show ∀ l ∈ c.leaves ++ partLeaves rest, _ from h)
    exact .cons (mirrors_clause hc) (mirrors_partClauses hrest)
end

end Condition

namespace Condition
variable {layout : Layout} {catalog : Catalog} {c : Condition} {underOr : Bool}

theorem exists_leaf_of_request {r : Request} (hr : r ∈ c.requests layout catalog underOr) :
    ∃ l ∈ c.leaves, layout.locate catalog l.field = .ok (some r.place) ∧
      l.langcode = r.langcode := by
  obtain ⟨m, hm, hr⟩ := List.mem_filterMap.1 hr
  have hl : m.2 ∈ c.leaves := by
    rw [← marked_leaves underOr]
    exact List.mem_map_of_mem hm
  unfold Leaf.request? at hr
  split at hr
  · next place hplace =>
    cases hr
    exact ⟨m.2, hl, hplace, rfl⟩
  · cases hr

theorem exists_request_of_leaf {l : Leaf} (hl : l ∈ c.leaves) {place : Location}
    (hplace : layout.locate catalog l.field = .ok (some place)) :
    ∃ kind, ⟨place, kind, l.langcode⟩ ∈ c.requests layout catalog underOr := by
  obtain ⟨mark, hm⟩ := exists_marked_of_mem hl underOr
  exact ⟨_, List.mem_filterMap.2 ⟨_, hm, Leaf.request?_of_locate hplace mark⟩⟩

end Condition

namespace Conditions
variable {g : Conditions} {layout : Layout} {catalog : Catalog} {s : Select}
  {out : CompiledCondition} {k : Joining}

/-- What a tree has been compiled to is settled leaf by leaf, once all joins are made. -/
theorem compiledTo_of_gives (h : Gives (g.compile layout catalog) { statement := s } out k) :
    ∃ new, g.CompiledTo layout catalog s out k new := by
  obtain ⟨hcompiles, hclause⟩ := Condition.gives_compile h
  obtain ⟨entries, new, hgrown⟩ := layout.grown_enterAll
    (g.toCondition.requests layout catalog false) { statement := s }
  have hjoins : k = layout.enterAll (g.toCondition.requests layout catalog false)
    { statement := s } := hcompiles.joins
  rw [Condition.requests, ← hcompiles.adds, ← hcompiles.joins] at hgrown
  refine ⟨new, ?_, hgrown.statement, ?_, hgrown.adds⟩
  · -- nothing is asked for after the conditions here, so the columns are those of `k` itself
    rw [hclause []]
    refine Condition.mirrors_clause fun l hl => Leaf.becomes_clause ?_ fun place hplace hat => ?_
    · obtain ⟨mark, hm⟩ := Condition.exists_marked_of_mem hl false
      exact hcompiles.ready _ hm
    · obtain ⟨kind, hr⟩ := Condition.exists_request_of_leaf hl hplace
      rw [hjoins]
      exact Layout.exists_get?_of_mem hr hat { statement := s }
  · rw [hgrown.registry]
    refine hgrown.made.imp ?_
    rintro e join ⟨r, hr, hat, label, rfl, rfl⟩
    obtain ⟨l, hl, hplace, hlangcode⟩ := Condition.exists_leaf_of_request hr
    refine ⟨l, leaves_toCondition g ▸ hl, ?_⟩
    rw [Request.pair, Layout.wanted, ← hlangcode]
    exact .intro r.kind hplace hat

/-- A tree compiles exactly if each of its leaves has a value that its operator takes and a property
that has a place. The clause is then the tree, leaf by leaf. Otherwise it fails with the error of
the first leaf that cannot be compiled. -/
theorem compile_leafwise (g : Conditions) (layout : Layout) (catalog : Catalog) (s : Select) :
    let run := (g.compile layout catalog).run.run { statement := s }
    ((∃ out, run.1 = .ok out) ↔ ∀ l ∈ g.leaves, l.effective.Takes l.value ∧
      ∃ place, layout.locate catalog l.field = .ok (some place)) ∧
    (∀ out, run.1 = .ok out → ∃ new, g.CompiledTo layout catalog s out run.2 new) ∧
    ∀ e, run.1 = .error e ↔ ∃ before l after, g.leaves = before ++ l :: after ∧
      l.Fails layout catalog e ∧ ∀ m ∈ before, ∀ e, ¬ m.Fails layout catalog e := by
  intro run
  have hfailure : failure? (g.compile layout catalog) { statement := s } =
      g.leaves.findSome? (Leaf.fault? layout catalog) := by
    rw [compile, Condition.failure?_compile, leaves_toCondition]
  refine ⟨?_, ?_, fun e => ?_⟩
  · rw [← failure?_eq_none_iff, hfailure, List.findSome?_eq_none_iff]
    simp only [Leaf.fault?_eq_none_iff, Leaf.ready_iff]
  · intro out hout
    exact compiledTo_of_gives (Prod.ext hout rfl)
  · rw [← failure?_eq_some_iff, hfailure, List.findSome?_eq_some_iff]
    simp only [Leaf.fails_iff, Option.eq_none_iff_forall_ne_some, ne_eq]

end Conditions

/-- Tables for nodes and the tags that they carry. -/
def Catalog.tags : Catalog :=
  { tables := Dict.ofList [("node", ⟨"node", NameSet.ofNames ["nid"]⟩),
      ("field_data_tags", ⟨"field_data_tags", NameSet.ofNames ["tags_value"]⟩)] }

/-- A comparison of tags behind an empty group. -/
def Conditions.tags : Conditions :=
  { parts := [.group .or [],
      .leaf { field := "tags", value := .string "x", langcode := some "de" }] }

/-- The empty group stays. A value that does not fit goes before the property without a place. -/
theorem Conditions.compile_leafwise_tags :
    let s : Select := { table := "node", label := "base_table", conjunction := .and }
    (∃ out k new,
      Gives (Conditions.tags.compile Layout.tags Catalog.tags) { statement := s } out k ∧
      Conditions.tags.CompiledTo Layout.tags Catalog.tags s out k new ∧
      new.map (·.label) = ["field_data_tags"]) ∧
    ∃ before l after,
      (Conditions.tags.add (.leaf { field := "title", operator := some .between })).leaves =
        before ++ l :: after ∧
      l.Fails Layout.tags Catalog.tags (.invalidCondition "title" .notPair) := by
  intro s
  obtain ⟨-, hcompiled, -⟩ := compile_leafwise Conditions.tags Layout.tags Catalog.tags s
  obtain ⟨-, -, herror⟩ := compile_leafwise
    (Conditions.tags.add (.leaf { field := "title", operator := some .between })) Layout.tags
    Catalog.tags s
  constructor
  · obtain ⟨new, h⟩ := hcompiled _ rfl
    have hlabels := congrArg (fun t : Select => t.joins.map (·.label)) h.statement
    exact ⟨_, _, new, rfl, h, hlabels.symm⟩
  · obtain ⟨before, l, after, hleaves, hfails, -⟩ :=
      (herror (.invalidCondition "title" .notPair)).1 rfl
    exact ⟨before, l, after, hleaves, hfails⟩

end EntitySelect
