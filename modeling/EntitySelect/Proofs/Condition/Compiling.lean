import EntitySelect.Condition.Where
import EntitySelect.Proofs.Join.Joined
import EntitySelect.Proofs.Select.Mentions

/-! What compiling a condition tree comes to. The joins are those that its leaves ask for from left
to right, and the clause is the tree with a comparison in the place of each leaf; the columns are
those that can be read once all joins are made. -/
namespace EntitySelect

namespace Leaf

/-- A leaf that can be compiled: its value fits its operator, and its property has a place. -/
structure Ready (layout : Layout) (catalog : Catalog) (l : Leaf) : Prop where
  fits : ∃ p, l.comparison = .ok p
  located : ∃ place, layout.locate catalog l.field = .ok (some place)

def request? (layout : Layout) (catalog : Catalog) (underOr : Bool) (l : Leaf) : Option Request :=
  match layout.locate catalog l.field with
  | .ok (some place) => some ⟨place, l.joinKind underOr, l.langcode⟩
  | _ => none

theorem request?_of_locate {layout : Layout} {catalog : Catalog} {l : Leaf} {place : Location}
    (h : layout.locate catalog l.field = .ok (some place)) (underOr : Bool) :
    l.request? layout catalog underOr = some ⟨place, l.joinKind underOr, l.langcode⟩ := by
  rw [request?, h]

/-- The column that a leaf is compared in. -/
def column (layout : Layout) (catalog : Catalog) (j : Joining) (l : Leaf) : Column :=
  match layout.locate catalog l.field with
  | .ok (some place) => layout.column j place l.langcode
  | _ => ⟨"", ""⟩

def clause (column : Column) (l : Leaf) : Where :=
  match l.comparison with
  | .ok (c, v) => .compare column c v
  | .error _ => .group .and []

end Leaf

theorem Conditions.leaves_toCondition (g : Conditions) : g.toCondition.leaves = g.leaves := by
  rw [toCondition, Condition.leaves, Condition.partLeaves_eq]
  rfl

namespace Condition

mutual
/-- The leaves of a tree, each with whether a disjunction stands above it. -/
def marked (underOr : Bool) : Condition → List (Bool × Leaf)
  | .leaf l => [(underOr, l)]
  | .group c parts => partsMarked (underOr || c == .or) parts
def partsMarked (underOr : Bool) : List Condition → List (Bool × Leaf)
  | [] => []
  | c :: rest => marked underOr c ++ partsMarked underOr rest
end

mutual
theorem marked_leaves (underOr : Bool) : ∀ c : Condition, (c.marked underOr).map (·.2) = c.leaves
  | .leaf l => rfl
  | .group c parts => by
    simp only [marked, leaves]
    exact partsMarked_leaves _ parts
theorem partsMarked_leaves (underOr : Bool) :
    ∀ parts : List Condition, (partsMarked underOr parts).map (·.2) = partLeaves parts
  | [] => rfl
  | c :: rest => by
    rw [partsMarked, partLeaves, List.map_append, marked_leaves underOr c,
      partsMarked_leaves underOr rest]
end

theorem exists_marked_of_mem {c : Condition} {l : Leaf} (h : l ∈ c.leaves) (underOr : Bool) :
    ∃ mark, (mark, l) ∈ c.marked underOr := by
  rw [← marked_leaves underOr] at h
  obtain ⟨m, hm, rfl⟩ := List.mem_map.1 h
  exact ⟨m.1, hm⟩

mutual
/-- A tree with a clause in the place of each leaf. -/
def clause (f : Leaf → Where) : Condition → Where
  | .leaf l => f l
  | .group c parts => .group c (partClauses f parts)
def partClauses (f : Leaf → Where) : List Condition → List Where
  | [] => []
  | c :: rest => clause f c :: partClauses f rest
end

mutual
theorem clause_comparisons (f : Leaf → Where) :
    ∀ c : Condition, (c.clause f).comparisons = c.leaves.flatMap fun l => (f l).comparisons
  | .leaf l => by rw [clause, leaves, List.flatMap_singleton]
  | .group _ parts => by
    rw [clause, Where.comparisons, leaves]
    exact partClauses_comparisons f parts
theorem partClauses_comparisons (f : Leaf → Where) : ∀ parts : List Condition,
    Where.partComparisons (partClauses f parts) =
      (partLeaves parts).flatMap fun l => (f l).comparisons
  | [] => rfl
  | c :: rest => by
    rw [partClauses, Where.partComparisons, partLeaves, List.flatMap_append,
      clause_comparisons f c, partClauses_comparisons f rest]
end

theorem clause_mentions (f : Leaf → Where) (c : Condition) :
    (c.clause f).mentions = c.leaves.flatMap fun l => (f l).mentions := by
  simp only [← Where.map_comparisons, clause_comparisons, List.map_flatMap]

/-- What marked leaves ask for. -/
def requestsOf (layout : Layout) (catalog : Catalog) (ms : List (Bool × Leaf)) : List Request :=
  ms.filterMap fun m => m.2.request? layout catalog m.1

/-- What a tree asks for. -/
def requests (layout : Layout) (catalog : Catalog) (underOr : Bool) (c : Condition) :
    List Request := requestsOf layout catalog (c.marked underOr)

theorem requestsOf_append (layout : Layout) (catalog : Catalog) (ms more : List (Bool × Leaf)) :
    requestsOf layout catalog (ms ++ more) =
      requestsOf layout catalog ms ++ requestsOf layout catalog more := List.filterMap_append

end Condition

/-- The way from the joins `j` to the joins `k` with the leaves `ms`, and the clauses for it. -/
structure Compiles (layout : Layout) (catalog : Catalog) (ms : List (Bool × Leaf)) (adds : Bool)
    (j k : Joining) : Prop where
  ready : ∀ m ∈ ms, m.2.Ready layout catalog
  joins : k = layout.enterAll (Condition.requestsOf layout catalog ms) j
  adds : adds = layout.addsFieldTable (Condition.requestsOf layout catalog ms) j

namespace Compiles
variable {layout : Layout} {catalog : Catalog} {ms more : List (Bool × Leaf)} {b c : Bool}
  {j k i : Joining}

theorem append (h : Compiles layout catalog ms b j k) (h' : Compiles layout catalog more c k i) :
    Compiles layout catalog (ms ++ more) (b || c) j i where
  ready m hm := (List.mem_append.1 hm).elim (h.ready m) (h'.ready m)
  joins := by rw [Condition.requestsOf_append, Layout.enterAll_append, ← h.joins, h'.joins]
  adds := by
    rw [Condition.requestsOf_append, Layout.addsFieldTable_append, ← h.joins, ← h.adds, ← h'.adds]

end Compiles

variable {layout : Layout} {catalog : Catalog}

/-- The column stays what it is when more is joined. -/
theorem Layout.column_enter (r : Request) (rs : List Request) (j : Joining) :
    layout.column (layout.enterAll rs (layout.enter r.place r.kind r.langcode j).2) r.place
      r.langcode = (layout.enter r.place r.kind r.langcode j).1.column := by
  rcases layout.enter_cases r j with ⟨hbase, he⟩ | ⟨hbase, label, hknown, he⟩ | ⟨hbase, hnew, he⟩
  · rw [he, column, label, if_pos hbase, label_enterAll]
  · rw [he, column, Layout.label, if_neg (by simp [hbase]), get?_enterAll hknown]
    rfl
  · rw [he, column, Layout.label, if_neg (by simp [hbase]), get?_enterAll (get?_adjoin hnew)]
    rfl

theorem Leaf.gives_compile {l : Leaf} {underOr : Bool} {j k : Joining} {out : CompiledCondition}
    (h : Gives (l.compile layout catalog underOr) j out k) :
    Compiles layout catalog [(underOr, l)] out.addsFieldTable j k ∧
      ∀ rs, out.clause = l.clause (l.column layout catalog (layout.enterAll rs k)) := by
  unfold Leaf.compile at h
  rcases hfits : l.comparison with e | ⟨c, v⟩
  · rw [hfits] at h
    exact absurd h not_gives_throw
  · rw [hfits] at h
    obtain ⟨r, i, hr, h⟩ := gives_bind_iff.1 h
    obtain ⟨rfl, rfl⟩ := gives_pure_iff.1 h
    obtain ⟨place, hplace, rfl, rfl⟩ := Layout.gives_resolve_iff.1 hr
    have hrequest := Leaf.request?_of_locate hplace underOr
    refine ⟨⟨?_, ?_, ?_⟩, ?_⟩
    · intro m hm
      rw [List.mem_singleton.1 hm]
      exact ⟨⟨_, hfits⟩, ⟨_, hplace⟩⟩
    · simp only [Condition.requestsOf, List.filterMap_cons, hrequest, List.filterMap_nil]
      rfl
    · simp only [Condition.requestsOf, List.filterMap_cons, hrequest, List.filterMap_nil,
        Layout.addsFieldTable, Bool.or_false]
    · intro rs
      rw [Leaf.clause, hfits, Leaf.column, hplace]
      exact congrArg (fun column => Where.compare column c v)
        (Layout.column_enter ⟨place, l.joinKind underOr, l.langcode⟩ rs j).symm

namespace Condition

mutual
/-- Compiling a tree is making the joins that its leaves ask for. -/
theorem gives_compile {underOr : Bool} {j k : Joining} {out : CompiledCondition} :
    ∀ {c : Condition}, Gives (c.compile layout catalog underOr) j out k →
      Compiles layout catalog (c.marked underOr) out.addsFieldTable j k ∧
        ∀ rs, out.clause =
          c.clause fun l => l.clause (l.column layout catalog (layout.enterAll rs k))
  | .leaf l, h => by
    rw [compile] at h
    exact Leaf.gives_compile h
  | .group c parts, h => by
    rw [compile] at h
    obtain ⟨⟨clauses, adds⟩, i, hparts, h⟩ := gives_bind_iff.1 h
    obtain ⟨rfl, rfl⟩ := gives_pure_iff.1 h
    obtain ⟨hcompiles, hclauses⟩ := gives_compileParts hparts
    refine ⟨hcompiles, fun rs => ?_⟩
    rw [clause, ← hclauses rs]
theorem gives_compileParts {underOr : Bool} {j k : Joining} {out : List Where × Bool} :
    ∀ {parts : List Condition}, Gives (compileParts layout catalog underOr parts) j out k →
      Compiles layout catalog (partsMarked underOr parts) out.2 j k ∧
        ∀ rs, out.1 = partClauses
          (fun l => l.clause (l.column layout catalog (layout.enterAll rs k))) parts
  | [], h => by
    rw [compileParts] at h
    obtain ⟨rfl, rfl⟩ := gives_pure_iff.1 h
    exact ⟨⟨by simp [partsMarked], rfl, rfl⟩, fun _ => rfl⟩
  | c :: rest, h => by
    rw [compileParts] at h
    obtain ⟨first, i, hfirst, h⟩ := gives_bind_iff.1 h
    obtain ⟨⟨clauses, adds⟩, i', hrest, h⟩ := gives_bind_iff.1 h
    obtain ⟨rfl, rfl⟩ := gives_pure_iff.1 h
    obtain ⟨hcompiles, hclause⟩ := gives_compile hfirst
    obtain ⟨hcompiles', hclauses⟩ := gives_compileParts hrest
    refine ⟨hcompiles.append hcompiles', fun rs => ?_⟩
    have hlater := hclause (requestsOf layout catalog (partsMarked underOr rest) ++ rs)
    rw [Layout.enterAll_append, ← hcompiles'.joins] at hlater
    rw [partClauses, ← hlater, ← hclauses rs]
end

end Condition
end EntitySelect
