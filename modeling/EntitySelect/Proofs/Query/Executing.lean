import EntitySelect.Proofs.Run
import EntitySelect.Query.Execution

/-! What it takes for a query to give a result: the statement and, for a page, the question for the
number of all results have to be answered. -/
namespace EntitySelect

variable {calls calls' : List Call}

theorem Connection.gives_ask_iff {call : Call} {answer : Except DatasetError α} {a : α} :
    Gives (ask call answer) calls a calls' ↔ answer = .ok a ∧ calls' = calls ++ [call] := by
  cases answer with
  | error e =>
    constructor
    · intro h
      cases h
    · rintro ⟨h, -⟩
      cases h
  | ok b =>
    constructor
    · intro h
      cases h
      exact ⟨rfl, rfl⟩
    · rintro ⟨h, rfl⟩
      cases h
      rfl

namespace Query
variable {q : Query} {catalog : Catalog} {conn : Connection}

theorem gives_step_iff {e : Except QueryError α} {a : α} :
    Gives (step e) calls a calls' ↔ e = .ok a ∧ calls' = calls := by
  cases e with
  | error e =>
    constructor
    · intro h
      cases h
    · rintro ⟨h, -⟩
      cases h
  | ok b =>
    constructor
    · intro h
      cases h
      exact ⟨rfl, rfl⟩
    · rintro ⟨h, rfl⟩
      cases h
      rfl

/-- The state of a pager is that for the number of all results. -/
def Paged (q : Query) (catalog : Catalog) (conn : Connection) :
    Option Pager → Option PageState → Prop
  | none, page => page = none
  | some pager, page => ∃ c total, q.toCount.compile catalog = .ok c ∧
      conn.fetchCount c.statement.countQuery = .ok total ∧ page = some (pager.state total)

theorem gives_pageState_iff {pager : Option Pager} {page : Option PageState} :
    (∃ calls', Gives (q.pageState catalog conn pager) calls page calls') ↔
      q.Paged catalog conn pager page := by
  cases pager with
  | none =>
    constructor
    · rintro ⟨calls', h⟩
      exact (gives_pure_iff.1 h).1
    · rintro rfl
      exact ⟨calls, gives_pure_iff.2 ⟨rfl, rfl⟩⟩
  | some pager =>
    constructor
    · rintro ⟨calls', h⟩
      obtain ⟨c, i, hc, h⟩ := gives_bind_iff.1 h
      obtain ⟨total, i', htotal, h⟩ := gives_bind_iff.1 h
      exact ⟨c, total, (gives_step_iff.1 hc).1, (Connection.gives_ask_iff.1 htotal).1,
        (gives_pure_iff.1 h).1⟩
    · rintro ⟨c, total, hc, htotal, rfl⟩
      refine ⟨calls ++ [.count c.statement.countQuery], gives_bind_iff.2 ⟨c, calls, ?_, ?_⟩⟩
      · exact gives_step_iff.2 ⟨hc, rfl⟩
      · exact gives_bind_iff.2 ⟨total, _, Connection.gives_ask_iff.2 ⟨htotal, rfl⟩,
          gives_pure_iff.2 ⟨rfl, rfl⟩⟩

theorem execute_eq_ok_iff {out : Output} : (q.execute catalog conn).1 = .ok out ↔
    ∃ calls, Gives (q.run catalog conn) [] out calls := by
  constructor
  · intro h
    exact ⟨(q.execute catalog conn).2, Prod.ext h rfl⟩
  · rintro ⟨calls, h⟩
    exact congrArg Prod.fst h

/-- Only a query that compiles gives a result. -/
theorem exists_compiled_of_execute {out : Output} (h : (q.execute catalog conn).1 = .ok out) :
    ∃ c, q.compile catalog = .ok c := by
  obtain ⟨calls, h⟩ := execute_eq_ok_iff.1 h
  obtain ⟨c, i, hc, -⟩ := gives_bind_iff.1 h
  exact ⟨c, (gives_step_iff.1 hc).1⟩

/-- A query for a number gives the number of rows. -/
theorem execute_count_iff {c : Compiled} (hc : q.compile catalog = .ok c) (hcount : c.count = true)
    {out : Output} : (q.execute catalog conn).1 = .ok out ↔
      ∃ n, conn.fetchCount c.statement.countQuery = .ok n ∧ out = .count n := by
  rw [execute_eq_ok_iff]
  constructor
  · rintro ⟨calls, h⟩
    obtain ⟨c', i, hc', h⟩ := gives_bind_iff.1 h
    obtain rfl := Except.ok.inj (hc.symm.trans (gives_step_iff.1 hc').1)
    rw [if_pos hcount] at h
    obtain ⟨n, i', hn, h⟩ := gives_bind_iff.1 h
    exact ⟨n, (Connection.gives_ask_iff.1 hn).1, (gives_pure_iff.1 h).1⟩
  · rintro ⟨n, hn, rfl⟩
    refine ⟨[.count c.statement.countQuery],
      gives_bind_iff.2 ⟨c, [], gives_step_iff.2 ⟨hc, rfl⟩, ?_⟩⟩
    rw [if_pos hcount]
    exact gives_bind_iff.2 ⟨n, _, Connection.gives_ask_iff.2 ⟨hn, rfl⟩,
      gives_pure_iff.2 ⟨rfl, rfl⟩⟩

/-- Any other query gives the ids of the rows, and the state of its pager. -/
theorem execute_entities_iff {c : Compiled} (hc : q.compile catalog = .ok c)
    (hcount : c.count = false) {out : Output} : (q.execute catalog conn).1 = .ok out ↔
      ∃ page rows ids, q.Paged catalog conn c.pager page ∧
        conn.fetchAll c.statement = .ok rows ∧ KeyedIds.ofRows rows = .ok ids ∧
          out = .entities ids page := by
  have hneg : ¬ c.count = true := by
    rw [hcount]
    exact Bool.false_ne_true
  rw [execute_eq_ok_iff]
  constructor
  · rintro ⟨calls, h⟩
    obtain ⟨c', i, hc', h⟩ := gives_bind_iff.1 h
    obtain rfl := Except.ok.inj (hc.symm.trans (gives_step_iff.1 hc').1)
    rw [if_neg hneg] at h
    obtain ⟨page, i₁, hpage, h⟩ := gives_bind_iff.1 h
    obtain ⟨rows, i₂, hrows, h⟩ := gives_bind_iff.1 h
    obtain ⟨ids, i₃, hids, h⟩ := gives_bind_iff.1 h
    exact ⟨page, rows, ids, gives_pageState_iff.1 ⟨i₁, hpage⟩,
      (Connection.gives_ask_iff.1 hrows).1, (gives_step_iff.1 hids).1, (gives_pure_iff.1 h).1⟩
  · rintro ⟨page, rows, ids, hpage, hrows, hids, rfl⟩
    obtain ⟨i, hi⟩ := gives_pageState_iff.2 hpage
    refine ⟨i ++ [.all c.statement],
      gives_bind_iff.2 ⟨c, [], gives_step_iff.2 ⟨hc, rfl⟩, ?_⟩⟩
    rw [if_neg hneg]
    refine gives_bind_iff.2 ⟨page, i, hi, ?_⟩
    refine gives_bind_iff.2 ⟨rows, _, Connection.gives_ask_iff.2 ⟨hrows, rfl⟩, ?_⟩
    exact gives_bind_iff.2 ⟨ids, _, gives_step_iff.2 ⟨hids, rfl⟩, gives_pure_iff.2 ⟨rfl, rfl⟩⟩

end Query
end EntitySelect
