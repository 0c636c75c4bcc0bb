import EntitySelect.Proofs.Query.Compilable
import EntitySelect.Proofs.Query.Pages

/-! What a query asks of its connection. Nothing is asked unless the query compiles, and a query
that compiles can also be counted; so whatever its caller or the catalog has to mend is known before
the first call. After that an error of the connection ends the run as it is. -/
namespace EntitySelect

namespace KeyedIds

theorem category_of_addRow {ids : KeyedIds} {row : Row} {e : QueryError}
    (h : ids.addRow row = .error e) : e.category = .backend := by
  match row with
  | [] | [_] =>
    cases h
    rfl
  | key :: id :: _ =>
    rw [addRow, Json.id, Json.id] at h
    cases hkey : key.id? with
    | none =>
      rw [hkey] at h
      cases h
      rfl
    | some _ =>
      cases hid : id.id? with
      | none =>
        rw [hkey, hid] at h
        cases h
        rfl
      | some _ =>
        rw [hkey, hid] at h
        cases h

/-- Rows that do not name entities are a failure of the connection. -/
theorem category_of_ofRows {rows : List Row} {e : QueryError} (h : ofRows rows = .error e) :
    e.category = .backend := by
  unfold ofRows at h
  generalize ({} : KeyedIds) = ids at h
  induction rows generalizing ids with
  | nil => cases h
  | cons row rest ih =>
    rw [List.foldlM_cons] at h
    cases hadd : ids.addRow row with
    | error e' =>
      rw [hadd] at h
      cases h
      exact category_of_addRow hadd
    | ok next =>
      rw [hadd] at h
      exact ih next h

end KeyedIds

namespace Connection
variable (conn : Connection)

/-- What comes of asking for the number of rows of a statement. -/
def counted (s : Select) : Except QueryError Nat := (conn.fetchCount s.countQuery).mapError .backend

/-- What comes of asking for the rows of a statement. -/
def listed (s : Select) (page : Option PageState) : Except QueryError Output :=
  ((conn.fetchAll s).mapError .backend).bind fun rows =>
    (KeyedIds.ofRows rows).map (.entities · page)

theorem run_ask (call : Call) (answer : Except DatasetError α) (calls : List Call) :
    (ask call answer).run.run calls = (answer.mapError .backend, calls ++ [call]) := by
  cases answer <;> rfl

variable {conn}

theorem category_of_counted {s : Select} {e : QueryError} (h : conn.counted s = .error e) :
    e.category = .backend := by
  unfold counted at h
  cases hfetch : conn.fetchCount s.countQuery with
  | error e' =>
    rw [hfetch] at h
    cases h
    rfl
  | ok n =>
    rw [hfetch] at h
    cases h

theorem category_of_listed {s : Select} {page : Option PageState} {e : QueryError}
    (h : conn.listed s page = .error e) : e.category = .backend := by
  unfold listed at h
  cases hfetch : conn.fetchAll s with
  | error e' =>
    rw [hfetch] at h
    cases h
    rfl
  | ok rows =>
    rw [hfetch] at h
    change (KeyedIds.ofRows rows).map _ = _ at h
    cases hids : KeyedIds.ofRows rows with
    | error e' =>
      rw [hids] at h
      cases h
      exact KeyedIds.category_of_ofRows hids
    | ok ids =>
      rw [hids] at h
      cases h

end Connection

namespace Query
variable {q : Query} {catalog : Catalog} {conn : Connection} {c total : Compiled}

/-- What can be listed can be counted for its pager. -/
theorem exists_compiled_toCount (hc : q.compile catalog = .ok c) :
    ∃ total, q.toCount.compile catalog = .ok total := by
  refine exists_compiled_of_subset (q := q) rfl rfl rfl ?_ ⟨c, hc⟩
  have hnone : q.toCount.activeSorts = [] := if_pos rfl
  simp [hnone]

theorem run_step (e : Except QueryError α) (calls : List Call) :
    (step e).run.run calls = (e, calls) := by
  cases e <;> rfl

theorem execute_of_error {e : QueryError} (h : q.compile catalog = .error e) :
    q.execute catalog conn = (.error e, []) := by
  rw [execute, run, run_bind, run_step, h]

theorem execute_of_count (hc : q.compile catalog = .ok c) (hcount : c.count = true) :
    q.execute catalog conn =
      ((conn.counted c.statement).map .count, [.count c.statement.countQuery]) := by
  rw [execute, run, run_bind, run_step, hc]
  simp only [hcount, if_true]
  rw [run_bind, Connection.askCount, Connection.run_ask, Connection.counted]
  cases conn.fetchCount c.statement.countQuery <;> rfl

/-- Asking for the rows is the last call. -/
theorem run_list (s : Select) (page : Option PageState) (calls : List Call) :
    (show Session Output from do
      let rows ← conn.askAll s
      let ids ← step (KeyedIds.ofRows rows)
      return .entities ids page).run.run calls = (conn.listed s page, calls ++ [.all s]) := by
  rw [run_bind, Connection.askAll, Connection.run_ask, Connection.listed]
  cases conn.fetchAll s with
  | error e => rfl
  | ok rows =>
    change (step (KeyedIds.ofRows rows) >>= _).run.run _ = _
    rw [run_bind, run_step]
    change _ = ((KeyedIds.ofRows rows).map (Output.entities · page), calls ++ [Call.all s])
    cases KeyedIds.ofRows rows <;> rfl

theorem execute_of_unpaged (hc : q.compile catalog = .ok c) (hcount : c.count = false)
    (hpager : c.pager = none) :
    q.execute catalog conn = (conn.listed c.statement none, [.all c.statement]) := by
  rw [execute, run, run_bind, run_step, hc]
  simp only [hcount, hpager, Bool.false_eq_true, if_false]
  exact run_list c.statement none []

/-- With a pager the number of all results is asked for first. -/
theorem execute_of_paged (hc : q.compile catalog = .ok c) (hcount : c.count = false)
    {pager : Pager} (hpager : c.pager = some pager)
    (htotal : q.toCount.compile catalog = .ok total) :
    q.execute catalog conn = match conn.counted total.statement with
      | .error e => (.error e, [.count total.statement.countQuery])
      | .ok n => (conn.listed c.statement (some (pager.state n)),
          [.count total.statement.countQuery, .all c.statement]) := by
  have hpage : (q.pageState catalog conn (some pager)).run.run [] =
      ((conn.counted total.statement).map fun n => some (pager.state n),
        [.count total.statement.countQuery]) := by
    rw [pageState, run_bind, run_step, htotal]
    simp only
    rw [run_bind, Connection.askCount, Connection.run_ask, Connection.counted]
    cases conn.fetchCount total.statement.countQuery <;> rfl
  rw [execute, run, run_bind, run_step, hc]
  simp only [hcount, hpager, Bool.false_eq_true, if_false]
  rw [run_bind, hpage]
  cases conn.counted total.statement with
  | error e => rfl
  | ok n => exact run_list c.statement (some (pager.state n)) [.count total.statement.countQuery]

/-- What a compiled query gives, with the calls that are made for it: one question for a number; or
one for a number and then, if that is answered, one for rows; or just one for rows. -/
def outcome (q : Query) (conn : Connection) (c total : Compiled) :
    Except QueryError Output × List Call :=
  if q.count then ((conn.counted c.statement).map .count, [.count c.statement.countQuery])
  else match q.activePager with
    | none => (conn.listed c.statement none, [.all c.statement])
    | some pager => match conn.counted total.statement with
      | .error e => (.error e, [.count total.statement.countQuery])
      | .ok n => (conn.listed c.statement (some (pager.state n)),
          [.count total.statement.countQuery, .all c.statement])

theorem category_of_outcome {e : QueryError} (h : (q.outcome conn c total).1 = .error e) :
    e.category = .backend := by
  unfold outcome at h
  split at h
  · cases hn : conn.counted c.statement with
    | error e' =>
      rw [hn] at h
      cases h
      exact Connection.category_of_counted hn
    | ok n =>
      rw [hn] at h
      cases h
  · split at h
    · exact Connection.category_of_listed h
    · split at h
      · next hn =>
        cases h
        exact Connection.category_of_counted hn
      · exact Connection.category_of_listed h

theorem execute_eq_outcome (hc : q.compile catalog = .ok c)
    (htotal : q.toCount.compile catalog = .ok total) :
    q.execute catalog conn = q.outcome conn c total := by
  obtain ⟨t, base, ht, hbase, -⟩ := compile_eq_ok_iff.1 hc
  have h := compiledAs_of_compile hc ht hbase
  unfold outcome
  split
  · next hcount => exact execute_of_count hc (h.count.trans hcount)
  · next hcount =>
    have hcount' : c.count = false := h.count.trans (Bool.not_eq_true _ ▸ hcount)
    cases hpager : q.activePager with
    | none => exact execute_of_unpaged hc hcount' (h.pager.trans hpager)
    | some pager => exact execute_of_paged hc hcount' (h.pager.trans hpager) htotal

/-- A query that its caller or the catalog makes fail asks nothing of the connection. A query that
compiles makes the calls that it needs in their order, up to the first that is not answered, and
nothing but those answers can make it fail. -/
theorem execute_fails_closed (q : Query) (catalog : Catalog) (conn : Connection) :
    (∀ e, (q.execute catalog conn).1 = .error e →
      e.category = .configuration ∨ e.category = .caller → (q.execute catalog conn).2 = []) ∧
    ∀ c, q.compile catalog = .ok c → ∃ total, q.toCount.compile catalog = .ok total ∧
      q.execute catalog conn = q.outcome conn c total := by
  constructor
  · intro e he hcategory
    cases hc : q.compile catalog with
    | error e' => rw [execute_of_error hc]
    | ok c =>
      obtain ⟨total, htotal⟩ := exists_compiled_toCount hc
      rw [execute_eq_outcome hc htotal] at he
      rw [category_of_outcome he] at hcategory
      rcases hcategory with h | h <;> cases h
  · intro c hc
    obtain ⟨total, htotal⟩ := exists_compiled_toCount hc
    exact ⟨total, htotal, execute_eq_outcome hc htotal⟩

/-- A page of nodes over a connection that counts nothing: its error comes back, and the rows are
never asked for. -/
theorem execute_fails_closed_refused :
    let conn : Connection := ⟨fun _ => .ok [], fun _ => .error (.tableNotFound "node")⟩
    ∃ total, pagedTags.toCount.compile Catalog.tagged = .ok total ∧
      pagedTags.execute Catalog.tagged conn =
        (.error (.backend (.tableNotFound "node")), [.count total.statement.countQuery]) := by
  intro conn
  obtain ⟨c, hc⟩ : ∃ c, pagedTags.compile Catalog.tagged = .ok c := ⟨_, rfl⟩
  obtain ⟨total, htotal, hrun⟩ := (execute_fails_closed pagedTags Catalog.tagged conn).2 c hc
  exact ⟨total, htotal, hrun⟩

end Query
end EntitySelect
