import EntitySelect.Proofs.Dict
import EntitySelect.Proofs.Query.KeyedRows
import Mathlib.Data.List.Forall2

/-! Which rows ids can be collected from, and what is collected. An id may be spelled in several
ways, and a key that comes again keeps its first place and takes the later id. -/
namespace EntitySelect

/-- The value stands for the id: as a number, or spelled with decimal digits. -/
inductive Json.Denotes : Json → UInt64 → Prop
  | number (n : UInt64) : Denotes (.word n) n
  | spelled {s : String} {ds : List Char} {n : UInt64} (sign : s.toList = ds ∨ s.toList = '+' :: ds)
    (nonempty : ds ≠ []) (digits : ∀ c ∈ ds, c.isDigit = true)
    (value : Nat.ofDigitChars 10 ds 0 = n.toNat) : Denotes (.string s) n

/-- A row starts with a key and an id. -/
inductive Row.Shows : Row → UInt64 × UInt64 → Prop
  | mk {key id : Json} {k n : UInt64} (hkey : key.Denotes k) (hid : id.Denotes n)
    (rest : List Json) : Shows (key :: id :: rest) (k, n)

/-- What is wrong with a row. Its key is looked at before its id. -/
inductive Row.Fault : Row → QueryError → Prop
  | short {row : Row} (h : row.length < 2) : Fault row (.malformedRow (.tooShort row.length))
  | key {key : Json} (h : ∀ k, ¬key.Denotes k) (id : Json) (rest : List Json) :
    Fault (key :: id :: rest) (.malformedRow (.notAnId key))
  | id {key id : Json} {k : UInt64} (hkey : key.Denotes k) (h : ∀ n, ¬id.Denotes n)
    (rest : List Json) : Fault (key :: id :: rest) (.malformedRow (.notAnId id))

/-- The ids are those of the pairs. Each key stands where it first occurs, with the last of its
ids. -/
structure KeyedIds.Collects (ps : List (UInt64 × UInt64)) (ids : KeyedIds) : Prop where
  apart : ids.keys.Nodup
  order : ids.keys = (ps.map (·.1)).eraseDups
  last : ∀ key id, ids.get? key = some id ↔
    ∃ before after, ps = before ++ (key, id) :: after ∧ key ∉ after.map (·.1)

theorem ofNat_eq_some_iff {m : Nat} {n : UInt64} :
    (if m < UInt64.size then some (UInt64.ofNat m) else none) = some n ↔ m = n.toNat := by
  constructor
  · intro h
    split at h
    · next hlt => rw [← Option.some.inj h, UInt64.toNat_ofNat', Nat.mod_eq_of_lt hlt]
    · cases h
  · rintro rfl
    rw [if_pos n.toNat_lt, UInt64.ofNat_toNat]

theorem digitsId?_eq_some_iff {cs : List Char} {n : UInt64} : digitsId? cs = some n ↔
    ∃ ds, (cs = ds ∨ cs = '+' :: ds) ∧ ds ≠ [] ∧ (∀ c ∈ ds, c.isDigit = true) ∧
      Nat.ofDigitChars 10 ds 0 = n.toNat := by
  have hbody (ds : List Char) : (if ds.isEmpty || !ds.all Char.isDigit then none
      else if ds.foldl (fun n c => n * 10 + (c.toNat - '0'.toNat)) 0 < UInt64.size then
        some (UInt64.ofNat (ds.foldl (fun n c => n * 10 + (c.toNat - '0'.toNat)) 0))
      else none) = some n ↔ ds ≠ [] ∧ (∀ c ∈ ds, c.isDigit = true) ∧
        Nat.ofDigitChars 10 ds 0 = n.toNat := by
    have hvalue : ds.foldl (fun n c => n * 10 + (c.toNat - '0'.toNat)) 0 =
        Nat.ofDigitChars 10 ds 0 := by
      simp only [Nat.ofDigitChars, Nat.mul_comm]
    rw [hvalue, Option.ite_none_left_eq_some, ofNat_eq_some_iff]
    simp [and_assoc]
  unfold digitsId?
  split
  · next rest =>
    rw [hbody rest]
    constructor
    · intro h
      exact ⟨rest, .inr rfl, h⟩
    · rintro ⟨ds, rfl | heq, h⟩
      · exact absurd (h.2.1 '+' List.mem_cons_self) (by decide)
      · cases heq
        exact h
  · next hplus =>
    rw [hbody cs]
    constructor
    · intro h
      exact ⟨cs, .inl rfl, h⟩
    · rintro ⟨ds, rfl | heq, h⟩
      · exact h
      · exact absurd heq (hplus ds)

/-- Reading gives exactly the id that a value stands for. -/
theorem Json.id?_eq_some_iff {v : Json} {n : UInt64} : v.id? = some n ↔ v.Denotes n := by
  constructor
  · intro h
    cases v with
    | number m =>
      cases m with
      | whole w =>
        rw [Word.eq_ofUInt64 h]
        exact .number n
      | double d => cases h
    | string s =>
      obtain ⟨ds, hsign, hsome, hdigits, hvalue⟩ := digitsId?_eq_some_iff.1 h
      exact .spelled hsign hsome hdigits hvalue
    | _ => cases h
  · intro h
    cases h with
    | number => exact Number.toUInt64?_ofUInt64 n
    | spelled hsign hsome hdigits hvalue =>
      exact digitsId?_eq_some_iff.2 ⟨_, hsign, hsome, hdigits, hvalue⟩

theorem Json.not_denotes_iff {v : Json} : (∀ n, ¬v.Denotes n) ↔ v.id? = none := by
  simp only [← id?_eq_some_iff, Option.eq_none_iff_forall_ne_some, ne_eq]

namespace Row

theorem shows_iff {row : Row} {p : UInt64 × UInt64} : row.Shows p ↔ row.pair? = some p := by
  constructor
  · rintro ⟨hkey, hid, rest⟩
    rw [pair?, Json.id?_eq_some_iff.2 hkey, Json.id?_eq_some_iff.2 hid]
    rfl
  · intro h
    rcases row with _ | ⟨key, _ | ⟨id, rest⟩⟩
    · cases h
    · cases h
    · rw [pair?, Option.bind_eq_some_iff] at h
      obtain ⟨k, hkey, h⟩ := h
      obtain ⟨n, hid, rfl⟩ := Option.map_eq_some_iff.1 h
      exact ⟨Json.id?_eq_some_iff.1 hkey, Json.id?_eq_some_iff.1 hid, rest⟩

theorem shows_of_map {rows : List Row} {ps : List (UInt64 × UInt64)} :
    List.Forall₂ Shows rows ps ↔ rows.map pair? = ps.map some := by
  have hshows : Shows = fun row p => row.pair? = some p := funext₂ fun _ _ => propext shows_iff
  rw [hshows, ← List.forall₂_eq_eq_eq, List.forall₂_map_left_iff, List.forall₂_map_right_iff]

end Row

namespace KeyedIds
variable {ids : KeyedIds} {row : Row} {rows : List Row} {ps : List (UInt64 × UInt64)}

theorem addRow_of_shows {p : UInt64 × UInt64} (h : row.Shows p) :
    ids.addRow row = .ok (ids.insert p.1 p.2) := by
  obtain ⟨hkey, hid, rest⟩ := h
  rw [addRow, Json.id, Json.id, Json.id?_eq_some_iff.2 hkey, Json.id?_eq_some_iff.2 hid]
  rfl

theorem addRow_of_fault {e : QueryError} (h : row.Fault e) : ids.addRow row = .error e := by
  cases h with
  | short h =>
    match row with
    | [] | [_] => rfl
    | _ :: _ :: _ => exact absurd h (by simp)
  | key h id rest =>
    rw [addRow, Json.id, Json.not_denotes_iff.1 h]
    rfl
  | id hkey h rest =>
    rw [addRow, Json.id, Json.id, Json.id?_eq_some_iff.2 hkey, Json.not_denotes_iff.1 h]
    rfl

/-- A row that shows no key and id is at fault. -/
theorem shows_or_fault (row : Row) : (∃ p, row.Shows p) ∨ ∃ e, row.Fault e := by
  match row with
  | [] => exact .inr ⟨_, .short (by decide)⟩
  | [_] => exact .inr ⟨_, .short (by simp)⟩
  | key :: id :: rest =>
    by_cases hkey : ∃ k, key.Denotes k
    · obtain ⟨k, hkey⟩ := hkey
      by_cases hid : ∃ n, id.Denotes n
      · obtain ⟨n, hid⟩ := hid
        exact .inl ⟨(k, n), hkey, hid, rest⟩
      · exact .inr ⟨_, .id hkey (not_exists.1 hid) rest⟩
    · exact .inr ⟨_, .key (not_exists.1 hkey) id rest⟩

theorem fault_unique {e e' : QueryError} (h : row.Fault e) (h' : row.Fault e') : e = e' :=
  Except.error.inj ((@addRow_of_fault {} row e h).symm.trans (addRow_of_fault h'))

theorem not_fault_of_shows {p : UInt64 × UInt64} {e : QueryError} (h : row.Shows p) :
    ¬row.Fault e := by
  intro hfault
  have := (@addRow_of_shows {} row p h).symm.trans (addRow_of_fault hfault)
  cases this

/-- The first row at fault decides the error. -/
theorem foldlM_addRow_eq_error_iff {e : QueryError} : rows.foldlM addRow ids = .error e ↔
    ∃ before row after, rows = before ++ row :: after ∧ (∀ r ∈ before, ∃ p, r.Shows p) ∧
      row.Fault e := by
  induction rows generalizing ids with
  | nil =>
    refine ⟨nofun, ?_⟩
    rintro ⟨before, row, after, heq, -⟩
    cases before <;> cases heq
  | cons first rest ih =>
    rcases shows_or_fault first with ⟨p, hfirst⟩ | ⟨e', hfirst⟩
    · rw [List.foldlM_cons, addRow_of_shows hfirst]
      refine (@ih (ids.insert p.1 p.2)).trans ⟨?_, ?_⟩
      · rintro ⟨before, row, after, rfl, hbefore, hrow⟩
        exact ⟨first :: before, row, after, rfl, List.forall_mem_cons.2 ⟨⟨p, hfirst⟩, hbefore⟩,
          hrow⟩
      · rintro ⟨before, row, after, heq, hbefore, hrow⟩
        cases before with
        | nil =>
          cases heq
          exact absurd hrow (not_fault_of_shows hfirst)
        | cons _ before =>
          cases heq
          exact ⟨before, row, after, rfl, (List.forall_mem_cons.1 hbefore).2, hrow⟩
    · rw [List.foldlM_cons, addRow_of_fault hfirst]
      constructor
      · intro h
        cases h
        exact ⟨[], first, rest, rfl, List.forall_mem_nil _, hfirst⟩
      · rintro ⟨before, row, after, heq, hbefore, hrow⟩
        cases before with
        | nil =>
          cases heq
          rw [fault_unique hrow hfirst]
          rfl
        | cons _ before =>
          cases heq
          obtain ⟨p, hshows⟩ := (List.forall_mem_cons.1 hbefore).1
          exact absurd hfirst (not_fault_of_shows hshows)

theorem lookup_put (key id other : UInt64) (es : List (UInt64 × UInt64)) :
    (put key id es).lookup other = if other = key then some id else es.lookup other := by
  induction es with
  | nil =>
    rw [put, List.lookup_cons, List.lookup_nil]
    split <;> simp_all
  | cons e rest ih =>
    obtain ⟨k, v⟩ := e
    rw [put]
    split
    · next heq =>
      subst heq
      simp only [List.lookup_cons]
      grind
    · next hne =>
      simp only [List.lookup_cons, ih]
      grind

theorem get?_insert (key id other : UInt64) : (ids.insert key id).get? other =
    if other = key then some id else ids.get? other := lookup_put key id other ids.entries

theorem get?_addPairs (ps : List (UInt64 × UInt64)) (key : UInt64) :
    (addPairs {} ps).get? key = ps.reverse.lookup key := by
  induction ps using List.reverseRecOn with
  | nil => rfl
  | append_singleton ps p ih =>
    rw [addPairs_append, addPairs_cons, addPairs_nil, get?_insert, ih, List.reverse_append,
      List.reverse_singleton, List.singleton_append, List.lookup_cons]
    by_cases heq : key = p.1
    · simp [heq]
    · simp [heq, beq_eq_false_iff_ne.2 heq]

theorem get?_addPairs_iff {key id : UInt64} : (addPairs {} ps).get? key = some id ↔
    ∃ before after, ps = before ++ (key, id) :: after ∧ key ∉ after.map (·.1) := by
  have hnew {after : List (UInt64 × UInt64)} :
      (∀ p ∈ after, (key != p.1) = true) ↔ key ∉ after.map (·.1) := by
    simp only [bne_iff_ne, List.mem_map, not_exists, not_and]
    exact forall₂_congr fun _ _ => ne_comm
  simp only [get?_addPairs, List.lookup_eq_some_iff, hnew]
  constructor
  · rintro ⟨after, before, heq, hafter⟩
    refine ⟨before.reverse, after.reverse, by simpa using congrArg List.reverse heq, ?_⟩
    rwa [List.map_reverse, List.mem_reverse]
  · rintro ⟨before, after, rfl, hafter⟩
    refine ⟨after.reverse, before.reverse, by simp, ?_⟩
    rwa [List.map_reverse, List.mem_reverse]

theorem keys_addPairs_eq : (addPairs {} ps).keys = (ps.map (·.1)).eraseDups := by
  induction ps using List.reverseRecOn with
  | nil => rfl
  | append_singleton ps p ih =>
    rw [addPairs_append, addPairs_cons, addPairs_nil, keys_insert, ih, List.map_append,
      List.map_singleton, eraseDups_concat]
    simp only [List.mem_eraseDups]

theorem collects_addPairs (ps : List (UInt64 × UInt64)) : Collects ps (addPairs {} ps) where
  apart := keys_addPairs_eq ▸ nodup_eraseDups _
  order := keys_addPairs_eq
  last _ _ := get?_addPairs_iff

/-- Keys and the ids by them are all there is. -/
theorem eq_of_get? {ids' : KeyedIds} (hapart : ids.keys.Nodup) (hkeys : ids.keys = ids'.keys)
    (hget : ∀ key, ids.get? key = ids'.get? key) : ids = ids' := by
  have hentries {es : List (UInt64 × UInt64)} (hapart : (es.map (·.1)).Nodup) :
      es.map some = (es.map (·.1)).map fun key => (es.lookup key).map (key, ·) := by
    rw [List.map_map]
    refine List.map_congr_left fun e he => ?_
    rw [Function.comp_apply, lookup_of_mem hapart he]
    rfl
  have hapart' : ids'.keys.Nodup := hkeys ▸ hapart
  have hsame : ids.entries.map some = ids'.entries.map some :=
    calc
      ids.entries.map some = ids.keys.map fun key => (ids.get? key).map (key, ·) := hentries hapart
      _ = ids'.keys.map fun key => (ids'.get? key).map (key, ·) := by simp only [hkeys, hget]
      _ = ids'.entries.map some := (hentries hapart').symm
  exact eq_iff_entries.2 (List.map_injective_iff.2 (fun _ _ => Option.some.inj) hsame)

theorem Collects.eq {ids' : KeyedIds} (h : Collects ps ids) (h' : Collects ps ids') :
    ids = ids' := by
  refine eq_of_get? h.apart (h.order.trans h'.order.symm) fun key => ?_
  exact Option.ext fun id => (h.last key id).trans (h'.last key id).symm

/-- Ids are collected from rows that each start with a key and an id. Otherwise the first row that
does not tells the error. -/
theorem ofRows_collects (rows : List Row) :
    ((∃ ids, ofRows rows = .ok ids) ↔ ∀ row ∈ rows, ∃ p, row.Shows p) ∧
    (∀ ids, ofRows rows = .ok ids ↔ ∃ ps, List.Forall₂ Row.Shows rows ps ∧ Collects ps ids) ∧
    ∀ e, ofRows rows = .error e ↔
      ∃ before row after, rows = before ++ row :: after ∧ (∀ r ∈ before, ∃ p, r.Shows p) ∧
        row.Fault e := by
  have hok (ids : KeyedIds) :
      ofRows rows = .ok ids ↔ ∃ ps, List.Forall₂ Row.Shows rows ps ∧ Collects ps ids := by
    simp only [ofRows_eq_ok_iff, Row.shows_of_map]
    constructor
    · rintro ⟨ps, hps, rfl⟩
      exact ⟨ps, hps, collects_addPairs ps⟩
    · rintro ⟨ps, hps, hids⟩
      exact ⟨ps, hps, hids.eq (collects_addPairs ps)⟩
  refine ⟨⟨?_, ?_⟩, hok, fun e => foldlM_addRow_eq_error_iff⟩
  · rintro ⟨ids, hids⟩ row hrow
    obtain ⟨ps, hps, -⟩ := ofRows_eq_ok_iff.1 hids
    have hpair : row.pair? ∈ ps.map some := hps ▸ List.mem_map_of_mem hrow
    obtain ⟨p, -, hp⟩ := List.mem_map.1 hpair
    exact ⟨p, Row.shows_iff.2 hp.symm⟩
  · intro h
    cases hrows : ofRows rows with
    | ok ids => exact ⟨ids, rfl⟩
    | error e =>
      obtain ⟨before, row, after, rfl, -, hfault⟩ := foldlM_addRow_eq_error_iff.1 hrows
      obtain ⟨p, hshows⟩ := h row (by simp)
      exact absurd hfault (not_fault_of_shows hshows)

example : ofRows [[.string "7", .word 1], [.word 9, .string "2"], [.string "+007", .word 3]] =
    .ok ⟨[(7, 3), (9, 2)]⟩ := by decide

end KeyedIds
end EntitySelect
