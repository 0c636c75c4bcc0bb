import EntitySelect.Query.KeyedIds
import EntitySelect.Dataset.Filter
import EntitySelect.Catalog.Basic
import EntitySelect.Proofs.Repeats
import Mathlib.Data.List.Nodup

/-! Rows with keys. Where every row has a key of its own, collecting ids drops nothing but repeated
rows, and keeps the order in which the rows first occur. -/
namespace EntitySelect

/-- The value of a field; a field that is not there is null. -/
def Record.value (row : Record) (column : String) : Json := (row.lookup column).getD .null

/-- The column that tells the rows of a result apart: the revision, or the id where there are no
revisions. -/
def EntityKeys.row (k : EntityKeys) : String := k.revision.getD k.id

/-- The key and the id of a row. -/
def EntityKeys.pair (k : EntityKeys) (b : Record) : UInt64 × UInt64 :=
  ((Record.value b k.row).id?.getD 0, (Record.value b k.id).id?.getD 0)

/-- Every row has a valid id and a valid key, and no two rows have the same key. -/
structure Keyed (k : EntityKeys) (rows : List Record) : Prop where
  ids : ∀ b ∈ rows, (Record.value b k.id).id?.isSome
  keys : ∀ b ∈ rows, (Record.value b k.row).id?.isSome
  apart : (rows.map fun b => (Record.value b k.row).id?).Nodup

/-- The key and the id that a result row gives. -/
def Row.pair? : Row → Option (UInt64 × UInt64)
  | key :: id :: _ => key.id?.bind fun key => id.id?.map fun id => (key, id)
  | _ => none

/-- The key and the id that a row of the base table gives, if it has both. -/
def EntityKeys.pair? (k : EntityKeys) (b : Record) : Option (UInt64 × UInt64) :=
  Row.pair? [Record.value b k.row, Record.value b k.id]

namespace Keyed
variable {k : EntityKeys} {rows : List Record}

theorem pair?_eq (h : Keyed k rows) {b : Record} (hb : b ∈ rows) :
    k.pair? b = some (k.pair b) := by
  obtain ⟨key, hkey⟩ := Option.isSome_iff_exists.1 (h.keys b hb)
  obtain ⟨id, hid⟩ := Option.isSome_iff_exists.1 (h.ids b hb)
  simp [EntityKeys.pair?, Row.pair?, EntityKeys.pair, hkey, hid]

theorem pairs_apart (h : Keyed k rows) : (rows.map fun b => (k.pair b).1).Nodup := by
  apply List.Nodup.of_map some
  have hmap : (rows.map fun b => (k.pair b).1).map some =
      rows.map fun b => (Record.value b k.row).id? := by
    rw [List.map_map]
    apply List.map_congr_left
    intro b hb
    obtain ⟨key, hkey⟩ := Option.isSome_iff_exists.1 (h.keys b hb)
    simp [EntityKeys.pair, hkey]
  rw [hmap]
  exact h.apart

theorem values_apart (h : Keyed k rows) : (rows.map fun b => Record.value b k.row).Nodup := by
  apply List.Nodup.of_map Json.id?
  rw [List.map_map]
  exact h.apart

end Keyed

namespace KeyedIds

theorem eq_iff_entries {ids ids' : KeyedIds} : ids = ids' ↔ ids.entries = ids'.entries := by
  cases ids
  cases ids'
  simp

/-- Adds keys and ids one after the other. -/
def addPairs (ids : KeyedIds) (ps : List (UInt64 × UInt64)) : KeyedIds :=
  ps.foldl (fun ids p => ids.insert p.1 p.2) ids

@[simp] theorem addPairs_nil (ids : KeyedIds) : ids.addPairs [] = ids := rfl

@[simp] theorem addPairs_cons (ids : KeyedIds) (p : UInt64 × UInt64)
    (ps : List (UInt64 × UInt64)) :
    ids.addPairs (p :: ps) = (ids.insert p.1 p.2).addPairs ps := rfl

theorem addPairs_append (ids : KeyedIds) (ps more : List (UInt64 × UInt64)) :
    ids.addPairs (ps ++ more) = (ids.addPairs ps).addPairs more := List.foldl_append

/-- Only the first two columns of a row count. -/
theorem foldlM_addRow {rows : List Row} {ps : List (UInt64 × UInt64)}
    (h : rows.map Row.pair? = ps.map some) (ids : KeyedIds) :
    rows.foldlM addRow ids = .ok (ids.addPairs ps) := by
  induction rows generalizing ps ids with
  | nil =>
    rw [List.map_nil] at h
    rw [List.map_eq_nil_iff.1 h.symm]
    rfl
  | cons row rest ih =>
    cases ps with
    | nil => cases h
    | cons p ps =>
      obtain ⟨hp, hrest⟩ := List.cons.inj h
      have hadd : ids.addRow row = .ok (ids.insert p.1 p.2) := by
        match row with
        | [] | [_] => cases hp
        | key :: id :: _ =>
          rw [Row.pair?, Option.bind_eq_some_iff] at hp
          obtain ⟨key', hkey, hp⟩ := hp
          obtain ⟨id', hid, rfl⟩ := Option.map_eq_some_iff.1 hp
          rw [addRow, Json.id, Json.id, hkey, hid]
          rfl
      rw [List.foldlM_cons, hadd]
      exact ih hrest (ids.insert p.1 p.2)

theorem ofRows_eq_ok {rows : List Row} {ps : List (UInt64 × UInt64)}
    (h : rows.map Row.pair? = ps.map some) : ofRows rows = .ok (addPairs {} ps) :=
  foldlM_addRow h {}

/-- A row is added only if it gives a key and an id. -/
theorem addRow_eq_ok {ids next : KeyedIds} {row : Row} (h : ids.addRow row = .ok next) :
    ∃ p, Row.pair? row = some p := by
  match row with
  | [] | [_] => cases h
  | key :: id :: _ =>
    rw [addRow, Json.id, Json.id] at h
    rw [Row.pair?]
    cases hkey : key.id? with
    | none =>
      rw [hkey] at h
      cases h
    | some key' =>
      cases hid : id.id? with
      | none =>
        rw [hkey, hid] at h
        cases h
      | some id' => exact ⟨_, rfl⟩

/-- Ids are collected only if every row gives a key and an id. -/
theorem exists_pairs_of_foldlM {rows : List Row} {ids out : KeyedIds}
    (h : rows.foldlM addRow ids = .ok out) :
    ∃ ps : List (UInt64 × UInt64), rows.map Row.pair? = ps.map some := by
  induction rows generalizing ids with
  | nil => exact ⟨[], rfl⟩
  | cons row rest ih =>
    rw [List.foldlM_cons] at h
    cases hrow : ids.addRow row with
    | error e =>
      rw [hrow] at h
      cases h
    | ok next =>
      rw [hrow] at h
      obtain ⟨p, hp⟩ := addRow_eq_ok hrow
      obtain ⟨ps, hps⟩ := ih h
      exact ⟨p :: ps, by rw [List.map_cons, List.map_cons, hp, hps]⟩

theorem ofRows_eq_ok_iff {rows : List Row} {ids : KeyedIds} : ofRows rows = .ok ids ↔
    ∃ ps : List (UInt64 × UInt64), rows.map Row.pair? = ps.map some ∧ ids = addPairs {} ps := by
  constructor
  · intro h
    obtain ⟨ps, hps⟩ := exists_pairs_of_foldlM h
    rw [ofRows_eq_ok hps] at h
    exact ⟨ps, hps, (Except.ok.inj h).symm⟩
  · rintro ⟨ps, hps, rfl⟩
    exact ofRows_eq_ok hps

theorem put_of_not_mem {key id : UInt64} {es : List (UInt64 × UInt64)} (h : key ∉ es.map (·.1)) :
    put key id es = es ++ [(key, id)] := by
  induction es with
  | nil => rfl
  | cons e rest ih =>
    rw [List.map_cons, List.mem_cons, not_or] at h
    rw [put, if_neg (Ne.symm h.1), ih h.2]
    rfl

theorem put_of_mem {key id : UInt64} {es : List (UInt64 × UInt64)} (hapart : (es.map (·.1)).Nodup)
    (h : (key, id) ∈ es) : put key id es = es := by
  induction es with
  | nil => cases h
  | cons e rest ih =>
    obtain ⟨k, v⟩ := e
    obtain ⟨hk, hrest⟩ := List.nodup_cons.1 hapart
    rcases List.mem_cons.1 h with h | h
    · cases h
      rw [put, if_pos rfl]
    · have hne : k ≠ key := by
        intro heq
        exact hk (heq ▸ List.mem_map.2 ⟨_, h, rfl⟩)
      rw [put, if_neg hne, ih hrest h]

section Insert
variable {ids : KeyedIds} {p : UInt64 × UInt64} {ps : List (UInt64 × UInt64)}

theorem insert_of_not_mem (h : p.1 ∉ ids.keys) : ids.insert p.1 p.2 = ⟨ids.entries ++ [p]⟩ :=
  congrArg KeyedIds.mk (put_of_not_mem h)

theorem insert_of_mem (hapart : ids.keys.Nodup) (h : p ∈ ids.entries) :
    ids.insert p.1 p.2 = ids := congrArg KeyedIds.mk (put_of_mem hapart h)

theorem keys_append (ids : KeyedIds) (ps : List (UInt64 × UInt64)) :
    (KeyedIds.mk (ids.entries ++ ps)).keys = ids.keys ++ ps.map (·.1) := List.map_append

theorem keys_concat_nodup (hapart : ids.keys.Nodup) (hnew : p.1 ∉ ids.keys) :
    (KeyedIds.mk (ids.entries ++ [p])).keys.Nodup := by
  rw [keys_append]
  refine List.nodup_append.2 ⟨hapart, List.nodup_singleton _, ?_⟩
  intro a ha b hb hab
  rw [hab, List.mem_singleton.1 hb] at ha
  exact hnew ha

/-- A key keeps its place, and a new one comes last. -/
theorem keys_put (key id : UInt64) (es : List (UInt64 × UInt64)) : (put key id es).map (·.1) =
    if key ∈ es.map (·.1) then es.map (·.1) else es.map (·.1) ++ [key] := by
  induction es with
  | nil => rfl
  | cons e rest ih =>
    obtain ⟨k, v⟩ := e
    rw [put]
    split
    · next heq => simp [heq]
    · next hne =>
      rw [List.map_cons, ih]
      simp only [List.map_cons, List.mem_cons, Ne.symm hne, false_or]
      split
      · rfl
      · rfl

theorem keys_insert (ids : KeyedIds) (key id : UInt64) :
    (ids.insert key id).keys = if key ∈ ids.keys then ids.keys else ids.keys ++ [key] :=
  keys_put key id ids.entries

/-- Exactly the keys that are given are collected, and each once. -/
theorem keys_addPairs (hapart : ids.keys.Nodup) :
    (ids.addPairs ps).keys.Nodup ∧
      ∀ key, key ∈ (ids.addPairs ps).keys ↔ key ∈ ids.keys ∨ key ∈ ps.map (·.1) := by
  induction ps generalizing ids with
  | nil => exact ⟨hapart, by simp⟩
  | cons p ps ih =>
    have hnext : (ids.insert p.1 p.2).keys.Nodup ∧
        ∀ key, key ∈ (ids.insert p.1 p.2).keys ↔ key ∈ ids.keys ∨ key = p.1 := by
      rw [keys_insert]
      split
      · next hmem =>
        refine ⟨hapart, fun key => ⟨.inl, ?_⟩⟩
        rintro (hkey | rfl)
        · exact hkey
        · exact hmem
      · next hnew =>
        refine ⟨?_, by simp⟩
        have hconcat := keys_concat_nodup hapart hnew
        rwa [keys_append] at hconcat
    obtain ⟨hnodup, hmem⟩ := ih hnext.1
    refine ⟨hnodup, fun key => ?_⟩
    rw [addPairs_cons, hmem, hnext.2, List.map_cons, List.mem_cons, or_assoc]

/-- Nothing is dropped where every key occurs once. -/
theorem addPairs_of_nodup (h : (ids.keys ++ ps.map (·.1)).Nodup) :
    ids.addPairs ps = ⟨ids.entries ++ ps⟩ := by
  induction ps generalizing ids with
  | nil => simp
  | cons p ps ih =>
    have hnew : p.1 ∉ ids.keys := by
      intro hmem
      exact (List.nodup_append.1 h).2.2 _ hmem _ List.mem_cons_self rfl
    have hnext : ((KeyedIds.mk (ids.entries ++ [p])).keys ++ ps.map (·.1)).Nodup := by
      rw [keys_append, List.append_assoc]
      exact h
    rw [addPairs_cons, insert_of_not_mem hnew, ih hnext, List.append_assoc]
    rfl

theorem addPairs_empty_of_nodup (h : (ps.map (·.1)).Nodup) : addPairs {} ps = ⟨ps⟩ :=
  addPairs_of_nodup h

/-- Blocks of at most one repetition are the rows themselves. -/
theorem flatMap_replicate_of_le_one {rows : List α} {pair : α → β} {n : α → Nat}
    (h : ∀ b, n b ≤ 1) :
    rows.flatMap (fun b => List.replicate (n b) (pair b)) = (rows.filter (n · != 0)).map pair := by
  induction rows with
  | nil => rfl
  | cons b rows ih =>
    have hb := h b
    rw [List.flatMap_cons, ih]
    by_cases hzero : n b = 0
    · rw [List.filter_cons_of_neg (by simp [hzero]), hzero]
      rfl
    · have hone : n b = 1 := by omega
      rw [List.filter_cons_of_pos (by simp [hzero]), hone]
      rfl

/-- Blocks hold the rows whose block is not empty. -/
theorem mem_blocks_iff {rows : List α} {pair : α → β} {n : α → Nat} {e : β} :
    e ∈ rows.flatMap (fun b => List.replicate (n b) (pair b)) ↔
      e ∈ (rows.filter (n · != 0)).map pair := by
  simp only [List.mem_flatMap, List.mem_replicate, List.mem_map, List.mem_filter, bne_iff_ne]
  constructor
  · rintro ⟨b, hb, hn, rfl⟩
    exact ⟨b, ⟨hb, hn⟩, rfl⟩
  · rintro ⟨b, ⟨hb, hn⟩, rfl⟩
    exact ⟨b, hb, hn, rfl⟩

/-- Where a key always comes with the same id, exactly the given keys and ids are collected, and
each once. -/
theorem addPairs_spec (hapart : ids.keys.Nodup)
    (h : ∀ e ∈ ids.entries ++ ps, ∀ e' ∈ ids.entries ++ ps, e.1 = e'.1 → e = e') :
    (ids.addPairs ps).keys.Nodup ∧ ∀ e, e ∈ (ids.addPairs ps).entries ↔ e ∈ ids.entries ++ ps := by
  induction ps generalizing ids with
  | nil => exact ⟨hapart, by simp⟩
  | cons p ps ih =>
    rw [addPairs_cons]
    by_cases hmem : p.1 ∈ ids.keys
    · -- the key is known, and then so is the pair
      obtain ⟨p', hp', hkey⟩ := List.mem_map.1 hmem
      obtain rfl := h p' (List.mem_append_left _ hp') p (by simp) hkey
      have hsub {e : UInt64 × UInt64} : e ∈ ids.entries ++ p' :: ps ↔ e ∈ ids.entries ++ ps := by
        simp only [List.mem_append, List.mem_cons]
        constructor
        · rintro (he | rfl | he)
          · exact .inl he
          · exact .inl hp'
          · exact .inr he
        · exact fun he => he.imp_right .inr
      rw [insert_of_mem hapart hp']
      obtain ⟨hnodup, hentries⟩ :=
        ih hapart fun e he e' he' => h e (hsub.2 he) e' (hsub.2 he')
      exact ⟨hnodup, fun e => (hentries e).trans hsub.symm⟩
    · have hassoc : (ids.entries ++ [p]) ++ ps = ids.entries ++ p :: ps := by simp
      rw [insert_of_not_mem hmem]
      obtain ⟨hnodup, hentries⟩ :=
        ih (keys_concat_nodup hapart hmem) (by rw [hassoc]; exact h)
      rw [hassoc] at hentries
      exact ⟨hnodup, hentries⟩

/-- Where a key always comes with the same id, repetitions are all that is dropped. -/
theorem entries_addPairs (h : ∀ e ∈ ps, ∀ e' ∈ ps, e.1 = e'.1 → e = e') :
    (addPairs {} ps).entries = ps.eraseDups := by
  induction ps using List.reverseRecOn with
  | nil => rfl
  | append_singleton ps p ih =>
    have hps : ∀ e ∈ ps, ∀ e' ∈ ps, e.1 = e'.1 → e = e' := fun e he e' he' =>
      h e (List.mem_append_left _ he) e' (List.mem_append_left _ he')
    have hempty : ({} : KeyedIds).keys.Nodup := List.nodup_nil
    obtain ⟨hapart, hmem⟩ := addPairs_spec hempty hps
    rw [addPairs_append, addPairs_cons, addPairs_nil, eraseDups_concat, ← ih hps]
    by_cases hp : p ∈ ps
    · rw [if_pos hp, insert_of_mem hapart ((hmem p).2 hp)]
    · have hnew : p.1 ∉ (addPairs {} ps).keys := by
        intro hkey
        obtain ⟨e, he, hsame⟩ := List.mem_map.1 hkey
        have heps : e ∈ ps := (hmem e).1 he
        rw [h e (List.mem_append_left _ heps) p (by simp) hsame] at heps
        exact hp heps
      rw [if_neg hp, insert_of_not_mem hnew]

end Insert

end KeyedIds
end EntitySelect
