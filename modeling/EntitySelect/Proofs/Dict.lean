import EntitySelect.Dict
import Mathlib.Data.List.Nodup

/-! Values under names. What is found under a name is one of the values, and each of them is found
where names differ. -/
namespace EntitySelect

section Lookup
variable {α β : Type} [BEq α] [LawfulBEq α] {l : List (α × β)} {a : α} {b : β}

theorem mem_of_lookup (h : l.lookup a = some b) : (a, b) ∈ l := by
  obtain ⟨before, after, rfl, -⟩ := List.lookup_eq_some_iff.1 h
  simp

/-- Under names that differ, the value of each is found. -/
theorem lookup_of_mem (hapart : (l.map (·.1)).Nodup) (h : (a, b) ∈ l) : l.lookup a = some b := by
  obtain ⟨before, after, rfl⟩ := List.append_of_mem h
  rw [List.map_append, List.map_cons] at hapart
  refine List.lookup_eq_some_iff.2 ⟨before, after, rfl, fun p hp => ?_⟩
  have hne := (List.nodup_append.1 hapart).2.2 p.1 (List.mem_map_of_mem hp) a List.mem_cons_self
  simpa using hne.symm

/-- Under names that differ, at most one value has a given name. -/
theorem filter_eq_lookup (hapart : (l.map (·.1)).Nodup) (a : α) :
    (l.filter (·.1 == a)).map (·.2) = (l.lookup a).toList := by
  induction l with
  | nil => rfl
  | cons e rest ih =>
    obtain ⟨k, b⟩ := e
    rw [List.map_cons, List.nodup_cons] at hapart
    by_cases hk : k = a
    · subst hk
      have hnone : rest.filter (·.1 == k) = [] := by
        rw [List.filter_eq_nil_iff]
        intro e he hek
        exact hapart.1 (List.mem_map.2 ⟨e, he, eq_of_beq hek⟩)
      simp [hnone]
    · have hak : (a == k) = false := beq_eq_false_iff_ne.2 (Ne.symm hk)
      have hka : (k == a) = false := beq_eq_false_iff_ne.2 hk
      rw [List.filter_cons_of_neg (by simp [hka]), List.lookup_cons, hak]
      exact ih hapart.2

end Lookup

namespace Dict
variable {α β : Type} {d : Dict α} {name : String} {a : α}

/-- What holds of all entries holds still when one is added that it holds of. -/
theorem keeps_insert {p : String → α → Prop} (h : ∀ {name a}, d.find? name = some a → p name a)
    (hnew : p name a) {other : String} {b : α} (hb : (d.insert name a).find? other = some b) :
    p other b := by
  rw [find?_insert] at hb
  split at hb
  · next heq =>
    cases hb
    rwa [heq]
  · exact h hb

theorem mem_values_of_find? (h : d.find? name = some a) : a ∈ d.values :=
  List.mem_map_of_mem (mem_of_lookup h)

/-- A new name is put somewhere among the others. -/
theorem place_perm {l : List (String × α)} (h : name ∉ l.map (·.1)) :
    (place name a l).Perm ((name, a) :: l) := by
  induction l with
  | nil => exact .refl _
  | cons e rest ih =>
    obtain ⟨k, v⟩ := e
    rw [List.map_cons, List.mem_cons, not_or] at h
    rw [place]
    split
    · exact .refl _
    · rw [if_neg h.1]
      exact ((ih h.2).cons (k, v)).trans (.swap ..)

/-- Names that differ keep their values. -/
theorem entries_ofList_perm {l : List (String × α)} (h : (l.map (·.1)).Nodup) :
    (ofList l).entries.Perm l := by
  have hfold (l : List (String × α)) (d : Dict α) (h : ((d.entries ++ l).map (·.1)).Nodup) :
      (l.foldl (fun d e => d.insert e.1 e.2) d).entries.Perm (d.entries ++ l) := by
    induction l generalizing d with
    | nil => simp
    | cons e rest ih =>
      have hnew : e.1 ∉ d.entries.map (·.1) := by
        rw [List.map_append, List.nodup_append] at h
        intro hmem
        exact h.2.2 e.1 hmem e.1 (List.mem_map_of_mem List.mem_cons_self) rfl
      have hperm : ((d.insert e.1 e.2).entries ++ rest).Perm (d.entries ++ e :: rest) :=
        ((place_perm hnew).append_right rest).trans List.perm_middle.symm
      exact (ih _ ((hperm.map _).nodup_iff.2 h)).trans hperm
  exact hfold l empty h

theorem find?_ofList_of_mem {l : List (String × α)} (h : (l.map (·.1)).Nodup)
    (hmem : (name, a) ∈ l) : (ofList l).find? name = some a := by
  have hperm := entries_ofList_perm h
  exact lookup_of_mem ((hperm.map _).nodup_iff.2 h) (hperm.mem_iff.2 hmem)

theorem nodup_keys (d : Dict α) : (d.entries.map (·.1)).Nodup := by
  rw [List.Nodup, List.pairwise_map]
  exact d.ordered.imp fun hlt => Std.ne_of_lt hlt

/-- A map holds its entries in one order only. -/
theorem eq_of_entries_perm {d e : Dict α} (h : d.entries.Perm e.entries) : d = e := by
  have hanti : ∀ a b : String × α, a ∈ d.entries → b ∈ e.entries →
      a.1 < b.1 → b.1 < a.1 → a = b :=
    fun a b _ _ hab hba => absurd hba (Std.not_lt.2 (Std.le_of_lt hab))
  exact ext (h.eq_of_pairwise hanti d.ordered e.ordered)

/-- Entries in the order of their names are kept as they are. -/
@[simp] theorem ofList_entries (d : Dict α) : ofList d.entries = d :=
  eq_of_entries_perm (entries_ofList_perm d.nodup_keys)

/-- Under names that differ, the order in which entries are added leaves no trace. -/
theorem ofList_eq_of_perm {l l' : List (String × α)} (hperm : l.Perm l')
    (h : (l.map (·.1)).Nodup) : ofList l = ofList l' := by
  have h' : (l'.map (·.1)).Nodup := (hperm.map _).nodup_iff.1 h
  exact eq_of_entries_perm
    ((entries_ofList_perm h).trans (hperm.trans (entries_ofList_perm h').symm))

/-- Every entry of a map made of entries is one of them. -/
theorem mem_of_mem_ofList {l : List (String × α)} {e : String × α}
    (h : e ∈ (ofList l).entries) : e ∈ l := by
  have hfold (l : List (String × α)) (d : Dict α)
      (h : e ∈ (l.foldl (fun d e => d.insert e.1 e.2) d).entries) : e ∈ d.entries ∨ e ∈ l := by
    induction l generalizing d with
    | nil => exact .inl h
    | cons a rest ih =>
      rcases ih _ h with h | h
      · exact (mem_place h).elim (fun h => .inr (h ▸ List.mem_cons_self)) .inl
      · exact .inr (List.mem_cons_of_mem _ h)
  exact (hfold l empty h).resolve_left (by simp [empty])

/-- Under names that differ, a map made of entries finds what is found among them. -/
theorem find?_ofList {l : List (String × α)} (h : (l.map (·.1)).Nodup) (name : String) :
    (ofList l).find? name = l.lookup name := by
  ext a
  constructor
  · intro hfind
    exact lookup_of_mem h (mem_of_mem_ofList (mem_of_lookup hfind))
  · intro hlookup
    exact find?_ofList_of_mem h (mem_of_lookup hlookup)

theorem mem_values_insert {b : α} (h : b ∈ (d.insert name a).values) : b = a ∨ b ∈ d.values := by
  obtain ⟨e, he, rfl⟩ := List.mem_map.1 h
  rcases mem_place he with rfl | he
  · exact .inl rfl
  · exact .inr (List.mem_map_of_mem he)

theorem isEmpty_of_find? (h : d.find? name = some a) : d.isEmpty = false := by
  rw [isEmpty, List.isEmpty_eq_false_iff]
  exact List.ne_nil_of_mem (mem_of_lookup h)

theorem find?_map (f : α → β) (d : Dict α) (name : String) :
    (d.map f).find? name = (d.find? name).map f := by
  change (d.entries.map fun e => (e.1, f e.2)).lookup name = (d.entries.lookup name).map f
  induction d.entries with
  | nil => rfl
  | cons e rest ih =>
    rw [List.map_cons, List.lookup_cons, List.lookup_cons, ih]
    split <;> rfl

end Dict

/-- The names of a set make that set. -/
@[simp] theorem NameSet.ofNames_names (s : NameSet) : ofNames s.names = s := by
  have hfold : ofNames s.names = Dict.ofList (s.names.map fun name => (name, ())) := by
    rw [ofNames, Dict.ofList, List.foldl_map]
    rfl
  have hentries : (s.names.map fun name => (name, ())) = s.entries := by
    rw [names, Dict.keys, List.map_map]
    exact List.map_id _
  rw [hfold, hentries, Dict.ofList_entries]

theorem NameSet.mem_names_of_has {s : NameSet} {name : String} (h : s.has name = true) :
    name ∈ s.names := by
  obtain ⟨u, hu⟩ := Option.isSome_iff_exists.1 h
  exact List.mem_map_of_mem (mem_of_lookup hu)

end EntitySelect
