import EntitySelect.Proofs.Catalog.Checked
import Mathlib.Data.List.Duplicate
import Mathlib.Data.List.Induction

/-! Catalogs do not depend on the order in which their entries are declared. A document that repeats
a name is refused for that, whatever else is wrong with it. Of any other document the entries make
the same catalog in every order, and that is checked in the order of names. -/
namespace EntitySelect

namespace Dict
variable {α ε : Type} {name : α → String} {as : List α} {n : String}

/-- Puts an entry under its own name, unless that is taken. -/
def register (name : α → String) (repeated : String → ε) (d : Dict α) (a : α) :
    Except ε (Dict α) :=
  if d.contains (name a) then .error (repeated (name a)) else .ok (d.insert (name a) a)

/-- Entries under their own names. -/
def named (name : α → String) (as : List α) : Dict α := ofList (as.map fun a => (name a, a))

theorem named_concat (name : α → String) (as : List α) (a : α) :
    named name (as ++ [a]) = (named name as).insert (name a) a := by
  rw [named, named, ofList, ofList, List.map_append, List.foldl_append]
  rfl

theorem contains_named : (named name as).contains n = true ↔ n ∈ as.map name := by
  induction as using List.reverseRecOn with
  | nil => simp [named, ofList, contains]
  | append_singleton as a ih =>
    rw [contains] at ih
    rw [named_concat, contains, find?_insert, List.map_append, List.mem_append, ← ih]
    split <;> simp_all

/-- Entries are registered one after the other until one has a name that is taken. -/
theorem foldlM_register (repeated : String → ε) (before : List α) (h : (before.map name).Nodup)
    (as : List α) :
    (((before ++ as).map name).Nodup ∧
        as.foldlM (register name repeated) (named name before) = .ok (named name (before ++ as))) ∨
      ∃ n, List.Duplicate n ((before ++ as).map name) ∧
        as.foldlM (register name repeated) (named name before) = .error (repeated n) := by
  -- each step moves an entry behind those before it
  induction as generalizing before with
  | nil => exact .inl ⟨by rwa [List.append_nil], by rw [List.append_nil]; rfl⟩
  | cons a as ih =>
    by_cases htaken : name a ∈ before.map name
    · right
      refine ⟨name a, ?_, ?_⟩
      · rw [List.duplicate_iff_sublist, List.map_append, List.map_cons]
        exact (List.singleton_sublist.2 htaken).append (List.singleton_sublist.2 List.mem_cons_self)
      · rw [List.foldlM_cons, register, if_pos (contains_named.2 htaken)]
        rfl
    · have hnew : ((before ++ [a]).map name).Nodup := by
        rw [List.map_append, List.map_singleton, ← List.concat_eq_append]
        exact h.concat htaken
      have hstep : register name repeated (named name before) a =
          .ok (named name (before ++ [a])) := by
        rw [register, if_neg (mt contains_named.1 htaken), named_concat]
      rw [List.foldlM_cons, hstep, List.append_cons]
      exact ih (before ++ [a]) hnew

theorem find?_named (h : (as.map name).Nodup) {a : α} :
    (named name as).find? n = some a ↔ a ∈ as ∧ name a = n := by
  constructor
  · intro hfind
    obtain ⟨b, hb, heq⟩ := List.mem_map.1 (mem_of_mem_ofList (mem_of_lookup hfind))
    cases heq
    exact ⟨hb, rfl⟩
  · rintro ⟨ha, rfl⟩
    refine find?_ofList_of_mem ?_ (List.mem_map.2 ⟨a, ha, rfl⟩)
    rwa [List.map_map]

theorem named_eq_of_perm {as' : List α} (hperm : as.Perm as') (h : (as.map name).Nodup) :
    named name as = named name as' := by
  refine ofList_eq_of_perm (hperm.map _) ?_
  rwa [List.map_map]

end Dict

namespace Catalog
variable {source : String} {e : CatalogError}

/-- The catalog finds the entries of a document under their names, and nothing else. -/
structure Lists (c : Catalog) (d : CatalogDocument) : Prop where
  entityTypes : ∀ name t, c.describe name = some t ↔ t ∈ d.entityTypes ∧ t.name = name
  tables : ∀ name t, c.table name = some t ↔ t ∈ d.tables ∧ t.name = name
  fields : ∀ name f, c.field name = some f ↔ f ∈ d.fields ∧ f.name = name

theorem addTable_eq (c : Catalog) (tables : Dict Table) (t : Table) :
    addTable { c with tables } t =
      (tables.register (·.name) (.duplicate .table) t).map fun tables => { c with tables } := by
  unfold addTable Dict.register
  split <;> rfl

theorem addEntityType_eq (c : Catalog) (entityTypes : Dict EntityType) (t : EntityType) :
    addEntityType { c with entityTypes } t =
      (entityTypes.register (·.name) (.duplicate .entityType) t).map
        fun entityTypes => { c with entityTypes } := by
  unfold addEntityType Dict.register
  split <;> rfl

theorem addField_eq (c : Catalog) (fields : Dict Field) (f : Field) :
    addField { c with fields } f =
      (fields.register (·.name) (.duplicate .field) f).map fun fields => { c with fields } := by
  unfold addField Dict.register
  split <;> rfl

/-- Entries of one kind are registered by registering each in the part of the catalog for that
kind. -/
theorem foldlM_add {α : Type} {name : α → String} {kind : EntryKind} (put : Dict α → Catalog)
    {add : Catalog → α → Except CatalogError Catalog}
    (hadd : ∀ d a, add (put d) a = (d.register name (.duplicate kind) a).map put) (as : List α) :
    ((as.map name).Nodup ∧ as.foldlM add (put .empty) = .ok (put (.named name as))) ∨
      ∃ n, List.Duplicate n (as.map name) ∧
        as.foldlM add (put .empty) = .error (.duplicate kind n) := by
  rw [foldlM_map_eq put hadd as .empty]
  rcases Dict.foldlM_register (CatalogError.duplicate kind) [] List.nodup_nil as with
    ⟨hapart, heq⟩ | ⟨n, hn, heq⟩
  · exact .inl ⟨hapart, congrArg (Except.map put) heq⟩
  · exact .inr ⟨n, hn, congrArg (Except.map put) heq⟩

/-- An error that is found by looking at registered entries. -/
inductive IsFlaw : CatalogError → Prop
  | malformed (source : String) (flaw : CatalogFlaw) : IsFlaw (.malformed source flaw)
  | invalidIdentifier (name : String) (place : NamePlace) : IsFlaw (.invalidIdentifier name place)

theorem isFlaw_of_checkIdentifier {name : String} {place : NamePlace}
    (h : checkIdentifier name place = .error e) : IsFlaw e := by
  unfold checkIdentifier at h
  split at h
  · cases h
  · cases h
    exact .invalidIdentifier name place

theorem isFlaw_of_requireTable {c : Catalog} {table owner : String} {columns : List String}
    (h : c.requireTable source table owner columns = .error e) : IsFlaw e := by
  unfold requireTable at h
  split at h
  · cases h
    exact .malformed ..
  · split at h
    · cases h
      exact .malformed ..
    · cases h

theorem isFlaw_of_checkIdentifiers {c : Catalog} (h : c.checkIdentifiers = .error e) :
    IsFlaw e := by
  rcases bind_eq_error_iff.1 h with h | ⟨_, -, h⟩
  · obtain ⟨t, -, h⟩ := exists_of_forM_eq_error h
    rcases bind_eq_error_iff.1 h with h | ⟨_, -, h⟩
    · exact isFlaw_of_checkIdentifier h
    · obtain ⟨column, -, h⟩ := exists_of_forM_eq_error h
      exact isFlaw_of_checkIdentifier h
  · rcases bind_eq_error_iff.1 h with h | ⟨_, -, h⟩
    · obtain ⟨t, -, h⟩ := exists_of_forM_eq_error h
      exact isFlaw_of_checkIdentifier h
    · obtain ⟨f, -, h⟩ := exists_of_forM_eq_error h
      exact isFlaw_of_checkIdentifier h

theorem isFlaw_of_checkEntityType {c : Catalog} {t : EntityType}
    (h : c.checkEntityType source t = .error e) : IsFlaw e := by
  rw [checkEntityType_eq] at h
  rcases bind_eq_error_iff.1 h with h | ⟨_, -, h⟩
  · split at h
    · exact isFlaw_of_requireTable h
    · split at h
      · cases h
        exact .malformed ..
      · cases h
  · split at h
    · exact isFlaw_of_requireTable h
    · cases h

theorem isFlaw_of_checkField {c : Catalog} {f : Field} (h : c.checkField source f = .error e) :
    IsFlaw e := by
  rcases bind_eq_error_iff.1 h with h | ⟨_, -, h⟩
  · obtain ⟨t, -, h⟩ := exists_of_forM_eq_error h
    split at h
    · cases h
      exact .malformed ..
    · cases h
  · split at h
    · exact isFlaw_of_requireTable h
    · cases h

theorem isFlaw_of_validate {c : Catalog} (h : c.validate source = .error e) : IsFlaw e := by
  rcases bind_eq_error_iff.1 h with h | ⟨_, -, h⟩
  · exact isFlaw_of_checkIdentifiers h
  · rcases bind_eq_error_iff.1 h with h | ⟨_, -, h⟩
    · obtain ⟨t, -, h⟩ := exists_of_forM_eq_error h
      exact isFlaw_of_checkEntityType h
    · obtain ⟨f, -, h⟩ := exists_of_forM_eq_error h
      exact isFlaw_of_checkField h

end Catalog

namespace CatalogDocument
variable {d d' : CatalogDocument}

/-- The names of the entries of one kind, in the order in which they are declared. -/
def names (d : CatalogDocument) : EntryKind → List String
  | .entityType => d.entityTypes.map (·.name)
  | .table => d.tables.map (·.name)
  | .field => d.fields.map (·.name)

/-- The same entries in another order. -/
structure Rearranged (d d' : CatalogDocument) : Prop where
  entityTypes : d.entityTypes.Perm d'.entityTypes
  tables : d.tables.Perm d'.tables
  fields : d.fields.Perm d'.fields

/-- The catalog of the entries, if there is one. -/
def catalog (d : CatalogDocument) : Catalog where
  entityTypes := Dict.named (·.name) d.entityTypes
  tables := Dict.named (·.name) d.tables
  fields := Dict.named (·.name) d.fields

/-- Registering either gives all entries under their names, or finds a name twice. -/
theorem register_cases (d : CatalogDocument) :
    ((∀ kind, (d.names kind).Nodup) ∧ d.register = .ok d.catalog) ∨
      ∃ kind name, List.Duplicate name (d.names kind) ∧
        d.register = .error (.duplicate kind name) := by
  rcases Catalog.foldlM_add _ (Catalog.addTable_eq {}) d.tables with
    ⟨htables, hregistered⟩ | ⟨n, hn, hfails⟩
  · rcases Catalog.foldlM_add _ (Catalog.addEntityType_eq { tables := d.catalog.tables })
      d.entityTypes with ⟨htypes, hregistered'⟩ | ⟨n, hn, hfails⟩
    · rcases Catalog.foldlM_add _ (Catalog.addField_eq d.catalog) d.fields with
        ⟨hfields, hregistered''⟩ | ⟨n, hn, hfails⟩
      · refine .inl ⟨?_, bind_eq_ok_iff.2 ⟨_, hregistered, bind_eq_ok_iff.2 ⟨_, hregistered',
          hregistered''⟩⟩⟩
        intro kind
        cases kind with
        | entityType => exact htypes
        | table => exact htables
        | field => exact hfields
      · exact .inr ⟨.field, n, hn, bind_eq_error_iff.2 (.inr ⟨_, hregistered,
          bind_eq_error_iff.2 (.inr ⟨_, hregistered', hfails⟩)⟩)⟩
    · exact .inr ⟨.entityType, n, hn, bind_eq_error_iff.2 (.inr ⟨_, hregistered,
        bind_eq_error_iff.2 (.inl hfails)⟩)⟩
  · exact .inr ⟨.table, n, hn, bind_eq_error_iff.2 (.inl hfails)⟩

/-- Two entries of one kind have the same name. -/
def Repeats (d : CatalogDocument) : Prop := ∃ kind, ¬(d.names kind).Nodup

theorem lists_catalog (h : ∀ kind, (d.names kind).Nodup) : d.catalog.Lists d where
  entityTypes _ _ := Dict.find?_named (h .entityType)
  tables _ _ := Dict.find?_named (h .table)
  fields _ _ := Dict.find?_named (h .field)

theorem Rearranged.names_perm (h : d.Rearranged d') (kind : EntryKind) :
    (d.names kind).Perm (d'.names kind) := by
  cases kind with
  | entityType => exact h.entityTypes.map _
  | table => exact h.tables.map _
  | field => exact h.fields.map _

theorem Rearranged.repeats_iff (h : d.Rearranged d') : d.Repeats ↔ d'.Repeats :=
  exists_congr fun kind => not_congr (h.names_perm kind).nodup_iff

theorem Rearranged.catalog_eq (h : d.Rearranged d') (hapart : ∀ kind, (d.names kind).Nodup) :
    d.catalog = d'.catalog := by
  rw [catalog, catalog, Dict.named_eq_of_perm h.entityTypes (hapart .entityType),
    Dict.named_eq_of_perm h.tables (hapart .table), Dict.named_eq_of_perm h.fields (hapart .field)]

/-- A name that is repeated is all that is said. -/
theorem load_of_repeats (h : d.Repeats) (source : String) :
    ∃ kind name, List.Duplicate name (d.names kind) ∧
      d.load source = .error (.duplicate kind name) := by
  rcases d.register_cases with ⟨hapart, -⟩ | ⟨kind, name, hname, hregister⟩
  · obtain ⟨kind, hkind⟩ := h
    exact absurd (hapart kind) hkind
  · exact ⟨kind, name, hname, bind_eq_error_iff.2 (.inl hregister)⟩

/-- Without repeated names the catalog of the entries is checked. -/
theorem load_of_apart (h : ¬d.Repeats) (source : String) :
    d.load source = d.catalog.validate source >>= fun _ => .ok d.catalog := by
  rcases d.register_cases with ⟨-, hregister⟩ | ⟨kind, name, hname, -⟩
  · rw [load, hregister]
    rfl
  · exact absurd ⟨kind, hname.not_nodup⟩ h

/-- Documents with the same entries are loaded alike. If a name is repeated, that is what either is
refused for; if none is, both make the same catalog or have the same flaw. -/
theorem load_rearranged (h : d.Rearranged d') (source : String) :
    (d.Repeats ∧
      (∃ kind name, List.Duplicate name (d.names kind) ∧
        d.load source = .error (.duplicate kind name)) ∧
      ∃ kind name, List.Duplicate name (d'.names kind) ∧
        d'.load source = .error (.duplicate kind name)) ∨
    (¬d.Repeats ∧ d.load source = d'.load source ∧
      (∀ kind name, d.load source ≠ .error (.duplicate kind name)) ∧
      ∀ c, d.load source = .ok c → c.Lists d) := by
  by_cases hrepeats : d.Repeats
  · exact .inl ⟨hrepeats, load_of_repeats hrepeats source,
      load_of_repeats (h.repeats_iff.1 hrepeats) source⟩
  · right
    have hapart : ∀ kind, (d.names kind).Nodup := by simpa [Repeats] using hrepeats
    have hload := load_of_apart hrepeats source
    refine ⟨hrepeats, ?_, ?_, ?_⟩
    · rw [hload, load_of_apart (mt h.repeats_iff.2 hrepeats), h.catalog_eq hapart]
    · intro kind name hduplicate
      rw [hload] at hduplicate
      rcases bind_eq_error_iff.1 hduplicate with hflaw | ⟨_, -, hok⟩
      · cases Catalog.isFlaw_of_validate hflaw
      · cases hok
    · intro c hc
      rw [hload] at hc
      obtain ⟨_, -, hok⟩ := bind_eq_ok_iff.1 hc
      cases hok
      exact lists_catalog hapart

/-- Both tables are missing. The one of the type whose name comes first is told in either order. -/
theorem load_rearranged_undeclared :
    let node : EntityType := { name := "node", baseTable := some "node", keys := { id := "nid" } }
    let user : EntityType := { name := "user", baseTable := some "users", keys := { id := "uid" } }
    let d : CatalogDocument := { entityTypes := [node, user] }
    let d' : CatalogDocument := { entityTypes := [user, node] }
    d.Rearranged d' ∧ ¬d.Repeats ∧ d.load "catalog" = d'.load "catalog" ∧
      d'.load "catalog" = .error (.malformed "catalog" (.undeclaredTable "node" "node")) := by
  intro node user d d'
  have h : d.Rearranged d' := ⟨.swap .., .refl _, .refl _⟩
  have hload : d.load "catalog" =
      .error (.malformed "catalog" (.undeclaredTable "node" "node")) := by decide +kernel
  rcases load_rearranged h "catalog" with ⟨-, ⟨kind, name, -, hduplicate⟩, -⟩ | ⟨hapart, heq, -⟩
  · rw [hload] at hduplicate
    cases hduplicate
  · exact ⟨h, hapart, heq, heq.symm.trans hload⟩

end CatalogDocument
end EntitySelect
