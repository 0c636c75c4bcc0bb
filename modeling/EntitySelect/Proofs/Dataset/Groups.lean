import EntitySelect.Proofs.Dataset.Blocks
import Mathlib.Data.List.Forall2
import Mathlib.Data.Option.Basic

/-! Grouping block by block. All that is joined to a row of the base table goes to one group, so two
ways of joining that agree on each row of the base table give groups that agree. -/
namespace EntitySelect

namespace Dataset
variable {key : List Json} {columns : List Column}

/-- Puts rows to the group that has their key, or behind all groups. -/
def addBlock (key : List Json) (block : List Scope) :
    List (List Json × Group) → List (List Json × Group)
  | [] => (Group.ofScopes? block).toList.map (key, ·)
  | (k, g) :: rest =>
    if k = key then (k, { g with rest := g.rest ++ block }) :: rest
    else (k, g) :: addBlock key block rest

theorem addBlock_nil (key : List Json) (groups : List (List Json × Group)) :
    addBlock key [] groups = groups := by
  induction groups with
  | nil => rfl
  | cons e rest ih =>
    obtain ⟨k, g⟩ := e
    rw [addBlock, ih, List.append_nil, ite_self]

theorem addBlock_addToGroup (key : List Json) (t : Scope) (block : List Scope)
    (groups : List (List Json × Group)) :
    addBlock key block (addToGroup key t groups) = addBlock key (t :: block) groups := by
  induction groups with
  | nil => exact if_pos rfl
  | cons e rest ih =>
    obtain ⟨k, g⟩ := e
    rw [addToGroup, addBlock]
    split
    · next heq =>
      rw [addBlock, if_pos heq, List.append_assoc]
      rfl
    · next hne => rw [addBlock, if_neg hne, ih]

/-- Rows with one key are put to the groups together. -/
theorem foldl_addToGroup_eq {block : List Scope} (hkey : ∀ t ∈ block, columns.map t.read = key)
    (groups : List (List Json × Group)) :
    block.foldl (fun groups t => addToGroup (columns.map t.read) t groups) groups =
      addBlock key block groups := by
  induction block generalizing groups with
  | nil => exact (addBlock_nil key groups).symm
  | cons t block ih =>
    obtain ⟨ht, hblock⟩ := List.forall_mem_cons.1 hkey
    rw [List.foldl_cons, ht, ih hblock, addBlock_addToGroup]

section Relation
variable {R : Group → Group → Prop} {block block' : List Scope}
  {groups groups' : List (List Json × Group)}

/-- Groups of one key that are related. -/
def SameKey (R : Group → Group → Prop) (e e' : List Json × Group) : Prop := e.1 = e'.1 ∧ R e.2 e'.2

theorem forall₂_addBlock (hnew : Option.Rel R (Group.ofScopes? block) (Group.ofScopes? block'))
    (hadd : ∀ g g', R g g' → R { g with rest := g.rest ++ block }
      { g' with rest := g'.rest ++ block' })
    (h : List.Forall₂ (SameKey R) groups groups') :
    List.Forall₂ (SameKey R) (addBlock key block groups) (addBlock key block' groups') := by
  induction h with
  | nil =>
    rw [addBlock, addBlock]
    generalize Group.ofScopes? block = g?, Group.ofScopes? block' = g'? at hnew
    cases hnew with
    | none => exact .nil
    | some hg => exact .cons ⟨rfl, hg⟩ .nil
  | cons he hrest ih =>
    rename_i e e' _ _
    obtain ⟨k, g⟩ := e
    obtain ⟨k', g'⟩ := e'
    obtain ⟨rfl, hg⟩ := he
    rw [addBlock, addBlock]
    split
    · exact .cons ⟨rfl, hadd g g' hg⟩ hrest
    · exact .cons ⟨rfl, hg⟩ ih

/-- Groups are related where what is joined to each row of the base table is. -/
theorem forall₂_groupBy {rows : List Record} {block block' : Record → List Scope}
    {columns' : List Column} {key : Record → List Json}
    (hkey : ∀ b ∈ rows, ∀ t ∈ block b, columns.map t.read = key b)
    (hkey' : ∀ b ∈ rows, ∀ t ∈ block' b, columns'.map t.read = key b)
    (hnew : ∀ b ∈ rows, Option.Rel R (Group.ofScopes? (block b)) (Group.ofScopes? (block' b)))
    (hadd : ∀ b ∈ rows, ∀ g g', R g g' → R { g with rest := g.rest ++ block b }
      { g' with rest := g'.rest ++ block' b }) :
    List.Forall₂ R (groupBy columns (rows.flatMap block))
      (groupBy columns' (rows.flatMap block')) := by
  have hfold (groups groups' : List (List Json × Group))
      (h : List.Forall₂ (SameKey R) groups groups') : List.Forall₂ (SameKey R)
        ((rows.flatMap block).foldl
          (fun groups t => addToGroup (columns.map t.read) t groups) groups)
        ((rows.flatMap block').foldl
          (fun groups t => addToGroup (columns'.map t.read) t groups) groups') := by
    induction rows generalizing groups groups' with
    | nil => exact h
    | cons b rest ih =>
      obtain ⟨hb, hrest⟩ := List.forall_mem_cons.1 hkey
      obtain ⟨hb', hrest'⟩ := List.forall_mem_cons.1 hkey'
      obtain ⟨hnewb, hnewrest⟩ := List.forall_mem_cons.1 hnew
      obtain ⟨haddb, haddrest⟩ := List.forall_mem_cons.1 hadd
      rw [List.flatMap_cons, List.flatMap_cons, List.foldl_append, List.foldl_append,
        foldl_addToGroup_eq hb, foldl_addToGroup_eq hb']
      exact ih hrest hrest' hnewrest haddrest _ _ (forall₂_addBlock hnewb haddb h)
  have h := hfold [] [] .nil
  rw [groupBy_eq, groupBy_eq, List.forall₂_map_left_iff, List.forall₂_map_right_iff]
  exact h.imp fun _ _ he => he.2

end Relation

end Dataset
end EntitySelect
