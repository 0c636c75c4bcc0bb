import EntitySelect.Proofs.Select.WellFormed

/-! Grouping takes rows apart by the values of columns. The rows of a group stay in their order, and
the groups stand in the order of their first rows. -/
namespace EntitySelect

/-- Joined rows with the same values in columns. -/
def Scope.Agree (columns : List Column) (t u : Scope) : Prop :=
  ∀ column ∈ columns, t.read column = u.read column

instance (columns : List Column) (t u : Scope) : Decidable (t.Agree columns u) :=
  inferInstanceAs (Decidable (∀ column ∈ columns, t.read column = u.read column))

theorem Scope.agree_iff {columns : List Column} {t u : Scope} :
    t.Agree columns u ↔ columns.map t.read = columns.map u.read :=
  List.map_inj_left.symm

/-- The groups of rows by the values of columns. -/
structure Partition (columns : List Column) (rows : List Scope) (groups : List Group) : Prop where
  /-- Each row is in a group as often as it is given. -/
  perm : (groups.flatMap (·.scopes)).Perm rows
  /-- Every group has a first row. -/
  headed : ∀ g ∈ groups, g.scopes.head? = some g.first
  /-- Rows are grouped with the rows that have the same values. -/
  together : ∀ t ∈ rows, ∀ u ∈ rows,
    (∃ g ∈ groups, t ∈ g.scopes ∧ u ∈ g.scopes) ↔ t.Agree columns u
  /-- No two groups are of the same values. -/
  apart : groups.Pairwise fun g g' => ¬g.first.Agree columns g'.first
  /-- The rows of a group are all that have its values, in their order. -/
  kept : ∀ g ∈ groups, g.scopes = rows.filter fun t => decide (g.first.Agree columns t)
  /-- Groups stand in the order of their first rows. -/
  ordered : groups.Pairwise fun g g' => rows.idxOf g.first < rows.idxOf g'.first

/-- The columns of the fields that a statement groups by. -/
def Select.Grouping (s : Select) (columns : List Column) : Prop :=
  List.Forall₂ (fun label column => (s.field? label).map (·.column) = some column) s.groupBy columns

namespace Dataset
variable {columns : List Column} {key : List Json} {seen : List Scope}
  {groups : List (List Json × Group)}

/-- The key of a group and its first row, which stay. -/
def heading (e : List Json × Group) : List Json × Scope := (e.1, e.2.first)

/-- What holds of the groups after some rows. -/
structure Grouped (columns : List Column) (seen : List Scope) (groups : List (List Json × Group)) :
    Prop where
  perm : (groups.flatMap (·.2.scopes)).Perm seen
  kept : ∀ e ∈ groups, e.2.scopes = seen.filter fun t => decide (columns.map t.read = e.1)
  ordered : (groups.map heading).Pairwise fun a b =>
    a.1 ≠ b.1 ∧ seen.idxOf a.2 < seen.idxOf b.2

theorem addToGroup_of_mem (h : key ∈ groups.map (·.1)) (t : Scope) :
    ∃ before g after, groups = before ++ (key, g) :: after ∧
      addToGroup key t groups = before ++ (key, { g with rest := g.rest ++ [t] }) :: after := by
  induction groups with
  | nil => cases h
  | cons e rest ih =>
    obtain ⟨k, g⟩ := e
    rw [addToGroup]
    split
    · next heq => exact ⟨[], g, rest, by rw [heq]; rfl, by rw [heq]; rfl⟩
    · next hne =>
      rw [List.map_cons, List.mem_cons] at h
      obtain ⟨before, g', after, hrest, hadd⟩ := ih (h.resolve_left (Ne.symm hne))
      exact ⟨(k, g) :: before, g', after, by rw [hrest]; rfl, by rw [hadd]; rfl⟩

namespace Grouped

theorem nil : Grouped columns [] [] := ⟨.refl [], List.forall_mem_nil _, .nil⟩

theorem first_mem (h : Grouped columns seen groups) {e : List Json × Group} (he : e ∈ groups) :
    (heading e).2 ∈ seen ∧ columns.map e.2.first.read = e.1 := by
  have hfirst : e.2.first ∈ e.2.scopes := List.mem_cons_self
  rw [h.kept e he, List.mem_filter, decide_eq_true_eq] at hfirst
  exact hfirst

theorem exists_of_mem (h : Grouped columns seen groups) {t : Scope} (ht : t ∈ seen) :
    ∃ e ∈ groups, t ∈ e.2.scopes ∧ columns.map t.read = e.1 := by
  obtain ⟨e, he, hmem⟩ := List.mem_flatMap.1 (h.perm.mem_iff.2 ht)
  have hkey := hmem
  rw [h.kept e he, List.mem_filter, decide_eq_true_eq] at hkey
  exact ⟨e, he, hmem, hkey.2⟩

/-- First rows stay where they are when more rows come. -/
theorem ordered_append (h : Grouped columns seen groups) (t : Scope) :
    (groups.map heading).Pairwise fun a b =>
      a.1 ≠ b.1 ∧ (seen ++ [t]).idxOf a.2 < (seen ++ [t]).idxOf b.2 := by
  refine h.ordered.imp_of_mem ?_
  intro a b ha hb hab
  obtain ⟨e, he, rfl⟩ := List.mem_map.1 ha
  obtain ⟨e', he', rfl⟩ := List.mem_map.1 hb
  rw [List.idxOf_append_of_mem (h.first_mem he).1, List.idxOf_append_of_mem (h.first_mem he').1]
  exact hab

/-- A row with a known key goes to its group. -/
theorem add_known (h : Grouped columns seen groups) {t : Scope}
    (hkey : columns.map t.read ∈ groups.map (·.1)) :
    Grouped columns (seen ++ [t]) (addToGroup (columns.map t.read) t groups) := by
  obtain ⟨before, g, after, hgroups, hadd⟩ := addToGroup_of_mem hkey t
  have hperm := h.perm
  have hkept := h.kept
  have hapart := h.ordered
  have hordered := h.ordered_append t
  rw [hgroups] at hperm hkept hapart hordered
  rw [hadd]
  have hother {e : List Json × Group} (he : e ∈ before ∨ e ∈ after) : columns.map t.read ≠ e.1 := by
    rw [List.map_append, List.map_cons, List.pairwise_append, List.pairwise_cons] at hapart
    obtain ⟨-, ⟨hafter, -⟩, hbefore⟩ := hapart
    rcases he with he | he
    · exact (hbefore _ (List.mem_map_of_mem he) _ List.mem_cons_self).1.symm
    · exact (hafter _ (List.mem_map_of_mem he)).1
  have hsame {e : List Json × Group} (he : e ∈ before ∨ e ∈ after) :
      e.2.scopes = (seen ++ [t]).filter fun u => decide (columns.map u.read = e.1) := by
    have hmem : e ∈ before ++ (columns.map t.read, g) :: after := by
      simp only [List.mem_append, List.mem_cons]
      tauto
    rw [List.filter_append, hkept e hmem]
    simp [hother he]
  have hscopes : Group.scopes { g with rest := g.rest ++ [t] } = g.scopes ++ [t] := rfl
  refine ⟨?_, ?_, by simpa [heading] using hordered⟩
  · rw [List.flatMap_append, List.flatMap_cons] at hperm ⊢
    rw [hscopes, List.append_assoc]
    have hlast := @List.perm_append_comm _ [t] (after.flatMap (·.2.scopes))
    refine ((hlast.append_left g.scopes).append_left _).trans ?_
    simpa only [List.append_assoc] using hperm.append_right [t]
  · have hg := hkept _ (List.mem_append_right _ List.mem_cons_self)
    refine List.forall_mem_append.2 ⟨fun e he => hsame (.inl he),
      List.forall_mem_cons.2 ⟨?_, fun e he => hsame (.inr he)⟩⟩
    rw [hscopes, List.filter_append, hg]
    simp

/-- A row with a new key becomes a group behind the others. -/
theorem add_new (h : Grouped columns seen groups) {t : Scope}
    (hkey : columns.map t.read ∉ groups.map (·.1)) :
    Grouped columns (seen ++ [t]) (addToGroup (columns.map t.read) t groups) := by
  have hother {e : List Json × Group} (he : e ∈ groups) : columns.map t.read ≠ e.1 := by
    intro heq
    exact hkey (heq ▸ List.mem_map_of_mem he)
  have hfresh (u : Scope) (hu : u ∈ seen) : columns.map u.read ≠ columns.map t.read := by
    obtain ⟨e, he, -, hval⟩ := h.exists_of_mem hu
    rw [hval]
    exact (hother he).symm
  rw [addToGroup_of_not_mem hkey]
  refine ⟨?_, ?_, ?_⟩
  · rw [List.flatMap_append]
    exact h.perm.append_right [t]
  · refine List.forall_mem_append.2 ⟨fun e he => ?_, List.forall_mem_singleton.2 ?_⟩
    · rw [List.filter_append, h.kept e he]
      simp [hother he]
    · rw [List.filter_append, List.filter_eq_nil_iff.2 fun u hu => by simpa using hfresh u hu]
      simp [Group.scopes]
  · rw [List.map_append]
    refine List.pairwise_append.2 ⟨h.ordered_append t, List.pairwise_singleton .., ?_⟩
    intro a ha b hb
    obtain ⟨e, he, rfl⟩ := List.mem_map.1 ha
    obtain rfl := List.mem_singleton.1 hb
    refine ⟨(hother he).symm, ?_⟩
    have hnew : t ∉ seen := fun ht => hfresh t ht rfl
    have hlast : (seen ++ [t]).idxOf t = seen.length := by
      rw [List.idxOf_append_of_notMem hnew, List.idxOf_cons_self]
      rfl
    rw [List.idxOf_append_of_mem (h.first_mem he).1]
    exact (List.idxOf_lt_length_of_mem (h.first_mem he).1).trans_eq hlast.symm

theorem add (h : Grouped columns seen groups) (t : Scope) :
    Grouped columns (seen ++ [t]) (addToGroup (columns.map t.read) t groups) := by
  by_cases hkey : columns.map t.read ∈ groups.map (·.1)
  · exact h.add_known hkey
  · exact h.add_new hkey

end Grouped

/-- The groups of all rows, by induction from the last row. -/
theorem grouped (columns : List Column) (rows : List Scope) : Grouped columns rows
    (rows.foldl (fun groups t => addToGroup (columns.map t.read) t groups) []) := by
  induction rows using List.reverseRecOn with
  | nil => exact .nil
  | append_singleton rows t ih =>
    rw [List.foldl_append]
    exact ih.add t

theorem partition_groupBy (columns : List Column) (rows : List Scope) :
    Partition columns rows (groupBy columns rows) := by
  have h := grouped columns rows
  rw [groupBy_eq]
  generalize rows.foldl (fun groups t => addToGroup (columns.map t.read) t groups) [] = groups at h
  have hkey {e : List Json × Group} (he : e ∈ groups) := (h.first_mem he).2
  have hkept {e : List Json × Group} (he : e ∈ groups) (t : Scope) :
      t ∈ e.2.scopes ↔ t ∈ rows ∧ columns.map t.read = e.1 := by
    rw [h.kept e he, List.mem_filter, decide_eq_true_eq]
  have hordered := List.pairwise_map.1 h.ordered
  refine ⟨?_, fun g _ => rfl, ?_, ?_, ?_, ?_⟩
  · rw [List.flatMap_map]
    exact h.perm
  · intro t ht u hu
    rw [Scope.agree_iff]
    constructor
    · rintro ⟨g, hg, htg, hug⟩
      obtain ⟨e, he, rfl⟩ := List.mem_map.1 hg
      rw [((hkept he t).1 htg).2, ((hkept he u).1 hug).2]
    · intro hagree
      obtain ⟨e, he, hte, hval⟩ := h.exists_of_mem ht
      exact ⟨e.2, List.mem_map_of_mem he, hte, (hkept he u).2 ⟨hu, hagree ▸ hval⟩⟩
  · refine List.pairwise_map.2 (hordered.imp_of_mem fun he he' hapart => ?_)
    rw [Scope.agree_iff, hkey he, hkey he']
    exact hapart.1
  · intro g hg
    obtain ⟨e, he, rfl⟩ := List.mem_map.1 hg
    rw [h.kept e he]
    refine List.filter_congr fun t _ => decide_eq_decide.2 ?_
    rw [Scope.agree_iff, hkey he, eq_comm]
  · exact List.pairwise_map.2 (hordered.imp fun hapart => hapart.2)

theorem exists_forall₂ {α β : Type} {r : α → β → Prop} {as : List α} (h : ∀ a ∈ as, ∃ b, r a b) :
    ∃ bs, List.Forall₂ r as bs := by
  induction as with
  | nil => exact ⟨[], .nil⟩
  | cons a as ih =>
    obtain ⟨⟨b, hb⟩, has⟩ := List.forall_mem_cons.1 h
    obtain ⟨bs, hbs⟩ := ih has
    exact ⟨b :: bs, .cons hb hbs⟩

theorem groupColumns_eq_ok {s : Select} {columns : List Column} (h : s.Grouping columns) :
    groupColumns s = .ok columns := by
  refine mapM_eq_ok_of_forall₂ (h.imp fun label column hcolumn => ?_)
  obtain ⟨f, hf, rfl⟩ := Option.map_eq_some_iff.1 hcolumn
  rw [hf]

/-- A statement that groups by fields of its select list takes rows apart by the columns of these
fields, whatever the rows are. -/
theorem group_partitions {s : Select} (hne : s.groupBy ≠ [])
    (hfields : ∀ label ∈ s.groupBy, ∃ f ∈ s.fields, f.label = label) (rows : List Scope) :
    ∃ columns groups,
      s.Grouping columns ∧ group s rows = .ok groups ∧ Partition columns rows groups := by
  obtain ⟨columns, hcolumns⟩ : ∃ columns, s.Grouping columns := by
    refine exists_forall₂ fun label hlabel => ?_
    obtain ⟨f, hf⟩ := Select.exists_field? (hfields label hlabel)
    exact ⟨f.column, by rw [hf, Option.map_some]⟩
  refine ⟨columns, groupBy columns rows, hcolumns, ?_, partition_groupBy columns rows⟩
  unfold group
  rw [if_neg (by simpa using hne), groupColumns_eq_ok hcolumns]
  rfl

/-- A statement that groups by a score. -/
def byScore : Select where
  table := "scores"
  label := "base_table"
  conjunction := .and
  fields := [⟨⟨"base_table", "score"⟩, "score"⟩]
  groupBy := ["score"]

/-- A row with a score. -/
def scored (v : Json) : Scope := [("base_table", [("score", v)])]

/-- The zeros of both signs and the whole number are three groups. -/
theorem group_partitions_zeros :
    let zero := scored (.number (.double (.zero false)))
    let minusZero := scored (.number (.double (.zero true)))
    let whole := scored (.word 0)
    let rows := [zero, minusZero, whole, zero]
    let groups : List Group := [⟨zero, [zero]⟩, ⟨minusZero, []⟩, ⟨whole, []⟩]
    group byScore rows = .ok groups ∧ Partition [⟨"base_table", "score"⟩] rows groups := by
  intro zero minusZero whole rows groups
  have heval : group byScore rows = .ok groups := by decide +kernel
  obtain ⟨columns, groups', hcolumns, hgroup, hpartition⟩ :=
    group_partitions (s := byScore) (by decide) (by decide) rows
  rw [heval, Except.ok.injEq] at hgroup
  cases hcolumns with
  | cons hcolumn hrest =>
    cases hcolumn
    cases hrest
    exact ⟨heval, hgroup ▸ hpartition⟩

end Dataset
end EntitySelect
