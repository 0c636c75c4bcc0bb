import EntitySelect.Select.Sql

/-! What rendering gives, told without its counter: the text of a part from a placeholder on, and the
values of the part in the order in which they are bound. -/
namespace EntitySelect

/-- The placeholders of `count` values, from number `n` on. -/
def placeholders (n count : Nat) : List String := (List.range' n count).map placeholder

/-- The texts of a list from placeholder `n` on. Each takes one placeholder for each of its values. -/
def numbered (text : Nat → α → String) (values : α → List Json) (n : Nat) : List α → List String
  | [] => []
  | a :: rest => text n a :: numbered text values (n + (values a).length) rest

theorem exists_of_mem_numbered {text : Nat → α → String} {values : α → List Json} {n : Nat}
    {l : List α} {s : String} (h : s ∈ numbered text values n l) : ∃ a ∈ l, ∃ m, s = text m a := by
  induction l generalizing n with
  | nil => cases h
  | cons a rest ih =>
    rcases List.mem_cons.1 h with rfl | h
    · exact ⟨a, List.mem_cons_self, n, rfl⟩
    · obtain ⟨b, hb, hs⟩ := ih h
      exact ⟨b, List.mem_cons_of_mem a hb, hs⟩

theorem numbered_placeholder (n : Nat) (vs : List Json) :
    numbered (fun m _ => placeholder m) (fun v => [v]) n vs = placeholders n vs.length := by
  induction vs generalizing n with
  | nil => rfl
  | cons v rest ih =>
    rw [numbered, ih]
    rfl

section Binds
variable {x : Rendering α} {text : Nat → α} {vs ws : List Json}

theorem next_foldl_bind (vs : List Json) (r : Renderer) :
    (vs.foldl Renderer.bind r).next = r.next + vs.length := by
  induction vs generalizing r with
  | nil => rfl
  | cons v rest ih =>
    rw [List.foldl_cons, ih]
    exact Nat.add_right_comm ..

theorem arguments_foldl_bind (vs : List Json) (r : Renderer) :
    (vs.foldl Renderer.bind r).arguments = ((placeholders r.next vs.length).zip vs).foldl
      (fun d e => d.insert e.1 e.2) r.arguments := by
  induction vs generalizing r with
  | nil => rfl
  | cons v rest ih => exact ih (r.bind v)

/-- A rendering binds just these values, in this order, and gives `text n` where the next placeholder
is number `n`. -/
def Rendering.Binds (x : Rendering α) (text : Nat → α) (vs : List Json) : Prop :=
  ∀ r : Renderer, x.run r = (text r.next, vs.foldl Renderer.bind r)

namespace Rendering

theorem binds_pure (a : α) : Binds (pure a) (fun _ => a) [] := fun _ => rfl

theorem binds_bindValue (v : Json) : Binds (bindValue v) placeholder [v] := fun _ => rfl

theorem Binds.bind {f : α → Rendering β} {more : α → Nat → β} (hx : x.Binds text vs)
    (hf : ∀ a, (f a).Binds (more a) ws) :
    Binds (x >>= f) (fun n => more (text n) (n + vs.length)) (vs ++ ws) := by
  intro r
  change (f (x.run r).1).run (x.run r).2 = _
  rw [hx r, hf, next_foldl_bind, List.foldl_append]

theorem Binds.map (hx : x.Binds text vs) (g : α → β) :
    Binds (x >>= fun a => pure (g a)) (fun n => g (text n)) vs := by
  have h := hx.bind fun a => binds_pure (g a)
  rwa [List.append_nil] at h

theorem binds_mapM {f : β → Rendering String} {text : Nat → β → String} {values : β → List Json}
    (hf : ∀ b, (f b).Binds (text · b) (values b)) (l : List β) :
    Binds (l.mapM f) (numbered text values · l) (l.flatMap values) := by
  induction l with
  | nil => exact binds_pure []
  | cons b rest ih =>
    rw [List.mapM_cons]
    exact (hf b).bind fun s => ih.map (s :: ·)

end Rendering
end Binds

open Rendering

namespace JoinTerm

/-- The bound values. -/
def values : JoinTerm → List Json
  | .columns _ _ => []
  | .value _ v => [v]

def sql (n : Nat) : JoinTerm → String
  | .columns left right => left.text ++ " = " ++ right.text
  | .value column _ => column.text ++ " = " ++ placeholder n

theorem binds_render (term : JoinTerm) : term.render.Binds (sql · term) term.values := by
  cases term with
  | columns left right => exact binds_pure _
  | value column v => exact (binds_bindValue v).map (column.text ++ " = " ++ ·)

end JoinTerm

namespace Join

def values (j : Join) : List Json := j.on.flatMap JoinTerm.values

def sql (n : Nat) (j : Join) : String :=
  j.kind.word ++ " " ++ j.table ++ " " ++ j.label ++ " ON " ++
    " AND ".intercalate (numbered JoinTerm.sql JoinTerm.values n j.on)

theorem binds_render (j : Join) : j.render.Binds (sql · j) j.values :=
  (binds_mapM JoinTerm.binds_render j.on).map _

end Join

namespace Comparison

/-- The bound values of a comparison. -/
def values (comparison : Comparison) (v : Json) : List Json :=
  match comparison with
  | .isNull | .isNotNull => []
  | .oneOf | .noneOf => v.items
  | .between => [v.bounds.1, v.bounds.2]
  | _ => [v]

def sql (comparison : Comparison) (column : Column) (v : Json) (n : Nat) : String :=
  let head := column.text ++ " " ++ comparison.word
  match comparison with
  | .isNull | .isNotNull => head
  | .oneOf | .noneOf => head ++ " (" ++ ", ".intercalate (placeholders n v.items.length) ++ ")"
  | .between => head ++ " " ++ placeholder n ++ " AND " ++ placeholder (n + 1)
  | .like => head ++ " " ++ placeholder n ++ " ESCAPE '\\'"
  | _ => head ++ " " ++ placeholder n

theorem binds_render (comparison : Comparison) (column : Column) (v : Json) :
    (comparison.render column v).Binds (comparison.sql column v) (comparison.values v) := by
  have hitems : (v.items.mapM bindValue).Binds (placeholders · v.items.length) v.items := by
    have h := binds_mapM binds_bindValue v.items
    simp only [numbered_placeholder] at h
    rwa [List.flatMap_singleton'] at h
  cases comparison with
  | isNull | isNotNull => exact binds_pure _
  | oneOf | noneOf => exact hitems.map _
  | between => exact (binds_bindValue _).bind fun low => (binds_bindValue _).map _
  | equal | notEqual | greater | atLeast | less | atMost | like => exact (binds_bindValue v).map _

end Comparison

namespace Where

mutual
/-- The bound values, from left to right. -/
def values : Where → List Json
  | .group _ parts => partValues parts
  | .compare _ comparison v => comparison.values v
def partValues : List Where → List Json
  | [] => []
  | w :: rest => values w ++ partValues rest
end

mutual
theorem values_of_isEmpty : ∀ {w : Where}, w.isEmpty = true → w.values = []
  | .group _ parts, h => by
    rw [isEmpty] at h
    rw [values]
    exact partValues_of_areEmpty h
  | .compare .., h => by cases h
theorem partValues_of_areEmpty : ∀ {parts : List Where}, areEmpty parts = true →
    partValues parts = []
  | [], _ => rfl
  | w :: rest, h => by
    rw [areEmpty, Bool.and_eq_true] at h
    rw [partValues, values_of_isEmpty h.1, partValues_of_areEmpty h.2, List.append_nil]
end

mutual
/-- A condition from placeholder `n` on. -/
def sql (n : Nat) : Where → String
  | .group c parts => "(" ++ (" " ++ c.word ++ " ").intercalate (partSqls n parts) ++ ")"
  | .compare column comparison v => comparison.sql column v n
def partSqls (n : Nat) : List Where → List String
  | [] => []
  | w :: rest =>
    if isEmpty w then partSqls n rest else sql n w :: partSqls (n + (values w).length) rest
end

mutual
/-- Values are bound from left to right. -/
theorem binds_render : ∀ w : Where, w.render.Binds (sql · w) w.values
  | .group c parts => by
    rw [render, values]
    exact (binds_renderParts parts).map _
  | .compare column comparison v => by
    rw [render, values]
    exact comparison.binds_render column v
theorem binds_renderParts : ∀ parts : List Where,
    (renderParts parts).Binds (partSqls · parts) (partValues parts)
  | [] => binds_pure []
  | w :: rest => by
    simp only [renderParts, partValues, partSqls]
    split
    · next hempty =>
      rw [values_of_isEmpty hempty]
      exact binds_renderParts rest
    · exact (binds_render w).bind fun text => (binds_renderParts rest).map (text :: ·)
end

end Where

namespace Select

/-- The bound values, those of the joins before those of the condition. -/
def values (s : Select) : List Json := s.joins.flatMap Join.values ++ s.condition.values

def whereText (n : Nat) (s : Select) : String :=
  (" " ++ s.conjunction.word ++ " ").intercalate (Where.partSqls n s.conditions)

/-- The clauses from placeholder `n` on. -/
def clausesFrom (n : Nat) (s : Select) : List String :=
  ["SELECT " ++ s.selectList, "FROM " ++ s.table ++ " " ++ s.label] ++
    numbered Join.sql Join.values n s.joins ++
    (if s.condition.isEmpty then []
      else ["WHERE " ++ s.whereText (n + (s.joins.flatMap Join.values).length)]) ++
    (if s.groupBy.isEmpty then [] else ["GROUP BY " ++ ", ".intercalate s.groupBy]) ++
    (if s.orders.isEmpty then [] else ["ORDER BY " ++ ", ".intercalate (s.orders.map Order.text)]) ++
    match s.window with
    | some w => ["LIMIT " ++ toString w.length.toNat ++ " OFFSET " ++ toString w.start.toNat]
    | none => []

theorem binds_renderWhere (s : Select) : s.renderWhere.Binds
    (fun n => if s.condition.isEmpty then [] else ["WHERE " ++ s.whereText n])
    s.condition.values := by
  unfold renderWhere
  split
  · next hempty =>
    rw [Where.values_of_isEmpty hempty]
    exact binds_pure []
  · rw [condition, Where.values]
    exact (Where.binds_renderParts s.conditions).map _

/-- Values are bound in the order of the joins and then of the condition. -/
theorem binds_render (s : Select) : s.render.Binds (clausesFrom · s) s.values :=
  (binds_mapM Join.binds_render s.joins).bind fun _ => s.binds_renderWhere.map _

theorem clauses_eq (s : Select) : s.clauses = s.clausesFrom 0 :=
  congrArg Prod.fst (s.binds_render {})

/-- The values under the placeholders of their positions. -/
theorem arguments_eq (s : Select) :
    s.arguments = Dict.ofList ((placeholders 0 s.values.length).zip s.values) := by
  have h : s.arguments = (s.values.foldl Renderer.bind {}).arguments :=
    congrArg (·.2.arguments) (s.binds_render {})
  exact h.trans (arguments_foldl_bind s.values {})

end Select
end EntitySelect
