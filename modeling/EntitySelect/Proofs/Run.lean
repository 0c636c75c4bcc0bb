/-! Runs of work that can fail, and of work that keeps a state as well. A run that succeeds is taken
apart at its binds. -/
namespace EntitySelect

section Except
variable {ε α β : Type}

theorem bind_eq_ok_iff {x : Except ε α} {f : α → Except ε β} {b : β} :
    x >>= f = .ok b ↔ ∃ a, x = .ok a ∧ f a = .ok b := by
  cases x with
  | error e => exact ⟨nofun, fun ⟨_, h, _⟩ => nomatch h⟩
  | ok a =>
    constructor
    · intro h
      exact ⟨a, rfl, h⟩
    · rintro ⟨a', ha, h⟩
      cases ha
      exact h

theorem bind_eq_error_iff {x : Except ε α} {f : α → Except ε β} {e : ε} :
    x >>= f = .error e ↔ x = .error e ∨ ∃ a, x = .ok a ∧ f a = .error e := by
  cases x with
  | error e' =>
    constructor
    · intro h
      cases h
      exact .inl rfl
    · rintro (h | ⟨_, h, -⟩)
      · cases h
        rfl
      · cases h
  | ok a =>
    constructor
    · intro h
      exact .inr ⟨a, rfl, h⟩
    · rintro (h | ⟨a', ha, h⟩)
      · cases h
      · cases ha
        exact h

theorem eq_ok_of_toOption {x : Except ε α} {a : α} (h : x.toOption = some a) : x = .ok a := by
  cases x with
  | error e => cases h
  | ok a' =>
    cases h
    rfl

/-- A list of checks passes if each of them does. -/
theorem forM_eq_ok_iff {as : List α} {f : α → Except ε Unit} :
    as.forM f = .ok () ↔ ∀ a ∈ as, f a = .ok () := by
  induction as with
  | nil => exact ⟨nofun, fun _ => rfl⟩
  | cons a as ih =>
    change (f a >>= fun _ => as.forM f) = _ ↔ _
    rw [bind_eq_ok_iff, List.forall_mem_cons, ← ih]
    constructor
    · rintro ⟨_, ha, has⟩
      exact ⟨ha, has⟩
    · rintro ⟨ha, has⟩
      exact ⟨⟨⟩, ha, has⟩

/-- A list of checks that fails does so with the error of one of them. -/
theorem exists_of_forM_eq_error {as : List α} {f : α → Except ε Unit} {e : ε}
    (h : as.forM f = .error e) : ∃ a ∈ as, f a = .error e := by
  induction as with
  | nil => cases h
  | cons a as ih =>
    rcases bind_eq_error_iff.1 h with h | ⟨_, -, h⟩
    · exact ⟨a, List.mem_cons_self, h⟩
    · obtain ⟨a', ha', h⟩ := ih h
      exact ⟨a', List.mem_cons_of_mem _ ha', h⟩

/-- Steps on a part of a state leave the rest as it is. -/
theorem foldlM_map_eq {γ : Type} (put : β → γ) {f : γ → α → Except ε γ} {g : β → α → Except ε β}
    (h : ∀ b a, f (put b) a = (g b a).map put) (as : List α) (b : β) :
    as.foldlM f (put b) = (as.foldlM g b).map put := by
  induction as generalizing b with
  | nil => rfl
  | cons a as ih =>
    rw [List.foldlM_cons, List.foldlM_cons, h]
    cases g b a with
    | error e => rfl
    | ok b' => exact ih b'

/-- What each step keeps is kept by all of them. -/
theorem foldlM_keeps {p : β → Prop} {f : β → α → Except ε β}
    (hf : ∀ b a b', p b → f b a = .ok b' → p b') {as : List α} {b b' : β} (hb : p b)
    (h : as.foldlM f b = .ok b') : p b' := by
  induction as generalizing b with
  | nil =>
    cases h
    exact hb
  | cons a as ih =>
    rw [List.foldlM_cons, bind_eq_ok_iff] at h
    obtain ⟨next, ha, has⟩ := h
    exact ih (hf b a next hb ha) has

end Except

/-- From the state `s` the work succeeds with `a`, and leaves the state `s'`. -/
def Gives (x : ExceptT ε (StateM σ) α) (s : σ) (a : α) (s' : σ) : Prop := x.run.run s = (.ok a, s')

variable {ε σ α β : Type} {s s' : σ}

theorem gives_pure_iff {a b : α} :
    Gives (pure a : ExceptT ε (StateM σ) α) s b s' ↔ b = a ∧ s' = s := by
  constructor
  · intro h
    cases h
    exact ⟨rfl, rfl⟩
  · rintro ⟨rfl, rfl⟩
    rfl

theorem not_gives_throw {e : ε} {a : α} :
    ¬ Gives (throw e : ExceptT ε (StateM σ) α) s a s' := by
  intro h
  cases h

theorem gives_modifyGet_iff {f : σ → α × σ} {a : α} :
    Gives (modifyGet f : ExceptT ε (StateM σ) α) s a s' ↔ a = (f s).1 ∧ s' = (f s).2 := by
  have h : (modifyGet f : ExceptT ε (StateM σ) α).run.run s = (.ok (f s).1, (f s).2) := rfl
  rw [Gives, h, Prod.ext_iff]
  constructor
  · rintro ⟨ha, hs⟩
    exact ⟨(Except.ok.inj ha).symm, hs.symm⟩
  · rintro ⟨ha, hs⟩
    exact ⟨congrArg Except.ok ha.symm, hs.symm⟩

/-- Work goes on from where the work before it has succeeded. -/
theorem run_bind (x : ExceptT ε (StateM σ) α) (f : α → ExceptT ε (StateM σ) β) (s : σ) :
    (x >>= f).run.run s = match x.run.run s with
      | (.ok a, i) => (f a).run.run i
      | (.error e, i) => (.error e, i) := by
  change (ExceptT.bindCont f (x.run.run s).1).run (x.run.run s).2 = _
  rcases x.run.run s with ⟨_ | _, _⟩ <;> rfl

theorem gives_bind_iff {x : ExceptT ε (StateM σ) α} {f : α → ExceptT ε (StateM σ) β} {b : β} :
    Gives (x >>= f) s b s' ↔ ∃ a i, Gives x s a i ∧ Gives (f a) i b s' := by
  rw [Gives, run_bind]
  rcases hx : x.run.run s with ⟨e | a, i⟩
  · constructor
    · intro h
      cases h
    · rintro ⟨a, i', ha, -⟩
      rw [Gives, hx] at ha
      cases ha
  · constructor
    · intro h
      exact ⟨a, i, hx, h⟩
    · rintro ⟨a', i', ha, hf⟩
      rw [Gives, hx] at ha
      cases ha
      exact hf

theorem gives_mapM_cons_iff {f : α → ExceptT ε (StateM σ) β} {a : α} {as : List α}
    {bs : List β} : Gives ((a :: as).mapM f) s bs s' ↔
      ∃ b i rest, Gives (f a) s b i ∧ Gives (as.mapM f) i rest s' ∧ bs = b :: rest := by
  rw [List.mapM_cons, gives_bind_iff]
  constructor
  · rintro ⟨b, i, hb, h⟩
    obtain ⟨rest, i', hrest, h⟩ := gives_bind_iff.1 h
    obtain ⟨rfl, rfl⟩ := gives_pure_iff.1 h
    exact ⟨b, i, rest, hb, hrest, rfl⟩
  · rintro ⟨b, i, rest, hb, hrest, rfl⟩
    exact ⟨b, i, hb, gives_bind_iff.2 ⟨rest, s', hrest, gives_pure_iff.2 ⟨rfl, rfl⟩⟩⟩

/-- What the work fails with from the state `s`, if it fails. -/
def failure? (x : ExceptT ε (StateM σ) α) (s : σ) : Option ε :=
  match (x.run.run s).1 with
  | .error e => some e
  | .ok _ => none

@[simp] theorem failure?_pure (a : α) (s : σ) :
    failure? (pure a : ExceptT ε (StateM σ) α) s = none := rfl

theorem failure?_eq_some_iff {x : ExceptT ε (StateM σ) α} {e : ε} :
    failure? x s = some e ↔ (x.run.run s).1 = .error e := by
  unfold failure?
  cases (x.run.run s).1 <;> simp

theorem failure?_eq_none_iff {x : ExceptT ε (StateM σ) α} :
    failure? x s = none ↔ ∃ a, (x.run.run s).1 = .ok a := by
  unfold failure?
  cases (x.run.run s).1 <;> simp

/-- Where the state has no say in it, work in sequence fails with the first failure of its parts. -/
theorem failure?_bind {x : ExceptT ε (StateM σ) α} {f : α → ExceptT ε (StateM σ) β} {o : Option ε}
    (hf : ∀ a i, failure? (f a) i = o) : failure? (x >>= f) s = (failure? x s).or o := by
  unfold failure? at hf ⊢
  rw [run_bind]
  rcases x.run.run s with ⟨e | a, i⟩
  · rfl
  · exact hf a i

theorem failure?_mapM {f : α → ExceptT ε (StateM σ) β} {g : α → Option ε}
    (hf : ∀ a s, failure? (f a) s = g a) {as : List α} :
    failure? (as.mapM f) s = as.findSome? g := by
  induction as generalizing s with
  | nil => rfl
  | cons a as ih =>
    have hrest (b : β) (i : σ) :
        failure? ((as.mapM f) >>= fun bs => pure (b :: bs)) i = as.findSome? g := by
      rw [failure?_bind fun _ _ => failure?_pure _ _, ih, Option.or_none]
    rw [List.mapM_cons, failure?_bind hrest, hf, List.findSome?_cons]
    cases g a <;> rfl

end EntitySelect
