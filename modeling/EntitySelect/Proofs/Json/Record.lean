import EntitySelect.Json.Record

/-! What was written for the fields of a record, and when a record can be read at all. -/
namespace EntitySelect.Written

/-- The values written for field number `i`, named `name`: none, one, or in an object more. -/
def given (w : Written) (i : Nat) (name : String) : List Written :=
  match w with
  | .object fields => (fields.filter (·.1 == some name)).map (·.2)
  | .array items => items[i]?.toList
  | _ => []

/-- An object whose names are text, or an array of at most `n` items. -/
def IsRecord (n : Nat) : Written → Prop
  | .object fields => ∀ f ∈ fields, f.1.isSome
  | .array items => items.length ≤ n
  | _ => False

theorem mapM_slot_iff {read : String → Option Slot} {given : String → List Written}
    (h : ∀ name slot, read name = some slot ↔ given name = slot.toList)
    (names : List String) (slots : List Slot) :
    names.mapM read = some slots ↔ names.map given = slots.map Option.toList := by
  induction names generalizing slots with
  | nil => cases slots <;> simp
  | cons name names ih =>
    rw [List.mapM_cons]
    cases slots with
    | nil => simp [Option.bind_eq_some_iff]
    | cons slot slots =>
      simp only [Option.bind_eq_bind, Option.bind_eq_some_iff, Option.pure_def, Option.some.injEq,
        List.cons.injEq, List.map_cons]
      rw [← h, ← ih]
      constructor
      · rintro ⟨_, hslot, _, hslots, rfl, rfl⟩
        exact ⟨hslot, hslots⟩
      · rintro ⟨hslot, hslots⟩
        exact ⟨slot, hslot, slots, hslots, rfl, rfl⟩

theorem slots?_object (fields : List (Option String × Written)) (names : List String)
    (slots : List Slot) :
    (object fields).slots? names = some slots ↔
      (object fields).IsRecord names.length ∧
        names.zipIdx.map (fun n => (object fields).given n.2 n.1) = slots.map Option.toList := by
  have hnames : (fields.all (·.1.isSome) = true) ↔ (object fields).IsRecord names.length := by
    simp [IsRecord, List.all_eq_true]
  have hgiven : names.zipIdx.map (fun n => (object fields).given n.2 n.1) =
      names.map ((object fields).given 0) := by
    calc
      _ = (names.zipIdx.map Prod.fst).map ((object fields).given 0) := by rw [List.map_map]; rfl
      _ = names.map ((object fields).given 0) := by rw [List.zipIdx_map_fst]
  rw [← hnames, hgiven, slots?]
  by_cases h : fields.all (·.1.isSome) = true
  · rw [if_pos h, and_iff_right h]
    apply mapM_slot_iff
    intro name slot
    rw [given]
    generalize fields.filter (·.1 == some name) = found
    cases slot with
    | none => rcases found with _ | ⟨f, _ | ⟨f', found⟩⟩ <;> simp
    | some v => rcases found with _ | ⟨f, _ | ⟨f', found⟩⟩ <;> simp
  · rw [if_neg h]
    simp [h]

theorem slots?_array (items : List Written) (names : List String) (slots : List Slot) :
    (array items).slots? names = some slots ↔
      (array items).IsRecord names.length ∧
        names.zipIdx.map (fun n => (array items).given n.2 n.1) = slots.map Option.toList := by
  simp only [slots?, IsRecord]
  by_cases h : items.length ≤ names.length
  · have hslots : items.map some ++ List.replicate (names.length - items.length) none =
        names.zipIdx.map (fun n => items[n.2]?) := by
      apply List.ext_getElem?
      intro i
      by_cases hi : i < items.length
      · have hn : i < names.length := by omega
        simp [List.getElem?_append, hi, hn]
      · by_cases hn : i < names.length
        · have hr : i - items.length < names.length - items.length := by omega
          simp [List.getElem?_append, hi, hn, hr]
        · have hr : ¬ i - items.length < names.length - items.length := by omega
          simp [List.getElem?_append, hi, hn, hr]
    have hgiven : names.zipIdx.map (fun n => (array items).given n.2 n.1) =
        (names.zipIdx.map (fun n => items[n.2]?)).map Option.toList := by
      rw [List.map_map]
      rfl
    rw [if_pos h, and_iff_right h, hslots, hgiven, Option.some.injEq]
    have hinj : ∀ a b : Slot, a.toList = b.toList → a = b := by
      intro a b
      cases a <;> cases b <;> simp
    exact (List.map_inj_right hinj).symm
  · simp [h]

theorem slots?_eq_some_iff (w : Written) (names : List String) (slots : List Slot) :
    w.slots? names = some slots ↔
      w.IsRecord names.length ∧
        names.zipIdx.map (fun n => w.given n.2 n.1) = slots.map Option.toList := by
  cases w with
  | object fields => exact slots?_object fields names slots
  | array items => exact slots?_array items names slots
  | _ => simp [slots?, IsRecord]

section Slots

variable {α : Type} {read : Written → Option α}

theorem Slot.required_eq_some_iff (slot : Slot) (x : α) :
    slot.required read = some x ↔ ∃ v, slot.toList = [v] ∧ read v = some x := by
  cases slot <;> simp [required]

theorem Slot.default_eq_some_iff (slot : Slot) (value x : α) :
    slot.default value read = some x ↔
      (slot.toList = [] ∧ x = value) ∨ ∃ v, slot.toList = [v] ∧ read v = some x := by
  cases slot <;> simp [default, eq_comm]

/-- Null stands for nothing, so it must not be readable as something too. -/
theorem Slot.optional_eq_some_iff (hnull : read .null = none) (slot : Slot) (x : Option α) :
    slot.optional read = some x ↔
      (slot.toList ∈ [[], [.null]] ∧ x = none) ∨
        ∃ v y, slot.toList = [v] ∧ x = some y ∧ read v = some y := by
  rcases slot with _ | v
  · simp [optional, eq_comm]
  · cases v with
    | null => simp [optional, hnull, eq_comm]
    | _ => simp [optional, Option.map_eq_some_iff, @eq_comm _ x, and_comm]

theorem exists_slot_of_mem {given : List Written} (h : given ∈ [[], [.null]]) :
    ∃ slot : Slot, given = slot.toList := by
  simp only [List.mem_cons, List.not_mem_nil, or_false] at h
  rcases h with rfl | rfl
  · exact ⟨none, rfl⟩
  · exact ⟨some .null, rfl⟩

end Slots

theorem string?_eq_some_iff (w : Written) (s : String) :
    w.string? = some s ↔ w = .string (some s) := by
  cases w <;> simp [string?]

/-- `unit` holds of null only. -/
theorem word?_eq_some_iff {α : Type} (ofWord : String → Option α) (w : Written) (x : α) :
    w.word? ofWord isUnit = some x ↔
      ∃ s, ofWord s = some x ∧ (w = .string (some s) ∨ w = .object [(some s, .null)]) := by
  cases w with
  | string s => cases s <;> simp [word?]
  | object fields =>
    rcases fields with _ | ⟨⟨name, v⟩, _ | ⟨f, fields⟩⟩
    · simp [word?]
    · cases name <;> cases v <;> simp [word?, isUnit]
    · simp [word?]
  | _ => simp [word?]

end EntitySelect.Written
