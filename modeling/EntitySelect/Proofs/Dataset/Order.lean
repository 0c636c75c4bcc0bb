import EntitySelect.Dataset.Order
import Mathlib.Data.List.Forall2

/-! The order of values and of rows as a relation. Any two values compare, and turned around they
compare the other way round. Transitivity can fail where large whole numbers meet doubles, so it is
asked for where it is needed; among all other values it holds. -/
namespace EntitySelect

theorem Number.order_swap (a b : Number) : (a.order b).swap = b.order a := by
  have hkey : (compare a.key b.key).swap = compare b.key a.key := Std.OrientedCmp.eq_swap.symm
  cases a with
  | double d => cases b <;> exact hkey
  | whole v =>
    cases b with
    | double d => exact hkey
    | whole w =>
      simp only [order, and_comm]
      split
      · exact Std.OrientedCmp.eq_swap.symm
      · exact hkey

namespace Json

theorem order_swap (a b : Json) : (a.order b).swap = b.order a := by
  cases a <;> cases b <;> try rfl
  · next a b =>
    have hswap : compare b.toNat a.toNat = (compare a.toNat b.toNat).swap :=
      Std.OrientedCmp.eq_swap
    exact hswap.symm
  · exact Number.order_swap ..
  · next a b =>
    have hswap : compare b a = (compare a b).swap := Std.OrientedCmp.eq_swap
    exact hswap.symm

theorem order_self (a : Json) : a.order a = .eq := by
  have h := order_swap a a
  cases hself : a.order a with
  | eq => rfl
  | lt =>
    rw [hself] at h
    cases h
  | gt =>
    rw [hself] at h
    cases h

theorem isLE_of_not_gt {a b : Json} (h : a.order b ≠ .gt) : (a.order b).isLE := by
  cases hab : a.order b with
  | gt => exact absurd hab h
  | _ => rfl

theorem isLE_of_gt {a b : Json} (h : a.order b = .gt) : (b.order a).isLE := by
  rw [← order_swap a b, h]
  rfl

/-- Values that are not greater than each other compare as equal. -/
theorem order_eq_of_isLE {a b : Json} (hab : (a.order b).isLE) (hba : (b.order a).isLE) :
    a.order b = .eq := by
  rw [← order_swap a b] at hba
  cases hord : a.order b with
  | eq => rfl
  | lt =>
    rw [hord] at hba
    cases hba
  | gt =>
    rw [hord] at hab
    cases hab

/-- Values that compare consistently: what is at most a value is at most all that is above it. -/
def Consistent (p : Json → Prop) : Prop :=
  ∀ a b c, p a → p b → p c → (a.order b).isLE → (b.order c).isLE → (a.order c).isLE

end Json

theorem Direction.turn_swap (d : Direction) (a b : Json) :
    (d.turn (a.order b)).swap = d.turn (b.order a) := by
  cases d with
  | asc => exact Json.order_swap a b
  | desc => exact congrArg Ordering.swap (Json.order_swap a b)

/-- Consistent values compare consistently in both directions. -/
theorem Json.Consistent.transCmp_turn {p : Json → Prop} (h : Json.Consistent p) (d : Direction) :
    Std.TransCmp fun a b : {v : Json // p v} => d.turn (a.1.order b.1) where
  eq_swap {a b} := (d.turn_swap b.1 a.1).symm
  isLE_trans {a b c} hab hbc := by
    cases d with
    | asc => exact h a.1 b.1 c.1 a.2 b.2 c.2 hab hbc
    | desc =>
      simp only [Direction.turn, Json.order_swap] at hab hbc ⊢
      exact h c.1 b.1 a.1 c.2 b.2 a.2 hbc hab

theorem orderKeys_swap (ds : List Direction) (as bs : List Json) :
    (orderKeys ds as bs).swap = orderKeys ds bs as := by
  induction ds generalizing as bs with
  | nil => rfl
  | cons d ds ih => rw [orderKeys, orderKeys, Ordering.swap_then, ih, d.turn_swap]

section Keys
variable {ι : Type} {dir : ι → Direction} {p : ι → Json → Prop} {is : List ι}

/-- A value for each ordering, of those that it orders. -/
abbrev Keys (p : ι → Json → Prop) (is : List ι) : Type :=
  {keys : List Json // List.Forall₂ p is keys}

/-- Comparing key by key is consistent where comparing the values of each key is. -/
theorem transCmp_orderKeys (h : ∀ i ∈ is, Json.Consistent (p i)) :
    Std.TransCmp fun a b : Keys p is => orderKeys (is.map dir) a.1 b.1 := by
  induction is with
  | nil => exact { eq_swap := rfl, isLE_trans := fun _ _ => rfl }
  | cons i is ih =>
    have hrest := ih fun i' hi' => h i' (List.mem_cons_of_mem i hi')
    have hfirst := (h i List.mem_cons_self).transCmp_turn (dir i)
    refine { eq_swap := (orderKeys_swap ..).symm, isLE_trans := ?_ }
    rintro ⟨_, _ | ⟨ha, has⟩⟩ ⟨_, _ | ⟨hb, hbs⟩⟩ ⟨_, _ | ⟨hc, hcs⟩⟩ hab hbc
    obtain ⟨hab, hab'⟩ := Ordering.isLE_then_iff_and.1 hab
    obtain ⟨hbc, hbc'⟩ := Ordering.isLE_then_iff_and.1 hbc
    have hheads := hfirst.isLE_trans (a := ⟨_, ha⟩) (b := ⟨_, hb⟩) (c := ⟨_, hc⟩) hab hbc
    refine Ordering.isLE_then_iff_and.2 ⟨hheads, ?_⟩
    rcases hab' with hlt | hab'
    · exact .inl (hfirst.lt_of_lt_of_isLE (a := ⟨_, ha⟩) (b := ⟨_, hb⟩) (c := ⟨_, hc⟩) hlt hbc)
    · rcases hbc' with hlt | hbc'
      · exact .inl (hfirst.lt_of_isLE_of_lt (a := ⟨_, ha⟩) (b := ⟨_, hb⟩) (c := ⟨_, hc⟩) hab hlt)
      · exact .inr (hrest.isLE_trans (a := ⟨_, has⟩) (b := ⟨_, hbs⟩) (c := ⟨_, hcs⟩) hab' hbc')

/-- Keys that compare as equal one by one cannot be told apart. -/
theorem orderKeys_eq_of_forall₂ {as bs : List Json}
    (h : List.Forall₂ (fun a b => a.order b = .eq) as bs) (ds : List Direction) :
    orderKeys ds as bs = .eq := by
  induction ds generalizing as bs with
  | nil => rfl
  | cons d ds ih =>
    have hturn {o : Ordering} (ho : o = .eq) : d.turn o = .eq := by
      cases d <;> rw [ho] <;> rfl
    rw [orderKeys, Ordering.then_eq_eq]
    cases h with
    | nil => exact ⟨hturn rfl, ih .nil⟩
    | cons hhead htail => exact ⟨hturn hhead, ih htail⟩

theorem orderKeys_congr (h : ∀ i ∈ is, Json.Consistent (p i)) {as as' bs bs' : List Json}
    (ha : List.Forall₂ p is as) (ha' : List.Forall₂ p is as') (hb : List.Forall₂ p is bs)
    (hb' : List.Forall₂ p is bs') (haa : List.Forall₂ (fun v w => v.order w = .eq) as as')
    (hbb : List.Forall₂ (fun v w => v.order w = .eq) bs bs') :
    orderKeys (is.map dir) as bs = orderKeys (is.map dir) as' bs' := by
  have hcmp : Std.TransCmp fun a b : Keys p is => orderKeys (is.map dir) a.1 b.1 :=
    transCmp_orderKeys h
  have hleft := hcmp.congr_left (a := ⟨as, ha⟩) (b := ⟨as', ha'⟩) (c := ⟨bs, hb⟩)
    (orderKeys_eq_of_forall₂ haa _)
  have hright := hcmp.congr_right (a := ⟨as', ha'⟩) (b := ⟨bs, hb⟩) (c := ⟨bs', hb'⟩)
    (orderKeys_eq_of_forall₂ hbb _)
  exact hleft.trans hright

end Keys

namespace Json

/-- A value that is no number, or a whole number that compares exactly with other such numbers. -/
def isExact : Json → Bool
  | .number (.whole w) => w.value < 0x8000000000000000
  | .number (.double _) => false
  | _ => true

/-- What two truth values or two exact numbers compare by. -/
def magnitude : Json → Int
  | .bool b => b.toNat
  | .number (.whole w) => w.value
  | _ => 0

/-- What two strings compare by. -/
def content : Json → String
  | .string s => s
  | _ => ""

theorem order_of_kind_ne {a b : Json} (h : a.kind ≠ b.kind) :
    a.order b = compare a.kind b.kind := by
  cases a <;> cases b <;> first | rfl | exact absurd rfl h

/-- Exact values compare by their kinds first, and then by what they hold. -/
theorem order_of_isExact {a b : Json} (ha : a.isExact = true) (hb : b.isExact = true) :
    a.order b = compareLex (compareOn kind) (compareLex (compareOn magnitude) (compareOn content))
      a b := by
  by_cases hkind : a.kind = b.kind
  · have hfirst : compareOn kind a b = .eq := Nat.compare_eq_eq.2 hkind
    rw [compareLex, hfirst, Ordering.eq_then, compareLex]
    cases a with
    | null | array _ | object _ => cases b <;> first | rfl | cases hkind
    | bool a =>
      cases b with
      | bool b => cases a <;> cases b <;> rfl
      | _ => cases hkind
    | number a =>
      cases b with
      | number b =>
        cases a with
        | double _ => cases ha
        | whole v =>
          cases b with
          | double _ => cases hb
          | whole w =>
            have hbounds := And.intro (of_decide_eq_true ha) (of_decide_eq_true hb)
            have hcontent : compareOn content (.number (.whole v)) (.number (.whole w)) = .eq :=
              Std.ReflCmp.compare_self
            rw [hcontent, Ordering.then_eq]
            exact if_pos hbounds
      | _ => cases hkind
    | string a =>
      cases b with
      | string b => rfl
      | _ => cases hkind
  · have hne : compareOn kind a b ≠ .eq := fun heq => hkind (Nat.compare_eq_eq.1 heq)
    rw [order_of_kind_ne hkind, compareLex]
    change compareOn kind a b = _
    cases hfirst : compareOn kind a b with
    | eq => exact absurd hfirst hne
    | _ => rfl

/-- Exact values compare consistently. -/
theorem consistent_of_isExact {p : Json → Prop} (h : ∀ v, p v → v.isExact = true) :
    Consistent p := by
  intro a b c ha hb hc hab hbc
  rw [order_of_isExact (h a ha) (h b hb)] at hab
  rw [order_of_isExact (h b hb) (h c hc)] at hbc
  rw [order_of_isExact (h a ha) (h c hc)]
  exact Std.TransCmp.isLE_trans hab hbc

end Json
end EntitySelect
