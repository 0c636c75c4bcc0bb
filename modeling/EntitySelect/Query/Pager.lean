import EntitySelect.Select.Clause

/-! Pages of a result. A pager turns a page number into a window, and a total into a number of
pages. -/
namespace EntitySelect

/-- A page of at most `limit` rows; page zero is the first. No limit means no paging. -/
structure Pager where
  limit : UInt64
  /-- Tells pagers apart that are shown together. -/
  element : UInt32 := 0
  page : UInt64 := 0
  deriving DecidableEq, Repr

/-- A page, once it is known how many rows there are. -/
structure PageState where
  pager : Pager
  total : Nat
  totalPages : Nat
  deriving DecidableEq, Repr

namespace Pager

def isActive (p : Pager) : Bool := 0 < p.limit

/-- The product, or the largest number there is. -/
def saturatingMul (a b : UInt64) : UInt64 := UInt64.ofNat (min (a.toNat * b.toNat) (UInt64.size - 1))

@[simp] theorem toNat_saturatingMul (a b : UInt64) :
    (saturatingMul a b).toNat = min (a.toNat * b.toNat) (UInt64.size - 1) := by
  simp only [saturatingMul, UInt64.toNat_ofNat', UInt64.size]
  omega

/-- The window that shows the page. -/
def window? (p : Pager) : Option Window :=
  if p.isActive then some ⟨saturatingMul p.page p.limit, p.limit⟩ else none

/-- A last page may be shorter than the limit. -/
def state (p : Pager) (total : Nat) : PageState :=
  ⟨p, total, if p.isActive then (total + p.limit.toNat - 1) / p.limit.toNat else 0⟩

end Pager

/-- The page is not the first, and lies after the last. -/
def PageState.isBeyondLast (s : PageState) : Bool :=
  0 < s.pager.page && s.totalPages ≤ s.pager.page.toNat

example : (Pager.mk 10 0 3).window? = some ⟨30, 10⟩ := by decide
example : ((Pager.mk 10 0 3).state 25).totalPages = 3 := by decide

end EntitySelect
