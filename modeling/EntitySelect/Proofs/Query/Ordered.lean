import EntitySelect.Proofs.Query.Calls
import EntitySelect.Proofs.Query.Windowed

/-! A query with a window or a pager shows a part of a list in order: the rows of the base table
that something is found for, each at the place that the values found for it give it. -/
namespace EntitySelect

namespace Query
variable (q : Query) (t : EntityType) (base : String) (catalog : Catalog) (d : Dataset)

variable {q t base catalog d}

end Query

end EntitySelect
