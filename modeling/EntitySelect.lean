import EntitySelect.Main
import EntitySelect.Proofs.Join.Requests
import EntitySelect.Proofs.Join.Joined
import EntitySelect.Proofs.Condition.Compiling
import EntitySelect.Proofs.Condition.Operators
import EntitySelect.Proofs.Condition.Truth
import EntitySelect.Proofs.Dataset.Joins
import EntitySelect.Proofs.Query.Compiling
import EntitySelect.Proofs.Dataset.Blocks
import EntitySelect.Proofs.Query.JoinKinds
import EntitySelect.Proofs.Query.Meaning
import EntitySelect.Proofs.Query.Matching
import EntitySelect.Proofs.Query.Answers
import EntitySelect.Proofs.Query.Executing
import EntitySelect.Proofs.Query.Unsorted
import EntitySelect.Proofs.Query.Paging
import EntitySelect.Proofs.Query.Pages
import EntitySelect.Proofs.Json.Record
import EntitySelect.Proofs.Condition.Reading
import EntitySelect.Proofs.Query.Reading
import EntitySelect.Proofs.Condition.Permuted
import EntitySelect.Proofs.Dataset.Extremes
import EntitySelect.Proofs.Dataset.Groups
import EntitySelect.Proofs.Dataset.Order
import EntitySelect.Proofs.Dataset.Picks
import EntitySelect.Proofs.Dataset.Rearranged
import EntitySelect.Proofs.Dataset.Sorting
import EntitySelect.Proofs.Join.Resolving
import EntitySelect.Proofs.Query.Choices
import EntitySelect.Proofs.Query.Commuting
import EntitySelect.Proofs.Query.Compilable
import EntitySelect.Proofs.Query.Counting
import EntitySelect.Proofs.Query.KeyedRows
import EntitySelect.Proofs.Query.Listing
import EntitySelect.Proofs.Query.Orders
import EntitySelect.Proofs.Query.Permuted
import EntitySelect.Proofs.Query.SortKeys
import EntitySelect.Proofs.Query.SortedKeys
import EntitySelect.Proofs.Query.Windowed
import EntitySelect.Proofs.Repeats
import EntitySelect.Proofs.Run
import EntitySelect.Proofs.Select.Label
import EntitySelect.Proofs.Select.Rendering
import EntitySelect.Proofs.Query.Calls
import EntitySelect.Proofs.Query.Ordered
import EntitySelect.Proofs.Query.Declared
import EntitySelect.Proofs.Select.Spelling
import EntitySelect.Proofs.Query.Identifiers
import EntitySelect.Proofs.Select.WellFormed
import EntitySelect.Proofs.Query.WellFormed
import EntitySelect.Proofs.Query.Hidden
import EntitySelect.Proofs.Text.Parameters
import EntitySelect.Proofs.Select.Binding
import EntitySelect.Proofs.Select.Phrases
import EntitySelect.Proofs.Select.WhereText
import EntitySelect.Proofs.Query.Undeclared
import EntitySelect.Proofs.Join.Asked
import EntitySelect.Proofs.Json.Canonical
import EntitySelect.Proofs.Condition.Reread
import EntitySelect.Proofs.Query.Reread
import EntitySelect.Proofs.Dataset.Transitivity
import EntitySelect.Proofs.Condition.Literal
import EntitySelect.Proofs.Text.Matching
import EntitySelect.Proofs.Dataset.Comparing
import EntitySelect.Proofs.Dataset.Blending
import EntitySelect.Proofs.Query.Linked
import EntitySelect.Proofs.Json.Printed
import EntitySelect.Proofs.Dataset.Partition
import EntitySelect.Proofs.Query.Collected
import EntitySelect.Proofs.Condition.Shape
import EntitySelect.Proofs.Query.OrderTargets
import EntitySelect.Proofs.Query.PageNumbers
import EntitySelect.Proofs.Dataset.Counting
import EntitySelect.Proofs.Catalog.Rearranged
import EntitySelect.Proofs.Select.Building
import EntitySelect.Proofs.Dataset.Lexicographic
