/-
# Lines, columns and snippets

What stands before a place in a text says its line and column:

| part | is one more than the number of |
| --- | --- |
| line | line ends before the place |
| column | characters after the last of them |

One character more makes the line greater, or keeps it and makes the column greater, so places
come in the order of their lines and columns, and no two of them share both.

All that is known of the lines of a text is said by `getElem?_linesFrom`.  Cut the text into
`front`, `line` and `back`, at two line ends that follow each other: then the line is found after
as many others as `front` has line ends, and starts after the bytes of `front`.  Which line holds an
offset is found by halving; that bytes grow with line ends along the beginnings of the text
(`utf8Len_lt_of_count_lt`) is all the order that it needs.
-/

import DependencyUse.Import.Site
import DependencyUse.Location
import DependencyUse.Proofs.Order
import Mathlib.Data.List.DropRight
import Mathlib.Data.Prod.Lex
import Mathlib.Data.String.Basic

namespace DependencyUse
namespace LineIndex

variable {text : String}

end LineIndex
end DependencyUse
