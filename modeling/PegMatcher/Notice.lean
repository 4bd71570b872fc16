/-!
# Notices

Remarks that an operation leaves for its user beside its answer.
-/

namespace PegMatcher

set_option autoImplicit false

inductive Notice where
  | depthClamped (requested limit allowed : Int)
  | ruleDefined (label : String)
  | parseFailed (pos : Int) (message : String)

def Notice.text : Notice → String
  | .depthClamped requested limit allowed =>
    "Requested rule depth " ++ toString requested ++ " exceeds what the Python recursion limit ("
      ++ toString limit ++ ") allows. Clamping to " ++ toString allowed
      ++ ". Consider increasing sys.setrecursionlimit() if needed."
  | .ruleDefined label => "Defined rule: " ++ label
  | .parseFailed pos message => "Parse failed at position " ++ toString pos ++ ": " ++ message

end PegMatcher
