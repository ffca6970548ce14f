import Ugk.Native.NamespaceGovernance
import Ugk.Native.Outcome

/-!
# Verification of bridge surfaces

`ugk/storage/bridge_binding.py`: the verdict over a committed bridge surface, from the fields
themselves and from four read-only resolvers that the caller supplies.
-/

namespace Ugk

/-- `_safe` -/
def safe : Except Exc PyVal → Bool
  | .ok v => v.truthy
  | .error _ => false

end Ugk
