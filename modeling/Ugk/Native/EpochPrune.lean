import Ugk.Native.NamespaceGovernance
import Ugk.Native.Store

/-!
# Sealing and pruning an epoch

`ReceiptStore.verify_from_seal` and `seal_and_prune_epoch` of `ugk/storage/store.py`: two receipts
are appended, the rows up to the boundary deleted, and the block commits only if the tip stands and
the retained rows chain from the seal.
-/

namespace Ugk

/-- `verify_from_seal`; the loop of `_verify_segment` is the one of `verify_stream_hash`. -/
def verifyFromSeal (env : Env) (rows : List Row) (sealHash : String) : Except Exc Bool :=
  (allReceipts env rows).map (linked sealHash)

/-- Where an epoch is cut. -/
structure EpochCut where
  boundaryId : Nat
  sealedReceipts : List Receipt
  frontier : List Receipt

/-- The checks before any mutation. -/
def epochCut (env : Env) (rows : List Row) (sealHash intent : String) : Except Exc EpochCut :=
  if strip env intent = "" then
    .error (.valueError "epoch seal/prune requires explicit intent (storage-frame governance)")
  else
    match allReceipts env rows with
    | .error e => .error e
    | .ok receipts =>
      match receipts.find? fun r => r.hR == sealHash with
      | none =>
        .error (.valueError "epoch seal/prune refused before mutation: seal_hash not found in chain")
      | some boundary =>
        let frontier := receipts.filter fun r => boundary.receiptId < r.receiptId
        if linked sealHash frontier then
          .ok { boundaryId := boundary.receiptId
                sealedReceipts := receipts.filter fun r => r.receiptId ≤ boundary.receiptId
                frontier := frontier }
        else
          .error (.valueError
            "epoch seal/prune refused before mutation: frontier does not chain from seal_hash")

namespace Store

/-- The first provenance receipt. -/
def epochSealedArgs (cut : EpochCut) (sealHash intent description : String) : WriteArgs :=
  { op := "epoch_sealed"
    authority := "storage-frame"
    parameters := .dict [
      (.str "intent", .str intent), (.str "description", .str description),
      (.str "seal_hash", .str sealHash), (.str "sealed_through_receipt_id", .int cut.boundaryId),
      (.str "sealed_count", .int cut.sealedReceipts.length)]
    intent := some intent }

/-- The second provenance receipt. -/
def epochPrunedArgs (cut : EpochCut) (sealHash intent : String) : WriteArgs :=
  { op := "epoch_pruned"
    authority := "storage-frame"
    parameters := .dict [
      (.str "intent", .str intent), (.str "seal_hash", .str sealHash),
      (.str "pruned_through_receipt_id", .int cut.boundaryId),
      (.str "pruned_count", .int cut.sealedReceipts.length)]
    intent := some intent }

/-- `DELETE FROM receipts WHERE receipt_id <= ?` -/
def deleteThrough (boundaryId : Nat) : Proc StoreState Exc Unit :=
  changeTables fun t => { t with rows := t.rows.filter fun row => boundaryId < row.receiptId }

/-- The body of the transaction: the tips before and after the deletion. -/
def pruneBody (cfg : Config) (clock : Clock) (cut : EpochCut) (sealHash intent description : String) :
    Proc StoreState Exc (String × String) := do
  let _ ← write cfg clock (epochSealedArgs cut sealHash intent description)
  let _ ← write cfg clock (epochPrunedArgs cut sealHash intent)
  let before ← Proc.get
  deleteThrough cut.boundaryId
  let after ← Proc.get
  if streamHash (rows after) ≠ streamHash (rows before) then
    Proc.raise (.runtimeError "epoch prune integrity error: chain tip moved during prune")
  else
    let chained ← Proc.lift (verifyFromSeal cfg.toEnv (rows after) sealHash)
    if chained then pure (streamHash (rows before), streamHash (rows after))
    else Proc.raise (.runtimeError
      "epoch prune integrity error: retained chain does not verify from seal")

/-- What `seal_and_prune_epoch` reports. -/
structure PruneReport where
  sealHash : String
  boundaryReceiptId : Nat
  prunedCount : Nat
  retainedCount : Nat
  tipBeforePrune : String
  tipAfterPrune : String

/-- `seal_and_prune_epoch` -/
def sealAndPruneEpoch (cfg : Config) (clock : Clock) (sealHash intent : String)
    (description : String := "") : Proc StoreState Exc PruneReport := do
  let s ← Proc.get
  let cut ← Proc.lift (epochCut cfg.toEnv (rows s) sealHash intent)
  let tips ← block (pruneBody cfg clock cut sealHash intent description)
  pure { sealHash := sealHash
         boundaryReceiptId := cut.boundaryId
         prunedCount := cut.sealedReceipts.length
         retainedCount := cut.frontier.length + 2
         tipBeforePrune := tips.1
         tipAfterPrune := tips.2 }

end Store

end Ugk
