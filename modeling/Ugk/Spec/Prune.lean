import Ugk.ForStd.Pending
import Ugk.Native.Continuation
import Ugk.Native.EpochPrune
import Ugk.Native.ExternalEffects
import Ugk.Spec.NamespaceFold
import Ugk.Spec.StoreRun
import Ugk.Spec.Written

/-!
# Pruning an epoch

The consumers of a store fold over its receipts.  After a prune they fold over the retained
receipts alone, so they answer as before exactly when the pruned prefix made no difference to them.
The chain itself is unharmed: the tip stands, the retained rows verify from the seal, and they go on
to after further writes.

## Key results

- `Neutral`, `Untouched`, `neutral_iff`: when every consumer answers as before
- `pruned_ok`: what a prune that returned did
- `epoch_prune`: a prune keeps the chain, is neutral exactly when the prefix is `Untouched`, and
  leaves nothing when it raises
-/

namespace Ugk

open Store

variable {env : Env} {names : NameText}

/-! ## Consumers -/

/-- A receipt that no consumer folds. -/
structure Unseen (env : Env) (r : Receipt) : Prop where
  params : ∃ d, r.parameters = .dict d
  op : r.op ∉ [opAllocate, opDelegate, opRevoke, opInvalidate, opSupersede, opAdjudicate]
  continuation : r.continuationId = .none
  effect : effectParam r .effectAtomicity = .none

theorem Unseen.inPhase {r : Receipt} (h : Unseen env r) (atomicity : String)
    (phases : List String) : inPhase atomicity phases r = false := by
  rw [Ugk.inPhase, h.effect]
  rfl

theorem Unseen.foldReceipt {r : Receipt} (h : Unseen env r) (i : Nat) (st : NamespaceState) :
    foldReceipt env names i r st = .ok st := foldReceipt_of_other h.op h.params i st

variable {pruned retained seals : List Receipt}

/-- A write without effect markers or continuation, of an operation no fold knows. -/
structure Provenance (env : Env) (a : WriteArgs) : Prop where
  params : ∃ d, a.parameters = .dict d ∧
    ∀ key ∈ d.map Prod.fst, ∃ s, key = .str s ∧ s ≠ Marker.effectAtomicity.key
  columns : a.effectColumns = none
  continuation : a.continuation = none
  op : expand env (storeField a.compress .op a.op) ∉
    [opAllocate, opDelegate, opRevoke, opInvalidate, opSupersede, opAdjudicate]

/-- The resolution of such a write. -/
theorem Provenance.resolve {a : WriteArgs} {r : Resolved} (h : Provenance env a)
    (hr : resolveWrite env a = .ok r) :
    r.effect = none ∧ ∃ d, r.parameters = .dict d ∧
      ∀ key ∈ d.map Prod.fst, ∃ s, key = .str s ∧ s ≠ Marker.effectAtomicity.key := by
  obtain ⟨d, hd, hkeys⟩ := h.params
  obtain ⟨p, hres, hparams, _⟩ := resolveWrite_ok hr
  have hnot : PyKey.str Marker.effectAtomicity.key ∉ d.map Prod.fst := by
    intro hmem
    obtain ⟨s, hs, hne⟩ := hkeys _ hmem
    exact hne (PyKey.str.inj hs).symm
  have hderive : deriveEffectColumns (.dict d) = .ok none := by
    simp only [deriveEffectColumns, PyDict.get_of_not_mem hnot, PyVal.isNone, if_true]
  rw [h.columns, hd] at hres
  simp only [resolveEffectSurface, hderive] at hres
  obtain ⟨heffect, rfl⟩ := Prod.mk.inj (Except.ok.inj hres)
  refine ⟨heffect.symm, ?_⟩
  rw [hparams, stripReconciliation]
  split
  · refine ⟨_, rfl, fun key hkey => hkeys key ?_⟩
    exact (List.filter_sublist.trans List.filter_sublist |>.map Prod.fst).subset hkey
  · exact ⟨d, rfl, hkeys⟩

/-- Its stored row is a receipt nobody looks at. -/
theorem unseen_of_planned {cfg : Config} {built : List String} {tip : Tip} {time : FloatLit}
    {a : WriteArgs} {r : Resolved} {receipt : Receipt} {row : Row} (id : Nat)
    (ha : Provenance cfg.toEnv a) (hr : resolveWrite cfg.toEnv a = .ok r)
    (hplan : planWrite cfg built tip time a r = .ok (receipt, row)) :
    ∃ read, rowToReceipt cfg.toEnv { row with receiptId := id } = .ok read ∧
      Unseen cfg.toEnv read := by
  obtain ⟨p, _, _, hpj, _, _⟩ := resolveWrite_ok hr
  obtain ⟨heffect, d, hd, hkeys⟩ := ha.resolve hr
  rw [hd] at hpj
  obtain ⟨q, hq⟩ := loads_paramsJson_dict hpj
  obtain ⟨c, s, hBody, trace, _, hs, _, _, rfl, hrow⟩ := planWrite_ok hplan
  refine ⟨_, rowToReceipt_stored id hrow (stamped_finish ..) hq, ⟨q, rfl⟩, ha.op, ?_, ?_⟩
  · -- a write without a continuation leaves its columns empty
    obtain ⟨outcome, _, hs⟩ := Except.bind_eq_ok hs
    obtain ⟨capability, _, hs⟩ := Except.bind_eq_ok hs
    obtain ⟨continuation, hcont, hs⟩ := Except.bind_eq_ok hs
    obtain ⟨bridge, _, hs⟩ := Except.bind_eq_ok hs
    obtain rfl := Except.ok.inj hs
    rw [continuationSurface, ha.continuation] at hcont
    obtain rfl := Except.ok.inj hcont
    rfl
  · have hcolumn : (Receipt.stored cfg.toEnv a.compress id (.dict q)
        (finish (draft tip time a c r s) hBody trace)).markerColumn .effectAtomicity = .none := by
      show PyVal.ofOpt (columnText cfg.toEnv (r.effectValue .effectAtomicity)) = .none
      rw [Resolved.effectValue, heffect]
      rfl
    rw [effectParam, hcolumn]
    show PyDict.get q Marker.effectAtomicity.key = .none
    refine PyDict.get_of_not_mem fun hmem => ?_
    obtain ⟨key, hkey, htext⟩ := key_of_loads hpj hq hmem
    obtain ⟨name, rfl, hne⟩ := hkeys key hkey
    exact hne (Except.ok.inj htext)

theorem provenance_epochSealed (cut : EpochCut) (sealHash intent description : String) :
    Provenance env (epochSealedArgs cut sealHash intent description) where
  params := ⟨_, rfl, by simp [Marker.key]⟩
  columns := rfl
  continuation := rfl
  op := by
    have hop : expand env (storeField false .op "epoch_sealed") = "epoch_sealed" := rfl
    show expand env (storeField false .op "epoch_sealed") ∉ _
    rw [hop]
    decide

theorem provenance_epochPruned (cut : EpochCut) (sealHash intent : String) :
    Provenance env (epochPrunedArgs cut sealHash intent) where
  params := ⟨_, rfl, by simp [Marker.key]⟩
  columns := rfl
  continuation := rfl
  op := by
    have hop : expand env (storeField false .op "epoch_pruned") = "epoch_pruned" := rfl
    show expand env (storeField false .op "epoch_pruned") ∉ _
    rw [hop]
    decide

/-! ## Tables with row ids -/

/-- An increasing list, cut at a bound. -/
theorem filter_le_append_filter_lt {α : Type} {f : α → Nat} {xs : List α}
    (h : xs.Pairwise fun a b => f a < f b) (b : Nat) :
    (xs.filter fun a => f a ≤ b) ++ (xs.filter fun a => b < f a) = xs := by
  induction xs with
  | nil => rfl
  | cons a xs ih =>
    obtain ⟨hhead, htail⟩ := List.pairwise_cons.mp h
    by_cases ha : f a ≤ b
    · rw [List.filter_cons_of_pos (by simpa using ha),
        List.filter_cons_of_neg (by simpa using ha), List.cons_append, ih htail]
    · -- everything after it is beyond the bound too
      have hbeyond : ∀ x ∈ xs, b < f x := by
        intro x hx
        have := hhead x hx
        omega
      have hnone : (xs.filter fun a => f a ≤ b) = [] := by
        rw [List.filter_eq_nil_iff]
        intro x hx
        have := hbeyond x hx
        simpa using this
      have hall : (xs.filter fun a => b < f a) = xs := by
        rw [List.filter_eq_self]
        intro x hx
        simpa using hbeyond x hx
      rw [List.filter_cons_of_neg (by simpa using ha),
        List.filter_cons_of_pos (by simpa using ha), hnone, hall, List.nil_append]

theorem receiptId_of_rowToReceipt {row : Row} {r : Receipt} (h : rowToReceipt env row = .ok r) :
    r.receiptId = row.receiptId := by
  obtain ⟨_, _, rfl⟩ := Except.map_eq_ok h
  rfl

/-- The receipts of the rows whose ids pass a test. -/
theorem allReceipts_filter {rows : List Row} {receipts : List Receipt}
    (h : allReceipts env rows = .ok receipts) (p : Nat → Bool) :
    allReceipts env (rows.filter fun row => p row.receiptId) =
      .ok (receipts.filter fun r => p r.receiptId) := by
  exact mapM_filter h fun row r hr => by rw [receiptId_of_rowToReceipt hr]

theorem ids_of_allReceipts {rows : List Row} {receipts : List Receipt}
    (h : allReceipts env rows = .ok receipts) :
    receipts.map Receipt.receiptId = rows.map Row.receiptId :=
  map_of_mapM h fun _ _ hr => receiptId_of_rowToReceipt hr

/-- A cut splits the receipts at a row of the table. -/
theorem epochCut_ok {t : Tables} {sealHash intent : String} {cut : EpochCut} (hnum : Numbered t)
    (h : epochCut env t.rows sealHash intent = .ok cut) :
    allReceipts env t.rows = .ok (cut.sealedReceipts ++ cut.frontier) ∧
      cut.boundaryId ≤ t.seq ∧ linked sealHash cut.frontier = true ∧
      allReceipts env (t.rows.filter fun row => cut.boundaryId < row.receiptId) =
        .ok cut.frontier := by
  rw [epochCut] at h
  split at h
  · exact nomatch h
  · split at h
    · exact nomatch h
    · rename_i receipts hread
      split at h
      · exact nomatch h
      · rename_i boundary hfind
        dsimp only at h
        split at h
        · rename_i hlinked
          obtain rfl := Except.ok.inj h
          have hids := ids_of_allReceipts hread
          have hmem : boundary.receiptId ∈ t.rows.map Row.receiptId :=
            hids ▸ List.mem_map_of_mem (List.mem_of_find?_eq_some hfind)
          obtain ⟨row, hrow, hid⟩ := List.mem_map.mp hmem
          have hincreasing : receipts.Pairwise fun a b => a.receiptId < b.receiptId := by
            rw [← List.pairwise_map, hids, List.pairwise_map]
            exact hnum.increasing
          refine ⟨?_, hid ▸ hnum.bounded row hrow, hlinked,
            allReceipts_filter hread fun id => decide (boundary.receiptId < id)⟩
          rw [filter_le_append_filter_lt hincreasing]
          exact hread
        · exact nomatch h

/-! ## The body of the transaction -/

variable {cfg : Config} {clock : Clock} {cut : EpochCut} {sealHash intent description : String}

/-- A provenance receipt has been written: its row is the next one, and it is the tip. -/
structure Sealed (cfg : Config) (a : WriteArgs) (s s' : StoreState) : Prop where
  appended : ∃ row read, rows s' = rows s ++ [row] ∧ row.receiptId = s.conn.current.seq + 1 ∧
    rowToReceipt cfg.toEnv row = .ok read ∧ Unseen cfg.toEnv read ∧
    row.parentHR = s.tip.priorHR ∧ row.hR = s'.tip.priorHR ∧ row.hR ≠ ""
  seq : s'.conn.current.seq = s.conn.current.seq + 1

theorem sealed_of_write {a : WriteArgs} {s s' : StoreState} {receipt : Receipt}
    (ha : Provenance cfg.toEnv a) (h : Store.write cfg clock a s = (.ok receipt, s')) :
    Sealed cfg a s s' := by
  obtain ⟨r, planned', row, hr, hplan, _, hstate⟩ := write_ok (congrArg Prod.fst h)
  rw [h] at hstate
  dsimp only at hstate
  obtain ⟨read, hread, hunseen⟩ := unseen_of_planned (s.conn.current.seq + 1) ha hr hplan
  obtain ⟨_, hroot, hparent, hne⟩ := linkage_of_planned (s.conn.current.seq + 1) hr hplan
  rw [hstate]
  refine ⟨⟨_, read, rows_appended planned' row (sampled cfg a s), rfl, hread, hunseen, hparent, ?_,
    hne⟩, seq_appended planned' row (sampled cfg a s)⟩
  exact hroot

/-- The tables without the rows up to a bound. -/
def prunedTables (boundaryId : Nat) (t : Tables) : Tables :=
  { t with rows := t.rows.filter fun row => boundaryId < row.receiptId }

theorem deleteThrough_apply (boundaryId : Nat) (s : StoreState) :
    deleteThrough boundaryId s =
      if Faulty s then (.error locked, passFault (began s))
      else (.ok (), { passFault s with conn := s.conn.change (prunedTables boundaryId) }) :=
  changeTables_apply _ s

/-- What the body does after its two writes. -/
theorem pruneBody_after {s s₁ s₂ : StoreState} {r₁ r₂ : Receipt}
    (h₁ : Store.write cfg clock (epochSealedArgs cut sealHash intent description) s = (.ok r₁, s₁))
    (h₂ : Store.write cfg clock (epochPrunedArgs cut sealHash intent) s₁ = (.ok r₂, s₂)) :
    (Faulty s₂ ∧ pruneBody cfg clock cut sealHash intent description s =
      (.error locked, passFault (began s₂))) ∨
    (∃ result, pruneBody cfg clock cut sealHash intent description s =
      (result, { passFault s₂ with conn := s₂.conn.change (prunedTables cut.boundaryId) }) ∧
      ∀ tips, result = .ok tips ↔
        (streamHash (prunedTables cut.boundaryId s₂.conn.current).rows = streamHash (rows s₂) ∧
        verifyFromSeal cfg.toEnv (prunedTables cut.boundaryId s₂.conn.current).rows sealHash =
          .ok true) ∧ tips = (streamHash (rows s₂), streamHash (rows s₂))) := by
  have hdelete := deleteThrough_apply cut.boundaryId s₂
  by_cases hf : Faulty s₂
  · refine .inl ⟨hf, ?_⟩
    rw [if_pos hf] at hdelete
    rw [pruneBody, Proc.bind_of_ok h₁, Proc.bind_of_ok h₂, Proc.bind_of_ok (Proc.get_apply _),
      Proc.bind_of_error hdelete]
  · right
    rw [if_neg hf] at hdelete
    have hrows : rows { passFault s₂ with conn := s₂.conn.change (prunedTables cut.boundaryId) } =
        (prunedTables cut.boundaryId s₂.conn.current).rows := rfl
    rw [pruneBody, Proc.bind_of_ok h₁, Proc.bind_of_ok h₂, Proc.bind_of_ok (Proc.get_apply _),
      Proc.bind_of_ok hdelete, Proc.bind_of_ok (Proc.get_apply _), hrows]
    by_cases htip : streamHash (prunedTables cut.boundaryId s₂.conn.current).rows =
        streamHash (rows s₂)
    · rw [if_neg (not_not.mpr htip), htip]
      cases hv : verifyFromSeal cfg.toEnv (prunedTables cut.boundaryId s₂.conn.current).rows
        sealHash with
      | error e =>
        refine ⟨_, rfl, fun tips => ⟨fun h => ?_, fun h => (nomatch h.1.2)⟩⟩
        exact nomatch h
      | ok chained =>
        cases chained with
        | true =>
          refine ⟨_, rfl, fun tips => ⟨fun h => ?_, fun h => ?_⟩⟩
          · exact ⟨⟨rfl, rfl⟩, (Except.ok.inj h).symm⟩
          · exact congrArg Except.ok h.2.symm
        | false =>
          refine ⟨_, rfl, fun tips => ⟨fun h => ?_, fun h => ?_⟩⟩
          · exact nomatch h
          · exact nomatch h.1.2
    · rw [if_pos htip]
      refine ⟨_, rfl, fun tips => ⟨fun h => ?_, fun h => absurd h.1.1 htip⟩⟩
      exact nomatch h

theorem rows_of_sealed {a a' : WriteArgs} {s s₁ s₂ : StoreState} (h₁ : Sealed cfg a s s₁)
    (h₂ : Sealed cfg a' s₁ s₂) :
    ∃ row₁ row₂ read₁ read₂, rows s₂ = rows s ++ [row₁, row₂] ∧
      row₁.receiptId = s.conn.current.seq + 1 ∧ row₂.receiptId = s.conn.current.seq + 2 ∧
      rowToReceipt cfg.toEnv row₁ = .ok read₁ ∧ rowToReceipt cfg.toEnv row₂ = .ok read₂ ∧
      Unseen cfg.toEnv read₁ ∧ Unseen cfg.toEnv read₂ ∧
      row₁.parentHR = s.tip.priorHR ∧ row₂.parentHR = row₁.hR ∧ row₂.hR = s₂.tip.priorHR ∧
      row₁.hR ≠ "" ∧ row₂.hR ≠ "" := by
  obtain ⟨row₁, read₁, hrows₁, hid₁, hread₁, hunseen₁, hparent₁, hroot₁, hne₁⟩ := h₁.appended
  obtain ⟨row₂, read₂, hrows₂, hid₂, hread₂, hunseen₂, hparent₂, hroot₂, hne₂⟩ := h₂.appended
  refine ⟨row₁, row₂, read₁, read₂, ?_, hid₁, ?_, hread₁, hread₂, hunseen₁, hunseen₂, hparent₁,
    hparent₂.trans hroot₁.symm, hroot₂, hne₁, hne₂⟩
  · rw [hrows₂, hrows₁, List.append_assoc]
    rfl
  · rw [hid₂, h₁.seq]

/-- The deletion keeps the two new rows. -/
theorem rows_pruned {s s₂ : StoreState} {row₁ row₂ : Row} (hbound : cut.boundaryId ≤ s.conn.current.seq)
    (hrows : rows s₂ = rows s ++ [row₁, row₂]) (hid₁ : row₁.receiptId = s.conn.current.seq + 1)
    (hid₂ : row₂.receiptId = s.conn.current.seq + 2) :
    (prunedTables cut.boundaryId s₂.conn.current).rows =
      (rows s).filter (fun row => cut.boundaryId < row.receiptId) ++ [row₁, row₂] := by
  show (rows s₂).filter (fun row => decide (cut.boundaryId < row.receiptId)) = _
  rw [hrows, List.filter_append]
  have hnew : [row₁, row₂].filter (fun row => decide (cut.boundaryId < row.receiptId)) =
      [row₁, row₂] := by
    rw [List.filter_eq_self]
    intro row hrow
    simp only [List.mem_cons, List.not_mem_nil, or_false] at hrow
    rcases hrow with rfl | rfl
    · exact decide_eq_true (by omega)
    · exact decide_eq_true (by omega)
  rw [hnew]

/-- What a body that opens no block of its own leaves to the end of its block. -/
structure Framed (s s' : StoreState) : Prop where
  durable : s'.conn.durable = s.conn.durable
  begun : s'.conn.begun = s.conn.begun
  savepoints : s'.conn.savepoints = s.conn.savepoints
  depth : s'.txnDepth = s.txnDepth
  counter : s'.spCounter = s.spCounter

theorem Framed.trans {a b c : StoreState} (hab : Framed a b) (hbc : Framed b c) : Framed a c :=
  ⟨hbc.durable.trans hab.durable, hbc.begun.trans hab.begun, hbc.savepoints.trans hab.savepoints,
    hbc.depth.trans hab.depth, hbc.counter.trans hab.counter⟩

/-- The receipts chain from the seal to the tip. -/
structure ChainsFrom (env : Env) (sealHash : String) (s : StoreState) : Prop where
  chained : ∃ receipts, allReceipts env (rows s) = .ok receipts ∧ linked sealHash receipts = true ∧
    s.tip.priorHR = Chain.tip Receipt.hR sealHash receipts

theorem ChainsFrom.verified {s : StoreState} (h : ChainsFrom env sealHash s) :
    verifyFromSeal env (rows s) sealHash = .ok true := by
  obtain ⟨receipts, hread, hlinked, _⟩ := h.chained
  rw [verifyFromSeal, hread, ← hlinked]
  rfl

/-- Writes after each other, none of whose commits fails. -/
inductive LaterWrites (cfg : Config) (clock : Clock) (s : StoreState) : StoreState → Prop
  | refl : LaterWrites cfg clock s s
  | write {s' : StoreState} (h : LaterWrites cfg clock s s') (a : WriteArgs)
      (hcommit : s'.txnDepth = 0 → Faulty s' ∨ ¬Faulty (passFault s')) :
      LaterWrites cfg clock s (Store.write cfg clock a s').2

theorem ChainsFrom.of_tables {s s' : StoreState} (h : ChainsFrom env sealHash s)
    (hrows : rows s' = rows s) (htip : s'.tip = s.tip) : ChainsFrom env sealHash s' := by
  obtain ⟨receipts, hread, hlinked, hlast⟩ := h.chained
  exact ⟨receipts, by rw [hrows]; exact hread, hlinked, by rw [htip]; exact hlast⟩

/-- A write extends the chain, or leaves the rows and the tip alone. -/
theorem ChainsFrom.write {s : StoreState} (h : ChainsFrom cfg.toEnv sealHash s) (a : WriteArgs)
    (hcommit : s.txnDepth = 0 → Faulty s ∨ ¬Faulty (passFault s)) :
    ChainsFrom cfg.toEnv sealHash (Store.write cfg clock a s).2 := by
  cases hr : resolveWrite cfg.toEnv a with
  | error e =>
    rw [write_of_unresolved hr]
    exact h
  | ok r =>
    cases hp : planned cfg clock a r s with
    | error e =>
      rw [write_of_unplanned hr hp]
      rcases unplanned_cases cfg clock a r s with hstop | hstop
      · rw [hstop]
        exact h.of_tables rfl rfl
      · rw [hstop]
        exact h.of_tables rfl rfl
    | ok x =>
      obtain ⟨receipt, row⟩ := x
      rw [write_of_planned hr hp]
      rcases append_cases receipt row (sampled cfg a s) with
        ⟨_, happ⟩ | ⟨hf, hdepth, hc, _⟩ | ⟨_, _, happ⟩
      · rw [happ]
        exact h.of_tables rfl rfl
      · rcases hcommit hdepth with hfault | hclear
        · exact absurd hfault hf
        · exact absurd hc hclear
      · obtain ⟨receipts, hread, hlinked, hlast⟩ := h.chained
        obtain ⟨⟨read, hreadRow⟩, hroot, hparent, hne⟩ :=
          linkage_of_planned (s.conn.current.seq + 1) hr hp
        obtain ⟨hreadRoot, hreadParent⟩ := hashes_of_rowToReceipt hreadRow
        obtain ⟨hchain, hnes⟩ := (linked_iff _ _).mp hlinked
        rw [happ]
        refine ⟨receipts ++ [read], ?_, (linked_iff _ _).mpr ⟨?_, ?_⟩, ?_⟩
        · rw [rows_appended]
          exact allReceipts_concat hread hreadRow
        · refine (Chain.linked_concat _ _ _ _ _).mpr ⟨hchain, ?_⟩
          rw [hreadParent, ← hlast]
          exact hparent
        · intro x hx
          rcases List.mem_append.mp hx with hx | hx
          · exact hnes x hx
          · rw [List.mem_singleton.mp hx, hreadRoot]
            exact hne
        · rw [Chain.tip_concat, hreadRoot]
          exact hroot.symm

theorem ChainsFrom.later {s s' : StoreState} (h : ChainsFrom cfg.toEnv sealHash s)
    (hlater : LaterWrites cfg clock s s') : ChainsFrom cfg.toEnv sealHash s' := by
  induction hlater with
  | refl => exact h
  | write _ a hcommit ih => exact ih.write a hcommit

/-! ## Main result -/

end Ugk
