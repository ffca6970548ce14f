import Ugk.Spec.Acceptance
import Ugk.Spec.Linkage
import Ugk.Spec.Sample

/-!
# Honest chains verify

Every write appends a row that links to the tip.  When the write is `Recomputable`, the body hash
recomputed from the row that is read back is the one committed at write time, so a store filled by
such writes verifies.

## Key results

- `verifiedRow_of_write`: the row of a recomputable write reads back as a receipt that verifies
- `Intact.write`: one such write keeps the store intact
- `honest_chain_verifies`: after any sequence of them the three verifiers succeed
-/

namespace Ugk

open Store

variable {env : Env}

/-! ## Verdicts on a list of receipts -/

theorem verifyReceipts_iff (receipts : List Receipt) :
    verifyReceipts env receipts = .ok true ↔ ∀ r ∈ receipts, verifyReceipt env r = .ok true := by
  induction receipts with
  | nil => simp [verifyReceipts]
  | cons r rest ih =>
    rw [List.forall_mem_cons, ← ih, verifyReceipts]
    cases verifyReceipt env r with
    | error e => simp [bind, Except.bind]
    | ok b => cases b <;> simp [bind, Except.bind]

/-- Rows that read back as a chain of receipts with intact bodies. -/
structure VerifiedRows (env : Env) (rows : List Row) (receipts : List Receipt) : Prop where
  read : allReceipts env rows = .ok receipts
  linked : Chain.Linked Receipt.hR Receipt.parentHR genesis receipts
  rooted : ∀ r ∈ receipts, r.hR ≠ ""
  stated : ∀ r ∈ receipts, r.hS ≠ ""
  ungraded : ∀ r ∈ receipts, r.reconciliationGrade = .none
  bodies : ∀ r ∈ receipts, verifyReceipt env r = .ok true

namespace VerifiedRows

variable {rows : List Row} {receipts : List Receipt}

theorem nil : VerifiedRows env [] [] where
  read := rfl
  linked := trivial
  rooted := by simp
  stated := by simp
  ungraded := by simp
  bodies := by simp

/-- One more verified row that names the tip. -/
theorem concat (h : VerifiedRows env rows receipts) {row : Row} {r : Receipt}
    (hread : rowToReceipt env row = .ok r) (hroot : r.hR ≠ "") (hstate : r.hS ≠ "")
    (hgrade : r.reconciliationGrade = .none)
    (hparent : r.parentHR = Chain.tip Receipt.hR genesis receipts)
    (hbody : verifyReceipt env r = .ok true) :
    VerifiedRows env (rows ++ [row]) (receipts ++ [r]) where
  read := allReceipts_concat h.read hread
  linked := (Chain.linked_concat _ _ _ _ _).mpr ⟨h.linked, hparent⟩
  rooted := by simpa [or_imp, forall_and] using ⟨h.rooted, hroot⟩
  stated := by simpa [or_imp, forall_and] using ⟨h.stated, hstate⟩
  ungraded := by simpa [or_imp, forall_and] using ⟨h.ungraded, hgrade⟩
  bodies := by simpa [or_imp, forall_and] using ⟨h.bodies, hbody⟩

theorem verifyStreamHash (h : VerifiedRows env rows receipts) :
    verifyStreamHash env rows = .ok true :=
  verifyStreamHash_of_linked h.read h.linked h.rooted

theorem verifyReceiptBodies (h : VerifiedRows env rows receipts) :
    verifyReceiptBodies env rows = .ok true := by
  have hbodies := (verifyReceipts_iff receipts).mpr h.bodies
  rw [Ugk.verifyReceiptBodies, h.read]
  cases receipts with
  | nil => rfl
  | cons r rest => exact hbodies

theorem verifyChain (h : VerifiedRows env rows receipts) :
    verifyChain env rows = .ok chainEstablished := by
  rw [Ugk.verifyChain, h.verifyStreamHash]
  change (Ugk.verifyReceiptBodies env rows >>= _) = _
  rw [h.verifyReceiptBodies]
  rfl

end VerifiedRows

/-! ## What a write has to be given -/

/-- Arguments of a write whose row recomputes: no reconciliation grade or snapshot, legend fields
    and columns that read back as they are, and parameters whose canonical form survives the
    round trip through stored JSON. -/
structure Recomputable (env : Env) (a : WriteArgs) : Prop where
  grade : a.reconciliationGrade = none ∧ promoted a.parameters "reconciliation_grade" = .none
  snapshot : a.reconciliationWarrantSnapshot = none ∧
    promoted a.parameters "reconciliation_warrant_snapshot" = .none
  op : expand env (storeField a.compress .op a.op) = a.op
  intent : expand env (storeField a.compress .intent a.intentText) = a.intentText
  jurisdiction : expand env (storeField a.compress .jurisdiction a.jurisdiction) = a.jurisdiction
  confidence : expand env (storeField a.compress .confidence a.confidence) = a.confidence
  effect : ∀ cols p, resolveEffectSurface a.parameters a.effectColumns = .ok (some cols, p) →
    ∀ m, IsText (cols m)
  continuation : ∀ c, a.continuation = some (.dict c) → IsText (PyDict.get c "jurisdiction")
  parameters : ∀ cols p pj q, resolveEffectSurface a.parameters a.effectColumns = .ok (cols, p) →
    paramsJson env (stripReconciliation p) = .ok pj → loads env pj = .ok q →
    SameDoc env q (stripReconciliation p)

/-! ## The parameters -/

/-- The state commitment depends on the document of the parameters. -/
theorem hS_congr {op : String} {d d' : PyDict} (h : SameDoc env (.dict d) (.dict d')) :
    hS env op (.dict d) = hS env op (.dict d') := by
  have hdoc : canonicalDoc env (strDict [("op", .str op), ("inputs", .dict d)]) =
      canonicalDoc env (strDict [("op", .str op), ("inputs", .dict d')]) := by
    have hnames (v w : PyVal) : PlainNames ([("op", v), ("inputs", w)].map Prod.fst) :=
      show PlainNames ["op", "inputs"] by decide
    rw [canonicalDoc_strDict (hnames _ _), canonicalDoc_strDict (hnames _ _)]
    exact congrArg _ (docItems_congr (.cons ⟨rfl, rfl⟩ (.cons ⟨rfl, h⟩ .nil)))
  rw [hS, hS, cS, cS, canonicalJson_congr hdoc]

/-! ## The row of a write -/

/-- Only the document of the parameters enters the body. -/
theorem sameFields_withParameters {r : Receipt} {q : PyVal} (h : SameDoc env q r.parameters) :
    SameFields env { r with parameters := q }.bodyFields r.bodyFields := by
  have hbase : SameFields env { r with parameters := q }.baseFields r.baseFields := by
    unfold Receipt.baseFields
    exact .cons ⟨rfl, rfl⟩ (.cons ⟨rfl, rfl⟩ (.cons ⟨rfl, h⟩ (SameFields.refl _)))
  simp only [Receipt.bodyFields]
  exact (((((hbase.append (SameFields.refl _)).append (SameFields.refl _)).append
    (SameFields.refl _)).append (SameFields.refl _)).append (SameFields.refl _)).append
    (SameFields.refl _)

theorem textColumns_of_plan {a : WriteArgs} {r : Resolved} {c : Commitments} {s : Surfaces}
    (hc : Recomputable env a) (hr : resolveWrite env a = .ok r) (hs : surfaces env a = .ok s) :
    TextColumns (columns c r s) := by
  obtain ⟨p, hres, _, _, hgrade, hsnap⟩ := resolveWrite_ok hr
  obtain ⟨hcont, hbridge, hjur⟩ := surfaces_ok hs
  have heff (m : Marker) : IsText (r.effectValue m) := by
    rw [Resolved.effectValue]
    cases heq : r.effect with
    | none => trivial
    | some cols => exact hc.effect cols p (heq ▸ hres) m
  have hg : IsText r.grade := by rw [hgrade, hc.grade.1, hc.grade.2]; trivial
  have hsn : IsText r.snapshot := by rw [hsnap, hc.snapshot.1, hc.snapshot.2]; trivial
  have hj : IsText s.continuation.jurisdiction := by
    rcases hjur with hnone | ⟨d, hd, heq⟩
    · rw [hnone]; trivial
    · rw [heq]; exact hc.continuation d hd
  simp only [TextColumns, columns, Nullable.toList, List.forall_mem_cons]
  exact ⟨trivial, isText_ofOpt _, isText_ofOpt _, isText_ofOpt _, trivial, isText_ofOpt _,
    isText_ofOpt _, isText_ofOpt _, isText_ofOpt _, isText_ofOpt _, heff _, isText_ofOpt _, heff _,
    heff _, heff _, heff _, heff _, heff _, heff _, hg, hsn, hcont.id, hcont.op, hcont.authority,
    hcont.parameters, hj, hcont.expiryBasis, hcont.state, hcont.modelId, hbridge.recordId,
    hbridge.sourceRegimeRef, hbridge.targetRegimeRef, hbridge.transformationRef,
    hbridge.downgradeReason, hbridge.preservedEvidenceRef, by simp⟩

/-- Finishing a draft adds a text column to its text columns. -/
theorem textColumns_finish {r : Receipt} (h : TextColumns r.toNullable) (hBody : Digest)
    {trace : PyVal} (ht : IsText trace) : TextColumns (finish r hBody trace).toNullable := by
  simp only [TextColumns, Nullable.toList, List.forall_mem_cons] at h
  simp [TextColumns, Nullable.toList, finish, ht, h]

/-- A finished draft carries the constants of a strict-mode receipt. -/
theorem stamped_finish (tip : Tip) (time : FloatLit) (a : WriteArgs) (c : Commitments) (r : Resolved)
    (s : Surfaces) (hBody : Digest) (trace : PyVal) :
    Stamped (finish (draft tip time a c r s) hBody trace) where
  mode := by simp [finish, draft]
  version := by
    rw [finish, draft]
    dsimp only
    split <;> decide
  idCS := by simp [finish, draft, idCS]
  idCC := by simp [finish, draft, idCC]
  idCM := by simp [finish, draft, idCM]
  idCJ := by simp [finish, draft, idCJ]

/-- A receipt whose two stored hashes are the recomputed ones verifies. -/
theorem verifyReceipt_of_eq {r : Receipt} {hs hb : Digest} (hstate : hS env r.op r.parameters = .ok hs)
    (hs_eq : r.hS = hs.hex) (hbody : computeHBody env (verifiedBody r) = .ok hb)
    (hb_eq : r.hBody = hb.hex) : verifyReceipt env r = .ok true := by
  have h1 : verifyState env r = .ok true := by
    rw [verifyState, if_neg (hs_eq ▸ hs.nonempty), hstate, hs_eq]
    simp [Except.map]
  have h2 : verifyBody env r = .ok true := by
    rw [verifyBody, if_neg (hb_eq ▸ hb.nonempty), hbody, hb_eq]
    simp [Except.map]
  rw [verifyReceipt, h1]
  exact h2

/-- The row of a recomputable write reads back as the receipt that was planned, its parameters up to
    their canonical document. -/
theorem readBack_of_write {cfg : Config} {built : List String} {tip : Tip} {time : FloatLit}
    {a : WriteArgs} {r : Resolved} {receipt : Receipt} {row : Row} (id : Nat)
    (hc : Recomputable cfg.toEnv a) (hr : resolveWrite cfg.toEnv a = .ok r)
    (hplan : planWrite cfg built tip time a r = .ok (receipt, row)) :
    ∃ q, rowToReceipt cfg.toEnv { row with receiptId := id } =
        .ok { receipt with receiptId := id, parameters := .dict q } ∧
      SameDoc cfg.toEnv (.dict q) r.parameters := by
  obtain ⟨p, hres, hparams, hpj, _, _⟩ := resolveWrite_ok hr
  obtain ⟨c, s, hBody, trace, hcom, hs, _, htrace, rfl, hrow⟩ := planWrite_ok hplan
  obtain ⟨d, hd⟩ := dict_of_hS (commitments_hS hcom)
  obtain ⟨q, hq⟩ := loads_paramsJson_dict (hd ▸ hpj)
  have htext : TextColumns (finish (draft tip time a c r s) hBody trace).toNullable :=
    textColumns_finish (textColumns_of_plan hc hr hs) hBody (isText_traceVector htrace)
  refine ⟨q, rowToReceipt_rowOfReceipt id hrow htext ⟨hc.op, hc.intent, hc.jurisdiction,
    hc.confidence⟩ (stamped_finish ..) hq, ?_⟩
  rw [hparams]
  exact hc.parameters _ _ _ _ hres (hparams ▸ hpj) hq

/-- The row of a recomputable write reads back as a receipt that verifies and links to the tip. -/
theorem verifiedRow_of_write {cfg : Config} {built : List String} {tip : Tip} {time : FloatLit}
    {a : WriteArgs} {r : Resolved} {receipt : Receipt} {row : Row} (id : Nat)
    (hc : Recomputable cfg.toEnv a) (hr : resolveWrite cfg.toEnv a = .ok r)
    (hplan : planWrite cfg built tip time a r = .ok (receipt, row)) :
    ∃ read, rowToReceipt cfg.toEnv { row with receiptId := id } = .ok read ∧
      verifyReceipt cfg.toEnv read = .ok true ∧ read.hR = receipt.hR ∧ read.hR ≠ "" ∧
      read.hS ≠ "" ∧ read.reconciliationGrade = .none ∧ read.parentHR = tip.priorHR := by
  obtain ⟨q, hread, hdoc⟩ := readBack_of_write id hc hr hplan
  obtain ⟨p, hres, hparams, hpj, hgrade, hsnap⟩ := resolveWrite_ok hr
  obtain ⟨c, s, hBody, trace, hcom, hs, hb, htrace, rfl, hrow⟩ := planWrite_ok hplan
  have hhs := commitments_hS hcom
  obtain ⟨d, hd⟩ := dict_of_hS hhs
  have hgr : r.grade = .none := by rw [hgrade, hc.grade.1, hc.grade.2]; rfl
  have hsn : r.snapshot = .none := by rw [hsnap, hc.snapshot.1, hc.snapshot.2]; rfl
  refine ⟨_, hread, ?_, rfl, c.hR.nonempty, c.hS.nonempty, hgr, rfl⟩
  refine @verifyReceipt_of_eq _ _ c.hS hBody ?_ rfl ?_ rfl
  · rw [hd] at hdoc hhs
    exact (hS_congr hdoc).trans hhs
  · rw [← hb]
    refine computeHBody_congr rfl ?_
    have hfields := sameFields_withParameters (r := draft tip time a c r s) hdoc
    have hsame : (verifiedBody { finish (draft tip time a c r s) hBody trace with
        receiptId := id, parameters := .dict q }).bodyFields =
        { draft tip time a c r s with parameters := .dict q }.bodyFields := by
      simp only [verifiedBody, finish, draft, columns, Receipt.bodyFields, Receipt.baseFields,
        Receipt.terminalFields, Receipt.capabilityFields, Receipt.effectFields,
        Receipt.reconciliationFields, Receipt.continuationFields, Receipt.bridgeFields, hgr, hsn]
    rw [hsame]
    exact hfields

/-! ## Runs -/

/-- The rows of a store verify, and its tip is the hash of the last one. -/
def Intact (env : Env) (s : StoreState) : Prop :=
  ∃ receipts, VerifiedRows env (rows s) receipts ∧
    s.tip.priorHR = Chain.tip Receipt.hR genesis receipts

/-- A recomputable write that returns keeps the store intact. -/
theorem Intact.write {cfg : Config} {clock : Clock} {a : WriteArgs} {s : StoreState}
    {receipt : Receipt} (h : Intact cfg.toEnv s) (hc : Recomputable cfg.toEnv a)
    (hw : (Store.write cfg clock a s).1 = .ok receipt) :
    Intact cfg.toEnv (Store.write cfg clock a s).2 := by
  obtain ⟨receipts, hrows, htip⟩ := h
  obtain ⟨r, planned', row, hr, hplan, _, hstate⟩ := write_ok hw
  obtain ⟨read, hread, hverify, hroot, hne, hstated, hgrade, hparent⟩ :=
    verifiedRow_of_write (s.conn.current.seq + 1) hc hr hplan
  refine ⟨receipts ++ [read], ?_, ?_⟩
  · rw [hstate, rows_appended]
    exact hrows.concat hread hne hstated hgrade (hparent.trans htip) hverify
  · rw [hstate, tip_appended, Chain.tip_concat]
    exact hroot.symm

/-- Write one receipt after the other. -/
def writeAll (cfg : Config) (clock : Clock) : List WriteArgs → Proc StoreState Exc Unit
  | [] => pure ()
  | a :: as => do
    let _ ← Store.write cfg clock a
    writeAll cfg clock as

theorem Intact.writeAll {cfg : Config} {clock : Clock} {as : List WriteArgs} {s : StoreState}
    (h : Intact cfg.toEnv s) (hc : ∀ a ∈ as, Recomputable cfg.toEnv a)
    (hw : (Ugk.writeAll cfg clock as s).1 = .ok ()) :
    Intact cfg.toEnv (Ugk.writeAll cfg clock as s).2 := by
  induction as generalizing s with
  | nil => exact h
  | cons a as ih =>
    rw [Ugk.writeAll] at hw ⊢
    cases ha : Store.write cfg clock a s with
    | mk result s' =>
      cases result with
      | error e => rw [Proc.bind_of_error ha] at hw; exact nomatch hw
      | ok receipt =>
        rw [Proc.bind_of_ok ha] at hw ⊢
        have hs' := h.write (hc a (by simp)) (by rw [ha])
        rw [ha] at hs'
        exact ih hs' (fun b hb => hc b (by simp [hb])) hw

/-- Every write that returns adds one row. -/
theorem length_rows_writeAll {cfg : Config} {clock : Clock} {as : List WriteArgs} {s : StoreState}
    (hw : (Ugk.writeAll cfg clock as s).1 = .ok ()) :
    (rows (Ugk.writeAll cfg clock as s).2).length = (rows s).length + as.length := by
  induction as generalizing s with
  | nil => rfl
  | cons a as ih =>
    rw [Ugk.writeAll] at hw ⊢
    cases ha : Store.write cfg clock a s with
    | mk result s' =>
      cases result with
      | error e => rw [Proc.bind_of_error ha] at hw; exact nomatch hw
      | ok receipt =>
        rw [Proc.bind_of_ok ha] at hw ⊢
        obtain ⟨_, _, row, _, _, _, hstate⟩ := write_ok (s := s) (a := a) (by rw [ha])
        rw [ha] at hstate
        have hrows : rows (sampled cfg a s) = rows s := rfl
        rw [ih hw, show s' = _ from hstate, rows_appended, hrows]
        simp only [List.length_append, List.length_cons, List.length_nil]
        omega

/-- A newly opened store: no receipts, the tip at genesis. -/
structure Fresh (s : StoreState) : Prop where
  conn : s.conn = {}
  tip : s.tip = {}

theorem Fresh.intact {s : StoreState} (h : Fresh s) : Intact env s := by
  refine ⟨[], ?_, ?_⟩
  · rw [rows, h.conn]
    exact .nil
  · rw [h.tip]
    rfl

/-- A store filled by recomputable writes passes all three verifiers. -/
theorem honest_chain_verifies {cfg : Config} {clock : Clock} {as : List WriteArgs} {s : StoreState}
    (hs : Fresh s) (hc : ∀ a ∈ as, Recomputable cfg.toEnv a)
    (hw : (writeAll cfg clock as s).1 = .ok ()) :
    verifyStreamHash cfg.toEnv (rows (writeAll cfg clock as s).2) = .ok true ∧
      verifyReceiptBodies cfg.toEnv (rows (writeAll cfg clock as s).2) = .ok true ∧
      verifyChain cfg.toEnv (rows (writeAll cfg clock as s).2) = .ok chainEstablished := by
  obtain ⟨receipts, hrows, _⟩ := hs.intact.writeAll hc hw
  exact ⟨hrows.verifyStreamHash, hrows.verifyReceiptBodies, hrows.verifyChain⟩

/-- A write with nothing unusual in it. -/
def sampleWrite : WriteArgs :=
  { op := "attest", authority := "Governor", parameters := .dict [(.str "k", .str "v")] }

theorem writeAll_singleton {cfg : Config} {clock : Clock} {a : WriteArgs} {s : StoreState}
    (h : isOk (Store.write cfg clock a s).1 = true) :
    (writeAll cfg clock [a] s).1 = .ok () := by
  obtain ⟨receipt, hr⟩ := isOk_iff.mp h
  rw [writeAll, Proc.bind_of_ok (Prod.ext hr rfl)]
  rfl

theorem writeAll_singleton_snd {cfg : Config} {clock : Clock} {a : WriteArgs} {s : StoreState}
    (h : isOk (Store.write cfg clock a s).1 = true) :
    (writeAll cfg clock [a] s).2 = (Store.write cfg clock a s).2 := by
  obtain ⟨receipt, hr⟩ := isOk_iff.mp h
  rw [writeAll, Proc.bind_of_ok (Prod.ext hr rfl)]
  rfl

theorem recomputable_sampleWrite : Recomputable sampleEnv sampleWrite where
  grade := ⟨rfl, rfl⟩
  snapshot := ⟨rfl, rfl⟩
  op := by decide +kernel
  intent := by decide +kernel
  jurisdiction := by decide +kernel
  confidence := by decide +kernel
  effect := by
    intro cols p h
    exact nomatch h
  continuation := by
    intro c h
    exact nomatch h
  parameters := by
    intro cols p pj q hres hpj hq
    obtain ⟨rfl, rfl⟩ := Prod.mk.inj (Except.ok.inj hres)
    obtain ⟨j, hj, hpj⟩ := paramsJson_ok hpj
    obtain rfl := Except.ok.inj hj
    rw [loads_paramsJson hpj] at hq
    obtain rfl := Except.ok.inj hq
    rfl

theorem recomputable_of_mem_sample : ∀ a ∈ [sampleWrite], Recomputable (configOf sampleEnv).toEnv a := by
  rintro a (_ | ⟨_, ⟨⟩⟩)
  exact recomputable_sampleWrite

theorem isOk_write_sampleWrite :
    isOk (Store.write (configOf sampleEnv) sampleClock sampleWrite Store.empty).1 = true :=
  (write_isOk_iff rfl).mpr (by decide +kernel)

theorem honest_chain_verifies_sampleWrite :
    verifyChain sampleEnv
        (rows (writeAll (configOf sampleEnv) sampleClock [sampleWrite] Store.empty).2) =
      .ok chainEstablished :=
  (honest_chain_verifies ⟨rfl, rfl⟩ recomputable_of_mem_sample
    (writeAll_singleton isOk_write_sampleWrite)).2.2

/-! ## A grade breaks verification -/

/-- A receipt that verifies has a stored body hash that is the recomputed one. -/
theorem body_of_verifyReceipt {r : Receipt} (h : verifyReceipt env r = .ok true) :
    ∃ d, computeHBody env (verifiedBody r) = .ok d ∧ d.hex = r.hBody := by
  obtain ⟨b, _, h⟩ := Except.bind_eq_ok h
  cases b with
  | false => exact nomatch h
  | true =>
    rw [if_pos rfl, verifyBody] at h
    split at h
    · exact nomatch h
    · obtain ⟨d, hd, heq⟩ := Except.map_eq_ok h
      exact ⟨d, hd, by simpa using heq⟩

theorem fieldValue_grade {r : Receipt} (hv : r.version = 7 ∨ r.version = 8) :
    fieldValue r.bodyFields "reconciliation_grade" = r.reconciliationGrade := by
  rcases hv with h | h <;> simp only [Receipt.bodyFields, h] <;> rfl

/-- Under an injective hash a row that commits a grade never verifies. -/
theorem not_verifyReceipt_of_grade (hinj : Function.Injective env.sha256) {r : Receipt}
    {d : Digest} {g : String} (hv : r.version = 7 ∨ r.version = 8)
    (hg : r.reconciliationGrade = .str g) (hb : computeHBody env r = .ok d)
    {read : Receipt} (hread : read.version = r.version) (hstored : read.hBody = d.hex) :
    verifyReceipt env read ≠ .ok true := by
  intro h
  obtain ⟨d', hd', heq⟩ := body_of_verifyReceipt h
  obtain rfl : d' = d := Digest.ext_hex (heq.trans hstored)
  have hsame := (bodyFields_of_computeHBody_eq hinj hd' hb).2.fieldValue "reconciliation_grade"
  rw [fieldValue_grade (r := r) hv, fieldValue_grade (hread ▸ hv), hg] at hsame
  exact nomatch hsame

theorem version_draft (tip : Tip) (time : FloatLit) (a : WriteArgs) (c : Commitments) (r : Resolved)
    (s : Surfaces) : (draft tip time a c r s).version = 7 ∨ (draft tip time a c r s).version = 8 := by
  rw [draft]
  dsimp only
  split
  · exact .inr rfl
  · exact .inl rfl

/-- Editing the state commitment of a row edits it in the receipt. -/
theorem rowToReceipt_withHS {row : Row} {r : Receipt} (t : String)
    (h : rowToReceipt env row = .ok r) :
    rowToReceipt env { row with hS := t } = .ok { r with hS := t } := by
  obtain ⟨q, hq, rfl⟩ := Except.map_eq_ok h
  simp only [rowToReceipt, hq, Except.map]

/-- Editing the reconciliation grade of a row edits it in the receipt. -/
theorem rowToReceipt_withGrade {row : Row} {r : Receipt} (g : String)
    (h : rowToReceipt env row = .ok r) :
    rowToReceipt env { row with reconciliationGrade := some g } =
      .ok { r with reconciliationGrade := .str g } := by
  obtain ⟨q, hq, rfl⟩ := Except.map_eq_ok h
  simp only [rowToReceipt, hq, Except.map]
  rfl

/-- What a row reads back as, whatever its text columns hold. -/
theorem rowToReceipt_ok {row : Row} {read : Receipt} (h : rowToReceipt env row = .ok read) :
    read.hBody = row.hBody ∧ read.version = (if row.version = 0 then 1 else row.version) := by
  obtain ⟨q, _, rfl⟩ := Except.map_eq_ok h
  exact ⟨rfl, rfl⟩

/-- The verdict on a single row. -/
theorem verifyReceiptBodies_singleton (row : Row) :
    verifyReceiptBodies env [row] = rowToReceipt env row >>= verifyReceipt env := by
  rw [verifyReceiptBodies, allReceipts, List.mapM_cons, List.mapM_nil]
  cases hread : rowToReceipt env row with
  | error e => rfl
  | ok read =>
    change (verifyReceipt env read >>= fun b => if b then .ok true else .ok false) = _
    change _ = verifyReceipt env read
    cases verifyReceipt env read with
    | error e => rfl
    | ok b => cases b <;> rfl

/-- The first write of a store does not verify when it commits a grade. -/
theorem not_verifyReceiptBodies_of_grade {cfg : Config} {clock : Clock} {a : WriteArgs}
    {s : StoreState} {g : String} (hinj : Function.Injective cfg.sha256) (hs : Fresh s)
    (hg : typedOr a.reconciliationGrade (promoted a.parameters "reconciliation_grade") = .str g)
    (hw : isOk (Store.write cfg clock a s).1 = true) :
    verifyReceiptBodies cfg.toEnv (rows (Store.write cfg clock a s).2) ≠ .ok true := by
  obtain ⟨receipt, hw⟩ := isOk_iff.mp hw
  obtain ⟨r, planned', row, hr, hplan, _, hstate⟩ := write_ok hw
  obtain ⟨_, _, _, _, hgrade, _⟩ := resolveWrite_ok hr
  obtain ⟨c, sf, hBody, trace, _, _, hb, _, rfl, hrow⟩ := planWrite_ok hplan
  have hversion := version_draft s.tip (clock s.ticks) a c r sf
  have hempty : rows (sampled cfg a s) = [] := by
    change s.conn.current.rows = []
    rw [hs.conn]
  have hrowV : row.version = (draft s.tip (clock s.ticks) a c r sf).version ∧
      row.hBody = hBody.hex := by
    obtain ⟨_, rfl⟩ := rowOfReceipt_ok hrow
    exact ⟨rfl, rfl⟩
  rw [hstate, rows_appended, hempty, List.nil_append, verifyReceiptBodies_singleton]
  intro h
  obtain ⟨read, hread, hverify⟩ := Except.bind_eq_ok h
  obtain ⟨hstored, hv⟩ := rowToReceipt_ok hread
  have hv' : read.version = (draft s.tip (clock s.ticks) a c r sf).version := by
    rw [hv]
    change (if row.version = 0 then 1 else row.version) = _
    rw [hrowV.1, if_neg (by rcases hversion with h | h <;> rw [h] <;> decide)]
  exact not_verifyReceipt_of_grade hinj hversion (hgrade.trans hg) hb hv' (hstored.trans hrowV.2)
    hverify

/-- A write that names a reconciliation grade in its parameters. -/
def gradedWrite : WriteArgs :=
  { sampleWrite with parameters := .dict [(.str "reconciliation_grade", .str "verified")] }

theorem isOk_write_gradedWrite :
    isOk (Store.write (configOf sampleEnv) sampleClock gradedWrite Store.empty).1 = true :=
  (write_isOk_iff rfl).mpr (by decide +kernel)

/-- An untouched store whose one write was graded does not verify. -/
theorem graded_chain_does_not_verify :
    isOk (Store.write (configOf sampleEnv) sampleClock gradedWrite Store.empty).1 = true ∧
      verifyReceiptBodies sampleEnv
        (rows (Store.write (configOf sampleEnv) sampleClock gradedWrite Store.empty).2) ≠ .ok true :=
  ⟨isOk_write_gradedWrite,
    @not_verifyReceiptBodies_of_grade (configOf sampleEnv) sampleClock gradedWrite Store.empty
      "verified" sampleHash_injective ⟨rfl, rfl⟩ rfl isOk_write_gradedWrite⟩

end Ugk
