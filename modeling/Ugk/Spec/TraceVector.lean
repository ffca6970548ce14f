import Ugk.Spec.HonestChain
import Ugk.Spec.Linkage

/-!
# The trace vector and the body verifier

Both re-derive the body hash of a receipt.  The trace vector leaves out the effect, reconciliation,
continuation and bridge columns, the body verifier the reconciliation columns only.  They agree on
a receipt exactly when the columns only one of them reads are NULL or the stored body hash is
neither of the two.

## Key results

- `traceVector_agrees_iff`: when the two verifiers of a body agree
- `trace_vector_consistent`: agreement, and the trace hash committed by a write
-/

namespace Ugk

open Store

variable {env : Env}

/-! ## Lists of fields -/

theorem SameFields.split {as bs as' bs' : List (String × PyVal)} (hlen : as.length = bs.length)
    (h : SameFields env (as ++ as') (bs ++ bs')) :
    SameFields env as bs ∧ SameFields env as' bs' := by
  induction as generalizing bs with
  | nil =>
    obtain rfl := List.length_eq_zero_iff.mp hlen.symm
    exact ⟨.nil, h⟩
  | cons a as ih =>
    cases bs with
    | nil => exact nomatch hlen
    | cons b bs =>
      cases h with
      | cons hab hrest =>
        obtain ⟨hhead, htail⟩ := ih (Nat.succ.inj hlen) hrest
        exact ⟨.cons hab hhead, htail⟩

/-- Text with the document of `None` is `None`. -/
theorem eq_none_of_sameDoc {v : PyVal} (htext : IsText v) (h : SameDoc env .none v) : v = .none := by
  cases v with
  | none => rfl
  | str s => exact nomatch h
  | _ => exact htext.elim

/-- Text fields that are the same as `None` fields are `None`. -/
theorem SameFields.allNone {as bs : List (String × PyVal)} (h : SameFields env as bs)
    (hnone : ∀ f ∈ as, f.2 = .none) (htext : ∀ f ∈ bs, IsText f.2) : ∀ f ∈ bs, f.2 = .none := by
  induction h with
  | nil => exact hnone
  | @cons a b as bs hab _ ih =>
    rw [List.forall_mem_cons] at hnone htext ⊢
    refine ⟨@eq_none_of_sameDoc env _ htext.1 ?_, ih hnone.2 htext.2⟩
    have hdoc := hab.2
    rw [hnone.1] at hdoc
    exact hdoc

/-- Fields with the same names are the same when all of them are `None`. -/
theorem sameFields_of_allNone {as bs : List (String × PyVal)}
    (hnames : as.map Prod.fst = bs.map Prod.fst) (ha : ∀ f ∈ as, f.2 = .none)
    (hb : ∀ f ∈ bs, f.2 = .none) : SameFields env as bs := by
  induction as generalizing bs with
  | nil =>
    obtain rfl := List.map_eq_nil_iff.mp hnames.symm
    exact .nil
  | cons a as ih =>
    cases bs with
    | nil => exact nomatch hnames
    | cons b bs =>
      obtain ⟨hname, hrest⟩ := List.cons.inj hnames
      rw [List.forall_mem_cons] at ha hb
      refine .cons ⟨hname, ?_⟩ (ih hrest ha.2 hb.2)
      rw [ha.1, hb.1]
      exact SameDoc.rfl

/-! ## The columns one verifier leaves out -/

/-- The fields of the body that the body verifier reads and the trace vector does not. -/
def Receipt.untraced (r : Receipt) : List (String × PyVal) :=
  (if 4 ≤ r.version then r.effectFields else []) ++
    ((if 7 ≤ r.version then r.continuationFields else []) ++
      (if 8 ≤ r.version then r.bridgeFields else []))

/-- The fields both of them read, in the order of the body up to the effect block. -/
def Receipt.traced (r : Receipt) : List (String × PyVal) :=
  r.baseFields ++ (if 2 ≤ r.version then r.terminalFields else []) ++
    (if 3 ≤ r.version then r.capabilityFields else [])

/-- The reconciliation block, left out by both. -/
def Receipt.reconciliation (r : Receipt) : List (String × PyVal) :=
  if 6 ≤ r.version then (verifiedBody r).reconciliationFields else []

section Body

variable (r : Receipt)

theorem bodyFields_verifiedBody :
    (verifiedBody r).bodyFields = r.traced ++ ((if 4 ≤ r.version then r.effectFields else []) ++
      (r.reconciliation ++ ((if 7 ≤ r.version then r.continuationFields else []) ++
        (if 8 ≤ r.version then r.bridgeFields else [])))) := by
  simp only [Receipt.bodyFields, Receipt.traced, Receipt.reconciliation, List.append_assoc]
  rfl

theorem bodyFields_traceBodyReceipt :
    (traceBodyReceipt r).bodyFields = r.traced ++
      ((if 4 ≤ r.version then (traceBodyReceipt r).effectFields else []) ++
        (r.reconciliation ++ ((if 7 ≤ r.version then (traceBodyReceipt r).continuationFields else []) ++
          (if 8 ≤ r.version then (traceBodyReceipt r).bridgeFields else [])))) := by
  simp only [Receipt.bodyFields, Receipt.traced, Receipt.reconciliation, List.append_assoc]
  rfl

/-- What holds of the fields of the three blocks holds of the untraced fields. -/
theorem Receipt.forall_untraced {P : String × PyVal → Prop} (heffect : ∀ f ∈ r.effectFields, P f)
    (hcont : ∀ f ∈ r.continuationFields, P f) (hbridge : ∀ f ∈ r.bridgeFields, P f) :
    ∀ f ∈ r.untraced, P f := by
  have hblock {p : Prop} [Decidable p] {fields : List (String × PyVal)} (h : ∀ f ∈ fields, P f) :
      ∀ f ∈ (if p then fields else []), P f := by
    split
    · exact h
    · exact fun _ hf => absurd hf List.not_mem_nil
  unfold Receipt.untraced
  rw [List.forall_mem_append, List.forall_mem_append]
  exact ⟨hblock heffect, hblock hcont, hblock hbridge⟩

theorem untraced_traceBodyReceipt : ∀ f ∈ (traceBodyReceipt r).untraced, f.2 = .none := by
  apply Receipt.forall_untraced
  · simp [Receipt.effectFields, traceBodyReceipt, Nullable.replicate]
  · simp [Receipt.continuationFields, traceBodyReceipt, Nullable.replicate]
  · simp [Receipt.bridgeFields, traceBodyReceipt, Nullable.replicate]

theorem names_untraced :
    (traceBodyReceipt r).untraced.map Prod.fst = r.untraced.map Prod.fst := by
  have hversion : (traceBodyReceipt r).version = r.version := rfl
  simp only [Receipt.untraced, hversion, List.map_append]
  congr 1
  · split <;> rfl
  · congr 1 <;> split <;> rfl

variable {r}

theorem length_ite_fields {p : Prop} [Decidable p] {as bs : List (String × PyVal)}
    (h : as.length = bs.length) : (if p then as else []).length = (if p then bs else []).length := by
  split
  · exact h
  · rfl

/-- The two bodies have the same fields when and only when the untraced fields are `None`. -/
theorem sameFields_traceBody_iff (htext : ∀ f ∈ r.untraced, IsText f.2) :
    SameFields env (traceBodyReceipt r).bodyFields (verifiedBody r).bodyFields ↔
      ∀ f ∈ r.untraced, f.2 = .none := by
  rw [bodyFields_verifiedBody, bodyFields_traceBodyReceipt]
  constructor
  · intro h
    obtain ⟨_, h⟩ := h.split rfl
    obtain ⟨heffect, h⟩ := h.split (by exact length_ite_fields rfl)
    obtain ⟨_, h⟩ := h.split rfl
    obtain ⟨hcont, hbridge⟩ := h.split (by exact length_ite_fields rfl)
    have hsame : SameFields env (traceBodyReceipt r).untraced r.untraced :=
      heffect.append (hcont.append hbridge)
    exact hsame.allNone (untraced_traceBodyReceipt r) htext
  · intro hnone
    have hsame : SameFields env (traceBodyReceipt r).untraced r.untraced :=
      sameFields_of_allNone (names_untraced r) (untraced_traceBodyReceipt r) hnone
    unfold Receipt.untraced at hsame
    obtain ⟨heffect, h⟩ := hsame.split (by exact length_ite_fields rfl)
    obtain ⟨hcont, hbridge⟩ := h.split (by exact length_ite_fields rfl)
    exact (SameFields.refl _).append (heffect.append ((SameFields.refl _).append
      (hcont.append hbridge)))

end Body

/-! ## Receipts read from a store -/

/-- Every nullable column of a receipt read from a row is text. -/
theorem textColumns_of_rowToReceipt {row : Row} {r : Receipt} (h : rowToReceipt env row = .ok r) :
    TextColumns r.toNullable := by
  obtain ⟨q, _, rfl⟩ := Except.map_eq_ok h
  simp only [TextColumns, Nullable.toList, Nullable.map, List.forall_mem_cons, isText_ofOpt,
    true_and]
  exact fun _ h => absurd h List.not_mem_nil

theorem isText_untraced {r : Receipt} (h : TextColumns r.toNullable) :
    ∀ f ∈ r.untraced, IsText f.2 := by
  simp only [TextColumns, Nullable.toList, List.forall_mem_cons] at h
  apply Receipt.forall_untraced
  · simp [Receipt.effectFields, h]
  · simp [Receipt.continuationFields, h]
  · simp [Receipt.bridgeFields, h]

/-- The body verifier can recompute the body of a text receipt when the trace vector can. -/
theorem isOk_verifiedBody {r : Receipt} (htext : ∀ f ∈ r.untraced, IsText f.2) {d : Digest}
    (h : computeHBody env (traceBodyReceipt r) = .ok d) :
    ∃ d', computeHBody env (verifiedBody r) = .ok d' := by
  have hok := isOk_computeHBody_iff.mp (isOk_iff.mpr ⟨d, h⟩)
  refine isOk_iff.mp (isOk_computeHBody_iff.mpr ?_)
  rw [bodyFields_traceBodyReceipt] at hok
  rw [bodyFields_verifiedBody]
  simp only [List.forall_mem_append, Receipt.untraced] at hok htext ⊢
  exact ⟨hok.1, fun f hf => canonical_of_isText (htext.1 f hf), hok.2.2.1,
    fun f hf => canonical_of_isText (htext.2.1 f hf),
    fun f hf => canonical_of_isText (htext.2.2 f hf)⟩

/-! ## Agreement on integrity -/

theorem buildTraceVector_ok {r : Receipt} {frame : FrameRef} {tv : TraceVector}
    (h : buildTraceVector env r frame = .ok tv) :
    ∃ d, computeHBody env (traceBodyReceipt r) = .ok d ∧
      (tv.integrityOk = true ↔ d.hex = r.hBody) := by
  obtain ⟨results, _, h⟩ := Except.bind_eq_ok h
  obtain ⟨d, hd, h⟩ := Except.bind_eq_ok h
  obtain rfl := Except.ok.inj h
  refine ⟨d, hd, ?_⟩
  simp only [Bool.and_eq_true, beq_iff_eq, bne_iff_ne, ne_eq]
  constructor
  · rintro ⟨heq, _⟩
    exact heq
  · intro heq
    exact ⟨heq, fun hempty => d.nonempty (heq.trans hempty)⟩

theorem verifyBody_iff {r : Receipt} {d : Digest} (h : computeHBody env (verifiedBody r) = .ok d) :
    verifyBody env r = .ok true ↔ d.hex = r.hBody := by
  rw [verifyBody]
  by_cases hempty : r.hBody = ""
  · rw [if_pos hempty]
    constructor
    · intro h
      cases h
    · intro heq
      exact absurd (heq.trans hempty) d.nonempty
  · rw [if_neg hempty, h]
    simp [Except.map]

/-- The stored body hash is one of the two that the verifiers recompute. -/
def BodyStands (env : Env) (r : Receipt) : Prop :=
  ∃ d, (computeHBody env (traceBodyReceipt r) = .ok d ∨ computeHBody env (verifiedBody r) = .ok d) ∧
    d.hex = r.hBody

/-- On a receipt read from a store the trace vector and the body verifier agree exactly when the
    untraced fields are NULL or the stored body hash is neither of theirs. -/
theorem traceVector_agrees_iff (hinj : Function.Injective env.sha256) {row : Row} {r : Receipt}
    (hread : rowToReceipt env row = .ok r) {frame : FrameRef} {tv : TraceVector}
    (htv : buildTraceVector env r frame = .ok tv) :
    (tv.integrityOk = true ↔ verifyBody env r = .ok true) ↔
      ((∀ f ∈ r.untraced, f.2 = .none) ∨ ¬BodyStands env r) := by
  have htext := isText_untraced (textColumns_of_rowToReceipt hread)
  obtain ⟨t, ht, hintegrity⟩ := buildTraceVector_ok htv
  obtain ⟨v, hv⟩ := isOk_verifiedBody htext ht
  rw [hintegrity, verifyBody_iff hv]
  constructor
  · intro hagree
    by_contra hno
    rw [not_or, not_not] at hno
    obtain ⟨hsome, d, hd, hstored⟩ := hno
    -- both hashes are the stored one, so both bodies have the same fields
    have hboth : t.hex = r.hBody ∧ v.hex = r.hBody := by
      rcases hd with hd | hd
      · obtain rfl := Except.ok.inj (ht.symm.trans hd)
        exact ⟨hstored, hagree.mp hstored⟩
      · obtain rfl := Except.ok.inj (hv.symm.trans hd)
        exact ⟨hagree.mpr hstored, hstored⟩
    obtain rfl : t = v := Digest.ext_hex (hboth.1.trans hboth.2.symm)
    exact hsome ((sameFields_traceBody_iff htext).mp (bodyFields_of_computeHBody_eq hinj ht hv).2)
  · rintro (hnone | hnot)
    · have hsame := (@sameFields_traceBody_iff env r htext).mpr hnone
      have heq : computeHBody env (traceBodyReceipt r) = computeHBody env (verifiedBody r) :=
        computeHBody_congr rfl hsame
      obtain rfl := Except.ok.inj (ht.symm.trans (heq.trans hv))
      exact Iff.rfl
    · constructor
      · intro h
        exact absurd ⟨t, .inl ht, h⟩ hnot
      · intro h
        exact absurd ⟨v, .inr hv, h⟩ hnot

/-! ## The committed trace hash -/

/-- Arguments of a write whose trace vector recomputes: legend fields that read back as they are,
    and parameters whose canonical form survives the round trip through stored JSON. -/
structure Retraceable (env : Env) (a : WriteArgs) : Prop where
  op : expand env (storeField a.compress .op a.op) = a.op
  intent : expand env (storeField a.compress .intent a.intentText) = a.intentText
  jurisdiction : expand env (storeField a.compress .jurisdiction a.jurisdiction) = a.jurisdiction
  confidence : expand env (storeField a.compress .confidence a.confidence) = a.confidence
  parameters : ∀ cols p pj q, resolveEffectSurface a.parameters a.effectColumns = .ok (cols, p) →
    paramsJson env (stripReconciliation p) = .ok pj → loads env pj = .ok q →
    SameDoc env q (stripReconciliation p)

/-- Two receipts that differ in their ids and untraced columns, and in parameters of one document,
    have one trace hash. -/
theorem committedTraceVectorHash_congr (codexHash : String) {r r' : Receipt} {id : Nat} {d d' : PyDict}
    (h : traceBodyReceipt r = { traceBodyReceipt r' with receiptId := id, parameters := .dict d })
    (hd : r'.parameters = .dict d') (hdoc : SameDoc env (.dict d) (.dict d')) :
    committedTraceVectorHash env codexHash r = committedTraceVectorHash env codexHash r' := by
  have hfield {β : Type} (f : Receipt → β) : f (traceBodyReceipt r) =
      f { traceBodyReceipt r' with receiptId := id, parameters := .dict d } := congrArg f h
  have hop : r.op = r'.op := hfield Receipt.op
  have hparameters : r.parameters = .dict d := hfield Receipt.parameters
  have hs : r.hS = r'.hS := hfield Receipt.hS
  have hc : r.hC = r'.hC := hfield Receipt.hC
  have hm : r.hM = r'.hM := hfield Receipt.hM
  have hj : r.hJ = r'.hJ := hfield (fun r => r.hJ)
  have hr : r.hR = r'.hR := hfield Receipt.hR
  have hb : r.hBody = r'.hBody := hfield Receipt.hBody
  have hlaw : r.lawHash = r'.lawHash := hfield Receipt.lawHash
  have hlegend : r.legendHash = r'.legendHash := hfield Receipt.legendHash
  have hstate : hS env r.op r.parameters = hS env r'.op r'.parameters := by
    rw [hop, hparameters, hd]
    exact hS_congr hdoc
  have hbody : computeHBody env (traceBodyReceipt r) = computeHBody env (traceBodyReceipt r') := by
    rw [h]
    refine computeHBody_congr rfl (sameFields_withParameters ?_)
    rw [show (traceBodyReceipt r').parameters = .dict d' from hd]
    exact hdoc
  have hsurfaces : committedSurfaces env r = committedSurfaces env r' := by
    simp only [committedSurfaces, hs, hc, hm, hj, hstate]
  have hhash (results : List SurfaceResult) (frame : FrameRef) (b b' : Bool) :
      traceVectorHash env r results frame b b' = traceVectorHash env r' results frame b b' := by
    simp only [traceVectorHash, hop, hr, hb]
  simp only [committedTraceVectorHash, buildTraceVector, rederiveHBody, hsurfaces, hhash, hbody, hb,
    hlaw, hlegend]

/-- The nullable columns the trace vector reads are text. -/
structure TracedText (n : Nullable PyVal) : Prop where
  hJ : IsText n.hJ
  terminalOutcome : IsText n.terminalOutcome
  terminalOutcomeModelId : IsText n.terminalOutcomeModelId
  terminalOutcomeReason : IsText n.terminalOutcomeReason
  hCap : IsText n.hCap
  capabilityEvidenceModelId : IsText n.capabilityEvidenceModelId
  capabilityLedgerHash : IsText n.capabilityLedgerHash
  capabilityRegistryVersion : IsText n.capabilityRegistryVersion
  capabilityScopeId : IsText n.capabilityScopeId

theorem tracedText_finish (tip : Tip) (time : FloatLit) (a : WriteArgs) (c : Commitments)
    (r : Resolved) (s : Surfaces) (hBody : Digest) (trace : PyVal) :
    TracedText (finish (draft tip time a c r s) hBody trace).toNullable :=
  ⟨isText_str _, isText_ofOpt _, isText_ofOpt _, isText_ofOpt _, isText_ofOpt _, isText_ofOpt _,
    isText_ofOpt _, isText_ofOpt _, isText_ofOpt _⟩

/-- What the trace vector reads of a row is what was written, the parameters aside. -/
theorem traceBodyReceipt_readBack {compress : Bool} {pj : String} {r read : Receipt} {row : Row}
    {q : PyVal} {id : Nat} (h : rowOfReceipt env compress pj r = .ok row)
    (htext : TracedText r.toNullable) (hlegend : LegendSafe env compress r) (hst : Stamped r)
    (hq : loads env pj = .ok q) (hread : rowToReceipt env { row with receiptId := id } = .ok read) :
    traceBodyReceipt read = { traceBodyReceipt r with receiptId := id, parameters := q } ∧
      read.traceVectorHash = .ofOpt (columnText env r.traceVectorHash) := by
  obtain ⟨_, rfl⟩ := rowOfReceipt_ok h
  have hfailed : ((if r.failed then (1 : Int) else 0) != 0) = r.failed := by
    cases r.failed <;> rfl
  simp only [rowToReceipt, hq, Except.map] at hread
  obtain rfl := Except.ok.inj hread
  refine ⟨?_, rfl⟩
  simp only [traceBodyReceipt, Nullable.map, ofOpt_columnText, htext.hJ, htext.terminalOutcome,
    htext.terminalOutcomeModelId, htext.terminalOutcomeReason, htext.hCap,
    htext.capabilityEvidenceModelId, htext.capabilityLedgerHash, htext.capabilityRegistryVersion,
    htext.capabilityScopeId, hlegend.op, hlegend.intent, hlegend.jurisdiction, hlegend.confidence,
    orText, hst.mode, hst.idCS, hst.idCC, hst.idCM, hst.idCJ, hst.version, if_false, hfailed]

/-- The stored row of a retraceable write has the trace hash that its own fields give. -/
theorem traceHash_readBack {cfg : Config} {built : List String} {tip : Tip} {time : FloatLit}
    {a : WriteArgs} {r : Resolved} {receipt : Receipt} {row : Row} (id : Nat)
    (hc : Retraceable cfg.toEnv a) (hr : resolveWrite cfg.toEnv a = .ok r)
    (hplan : planWrite cfg built tip time a r = .ok (receipt, row)) :
    ∃ read, rowToReceipt cfg.toEnv { row with receiptId := id } = .ok read ∧
      read.traceVectorHash = receipt.traceVectorHash ∧
      (read.traceVectorHash ≠ .none → ∃ d,
        committedTraceVectorHash cfg.toEnv cfg.codexHash read = .ok d ∧
          read.traceVectorHash = .str d.hex) := by
  obtain ⟨p, hres, hparams, hpj, _, _⟩ := resolveWrite_ok hr
  obtain ⟨⟨read, hread⟩, _⟩ := linkage_of_planned id hr hplan
  obtain ⟨c, s, hBody, trace, hcom, hs, hb, htrace, rfl, hrow⟩ := planWrite_ok hplan
  obtain ⟨d, hd⟩ := dict_of_hS (commitments_hS hcom)
  obtain ⟨q, hq⟩ := loads_paramsJson_dict (hd ▸ hpj)
  have hdoc : SameDoc cfg.toEnv (.dict q) r.parameters := by
    rw [hparams]
    exact hc.parameters _ _ _ _ hres (hparams ▸ hpj) hq
  have htext := isText_traceVector htrace
  obtain ⟨hbody, hfield⟩ := traceBodyReceipt_readBack hrow (tracedText_finish ..)
    ⟨hc.op, hc.intent, hc.jurisdiction, hc.confidence⟩ (stamped_finish ..) hq hread
  rw [ofOpt_columnText (show IsText (finish (draft tip time a c r s) hBody trace).traceVectorHash
    from htext)] at hfield
  refine ⟨read, hread, hfield, fun hne => ?_⟩
  rw [hfield] at hne ⊢
  change trace ≠ .none at hne
  change ∃ d : Digest, _ ∧ trace = .str d.hex
  rw [traceVector] at htrace
  split at htrace
  · split at htrace
    · obtain ⟨td, htd, rfl⟩ := Except.map_eq_ok htrace
      refine ⟨td, ?_, rfl⟩
      rw [← htd]
      exact committedTraceVectorHash_congr _ hbody hd (hd ▸ hdoc)
    · exact absurd (Except.ok.inj htrace).symm hne
  · exact absurd (Except.ok.inj htrace).symm hne

/-- On every receipt read from a store, the trace vector reports integrity exactly when the body
    verifier recomputes the stored hash, if and only if the untraced fields are NULL or the stored
    hash is neither of theirs; and a retraceable write commits the trace hash that its stored
    receipt gives. -/
theorem trace_vector_consistent {cfg : Config} (clock : Clock)
    (hinj : Function.Injective cfg.sha256) :
    (∀ row r frame tv, rowToReceipt cfg.toEnv row = .ok r →
      buildTraceVector cfg.toEnv r frame = .ok tv →
      ((tv.integrityOk = true ↔ verifyBody cfg.toEnv r = .ok true) ↔
        ((∀ f ∈ r.untraced, f.2 = .none) ∨ ¬BodyStands cfg.toEnv r))) ∧
    (∀ a s receipt, Retraceable cfg.toEnv a → (Store.write cfg clock a s).1 = .ok receipt →
      ∃ row read, rows (Store.write cfg clock a s).2 = rows s ++ [row] ∧
        rowToReceipt cfg.toEnv row = .ok read ∧
        read.traceVectorHash = receipt.traceVectorHash ∧
        (read.traceVectorHash ≠ .none → ∃ d,
          committedTraceVectorHash cfg.toEnv cfg.codexHash read = .ok d ∧
            read.traceVectorHash = .str d.hex)) := by
  refine ⟨?_, ?_⟩
  · intro row r frame tv hread htv
    exact traceVector_agrees_iff hinj hread htv
  · intro a s receipt hc hw
    obtain ⟨r, planned', row, hr, hplan, rfl, hstate⟩ := write_ok hw
    obtain ⟨read, hread, hfield, hhash⟩ :=
      traceHash_readBack (s.conn.current.seq + 1) hc hr hplan
    refine ⟨_, read, ?_, hread, hfield, hhash⟩
    rw [hstate]
    exact rows_appended planned' row (sampled cfg a s)

/-! ## Samples -/

/-- Verified receipts have a trace vector. -/
theorem exists_traceVector {r : Receipt} (frame : FrameRef) (h : verifyReceipt env r = .ok true)
    (hne : r.hS ≠ "") : ∃ tv, buildTraceVector env r frame = .ok tv := by
  obtain ⟨d, hd, _⟩ := body_of_verifyReceipt h
  have hstate : isOk (hS env r.op r.parameters) = true := by
    obtain ⟨b, hb, _⟩ := Except.bind_eq_ok h
    rw [verifyState, if_neg hne] at hb
    obtain ⟨hs, hhs, _⟩ := Except.map_eq_ok hb
    exact isOk_iff.mpr ⟨hs, hhs⟩
  have hbody : isOk (computeHBody env (traceBodyReceipt r)) = true := by
    have hok := isOk_computeHBody_iff.mp (isOk_iff.mpr ⟨d, hd⟩)
    rw [isOk_computeHBody_iff, bodyFields_traceBodyReceipt]
    rw [bodyFields_verifiedBody] at hok
    have hnone := untraced_traceBodyReceipt r
    have hcanon {v : PyVal} (hv : v = .none) : canonical env v = true := by rw [hv]; rfl
    simp only [List.forall_mem_append, Receipt.untraced] at hok hnone ⊢
    exact ⟨hok.1, fun f hf => hcanon (hnone.1 f hf), hok.2.2.1,
      fun f hf => hcanon (hnone.2.1 f hf), fun f hf => hcanon (hnone.2.2 f hf)⟩
  obtain ⟨results, hresults⟩ := isOk_iff.mp (isOk_committedSurfaces hstate)
  obtain ⟨body, hb⟩ := isOk_iff.mp hbody
  rw [buildTraceVector, hresults]
  simp only [rederiveHBody, hb, bind, Except.bind]
  exact ⟨_, rfl⟩

/-- A write that commits its outcome. -/
def outcomeWrite : WriteArgs := { sampleWrite with commitTerminalOutcome := true }

theorem retraceable_outcomeWrite : Retraceable sampleEnv outcomeWrite where
  op := recomputable_sampleWrite.op
  intent := recomputable_sampleWrite.intent
  jurisdiction := recomputable_sampleWrite.jurisdiction
  confidence := recomputable_sampleWrite.confidence
  parameters := recomputable_sampleWrite.parameters

theorem isOk_write_outcomeWrite :
    isOk (Store.write (configOf sampleEnv) sampleClock outcomeWrite Store.empty).1 = true :=
  (write_isOk_iff rfl).mpr (by decide +kernel)

/-- It commits a trace hash. -/
theorem traceVectorHash_outcomeWrite {receipt : Receipt}
    (hw : (Store.write (configOf sampleEnv) sampleClock outcomeWrite Store.empty).1 = .ok receipt) :
    receipt.traceVectorHash ≠ .none := by
  obtain ⟨r, planned', row, hr, hplan, rfl, _⟩ := write_ok hw
  obtain ⟨c, s, hBody, trace, _, hs, _, htrace, rfl, _⟩ := planWrite_ok hplan
  have hsurfaces : surfaces sampleEnv outcomeWrite =
      .ok ⟨some ("ADMIT", "all-surfaces-pass"), none, {}, {}⟩ := rfl
  obtain rfl := Except.ok.inj (hs.symm.trans hsurfaces)
  rw [traceVector] at htrace
  simp only [true_or, if_true] at htrace
  obtain ⟨d, _, rfl⟩ := Except.map_eq_ok htrace
  intro h
  cases h

/-- The stored receipt of the sample write gives the trace hash it carries. -/
theorem trace_vector_consistent_sample :
    (∀ row r frame tv, rowToReceipt sampleEnv row = .ok r →
      buildTraceVector sampleEnv r frame = .ok tv →
      ((tv.integrityOk = true ↔ verifyBody sampleEnv r = .ok true) ↔
        ((∀ f ∈ r.untraced, f.2 = .none) ∨ ¬BodyStands sampleEnv r))) ∧
    ∃ row read d, rows (Store.write (configOf sampleEnv) sampleClock outcomeWrite Store.empty).2 =
        [row] ∧
      rowToReceipt sampleEnv row = .ok read ∧
      committedTraceVectorHash sampleEnv "" read = .ok d ∧ read.traceVectorHash = .str d.hex := by
  obtain ⟨hagree, hwrites⟩ :=
    @trace_vector_consistent (configOf sampleEnv) sampleClock sampleHash_injective
  refine ⟨hagree, ?_⟩
  obtain ⟨receipt, hw⟩ := isOk_iff.mp isOk_write_outcomeWrite
  obtain ⟨row, read, hrows, hread, hfield, hhash⟩ := hwrites outcomeWrite Store.empty receipt
    retraceable_outcomeWrite hw
  obtain ⟨d, hd, hstored⟩ := hhash (hfield ▸ traceVectorHash_outcomeWrite hw)
  exact ⟨row, read, d, hrows, hread, hd, hstored⟩

/-- A write that carries an effect descriptor. -/
def effectWrite : WriteArgs :=
  { sampleWrite with
    effectColumns := some fun
      | .effectAtomicity => some "external_irreversible"
      | .phase => some "prepare"
      | _ => none }

theorem recomputable_effectWrite : Recomputable sampleEnv effectWrite where
  grade := ⟨rfl, rfl⟩
  snapshot := ⟨rfl, rfl⟩
  op := by decide +kernel
  intent := by decide +kernel
  jurisdiction := by decide +kernel
  confidence := by decide +kernel
  effect := by
    intro cols p h m
    have hcols := (Prod.mk.inj (Except.ok.inj h)).1
    rw [← Option.some.inj hcols]
    exact isText_ofOpt _
  continuation := by
    intro c h
    exact nomatch h
  parameters := by
    intro cols p pj q hres hpj hq
    obtain ⟨rfl, rfl⟩ := Prod.mk.inj (Except.ok.inj hres)
    obtain ⟨j, hj, hpj⟩ := paramsJson_ok hpj
    obtain rfl := Except.ok.inj hj
    rw [loads_paramsJson hpj] at hq
    obtain rfl := Except.ok.inj hq
    rfl

theorem isOk_write_effectWrite :
    isOk (Store.write (configOf sampleEnv) sampleClock effectWrite Store.empty).1 = true :=
  (write_isOk_iff rfl).mpr (by decide +kernel)

/-- An effect receipt, as written, verifies in the store and fails in the trace vector. -/
theorem effect_receipt_fails_trace :
    ∃ row read tv, rows (Store.write (configOf sampleEnv) sampleClock effectWrite Store.empty).2 =
        [row] ∧
      rowToReceipt sampleEnv row = .ok read ∧ verifyReceipt sampleEnv read = .ok true ∧
      buildTraceVector sampleEnv read ⟨"", expectedSchemaHash, "", ""⟩ = .ok tv ∧
      tv.integrityOk = false := by
  obtain ⟨receipt, hw⟩ := isOk_iff.mp isOk_write_effectWrite
  obtain ⟨r, planned', row, hr, hplan, rfl, hstate⟩ := write_ok hw
  obtain ⟨q, hread, _⟩ := readBack_of_write 1 recomputable_effectWrite hr hplan
  obtain ⟨read, hread', hverify, _, _, hne, _, _⟩ :=
    verifiedRow_of_write 1 recomputable_effectWrite hr hplan
  obtain ⟨tv, htv⟩ := exists_traceVector ⟨"", expectedSchemaHash, "", ""⟩ hverify hne
  refine ⟨_, read, tv, ?_, hread', hverify, htv, ?_⟩
  · rw [hstate]
    exact rows_appended planned' row (sampled (configOf sampleEnv) effectWrite Store.empty)
  · rw [Bool.eq_false_iff]
    intro hintegrity
    obtain ⟨d, hd, hstored⟩ := body_of_verifyReceipt hverify
    have hagree : tv.integrityOk = true ↔ verifyBody sampleEnv read = .ok true :=
      ⟨fun _ => (verifyBody_iff hd).mpr hstored, fun _ => hintegrity⟩
    -- the two verifiers would agree, so the effect columns would be empty
    rcases (traceVector_agrees_iff sampleHash_injective hread' htv).mp hagree with hnone | hnot
    · obtain ⟨p, hres, _⟩ := resolveWrite_ok hr
      obtain ⟨c, s, hBody, trace, _, _, _, _, rfl, _⟩ := planWrite_ok hplan
      obtain rfl := Except.ok.inj (hread'.symm.trans hread)
      have heffect : r.effect = some fun m => PyVal.ofOpt (match m with
          | .effectAtomicity => some "external_irreversible"
          | .phase => some "prepare"
          | _ => none) := (Prod.mk.inj (Except.ok.inj hres)).1.symm
      have hmem : ("effect_atomicity", PyVal.str "external_irreversible") ∈ Receipt.untraced
          { finish (draft Store.empty.tip (sampleClock Store.empty.ticks) effectWrite c r s)
            hBody trace with receiptId := 1, parameters := .dict q } := by
        have hvalue : r.effectValue .effectAtomicity = .str "external_irreversible" := by
          rw [Resolved.effectValue, heffect]
          rfl
        simp [Receipt.untraced, Receipt.effectFields, finish, draft, columns, hvalue, effectWrite,
          sampleWrite]
      cases hnone _ hmem
    · exact hnot ⟨d, .inr hd, hstored⟩

end Ugk
