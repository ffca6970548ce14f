import Ugk.Spec.Merkle
import Ugk.Spec.ReadBack

/-!
# Which writes the store accepts

Whether `write` computes a receipt depends on its arguments and on the authority graph, not on the
chain tip, the clock or the hash function: `acceptable` is that condition and `planWrite_isOk_iff`
says so.

## Key results

- `canonical_strDict_iff`: a dictionary has a canonical document when its values have one
- `planWrite_isOk_iff`: a write is planned exactly when it is acceptable
-/

namespace Ugk

open Store

variable {env : Env}

/-! ## Values with a canonical document -/

/-- The computation returns. -/
def isOk {ε α : Type} : Except ε α → Bool
  | .ok _ => true
  | .error _ => false

theorem isOk_iff {ε α : Type} {x : Except ε α} : isOk x = true ↔ ∃ a, x = .ok a := by
  cases x <;> simp [isOk]

@[simp] theorem isOk_ok {ε α : Type} (a : α) : isOk (.ok a : Except ε α) = true := rfl

@[simp] theorem isOk_error {ε α : Type} (e : ε) : isOk (.error e : Except ε α) = false := rfl

@[simp] theorem isOk_map {ε α β : Type} (x : Except ε α) (f : α → β) : isOk (x.map f) = isOk x := by
  cases x <;> rfl

theorem isOk_bind {ε α β : Type} (x : Except ε α) (f : α → Except ε β) :
    isOk (x >>= f) = true ↔ ∃ a, x = .ok a ∧ isOk (f a) = true := by
  cases x with
  | error e => simp [bind, Except.bind]
  | ok a => simp [bind, Except.bind]

/-- The value has a canonical document. -/
def canonical (env : Env) (v : PyVal) : Bool := isOk (canonicalDoc env v)

@[simp] theorem canonical_none : canonical env .none = true := rfl

@[simp] theorem canonical_bool (b : Bool) : canonical env (.bool b) = true := rfl

@[simp] theorem canonical_int (n : Int) : canonical env (.int n) = true := rfl

@[simp] theorem canonical_str (s : String) : canonical env (.str s) = true := rfl

@[simp] theorem canonical_fin (x : FloatLit) : canonical env (.float (.fin x)) = true := rfl

theorem canonical_of_isText {v : PyVal} (h : IsText v) : canonical env v = true := by
  cases v with
  | none => rfl
  | str s => rfl
  | _ => exact absurd h id

theorem canonical_orEmpty {v : PyVal} (h : IsText v) : canonical env (orEmpty v) = true := by
  rw [orEmpty]
  split
  · exact canonical_of_isText h
  · rfl

/-- A list has a canonical document when its elements have one. -/
theorem canonical_list {xs : List PyVal} (h : ∀ x ∈ xs, canonical env x = true) :
    canonical env (.list xs) = true := by
  have hlist : isOk (toJsonList env false (normalizeList env xs)) = true := by
    induction xs with
    | nil => rfl
    | cons x xs ih =>
      rw [List.forall_mem_cons] at h
      obtain ⟨j, hj⟩ := isOk_iff.mp h.1
      rw [canonicalDoc] at hj
      rw [normalizeList, toJsonList, hj]
      simpa using ih h.2
  rw [canonical, canonicalDoc, normalize, toJson, isOk_map]
  exact hlist

theorem canonical_strList (xs : List String) : canonical env (strList xs) = true := by
  refine canonical_list fun x hx => ?_
  obtain ⟨s, _, rfl⟩ := List.mem_map.mp hx
  rfl

theorem isOk_docItems_iff {kvs : List (String × PyVal)} :
    isOk (docItems env kvs) = true ↔ ∀ kv ∈ kvs, canonical env kv.2 = true := by
  induction kvs with
  | nil => simp [docItems]
  | cons kv rest ih =>
    rw [List.forall_mem_cons, ← ih, docItems, canonical]
    cases canonicalDoc env kv.2 with
    | error e => simp
    | ok j => simp

/-- A dictionary with plain names has a canonical document exactly when its values have one. -/
theorem canonical_strDict_iff {kvs : List (String × PyVal)} (h : PlainNames (kvs.map Prod.fst)) :
    canonical env (strDict kvs) = true ↔ ∀ kv ∈ kvs, canonical env kv.2 = true := by
  rw [canonical, canonicalDoc_strDict h, isOk_map, isOk_docItems_iff]

theorem isOk_canonicalJson (v : PyVal) : isOk (canonicalJson env v) = canonical env v := by
  rw [canonicalJson, isOk_map, canonical]

@[simp] theorem isOk_orNonCanonical (what : String) (x : Except Exc (List Char)) :
    isOk (orNonCanonical what x) = isOk x := by
  cases x <;> rfl

/-! ## The commitments -/

private theorem plainNames_of_eq {kvs : List (String × PyVal)} (names : List String)
    (h : kvs.map Prod.fst = names) (hp : PlainNames names) : PlainNames (kvs.map Prod.fst) :=
  h ▸ hp

theorem isOk_hS_iff {op : String} {inputs : PyVal} :
    isOk (hS env op inputs) = true ↔ (∃ d, inputs = .dict d) ∧ canonical env inputs = true := by
  rw [hS, isOk_map]
  cases inputs with
  | dict d =>
    rw [cS, isOk_orNonCanonical, isOk_canonicalJson,
      canonical_strDict_iff (plainNames_of_eq ["op", "inputs"] rfl (by decide))]
    simp
  | _ => simp [cS]

theorem canonical_edge (e : AuthorityEdge) : canonical env e.toCanonicalDict = true := by
  refine (canonical_strDict_iff (plainNames_of_eq ["issuer", "subject", "capability_set",
    "edge_time", "valid_until", "issuer_key_id", "signature"] rfl (by decide))).mpr ?_
  simp [canonical_strList]

theorem canonical_freshness (ei : EpochIssuance) :
    canonical env (buildFreshnessClaimFromEpoch ei) = true := by
  refine (canonical_strDict_iff (plainNames_of_eq ["phase_code", "epoch_counter", "valid_from",
    "valid_until", "window_sig", "issuer_key_id"] rfl (by decide))).mpr ?_
  simp

/-- The admissibility commitment of a path always exists. -/
theorem hC_isOk (path : List AuthorityEdge) (policyId : String) (caps basis : List String)
    (parent : String) (ei : EpochIssuance) :
    ∃ d, hC env (path.map AuthorityEdge.toCanonicalDict) policyId caps basis parent
      (buildFreshnessClaimFromEpoch ei) = .ok d := by
  have hchain : canonical env (.list (path.map AuthorityEdge.toCanonicalDict)) = true := by
    refine canonical_list fun x hx => ?_
    obtain ⟨e, _, rfl⟩ := List.mem_map.mp hx
    exact canonical_edge e
  obtain ⟨chain, hch⟩ := isOk_iff.mp ((isOk_canonicalJson _).trans hchain)
  rw [← isOk_iff, hC, isOk_map, cC, hch]
  dsimp only
  rw [isOk_orNonCanonical, isOk_canonicalJson, canonical_strDict_iff (plainNames_of_eq ["G_c_root",
    "policy_id", "capabilities", "warrant_basis", "parent", "freshness"] rfl (by decide))]
  simp [canonical_strList, canonical_freshness]

/-- The meaning commitment of a governed lineage always exists. -/
theorem hM_isOk (intent intentRef legendHash : String) (parentHM parentRef : Option String)
    (regime : String) :
    ∃ d, hM env intent intentRef legendHash (lineageDicts parentHM parentRef) regime = .ok d := by
  have hlineage : canonical env (.list (lineageDicts parentHM parentRef)) = true := by
    refine canonical_list fun x hx => ?_
    cases parentHM with
    | none => simp [lineageDicts] at hx
    | some h =>
      obtain rfl := List.mem_singleton.mp hx
      refine (canonical_strDict_iff (plainNames_of_eq ["parent_h_m", "parent_intent_ref",
        "edge_position"] rfl (by decide))).mpr ?_
      simp
  rw [← isOk_iff, hM, isOk_map, cM, isOk_orNonCanonical, isOk_canonicalJson,
    canonical_strDict_iff (plainNames_of_eq ["intent", "intent_ref", "legend_hash",
      "semantic_lineage"] rfl (by decide))]
  simp [hlineage]

/-- The locality commitment always exists. -/
theorem hJ_isOk (phaseCode mosaicRoot sessionId authorityKey : String) :
    ∃ d, hJ env phaseCode mosaicRoot sessionId authorityKey = .ok d := by
  have hphi : isOk (canonicalJson env (strDict [("phase_code", .str phaseCode),
      ("mosaic_root", .str mosaicRoot), ("session_id", .str sessionId)])) = true := by
    rw [isOk_canonicalJson, canonical_strDict_iff (plainNames_of_eq ["phase_code", "mosaic_root",
      "session_id"] rfl (by decide))]
    simp
  obtain ⟨phi, hp⟩ := isOk_iff.mp hphi
  have hcj (h : String) : isOk (orNonCanonical "c_j" (canonicalJson env (strDict [
      ("phi", .str h), ("authority_key", .str authorityKey)]))) = true := by
    rw [isOk_orNonCanonical, isOk_canonicalJson,
      canonical_strDict_iff (plainNames_of_eq ["phi", "authority_key"] rfl (by decide))]
    simp
  rw [← isOk_iff, hJ, isOk_map]
  unfold cJ
  rw [hp]
  exact hcj _

/-- The commitments exist when the authority has an attenuating path and the state commitment
    exists. -/
theorem isOk_commitments_iff {cfg : Config} {built : List String} {tip : Tip} {a : WriteArgs}
    {parameters : PyVal} :
    isOk (commitments cfg built tip a parameters) = true ↔
      isOk (canonicalPathFor cfg built a.authority >>= effectiveCapabilities) = true ∧
        isOk (hS cfg.toEnv a.op parameters) = true := by
  rw [commitments, isOk_bind, isOk_bind]
  constructor
  · rintro ⟨path, hpath, h⟩
    obtain ⟨caps, hcaps, h⟩ := (isOk_bind _ _).mp h
    obtain ⟨hs, hhs, _⟩ := (isOk_bind _ _).mp h
    exact ⟨⟨path, hpath, isOk_iff.mpr ⟨caps, hcaps⟩⟩, isOk_iff.mpr ⟨hs, hhs⟩⟩
  · rintro ⟨⟨path, hpath, hcaps⟩, hhs⟩
    obtain ⟨caps, hcaps⟩ := isOk_iff.mp hcaps
    obtain ⟨hs, hhs⟩ := isOk_iff.mp hhs
    refine ⟨path, hpath, (isOk_bind _ _).mpr ⟨caps, hcaps, (isOk_bind _ _).mpr ⟨hs, hhs, ?_⟩⟩⟩
    obtain ⟨hc, hhc⟩ := @hC_isOk cfg.toEnv path (lookupPolicyId cfg a.jurisdiction) caps
      (if a.warrantId = "" then [] else [a.warrantId]) tip.priorHR
      (defaultEpoch cfg.toEnv (idPhi0 cfg.toEnv))
    obtain ⟨hm, hhm⟩ := @hM_isOk cfg.toEnv a.intentText a.intentRef a.legendHash tip.priorHM
      tip.priorIntentRef (idSigma0 cfg.toEnv)
    obtain ⟨hj, hhj⟩ := @hJ_isOk cfg.toEnv (idPhi0 cfg.toEnv) (mosaicRootPhi0 cfg.toEnv)
      a.sessionDkn (lookupAuthorityKey cfg a.authority)
    refine (isOk_bind _ _).mpr ⟨hc, hhc, (isOk_bind _ _).mpr ⟨hm, hhm, (isOk_bind _ _).mpr
      ⟨hj, hhj, ?_⟩⟩⟩
    exact (isOk_bind _ _).mpr ⟨_, computeHR_strictLeaves .., rfl⟩

/-! ## The body -/

theorem isOk_computeHBody_iff {r : Receipt} :
    isOk (computeHBody env r) = true ↔ ∀ kv ∈ r.bodyFields, canonical env kv.2 = true := by
  rw [computeHBody_eq, isOk_map, isOk_map, isOk_docItems_iff]

/-- The column values a caller can make unstorable. -/
def openColumns (r : Resolved) (s : Surfaces) : List PyVal :=
  Marker.all.map r.effectValue ++
    [r.grade, r.snapshot, s.continuation.jurisdiction]

/-- The body of a draft has a canonical document when its parameters and open columns have one. -/
theorem isOk_body_draft_iff {tip : Tip} {time : FloatLit} {a : WriteArgs} {c : Commitments}
    {r : Resolved} {s : Surfaces} (hs : surfaces env a = .ok s) :
    isOk (computeHBody env (draft tip time a c r s)) = true ↔
      canonical env r.parameters = true ∧ ∀ v ∈ openColumns r s, canonical env v = true := by
  obtain ⟨hcont, hbridge, _⟩ := surfaces_ok hs
  have hcanon {v : PyVal} (h : IsText v) : canonical env v = true := canonical_of_isText h
  have hopt (o : Option String) : canonical env (.ofOpt o) = true := hcanon (isText_ofOpt o)
  rw [isOk_computeHBody_iff]
  have hversion : (draft tip time a c r s).version = if a.bridge.isSome then 8 else 7 := rfl
  simp only [Receipt.bodyFields, hversion]
  cases hb : a.bridge.isSome <;>
    simp [hb, Receipt.baseFields, Receipt.terminalFields, Receipt.capabilityFields,
      Receipt.effectFields, Receipt.reconciliationFields, Receipt.continuationFields,
      Receipt.bridgeFields, draft, columns, hopt, hcanon hcont.id, hcanon hcont.op,
      hcanon hcont.authority, hcanon hcont.parameters, hcanon hcont.expiryBasis,
      hcanon hcont.state, hcanon hcont.modelId, hcanon hbridge.recordId,
      hcanon hbridge.sourceRegimeRef, hcanon hbridge.targetRegimeRef,
      hcanon hbridge.transformationRef, hcanon hbridge.downgradeReason,
      hcanon hbridge.preservedEvidenceRef, openColumns, Marker.all, canonical_orEmpty]

/-! ## The plan -/

/-- A column value the database accepts and the body can commit. -/
def storable (env : Env) (v : PyVal) : Bool := canonical env v && bindable v

/-- The arguments of a resolved write that a receipt can be computed from. -/
def acceptable (cfg : Config) (built : List String) (a : WriteArgs) (r : Resolved) : Bool :=
  isOk (canonicalPathFor cfg built a.authority >>= effectiveCapabilities) &&
    isOk (hS cfg.toEnv a.op r.parameters) &&
    match surfaces cfg.toEnv a with
    | .ok s => (openColumns r s).all (storable cfg.toEnv)
    | .error _ => false

private theorem canonical_of_isOk_hS {op : String} {inputs : PyVal}
    (h : isOk (hS env op inputs) = true) : canonical env inputs = true := (isOk_hS_iff.mp h).2

/-- A surface that is not re-derived, or whose commitment re-derives, has a result. -/
theorem isOk_verifySurface {surfaceId : String} {committed : PyVal} {optional : Bool}
    {rederive : Option (Except Exc Digest)} (h : ∀ x, rederive = some x → isOk x = true) :
    isOk (verifySurface env surfaceId committed optional rederive) = true := by
  unfold verifySurface
  dsimp only
  split
  · rfl
  split
  · rfl
  cases committed with
  | str t =>
    dsimp only
    split
    · rfl
    · cases rederive with
      | none => rfl
      | some x =>
        dsimp only
        rw [isOk_map]
        exact h x rfl
  | _ => rfl

theorem isOk_committedSurfaces {r : Receipt} (hstate : isOk (hS env r.op r.parameters) = true) :
    isOk (committedSurfaces env r) = true := by
  have hplain {surfaceId : String} {committed : PyVal} {optional : Bool} :
      isOk (verifySurface env surfaceId committed optional none) = true :=
    isOk_verifySurface (fun _ h => nomatch h)
  obtain ⟨ds, hds⟩ := isOk_iff.mp
    (@isOk_verifySurface env "D_s" (.str r.hS) false (some (hS env r.op r.parameters))
      (by rintro x ⟨⟩; exact hstate))
  obtain ⟨dc, hdc⟩ := isOk_iff.mp (@hplain "D_c" (.str r.hC) false)
  obtain ⟨dm, hdm⟩ := isOk_iff.mp (@hplain "D_m" (.str r.hM) false)
  obtain ⟨dj, hdj⟩ := isOk_iff.mp (@hplain "D_j" r.hJ true)
  rw [committedSurfaces, hds, hdc, hdm, hdj]
  rfl

/-- The trace vector of a receipt exists when its state commitment and its body do. -/
theorem isOk_traceVector {cfg : Config} {s : Surfaces} {r : Receipt}
    (hstate : isOk (hS cfg.toEnv r.op r.parameters) = true)
    (hbody : isOk (computeHBody cfg.toEnv (traceBodyReceipt r)) = true) :
    isOk (traceVector cfg s r) = true := by
  obtain ⟨results, hresults⟩ := isOk_iff.mp (isOk_committedSurfaces hstate)
  obtain ⟨body, hb⟩ := isOk_iff.mp hbody
  rw [traceVector]
  split
  · split
    · rw [isOk_map, committedTraceVectorHash, isOk_map, buildTraceVector]
      exact (isOk_bind _ _).mpr ⟨results, hresults, (isOk_bind _ _).mpr ⟨body, hb, rfl⟩⟩
    · rfl
  · rfl

/-- The body the trace vector re-derives leaves the open columns out. -/
theorem isOk_traceBody {tip : Tip} {time : FloatLit} {a : WriteArgs} {c : Commitments}
    {r : Resolved} {s : Surfaces} (hBody : Digest) (hp : canonical env r.parameters = true) :
    isOk (computeHBody env (traceBodyReceipt (finish (draft tip time a c r s) hBody .none))) =
      true := by
  have hopt (o : Option String) : canonical env (.ofOpt o) = true :=
    canonical_of_isText (isText_ofOpt o)
  rw [isOk_computeHBody_iff]
  have hversion : (traceBodyReceipt (finish (draft tip time a c r s) hBody .none)).version =
      if a.bridge.isSome then 8 else 7 := rfl
  simp only [Receipt.bodyFields, hversion]
  cases hb : a.bridge.isSome <;>
    simp [hb, Receipt.baseFields, Receipt.terminalFields, Receipt.capabilityFields,
      Receipt.effectFields, Receipt.reconciliationFields, Receipt.continuationFields,
      Receipt.bridgeFields, traceBodyReceipt, finish, draft, columns, Nullable.replicate, hopt, hp,
      canonical_orEmpty]

/-- Every column of a finished draft binds when its open columns do. -/
theorem all_bindable_iff {tip : Tip} {time : FloatLit} {a : WriteArgs} {c : Commitments}
    {r : Resolved} {s : Surfaces} {trace : PyVal} (hBody : Digest)
    (hs : surfaces env a = .ok s) (ht : IsText trace) :
    (finish (draft tip time a c r s) hBody trace).toNullable.toList.all bindable = true ↔
      ∀ v ∈ openColumns r s, bindable v = true := by
  obtain ⟨hcont, hbridge, _⟩ := surfaces_ok hs
  have hbind {v : PyVal} (h : IsText v) : bindable v = true := bindable_of_isText h
  have hopt (o : Option String) : bindable (.ofOpt o) = true := hbind (isText_ofOpt o)
  have hstr (t : String) : bindable (.str t) = true := rfl
  simp [Nullable.toList, finish, draft, columns, hopt, hstr, hbind ht, hbind hcont.id,
    hbind hcont.op, hbind hcont.authority, hbind hcont.parameters, hbind hcont.expiryBasis,
    hbind hcont.state, hbind hcont.modelId, hbind hbridge.recordId,
    hbind hbridge.sourceRegimeRef, hbind hbridge.targetRegimeRef, hbind hbridge.transformationRef,
    hbind hbridge.downgradeReason, hbind hbridge.preservedEvidenceRef, openColumns, Marker.all]

theorem isOk_rowOfReceipt {compress : Bool} {pj : String} {r : Receipt} :
    isOk (rowOfReceipt env compress pj r) = r.toNullable.toList.all bindable := by
  rw [rowOfReceipt]
  split
  · rename_i h; rw [h]; rfl
  · rename_i h; simpa using h

/-- The arguments of a resolved write that a receipt can be computed from, whether or not its values
    can be bound. -/
def computable (cfg : Config) (built : List String) (a : WriteArgs) (r : Resolved) : Bool :=
  isOk (canonicalPathFor cfg built a.authority >>= effectiveCapabilities) &&
    isOk (hS cfg.toEnv a.op r.parameters) &&
    match surfaces cfg.toEnv a with
    | .ok s => (openColumns r s).all (canonical cfg.toEnv)
    | .error _ => false

/-- Neither the tip nor the clock nor the hash function plays a part in whether there is a receipt. -/
theorem planReceipt_isOk_iff {cfg : Config} {built : List String} {tip : Tip} {time : FloatLit}
    {a : WriteArgs} {r : Resolved} :
    isOk (planReceipt cfg built tip time a r) = true ↔ computable cfg built a r = true := by
  constructor
  · intro h
    obtain ⟨receipt, hplan⟩ := isOk_iff.mp h
    obtain ⟨c, s, hBody, trace, hcom, hs, hb, htrace, rfl⟩ := planReceipt_ok hplan
    obtain ⟨hpath, hstate⟩ := isOk_commitments_iff.mp (isOk_iff.mpr ⟨c, hcom⟩)
    have hcanon := ((isOk_body_draft_iff hs).mp (isOk_iff.mpr ⟨hBody, hb⟩)).2
    rw [computable, hpath, hstate, hs]
    simp only [Bool.true_and, List.all_eq_true]
    exact hcanon
  · intro h
    simp only [computable, Bool.and_eq_true] at h
    obtain ⟨⟨hpath, hstate⟩, hopen⟩ := h
    cases hs : surfaces cfg.toEnv a with
    | error e => rw [hs] at hopen; exact nomatch hopen
    | ok s =>
      rw [hs] at hopen
      simp only [List.all_eq_true] at hopen
      have hp := canonical_of_isOk_hS hstate
      have hcom : isOk (commitments cfg built tip a r.parameters) = true :=
        isOk_commitments_iff.mpr ⟨hpath, hstate⟩
      obtain ⟨c, hc⟩ := isOk_iff.mp hcom
      have hbody : isOk (computeHBody cfg.toEnv (draft tip time a c r s)) = true :=
        (isOk_body_draft_iff hs).mpr ⟨hp, hopen⟩
      obtain ⟨hBody, hb⟩ := isOk_iff.mp hbody
      have htrace : isOk (traceVector cfg s (finish (draft tip time a c r s) hBody .none)) = true :=
        isOk_traceVector hstate (isOk_traceBody hBody hp)
      obtain ⟨trace, ht⟩ := isOk_iff.mp htrace
      simp only [planReceipt, hc, hs, hb, ht, bind, Except.bind, isOk_ok]

/-- The values of a receipt can be bound when those of its open columns can. -/
theorem isOk_row_planReceipt_iff {cfg : Config} {built : List String} {tip : Tip} {time : FloatLit}
    {a : WriteArgs} {r : Resolved} {receipt : Receipt} {s : Surfaces}
    (h : planReceipt cfg built tip time a r = .ok receipt) (hs : surfaces cfg.toEnv a = .ok s) :
    isOk (rowOfReceipt cfg.toEnv a.compress r.parametersJson receipt) = true ↔
      ∀ v ∈ openColumns r s, bindable v = true := by
  obtain ⟨c, s', hBody, trace, _, hs', _, htrace, rfl⟩ := planReceipt_ok h
  obtain rfl := Except.ok.inj (hs.symm.trans hs')
  rw [isOk_rowOfReceipt]
  exact all_bindable_iff hBody hs (isText_traceVector htrace)

/-- A write is planned exactly when its arguments are acceptable: neither the tip nor the clock nor
    the hash function plays a part. -/
theorem planWrite_isOk_iff {cfg : Config} {built : List String} {tip : Tip} {time : FloatLit}
    {a : WriteArgs} {r : Resolved} :
    isOk (planWrite cfg built tip time a r) = true ↔ acceptable cfg built a r = true := by
  rw [planWrite, isOk_bind]
  constructor
  · rintro ⟨receipt, hplan, hrow⟩
    have hcomputable := planReceipt_isOk_iff.mp (isOk_iff.mpr ⟨receipt, hplan⟩)
    obtain ⟨row, hrow, -⟩ := (isOk_bind _ _).mp hrow
    simp only [computable, Bool.and_eq_true] at hcomputable
    obtain ⟨⟨hpath, hstate⟩, hopen⟩ := hcomputable
    cases hs : surfaces cfg.toEnv a with
    | error e => rw [hs] at hopen; exact nomatch hopen
    | ok s =>
      rw [hs] at hopen
      have hbind := (isOk_row_planReceipt_iff hplan hs).mp (isOk_iff.mpr ⟨row, hrow⟩)
      rw [acceptable, hpath, hstate, hs]
      simp only [Bool.true_and, List.all_eq_true, storable, Bool.and_eq_true] at hopen ⊢
      exact fun v hv => ⟨hopen v hv, hbind v hv⟩
  · intro h
    simp only [acceptable, Bool.and_eq_true] at h
    obtain ⟨⟨hpath, hstate⟩, hopen⟩ := h
    cases hs : surfaces cfg.toEnv a with
    | error e => rw [hs] at hopen; exact nomatch hopen
    | ok s =>
      rw [hs] at hopen
      simp only [List.all_eq_true, storable, Bool.and_eq_true] at hopen
      have hcomputable : computable cfg built a r = true := by
        rw [computable, hpath, hstate, hs]
        simp only [Bool.true_and, List.all_eq_true]
        exact fun v hv => (hopen v hv).1
      obtain ⟨receipt, hplan⟩ := isOk_iff.mp (planReceipt_isOk_iff.mpr hcomputable)
      obtain ⟨row, hrow⟩ := isOk_iff.mp
        ((isOk_row_planReceipt_iff hplan hs).mpr fun v hv => (hopen v hv).2)
      exact ⟨receipt, hplan, (isOk_bind _ _).mpr ⟨row, hrow, rfl⟩⟩

/-! ## The write -/

/-- The store accepts the arguments: they resolve, and a receipt can be computed from them. -/
def accepted (cfg : Config) (built : List String) (a : WriteArgs) : Bool :=
  match resolveWrite cfg.toEnv a with
  | .ok r => acceptable cfg built a r
  | .error _ => false

theorem accepted_iff {cfg : Config} {built : List String} {a : WriteArgs} :
    accepted cfg built a = true ↔
      ∃ r, resolveWrite cfg.toEnv a = .ok r ∧ acceptable cfg built a r = true := by
  rw [accepted]
  cases resolveWrite cfg.toEnv a <;> simp

/-- Where no transient failure is due, a write returns exactly when its arguments are accepted. -/
theorem write_isOk_iff {cfg : Config} {clock : Clock} {a : WriteArgs} {s : StoreState}
    (hf : s.faults = []) :
    isOk (write cfg clock a s).1 = true ↔
      accepted cfg (ensureDefaultEdgeFor cfg s.built a.authority) a = true := by
  rw [accepted_iff]
  constructor
  · intro h
    obtain ⟨receipt, hw⟩ := isOk_iff.mp h
    obtain ⟨r, planned', row, hr, hplan, _⟩ := write_ok hw
    exact ⟨r, hr, planWrite_isOk_iff.mp (isOk_iff.mpr ⟨_, hplan⟩)⟩
  · rintro ⟨r, hr, ha⟩
    have hplanned : isOk (planned cfg clock a r s) = true := planWrite_isOk_iff.mpr ha
    obtain ⟨⟨receipt, row⟩, hplan⟩ := isOk_iff.mp hplanned
    rw [write_of_planned hr hplan]
    have hclear : ¬Faulty (sampled cfg a s) := by simp [Faulty, sampled, hf]
    have hclear' : ¬Faulty (inserted row (sampled cfg a s)) := by
      simp [Faulty, inserted, passFault, sampled, hf]
    rcases append_cases receipt row (sampled cfg a s) with ⟨h, _⟩ | ⟨_, _, h, _⟩ | ⟨_, _, happ⟩
    · exact absurd h hclear
    · exact absurd h hclear'
    · rw [happ]
      rfl

/-! ## Ordinary writes -/

/-- A value that both documents of a write can hold: the stored one and the canonical one. -/
structure Writable (env : Env) (v : PyVal) : Prop where
  canonical : canonical env v = true
  stored : isOk (toJson env true v) = true

theorem writable_none : Writable env .none := ⟨rfl, rfl⟩

theorem writable_str (s : String) : Writable env (.str s) := ⟨rfl, rfl⟩

theorem writable_int (n : Int) : Writable env (.int n) := ⟨rfl, rfl⟩

theorem writable_strDict {kvs : List (String × PyVal)} (hplain : PlainNames (kvs.map Prod.fst))
    (h : ∀ kv ∈ kvs, Writable env kv.2) : Writable env (strDict kvs) := by
  constructor
  · exact (canonical_strDict_iff hplain).mpr fun kv hkv => (h kv hkv).canonical
  · clear hplain
    have hitems : isOk (jsonItems env true kvs) = true := by
      induction kvs with
      | nil => rfl
      | cons kv rest ih =>
        rw [List.forall_mem_cons] at h
        obtain ⟨j, hj⟩ := isOk_iff.mp h.1.stored
        rw [jsonItems, hj]
        simpa using ih h.2
    rw [toJson_strDict, isOk_map]
    exact hitems

/-- The names that `write` looks for in the parameters of a write without effect columns. -/
def reservedNames : List String :=
  [Marker.effectAtomicity.key, "reconciliation_grade", "reconciliation_warrant_snapshot"]

theorem has_strDict {kvs : List (String × PyVal)} {name : String} (h : name ∉ kvs.map Prod.fst) :
    PyDict.has (kvs.map fun kv => (.str kv.1, kv.2)) name = false := by
  rw [PyDict.has, List.any_map, List.any_eq_false]
  intro kv hkv heq
  have hname : kv.1 = name := PyKey.str.inj (beq_iff_eq.mp heq)
  exact h (hname ▸ List.mem_map_of_mem hkv)

theorem get_strDict {kvs : List (String × PyVal)} {name : String} (h : name ∉ kvs.map Prod.fst) :
    PyDict.get (kvs.map fun kv => (.str kv.1, kv.2)) name = .none := by
  have hlookup : (kvs.map fun kv => ((.str kv.1 : PyKey), kv.2)).lookup (.str name) = none := by
    rw [List.lookup_eq_none_iff]
    intro kv hkv
    obtain ⟨kv', hkv', rfl⟩ := List.mem_map.mp hkv
    rw [bne_iff_ne]
    intro heq
    exact h (PyKey.str.inj heq ▸ List.mem_map_of_mem hkv')
  rw [PyDict.get, hlookup]
  rfl

section Unreserved

variable {kvs : List (String × PyVal)} (hreserved : ∀ name ∈ reservedNames, name ∉ kvs.map Prod.fst)

include hreserved

theorem resolveEffectSurface_strDict :
    resolveEffectSurface (strDict kvs) none = .ok (none, strDict kvs) := by
  have hderive : deriveEffectColumns (strDict kvs) = .ok none := by
    rw [strDict, deriveEffectColumns]
    simp only [get_strDict (hreserved Marker.effectAtomicity.key (by simp [reservedNames])),
      PyVal.isNone, if_true]
  simp only [resolveEffectSurface, hderive]

theorem stripReconciliation_strDict : stripReconciliation (strDict kvs) = strDict kvs := by
  rw [strDict, stripReconciliation]
  simp only [has_strDict (hreserved "reconciliation_grade" (by simp [reservedNames])),
    has_strDict (hreserved "reconciliation_warrant_snapshot" (by simp [reservedNames])),
    Bool.or_self, Bool.false_eq_true, if_false]

/-- Parameters without reserved names are stored as they are, and no column is promoted out of
    them. -/
theorem resolveWrite_strDict {a : WriteArgs} (hp : a.parameters = strDict kvs)
    (hcols : a.effectColumns = none) (hgrade : a.reconciliationGrade = none)
    (hsnapshot : a.reconciliationWarrantSnapshot = none) (hwritable : Writable env (strDict kvs)) :
    ∃ pj, resolveWrite env a = .ok ⟨none, strDict kvs, .none, .none, pj⟩ := by
  obtain ⟨j, hj⟩ := isOk_iff.mp hwritable.stored
  have hpromoted {name : String} (h : name ∉ kvs.map Prod.fst) :
      promoted (strDict kvs) name = .none := get_strDict h
  refine ⟨String.ofList (Json.render ⟨true, false⟩ j), ?_⟩
  rw [resolveWrite, hp, hcols, resolveEffectSurface_strDict hreserved]
  show (paramsJson env (stripReconciliation (strDict kvs)) >>= fun pj => _) = _
  rw [stripReconciliation_strDict hreserved, paramsJson, hj, hgrade, hsnapshot,
    hpromoted (hreserved "reconciliation_grade" (by simp [reservedNames])),
    hpromoted (hreserved "reconciliation_warrant_snapshot" (by simp [reservedNames]))]
  rfl

/-- The parameters a resolved write stores. -/
theorem resolved_strDict {a : WriteArgs} {r : Resolved} (hp : a.parameters = strDict kvs)
    (hcols : a.effectColumns = none) (hr : resolveWrite env a = .ok r) :
    r.parameters = strDict kvs := by
  obtain ⟨p, hsurface, hparams, _⟩ := resolveWrite_ok hr
  rw [hp, hcols, resolveEffectSurface_strDict hreserved] at hsurface
  obtain ⟨_, rfl⟩ := Prod.mk.inj (Except.ok.inj hsurface)
  rw [hparams, stripReconciliation_strDict hreserved]

end Unreserved

/-- Where no edge is registered, every authority has the root as its issuer. -/
theorem isOk_path_of_no_edges {cfg : Config} (hedges : cfg.edges = []) (built : List String)
    (authority : String) :
    isOk (canonicalPathFor cfg (ensureDefaultEdgeFor cfg built authority) authority >>=
      effectiveCapabilities) = true := by
  have hedge (built : List String) (subject : String) : edgeFor cfg built subject =
      if subject ∈ built then some (defaultEdge cfg.toEnv subject) else none := by
    rw [edgeFor, hedges]
    rfl
  by_cases hgov : authority = governorAuthority
  · rw [canonicalPathFor, walkPath, if_pos hgov]
    rfl
  · have hmem : authority ∈ ensureDefaultEdgeFor cfg built authority := by
      rw [ensureDefaultEdgeFor, if_neg hgov, hedge]
      by_cases hbuilt : authority ∈ built
      · rw [if_pos hbuilt]
        exact hbuilt
      · rw [if_neg hbuilt]
        exact List.mem_cons_self
    generalize ensureDefaultEdgeFor cfg built authority = graph at hmem
    have hwalk : walkPath cfg graph (cfg.edges.length + graph.length + 2) [] authority =
        .ok [defaultEdge cfg.toEnv authority] := by
      rw [walkPath, if_neg hgov, if_neg List.not_mem_nil, hedge, if_pos hmem]
      show Except.map _ (walkPath cfg graph _ [authority] governorAuthority) = _
      rw [walkPath, if_pos rfl]
      rfl
    rw [canonicalPathFor, hwalk]
    show isOk (effectiveCapabilities [defaultEdge cfg.toEnv authority]) = true
    rw [effectiveCapabilities]
    rfl

/-- A write of named values without effect columns, continuation or reconciliation. -/
theorem accepted_strDict {cfg : Config} {built : List String} {a : WriteArgs}
    {kvs : List (String × PyVal)} (hwritable : Writable cfg.toEnv (strDict kvs))
    (hp : a.parameters = strDict kvs) (hcols : a.effectColumns = none)
    (hreserved : ∀ name ∈ reservedNames, name ∉ kvs.map Prod.fst)
    (hgrade : a.reconciliationGrade = none) (hsnapshot : a.reconciliationWarrantSnapshot = none)
    (hcontinuation : a.continuation = none) (hsurfaces : isOk (surfaces cfg.toEnv a) = true)
    (hpath : isOk (canonicalPathFor cfg built a.authority >>= effectiveCapabilities) = true) :
    accepted cfg built a = true := by
  obtain ⟨pj, hr⟩ := resolveWrite_strDict hreserved hp hcols hgrade hsnapshot hwritable
  obtain ⟨s, hs⟩ := isOk_iff.mp hsurfaces
  have hstate : isOk (hS cfg.toEnv a.op (strDict kvs)) = true :=
    isOk_hS_iff.mpr ⟨⟨_, rfl⟩, hwritable.canonical⟩
  have hempty : s.continuation = {} := by
    obtain ⟨outcome, _, hs⟩ := Except.bind_eq_ok hs
    obtain ⟨capability, _, hs⟩ := Except.bind_eq_ok hs
    obtain ⟨continuation, hcont, hs⟩ := Except.bind_eq_ok hs
    obtain ⟨bridge, _, hs⟩ := Except.bind_eq_ok hs
    obtain rfl := Except.ok.inj hs
    rw [continuationSurface, hcontinuation] at hcont
    exact (Except.ok.inj hcont).symm
  refine accepted_iff.mpr ⟨_, hr, ?_⟩
  rw [acceptable, hpath, hstate, hs]
  simp only [Bool.true_and, openColumns, hempty]
  rfl

/-! ## Writes without optional surfaces -/

/-- A write without a committed outcome, a continuation, a bridge or a typed reconciliation. -/
structure Ordinary (a : WriteArgs) : Prop where
  outcome : a.commitsOutcome = false
  continuation : a.continuation = none
  bridge : a.bridge = none
  grade : a.reconciliationGrade = none
  snapshot : a.reconciliationWarrantSnapshot = none

theorem Ordinary.surfaces {a : WriteArgs} (h : Ordinary a) :
    surfaces env a = .ok ⟨none, none, {}, {}⟩ := by
  have hcapability : a.commitCapabilityEvidence = false := by
    have hout := h.outcome
    rw [WriteArgs.commitsOutcome, Bool.or_eq_false_iff] at hout
    exact hout.2
  rw [Store.surfaces, outcomeSurface, h.outcome, capabilitySurface, hcapability, continuationSurface,
    h.continuation, bridgeSurface, h.bridge]
  rfl

/-- Which ordinary writes the store accepts. -/
theorem accepted_ordinary_iff {cfg : Config} {built : List String} {a : WriteArgs}
    (h : Ordinary a) : accepted cfg built a = true ↔
      isOk (canonicalPathFor cfg built a.authority >>= effectiveCapabilities) = true ∧
      ∃ cols p, resolveEffectSurface a.parameters a.effectColumns = .ok (cols, p) ∧
        (∃ d, p = .dict d) ∧ Writable cfg.toEnv (stripReconciliation p) ∧
        (∀ c, cols = some c → ∀ m, storable cfg.toEnv (c m) = true) ∧
        storable cfg.toEnv (promoted a.parameters "reconciliation_grade") = true ∧
        storable cfg.toEnv (promoted a.parameters "reconciliation_warrant_snapshot") = true := by
  have hdict (p : PyVal) : (∃ d, stripReconciliation p = .dict d) ↔ ∃ d, p = .dict d := by
    cases p with
    | dict d =>
      rw [stripReconciliation]
      split <;> simp
    | _ => rfl
  have hopen {r : Resolved} : (openColumns r ⟨none, none, {}, {}⟩).all (storable cfg.toEnv) = true ↔
      (∀ c, r.effect = some c → ∀ m, storable cfg.toEnv (c m) = true) ∧
        storable cfg.toEnv r.grade = true ∧ storable cfg.toEnv r.snapshot = true := by
    have heffect : (∀ c, r.effect = some c → ∀ m, storable cfg.toEnv (c m) = true) ↔
        ∀ m, storable cfg.toEnv (r.effectValue m) = true := by
      unfold Resolved.effectValue
      cases r.effect with
      | none => simp [storable, bindable]
      | some c => simp
    rw [heffect, openColumns, List.all_append, Bool.and_eq_true, List.all_map, List.all_eq_true]
    constructor
    · rintro ⟨hm, hrest⟩
      simp only [List.all_cons, Bool.and_eq_true] at hrest
      exact ⟨fun m => hm m (Marker.mem_all m), hrest.1, hrest.2.1⟩
    · rintro ⟨hm, hg, hs⟩
      refine ⟨fun m _ => hm m, ?_⟩
      simp only [List.all_cons, List.all_nil, hg, hs]
      rfl
  rw [accepted_iff]
  constructor
  · rintro ⟨r, hr, ha⟩
    obtain ⟨p, hp, hparams, hpj, hgrade, hsnapshot⟩ := resolveWrite_ok hr
    rw [acceptable, h.surfaces, Bool.and_eq_true, Bool.and_eq_true, isOk_hS_iff, hopen, hparams] at ha
    obtain ⟨⟨hpath, hd, hcanonical⟩, hm, hg, hs⟩ := ha
    rw [hgrade, h.grade] at hg
    rw [hsnapshot, h.snapshot] at hs
    have hstored : isOk (toJson cfg.toEnv true (stripReconciliation p)) = true := by
      obtain ⟨j, hj, _⟩ := paramsJson_ok (hparams ▸ hpj)
      rw [hj]
      rfl
    exact ⟨hpath, r.effect, p, hp, (hdict p).mp hd, ⟨hcanonical, hstored⟩, hm, hg, hs⟩
  · rintro ⟨hpath, cols, p, hp, hd, hwritable, hm, hg, hs⟩
    obtain ⟨j, hj⟩ := isOk_iff.mp hwritable.stored
    have hpj : paramsJson cfg.toEnv (stripReconciliation p) =
        .ok (String.ofList (Json.render ⟨true, false⟩ j)) := by
      rw [paramsJson, hj]
      rfl
    have hpromoted {k : String} (hk : isMarkerKey (.str k) = false) :
        promoted p k = promoted a.parameters k := promoted_resolveEffectSurface hk hp
    refine ⟨⟨cols, stripReconciliation p, promoted p "reconciliation_grade",
      promoted p "reconciliation_warrant_snapshot", String.ofList (Json.render ⟨true, false⟩ j)⟩,
      ?_, ?_⟩
    · rw [resolveWrite, hp]
      show (paramsJson cfg.toEnv (stripReconciliation p) >>= fun pj => _) = _
      rw [hpj, h.grade, h.snapshot]
      rfl
    · rw [acceptable, h.surfaces, Bool.and_eq_true, Bool.and_eq_true, isOk_hS_iff, hopen]
      refine ⟨⟨hpath, (hdict p).mpr hd, hwritable.canonical⟩, hm, ?_, ?_⟩
      · exact (congrArg _ (hpromoted (by decide))).trans hg
      · exact (congrArg _ (hpromoted (by decide))).trans hs

end Ugk
