import Ugk.Spec.Body
import Ugk.Spec.Write

/-!
# Reading a written row back

A row holds text where the receipt held Python values.  Columns that were `None` or a string come
back unchanged; the parameters come back through JSON, the four compressible columns through the
legend.

## Key results

- `planWrite_ok`: the parts a planned receipt is made of
- `isText_continuation`, `isText_bridge`: validated surfaces hold text
- `rowToReceipt_rowOfReceipt`: the receipt a row of text columns reads back as
-/

namespace Ugk

variable {env : Env}

/-! ## Text columns -/

/-- A column value that is `None` or a string. -/
def IsText : PyVal → Prop
  | .none => True
  | .str _ => True
  | _ => False

instance : DecidablePred IsText := fun v => by
  cases v <;> unfold IsText <;> infer_instance

@[simp] theorem isText_none : IsText .none := trivial

@[simp] theorem isText_str (s : String) : IsText (.str s) := trivial

@[simp] theorem isText_ofOpt (o : Option String) : IsText (.ofOpt o) := by
  cases o <;> trivial

/-- A text column reads back as the value it was written from. -/
theorem ofOpt_columnText {v : PyVal} (h : IsText v) : PyVal.ofOpt (columnText env v) = v := by
  cases v with
  | none => rfl
  | str s => rfl
  | _ => exact absurd h id

theorem bindable_of_isText {v : PyVal} (h : IsText v) : bindable v = true := by
  cases v with
  | none => rfl
  | str s => rfl
  | _ => exact absurd h id

theorem isText_of_isStr {v : PyVal} {s : String} (h : v.isStr s = true) : IsText v := by
  rw [isStr_iff.mp h]
  trivial

/-- A member of a closed string domain is a string. -/
theorem isText_of_memberOf {dom : List String} {v : PyVal} (h : v.memberOf dom = .ok true) :
    IsText v := by
  rw [PyVal.memberOf] at h
  split at h
  · exact nomatch h
  · obtain ⟨s, _, hs⟩ := List.any_eq_true.mp (Except.ok.inj h)
    exact isText_of_isStr hs

/-- Every column of a receipt is text. -/
def TextColumns (n : Nullable PyVal) : Prop := ∀ v ∈ n.toList, IsText v

theorem TextColumns.readBack {n : Nullable PyVal} (h : TextColumns n) :
    (n.map (columnText env)).map PyVal.ofOpt = n := by
  simp only [TextColumns, Nullable.toList, List.forall_mem_cons] at h
  simp only [Nullable.map]
  simp only [ofOpt_columnText, h]

theorem TextColumns.bindable {n : Nullable PyVal} (h : TextColumns n) :
    n.toList.all bindable = true :=
  List.all_eq_true.mpr fun v hv => bindable_of_isText (h v hv)

/-! ## JSON of the parameters -/

theorem paramsJson_ok {v : PyVal} {pj : String} (h : paramsJson env v = .ok pj) :
    ∃ j, toJson env true v = .ok j ∧ pj = String.ofList (Json.render ⟨true, false⟩ j) := by
  obtain ⟨j, hj, hpj⟩ := Except.map_eq_ok h
  exact ⟨j, hj, hpj.symm⟩

/-- What the stored parameters read back as. -/
theorem loads_paramsJson {pj : String} {j : Json}
    (hpj : pj = String.ofList (Json.render ⟨true, false⟩ j)) :
    loads env pj = .ok (ofJson env j) := by
  rw [loads, hpj, String.toList_ofList, Json.parse_render]

/-- A dictionary reads back as a dictionary. -/
theorem loads_paramsJson_dict {d : PyDict} {pj : String} (h : paramsJson env (.dict d) = .ok pj) :
    ∃ d', loads env pj = .ok (.dict d') := by
  obtain ⟨j, hj, hpj⟩ := paramsJson_ok h
  rw [loads_paramsJson hpj]
  rw [toJson] at hj
  split at hj
  · obtain ⟨items, _, rfl⟩ := Except.map_eq_ok hj
    exact ⟨_, rfl⟩
  · cases hj

/-! ## The parts of a plan -/

namespace Store

/-- The steps of a receipt. -/
theorem planReceipt_ok {cfg : Config} {built : List String} {tip : Tip} {time : FloatLit}
    {a : WriteArgs} {r : Resolved} {receipt : Receipt}
    (h : planReceipt cfg built tip time a r = .ok receipt) :
    ∃ c s hBody trace,
      commitments cfg built tip a r.parameters = .ok c ∧ surfaces cfg.toEnv a = .ok s ∧
      computeHBody cfg.toEnv (draft tip time a c r s) = .ok hBody ∧
      traceVector cfg s (finish (draft tip time a c r s) hBody .none) = .ok trace ∧
      receipt = finish (draft tip time a c r s) hBody trace := by
  obtain ⟨c, hc, h⟩ := Except.bind_eq_ok h
  obtain ⟨s, hs, h⟩ := Except.bind_eq_ok h
  obtain ⟨hBody, hb, h⟩ := Except.bind_eq_ok h
  obtain ⟨trace, ht, h⟩ := Except.bind_eq_ok h
  exact ⟨c, s, hBody, trace, hc, hs, hb, ht, (Except.ok.inj h).symm⟩

/-- A planned receipt is its draft, its body hash and its trace vector. -/
theorem planWrite_ok {cfg : Config} {built : List String} {tip : Tip} {time : FloatLit}
    {a : WriteArgs} {r : Resolved} {receipt : Receipt} {row : Row}
    (h : planWrite cfg built tip time a r = .ok (receipt, row)) :
    ∃ c s hBody trace,
      commitments cfg built tip a r.parameters = .ok c ∧ surfaces cfg.toEnv a = .ok s ∧
      computeHBody cfg.toEnv (draft tip time a c r s) = .ok hBody ∧
      traceVector cfg s (finish (draft tip time a c r s) hBody .none) = .ok trace ∧
      receipt = finish (draft tip time a c r s) hBody trace ∧
      rowOfReceipt cfg.toEnv a.compress r.parametersJson receipt = .ok row := by
  obtain ⟨receipt', hplan, h⟩ := Except.bind_eq_ok h
  obtain ⟨row', hrow, h⟩ := Except.bind_eq_ok h
  obtain ⟨rfl, rfl⟩ := Prod.mk.inj (Except.ok.inj h)
  obtain ⟨c, s, hBody, trace, hc, hs, hb, ht, hreceipt⟩ := planReceipt_ok hplan
  exact ⟨c, s, hBody, trace, hc, hs, hb, ht, hreceipt, hrow⟩

/-- The steps of a commitment computation. -/
theorem commitments_ok {cfg : Config} {built : List String} {tip : Tip} {a : WriteArgs}
    {parameters : PyVal} {c : Commitments} (h : commitments cfg built tip a parameters = .ok c) :
    ∃ path caps, canonicalPathFor cfg built a.authority = .ok path ∧
      hS cfg.toEnv a.op parameters = .ok c.hS ∧
      hC cfg.toEnv (path.map AuthorityEdge.toCanonicalDict) (lookupPolicyId cfg a.jurisdiction) caps
        (if a.warrantId = "" then [] else [a.warrantId]) tip.priorHR
        (buildFreshnessClaimFromEpoch (defaultEpoch cfg.toEnv (idPhi0 cfg.toEnv))) = .ok c.hC ∧
      hM cfg.toEnv a.intentText a.intentRef a.legendHash
        (lineageDicts tip.priorHM tip.priorIntentRef) (idSigma0 cfg.toEnv) = .ok c.hM ∧
      hJ cfg.toEnv (idPhi0 cfg.toEnv) (mosaicRootPhi0 cfg.toEnv) a.sessionDkn
        (lookupAuthorityKey cfg a.authority) = .ok c.hJ ∧
      computeHR cfg.toEnv (strictLeaves c.hS c.hC c.hM c.hJ
        (hIdP cfg.toEnv (lookupPolicyId cfg a.jurisdiction))
        (hIdSigma cfg.toEnv (idSigma0 cfg.toEnv)) (hIdPhi cfg.toEnv (idPhi0 cfg.toEnv))) =
          .ok c.hR := by
  obtain ⟨path, hpath, h⟩ := Except.bind_eq_ok h
  obtain ⟨caps, _, h⟩ := Except.bind_eq_ok h
  obtain ⟨hs, hhs, h⟩ := Except.bind_eq_ok h
  obtain ⟨hc, hhc, h⟩ := Except.bind_eq_ok h
  obtain ⟨hm, hhm, h⟩ := Except.bind_eq_ok h
  obtain ⟨hj, hhj, h⟩ := Except.bind_eq_ok h
  obtain ⟨hr, hhr, h⟩ := Except.bind_eq_ok h
  obtain rfl := Except.ok.inj h
  exact ⟨path, caps, hpath, hhs, hhc, hhm, hhj, hhr⟩

/-- The state commitment of a plan is the one of its operation and parameters. -/
theorem commitments_hS {cfg : Config} {built : List String} {tip : Tip} {a : WriteArgs}
    {parameters : PyVal} {c : Commitments} (h : commitments cfg built tip a parameters = .ok c) :
    hS cfg.toEnv a.op parameters = .ok c.hS := by
  obtain ⟨_, _, _, hs, _⟩ := commitments_ok h
  exact hs

/-- The trace vector column is text. -/
theorem isText_traceVector {cfg : Config} {s : Surfaces} {r : Receipt} {trace : PyVal}
    (h : traceVector cfg s r = .ok trace) : IsText trace := by
  rw [traceVector] at h
  split at h
  · split at h
    · obtain ⟨d, _, rfl⟩ := Except.map_eq_ok h
      trivial
    · cases h; trivial
  · cases h; trivial

theorem isText_canonEb {v w : PyVal} (h : canonEb env v = .ok w) : IsText w := by
  rw [canonEb] at h
  split at h
  · cases h; trivial
  · obtain ⟨s, _, rfl⟩ := Except.map_eq_ok h
    trivial

theorem isText_continuationAuthorityText {v w : PyVal}
    (h : continuationAuthorityText env v = .ok w) : IsText w := by
  cases v with
  | str a => rw [← Except.ok.inj h]; trivial
  | _ => exact isText_canonEb h

theorem isText_continuationIdOf {c : PyDict} {w : PyVal} (h : continuationIdOf env c = .ok w) :
    IsText w := by
  rw [continuationIdOf] at h
  split at h
  · split at h
    · exact nomatch h
    · split at h
      · exact nomatch h
      · cases h; trivial
  · split at h
    · split at h
      · exact nomatch h
      · cases h; trivial
    · exact nomatch h

/-- The lifecycle marker of a record that passes the shape check is a string. -/
theorem isText_state_of_shape {c : PyDict} (h : validateContinuationShape c = .ok ()) :
    IsText (PyDict.get c "state") := by
  rw [validateContinuationShape] at h
  split at h
  · exact nomatch h
  · exact nomatch h
  · rename_i hmem
    exact isText_of_memberOf hmem

end Store

/-- Every column of a validated continuation but the jurisdiction is text. -/
structure TextContinuation (c : ContinuationColumns) : Prop where
  id : IsText c.id
  op : IsText c.op
  authority : IsText c.authority
  parameters : IsText c.parameters
  expiryBasis : IsText c.expiryBasis
  state : IsText c.state
  modelId : IsText c.modelId

/-- Every column of a validated bridge record is text. -/
structure TextBridge (b : BridgeColumns) : Prop where
  recordId : IsText b.recordId
  sourceRegimeRef : IsText b.sourceRegimeRef
  targetRegimeRef : IsText b.targetRegimeRef
  transformationRef : IsText b.transformationRef
  downgradeReason : IsText b.downgradeReason
  preservedEvidenceRef : IsText b.preservedEvidenceRef

namespace Store

theorem validateContinuation_ok {c : PyVal} {cols : ContinuationColumns}
    (h : validateContinuation env c = .ok cols) :
    TextContinuation cols ∧ ∃ d, c = .dict d ∧ cols.jurisdiction = PyDict.get d "jurisdiction" := by
  cases c with
  | dict d =>
    obtain ⟨⟨⟩, hshape, h⟩ := Except.bind_eq_ok h
    split at h
    · split at h
      · exact nomatch h
      · obtain ⟨cid, hcid, h⟩ := Except.bind_eq_ok h
        obtain ⟨expiry, hexp, h⟩ := Except.bind_eq_ok h
        obtain ⟨authority, hauth, h⟩ := Except.bind_eq_ok h
        obtain ⟨parameters, hpar, h⟩ := Except.bind_eq_ok h
        obtain rfl := Except.ok.inj h
        exact ⟨⟨isText_continuationIdOf hcid, trivial, isText_continuationAuthorityText hauth,
          isText_canonEb hpar, isText_canonEb hexp, isText_state_of_shape hshape, trivial⟩,
          d, rfl, rfl⟩
    · exact nomatch h
  | _ => exact nomatch h

theorem isText_of_nonEmptyStr {v : PyVal} (h : nonEmptyStr v = true) : IsText v := by
  cases v with
  | str s => trivial
  | _ => exact absurd h (by simp [nonEmptyStr])

theorem validateBridgeRecord_ok {b : PyVal} {cols : BridgeColumns}
    (h : validateBridgeRecord b = .ok cols) : TextBridge cols := by
  cases b with
  | dict d =>
    rw [validateBridgeRecord] at h
    split at h
    · exact nomatch h
    rename_i hid
    split at h
    · exact nomatch h
    rename_i hrefs
    split at h
    · exact nomatch h
    · exact nomatch h
    rename_i hdown
    obtain rfl := Except.ok.inj h
    have href (k : String) (hk : k ∈ bridgeRequiredRefs) : IsText (PyDict.get d k) := by
      have hall := List.all_eq_true.mp (by simpa using hrefs)
      exact isText_of_nonEmptyStr (hall k hk)
    exact ⟨isText_of_nonEmptyStr (by simpa using hid), href _ (by decide), href _ (by decide),
      href _ (by decide), isText_of_memberOf hdown, href _ (by decide)⟩
  | _ => exact nomatch h

/-- The optional surfaces of a write hold text, the continuation's jurisdiction apart. -/
theorem surfaces_ok {a : WriteArgs} {s : Surfaces} (h : surfaces env a = .ok s) :
    TextContinuation s.continuation ∧ TextBridge s.bridge ∧
      (s.continuation.jurisdiction = .none ∨
        ∃ d, a.continuation = some (.dict d) ∧
          s.continuation.jurisdiction = PyDict.get d "jurisdiction") := by
  obtain ⟨outcome, _, h⟩ := Except.bind_eq_ok h
  obtain ⟨capability, _, h⟩ := Except.bind_eq_ok h
  obtain ⟨continuation, hcont, h⟩ := Except.bind_eq_ok h
  obtain ⟨bridge, hbridge, h⟩ := Except.bind_eq_ok h
  obtain rfl := Except.ok.inj h
  refine ⟨?_, ?_, ?_⟩
  · rw [continuationSurface] at hcont
    split at hcont
    · rw [← Except.ok.inj hcont]
      exact ⟨trivial, trivial, trivial, trivial, trivial, trivial, trivial⟩
    · exact (validateContinuation_ok hcont).1
  · rw [bridgeSurface] at hbridge
    split at hbridge
    · rw [← Except.ok.inj hbridge]
      exact ⟨trivial, trivial, trivial, trivial, trivial, trivial⟩
    · exact validateBridgeRecord_ok hbridge
  · rw [continuationSurface] at hcont
    split at hcont
    · rw [← Except.ok.inj hcont]
      exact .inl rfl
    · rename_i heq
      obtain ⟨d, rfl, hd⟩ := (validateContinuation_ok hcont).2
      exact .inr ⟨d, heq, hd⟩

end Store

open Store

/-! ## Resolving a write -/

theorem PyDict.lookup_filter {d : PyDict} {k : PyKey} {p : PyKey × PyVal → Bool}
    (hp : ∀ v, p (k, v) = true) : (d.filter p).lookup k = d.lookup k := by
  induction d with
  | nil => rfl
  | cons kv rest ih =>
    obtain ⟨key, v⟩ := kv
    by_cases hk : key = k
    · subst hk
      rw [List.filter_cons_of_pos (hp v), List.lookup_cons_self, List.lookup_cons_self]
    · have hne : (k == key) = false := beq_eq_false_iff_ne.mpr (Ne.symm hk)
      cases hkeep : p (key, v)
      · rw [List.filter_cons_of_neg (by simp [hkeep]), ih, List.lookup_cons, hne]
      · rw [List.filter_cons_of_pos hkeep, List.lookup_cons, List.lookup_cons, hne]
        exact ih

theorem PyDict.get_filter {d : PyDict} {k : String} {p : PyKey × PyVal → Bool}
    (hp : ∀ v, p (.str k, v) = true) : PyDict.get (d.filter p) k = PyDict.get d k :=
  congrArg (fun v => v.getD .none) (PyDict.lookup_filter hp)

/-- Resolving the effect surface does not touch what is promoted later. -/
theorem promoted_resolveEffectSurface {parameters p : PyVal} {cols : Option EffectColumns}
    {columns : Option EffectDescriptor} {k : String} (hk : isMarkerKey (.str k) = false)
    (h : resolveEffectSurface parameters columns = .ok (cols, p)) :
    promoted p k = promoted parameters k := by
  have hstrip (d : PyDict) : PyDict.get (stripMarkers d) k = PyDict.get d k :=
    PyDict.get_filter fun v => by rw [hk]; rfl
  cases columns with
  | none =>
    simp only [resolveEffectSurface] at h
    split at h
    · exact nomatch h
    · rw [← (Prod.mk.inj (Except.ok.inj h)).2]
    · rw [← (Prod.mk.inj (Except.ok.inj h)).2]
      exact hstrip _
  | some columns =>
    simp only [resolveEffectSurface] at h
    split at h
    · rw [← (Prod.mk.inj (Except.ok.inj h)).2]
    · split_ifs at h
      rw [← (Prod.mk.inj (Except.ok.inj h)).2]
      exact hstrip _

theorem resolveWrite_ok {a : WriteArgs} {r : Resolved} (h : resolveWrite env a = .ok r) :
    ∃ p, resolveEffectSurface a.parameters a.effectColumns = .ok (r.effect, p) ∧
      r.parameters = stripReconciliation p ∧
      paramsJson env r.parameters = .ok r.parametersJson ∧
      r.grade = typedOr a.reconciliationGrade (promoted a.parameters "reconciliation_grade") ∧
      r.snapshot = typedOr a.reconciliationWarrantSnapshot
        (promoted a.parameters "reconciliation_warrant_snapshot") := by
  obtain ⟨⟨cols, p⟩, hres, h⟩ := Except.bind_eq_ok h
  obtain ⟨pj, hpj, h⟩ := Except.bind_eq_ok h
  obtain rfl := Except.ok.inj h
  refine ⟨p, hres, rfl, hpj, ?_, ?_⟩
  · exact congrArg (typedOr _) (promoted_resolveEffectSurface (by decide) hres)
  · exact congrArg (typedOr _) (promoted_resolveEffectSurface (by decide) hres)

/-- A committed state was hashed from a dictionary. -/
theorem dict_of_hS {op : String} {inputs : PyVal} {d : Digest} (h : hS env op inputs = .ok d) :
    ∃ kvs, inputs = .dict kvs := by
  obtain ⟨c, hc, _⟩ := Except.map_eq_ok h
  cases inputs with
  | dict kvs => exact ⟨kvs, rfl⟩
  | _ => exact nomatch hc

/-! ## Rows -/

theorem rowOfReceipt_ok {compress : Bool} {pj : String} {r : Receipt} {row : Row}
    (h : rowOfReceipt env compress pj r = .ok row) :
    r.toNullable.toList.all bindable = true ∧
      row = { r.toNullable.map (columnText env) with
        receiptId := r.receiptId
        op := storeField compress .op r.op
        authority := r.authority
        parameters := pj
        intent := storeField compress .intent r.intent
        jurisdiction := storeField compress .jurisdiction r.jurisdiction
        confidence := storeField compress .confidence r.confidence
        timestamp := r.timestamp
        failed := if r.failed then 1 else 0
        sessionDkn := r.sessionDkn
        lawHash := r.lawHash
        legendHash := r.legendHash
        warrantId := r.warrantId
        intentRef := r.intentRef
        hS := r.hS
        hC := r.hC
        hM := r.hM
        hR := r.hR
        parentHR := r.parentHR
        mode := r.mode
        version := r.version
        idCS := r.idCS
        idCC := r.idCC
        idCM := r.idCM
        idCJ := r.idCJ
        hBody := r.hBody } := by
  rw [rowOfReceipt] at h
  split at h
  · rename_i hb
    exact ⟨hb, (Except.ok.inj h).symm⟩
  · exact nomatch h

/-- The four compressible columns, as stored, read back as the values they were written from. -/
structure LegendSafe (env : Env) (compress : Bool) (r : Receipt) : Prop where
  op : expand env (storeField compress .op r.op) = r.op
  intent : expand env (storeField compress .intent r.intent) = r.intent
  jurisdiction : expand env (storeField compress .jurisdiction r.jurisdiction) = r.jurisdiction
  confidence : expand env (storeField compress .confidence r.confidence) = r.confidence

/-- The constants of a written receipt that reading defaults could replace. -/
structure Stamped (r : Receipt) : Prop where
  mode : r.mode ≠ ""
  version : r.version ≠ 0
  idCS : r.idCS ≠ ""
  idCC : r.idCC ≠ ""
  idCM : r.idCM ≠ ""
  idCJ : r.idCJ ≠ ""

/-- What the row of a receipt reads back as: the legend expands four fields, the nullable columns
    hold text, and the parameters are what their JSON loads as. -/
def Receipt.stored (env : Env) (compress : Bool) (id : Nat) (q : PyVal) (r : Receipt) : Receipt :=
  { r with
    toNullable := r.toNullable.map fun v => .ofOpt (columnText env v)
    receiptId := id
    op := expand env (storeField compress .op r.op)
    parameters := q
    intent := expand env (storeField compress .intent r.intent)
    jurisdiction := expand env (storeField compress .jurisdiction r.jurisdiction)
    confidence := expand env (storeField compress .confidence r.confidence) }

theorem rowToReceipt_stored {compress : Bool} {pj : String} {r : Receipt} {row : Row} {q : PyVal}
    (id : Nat) (h : rowOfReceipt env compress pj r = .ok row) (hst : Stamped r)
    (hq : loads env pj = .ok q) :
    rowToReceipt env { row with receiptId := id } = .ok (r.stored env compress id q) := by
  obtain ⟨_, rfl⟩ := rowOfReceipt_ok h
  have hfailed : ((if r.failed then (1 : Int) else 0) != 0) = r.failed := by
    cases r.failed <;> rfl
  simp only [rowToReceipt, hq, Except.map, Receipt.stored, Nullable.map, orText, hst.mode, hst.idCS,
    hst.idCC, hst.idCM, hst.idCJ, hst.version, if_false, hfailed]

/-- A row of text columns with legible fields reads back as the receipt it was written from, the
    parameters aside. -/
theorem rowToReceipt_rowOfReceipt {compress : Bool} {pj : String} {r : Receipt} {row : Row}
    {q : PyVal} (id : Nat) (h : rowOfReceipt env compress pj r = .ok row)
    (htext : TextColumns r.toNullable) (hlegend : LegendSafe env compress r) (hst : Stamped r)
    (hq : loads env pj = .ok q) :
    rowToReceipt env { row with receiptId := id } =
      .ok { r with receiptId := id, parameters := q } := by
  rw [rowToReceipt_stored id h hst hq, Receipt.stored, hlegend.op, hlegend.intent,
    hlegend.jurisdiction, hlegend.confidence]
  have hcols : r.toNullable.map (fun v => PyVal.ofOpt (columnText env v)) = r.toNullable :=
    htext.readBack
  rw [hcols]

end Ugk
