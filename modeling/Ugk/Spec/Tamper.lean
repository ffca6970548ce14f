import Ugk.Spec.HonestChain

/-!
# Tampering with one stored row

The verdict on a chain with one row replaced is the verdict on the new row.  That row is reported
exactly when it can be recomputed and something the recomputation reads has a different canonical
document.  The reconciliation grade and snapshot are not read, nor is the bridge surface of a
version 7 row.

## Key results

- `verifyReceiptBodies_set`: the verdict on a chain with one row replaced
- `tampered_row_reported_iff`: exactly which replacements are reported
- `planted_grade_not_reported`: a grade planted in a row of a verified chain is not reported
-/

namespace Ugk

open Store

variable {env : Env}

/-! ## One row replaced -/

theorem mapM_set {α β : Type} {f : α → Except Exc β} {xs : List α} {ys : List β}
    (h : xs.mapM f = .ok ys) (i : Nat) (x : α) (hi : i < xs.length) :
    (xs.set i x).mapM f = (f x).map fun y => ys.set i y := by
  induction xs generalizing ys i with
  | nil => exact absurd hi (by simp)
  | cons a xs ih =>
    rw [List.mapM_cons] at h
    obtain ⟨b, hb, h⟩ := Except.bind_eq_ok h
    obtain ⟨bs, hbs, h⟩ := Except.bind_eq_ok h
    obtain rfl := Except.ok.inj h
    cases i with
    | zero =>
      rw [List.set_cons_zero, List.mapM_cons, hbs]
      cases f x <;> rfl
    | succ i =>
      rw [List.set_cons_succ, List.mapM_cons, hb, ih hbs i (by simpa using hi)]
      cases f x <;> rfl

/-- When all other receipts verify, the verdict is the one on the replaced receipt. -/
theorem verifyReceipts_set {receipts : List Receipt}
    (h : ∀ r ∈ receipts, verifyReceipt env r = .ok true) (i : Nat) (r : Receipt)
    (hi : i < receipts.length) : verifyReceipts env (receipts.set i r) = verifyReceipt env r := by
  induction receipts generalizing i with
  | nil => exact absurd hi (by simp)
  | cons a rest ih =>
    rw [List.forall_mem_cons] at h
    cases i with
    | zero =>
      rw [List.set_cons_zero, verifyReceipts, (verifyReceipts_iff rest).mpr h.2]
      cases verifyReceipt env r with
      | error e => rfl
      | ok b => cases b <;> rfl
    | succ i =>
      rw [List.set_cons_succ, verifyReceipts, h.1]
      exact ih h.2 i (by simpa using hi)

/-- The verdict on a verified chain with one row replaced is the verdict on the new row. -/
theorem verifyReceiptBodies_set {rows : List Row} {receipts : List Receipt}
    (h : VerifiedRows env rows receipts) (i : Nat) (row : Row) (hi : i < rows.length) :
    verifyReceiptBodies env (rows.set i row) = rowToReceipt env row >>= verifyReceipt env := by
  have hlen : i < receipts.length := by
    rw [length_of_mapM h.read]
    exact hi
  rw [verifyReceiptBodies, allReceipts, mapM_set h.read i row hi]
  cases rowToReceipt env row with
  | error e => rfl
  | ok r =>
    have hne : (receipts.set i r).isEmpty = false := by
      cases receipts with
      | nil => exact absurd hlen (by simp)
      | cons a rest => cases i <;> rfl
    have hall : afterCheckpoint (receipts.set i r) none = some (genesis, receipts.set i r) := by
      simp only [afterCheckpoint]
    simp only [Except.map, bind, Except.bind, hne, hall, verifyReceipts_set h.bodies i r hlen]
    rfl

/-! ## What the recomputation reads -/

/-- The recomputed body of a replacement differs from the one of the receipt it replaces. -/
def Differs (env : Env) (r r' : Receipt) : Prop :=
  bodyTag r'.version ≠ bodyTag r.version ∨ r'.hS ≠ r.hS ∨
    ∃ name, ¬SameDoc env (fieldValue (verifiedBody r').bodyFields name)
      (fieldValue (verifiedBody r).bodyFields name)

/-- The stored state commitment is not the one of the stored operation and parameters. -/
def StateMismatch (env : Env) (r : Receipt) : Prop :=
  r.hS ≠ "" ∧ ∃ d, hS env r.op r.parameters = .ok d ∧ d.hex ≠ r.hS

/-- Recomputing a receipt does not raise: its parameters have a state commitment, and its body has
    a canonical document unless the state commitment has already failed. -/
def Hashable (env : Env) (r : Receipt) : Prop :=
  (r.hS = "" ∨ isOk (hS env r.op r.parameters) = true) ∧
    (StateMismatch env r ∨ isOk (computeHBody env (verifiedBody r)) = true)

theorem sameFields_of_fieldValue {as bs : List (String × PyVal)}
    (hnames : as.map Prod.fst = bs.map Prod.fst) (hnodup : (as.map Prod.fst).Nodup)
    (h : ∀ name, SameDoc env (fieldValue as name) (fieldValue bs name)) : SameFields env as bs := by
  induction as generalizing bs with
  | nil =>
    cases bs with
    | nil => exact .nil
    | cons b bs => exact absurd hnames (by simp)
  | cons a as ih =>
    cases bs with
    | nil => exact absurd hnames (by simp)
    | cons b bs =>
      simp only [List.map_cons, List.cons.injEq, List.nodup_cons] at hnames hnodup
      refine .cons ⟨hnames.1, ?_⟩ (ih hnames.2 hnodup.2 fun name => ?_)
      · have := h a.1
        rwa [fieldValue, fieldValue, List.lookup_cons, List.lookup_cons, hnames.1,
          beq_self_eq_true] at this
      · by_cases hname : name = a.1
        · -- the name is not repeated, so it is missing from both tails
          have hmiss {l : List (String × PyVal)} (hl : a.1 ∉ l.map Prod.fst) :
              fieldValue l a.1 = .none := by
            rw [fieldValue, List.lookup_eq_none_iff.mpr]
            · rfl
            · intro p hp
              exact bne_iff_ne.mpr fun heq => hl (heq ▸ List.mem_map_of_mem hp)
          rw [hname, hmiss hnodup.1, hmiss (hnames.2 ▸ hnodup.1)]
          exact SameDoc.rfl
        · have := h name
          have hne : (name == a.1) = false := beq_eq_false_iff_ne.mpr hname
          rwa [fieldValue, fieldValue, List.lookup_cons, List.lookup_cons, ← hnames.1, hne] at this

/-- Receipts that do not differ have the same recomputed fields. -/
theorem sameFields_of_not_differs {r r' : Receipt} (h : ¬Differs env r r') :
    bodyTag r'.version = bodyTag r.version ∧ r'.hS = r.hS ∧
      SameFields env (verifiedBody r').bodyFields (verifiedBody r).bodyFields := by
  simp only [Differs, not_or, not_not, not_exists] at h
  exact ⟨h.1, h.2.1, sameFields_of_fieldValue (names_bodyFields_eq h.1)
    (Receipt.plainNames_bodyFields _).1 h.2.2⟩

/-- The operation and the parameters are fields of every recomputed body. -/
theorem sameDoc_state {r r' : Receipt}
    (h : SameFields env (verifiedBody r').bodyFields (verifiedBody r).bodyFields) :
    SameDoc env (.str r'.op) (.str r.op) ∧ SameDoc env r'.parameters r.parameters ∧
      SameDoc env (.str r'.hS) (.str r.hS) :=
  ⟨h.fieldValue "op", h.fieldValue "parameters", h.fieldValue "h_s"⟩

/-- Dictionaries alone have object documents. -/
theorem dict_of_sameDoc {v : PyVal} {d : PyDict} (hc : canonical env (.dict d) = true)
    (h : SameDoc env v (.dict d)) : ∃ d', v = .dict d' := by
  obtain ⟨j, hj⟩ := isOk_iff.mp hc
  have hobj : ∃ ms, j = .obj ms := by
    rw [canonicalDoc, normalize, toJson] at hj
    split at hj
    · obtain ⟨items, _, rfl⟩ := Except.map_eq_ok hj
      exact ⟨_, rfl⟩
    · cases hj
  obtain ⟨ms, rfl⟩ := hobj
  have hv : canonicalDoc env v = .ok (.obj ms) := Eq.trans h hj
  cases v with
  | dict d' => exact ⟨d', rfl⟩
  | list xs =>
    rw [canonicalDoc, normalize, toJson] at hv
    obtain ⟨js, _, hjs⟩ := Except.map_eq_ok hv
    cases hjs
  | tuple xs =>
    rw [canonicalDoc, normalize, toJson] at hv
    obtain ⟨js, _, hjs⟩ := Except.map_eq_ok hv
    cases hjs
  | float x => cases x <;> cases hv
  | _ => cases hv

/-- Equal documents give equal state commitments. -/
theorem hS_congr_of_sameDoc {op op' : String} {v v' : PyVal} {d : Digest}
    (hop : SameDoc env (.str op') (.str op)) (hv : SameDoc env v' v)
    (h : hS env op v = .ok d) : hS env op' v' = .ok d := by
  obtain ⟨kvs, rfl⟩ := dict_of_hS h
  obtain ⟨kvs', rfl⟩ := dict_of_sameDoc (isOk_hS_iff.mp (isOk_iff.mpr ⟨d, h⟩)).2 hv
  have hnames (v w : PyVal) : PlainNames ([("op", v), ("inputs", w)].map Prod.fst) :=
    show PlainNames ["op", "inputs"] by decide
  have hdoc : canonicalDoc env (strDict [("op", .str op'), ("inputs", .dict kvs')]) =
      canonicalDoc env (strDict [("op", .str op), ("inputs", .dict kvs)]) := by
    rw [canonicalDoc_strDict (hnames _ _), canonicalDoc_strDict (hnames _ _)]
    exact congrArg _ (docItems_congr (.cons ⟨rfl, hop⟩ (.cons ⟨rfl, hv⟩ .nil)))
  rw [← h, hS, hS, cS, cS, canonicalJson_congr hdoc]

/-- The state commitment of a receipt that verifies. -/
theorem state_of_verifyReceipt {r : Receipt} (h : verifyReceipt env r = .ok true) (hne : r.hS ≠ "") :
    ∃ d, hS env r.op r.parameters = .ok d ∧ d.hex = r.hS := by
  obtain ⟨b, hb, h⟩ := Except.bind_eq_ok h
  cases b with
  | false => exact nomatch h
  | true =>
    rw [verifyState, if_neg hne] at hb
    obtain ⟨d, hd, heq⟩ := Except.map_eq_ok hb
    exact ⟨d, hd, by simpa using heq⟩

/-! ## The verdict on the new row -/

section Verdict

variable {r r' : Receipt} (hinj : Function.Injective env.sha256)
  (hr : verifyReceipt env r = .ok true) (hstate : r.hS ≠ "") (hstored : r'.hBody = r.hBody)

include hr hstate hstored

/-- A replacement that does not differ verifies as the original did. -/
theorem verifyReceipt_of_not_differs (h : ¬Differs env r r') : verifyReceipt env r' = .ok true := by
  obtain ⟨htag, hS', hfields⟩ := sameFields_of_not_differs h
  obtain ⟨hop, hpar, _⟩ := sameDoc_state hfields
  obtain ⟨ds, hds, heqs⟩ := state_of_verifyReceipt hr hstate
  obtain ⟨db, hdb, heqb⟩ := body_of_verifyReceipt hr
  have hsame : computeHBody env (verifiedBody r') = computeHBody env (verifiedBody r) :=
    computeHBody_congr htag hfields
  have hbody : computeHBody env (verifiedBody r') = .ok db := hsame.trans hdb
  exact verifyReceipt_of_eq (hS_congr_of_sameDoc hop hpar hds) (hS'.trans heqs.symm) hbody
    (hstored.trans heqb.symm)

include hinj

/-- A replacement that differs does not verify. -/
theorem not_verifyReceipt_of_differs (h : Differs env r r') : verifyReceipt env r' ≠ .ok true := by
  intro hv
  obtain ⟨ds, hds, heqs⟩ := state_of_verifyReceipt hr hstate
  obtain ⟨db, hdb, heqb⟩ := body_of_verifyReceipt hr
  obtain ⟨db', hdb', heqb'⟩ := body_of_verifyReceipt hv
  obtain rfl : db' = db := Digest.ext_hex (heqb'.trans (hstored.trans heqb.symm))
  obtain ⟨htag, hfields⟩ := bodyFields_of_computeHBody_eq hinj hdb' hdb
  obtain ⟨hop, hpar, hs⟩ := sameDoc_state hfields
  have hne : r'.hS ≠ "" := by
    intro hempty
    have hnfc := nfc_eq_of_sameDoc hs
    rw [hempty, ← heqs, nfc_of_isAscii ds.ascii, nfc_of_isAscii (by decide)] at hnfc
    exact ds.nonempty hnfc.symm
  obtain ⟨ds', hds', heqs'⟩ := state_of_verifyReceipt hv hne
  obtain rfl : ds' = ds := Except.ok.inj (hds'.symm.trans (hS_congr_of_sameDoc hop hpar hds))
  rcases h with h | h | ⟨name, h⟩
  · exact h htag
  · exact h (heqs'.symm.trans heqs)
  · exact h (hfields.fieldValue name)

omit hinj hr hstate in
/-- A hashable receipt gets a verdict. -/
theorem isOk_verifyReceipt_iff (hne : r.hBody ≠ "") :
    isOk (verifyReceipt env r') = true ↔ Hashable env r' := by
  have hbody : r'.hBody ≠ "" := hstored ▸ hne
  rw [verifyReceipt, isOk_bind, Hashable]
  constructor
  · rintro ⟨b, hb, h⟩
    rw [verifyState] at hb
    split at hb
    · rename_i hempty
      refine ⟨.inl hempty, .inr ?_⟩
      obtain rfl := Except.ok.inj hb
      rw [if_pos rfl, verifyBody, if_neg hbody, isOk_map] at h
      exact h
    · rename_i hne'
      obtain ⟨d, hd, rfl⟩ := Except.map_eq_ok hb
      refine ⟨.inr (isOk_iff.mpr ⟨d, hd⟩), ?_⟩
      by_cases heq : d.hex = r'.hS
      · rw [if_pos (by simpa using heq), verifyBody, if_neg hbody, isOk_map] at h
        exact .inr h
      · exact .inl ⟨hne', d, hd, heq⟩
  · rintro ⟨hs, hb⟩
    by_cases hempty : r'.hS = ""
    · refine ⟨true, by rw [verifyState, if_pos hempty], ?_⟩
      rw [if_pos rfl, verifyBody, if_neg hbody, isOk_map]
      exact hb.resolve_left fun hm => hm.1 hempty
    · obtain ⟨d, hd⟩ := isOk_iff.mp (hs.resolve_left hempty)
      refine ⟨d.hex == r'.hS, by rw [verifyState, if_neg hempty, hd]; rfl, ?_⟩
      split
      · rename_i heq
        rw [verifyBody, if_neg hbody, isOk_map]
        refine hb.resolve_left ?_
        rintro ⟨_, d', hd', hne'⟩
        exact hne' (by rw [← Except.ok.inj (hd.symm.trans hd')]; simpa using heq)
      · rfl

/-- A replacement is rejected exactly when it can be recomputed and differs. -/
theorem verifyReceipt_eq_false_iff (hne : r.hBody ≠ "") :
    verifyReceipt env r' = .ok false ↔ Hashable env r' ∧ Differs env r r' := by
  rw [← isOk_verifyReceipt_iff (r := r) hstored hne]
  constructor
  · intro h
    refine ⟨isOk_iff.mpr ⟨_, h⟩, ?_⟩
    by_contra hsame
    rw [verifyReceipt_of_not_differs hr hstate hstored hsame] at h
    exact nomatch h
  · rintro ⟨hok, hdiff⟩
    obtain ⟨b, hb⟩ := isOk_iff.mp hok
    cases b with
    | false => exact hb
    | true => exact absurd hb (not_verifyReceipt_of_differs hinj hr hstate hstored hdiff)

end Verdict

/-! ## The change in terms of committed fields -/

/-- Every committed field of a receipt under its name, whatever its version commits. -/
def Receipt.allFields (r : Receipt) : List (String × PyVal) :=
  r.baseFields ++ r.terminalFields ++ r.capabilityFields ++ r.effectFields ++
    r.reconciliationFields ++ r.continuationFields ++ r.bridgeFields

/-- The fields a receipt commits but the recomputation of its body leaves out. -/
def unreadNames : List String := ["reconciliation_grade", "reconciliation_warrant_snapshot"]

/-- The fields the recomputation of a body reads: those of its version, without `unreadNames`. -/
def readNames (r : Receipt) : List String :=
  (r.bodyFields.map Prod.fst).filter fun name => !unreadNames.contains name

/-- A replacement changes what the recomputation reads: the version's domain tag, the text of the
    state commitment, or the canonical document of a field. -/
def Changed (env : Env) (r r' : Receipt) : Prop :=
  bodyTag r'.version ≠ bodyTag r.version ∨ r'.hS ≠ r.hS ∨
    ∃ name ∈ readNames r',
      ¬SameDoc env (fieldValue r'.allFields name) (fieldValue r.allFields name)

theorem lookup_of_mem_nodup {fields : List (String × PyVal)} {name : String} {v : PyVal}
    (hnodup : (fields.map Prod.fst).Nodup) (h : (name, v) ∈ fields) : fieldValue fields name = v := by
  induction fields with
  | nil => exact absurd h (by simp)
  | cons f rest ih =>
    rw [List.map_cons, List.nodup_cons] at hnodup
    rcases List.mem_cons.mp h with rfl | h
    · simp [fieldValue]
    · have hne : (name == f.1) = false :=
        beq_eq_false_iff_ne.mpr fun heq => hnodup.1 (heq ▸ List.mem_map_of_mem h)
      have := ih hnodup.2 h
      rwa [fieldValue, List.lookup_cons, hne]

theorem fieldValue_of_not_mem {fields : List (String × PyVal)} {name : String}
    (h : name ∉ fields.map Prod.fst) : fieldValue fields name = .none := by
  rw [fieldValue, List.lookup_eq_none_iff.mpr]
  · rfl
  · intro p hp
    exact bne_iff_ne.mpr fun heq => h (heq ▸ List.mem_map_of_mem hp)

private theorem mem_of_mem_ite {p : Prop} [Decidable p] {x : String × PyVal}
    {block : List (String × PyVal)} (h : x ∈ (if p then block else [])) : x ∈ block := by
  split at h
  · exact h
  · exact absurd h (by simp)

/-- A version's body is made of the receipt's fields. -/
theorem mem_allFields {r : Receipt} {x : String × PyVal} (h : x ∈ r.bodyFields) : x ∈ r.allFields := by
  simp only [Receipt.bodyFields, List.mem_append] at h
  simp only [Receipt.allFields, List.mem_append]
  rcases h with (((((h | h) | h) | h) | h) | h) | h
  · exact .inl (.inl (.inl (.inl (.inl (.inl h)))))
  · exact .inl (.inl (.inl (.inl (.inl (.inr (mem_of_mem_ite h))))))
  · exact .inl (.inl (.inl (.inl (.inr (mem_of_mem_ite h)))))
  · exact .inl (.inl (.inl (.inr (mem_of_mem_ite h))))
  · exact .inl (.inl (.inr (mem_of_mem_ite h)))
  · exact .inl (.inr (mem_of_mem_ite h))
  · exact .inr (mem_of_mem_ite h)

/-- A field of a recomputed body is a field of the receipt, the two unread ones apart. -/
theorem mem_allFields_of_mem {r : Receipt} {name : String} {v : PyVal}
    (h : (name, v) ∈ (verifiedBody r).bodyFields) (hn : name ∉ unreadNames) :
    (name, v) ∈ r.allFields := by
  have hrecon : (name, v) ∉ (verifiedBody r).reconciliationFields := by
    intro hmem
    have hname : name ∈ (verifiedBody r).reconciliationFields.map Prod.fst :=
      List.mem_map_of_mem hmem
    exact hn hname
  have hall := mem_allFields h
  simp only [Receipt.allFields, List.mem_append, hrecon, or_false] at hall ⊢
  rcases hall with (h | h) | h
  · exact .inl (.inl (.inl h))
  · exact .inl (.inr h)
  · exact .inr h

theorem names_allFields (r : Receipt) : r.allFields.map Prod.fst = bodyNames := rfl

/-- A read field has one value in the recomputed body and in the receipt. -/
theorem fieldValue_verifiedBody {r : Receipt} {name : String}
    (h : name ∈ (verifiedBody r).bodyFields.map Prod.fst) (hn : name ∉ unreadNames) :
    fieldValue (verifiedBody r).bodyFields name = fieldValue r.allFields name := by
  obtain ⟨⟨_, v⟩, hmem, rfl⟩ := List.mem_map.mp h
  rw [lookup_of_mem_nodup (Receipt.plainNames_bodyFields _).1 hmem,
    lookup_of_mem_nodup (names_allFields r ▸ plainNames_bodyNames.1) (mem_allFields_of_mem hmem hn)]

/-- The unread fields are `None` in every recomputed body. -/
theorem fieldValue_verifiedBody_unread {r : Receipt} {name : String} (hn : name ∈ unreadNames) :
    fieldValue (verifiedBody r).bodyFields name = .none := by
  by_cases hmem : name ∈ (verifiedBody r).bodyFields.map Prod.fst
  · obtain ⟨⟨_, v⟩, hv, rfl⟩ := List.mem_map.mp hmem
    have hnone : ∀ n ∈ unreadNames, fieldValue (verifiedBody r).allFields n = .none := by
      simp only [unreadNames, List.forall_mem_cons]
      exact ⟨rfl, rfl, by simp⟩
    rw [lookup_of_mem_nodup (Receipt.plainNames_bodyFields _).1 hv, ← hnone _ hn,
      lookup_of_mem_nodup (names_allFields _ ▸ plainNames_bodyNames.1) (mem_allFields hv)]
  · exact fieldValue_of_not_mem hmem

theorem names_verifiedBody (r : Receipt) :
    (verifiedBody r).bodyFields.map Prod.fst = r.bodyFields.map Prod.fst :=
  names_bodyFields_eq rfl

theorem differs_iff_changed {r r' : Receipt} : Differs env r r' ↔ Changed env r r' := by
  by_cases htag : bodyTag r'.version = bodyTag r.version
  swap
  · exact ⟨fun _ => .inl htag, fun _ => .inl htag⟩
  have hnames : r'.bodyFields.map Prod.fst = r.bodyFields.map Prod.fst := names_bodyFields_eq htag
  refine or_congr_right (or_congr_right ⟨?_, ?_⟩)
  · rintro ⟨name, h⟩
    by_cases hn : name ∈ unreadNames
    · rw [fieldValue_verifiedBody_unread hn, fieldValue_verifiedBody_unread hn] at h
      exact absurd SameDoc.rfl h
    by_cases hmem : name ∈ r'.bodyFields.map Prod.fst
    · refine ⟨name, List.mem_filter.mpr ⟨hmem, by simpa using hn⟩, ?_⟩
      rwa [fieldValue_verifiedBody (names_verifiedBody r' ▸ hmem) hn,
        fieldValue_verifiedBody (names_verifiedBody r ▸ hnames ▸ hmem) hn] at h
    · rw [fieldValue_of_not_mem (names_verifiedBody r' ▸ hmem),
        fieldValue_of_not_mem (names_verifiedBody r ▸ hnames ▸ hmem)] at h
      exact absurd SameDoc.rfl h
  · rintro ⟨name, hname, h⟩
    obtain ⟨hmem, hn⟩ := List.mem_filter.mp hname
    have hn : name ∉ unreadNames := by simpa using hn
    refine ⟨name, ?_⟩
    rwa [fieldValue_verifiedBody (names_verifiedBody r' ▸ hmem) hn,
      fieldValue_verifiedBody (names_verifiedBody r ▸ hnames ▸ hmem) hn]

/-! ## Tampering with an honest chain -/

theorem rowToReceipt_getElem {rows : List Row} {receipts : List Receipt}
    (h : allReceipts env rows = .ok receipts) (i : Nat) (hi : i < rows.length) :
    ∃ r ∈ receipts, rowToReceipt env rows[i] = .ok r := by
  induction rows generalizing receipts i with
  | nil => exact absurd hi (by simp)
  | cons row rows ih =>
    rw [allReceipts, List.mapM_cons] at h
    obtain ⟨r, hr, h⟩ := Except.bind_eq_ok h
    obtain ⟨rest, hrest, h⟩ := Except.bind_eq_ok h
    obtain rfl := Except.ok.inj h
    cases i with
    | zero => exact ⟨r, by simp, hr⟩
    | succ i =>
      obtain ⟨r', hmem, hr'⟩ := ih hrest i (by simpa using hi)
      exact ⟨r', by simp [hmem], hr'⟩

/-- A stored body hash that verifies is not empty. -/
theorem hBody_ne_of_verifyReceipt {r : Receipt} (h : verifyReceipt env r = .ok true) :
    r.hBody ≠ "" := by
  obtain ⟨d, _, heq⟩ := body_of_verifyReceipt h
  exact heq ▸ d.nonempty

/-- A chain of recomputable writes with one row replaced, its stored body hash kept, is reported as
    tampered exactly when the new row reads back as a receipt that can be recomputed and in which
    something the recomputation reads has changed. -/
theorem tampered_row_reported_iff {cfg : Config} {clock : Clock} {as : List WriteArgs}
    {s : StoreState} (hinj : Function.Injective cfg.sha256) (hs : Fresh s)
    (hc : ∀ a ∈ as, Recomputable cfg.toEnv a) (hw : (writeAll cfg clock as s).1 = .ok ())
    (i : Nat) (hi : i < (rows (writeAll cfg clock as s).2).length) (row : Row)
    (hstored : row.hBody = (rows (writeAll cfg clock as s).2)[i].hBody) :
    verifyReceiptBodies cfg.toEnv ((rows (writeAll cfg clock as s).2).set i row) = .ok false ↔
      ∃ r r', rowToReceipt cfg.toEnv (rows (writeAll cfg clock as s).2)[i] = .ok r ∧
        rowToReceipt cfg.toEnv row = .ok r' ∧ Hashable cfg.toEnv r' ∧ Changed cfg.toEnv r r' := by
  obtain ⟨receipts, hrows, _⟩ := hs.intact.writeAll hc hw
  obtain ⟨r, hmem, hread⟩ := rowToReceipt_getElem hrows.read i hi
  have hverify := hrows.bodies r hmem
  have hbody : row.hBody = r.hBody := hstored.trans (rowToReceipt_ok hread).1.symm
  rw [verifyReceiptBodies_set hrows i row hi]
  constructor
  · intro h
    obtain ⟨r', hread', h⟩ := Except.bind_eq_ok h
    have hstored' : r'.hBody = r.hBody := (rowToReceipt_ok hread').1.trans hbody
    obtain ⟨hhash, hdiff⟩ := (verifyReceipt_eq_false_iff hinj hverify (hrows.stated r hmem) hstored'
      (hBody_ne_of_verifyReceipt hverify)).mp h
    exact ⟨r, r', hread, hread', hhash, differs_iff_changed.mp hdiff⟩
  · rintro ⟨r₀, r', hread₀, hread', hhash, hchanged⟩
    obtain rfl := Except.ok.inj (hread₀.symm.trans hread)
    have hstored' : r'.hBody = r₀.hBody := (rowToReceipt_ok hread').1.trans hbody
    rw [hread']
    exact (verifyReceipt_eq_false_iff hinj hverify (hrows.stated r₀ hmem) hstored'
      (hBody_ne_of_verifyReceipt hverify)).mpr ⟨hhash, differs_iff_changed.mpr hchanged⟩

/-- Another state commitment text is always reported. -/
theorem changed_of_hS {r : Receipt} {t : String} (hr : verifyReceipt env r = .ok true)
    (hstate : r.hS ≠ "") (ht : t ≠ "") (hne : t ≠ r.hS) :
    Hashable env { r with hS := t } ∧ Changed env r { r with hS := t } := by
  obtain ⟨d, hd, hhex⟩ := state_of_verifyReceipt hr hstate
  exact ⟨⟨.inr (isOk_iff.mpr ⟨d, hd⟩), .inl ⟨ht, d, hd, fun h => hne (h.symm.trans hhex)⟩⟩,
    .inr (.inl hne)⟩

theorem tampered_row_reported_sampleWrite :
    ∃ row, rows (writeAll (configOf sampleEnv) sampleClock [sampleWrite] Store.empty).2 = [row] ∧
      verifyReceiptBodies sampleEnv [{ row with hS := "x" }] = .ok false := by
  have hw := writeAll_singleton isOk_write_sampleWrite
  have hlen := length_rows_writeAll hw
  have hi : 0 < (rows (writeAll (configOf sampleEnv) sampleClock [sampleWrite] Store.empty).2).length :=
    hlen ▸ Nat.zero_lt_one
  obtain ⟨receipts, hrows, _⟩ :=
    (Fresh.intact (s := Store.empty) ⟨rfl, rfl⟩).writeAll recomputable_of_mem_sample hw
  obtain ⟨r, hmem, hread⟩ := rowToReceipt_getElem hrows.read 0 hi
  obtain ⟨row, hrow⟩ := List.length_eq_one_iff.mp hlen
  have hget : (rows (writeAll (configOf sampleEnv) sampleClock [sampleWrite] Store.empty).2)[0] = row := by
    simp only [hrow, List.getElem_cons_zero]
  have hx : "x" ≠ r.hS := by
    obtain ⟨d, hd, hhex⟩ := state_of_verifyReceipt (hrows.bodies r hmem) (hrows.stated r hmem)
    obtain ⟨c, _, rfl⟩ := Except.map_eq_ok hd
    exact hhex ▸ (sampleHash_hex_ne _ (by decide)).symm
  have hreported := (tampered_row_reported_iff sampleHash_injective ⟨rfl, rfl⟩
    recomputable_of_mem_sample hw 0 hi { row with hS := "x" } (by rw [hget])).mpr
    ⟨r, _, hread, rowToReceipt_withHS "x" (hget ▸ hread),
      changed_of_hS (hrows.bodies r hmem) (hrows.stated r hmem) (by decide) hx⟩
  refine ⟨row, hrow, ?_⟩
  rw [hrow] at hreported
  exact hreported

/-- A reconciliation grade planted in a row of a verified chain goes unreported. -/
theorem verifyReceiptBodies_set_grade {rows : List Row} {receipts : List Receipt}
    (h : VerifiedRows env rows receipts) (i : Nat) (hi : i < rows.length) (g : String) :
    verifyReceiptBodies env (rows.set i { rows[i] with reconciliationGrade := some g }) =
      .ok true := by
  obtain ⟨r, hmem, hread⟩ := rowToReceipt_getElem h.read i hi
  rw [verifyReceiptBodies_set h i _ hi, rowToReceipt_withGrade g hread]
  exact h.bodies r hmem

/-- A planted grade is decoded as committed content and not reported, under an injective hash. -/
theorem planted_grade_not_reported :
    Function.Injective sampleEnv.sha256 ∧
    ∃ row r r', rows (writeAll (configOf sampleEnv) sampleClock [sampleWrite] Store.empty).2 = [row] ∧
      rowToReceipt sampleEnv row = .ok r ∧ r.reconciliationGrade = .none ∧
      rowToReceipt sampleEnv { row with reconciliationGrade := some "verified" } = .ok r' ∧
      r'.reconciliationGrade = .str "verified" ∧
      verifyReceiptBodies sampleEnv [{ row with reconciliationGrade := some "verified" }] =
        .ok true := by
  have hw := writeAll_singleton isOk_write_sampleWrite
  obtain ⟨receipts, hrows, _⟩ :=
    (Fresh.intact (s := Store.empty) ⟨rfl, rfl⟩).writeAll recomputable_of_mem_sample hw
  obtain ⟨row, hrow⟩ := List.length_eq_one_iff.mp (length_rows_writeAll hw)
  rw [hrow] at hrows
  obtain ⟨r, hmem, hread⟩ := rowToReceipt_getElem hrows.read 0 Nat.zero_lt_one
  exact ⟨sampleHash_injective, row, r, _, hrow, hread, hrows.ungraded r hmem,
    rowToReceipt_withGrade "verified" hread, rfl,
    verifyReceiptBodies_set_grade hrows 0 Nat.zero_lt_one "verified"⟩

end Ugk
