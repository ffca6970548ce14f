import Ugk.Native.Receipt
import Ugk.Spec.CanonicalJson

/-!
# The body commitment

The body hash of a receipt is a function of its version's domain tag and of the canonical
documents of its committed fields, and under an injective hash it determines both.

## Key results

- `computeHBody_congr`: receipts whose committed fields have equal documents have equal body hashes
- `bodyFields_of_computeHBody_eq`: equal body hashes come from equal committed documents
-/

namespace Ugk

variable {env : Env}

/-- Two values with the same canonical document. -/
def SameDoc (env : Env) (v w : PyVal) : Prop := canonicalDoc env v = canonicalDoc env w

theorem SameDoc.rfl {v : PyVal} : SameDoc env v v := Eq.refl _

theorem SameDoc.symm {v w : PyVal} (h : SameDoc env v w) : SameDoc env w v := Eq.symm h

theorem SameDoc.trans {u v w : PyVal} (h : SameDoc env u v) (h' : SameDoc env v w) :
    SameDoc env u w := Eq.trans h h'

/-- Strings with one canonical document have one normal form. -/
theorem nfc_eq_of_sameDoc {s t : String} (h : SameDoc env (.str s) (.str t)) :
    nfc env s = nfc env t := by
  have : (Except.ok (Json.str (nfc env s)) : Except Exc Json) = .ok (.str (nfc env t)) := h
  exact Json.str.inj (Except.ok.inj this)

/-- Two lists of fields with the same names and the same documents under them. -/
def SameFields (env : Env) : List (String × PyVal) → List (String × PyVal) → Prop :=
  List.Forall₂ fun a b => a.1 = b.1 ∧ SameDoc env a.2 b.2

theorem SameFields.refl (fields : List (String × PyVal)) : SameFields env fields fields :=
  List.forall₂_same.mpr fun _ _ => ⟨Eq.refl _, SameDoc.rfl⟩

theorem SameFields.append {as bs as' bs' : List (String × PyVal)} (h : SameFields env as as')
    (h' : SameFields env bs bs') : SameFields env (as ++ bs) (as' ++ bs') :=
  List.rel_append h h'

/-- The value of a named field. -/
def fieldValue (fields : List (String × PyVal)) (name : String) : PyVal :=
  (fields.lookup name).getD .none

/-- Same fields have the same documents under every name. -/
theorem SameFields.fieldValue {as bs : List (String × PyVal)} (h : SameFields env as bs)
    (name : String) : SameDoc env (fieldValue as name) (fieldValue bs name) := by
  simp only [Ugk.fieldValue]
  induction h with
  | nil => exact SameDoc.rfl
  | @cons a b as bs hab _ ih =>
    rw [List.lookup_cons, List.lookup_cons, ← hab.1]
    split
    · exact hab.2
    · exact ih

/-! ## Names of the body -/

/-- The names of a version 8 body. -/
def bodyNames : List String := [
  "op", "authority", "parameters", "intent", "jurisdiction", "confidence", "timestamp", "failed",
  "session_dkn", "law_hash", "legend_hash", "warrant_id", "intent_ref", "h_s", "h_c", "h_m", "h_j",
  "h_r", "parent_h_r", "mode", "version", "id_c_s", "id_c_c", "id_c_m", "id_c_j",
  "terminal_outcome", "terminal_outcome_model_id", "terminal_outcome_reason",
  "h_cap", "capability_evidence_model_id", "capability_ledger_hash", "capability_registry_version",
  "capability_scope_id",
  "effect_atomicity", "effect_atomicity_model_id", "effect_phase", "effect_prepare_ref",
  "effect_compensate_ref", "effect_idempotency_key", "effect_compensation_idempotency_key",
  "effect_abort_reason", "effect_gate_admit_ref",
  "reconciliation_grade", "reconciliation_warrant_snapshot",
  "continuation_id", "continuation_op", "continuation_authority", "continuation_parameters",
  "continuation_jurisdiction", "continuation_expiry_basis", "continuation_state",
  "continuation_model_id",
  "bridge_record_id", "bridge_source_regime_ref", "bridge_target_regime_ref",
  "bridge_transformation_ref", "bridge_downgrade_reason", "bridge_preserved_evidence_ref"]

/-- A number for a name, cheap to compare. -/
private def nameCode (s : String) : Nat := s.toList.foldl (fun n c => n * 256 + c.toNat) 0

theorem plainNames_bodyNames : PlainNames bodyNames := by
  have h : (bodyNames.map nameCode).Nodup ∧ ∀ s ∈ bodyNames, isAscii s = true := by decide +kernel
  exact ⟨h.1.of_map nameCode, h.2⟩

theorem PlainNames.sublist {names names' : List String} (h : PlainNames names)
    (hs : names'.Sublist names) : PlainNames names' :=
  ⟨h.1.sublist hs, fun s hmem => h.2 s (hs.subset hmem)⟩

private theorem names_ite_sublist {p : Prop} [Decidable p] {block : List (String × PyVal)}
    {names : List String} (h : block.map Prod.fst = names) :
    ((if p then block else []).map Prod.fst).Sublist names := by
  split
  · exact h ▸ List.Sublist.refl _
  · exact List.nil_sublist _

/-- A body of any version has distinct ASCII names. -/
theorem Receipt.plainNames_bodyFields (r : Receipt) : PlainNames (r.bodyFields.map Prod.fst) := by
  refine plainNames_bodyNames.sublist ?_
  have hnames : bodyNames = r.baseFields.map Prod.fst ++ r.terminalFields.map Prod.fst ++
      r.capabilityFields.map Prod.fst ++ r.effectFields.map Prod.fst ++
      r.reconciliationFields.map Prod.fst ++ r.continuationFields.map Prod.fst ++
      r.bridgeFields.map Prod.fst := rfl
  rw [hnames]
  simp only [Receipt.bodyFields, List.map_append]
  exact ((((((List.Sublist.refl _).append (names_ite_sublist rfl)).append
    (names_ite_sublist rfl)).append (names_ite_sublist rfl)).append
    (names_ite_sublist rfl)).append (names_ite_sublist rfl)).append (names_ite_sublist rfl)

/-! ## The hash -/

theorem computeHBody_eq (r : Receipt) :
    computeHBody env r = ((docItems env r.bodyFields).map objOf).map fun j =>
      env.sha256 (strMsg (bodyTag r.version) ++ text (Json.render ⟨false, false⟩ j)) := by
  rw [computeHBody, canonicalJson, canonicalDoc_strDict r.plainNames_bodyFields]
  cases docItems env r.bodyFields <;> rfl

/-- Receipts of one version tag whose committed fields have equal documents have equal body
    hashes. -/
theorem computeHBody_congr {r r' : Receipt} (hv : bodyTag r.version = bodyTag r'.version)
    (h : SameFields env r.bodyFields r'.bodyFields) : computeHBody env r = computeHBody env r' := by
  rw [computeHBody_eq, computeHBody_eq, docItems_congr h, hv]

theorem text_injective {cs cs' : List Char} (h : text cs = text cs') : cs = cs' :=
  List.map_injective_iff.mpr (fun _ _ hab => Sym.ch.inj hab) h

theorem text_append (cs cs' : List Char) : text (cs ++ cs') = text cs ++ text cs' :=
  List.map_append

theorem length_bodyTag (v : Int) : (bodyTag v).toList.length = 11 := by
  unfold bodyTag
  split_ifs <;> decide

/-- The digit a tag ends in. -/
private def tagDigit (s : String) : Int := (s.toList.getLastD '0').toNat - 48

/-- A tag shows its version, cut off at 1 and 8. -/
private theorem tagDigit_bodyTag (v : Int) : tagDigit (bodyTag v) = max 1 (min 8 v) := by
  have h8 : tagDigit "UGK-BODY-v8" = 8 := rfl
  have h7 : tagDigit "UGK-BODY-v7" = 7 := rfl
  have h6 : tagDigit "UGK-BODY-v6" = 6 := rfl
  have h5 : tagDigit "UGK-BODY-v5" = 5 := rfl
  have h4 : tagDigit "UGK-BODY-v4" = 4 := rfl
  have h3 : tagDigit "UGK-BODY-v3" = 3 := rfl
  have h2 : tagDigit "UGK-BODY-v2" = 2 := rfl
  have h1 : tagDigit "UGK-BODY-v1" = 1 := rfl
  unfold bodyTag
  split_ifs <;> simp only [h1, h2, h3, h4, h5, h6, h7, h8] <;> omega

/-- One version tag stands for one set of blocks. -/
theorem le_iff_of_bodyTag_eq {v w k : Int} (h : bodyTag v = bodyTag w) (hk : 2 ≤ k) (hk' : k ≤ 8) :
    k ≤ v ↔ k ≤ w := by
  have hdigit := congrArg tagDigit h
  rw [tagDigit_bodyTag, tagDigit_bodyTag] at hdigit
  omega

private theorem names_ite_congr {p p' : Prop} [Decidable p] [Decidable p']
    {block block' : List (String × PyVal)} (hp : p ↔ p')
    (h : block.map Prod.fst = block'.map Prod.fst) :
    (if p then block else []).map Prod.fst = (if p' then block' else []).map Prod.fst := by
  by_cases hq : p'
  · rw [if_pos (hp.mpr hq), if_pos hq, h]
  · rw [if_neg (fun hp' => hq (hp.mp hp')), if_neg hq]

theorem names_bodyFields_eq {r r' : Receipt} (h : bodyTag r.version = bodyTag r'.version) :
    r.bodyFields.map Prod.fst = r'.bodyFields.map Prod.fst := by
  have hle (k : Int) (hk : 2 ≤ k) (hk' : k ≤ 8) : k ≤ r.version ↔ k ≤ r'.version :=
    le_iff_of_bodyTag_eq h hk hk'
  have hblocks (k : Int) (hk : 2 ≤ k) (hk' : k ≤ 8) (block block' : List (String × PyVal))
      (hb : block.map Prod.fst = block'.map Prod.fst) :=
    names_ite_congr (hle k hk hk') hb
  simp only [Receipt.bodyFields, List.map_append]
  rw [hblocks 2 (by omega) (by omega) r.terminalFields r'.terminalFields rfl,
    hblocks 3 (by omega) (by omega) r.capabilityFields r'.capabilityFields rfl,
    hblocks 4 (by omega) (by omega) r.effectFields r'.effectFields rfl,
    hblocks 6 (by omega) (by omega) r.reconciliationFields r'.reconciliationFields rfl,
    hblocks 7 (by omega) (by omega) r.continuationFields r'.continuationFields rfl,
    hblocks 8 (by omega) (by omega) r.bridgeFields r'.bridgeFields rfl]
  rfl

/-- Under an injective hash, equal body hashes come from one version tag and equal committed
    documents. -/
theorem bodyFields_of_computeHBody_eq (hinj : Function.Injective env.sha256) {r r' : Receipt}
    {d : Digest} (h : computeHBody env r = .ok d) (h' : computeHBody env r' = .ok d) :
    bodyTag r.version = bodyTag r'.version ∧ SameFields env r.bodyFields r'.bodyFields := by
  rw [computeHBody_eq] at h h'
  cases hi : docItems env r.bodyFields with
  | error e => rw [hi] at h; exact nomatch h
  | ok items =>
    cases hi' : docItems env r'.bodyFields with
    | error e => rw [hi'] at h'; exact nomatch h'
    | ok items' =>
      rw [hi] at h
      rw [hi'] at h'
      have hmsg := hinj ((Except.ok.inj h).trans (Except.ok.inj h').symm)
      rw [strMsg, strMsg, ← text_append, ← text_append] at hmsg
      obtain ⟨htag, hdoc⟩ := List.append_inj (text_injective hmsg)
        ((length_bodyTag _).trans (length_bodyTag _).symm)
      have htag' : bodyTag r.version = bodyTag r'.version := String.toList_inj.mp htag
      have hobj : objOf items = objOf items' := Json.render_injective _ hdoc
      have hitems : items = items' := by
        refine objOf_injective ?_ ?_ hobj
        · rw [docItems_names hi, docItems_names hi', names_bodyFields_eq htag']
        · rw [docItems_names hi]
          exact r.plainNames_bodyFields.1
      exact ⟨htag', docItems_inj hi (hitems ▸ hi')⟩

end Ugk
