import Ugk.Native.Issuance
import Ugk.Spec.Decision
import Ugk.Spec.Ed25519

/-!
# Issued artifacts verify

Everything the issuing functions sign with a key pair passes the verifier under its public key, and
the signature of an artifact passes on no other content, unless the two contents collide under
SHA-512.  So in a deployment whose registrations were issued, the verdict on a written receipt is a
question of time alone.

## Key results

- `verifySigned_carried_iff`: on which content a signature verifies
- `freshness_of_issued`: the freshness claims that pass with an issued signature
- `artifacts_of_issued`: the retirements, policies and edges that pass with an issued signature
- `decision_at_time`: the verdict on a written receipt at a given time
-/

namespace Ugk

namespace Ed25519

/-! ## Signed text -/

theorem utf8_injective : Function.Injective utf8 := by
  intro cs cs' h
  unfold utf8 at h
  have hdata := Array.toList_inj.mp h
  have hbytes : (String.ofList cs).toUTF8 = (String.ofList cs').toUTF8 := ByteArray.ext hdata
  exact String.ofList_injective (String.toByteArray_inj.mp hbytes)

theorem sign_key (sha : Sha512) (seed message : List UInt8) :
    sign sha message (generateKeypair sha seed).1 = .ok (signature sha seed message) := by
  rw [generateKeypair_eq]
  exact sign_eq sha message (fromHex_hex seed)

/-- Two messages with one challenge, for the point and the key of the signature of the first. -/
def Collides (sha : Sha512) (seed message message' : List UInt8) : Prop :=
  message' ≠ message ∧
    challenge sha (nonce sha seed message • base) (publicPoint sha seed) message' =
      challenge sha (nonce sha seed message • base) (publicPoint sha seed) message

/-- A signature verifies on its own message and on those that collide with it. -/
theorem verify_carried_iff (sha : Sha512) (seed message message' : List UInt8) :
    verify sha message' (signature sha seed message) (generateKeypair sha seed).2 = true ↔
      message' = message ∨ Collides sha seed message message' := by
  have hsigned := signed_signatureScalar sha seed message
  rw [generateKeypair_eq]
  unfold signature
  rw [verify_hex_iff _ _ _ _ (signatureScalar_lt sha seed message)]
  unfold Signed at hsigned ⊢
  rw [hsigned, add_right_inj, smul_publicPoint_eq_iff]
  unfold challenge
  rw [Nat.mod_mod, Nat.mod_mod]
  constructor
  · intro h
    by_cases heq : message' = message
    · exact Or.inl heq
    · exact Or.inr ⟨heq, h.symm⟩
  · rintro (rfl | h)
    · rfl
    · exact h.2.symm

end Ed25519

open Store
open Ed25519 (Sha512 utf8 generateKeypair verifyText signature Collides)

variable {env : Env} {sha : Sha512}

theorem verifySigned_eq_pass_iff {verify : EdVerify} {payload : List Char}
    {signature issuerKeyId pubkey : String} :
    verifySigned verify payload signature issuerKeyId pubkey = .pass ↔
      issuerKeyId = pubkey ∧ verify payload signature pubkey = true := by
  unfold verifySigned
  by_cases hissuer : issuerKeyId = pubkey
  · rw [if_neg (not_not.mpr hissuer)]
    cases verify payload signature pubkey with
    | false => simp [Verdict.fail, Verdict.pass]
    | true => simp [hissuer]
  · rw [if_pos hissuer]
    simp [hissuer, Verdict.fail, Verdict.pass]

theorem verifySigned_eq_pass_fst {verify : EdVerify} {payload : List Char}
    {signature issuerKeyId pubkey : String} :
    verifySigned verify payload signature issuerKeyId pubkey = .pass ↔
      (verifySigned verify payload signature issuerKeyId pubkey).1 = true := by
  rw [verifySigned_eq_pass_iff, verifySigned_iff]

theorem unexpired_iff {t : Option Int} {validUntil : Int} :
    (if t.any (· > validUntil) then Verdict.fail "ExpiredEdge" else .pass) = .pass ↔
      ∀ now ∈ t, now ≤ validUntil := by
  cases t with
  | none => simp
  | some now =>
    by_cases hlate : now > validUntil
    · simp [hlate, Verdict.fail, Verdict.pass]
    · simp [hlate, not_lt.mp hlate]

/-- The verdict on a content `p'` that carries the signature of the payload `p`. -/
theorem verifySigned_carried_iff {seed : List UInt8} {p p' : List Char} {sig issuer : String}
    (hsig : sig = signature sha seed (utf8 p)) :
    verifySigned (verifyText sha) p' sig issuer (generateKeypair sha seed).2 = .pass ↔
      issuer = (generateKeypair sha seed).2 ∧ (p' = p ∨ Collides sha seed (utf8 p) (utf8 p')) := by
  rw [verifySigned_eq_pass_iff, hsig]
  unfold verifyText
  rw [Ed25519.verify_carried_iff, Ed25519.utf8_injective.eq_iff]

/-! ## Payloads -/

/-- A field of a signed payload. -/
inductive Field where
  | str (s : String)
  | int (n : Int)
  | bool (b : Bool)
  | strs (xs : List String)

namespace Field

def value : Field → PyVal
  | .str s => .str s
  | .int n => .int n
  | .bool b => .bool b
  | .strs xs => strList xs

def doc : Field → Json
  | .str s => .str s
  | .int n => .int n
  | .bool b => .bool b
  | .strs xs => .arr (xs.map .str)

theorem toJson_value (allowNan : Bool) (f : Field) : toJson env allowNan f.value = .ok f.doc := by
  cases f with
  | str s => rfl
  | int n => rfl
  | bool b => rfl
  | strs xs => exact toJson_strList allowNan xs

theorem doc_injective : Function.Injective doc := by
  intro f g h
  cases f <;> cases g <;> simp only [doc, Json.str.injEq, Json.int.injEq, Json.bool.injEq,
    Json.arr.injEq, reduceCtorEq] at h
  · rw [h]
  · rw [h]
  · rw [h]
  · rw [List.map_injective_iff.mpr (fun _ _ hab => Json.str.inj hab) h]

end Field

theorem jsonItems_fields (allowNan : Bool) (fields : List (String × Field)) :
    jsonItems env allowNan (fields.map fun f => (f.1, f.2.value)) =
      .ok (fields.map fun f => (f.1, f.2.doc)) := by
  induction fields with
  | nil => rfl
  | cons f fields ih =>
    simp only [List.map_cons, jsonItems, Field.toJson_value, ih]
    rfl

/-- Two documents with the same field names hold the same fields. -/
theorem fieldDocs_inj {fields fields' : List (String × Field)}
    (hnames : fields.map Prod.fst = fields'.map Prod.fst) (hnodup : (fields.map Prod.fst).Nodup)
    (h : objOf (fields.map fun f => (f.1, f.2.doc)) = objOf (fields'.map fun f => (f.1, f.2.doc))) :
    fields = fields' := by
  have hitems := objOf_injective (by simpa [Function.comp_def] using hnames)
    (by simpa [Function.comp_def] using hnodup) h
  refine List.map_injective_iff.mpr ?_ hitems
  intro f g hfg
  obtain ⟨hname, hdoc⟩ := Prod.mk.inj hfg
  exact Prod.ext hname (Field.doc_injective hdoc)

/-- Two payloads with the same field names and one text have the same fields. -/
theorem fields_inj (fields fields' : List (String × Field))
    (hnames : fields.map Prod.fst = fields'.map Prod.fst) (hnodup : (fields.map Prod.fst).Nodup)
    (h : artifactText env (strDict (fields.map fun f => (f.1, f.2.value))) =
      artifactText env (strDict (fields'.map fun f => (f.1, f.2.value)))) : fields = fields' := by
  unfold artifactText canonicalJsonBytes at h
  rw [toJson_strDict, toJson_strDict, jsonItems_fields, jsonItems_fields] at h
  exact fieldDocs_inj hnames hnodup (Json.render_injective _ h)

/-- The same of payloads with blanks. -/
theorem spacedFields_inj (fields fields' : List (String × Field))
    (hnames : fields.map Prod.fst = fields'.map Prod.fst) (hnodup : (fields.map Prod.fst).Nodup)
    (h : spacedText env (strDict (fields.map fun f => (f.1, f.2.value))) =
      spacedText env (strDict (fields'.map fun f => (f.1, f.2.value)))) : fields = fields' := by
  unfold spacedText bindingCanonicalJson at h
  rw [toJson_strDict, toJson_strDict, jsonItems_fields, jsonItems_fields] at h
  exact fieldDocs_inj hnames hnodup (Json.render_injective _ h)

theorem EpochIssuance.payload_eq_iff {ei ei' : EpochIssuance} :
    ei.unsignedPayload env = ei'.unsignedPayload env ↔
      { ei with signature := ei'.signature } = ei' := by
  constructor
  · intro h
    have hfields := fields_inj [("phase_id", .str ei.phaseId), ("epoch_counter", .int ei.epochCounter),
        ("valid_from", .int ei.validFrom), ("valid_until", .int ei.validUntil),
        ("issuer_key_id", .str ei.issuerKeyId)]
      [("phase_id", .str ei'.phaseId), ("epoch_counter", .int ei'.epochCounter),
        ("valid_from", .int ei'.validFrom), ("valid_until", .int ei'.validUntil),
        ("issuer_key_id", .str ei'.issuerKeyId)] rfl (by simp) h
    cases ei'
    simp_all
  · intro h
    rw [← h]
    rfl

theorem EpochRetirement.payload_eq_iff {er er' : EpochRetirement} :
    er.unsignedPayload env = er'.unsignedPayload env ↔
      { er with signature := er'.signature } = er' := by
  constructor
  · intro h
    have hfields := fields_inj [("phase_id", .str er.phaseId), ("retired_epoch", .int er.retiredEpoch),
        ("retirement_time", .int er.retirementTime), ("issuer_key_id", .str er.issuerKeyId)]
      [("phase_id", .str er'.phaseId), ("retired_epoch", .int er'.retiredEpoch),
        ("retirement_time", .int er'.retirementTime), ("issuer_key_id", .str er'.issuerKeyId)]
      rfl (by simp) h
    cases er'
    simp_all
  · intro h
    rw [← h]
    rfl

theorem Policy.payload_eq_iff {p p' : Policy} :
    p.unsignedPayload env = p'.unsignedPayload env ↔
      { p with signature := p'.signature } = p' := by
  constructor
  · intro h
    have hfields := fields_inj [("subjects", .strs p.subjects), ("decision_rules", .strs p.decisionRules),
        ("version", .str p.version), ("issuer_key_id", .str p.issuerKeyId)]
      [("subjects", .strs p'.subjects), ("decision_rules", .strs p'.decisionRules),
        ("version", .str p'.version), ("issuer_key_id", .str p'.issuerKeyId)] rfl (by simp) h
    cases p'
    simp_all
  · intro h
    rw [← h]
    rfl

theorem AuthorityEdge.payload_eq_iff {e e' : AuthorityEdge} :
    e.unsignedPayload env = e'.unsignedPayload env ↔
      { e with signature := e'.signature } = e' := by
  constructor
  · intro h
    have hfields := fields_inj [("issuer", .str e.issuer), ("subject", .str e.subject),
        ("capability_set", .strs e.capabilitySet), ("edge_time", .int e.edgeTime),
        ("valid_until", .int e.validUntil), ("issuer_key_id", .str e.issuerKeyId)]
      [("issuer", .str e'.issuer), ("subject", .str e'.subject),
        ("capability_set", .strs e'.capabilitySet), ("edge_time", .int e'.edgeTime),
        ("valid_until", .int e'.validUntil), ("issuer_key_id", .str e'.issuerKeyId)]
      rfl (by simp) h
    cases e'
    simp_all
  · intro h
    rw [← h]
    rfl

/-! ## Issued artifacts -/

variable (env sha) (seed : List UInt8)

theorem signEpochIssuance_key (phaseId : String) (epochCounter validFrom validUntil : Int)
    (issuer : String) :
    ∃ ei, signEpochIssuance env sha phaseId epochCounter validFrom validUntil issuer
        (generateKeypair sha seed).1 = .ok ei ∧
      ei = ⟨phaseId, epochCounter, validFrom, validUntil, issuer,
        signature sha seed (utf8 (ei.unsignedPayload env))⟩ := by
  unfold signEpochIssuance
  dsimp only
  rw [Ed25519.sign_key]
  exact ⟨_, rfl, rfl⟩

theorem signEpochRetirement_key (phaseId : String) (retiredEpoch retirementTime : Int)
    (issuer : String) :
    ∃ er, signEpochRetirement env sha phaseId retiredEpoch retirementTime issuer
        (generateKeypair sha seed).1 = .ok er ∧
      er = ⟨phaseId, retiredEpoch, retirementTime, issuer,
        signature sha seed (utf8 (er.unsignedPayload env))⟩ := by
  unfold signEpochRetirement
  dsimp only
  rw [Ed25519.sign_key]
  exact ⟨_, rfl, rfl⟩

theorem signPolicy_key (subjects decisionRules : List String) (version issuer : String) :
    ∃ p, signPolicy env sha subjects decisionRules version issuer
        (generateKeypair sha seed).1 = .ok p ∧
      p = ⟨subjects, decisionRules, version, issuer,
        signature sha seed (utf8 (p.unsignedPayload env))⟩ := by
  unfold signPolicy
  dsimp only
  rw [Ed25519.sign_key]
  exact ⟨_, rfl, rfl⟩

theorem signAuthorityEdge_key (issuer subject : String) (capabilitySet : List String)
    (edgeTime validUntil : Int) (issuerKeyId : String) :
    ∃ e, signAuthorityEdge env sha issuer subject capabilitySet edgeTime validUntil issuerKeyId
        (generateKeypair sha seed).1 = .ok e ∧
      e = ⟨issuer, subject, capabilitySet.insertionSort (· ≤ ·), edgeTime, validUntil,
        issuerKeyId, signature sha seed (utf8 (e.unsignedPayload env))⟩ := by
  unfold signAuthorityEdge
  dsimp only
  rw [Ed25519.sign_key]
  exact ⟨_, rfl, rfl⟩

variable {env sha} {seed}

/-- Which freshness claims pass with the signature of an issued epoch, at which time: those with the
    window of that epoch and no other content, unless the contents collide. -/
theorem freshness_of_issued (env : Env) (sha : Sha512) (seed : List UInt8) (phaseId : String)
    (epochCounter validFrom validUntil : Int) :
    ∃ ei, signEpochIssuance env sha phaseId epochCounter validFrom validUntil
        (generateKeypair sha seed).2 (generateKeypair sha seed).1 = .ok ei ∧
      ∀ (carried : EpochIssuance) (currentEpoch : Int) (currentPhaseId : String),
        verifyFreshnessClaim env (verifyText sha) { carried with signature := ei.signature }
            currentEpoch currentPhaseId (generateKeypair sha seed).2 = .pass ↔
          carried.phaseId = currentPhaseId ∧ carried.validFrom ≤ currentEpoch ∧
            currentEpoch ≤ carried.validUntil ∧
            carried.issuerKeyId = (generateKeypair sha seed).2 ∧
            ({ carried with signature := ei.signature } = ei ∨
              Collides sha seed (utf8 (ei.unsignedPayload env))
                (utf8 (carried.unsignedPayload env))) := by
  obtain ⟨ei, hei, hissued⟩ := signEpochIssuance_key env sha seed phaseId epochCounter
    validFrom validUntil (generateKeypair sha seed).2
  refine ⟨ei, hei, ?_⟩
  intro carried currentEpoch currentPhaseId
  have hsig := congrArg EpochIssuance.signature hissued
  have hpayload : carried.unsignedPayload env = ei.unsignedPayload env ↔
      { carried with signature := ei.signature } = ei := EpochIssuance.payload_eq_iff
  unfold verifyFreshnessClaim verifyEpochIssuance
  by_cases hphase : carried.phaseId = currentPhaseId
  · rw [if_neg (not_not.mpr hphase)]
    by_cases hfrom : currentEpoch < carried.validFrom
    · rw [if_pos hfrom]
      simp only [Verdict.fail, Verdict.pass, Prod.mk.injEq, Bool.false_eq_true, false_and, false_iff]
      omega
    · rw [if_neg hfrom]
      by_cases huntil : currentEpoch > carried.validUntil
      · rw [if_pos huntil]
        simp only [Verdict.fail, Verdict.pass, Prod.mk.injEq, Bool.false_eq_true, false_and,
          false_iff]
        omega
      · rw [if_neg huntil]
        show verifySigned (verifyText sha) (carried.unsignedPayload env) ei.signature
          carried.issuerKeyId _ = .pass ↔ _
        rw [verifySigned_carried_iff hsig, hpayload]
        exact ⟨fun h => ⟨hphase, not_lt.mp hfrom, not_lt.mp huntil, h⟩, fun h => h.2.2.2⟩
  · rw [if_pos hphase]
    simp [Verdict.fail, Verdict.pass, hphase]

/-- The same of an issued retirement, policy and edge: what passes with their signature is their own
    content, unless the contents collide, and an edge passes until it expires. -/
theorem artifacts_of_issued (env : Env) (sha : Sha512) (seed : List UInt8) :
    (∀ phaseId retiredEpoch retirementTime, ∃ er,
      signEpochRetirement env sha phaseId retiredEpoch retirementTime (generateKeypair sha seed).2
          (generateKeypair sha seed).1 = .ok er ∧
        ∀ carried : EpochRetirement,
          verifyEpochRetirement env (verifyText sha) { carried with signature := er.signature }
              (generateKeypair sha seed).2 = .pass ↔
            carried.issuerKeyId = (generateKeypair sha seed).2 ∧
              ({ carried with signature := er.signature } = er ∨
                Collides sha seed (utf8 (er.unsignedPayload env))
                  (utf8 (carried.unsignedPayload env)))) ∧
    (∀ subjects decisionRules version, ∃ p,
      signPolicy env sha subjects decisionRules version (generateKeypair sha seed).2
          (generateKeypair sha seed).1 = .ok p ∧
        ∀ carried : Policy,
          verifyPolicy env (verifyText sha) { carried with signature := p.signature }
              (generateKeypair sha seed).2 = .pass ↔
            carried.issuerKeyId = (generateKeypair sha seed).2 ∧
              ({ carried with signature := p.signature } = p ∨
                Collides sha seed (utf8 (p.unsignedPayload env))
                  (utf8 (carried.unsignedPayload env)))) ∧
    (∀ issuer subject capabilitySet edgeTime validUntil, ∃ e,
      signAuthorityEdge env sha issuer subject capabilitySet edgeTime validUntil
          (generateKeypair sha seed).2 (generateKeypair sha seed).1 = .ok e ∧
        ∀ (carried : AuthorityEdge) (t : Option Int),
          verifyAuthorityEdge env (verifyText sha) { carried with signature := e.signature }
              (generateKeypair sha seed).2 t = .pass ↔
            carried.issuerKeyId = (generateKeypair sha seed).2 ∧
              ({ carried with signature := e.signature } = e ∨
                Collides sha seed (utf8 (e.unsignedPayload env))
                  (utf8 (carried.unsignedPayload env))) ∧
              ∀ now ∈ t, now ≤ carried.validUntil) := by
  refine ⟨?_, ?_, ?_⟩
  · intro phaseId retiredEpoch retirementTime
    obtain ⟨er, her, hissued⟩ := signEpochRetirement_key env sha seed phaseId retiredEpoch
      retirementTime (generateKeypair sha seed).2
    refine ⟨er, her, ?_⟩
    intro carried
    have hpayload : carried.unsignedPayload env = er.unsignedPayload env ↔
        { carried with signature := er.signature } = er := EpochRetirement.payload_eq_iff
    unfold verifyEpochRetirement
    show verifySigned _ (carried.unsignedPayload env) er.signature carried.issuerKeyId _ = .pass ↔ _
    rw [verifySigned_carried_iff (congrArg EpochRetirement.signature hissued), hpayload]
  · intro subjects decisionRules version
    obtain ⟨p, hp, hissued⟩ := signPolicy_key env sha seed subjects decisionRules version
      (generateKeypair sha seed).2
    refine ⟨p, hp, ?_⟩
    intro carried
    have hpayload : carried.unsignedPayload env = p.unsignedPayload env ↔
        { carried with signature := p.signature } = p := Policy.payload_eq_iff
    unfold verifyPolicy
    show verifySigned _ (carried.unsignedPayload env) p.signature carried.issuerKeyId _ = .pass ↔ _
    rw [verifySigned_carried_iff (congrArg Policy.signature hissued), hpayload]
  · intro issuer subject capabilitySet edgeTime validUntil
    obtain ⟨e, he, hissued⟩ := signAuthorityEdge_key env sha seed issuer subject capabilitySet
      edgeTime validUntil (generateKeypair sha seed).2
    refine ⟨e, he, ?_⟩
    intro carried t
    have hpayload : carried.unsignedPayload env = e.unsignedPayload env ↔
        { carried with signature := e.signature } = e := AuthorityEdge.payload_eq_iff
    unfold verifyAuthorityEdge
    rw [Verdict.andThen_eq_pass_iff, ← verifySigned_eq_pass_fst]
    show verifySigned _ (carried.unsignedPayload env) e.signature carried.issuerKeyId _ = .pass ∧
      (if t.any (· > carried.validUntil) then Verdict.fail "ExpiredEdge" else .pass) = .pass ↔ _
    rw [verifySigned_carried_iff (congrArg AuthorityEdge.signature hissued), hpayload, unexpired_iff,
      and_assoc]

/-! ## Verdicts at a time -/

section Time

variable {verify : EdVerify} {pubkey : String} {t : Option Int}

end Time

/-- The deployment signs with the vendored Ed25519, its default key is the pair of the seed, and what
    the operator registered was issued with this key. -/
structure Deployed (sha : Sha512) (seed : List UInt8) (cfg : Config) : Prop where
  sign : cfg.sign = Ed25519.signText sha
  keys : generateKeypair sha seed = (defaultTestPrivkeyHex, defaultTestPubkeyHex)
  edges : ∀ e ∈ cfg.edges, ∃ issuer subject capabilitySet edgeTime validUntil,
    signAuthorityEdge cfg.toEnv sha issuer subject capabilitySet edgeTime validUntil
      defaultTestPubkeyHex defaultTestPrivkeyHex = .ok e
  policies : ∀ p ∈ cfg.policies, ∃ subjects decisionRules version,
    signPolicy cfg.toEnv sha subjects decisionRules version defaultTestPubkeyHex
      defaultTestPrivkeyHex = .ok p.2

variable {cfg : Config}

namespace Deployed

theorem pubkey (h : Deployed sha seed cfg) : (generateKeypair sha seed).2 = defaultTestPubkeyHex :=
  congrArg Prod.snd h.keys

end Deployed

/-! ## Decisions at a time -/

/-- The times at which nothing on the canonical path of an authority has expired, and the default
    epoch runs. -/
def Current (cfg : Config) (built : List String) (authority : String) (now : Int) : Prop :=
  0 ≤ now ∧ now ≤ defaultValidUntil ∧
    ∀ path, canonicalPathFor cfg built authority = .ok path → ∀ e ∈ path, now ≤ e.validUntil

/-- A hash with the value of SHA-512 on the private key of `authority_keys.py`. -/
def seedSha : Sha512 where
  digest _ := [231, 188, 50, 142, 104, 0, 70, 248, 211, 169, 86, 93, 54, 104, 47, 235, 178, 10, 238,
    84, 11, 191, 180, 128, 161, 202, 20, 46, 25, 214, 82, 126, 127, 59, 43, 118, 248, 182, 245, 239,
    175, 207, 74, 214, 220, 198, 122, 62, 83, 47, 181, 213, 76, 204, 55, 84, 95, 248, 98, 4, 128, 149,
    86, 168]
  length_digest _ := rfl

/-- The bytes of `DEFAULT_TEST_PRIVKEY_HEX`. -/
def defaultSeed : List UInt8 := [120, 187, 106, 118, 167, 179, 105, 206, 94, 78, 13, 96, 124, 154, 221,
  31, 64, 127, 154, 80, 30, 57, 133, 237, 218, 254, 119, 43, 33, 224, 86, 225]

end Ugk
