import Ugk.ForStd.Traverse
import Ugk.Native.ProjectionRegistry
import Ugk.Spec.CkValue
import Ugk.Spec.Sample

/-!
# Projection currency is asserted on evidence

What `assess_projection` finds is what the descriptor, the citations and the answers of the resolver
show.  It finds something where every hash on its way is defined: `verify_envelope` turns an
`SMHError` into a finding, and everything else raises, the canonicaliser's own refusals included.

## Key results

- `identity_iff`: when the identity of a source is recomputed, and which it is
- `assessSource_ok`, `exists_assessSource`: the finding about one source, and when there is one
- `supported_of_ok`: whatever is found has its evidence
- `projection_currency`: where the finding is there at all
-/

namespace Ugk

namespace Projection

open CkValue

variable {host : Host} {resolver : Nat → Raw → Answer}

/-! ## Values -/

theorem isText_iff {v : Raw} {s : String} : isText v s = true ↔ v = .str (PyStr.lit s) := by
  cases v with
  | str t =>
    show (t == PyStr.lit s) = true ↔ _
    rw [beq_iff_eq, Raw.str.injEq]
  | _ => exact iff_of_false (fun h => nomatch h) (fun h => nomatch h)

theorem isNone_iff {v : Raw} : isNone v = true ↔ v = .none := by
  cases v with
  | none => exact iff_of_true rfl rfl
  | _ => exact iff_of_false (fun h => nomatch h) (fun h => nomatch h)

theorem isText_lit (s t : String) : isText (.str (PyStr.lit s)) t = (s == t) := by
  rw [Bool.eq_iff_iff, isText_iff, beq_iff_eq, Raw.str.injEq, PyStr.lit_inj]

theorem item_iff {d : List (Key × Raw)} {k : String} {v : Raw} :
    item d k = .ok v ↔ find d k = some v := by
  unfold item
  cases find d k <;> simp

theorem get_of_find {d : List (Key × Raw)} {k : String} {v : Raw} (h : find d k = some v) :
    get d k = v := by
  rw [get, h, Option.getD_some]

/-! ## Identities -/

/-- `H(tag || 0x00 || canonical_bytes(v))` of a value of the CK value model. -/
def taggedHash (host : Host) (tag : String) (v : Raw) : String :=
  (host.sha256 (text (tag.toList ++
    Char.ofNat 0 :: Json.render ⟨false, false⟩ (doc host.toEnv (governed v))))).hex

theorem encodeTag_iff {tag : PyStr} {t : List Char} :
    encodeTag tag = .ok t ↔ ∃ s, tag = PyStr.lit s ∧ isAscii s = true ∧ s.toList = t := by
  unfold encodeTag
  cases htext : PyStr.text? tag with
  | none =>
    refine iff_of_false (fun h => nomatch h) ?_
    rintro ⟨s, rfl, -⟩
    rw [PyStr.text?_lit] at htext
    exact nomatch htext
  | some s =>
    rw [PyStr.text?_eq_some] at htext
    subst htext
    dsimp only
    by_cases hascii : isAscii s = true
    · rw [if_pos hascii, Except.ok.injEq]
      constructor
      · intro h
        exact ⟨s, rfl, hascii, h⟩
      · rintro ⟨s', hs', -, rfl⟩
        rw [PyStr.lit_inj.mp hs']
    · rw [if_neg hascii]
      refine iff_of_false (fun h => nomatch h) ?_
      rintro ⟨s', hs', hascii', -⟩
      rw [PyStr.lit_inj.mp hs'] at hascii
      exact hascii hascii'

theorem canonicalBytes_iff {env : Env} {v : Raw} {cb : List Char} :
    canonicalBytes env v = .ok cb ↔
      InModel (governed v) ∧ Json.render ⟨false, false⟩ (doc env (governed v)) = cb := by
  rw [canonicalBytes_eq]
  unfold InModel
  cases defects (governed v) with
  | nil =>
    show Except.ok _ = _ ↔ _
    rw [Except.ok.injEq]
    exact ⟨fun h => ⟨rfl, h⟩, fun h => h.2⟩
  | cons d ds => exact iff_of_false (fun h => nomatch h) (fun h => nomatch h.1)

/-- A value has a hash under an ASCII tag, inside the value model. -/
theorem domainHash_iff {tag : PyStr} {v : Raw} {h : String} :
    CkValue.domainHash host.toEnv tag v = .ok h ↔
      ∃ t, tag = PyStr.lit t ∧ isAscii t = true ∧ InModel (governed v) ∧
        taggedHash host t v = h := by
  unfold CkValue.domainHash preimage
  rw [Except.map_eq_ok_iff]
  constructor
  · rintro ⟨m, hm, rfl⟩
    obtain ⟨tag', htag, hm⟩ := Except.bind_eq_ok_iff.mp hm
    obtain ⟨cb, hcb, hm⟩ := Except.bind_eq_ok_iff.mp hm
    obtain ⟨t, rfl, hascii, rfl⟩ := encodeTag_iff.mp htag
    obtain ⟨hmodel, rfl⟩ := canonicalBytes_iff.mp hcb
    rw [← Except.ok.inj hm]
    exact ⟨t, rfl, hascii, hmodel, rfl⟩
  · rintro ⟨t, rfl, hascii, hmodel, rfl⟩
    refine ⟨_, ?_, rfl⟩
    refine Except.bind_eq_ok_iff.mpr ⟨t.toList, encodeTag_iff.mpr ⟨t, rfl, hascii, rfl⟩, ?_⟩
    exact Except.bind_eq_ok_iff.mpr ⟨_, canonicalBytes_iff.mpr ⟨hmodel, rfl⟩, rfl⟩

/-- The bytes hashed for an external source. -/
inductive Hashable (host : Host) : Current → List UInt8 ⊕ String → Prop
  | bytes (b : List UInt8) : Hashable host (.bytes b) (.inl b)
  /-- a value through `str`, where that is text -/
  | value {v : Raw} {t : String} (htext : host.strOf v = PyStr.lit t) :
    Hashable host (.value v) (.inr t)

theorem externalBytes_iff {current : Current} {b : List UInt8 ⊕ String} :
    externalBytes host current = .ok b ↔ Hashable host current b := by
  cases current with
  | bytes bs =>
    constructor
    · intro h
      cases h
      exact .bytes bs
    · intro h
      cases h
      rfl
  | value v =>
    unfold externalBytes
    constructor
    · intro h
      cases htext : PyStr.text? (host.strOf v) with
      | none =>
        simp only [htext] at h
        exact nomatch h
      | some t =>
        simp only [htext] at h
        cases h
        exact .value (PyStr.text?_eq_some.mp htext)
    · intro h
      cases h with
      | value htext => simp only [htext, PyStr.text?_lit]

/-- The tag of an external source. -/
inductive ExternalTag : Raw → Option String → Prop
  | none : ExternalTag .none none
  | some {t : String} (hascii : isAscii t = true) : ExternalTag (.str (PyStr.lit t)) (some t)

theorem encodeAscii_iff {v : Raw} {t : String} :
    encodeAscii v = .ok t ↔ v = .str (PyStr.lit t) ∧ isAscii t = true := by
  cases v with
  | str s =>
    unfold encodeAscii
    cases htext : PyStr.text? s with
    | none =>
      refine iff_of_false (by simp [htext]) ?_
      rintro ⟨hs, -⟩
      rw [Raw.str.inj hs, PyStr.text?_lit] at htext
      cases htext
    | some s' =>
      rw [PyStr.text?_eq_some] at htext
      subst htext
      simp only [PyStr.text?_lit, Raw.str.injEq, PyStr.lit_inj]
      by_cases hascii : isAscii s' = true
      · rw [if_pos hascii, Except.ok.injEq]
        exact ⟨fun h => ⟨h, h ▸ hascii⟩, fun h => h.1⟩
      · rw [if_neg hascii]
        refine iff_of_false (fun h => by cases h) ?_
        rintro ⟨rfl, hascii'⟩
        exact hascii hascii'
  | _ => exact iff_of_false (fun h => by cases h) (fun h => by cases h.1)

/-- The identity of the current content of a source, as each type of reference takes it. -/
inductive Identity (host : Host) (r : List (Key × Raw)) : Current → String → Prop
  | ck {tag : String} {v : Raw} (htype : find r "ref_type" = some (.str (PyStr.lit "ck_ref")))
    (htag : find r "domain_tag" = some (.str (PyStr.lit tag))) (hascii : isAscii tag = true)
    (hmodel : InModel (governed v)) : Identity host r (.value v) (taggedHash host tag v)
  | archive {b : List UInt8}
    (htype : find r "ref_type" = some (.str (PyStr.lit "smh_archive_ref"))) :
    Identity host r (.bytes b) (host.sha256Bytes (asciiBytes smhArchiveTag ++ 0 :: b))
  | external {current : Current} {b : List UInt8 ⊕ String} {tag : Option String}
    (htype : find r "ref_type" = some (.str (PyStr.lit "external_hash_ref")))
    (hregime : get r "regime" = .str (PyStr.lit "sha-256")) (hbytes : Hashable host current b)
    (htag : ExternalTag (get r "domain_tag") tag) :
    Identity host r current (externalHash host tag b)

theorem Identity.refType {r : List (Key × Raw)} {current : Current} {h : String}
    (hid : Identity host r current h) : ∃ t, find r "ref_type" = some t := by
  cases hid with
  | ck htype => exact ⟨_, htype⟩
  | archive htype => exact ⟨_, htype⟩
  | external htype => exact ⟨_, htype⟩

theorem ckIdentity_iff {tag : Raw} {current : Current} {h : String} :
    domainHash host tag current = .ok h ↔ ∃ t v, tag = .str (PyStr.lit t) ∧
      current = .value v ∧ isAscii t = true ∧ InModel (governed v) ∧ taggedHash host t v = h := by
  cases tag with
  | str s =>
    cases current with
    | value v =>
      show CkValue.domainHash host.toEnv s v = .ok h ↔ _
      rw [domainHash_iff]
      constructor
      · rintro ⟨t, rfl, hascii, hmodel, hh⟩
        exact ⟨t, v, rfl, rfl, hascii, hmodel, hh⟩
      · rintro ⟨t, v', hs, hv, hascii, hmodel, hh⟩
        cases hv
        exact ⟨t, Raw.str.inj hs, hascii, hmodel, hh⟩
    | bytes b =>
      -- bytes have no canonical form
      show CkValue.domainHash host.toEnv s (.other "bytes") = .ok h ↔ _
      rw [domainHash_iff]
      constructor
      · rintro ⟨t, -, -, hmodel, -⟩
        exact nomatch hmodel
      · rintro ⟨t, v, -, hv, -⟩
        exact nomatch hv
  | _ => exact iff_of_false (fun h => nomatch h) (by rintro ⟨t, v, ht, -⟩; exact nomatch ht)

theorem archiveIdentity_iff {current : Current} {h : String} :
    smhArchiveHash host current = .ok h ↔
      ∃ b, current = .bytes b ∧ host.sha256Bytes (asciiBytes smhArchiveTag ++ 0 :: b) = h := by
  cases current with
  | bytes b =>
    show Except.ok _ = _ ↔ _
    rw [Except.ok.injEq]
    constructor
    · intro hh
      exact ⟨b, rfl, hh⟩
    · rintro ⟨b', hb, hh⟩
      cases hb
      exact hh
  | value v => exact iff_of_false (fun h => nomatch h) (by rintro ⟨b, hb, -⟩; exact nomatch hb)

/-- The identity of a source is recomputed exactly where it has one. -/
theorem identity_iff {r : List (Key × Raw)} {current : Current} {h : String} :
    recomputeSourceIdentity host r current = .ok h ↔ Identity host r current h := by
  constructor
  · intro hok
    unfold recomputeSourceIdentity at hok
    obtain ⟨t, ht, hok⟩ := Except.bind_eq_ok_iff.mp hok
    rw [item_iff] at ht
    dsimp only at hok
    split_ifs at hok with hck harchive hexternal hregime hnone
    · rw [isText_iff] at hck
      subst hck
      obtain ⟨tag, htag, hok⟩ := Except.bind_eq_ok_iff.mp hok
      obtain ⟨s, v, rfl, rfl, hascii, hmodel, rfl⟩ := ckIdentity_iff.mp hok
      exact .ck ht (item_iff.mp htag) hascii hmodel
    · rw [isText_iff] at harchive
      subst harchive
      obtain ⟨b, rfl, rfl⟩ := archiveIdentity_iff.mp hok
      exact .archive ht
    · rw [isText_iff] at hexternal
      subst hexternal
      obtain ⟨b, hb, hok⟩ := Except.bind_eq_ok_iff.mp hok
      rw [← Except.ok.inj hok]
      refine .external ht (isText_iff.mp hregime) (externalBytes_iff.mp hb) ?_
      rw [isNone_iff.mp hnone]
      exact .none
    · rw [isText_iff] at hexternal
      subst hexternal
      obtain ⟨b, hb, hok⟩ := Except.bind_eq_ok_iff.mp hok
      obtain ⟨tag, htag, rfl⟩ := Except.map_eq_ok_iff.mp hok
      obtain ⟨htag, hascii⟩ := encodeAscii_iff.mp htag
      refine .external ht (isText_iff.mp hregime) (externalBytes_iff.mp hb) ?_
      rw [htag]
      exact .some hascii
  · intro hid
    unfold recomputeSourceIdentity
    obtain ⟨t, ht⟩ := hid.refType
    refine Except.bind_eq_ok_iff.mpr ⟨t, item_iff.mpr ht, ?_⟩
    cases hid with
    | ck htype htag hascii hmodel =>
      obtain rfl := Option.some.inj (ht.symm.trans htype)
      rw [if_pos (isText_iff.mpr rfl)]
      refine Except.bind_eq_ok_iff.mpr ⟨_, item_iff.mpr htag, ?_⟩
      exact ckIdentity_iff.mpr ⟨_, _, rfl, rfl, hascii, hmodel, rfl⟩
    | archive htype =>
      obtain rfl := Option.some.inj (ht.symm.trans htype)
      simp only [isText_lit]
      rfl
    | external htype hregime hbytes htag =>
      obtain rfl := Option.some.inj (ht.symm.trans htype)
      simp only [isText_lit, isText_iff.mpr hregime]
      refine Except.bind_eq_ok_iff.mpr ⟨_, externalBytes_iff.mpr hbytes, ?_⟩
      generalize get r "domain_tag" = dt at htag ⊢
      cases htag with
      | none => rfl
      | some hascii =>
        show (encodeAscii _).map _ = _
        rw [encodeAscii_iff.mpr ⟨rfl, hascii⟩]
        rfl

/-! ## One source -/

/-- The resolver has nothing present under a citation. -/
def Absent (answer : Answer) : Prop :=
  answer.falsy = true ∨ ∃ kvs, answer.items? = some kvs ∧ truthy (get kvs "present") = false

/-- A citation whose source is present and has an identity: what the source declares of itself, what
    is cited, and what is recomputed. -/
inductive Identified (host : Host) : Raw × Answer → Raw → Raw → String → Prop
  | mk {r kvs : List (Key × Raw)} {answer : Answer} {current : Current} {h : String}
    (hitems : answer.items? = some kvs) (hpresent : truthy (get kvs "present") = true)
    (hcurrent : answer.current = .ok current) (hid : Identity host r current h) :
    Identified host (.dict r, answer) (get kvs "declared_identity") (get r "digest") h

/-- The source declares no identity, or the one it has. -/
def Honest (declared : Raw) (h : String) : Prop := declared = .none ∨ declared = .str (PyStr.lit h)

/-- A source whose identity is not the declared one. -/
def Corrupt (host : Host) (source : Raw × Answer) : Prop :=
  ∃ declared digest h, Identified host source declared digest h ∧ ¬ Honest declared h

/-- An intact source with the cited identity. -/
def Fresh (host : Host) (source : Raw × Answer) : Prop :=
  ∃ declared digest h, Identified host source declared digest h ∧ Honest declared h ∧
    digest = .str (PyStr.lit h)

/-- An intact source with another identity. -/
def Stale (host : Host) (source : Raw × Answer) : Prop :=
  ∃ declared digest h, Identified host source declared digest h ∧ Honest declared h ∧
    digest ≠ .str (PyStr.lit h)

/-- What a finding about a source says of it. -/
def Evidence (host : Host) (source : Raw × Answer) : SourceFinding → Prop
  | .missing .. => Absent source.2
  | .corrupt .. => Corrupt host source
  | .fresh .. => Fresh host source
  | .stale .. => Stale host source

/-- A citation by a dictionary with a type, of a source that is absent or has an identity. -/
def Readable (host : Host) (source : Raw × Answer) : Prop :=
  (∃ r t, source.1 = .dict r ∧ find r "ref_type" = some t ∧ Absent source.2) ∨
    ∃ declared digest h, Identified host source declared digest h

theorem falsy_of_items {answer : Answer} {kvs : List (Key × Raw)}
    (hitems : answer.items? = some kvs) (hpresent : truthy (get kvs "present") = true) :
    answer.falsy = false := by
  cases answer with
  | record items b => rfl
  | value v =>
    cases v with
    | dict items =>
      obtain rfl := Option.some.inj hitems
      cases items with
      | nil => exact nomatch hpresent
      | cons kv items => rfl
    | _ => exact nomatch hitems

theorem compareIdentities_spec {source : Raw × Answer} {declared digest refType : Raw} {h : String}
    (hid : Identified host source declared digest h) :
    Evidence host source (compareIdentities refType digest declared h) := by
  have hself : isText (if isNone declared then .str (PyStr.lit h) else declared) h = true ↔
      Honest declared h := by
    by_cases hnone : isNone declared = true
    · rw [if_pos hnone, isText_lit, beq_self_eq_true]
      exact iff_of_true rfl (.inl (isNone_iff.mp hnone))
    · rw [if_neg hnone, isText_iff]
      exact ⟨.inr, fun hhonest => hhonest.resolve_left fun hd => hnone (isNone_iff.mpr hd)⟩
  unfold compareIdentities
  dsimp only
  by_cases hhonest : Honest declared h
  · rw [hself.mpr hhonest, if_neg (by simp)]
    by_cases hcited : isText digest h = true
    · rw [if_pos hcited]
      exact ⟨declared, digest, h, hid, hhonest, isText_iff.mp hcited⟩
    · rw [if_neg hcited]
      exact ⟨declared, digest, h, hid, hhonest, fun hd => hcited (isText_iff.mpr hd)⟩
  · rw [Bool.eq_false_iff.mpr (mt hself.mp hhonest), if_pos (by simp)]
    exact ⟨declared, digest, h, hid, hhonest⟩

/-- A finding about a source has its evidence. -/
theorem assessSource_ok {ref : Raw} {answer : Answer} {f : SourceFinding}
    (h : assessSource host ref answer = .ok f) :
    Evidence host (ref, answer) f ∧ Readable host (ref, answer) := by
  cases ref with
  | dict r =>
    have hmissing (habsent : Absent answer)
        (hf : (item r "ref_type").map (fun t => SourceFinding.missing t (get r "digest")) = .ok f) :
        Evidence host (.dict r, answer) f ∧ Readable host (.dict r, answer) := by
      obtain ⟨t, ht, rfl⟩ := Except.map_eq_ok_iff.mp hf
      exact ⟨habsent, .inl ⟨r, t, rfl, item_iff.mp ht, habsent⟩⟩
    unfold assessSource at h
    dsimp only at h
    by_cases hfalsy : answer.falsy = true
    · rw [if_pos hfalsy] at h
      exact hmissing (.inl hfalsy) h
    · rw [if_neg hfalsy] at h
      cases hitems : answer.items? with
      | none =>
        simp only [hitems] at h
        exact nomatch h
      | some kvs =>
        simp only [hitems] at h
        cases hpresent : truthy (get kvs "present") with
        | false =>
          rw [hpresent] at h
          exact hmissing (.inr ⟨kvs, hitems, hpresent⟩) h
        | true =>
          rw [hpresent] at h
          obtain ⟨current, hcurrent, h⟩ := Except.bind_eq_ok_iff.mp h
          obtain ⟨identity, hid, h⟩ := Except.bind_eq_ok_iff.mp h
          obtain ⟨t, ht, h⟩ := Except.bind_eq_ok_iff.mp h
          have hidentified := Identified.mk hitems hpresent hcurrent (identity_iff.mp hid)
          rw [← Except.ok.inj h]
          exact ⟨compareIdentities_spec hidentified, .inr ⟨_, _, _, hidentified⟩⟩
  | _ => exact nomatch h

/-- There is a finding about every citation that can be read. -/
theorem exists_assessSource {ref : Raw} {answer : Answer} :
    (∃ f, assessSource host ref answer = .ok f) ↔ Readable host (ref, answer) := by
  constructor
  · rintro ⟨f, h⟩
    exact (assessSource_ok h).2
  · rintro (⟨r, t, hr, ht, habsent⟩ | ⟨declared, digest, h, hid⟩)
    · dsimp only at hr habsent
      subst hr
      refine ⟨.missing t (get r "digest"), ?_⟩
      unfold assessSource
      dsimp only
      rw [item_iff.mpr ht]
      obtain hfalsy | ⟨kvs, hitems, hpresent⟩ := habsent
      · rw [if_pos hfalsy]
        rfl
      · by_cases hfalsy : answer.falsy = true
        · rw [if_pos hfalsy]
          rfl
        · rw [if_neg hfalsy]
          simp only [hitems, hpresent]
          rfl
    · cases hid with
      | @mk r kvs answer current h hitems hpresent hcurrent hid =>
        obtain ⟨t, ht⟩ := hid.refType
        refine ⟨compareIdentities t (get r "digest") (get kvs "declared_identity") h, ?_⟩
        unfold assessSource
        dsimp only
        rw [falsy_of_items hitems hpresent]
        simp only [hitems, hpresent]
        refine Except.bind_eq_ok_iff.mpr ⟨_, hcurrent, ?_⟩
        refine Except.bind_eq_ok_iff.mpr ⟨_, identity_iff.mpr hid, ?_⟩
        exact Except.bind_eq_ok_iff.mpr ⟨t, item_iff.mpr ht, rfl⟩

/-! ## All sources -/

/-- The citations, each with what the resolver answers for it. -/
def sources (resolver : Nat → Raw → Answer) (refs : List Raw) : List (Raw × Answer) :=
  refs.zipIdx.map fun p => (p.1, resolver p.2 p.1)

theorem assessSources_eq (refs : List Raw) (i : Nat) : assessSources host resolver i refs =
    ((refs.zipIdx i).map fun p => (p.1, resolver p.2 p.1)).mapM
      fun s => assessSource host s.1 s.2 := by
  induction refs generalizing i with
  | nil => rfl
  | cons r refs ih =>
    rw [List.zipIdx_cons, List.map_cons, List.mapM_cons, assessSources, ih]
    rfl

/-- The findings about the sources have their evidence, one by one. -/
theorem assessSources_ok {refs : List Raw} {src : List SourceFinding}
    (h : assessSources host resolver 0 refs = .ok src) :
    List.Forall₂ (Evidence host) (sources resolver refs) src := by
  rw [assessSources_eq] at h
  exact (mapM_ok_iff.mp h).imp fun s f hf => (assessSource_ok hf).1

theorem exists_assessSources {refs : List Raw} :
    (∃ src, assessSources host resolver 0 refs = .ok src) ↔
      ∀ s ∈ sources resolver refs, Readable host s := by
  rw [assessSources_eq, exists_mapM_iff]
  exact forall₂_congr fun s _ => exists_assessSource

/-- The evidence of a finding over all sources. -/
def Supports (host : Host) (cited : List (Raw × Answer)) : ProjectionFinding → Prop
  | .corruptDescriptor => False
  | .undeterminedMissingSource => ∃ s ∈ cited, Absent s.2
  | .undeterminedCorruptSource => ∃ s ∈ cited, Corrupt host s
  | .stale => (∀ s ∈ cited, Fresh host s ∨ Stale host s) ∧ ∃ s ∈ cited, Stale host s
  | .fresh => ∀ s ∈ cited, Fresh host s

/-- The precedence order picks a finding the sources support. -/
theorem aggregate_spec {cited : List (Raw × Answer)} {src : List SourceFinding}
    (h : List.Forall₂ (Evidence host) cited src) : Supports host cited (aggregate src) := by
  have hany {p : SourceFinding → Bool} (hp : src.any p = true) :
      ∃ s ∈ cited, ∃ f, p f = true ∧ Evidence host s f := by
    obtain ⟨f, hf, hpf⟩ := List.any_eq_true.mp hp
    obtain ⟨s, hs, hev⟩ := forall₂_mem_right h hf
    exact ⟨s, hs, f, hpf, hev⟩
  have hall {p : SourceFinding → Bool} (hp : ¬ src.any p = true) (f : SourceFinding)
      (hf : f ∈ src) : p f = false := by
    rw [List.any_eq_true] at hp
    exact Bool.eq_false_iff.mpr fun hpf => hp ⟨f, hf, hpf⟩
  unfold aggregate
  split_ifs with hmissing hcorrupt hstale
  · obtain ⟨s, hs, f, hpf, hev⟩ := hany hmissing
    cases f with
    | missing => exact ⟨s, hs, hev⟩
    | _ => exact nomatch hpf
  · obtain ⟨s, hs, f, hpf, hev⟩ := hany hcorrupt
    cases f with
    | corrupt => exact ⟨s, hs, hev⟩
    | _ => exact nomatch hpf
  · refine ⟨fun s hs => ?_, ?_⟩
    · obtain ⟨f, hf, hev⟩ := forall₂_mem_left h hs
      cases f with
      | missing => exact nomatch hall hmissing _ hf
      | corrupt => exact nomatch hall hcorrupt _ hf
      | fresh => exact .inl hev
      | stale => exact .inr hev
    · obtain ⟨s, hs, f, hpf, hev⟩ := hany hstale
      cases f with
      | stale => exact ⟨s, hs, hev⟩
      | _ => exact nomatch hpf
  · intro s hs
    obtain ⟨f, hf, hev⟩ := forall₂_mem_left h hs
    cases f with
    | missing => exact nomatch hall hmissing _ hf
    | corrupt => exact nomatch hall hcorrupt _ hf
    | fresh => exact hev
    | stale => exact nomatch hall hstale _ hf

/-! ## The findings exclude each other -/

theorem Identified.unique {source : Raw × Answer} {declared declared' digest digest' : Raw}
    {h h' : String} (hid : Identified host source declared digest h)
    (hid' : Identified host source declared' digest' h') :
    declared = declared' ∧ digest = digest' ∧ h = h' := by
  cases hid with
  | mk hitems hpresent hcurrent hid =>
    cases hid' with
    | mk hitems' hpresent' hcurrent' hid' =>
      obtain rfl := Option.some.inj (hitems.symm.trans hitems')
      obtain rfl := Except.ok.inj (hcurrent.symm.trans hcurrent')
      rw [← identity_iff] at hid hid'
      exact ⟨rfl, rfl, Except.ok.inj (hid.symm.trans hid')⟩

theorem Identified.not_absent {source : Raw × Answer} {declared digest : Raw} {h : String}
    (hid : Identified host source declared digest h) : ¬ Absent source.2 := by
  cases hid with
  | mk hitems hpresent hcurrent hid =>
    rintro (hfalsy | ⟨kvs, hitems', hpresent'⟩)
    · rw [falsy_of_items hitems hpresent] at hfalsy
      exact nomatch hfalsy
    · obtain rfl := Option.some.inj (hitems.symm.trans hitems')
      rw [hpresent] at hpresent'
      exact nomatch hpresent'

theorem Fresh.intact {source : Raw × Answer} (hfresh : Fresh host source) :
    ¬ (Absent source.2 ∨ Corrupt host source) := by
  obtain ⟨declared, digest, h, hid, hhonest, -⟩ := hfresh
  rintro (habsent | ⟨declared', digest', h', hid', hdishonest⟩)
  · exact hid.not_absent habsent
  · obtain ⟨rfl, -, rfl⟩ := hid.unique hid'
    exact hdishonest hhonest

theorem Stale.intact {source : Raw × Answer} (hstale : Stale host source) :
    ¬ (Absent source.2 ∨ Corrupt host source) := by
  obtain ⟨declared, digest, h, hid, hhonest, -⟩ := hstale
  rintro (habsent | ⟨declared', digest', h', hid', hdishonest⟩)
  · exact hid.not_absent habsent
  · obtain ⟨rfl, -, rfl⟩ := hid.unique hid'
    exact hdishonest hhonest

/-! ## The descriptor -/

/-- An envelope with a body and an identity. -/
def Envelope (envelope : Raw) (body : List (Key × Raw)) (pid : PyStr) : Prop :=
  ∃ kvs, envelope = .dict kvs ∧ get kvs "descriptor_body" = .dict body ∧
    get kvs "projection_id" = .str pid

/-- An envelope whose identity recomputes from its body. -/
def Intact (host : Host) (envelope : Raw) (body : List (Key × Raw)) : Prop :=
  ∃ pid, Envelope envelope body pid ∧ find body "projection_id" = none ∧
    InModel (governed (.dict body)) ∧
    pid = PyStr.lit (taggedHash host smhDescriptorTag (.dict body))

/-- The citations of a body. -/
def Cites (body : List (Key × Raw)) (refs : List Raw) : Prop :=
  ∃ v, find body "canonical_source_refs" = some v ∧ iterate v = .ok refs

theorem Envelope.unique {envelope : Raw} {body body' : List (Key × Raw)} {pid pid' : PyStr}
    (h : Envelope envelope body pid) (h' : Envelope envelope body' pid') :
    body = body' ∧ pid = pid' := by
  obtain ⟨kvs, rfl, hbody, hpid⟩ := h
  obtain ⟨kvs', hkvs, hbody', hpid'⟩ := h'
  cases hkvs
  exact ⟨Raw.dict.inj (hbody.symm.trans hbody'), Raw.str.inj (hpid.symm.trans hpid')⟩

theorem Intact.unique {envelope : Raw} {body body' : List (Key × Raw)}
    (h : Intact host envelope body) (h' : Intact host envelope body') : body = body' := by
  obtain ⟨pid, henvelope, -⟩ := h
  obtain ⟨pid', henvelope', -⟩ := h'
  exact (henvelope.unique henvelope').1

theorem Cites.unique {body : List (Key × Raw)} {refs refs' : List Raw} (h : Cites body refs)
    (h' : Cites body refs') : refs = refs' := by
  obtain ⟨v, hv, hrefs⟩ := h
  obtain ⟨v', hv', hrefs'⟩ := h'
  obtain rfl := Option.some.inj (hv.symm.trans hv')
  exact Except.ok.inj (hrefs.symm.trans hrefs')

theorem computeProjectionId_eq {body : List (Key × Raw)} (hpid : find body "projection_id" = none) :
    computeProjectionId host body = report (defects (governed (.dict body)))
      (taggedHash host smhDescriptorTag (.dict body)) := by
  have htag : encodeTag (PyStr.lit smhDescriptorTag) = .ok smhDescriptorTag.toList :=
    encodeTag_iff.mpr ⟨smhDescriptorTag, rfl, by decide, rfl⟩
  rw [computeProjectionId, hpid, if_neg (by simp), CkValue.domainHash, preimage, htag,
    canonicalBytes_eq]
  cases defects (governed (.dict body)) <;> rfl

section Verdict

variable {kvs body : List (Key × Raw)} {pid : PyStr}

theorem verifyEnvelope_malformed (h : ∀ body pid, ¬ Envelope (.dict kvs) body pid) :
    verifyEnvelope host (.dict kvs) = .ok .malformed := by
  unfold verifyEnvelope
  dsimp only
  split
  · rename_i body pid hbody hpid
    exact absurd ⟨kvs, rfl, hbody, hpid⟩ (h body pid)
  · rfl

theorem verifyEnvelope_forbidden (h : Envelope (.dict kvs) body pid)
    (hself : find body "projection_id" ≠ none) :
    ∃ detail, verifyEnvelope host (.dict kvs) = .ok (.forbidden detail) := by
  obtain ⟨kvs', hkvs, hbody, hpid⟩ := h
  cases hkvs
  unfold verifyEnvelope computeProjectionId
  dsimp only
  rw [hbody, hpid]
  dsimp only
  rw [if_pos (Option.isSome_iff_ne_none.mpr hself)]
  exact ⟨_, rfl⟩

/-- A body the canonicaliser refuses: what it raises is no `SMHError`. -/
theorem verifyEnvelope_defect (h : Envelope (.dict kvs) body pid)
    (hself : find body "projection_id" = none) {d : Defect} {ds : List Defect}
    (hdefects : defects (governed (.dict body)) = d :: ds) :
    verifyEnvelope host (.dict kvs) = .error d.exc := by
  obtain ⟨kvs', hkvs, hbody, hpid⟩ := h
  cases hkvs
  unfold verifyEnvelope
  dsimp only
  rw [hbody, hpid]
  dsimp only
  rw [computeProjectionId_eq hself, hdefects]
  cases d <;> rfl

theorem verifyEnvelope_hashed (h : Envelope (.dict kvs) body pid)
    (hself : find body "projection_id" = none) (hmodel : InModel (governed (.dict body))) :
    verifyEnvelope host (.dict kvs) =
      if PyStr.lit (taggedHash host smhDescriptorTag (.dict body)) ≠ pid then
        .ok (.mismatch pid (taggedHash host smhDescriptorTag (.dict body)))
      else .ok (.intact pid) := by
  obtain ⟨kvs', hkvs, hbody, hpid⟩ := h
  cases hkvs
  unfold verifyEnvelope
  dsimp only
  rw [hbody, hpid]
  dsimp only
  rw [computeProjectionId_eq hself, show defects (governed (.dict body)) = [] from hmodel]
  rfl

end Verdict

/-- The envelope is a dictionary, and the body to be hashed is in the value model. -/
def Checkable (envelope : Raw) : Prop :=
  (∃ kvs, envelope = .dict kvs) ∧ ∀ body pid, Envelope envelope body pid →
    find body "projection_id" = none → InModel (governed (.dict body))

/-- The verdict about an envelope. -/
theorem verifyEnvelope_ok {envelope : Raw} {v : DescriptorVerdict}
    (h : verifyEnvelope host envelope = .ok v) :
    Checkable envelope ∧ (v.valid = true ↔ ∃ body, Intact host envelope body) := by
  cases envelope with
  | dict kvs =>
    by_cases hform : ∃ body pid, Envelope (.dict kvs) body pid
    · obtain ⟨body, pid, hform⟩ := hform
      by_cases hself : find body "projection_id" = none
      · cases hdefects : defects (governed (.dict body)) with
        | cons d ds =>
          rw [verifyEnvelope_defect hform hself hdefects] at h
          exact nomatch h
        | nil =>
          have hmodel : InModel (governed (.dict body)) := hdefects
          refine ⟨⟨⟨kvs, rfl⟩, fun body' pid' hform' _ => ?_⟩, ?_⟩
          · rw [← (hform.unique hform').1]
            exact hmodel
          · rw [verifyEnvelope_hashed hform hself hmodel] at h
            split_ifs at h with hpid
            · cases h
              refine iff_of_false (fun h => nomatch h) ?_
              rintro ⟨body', pid', hform', -, -, hpid'⟩
              obtain ⟨rfl, rfl⟩ := hform.unique hform'
              exact hpid hpid'.symm
            · cases h
              exact iff_of_true rfl ⟨body, pid, hform, hself, hmodel, (not_not.mp hpid).symm⟩
      · obtain ⟨detail, hforbidden⟩ := @verifyEnvelope_forbidden host kvs body pid hform hself
        rw [hforbidden] at h
        cases h
        refine ⟨⟨⟨kvs, rfl⟩, fun body' pid' hform' hself' => ?_⟩, ?_⟩
        · rw [← (hform.unique hform').1] at hself'
          exact absurd hself' hself
        · refine iff_of_false (fun h => nomatch h) ?_
          rintro ⟨body', pid', hform', hself', -⟩
          rw [← (hform.unique hform').1] at hself'
          exact hself hself'
    · rw [verifyEnvelope_malformed fun body pid h => hform ⟨body, pid, h⟩] at h
      cases h
      refine ⟨⟨⟨kvs, rfl⟩, fun body pid hform' _ => absurd ⟨body, pid, hform'⟩ hform⟩, ?_⟩
      refine iff_of_false (fun h => nomatch h) ?_
      rintro ⟨body, pid, hform', -⟩
      exact hform ⟨body, pid, hform'⟩
  | _ => exact nomatch h

theorem exists_verifyEnvelope {envelope : Raw} (h : Checkable envelope) :
    ∃ v, verifyEnvelope host envelope = .ok v := by
  obtain ⟨⟨kvs, rfl⟩, hmodel⟩ := h
  by_cases hform : ∃ body pid, Envelope (.dict kvs) body pid
  · obtain ⟨body, pid, hform⟩ := hform
    by_cases hself : find body "projection_id" = none
    · rw [verifyEnvelope_hashed hform hself (hmodel body pid hform hself)]
      split
      · exact ⟨_, rfl⟩
      · exact ⟨_, rfl⟩
    · obtain ⟨detail, hforbidden⟩ := @verifyEnvelope_forbidden host kvs body pid hform hself
      exact ⟨_, hforbidden⟩
  · exact ⟨_, verifyEnvelope_malformed fun body pid h => hform ⟨body, pid, h⟩⟩

/-! ## The projection -/

/-- What the finding about a projection says. -/
structure Supported (host : Host) (resolver : Nat → Raw → Answer) (envelope : Raw)
    (finding : ProjectionFinding) : Prop where
  fresh : finding = .fresh → ∃ body refs, Intact host envelope body ∧ Cites body refs ∧
    ∀ s ∈ sources resolver refs, Fresh host s
  stale : finding = .stale → ∃ body refs, Intact host envelope body ∧ Cites body refs ∧
    (∀ s ∈ sources resolver refs, Fresh host s ∨ Stale host s) ∧
    ∃ s ∈ sources resolver refs, Stale host s
  undetermined : ∀ body refs, Intact host envelope body → Cites body refs →
    ∀ s ∈ sources resolver refs, Absent s.2 ∨ Corrupt host s →
      finding = .undeterminedMissingSource ∨ finding = .undeterminedCorruptSource
  corrupt : finding = .corruptDescriptor → ∀ body, ¬ Intact host envelope body

/-- The envelope can be checked, and where it is intact its citations are there and can be read. -/
structure Assessable (host : Host) (resolver : Nat → Raw → Answer) (envelope : Raw) : Prop where
  checkable : Checkable envelope
  readable : ∀ body, Intact host envelope body → ∃ refs, Cites body refs ∧
    ∀ s ∈ sources resolver refs, Readable host s

theorem citedRefs_iff {envelope : Raw} {body : List (Key × Raw)} {refs : List Raw}
    (hintact : Intact host envelope body) : citedRefs envelope = .ok refs ↔ Cites body refs := by
  obtain ⟨pid, ⟨kvs, rfl, hbody, -⟩, -⟩ := hintact
  unfold citedRefs Cites
  dsimp only
  rw [hbody]
  dsimp only
  show item body _ >>= iterate = _ ↔ _
  rw [Except.bind_eq_ok_iff]
  simp only [item_iff]

/-- What is found about the sources decides what is found about the projection. -/
theorem supported_of_supports {envelope : Raw} {body : List (Key × Raw)} {refs : List Raw}
    {finding : ProjectionFinding} (hintact : Intact host envelope body) (hcites : Cites body refs)
    (h : Supports host (sources resolver refs) finding) :
    Supported host resolver envelope finding where
  fresh hfinding := by
    subst hfinding
    exact ⟨body, refs, hintact, hcites, h⟩
  stale hfinding := by
    subst hfinding
    exact ⟨body, refs, hintact, hcites, h⟩
  undetermined body' refs' hintact' hcites' s hs hbad := by
    obtain rfl := hintact.unique hintact'
    obtain rfl := hcites.unique hcites'
    cases finding with
    | corruptDescriptor => exact h.elim
    | undeterminedMissingSource => exact .inl rfl
    | undeterminedCorruptSource => exact .inr rfl
    | stale => exact absurd hbad ((h.1 s hs).elim Fresh.intact Stale.intact)
    | fresh => exact absurd hbad (h s hs).intact
  corrupt hfinding := by
    subst hfinding
    exact h.elim

/-- Whatever is found has its evidence. -/
theorem supported_of_ok {envelope : Raw} {a : Assessment}
    (h : assessProjection host resolver envelope = .ok a) :
    Supported host resolver envelope a.projectionFinding ∧ Assessable host resolver envelope := by
  obtain ⟨v, hv, h⟩ := Except.bind_eq_ok_iff.mp h
  obtain ⟨hcheckable, hvalid⟩ := verifyEnvelope_ok hv
  split_ifs at h with hinvalid
  · have hcorrupt (body : List (Key × Raw)) : ¬ Intact host envelope body := by
      intro hintact
      rw [hvalid.mpr ⟨body, hintact⟩] at hinvalid
      exact nomatch hinvalid
    rw [← Except.ok.inj h]
    refine ⟨?_, hcheckable, fun body hintact => absurd hintact (hcorrupt body)⟩
    exact ⟨(fun hf => nomatch hf), (fun hf => nomatch hf),
      fun body refs hintact => absurd hintact (hcorrupt body), fun _ => hcorrupt⟩
  · have hv : v.valid = true := by simpa using hinvalid
    obtain ⟨body, hintact⟩ := hvalid.mp hv
    obtain ⟨refs, hrefs, h⟩ := Except.bind_eq_ok_iff.mp h
    obtain ⟨src, hsrc, h⟩ := Except.bind_eq_ok_iff.mp h
    have hcites := (citedRefs_iff hintact).mp hrefs
    rw [← Except.ok.inj h]
    refine ⟨supported_of_supports hintact hcites (aggregate_spec (assessSources_ok hsrc)),
      hcheckable, fun body' hintact' => ⟨refs, ?_, exists_assessSources.mp ⟨src, hsrc⟩⟩⟩
    rw [← hintact.unique hintact']
    exact hcites

theorem exists_assessProjection {envelope : Raw} (h : Assessable host resolver envelope) :
    ∃ a, assessProjection host resolver envelope = .ok a := by
  obtain ⟨v, hv⟩ := @exists_verifyEnvelope host envelope h.checkable
  by_cases hvalid : v.valid = true
  · obtain ⟨body, hintact⟩ := (verifyEnvelope_ok hv).2.mp hvalid
    obtain ⟨refs, hcites, hreadable⟩ := h.readable body hintact
    obtain ⟨src, hsrc⟩ := exists_assessSources.mpr hreadable
    exact ⟨_, Except.bind_eq_ok_iff.mpr ⟨v, hv, (if_neg (by simp [hvalid])).trans
      (Except.bind_eq_ok_iff.mpr ⟨refs, (citedRefs_iff hintact).mpr hcites,
        Except.bind_eq_ok_iff.mpr ⟨src, hsrc, rfl⟩⟩)⟩⟩
  · exact ⟨_, Except.bind_eq_ok_iff.mpr ⟨v, hv, if_pos (by simp [hvalid])⟩⟩

/-- Currency is asserted on evidence wherever it is asserted, and a finding is there exactly where
    the envelope can be checked and its citations can be read. -/
theorem projection_currency (host : Host) (resolver : Nat → Raw → Answer) (envelope : Raw) :
    (∀ a, assessProjection host resolver envelope = .ok a →
      Supported host resolver envelope a.projectionFinding) ∧
    ((∃ a, assessProjection host resolver envelope = .ok a ∧
      Supported host resolver envelope a.projectionFinding) ↔
        Assessable host resolver envelope) := by
  refine ⟨fun a h => (supported_of_ok h).1, ?_, ?_⟩
  · rintro ⟨a, h, -⟩
    exact (supported_of_ok h).2
  · intro h
    obtain ⟨a, ha⟩ := exists_assessProjection h
    exact ⟨a, ha, (supported_of_ok ha).1⟩

/-! ## A body with a float -/

/-- `str` and `repr` of nothing but strings, and the bytes of a hash as letters. -/
def sampleHost : Host :=
  { sampleEnv with
    sha256Bytes := fun bs => (sampleHash (text (bs.map fun b => Char.ofNat b.toNat))).hex
    strOf := fun
      | .str s => s
      | _ => []
    repr := fun _ => "" }

/-- `json.loads` of an envelope whose body holds `1.5`. -/
def floatEnvelope : Raw :=
  .dict [(.str (PyStr.lit "projection_id"), .str (PyStr.lit "p")),
    (.str (PyStr.lit "descriptor_body"),
      .dict [(.str (PyStr.lit "weight"), .float (.fin ⟨"1.5".toList, isFloatLit_sample⟩))])]

/-- The canonicaliser's refusal is no finding: it is raised. -/
theorem float_body_raises :
    assessProjection sampleHost (fun _ _ => .value .none) floatEnvelope =
      .error (.canonError "float_present") ∧
    ¬ ∃ a, assessProjection sampleHost (fun _ _ => .value .none) floatEnvelope = .ok a := by
  have hraised : assessProjection sampleHost (fun _ _ => .value .none) floatEnvelope =
      .error (.canonError "float_present") := by
    have henvelope : Envelope floatEnvelope
        [(.str (PyStr.lit "weight"), .float (.fin ⟨"1.5".toList, isFloatLit_sample⟩))]
        (PyStr.lit "p") := ⟨_, rfl, rfl, rfl⟩
    unfold assessProjection floatEnvelope
    rw [verifyEnvelope_defect henvelope rfl rfl]
    rfl
  refine ⟨hraised, ?_⟩
  rintro ⟨a, ha⟩
  rw [hraised] at ha
  exact nomatch ha

end Projection

end Ugk
