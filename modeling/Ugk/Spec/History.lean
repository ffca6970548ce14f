import Ugk.Spec.Tamper

/-!
# What the chain tip binds

The verifiers never re-derive a stored root `h_r` from the row that carries it, so two stores with
one tip can both verify and hold different receipts.  When every root is the one the binding
computes from its row and the row before it, the tip determines the history.

## Key results

- `tip_binds_derived_history`: derived histories with one tip have the same content, row by row
- `derived_of_writeAll`: the histories that recomputable writes leave are derived
- `forged_row_verifies`: a row has a twin under another operation with the same root
- `tip_does_not_bind_history`: two verified one-row stores with one tip and different operations
-/

namespace Ugk

open Store

variable {env : Env}

/-! ## Canonical texts of dictionaries -/

/-- Dictionaries with the same plain names and one document have the same fields. -/
theorem sameFields_of_sameDoc {kvs kvs' : List (String × PyVal)} (names : List String)
    (hp : PlainNames names) (hn : kvs.map Prod.fst = names) (hn' : kvs'.map Prod.fst = names)
    (hc : canonical env (strDict kvs) = true) (h : SameDoc env (strDict kvs) (strDict kvs')) :
    SameFields env kvs kvs' := by
  rw [SameDoc, canonicalDoc_strDict (hn ▸ hp), canonicalDoc_strDict (hn' ▸ hp)] at h
  rw [canonical, canonicalDoc_strDict (hn ▸ hp), isOk_map] at hc
  obtain ⟨items, hi⟩ := isOk_iff.mp hc
  rw [hi] at h
  obtain ⟨items', hi', hobj⟩ := Except.map_eq_ok h.symm
  have hitems : items' = items := by
    refine objOf_injective ?_ ?_ hobj
    · rw [docItems_names hi, docItems_names hi', hn, hn']
    · rw [docItems_names hi', hn']
      exact hp.1
  exact docItems_inj hi (hitems ▸ hi')

/-- Equal canonical texts of dictionaries with the same plain names come from equal documents. -/
theorem sameFields_of_canonicalJson_eq {kvs kvs' : List (String × PyVal)} {cs : List Char}
    (names : List String) (hp : PlainNames names) (hn : kvs.map Prod.fst = names)
    (hn' : kvs'.map Prod.fst = names) (h : canonicalJson env (strDict kvs) = .ok cs)
    (h' : canonicalJson env (strDict kvs') = .ok cs) : SameFields env kvs kvs' :=
  sameFields_of_sameDoc names hp hn hn'
    ((isOk_canonicalJson _).symm.trans (isOk_iff.mpr ⟨cs, h⟩)) (canonicalJson_inj h h')

theorem orNonCanonical_ok {what : String} {x : Except Exc (List Char)} {cs : List Char}
    (h : orNonCanonical what x = .ok cs) : x = .ok cs := by
  cases x with
  | error e => exact nomatch h
  | ok cs' => exact h

/-- Documents of strings that are ASCII on both sides determine the strings. -/
theorem eq_of_sameDoc_ascii {s t : String} (hs : isAscii s = true) (ht : isAscii t = true)
    (h : SameDoc env (.str s) (.str t)) : s = t := by
  have hnfc := nfc_eq_of_sameDoc h
  rwa [nfc_of_isAscii hs, nfc_of_isAscii ht] at hnfc

theorem Digest.eq_of_sameDoc {d d' : Digest} (h : SameDoc env (.str d.hex) (.str d'.hex)) : d = d' :=
  Digest.ext_hex (eq_of_sameDoc_ascii d.ascii d'.ascii h)

/-! ## What each commitment determines -/

section Commitments

variable (hinj : Function.Injective env.sha256)

include hinj

/-- Hashes of one prefix and two canonical texts agree only on equal texts. -/
theorem text_of_hash_eq {pre : Message} {cs cs' : List Char}
    (h : env.sha256 (pre ++ text cs) = env.sha256 (pre ++ text cs')) : cs = cs' :=
  text_injective (List.append_cancel_left (hinj h))

/-- `h_s` determines the operation and the parameters. -/
theorem hS_determines {op op' : String} {v v' : PyVal} {d : Digest} (h : hS env op v = .ok d)
    (h' : hS env op' v' = .ok d) : SameDoc env (.str op) (.str op') ∧ SameDoc env v v' := by
  obtain ⟨kvs, rfl⟩ := dict_of_hS h
  obtain ⟨kvs', rfl⟩ := dict_of_hS h'
  obtain ⟨cs, hcs, hd⟩ := Except.map_eq_ok h
  obtain ⟨cs', hcs', hd'⟩ := Except.map_eq_ok h'
  obtain rfl := text_of_hash_eq hinj (hd.trans hd'.symm)
  have hfields := sameFields_of_canonicalJson_eq ["op", "inputs"] (by decide) rfl rfl
    (orNonCanonical_ok hcs) (orNonCanonical_ok hcs')
  exact ⟨hfields.fieldValue "op", hfields.fieldValue "inputs"⟩

/-- `h_m` determines the intent, its reference and the legend hash. -/
theorem hM_determines {intent intent' ref ref' legend legend' regime : String}
    {lineage lineage' : List PyVal} {d : Digest}
    (h : hM env intent ref legend lineage regime = .ok d)
    (h' : hM env intent' ref' legend' lineage' regime = .ok d) :
    SameDoc env (.str intent) (.str intent') ∧ SameDoc env (.str ref) (.str ref') ∧
      SameDoc env (.str legend) (.str legend') := by
  obtain ⟨cs, hcs, hd⟩ := Except.map_eq_ok h
  obtain ⟨cs', hcs', hd'⟩ := Except.map_eq_ok h'
  have hmsg := List.append_cancel_right (hinj (hd.trans hd'.symm))
  obtain rfl := text_injective (List.append_cancel_left hmsg)
  have hfields := sameFields_of_canonicalJson_eq ["intent", "intent_ref", "legend_hash",
    "semantic_lineage"] (by decide) rfl rfl (orNonCanonical_ok hcs) (orNonCanonical_ok hcs')
  exact ⟨hfields.fieldValue "intent", hfields.fieldValue "intent_ref",
    hfields.fieldValue "legend_hash"⟩

/-- `h_j` determines the session. -/
theorem hJ_determines {phase root session session' key key' : String} {d : Digest}
    (h : hJ env phase root session key = .ok d) (h' : hJ env phase root session' key' = .ok d) :
    SameDoc env (.str session) (.str session') := by
  obtain ⟨cs, hcs, hd⟩ := Except.map_eq_ok h
  obtain ⟨cs', hcs', hd'⟩ := Except.map_eq_ok h'
  obtain rfl := text_of_hash_eq hinj (hd.trans hd'.symm)
  unfold cJ at hcs hcs'
  split at hcs
  · exact nomatch hcs
  rename_i phi hphi
  split at hcs'
  · exact nomatch hcs'
  rename_i phi' hphi'
  have houter := sameFields_of_canonicalJson_eq ["phi", "authority_key"] (by decide) rfl rfl
    (orNonCanonical_ok hcs) (orNonCanonical_ok hcs')
  obtain rfl := text_of_hash_eq hinj (Digest.eq_of_sameDoc (houter.fieldValue "phi"))
  exact (sameFields_of_canonicalJson_eq ["phase_code", "mosaic_root", "session_id"] (by decide) rfl
    rfl hphi hphi').fieldValue "session_id"

/-- `h_c` determines the policy, the warrant, the parent and the documents of the path. -/
theorem hC_determines {chain chain' : List PyVal} {policy policy' : String}
    {caps caps' basis basis' : List String} {parent parent' : String} {fresh : PyVal} {d : Digest}
    (h : hC env chain policy caps basis parent fresh = .ok d)
    (h' : hC env chain' policy' caps' basis' parent' fresh = .ok d) :
    SameDoc env (.list chain) (.list chain') ∧ SameDoc env (.str policy) (.str policy') ∧
      SameDoc env (strList basis) (strList basis') ∧ SameDoc env (.str parent) (.str parent') := by
  obtain ⟨cs, hcs, hd⟩ := Except.map_eq_ok h
  obtain ⟨cs', hcs', hd'⟩ := Except.map_eq_ok h'
  obtain rfl := text_of_hash_eq hinj (hd.trans hd'.symm)
  rw [cC] at hcs hcs'
  split at hcs
  · cases hcs
  rename_i ch hch
  split at hcs'
  · cases hcs'
  rename_i ch' hch'
  have hfields := sameFields_of_canonicalJson_eq ["G_c_root", "policy_id", "capabilities",
    "warrant_basis", "parent", "freshness"] (by decide) rfl rfl (orNonCanonical_ok hcs)
    (orNonCanonical_ok hcs')
  obtain rfl := text_injective (hinj (Digest.eq_of_sameDoc (hfields.fieldValue "G_c_root")))
  exact ⟨canonicalJson_inj hch hch', hfields.fieldValue "policy_id",
    hfields.fieldValue "warrant_basis", hfields.fieldValue "parent"⟩

end Commitments

/-! ## Lists of documents -/

theorem toJsonList_ok {xs : List PyVal} {js : List Json}
    (h : toJsonList env false (normalizeList env xs) = .ok js) :
    List.Forall₂ (fun x j => canonicalDoc env x = .ok j) xs js := by
  induction xs generalizing js with
  | nil => cases h; exact .nil
  | cons x xs ih =>
    rw [normalizeList, toJsonList] at h
    split at h
    · cases h
    · rename_i j hj
      obtain ⟨rest, hrest, rfl⟩ := Except.map_eq_ok h
      exact .cons hj (ih hrest)

/-- Lists with one document have the same documents element by element. -/
theorem forall₂_of_sameDoc_list {xs ys : List PyVal} (hc : canonical env (.list xs) = true)
    (h : SameDoc env (.list xs) (.list ys)) : List.Forall₂ (SameDoc env) xs ys := by
  obtain ⟨j, hj⟩ := isOk_iff.mp hc
  have hj' := Eq.trans (Eq.symm h) hj
  rw [canonicalDoc, normalize, toJson] at hj hj'
  obtain ⟨js, hjs, rfl⟩ := Except.map_eq_ok hj
  obtain ⟨js', hjs', heq⟩ := Except.map_eq_ok hj'
  obtain rfl := Json.arr.inj heq
  have hx := toJsonList_ok hjs
  have hy := toJsonList_ok hjs'
  clear hc h hj hj' hjs hjs'
  induction hx generalizing ys with
  | nil => cases hy; exact .nil
  | cons hxj _ ih =>
    cases hy with
    | cons hyj hrest => exact .cons (hxj.trans hyj.symm) (ih rfl hrest)

/-! ## The path determines the authority -/

theorem edgeFor_subject {cfg : Config} {built : List String} {subject : String} {e : AuthorityEdge}
    (h : edgeFor cfg built subject = some e) : e.subject = subject := by
  rw [edgeFor] at h
  split at h
  · rename_i e' hfind
    obtain rfl := Option.some.inj h
    simpa using List.find?_some hfind
  · split at h
    · rw [← Option.some.inj h]
      rfl
    · cases h

/-- A walk starts at the edge of the authority it starts from. -/
theorem walkPath_ok {cfg : Config} {built : List String} {fuel : Nat} {seen : List String}
    {cursor : String} {path : List AuthorityEdge}
    (h : walkPath cfg built fuel seen cursor = .ok path) :
    (cursor = governorAuthority ∧ path = []) ∨
      ∃ e rest, path = e :: rest ∧ e.subject = cursor ∧ cursor ≠ governorAuthority := by
  cases fuel with
  | zero => cases h
  | succ fuel =>
    rw [walkPath] at h
    split at h
    · rename_i hgov
      exact .inl ⟨hgov, (Except.ok.inj h).symm⟩
    · rename_i hgov
      split at h
      · cases h
      · split at h
        · cases h
        · rename_i e he
          obtain ⟨rest, _, rfl⟩ := Except.map_eq_ok h
          exact .inr ⟨e, rest, rfl, edgeFor_subject he, hgov⟩

/-- The documents of two paths determine the authorities at their ends. -/
theorem authority_of_paths {cfg cfg' : Config} {built built' : List String} {a a' : String}
    {path path' : List AuthorityEdge} (h : canonicalPathFor cfg built a = .ok path)
    (h' : canonicalPathFor cfg' built' a' = .ok path')
    (hdoc : SameDoc env (.list (path.map AuthorityEdge.toCanonicalDict))
      (.list (path'.map AuthorityEdge.toCanonicalDict))) : nfc env a = nfc env a' := by
  have hcanon : canonical env (.list (path.map AuthorityEdge.toCanonicalDict)) = true := by
    refine canonical_list fun x hx => ?_
    obtain ⟨e, _, rfl⟩ := List.mem_map.mp hx
    exact canonical_edge e
  have hall := forall₂_of_sameDoc_list hcanon hdoc
  obtain ⟨walk, hwalk, rfl⟩ := Except.map_eq_ok h
  obtain ⟨walk', hwalk', rfl⟩ := Except.map_eq_ok h'
  rw [List.map_reverse, List.map_reverse, List.forall₂_reverse_iff] at hall
  rcases walkPath_ok hwalk with ⟨rfl, rfl⟩ | ⟨e, rest, rfl, rfl, _⟩
  · rcases walkPath_ok hwalk' with ⟨rfl, _⟩ | ⟨e', rest', rfl, _, _⟩
    · rfl
    · exact nomatch hall
  · rcases walkPath_ok hwalk' with ⟨_, rfl⟩ | ⟨e', rest', rfl, rfl, _⟩
    · exact nomatch hall
    · obtain ⟨hhead, _⟩ := List.forall₂_cons.mp hall
      have hfields := sameFields_of_sameDoc ["issuer", "subject", "capability_set", "edge_time",
        "valid_until", "issuer_key_id", "signature"] (by decide) rfl rfl (canonical_edge e) hhead
      exact nfc_eq_of_sameDoc (hfields.fieldValue "subject")

/-! ## The policy determines an unregistered jurisdiction -/

/-- The members of a policy's document. -/
def Policy.items (p : Policy) : List (String × Json) := [
  ("subjects", .arr (p.subjects.map .str)), ("decision_rules", .arr (p.decisionRules.map .str)),
  ("version", .str p.version), ("issuer_key_id", .str p.issuerKeyId),
  ("signature", .str p.signature)]

/-- The canonical text of a policy. -/
theorem artifactText_policy (p : Policy) :
    artifactText env (strDict [("subjects", strList p.subjects),
      ("decision_rules", strList p.decisionRules), ("version", .str p.version),
      ("issuer_key_id", .str p.issuerKeyId), ("signature", .str p.signature)]) =
    Json.render ⟨false, false⟩ (objOf p.items) := by
  have hitems : jsonItems env false [("subjects", strList p.subjects),
      ("decision_rules", strList p.decisionRules), ("version", .str p.version),
      ("issuer_key_id", .str p.issuerKeyId), ("signature", .str p.signature)] = .ok p.items := by
    simp only [jsonItems, toJson_strList, toJson, Except.map, Policy.items]
  rw [artifactText, canonicalJsonBytes, toJson_strDict, hitems]
  rfl

/-- Under an injective hash the policy identifier determines the policy's subjects. -/
theorem subjects_of_idPolicy (hinj : Function.Injective env.sha256) {p p' : Policy}
    (h : idPolicy env p = idPolicy env p') : p.subjects = p'.subjects := by
  have htext := text_injective (hinj (Digest.ext_hex h))
  rw [artifactText_policy, artifactText_policy] at htext
  have hnodup : (p.items.map Prod.fst).Nodup :=
    show ["subjects", "decision_rules", "version", "issuer_key_id", "signature"].Nodup by decide
  have hitems : p.items = p'.items := objOf_injective rfl hnodup (Json.render_injective _ htext)
  have hsubjects := (Prod.mk.inj (List.cons.inj hitems).1).2
  exact List.map_injective_iff.mpr (fun _ _ hab => Json.str.inj hab) (Json.arr.inj hsubjects)

/-- Jurisdictions with one policy are the same unless one of them has a registered policy. -/
theorem jurisdiction_of_policy {cfg : Config} (hinj : Function.Injective cfg.sha256) {j j' : String}
    (hj : cfg.policies.lookup j = none) (hj' : cfg.policies.lookup j' = none)
    (h : lookupPolicyId cfg j = lookupPolicyId cfg j') : j = j' := by
  rw [lookupPolicyId, lookupPolicyId, hj, hj'] at h
  have hsubjects := subjects_of_idPolicy hinj h
  have hname := (List.cons.inj hsubjects).1
  have hlist := congrArg String.toList hname
  rw [String.toList_append, String.toList_append] at hlist
  exact String.toList_inj.mp (List.append_cancel_left hlist)

/-! ## Derived histories -/

/-- The arguments a receipt names. -/
def argsOf (r : Receipt) : WriteArgs :=
  { op := r.op
    authority := r.authority
    parameters := r.parameters
    intent := some r.intent
    jurisdiction := r.jurisdiction
    sessionDkn := r.sessionDkn
    legendHash := r.legendHash
    warrantId := r.warrantId
    intentRef := r.intentRef }

/-- The root of a receipt is the one the binding computes from the receipt after the given tip. -/
def Rooted (cfg : Config) (prev : Tip) (r : Receipt) : Prop :=
  ∃ built c, commitments cfg built prev (argsOf r) r.parameters = .ok c ∧ r.hR = c.hR.hex

/-- Every root is the one the binding computes from its receipt and the receipt before it. -/
def Derived (cfg : Config) : Tip → List Receipt → Prop
  | _, [] => True
  | prev, r :: rest => Rooted cfg prev r ∧ Derived cfg (tipOf r) rest

/-- The tip after a list of receipts. -/
def lastTip : Tip → List Receipt → Tip
  | prev, [] => prev
  | _, r :: rest => lastTip (tipOf r) rest

theorem derived_concat {cfg : Config} {prev : Tip} {receipts : List Receipt} {r : Receipt} :
    Derived cfg prev (receipts ++ [r]) ↔
      Derived cfg prev receipts ∧ Rooted cfg (lastTip prev receipts) r := by
  induction receipts generalizing prev with
  | nil => simp [Derived, lastTip]
  | cons r' rest ih => simp [Derived, lastTip, ih, and_assoc]

theorem lastTip_concat (prev : Tip) (receipts : List Receipt) (r : Receipt) :
    lastTip prev (receipts ++ [r]) = tipOf r := by
  induction receipts generalizing prev with
  | nil => rfl
  | cons r' rest ih => exact ih _

/-- What the tip binds of a receipt. -/
structure SameContent (cfg : Config) (r r' : Receipt) : Prop where
  op : nfc cfg.toEnv r.op = nfc cfg.toEnv r'.op
  authority : nfc cfg.toEnv r.authority = nfc cfg.toEnv r'.authority
  parameters : SameDoc cfg.toEnv r.parameters r'.parameters
  intent : nfc cfg.toEnv r.intent = nfc cfg.toEnv r'.intent
  policy : lookupPolicyId cfg r.jurisdiction = lookupPolicyId cfg r'.jurisdiction
  jurisdiction : cfg.policies.lookup r.jurisdiction = none →
    cfg.policies.lookup r'.jurisdiction = none → r.jurisdiction = r'.jurisdiction
  legendHash : nfc cfg.toEnv r.legendHash = nfc cfg.toEnv r'.legendHash
  sessionDkn : nfc cfg.toEnv r.sessionDkn = nfc cfg.toEnv r'.sessionDkn
  warrantId : nfc cfg.toEnv r.warrantId = nfc cfg.toEnv r'.warrantId
  parentHR : r.parentHR = r'.parentHR

/-- A receipt rooted in the one its parent hash names. -/
def Anchored (cfg : Config) (r : Receipt) : Prop :=
  ∃ prev, prev.priorHR = r.parentHR ∧ isAscii prev.priorHR = true ∧ Rooted cfg prev r

/-- Every receipt of a linked derived history is anchored. -/
theorem Derived.anchored {cfg : Config} {prev : Tip} {receipts : List Receipt}
    (h : Derived cfg prev receipts) (hascii : isAscii prev.priorHR = true)
    (hl : Chain.Linked Receipt.hR Receipt.parentHR prev.priorHR receipts) :
    ∀ r ∈ receipts, Anchored cfg r := by
  induction receipts generalizing prev with
  | nil => simp
  | cons r rest ih =>
    obtain ⟨hroot, hrest⟩ := h
    have hr : isAscii r.hR = true := by
      obtain ⟨_, c, _, hc⟩ := hroot
      exact hc ▸ c.hR.ascii
    rw [List.forall_mem_cons]
    exact ⟨⟨prev, hl.1.symm, hascii, hroot⟩, ih hrest hr hl.2⟩

/-- The warrant basis determines the warrant. -/
theorem warrant_of_basis {w w' : String}
    (h : SameDoc env (strList (if w = "" then [] else [w]))
      (strList (if w' = "" then [] else [w']))) : nfc env w = nfc env w' := by
  have hall := forall₂_of_sameDoc_list (canonical_strList _) h
  split_ifs at hall with hw hw' hw'
  · rw [hw, hw']
  · exact nomatch hall
  · exact nomatch hall
  · exact nfc_eq_of_sameDoc (List.forall₂_cons.mp hall).1

/-- Under an injective hash a root determines what it binds. -/
theorem sameContent_of_hR {cfg : Config} (hinj : Function.Injective cfg.sha256) {r r' : Receipt}
    (h : Anchored cfg r) (h' : Anchored cfg r') (heq : r.hR = r'.hR) : SameContent cfg r r' := by
  obtain ⟨prev, hp, ha, built, c, hcom, hr⟩ := h
  obtain ⟨prev', hp', ha', built', c', hcom', hr'⟩ := h'
  obtain ⟨path, caps, hpath, hs, hc, hm, hj, hroot⟩ := commitments_ok hcom
  obtain ⟨path', caps', hpath', hs', hc', hm', hj', hroot'⟩ := commitments_ok hcom'
  have hR : c'.hR = c.hR := Digest.ext_hex (hr'.symm.trans (heq.symm.trans hr))
  rw [hR] at hroot'
  obtain ⟨e1, e2, e3, e4, _⟩ := computeHR_injective hinj hroot hroot'
  obtain ⟨hop, hparams⟩ := hS_determines hinj hs (e1 ▸ hs')
  obtain ⟨hchain, hpolicy, hbasis, hparent⟩ := hC_determines hinj hc (e2 ▸ hc')
  obtain ⟨hintent, _, hlegend⟩ := hM_determines hinj hm (e3 ▸ hm')
  have hsession := hJ_determines hinj hj (e4 ▸ hj')
  have hpol : lookupPolicyId cfg r.jurisdiction = lookupPolicyId cfg r'.jurisdiction :=
    eq_of_sameDoc_ascii (Digest.ascii _) (Digest.ascii _) hpolicy
  exact {
    op := nfc_eq_of_sameDoc hop
    authority := authority_of_paths hpath hpath' hchain
    parameters := hparams
    intent := nfc_eq_of_sameDoc hintent
    policy := hpol
    jurisdiction := fun hu hu' => jurisdiction_of_policy hinj hu hu' hpol
    legendHash := nfc_eq_of_sameDoc hlegend
    sessionDkn := nfc_eq_of_sameDoc hsession
    warrantId := warrant_of_basis hbasis
    parentHR := by rw [← hp, ← hp', eq_of_sameDoc_ascii ha ha' hparent] }

/-! ## The tip binds the history -/

/-- A verified chain is linked, and no root in it is empty. -/
theorem linked_of_verifyChain {rows : List Row} {receipts : List Receipt}
    (h : verifyChain env rows = .ok chainEstablished) (hread : allReceipts env rows = .ok receipts) :
    Chain.Linked Receipt.hR Receipt.parentHR genesis receipts ∧ ∀ r ∈ receipts, r.hR ≠ "" := by
  obtain ⟨b, hstream, h⟩ := Except.bind_eq_ok h
  cases b with
  | false => exact absurd (Except.ok.inj h) (by decide)
  | true =>
    obtain ⟨receipts', hread', hlinked⟩ := linked_of_verifyStreamHash hstream
    obtain rfl := Except.ok.inj (hread.symm.trans hread')
    exact hlinked

/-- The verified tip of a derived history binds every receipt of it. -/
theorem tip_binds_derived_history {cfg : Config} {rows rows' : List Row}
    {receipts receipts' : List Receipt} (hinj : Function.Injective cfg.sha256)
    (hgen : ∀ m, (cfg.sha256 m).hex ≠ genesis)
    (hread : allReceipts cfg.toEnv rows = .ok receipts)
    (hread' : allReceipts cfg.toEnv rows' = .ok receipts')
    (hv : verifyChain cfg.toEnv rows = .ok chainEstablished)
    (hv' : verifyChain cfg.toEnv rows' = .ok chainEstablished)
    (hd : Derived cfg {} receipts) (hd' : Derived cfg {} receipts')
    (htip : streamHash rows = streamHash rows') :
    rows.length = rows'.length ∧ List.Forall₂ (SameContent cfg) receipts receipts' := by
  obtain ⟨hl, hne⟩ := linked_of_verifyChain hv hread
  obtain ⟨hl', hne'⟩ := linked_of_verifyChain hv' hread'
  rw [streamHash_eq_tip hread hne, streamHash_eq_tip hread' hne'] at htip
  have hascii : isAscii ({} : Tip).priorHR = true := by decide
  have hrooted (r : Receipt) (h : Anchored cfg r) : r.hR ≠ genesis := by
    obtain ⟨_, _, _, _, c, hcom, hr⟩ := h
    obtain ⟨_, _, _, _, _, _, _, hroot⟩ := commitments_ok hcom
    rw [computeHR_strictLeaves] at hroot
    rw [hr, ← Except.ok.inj hroot]
    exact hgen _
  have hall : List.Forall₂ (SameContent cfg) receipts receipts' := by
    refine Chain.forall₂_of_tip_eq (fun x y hx hy h => ?_) hrooted _ _
      (hd.anchored hascii hl) (hd'.anchored hascii hl') hl hl' htip
    have hsame := sameContent_of_hR hinj hx hy h
    exact ⟨hsame, hsame.parentHR⟩
  refine ⟨?_, hall⟩
  rw [← length_of_mapM hread, ← length_of_mapM hread', hall.length_eq]

/-! ## Written histories are derived -/

/-- The binding reads the parameters through their document. -/
theorem commitments_congr {cfg : Config} {built : List String} {tip : Tip} {a : WriteArgs}
    {r : Receipt} {q d : PyDict} {c : Commitments}
    (h : commitments cfg built tip a (.dict d) = .ok c)
    (hargs : r.op = a.op ∧ r.authority = a.authority ∧ r.intent = a.intentText ∧
      r.jurisdiction = a.jurisdiction ∧ r.sessionDkn = a.sessionDkn ∧
      r.legendHash = a.legendHash ∧ r.warrantId = a.warrantId ∧ r.intentRef = a.intentRef)
    (hdoc : SameDoc cfg.toEnv (.dict q) (.dict d)) :
    commitments cfg built tip (argsOf r) (.dict q) = .ok c := by
  obtain ⟨hop, hauth, hintent, hjur, hsession, hlegend, hwarrant, href⟩ := hargs
  rw [← h]
  simp only [commitments, argsOf, WriteArgs.intentText, Option.getD_some, hop, hauth, hintent, hjur,
    hsession, hlegend, hwarrant, href, hS_congr hdoc]

/-- A history that reads back, is derived, and ends at the tip of the store. -/
def Tracked (cfg : Config) (s : StoreState) : Prop :=
  ∃ receipts, allReceipts cfg.toEnv (rows s) = .ok receipts ∧ Derived cfg {} receipts ∧
    s.tip = lastTip {} receipts

theorem Tracked.write {cfg : Config} {clock : Clock} {a : WriteArgs} {s : StoreState}
    {receipt : Receipt} (h : Tracked cfg s) (hc : Recomputable cfg.toEnv a)
    (hw : (Store.write cfg clock a s).1 = .ok receipt) :
    Tracked cfg (Store.write cfg clock a s).2 := by
  obtain ⟨receipts, hread, hderived, htip⟩ := h
  obtain ⟨r, planned', row, hr, hplan, _, hstate⟩ := write_ok hw
  obtain ⟨q, hback, hdoc⟩ := readBack_of_write (s.conn.current.seq + 1) hc hr hplan
  obtain ⟨c, sf, hBody, trace, hcom, _, _, _, rfl, _⟩ := planWrite_ok hplan
  obtain ⟨d, hd⟩ := dict_of_hS (commitments_hS hcom)
  rw [hd] at hcom hdoc
  refine ⟨receipts ++ [{ finish (draft s.tip (clock s.ticks) a c r sf) hBody trace with
    receiptId := s.conn.current.seq + 1, parameters := .dict q }], ?_, ?_, ?_⟩
  · rw [hstate, rows_appended, allReceipts, List.mapM_append]
    have hrows : rows (sampled cfg a s) = rows s := rfl
    rw [hrows, show (rows s).mapM (rowToReceipt cfg.toEnv) = .ok receipts from hread,
      List.mapM_cons]
    rw [show (sampled cfg a s).conn.current.seq = s.conn.current.seq from rfl, hback]
    rfl
  · refine derived_concat.mpr ⟨hderived, ?_⟩
    rw [← htip]
    exact ⟨_, c, commitments_congr hcom ⟨rfl, rfl, rfl, rfl, rfl, rfl, rfl, rfl⟩ hdoc, rfl⟩
  · rw [hstate, tip_appended, lastTip_concat]
    rfl

/-- The histories that recomputable writes leave are derived. -/
theorem derived_of_writeAll {cfg : Config} {clock : Clock} {as : List WriteArgs} {s : StoreState}
    (h : Tracked cfg s) (hc : ∀ a ∈ as, Recomputable cfg.toEnv a)
    (hw : (writeAll cfg clock as s).1 = .ok ()) : Tracked cfg (writeAll cfg clock as s).2 := by
  induction as generalizing s with
  | nil => exact h
  | cons a as ih =>
    rw [writeAll] at hw ⊢
    cases ha : Store.write cfg clock a s with
    | mk result s' =>
      cases result with
      | error e => rw [Proc.bind_of_error ha] at hw; cases hw
      | ok receipt =>
        rw [Proc.bind_of_ok ha] at hw ⊢
        have hs' := h.write (hc a (by simp)) (by rw [ha])
        rw [ha] at hs'
        exact ih hs' (fun b hb => hc b (by simp [hb])) hw

theorem Fresh.tracked {cfg : Config} {s : StoreState} (h : Fresh s) : Tracked cfg s := by
  refine ⟨[], ?_, trivial, h.tip⟩
  rw [rows, h.conn]
  rfl

theorem tip_binds_derived_history_sampleWrite :
    ∃ receipts, allReceipts sampleEnv
        (rows (writeAll (configOf sampleEnv) sampleClock [sampleWrite] Store.empty).2) =
          .ok receipts ∧
      List.Forall₂ (SameContent (configOf sampleEnv)) receipts receipts := by
  have hw := writeAll_singleton isOk_write_sampleWrite
  have hc := recomputable_of_mem_sample
  have hfresh : Fresh Store.empty := ⟨rfl, rfl⟩
  obtain ⟨receipts, hread, hderived, _⟩ := derived_of_writeAll hfresh.tracked hc hw
  obtain ⟨receipts', hrows, _⟩ := hfresh.intact.writeAll hc hw
  exact ⟨receipts, hread, (tip_binds_derived_history sampleHash_injective
    (fun m => sampleHash_hex_ne m (by decide)) hread hread hrows.verifyChain hrows.verifyChain
    hderived hderived rfl).2⟩

/-! ## Stored roots are not re-derived -/

/-- The row of a receipt under another operation, with the two unkeyed hashes replaced. -/
theorem rowToReceipt_withOp {row : Row} {r : Receipt} {op' : String} (hs hb : String)
    (hread : rowToReceipt env row = .ok r) (hop : expand env op' = op') :
    rowToReceipt env { row with op := op', hS := hs, hBody := hb } =
      .ok { r with op := op', hS := hs, hBody := hb } := by
  obtain ⟨q, hq, rfl⟩ := Except.map_eq_ok hread
  simp only [rowToReceipt, hq, Except.map, hop]

/-- The base fields that are not strings or numbers of the source's own. -/
theorem canonical_baseFields_iff (r : Receipt) :
    (∀ kv ∈ r.baseFields, canonical env kv.2 = true) ↔
      canonical env r.parameters = true ∧ canonical env (.float r.timestamp) = true ∧
        canonical env (orEmpty r.hJ) = true := by
  simp [Receipt.baseFields]

/-- The verified body of a receipt under another operation still has a canonical document. -/
theorem isOk_computeHBody_withOp {r : Receipt} (op' hs hb : String)
    (h : isOk (computeHBody env (verifiedBody r)) = true) :
    isOk (computeHBody env (verifiedBody { r with op := op', hS := hs, hBody := hb })) = true := by
  rw [isOk_computeHBody_iff] at h ⊢
  simp only [Receipt.bodyFields, List.append_assoc, List.forall_mem_append] at h ⊢
  have hbase := (canonical_baseFields_iff (verifiedBody r)).mp h.1
  exact ⟨(canonical_baseFields_iff (verifiedBody { r with op := op', hS := hs, hBody := hb })).mpr
    hbase, h.2⟩

/-- Any receipt that verifies has a twin under another operation that verifies too, with the same
    root and the same parent: the verifiers recompute `h_s` and `h_body`, never `h_r`. -/
theorem forged_row_verifies {row : Row} {r : Receipt} {op' : String}
    (hread : rowToReceipt env row = .ok r) (hv : verifyReceipt env r = .ok true) (hne : r.hS ≠ "")
    (hop : expand env op' = op') :
    ∃ row' r', rowToReceipt env row' = .ok r' ∧ verifyReceipt env r' = .ok true ∧ r'.op = op' ∧
      r'.hR = r.hR ∧ r'.parentHR = r.parentHR := by
  obtain ⟨d, hstate, _⟩ := state_of_verifyReceipt hv hne
  obtain ⟨b, hbody, _⟩ := body_of_verifyReceipt hv
  have hstate' : isOk (hS env op' r.parameters) = true :=
    isOk_hS_iff.mpr (isOk_hS_iff.mp (isOk_iff.mpr ⟨d, hstate⟩))
  obtain ⟨d', hd'⟩ := isOk_iff.mp hstate'
  obtain ⟨b', hb'⟩ := isOk_iff.mp
    (isOk_computeHBody_withOp op' d'.hex "" (isOk_iff.mpr ⟨b, hbody⟩))
  exact ⟨_, _, rowToReceipt_withOp d'.hex b'.hex hread hop, verifyReceipt_of_eq hd' rfl hb' rfl, rfl,
    rfl, rfl⟩

/-- A single row that verifies and links to the genesis hash is a verified chain. -/
theorem verifyChain_singleton {row : Row} {r : Receipt} (hread : rowToReceipt env row = .ok r)
    (hv : verifyReceipt env r = .ok true) (hroot : r.hR ≠ "") (hparent : r.parentHR = genesis) :
    verifyChain env [row] = .ok chainEstablished ∧ streamHash [row] = r.hR := by
  have hrows : allReceipts env [row] = .ok [r] := by
    rw [allReceipts, List.mapM_cons, hread]
    rfl
  constructor
  · have hstream : verifyStreamHash env [row] = .ok true := by
      rw [verifyStreamHash, hrows]
      simp [Except.map, afterCheckpoint, linked, hroot, hparent]
    have hbodies : verifyReceiptBodies env [row] = .ok true := by
      rw [verifyReceiptBodies_singleton, hread]
      exact hv
    rw [verifyChain, hstream]
    change (verifyReceiptBodies env [row] >>= _) = _
    rw [hbodies]
    rfl
  · rw [streamHash_eq_tip hrows (by simpa using hroot)]
    rfl

/-- The store of one honest write, and another store with its tip: both verify, and their rows name
    different operations. -/
theorem tip_does_not_bind_history :
    ∃ row row', verifyChain sampleEnv [row] = .ok chainEstablished ∧
      verifyChain sampleEnv [row'] = .ok chainEstablished ∧ streamHash [row] = streamHash [row'] ∧
      rows (writeAll (configOf sampleEnv) sampleClock [sampleWrite] Store.empty).2 = [row] ∧
      (rowToReceipt sampleEnv row).map Receipt.op = .ok "attest" ∧
      (rowToReceipt sampleEnv row').map Receipt.op = .ok "audit" := by
  obtain ⟨receipt, hw⟩ := isOk_iff.mp isOk_write_sampleWrite
  obtain ⟨r, planned', row, hr, hplan, _, hstate⟩ := write_ok hw
  obtain ⟨q, hread, _⟩ := readBack_of_write 1 recomputable_sampleWrite hr hplan
  obtain ⟨read, hread', hv, hroot, hne, hs, _, hparent⟩ :=
    verifiedRow_of_write 1 recomputable_sampleWrite hr hplan
  have hlegend : expand (configOf sampleEnv).toEnv "audit" = "audit" := by decide +kernel
  obtain ⟨row', r', hrow', hv', hop', hR', hparent'⟩ :=
    forged_row_verifies hread' hv hs hlegend
  have hgenesis : read.parentHR = genesis := hparent
  obtain ⟨hchain, hstream⟩ := verifyChain_singleton hread' hv hne hgenesis
  obtain ⟨hchain', hstream'⟩ := verifyChain_singleton hrow' hv' (hR' ▸ hne)
    (hparent'.trans hgenesis)
  have hop : (rowToReceipt (configOf sampleEnv).toEnv { row with receiptId := 1 }).map Receipt.op =
      .ok planned'.op := by
    rw [hread]
    rfl
  refine ⟨_, row', hchain, hchain', ?_, ?_, ?_, ?_⟩
  · rw [hstream, hstream', hR']
  · rw [writeAll_singleton_snd isOk_write_sampleWrite, hstate]
    exact rows_appended planned' row _
  · obtain ⟨c, s, hBody, trace, _, _, _, _, rfl, _⟩ := planWrite_ok hplan
    exact hop
  · exact (congrArg (Except.map Receipt.op) hrow').trans (congrArg Except.ok hop')

end Ugk
