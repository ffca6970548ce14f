import Mathlib.Data.List.Perm.Basic
import Ugk.Native.Oracle
import Ugk.Spec.Body
import Ugk.Spec.Sample

/-!
# What the dependency oracle earns

`independent` reads a chain only through the references that resolve and those that name a grant.
A verdict of independence splits into what each candidate shows by itself and what holds between
the two; the first only grows with the chain, the second is symmetric.

## Key results

- `independent_iff`: the cascade of checks as one conjunction
- `conservative_iff`: when the oracle is symmetric, conservative and stable
- `independent_commutes_iff`: when two independent candidates commute
-/

namespace Ugk

namespace Scale

variable {env : Host} {chain chain' : Chain} {x y x' y' c : Candidate} {a b : Append}

/-! ## Evidence -/

/-- Does the reference name a committed receipt or effect? -/
def Chain.resolves (chain : Chain) (ref : String) : Bool :=
  chain.hasHash ref || chain.hasEffect ref

/-- Does the reference name a receipt that grants? -/
def Chain.grants (chain : Chain) (ref : String) : Bool :=
  (chain.receipt ref).any Receipt.grantClass

/-- The references a candidate rests on. -/
def Candidate.refs (c : Candidate) : List String :=
  c.inputRefs.getD [] ++ c.warrantBasisRefs.getD [] ++
    match c.refusalSubject with
    | some (.name s) => [s]
    | _ => []

/-- A posture operation that does not say so. -/
def Underdeclared (c : Candidate) : Prop :=
  c.op ∈ postureOps ∧ c.postureAffecting ≠ some true

instance : Decidable (Underdeclared c) := inferInstanceAs (Decidable (_ ∧ _))

/-- A global barrier: a change of posture, or a safety operation without a verified subject. -/
def Barrier (chain : Chain) (c : Candidate) : Prop :=
  c.postureAffecting = some true ∨
    c.op ∈ safetyOps ∧ refusalSubjectVerifiable c chain = false

instance : Decidable (Barrier chain c) := inferInstanceAs (Decidable (_ ∨ _ ∧ _))

theorem isBarrier_eq : isBarrier c chain =
    if Underdeclared c then .error ⟨"D5-POSTURE-UNDERDECLARED"⟩
    else .ok (decide (Barrier chain c)) := by
  have hsplit : isBarrier c chain = match postureCheck c with
      | .error e => .error e
      | .ok true => .ok true
      | .ok false => .ok (safetyOps.contains c.op && !refusalSubjectVerifiable c chain) := by
    unfold isBarrier
    cases postureCheck c with
    | error e => rfl
    | ok posture => cases posture <;> rfl
  rw [hsplit]
  unfold postureCheck Underdeclared Barrier
  by_cases haffecting : c.postureAffecting = some true
  · simp [haffecting]
  · have hfalse : (c.postureAffecting == some true) = false := beq_false_of_ne haffecting
    by_cases hop : c.op ∈ postureOps
    · simp [haffecting, hop]
    · by_cases hsafety : c.op ∈ safetyOps <;> simp [haffecting, hfalse, hop, hsafety]

/-- What a candidate shows by itself, its warrant apart. -/
structure Grounded (chain : Chain) (c : Candidate) : Prop where
  noMembers : aggregatesMembers c = false
  declared : ¬ Underdeclared c
  noBarrier : ¬ Barrier chain c
  keys : c.bindingKey ≠ []
  inputs : ∃ refs, c.inputRefs = some refs ∧ refs ≠ [] ∧ ∀ ref ∈ refs, chain.resolves ref = true

/-- A warrant whose references name grants; it may have none. -/
def Warranted (chain : Chain) (c : Candidate) : Prop :=
  ∃ refs, c.warrantBasisRefs = some refs ∧ ∀ ref ∈ refs, chain.grants ref = true

/-- What the second candidate must not have to do with the first. -/
structure Clear (x y : Candidate) : Prop where
  subject : isSubjectOf x y = false
  keys : ∀ k ∈ x.bindingKey, k ∉ y.bindingKey
  inputs : ∀ e ∈ y.producesEffects, e ∉ x.inputRefs.getD []
  session : marksSessionOf x y = false

theorem verifiedInputRefs_isSome :
    (∃ refs, verifiedInputRefs c chain = some refs) ↔
      ∃ refs, c.inputRefs = some refs ∧ refs ≠ [] ∧ ∀ ref ∈ refs, chain.resolves ref = true := by
  unfold verifiedInputRefs Chain.resolves
  cases c.inputRefs with
  | none => simp
  | some refs => cases refs <;> simp

theorem verifiedInputRefs_some {refs : List String} (h : verifiedInputRefs c chain = some refs) :
    refs = c.inputRefs.getD [] := by
  unfold verifiedInputRefs at h
  cases hrefs : c.inputRefs with
  | none =>
    rw [hrefs] at h
    cases h
  | some refs' =>
    rw [hrefs] at h
    dsimp only at h
    split at h
    · cases h
    · split at h
      · rw [Option.getD_some]
        exact (Option.some.inj h).symm
      · cases h

theorem verifiedWarrant_isSome :
    (∃ refs, verifiedWarrant c chain = some refs) ↔ Warranted chain c := by
  unfold verifiedWarrant Warranted Chain.grants
  cases c.warrantBasisRefs with
  | none => simp
  | some refs => simp

theorem meet_eq_false {α : Type} [BEq α] [LawfulBEq α] {xs ys : List α} :
    meet xs ys = false ↔ ∀ e ∈ xs, e ∉ ys := by
  simp [meet]

/-- The cascade after the barriers. -/
theorem checkDeclarations_iff : checkDeclarations x y chain = .independent ↔
    ((x.bindingKey ≠ [] ∧ y.bindingKey ≠ []) ∧
      (∃ xin, verifiedInputRefs x chain = some xin) ∧
      ∃ yin, verifiedInputRefs y chain = some yin) ∧
    (Warranted chain x ∧ Warranted chain y) ∧ Clear x y ∧ Clear y x := by
  rw [← verifiedWarrant_isSome, ← verifiedWarrant_isSome]
  unfold checkDeclarations
  constructor
  · intro h
    split at h
    · cases h
    rename_i hsubject
    split at h
    · cases h
    rename_i hmeet
    split at h
    · cases h
    rename_i hkeys
    split at h
    case h_2 => cases h
    rename_i xin yin hx hy
    split at h
    · cases h
    rename_i hin
    split at h
    case h_2 => cases h
    rename_i xw yw hxw hyw
    split at h
    · cases h
    rename_i hmarks
    simp only [Bool.or_eq_true, not_or, Bool.not_eq_true, List.isEmpty_eq_false_iff] at *
    rw [meet_eq_false] at hmeet
    rw [verifiedInputRefs_some hx, verifiedInputRefs_some hy, meet_eq_false, meet_eq_false] at hin
    exact ⟨⟨hkeys, ⟨xin, hx⟩, yin, hy⟩, ⟨⟨xw, hxw⟩, yw, hyw⟩,
      ⟨hsubject.1, hmeet, hin.1, hmarks.1⟩,
      ⟨hsubject.2, fun k hk hk' => hmeet k hk' hk, hin.2, hmarks.2⟩⟩
  · rintro ⟨⟨hkeys, ⟨xin, hx⟩, yin, hy⟩, ⟨⟨xw, hxw⟩, yw, hyw⟩, hxy, hyx⟩
    have hxin := verifiedInputRefs_some hx
    have hyin := verifiedInputRefs_some hy
    have hmeet : meet x.bindingKey y.bindingKey = false := meet_eq_false.mpr hxy.keys
    have hin : meet y.producesEffects xin = false := meet_eq_false.mpr (hxin ▸ hxy.inputs)
    have hin' : meet x.producesEffects yin = false := meet_eq_false.mpr (hyin ▸ hyx.inputs)
    simp [hxy.subject, hyx.subject, hmeet, hkeys, hx, hy, hin, hin', hxw, hyw, hxy.session,
      hyx.session]

/-- Without a barrier or an underdeclared posture the cascade decides. -/
theorem independent_of_grounded (hx : Grounded chain x) (hy : Grounded chain y) :
    independent x y chain = .ok (checkDeclarations x y chain) := by
  unfold independent eitherBarrier
  rw [isBarrier_eq, isBarrier_eq, if_neg hx.declared, if_neg hy.declared,
    decide_eq_false hx.noBarrier, decide_eq_false hy.noBarrier, hx.noMembers, hy.noMembers]
  rfl

/-- Independence: each candidate is grounded and warranted, and they keep clear of each other. -/
theorem independent_iff : independent x y chain = .ok .independent ↔
    (Grounded chain x ∧ Grounded chain y) ∧ (Warranted chain x ∧ Warranted chain y) ∧
      Clear x y ∧ Clear y x := by
  constructor
  · intro h
    have hsplit := h
    unfold independent eitherBarrier at hsplit
    rw [isBarrier_eq, isBarrier_eq] at hsplit
    split at hsplit
    · cases hsplit
    rename_i hmembers
    simp only [Bool.or_eq_true, not_or, Bool.not_eq_true] at hmembers
    by_cases hux : Underdeclared x
    · rw [if_pos hux] at hsplit
      cases hsplit
    rw [if_neg hux] at hsplit
    by_cases hbx : Barrier chain x
    · rw [decide_eq_true hbx] at hsplit
      cases hsplit
    rw [decide_eq_false hbx] at hsplit
    by_cases huy : Underdeclared y
    · rw [if_pos huy] at hsplit
      cases hsplit
    rw [if_neg huy] at hsplit
    by_cases hby : Barrier chain y
    · rw [decide_eq_true hby] at hsplit
      cases hsplit
    rw [decide_eq_false hby] at hsplit
    obtain ⟨⟨hkeys, hxin, hyin⟩, hrest⟩ := checkDeclarations_iff.mp (Except.ok.inj hsplit)
    exact ⟨⟨⟨hmembers.1, hux, hbx, hkeys.1, verifiedInputRefs_isSome.mp hxin⟩,
      ⟨hmembers.2, huy, hby, hkeys.2, verifiedInputRefs_isSome.mp hyin⟩⟩, hrest⟩
  · rintro ⟨⟨hx, hy⟩, hrest⟩
    rw [independent_of_grounded hx hy, checkDeclarations_iff.mpr
      ⟨⟨⟨hx.keys, hy.keys⟩, verifiedInputRefs_isSome.mpr hx.inputs,
        verifiedInputRefs_isSome.mpr hy.inputs⟩, hrest⟩]

/-! ## The chain only learns -/

/-- Every indexed hash is of a body with an earlier position. -/
structure Chain.WellFormed (env : Host) (chain : Chain) : Prop where
  hashes : ∀ e ∈ chain.byHash, ∃ pos < chain.receipts.length, ∃ prior cand akeys,
    e.1 = (env.sha256 (text (appendBody env pos prior cand akeys))).hex
  effects : ∀ e ∈ chain.effects, e.2 < chain.receipts.length

/-- The calls of `append`, one after the other. -/
def Chain.after (env : Host) (chain : Chain) (calls : List Append) : Chain :=
  calls.foldl (Chain.append env) chain

/-- A chain built by `append`. -/
def built (env : Host) (calls : List Append) : Chain := Chain.after env {} calls

/-- The position is the text before the first bar. -/
theorem appendBody_pos {n m : Nat} {prior prior' : String} {cand cand' : Candidate}
    {keys keys' : List BindingKey}
    (h : appendBody env n prior cand keys = appendBody env m prior' cand' keys') : n = m := by
  have hbar (k : Nat) : ∀ ch ∈ Nat.toDigits 10 k, (ch != '|') = true := by
    intro ch hch
    have hdigit := Nat.isDigit_of_mem_toDigits (by decide) (by decide) hch
    rw [bne_iff_ne]
    rintro rfl
    exact absurd hdigit (by decide)
  have htake (k : Nat) (rest : List Char) :
      (Nat.toDigits 10 k ++ '|' :: rest).takeWhile (· != '|') = Nat.toDigits 10 k := by
    rw [List.takeWhile_append_of_pos (hbar k), List.takeWhile_cons_of_neg (by decide),
      List.append_nil]
  have hdigits : Nat.toDigits 10 n = Nat.toDigits 10 m := by
    rw [← htake n, ← htake m]
    exact congrArg (List.takeWhile (· != '|')) h
  rw [← Nat.ofDigitChars_ten_toDigits (n := n), hdigits, Nat.ofDigitChars_ten_toDigits]

theorem Chain.receipts_append :
    (chain.append env a).receipts = chain.receipts ++ [chain.mint env a] := rfl

theorem Chain.receipt_append (h : String) : (chain.append env a).receipt h =
    if h = (chain.mint env a).rhash then some (chain.mint env a) else chain.receipt h := by
  unfold Chain.receipt Chain.append
  dsimp only
  rw [List.lookup_cons]
  by_cases heq : h = (chain.mint env a).rhash
  · simp [heq]
  · rw [if_neg heq, beq_false_of_ne heq]

/-- The new entries of the effect index. -/
theorem Chain.effects_append : (chain.append env a).effects =
    (a.cand.producesEffects.map fun eid => (eid, chain.receipts.length)).reverse ++
      chain.effects := by
  have hfold (eids : List String) (p : Nat) (effects : List (String × Nat)) :
      eids.foldl (fun effects eid => (eid, p) :: effects) effects =
        (eids.map fun eid => (eid, p)).reverse ++ effects := by
    induction eids generalizing effects with
    | nil => rfl
    | cons eid eids ih => rw [List.foldl_cons, ih, List.map_cons, List.reverse_cons,
        List.append_assoc, List.singleton_append]
  exact hfold _ _ _

theorem Chain.hasEffect_iff (eid : String) :
    chain.hasEffect eid = true ↔ ∃ p, (eid, p) ∈ chain.effects := by
  unfold Chain.hasEffect
  rw [List.lookup_isSome_iff]
  constructor
  · rintro ⟨e, he, heq⟩
    exact ⟨e.2, by rw [eq_of_beq heq]; exact he⟩
  · rintro ⟨p, hp⟩
    exact ⟨(eid, p), hp, beq_self_eq_true _⟩

theorem Chain.wellFormed_append (h : chain.WellFormed env) :
    (chain.append env a).WellFormed env := by
  have hlength : (chain.append env a).receipts.length = chain.receipts.length + 1 := by
    rw [Chain.receipts_append, List.length_append, List.length_singleton]
  constructor
  · intro e he
    rw [hlength]
    rcases List.mem_cons.mp he with rfl | he
    · exact ⟨_, Nat.lt_succ_self _, _, _, _, rfl⟩
    · obtain ⟨pos, hpos, hbody⟩ := h.hashes e he
      exact ⟨pos, Nat.lt_succ_of_lt hpos, hbody⟩
  · intro e he
    rw [hlength]
    rw [Chain.effects_append, List.mem_append, List.mem_reverse, List.mem_map] at he
    rcases he with ⟨eid, -, rfl⟩ | he
    · exact Nat.lt_succ_self _
    · exact Nat.lt_succ_of_lt (h.effects e he)

theorem Chain.wellFormed_after (h : chain.WellFormed env) (calls : List Append) :
    (chain.after env calls).WellFormed env := by
  induction calls generalizing chain with
  | nil => exact h
  | cons call calls ih => exact ih (Chain.wellFormed_append h)

theorem built_wellFormed (env : Host) (calls : List Append) : (built env calls).WellFormed env :=
  Chain.wellFormed_after ⟨fun _ h => (List.not_mem_nil h).elim,
    fun _ h => (List.not_mem_nil h).elim⟩ calls

/-- A new receipt has a new hash. -/
theorem Chain.receipt_mint (hinj : Function.Injective env.sha256) (h : chain.WellFormed env) :
    chain.receipt (chain.mint env a).rhash = none := by
  unfold Chain.receipt
  rw [List.lookup_eq_none_iff]
  intro e he
  obtain ⟨pos, hpos, prior, cand, akeys, hhash⟩ := h.hashes e he
  rw [bne_iff_ne]
  intro heq
  rw [hhash] at heq
  have hbody := text_injective (hinj (Digest.ext_hex heq))
  exact Nat.ne_of_gt hpos (appendBody_pos hbody)

/-- A committed receipt stays where its hash leads. -/
theorem Chain.receipt_append_of_some (hinj : Function.Injective env.sha256)
    (h : chain.WellFormed env) {ref : String} {r : Receipt} (hr : chain.receipt ref = some r) :
    (chain.append env a).receipt ref = some r := by
  rw [Chain.receipt_append, if_neg, hr]
  rintro rfl
  rw [Chain.receipt_mint hinj h] at hr
  cases hr

/-- Every reference a chain resolves, and every grant it knows. -/
def Chain.Learns (chain chain' : Chain) : Prop :=
  ∀ ref, (chain.hasHash ref = true → chain'.hasHash ref = true) ∧
    (chain.hasEffect ref = true → chain'.hasEffect ref = true) ∧
    (chain.grants ref = true → chain'.grants ref = true)

theorem Chain.learns_append (hinj : Function.Injective env.sha256) (h : chain.WellFormed env) :
    chain.Learns (chain.append env a) := by
  intro ref
  refine ⟨fun href => ?_, fun href => ?_, fun href => ?_⟩
  · obtain ⟨r, hr⟩ := Option.isSome_iff_exists.mp href
    unfold Chain.hasHash
    rw [Chain.receipt_append_of_some hinj h hr]
    rfl
  · rw [Chain.hasEffect_iff] at href ⊢
    obtain ⟨p, hp⟩ := href
    exact ⟨p, Chain.effects_append ▸ List.mem_append_right _ hp⟩
  · unfold Chain.grants at href ⊢
    obtain ⟨r, hr, hgrant⟩ := (Option.any_eq_true _ _).mp href
    rw [Chain.receipt_append_of_some hinj h hr]
    exact hgrant

theorem Chain.learns_after (hinj : Function.Injective env.sha256) (h : chain.WellFormed env)
    (calls : List Append) : chain.Learns (chain.after env calls) := by
  induction calls generalizing chain with
  | nil => exact fun _ => ⟨id, id, id⟩
  | cons call calls ih =>
    intro ref
    have hstep := Chain.learns_append (a := call) hinj h ref
    have hrest := ih (Chain.wellFormed_append (a := call) h) ref
    exact ⟨hrest.1 ∘ hstep.1, hrest.2.1 ∘ hstep.2.1, hrest.2.2 ∘ hstep.2.2⟩

theorem Grounded.mono (hl : chain.Learns chain') (h : Grounded chain c) : Grounded chain' c where
  noMembers := h.noMembers
  declared := h.declared
  noBarrier := by
    rintro (haffecting | ⟨hop, hverify⟩)
    · exact h.noBarrier (.inl haffecting)
    · refine h.noBarrier (.inr ⟨hop, ?_⟩)
      unfold refusalSubjectVerifiable at hverify ⊢
      split
      · rfl
      · rename_i s hs
        rw [hs] at hverify
        simp only [Bool.and_eq_false_iff, Bool.or_eq_false_iff] at hverify ⊢
        refine hverify.imp_right fun hnone => ⟨?_, ?_⟩
        · exact Bool.eq_false_of_not_eq_true fun hhash =>
            Bool.eq_false_iff.mp hnone.1 ((hl s).1 hhash)
        · exact Bool.eq_false_of_not_eq_true fun heff =>
            Bool.eq_false_iff.mp hnone.2 ((hl s).2.1 heff)
      · rfl
  keys := h.keys
  inputs := by
    obtain ⟨refs, hrefs, hne, hresolve⟩ := h.inputs
    refine ⟨refs, hrefs, hne, fun ref href => ?_⟩
    have hor := hresolve ref href
    unfold Chain.resolves at hor ⊢
    rw [Bool.or_eq_true] at hor ⊢
    exact hor.imp (hl ref).1 (hl ref).2.1

theorem Warranted.mono (hl : chain.Learns chain') (h : Warranted chain c) :
    Warranted chain' c := by
  obtain ⟨refs, hrefs, hgrant⟩ := h
  exact ⟨refs, hrefs, fun ref href => (hl ref).2.2 (hgrant ref href)⟩

/-! ## Symmetric, conservative, stable -/

/-- The same verdict, or two refusals. -/
def SameOutcome : Except OracleRefusal Verdict → Except OracleRefusal Verdict → Prop
  | .ok v, .ok v' => v = v'
  | .error _, .error _ => True
  | _, _ => False

/-- What a verdict of independence says of one candidate. -/
structure Sound (chain : Chain) (c : Candidate) : Prop where
  noBarrier : isBarrier c chain = .ok false
  noAggregate : c.isAggregate = false
  keys : c.bindingKey ≠ []
  inputs : ∃ refs, c.inputRefs = some refs ∧ refs ≠ [] ∧ ∀ ref ∈ refs, chain.resolves ref = true
  warrant : ∃ refs, c.warrantBasisRefs = some refs ∧ refs ≠ [] ∧
    ∀ ref ∈ refs, chain.grants ref = true

/-- What a verdict of independence says of the two together. -/
structure Disjoint (x y : Candidate) : Prop where
  keys : ∀ k ∈ x.bindingKey, k ∉ y.bindingKey
  left : ∀ e ∈ y.producesEffects, e ∉ x.inputRefs.getD []
  right : ∀ e ∈ x.producesEffects, e ∉ y.inputRefs.getD []

/-- The candidate with some of its declarations removed or emptied. -/
structure Weakened (c c' : Candidate) : Prop where
  rest : c' = { c with
    inputRefs := c'.inputRefs
    warrantBasisRefs := c'.warrantBasisRefs
    bindingKey := c'.bindingKey
    refusalSubject := c'.refusalSubject }
  inputRefs : c'.inputRefs = c.inputRefs ∨ c'.inputRefs = none ∨ c'.inputRefs = some []
  warrantBasisRefs : c'.warrantBasisRefs = c.warrantBasisRefs ∨ c'.warrantBasisRefs = none ∨
    c'.warrantBasisRefs = some []
  bindingKey : c'.bindingKey = c.bindingKey ∨ c'.bindingKey = []
  refusalSubject : c'.refusalSubject = c.refusalSubject ∨ c'.refusalSubject = none

/-- The oracle on two candidates is symmetric, sound, conservative and stable. -/
structure Conservative (env : Host) (chain : Chain) (x y : Candidate) : Prop where
  symmetric : SameOutcome (independent x y chain) (independent y x chain)
  sound : independent x y chain = .ok .independent →
    Sound chain x ∧ Sound chain y ∧ Disjoint x y
  conservative : ∀ x' y', Weakened x x' → Weakened y y' →
    independent x y chain = .ok .dependent → independent x' y' chain ≠ .ok .independent
  stable : independent x y chain = .ok .independent →
    ∀ more, independent x y (chain.after env more) = .ok .independent

/-- What the declarations must be for it. -/
structure Guarded (chain : Chain) (x y : Candidate) : Prop where
  /-- No barrier meets an underdeclared posture, unless an aggregate decides first. -/
  posture : aggregatesMembers x = false → aggregatesMembers y = false →
    ¬ ((¬ Underdeclared x ∧ Barrier chain x ∧ Underdeclared y) ∨
      (¬ Underdeclared y ∧ Barrier chain y ∧ Underdeclared x))
  /-- Where nothing else stands in the way, both warrants name grants and neither candidate is an
      aggregate. -/
  warrant : Grounded chain x → Grounded chain y → Clear x y → Clear y x →
    (∀ c ∈ [x, y], c.isAggregate = false ∧ Warranted chain c ∧ c.warrantBasisRefs ≠ some [])

/-- The outcome before the declarations are compared. -/
theorem independent_eq (hx : aggregatesMembers x = false) (hy : aggregatesMembers y = false) :
    independent x y chain =
      if Underdeclared x then .error ⟨"D5-POSTURE-UNDERDECLARED"⟩
      else if Barrier chain x then .ok .dependent
      else if Underdeclared y then .error ⟨"D5-POSTURE-UNDERDECLARED"⟩
      else if Barrier chain y then .ok .dependent
      else .ok (checkDeclarations x y chain) := by
  unfold independent eitherBarrier
  rw [hx, hy, isBarrier_eq, isBarrier_eq]
  by_cases hux : Underdeclared x
  · rw [if_pos hux, if_pos hux]
    rfl
  rw [if_neg hux, if_neg hux]
  by_cases hbx : Barrier chain x
  · rw [decide_eq_true hbx, if_pos hbx]
    rfl
  rw [decide_eq_false hbx, if_neg hbx]
  by_cases huy : Underdeclared y
  · rw [if_pos huy, if_pos huy]
    rfl
  rw [if_neg huy, if_neg huy]
  by_cases hby : Barrier chain y
  · rw [decide_eq_true hby, if_pos hby]
    rfl
  · rw [decide_eq_false hby, if_neg hby]
    rfl

/-- The comparison of the declarations is symmetric. -/
theorem checkDeclarations_comm : checkDeclarations x y chain = checkDeclarations y x chain := by
  have hiff : checkDeclarations x y chain = .independent ↔
      checkDeclarations y x chain = .independent := by
    rw [checkDeclarations_iff, checkDeclarations_iff]
    constructor
    · rintro ⟨⟨⟨hx, hy⟩, hxin, hyin⟩, ⟨hxw, hyw⟩, hxy, hyx⟩
      exact ⟨⟨⟨hy, hx⟩, hyin, hxin⟩, ⟨hyw, hxw⟩, hyx, hxy⟩
    · rintro ⟨⟨⟨hy, hx⟩, hyin, hxin⟩, ⟨hyw, hxw⟩, hyx, hxy⟩
      exact ⟨⟨⟨hx, hy⟩, hxin, hyin⟩, ⟨hxw, hyw⟩, hxy, hyx⟩
  cases h : checkDeclarations x y chain with
  | independent => exact (hiff.mp h).symm
  | dependent =>
    cases h' : checkDeclarations y x chain with
    | dependent => rfl
    | independent =>
      rw [hiff.mpr h'] at h
      cases h

/-- The oracle is symmetric unless a barrier hides an underdeclared posture from it. -/
theorem sameOutcome_iff :
    SameOutcome (independent x y chain) (independent y x chain) ↔
      (aggregatesMembers x = false → aggregatesMembers y = false →
        ¬ ((¬ Underdeclared x ∧ Barrier chain x ∧ Underdeclared y) ∨
          (¬ Underdeclared y ∧ Barrier chain y ∧ Underdeclared x))) := by
  by_cases hmembers : aggregatesMembers x = false ∧ aggregatesMembers y = false
  · obtain ⟨hx, hy⟩ := hmembers
    rw [independent_eq hx hy, independent_eq hy hx, checkDeclarations_comm (x := y)]
    by_cases hux : Underdeclared x <;> by_cases huy : Underdeclared y <;>
      by_cases hbx : Barrier chain x <;> by_cases hby : Barrier chain y <;>
        simp [SameOutcome, hux, huy, hbx, hby, hx, hy]
  · have hor : (aggregatesMembers x || aggregatesMembers y) = true := by
      cases hx : aggregatesMembers x <;> cases hy : aggregatesMembers y <;> simp_all
    unfold independent
    rw [if_pos hor, if_pos (Bool.or_comm _ _ ▸ hor)]
    exact ⟨fun _ hx hy => absurd ⟨hx, hy⟩ hmembers, fun _ => rfl⟩

/-- The warrant is the only declaration whose emptying can earn independence. -/
theorem Weakened.grounded (h : Weakened c c') (hg : Grounded chain c') :
    Grounded chain c ∧ c'.inputRefs = c.inputRefs ∧ c'.bindingKey = c.bindingKey := by
  have hinputs : c'.inputRefs = c.inputRefs := by
    obtain ⟨refs, hrefs, hne, -⟩ := hg.inputs
    rcases h.inputRefs with heq | heq | heq
    · exact heq
    · rw [heq] at hrefs
      cases hrefs
    · rw [heq] at hrefs
      exact absurd (Option.some.inj hrefs).symm hne
  have hkeys : c'.bindingKey = c.bindingKey := h.bindingKey.resolve_right hg.keys
  have hop : c'.op = c.op := by rw [h.rest]
  have hposture : c'.postureAffecting = c.postureAffecting := by rw [h.rest]
  refine ⟨⟨?_, ?_, ?_, hkeys ▸ hg.keys, hinputs ▸ hg.inputs⟩, hinputs, hkeys⟩
  · have hmembers := hg.noMembers
    rw [h.rest] at hmembers
    exact hmembers
  · rintro ⟨hmem, hne⟩
    exact hg.declared ⟨hop ▸ hmem, hposture ▸ hne⟩
  · rintro (haffecting | ⟨hmem, hverify⟩)
    · exact hg.noBarrier (.inl (hposture ▸ haffecting))
    · refine hg.noBarrier (.inr ⟨hop ▸ hmem, ?_⟩)
      unfold refusalSubjectVerifiable at hverify ⊢
      rcases h.refusalSubject with heq | heq
      · rw [heq]
        exact hverify
      · rw [heq]

theorem Weakened.clear (hx : Weakened x x') (hy : Weakened y y') (hgx : Grounded chain x')
    (hgy : Grounded chain y') (h : Clear x' y') : Clear x y := by
  obtain ⟨-, hxin, hxkeys⟩ := hx.grounded hgx
  obtain ⟨-, -, hykeys⟩ := hy.grounded hgy
  have hproduces : y'.producesEffects = y.producesEffects := by rw [hy.rest]
  refine ⟨?_, hxkeys ▸ hykeys ▸ h.keys, hproduces ▸ hxin ▸ h.inputs, ?_⟩
  · have hop : x'.op = x.op := by rw [hx.rest]
    by_cases hsafety : x.op ∈ safetyOps
    · rcases hx.refusalSubject with heq | heq
      · have hsubject := h.subject
        unfold isSubjectOf at hsubject ⊢
        rw [hop, heq, hproduces, hykeys] at hsubject
        exact hsubject
      · -- without a subject the safety operation is a barrier
        refine absurd (.inr ⟨hop ▸ hsafety, ?_⟩) hgx.noBarrier
        unfold refusalSubjectVerifiable
        rw [heq]
    · unfold isSubjectOf
      rw [List.contains_eq_mem, decide_eq_false hsafety, Bool.false_and]
  · have hsession := h.session
    rw [hx.rest, hy.rest] at hsession
    exact hsession

/-- Emptying a warrant weakens. -/
theorem weakened_warrant (c : Candidate) : Weakened c { c with warrantBasisRefs := some [] } where
  rest := rfl
  inputRefs := .inl rfl
  warrantBasisRefs := .inr (.inr rfl)
  bindingKey := .inl rfl
  refusalSubject := .inl rfl

/-- The oracle is symmetric, sound, conservative and stable exactly on guarded declarations. -/
theorem conservative_iff (hinj : Function.Injective env.sha256) (calls : List Append)
    (x y : Candidate) :
    Conservative env (built env calls) x y ↔ Guarded (built env calls) x y := by
  constructor
  · intro h
    refine ⟨sameOutcome_iff.mp h.symmetric, fun hx hy hxy hyx => ?_⟩
    have hempty (c : Candidate) :
        Warranted (built env calls) { c with warrantBasisRefs := some [] } :=
      ⟨[], rfl, fun _ href => (List.not_mem_nil href).elim⟩
    have hearned : independent { x with warrantBasisRefs := some [] }
        { y with warrantBasisRefs := some [] } (built env calls) = .ok .independent :=
      independent_iff.mpr ⟨⟨⟨hx.1, hx.2, hx.3, hx.4, hx.5⟩, hy.1, hy.2, hy.3, hy.4, hy.5⟩,
        ⟨hempty x, hempty y⟩, ⟨hxy.1, hxy.2, hxy.3, hxy.4⟩, hyx.1, hyx.2, hyx.3, hyx.4⟩
    have hindependent : independent x y (built env calls) = .ok .independent := by
      have hok := independent_of_grounded hx hy
      cases hverdict : checkDeclarations x y (built env calls) with
      | independent => rw [hok, hverdict]
      | dependent =>
        rw [hverdict] at hok
        exact absurd hearned (h.conservative _ _ (weakened_warrant x) (weakened_warrant y) hok)
    obtain ⟨hsx, hsy, -⟩ := h.sound hindependent
    have hsound : ∀ c ∈ [x, y], Sound (built env calls) c := by
      intro c hc
      rcases List.mem_pair.mp hc with rfl | rfl
      · exact hsx
      · exact hsy
    intro c hc
    obtain ⟨refs, hrefs, hne, hgrant⟩ := (hsound c hc).warrant
    refine ⟨(hsound c hc).noAggregate, ⟨refs, hrefs, hgrant⟩, ?_⟩
    rw [hrefs]
    exact fun heq => hne (Option.some.inj heq)
  · intro h
    refine ⟨sameOutcome_iff.mpr h.posture, fun hindependent => ?_, ?_, fun hindependent more => ?_⟩
    · obtain ⟨⟨hx, hy⟩, -, hxy, hyx⟩ := independent_iff.mp hindependent
      have hall := h.warrant hx hy hxy hyx
      have hsound : ∀ c ∈ [x, y], Grounded (built env calls) c → Sound (built env calls) c := by
        intro c hc hg
        obtain ⟨haggregate, ⟨refs, hrefs, hgrant⟩, hne⟩ := hall c hc
        refine ⟨?_, haggregate, hg.keys, hg.inputs, refs, hrefs, ?_, hgrant⟩
        · rw [isBarrier_eq, if_neg hg.declared, decide_eq_false hg.noBarrier]
        · rintro rfl
          exact hne hrefs
      exact ⟨hsound x (by simp) hx, hsound y (by simp) hy, hxy.keys, hxy.inputs, hyx.inputs⟩
    · intro x' y' hwx hwy hdependent hearned
      obtain ⟨⟨hx', hy'⟩, -, hxy', hyx'⟩ := independent_iff.mp hearned
      have hx := (hwx.grounded hx').1
      have hy := (hwy.grounded hy').1
      have hxy := hwx.clear hwy hx' hy' hxy'
      have hyx := hwy.clear hwx hy' hx' hyx'
      have hall := h.warrant hx hy hxy hyx
      have hindependent : independent x y (built env calls) = .ok .independent :=
        independent_iff.mpr ⟨⟨hx, hy⟩, ⟨(hall x (by simp)).2.1, (hall y (by simp)).2.1⟩, hxy, hyx⟩
      rw [hindependent] at hdependent
      cases hdependent
    · obtain ⟨⟨hx, hy⟩, ⟨hxw, hyw⟩, hclear⟩ := independent_iff.mp hindependent
      have hl := Chain.learns_after hinj (built_wellFormed env calls) more
      exact independent_iff.mpr ⟨⟨hx.mono hl, hy.mono hl⟩, ⟨hxw.mono hl, hyw.mono hl⟩, hclear⟩

/-! ### A grant and two writers -/

/-- A host whose digests spell out their preimage. -/
def sampleHost : Host where
  sha256 := sampleHash
  repr s := "'" ++ s ++ "'"

/-- The governor's grant, with an effect to read. -/
def sampleGrant : Append where
  cand := {
    op := "authority_model_set"
    agent := "gov"
    bindingKey := [("sys", "gov")]
    postureAffecting := some true
    producesEffects := ["e0"]
    grantClass := true }

/-- A writer of one effect. -/
def sampleWriter (agent eid warrant : String) : Candidate where
  op := "app_write"
  agent := agent
  inputRefs := some ["e0"]
  warrantBasisRefs := some [warrant]
  bindingKey := [(eid, agent)]
  producesEffects := [eid]

/-- The hash of the grant. -/
def sampleRef : String := (Chain.mint sampleHost {} sampleGrant).rhash

theorem receipt_sampleChain (ref : String) :
    (built sampleHost [sampleGrant]).receipt ref =
      if ref = sampleRef then some (Chain.mint sampleHost {} sampleGrant) else none :=
  Chain.receipt_append ref

theorem grounded_sampleWriter (agent eid warrant : String) :
    Grounded (built sampleHost [sampleGrant]) (sampleWriter agent eid warrant) where
  noMembers := rfl
  declared h := absurd h.1 (show "app_write" ∉ postureOps by decide)
  noBarrier h := h.elim (fun heq => nomatch heq)
    (fun h => absurd h.1 (show "app_write" ∉ safetyOps by decide))
  keys := List.cons_ne_nil _ _
  inputs := by
    refine ⟨["e0"], rfl, List.cons_ne_nil _ _, fun ref href => ?_⟩
    obtain rfl := List.mem_singleton.mp href
    exact Bool.or_eq_true_iff.mpr (.inr rfl)

theorem warranted_sampleWriter (agent eid : String) :
    Warranted (built sampleHost [sampleGrant]) (sampleWriter agent eid sampleRef) := by
  refine ⟨[sampleRef], rfl, fun ref href => ?_⟩
  obtain rfl := List.mem_singleton.mp href
  unfold Chain.grants
  rw [receipt_sampleChain, if_pos rfl]
  rfl

theorem clear_sampleWriter {agent eid warrant agent' eid' warrant' : String} (hne : eid ≠ eid')
    (hread : eid' ≠ "e0") :
    Clear (sampleWriter agent eid warrant) (sampleWriter agent' eid' warrant') where
  subject := rfl
  keys k hk hk' := by
    rw [List.mem_singleton.mp hk] at hk'
    exact hne (Prod.mk.inj (List.mem_singleton.mp hk')).1
  inputs e he he' := by
    rw [List.mem_singleton.mp he] at he'
    exact hread (List.mem_singleton.mp he')
  session := rfl

theorem conservative_sampleWriters : Conservative sampleHost (built sampleHost [sampleGrant])
    (sampleWriter "alice" "eA" sampleRef) (sampleWriter "bob" "eB" sampleRef) := by
  have hdeclared (agent eid : String) : ¬ Underdeclared (sampleWriter agent eid sampleRef) :=
    (grounded_sampleWriter agent eid sampleRef).declared
  refine (conservative_iff sampleHash_injective [sampleGrant] _ _).mpr ⟨fun _ _ => ?_, ?_⟩
  · rintro (⟨-, -, h⟩ | ⟨-, -, h⟩)
    · exact hdeclared _ _ h
    · exact hdeclared _ _ h
  · intro _ _ _ _ c hc
    rcases List.mem_pair.mp hc with rfl | rfl
    · exact ⟨rfl, warranted_sampleWriter _ _, by simp [sampleWriter]⟩
    · exact ⟨rfl, warranted_sampleWriter _ _, by simp [sampleWriter]⟩

/-- Emptying a warrant that names no grant earns a verdict of independence. -/
theorem not_conservative_valueWarrant :
    ¬ Conservative sampleHost (built sampleHost [sampleGrant])
      (sampleWriter "alice" "eA" "I_WAS_GRANTED_X") (sampleWriter "bob" "eB" sampleRef) := by
  intro h
  have hne : sampleRef ≠ "I_WAS_GRANTED_X" := sampleHash_hex_ne _ (by decide)
  have hx := grounded_sampleWriter "alice" "eA" "I_WAS_GRANTED_X"
  have hy := grounded_sampleWriter "bob" "eB" sampleRef
  have hunwarranted : ¬ Warranted (built sampleHost [sampleGrant])
      (sampleWriter "alice" "eA" "I_WAS_GRANTED_X") := by
    rintro ⟨refs, hrefs, hgrant⟩
    obtain rfl := Option.some.inj hrefs
    have hmem := hgrant "I_WAS_GRANTED_X" (List.mem_singleton_self _)
    unfold Chain.grants at hmem
    rw [receipt_sampleChain, if_neg (Ne.symm hne)] at hmem
    cases hmem
  have hdependent : independent (sampleWriter "alice" "eA" "I_WAS_GRANTED_X")
      (sampleWriter "bob" "eB" sampleRef) (built sampleHost [sampleGrant]) = .ok .dependent := by
    rw [independent_of_grounded hx hy]
    cases hverdict : checkDeclarations (sampleWriter "alice" "eA" "I_WAS_GRANTED_X")
        (sampleWriter "bob" "eB" sampleRef) (built sampleHost [sampleGrant]) with
    | dependent => rfl
    | independent => exact absurd (checkDeclarations_iff.mp hverdict).2.1.1 hunwarranted
  have hclear := @clear_sampleWriter "alice" "eA" "I_WAS_GRANTED_X" "bob" "eB" sampleRef
    (by decide) (by decide)
  have hclear' := @clear_sampleWriter "bob" "eB" sampleRef "alice" "eA" "I_WAS_GRANTED_X"
    (by decide) (by decide)
  refine h.conservative _ _ (weakened_warrant _) ⟨rfl, .inl rfl, .inl rfl, .inl rfl, .inl rfl⟩
    hdependent (independent_iff.mpr ⟨⟨⟨hx.1, hx.2, hx.3, hx.4, hx.5⟩, hy⟩,
      ⟨⟨[], rfl, fun _ href => (List.not_mem_nil href).elim⟩, warranted_sampleWriter _ _⟩,
      ⟨hclear.1, hclear.2, hclear.3, hclear.4⟩, hclear'.1, hclear'.2, hclear'.3, hclear'.4⟩)

/-! ## Commuting -/

/-- The lane's check: the keys that were bound are the declared ones. -/
def Append.Declared (a : Append) : Prop :=
  ∀ keys, a.actualBindingKeys = some keys → ∀ k, k ∈ keys ↔ k ∈ a.cand.bindingKey

/-- A receipt without its position and hashes. -/
def Receipt.content (r : Receipt) : Receipt := { r with pos := 0, rhash := "", priorHash := "" }

/-- The content of the receipt a call mints, on any chain. -/
def Append.content (a : Append) : Receipt where
  pos := 0
  rhash := ""
  priorHash := ""
  op := a.cand.op
  agent := a.cand.agent
  session := a.cand.session
  bindingKeys := a.akeys
  producesEffects := a.cand.producesEffects
  grantClass := a.cand.grantClass
  failed := a.failed

/-- The receipt recorded as the producer of an effect. -/
def Chain.producer (chain : Chain) (eid : String) : Option Receipt :=
  (chain.effects.lookup eid).bind fun pos => chain.receipts[pos]?

/-- Both orders of two commits end in chains that differ in positions and hashes only. -/
structure Commutes (env : Host) (chain : Chain) (a b : Append) : Prop where
  receipts : (((chain.append env a).append env b).receipts.map Receipt.content).Perm
    (((chain.append env b).append env a).receipts.map Receipt.content)
  producers : ∀ eid, (((chain.append env a).append env b).producer eid).map Receipt.content =
    (((chain.append env b).append env a).producer eid).map Receipt.content
  verdicts : ∀ p q : Candidate,
    (∀ ref ∈ p.refs ++ q.refs,
      ((chain.append env a).append env b).hasHash ref = true ∨
        ((chain.append env b).append env a).hasHash ref = true → chain.hasHash ref = true) →
    independent p q ((chain.append env a).append env b) =
      independent p q ((chain.append env b).append env a)

theorem mem_refs_of_inputRefs {refs : List String} (h : c.inputRefs = some refs) {ref : String}
    (href : ref ∈ refs) : ref ∈ c.refs := by
  unfold Candidate.refs
  rw [h]
  exact List.mem_append_left _ (List.mem_append_left _ href)

theorem mem_refs_of_warrant {refs : List String} (h : c.warrantBasisRefs = some refs)
    {ref : String} (href : ref ∈ refs) : ref ∈ c.refs := by
  unfold Candidate.refs
  rw [h]
  exact List.mem_append_left _ (List.mem_append_right _ href)

theorem mem_refs_of_subject {s : String} (h : c.refusalSubject = some (.name s)) : s ∈ c.refs := by
  unfold Candidate.refs
  rw [h]
  exact List.mem_append_right _ (List.mem_singleton_self s)

/-- The evidence for one candidate is the same on two chains. -/
def SameEvidence (chain chain' : Chain) (c : Candidate) : Prop :=
  ∀ ref ∈ c.refs, chain.resolves ref = chain'.resolves ref ∧ chain.grants ref = chain'.grants ref

theorem isBarrier_congr (h : SameEvidence chain chain' c) :
    isBarrier c chain = isBarrier c chain' := by
  have hverify : refusalSubjectVerifiable c chain = refusalSubjectVerifiable c chain' := by
    unfold refusalSubjectVerifiable
    split
    · rfl
    · rename_i s hs
      have hresolve := (h s (mem_refs_of_subject hs)).1
      unfold Chain.resolves at hresolve
      rw [hresolve]
    · rfl
  unfold isBarrier
  rw [hverify]

theorem verifiedInputRefs_congr (h : SameEvidence chain chain' c) :
    verifiedInputRefs c chain = verifiedInputRefs c chain' := by
  unfold verifiedInputRefs
  split
  · rfl
  · rename_i refs hrefs
    have hall : (refs.all fun ref => chain.hasHash ref || chain.hasEffect ref) =
        refs.all fun ref => chain'.hasHash ref || chain'.hasEffect ref := by
      rw [Bool.eq_iff_iff, List.all_eq_true, List.all_eq_true]
      refine forall₂_congr fun ref href => ?_
      have hresolves := (h ref (mem_refs_of_inputRefs hrefs href)).1
      unfold Chain.resolves at hresolves
      rw [hresolves]
    rw [hall]

theorem verifiedWarrant_congr (h : SameEvidence chain chain' c) :
    verifiedWarrant c chain = verifiedWarrant c chain' := by
  unfold verifiedWarrant
  split
  · rfl
  · rename_i refs hrefs
    have hall : (refs.all fun ref => (chain.receipt ref).any Receipt.grantClass) =
        refs.all fun ref => (chain'.receipt ref).any Receipt.grantClass := by
      rw [Bool.eq_iff_iff, List.all_eq_true, List.all_eq_true]
      refine forall₂_congr fun ref href => ?_
      have hgrants := (h ref (mem_refs_of_warrant hrefs href)).2
      unfold Chain.grants at hgrants
      rw [hgrants]
    rw [hall]

/-- The oracle reads a chain through the references of the two candidates only. -/
theorem independent_congr (hx : SameEvidence chain chain' x) (hy : SameEvidence chain chain' y) :
    independent x y chain = independent x y chain' := by
  unfold independent eitherBarrier checkDeclarations
  rw [isBarrier_congr hx, isBarrier_congr hy, verifiedInputRefs_congr hx,
    verifiedInputRefs_congr hy, verifiedWarrant_congr hx, verifiedWarrant_congr hy]

theorem Chain.hasEffect_append (eid : String) : (chain.append env a).hasEffect eid =
    (decide (eid ∈ a.cand.producesEffects) || chain.hasEffect eid) := by
  rw [Bool.eq_iff_iff, Chain.hasEffect_iff, Bool.or_eq_true, decide_eq_true_iff,
    Chain.hasEffect_iff, Chain.effects_append]
  constructor
  · rintro ⟨p, hp⟩
    rw [List.mem_append, List.mem_reverse, List.mem_map] at hp
    rcases hp with ⟨eid', hmem, heq⟩ | hp
    · exact .inl ((Prod.mk.inj heq).1 ▸ hmem)
    · exact .inr ⟨p, hp⟩
  · rintro (hmem | ⟨p, hp⟩)
    · exact ⟨_, List.mem_append_left _ (List.mem_reverse.mpr (List.mem_map_of_mem hmem))⟩
    · exact ⟨p, List.mem_append_right _ hp⟩

/-- What was committed before the two is known after them, in either order. -/
theorem sameEvidence_swap (hinj : Function.Injective env.sha256) (hw : chain.WellFormed env)
    (h : ∀ ref ∈ c.refs, ((chain.append env a).append env b).hasHash ref = true ∨
      ((chain.append env b).append env a).hasHash ref = true → chain.hasHash ref = true) :
    SameEvidence ((chain.append env a).append env b) ((chain.append env b).append env a) c := by
  intro ref href
  have heffect : ((chain.append env a).append env b).hasEffect ref =
      ((chain.append env b).append env a).hasEffect ref := by
    rw [Chain.hasEffect_append, Chain.hasEffect_append, Chain.hasEffect_append,
      Chain.hasEffect_append, Bool.or_left_comm]
  have hreceipt : ((chain.append env a).append env b).receipt ref =
      ((chain.append env b).append env a).receipt ref := by
    cases hold : chain.receipt ref with
    | some r =>
      rw [Chain.receipt_append_of_some hinj (Chain.wellFormed_append hw)
          (Chain.receipt_append_of_some hinj hw hold),
        Chain.receipt_append_of_some hinj (Chain.wellFormed_append hw)
          (Chain.receipt_append_of_some hinj hw hold)]
    | none =>
      have hnone : chain.hasHash ref = false := by
        unfold Chain.hasHash
        rw [hold]
        rfl
      have hboth := mt (h ref href) (by rw [hnone]; exact Bool.false_ne_true)
      rw [not_or] at hboth
      unfold Chain.hasHash at hboth
      rw [Option.not_isSome_iff_eq_none, Option.not_isSome_iff_eq_none] at hboth
      rw [hboth.1, hboth.2]
  unfold Chain.resolves Chain.hasHash Chain.grants
  rw [hreceipt, heffect]
  exact ⟨rfl, rfl⟩

theorem Chain.lookup_effects_append (eid : String) : (chain.append env a).effects.lookup eid =
    if eid ∈ a.cand.producesEffects then some chain.receipts.length
    else chain.effects.lookup eid := by
  rw [Chain.effects_append, List.lookup_append]
  split
  · rename_i hmem
    have hnew : ((a.cand.producesEffects.map fun eid =>
        (eid, chain.receipts.length)).reverse.lookup eid).isSome = true := by
      rw [List.lookup_isSome_iff]
      exact ⟨_, List.mem_reverse.mpr (List.mem_map_of_mem hmem), beq_self_eq_true _⟩
    obtain ⟨p, hp⟩ := Option.isSome_iff_exists.mp hnew
    obtain ⟨l₁, l₂, hsplit, -⟩ := List.lookup_eq_some_iff.mp hp
    have hp' : (eid, p) ∈ (a.cand.producesEffects.map fun eid =>
        (eid, chain.receipts.length)).reverse := hsplit ▸ by simp
    rw [List.mem_reverse, List.mem_map] at hp'
    obtain ⟨eid', -, heq⟩ := hp'
    rw [hp, (Prod.mk.inj heq).2]
    rfl
  · rename_i hmem
    have hnone : (a.cand.producesEffects.map fun eid =>
        (eid, chain.receipts.length)).reverse.lookup eid = none := by
      rw [List.lookup_eq_none_iff]
      intro e he
      rw [List.mem_reverse, List.mem_map] at he
      obtain ⟨eid', hmem', rfl⟩ := he
      rw [bne_iff_ne]
      rintro rfl
      exact hmem hmem'
    rw [hnone, Option.none_or]

theorem Chain.producer_append (hw : chain.WellFormed env) (eid : String) :
    ((chain.append env a).producer eid).map Receipt.content =
      if eid ∈ a.cand.producesEffects then some a.content
      else (chain.producer eid).map Receipt.content := by
  unfold Chain.producer
  rw [Chain.lookup_effects_append, Chain.receipts_append]
  split
  · rw [Option.bind_some, List.getElem?_concat_length]
    rfl
  · cases hp : chain.effects.lookup eid with
    | none => rfl
    | some p =>
      obtain ⟨l₁, l₂, hsplit, -⟩ := List.lookup_eq_some_iff.mp hp
      have hlt : p < chain.receipts.length :=
        hw.effects (eid, p) (hsplit ▸ by simp)
      rw [Option.bind_some, Option.bind_some, List.getElem?_append_left hlt]

/-- Two commits with disjoint declared keys leave receipts that differ. -/
theorem content_ne (ha : a.Declared) (hb : b.Declared) (hkeys : a.cand.bindingKey ≠ [])
    (hdisjoint : ∀ k ∈ a.cand.bindingKey, k ∉ b.cand.bindingKey) : a.content ≠ b.content := by
  have hmem (d : Append) (hd : d.Declared) (k : BindingKey) :
      k ∈ d.akeys ↔ k ∈ d.cand.bindingKey := by
    unfold Append.akeys
    cases hactual : d.actualBindingKeys with
    | none => rfl
    | some keys => exact hd keys hactual k
  intro heq
  have hakeys : a.akeys = b.akeys := congrArg Receipt.bindingKeys heq
  obtain ⟨k, hk⟩ := List.exists_mem_of_ne_nil _ hkeys
  have hk' : k ∈ b.akeys := hakeys ▸ (hmem a ha k).mpr hk
  exact hdisjoint k hk ((hmem b hb k).mp hk')

/-- Two independent candidates commute exactly when they produce no effect in common. -/
theorem independent_commutes_iff (hinj : Function.Injective env.sha256) (calls : List Append)
    (a b : Append) (ha : a.Declared) (hb : b.Declared)
    (h : independent a.cand b.cand (built env calls) = .ok .independent) :
    Commutes env (built env calls) a b ↔
      ∀ e ∈ a.cand.producesEffects, e ∉ b.cand.producesEffects := by
  have hw := built_wellFormed env calls
  have hwa := Chain.wellFormed_append (a := a) hw
  have hwb := Chain.wellFormed_append (a := b) hw
  constructor
  · intro hcommutes e hea heb
    -- the later commit is recorded, and the two receipts differ
    have hproducer := hcommutes.producers e
    rw [Chain.producer_append hwa, Chain.producer_append hwb, if_pos heb, if_pos hea] at hproducer
    obtain ⟨⟨hx, -⟩, -, hxy, -⟩ := independent_iff.mp h
    exact content_ne ha hb hx.keys hxy.keys (Option.some.inj hproducer).symm
  · intro hdisjoint
    refine ⟨?_, fun eid => ?_, fun p q hrefs => ?_⟩
    · have hmap (d d' : Append) :
          (((built env calls).append env d).append env d').receipts.map Receipt.content =
            (built env calls).receipts.map Receipt.content ++ [d.content, d'.content] := by
        rw [Chain.receipts_append, Chain.receipts_append, List.append_assoc, List.map_append]
        rfl
      rw [hmap, hmap]
      exact List.Perm.append_left _ (List.Perm.swap _ _ _)
    · rw [Chain.producer_append hwa, Chain.producer_append hwb, Chain.producer_append hw,
        Chain.producer_append hw]
      by_cases hea : eid ∈ a.cand.producesEffects
      · rw [if_neg (hdisjoint eid hea), if_pos hea, if_pos hea]
      · rw [if_neg hea, if_neg hea]
    · exact independent_congr
        (sameEvidence_swap hinj hw fun ref href => hrefs ref (List.mem_append_left _ href))
        (sameEvidence_swap hinj hw fun ref href => hrefs ref (List.mem_append_right _ href))

/-- Without a list of actual keys the declared ones are bound. -/
theorem declared_of_none (c : Candidate) : Append.Declared { cand := c } :=
  fun _ h => nomatch h

theorem independent_sampleWriters {agent eid agent' eid' : String} {products products' : List String}
    (hne : eid ≠ eid') (hproducts : "e0" ∉ products) (hproducts' : "e0" ∉ products') :
    independent { sampleWriter agent eid sampleRef with producesEffects := products }
      { sampleWriter agent' eid' sampleRef with producesEffects := products' }
      (built sampleHost [sampleGrant]) = .ok .independent := by
  have hx := grounded_sampleWriter agent eid sampleRef
  have hy := grounded_sampleWriter agent' eid' sampleRef
  have hin {ps : List String} (hps : "e0" ∉ ps) : ∀ e ∈ ps, e ∉ ["e0"] := by
    intro e he hmem
    rw [List.mem_singleton.mp hmem] at he
    exact hps he
  have hkeys {e e' g g' : String} (h : e ≠ e') : ∀ k ∈ [(e, g)], k ∉ [(e', g')] := by
    intro k hk hk'
    rw [List.mem_singleton.mp hk] at hk'
    exact h (Prod.mk.inj (List.mem_singleton.mp hk')).1
  exact independent_iff.mpr ⟨⟨⟨hx.1, hx.2, hx.3, hx.4, hx.5⟩, hy.1, hy.2, hy.3, hy.4, hy.5⟩,
    ⟨warranted_sampleWriter agent eid, warranted_sampleWriter agent' eid'⟩,
    ⟨rfl, hkeys hne, hin hproducts', rfl⟩, rfl, hkeys (Ne.symm hne), hin hproducts, rfl⟩

theorem commutes_sampleWriters : Commutes sampleHost (built sampleHost [sampleGrant])
    { cand := sampleWriter "alice" "eA" sampleRef } { cand := sampleWriter "bob" "eB" sampleRef } :=
  (independent_commutes_iff sampleHash_injective [sampleGrant] _ _ (declared_of_none _)
    (declared_of_none _)
    (@independent_sampleWriters "alice" "eA" "bob" "eB" ["eA"] ["eB"] (by decide) (by decide)
      (by decide))).mpr (by decide)

/-- Two independent writers of one effect: the later one is its producer. -/
theorem not_commutes_sameProduct :
    independent { sampleWriter "alice" "eA" sampleRef with producesEffects := ["e1"] }
        { sampleWriter "bob" "eB" sampleRef with producesEffects := ["e1"] }
        (built sampleHost [sampleGrant]) = .ok .independent ∧
      ¬ Commutes sampleHost (built sampleHost [sampleGrant])
        { cand := { sampleWriter "alice" "eA" sampleRef with producesEffects := ["e1"] } }
        { cand := { sampleWriter "bob" "eB" sampleRef with producesEffects := ["e1"] } } := by
  refine ⟨independent_sampleWriters (by decide) (by decide) (by decide), fun h => ?_⟩
  have hproducer := h.producers "e1"
  have hw := built_wellFormed sampleHost [sampleGrant]
  rw [Chain.producer_append (Chain.wellFormed_append hw),
    Chain.producer_append (Chain.wellFormed_append hw), if_pos (by decide),
    if_pos (by decide)] at hproducer
  exact absurd (congrArg Receipt.agent (Option.some.inj hproducer)) (show "bob" ≠ "alice" by decide)

end Scale

end Ugk
