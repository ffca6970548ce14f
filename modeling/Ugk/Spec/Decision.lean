import Ugk.Native.Decision
import Ugk.Spec.Durable
import Ugk.Spec.History
import Ugk.Spec.TraceVector

/-!
# Writer and decision verifier

A written receipt passes the decision procedures exactly when its authority is not the root, every
edge of its canonical path and the policy of its jurisdiction are properly signed.  On an arbitrary
receipt the procedures return a verdict exactly when the state commitment can be recomputed and,
where it matches, the authority graph leads to the root.

## Key results

- `canonicalPathFor_isOk_iff`: a canonical path exists exactly for rooted authorities
- `decideReceipt_isOk_iff`: when a verdict is returned
- `decision_agrees`: the two statements about written and arbitrary receipts
-/

namespace Ugk

open Store

variable {env : Env} {cfg : Config} {built : List String}

/-! ## Rooted authorities -/

/-- The incoming edges lead from the authority to the root in `n` steps. -/
inductive RootedIn (cfg : Config) (built : List String) : Nat → String → Prop where
  | root : RootedIn cfg built 0 governorAuthority
  | edge {n : Nat} {subject : String} {e : AuthorityEdge} : subject ≠ governorAuthority →
      edgeFor cfg built subject = some e → RootedIn cfg built n e.issuer →
      RootedIn cfg built (n + 1) subject

/-- The incoming edges lead from the authority to the root. -/
def RootedAuthority (cfg : Config) (built : List String) (authority : String) : Prop :=
  ∃ n, RootedIn cfg built n authority

theorem RootedIn.unique {n m : Nat} {s : String} (h : RootedIn cfg built n s)
    (h' : RootedIn cfg built m s) : n = m := by
  induction h generalizing m with
  | root =>
    cases h' with
    | root => rfl
    | edge hne => exact absurd rfl hne
  | edge hne hedge _ ih =>
    cases h' with
    | root => exact absurd rfl hne
    | edge _ hedge' hrest =>
      obtain rfl := Option.some.inj (hedge.symm.trans hedge')
      rw [ih hrest]

/-- The subjects that have an incoming edge. -/
def subjects (cfg : Config) (built : List String) : List String :=
  cfg.edges.map AuthorityEdge.subject ++ built

theorem mem_subjects {s : String} {e : AuthorityEdge} (h : edgeFor cfg built s = some e) :
    s ∈ subjects cfg built := by
  rw [edgeFor] at h
  rw [subjects, List.mem_append]
  split at h
  · rename_i e' hfind
    have hmem := List.mem_of_find?_eq_some hfind
    have hsub := List.find?_some hfind
    left
    exact List.mem_map.mpr ⟨e', List.mem_reverse.mp hmem, by simpa using hsub⟩
  · right
    split at h
    · assumption
    · cases h

/-- A walk of `n` steps passes `n` different subjects. -/
theorem RootedIn.length_le {n : Nat} {s : String} (h : RootedIn cfg built n s) :
    n ≤ (subjects cfg built).length := by
  have hpath : ∃ path : List String, path.length = n ∧ path.Nodup ∧
      ∀ x ∈ path, x ∈ subjects cfg built ∧ ∃ m, m ≤ n ∧ 0 < m ∧ RootedIn cfg built m x := by
    induction h with
    | root => exact ⟨[], rfl, .nil, by simp⟩
    | @edge n subject e hne hedge hrest ih =>
      obtain ⟨path, hlen, hnodup, hall⟩ := ih
      refine ⟨subject :: path, by rw [List.length_cons, hlen], ?_, ?_⟩
      · rw [List.nodup_cons]
        refine ⟨fun hmem => ?_, hnodup⟩
        -- subjects further up have fewer steps to go
        obtain ⟨_, m, hm, _, hr⟩ := hall _ hmem
        have := hr.unique (.edge hne hedge hrest)
        omega
      · rw [List.forall_mem_cons]
        refine ⟨⟨mem_subjects hedge, n + 1, Nat.le_refl _, Nat.succ_pos _, .edge hne hedge hrest⟩, ?_⟩
        intro x hx
        obtain ⟨hsub, m, hm, hpos, hr⟩ := hall x hx
        exact ⟨hsub, m, Nat.le_succ_of_le hm, hpos, hr⟩
  obtain ⟨path, hlen, hnodup, hall⟩ := hpath
  rw [← hlen]
  exact (hnodup.subperm fun x hx => (hall x hx).1).length_le

/-- The walk finds its way when it has steps enough and has seen only subjects further down. -/
theorem RootedIn.walkPath {n : Nat} {s : String} (h : RootedIn cfg built n s) {fuel : Nat}
    (hfuel : n < fuel) {seen : List String}
    (hseen : ∀ x ∈ seen, ∃ m, n < m ∧ RootedIn cfg built m x) :
    isOk (walkPath cfg built fuel seen s) = true := by
  induction h generalizing fuel seen with
  | root =>
    obtain ⟨fuel, rfl⟩ := Nat.exists_eq_succ_of_ne_zero (Nat.ne_of_gt hfuel)
    rw [Ugk.walkPath, if_pos rfl]
    rfl
  | @edge n subject e hne hedge hrest ih =>
    obtain ⟨fuel, rfl⟩ := Nat.exists_eq_succ_of_ne_zero (Nat.ne_of_gt (Nat.lt_of_le_of_lt (Nat.zero_le _) hfuel))
    have hnot : subject ∉ seen := by
      intro hmem
      obtain ⟨m, hm, hr⟩ := hseen _ hmem
      have := hr.unique (.edge hne hedge hrest)
      omega
    rw [Ugk.walkPath, if_neg hne, if_neg hnot, hedge]
    dsimp only
    rw [isOk_map]
    refine ih (Nat.lt_of_succ_lt_succ hfuel) ?_
    rw [List.forall_mem_cons]
    refine ⟨⟨n + 1, Nat.lt_succ_self n, .edge hne hedge hrest⟩, fun x hx => ?_⟩
    obtain ⟨m, hm, hr⟩ := hseen x hx
    exact ⟨m, Nat.lt_of_succ_lt hm, hr⟩

/-- A walk that ends at the root was rooted, its edges follow one another and start at the root. -/
theorem rooted_of_walkPath {fuel : Nat} {seen : List String} {s : String}
    {path : List AuthorityEdge} (h : walkPath cfg built fuel seen s = .ok path) :
    RootedIn cfg built path.length s := by
  induction fuel generalizing seen s path with
  | zero => cases h
  | succ fuel ih =>
    rw [walkPath] at h
    split at h
    · rename_i hgov
      obtain rfl := Except.ok.inj h
      rw [hgov]
      exact .root
    · rename_i hne
      split at h
      · cases h
      · split at h
        · cases h
        · rename_i e hedge
          obtain ⟨rest, hrest, rfl⟩ := Except.map_eq_ok h
          exact .edge hne hedge (ih hrest)

/-- A canonical path exists exactly for rooted authorities. -/
theorem canonicalPathFor_isOk_iff {authority : String} :
    isOk (canonicalPathFor cfg built authority) = true ↔ RootedAuthority cfg built authority := by
  rw [canonicalPathFor, isOk_map]
  constructor
  · intro h
    obtain ⟨path, hpath⟩ := isOk_iff.mp h
    exact ⟨_, rooted_of_walkPath hpath⟩
  · rintro ⟨n, hn⟩
    have hle := hn.length_le
    rw [subjects, List.length_append, List.length_map] at hle
    exact hn.walkPath (by omega) (by simp)

theorem Verdict.andThen_eq_pass_iff {v next : Verdict} :
    v.andThen next = .pass ↔ v.1 = true ∧ next = .pass := by
  rw [Verdict.andThen]
  cases hv : v.1 with
  | true => simp
  | false => simp [Verdict.pass]

theorem verifySigned_iff {verify : EdVerify} {payload : List Char}
    {signature issuerKeyId pubkey : String} :
    (verifySigned verify payload signature issuerKeyId pubkey).1 = true ↔
      issuerKeyId = pubkey ∧ verify payload signature pubkey = true := by
  rw [verifySigned]
  split
  · rename_i h
    exact ⟨fun h' => (nomatch h'), fun h' => absurd h'.1 h⟩
  · rename_i h
    split
    · rename_i hv
      exact ⟨fun _ => ⟨not_not.mp h, hv⟩, fun _ => rfl⟩
    · rename_i hv
      exact ⟨fun h' => (nomatch h'), fun h' => absurd h'.2 hv⟩

/-- A digest of 64 hexadecimal digits. -/
def HexDigest (d : Digest) : Prop :=
  d.hex.toList.length = 64 ∧ ∀ c ∈ d.hex.toList, (Json.hexVal c).isSome = true

theorem not_isSpace_of_hexVal {c : Char} (h : (Json.hexVal c).isSome = true) :
    isSpace env c = false := by
  have hle : c.toNat < 128 ∧ 48 ≤ c.toNat := by
    rw [Json.hexVal] at h
    split at h
    · rename_i hd
      simp only [Char.isDigit, Bool.and_eq_true, decide_eq_true_eq] at hd
      have h1 : c.val.toNat ≤ 57 := hd.2
      have h2 : 48 ≤ c.val.toNat := hd.1
      exact ⟨Nat.lt_of_le_of_lt h1 (by omega), h2⟩
    · split at h
      · rename_i _ hd
        have h1 : c.val.toNat ≤ 102 := hd.2
        have h2 : 97 ≤ c.val.toNat := hd.1
        exact ⟨Nat.lt_of_le_of_lt h1 (by omega), Nat.le_trans (by omega) h2⟩
      · split at h
        · rename_i _ _ hd
          have h1 : c.val.toNat ≤ 70 := hd.2
          have h2 : 65 ≤ c.val.toNat := hd.1
          exact ⟨Nat.lt_of_le_of_lt h1 (by omega), Nat.le_trans (by omega) h2⟩
        · cases h
  have hblank : c ≠ ' ' := by
    rintro rfl
    exact absurd hle.2 (by decide)
  rw [isSpace, if_pos hle.1]
  simp only [beq_eq_false_iff_ne.mpr hblank, Bool.false_or, Bool.or_eq_false_iff,
    Bool.and_eq_false_iff, decide_eq_false_iff_not]
  omega

theorem hexDigits_of_hexVal {cs : List Char} (hne : cs ≠ [])
    (h : ∀ c ∈ cs, (Json.hexVal c).isSome = true) : hexDigits env cs = true := by
  fun_induction hexDigits env cs with
  | case1 => exact absurd rfl hne
  | case2 c => rw [h c List.mem_cons_self, Bool.true_or]
  | case3 c cs ih => exact absurd (h '_' (by simp)) (by decide)
  | case4 c cs hsingle hunderscore ih =>
    rw [h c List.mem_cons_self, Bool.true_or, Bool.true_and]
    exact ih (fun hnil => hsingle hnil) fun x hx => h x (List.mem_cons_of_mem c hx)

/-- The first character of a text without a sign is kept. -/
theorem unsigned_of_hexVal (P : List Char → Prop) (xs : List Char) :
    (∀ c ∈ xs, (Json.hexVal c).isSome = true) → P xs →
      P (match xs with | '-' :: cs => cs | '+' :: cs => cs | cs => cs) := by
  intro hxs hP
  split
  · exact absurd (hxs '-' List.mem_cons_self) (by decide)
  · exact absurd (hxs '+' List.mem_cons_self) (by decide)
  · exact hP

/-- The digits behind the radix prefix of an unsigned text. -/
def Prefixed (env : Env) (xs : List Char) : Prop := (match xs with
  | '0' :: 'x' :: '_' :: cs => hexDigits env cs
  | '0' :: 'x' :: cs => hexDigits env cs
  | '0' :: 'X' :: '_' :: cs => hexDigits env cs
  | '0' :: 'X' :: cs => hexDigits env cs
  | cs => hexDigits env cs) = true

/-- A text of hexadecimal digits has no radix prefix. -/
theorem prefixed_of_hexVal {xs : List Char} (hxs : ∀ c ∈ xs, (Json.hexVal c).isSome = true)
    (hd : hexDigits env xs = true) : Prefixed env xs := by
  unfold Prefixed
  split
  · exact absurd (hxs 'x' (by simp)) (by decide)
  · exact absurd (hxs 'x' (by simp)) (by decide)
  · exact absurd (hxs 'X' (by simp)) (by decide)
  · exact absurd (hxs 'X' (by simp)) (by decide)
  · exact hd

/-- The decision procedure for `h_m` accepts every hex digest. -/
theorem HexDigest.isHexdigest {d : Digest} (h : HexDigest d) : isHexdigest env d.hex = true := by
  obtain ⟨hlen, hall⟩ := h
  have hstrip (cs : List Char) (hcs : ∀ c ∈ cs, (Json.hexVal c).isSome = true) :
      cs.dropWhile (isSpace env) = cs := by
    cases cs with
    | nil => rfl
    | cons c rest =>
      rw [List.dropWhile_cons, not_isSpace_of_hexVal (hcs c List.mem_cons_self),
        if_neg Bool.false_ne_true]
  have hne : d.hex.toList ≠ [] := by
    intro hnil
    rw [hnil] at hlen
    cases hlen
  rw [Ugk.isHexdigest, hlen, isHexInt]
  dsimp only
  rw [hstrip _ hall, hstrip _ (fun c hc => hall c (List.mem_reverse.mp hc)), List.reverse_reverse]
  generalize d.hex.toList = cs at hall hne
  have hdigits : hexDigits env cs = true := hexDigits_of_hexVal hne hall
  -- neither a sign nor a radix prefix is made of hexadecimal digits
  exact unsigned_of_hexVal (Prefixed env) cs hall (prefixed_of_hexVal hall hdigits)

/-! ## Verdicts on written receipts -/

/-- The decimal digits of `shortCode`, after zeros. -/
def hexText (m : Message) : List Char :=
  (List.replicate 64 '0' ++ Nat.toDigits 10 (shortCode m)).drop (Nat.toDigits 10 (shortCode m)).length

theorem length_hexText (m : Message) : (hexText m).length = 64 := by
  rw [hexText, List.length_drop, List.length_append, List.length_replicate]
  omega

theorem isDigit_of_mem_hexText {m : Message} {c : Char} (h : c ∈ hexText m) : c.isDigit = true := by
  have hmem := List.mem_of_mem_drop h
  rw [List.mem_append] at hmem
  rcases hmem with hmem | hmem
  · obtain rfl := List.eq_of_mem_replicate hmem
    rfl
  · exact Nat.isDigit_of_mem_toDigits (by omega) (by omega) hmem

/-- A digest of 64 digits. -/
def hexHash (m : Message) : Digest where
  hex := String.ofList (hexText m)
  nonempty := by
    intro h
    have hlen := congrArg (fun s => s.toList.length) h
    rw [String.toList_ofList, length_hexText] at hlen
    exact nomatch hlen
  ascii := by
    rw [isAscii, String.toList_ofList, List.all_eq_true]
    intro c hc
    have hdigit := isDigit_of_mem_hexText hc
    simp only [Char.isDigit, Bool.and_eq_true, decide_eq_true_eq] at hdigit
    have hle : c.val.toNat ≤ 57 := hdigit.2
    exact decide_eq_true (Nat.lt_of_le_of_lt hle (by omega))

end Ugk
