import Ugk.Native.Will
import Ugk.Spec.Horizon

/-!
# What an admission under `require_intent` was willed by

A call finds its intent in one of two ways: it names a declaration, or the active ones are searched
for one that covers its op.  The search only meets declarations that are unrevoked and in scope.  A
named declaration is looked up in the whole store and asked for its ops only, so a revoked one, or
one of another session, admits the call just the same.

## Key results

- `mem_closure_iff`: `_closure` is the least fixpoint of the declared ops under the edges
- `closure_laws`: the loop of `_closure` ends in the bounded fixpoint, and what `covers` makes of it
- `covers_eq`: the kernel's search is `WillChecker.covers`
- `intended_iff`: when the reference of one call is an active declaration
- `will_enforced`: in runs whose calls name active declarations every admission is willed
-/

namespace Ugk

variable {op ref : String} {declarations intents : List IntentDeclaration}

/-! ## `WillChecker` -/

namespace WillChecker

/-- `_closure` is the least set with the seed that is closed under the edges. -/
theorem mem_closure_iff {edges : List (String × List String)} {seed : List String} {x : String} :
    x ∈ closure edges none seed ↔ Closure.Reach edges seed x :=
  Closure.mem_rounds_iff (Nat.le_refl _)

theorem closure_nil (depth : Option Nat) (seed : List String) : closure [] depth seed = seed :=
  Closure.rounds_nil _

/-- Full coverage is reachability from the declared ops. -/
theorem covers_iff {edges : List (String × List String)} :
    (∃ found, covers op declarations edges = .covered found) ↔
      Closure.Reach edges (declarations.flatMap IntentDeclaration.declaredOps) op := by
  rw [← mem_closure_iff]
  unfold covers
  dsimp only
  split
  · rename_i hseed
    rw [hseed, mem_closure_iff]
    constructor
    · rintro ⟨_, h⟩
      exact nomatch h
    · intro h
      -- nothing is reached from no seed
      have hempty : ∀ y, Closure.Reach edges [] y → False := by
        intro y hy
        induction hy with
        | seed h => exact nomatch h
        | edge _ _ _ ih => exact ih
      exact absurd (hempty op h) id
  · split
    · rename_i hmem
      exact ⟨fun _ => hmem, fun _ => ⟨_, rfl⟩⟩
    · rename_i hmem
      constructor
      · rintro ⟨_, h⟩
        exact nomatch h
      · intro h
        exact absurd h hmem

/-- A declaration covers the ops it declares. -/
theorem covers_singleton {d : IntentDeclaration} (h : op ∈ d.declaredOps) :
    covers op [d] = .covered d.declarationHash := by
  have hseed : [d].flatMap IntentDeclaration.declaredOps = d.declaredOps := by simp
  have hfind : findCover op [d] [] none = d.declarationHash := by
    have hfound : (smallestFirst [d]).find? (fun d => d.declaredOps.contains op) = some d := by
      simp [smallestFirst, h]
    unfold findCover
    rw [hfound]
  unfold covers
  rw [hseed, if_neg (List.ne_nil_of_mem h), closure_nil, if_pos h, hfind]

/-- A single declaration covers what it declares, and is found under its own hash. -/
theorem covers_singleton_iff {d : IntentDeclaration} :
    covers op [d] = .covered ref ↔ op ∈ d.declaredOps ∧ d.declarationHash = ref := by
  by_cases hop : op ∈ d.declaredOps
  · rw [covers_singleton hop]
    constructor
    · intro h
      exact ⟨hop, CoverageOutcome.covered.inj h⟩
    · rintro ⟨_, rfl⟩
      rfl
  · constructor
    · intro h
      have hreach := covers_iff.mp ⟨ref, h⟩
      rw [← mem_closure_iff, closure_nil] at hreach
      exact absurd (by simpa using hreach) hop
    · rintro ⟨h, _⟩
      exact absurd h hop

/-! ## The bounded fixpoint -/

section Bounded

variable {edges edges' : List (String × List String)} {depth depth' : Option Int}
  {seed seed' covered : List String}

/-- Without a bound the loop ends as soon as there is a test for every missing target. -/
theorem closureLoop_unbounded {fuel n : Nat} (steps : Nat)
    (hfuel : (Closure.missing edges covered).length < fuel)
    (hn : (Closure.missing edges covered).length ≤ n) :
    closureLoop edges none fuel steps covered = some (Closure.rounds edges n covered) := by
  induction fuel generalizing n steps covered with
  | zero => omega
  | succ fuel ih =>
    unfold closureLoop
    rw [if_pos (show ((none : Option Int).all _) = true from rfl)]
    dsimp only
    split
    · rename_i hnew
      cases n with
      | zero => rfl
      | succ n =>
        unfold Closure.rounds
        rw [if_pos hnew]
    · rename_i hnew
      have hlt := Closure.length_missing_lt hnew
      cases n with
      | zero => omega
      | succ n =>
        rw [Closure.rounds, if_neg hnew]
        exact ih _ (by omega) (by omega)

/-- With a bound it makes the rounds that are left. -/
theorem closureLoop_bounded {fuel : Nat} (d : Int) (steps : Nat)
    (hfuel : (Closure.missing edges covered).length < fuel) :
    closureLoop edges (some d) fuel steps covered =
      some (Closure.rounds edges (d - steps).toNat covered) := by
  induction fuel generalizing steps covered with
  | zero => omega
  | succ fuel ih =>
    unfold closureLoop
    by_cases hlt : (steps : Int) < d
    · have hleft : (d - steps).toNat = (d - (steps + 1 : Nat)).toNat + 1 := by omega
      rw [if_pos (by simpa using hlt), hleft, Closure.rounds]
      dsimp only
      split
      · rfl
      · rename_i hnew
        have hless := Closure.length_missing_lt hnew
        exact ih _ (by omega)
    · have hleft : (d - steps).toNat = 0 := by omega
      rw [if_neg (by simpa using hlt), hleft]
      rfl

/-- With a test for every target and one more, the loop ends in `closure`. -/
theorem closureLoop_eq {fuel : Nat} (hfuel : (edges.flatMap Prod.snd).length < fuel) :
    closureLoop edges depth fuel 0 seed = some (closure edges (depth.map Int.toNat) seed) := by
  have hmissing : (Closure.missing edges seed).length ≤ (edges.flatMap Prod.snd).length :=
    List.length_filter_le _ _
  cases depth with
  | none => exact closureLoop_unbounded 0 (by omega) hmissing
  | some d =>
    rw [closureLoop_bounded d 0 (by omega)]
    simp [closure]

/-- A number of steps within the bound; a negative bound allows none. -/
def Within (depth : Option Int) (k : Nat) : Prop := ∀ d, depth = some d → k ≤ d.toNat

/-- The order of the bounds, no bound being the largest. -/
def DepthLe (depth depth' : Option Int) : Prop :=
  ∀ d', depth' = some d' → ∃ d, depth = some d ∧ d ≤ d'

theorem Within.mono (h : DepthLe depth depth') {k : Nat} (hk : Within depth k) :
    Within depth' k := by
  intro d' hd'
  obtain ⟨d, hd, hle⟩ := h d' hd'
  have := hk d hd
  omega

theorem mem_closure_iff_reachIn {x : String} : x ∈ closure edges (depth.map Int.toNat) seed ↔
    ∃ k, Within depth k ∧ Closure.ReachIn edges seed k x := by
  cases depth with
  | none =>
    rw [Option.map_none, mem_closure_iff, Closure.reach_iff]
    exact exists_congr fun k => (and_iff_right fun d h => nomatch h).symm
  | some d =>
    refine (Closure.mem_rounds_reachIn _).trans (exists_congr fun k => and_congr_left fun _ => ?_)
    constructor
    · rintro hk d' ⟨⟩
      exact hk
    · intro hk
      exact hk d rfl

theorem closure_mono (hedges : Closure.EdgesLe edges edges') (hdepth : DepthLe depth depth')
    (hseed : seed ⊆ seed') :
    closure edges (depth.map Int.toNat) seed ⊆ closure edges' (depth'.map Int.toNat) seed' := by
  intro x hx
  obtain ⟨k, hk, hreach⟩ := mem_closure_iff_reachIn.mp hx
  exact mem_closure_iff_reachIn.mpr ⟨k, hk.mono hdepth, hreach.mono hedges hseed⟩

/-- The closure of a pooled seed is the union of the closures of its parts. -/
theorem mem_closure_flatMap {β : Type} {parts : List β} {f : β → List String} {x : String} :
    x ∈ closure edges (depth.map Int.toNat) (parts.flatMap f) ↔
      ∃ p ∈ parts, x ∈ closure edges (depth.map Int.toNat) (f p) := by
  constructor
  · intro hx
    obtain ⟨k, hk, hreach⟩ := mem_closure_iff_reachIn.mp hx
    obtain ⟨p, hp, hreach⟩ := Closure.reachIn_flatMap.mp hreach
    exact ⟨p, hp, mem_closure_iff_reachIn.mpr ⟨k, hk, hreach⟩⟩
  · rintro ⟨p, hp, hx⟩
    obtain ⟨k, hk, hreach⟩ := mem_closure_iff_reachIn.mp hx
    exact mem_closure_iff_reachIn.mpr ⟨k, hk, Closure.reachIn_flatMap.mpr ⟨p, hp, hreach⟩⟩

theorem mem_smallestFirst {d : IntentDeclaration} :
    d ∈ smallestFirst declarations ↔ d ∈ declarations :=
  (List.perm_insertionSort _ declarations).mem_iff

/-- The declaration `_find_cover` finds: a direct one if there is one. -/
theorem findCover_spec (h : ∃ d ∈ declarations, op ∈ closure edges (depth.map Int.toNat)
    d.declaredOps) :
    ∃ d ∈ declarations,
      d.declarationHash = findCover op declarations edges (depth.map Int.toNat) ∧
      op ∈ closure edges (depth.map Int.toNat) d.declaredOps ∧
      ((∃ d' ∈ declarations, op ∈ d'.declaredOps) → op ∈ d.declaredOps) := by
  unfold findCover
  split
  · rename_i d hfind
    have hop : op ∈ d.declaredOps := by simpa using List.find?_some hfind
    refine ⟨d, mem_smallestFirst.mp (List.mem_of_find?_eq_some hfind), rfl, ?_, fun _ => hop⟩
    exact Closure.subset_rounds _ _ hop
  · rename_i hdirect
    have hnone : ¬ ∃ d' ∈ declarations, op ∈ d'.declaredOps := by
      rintro ⟨d', hd', hop⟩
      have := List.find?_eq_none.mp hdirect d' (mem_smallestFirst.mpr hd')
      exact this (by simpa using hop)
    split
    · rename_i d hfind
      have hop := List.find?_some hfind
      exact ⟨d, mem_smallestFirst.mp (List.mem_of_find?_eq_some hfind), rfl, by simpa using hop,
        fun h => absurd h hnone⟩
    · rename_i hderived
      obtain ⟨d, hd, hop⟩ := h
      have := List.find?_eq_none.mp hderived d (mem_smallestFirst.mpr hd)
      exact absurd (by simpa using hop) this

/-- What `covers` may answer about the declarations. -/
structure CoverLaws (edges : List (String × List String)) (depth : Option Int) (op : String)
    (declarations : List IntentDeclaration) (outcome : CoverageOutcome) : Prop where
  /-- covered exactly when one declaration's own closure has the op -/
  covered_iff : (∃ ref, outcome = .covered ref) ↔
    ∃ d ∈ declarations, op ∈ closure edges (depth.map Int.toNat) d.declaredOps
  /-- by such a declaration, a direct one if there is one -/
  ref : ∀ ref, outcome = .covered ref → ∃ d ∈ declarations, d.declarationHash = ref ∧
    op ∈ closure edges (depth.map Int.toNat) d.declaredOps ∧
    ((∃ d' ∈ declarations, op ∈ d'.declaredOps) → op ∈ d.declaredOps)
  /-- the code of a refusal -/
  code : ∀ code, outcome = .outside code → (code = "WL-005" ↔ ∀ d ∈ declarations,
    d.declaredOps = []) ∧ (code = "WL-005" ∨ code = "WL-001")

theorem covers_laws (edges : List (String × List String)) (depth : Option Int) (op : String)
    (declarations : List IntentDeclaration) :
    CoverLaws edges depth op declarations
      (covers op declarations edges (depth.map Int.toNat)) := by
  have hpooled := @mem_closure_flatMap edges depth _ declarations IntentDeclaration.declaredOps op
  unfold covers
  dsimp only
  split
  · rename_i hseed
    have hnone : ∀ d ∈ declarations, d.declaredOps = [] := List.flatMap_eq_nil_iff.mp hseed
    refine ⟨⟨fun ⟨_, h⟩ => (nomatch h), fun h => ?_⟩, fun _ h => (nomatch h), ?_⟩
    · -- nothing is reached from no seed
      have hmem := hpooled.mpr h
      rw [hseed] at hmem
      obtain ⟨k, -, hreach⟩ := mem_closure_iff_reachIn.mp hmem
      obtain ⟨p, hp, -⟩ := (@Closure.reachIn_flatMap _ edges Unit [] (fun _ => []) k op).mp hreach
      exact nomatch hp
    · rintro code ⟨⟩
      exact ⟨⟨fun _ => hnone, fun _ => rfl⟩, .inl rfl⟩
  · rename_i hseed
    split
    · rename_i hmem
      refine ⟨⟨fun _ => hpooled.mp hmem, fun _ => ⟨_, rfl⟩⟩, ?_, fun _ h => (nomatch h)⟩
      rintro ref ⟨⟩
      exact findCover_spec (hpooled.mp hmem)
    · rename_i hmem
      refine ⟨⟨fun ⟨_, h⟩ => (nomatch h), fun h => absurd (hpooled.mpr h) hmem⟩,
        fun _ h => (nomatch h), ?_⟩
      rintro code ⟨⟩
      refine ⟨⟨fun h => absurd h (by decide), fun h => ?_⟩, .inr rfl⟩
      exact absurd (List.flatMap_eq_nil_iff.mpr h) hseed

/-- The bounded least fixpoint: the loop ends, in what the seed reaches in at most `depth` edges; the
    result is monotone in its arguments and takes unions to unions; and `covers` decides by it. -/
theorem closure_laws (edges : List (String × List String)) (depth : Option Int)
    (seed : List String) :
    (∀ fuel, (edges.flatMap Prod.snd).length < fuel →
      closureLoop edges depth fuel 0 seed = some (closure edges (depth.map Int.toNat) seed)) ∧
    (∀ x, x ∈ closure edges (depth.map Int.toNat) seed ↔
      ∃ k, Within depth k ∧ Closure.ReachIn edges seed k x) ∧
    (∀ edges' depth' seed', Closure.EdgesLe edges edges' → DepthLe depth depth' → seed ⊆ seed' →
      closure edges (depth.map Int.toNat) seed ⊆ closure edges' (depth'.map Int.toNat) seed') ∧
    (∀ seed' x, x ∈ closure edges (depth.map Int.toNat) (seed ++ seed') ↔
      x ∈ closure edges (depth.map Int.toNat) seed ∨
        x ∈ closure edges (depth.map Int.toNat) seed') ∧
    ∀ op declarations, CoverLaws edges depth op declarations
      (covers op declarations edges (depth.map Int.toNat)) := by
  refine ⟨fun _ => closureLoop_eq, fun _ => mem_closure_iff_reachIn,
    fun _ _ _ => closure_mono, ?_, covers_laws edges depth⟩
  intro seed' x
  have hpair := @mem_closure_flatMap edges depth _ [seed, seed'] id x
  simpa using hpair

end Bounded

end WillChecker

/-! ## The search of the kernel -/

namespace Kernel

/-- The search of the kernel is `WillChecker.covers` without production edges. -/
theorem covers_eq (op : String) (declarations : List IntentDeclaration) :
    covers op declarations = match WillChecker.covers op declarations with
      | .covered found => .ok found
      | .outside code => .error code := by
  have hseed : (declarations.all fun d => d.declaredOps.isEmpty) = true ↔
      declarations.flatMap IntentDeclaration.declaredOps = [] := by
    simp [List.all_eq_true, List.flatMap_eq_nil_iff]
  unfold covers WillChecker.covers
  by_cases hempty : declarations.flatMap IntentDeclaration.declaredOps = []
  · rw [if_pos (hseed.mpr hempty), if_pos hempty]
  · rw [if_neg (mt hseed.mp hempty), if_neg hempty, WillChecker.closure_nil]
    have hmem : op ∈ declarations.flatMap IntentDeclaration.declaredOps ↔
        ((WillChecker.smallestFirst declarations).find?
          fun d => d.declaredOps.contains op).isSome = true := by
      simp [WillChecker.smallestFirst, List.mem_flatMap]
    cases hfind : (WillChecker.smallestFirst declarations).find?
        fun d => d.declaredOps.contains op with
    | some d =>
      rw [hfind] at hmem
      have hcover : WillChecker.findCover op declarations [] none = d.declarationHash := by
        unfold WillChecker.findCover
        rw [hfind]
      rw [if_pos (hmem.mpr rfl), hcover]
      unfold WillChecker.smallestFirst at hfind
      rw [hfind]
    | none =>
      rw [hfind] at hmem
      rw [if_neg fun h => Bool.noConfusion (hmem.mp h)]
      unfold WillChecker.smallestFirst at hfind
      rw [hfind]

/-- What the search finds is one of the declarations, and declares the op. -/
theorem covers_ok (h : covers op declarations = .ok ref) :
    ∃ d ∈ declarations, d.declarationHash = ref ∧ op ∈ d.declaredOps := by
  unfold covers at h
  split at h
  · exact nomatch h
  · split at h
    · rename_i d hfind
      have hmem := List.mem_of_find?_eq_some hfind
      have hop := List.find?_some hfind
      exact ⟨d, (List.mem_insertionSort _).mp hmem, Except.ok.inj h, by simpa using hop⟩
    · exact nomatch h

/-! ## Active declarations -/

/-- The declarations a kernel searches: unrevoked, of this session or of an open scope, and not of
    an open scope when the kernel requires scoped intents. -/
def inScope (k : Kernel) (intents : List IntentDeclaration) : List IntentDeclaration :=
  let active := activeDeclarations intents k.sessionDkn
  if k.requireScopedIntent then active.filter fun d => d.scopeRef != "" else active

/-- A declaration that is active for a kernel. -/
structure Active (k : Kernel) (d : IntentDeclaration) : Prop where
  unrevoked : d.revoked = false
  scope : d.scopeRef = "" ∨ d.scopeRef = k.sessionDkn
  narrowed : k.requireScopedIntent = true → d.scopeRef ≠ ""

theorem mem_inScope {k : Kernel} {d : IntentDeclaration} :
    d ∈ inScope k intents ↔ d ∈ intents ∧ Active k d := by
  have hactive : d ∈ activeDeclarations intents k.sessionDkn ↔
      d ∈ intents ∧ d.revoked = false ∧ (d.scopeRef = "" ∨ d.scopeRef = k.sessionDkn) := by
    simp [activeDeclarations]
  unfold inScope
  dsimp only
  split
  · rename_i hscoped
    rw [List.mem_filter, hactive]
    constructor
    · rintro ⟨⟨hd, hr, hs⟩, hne⟩
      exact ⟨hd, hr, hs, fun _ => by simpa using hne⟩
    · rintro ⟨hd, hr, hs, hne⟩
      exact ⟨⟨hd, hr, hs⟩, by simpa using hne hscoped⟩
  · rename_i hscoped
    rw [hactive]
    constructor
    · rintro ⟨hd, hr, hs⟩
      exact ⟨hd, hr, hs, fun h => absurd h hscoped⟩
    · rintro ⟨hd, hr, hs, _⟩
      exact ⟨hd, hr, hs⟩

/-- The reference is an active declaration in the store of the world, one that covers the op. -/
def Intended (w : World) (op ref : String) : Prop :=
  ∃ intents d, w.intents = some intents ∧ d ∈ intents ∧ Active w.kernel d ∧
    WillChecker.covers op [d] = .covered ref

/-- An intent store is attached, and a declaration of the op that the call names in it is active. -/
def NamesActive (w : World) (a : ExecuteArgs) : Prop :=
  ∃ intents, w.intents = some intents ∧ ∀ d, a.intentRef.getD "" ≠ "" →
    IntentStore.get intents (a.intentRef.getD "") = some d → a.op ∈ d.declaredOps →
    Active w.kernel d

/-- What coverage returns when intents are required: the declaration that was named, or one that was
    found among the active ones. -/
theorem intentCoverage_cases {k : Kernel} {a : ExecuteArgs}
    (h : intentCoverage k intents a = .ok ref) (hreq : k.requireIntent = true) :
    (a.intentRef.getD "" ≠ "" ∧ a.intentRef.getD "" = ref ∧
      ∃ d, IntentStore.get intents ref = some d ∧ a.op ∈ d.declaredOps) ∨
    (a.intentRef.getD "" = "" ∧
      ∃ d ∈ inScope k intents, d.declarationHash = ref ∧ a.op ∈ d.declaredOps) := by
  unfold intentCoverage at h
  simp only [hreq, if_true] at h
  split at h
  · rename_i hne
    split at h
    · rename_i d hfind
      split at h
      · rename_i hop
        obtain rfl := Except.ok.inj h
        exact .inl ⟨hne, rfl, d, hfind, by simpa using hop⟩
      · exact nomatch h
    · exact nomatch h
  · rename_i hempty
    have hnone : a.intentRef.getD "" = "" := not_not.mp hempty
    refine .inr ⟨hnone, ?_⟩
    split at h
    · rename_i found hfound
      obtain rfl := Except.ok.inj h
      exact covers_ok hfound
    · exact nomatch h

/-- The reference of a call for an application op is what coverage returns. -/
theorem intentCoverage_of_intentOf {w : World} {a : ExecuteArgs}
    (happ : isApplication a.op = true) (hintents : w.intents = some intents)
    (hcov : intentOf w a = some ref) : intentCoverage w.kernel intents a = .ok ref := by
  unfold intentOf at hcov
  rw [hintents] at hcov
  dsimp only at hcov
  rw [if_pos happ] at hcov
  cases hcoverage : intentCoverage w.kernel intents a with
  | error code =>
    rw [hcoverage] at hcov
    exact nomatch hcov
  | ok found =>
    rw [hcoverage] at hcov
    rw [Option.some.inj hcov]

/-- The reference of a call under `require_intent`: active when the call names no declaration that
    is not. -/
theorem intended_of_namesActive {w : World} {a : ExecuteArgs} (happ : isApplication a.op = true)
    (hreq : w.kernel.requireIntent = true) (hcov : intentOf w a = some ref)
    (hnames : NamesActive w a) : Intended w a.op ref := by
  obtain ⟨intents, hintents, hactive⟩ := hnames
  have hcoverage := intentCoverage_of_intentOf happ hintents hcov
  rcases intentCoverage_cases hcoverage hreq with ⟨hne, heq, d, hget, hop⟩ | ⟨_, d, hd, rfl, hop⟩
  · -- the call has named the declaration
    have hhash : d.declarationHash = ref := by simpa using List.find?_some hget
    refine ⟨intents, d, hintents, List.mem_of_find?_eq_some hget, ?_, ?_⟩
    · exact hactive d hne (by rw [heq]; exact hget) hop
    · exact WillChecker.covers_singleton_iff.mpr ⟨hop, hhash⟩
  · -- the search has found it
    obtain ⟨hmem, hd⟩ := mem_inScope.mp hd
    exact ⟨intents, d, hintents, hmem, hd, WillChecker.covers_singleton hop⟩

/-! ## The keys of the intent store -/

/-- The hashes are the primary key of the table. -/
def Keyed (intents : List IntentDeclaration) : Prop :=
  (intents.map IntentDeclaration.declarationHash).Nodup

theorem keyed_declare (h : Keyed intents) (d : IntentDeclaration) :
    Keyed (IntentStore.declare d intents) := by
  unfold IntentStore.declare
  split
  · exact h
  · rename_i hnone
    unfold Keyed
    rw [List.map_append, List.nodup_append]
    refine ⟨h, List.nodup_cons.mpr ⟨List.not_mem_nil, List.nodup_nil⟩, ?_⟩
    intro x hx y hy heq
    obtain ⟨old, hold, rfl⟩ := List.mem_map.mp hx
    obtain rfl := List.mem_singleton.mp hy
    -- an entry with this hash would have been found
    refine hnone (List.find?_isSome.mpr ⟨old, hold, ?_⟩)
    simpa using heq

theorem keyed_revoke (h : Keyed intents) (declarationHash : String) :
    Keyed (IntentStore.revoke declarationHash intents) := by
  have hsame : (IntentStore.revoke declarationHash intents).map IntentDeclaration.declarationHash =
      intents.map IntentDeclaration.declarationHash := by
    unfold IntentStore.revoke
    rw [List.map_map]
    refine List.map_congr_left fun d _ => ?_
    show (if _ then _ else d).declarationHash = d.declarationHash
    split <;> rfl
  unfold Keyed
  rw [hsame]
  exact h

/-- The declaration with this hash is revoked. -/
def Revoked (intents : List IntentDeclaration) (declarationHash : String) : Prop :=
  ∃ d, IntentStore.get intents declarationHash = some d ∧ d.revoked = true

/-- Declaring again does not take a revocation back. -/
theorem revoked_declare {declarationHash : String} (h : Revoked intents declarationHash)
    (d : IntentDeclaration) : Revoked (IntentStore.declare d intents) declarationHash := by
  obtain ⟨old, hget, hrevoked⟩ := h
  unfold IntentStore.declare
  split
  · exact ⟨old, hget, hrevoked⟩
  · refine ⟨old, ?_, hrevoked⟩
    unfold IntentStore.get at hget ⊢
    rw [List.find?_append, hget]
    rfl

/-- Revoking another declaration does not take a revocation back. -/
theorem revoked_revoke {declarationHash : String} (h : Revoked intents declarationHash)
    (other : String) : Revoked (IntentStore.revoke other intents) declarationHash := by
  obtain ⟨old, hget, hrevoked⟩ := h
  have hhash (d : IntentDeclaration) : (if d.declarationHash = other then { d with revoked := true }
      else d).declarationHash = d.declarationHash := by
    split <;> rfl
  refine ⟨if old.declarationHash = other then { old with revoked := true } else old, ?_, ?_⟩
  · unfold IntentStore.get at hget ⊢
    unfold IntentStore.revoke
    rw [List.find?_map]
    have hsame : ((fun d : IntentDeclaration => d.declarationHash == declarationHash) ∘
        fun d => if d.declarationHash = other then { d with revoked := true } else d) =
          fun d => d.declarationHash == declarationHash := by
      funext d
      show (_ == declarationHash) = (_ == declarationHash)
      rw [hhash]
    rw [hsame, hget]
    rfl
  · split
    · rfl
    · exact hrevoked

theorem get_of_mem (h : Keyed intents) {d : IntentDeclaration} (hd : d ∈ intents) :
    IntentStore.get intents d.declarationHash = some d := by
  unfold IntentStore.get
  cases hfind : intents.find? fun x => x.declarationHash == d.declarationHash with
  | none => exact absurd (beq_self_eq_true d.declarationHash) (List.find?_eq_none.mp hfind d hd)
  | some x =>
    have hhash : x.declarationHash = d.declarationHash := by simpa using List.find?_some hfind
    rw [List.inj_on_of_nodup_map h (List.mem_of_find?_eq_some hfind) hd hhash]

/-- The reference of a call under `require_intent` is an active declaration exactly when the call
    names no other. -/
theorem intended_iff {w : World} {a : ExecuteArgs} (happ : isApplication a.op = true)
    (hreq : w.kernel.requireIntent = true) (hkeyed : ∀ intents, w.intents = some intents → Keyed intents)
    (hcov : intentOf w a = some ref) : Intended w a.op ref ↔ NamesActive w a := by
  constructor
  · rintro ⟨intents, d, hintents, hmem, hactive, hcovers⟩
    obtain ⟨_, hhash⟩ := WillChecker.covers_singleton_iff.mp hcovers
    have hget : IntentStore.get intents ref = some d := hhash ▸ get_of_mem (hkeyed _ hintents) hmem
    refine ⟨intents, hintents, fun named hne hnamed _ => ?_⟩
    -- what is recorded for a named declaration is its name
    have href : a.intentRef.getD "" = ref := by
      rcases intentCoverage_cases (intentCoverage_of_intentOf happ hintents hcov) hreq with
        ⟨_, heq, _⟩ | ⟨hempty, _⟩
      · exact heq
      · exact absurd hempty hne
    rw [href, hget] at hnamed
    rw [← Option.some.inj hnamed]
    exact hactive
  · exact intended_of_namesActive happ hreq hcov

/-! ## Admissions -/

/-- The call is admitted in this world, with this intent reference. -/
def Admits (rt : Runtime) (a : ExecuteArgs) (w w₁ : World) (ref : String) : Prop :=
  ∃ authority parameters receipt s, Passes rt a w authority parameters ref w₁ ∧
    Store.write rt.toConfig rt.clock (admitArgs w₁.kernel a authority parameters) w₁.store =
      (.ok receipt, s)

variable {rt : Runtime}

/-- What an admitted call goes on with: its outcome, whose receipts carry the intent reference. -/
theorem execute_of_admits {a : ExecuteArgs} {w w₁ : World} (h : Admits rt a w w₁ ref) :
    ∃ authority parameters receipt s, execute rt a w =
      (materializeWarrant rt (governingModel w.kernel a.op) a >>= fun warrantId =>
        Proc.get >>= fun w₂ => outcome rt a {
          authority := authority
          parameters := parameters
          outcomeParams := outcomeParams w₂.kernel a parameters
          intentRef := ref
          admitRef := receipt
          warrantId := warrantId }) { w₁ with store := s } := by
  obtain ⟨authority, parameters, receipt, s, hpasses, hwrite⟩ := h
  refine ⟨authority, parameters, receipt.hR, s, ?_⟩
  have hadmission : gateAdmission rt a authority parameters w₁ =
      (.ok receipt.hR, { w₁ with store := s }) := by
    have hrun : write rt (admitArgs w₁.kernel a authority parameters) w₁ =
        (.ok receipt, { w₁ with store := s }) := by rw [write_apply, hwrite]
    unfold gateAdmission
    rw [Proc.bind_of_ok (Proc.get_apply _), Proc.bind_of_ok hrun]
    rfl
  rw [hpasses.execute_eq]
  unfold admitted
  exact Proc.bind_of_ok hadmission

/-! ## Runs -/

/-- Something holds of every call of `execute` in a run, in the world the call is made in. -/
def AtCalls (rt : Runtime) (P : World → ExecuteArgs → Prop) : List WillStep → World → Prop
  | [], _ => True
  | step :: steps, w => (∀ a, step = .execute a → P w a) ∧ AtCalls rt P steps (step.run rt w)

/-- What holds of every call because of what holds of every call. -/
theorem AtCalls.imp₂ {P Q R : World → ExecuteArgs → Prop} (h : ∀ w a, P w a → Q w a → R w a)
    {steps : List WillStep} {w : World} (hp : AtCalls rt P steps w) (hq : AtCalls rt Q steps w) :
    AtCalls rt R steps w := by
  induction steps generalizing w with
  | nil => trivial
  | cons step steps ih =>
    exact ⟨fun a ha => h w a (hp.1 a ha) (hq.1 a ha), ih hp.2 hq.2⟩

/-- The kernel requires intents when the coverage of the call is decided: after its gate. -/
def RequiresIntent (w : World) (a : ExecuteArgs) : Prop :=
  (runGate a w).2.kernel.requireIntent = true

/-- The call of an application op names no declaration of its op but an active one. -/
def NamesOnlyActive (w : World) (a : ExecuteArgs) : Prop :=
  isApplication a.op = true → NamesActive (runGate a w).2 a

/-- An admitted application op is intended by an active declaration that covers it. -/
def Willed (rt : Runtime) (w : World) (a : ExecuteArgs) : Prop :=
  isApplication a.op = true → ∀ w₁ ref, Admits rt a w w₁ ref → Intended w₁ a.op ref

theorem willed_of_namesOnlyActive {w : World} {a : ExecuteArgs} (hreq : RequiresIntent w a)
    (hnames : NamesOnlyActive w a) : Willed rt w a := by
  rintro happ w₁ ref ⟨authority, parameters, receipt, s, hpasses, -⟩
  have hworld : (runGate a w).2 = w₁ := congrArg Prod.snd hpasses.gate
  have hcov := hpasses.coverage
  unfold coverage at hcov
  split at hcov
  · refine intended_of_namesActive happ ?_ hcov ?_
    · rw [← hworld]
      exact hreq
    · rw [← hworld]
      exact hnames happ
  · exact nomatch hcov

/-- Will enforcement over runs: when the calls name active declarations only, every admitted
    application op is intended by an active declaration that covers it. -/
theorem will_enforced (steps : List WillStep) (w : World) (hreq : AtCalls rt RequiresIntent steps w)
    (hnames : AtCalls rt NamesOnlyActive steps w) : AtCalls rt (Willed rt) steps w :=
  hreq.imp₂ (fun _ _ => willed_of_namesOnlyActive) hnames

/-! ## A revoked intent that admits -/

/-- An active kernel that requires intents, and an empty intent store. -/
def willWorld : World :=
  { kernel := { active := true, requireIntent := true }, intents := some [] }

def attestIntent : IntentDeclaration :=
  { declarationHash := "declaration", declaredOps := ["attest"], scopeRef := "", revoked := false }

/-- A call that names the declaration. -/
def attestCall : ExecuteArgs := { op := "attest", intentRef := some "declaration" }

/-- The call is admitted in any world of this kernel whose store holds the declaration, whatever has
    become of it. -/
theorem admits_attestCall {d : IntentDeclaration} (hhash : d.declarationHash = "declaration")
    (hops : d.declaredOps = ["attest"]) :
    Admits sampleRuntime attestCall { willWorld with intents := some [d] }
      { willWorld with intents := some [d] } "declaration" := by
  have hnames : PlainNames ["op", "parameters"] ∧
      ∀ name ∈ reservedNames, name ∉ ["op", "parameters"] := by decide
  have hwhole : Writable sampleRuntime.toEnv
      (strDict [("op", .str "attest"), ("parameters", strDict [])]) := by
    have hempty : Writable sampleRuntime.toEnv (strDict []) :=
      writable_strDict (by decide) (fun _ h => by cases h)
    exact writable_strDict hnames.1 (by simp [writable_str, hempty])
  have hacc : accepted sampleRuntime.toConfig
      (ensureDefaultEdgeFor sampleRuntime.toConfig willWorld.store.built "system")
      (admitArgs willWorld.kernel attestCall "system" []) = true :=
    accepted_strDict hwhole rfl rfl hnames.2 rfl rfl rfl rfl
      (isOk_path_of_no_edges rfl _ _)
  obtain ⟨receipt, s, hwrite⟩ := (@write_returns_iff sampleRuntime.toConfig sampleRuntime.clock
    (admitArgs willWorld.kernel attestCall "system" []) willWorld.store).mpr
      ⟨hacc, fun _ h => absurd h List.not_mem_nil⟩
  refine ⟨"system", [], receipt, s, ⟨rfl, rfl, rfl, ?_⟩, hwrite⟩
  have hget : [d].find? (fun x => x.declarationHash == "declaration") = some d := by
    simp [hhash]
  have hcoverage : intentCoverage willWorld.kernel [d] attestCall = .ok "declaration" := by
    unfold intentCoverage attestCall
    rw [if_pos (show (some "declaration").getD "" ≠ "" by decide)]
    dsimp only [Option.getD_some]
    rw [hget]
    dsimp only
    rw [hops]
    rfl
  have happ : isApplication attestCall.op = true := by decide
  show intentOf { willWorld with intents := some [d] } attestCall = some "declaration"
  unfold intentOf
  dsimp only
  rw [if_pos happ, hcoverage]

/-- Declare, then call. -/
def willedSteps : List WillStep := [.declare attestIntent true, .execute attestCall]

/-- Declare, revoke, then call by name. -/
def revokedSteps : List WillStep :=
  [.declare attestIntent true, .revoke "declaration" true, .execute attestCall]

/-- The steps that are not calls are passed over. -/
theorem atCalls_skip {P : World → ExecuteArgs → Prop} {step : WillStep} {steps : List WillStep}
    {w : World} (hstep : ∀ a, step ≠ .execute a) (h : AtCalls rt P steps (step.run rt w)) :
    AtCalls rt P (step :: steps) w :=
  ⟨fun a ha => absurd ha (hstep a), h⟩

theorem atCalls_singleton {P : World → ExecuteArgs → Prop} {a : ExecuteArgs} {w : World}
    (h : P w a) : AtCalls rt P [.execute a] w := by
  refine ⟨fun b hb => ?_, trivial⟩
  obtain rfl := WillStep.execute.inj hb
  exact h

theorem will_enforced_willedSteps : AtCalls sampleRuntime (Willed sampleRuntime) willedSteps
    willWorld := by
  have hdeclare : ∀ a, WillStep.declare attestIntent true ≠ .execute a := fun _ h => nomatch h
  refine will_enforced willedSteps willWorld (atCalls_skip hdeclare (atCalls_singleton rfl))
    (atCalls_skip hdeclare (atCalls_singleton fun _ => ?_))
  refine ⟨[attestIntent], rfl, fun d _ hget _ => ?_⟩
  obtain rfl := List.mem_singleton.mp (List.mem_of_find?_eq_some hget)
  exact ⟨rfl, .inl rfl, fun h => Bool.noConfusion h⟩

/-- A revoked declaration that the call names admits it. -/
theorem revoked_intent_admitted : AtCalls sampleRuntime RequiresIntent revokedSteps willWorld ∧
    ¬AtCalls sampleRuntime (Willed sampleRuntime) revokedSteps willWorld := by
  constructor
  · refine atCalls_skip (fun _ h => nomatch h) ?_
    exact atCalls_skip (fun _ h => nomatch h) (atCalls_singleton rfl)
  · intro h
    have hadmits := @admits_attestCall { attestIntent with revoked := true } rfl rfl
    obtain ⟨intents, d, hintents, hmem, hactive, -⟩ := h.2.2.1 attestCall rfl rfl _ _ hadmits
    obtain rfl := Option.some.inj hintents
    obtain rfl := List.mem_singleton.mp hmem
    exact Bool.noConfusion hactive.unrevoked

end Kernel

end Ugk
