import Ugk.Native.Scheduler
import Ugk.Spec.Independence

/-!
# The scheduler downstream of the oracle

The order of a batch is reached by exchanging neighbours the oracle proves independent, so a pair
that is not proven keeps the order of its submission.

A batch is disposed of candidate by candidate: committed on the chain, or refused in the log.  The
lane appends the receipt before it calls `effect_fn`, and `schedule` records a refusal for every
`OracleRefusal` that leaves the lane, so an effect that raises breaks the partition.

## Key results

- `safePriorityOrder_ordered`: what the order does to every pair, and that no exchange is left
- `disposed_schedule_iff`: every candidate has one disposition exactly when no call raises what
  `schedule` does not handle
-/

namespace Ugk

namespace Scale

variable {ι σ ε ρ : Type} {env : SchedulerHost ι} {chain : Chain} {cands : List Candidate}

/-! ## The order -/

theorem provenIndependent_iff {x y : Candidate} :
    provenIndependent x y chain = true ↔ independent x y chain = .ok .independent := by
  unfold provenIndependent
  cases independent x y chain with
  | error e => simp
  | ok verdict => simp

theorem independent_symm {x y : Candidate} (h : independent x y chain = .ok .independent) :
    independent y x chain = .ok .independent := by
  obtain ⟨⟨hx, hy⟩, ⟨hwx, hwy⟩, hxy, hyx⟩ := independent_iff.mp h
  exact independent_iff.mpr ⟨⟨hy, hx⟩, ⟨hwy, hwx⟩, hyx, hxy⟩

theorem promotes_iff {a b : Nat} : promotes chain cands a b = true ↔
    ∃ x y, cands[a]? = some x ∧ cands[b]? = some y ∧ prio y < prio x ∧
      independent x y chain = .ok .independent := by
  unfold promotes
  cases hx : cands[a]? with
  | none => simp
  | some x =>
    cases hy : cands[b]? with
    | none => simp
    | some y => simp [provenIndependent_iff]

/-- Promotion goes one way: it lowers the priority number in front. -/
theorem promotes_asymm (a b : Nat) (h : promotes chain cands a b = true) :
    promotes chain cands b a = false := by
  obtain ⟨x, y, hx, hy, hprio, -⟩ := promotes_iff.mp h
  rw [← Bool.not_eq_true]
  intro hback
  obtain ⟨y', x', hy', hx', hprio', -⟩ := promotes_iff.mp hback
  rw [hx] at hx'
  rw [hy] at hy'
  obtain rfl := Option.some.inj hx'
  obtain rfl := Option.some.inj hy'
  omega

/-- An order of the submission indices that respects the dependencies the oracle does not exclude. -/
structure Ordered (chain : Chain) (cands : List Candidate) (order : List Nat) : Prop where
  /-- every index once -/
  perm : order.Perm (List.range cands.length)
  /-- a pair not proven independent keeps its order -/
  keeps : ∀ i j x y, i < j → cands[i]? = some x → cands[j]? = some y →
    (independent x y chain ≠ .ok .independent ∨ independent y x chain ≠ .ok .independent) →
      order.idxOf i < order.idxOf j
  /-- an inverted pair is independent, the one now in front of the smaller priority number -/
  inverted : ∀ i j x y, i < j → cands[i]? = some x → cands[j]? = some y →
    order.idxOf j < order.idxOf i → independent x y chain = .ok .independent ∧
      independent y x chain = .ok .independent ∧ prio y < prio x
  /-- no neighbours are left to exchange -/
  settled : ∀ k a b x y, order[k]? = some a → order[k + 1]? = some b → cands[a]? = some x →
    cands[b]? = some y → ¬ (independent x y chain = .ok .independent ∧ prio y < prio x)

/-- What stands before what: submitted earlier, or promoted. -/
theorem pairwise_safePriorityOrder : (safePriorityOrder chain cands).Pairwise fun a b =>
    a < b ∨ promotes chain cands b a = true := by
  apply AdjacentSort.pairwise_sort
  · exact fun a b h => .inr h
  · exact List.pairwise_lt_range.imp .inl

theorem rel_of_idxOf_lt {α : Type} [DecidableEq α] {R : α → α → Prop} {order : List α} {a b : α}
    (h : order.Pairwise R) (hb : b ∈ order) (hlt : order.idxOf a < order.idxOf b) : R a b := by
  have hb' : order.idxOf b < order.length := List.idxOf_lt_length_of_mem hb
  have hrel := List.pairwise_iff_getElem.mp h _ _ (hlt.trans hb') hb' hlt
  rwa [List.getElem_idxOf, List.getElem_idxOf] at hrel

/-- The order the scheduler computes is ordered: its passes end before their number does. -/
theorem safePriorityOrder_ordered (chain : Chain) (cands : List Candidate) :
    Ordered chain cands (safePriorityOrder chain cands) := by
  have hperm : (safePriorityOrder chain cands).Perm (List.range cands.length) :=
    AdjacentSort.perm_sort _ _
  have hmem {i : Nat} {x : Candidate} (hx : cands[i]? = some x) :
      i ∈ safePriorityOrder chain cands := by
    rw [hperm.mem_iff, List.mem_range]
    exact (List.getElem?_eq_some_iff.mp hx).1
  have hinverted (i j : Nat) (x y : Candidate) (hij : i < j) (hx : cands[i]? = some x)
      (hy : cands[j]? = some y)
      (hlt : (safePriorityOrder chain cands).idxOf j < (safePriorityOrder chain cands).idxOf i) :
      independent x y chain = .ok .independent ∧
        independent y x chain = .ok .independent ∧ prio y < prio x := by
    rcases rel_of_idxOf_lt pairwise_safePriorityOrder (hmem hx) hlt with hji | hpromoted
    · omega
    · obtain ⟨x', y', hx', hy', hprio, hindep⟩ := promotes_iff.mp hpromoted
      rw [hx] at hx'
      rw [hy] at hy'
      obtain rfl := Option.some.inj hx'
      obtain rfl := Option.some.inj hy'
      exact ⟨hindep, independent_symm hindep, hprio⟩
  refine ⟨hperm, ?_, hinverted, ?_⟩
  · intro i j x y hij hx hy hdependent
    rcases Nat.lt_trichotomy ((safePriorityOrder chain cands).idxOf i)
      ((safePriorityOrder chain cands).idxOf j) with hlt | heq | hgt
    · exact hlt
    · -- two indices in one place are one index
      have hsame := (List.idxOf_inj (hmem hx)).mp heq
      omega
    · obtain ⟨hxy, hyx, -⟩ := hinverted i j x y hij hx hy hgt
      rcases hdependent with h | h
      · exact absurd hxy h
      · exact absurd hyx h
  · intro k a b x y ha hb hx hy hswap
    have hchain : (safePriorityOrder chain cands).IsChain
        fun a b => promotes chain cands a b = false := by
      have := @AdjacentSort.isChain_sort _ (promotes chain cands) _ promotes_asymm
        (List.range cands.length) List.nodup_range
      rwa [List.length_range] at this
    obtain ⟨hk, rfl⟩ := List.getElem?_eq_some_iff.mp ha
    obtain ⟨hk', rfl⟩ := List.getElem?_eq_some_iff.mp hb
    have hblocked := List.isChain_iff_getElem.mp hchain k hk'
    have hpromotes := promotes_iff.mpr ⟨x, y, hx, hy, hswap.2, hswap.1⟩
    rw [hblocked] at hpromotes
    exact nomatch hpromotes

/-! ## The log of a batch -/

section Log

variable [DecidableEq ι] {a b c : I5Log ι} {r r' n n' : List ι}

/-- Does the receipt name the candidate? -/
def I5Receipt.names (r : I5Receipt ι) (cid : ι) : Bool := r.detail.lookup "cand" == some (.id cid)

/-- How many refusals in a log name the candidate. -/
def refusals (log : I5Log ι) (cid : ι) : Nat :=
  log.countP fun r => r.op == .queueOverflowRefused && r.names cid

theorem why_ne_nil {log : I5Log ι} {cid : ι} :
    log.why cid ≠ [] ↔ ∃ r ∈ log, r.names cid = true := by
  unfold I5Log.why
  rw [Ne, List.map_eq_nil_iff, List.filter_eq_nil_iff]
  simp [I5Receipt.names]

/-- The second log goes on from the first: it refuses the candidates `refused`, each as often as it
    is listed, and names every one of `named`. -/
def Logged (before after : I5Log ι) (refused named : List ι) : Prop :=
  ∃ log, after = before ++ log ∧ ∀ cid, refusals log cid = refused.count cid ∧
    (cid ∈ named → log.why cid ≠ [])

theorem Logged.trans (h : Logged a b r n) (h' : Logged b c r' n') :
    Logged a c (r ++ r') (n ++ n') := by
  obtain ⟨log, rfl, hlog⟩ := h
  obtain ⟨log', rfl, hlog'⟩ := h'
  refine ⟨log ++ log', List.append_assoc .., ?_⟩
  intro cid
  constructor
  · rw [List.count_append, ← (hlog cid).1, ← (hlog' cid).1]
    exact List.countP_append
  · intro hmem
    rw [why_ne_nil]
    rcases List.mem_append.mp hmem with hmem | hmem
    · obtain ⟨r, hr, hnames⟩ := why_ne_nil.mp ((hlog cid).2 hmem)
      exact ⟨r, List.mem_append_left _ hr, hnames⟩
    · obtain ⟨r, hr, hnames⟩ := why_ne_nil.mp ((hlog' cid).2 hmem)
      exact ⟨r, List.mem_append_right _ hr, hnames⟩

/-- A receipt that is about no candidate. -/
theorem logged_emit (env : SchedulerHost ι) (s : Scheduler ι) (op : ScaleOp)
    (detail : List (String × DetailValue ι)) (hop : op ≠ .queueOverflowRefused) :
    Logged s.i5 (s.emit env op detail).i5 [] [] := by
  refine ⟨_, rfl, ?_⟩
  intro cid
  constructor
  · simp [refusals, hop]
  · intro h
    exact nomatch h

theorem logged_refuse (s : Scheduler ι) (reason : String) (cid : ι) :
    Logged s.i5 (s.refuse env reason cid).i5 [cid] [cid] := by
  refine ⟨_, rfl, ?_⟩
  intro cid'
  constructor
  · by_cases h : cid = cid'
    · simp [refusals, I5Receipt.names, h]
    · simp [refusals, I5Receipt.names, h]
  · intro h
    rw [why_ne_nil, List.mem_singleton.mp h]
    exact ⟨_, List.mem_singleton_self _, by simp [I5Receipt.names]⟩

theorem logged_assign (s : Scheduler ι) (cid : ι) (x : Candidate) (inSet : Bool) :
    Logged s.i5 (s.assign env cid x inSet).i5 [] [cid] := by
  refine ⟨_, rfl, ?_⟩
  intro cid'
  constructor
  · simp [refusals]
  · intro h
    rw [why_ne_nil, List.mem_singleton.mp h]
    exact ⟨_, List.mem_singleton_self _, by simp [I5Receipt.names]⟩

theorem logged_refuseAll (env : SchedulerHost ι) (s : Scheduler ι) (reason : String) (cids : List ι) :
    Logged s.i5 (cids.foldl (Scheduler.refuse env reason) s).i5 cids cids := by
  induction cids generalizing s with
  | nil => exact ⟨[], (List.append_nil _).symm, fun cid => ⟨rfl, fun h => nomatch h⟩⟩
  | cons cid cids ih => exact (logged_refuse s reason cid).trans (ih _)

end Log

/-! ## The lane -/

/-- The commit of one candidate. -/
def commitOf (x : Candidate) : Append where
  cand := x
  actualBindingKeys := some x.bindingKey

/-- The calls `schedule` handles: `admit_fn` returns or raises `OracleRefusal` for every candidate of
    the order, and `effect_fn` returns for every admitted one.  The chain grows with each commit. -/
def Serves (env : SchedulerHost ι) (fns : Callables σ ε ρ) :
    List (Nat × ι × Candidate) → Chain → σ → Prop
  | [], _, _ => True
  | e :: order, chain, w =>
    match fns.admitFn e.2.2 chain w with
    | (.error (.other _), _) => False
    | (.error (.refusal _), w) => Serves env fns order chain w
    | (.ok false, w) => Serves env fns order chain w
    | (.ok true, w) =>
      match fns.effectFn e.2.2 w with
      | (.error _, _) => False
      | (.ok _, w) => Serves env fns order (chain.append env.toHost (commitOf e.2.2)) w

variable {fns : Callables σ ε ρ} {indepIdx : List Nat} {s : Scheduler ι} {w w' w'' : σ}
  {x : Candidate} {cid : ι} {i : Nat} {order : List (Nat × ι × Candidate)}
  {committed : List (ι × String)}

/-- The scheduler after a receipt, and after its effect. -/
def Scheduler.receipted (env : SchedulerHost ι) (s : Scheduler ι) (x : Candidate) : Scheduler ι :=
  { s with
    chain := s.chain.append env.toHost (commitOf x)
    committedThenEffect :=
      s.committedThenEffect ++ [(s.chain.mint env.toHost (commitOf x), false)] }

def Scheduler.effected (env : SchedulerHost ι) (s : Scheduler ι) (x : Candidate) : Scheduler ι :=
  { s.receipted env x with
    committedThenEffect := (s.receipted env x).committedThenEffect.dropLast ++
      [(s.chain.mint env.toHost (commitOf x), true)] }

theorem sameKeys_self (keys : List BindingKey) : sameKeys keys keys = true := by
  simp [sameKeys]

theorem lane_raised {e : Raised ε} (h : fns.admitFn x s.chain w = (.error e, w')) :
    commitAndEffect env fns x (some x.bindingKey) (s, w) = (.error e, s, w') := by
  unfold commitAndEffect
  dsimp only
  rw [h]

theorem lane_denied (h : fns.admitFn x s.chain w = (.ok false, w')) :
    commitAndEffect env fns x (some x.bindingKey) (s, w) =
      (.error (.refusal ⟨"LANE-REFUSED-AT-COMMIT"⟩), s, w') := by
  unfold commitAndEffect
  dsimp only
  rw [h]

/-- The lane after the receipt: the check of the binding passes, as the keys are the declared ones. -/
theorem lane_receipted (h : fns.admitFn x s.chain w = (.ok true, w')) :
    commitAndEffect env fns x (some x.bindingKey) (s, w) =
      match fns.effectFn x w' with
      | (.error e, w'') => (.error e, s.receipted env x, w'')
      | (.ok res, w'') =>
        (.ok (s.chain.mint env.toHost (commitOf x), res), s.effected env x, w'') := by
  have hkeys : ¬ ((some x.bindingKey).any fun actual => !sameKeys actual x.bindingKey) = true := by
    simp [sameKeys_self]
  unfold commitAndEffect
  dsimp only
  rw [h]
  dsimp only
  rw [if_neg hkeys]
  rfl

theorem lane_failed {e : Raised ε} (h : fns.admitFn x s.chain w = (.ok true, w'))
    (he : fns.effectFn x w' = (.error e, w'')) :
    commitAndEffect env fns x (some x.bindingKey) (s, w) =
      (.error e, s.receipted env x, w'') := by
  rw [lane_receipted h, he]

theorem lane_committed {res : ρ} (h : fns.admitFn x s.chain w = (.ok true, w'))
    (he : fns.effectFn x w' = (.ok res, w'')) :
    commitAndEffect env fns x (some x.bindingKey) (s, w) =
      (.ok (s.chain.mint env.toHost (commitOf x), res), s.effected env x, w'') := by
  rw [lane_receipted h, he]

/-! ## The loop over the order -/

/-- The scheduler at a candidate's turn. -/
def Scheduler.turn (env : SchedulerHost ι) (indepIdx : List Nat) (s : Scheduler ι)
    (e : Nat × ι × Candidate) : Scheduler ι :=
  s.assign env e.2.1 e.2.2 (indepIdx.contains e.1)

theorem commitAll_committed {e : Nat × ι × Candidate} {r : Receipt} {res : ρ}
    {world : Scheduler ι × σ}
    (h : commitAndEffect env fns e.2.2 (some e.2.2.bindingKey) (s.turn env indepIdx e, w) =
      (.ok (r, res), world)) :
    commitAll env fns indepIdx (e :: order) committed (s, w) =
      commitAll env fns indepIdx order (committed ++ [(e.2.1, r.rhash)]) world := by
  obtain ⟨i, cid, x⟩ := e
  rw [commitAll]
  dsimp only
  unfold Scheduler.turn at h
  rw [h]

theorem commitAll_refused {e : Nat × ι × Candidate} {refusal : OracleRefusal} {s' : Scheduler ι}
    (h : commitAndEffect env fns e.2.2 (some e.2.2.bindingKey) (s.turn env indepIdx e, w) =
      (.error (.refusal refusal), s', w')) :
    commitAll env fns indepIdx (e :: order) committed (s, w) =
      commitAll env fns indepIdx order committed
        (s'.refuse env ("lane-refused:" ++ refusal.code) e.2.1, w') := by
  obtain ⟨i, cid, x⟩ := e
  rw [commitAll]
  dsimp only
  unfold Scheduler.turn at h
  rw [h]

theorem commitAll_raised {e : Nat × ι × Candidate} {ex : ε} {world : Scheduler ι × σ}
    (h : commitAndEffect env fns e.2.2 (some e.2.2.bindingKey) (s.turn env indepIdx e, w) =
      (.error (.other ex), world)) :
    commitAll env fns indepIdx (e :: order) committed (s, w) = (.error (.other ex), world) := by
  obtain ⟨i, cid, x⟩ := e
  rw [commitAll]
  dsimp only
  unfold Scheduler.turn at h
  rw [h]

/-- The receipt of a commit: its hash is reported with the id, and it records the candidate. -/
def ReceiptFor (batch : List (ι × Candidate)) (e : ι × String) (r : Receipt) : Prop :=
  r.rhash = e.2 ∧ ∃ x, (e.1, x) ∈ batch ∧ r.content = (commitOf x).content

/-- The ids of an order. -/
def idsOf (order : List (Nat × ι × Candidate)) : List ι := order.map fun e => e.2.1

/-- What became of the candidates of an order: `new` and `receipts` are the commits, one for one, and
    `refused` the ids of the others. -/
structure Handled [DecidableEq ι] (batch : List (ι × Candidate))
    (order : List (Nat × ι × Candidate)) (s s' : Scheduler ι) (new : List (ι × String))
    (receipts : List Receipt) (refused : List ι) : Prop where
  chain : s'.chain.receipts = s.chain.receipts ++ receipts
  receiptFor : List.Forall₂ (ReceiptFor batch) new receipts
  logged : Logged s.i5 s'.i5 refused (idsOf order)
  parts : (new.map Prod.fst ++ refused).Perm (idsOf order)

section Handled

variable [DecidableEq ι] {batch : List (ι × Candidate)} {e : Nat × ι × Candidate}
  {s' : Scheduler ι} {new : List (ι × String)} {receipts : List Receipt} {refused : List ι}

theorem Handled.nil : Handled batch [] s s [] [] [] where
  chain := (List.append_nil _).symm
  receiptFor := .nil
  logged := ⟨[], (List.append_nil _).symm, fun _ => ⟨rfl, fun h => nomatch h⟩⟩
  parts := .refl _

/-- A candidate that is refused, and the rest of the order. -/
theorem Handled.refuse {reason : String}
    (h : Handled batch order ((s.turn env indepIdx e).refuse env reason e.2.1) s' new receipts
      refused) : Handled batch (e :: order) s s' new receipts (e.2.1 :: refused) where
  chain := h.chain
  receiptFor := h.receiptFor
  logged := by
    obtain ⟨log, hlog, hcount⟩ :=
      ((logged_assign s e.2.1 e.2.2 _).trans (logged_refuse _ reason e.2.1)).trans h.logged
    refine ⟨log, hlog, fun cid => ⟨(hcount cid).1, fun hmem => (hcount cid).2 ?_⟩⟩
    -- the turn and the refusal both name the candidate
    exact List.mem_cons_of_mem _ hmem
  parts := List.perm_middle.trans (h.parts.cons _)

/-- A candidate that is committed, and the rest of the order. -/
theorem Handled.commit (he : e.2 ∈ batch)
    (h : Handled batch order ((s.turn env indepIdx e).effected env e.2.2) s' new receipts refused) :
    Handled batch (e :: order) s s'
      ((e.2.1, (s.chain.mint env.toHost (commitOf e.2.2)).rhash) :: new)
      (s.chain.mint env.toHost (commitOf e.2.2) :: receipts) refused where
  chain := by
    rw [h.chain, List.append_cons]
    rfl
  receiptFor := .cons ⟨rfl, e.2.2, he, rfl⟩ h.receiptFor
  logged := (logged_assign s e.2.1 e.2.2 _).trans h.logged
  parts := h.parts.cons _

/-- A run of the loop that handles every call disposes of every candidate. -/
theorem commitAll_of_serves (horder : ∀ e ∈ order, e.2 ∈ batch) (committed : List (ι × String))
    (s : Scheduler ι) (w : σ) (h : Serves env fns order s.chain w) :
    ∃ new receipts refused s' w', Handled batch order s s' new receipts refused ∧
      commitAll env fns indepIdx order committed (s, w) = (.ok (committed ++ new), s', w') := by
  induction order generalizing committed s w with
  | nil => exact ⟨[], [], [], s, w, .nil, by rw [List.append_nil]; rfl⟩
  | cons e order ih =>
    have hrest : ∀ e ∈ order, e.2 ∈ batch := fun e he => horder e (List.mem_cons_of_mem _ he)
    -- a refused candidate: the loop goes on with the same chain
    have hrefused {refusal : OracleRefusal} {w₁ : σ} (hserves : Serves env fns order s.chain w₁)
        (hlane : commitAndEffect env fns e.2.2 (some e.2.2.bindingKey) (s.turn env indepIdx e, w) =
          (.error (.refusal refusal), s.turn env indepIdx e, w₁)) :
        ∃ new receipts refused s' w', Handled batch (e :: order) s s' new receipts refused ∧
          commitAll env fns indepIdx (e :: order) committed (s, w) =
            (.ok (committed ++ new), s', w') := by
      obtain ⟨new, receipts, refused, s', w', hhandled, hrun⟩ := ih hrest committed
        ((s.turn env indepIdx e).refuse env ("lane-refused:" ++ refusal.code) e.2.1) w₁ hserves
      exact ⟨new, receipts, e.2.1 :: refused, s', w', hhandled.refuse,
        (commitAll_refused hlane).trans hrun⟩
    unfold Serves at h
    cases hverdict : fns.admitFn e.2.2 s.chain w with
    | mk verdict w₁ =>
      rw [hverdict] at h
      rcases verdict with (refusal | ex) | (_ | _)
      · exact hrefused h (lane_raised hverdict)
      · exact h.elim
      · exact hrefused h (lane_denied hverdict)
      · dsimp only at h
        cases heffect : fns.effectFn e.2.2 w₁ with
        | mk result w₂ =>
          rw [heffect] at h
          rcases result with ex | res
          · exact h.elim
          · obtain ⟨new, receipts, refused, s', w', hhandled, hrun⟩ := ih hrest
              (committed ++ [(e.2.1, (s.chain.mint env.toHost (commitOf e.2.2)).rhash)])
              ((s.turn env indepIdx e).effected env e.2.2) w₂ h
            refine ⟨_, _, refused, s', w', hhandled.commit (horder e List.mem_cons_self), ?_⟩
            have hlane : commitAndEffect env fns e.2.2 (some e.2.2.bindingKey)
                (s.turn env indepIdx e, w) = _ := lane_committed hverdict heffect
            rw [List.append_assoc] at hrun
            rw [commitAll_committed hlane]
            exact hrun

end Handled

/-- A run that returns leaves a receipt for every commit it reports, and a further one for every
    effect that raised. -/
theorem serves_of_commitAll {result : List (ι × String)} {s' : Scheduler ι}
    (committed : List (ι × String)) (s : Scheduler ι) (w : σ)
    (h : commitAll env fns indepIdx order committed (s, w) = (.ok result, s', w')) :
    result.length + s.chain.receipts.length ≤ committed.length + s'.chain.receipts.length ∧
      (result.length + s.chain.receipts.length = committed.length + s'.chain.receipts.length →
        Serves env fns order s.chain w) := by
  induction order generalizing committed s w with
  | nil =>
    obtain ⟨hresult, hworld⟩ := Prod.mk.inj h
    obtain ⟨rfl, -⟩ := Prod.mk.inj hworld
    obtain rfl := Except.ok.inj hresult
    exact ⟨Nat.le_refl _, fun _ => trivial⟩
  | cons e order ih =>
    have happend : (s.chain.append env.toHost (commitOf e.2.2)).receipts.length =
        s.chain.receipts.length + 1 := by
      rw [Chain.receipts_append, List.length_append, List.length_singleton]
    unfold Serves
    cases hverdict : fns.admitFn e.2.2 s.chain w with
    | mk verdict w₁ =>
      rcases verdict with (refusal | ex) | (_ | _)
      · have hlane : commitAndEffect env fns e.2.2 (some e.2.2.bindingKey)
            (s.turn env indepIdx e, w) = _ := lane_raised hverdict
        rw [commitAll_refused hlane] at h
        have hrec := ih committed _ w₁ h
        exact hrec
      · have hlane : commitAndEffect env fns e.2.2 (some e.2.2.bindingKey)
            (s.turn env indepIdx e, w) = _ := lane_raised hverdict
        rw [commitAll_raised hlane] at h
        exact nomatch h
      · have hlane : commitAndEffect env fns e.2.2 (some e.2.2.bindingKey)
            (s.turn env indepIdx e, w) = _ := lane_denied hverdict
        rw [commitAll_refused hlane] at h
        have hrec := ih committed _ w₁ h
        exact hrec
      · dsimp only
        cases heffect : fns.effectFn e.2.2 w₁ with
        | mk result w₂ =>
          rcases result with (refusal | ex) | res
          · -- the receipt is on the chain, and the candidate is refused
            have hlane : commitAndEffect env fns e.2.2 (some e.2.2.bindingKey)
                (s.turn env indepIdx e, w) = _ := lane_failed hverdict heffect
            rw [commitAll_refused hlane] at h
            have hrec := (ih committed _ w₂ h).1
            change _ + (s.chain.append env.toHost (commitOf e.2.2)).receipts.length ≤ _ at hrec
            omega
          · have hlane : commitAndEffect env fns e.2.2 (some e.2.2.bindingKey)
                (s.turn env indepIdx e, w) = _ := lane_failed hverdict heffect
            rw [commitAll_raised hlane] at h
            exact nomatch h
          · have hlane : commitAndEffect env fns e.2.2 (some e.2.2.bindingKey)
                (s.turn env indepIdx e, w) = _ := lane_committed hverdict heffect
            rw [commitAll_committed hlane] at h
            have hrec := ih _ ((s.turn env indepIdx e).effected env e.2.2) w₂ h
            change _ + (s.chain.append env.toHost (commitOf e.2.2)).receipts.length ≤ _ ∧
              (_ + (s.chain.append env.toHost (commitOf e.2.2)).receipts.length = _ →
                Serves env fns order (s.chain.append env.toHost (commitOf e.2.2)) w₂) at hrec
            rw [happend, List.length_append, List.length_singleton] at hrec
            exact ⟨by omega, fun heq => hrec.2 (by omega)⟩

/-- Functions that raise nothing `schedule` does not handle, whatever they are given. -/
theorem serves_of_returns (hverdict : ∀ x chain w e, (fns.admitFn x chain w).1 ≠ .error (.other e))
    (heffect : ∀ x w e, (fns.effectFn x w).1 ≠ .error e) (order : List (Nat × ι × Candidate))
    (chain : Chain) (w : σ) : Serves env fns order chain w := by
  induction order generalizing chain w with
  | nil => trivial
  | cons e order ih =>
    unfold Serves
    split
    · rename_i ex _ h
      exact hverdict e.2.2 chain w ex (congrArg Prod.fst h)
    · exact ih _ _
    · exact ih _ _
    · rename_i w₁ _
      split
      · rename_i ex _ h
        exact heffect e.2.2 w₁ ex (congrArg Prod.fst h)
      · exact ih _ _

/-! ## A batch -/

theorem filterMap_getElem_range {α : Type} (xs : List α) :
    (List.range xs.length).filterMap (fun i => xs[i]?) = xs := by
  induction xs with
  | nil => rfl
  | cons x xs ih =>
    have hhead : (x :: xs)[0]? = some x := rfl
    rw [List.length_cons, List.range_succ_eq_map, List.filterMap_cons_some hhead,
      List.filterMap_map]
    exact congrArg (x :: ·) ih

/-- The order runs over the whole batch. -/
theorem perm_commitOrder (chain : Chain) (batch : List (ι × Candidate)) :
    ((commitOrder chain batch).map Prod.snd).Perm batch := by
  unfold commitOrder
  have hperm := (safePriorityOrder_ordered chain (batch.map Prod.snd)).perm
  rw [List.length_map] at hperm
  refine ((hperm.filterMap _).map Prod.snd).trans ?_
  rw [List.map_filterMap]
  refine List.Perm.of_eq (Eq.trans ?_ (filterMap_getElem_range batch))
  congr 1
  funext i
  rw [Option.map_map]
  exact Option.map_id'

/-- What is left of a batch after the capacity check. -/
def withinCapacity (capacity : Int) (batch : List (ι × Candidate)) : List (ι × Candidate) :=
  if capacity < batch.length then batch.take (sliceBound capacity batch.length) else batch

theorem refuseAll_chain (s : Scheduler ι) (reason : String) (cids : List ι) :
    (cids.foldl (Scheduler.refuse env reason) s).chain = s.chain := by
  induction cids generalizing s with
  | nil => rfl
  | cons cid cids ih => exact ih _

section Batch

variable [DecidableEq ι] {batch : List (ι × Candidate)}

/-- The capacity check keeps the chain and a part of the batch, and refuses the rest. -/
theorem admitted_spec (env : SchedulerHost ι) (s : Scheduler ι) (batch : List (ι × Candidate)) :
    (s.admitted env batch).2 = withinCapacity s.capacity batch ∧
      (s.admitted env batch).1.chain = s.chain ∧
      ∃ rest, withinCapacity s.capacity batch ++ rest = batch ∧
        Logged s.i5 (s.admitted env batch).1.i5 (rest.map Prod.fst) (rest.map Prod.fst) := by
  unfold Scheduler.admitted withinCapacity
  split
  · refine ⟨rfl, refuseAll_chain _ _ _, _, List.take_append_drop _ batch, ?_⟩
    have hengaged := logged_emit env s .backpressureEngaged
      [("pending", .int batch.length), ("capacity", .int s.capacity)] (by decide)
    have hall := (hengaged.trans (logged_refuseAll env _ "capacity-exceeded"
      ((batch.drop (sliceBound s.capacity batch.length)).map Prod.fst))).trans
      (logged_emit env _ .backpressureReleased
        [("admitted", .int (batch.take (sliceBound s.capacity batch.length)).length)] (by decide))
    rw [List.append_nil, List.nil_append] at hall
    exact hall
  · exact ⟨rfl, rfl, [], List.append_nil _,
      ⟨[], (List.append_nil _).symm, fun _ => ⟨rfl, fun h => nomatch h⟩⟩⟩

/-- The disposition of a batch: `committed` is the result, with one receipt of the chain for each
    entry, and `log` is what the call adds to the log. -/
structure Disposal (batch : List (ι × Candidate)) (before after : Scheduler ι)
    (committed : List (ι × String)) (receipts : List Receipt) (log : I5Log ι) : Prop where
  /-- the chain grew by the receipts -/
  chain : after.chain.receipts = before.chain.receipts ++ receipts
  /-- the log grew -/
  i5 : after.i5 = before.i5 ++ log
  /-- one receipt for each committed id, in their order -/
  receiptFor : List.Forall₂ (ReceiptFor batch) committed receipts
  /-- committed once and not refused, or refused once and not committed -/
  once : ∀ e ∈ batch,
    ((committed.map Prod.fst).count e.1 = 1 ∧ refusals log e.1 = 0) ∨
      ((committed.map Prod.fst).count e.1 = 0 ∧ refusals log e.1 = 1)
  /-- the log answers for every candidate -/
  why : ∀ e ∈ batch, after.reconstructWhy e.1 ≠ []

/-- The call returned, and every candidate has exactly one disposition. -/
def Disposed (batch : List (ι × Candidate)) (before after : Scheduler ι)
    (outcome : Except (Raised ε) (List (ι × String))) : Prop :=
  ∃ committed receipts log, outcome = .ok committed ∧
    Disposal batch before after committed receipts log

/-- `schedule` is the loop over the order of what is left of the batch. -/
theorem schedule_eq (env : SchedulerHost ι) (fns : Callables σ ε ρ) (batch : List (ι × Candidate))
    (s : Scheduler ι) (w : σ) :
    ∃ start indepIdx rest, start.chain = s.chain ∧ withinCapacity s.capacity batch ++ rest = batch ∧
      Logged s.i5 start.i5 (rest.map Prod.fst) (rest.map Prod.fst) ∧
      schedule env fns batch (s, w) = commitAll env fns indepIdx
        (commitOrder s.chain (withinCapacity s.capacity batch)) [] (start, w) := by
  obtain ⟨hkept, hchain, rest, hparts, hoverflow⟩ := admitted_spec env s batch
  refine ⟨(s.admitted env batch).1.recordSet env (withinCapacity s.capacity batch),
    independenceSet s.chain ((withinCapacity s.capacity batch).map Prod.snd), rest, hchain, hparts,
    ?_, ?_⟩
  · have hset : Logged (s.admitted env batch).1.i5 ((s.admitted env batch).1.recordSet env
        (withinCapacity s.capacity batch)).i5 [] [] := logged_emit _ _ _ _ (by decide)
    have hall := hoverflow.trans hset
    rwa [List.append_nil] at hall
  · unfold schedule
    dsimp only
    rw [hkept, hchain]

/-- A call whose calls are all handled disposes of every candidate. -/
theorem disposed_of_serves (hnodup : (batch.map Prod.fst).Nodup)
    (h : Serves env fns (commitOrder s.chain (withinCapacity s.capacity batch)) s.chain w) :
    Disposed batch s (schedule env fns batch (s, w)).2.1 (schedule env fns batch (s, w)).1 := by
  obtain ⟨start, indepIdx, rest, hchain, hparts, hoverflow, hrun⟩ := schedule_eq env fns batch s w
  have horder := perm_commitOrder s.chain (withinCapacity s.capacity batch)
  have hbatch : ∀ e ∈ commitOrder s.chain (withinCapacity s.capacity batch), e.2 ∈ batch := by
    intro e he
    have hmem := horder.mem_iff.mp (List.mem_map_of_mem he)
    exact hparts ▸ List.mem_append_left _ hmem
  obtain ⟨new, receipts, refused, s', w', hhandled, hloop⟩ :=
    @commitAll_of_serves _ _ _ _ env fns indepIdx _ _ batch hbatch [] start w (by rwa [hchain])
  rw [hrun, hloop, List.nil_append]
  obtain ⟨log, hlog, hcount⟩ := hoverflow.trans hhandled.logged
  -- every id of the batch is committed, refused in its turn or refused at the capacity check
  have hids : (idsOf (commitOrder s.chain (withinCapacity s.capacity batch)) ++
      rest.map Prod.fst).Perm (batch.map Prod.fst) := by
    have hkept := (horder.map Prod.fst).append_right (rest.map Prod.fst)
    rw [List.map_map, ← @List.map_append _ _ _ (withinCapacity s.capacity batch), hparts] at hkept
    exact hkept
  have hall : (new.map Prod.fst ++ (rest.map Prod.fst ++ refused)).Perm (batch.map Prod.fst) := by
    refine List.Perm.trans ?_ hids
    refine List.Perm.trans ?_ (hhandled.parts.append_right _)
    rw [List.append_assoc]
    exact List.perm_append_comm.append_left _
  refine ⟨new, receipts, log, rfl, ?_, hlog, hhandled.receiptFor, ?_, ?_⟩
  · rw [← hchain]
    exact hhandled.chain
  · intro e he
    have hone : (batch.map Prod.fst).count e.1 = 1 :=
      List.count_eq_one_of_mem hnodup (List.mem_map_of_mem he)
    rw [← hall.count_eq, List.count_append, ← (hcount e.1).1] at hone
    omega
  · intro e he
    have hmem := hids.mem_iff.mpr (List.mem_map_of_mem he)
    have hwhy := (hcount e.1).2 (List.mem_append.mpr (List.mem_append.mp hmem).symm)
    obtain ⟨r, hr, hnames⟩ := why_ne_nil.mp hwhy
    refine why_ne_nil.mpr ⟨r, ?_, hnames⟩
    rw [hlog]
    exact List.mem_append_right _ hr

/-- Every candidate of a batch has exactly one disposition exactly when `admit_fn` raises nothing but
    `OracleRefusal` and `effect_fn` raises nothing, along the commits of the batch. -/
theorem disposed_schedule_iff (env : SchedulerHost ι) (fns : Callables σ ε ρ) (s : Scheduler ι)
    (w : σ) (batch : List (ι × Candidate)) (hnodup : (batch.map Prod.fst).Nodup) :
    Disposed batch s (schedule env fns batch (s, w)).2.1 (schedule env fns batch (s, w)).1 ↔
      Serves env fns (commitOrder s.chain (withinCapacity s.capacity batch)) s.chain w := by
  refine ⟨fun h => ?_, disposed_of_serves hnodup⟩
  obtain ⟨committed, receipts, log, houtcome, hdisposal⟩ := h
  obtain ⟨start, indepIdx, rest, hchain, -, -, hrun⟩ := schedule_eq env fns batch s w
  cases hfinal : schedule env fns batch (s, w) with
  | mk outcome world =>
    rw [hfinal] at houtcome hdisposal
    obtain rfl : outcome = .ok committed := houtcome
    obtain ⟨s', w'⟩ := world
    rw [hrun] at hfinal
    obtain ⟨-, hserves⟩ := serves_of_commitAll [] start w hfinal
    rw [hchain] at hserves
    apply hserves
    -- as many receipts as committed ids
    rw [show s'.chain.receipts = _ from hdisposal.chain, List.length_append,
      hdisposal.receiptFor.length_eq, List.length_nil]
    omega

/-- A batch of one, with an effect that returns. -/
theorem disposed_schedule_single : Disposed [(0, sampleGrant.cand)]
    (Scheduler.init { sampleHost with reprId := toString } {} 1000)
    (@schedule Nat Unit Unit Unit { sampleHost with reprId := toString }
      { admitFn := fun _ _ => Proc.ret true, effectFn := fun _ => Proc.ret () }
      [(0, sampleGrant.cand)]
      (Scheduler.init { sampleHost with reprId := toString } {} 1000, ())).2.1
    (@schedule Nat Unit Unit Unit { sampleHost with reprId := toString }
      { admitFn := fun _ _ => Proc.ret true, effectFn := fun _ => Proc.ret () }
      [(0, sampleGrant.cand)]
      (Scheduler.init { sampleHost with reprId := toString } {} 1000, ())).1 :=
  (disposed_schedule_iff _ _ _ () [(0, sampleGrant.cand)] (by decide)).mpr trivial

/-- An effect that raises `OracleRefusal`: its receipt is on the chain, and the log refuses the
    candidate. -/
theorem schedule_commits_and_refuses :
    ∃ s', @schedule Nat Unit Unit Unit { sampleHost with reprId := toString }
        { admitFn := fun _ _ => Proc.ret true
          effectFn := fun _ => Proc.raise (.refusal ⟨"EFFECT-REFUSED"⟩) }
        [(0, sampleGrant.cand)]
        (Scheduler.init { sampleHost with reprId := toString } {} 1000, ()) = (.ok [], s', ()) ∧
      s'.chain.receipts.length = 1 ∧ refusals s'.i5 0 = 1 ∧
      ¬ @Disposed Nat Unit _ [(0, sampleGrant.cand)]
        (Scheduler.init { sampleHost with reprId := toString } {} 1000) s' (.ok []) := by
  refine ⟨_, rfl, rfl, rfl, ?_⟩
  rintro ⟨committed, receipts, log, houtcome, hdisposal⟩
  obtain rfl := Except.ok.inj houtcome
  -- no id is reported, so no receipt would be left
  have hnone : receipts = [] := List.forall₂_nil_left_iff.mp hdisposal.receiptFor
  have hlength := congrArg List.length hdisposal.chain
  rw [hnone] at hlength
  exact absurd hlength (show ¬ (1 = 0) by decide)

end Batch

end Scale

end Ugk
