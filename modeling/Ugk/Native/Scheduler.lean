import Ugk.ForStd.AdjacentSort
import Ugk.ForStd.Proc
import Ugk.Native.Oracle

/-!
# The governed scheduler

`ugk/scale/scheduler.py`: the order in which a batch of candidates enters the commit lane, the lane
itself (`CommitLane.commit_and_effect` of `oracle.py`), and the log in which the scheduler records
what it did with each candidate.

The functions the caller hands in keep a state of their own between calls and may raise anything.
-/

namespace Ugk

namespace Scale

/-! ## The log -/

/-- `SCALE_OPS` -/
inductive ScaleOp where
  | schedulerPolicySet
  | independenceSetComputed
  | priorityClassAssigned
  | backpressureEngaged
  | backpressureReleased
  | queueOverflowRefused
  | batchEnvelopeCreated
  | workerPoolScaled
  | lanePaused
  | laneResumed
deriving DecidableEq

/-- The name of an operation. -/
def ScaleOp.name : ScaleOp → String
  | schedulerPolicySet => "scheduler_policy_set"
  | independenceSetComputed => "independence_set_computed"
  | priorityClassAssigned => "priority_class_assigned"
  | backpressureEngaged => "backpressure_engaged"
  | backpressureReleased => "backpressure_released"
  | queueOverflowRefused => "queue_overflow_refused"
  | batchEnvelopeCreated => "batch_envelope_created"
  | workerPoolScaled => "worker_pool_scaled"
  | lanePaused => "lane_paused"
  | laneResumed => "lane_resumed"

/-- A value of a detail; candidates are named by ids of any type. -/
inductive DetailValue (ι : Type) where
  | str (s : String)
  | int (n : Int)
  | bool (b : Bool)
  | id (i : ι)
  | ids (is : List ι)
deriving DecidableEq

/-- `I5Receipt` -/
structure I5Receipt (ι : Type) where
  seq : Nat
  op : ScaleOp
  detail : List (String × DetailValue ι)
  priorHash : String

/-- What the scheduler takes from Python: the oracle's functions and `repr` of an id. -/
structure SchedulerHost (ι : Type) extends Host where
  reprId : ι → String

variable {ι σ ε ρ : Type}

/-- `repr` of a detail's value. -/
def DetailValue.repr (env : SchedulerHost ι) : DetailValue ι → String
  | str s => env.repr s
  | int n => toString n
  | bool b => if b then "True" else "False"
  | id i => env.reprId i
  | ids is => "[" ++ ", ".intercalate (is.map env.reprId) ++ "]"

/-- `f"{sorted(self.detail.items())}"`: the keys of a detail are distinct, so no values are compared. -/
def I5Receipt.items (env : SchedulerHost ι) (r : I5Receipt ι) : String :=
  let sorted := r.detail.mergeSort fun a b => decide (a.1 ≤ b.1)
  "[" ++ ", ".intercalate (sorted.map fun e => reprTuple [env.repr e.1, e.2.repr env]) ++ "]"

/-- `I5Receipt.rhash` -/
def I5Receipt.rhash (env : SchedulerHost ι) (r : I5Receipt ι) : String :=
  (env.sha256 (text (toString r.seq ++ "|" ++ r.priorHash ++ "|" ++ r.op.name ++ "|" ++
    r.items env).toList)).hex

/-- `I5Log`; its `GENESIS` is that of the chain. -/
abbrev I5Log (ι : Type) := List (I5Receipt ι)

namespace I5Log

/-- `emit`; every `ScaleOp` is declared. -/
def emit (env : SchedulerHost ι) (log : I5Log ι) (op : ScaleOp)
    (detail : List (String × DetailValue ι)) : I5Log ι :=
  log ++ [{
    seq := log.length
    op := op
    detail := detail
    priorHash := (log.getLast?.map (I5Receipt.rhash env)).getD Chain.genesis }]

/-- `why` -/
def why [DecidableEq ι] (log : I5Log ι) (candidateId : ι) :
    List (ScaleOp × List (String × DetailValue ι)) :=
  (log.filter fun r => r.detail.lookup "cand" == some (.id candidateId)).map
    fun r => (r.op, r.detail)

end I5Log

/-! ## The order -/

/-- `PRIORITY` -/
def priority : List (String × Nat) :=
  [("gate_refuse", 0), ("invariant_violation", 0), ("replay_detect", 0),
    ("authority_model_set", 1), ("a1_posture_set", 1), ("session_open", 1),
    ("app_write", 2), ("bulk", 3)]

/-- `prio` -/
def prio (c : Candidate) : Nat := (priority.lookup c.op).getD 2

/-- `independent(..) == INDEPENDENT`, a refusal of the oracle taken for a no. -/
def provenIndependent (x y : Candidate) (chain : Chain) : Bool :=
  match independent x y chain with
  | .ok verdict => verdict == .independent
  | .error _ => false

/-- `independence_set`: a candidate joins if it is independent of every member so far. -/
def independenceSet (chain : Chain) (cands : List Candidate) : List Nat :=
  cands.zipIdx.foldl (fun members (c, i) =>
    if members.all fun m => (cands[m]?).any fun member => provenIndependent c member chain
    then members ++ [i] else members) []

/-- May the candidate at `b` be promoted ahead of its neighbour at `a`? -/
def promotes (chain : Chain) (cands : List Candidate) (a b : Nat) : Bool :=
  match cands[a]?, cands[b]? with
  | some x, some y => decide (prio y < prio x) && provenIndependent x y chain
  | _, _ => false

/-- `_safe_priority_order`: at most as many passes as there are candidates. -/
def safePriorityOrder (chain : Chain) (cands : List Candidate) : List Nat :=
  AdjacentSort.sort (promotes chain cands) cands.length (List.range cands.length)

/-! ## The lane -/

/-- What the functions of the caller raise: a refusal of the oracle or anything else. -/
inductive Raised (ε : Type) where
  | refusal (e : OracleRefusal)
  | other (e : ε)

/-- `admit_fn` and `effect_fn`, with the state they keep. -/
structure Callables (σ ε ρ : Type) where
  admitFn : Candidate → Chain → Proc σ (Raised ε) Bool
  effectFn : Candidate → Proc σ (Raised ε) ρ

/-- `GovernedScheduler` with its `CommitLane`, of which it uses the list of commits. -/
structure Scheduler (ι : Type) where
  chain : Chain
  committedThenEffect : List (Receipt × Bool) := []
  i5 : I5Log ι := []
  capacity : Int

/-- Do two lists have the same entries? -/
def sameKeys (xs ys : List BindingKey) : Bool := xs.all ys.contains && ys.all xs.contains

/-- `CommitLane.commit_and_effect` -/
def commitAndEffect (env : SchedulerHost ι) (fns : Callables σ ε ρ) (c : Candidate)
    (actualBinding : Option (List BindingKey)) :
    Proc (Scheduler ι × σ) (Raised ε) (Receipt × ρ) := fun (s, w) =>
  match fns.admitFn c s.chain w with
  | (.error e, w) => (.error e, s, w)
  | (.ok false, w) => (.error (.refusal ⟨"LANE-REFUSED-AT-COMMIT"⟩), s, w)
  | (.ok true, w) =>
    if actualBinding.any fun actual => !sameKeys actual c.bindingKey then
      (.error (.refusal ⟨"BINDING-DECL-ACTUAL-MISMATCH"⟩), s, w)
    else
      let call : Append := { cand := c, actualBindingKeys := actualBinding }
      let r := s.chain.mint env.toHost call
      let s := { s with
        chain := s.chain.append env.toHost call
        committedThenEffect := s.committedThenEffect ++ [(r, false)] }
      match fns.effectFn c w with
      | (.error e, w) => (.error e, s, w)
      | (.ok res, w) =>
        (.ok (r, res),
          { s with committedThenEffect := s.committedThenEffect.dropLast ++ [(r, true)] }, w)

/-! ## A batch -/

/-- Where a slice bound falls in a list of `n` entries. -/
def sliceBound (k : Int) (n : Nat) : Nat := if k < 0 then (n + k).toNat else k.toNat

/-- `GovernedScheduler.__init__` -/
def Scheduler.init (env : SchedulerHost ι) (chain : Chain) (capacity : Int) : Scheduler ι where
  chain := chain
  capacity := capacity
  i5 := I5Log.emit env [] .schedulerPolicySet
    [("policy", .str "independence-set + priority-within-set + aging"),
      ("capacity", .int capacity), ("profile", .str "microservice-only")]

/-- Record an operation of the scheduler. -/
def Scheduler.emit (env : SchedulerHost ι) (s : Scheduler ι) (op : ScaleOp)
    (detail : List (String × DetailValue ι)) : Scheduler ι :=
  { s with i5 := I5Log.emit env s.i5 op detail }

/-- `queue_overflow_refused`, for one candidate. -/
def Scheduler.refuse (env : SchedulerHost ι) (reason : String) (s : Scheduler ι) (cid : ι) :
    Scheduler ι :=
  s.emit env .queueOverflowRefused [("cand", .id cid), ("reason", .str reason)]

/-- The capacity check at the top of `schedule`: what is left of the batch. -/
def Scheduler.admitted (env : SchedulerHost ι) (s : Scheduler ι) (batch : List (ι × Candidate)) :
    Scheduler ι × List (ι × Candidate) :=
  if s.capacity < batch.length then
    let s := s.emit env .backpressureEngaged
      [("pending", .int batch.length), ("capacity", .int s.capacity)]
    let bound := sliceBound s.capacity batch.length
    let s := ((batch.drop bound).map Prod.fst).foldl (Scheduler.refuse env "capacity-exceeded") s
    let kept := batch.take bound
    (s.emit env .backpressureReleased [("admitted", .int kept.length)], kept)
  else (s, batch)

/-- `independence_set` with its receipt. -/
def Scheduler.recordSet (env : SchedulerHost ι) (s : Scheduler ι) (batch : List (ι × Candidate)) :
    Scheduler ι :=
  let members := independenceSet s.chain (batch.map Prod.snd)
  s.emit env .independenceSetComputed
    [("members", .ids (members.filterMap fun i => (batch[i]?).map Prod.fst)),
      ("basis", .str "positive input_refs + grant warrant + disjoint binding + cross-agent")]

/-- The record of a candidate's turn. -/
def Scheduler.assign (env : SchedulerHost ι) (s : Scheduler ι) (cid : ι) (c : Candidate)
    (inSet : Bool) : Scheduler ι :=
  s.emit env .priorityClassAssigned
    [("cand", .id cid), ("prio", .int (prio c)), ("in_independent_set", .bool inSet),
      ("note", .str (if inSet then "ordered within independent set" else "serialized (dependent)"))]

/-- The loop of `schedule` over the ordered candidates, each with its place in the batch. -/
def commitAll (env : SchedulerHost ι) (fns : Callables σ ε ρ) (indepIdx : List Nat) :
    List (Nat × ι × Candidate) → List (ι × String) →
      Proc (Scheduler ι × σ) (Raised ε) (List (ι × String))
  | [], committed => Proc.ret committed
  | (i, cid, c) :: order, committed => fun (s, w) =>
    let s := s.assign env cid c (indepIdx.contains i)
    match commitAndEffect env fns c (some c.bindingKey) (s, w) with
    | (.ok (r, _), world) => commitAll env fns indepIdx order (committed ++ [(cid, r.rhash)]) world
    | (.error (.refusal e), (s, w)) =>
      commitAll env fns indepIdx order committed (s.refuse env ("lane-refused:" ++ e.code) cid, w)
    | (.error (.other e), world) => (.error (.other e), world)

/-- The candidates of a batch in the order of their commits. -/
def commitOrder (chain : Chain) (batch : List (ι × Candidate)) : List (Nat × ι × Candidate) :=
  (safePriorityOrder chain (batch.map Prod.snd)).filterMap fun i => (batch[i]?).map (i, ·)

/-- `GovernedScheduler.schedule`, on the candidates paired with their ids. -/
def schedule (env : SchedulerHost ι) (fns : Callables σ ε ρ) (batch : List (ι × Candidate)) :
    Proc (Scheduler ι × σ) (Raised ε) (List (ι × String)) := fun (s, w) =>
  let (s, batch) := s.admitted env batch
  let indepIdx := independenceSet s.chain (batch.map Prod.snd)
  commitAll env fns indepIdx (commitOrder s.chain batch) [] (s.recordSet env batch, w)

/-- `reconstruct_why` -/
def Scheduler.reconstructWhy [DecidableEq ι] (s : Scheduler ι) (candId : ι) :
    List (ScaleOp × List (String × DetailValue ι)) := s.i5.why candId

end Scale

end Ugk
