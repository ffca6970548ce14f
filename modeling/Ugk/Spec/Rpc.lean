import Ugk.ForStd.JsonRoundTrip
import Ugk.Native.Rpc

/-!
# Requests served in any order

A request is answered in at most four steps, and a nonce is executed at most once however the steps
of the requests interleave, since the nonce set is read and extended in one step.  The handler reads
a nonce that is not there as the empty string and takes any value that has a hash, and a request
that is no JSON object raises.

## Key results

- `keeps_handleRequest`: what every path of one request keeps
- `claimed_once`: in every run, one request claims a nonce
- `served_iff`: the requests a server serves as it promises to
-/

namespace Ugk

namespace Rpc

open Calls (Exchange Keeps)
open Pool (Run own)

variable {host : RpcHost} {serverAuthority raw : PyStr}

/-! ## What a request says -/

/-- The id a response repeats. -/
def requestId (host : RpcHost) (raw : PyStr) : JsonVal :=
  match host.loads raw with
  | some (.obj req) => JsonObj.getD req "id" .null
  | _ => .null

/-- The parameters of a `ugk.govern` request, when they are an object. -/
def governParams (host : RpcHost) (raw : PyStr) : Option JsonObj :=
  match host.loads raw with
  | some (.obj req) =>
    match JsonObj.getD req "method" (.lit ""), JsonObj.getD req "params" (.obj []) with
    | .str method, .obj params => if method = PyStr.lit "ugk.govern" then some params else none
    | _, _ => none
  | _ => none

/-- The nonce of a `ugk.govern` request, when it has one. -/
def nonceOf (host : RpcHost) (raw : PyStr) : Option JsonVal :=
  (governParams host raw).bind fun params => params.lookup (PyStr.lit "nonce")

theorem governParams_eq_none {req : JsonObj} {method : PyStr}
    (hload : host.loads raw = some (.obj req))
    (hmethod : JsonObj.getD req "method" (.lit "") = .str method)
    (hgov : method ≠ PyStr.lit "ugk.govern") : governParams host raw = none := by
  rw [governParams, hload]
  dsimp only
  rw [hmethod]
  cases JsonObj.getD req "params" (.obj []) with
  | obj params => exact if_neg hgov
  | _ => rfl

/-- A JSON-RPC 2.0 response: the version, the id, and a result or an error. -/
inductive IsResponse (requestId : JsonVal) : JsonVal → Prop
  | result (r : JsonObj) : IsResponse requestId
      (.obj [(PyStr.lit "jsonrpc", .lit "2.0"), (PyStr.lit "id", requestId),
        (PyStr.lit "result", .obj r)])
  | error (code : Int) (message : PyStr) (data : JsonObj)
      (hdata : data = [] ∨ ∃ d, data = [(PyStr.lit "data", .str d)]) : IsResponse requestId
      (.obj [(PyStr.lit "jsonrpc", .lit "2.0"), (PyStr.lit "id", requestId),
        (PyStr.lit "error", .obj
          ([(PyStr.lit "code", .int code), (PyStr.lit "message", .str message)] ++ data))])

theorem isResponse_ok (requestId : JsonVal) (r : JsonObj) :
    IsResponse requestId (ok requestId r) := .result r

theorem isResponse_err (requestId : JsonVal) (code : Int) (message : PyStr)
    (data : Option PyStr) : IsResponse requestId (err requestId code message data) := by
  apply IsResponse.error code message
  cases data with
  | none => exact .inl rfl
  | some d => exact .inr ⟨d, rfl⟩

theorem isResponse_respond (requestId : JsonVal) (outcome : Except RpcExc Fields) :
    IsResponse requestId (respond host requestId outcome) := by
  unfold respond
  split
  · exact isResponse_ok requestId _
  · exact isResponse_err requestId _ _ _

/-- A request that is answered: its text is no JSON at all, or that of an object. -/
def Answerable (host : RpcHost) (raw : PyStr) : Prop :=
  ∀ v, host.loads raw = some v → ∃ req, v = .obj req

/-- What a request is answered with when its nonce was seen before. -/
def replayResponse (host : RpcHost) (raw : PyStr) (nonce : JsonVal) : List Char :=
  dumps (respond host (requestId host raw) (.ok (replayDetected nonce)))

/-! ## Exchanges -/

/-- A call of `Kernel.execute`. -/
def isExecute : Exchange Reply → Bool
  | ⟨.execute _ _ _, _⟩ => true
  | _ => false

/-- The nonce a call of `Kernel.execute` carries. -/
def executed : Exchange Reply → Option JsonVal
  | ⟨.execute _ _ parameters, _⟩ => parameters.lookup (PyStr.lit "nonce")
  | _ => none

/-- A call of `Kernel.execute` for a nonce. -/
def executesKey (host : RpcHost) (key : NonceKey) (e : Exchange Reply) : Bool :=
  (executed e).bind (nonceKey host) == some key

/-- The exchange that consumes a nonce. -/
def freshClaim (key : NonceKey) : Exchange Reply := ⟨.claim key, true⟩

/-! ## One request -/

/-- What holds along a request without a nonce to consume. -/
def Quiet (es : List (Exchange Reply)) : Prop := es.length ≤ 4 ∧ ∀ e ∈ es, isExecute e = false

/-- What holds along a request with a nonce: it is executed at most once, after its claim. -/
structure Guarded (host : RpcHost) (params : JsonObj) (es : List (Exchange Reply)) : Prop where
  prompt : es.length ≤ 4
  single : es.countP isExecute ≤ 1
  claimed : ∀ e ∈ es, isExecute e = true → ∃ key,
    executed e = some (JsonObj.getD params "nonce" (.lit "")) ∧
      nonceKey host (JsonObj.getD params "nonce" (.lit "")) = some key ∧ freshClaim key ∈ es

/-- What a request with a nonce ends in: it was a replay, or it consumed its nonce. -/
def Settled (host : RpcHost) (params : JsonObj) (es : List (Exchange Reply))
    (outcome : Except RpcExc Fields) : Prop :=
  ∀ key, nonceKey host (JsonObj.getD params "nonce" (.lit "")) = some key →
    outcome = .ok (replayDetected (JsonObj.getD params "nonce" (.lit ""))) ∨ freshClaim key ∈ es

theorem keeps_handleStatus : Keeps Quiet (fun _ _ => True) [] handleStatus := by
  refine ⟨by simp [Quiet], fun snap => ?_⟩
  cases snap with
  | error e => exact ⟨by simp [Quiet, isExecute], trivial⟩
  | ok snap => exact ⟨by simp [Quiet, isExecute], trivial⟩

theorem keeps_handleVerify : Keeps Quiet (fun _ _ => True) [] handleVerify := by
  refine ⟨by simp [Quiet], fun intact => ?_⟩
  cases intact with
  | error e => exact ⟨by simp [Quiet, isExecute], trivial⟩
  | ok intact =>
    refine ⟨by simp [Quiet, isExecute], fun count => ?_⟩
    cases count with
    | error e => exact ⟨by simp [Quiet, isExecute], trivial⟩
    | ok count =>
      refine ⟨by simp [Quiet, isExecute], fun streamHash => ?_⟩
      cases streamHash with
      | error e => exact ⟨by simp [Quiet, isExecute], trivial⟩
      | ok streamHash => exact ⟨by simp [Quiet, isExecute], trivial⟩

theorem keeps_handleAttest : Keeps Quiet (fun _ _ => True) [] handleAttest := by
  refine ⟨by simp [Quiet], fun snap => ?_⟩
  cases snap with
  | error e => exact ⟨by simp [Quiet, isExecute], trivial⟩
  | ok snap => exact ⟨by simp [Quiet, isExecute], trivial⟩

/-- Past the claim, the request is executed once at most. -/
theorem keeps_governFresh {params parameters : JsonObj} {key : NonceKey} (op authority : JsonVal)
    (hkey : nonceKey host (JsonObj.getD params "nonce" (.lit "")) = some key)
    (hnonce : parameters.lookup (PyStr.lit "nonce") =
      some (JsonObj.getD params "nonce" (.lit ""))) :
    Keeps (Guarded host params) (fun es _ => freshClaim key ∈ es) [freshClaim key]
      (governFresh host op authority parameters) := by
  -- the exchanges are known at every point, so that `Guarded` is read off
  have hguarded (es : List (Exchange Reply)) (hlen : es.length ≤ 3)
      (hsingle : es.countP isExecute ≤ 1)
      (hexec : ∀ e ∈ es, isExecute e = true →
        executed e = some (JsonObj.getD params "nonce" (.lit ""))) :
      Guarded host params (freshClaim key :: es) := by
    refine ⟨by rw [List.length_cons]; omega, by simpa [isExecute, freshClaim] using hsingle, ?_⟩
    intro e he hisExec
    rcases List.mem_cons.mp he with rfl | he
    · exact nomatch hisExec
    · exact ⟨key, hexec e he hisExec, hkey, List.mem_cons_self⟩
  unfold governFresh
  refine ⟨hguarded [] (by simp) (by simp) (by simp), fun snap => ?_⟩
  have hone := hguarded [⟨.snapshotFast, snap⟩] (by simp) (by simp [isExecute])
    (by simp [isExecute])
  cases snap with
  | error e => exact ⟨hone, List.mem_cons_self⟩
  | ok snap =>
    dsimp only
    cases henv : envelope host authority (Fields.getD snap "dimension_id" (.json (.lit ""))) with
    | error e => exact ⟨hone, List.mem_cons_self⟩
    | ok authority =>
      refine ⟨hone, fun outcome => ?_⟩
      have htwo := hguarded [⟨.snapshotFast, .ok snap⟩, ⟨.execute op authority parameters, outcome⟩]
        (by simp) (by simp [isExecute, List.countP_cons]) (by simp [isExecute, executed, hnonce])
      cases outcome with
      | error e => exact ⟨htwo, List.mem_cons_self⟩
      | ok u =>
        refine ⟨htwo, fun after => ?_⟩
        have hthree := hguarded [⟨.snapshotFast, .ok snap⟩, ⟨.execute op authority parameters, .ok u⟩,
          ⟨.snapshotFast, after⟩] (by simp) (by simp [isExecute, List.countP_cons])
          (by simp [isExecute, executed, hnonce])
        cases after with
        | error e => exact ⟨hthree, List.mem_cons_self⟩
        | ok after => exact ⟨hthree, List.mem_cons_self⟩

theorem guarded_of_quiet {params : JsonObj} {es : List (Exchange Reply)} (h : Quiet es) :
    Guarded host params es := by
  obtain ⟨hlen, hnone⟩ := h
  refine ⟨hlen, ?_, fun e he hexec => ?_⟩
  · rw [List.countP_eq_zero.mpr fun e he => by simp [hnone e he]]
    exact Nat.zero_le 1
  · rw [hnone e he] at hexec
    exact nomatch hexec

theorem keeps_handleGovern (params : JsonObj) :
    Keeps (Guarded host params) (Settled host params) []
      (handleGovern host serverAuthority (.obj params)) := by
  have hstart : Guarded host params [] := guarded_of_quiet (by simp [Quiet])
  unfold handleGovern
  dsimp only
  cases hkey : nonceKey host (JsonObj.getD params "nonce" (.lit "")) with
  | none =>
    refine ⟨hstart, fun key hsome => ?_⟩
    rw [hkey] at hsome
    exact nomatch hsome
  | some key =>
    refine ⟨hstart, fun fresh => ?_⟩
    cases fresh with
    | false =>
      refine ⟨guarded_of_quiet (by simp [Quiet, isExecute]), fun key' _ => ?_⟩
      exact .inl rfl
    | true =>
      have hfresh := @keeps_governFresh host params
        [(PyStr.lit "intent", JsonObj.getD params "intent" (.lit "observe")),
          (PyStr.lit "subject", JsonObj.getD params "subject" (.lit "")),
          (PyStr.lit "nonce", JsonObj.getD params "nonce" (.lit ""))] key
        (JsonObj.getD params "op" (.lit "crp_evidence"))
        (JsonObj.getD params "authority" (.str serverAuthority)) hkey rfl
      refine hfresh.mono (fun _ h => h) fun es outcome _ hmem key' hkey' => ?_
      rw [hkey] at hkey'
      exact .inr (Option.some.inj hkey' ▸ hmem)

/-- What holds along a request, whatever it is. -/
structure Along (host : RpcHost) (raw : PyStr) (es : List (Exchange Reply)) : Prop where
  prompt : es.length ≤ 4
  single : es.countP isExecute ≤ 1
  claimed : ∀ e ∈ es, isExecute e = true → ∃ params key, governParams host raw = some params ∧
    executed e = some (JsonObj.getD params "nonce" (.lit "")) ∧
      nonceKey host (JsonObj.getD params "nonce" (.lit "")) = some key ∧ freshClaim key ∈ es

/-- What a request ends in: a response, unless it was no object; and the response to a nonce seen
    before, unless the nonce was consumed. -/
structure Ended (host : RpcHost) (raw : PyStr) (es : List (Exchange Reply))
    (out : Except RpcExc (List Char)) : Prop where
  answered : Answerable host raw → ∃ resp, out = .ok (dumps resp) ∧
    IsResponse (requestId host raw) resp
  settled : ∀ params key, governParams host raw = some params →
    nonceKey host (JsonObj.getD params "nonce" (.lit "")) = some key →
      out = .ok (replayResponse host raw (JsonObj.getD params "nonce" (.lit ""))) ∨
        freshClaim key ∈ es

theorem along_of_quiet {es : List (Exchange Reply)} (h : Quiet es) : Along host raw es := by
  have hguarded : Guarded host [] es := guarded_of_quiet h
  refine ⟨hguarded.prompt, hguarded.single, fun e he hexec => ?_⟩
  rw [h.2 e he] at hexec
  exact nomatch hexec

/-- Whatever the nonce set and the kernel answer. -/
theorem keeps_handleRequest (host : RpcHost) (serverAuthority raw : PyStr) :
    Keeps (Along host raw) (Ended host raw) [] (handleRequest host serverAuthority raw) := by
  have hstart : Along host raw [] := along_of_quiet (by simp [Quiet])
  -- a request that ends at once asks for no nonce
  have hret (resp : JsonVal) (hresp : IsResponse (requestId host raw) resp)
      (hnone : governParams host raw = none) :
      Keeps (Along host raw) (Ended host raw) [] (.ret (.ok (dumps resp))) := by
    refine ⟨hstart, fun _ => ⟨resp, rfl, hresp⟩, fun params key hparams => ?_⟩
    rw [hnone] at hparams
    exact nomatch hparams
  unfold handleRequest
  cases hload : host.loads raw with
  | none =>
    have hid : requestId host raw = .null := by rw [requestId, hload]
    refine hret _ ?_ (by rw [governParams, hload])
    rw [hid]
    exact isResponse_err _ _ _ _
  | some v =>
    cases v with
    | obj req =>
      have hid : requestId host raw = JsonObj.getD req "id" .null := by rw [requestId, hload]
      dsimp only
      cases hmethod : JsonObj.getD req "method" (.lit "") with
      | str method =>
        have hquiet (handler : Handler) (hgov : method ≠ PyStr.lit "ugk.govern")
            (h : Keeps Quiet (fun _ _ => True) [] handler) :
            Keeps (Along host raw) (Ended host raw) [] (handler.map fun outcome =>
              .ok (dumps (respond host (JsonObj.getD req "id" .null) outcome))) := by
          apply Keeps.map
          refine h.mono (fun _ hes => along_of_quiet hes) fun es outcome _ _ => ⟨?_, ?_⟩
          · exact fun _ => ⟨_, rfl, hid ▸ isResponse_respond _ outcome⟩
          · intro params key hparams
            rw [governParams_eq_none hload hmethod hgov] at hparams
            exact nomatch hparams
        dsimp only
        unfold handlerOf
        by_cases hgov : method = PyStr.lit "ugk.govern"
        · rw [if_pos hgov]
          dsimp only
          apply Keeps.map
          cases hparams : JsonObj.getD req "params" (.obj []) with
          | obj params =>
            have hgiven : governParams host raw = some params := by
              rw [governParams, hload]
              dsimp only
              rw [hmethod, hparams]
              exact if_pos hgov
            refine (keeps_handleGovern params).mono (fun es hes => ?_) fun es outcome _ hset => ?_
            · refine ⟨hes.prompt, hes.single, fun e he hexec => ?_⟩
              obtain ⟨key, hnonce, hkey, hmem⟩ := hes.claimed e he hexec
              exact ⟨params, key, hgiven, hnonce, hkey, hmem⟩
            · refine ⟨fun _ => ⟨_, rfl, hid ▸ isResponse_respond _ outcome⟩, ?_⟩
              intro params' key hparams' hkey
              rw [hgiven] at hparams'
              cases hparams'
              refine (hset key hkey).imp_left fun hout => ?_
              rw [hout, replayResponse, hid]
          | _ =>
            refine ⟨hstart, fun _ => ⟨_, rfl, hid ▸ isResponse_respond _ _⟩, ?_⟩
            intro params key hgiven
            rw [governParams, hload] at hgiven
            dsimp only at hgiven
            rw [hmethod, hparams] at hgiven
            exact nomatch hgiven
        · rw [if_neg hgov]
          by_cases hstatus : method = PyStr.lit "ugk.status"
          · rw [if_pos hstatus]
            exact hquiet _ hgov keeps_handleStatus
          rw [if_neg hstatus]
          by_cases hverify : method = PyStr.lit "ugk.verify"
          · rw [if_pos hverify]
            exact hquiet _ hgov keeps_handleVerify
          rw [if_neg hverify]
          by_cases hattest : method = PyStr.lit "ugk.attest"
          · rw [if_pos hattest]
            exact hquiet _ hgov keeps_handleAttest
          rw [if_neg hattest]
          exact hret _ (hid ▸ isResponse_err _ _ _ _) (governParams_eq_none hload hmethod hgov)
      | _ =>
        refine hret _ (hid ▸ isResponse_err _ _ _ _) ?_
        rw [governParams, hload]
        dsimp only
        rw [hmethod]
    | _ =>
      refine ⟨hstart, fun hanswer => ?_, fun params key hparams => ?_⟩
      · obtain ⟨req, hreq⟩ := hanswer _ hload
        exact nomatch hreq
      · rw [governParams, hload] at hparams
        exact nomatch hparams

/-! ## Many requests -/

variable {raws : List PyStr} {trace : List (Nat × Exchange Reply)}
  {p : Pool (List NonceKey) Query Reply (Except RpcExc (List Char))}

theorem answers_unclaimed {q : Query} {a : Reply q} {seen seen' : List NonceKey}
    (h : Answers seen q a seen') (hq : ∀ key, q ≠ .claim key) : seen' = seen := by
  cases q with
  | claim key => exact absurd rfl (hq key)
  | _ => exact h

theorem answers_claim {key : NonceKey} {fresh : Bool} {seen seen' : List NonceKey}
    (h : Answers seen (.claim key) fresh seen') :
    (fresh = true ∧ key ∉ seen ∧ seen' = key :: seen) ∨
      (fresh = false ∧ key ∈ seen ∧ seen' = seen) := by
  have heq : (fresh, seen') = consume seen key := h
  unfold consume at heq
  split at heq
  · rename_i hmem
    obtain ⟨rfl, rfl⟩ := Prod.mk.inj heq
    exact .inr ⟨rfl, hmem, rfl⟩
  · rename_i hmem
    obtain ⟨rfl, rfl⟩ := Prod.mk.inj heq
    exact .inl ⟨rfl, hmem, rfl⟩

/-- What the nonce set says of a run: a nonce that was consumed is in it, and no nonce was consumed
    by two requests. -/
structure Consumed (trace : List (Nat × Exchange Reply)) (seen : List NonceKey) : Prop where
  seen : ∀ i key, (i, freshClaim key) ∈ trace → key ∈ seen
  once : ∀ i j key, (i, freshClaim key) ∈ trace → (j, freshClaim key) ∈ trace → i = j

/-- One answer keeps the record of the consumed nonces. -/
theorem Consumed.step {seen seen' : List NonceKey} (h : Consumed trace seen) (i : Nat) {q : Query}
    {a : Reply q} (hanswer : Answers seen q a seen') :
    Consumed (trace ++ [(i, ⟨q, a⟩)]) seen' := by
  have hkeep (hq : ∀ key, (⟨q, a⟩ : Exchange Reply) ≠ freshClaim key) (hseen : seen' = seen) :
      Consumed (trace ++ [(i, ⟨q, a⟩)]) seen' := by
    have hold (j : Nat) (key : NonceKey)
        (hmem : (j, freshClaim key) ∈ trace ++ [(i, ⟨q, a⟩)]) : (j, freshClaim key) ∈ trace := by
      rcases List.mem_append.mp hmem with hmem | hmem
      · exact hmem
      · exact absurd (Prod.mk.inj (List.mem_singleton.mp hmem)).2.symm (hq key)
    subst hseen
    exact ⟨fun j key hmem => h.seen j key (hold j key hmem),
      fun j k key hj hk => h.once j k key (hold j key hj) (hold k key hk)⟩
  cases q with
  | claim key =>
    rcases answers_claim hanswer with ⟨rfl, hnew, rfl⟩ | ⟨rfl, -, hseen⟩
    · -- the nonce was not in the set, so nobody had consumed it
      have hcases (j : Nat) (key' : NonceKey)
          (hmem : (j, freshClaim key') ∈ trace ++ [(i, freshClaim key)]) :
          (j, freshClaim key') ∈ trace ∨ (j = i ∧ key' = key) := by
        rcases List.mem_append.mp hmem with hmem | hmem
        · exact .inl hmem
        · obtain ⟨hj, he⟩ := Prod.mk.inj (List.mem_singleton.mp hmem)
          refine .inr ⟨hj, ?_⟩
          have hquery := congrArg Sigma.fst he
          exact Query.claim.inj hquery
      refine ⟨fun j key' hmem => ?_, fun j k key' hj hk => ?_⟩
      · rcases hcases j key' hmem with hmem | ⟨-, rfl⟩
        · exact List.mem_cons_of_mem _ (h.seen j key' hmem)
        · exact List.mem_cons_self
      · rcases hcases j key' hj with hjold | ⟨hji, hjkey⟩
        · rcases hcases k key' hk with hkold | ⟨-, hkkey⟩
          · exact h.once j k key' hjold hkold
          · exact absurd (hkkey ▸ h.seen j key' hjold) hnew
        · rcases hcases k key' hk with hkold | ⟨hki, -⟩
          · exact absurd (hjkey ▸ h.seen k key' hkold) hnew
          · rw [hji, hki]
    · refine hkeep (fun key' heq => ?_) hseen
      obtain ⟨-, hfalse⟩ := Sigma.mk.inj heq
      have hkey := Query.claim.inj (congrArg Sigma.fst heq)
      subst hkey
      exact Bool.noConfusion (eq_of_heq hfalse)
  | _ =>
    refine hkeep (fun key' heq => ?_) (answers_unclaimed hanswer fun key' heq => nomatch heq)
    have hquery := congrArg Sigma.fst heq
    exact nomatch hquery

/-- In every run, one request at most consumes a nonce. -/
theorem claimed_once (h : Run Answers (serve host serverAuthority raws) trace p) :
    Consumed trace p.shared := by
  induction h with
  | refl => exact ⟨fun i key hmem => (nomatch hmem), fun i j key hmem => (nomatch hmem)⟩
  | @step trace p i q k a s before asks answer ih => exact ih.step i answer

theorem threads_serve (i : Nat) (raw : PyStr) (hraw : raws[i]? = some raw) :
    (serve host serverAuthority raws).threads[i]? =
      some (handleRequest host serverAuthority raw) := by
  show (raws.map (handleRequest host serverAuthority))[i]? = _
  rw [List.getElem?_map, hraw, Option.map_some]

/-- The exchanges of one request, in a run of many. -/
theorem along_of_run (h : Run Answers (serve host serverAuthority raws) trace p) {i : Nat}
    (hraw : raws[i]? = some raw) : ∃ c, p.threads[i]? = some c ∧
      Keeps (Along host raw) (Ended host raw) (own i trace) c :=
  Pool.keeps_of_run (threads_serve i raw hraw) (keeps_handleRequest host serverAuthority raw) h

/-- The request an exchange belongs to. -/
theorem raw_of_mem (h : Run Answers (serve host serverAuthority raws) trace p) {i : Nat}
    {e : Exchange Reply} (hmem : (i, e) ∈ trace) : ∃ raw, raws[i]? = some raw := by
  have hlt := Pool.lt_of_mem h hmem
  have hlen : (serve host serverAuthority raws).threads.length = raws.length := List.length_map _
  rw [hlen] at hlt
  exact ⟨raws[i], List.getElem?_eq_getElem hlt⟩

theorem isExecute_of_executed {e : Exchange Reply} {v : JsonVal} (h : executed e = some v) :
    isExecute e = true := by
  obtain ⟨q, a⟩ := e
  cases q with
  | execute op authority parameters => rfl
  | _ => exact nomatch h

/-- A nonce is executed once at most, however the requests interleave. -/
theorem executed_once (h : Run Answers (serve host serverAuthority raws) trace p)
    (key : NonceKey) : trace.countP (fun e => executesKey host key e.2) ≤ 1 := by
  -- an execution of the nonce stands in a thread that claimed it
  have hclaimed (i : Nat) (e : Exchange Reply) (hmem : (i, e) ∈ trace)
      (hexec : executesKey host key e = true) : (i, freshClaim key) ∈ trace := by
    obtain ⟨v, hv, hkey⟩ := Option.bind_eq_some_iff.mp (beq_iff_eq.mp hexec)
    obtain ⟨raw, hraw⟩ := raw_of_mem h hmem
    obtain ⟨c, -, hkeeps⟩ := along_of_run h hraw
    obtain ⟨params, key', -, hnonce, hkey', hfresh⟩ :=
      hkeeps.inv.claimed e (Pool.mem_own_iff.mpr hmem) (isExecute_of_executed hv)
    rw [hv, Option.some.injEq] at hnonce
    rw [hnonce, hkey', Option.some.injEq] at hkey
    exact hkey ▸ Pool.mem_own_iff.mp hfresh
  by_cases hany : ∃ i e, (i, e) ∈ trace ∧ executesKey host key e = true
  · obtain ⟨i, e, hmem, hexec⟩ := hany
    apply @Pool.count_le_one _ _ trace (executesKey host key) i
    · intro j e' hmem' hexec'
      exact (claimed_once h).once j i key (hclaimed j e' hmem' hexec') (hclaimed i e hmem hexec)
    · obtain ⟨raw, hraw⟩ := raw_of_mem h hmem
      obtain ⟨c, -, hkeeps⟩ := along_of_run h hraw
      refine le_trans (List.countP_mono_left fun e _ he => ?_) hkeeps.inv.single
      obtain ⟨v, hv, -⟩ := Option.bind_eq_some_iff.mp (beq_iff_eq.mp he)
      exact isExecute_of_executed hv
  · rw [List.countP_eq_zero.mpr fun e hmem hexec => hany ⟨e.1, e.2, hmem, hexec⟩]
    exact Nat.zero_le 1

/-! ## What the server promises -/

/-- What a server does in a run: it answers every request in at most four steps, and executes a
    nonce once, for a request that names it and was not answered as a replay. -/
structure Served (host : RpcHost) (raws : List PyStr) (trace : List (Nat × Exchange Reply))
    (p : Pool (List NonceKey) Query Reply (Except RpcExc (List Char))) : Prop where
  /-- a request that is through returned a response with its id -/
  answered : ∀ (i : Nat) (raw : PyStr) (out : Except RpcExc (List Char)), raws[i]? = some raw →
    p.threads[i]? = some (.ret out) → ∃ resp, out = .ok (dumps resp) ∧ IsResponse (requestId host raw) resp
  /-- a request takes four steps at most, and can always take the next -/
  prompt : ∀ (i : Nat) (raw : PyStr), raws[i]? = some raw → (own i trace).length ≤ 4 ∧
    ((∃ out, p.threads[i]? = some (.ret out)) ∨
      ∃ q k, p.threads[i]? = some (.ask q k) ∧ ∃ a seen, Answers p.shared q a seen)
  /-- a nonce reaches `Kernel.execute` once at most -/
  once : ∀ key, trace.countP (fun e => executesKey host key e.2) ≤ 1
  /-- what reaches `Kernel.execute` carries the string its request gives as a nonce -/
  named : ∀ (i : Nat) (e : Exchange Reply), (i, e) ∈ trace → isExecute e = true → ∃ raw s, raws[i]? = some raw ∧
    nonceOf host raw = some (.str s) ∧ executed e = some (.str s)
  /-- a request that is through and was no replay consumed its nonce, and no other did -/
  consumed : ∀ (i : Nat) (raw s : PyStr) (out : Except RpcExc (List Char)),
    raws[i]? = some raw → nonceOf host raw = some (.str s) → p.threads[i]? = some (.ret out) →
      out ≠ .ok (replayResponse host raw (.str s)) →
      (i, freshClaim (.str s)) ∈ trace ∧ ∀ j, (j, freshClaim (.str s)) ∈ trace → j = i

/-- A request the server serves as it promises: its text is no JSON or that of an object, and where
    it asks for `ugk.govern` with an object of parameters, the nonce is there, and is a string or a
    value without a hash. -/
structure Meets (host : RpcHost) (raw : PyStr) : Prop where
  answerable : Answerable host raw
  named : ∀ params, governParams host raw = some params →
    ∃ nonce, params.lookup (PyStr.lit "nonce") = some nonce ∧
      ((∃ s, nonce = .str s) ∨ (∃ xs, nonce = .arr xs) ∨ ∃ kvs, nonce = .obj kvs)

theorem answers_total (seen : List NonceKey) (q : Query) : ∃ a seen', Answers seen q a seen' := by
  cases q with
  | claim key => exact ⟨(consume seen key).1, (consume seen key).2, rfl⟩
  | snapshotFast => exact ⟨.error ⟨.other, []⟩, seen, rfl⟩
  | snapshot => exact ⟨.error ⟨.other, []⟩, seen, rfl⟩
  | execute op authority parameters => exact ⟨.ok (), seen, rfl⟩
  | verifyStreamHash => exact ⟨.ok true, seen, rfl⟩
  | receiptCount => exact ⟨.ok 0, seen, rfl⟩
  | streamHash => exact ⟨.ok [], seen, rfl⟩

theorem getD_of_lookup {kvs : JsonObj} {key : String} {default v : JsonVal}
    (h : kvs.lookup (PyStr.lit key) = some v) : JsonObj.getD kvs key default = v := by
  rw [JsonObj.getD, h, Option.getD_some]

/-- Requests that meet the condition are served, in every run. -/
theorem served_of_meets (hmeets : ∀ raw ∈ raws, Meets host raw)
    (h : Run Answers (serve host serverAuthority raws) trace p) : Served host raws trace p := by
  have hmeets {i : Nat} {raw : PyStr} (hraw : raws[i]? = some raw) : Meets host raw :=
    hmeets raw (List.mem_of_getElem? hraw)
  refine ⟨fun i raw out hraw hthread => ?_, fun i raw hraw => ?_, executed_once h, ?_, ?_⟩
  · obtain ⟨c, hc, hkeeps⟩ := along_of_run h hraw
    rw [hthread, Option.some.injEq] at hc
    subst hc
    exact hkeeps.post.answered (hmeets hraw).answerable
  · obtain ⟨c, hc, hkeeps⟩ := along_of_run h hraw
    refine ⟨hkeeps.inv.prompt, ?_⟩
    cases c with
    | ret out => exact .inl ⟨out, hc⟩
    | ask q k => exact .inr ⟨q, k, hc, answers_total p.shared q⟩
  · intro i e hmem hexec
    obtain ⟨raw, hraw⟩ := raw_of_mem h hmem
    obtain ⟨c, -, hkeeps⟩ := along_of_run h hraw
    obtain ⟨params, key, hparams, hnonce, hkey, -⟩ :=
      hkeeps.inv.claimed e (Pool.mem_own_iff.mpr hmem) hexec
    obtain ⟨nonce, hlookup, hshape⟩ := (hmeets hraw).named params hparams
    rw [getD_of_lookup hlookup] at hnonce hkey
    rcases hshape with ⟨s, rfl⟩ | ⟨xs, rfl⟩ | ⟨kvs, rfl⟩
    · refine ⟨raw, s, hraw, ?_, hnonce⟩
      rw [nonceOf, hparams, Option.bind_some, hlookup]
    · exact nomatch hkey
    · exact nomatch hkey
  · intro i raw s out hraw hnonce hthread hreplay
    obtain ⟨c, hc, hkeeps⟩ := along_of_run h hraw
    rw [hthread, Option.some.injEq] at hc
    subst hc
    obtain ⟨params, hparams, hlookup⟩ := Option.bind_eq_some_iff.mp hnonce
    have hgiven : JsonObj.getD params "nonce" (.lit "") = .str s := getD_of_lookup hlookup
    have hclaim : (i, freshClaim (.str s)) ∈ trace := by
      rcases hkeeps.post.settled params (.str s) hparams (by rw [hgiven]; rfl) with hout | hfresh
      · rw [hgiven] at hout
        exact absurd hout hreplay
      · exact Pool.mem_own_iff.mp hfresh
    exact ⟨hclaim, fun j hj => (claimed_once h).once j i (.str s) hj hclaim⟩

/-- A request that executes without a nonce of its own, served alone. -/
theorem run_of_hashed {params : JsonObj} {key : NonceKey} {i : Nat} (hraw : raws[i]? = some raw)
    (hparams : governParams host raw = some params)
    (hkey : nonceKey host (JsonObj.getD params "nonce" (.lit "")) = some key) :
    ∃ trace p, Run Answers (serve host serverAuthority raws) trace p ∧
      ∃ e, (i, e) ∈ trace ∧ isExecute e = true := by
  -- the program of the request is that of the handler, up to the answer it makes of the outcome
  have hprogram : ∃ f, handleRequest host serverAuthority raw =
      Calls.map f (handleGovern host serverAuthority (.obj params)) := by
    unfold governParams at hparams
    split at hparams
    · rename_i req hload
      split at hparams
      · rename_i method params' hmethod hparams'
        split at hparams
        · rename_i hgov
          cases hparams
          refine ⟨fun outcome => .ok (dumps (respond host (JsonObj.getD req "id" .null) outcome)), ?_⟩
          unfold handleRequest
          rw [hload]
          dsimp only
          rw [hmethod]
          dsimp only
          rw [handlerOf, if_pos hgov, hparams']
        · exact nomatch hparams
      · exact nomatch hparams
    · exact nomatch hparams
  obtain ⟨f, hprogram⟩ := hprogram
  have hthread := @threads_serve host serverAuthority raws i raw hraw
  rw [hprogram] at hthread
  unfold handleGovern at hthread
  dsimp only at hthread
  rw [hkey] at hthread
  have hlt : i < (serve host serverAuthority raws).threads.length :=
    (List.getElem?_eq_some_iff.mp hthread).1
  have hfresh : Answers (serve host serverAuthority raws).shared (.claim key) true [key] := rfl
  have hclaimed := Run.step Run.refl hthread hfresh
  have hsnap := Run.step hclaimed (List.getElem?_set_self hlt)
    (show Answers [key] .snapshotFast (.ok []) [key] from rfl)
  have hexec := Run.step hsnap (List.getElem?_set_self (by rw [List.length_set]; exact hlt))
    (show Answers [key] (.execute _ _ _) (.ok ()) [key] from rfl)
  exact ⟨_, _, hexec, _, List.mem_append_right _ List.mem_cons_self, rfl⟩

/-- A server keeps its promise in every run exactly if every request meets the condition. -/
theorem served_iff (host : RpcHost) (serverAuthority : PyStr) (raws : List PyStr) :
    (∀ trace p, Run Answers (serve host serverAuthority raws) trace p →
      Served host raws trace p) ↔ ∀ raw ∈ raws, Meets host raw := by
  constructor
  · intro h raw hmem
    obtain ⟨i, hraw⟩ := List.mem_iff_getElem?.mp hmem
    constructor
    · -- a request that is no object has raised before its first step
      intro v hload
      cases v with
      | obj req => exact ⟨req, rfl⟩
      | _ =>
        have hthread := @threads_serve host serverAuthority raws i raw hraw
        rw [handleRequest, hload] at hthread
        obtain ⟨resp, hout, -⟩ := (h [] _ .refl).answered i raw _ hraw hthread
        exact nomatch hout
    · intro params hparams
      cases hkey : nonceKey host (JsonObj.getD params "nonce" (.lit "")) with
      | none =>
        cases hlookup : params.lookup (PyStr.lit "nonce") with
        | none =>
          rw [JsonObj.getD, hlookup] at hkey
          exact nomatch hkey
        | some nonce =>
          rw [getD_of_lookup hlookup] at hkey
          refine ⟨nonce, rfl, ?_⟩
          cases nonce with
          | arr xs => exact .inr (.inl ⟨xs, rfl⟩)
          | obj kvs => exact .inr (.inr ⟨kvs, rfl⟩)
          | float x =>
            dsimp only [nonceKey] at hkey
            cases hint : host.floatInt x with
            | none => rw [hint] at hkey; exact nomatch hkey
            | some n => rw [hint] at hkey; exact nomatch hkey
          | _ => exact nomatch hkey
      | some key =>
        obtain ⟨trace, p, hrun, e, he, hexec⟩ :=
          @run_of_hashed host serverAuthority raw raws params key i hraw hparams hkey
        obtain ⟨raw', s, hraw', hnonce, -⟩ := (h trace p hrun).named i e he hexec
        rw [hraw, Option.some.injEq] at hraw'
        subst hraw'
        rw [nonceOf, hparams, Option.bind_some] at hnonce
        exact ⟨.str s, hnonce, .inl ⟨s, rfl⟩⟩
  · exact fun hmeets trace p hrun => served_of_meets hmeets hrun

/-! ### Requests that are not served -/

/-- `d[key] = value` -/
def setItem (kvs : JsonObj) (key : PyStr) (v : JsonVal) : JsonObj :=
  if (kvs.lookup key).isSome then kvs.map fun kv => if kv.1 = key then (key, v) else kv
  else kvs ++ [(key, v)]

mutual

/-- What `json.loads` makes of a document. -/
def ofDocument : Json → JsonVal
  | .null => .null
  | .bool b => .bool b
  | .int n => .int n
  | .float x => .float (.fin x)
  | .nonFinite k => .float (.nonFinite k)
  | .str s => .lit s
  | .arr xs => .arr (ofDocuments xs)
  | .obj kvs => .obj (ofMembers [] kvs)
termination_by structural j => j

/-- The elements of an array. -/
def ofDocuments : List Json → List JsonVal
  | [] => []
  | x :: xs => ofDocument x :: ofDocuments xs
termination_by structural xs => xs

/-- The members of an object, after those already read. -/
def ofMembers (read : JsonObj) : List (String × Json) → JsonObj
  | [] => read
  | m :: ms => ofMembers (setItem read (PyStr.lit m.1) (ofMember m)) ms
termination_by structural ms => ms

/-- The value of a member. -/
def ofMember : String × Json → JsonVal
  | (_, v) => ofDocument v
termination_by structural m => m

end

/-- A runtime that reads JSON texts and knows no message. -/
def sampleRpcHost : RpcHost where
  loads raw := (PyStr.text? raw).bind fun s => (Json.parse s.toList).map ofDocument
  format v :=
    match v with
    | .str s => s
    | _ => (dumps v).map .char
  repr s := PyStr.lit "'" ++ s ++ PyStr.lit "'"
  excText _ := []
  floatInt _ := none

/-- The text of a document is read as that document. -/
theorem loads_sample {s : String} {doc : Json} (h : Json.render ⟨true, false⟩ doc = s.toList) :
    sampleRpcHost.loads (PyStr.lit s) = some (ofDocument doc) := by
  show (PyStr.text? (PyStr.lit s)).bind _ = _
  rw [PyStr.text?_lit, Option.bind_some, ← h, Json.parse_render, Option.map_some]

theorem governParams_sample {s : String} {params : List (String × Json)}
    (h : Json.render ⟨true, false⟩ (.obj [("method", .str "ugk.govern"), ("params", .obj params)]) =
      s.toList) : governParams sampleRpcHost (PyStr.lit s) = some (ofMembers [] params) := by
  have hreq : ofDocument (.obj [("method", .str "ugk.govern"), ("params", .obj params)]) =
      .obj [(PyStr.lit "method", .lit "ugk.govern"),
        (PyStr.lit "params", .obj (ofMembers [] params))] := by
    simp [ofDocument, ofMembers, ofMember, setItem]
  have hmethod : JsonObj.getD [(PyStr.lit "method", .lit "ugk.govern"),
      (PyStr.lit "params", .obj (ofMembers [] params))] "method" (.lit "") = .lit "ugk.govern" := by
    simp [JsonObj.getD]
  have hparams : JsonObj.getD [(PyStr.lit "method", .lit "ugk.govern"),
      (PyStr.lit "params", .obj (ofMembers [] params))] "params" (.obj []) =
        .obj (ofMembers [] params) := by
    simp [JsonObj.getD, List.lookup_cons]
  rw [governParams, loads_sample h, hreq]
  dsimp only
  rw [hmethod, hparams]
  exact if_pos rfl

/-- `"[]"` raises, and a request for `ugk.govern` without a nonce, or with a number for one, is
    executed. -/
theorem unserved_requests :
    handleRequest sampleRpcHost (PyStr.lit "rpc") (PyStr.lit "[]") =
        .ret (.error (.noAttribute (.arr []))) ∧
      (∀ raw ∈ [PyStr.lit "\x7b\"method\":\"ugk.govern\",\"params\":\x7b\x7d\x7d",
          PyStr.lit "\x7b\"method\":\"ugk.govern\",\"params\":\x7b\"nonce\":7\x7d\x7d"],
        (∀ s, nonceOf sampleRpcHost raw ≠ some (.str s)) ∧
          ∃ trace p, Run Answers (serve sampleRpcHost (PyStr.lit "rpc") [raw]) trace p ∧
            ∃ e, (0, e) ∈ trace ∧ isExecute e = true) ∧
      ¬∀ raws trace p, Run Answers (serve sampleRpcHost (PyStr.lit "rpc") raws) trace p →
        Served sampleRpcHost raws trace p := by
  have hraise : handleRequest sampleRpcHost (PyStr.lit "rpc") (PyStr.lit "[]") =
      .ret (.error (.noAttribute (.arr []))) := by
    have hload : sampleRpcHost.loads (PyStr.lit "[]") = some (.arr []) :=
      @loads_sample "[]" (.arr []) (by decide +kernel)
    rw [handleRequest, hload]
  have hnonceless := @governParams_sample
    "\x7b\"method\":\"ugk.govern\",\"params\":\x7b\x7d\x7d" [] (by decide +kernel)
  have hnumber := @governParams_sample
    "\x7b\"method\":\"ugk.govern\",\"params\":\x7b\"nonce\":7\x7d\x7d" [("nonce", .int 7)]
    (by decide +kernel)
  have hseven : ofMembers [] [("nonce", .int 7)] = [(PyStr.lit "nonce", .int 7)] := by
    simp [ofDocument, ofMembers, ofMember, setItem]
  rw [hseven] at hnumber
  refine ⟨hraise, ?_, fun h => ?_⟩
  · rw [List.forall_mem_cons, List.forall_mem_singleton]
    refine ⟨⟨fun s hs => ?_, ?_⟩, ⟨fun s hs => ?_, ?_⟩⟩
    · rw [nonceOf, hnonceless] at hs
      cases hs
    · exact @run_of_hashed _ _ _ _ [] (.str []) 0 rfl hnonceless rfl
    · rw [nonceOf, hnumber, Option.bind_some] at hs
      simp at hs
    · refine @run_of_hashed _ _ _ _ _ (.num 7) 0 rfl hnumber ?_
      simp [JsonObj.getD, nonceKey]
  · have hthread := @threads_serve sampleRpcHost (PyStr.lit "rpc") [PyStr.lit "[]"] 0 _ rfl
    rw [hraise] at hthread
    obtain ⟨resp, hout, -⟩ := (h [PyStr.lit "[]"] [] _ .refl).answered 0 _ _ rfl hthread
    cases hout

end Rpc

end Ugk
