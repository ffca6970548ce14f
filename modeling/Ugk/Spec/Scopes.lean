import Ugk.ForStd.Chain
import Ugk.Native.Will
import Ugk.Spec.Horizon
import Ugk.Spec.Sample
import Ugk.Spec.StoreRun
import Ugk.Spec.Written

/-!
# The chain of provenance scopes

Every session declares a scope that names the scope of the session before it.  `open_session` finds
that scope by its timestamp, and the archive is read back by the timestamps too.

## Key results

- `frames_program`: programs without seals leave every table as far as the archive goes
- `scopes_linear_iff`: the scopes form one chain in session order exactly when the clock increases
-/

namespace Ugk

open Store

/-! ## What every table of a connection shares -/

/-- A property of the tables a connection sees, has stored, and may go back to. -/
structure Throughout (P : Tables → Prop) (c : Conn) : Prop where
  current : P c.current
  durable : P c.durable
  saved : ∀ sp ∈ c.savepoints, P sp.2

section Throughout

variable {P : Tables → Prop}

theorem Throughout.change {c : Conn} {f : Tables → Tables} (h : Throughout P c)
    (hf : P c.current → P (f c.current)) : Throughout P (c.change f) :=
  ⟨hf h.current, h.durable, h.saved⟩

theorem Throughout.commit {c : Conn} (h : P c.current) : Throughout P c.commit :=
  ⟨h, h, fun _ hsp => absurd hsp List.not_mem_nil⟩

theorem Throughout.savepoint {c : Conn} (h : Throughout P c) (name : Nat) :
    Throughout P (c.savepoint name) := by
  refine ⟨h.current, h.durable, fun sp hsp => ?_⟩
  rcases List.mem_cons.mp hsp with rfl | hsp
  · exact h.current
  · exact h.saved sp hsp

theorem Throughout.release {c c' : Conn} {name : Nat} (h : Throughout P c)
    (hc : c.release name = some c') : Throughout P c' := by
  rw [Conn.release] at hc
  split at hc
  · cases hc
  · rename_i sp rest hdrop
    obtain rfl := Option.some.inj hc
    refine ⟨h.current, ?_, fun x hx => h.saved x ((mem_of_dropWhile hdrop).2 x hx)⟩
    show P (if rest.isEmpty && !c.begun then c.current else c.durable)
    split
    · exact h.current
    · exact h.durable

theorem Throughout.rollbackTo {c c' : Conn} {name : Nat} (h : Throughout P c)
    (hc : c.rollbackTo name = some c') : Throughout P c' := by
  rw [Conn.rollbackTo] at hc
  split at hc
  · cases hc
  · rename_i sp rest hdrop
    obtain rfl := Option.some.inj hc
    obtain ⟨hsp, hrest⟩ := mem_of_dropWhile hdrop
    refine ⟨h.saved sp hsp, h.durable, fun x hx => ?_⟩
    rcases List.mem_cons.mp hx with rfl | hx
    · exact h.saved x hsp
    · exact h.saved x (hrest x hx)

/-- A step that keeps the property throughout. -/
def Frames (P : Tables → Prop) (s s' : StoreState) : Prop :=
  Throughout P s.conn → Throughout P s'.conn

theorem frames_refl (s : StoreState) : Frames P s s := id

theorem frames_bind {α β : Type} {m : Proc StoreState Exc α} {f : α → Proc StoreState Exc β}
    (hm : Proc.Steps (Frames P) m) (hf : ∀ a, Proc.Steps (Frames P) (f a)) :
    Proc.Steps (Frames P) (m >>= f) :=
  Proc.Steps.bind (R := Frames P) (fun hab hbc h => hbc (hab h)) hm hf

theorem frames_modify {f : StoreState → StoreState} (h : ∀ s, (f s).conn = s.conn) :
    Proc.Steps (Frames P) (Proc.modify f : Proc StoreState Exc Unit) := by
  intro s hs
  show Throughout P (f s).conn
  rw [h]
  exact hs

theorem frames_statement {f : StoreState → Except Exc StoreState}
    (h : ∀ s s', f s = .ok s' → Frames P s s') : Proc.Steps (Frames P) (statement f) := by
  intro s hs
  by_cases hf : Faulty s
  · rw [statement_of_fault hf.cons]
    exact hs
  · cases hrun : f { s with faults := s.faults.tail } with
    | ok s' =>
      rw [statement_of_clear hf hrun]
      exact h _ s' hrun hs
    | error e =>
      have hstatement : (statement f s).2.conn = s.conn := by
        rw [statement]
        split
        · rfl
        · rw [hrun]
      rw [hstatement]
      exact hs

theorem frames_implicitBegin : Proc.Steps (Frames P) Store.implicitBegin :=
  fun _ hs => ⟨hs.current, hs.durable, hs.saved⟩

theorem frames_change {f : Tables → Tables} (hf : ∀ t, P t → P (f t)) :
    Proc.Steps (Frames P) (changeTables f) := by
  refine frames_bind frames_implicitBegin fun _ => frames_statement fun s s' hrun hs => ?_
  obtain rfl := Except.ok.inj hrun
  exact hs.change (hf s.conn.current)

theorem frames_commit : Proc.Steps (Frames P) commit := by
  refine frames_statement fun s s' hrun hs => ?_
  obtain rfl := Except.ok.inj hrun
  exact Throughout.commit hs.current

theorem frames_release (name : Nat) : Proc.Steps (Frames P) (Store.release name) := by
  refine frames_statement fun s s' hrun hs => ?_
  cases hc : s.conn.release name with
  | none =>
    rw [hc] at hrun
    exact nomatch hrun
  | some conn =>
    rw [hc] at hrun
    obtain rfl := Except.ok.inj hrun
    exact hs.release hc

theorem frames_rollbackTo (name : Nat) : Proc.Steps (Frames P) (Store.rollbackTo name) := by
  intro s hs
  rw [Store.rollbackTo]
  split
  · rename_i conn hc
    exact hs.rollbackTo hc
  · exact hs

/-- The property does not look at the receipts. -/
def ArchiveOnly (P : Tables → Prop) : Prop :=
  ∀ t t' : Tables, t.archive = t'.archive → P t → P t'

variable {cfg : Config} {clock : Clock} (hP : ArchiveOnly P)

include hP

theorem frames_write (a : WriteArgs) : Proc.Steps (Frames P) (Store.write cfg clock a) := by
  have hcommit : Proc.Steps (Frames P) commitUnlessNested := by
    refine frames_bind (Proc.Steps.get frames_refl) fun s => ?_
    split
    · exact frames_commit
    · exact Proc.Steps.ret frames_refl ()
  refine frames_bind (Proc.Steps.lift frames_refl _) fun r => ?_
  refine frames_bind (m := now clock) (fun _ hs => hs) fun time => ?_
  refine frames_bind (frames_modify fun _ => rfl) fun _ => ?_
  refine frames_bind (Proc.Steps.get frames_refl) fun s => ?_
  refine frames_bind (Proc.Steps.lift frames_refl _) fun receipt => ?_
  refine frames_bind frames_implicitBegin fun _ => ?_
  refine frames_bind (Proc.Steps.lift frames_refl _) fun row => ?_
  refine frames_bind (frames_change fun t => hP t _ rfl) fun _ => ?_
  refine frames_bind (Proc.Steps.get frames_refl) fun s => ?_
  refine frames_bind hcommit fun _ => ?_
  exact frames_bind (frames_modify fun _ => rfl) fun _ => Proc.Steps.ret frames_refl _

omit hP in
theorem frames_rollbackAndRelease (name : Nat) :
    Proc.Steps (Frames P) (rollbackAndRelease name) :=
  frames_bind (frames_rollbackTo name) fun _ => frames_release name

omit hP in
theorem frames_block {α : Type} {m : Proc StoreState Exc α} (hm : Proc.Steps (Frames P) m) :
    Proc.Steps (Frames P) (block m) := by
  have hundo (t : Txn) : Proc.Steps (Frames P) (Proc.attempt (rollbackAndRelease t.name)) :=
    Proc.Steps.attempt (frames_rollbackAndRelease t.name)
  refine frames_bind (m := beginTxn) (fun s hs => hs.savepoint s.spCounter) fun t => ?_
  refine frames_bind hm.attempt fun result => ?_
  cases result with
  | ok a =>
    refine frames_bind (m := commitTxn t) ?_ fun _ => Proc.Steps.ret frames_refl a
    refine frames_bind (frames_modify fun _ => rfl) fun _ => ?_
    refine frames_bind (Proc.Steps.attempt (frames_release t.name)) fun result => ?_
    cases result with
    | ok u => exact Proc.Steps.ret frames_refl ()
    | error e =>
      refine frames_bind (hundo t) fun _ => ?_
      exact frames_bind (frames_modify fun _ => rfl) fun _ => Proc.Steps.raise frames_refl _
  | error e =>
    refine frames_bind (m := abortTxn t) ?_ fun _ => Proc.Steps.raise frames_refl e
    refine frames_bind (frames_modify fun _ => rfl) fun _ => ?_
    refine frames_bind (hundo t) fun _ => ?_
    exact frames_bind (frames_modify fun _ => rfl) fun _ => Proc.Steps.lift frames_refl _

theorem frames_program {α : Type} {m : Proc StoreState Exc α}
    (hm : StoreProgram cfg clock false m) : Proc.Steps (Frames P) m := by
  induction hm with
  | ret a => exact Proc.Steps.ret frames_refl a
  | raise e => exact Proc.Steps.raise frames_refl e
  | bind _ _ ihm ihf => exact frames_bind ihm ihf
  | attempt _ ih => exact ih.attempt
  | write a => exact frames_write hP a
  | block _ ih => exact frames_block ih
  | sealArchive hseals row => exact nomatch hseals

end Throughout

/-! ## Opening a session -/

namespace Kernel

/-- The id of the session. -/
def openedId (sessionId : Option String) (uuid : String) : String :=
  if sessionId.getD "" = "" then uuid else sessionId.getD ""

/-- The kernel after `open_session` has spawned the identity. -/
def spawned (rt : Runtime) (sid : String) (w : World) : Kernel :=
  { w.kernel with
    sessionId := some sid
    sessionDkn := spawnSessionIdentity rt.toConfig sid
    sessionOpenCount := (Store.rows w.store).length }

variable {rt : Runtime} {w : World} {sessionId : Option String} {uuid prior : String}

theorem createScope_ok (env : Env) (k : Kernel) (prior timestamp : String) :
    ∃ scope, createScope env k prior timestamp = .ok scope := by
  unfold createScope bindingCanonicalJson
  rw [toJson_strDict]
  exact ⟨_, rfl⟩

/-- The scope is what the session declares, its id a hash of it. -/
theorem createScope_fields {env : Env} {k : Kernel} {prior timestamp : String}
    {scope : ProvenanceScope} (h : createScope env k prior timestamp = .ok scope) :
    scope.authoritySurface = k.mosaicRoot ∧ scope.priorScopeId = prior ∧
      scope.timestamp = timestamp ∧ scope.scopeId ≠ "" := by
  unfold createScope at h
  obtain ⟨body, -, rfl⟩ := Except.map_eq_ok h
  exact ⟨rfl, rfl, rfl, Digest.nonempty _⟩

/-- Scopes of different times have different ids. -/
theorem timestamp_of_scopeId {env : Env} (hinj : Function.Injective env.sha256) {k k' : Kernel}
    {prior prior' time time' : String} {scope scope' : ProvenanceScope}
    (h : createScope env k prior time = .ok scope)
    (h' : createScope env k' prior' time' = .ok scope') (hid : scope.scopeId = scope'.scopeId) :
    time = time' := by
  unfold createScope bindingCanonicalJson at h h'
  rw [toJson_strDict] at h h'
  obtain ⟨body, hbody, rfl⟩ := Except.map_eq_ok h
  obtain ⟨body', hbody', rfl⟩ := Except.map_eq_ok h'
  obtain rfl := Except.ok.inj hbody
  obtain rfl := Except.ok.inj hbody'
  have hdoc := Json.render_injective _ (text_injective (hinj (Digest.ext_hex hid)))
  have hnames : ["authority_surface", "law_hash", "legend_hash", "prior_scope_id", "scope_type",
      "session_dkn", "timestamp"].Nodup := by decide
  have hitems := by
    refine objOf_injective ?_ ?_ hdoc
    · rfl
    · exact hnames
  simp only [List.cons.injEq, Prod.mk.injEq, Json.str.injEq, true_and, and_true] at hitems
  exact hitems.2.2.2.2.2

theorem openSession_of_error {e : Exc} {s : StoreState}
    (h : Store.write rt.toConfig rt.clock (sessionOpenArgs rt.toConfig
      (spawned rt (openedId sessionId uuid) w) (openedId sessionId uuid)) w.store = (.error e, s)) :
    openSession rt sessionId uuid prior w =
      (.error e, { w with kernel := spawned rt (openedId sessionId uuid) w, store := s }) := by
  have hwrite : write rt (sessionOpenArgs rt.toConfig (spawned rt (openedId sessionId uuid) w)
      (openedId sessionId uuid)) { w with kernel := spawned rt (openedId sessionId uuid) w } =
        (.error e, { w with kernel := spawned rt (openedId sessionId uuid) w, store := s }) := by
    rw [write_apply, h]
  unfold openSession
  rw [Proc.bind_of_ok (Proc.modify_apply _ _), Proc.bind_of_ok (Proc.get_apply _)]
  exact Proc.bind_of_error hwrite

/-- A session whose receipt is written declares a scope and seals it. -/
theorem openSession_of_ok {receipt : Receipt} {s : StoreState} {scope : ProvenanceScope}
    (h : Store.write rt.toConfig rt.clock (sessionOpenArgs rt.toConfig
      (spawned rt (openedId sessionId uuid) w) (openedId sessionId uuid)) w.store = (.ok receipt, s))
    (hscope : createScope rt.toEnv (spawned rt (openedId sessionId uuid) w) prior
      (rt.isoTime s.ticks) = .ok scope) :
    (openSession rt sessionId uuid prior w).1 = .ok (openedId sessionId uuid) ∧
      (openSession rt sessionId uuid prior w).2.store = (Store.sealScope scope s).2 := by
  have hwrite : write rt (sessionOpenArgs rt.toConfig (spawned rt (openedId sessionId uuid) w)
      (openedId sessionId uuid)) { w with kernel := spawned rt (openedId sessionId uuid) w } =
        (.ok receipt, { w with kernel := spawned rt (openedId sessionId uuid) w, store := s }) := by
    rw [write_apply, h]
  have hrun : openSession rt sessionId uuid prior w =
      (emitScope rt prior >>= fun _ => pure (openedId sessionId uuid))
        { w with kernel := spawned rt (openedId sessionId uuid) w, store := s } := by
    unfold openSession
    rw [Proc.bind_of_ok (Proc.modify_apply _ _), Proc.bind_of_ok (Proc.get_apply _)]
    exact Proc.bind_of_ok hwrite
  have hseal : (Store.sealScope scope s).1 = .ok () := by
    unfold Store.sealScope Store.sealArchive
    rw [Proc.bind_of_ok (Proc.attempt_apply _ _)]
    rfl
  have hemit : emitScope rt prior
      { w with kernel := spawned rt (openedId sessionId uuid) w, store := s } =
        (.ok (), { w with
          kernel := { spawned rt (openedId sessionId uuid) w with currentScopeId := scope.scopeId }
          store := (Store.sealScope scope s).2 }) := by
    unfold emitScope
    rw [Proc.bind_of_ok (Proc.modify_apply _ _), Proc.bind_of_ok (Proc.get_apply _)]
    have hscope' : createScope rt.toEnv
        { spawned rt (openedId sessionId uuid) w with currentScopeId := "" } prior
          (rt.isoTime s.ticks) = .ok scope := hscope
    dsimp only
    rw [hscope']
    dsimp only
    rw [Proc.bind_apply, onStore, Proc.zoom_apply]
    dsimp only
    rw [hseal]
    rfl
  rw [hrun, Proc.bind_of_ok hemit]
  exact ⟨rfl, rfl⟩

/-! ## Runs of sessions -/

/-- The sessions opened on one store so far, by kernels of one authority surface in one process or
    several, with the scopes they declared.  Between them the store does anything that is no seal.
    Each session reads its own clock, and no seal meets a failing database. -/
inductive ScopeRun (env : Env) (surface : String) : List ProvenanceScope → StoreState → Prop
  | start {s : StoreState}
      (h : Throughout (fun t => t.archive.filterMap ArchiveRow.scope? = []) s.conn) :
      ScopeRun env surface [] s
  | session {scopes : List ProvenanceScope} {rt : Runtime} {w : World} {sessionId : Option String}
      {uuid prior : String} {receipt : Receipt} {s : StoreState} {scope : ProvenanceScope}
      (h : ScopeRun env surface scopes w.store) (henv : rt.toEnv = env)
      (hroot : w.kernel.mosaicRoot = surface)
      (hwrite : Store.write rt.toConfig rt.clock (sessionOpenArgs rt.toConfig
        (spawned rt (openedId sessionId uuid) w) (openedId sessionId uuid)) w.store =
          (.ok receipt, s))
      (hprior : LatestScopeId s.conn.current surface prior)
      (hscope : createScope rt.toEnv (spawned rt (openedId sessionId uuid) w) prior
        (rt.isoTime s.ticks) = .ok scope)
      (hlands : ¬ Faulty s ∧ ¬ Faulty (passFault s)) :
      ScopeRun env surface (scopes ++ [scope]) (openSession rt sessionId uuid prior w).2.store
  | refused {scopes : List ProvenanceScope} {rt : Runtime} {w : World} {sessionId : Option String}
      {uuid prior : String} {e : Exc} {s : StoreState} (h : ScopeRun env surface scopes w.store)
      (hwrite : Store.write rt.toConfig rt.clock (sessionOpenArgs rt.toConfig
        (spawned rt (openedId sessionId uuid) w) (openedId sessionId uuid)) w.store =
          (.error e, s)) :
      ScopeRun env surface scopes (openSession rt sessionId uuid prior w).2.store
  | program {scopes : List ProvenanceScope} {s : StoreState} {cfg : Config} {clock : Clock}
      {α : Type} {m : Proc StoreState Exc α} (h : ScopeRun env surface scopes s)
      (hm : StoreProgram cfg clock false m) : ScopeRun env surface scopes (m s).2
  | reopen {scopes : List ProvenanceScope} {s : StoreState} (h : ScopeRun env surface scopes s) :
      ScopeRun env surface scopes (Store.reopen s)

/-- A scope a session declared. -/
def Declared (env : Env) (surface : String) (scope : ProvenanceScope) : Prop :=
  scope.authoritySurface = surface ∧ scope.scopeId ≠ "" ∧
    ∃ k prior, createScope env k prior scope.timestamp = .ok scope

/-- The archive of every table holds these scopes, chained in this order. -/
structure Chained (env : Env) (surface : String) (scopes : List ProvenanceScope) (c : Conn) :
    Prop where
  stored : Throughout (fun t => t.archive.filterMap ArchiveRow.scope? = scopes) c
  linked : Chain.Linked ProvenanceScope.scopeId ProvenanceScope.priorScopeId "" scopes
  declared : ∀ scope ∈ scopes, Declared env surface scope

variable {env : Env} {surface : String} {scopes : List ProvenanceScope}

theorem archiveOnly_scopes :
    ArchiveOnly (fun t => t.archive.filterMap ArchiveRow.scope? = scopes) := by
  intro t t' harchive h
  rw [← harchive]
  exact h

theorem scopesFor_of_declared {t : Tables} (ht : t.archive.filterMap ArchiveRow.scope? = scopes)
    (h : ∀ scope ∈ scopes, Declared env surface scope) : scopesFor t surface = scopes := by
  unfold scopesFor
  rw [ht, List.filter_eq_self]
  intro scope hscope
  rw [(h scope hscope).1]
  exact beq_self_eq_true surface

/-- Of chained scopes with an increasing clock the last one is found. -/
theorem prior_eq_tip {t : Tables} {prior : String} (hfor : scopesFor t surface = scopes)
    (hinc : Latest.Increasing ProvenanceScope.timestamp scopes)
    (h : LatestScopeId t surface prior) : prior = Chain.tip ProvenanceScope.scopeId "" scopes := by
  unfold LatestScopeId at h
  rw [hfor] at h
  cases scopes using List.reverseRecOn with
  | nil =>
    rcases h with ⟨-, hempty⟩ | ⟨scope, hlatest, -⟩
    · exact hempty
    · exact absurd hlatest.1 List.not_mem_nil
  | append_singleton scopes last =>
    rcases h with ⟨hnil, -⟩ | ⟨scope, hlatest, hid⟩
    · exact absurd hnil (by simp)
    · rw [Chain.tip_concat, ← hid, (Latest.latest_concat_iff hinc).mp hlatest]

/-- A scope with a new id is added to the archive. -/
theorem filterMap_archived {t : Tables} {scope : ProvenanceScope}
    (h : ∀ old ∈ t.archive.filterMap ArchiveRow.scope?, old.scopeId ≠ scope.scopeId) :
    (archived (.scope scope) t).archive.filterMap ArchiveRow.scope? =
      t.archive.filterMap ArchiveRow.scope? ++ [scope] := by
  have hnew : t.archive.any (fun old => old.key == (ArchiveRow.scope scope).key) = false := by
    rw [List.any_eq_false]
    intro old hold
    rw [beq_iff_eq]
    cases old with
    | scope s =>
      intro heq
      exact h s (List.mem_filterMap.mpr ⟨_, hold, rfl⟩) (Prod.mk.inj heq).2
    | legend legendHash entriesJson phaseCode entryCount sealedAt =>
      exact fun heq => absurd (Prod.mk.inj heq).1 (by decide)
    | authorityModel model => exact fun heq => absurd (Prod.mk.inj heq).1 (by decide)
  unfold archived
  rw [hnew, if_neg Bool.false_ne_true, List.filterMap_append]
  rfl

/-- With an increasing clock every session extends the chain. -/
theorem ScopeRun.chained (hinj : Function.Injective env.sha256) {s : StoreState}
    (h : ScopeRun env surface scopes s)
    (hinc : Latest.Increasing ProvenanceScope.timestamp scopes) :
    Chained env surface scopes s.conn := by
  induction h with
  | start h => exact ⟨h, trivial, fun _ hmem => absurd hmem List.not_mem_nil⟩
  | @session scopes rt w sessionId uuid prior receipt s scope h henv hroot hwrite hprior hscope
      hlands ih =>
    obtain ⟨hbefore, hlater⟩ := Latest.increasing_concat.mp hinc
    have hold := ih hbefore
    obtain ⟨hsurface, hnamed, htime, hid⟩ := createScope_fields hscope
    have hdeclared : Declared env surface scope := by
      rw [henv] at hscope
      exact ⟨hsurface.trans hroot, hid, _, prior, htime ▸ hscope⟩
    have hstored : Throughout (fun t => t.archive.filterMap ArchiveRow.scope? = scopes) s.conn := by
      have hframe := @frames_write _ rt.toConfig rt.clock archiveOnly_scopes (sessionOpenArgs
        rt.toConfig (spawned rt (openedId sessionId uuid) w) (openedId sessionId uuid))
          w.store hold.stored
      rw [hwrite] at hframe
      exact hframe
    have hfresh : ∀ old ∈ s.conn.current.archive.filterMap ArchiveRow.scope?,
        old.scopeId ≠ scope.scopeId := by
      intro old hmem heq
      rw [hstored.current] at hmem
      obtain ⟨-, -, k, p, hcreate⟩ := hold.declared old hmem
      obtain ⟨-, -, k', p', hcreate'⟩ := hdeclared
      exact absurd (timestamp_of_scopeId hinj hcreate hcreate' heq) (ne_of_lt (hlater old hmem))
    have hseal : (Store.sealScope scope s).2 = committed { passFault s with
        conn := s.conn.change (archived (.scope scope)) } := by
      rcases sealArchive_cases (.scope scope) s with ⟨hfault, -⟩ | ⟨-, hfault, -⟩ | ⟨-, -, hrun⟩
      · exact absurd hfault hlands.1
      · exact absurd hfault hlands.2
      · rw [Store.sealScope, hrun]
    rw [(openSession_of_ok hwrite hscope).2, hseal]
    refine ⟨Throughout.commit ?_, ?_, fun new hnew => ?_⟩
    · show (archived (.scope scope) s.conn.current).archive.filterMap ArchiveRow.scope? = _
      rw [filterMap_archived hfresh, hstored.current]
    · have hfor := scopesFor_of_declared hstored.current hold.declared
      rw [Chain.linked_concat]
      exact ⟨hold.linked, hnamed.trans (prior_eq_tip hfor hbefore hprior)⟩
    · rcases List.mem_append.mp hnew with hmem | hmem
      · exact hold.declared new hmem
      · exact List.mem_singleton.mp hmem ▸ hdeclared
  | @refused scopes rt w sessionId uuid prior e s h hwrite ih =>
    have hold := ih hinc
    refine ⟨?_, hold.linked, hold.declared⟩
    rw [openSession_of_error hwrite]
    have hframe := @frames_write _ rt.toConfig rt.clock archiveOnly_scopes (sessionOpenArgs
      rt.toConfig (spawned rt (openedId sessionId uuid) w) (openedId sessionId uuid))
        w.store hold.stored
    rw [hwrite] at hframe
    exact hframe
  | program h hm ih =>
    have hold := ih hinc
    exact ⟨frames_program archiveOnly_scopes hm _ hold.stored, hold.linked, hold.declared⟩
  | reopen h ih =>
    have hold := ih hinc
    exact ⟨⟨hold.stored.durable, hold.stored.durable, fun _ hsp => absurd hsp List.not_mem_nil⟩,
      hold.linked, hold.declared⟩

/-- The scopes of the sessions are one chain in session order: each names the one before it, no two
    name the same, all are stored, and they are listed in session order. -/
structure Linear (surface : String) (scopes : List ProvenanceScope) (s : StoreState) : Prop where
  linked : Chain.Linked ProvenanceScope.scopeId ProvenanceScope.priorScopeId "" scopes
  unshared : (scopes.map ProvenanceScope.priorScopeId).Nodup
  stored : ∀ scope ∈ scopes, scope ∈ scopesFor s.conn.current surface ∧
    scope ∈ scopesFor s.conn.durable surface
  listed : ∀ l, ScopesForAuthority s.conn.current surface l → l = scopes

/-- Linked scopes with distinct ids name distinct predecessors. -/
theorem nodup_priors {scopes : List ProvenanceScope}
    (hlinked : Chain.Linked ProvenanceScope.scopeId ProvenanceScope.priorScopeId "" scopes)
    (hids : (scopes.map ProvenanceScope.scopeId).Nodup)
    (hne : ∀ scope ∈ scopes, scope.scopeId ≠ "") :
    (scopes.map ProvenanceScope.priorScopeId).Nodup := by
  have hpriors : ∀ (xs : List ProvenanceScope) (g : String),
      Chain.Linked ProvenanceScope.scopeId ProvenanceScope.priorScopeId g xs →
        ∀ p ∈ xs.map ProvenanceScope.priorScopeId,
          p ∈ g :: xs.map ProvenanceScope.scopeId := by
    intro xs
    induction xs with
    | nil => exact fun _ _ _ hp => absurd hp List.not_mem_nil
    | cons x xs ih =>
      rintro g ⟨hx, hxs⟩ p hp
      rcases List.mem_cons.mp hp with rfl | hp
      · exact List.mem_cons.mpr (.inl hx)
      · exact List.mem_cons_of_mem g (ih _ hxs p hp)
  -- the ids that are still to come and the one before them are distinct
  have hgeneral : ∀ (xs : List ProvenanceScope) (g : String),
      Chain.Linked ProvenanceScope.scopeId ProvenanceScope.priorScopeId g xs →
        (g :: xs.map ProvenanceScope.scopeId).Nodup →
          (xs.map ProvenanceScope.priorScopeId).Nodup := by
    intro xs
    induction xs with
    | nil => exact fun _ _ _ => List.nodup_nil
    | cons x xs ih =>
      rintro g ⟨hx, hxs⟩ hnodup
      obtain ⟨hg, hrest⟩ := List.nodup_cons.mp hnodup
      refine List.nodup_cons.mpr ⟨fun hmem => hg ?_, ih _ hxs hrest⟩
      exact hx ▸ hpriors xs _ hxs _ hmem
  refine hgeneral scopes "" hlinked (List.nodup_cons.mpr ⟨fun hmem => ?_, hids⟩)
  obtain ⟨scope, hscope, hempty⟩ := List.mem_map.mp hmem
  exact hne scope hscope hempty

/-- The scopes of any sessions form one linear chain exactly when the clock increases from session
    to session. -/
theorem scopes_linear_iff (hinj : Function.Injective env.sha256) (scopes : List ProvenanceScope)
    (s : StoreState) (h : ScopeRun env surface scopes s) :
    Linear surface scopes s ↔ Latest.Increasing ProvenanceScope.timestamp scopes := by
  constructor
  · intro hlinear
    -- the listing reads the archive, which therefore holds the scopes and nothing else
    obtain ⟨l, hl⟩ := @Latest.exists_ordered _ _ _ ProvenanceScope.timestamp
      (scopesFor s.conn.current surface)
    obtain rfl := hlinear.listed l hl
    refine Latest.increasing_of_unique hlinear.unshared.of_map fun l' hl' => ?_
    exact hlinear.listed l' ⟨hl'.1.trans hl.1, hl'.2⟩
  · intro hinc
    have hchained := h.chained hinj hinc
    have hcurrent := scopesFor_of_declared hchained.stored.current hchained.declared
    have hdurable := scopesFor_of_declared hchained.stored.durable hchained.declared
    have hids : (scopes.map ProvenanceScope.scopeId).Nodup := by
      refine List.pairwise_map.mpr (List.Pairwise.imp_of_mem ?_ hinc)
      intro a b ha hb hlt heq
      obtain ⟨-, -, k, p, hcreate⟩ := hchained.declared a ha
      obtain ⟨-, -, k', p', hcreate'⟩ := hchained.declared b hb
      exact absurd (timestamp_of_scopeId hinj hcreate hcreate' heq) (ne_of_lt hlt)
    refine ⟨hchained.linked, nodup_priors hchained.linked hids fun scope hscope =>
      (hchained.declared scope hscope).2.1, fun scope hscope => ?_, fun l hl => ?_⟩
    · rw [hcurrent, hdurable]
      exact ⟨hscope, hscope⟩
    · unfold ScopesForAuthority at hl
      rw [hcurrent] at hl
      exact Latest.ordered_of_increasing hinc hl

/-! ### Sessions at given times -/

/-- A process whose clock shows a time. -/
def processAt (time : String) : Runtime := { sampleRuntime with isoTime := fun _ => time }

/-- A store at rest on which the sessions of some scopes have been opened. -/
structure OpenedAt (scopes : List ProvenanceScope) (s : StoreState) : Prop where
  run : ScopeRun sampleEnv "root" scopes s
  depth : s.txnDepth = 0
  faults : s.faults = []
  stored : Throughout (fun t => t.archive.filterMap ArchiveRow.scope? = scopes) s.conn
  declared : ∀ scope ∈ scopes, Declared sampleEnv "root" scope

theorem openedAt_empty : OpenedAt [] Store.empty := by
  have hstored : Throughout (fun t => t.archive.filterMap ArchiveRow.scope? = [])
      Store.empty.conn := ⟨rfl, rfl, fun _ hsp => absurd hsp List.not_mem_nil⟩
  exact ⟨.start hstored, rfl, rfl, hstored, fun _ hmem => absurd hmem List.not_mem_nil⟩

theorem accepted_sessionOpen (k : Kernel) (sid : String) (built : List String) :
    accepted sampleRuntime.toConfig (ensureDefaultEdgeFor sampleRuntime.toConfig built k.authority)
      (sessionOpenArgs sampleRuntime.toConfig k sid) = true := by
  have hnames : PlainNames ["session_id", "session_dkn", "phase_code", "authority_model_hash",
        "manifest_hash"] ∧
      ∀ name ∈ reservedNames, name ∉ ["session_id", "session_dkn", "phase_code",
        "authority_model_hash", "manifest_hash"] := by decide
  have hwritable : Writable sampleRuntime.toEnv (sessionOpenArgs sampleRuntime.toConfig k sid).parameters :=
    writable_strDict hnames.1 (by simp [writable_str])
  have hsurfaces : isOk (surfaces sampleRuntime.toEnv
      (sessionOpenArgs sampleRuntime.toConfig k sid)) = true := rfl
  exact accepted_strDict hwritable rfl rfl hnames.2 rfl rfl rfl hsurfaces
    (isOk_path_of_no_edges rfl _ _)

/-- One more session, at a time no scope has yet. -/
theorem OpenedAt.session {scopes : List ProvenanceScope} {s : StoreState} (h : OpenedAt scopes s)
    {time prior : String} (hprior : LatestScopeId s.conn.current "root" prior)
    (hfresh : ∀ old ∈ scopes, old.timestamp ≠ time) :
    ∃ scope s', OpenedAt (scopes ++ [scope]) s' ∧ scope.timestamp = time ∧
      scope.priorScopeId = prior := by
  let w : World := { kernel := { mosaicRoot := "root" }, store := s }
  let args := sessionOpenArgs (processAt time).toConfig
    (spawned (processAt time) (openedId (some "s") "") w) (openedId (some "s") "")
  obtain ⟨receipt, s₁, hwrite⟩ := (@write_returns_iff (processAt time).toConfig
    (processAt time).clock args s).mpr ⟨accepted_sessionOpen _ _ _, by
      unfold Quiet
      rw [h.faults]
      simp⟩
  obtain ⟨hdepth, -, hfaults⟩ := write_after hwrite
  rw [h.faults, List.drop_nil] at hfaults
  have hstored : Throughout (fun t => t.archive.filterMap ArchiveRow.scope? = scopes) s₁.conn := by
    have hframe := @frames_write _ (processAt time).toConfig (processAt time).clock
      archiveOnly_scopes args s h.stored
    rw [hwrite] at hframe
    exact hframe
  have hfor (t : Tables) (ht : t.archive.filterMap ArchiveRow.scope? = scopes) :=
    scopesFor_of_declared ht h.declared
  have hprior' : LatestScopeId s₁.conn.current "root" prior := by
    unfold LatestScopeId at hprior ⊢
    rw [hfor _ hstored.current]
    rw [hfor _ h.stored.current] at hprior
    exact hprior
  obtain ⟨scope, hscope⟩ := createScope_ok (processAt time).toEnv
    (spawned (processAt time) (openedId (some "s") "") w) prior time
  have hlands : ¬ Faulty s₁ ∧ ¬ Faulty (passFault s₁) := by
    have hnil : (passFault s₁).faults = [] := by
      unfold passFault
      rw [hfaults]
      rfl
    exact ⟨not_faulty_of_nil hfaults, not_faulty_of_nil hnil⟩
  have hrun : ScopeRun sampleEnv "root" (scopes ++ [scope])
      (openSession (processAt time) (some "s") "" prior w).2.store :=
    .session h.run rfl rfl hwrite hprior' hscope hlands
  obtain ⟨hsurface, hnamed, htime, hid⟩ := createScope_fields hscope
  have hdeclared : Declared sampleEnv "root" scope :=
    ⟨hsurface, hid, _, prior, htime ▸ hscope⟩
  have hnew : ∀ old ∈ s₁.conn.current.archive.filterMap ArchiveRow.scope?,
      old.scopeId ≠ scope.scopeId := by
    intro old hmem heq
    rw [hstored.current] at hmem
    obtain ⟨-, -, k, p, hcreate⟩ := h.declared old hmem
    exact hfresh old hmem (timestamp_of_scopeId sampleHash_injective hcreate hscope heq)
  have hseal : (Store.sealScope scope s₁).2 = committed { passFault s₁ with
      conn := s₁.conn.change (archived (.scope scope)) } := by
    rcases sealArchive_cases (.scope scope) s₁ with ⟨hfault, -⟩ | ⟨-, hfault, -⟩ | ⟨-, -, hseal⟩
    · exact absurd hfault hlands.1
    · exact absurd hfault hlands.2
    · rw [Store.sealScope, hseal]
  have hstore := (@openSession_of_ok _ _ _ "" _ _ _ _ hwrite hscope).2
  refine ⟨scope, _, ⟨hrun, ?_, ?_, ?_, fun new hmem => ?_⟩, htime, hnamed⟩
  · rw [hstore, hseal]
    exact hdepth.trans h.depth
  · rw [hstore, hseal]
    show s₁.faults.tail.tail = []
    rw [hfaults]
    rfl
  · rw [hstore, hseal]
    refine Throughout.commit ?_
    show (archived (.scope scope) s₁.conn.current).archive.filterMap ArchiveRow.scope? = _
    rw [filterMap_archived hnew, hstored.current]
  · rcases List.mem_append.mp hmem with hmem | hmem
    · exact h.declared new hmem
    · exact List.mem_singleton.mp hmem ▸ hdeclared

/-- The scope with the greatest time is the one `latest_scope_id` finds. -/
theorem OpenedAt.latest {scopes : List ProvenanceScope} {s : StoreState} (h : OpenedAt scopes s)
    {scope : ProvenanceScope} (hmem : scope ∈ scopes)
    (hmax : ∀ old ∈ scopes, old.timestamp ≤ scope.timestamp) :
    LatestScopeId s.conn.current "root" scope.scopeId := by
  refine .inr ⟨scope, ?_, rfl⟩
  rw [scopesFor_of_declared h.stored.current h.declared]
  exact ⟨hmem, hmax⟩

theorem OpenedAt.first {s : StoreState} (h : OpenedAt [] s) :
    LatestScopeId s.conn.current "root" "" :=
  .inl ⟨scopesFor_of_declared h.stored.current h.declared, rfl⟩

theorem scopes_linear_sampleSessions : ∃ a b s, ScopeRun sampleEnv "root" [a, b] s ∧
    a.timestamp = "2026-01-01T10:00:01Z" ∧ b.timestamp = "2026-01-01T10:00:02Z" ∧
      Linear "root" [a, b] s := by
  obtain ⟨a, s₁, h₁, hta, -⟩ := @OpenedAt.session _ _ openedAt_empty "2026-01-01T10:00:01Z" _
    openedAt_empty.first (fun _ hmem => absurd hmem List.not_mem_nil)
  obtain ⟨b, s₂, h₂, htb, -⟩ := @OpenedAt.session _ _ h₁ "2026-01-01T10:00:02Z" _
    (h₁.latest (List.mem_singleton_self a) fun old hold => by
      rw [List.mem_singleton.mp hold]) (by simp [hta])
  refine ⟨a, b, s₂, h₂.run, hta, htb, (scopes_linear_iff sampleHash_injective _ _ h₂.run).mpr ?_⟩
  refine List.pairwise_pair.mpr ?_
  rw [hta, htb]
  decide

/-- After a clock that steps back the next session names the same predecessor again. -/
theorem scopes_forked : ∃ a b c s, ScopeRun sampleEnv "root" [a, b, c] s ∧
    a.timestamp = "2026-01-01T10:00:02Z" ∧ b.timestamp = "2026-01-01T10:00:01Z" ∧
      c.timestamp = "2026-01-01T10:00:03Z" ∧ b.priorScopeId = a.scopeId ∧
        c.priorScopeId = a.scopeId ∧ ¬ Linear "root" [a, b, c] s := by
  obtain ⟨a, s₁, h₁, hta, -⟩ := @OpenedAt.session _ _ openedAt_empty "2026-01-01T10:00:02Z" _
    openedAt_empty.first (fun _ hmem => absurd hmem List.not_mem_nil)
  obtain ⟨b, s₂, h₂, htb, hpb⟩ := @OpenedAt.session _ _ h₁ "2026-01-01T10:00:01Z" _
    (h₁.latest (List.mem_singleton_self a) fun old hold => by
      rw [List.mem_singleton.mp hold]) (by simp [hta])
  obtain ⟨c, s₃, h₃, htc, hpc⟩ := @OpenedAt.session _ _ h₂ "2026-01-01T10:00:03Z" _
    (h₂.latest (List.mem_append_left _ (List.mem_singleton_self a)) fun old hold => by
      rcases List.mem_pair.mp hold with rfl | rfl
      · exact le_rfl
      · rw [hta, htb]
        decide) (by simp [hta, htb])
  refine ⟨a, b, c, s₃, h₃.run, hta, htb, htc, hpb, hpc, fun hlinear => ?_⟩
  have hunshared := hlinear.unshared
  rw [List.map_cons, List.map_cons, List.map_cons, hpb, hpc] at hunshared
  simp at hunshared

end Kernel

end Ugk
