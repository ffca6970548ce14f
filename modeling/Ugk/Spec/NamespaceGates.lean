import Ugk.Native.NamespaceOps
import Ugk.Spec.Horizon
import Ugk.Spec.Prune

/-!
# Namespace gates and the fold

A governed call on a name asks its gate, and what it may do is read off the chain; what it did is
read off the chain again by the fold.  The two readings agree but in one case: to the gate of an
owner a caller without an authority owns every name that has no owner.

## Key results

- `foldReceipt_success`: what the fold makes of the receipt of a call
- `namespace_gates`: when a call does what was asked of it, and refuses who is not entitled
-/

namespace Ugk

open Store Kernel

variable {rt : Runtime} {names : NameText}

/-! ## Operations -/

/-- The governed operations on a name, with what they name besides. -/
inductive NameOp where
  | allocate
  | delegate (delegateAuthority : String)
  | revoke
  | invalidate
  | supersede (newOwner : String)
  | adjudicate (awardedOwner : String)

namespace NameOp

/-- The call of the operation. -/
def call (rt : Runtime) (names : NameText) (o : NameOp) (name : String)
    (authority : Option String) : Proc World Exc PyVal :=
  match o with
  | .allocate => Ugk.allocate rt names name authority
  | .delegate delegateAuthority => Ugk.delegate rt names name delegateAuthority authority
  | .revoke => Ugk.revoke rt names name authority
  | .invalidate => Ugk.invalidate rt names name authority
  | .supersede newOwner => Ugk.supersede rt names name newOwner authority
  | .adjudicate awardedOwner => Ugk.adjudicate rt names name awardedOwner authority

/-- The op of its receipt. -/
def op : NameOp → String
  | .allocate => opAllocate
  | .delegate _ => opDelegate
  | .revoke => opRevoke
  | .invalidate => opInvalidate
  | .supersede _ => opSupersede
  | .adjudicate _ => opAdjudicate

/-- The parameters of its receipt beside the name. -/
def more : NameOp → List (String × PyVal)
  | .delegate delegateAuthority => [("delegate_authority", .str delegateAuthority)]
  | .supersede newOwner => [("new_owner", .str newOwner)]
  | .adjudicate awardedOwner => [("awarded_owner", .str awardedOwner)]
  | _ => []

/-- What the operation names besides is there. -/
def complete : NameOp → Bool
  | .delegate delegateAuthority => delegateAuthority != ""
  | .supersede newOwner => newOwner != ""
  | .adjudicate awardedOwner => awardedOwner != ""
  | _ => true

/-- The gate asks whether the caller is the owner. -/
def asksOwner : NameOp → Bool
  | .allocate => false
  | .adjudicate _ => false
  | _ => true

/-- The gate of the call. -/
def gate (rt : Runtime) (names : NameText) (o : NameOp) (k : Kernel) (name : String)
    (authority : Option String) : Proc World Exc Bool :=
  match o with
  | .allocate => allocationGate rt names name
  | .adjudicate awardedOwner => governorGate rt names k.mosaicRoot name awardedOwner authority
  | o => ownerGate rt names name authority o.complete

/-- The arguments of its `execute`. -/
def args (rt : Runtime) (names : NameText) (o : NameOp) (k : Kernel) (name : String)
    (authority : Option String) : ExecuteArgs :=
  namespaceArgs rt names o.op name authority o.more (o.gate rt names k name authority)

theorem call_apply (o : NameOp) (name : String) (authority : Option String) (w : World) :
    o.call rt names name authority w =
      execute rt (o.args rt names w.kernel name authority) w := by
  cases o with
  | adjudicate awardedOwner => exact Proc.bind_of_ok (Proc.get_apply w)
  | _ => rfl

/-- The requester is entitled, by what the fold says about the name. -/
def Permits (o : NameOp) (gov requester : String) (v : NameView) : Prop :=
  match o with
  | .allocate => v.owner = none ∧ v.revoked = false
  | .adjudicate _ => gov ≠ "" ∧ requester = gov ∧ v.revoked = false
  | _ => v.OwnedBy requester

/-- What was asked for: the name as it is to be after a receipt of index `i`. -/
def requested (o : NameOp) (requester name : String) (i : Nat) (v : NameView) : NameView :=
  match o with
  | .allocate => { v with owner := some ⟨.str requester, .str name, i⟩ }
  | .delegate da => { v with
      delegates := if v.delegates.any fun x => x.isStr da then v.delegates
        else v.delegates ++ [.str da] }
  | .revoke => ⟨none, true, []⟩
  | .invalidate => ⟨none, true, []⟩
  | .supersede newOwner => { v with owner := some ⟨.str newOwner, .str name, i⟩, delegates := [] }
  | .adjudicate awardedOwner =>
    { v with owner := some ⟨.str awardedOwner, .str name, i⟩, delegates := [] }

end NameOp

/-! ## The fold of a success receipt -/

/-- What the fold makes of the receipt of a call. -/
def NameOp.folded (env : Env) (o : NameOp) (requester name canon : String) (i : Nat)
    (st : NamespaceState) : NamespaceState :=
  match o with
  | .allocate =>
    if (st.ownerRecord env (.str canon)).isNone && !st.isRevoked env (.str canon) then
      st.setOwner env (.str canon) (.str requester) (.str name) i else st
  | .delegate da => if st.ownedBy env (.str canon) requester && (PyVal.str da).truthy then
      st.addDelegate env (.str canon) (.str da) else st
  | .revoke => if st.ownedBy env (.str canon) requester then st.remove env (.str canon) else st
  | .invalidate => if st.ownedBy env (.str canon) requester then st.remove env (.str canon) else st
  | .supersede newOwner =>
    if st.ownedBy env (.str canon) requester && (PyVal.str newOwner).truthy then
      (st.setOwner env (.str canon) (.str newOwner) (.str name) i).dropDelegates env (.str canon)
    else st
  | .adjudicate awardedOwner =>
    if (PyVal.str awardedOwner).truthy then
      if !st.isRevoked env (.str canon) then
        (st.setOwner env (.str canon) (.str awardedOwner) (.str name) i).dropDelegates env
          (.str canon)
      else st
    else st

/-- The receipt of a call on a name. -/
structure Success (o : NameOp) (requester name canon : String) (r : Receipt) : Prop where
  op : r.op = o.op
  authority : r.authority = requester
  failed : r.failed = false
  parameters : ∃ d, r.parameters = .dict d ∧ PyDict.get d "canonical" = .str canon ∧
    d.lookup (.str "name") = some (.str name) ∧ ∀ kv ∈ o.more, PyDict.get d kv.1 = kv.2

theorem truthy_str {s : String} : (PyVal.str s).truthy = true ↔ s ≠ "" := by
  simp [PyVal.truthy]

theorem foldReceipt_success {env : Env} {o : NameOp} {requester name canon : String} {r : Receipt}
    (h : Success o requester name canon r) (hne : canon ≠ "") (i : Nat) (st : NamespaceState) :
    foldReceipt env names i r st = .ok (o.folded env requester name canon i st) := by
  obtain ⟨d, hd, hcanon, hname, hmore⟩ := h.parameters
  have hparams : receiptParams env r = .ok d := by rw [receiptParams, hd]
  have hkey : canonParam env names d = .str canon := by
    rw [canonParam, hcanon, if_pos (truthy_str.mpr hne)]
  have hnm : nameParam d = .str name := by rw [nameParam, hname]; rfl
  rw [foldReceipt, h.failed, hparams]
  simp only [Bool.false_eq_true, if_false, hkey, truthy_str.mpr hne, Bool.not_true, h.op]
  cases o with
  | allocate =>
    simp only [NameOp.op, if_true, foldAllocate, hashed, PyVal.unhashable, h.authority, hnm,
      NameOp.folded]
    rfl
  | delegate da =>
    have hda : PyDict.get d "delegate_authority" = .str da := hmore _ List.mem_cons_self
    simp [NameOp.op, opDelegate, opAllocate, foldDelegate, hashed, PyVal.unhashable, h.authority,
      hda, NameOp.folded]
  | revoke =>
    simp [NameOp.op, opDelegate, opAllocate, opRevoke, foldRemove, hashed, PyVal.unhashable,
      h.authority, NameOp.folded]
  | invalidate =>
    simp [NameOp.op, opDelegate, opAllocate, opRevoke, opInvalidate, foldRemove, hashed,
      PyVal.unhashable, h.authority, NameOp.folded]
  | supersede newOwner =>
    have hnew : PyDict.get d "new_owner" = .str newOwner := hmore _ List.mem_cons_self
    simp [NameOp.op, opDelegate, opAllocate, opRevoke, opInvalidate, opSupersede, foldSupersede,
      hashed, PyVal.unhashable, h.authority, hnew, hnm, NameOp.folded]
  | adjudicate awardedOwner =>
    have haward : PyDict.get d "awarded_owner" = .str awardedOwner := hmore _ List.mem_cons_self
    simp only [NameOp.op, opDelegate, opAllocate, opRevoke, opInvalidate, opSupersede, opAdjudicate,
      foldAdjudicate, hashed, PyVal.unhashable, haward, hnm, NameOp.folded]
    by_cases ha : (PyVal.str awardedOwner).truthy = true
    · simp [ha]
    · simp [ha]

section Folded

variable {env : Env} {o : NameOp} {gov requester name canon : String} {i : Nat}
  {st : NamespaceState}

/-- An entitled requester gets what was asked for. -/
theorem view_folded_self (hcomplete : o.complete = true)
    (h : o.Permits gov requester (st.view env canon)) :
    (o.folded env requester name canon i st).view env canon =
      o.requested requester name i (st.view env canon) := by
  cases o with
  | allocate =>
    obtain ⟨hown, hrev⟩ := h
    have hguard : ((st.ownerRecord env (.str canon)).isNone &&
        !st.isRevoked env (.str canon)) = true := by
      rw [show st.ownerRecord env (.str canon) = none from hown,
        show st.isRevoked env (.str canon) = false from hrev]
      rfl
    rw [NameOp.folded, if_pos hguard, view_setOwner_self, NameOp.requested]
  | delegate da =>
    have hda : (PyVal.str da).truthy = true := truthy_str.mpr (by simpa [NameOp.complete] using hcomplete)
    have hsame (x : PyVal) : containerEq env x (.str da) = x.isStr da := by
      rw [Bool.eq_iff_iff, isStr_iff]
      exact (exact_str da).left x
    rw [NameOp.folded, if_pos (by rw [ownedBy_iff.mpr h, hda]; rfl), view_addDelegate_self,
      NameOp.requested]
    simp only [hsame]
    rfl
  | revoke => rw [NameOp.folded, if_pos (ownedBy_iff.mpr h), view_remove_self, NameOp.requested]
  | invalidate =>
    rw [NameOp.folded, if_pos (ownedBy_iff.mpr h), view_remove_self, NameOp.requested]
  | supersede newOwner =>
    have hnew : (PyVal.str newOwner).truthy = true :=
      truthy_str.mpr (by simpa [NameOp.complete] using hcomplete)
    rw [NameOp.folded, if_pos (by rw [ownedBy_iff.mpr h, hnew]; rfl), view_dropDelegates_self,
      view_setOwner_self, NameOp.requested]
  | adjudicate awardedOwner =>
    obtain ⟨_, _, hrev⟩ := h
    have haward : (PyVal.str awardedOwner).truthy = true :=
      truthy_str.mpr (by simpa [NameOp.complete] using hcomplete)
    have hguard : (!st.isRevoked env (.str canon)) = true := by
      rw [show st.isRevoked env (.str canon) = false from hrev]
      rfl
    rw [NameOp.folded, if_pos haward, if_pos hguard, view_dropDelegates_self, view_setOwner_self,
      NameOp.requested]

/-- The other names stay as they were. -/
theorem view_folded_of_ne {other : String} (hne : other ≠ canon) :
    (o.folded env requester name canon i st).view env other = st.view env other := by
  have hkey : PyVal.str canon ≠ .str other := fun h => hne (PyVal.str.inj h).symm
  cases o with
  | allocate =>
    rw [NameOp.folded]
    split
    · exact view_setOwner_of_ne hkey ..
    · rfl
  | delegate da =>
    rw [NameOp.folded]
    split
    · exact view_addDelegate_of_ne hkey _
    · rfl
  | revoke =>
    rw [NameOp.folded]
    split
    · exact view_remove_of_ne hkey
    · rfl
  | invalidate =>
    rw [NameOp.folded]
    split
    · exact view_remove_of_ne hkey
    · rfl
  | supersede newOwner =>
    rw [NameOp.folded]
    split
    · rw [view_dropDelegates_of_ne hkey, view_setOwner_of_ne hkey]
    · rfl
  | adjudicate awardedOwner =>
    rw [NameOp.folded]
    split
    · split
      · rw [view_dropDelegates_of_ne hkey, view_setOwner_of_ne hkey]
      · rfl
    · rfl

/-- A requester who does not own the name changes nothing. -/
theorem folded_of_not_owned (hasks : o.asksOwner = true)
    (h : ¬(st.view env canon).OwnedBy requester) :
    o.folded env requester name canon i st = st := by
  have hno : st.ownedBy env (.str canon) requester = false := by
    rw [Bool.eq_false_iff]
    exact fun hown => h (ownedBy_iff.mp hown)
  cases o with
  | allocate => exact nomatch hasks
  | adjudicate awardedOwner => exact nomatch hasks
  | delegate da => rw [NameOp.folded, hno]; rfl
  | revoke => rw [NameOp.folded, hno]; rfl
  | invalidate => rw [NameOp.folded, hno]; rfl
  | supersede newOwner => rw [NameOp.folded, hno]; rfl

end Folded

/-! ## The gates -/

/-- The fold gives every name it knows an owner that is there. -/
theorem owner_of_project {env : Env} {rs : List Receipt} {st : NamespaceState}
    (h : project env names rs = .ok st) : ∀ cur ∈ st.owners.map Prod.snd, cur.owner ≠ .none := by
  induction rs using List.reverseRecOn generalizing st with
  | nil =>
    obtain rfl := Except.ok.inj h
    intro cur hcur
    exact absurd hcur List.not_mem_nil
  | append_singleton rs r ih =>
    rw [project_concat] at h
    obtain ⟨st₀, hst₀, hfold⟩ := Except.bind_eq_ok h
    have hold := ih hst₀
    have hput {canon owner nm : PyVal} {i : Nat} (howner : owner ≠ .none) :
        ∀ cur ∈ (st₀.setOwner env canon owner nm i).owners.map Prod.snd, cur.owner ≠ .none := by
      intro cur hcur
      rcases KeyTable.values_put _ _ _ hcur with hcur | rfl
      · exact hold cur hcur
      · exact howner
    have htruthy {v : PyVal} (hv : v.truthy = true) : v ≠ .none := by
      rintro rfl
      exact nomatch hv
    rcases foldReceipt_ok hfold with rfl | ⟨d, canon, _, _, _, _, hguard, hact⟩
    · exact hold
    rcases hact with ⟨_, rfl⟩ | ⟨_, rfl⟩ | ⟨_, rfl⟩ | ⟨hop, rfl⟩ | ⟨hop, rfl⟩
    · exact hput (by simp)
    · exact hold
    · exact fun cur hcur => hold cur (KeyTable.values_drop _ _ hcur)
    · refine hput (htruthy ?_)
      rw [guardHolds, hop] at hguard
      simp [opAllocate, opDelegate, opRevoke, opInvalidate, opSupersede] at hguard
      exact hguard.2
    · refine hput (htruthy ?_)
      rw [guardHolds, hop] at hguard
      simp [opAllocate, opDelegate, opRevoke, opInvalidate, opSupersede, opAdjudicate] at hguard
      exact hguard.1

/-- A gate looks at the world and leaves it alone. -/
theorem gate_world (o : NameOp) (k : Kernel) (name : String) (authority : Option String)
    (w : World) : (o.gate rt names k name authority w).2 = w := by
  cases o <;> rfl

/-- To the gate of the owner a caller without an authority owns what nobody owns. -/
theorem pyEq_owner_iff {env : Env} {st : NamespaceState} {canon : String}
    {authority : Option String} (howners : ∀ cur ∈ st.owners.map Prod.snd, cur.owner ≠ .none) :
    pyEq env (match st.ownerRecord env (.str canon) with
      | some cur => cur.owner
      | none => .none) (.ofOpt authority) = true ↔
    (∃ s, authority = some s ∧ (st.view env canon).OwnedBy s) ∨
      (authority = none ∧ (st.view env canon).owner = none) := by
  have hview : (st.view env canon).owner = st.ownerRecord env (.str canon) := rfl
  unfold NameView.OwnedBy
  rw [hview]
  cases hcur : st.ownerRecord env (.str canon) with
  | none => cases authority <;> simp [PyVal.ofOpt, pyEq, PyVal.num?]
  | some cur =>
    have hne : cur.owner ≠ .none := howners cur (KeyTable.mem_of_get hcur)
    cases authority with
    | none =>
      have hfalse : pyEq env cur.owner .none = false := by
        cases howner : cur.owner <;> simp_all [pyEq, PyVal.num?]
      simp [PyVal.ofOpt, hfalse]
    | some s =>
      have hstr : pyEq env cur.owner (.str s) = true ↔ cur.owner = .str s := by
        cases howner : cur.owner <;> simp [pyEq, PyVal.num?]
      simp [PyVal.ofOpt, hstr]

theorem ownerOfWorld_eq (w : World) (name : String) : ownerOfWorld rt names w name =
    (projectWorld rt names w).map fun st =>
      match st.ownerRecord rt.toEnv (.str (canonOf rt names name)) with
      | some cur => cur.owner
      | none => .none := by
  unfold ownerOfWorld projectWorld ownerOf canonOf
  cases allReceipts rt.toEnv (rows w.store) <;> rfl

theorem owners_of_projectWorld {w : World} {st : NamespaceState}
    (h : projectWorld rt names w = .ok st) : ∀ cur ∈ st.owners.map Prod.snd, cur.owner ≠ .none := by
  obtain ⟨receipts, _, h⟩ := Except.bind_eq_ok h
  exact owner_of_project h

/-- The gate of an owner lets the call pass. -/
theorem ownerGate_iff {name : String} {authority : Option String} {argument : Bool} {w : World} :
    (ownerGate rt names name authority argument w).1 = .ok true ↔
      canonOf rt names name ≠ "" ∧ argument = true ∧ ∃ st, projectWorld rt names w = .ok st ∧
        ((∃ s, authority = some s ∧ (st.view rt.toEnv (canonOf rt names name)).OwnedBy s) ∨
          (authority = none ∧ (st.view rt.toEnv (canonOf rt names name)).owner = none)) := by
  unfold ownerGate readGate
  dsimp only
  by_cases hshape : canonOf rt names name = "" ∨ argument = false
  · rw [if_pos hshape]
    constructor
    · intro h
      exact nomatch h
    · rintro ⟨hne, harg, _⟩
      rcases hshape with hempty | hfalse
      · exact absurd hempty hne
      · exact absurd (harg.symm.trans hfalse) (by decide)
  · rw [if_neg hshape, ownerOfWorld_eq]
    have hne : canonOf rt names name ≠ "" := fun h => hshape (.inl h)
    have harg : argument = true := by
      cases argument with
      | true => rfl
      | false => exact absurd (.inr rfl) hshape
    cases hst : projectWorld rt names w with
    | error e =>
      constructor
      · intro h
        exact nomatch h
      · rintro ⟨_, _, _, h, _⟩
        exact nomatch h
    | ok st =>
      have hiff := @pyEq_owner_iff rt.toEnv st (canonOf rt names name) authority
        (owners_of_projectWorld hst)
      constructor
      · intro h
        exact ⟨hne, harg, st, rfl, hiff.mp (Except.ok.inj h)⟩
      · rintro ⟨_, _, st', hst', h⟩
        obtain rfl := Except.ok.inj hst'
        exact congrArg Except.ok (hiff.mpr h)

theorem allocationGate_fst (name : String) (w : World) : (allocationGate rt names name w).1 =
    if canonOf rt names name = "" then .ok false
    else projectWorld rt names w >>= fun st =>
      .ok ((st.ownerRecord rt.toEnv (.str (canonOf rt names name))).isNone &&
        !st.isRevoked rt.toEnv (.str (canonOf rt names name))) := by
  unfold allocationGate readGate
  dsimp only

theorem governorGate_fst (gov name awardedOwner : String) (authority : Option String) (w : World) :
    (governorGate rt names gov name awardedOwner authority w).1 =
    if canonOf rt names name = "" ∨ awardedOwner = "" then .ok false
    else if gov = "" ∨ authority ≠ some gov then .ok false
    else projectWorld rt names w >>= fun st =>
      .ok (!st.isRevoked rt.toEnv (.str (canonOf rt names name))) := by
  unfold governorGate readGate
  dsimp only

/-- What a gate that lets a call pass has seen. -/
theorem gate_true {o : NameOp} {k : Kernel} {name : String} {authority : Option String} {w : World}
    (h : (o.gate rt names k name authority w).1 = .ok true) :
    canonOf rt names name ≠ "" ∧ o.complete = true ∧ ∃ st, projectWorld rt names w = .ok st ∧
      (o.Permits k.mosaicRoot (authority.getD k.authority)
          (st.view rt.toEnv (canonOf rt names name)) ∨
        (o.asksOwner = true ∧ authority = none ∧
          (st.view rt.toEnv (canonOf rt names name)).owner = none)) := by
  have howner (hgate : (ownerGate rt names name authority o.complete w).1 = .ok true)
      (hasks : o.asksOwner = true)
      (hpermits : ∀ v, v.OwnedBy (authority.getD k.authority) →
        o.Permits k.mosaicRoot (authority.getD k.authority) v) :
      canonOf rt names name ≠ "" ∧ o.complete = true ∧ ∃ st, projectWorld rt names w = .ok st ∧
        (o.Permits k.mosaicRoot (authority.getD k.authority)
            (st.view rt.toEnv (canonOf rt names name)) ∨
          (o.asksOwner = true ∧ authority = none ∧
            (st.view rt.toEnv (canonOf rt names name)).owner = none)) := by
    obtain ⟨hne, hcomplete, st, hst, hcase⟩ := ownerGate_iff.mp hgate
    refine ⟨hne, hcomplete, st, hst, ?_⟩
    rcases hcase with ⟨s, rfl, hown⟩ | ⟨hnone, hown⟩
    · exact .inl (hpermits _ hown)
    · exact .inr ⟨hasks, hnone, hown⟩
  cases o with
  | allocate =>
    have h : (allocationGate rt names name w).1 = .ok true := h
    rw [allocationGate_fst] at h
    by_cases hempty : canonOf rt names name = ""
    · rw [if_pos hempty] at h
      exact nomatch h
    · rw [if_neg hempty] at h
      obtain ⟨st, hst, h⟩ := Except.bind_eq_ok h
      have hguard := Bool.and_eq_true_iff.mp (Except.ok.inj h)
      refine ⟨hempty, rfl, st, hst, .inl ⟨?_, ?_⟩⟩
      · exact Option.isNone_iff_eq_none.mp hguard.1
      · show st.isRevoked rt.toEnv _ = false
        simpa using hguard.2
  | adjudicate awardedOwner =>
    have h : (governorGate rt names k.mosaicRoot name awardedOwner authority w).1 = .ok true := h
    rw [governorGate_fst] at h
    by_cases hshape : canonOf rt names name = "" ∨ awardedOwner = ""
    · rw [if_pos hshape] at h
      exact nomatch h
    · rw [if_neg hshape] at h
      by_cases hgov : k.mosaicRoot = "" ∨ authority ≠ some k.mosaicRoot
      · rw [if_pos hgov] at h
        exact nomatch h
      · rw [if_neg hgov] at h
        rw [not_or, ne_eq, not_not] at hgov
        obtain ⟨st, hst, h⟩ := Except.bind_eq_ok h
        refine ⟨fun hempty => hshape (.inl hempty), ?_, st, hst, .inl ⟨hgov.1, ?_, ?_⟩⟩
        · rw [NameOp.complete, bne_iff_ne]
          exact fun hempty => hshape (.inr hempty)
        · rw [hgov.2]
          rfl
        · show st.isRevoked rt.toEnv _ = false
          simpa using Except.ok.inj h
  | delegate da => exact howner h rfl fun _ hv => hv
  | revoke => exact howner h rfl fun _ hv => hv
  | invalidate => exact howner h rfl fun _ hv => hv
  | supersede newOwner => exact howner h rfl fun _ hv => hv

/-! ## The projection along a call -/

/-- One more row is one more step of the fold. -/
theorem projectWorld_append {w w' : World} {row : Row} {read : Receipt}
    (hrows : rows w'.store = rows w.store ++ [row])
    (hread : rowToReceipt rt.toEnv row = .ok read) :
    projectWorld rt names w' = projectWorld rt names w >>= fun st =>
      foldReceipt rt.toEnv names (rows w.store).length read st := by
  unfold projectWorld
  rw [hrows, allReceipts_append _ hread]
  cases hall : allReceipts rt.toEnv (rows w.store) with
  | error e => rfl
  | ok receipts =>
    have hlen : receipts.length = (rows w.store).length := by
      have hids := congrArg List.length (ids_of_allReceipts hall)
      rwa [List.length_map, List.length_map] at hids
    show project rt.toEnv names (receipts ++ [read]) = _
    rw [project_concat, hlen]
    rfl

theorem projectWorld_congr {w w' : World} (h : rows w'.store = rows w.store) :
    projectWorld rt names w' = projectWorld rt names w := by
  unfold projectWorld
  rw [h]

/-- A write whose row the fold passes over leaves the projection alone, however it ends. -/
theorem projectWorld_write {a : WriteArgs} {w w' : World}
    (hstore : w'.store = (Store.write rt.toConfig rt.clock a w.store).2)
    (hskip : ∀ row read, ReadsAs rt.toConfig a row read → ∀ i st,
      foldReceipt rt.toEnv names i read st = .ok st) :
    projectWorld rt names w' = projectWorld rt names w := by
  rcases @rows_of_write rt.toConfig rt.clock a w.store with hrows | ⟨row, read, hrows, hread⟩
  · exact projectWorld_congr (by rw [hstore, hrows])
  · have hrows' : rows w'.store = rows w.store ++ [row] := by rw [hstore, hrows]
    rw [projectWorld_append hrows' hread.reads]
    cases projectWorld rt names w with
    | error e => rfl
    | ok st => exact hskip row read hread _ st

theorem projectWorld_rejected {w w' : World} (h : Rejected rt w w') :
    projectWorld rt names w' = projectWorld rt names w := by
  rcases h.store with hsame | ⟨a, hnote, hstore⟩
  · exact projectWorld_congr (by rw [hsame])
  · exact projectWorld_write hstore fun row read hread i st =>
      foldReceipt_of_failed (hread.failed.trans hnote.failed) i st

theorem skip_admit {k : Kernel} {a : ExecuteArgs} {authority : String} {parameters : PyDict}
    {row : Row} {read : Receipt}
    (h : ReadsAs rt.toConfig (admitArgs k a authority parameters) row read) (i : Nat)
    (st : NamespaceState) : foldReceipt rt.toEnv names i read st = .ok st := by
  obtain ⟨_, q, _, _, hq⟩ := h.parameters
  have hexpand : expand rt.toEnv "gate_admit" = "gate_admit" := rfl
  have hop : read.op = "gate_admit" := (show read.op = expand rt.toEnv "gate_admit" from h.op).trans
    hexpand
  exact foldReceipt_of_other (by rw [hop]; decide) ⟨q, hq⟩ i st

/-! ## Calls -/

section Call

variable {o : NameOp} {name requester : String} {authority : Option String} {k : Kernel}
  {w : World} {parameters : PyDict}

/-- The parameters of a call. -/
def namedParams (rt : Runtime) (names : NameText) (o : NameOp) (name : String) :
    List (String × PyVal) :=
  [("name", .str name), ("canonical", .str (canonOf rt names name))] ++ o.more

theorem keys_named {key : String} (h : key ∈ (namedParams rt names o name).map Prod.fst) :
    key ∈ ["name", "canonical", "delegate_authority", "new_owner", "awarded_owner"] := by
  rw [namedParams, List.map_append, List.mem_append] at h
  rcases h with h | h
  · exact List.mem_append_left ["delegate_authority", "new_owner", "awarded_owner"] h
  · cases o <;> simp_all [NameOp.more]

/-- The names of the parameters differ from one another and from those `write` looks for. -/
theorem nodup_named {extra : List String} (hextra : ∀ key ∈ extra, key = "op_csil")
    (hone : extra.Nodup) : ((namedParams rt names o name).map Prod.fst ++ extra).Nodup ∧
      ∀ key ∈ reservedNames, key ∉ (namedParams rt names o name).map Prod.fst ++ extra := by
  have hreserved : ∀ key ∈ reservedNames, key ∉
      ["name", "canonical", "delegate_authority", "new_owner", "awarded_owner", "op_csil"] := by
    decide
  refine ⟨List.nodup_append.mpr ⟨?_, hone, ?_⟩, ?_⟩
  · cases o <;> simp [namedParams, NameOp.more]
  · rintro key hkey _ hkey' rfl
    rw [hextra _ hkey'] at hkey
    exact absurd (keys_named hkey) (by decide)
  · intro key hkey h
    refine hreserved key hkey ?_
    rcases List.mem_append.mp h with h | h
    · exact List.mem_append_left ["op_csil"] (keys_named h)
    · rw [hextra _ h]
      decide

theorem expand_op (env : Env) (o : NameOp) : expand env o.op = o.op := by
  have hops : ∀ op ∈ [opAllocate, opDelegate, opRevoke, opInvalidate, opSupersede, opAdjudicate],
      expand env op = op := by
    simp only [List.forall_mem_cons, List.not_mem_nil, false_implies, implies_true, and_true]
    exact ⟨rfl, rfl, rfl, rfl, rfl, rfl⟩
  refine hops _ ?_
  cases o <;> simp [NameOp.op]

/-- What the preflight makes of a call. -/
theorem preflight_named
    (h : preflight rt.toEnv k (o.args rt names k name authority) = .ok (requester, parameters)) :
    requester = authority.getD k.authority ∧
      .dict parameters = strDict (namedParams rt names o name) := by
  obtain ⟨found, hauth, h⟩ := Except.bind_eq_ok h
  obtain ⟨d, hparams, h⟩ := Except.bind_eq_ok h
  obtain ⟨_, _, h⟩ := Except.bind_eq_ok h
  obtain ⟨_, _, h⟩ := Except.bind_eq_ok h
  obtain ⟨_, _, h⟩ := Except.bind_eq_ok h
  obtain ⟨rfl, rfl⟩ := Prod.mk.inj (Except.ok.inj h)
  constructor
  · cases authority with
    | none => exact (Except.ok.inj hauth).symm
    | some s =>
      change (if s = "" then Except.error _ else Except.ok s) = Except.ok found at hauth
      split at hauth
      · exact nomatch hauth
      · exact (Except.ok.inj hauth).symm
  · obtain ⟨d', hd', h⟩ := Except.bind_eq_ok hparams
    obtain rfl := Except.ok.inj hd'
    dsimp only at h
    split at h
    · exact nomatch h
    · obtain ⟨_, _, h⟩ := Except.bind_eq_ok h
      rw [← Except.ok.inj h]
      rfl

/-- The receipt a call leaves when it is written. -/
theorem success_of_readsAs {ref : String} {row : Row} {read : Receipt}
    (hparams : .dict parameters = strDict (namedParams rt names o name))
    (h : ReadsAs rt.toConfig
      (plainArgs k (o.args rt names k name authority) requester parameters ref) row read) :
    Success o requester name (canonOf rt names name) read := by
  -- `op_csil` may have joined the parameters
  have hextra : ∃ extra : List (String × PyVal), (∀ key ∈ extra.map Prod.fst, key = "op_csil") ∧
      (extra.map Prod.fst).Nodup ∧
      PyVal.dict (outcomeParams k (o.args rt names k name authority) parameters) =
        strDict (namedParams rt names o name ++ extra) := by
    rw [outcomeParams]
    have hset : sequence? (o.args rt names k name authority).authoritySet = none := rfl
    rw [hset]
    have hplain : PyVal.dict parameters = strDict (namedParams rt names o name ++ []) := by
      rw [List.append_nil]
      exact hparams
    cases k.opCsilRegistry.lookup (o.args rt names k name authority).op with
    | none => exact ⟨[], by simp, by simp, hplain⟩
    | some n =>
      dsimp only
      split
      · exact ⟨[], by simp, by simp, hplain⟩
      · refine ⟨[("op_csil", .int n)], by simp, by simp, ?_⟩
        rw [PyVal.dict.inj hparams, PyDict.set_of_not_mem, strDict, List.map_append]
        · rfl
        · intro hmem
          obtain ⟨kv, hkv, heq⟩ := List.mem_map.mp hmem
          obtain ⟨kv', hkv', rfl⟩ := List.mem_map.mp hkv
          have hkey : kv'.1 = "op_csil" := PyKey.str.inj heq
          exact absurd (keys_named (List.mem_map_of_mem hkv')) (by rw [hkey]; decide)
  obtain ⟨extra, hcsil, hone, hdict⟩ := hextra
  obtain ⟨hnodup, hreserved⟩ := @nodup_named rt names o name _ hcsil hone
  rw [← List.map_append] at hnodup hreserved
  obtain ⟨q, hq, hlookup⟩ := h.lookup hreserved hnodup hdict rfl
  have hmem {key v : String} (hin : (key, PyVal.str v) ∈ namedParams rt names o name) :
      q.lookup (.str key) = some (.str v) :=
    hlookup key (.str v) (.str v) (List.mem_append_left _ hin) rfl
  refine ⟨?_, h.authority, h.failed, q, hq, ?_, hmem (by simp [namedParams]), ?_⟩
  · exact (show read.op = expand rt.toEnv o.op from h.op).trans (expand_op _ o)
  · have hcanon : q.lookup (.str "canonical") = some (.str (canonOf rt names name)) :=
      hmem (by simp [namedParams])
    rw [PyDict.get, hcanon]
    rfl
  · intro kv hkv
    obtain ⟨s, hs⟩ : ∃ s, kv.2 = .str s := by
      cases o <;> simp_all [NameOp.more]
    obtain ⟨key, v⟩ := kv
    obtain rfl := hs
    rw [PyDict.get, hmem (List.mem_append_right _ hkv)]
    rfl

/-- The parameters as a dictionary. -/
def namedDict (rt : Runtime) (names : NameText) (o : NameOp) (name : String) : PyDict :=
  (namedParams rt names o name).map fun kv => (.str kv.1, kv.2)

/-- The arguments of the admission of a call. -/
def NameOp.admission (rt : Runtime) (names : NameText) (o : NameOp) (k : Kernel) (name : String)
    (authority : Option String) : WriteArgs :=
  admitArgs k (o.args rt names k name authority) (authority.getD k.authority)
    (namedDict rt names o name)

/-- The arguments of its success receipt. -/
def NameOp.record (rt : Runtime) (names : NameText) (o : NameOp) (k : Kernel) (name : String)
    (authority : Option String) (ref : String) : WriteArgs :=
  plainArgs k (o.args rt names k name authority) (authority.getD k.authority)
    (namedDict rt names o name) ref

/-- Nothing but the gate stands between the call and its receipts, which carry the intent
    reference `ref`. -/
structure Open (rt : Runtime) (names : NameText) (o : NameOp) (name : String)
    (authority : Option String) (w : World) (ref : String) : Prop where
  /-- the authority and the parameters can be written -/
  preflight : Kernel.preflight rt.toEnv w.kernel (o.args rt names w.kernel name authority) =
    .ok (authority.getD w.kernel.authority, namedDict rt names o name)
  /-- the op is declared, its tier is open and the authority model asks for no warrant -/
  static : staticOk rt w.kernel (o.args rt names w.kernel name authority)
    (namedDict rt names o name) = true
  /-- the intent store covers it -/
  covered : Kernel.coverage w (o.args rt names w.kernel name authority) = some ref
  /-- the store accepts both receipts -/
  admits : accepted rt.toConfig
    (ensureDefaultEdgeFor rt.toConfig w.store.built (authority.getD w.kernel.authority))
    (o.admission rt names w.kernel name authority) = true
  records : accepted rt.toConfig
    (ensureDefaultEdgeFor rt.toConfig w.store.built (authority.getD w.kernel.authority))
    (o.record rt names w.kernel name authority ref) = true
  /-- the database fails neither of the two writes -/
  quiet : Quiet (statements w.store + statements w.store) w.store

/-- A call that passes everything before its admission. -/
theorem passes_named {ref : String} {w₁ : World}
    (h : Passes rt (o.args rt names w.kernel name authority) w requester parameters ref w₁) :
    w₁ = w ∧ (o.gate rt names w.kernel name authority w).1 = .ok true ∧
      requester = authority.getD w.kernel.authority ∧
      parameters = namedDict rt names o name := by
  have hgate : o.gate rt names w.kernel name authority w = (.ok true, w₁) := h.gate
  obtain ⟨hrequester, hparams⟩ := preflight_named h.preflight
  refine ⟨?_, congrArg Prod.fst hgate, hrequester, PyVal.dict.inj hparams⟩
  rw [← gate_world o w.kernel name authority w, hgate]

/-- The two writes of a call return exactly when it is open. -/
theorem writes_return_iff {a : WriteArgs} {s : StoreState} {a' : WriteArgs}
    (hauthority : a'.authority = a.authority) :
    (∃ r s₁ r' s₂, Store.write rt.toConfig rt.clock a s = (.ok r, s₁) ∧
      Store.write rt.toConfig rt.clock a' s₁ = (.ok r', s₂)) ↔
    accepted rt.toConfig (ensureDefaultEdgeFor rt.toConfig s.built a.authority) a = true ∧
      accepted rt.toConfig (ensureDefaultEdgeFor rt.toConfig s.built a.authority) a' = true ∧
      Quiet (statements s + statements s) s := by
  have hsecond {r : Receipt} {s₁ : StoreState}
      (h : Store.write rt.toConfig rt.clock a s = (.ok r, s₁)) :
      (∃ r' s₂, Store.write rt.toConfig rt.clock a' s₁ = (.ok r', s₂)) ↔
        accepted rt.toConfig (ensureDefaultEdgeFor rt.toConfig s.built a.authority) a' = true ∧
          Quiet (statements s) s₁ := by
    obtain ⟨hdepth, hbuilt, _⟩ := write_after h
    have hstatements : statements s₁ = statements s := by rw [statements, statements, hdepth]
    rw [write_returns_iff, hauthority, hbuilt, ensureDefaultEdgeFor_idem, hstatements]
  constructor
  · rintro ⟨r, s₁, r', s₂, h₁, h₂⟩
    obtain ⟨hacc, hquiet⟩ := write_returns_iff.mp ⟨r, s₁, h₁⟩
    obtain ⟨hacc', hquiet'⟩ := (hsecond h₁).mp ⟨r', s₂, h₂⟩
    exact ⟨hacc, hacc', (quiet_add (write_after h₁).2.2).mpr ⟨hquiet, hquiet'⟩⟩
  · rintro ⟨hacc, hacc', hquiet⟩
    have hfirst : Quiet (statements s) s := by
      intro b hb
      exact hquiet b (List.take_subset_take_left _ (Nat.le_add_right _ _) hb)
    obtain ⟨r, s₁, h₁⟩ := (@write_returns_iff _ rt.clock _ _).mpr ⟨hacc, hfirst⟩
    have hrest := ((quiet_add (write_after h₁).2.2).mp hquiet).2
    obtain ⟨r', s₂, h₂⟩ := (hsecond h₁).mpr ⟨hacc', hrest⟩
    exact ⟨r, s₁, r', s₂, h₁, h₂⟩

/-- How a call ends: it raises and the projection is what it was, or the gate has let it pass and
    its receipt is there to be folded; it returns only when it was open. -/
theorem call_cases (o : NameOp) (name : String) (authority : Option String) (w : World) :
    (∃ e w', o.call rt names name authority w = (.error e, w') ∧
      projectWorld rt names w' = projectWorld rt names w) ∨
    ((o.gate rt names w.kernel name authority w).1 = .ok true ∧
      ∃ result w' read, o.call rt names name authority w = (result, w') ∧
        Success o (authority.getD w.kernel.authority) name (canonOf rt names name) read ∧
        (projectWorld rt names w' = projectWorld rt names w >>= fun st =>
          foldReceipt rt.toEnv names ((rows w.store).length + 1) read st) ∧
        (∀ v, result = .ok v → ∃ ref, Open rt names o name authority w ref)) := by
  rw [NameOp.call_apply]
  rcases execute_cases rt (o.args rt names w.kernel name authority) w with
    ⟨requester, parameters, ref, w₁, hpasses⟩ | ⟨e, w', hrun, hrejected⟩
  · obtain ⟨rfl, hgate, rfl, rfl⟩ := passes_named hpasses
    rw [hpasses.execute_eq]
    cases hadmission : Store.write rt.toConfig rt.clock
        (o.admission rt names w₁.kernel name authority) w₁.store with
    | mk admission s =>
      -- the admission is no step of the fold
      have hstore : s = (Store.write rt.toConfig rt.clock
          (o.admission rt names w₁.kernel name authority) w₁.store).2 := by rw [hadmission]
      have hproject : projectWorld rt names { w₁ with store := s } = projectWorld rt names w₁ :=
        projectWorld_write hstore fun row read hread => skip_admit hread
      cases admission with
      | error e => exact .inl ⟨e, _, admitted_of_not_admitted _ hadmission, hproject⟩
      | ok receipt =>
        have hplain := @admitted_plain rt _ _ _ ref _ (governingModel w₁.kernel o.op) _ rfl rfl _
          hadmission
        obtain ⟨_, _, hrows, _, _⟩ := rows_of_write_ok hadmission
        have hlen : (rows s).length = (rows w₁.store).length + 1 := by
          rw [hrows, List.length_append, List.length_singleton]
        cases hsuccess : Store.write rt.toConfig rt.clock (o.record rt names w₁.kernel name authority ref) s with
        | mk result s' =>
          have hrun : admitted rt (governingModel w₁.kernel o.op)
              (o.args rt names w₁.kernel name authority) (authority.getD w₁.kernel.authority)
              (namedDict rt names o name) ref w₁ =
              (result.map fun _ => PyVal.none, { w₁ with store := s' }) := by
            rw [hplain]
            exact congrArg (fun x : Except Exc Receipt × StoreState =>
              (x.1.map fun _ => PyVal.none, ({ w₁ with store := x.2 } : World))) hsuccess
          have hfolded {row : Row} {read : Receipt} (hrow : rows s' = rows s ++ [row])
              (hread : ReadsAs rt.toConfig (o.record rt names w₁.kernel name authority ref) row read) :
              projectWorld rt names { w₁ with store := s' } =
                projectWorld rt names w₁ >>= fun st =>
                  foldReceipt rt.toEnv names ((rows w₁.store).length + 1) read st := by
            rw [@projectWorld_append rt names { w₁ with store := s } { w₁ with store := s' } row read
              hrow hread.reads, hproject, hlen]
          cases result with
          | ok receipt' =>
            obtain ⟨row, read, hrow, hread, _⟩ := rows_of_write_ok hsuccess
            refine .inr ⟨hgate, _, _, read, hrun, success_of_readsAs rfl hread, hfolded hrow hread,
              fun _ _ => ⟨ref, ?_⟩⟩
            have hauthority : (o.record rt names w₁.kernel name authority ref).authority =
                (o.admission rt names w₁.kernel name authority).authority := rfl
            obtain ⟨hadmits, hrecords, hquiet⟩ := (writes_return_iff hauthority).mp
              ⟨_, _, _, _, hadmission, hsuccess⟩
            exact ⟨hpasses.preflight, hpasses.static, hpasses.coverage, hadmits, hrecords, hquiet⟩
          | error e =>
            have hlast := @rows_of_write rt.toConfig rt.clock (o.record rt names w₁.kernel name authority ref) s
            rw [hsuccess] at hlast
            rcases hlast with hsame | ⟨row, read, hrow, hread⟩
            · refine .inl ⟨e, _, hrun, ?_⟩
              rw [← hproject]
              exact projectWorld_congr hsame
            · exact .inr ⟨hgate, _, _, read, hrun, success_of_readsAs rfl hread, hfolded hrow hread,
                fun _ h => nomatch h⟩
  · refine .inl ⟨e, w', hrun, ?_⟩
    rcases hrejected with hrejected | hrejected
    · exact projectWorld_rejected hrejected
    · rw [projectWorld_rejected hrejected]
      exact congrArg _ (gate_world o w.kernel name authority w)

/-- An open call whose gate lets it pass returns. -/
theorem call_of_open {ref : String} (hopen : Open rt names o name authority w ref)
    (hgate : (o.gate rt names w.kernel name authority w).1 = .ok true) :
    ∃ w', o.call rt names name authority w = (.ok .none, w') := by
  have hpasses : Passes rt (o.args rt names w.kernel name authority) w
      (authority.getD w.kernel.authority)
      (namedDict rt names o name) ref w :=
    ⟨hopen.preflight, hopen.static, Prod.ext hgate (gate_world ..), hopen.covered⟩
  have hauthority : (o.record rt names w.kernel name authority ref).authority =
      (o.admission rt names w.kernel name authority).authority := rfl
  obtain ⟨_, s, _, _, hadmission, hsuccess⟩ := (writes_return_iff hauthority).mpr
    ⟨hopen.admits, hopen.records, hopen.quiet⟩
  rw [NameOp.call_apply, hpasses.execute_eq, admitted_plain _ rfl rfl hadmission]
  have hresult : (Store.write rt.toConfig rt.clock
      (o.record rt names w.kernel name authority ref) s).1 = .ok _ := congrArg Prod.fst hsuccess
  exact ⟨_, Prod.ext (congrArg (Except.map fun _ => PyVal.none) hresult) rfl⟩

end Call

/-! ## The gates and the fold -/

/-- The call does exactly what was asked of it, and refuses who is not entitled. -/
structure GatesAgree (rt : Runtime) (names : NameText) (o : NameOp) (name : String)
    (authority : Option String) (w : World) : Prop where
  admitted : ∀ v w', o.call rt names name authority w = (.ok v, w') →
    ∃ st st', projectWorld rt names w = .ok st ∧ projectWorld rt names w' = .ok st' ∧
      st'.view rt.toEnv (canonOf rt names name) =
        o.requested (authority.getD w.kernel.authority) name ((rows w.store).length + 1)
          (st.view rt.toEnv (canonOf rt names name)) ∧
      ∀ other, other ≠ canonOf rt names name → st'.view rt.toEnv other = st.view rt.toEnv other
  refused : ∀ st, projectWorld rt names w = .ok st →
    ¬o.Permits w.kernel.mosaicRoot (authority.getD w.kernel.authority)
      (st.view rt.toEnv (canonOf rt names name)) →
    ∃ e w', o.call rt names name authority w = (.error e, w') ∧
      projectWorld rt names w' = .ok st

/-- The gate of an owner asks a caller without an authority about a name nobody owns. -/
structure Blind (rt : Runtime) (names : NameText) (o : NameOp) (name : String)
    (authority : Option String) (w : World) : Prop where
  asksOwner : o.asksOwner = true
  anonymous : authority = none
  named : canonOf rt names name ≠ ""
  complete : o.complete = true
  unowned : ∃ st, projectWorld rt names w = .ok st ∧
    (st.view rt.toEnv (canonOf rt names name)).owner = none

section Agree

variable {o : NameOp} {name : String} {authority : Option String} {w : World}

/-- The gate lets such a caller pass. -/
theorem Blind.gate (h : Blind rt names o name authority w) :
    (o.gate rt names w.kernel name authority w).1 = .ok true := by
  obtain ⟨st, hst, hown⟩ := h.unowned
  have howner : (ownerGate rt names name authority o.complete w).1 = .ok true :=
    ownerGate_iff.mpr ⟨h.named, h.complete, st, hst, .inr ⟨h.anonymous, hown⟩⟩
  have hasks := h.asksOwner
  cases o with
  | allocate => exact nomatch hasks
  | adjudicate awardedOwner => exact nomatch hasks
  | delegate da => exact howner
  | revoke => exact howner
  | invalidate => exact howner
  | supersede newOwner => exact howner

/-- Who owns nothing is not entitled to what an owner may do. -/
theorem not_permits_of_unowned {gov requester : String} {v : NameView} (hasks : o.asksOwner = true)
    (hown : v.owner = none) : ¬o.Permits gov requester v := by
  have hno : ¬v.OwnedBy requester := by
    rintro ⟨cur, hcur, _⟩
    rw [hown] at hcur
    exact nomatch hcur
  cases o with
  | allocate => exact nomatch hasks
  | adjudicate awardedOwner => exact nomatch hasks
  | delegate da => exact hno
  | revoke => exact hno
  | invalidate => exact hno
  | supersede newOwner => exact hno

theorem not_agree_of_open {ref : String} (hblind : Blind rt names o name authority w)
    (hopen : Open rt names o name authority w ref) :
    ¬GatesAgree rt names o name authority w := by
  intro hagree
  obtain ⟨st, hst, hown⟩ := hblind.unowned
  obtain ⟨w', hrun⟩ := call_of_open hopen hblind.gate
  obtain ⟨e, w'', herr, _⟩ := hagree.refused st hst
    (not_permits_of_unowned hblind.asksOwner hown)
  rw [hrun] at herr
  exact nomatch (Prod.mk.inj herr).1

/-- A governed call on a name does what was asked of it, and refuses who is not entitled, unless it
    is open and its gate takes a caller without an authority for the owner of a name that has
    none. -/
theorem namespace_gates (rt : Runtime) (names : NameText) (o : NameOp) (name : String)
    (authority : Option String) (w : World) :
    GatesAgree rt names o name authority w ↔
      ¬(Blind rt names o name authority w ∧ ∃ ref, Open rt names o name authority w ref) := by
  constructor
  · rintro hagree ⟨hblind, ref, hopen⟩
    exact not_agree_of_open hblind hopen hagree
  intro hsight
  -- whoever passes the gate is entitled, or nobody is and the call stays closed
  rcases @call_cases rt names o name authority w with
    ⟨e, w', hrun, hproject⟩ | ⟨hgate, result, w', read, hrun, hsuccess, hproject, hopen⟩
  · constructor
    · intro v w'' hok
      rw [hrun] at hok
      exact nomatch (Prod.mk.inj hok).1
    · intro st hst _
      exact ⟨e, w', hrun, hproject.trans hst⟩
  · obtain ⟨hne, hcomplete, st, hst, hcase⟩ := gate_true hgate
    have hfold : projectWorld rt names w' = .ok (o.folded rt.toEnv
        (authority.getD w.kernel.authority) name (canonOf rt names name)
        ((rows w.store).length + 1) st) := by
      rw [hproject, hst]
      exact foldReceipt_success hsuccess hne _ st
    have hblind (h : o.asksOwner = true ∧ authority = none ∧
        (st.view rt.toEnv (canonOf rt names name)).owner = none) :
        Blind rt names o name authority w := ⟨h.1, h.2.1, hne, hcomplete, st, hst, h.2.2⟩
    constructor
    · intro v w'' hok
      rw [hrun] at hok
      obtain ⟨hresult, rfl⟩ := Prod.mk.inj hok
      rcases hcase with hpermits | h
      · exact ⟨st, _, hst, hfold, view_folded_self hcomplete hpermits,
          fun other hother => view_folded_of_ne hother⟩
      · exact absurd ⟨hblind h, hopen v hresult⟩ hsight
    · intro st' hst' hno
      obtain rfl := Except.ok.inj (hst.symm.trans hst')
      rcases hcase with hpermits | h
      · exact absurd hpermits hno
      · cases hresult : result with
        | ok v => exact absurd ⟨hblind h, hopen v hresult⟩ hsight
        | error e =>
          have hunowned : ¬(st.view rt.toEnv (canonOf rt names name)).OwnedBy
              (authority.getD w.kernel.authority) := by
            rintro ⟨cur, hcur, _⟩
            rw [h.2.2] at hcur
            exact nomatch hcur
          rw [hresult] at hrun
          refine ⟨e, w', hrun, hfold.trans ?_⟩
          rw [folded_of_not_owned h.1 hunowned]

end Agree

/-! ## A name that nobody owns -/

/-- A deployment with the namespace operations. -/
def namespaceRuntime : Runtime :=
  { sampleRuntime with
    applicationOps := [opClaim, opAllocate, opDelegate, opRevoke, opInvalidate, opSupersede,
      opAdjudicate] }

/-- Its kernel after the ceremony. -/
def foundedKernel : Kernel :=
  { active := true, lawHash := "law", mosaicRoot := "governor", legendHash := "legend" }

/-- The receipt of the ceremony. -/
def legendSeal : WriteArgs :=
  { op := "legend_seal"
    authority := foundedKernel.authority
    parameters := strDict [("legend_hash", .str "legend"), ("entry_count", .int 97),
      ("phase_code", .str "ugk-0.1.0")]
    intent := some "legend_seal"
    jurisdiction := "kernel"
    lawHash := "law"
    legendHash := "legend" }

/-- Whoever calls without an authority can revoke a name in advance that nobody owns. -/
theorem revoke_unowned : ∃ (w : World) (receipt : Receipt),
    Store.write namespaceRuntime.toConfig namespaceRuntime.clock legendSeal Store.empty =
      (.ok receipt, w.store) ∧
    w.kernel = foundedKernel ∧
    ¬GatesAgree namespaceRuntime sampleNames .revoke "alpha" none w := by
  have hpath (built : List String) := @isOk_path_of_no_edges namespaceRuntime.toConfig rfl built
    foundedKernel.authority
  have hnames : PlainNames ["legend_hash", "entry_count", "phase_code"] ∧
      ∀ name ∈ reservedNames, name ∉ ["legend_hash", "entry_count", "phase_code"] := by decide
  have hseal : Writable namespaceRuntime.toEnv (strDict [("legend_hash", .str "legend"),
      ("entry_count", .int 97), ("phase_code", .str "ugk-0.1.0")]) :=
    writable_strDict hnames.1 (by simp [writable_str, writable_int])
  have hfirst : accepted namespaceRuntime.toConfig
      (ensureDefaultEdgeFor namespaceRuntime.toConfig Store.empty.built legendSeal.authority)
      legendSeal = true :=
    accepted_strDict hseal rfl rfl hnames.2 rfl rfl rfl rfl (hpath _)
  obtain ⟨receipt, s, hwrite⟩ := (@write_returns_iff namespaceRuntime.toConfig
    namespaceRuntime.clock legendSeal Store.empty).mpr ⟨hfirst, fun b hb => nomatch hb⟩
  obtain ⟨hdepth, _, hfaults⟩ := write_after hwrite
  refine ⟨{ kernel := foundedKernel, store := s }, receipt, hwrite, rfl, ?_⟩
  -- the receipt of the ceremony is no step of the fold
  have hproject : projectWorld namespaceRuntime sampleNames
      { kernel := foundedKernel, store := s } = .ok {} := by
    have hstore : s = (Store.write namespaceRuntime.toConfig namespaceRuntime.clock legendSeal
        Store.empty).2 := by rw [hwrite]
    refine (projectWorld_write (w := { kernel := foundedKernel }) hstore
      fun row read hread i st => ?_).trans rfl
    obtain ⟨_, q, _, _, hq⟩ := hread.parameters
    have hop : read.op = expand namespaceRuntime.toEnv "legend_seal" := hread.op
    have hexpand : expand namespaceRuntime.toEnv "legend_seal" = "legend_seal" := rfl
    exact foldReceipt_of_other (by rw [hop, hexpand]; decide) ⟨q, hq⟩ i st
  have hcanon : canonOf namespaceRuntime sampleNames "alpha" = "alpha" := by decide +kernel
  have hblind : Blind namespaceRuntime sampleNames .revoke "alpha" none
      { kernel := foundedKernel, store := s } :=
    ⟨rfl, rfl, by rw [hcanon]; decide, rfl, {}, hproject, rfl⟩
  -- the two receipts of the call
  have hnamed : PlainNames ["name", "canonical"] ∧
      ∀ name ∈ reservedNames, name ∉ ["name", "canonical"] := by decide
  have hadmission : PlainNames ["op", "parameters"] ∧
      ∀ name ∈ reservedNames, name ∉ ["op", "parameters"] := by decide
  have hparams : Writable namespaceRuntime.toEnv
      (strDict (namedParams namespaceRuntime sampleNames .revoke "alpha")) :=
    writable_strDict hnamed.1 (by simp [namedParams, NameOp.more, writable_str])
  have hwhole : Writable namespaceRuntime.toEnv (strDict [("op", .str opRevoke),
      ("parameters", strDict (namedParams namespaceRuntime sampleNames .revoke "alpha"))]) :=
    writable_strDict hadmission.1 (by simp [writable_str, hparams])
  have hopen : Open namespaceRuntime sampleNames .revoke "alpha" none
      { kernel := foundedKernel, store := s } "" := by
    refine ⟨?_, ?_, rfl, ?_, ?_, ?_⟩
    · rfl
    · rfl
    · exact accepted_strDict hwhole rfl rfl hadmission.2 rfl rfl rfl rfl (hpath _)
    · exact accepted_strDict hparams rfl rfl hnamed.2 rfl rfl rfl rfl (hpath _)
    · intro b hb
      rw [hfaults] at hb
      exact absurd (List.mem_of_mem_take hb) (by simp [Store.empty])
  exact not_agree_of_open hblind hopen

end Ugk
