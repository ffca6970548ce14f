import Ugk.Native.NamespaceGovernance
import Ugk.Spec.Sample
import Ugk.Spec.Write

/-!
# The namespace fold, name by name

Every name has a life of its own: it is unowned, owned by somebody, or gone.  `NameStep` is one
step of that life, and the fold of the receipt chain runs the lives of all names side by side as
long as the receipts that take effect give their names in canonical form and adjudications come
from the Governor.

## Key results

- `view_foldReceipt`: one receipt is one step of every name's life
- `NameRun.inv`: what a life keeps: no owner after a revocation, grants only by the present owner
- `namespace_fold`: ownership, revocation and delegation along a run
-/

namespace Ugk

variable {env : Env} {names : NameText} {gov : String}

/-! ## Keys that are strings -/

/-- A string equals no other value. -/
theorem exact_str (s : String) : KeyTable.Exact (containerEq env) (.str s) where
  left k := by
    cases k <;> simp [containerEq, pyEq, PyVal.num?]
  right k := by
    cases k with
    | str t =>
      simp only [containerEq, pyEq, Bool.and_false, Bool.or_false, beq_iff_eq, PyVal.str.injEq]
      exact eq_comm
    | _ => simp [containerEq, pyEq, PyVal.num?]

/-! ## The life of a name -/

/-- What the fold knows about one name. -/
structure NameView where
  owner : Option OwnerRecord
  revoked : Bool
  delegates : List PyVal

/-- A name nobody has claimed. -/
def NameView.fresh : NameView := ⟨none, false, []⟩

/-- What a folded state says about a name. -/
def NamespaceState.view (env : Env) (st : NamespaceState) (name : String) : NameView where
  owner := st.ownerRecord env (.str name)
  revoked := st.isRevoked env (.str name)
  delegates := st.delegatesOf env (.str name)

/-- The receipt is folded, and its name has this canonical form. -/
structure Addresses (env : Env) (names : NameText) (r : Receipt) (d : PyDict) (name : String) :
    Prop where
  folded : r.failed = false
  params : receiptParams env r = .ok d
  name_eq : canonicalize env names (nameParam d) = name
  nonempty : name ≠ ""

/-- The authority of the receipt owns the name. -/
def NameView.OwnedBy (v : NameView) (authority : String) : Prop :=
  ∃ cur, v.owner = some cur ∧ cur.owner = .str authority

/-- The receipt may change the name in the state before it. -/
inductive Entitled (env : Env) (names : NameText) (gov : String) (r : Receipt) (name : String)
    (v : NameView) : Prop where
  | allocate {d} : Addresses env names r d name → r.op = opAllocate → v.owner = none →
      v.revoked = false → Entitled env names gov r name v
  | delegate {d} : Addresses env names r d name → r.op = opDelegate → v.OwnedBy r.authority →
      (d.get "delegate_authority").truthy = true → Entitled env names gov r name v
  | remove {d} : Addresses env names r d name → r.op = opRevoke ∨ r.op = opInvalidate →
      v.OwnedBy r.authority → Entitled env names gov r name v
  | supersede {d} : Addresses env names r d name → r.op = opSupersede → v.OwnedBy r.authority →
      (d.get "new_owner").truthy = true → Entitled env names gov r name v
  | adjudicate {d} : Addresses env names r d name → r.op = opAdjudicate → r.authority = gov →
      v.revoked = false → (d.get "awarded_owner").truthy = true → Entitled env names gov r name v

/-- One receipt, of index `i`, in the life of one name. -/
inductive NameStep (env : Env) (names : NameText) (gov : String) (i : Nat) (r : Receipt)
    (name : String) (v : NameView) : NameView → Prop where
  | skip : NameStep env names gov i r name v v
  | allocate {d} : Addresses env names r d name → r.op = opAllocate → v.owner = none →
      v.revoked = false →
      NameStep env names gov i r name v { v with owner := some ⟨.str r.authority, nameParam d, i⟩ }
  | delegate {d} : Addresses env names r d name → r.op = opDelegate → v.OwnedBy r.authority →
      (d.get "delegate_authority").truthy = true →
      NameStep env names gov i r name v
        { v with delegates := v.delegates ++ [d.get "delegate_authority"] }
  | remove {d} : Addresses env names r d name → r.op = opRevoke ∨ r.op = opInvalidate →
      v.OwnedBy r.authority → NameStep env names gov i r name v ⟨none, true, []⟩
  | supersede {d} : Addresses env names r d name → r.op = opSupersede → v.OwnedBy r.authority →
      (d.get "new_owner").truthy = true →
      NameStep env names gov i r name v ⟨some ⟨d.get "new_owner", nameParam d, i⟩, v.revoked, []⟩
  | adjudicate {d} : Addresses env names r d name → r.op = opAdjudicate → r.authority = gov →
      v.revoked = false → (d.get "awarded_owner").truthy = true →
      NameStep env names gov i r name v
        ⟨some ⟨d.get "awarded_owner", nameParam d, i⟩, false, []⟩

/-- A receipt without a right to change the name leaves it alone. -/
theorem NameStep.eq_of_not_entitled {i : Nat} {r : Receipt} {name : String} {v v' : NameView}
    (h : NameStep env names gov i r name v v') (hno : ¬Entitled env names gov r name v) :
    v' = v := by
  cases h with
  | skip => rfl
  | allocate ha hop hown hrev => exact absurd (.allocate ha hop hown hrev) hno
  | delegate ha hop hown hda => exact absurd (.delegate ha hop hown hda) hno
  | remove ha hop hown => exact absurd (.remove ha hop hown) hno
  | supersede ha hop hown hnew => exact absurd (.supersede ha hop hown hnew) hno
  | adjudicate ha hop hgov hrev haward => exact absurd (.adjudicate ha hop hgov hrev haward) hno

/-! ## Receipts the fold passes over -/

theorem foldReceipt_of_failed {r : Receipt} (h : r.failed = true) (i : Nat) (st : NamespaceState) :
    foldReceipt env names i r st = .ok st := by
  rw [foldReceipt, if_pos h]

theorem foldReceipt_of_other {r : Receipt}
    (hop : r.op ∉ [opAllocate, opDelegate, opRevoke, opInvalidate, opSupersede, opAdjudicate])
    (hparams : ∃ d, r.parameters = .dict d) (i : Nat) (st : NamespaceState) :
    foldReceipt env names i r st = .ok st := by
  obtain ⟨d, hd⟩ := hparams
  have hparams : receiptParams env r = .ok d := by rw [receiptParams, hd]
  simp only [List.mem_cons, List.not_mem_nil, or_false, not_or] at hop
  obtain ⟨h1, h2, h3, h4, h5, h6⟩ := hop
  rw [foldReceipt, hparams]
  split
  · rfl
  · simp only [h3, h4, or_self, if_false]
    split <;> rfl

/-! ## The state, seen from one name -/

section View

variable {st : NamespaceState} {canon : PyVal} {name : String}

theorem isRevoked_append (hne : canon ≠ .str name) (xs : List PyVal) :
    ((xs ++ [canon]).any fun k => containerEq env k (.str name)) =
      xs.any fun k => containerEq env k (.str name) := by
  have hfalse : containerEq env canon (.str name) = false := by
    rw [Bool.eq_false_iff]
    intro h
    exact hne (((exact_str name).left canon).mp h)
  rw [List.any_append, List.any_cons, List.any_nil, hfalse, Bool.or_self, Bool.or_false]

theorem view_setOwner_self (owner nm : PyVal) (i : Nat) :
    (st.setOwner env (.str name) owner nm i).view env name =
      { st.view env name with owner := some ⟨owner, nm, i⟩ } := by
  simp only [NamespaceState.view, NamespaceState.setOwner, NamespaceState.ownerRecord,
    NamespaceState.isRevoked, NamespaceState.delegatesOf,
    KeyTable.get_put_self (exact_str name)]

theorem view_setOwner_of_ne (hne : canon ≠ .str name) (owner nm : PyVal) (i : Nat) :
    (st.setOwner env canon owner nm i).view env name = st.view env name := by
  simp only [NamespaceState.view, NamespaceState.setOwner, NamespaceState.ownerRecord,
    NamespaceState.isRevoked, NamespaceState.delegatesOf,
    KeyTable.get_put_of_ne (exact_str name) hne]

theorem view_dropDelegates_self :
    (st.dropDelegates env (.str name)).view env name =
      { st.view env name with delegates := [] } := by
  simp only [NamespaceState.view, NamespaceState.dropDelegates, NamespaceState.ownerRecord,
    NamespaceState.isRevoked, NamespaceState.delegatesOf, KeyTable.get_drop_self,
    Option.getD_none]

theorem view_dropDelegates_of_ne (hne : canon ≠ .str name) :
    (st.dropDelegates env canon).view env name = st.view env name := by
  simp only [NamespaceState.view, NamespaceState.dropDelegates, NamespaceState.ownerRecord,
    NamespaceState.isRevoked, NamespaceState.delegatesOf,
    KeyTable.get_drop_of_ne (exact_str name) hne]

theorem view_addDelegate_self (da : PyVal) :
    (st.addDelegate env (.str name) da).view env name =
      { st.view env name with
        delegates := if (st.delegatesOf env (.str name)).any fun x => containerEq env x da then
          st.delegatesOf env (.str name) else st.delegatesOf env (.str name) ++ [da] } := by
  simp only [NamespaceState.view, NamespaceState.addDelegate, NamespaceState.ownerRecord,
    NamespaceState.isRevoked, NamespaceState.delegatesOf,
    KeyTable.get_put_self (exact_str name), Option.getD_some]

theorem view_addDelegate_of_ne (hne : canon ≠ .str name) (da : PyVal) :
    (st.addDelegate env canon da).view env name = st.view env name := by
  simp only [NamespaceState.view, NamespaceState.addDelegate, NamespaceState.ownerRecord,
    NamespaceState.isRevoked, NamespaceState.delegatesOf,
    KeyTable.get_put_of_ne (exact_str name) hne]

theorem view_remove_self : (st.remove env (.str name)).view env name = ⟨none, true, []⟩ := by
  have hrevoked : (st.remove env (.str name)).isRevoked env (.str name) = true := by
    unfold NamespaceState.remove
    by_cases h : st.isRevoked env (.str name) = true
    · simp only [h, if_true]
      exact h
    · simp only [if_neg h]
      simp only [NamespaceState.isRevoked, List.any_append, List.any_cons, List.any_nil,
        ((exact_str name).left _).mpr rfl, Bool.true_or, Bool.or_true]
  simp only [NamespaceState.view, hrevoked]
  simp only [NamespaceState.remove, NamespaceState.ownerRecord, NamespaceState.delegatesOf,
    KeyTable.get_drop_self, Option.getD_none]

theorem view_remove_of_ne (hne : canon ≠ .str name) :
    (st.remove env canon).view env name = st.view env name := by
  have hrevoked : (st.remove env canon).isRevoked env (.str name) =
      st.isRevoked env (.str name) := by
    unfold NamespaceState.remove
    by_cases h : st.isRevoked env canon = true
    · simp only [if_pos h]
      rfl
    · simp only [if_neg h]
      exact isRevoked_append hne _
  simp only [NamespaceState.view, hrevoked]
  simp only [NamespaceState.remove, NamespaceState.ownerRecord, NamespaceState.delegatesOf,
    KeyTable.get_drop_of_ne (exact_str name) hne]

theorem ownedBy_iff {authority : String} :
    st.ownedBy env (.str name) authority = true ↔ (st.view env name).OwnedBy authority := by
  simp only [NamespaceState.ownedBy, NameView.OwnedBy, NamespaceState.view]
  cases st.ownerRecord env (.str name) with
  | none => simp
  | some cur => simp [isStr_iff]

end View

/-! ## One receipt -/

/-- The guard of the branch the receipt takes in the fold. -/
def guardHolds (env : Env) (r : Receipt) (d : PyDict) (canon : PyVal) (st : NamespaceState) : Bool :=
  if r.op = opAllocate then (st.ownerRecord env canon).isNone && !st.isRevoked env canon
  else if r.op = opDelegate then
    st.ownedBy env canon r.authority && (d.get "delegate_authority").truthy
  else if r.op = opRevoke ∨ r.op = opInvalidate then st.ownedBy env canon r.authority
  else if r.op = opSupersede then
    st.ownedBy env canon r.authority && (d.get "new_owner").truthy
  else if r.op = opAdjudicate then (d.get "awarded_owner").truthy && !st.isRevoked env canon
  else false

/-- A receipt whose branch is taken gives its name in canonical form, and adjudicates for the
    Governor only. -/
def Proper (env : Env) (names : NameText) (gov : String) (r : Receipt) (st : NamespaceState) :
    Prop :=
  ∀ d, r.failed = false → receiptParams env r = .ok d →
    guardHolds env r d (canonParam env names d) st = true →
    canonParam env names d = .str (canonicalize env names (nameParam d)) ∧
      (r.op = opAdjudicate → r.authority = gov)

theorem hashed_ok {canon : PyVal} {st st' : NamespaceState} (h : hashed canon st = .ok st') :
    st' = st := by
  unfold hashed at h
  split at h
  · exact nomatch h
  · exact (Except.ok.inj h).symm

/-- What a receipt of the fold does: nothing, or the action of the branch whose guard holds. -/
theorem foldReceipt_ok {i : Nat} {r : Receipt} {st st' : NamespaceState}
    (h : foldReceipt env names i r st = .ok st') :
    st' = st ∨ ∃ d canon, r.failed = false ∧ receiptParams env r = .ok d ∧
      canon = canonParam env names d ∧ canon.truthy = true ∧ guardHolds env r d canon st = true ∧
      ((r.op = opAllocate ∧ st' = st.setOwner env canon (.str r.authority) (nameParam d) i) ∨
        (r.op = opDelegate ∧ st' = st.addDelegate env canon (d.get "delegate_authority")) ∨
        ((r.op = opRevoke ∨ r.op = opInvalidate) ∧ st' = st.remove env canon) ∨
        (r.op = opSupersede ∧
          st' = (st.setOwner env canon (d.get "new_owner") (nameParam d) i).dropDelegates env canon) ∨
        (r.op = opAdjudicate ∧ st' = (st.setOwner env canon (d.get "awarded_owner")
          (nameParam d) i).dropDelegates env canon)) := by
  unfold foldReceipt at h
  by_cases hfailed : r.failed = true
  · rw [if_pos hfailed] at h
    exact .inl (Except.ok.inj h).symm
  rw [if_neg hfailed] at h
  cases hd : receiptParams env r with
  | error e => rw [hd] at h; exact nomatch h
  | ok d =>
    rw [hd] at h
    simp only at h
    by_cases hcanon : (canonParam env names d).truthy = true
    · rw [if_neg (by simp [hcanon])] at h
      have hfolded : r.failed = false := Bool.eq_false_iff.mpr hfailed
      -- the guard of each branch decides between its action and nothing
      have hact (act : NamespaceState) (g : Bool)
          (hg : guardHolds env r d (canonParam env names d) st = g)
          (hif : st' = if g then act else st) : st' = st ∨
            guardHolds env r d (canonParam env names d) st = true ∧ st' = act := by
        cases g with
        | true => exact .inr ⟨hg, hif⟩
        | false => exact .inl hif
      by_cases h1 : r.op = opAllocate
      · rw [if_pos h1, foldAllocate] at h
        refine (hact _ _ (by rw [guardHolds, if_pos h1]) (hashed_ok h)).imp id ?_
        rintro ⟨hg, heq⟩
        exact ⟨d, _, hfolded, rfl, rfl, hcanon, hg, .inl ⟨h1, heq⟩⟩
      rw [if_neg h1] at h
      by_cases h2 : r.op = opDelegate
      · rw [if_pos h2, foldDelegate] at h
        refine (hact _ _ (by rw [guardHolds, if_neg h1, if_pos h2]) (hashed_ok h)).imp id ?_
        rintro ⟨hg, heq⟩
        exact ⟨d, _, hfolded, rfl, rfl, hcanon, hg, .inr (.inl ⟨h2, heq⟩)⟩
      rw [if_neg h2] at h
      by_cases h3 : r.op = opRevoke ∨ r.op = opInvalidate
      · rw [if_pos h3, foldRemove] at h
        refine (hact _ _ (by rw [guardHolds, if_neg h1, if_neg h2, if_pos h3])
          (hashed_ok h)).imp id ?_
        rintro ⟨hg, heq⟩
        exact ⟨d, _, hfolded, rfl, rfl, hcanon, hg, .inr (.inr (.inl ⟨h3, heq⟩))⟩
      rw [if_neg h3] at h
      by_cases h4 : r.op = opSupersede
      · rw [if_pos h4, foldSupersede] at h
        refine (hact _ _ (by rw [guardHolds, if_neg h1, if_neg h2, if_neg h3, if_pos h4])
          (hashed_ok h)).imp id ?_
        rintro ⟨hg, heq⟩
        exact ⟨d, _, hfolded, rfl, rfl, hcanon, hg, .inr (.inr (.inr (.inl ⟨h4, heq⟩)))⟩
      rw [if_neg h4] at h
      by_cases h5 : r.op = opAdjudicate
      · rw [if_pos h5, foldAdjudicate] at h
        by_cases haward : (d.get "awarded_owner").truthy = true
        · rw [if_pos haward] at h
          refine (hact _ _ (by
            rw [guardHolds, if_neg h1, if_neg h2, if_neg h3, if_neg h4, if_pos h5, haward,
              Bool.true_and]) (hashed_ok h)).imp id ?_
          rintro ⟨hg, heq⟩
          exact ⟨d, _, hfolded, rfl, rfl, hcanon, hg, .inr (.inr (.inr (.inr ⟨h5, heq⟩)))⟩
        · rw [if_neg haward] at h
          exact .inl (Except.ok.inj h).symm
      · rw [if_neg h5] at h
        exact .inl (Except.ok.inj h).symm
    · rw [if_pos (by simp [hcanon])] at h
      exact .inl (Except.ok.inj h).symm

section Step

variable {i : Nat} {r : Receipt} {st st' : NamespaceState} {name : String}

/-- A receipt whose branch is taken addresses the name it is filed under. -/
theorem addresses_of_canonParam {d : PyDict} (hfolded : r.failed = false)
    (hd : receiptParams env r = .ok d) (htruthy : (canonParam env names d).truthy = true)
    (hname : canonParam env names d = .str (canonicalize env names (nameParam d))) :
    Addresses env names r d (canonicalize env names (nameParam d)) where
  folded := hfolded
  params := hd
  name_eq := rfl
  nonempty := by
    rw [hname] at htruthy
    simpa [PyVal.truthy] using htruthy

/-- One receipt of the fold is one step in the life of every name. -/
theorem view_foldReceipt (hproper : Proper env names gov r st)
    (h : foldReceipt env names i r st = .ok st') (name : String) :
    NameStep env names gov i r name (st.view env name) (st'.view env name) := by
  rcases foldReceipt_ok h with rfl | ⟨d, canon, hfolded, hd, rfl, htruthy, hguard, hact⟩
  · exact .skip
  obtain ⟨hname, hgov⟩ := hproper d hfolded hd hguard
  have haddr := addresses_of_canonParam hfolded hd htruthy hname
  rw [hname] at hguard hact
  by_cases hsame : canonicalize env names (nameParam d) = name
  · rw [hsame] at haddr hguard hact
    rcases hact with ⟨hop, rfl⟩ | ⟨hop, rfl⟩ | ⟨hop, rfl⟩ | ⟨hop, rfl⟩ | ⟨hop, rfl⟩
    · -- allocation
      rw [guardHolds, if_pos hop, Bool.and_eq_true, Option.isNone_iff_eq_none] at hguard
      rw [view_setOwner_self]
      exact .allocate haddr hop hguard.1 (by simpa [NamespaceState.view] using hguard.2)
    · -- delegation
      have h1 : r.op ≠ opAllocate := by rw [hop]; decide
      rw [guardHolds, if_neg h1, if_pos hop, Bool.and_eq_true, ownedBy_iff] at hguard
      rw [view_addDelegate_self]
      split
      · exact .skip
      · exact .delegate haddr hop hguard.1 hguard.2
    · -- revocation and invalidation
      have h1 : r.op ≠ opAllocate := by rcases hop with hop | hop <;> rw [hop] <;> decide
      have h2 : r.op ≠ opDelegate := by rcases hop with hop | hop <;> rw [hop] <;> decide
      rw [guardHolds, if_neg h1, if_neg h2, if_pos hop, ownedBy_iff] at hguard
      rw [view_remove_self]
      exact .remove haddr hop hguard
    · -- supersession
      have h1 : r.op ≠ opAllocate := by rw [hop]; decide
      have h2 : r.op ≠ opDelegate := by rw [hop]; decide
      have h3 : ¬(r.op = opRevoke ∨ r.op = opInvalidate) := by rw [hop]; decide
      rw [guardHolds, if_neg h1, if_neg h2, if_neg h3, if_pos hop, Bool.and_eq_true,
        ownedBy_iff] at hguard
      rw [view_dropDelegates_self, view_setOwner_self]
      exact .supersede haddr hop hguard.1 hguard.2
    · -- adjudication
      have h1 : r.op ≠ opAllocate := by rw [hop]; decide
      have h2 : r.op ≠ opDelegate := by rw [hop]; decide
      have h3 : ¬(r.op = opRevoke ∨ r.op = opInvalidate) := by rw [hop]; decide
      have h4 : r.op ≠ opSupersede := by rw [hop]; decide
      rw [guardHolds, if_neg h1, if_neg h2, if_neg h3, if_neg h4, if_pos hop,
        Bool.and_eq_true] at hguard
      have hrev : (st.view env name).revoked = false := by
        simpa [NamespaceState.view] using hguard.2
      have hview : ((st.setOwner env (.str name) (d.get "awarded_owner") (nameParam d)
          i).dropDelegates env (.str name)).view env name =
          ⟨some ⟨d.get "awarded_owner", nameParam d, i⟩, false, []⟩ := by
        rw [view_dropDelegates_self, view_setOwner_self]
        simp only [hrev]
      rw [hview]
      exact .adjudicate haddr hop (hgov hop) hrev hguard.1
  · -- another name
    have hne : PyVal.str (canonicalize env names (nameParam d)) ≠ .str name :=
      fun heq => hsame (PyVal.str.inj heq)
    have hview : st'.view env name = st.view env name := by
      rcases hact with ⟨_, rfl⟩ | ⟨_, rfl⟩ | ⟨_, rfl⟩ | ⟨_, rfl⟩ | ⟨_, rfl⟩
      · exact view_setOwner_of_ne hne _ _ _
      · exact view_addDelegate_of_ne hne _
      · exact view_remove_of_ne hne
      · rw [view_dropDelegates_of_ne hne, view_setOwner_of_ne hne]
      · rw [view_dropDelegates_of_ne hne, view_setOwner_of_ne hne]
    rw [hview]
    exact .skip

end Step

/-! ## Runs -/

/-- The states the fold passes through, every receipt being proper in the state before it. -/
inductive NamespaceRun (env : Env) (names : NameText) (gov : String) :
    List Receipt → NamespaceState → Prop where
  | start : NamespaceRun env names gov [] {}
  | step {rs : List Receipt} {r : Receipt} {st st' : NamespaceState} :
      NamespaceRun env names gov rs st → Proper env names gov r st →
      foldReceipt env names rs.length r st = .ok st' → NamespaceRun env names gov (rs ++ [r]) st'

theorem projectFrom_append (i : Nat) (st : NamespaceState) (rs more : List Receipt) :
    projectFrom env names i st (rs ++ more) =
      projectFrom env names i st rs >>= fun st' => projectFrom env names (i + rs.length) st' more := by
  induction rs generalizing i st with
  | nil => rfl
  | cons r rs ih =>
    rw [List.cons_append, projectFrom, projectFrom]
    cases foldReceipt env names i r st with
    | error e => rfl
    | ok st' =>
      show projectFrom env names (i + 1) st' (rs ++ more) = _
      rw [ih, List.length_cons, Nat.add_comm rs.length 1, ← Nat.add_assoc]

theorem project_concat (rs : List Receipt) (r : Receipt) :
    project env names (rs ++ [r]) =
      project env names rs >>= fun st => foldReceipt env names rs.length r st := by
  rw [project, projectFrom_append, Nat.zero_add]
  congr 1
  funext st
  rw [projectFrom]
  cases foldReceipt env names rs.length r st <;> rfl

/-- A run ends in the state `_project` computes. -/
theorem NamespaceRun.project_eq {rs : List Receipt} {st : NamespaceState}
    (h : NamespaceRun env names gov rs st) : project env names rs = .ok st := by
  induction h with
  | start => rfl
  | step _ _ hstep ih =>
    rw [project_concat, ih]
    exact hstep

theorem NamespaceRun.unique {rs : List Receipt} {st st' : NamespaceState}
    (h : NamespaceRun env names gov rs st) (h' : NamespaceRun env names gov rs st') : st = st' :=
  Except.ok.inj (h.project_eq.symm.trans h'.project_eq)

/-- A chain `_project` folds is a run when every receipt is proper in the state before it. -/
theorem namespaceRun_of_project {rs : List Receipt} {st : NamespaceState}
    (h : project env names rs = .ok st)
    (hproper : ∀ pre r stp, pre ++ [r] <+: rs → project env names pre = .ok stp →
      Proper env names gov r stp) : NamespaceRun env names gov rs st := by
  induction rs using List.reverseRecOn generalizing st with
  | nil =>
    obtain rfl := Except.ok.inj h
    exact .start
  | append_singleton rs r ih =>
    rw [project_concat] at h
    obtain ⟨stp, hp, hstep⟩ := Except.bind_eq_ok h
    refine .step (ih hp fun pre r' stp' hpre => ?_) (hproper rs r stp (List.prefix_refl _) hp) hstep
    exact hproper pre r' stp' (hpre.trans (List.prefix_append rs [r]))

theorem NamespaceRun.concat_inv {rs : List Receipt} {r : Receipt} {st' : NamespaceState}
    (h : NamespaceRun env names gov (rs ++ [r]) st') :
    ∃ st, NamespaceRun env names gov rs st ∧ Proper env names gov r st ∧
      foldReceipt env names rs.length r st = .ok st' := by
  generalize hall : rs ++ [r] = all at h
  cases h with
  | start => simp at hall
  | step hrun hproper hstep =>
    obtain ⟨rfl, hr⟩ := List.append_inj' hall rfl
    obtain rfl := (List.cons.inj hr).1
    exact ⟨_, hrun, hproper, hstep⟩

/-- What every step of a name's life keeps, an extension of the chain keeps. -/
theorem NamespaceRun.extend {rs more : List Receipt} {st st' : NamespaceState} {name : String}
    {P : NameView → Prop}
    (hkeep : ∀ i r v v', P v → NameStep env names gov i r name v v' → P v')
    (h : NamespaceRun env names gov rs st) (h' : NamespaceRun env names gov (rs ++ more) st')
    (hP : P (st.view env name)) : P (st'.view env name) := by
  induction more using List.reverseRecOn generalizing st' with
  | nil =>
    rw [List.append_nil] at h'
    rw [← h.unique h']
    exact hP
  | append_singleton more r ih =>
    rw [← List.append_assoc] at h'
    obtain ⟨mid, hmid, hproper, hstep⟩ := h'.concat_inv
    exact hkeep _ r _ _ (ih hmid) (view_foldReceipt hproper hstep name)

/-! ## What a run keeps -/

/-- The receipt grants a delegation of the name, in the name of `owner`. -/
def Grants (env : Env) (names : NameText) (r : Receipt) (name : String) (owner da : PyVal) : Prop :=
  ∃ d, Addresses env names r d name ∧ r.op = opDelegate ∧ owner = .str r.authority ∧
    d.get "delegate_authority" = da

/-- What holds of a name after the receipts `rs`. -/
structure NameInv (env : Env) (names : NameText) (rs : List Receipt) (name : String)
    (v : NameView) : Prop where
  exclusive : v.revoked = true → v.owner = none
  unowned : v.owner = none → v.delegates = []
  since : ∀ cur, v.owner = some cur → cur.index < rs.length
  granted : ∀ cur, v.owner = some cur → ∀ da ∈ v.delegates,
    ∃ j r, cur.index < j ∧ rs[j]? = some r ∧ Grants env names r name cur.owner da

/-- The invariant of a name without delegates, owned since the last receipt. -/
theorem NameInv.ofOwner {rs : List Receipt} {name : String} {cur : OwnerRecord}
    (hindex : cur.index < rs.length) : NameInv env names rs name ⟨some cur, false, []⟩ where
  exclusive := by simp
  unowned := by simp
  since := by
    intro cur' h
    obtain rfl := Option.some.inj h
    exact hindex
  granted := by simp

theorem NameInv.mono {rs : List Receipt} {r : Receipt} {name : String} {v : NameView}
    (h : NameInv env names rs name v) : NameInv env names (rs ++ [r]) name v where
  exclusive := h.exclusive
  unowned := h.unowned
  since cur hcur := by
    have := h.since cur hcur
    rw [List.length_append]
    omega
  granted cur hcur da hda := by
    obtain ⟨j, r', hj, hr', hg⟩ := h.granted cur hcur da hda
    refine ⟨j, r', hj, ?_, hg⟩
    rw [List.getElem?_append_left (List.getElem?_eq_some_iff.mp hr').1]
    exact hr'

/-- One receipt keeps the invariant of a name. -/
theorem NameStep.inv {rs : List Receipt} {r : Receipt} {name : String} {v v' : NameView}
    (h : NameStep env names gov rs.length r name v v') (hi : NameInv env names rs name v) :
    NameInv env names (rs ++ [r]) name v' := by
  have hlt : rs.length < (rs ++ [r]).length := by rw [List.length_append]; exact Nat.lt_succ_self _
  cases h with
  | skip => exact hi.mono
  | allocate _ _ hown hrev =>
    rw [hrev, hi.unowned hown]
    exact .ofOwner hlt
  | @delegate d haddr hop hown hda =>
    obtain ⟨cur, hcur, howner⟩ := hown
    have hm : NameInv env names (rs ++ [r]) name v := hi.mono
    refine ⟨hm.exclusive, fun hnone => ?_, hm.since, fun cur' hcur' da hmem => ?_⟩
    · exact absurd (hcur.symm.trans hnone) (by simp)
    · obtain rfl := Option.some.inj (hcur.symm.trans hcur')
      rcases List.mem_append.mp hmem with hmem | hmem
      · exact hm.granted cur hcur da hmem
      · -- the new delegation is granted by the receipt just folded
        refine ⟨rs.length, r, hi.since cur hcur, by simp, d, haddr, hop, howner, ?_⟩
        exact (List.mem_singleton.mp hmem).symm
  | remove => exact ⟨fun _ => rfl, fun _ => rfl, by simp, by simp⟩
  | supersede _ _ hown _ =>
    obtain ⟨cur, hcur, _⟩ := hown
    have hrev : v.revoked = false := by
      rw [Bool.eq_false_iff]
      intro hrev
      exact absurd (hcur.symm.trans (hi.exclusive hrev)) (by simp)
    rw [hrev]
    exact .ofOwner hlt
  | adjudicate => exact .ofOwner hlt

/-- The invariant holds along every run. -/
theorem NamespaceRun.inv {rs : List Receipt} {st : NamespaceState}
    (h : NamespaceRun env names gov rs st) (name : String) :
    NameInv env names rs name (st.view env name) := by
  induction h with
  | start =>
    exact ⟨fun _ => rfl, fun _ => rfl, (fun _ h => nomatch h), fun _ h => nomatch h⟩
  | step _ hproper hstep ih => exact (view_foldReceipt hproper hstep name).inv ih

/-- A name that is gone stays gone. -/
theorem NameStep.gone {i : Nat} {r : Receipt} {name : String} {v v' : NameView}
    (hv : v.revoked = true ∧ v.owner = none) (h : NameStep env names gov i r name v v') :
    v'.revoked = true ∧ v'.owner = none := by
  obtain ⟨hrev, hown⟩ := hv
  have howned (authority : String) : ¬v.OwnedBy authority := by
    rintro ⟨cur, hcur, _⟩
    exact absurd (hcur.symm.trans hown) (by simp)
  cases h with
  | skip => exact ⟨hrev, hown⟩
  | allocate _ _ _ hfree => exact absurd (hrev.symm.trans hfree) (by decide)
  | delegate _ _ hby _ => exact absurd hby (howned _)
  | remove _ _ hby => exact absurd hby (howned _)
  | supersede _ _ hby _ => exact absurd hby (howned _)
  | adjudicate _ _ _ hfree _ => exact absurd (hrev.symm.trans hfree) (by decide)

/-- A name that was owned once is owned or gone ever after. -/
theorem NameStep.taken {i : Nat} {r : Receipt} {name : String} {v v' : NameView}
    (hv : v.owner ≠ none ∨ v.revoked = true) (h : NameStep env names gov i r name v v') :
    v'.owner ≠ none ∨ v'.revoked = true := by
  cases h with
  | skip => exact hv
  | allocate => exact .inl (by simp)
  | delegate => exact hv
  | remove => exact .inr rfl
  | supersede => exact .inl (by simp)
  | adjudicate => exact .inl (by simp)

/-- The record of the owner at the end of a run was there from its receipt on. -/
theorem NamespaceRun.owner_since {rs : List Receipt} {st : NamespaceState} {name : String}
    {cur : OwnerRecord} (h : NamespaceRun env names gov rs st)
    (hcur : (st.view env name).owner = some cur) {pre : List Receipt} {stp : NamespaceState}
    (hpre : pre <+: rs) (hp : NamespaceRun env names gov pre stp) (hindex : cur.index < pre.length) :
    (stp.view env name).owner = some cur := by
  induction h with
  | start =>
    obtain rfl := List.prefix_nil.mp hpre
    exact absurd hindex (Nat.not_lt_zero _)
  | @step rs r st st' hrun hproper hstep ih =>
    rcases List.prefix_concat_iff.mp hpre with rfl | hpre'
    · rw [hp.unique (hrun.step hproper hstep)]
      exact hcur
    · have hlen := hpre'.length_le
      -- a record set by this receipt would have the index of the receipt
      have hnew {owner nm : PyVal} (hset : cur = ⟨owner, nm, rs.length⟩) : False := by
        rw [hset] at hindex
        exact absurd hindex (by simpa using hlen)
      have hview := view_foldReceipt hproper hstep name
      generalize st'.view env name = v' at hview hcur
      cases hview with
      | skip => exact ih hcur hpre'
      | allocate => exact (hnew (Option.some.inj hcur).symm).elim
      | delegate => exact ih hcur hpre'
      | remove => exact nomatch hcur
      | supersede => exact (hnew (Option.some.inj hcur).symm).elim
      | adjudicate => exact (hnew (Option.some.inj hcur).symm).elim

/-! ## Keys -/

/-- The keys of the three tables of a state. -/
def NamespaceState.keys (st : NamespaceState) : List PyVal :=
  st.owners.map Prod.fst ++ st.revoked ++ st.delegates.map Prod.fst

theorem mem_keys {st : NamespaceState} {key : PyVal} : key ∈ st.keys ↔
    key ∈ st.owners.map Prod.fst ∨ key ∈ st.revoked ∨ key ∈ st.delegates.map Prod.fst := by
  simp only [NamespaceState.keys, List.mem_append, or_assoc]

section Keys

variable {st : NamespaceState} {canon key : PyVal}

theorem keys_setOwner {owner nm : PyVal} {i : Nat}
    (h : key ∈ (st.setOwner env canon owner nm i).keys) : key ∈ st.keys ∨ key = canon := by
  rw [mem_keys] at h ⊢
  rcases h with h | h | h
  · exact (KeyTable.keys_put _ _ _ h).imp .inl id
  · exact .inl (.inr (.inl h))
  · exact .inl (.inr (.inr h))

theorem keys_dropDelegates (h : key ∈ (st.dropDelegates env canon).keys) : key ∈ st.keys := by
  rw [mem_keys] at h ⊢
  rcases h with h | h | h
  · exact .inl h
  · exact .inr (.inl h)
  · exact .inr (.inr (KeyTable.keys_drop _ _ h))

theorem keys_addDelegate {da : PyVal} (h : key ∈ (st.addDelegate env canon da).keys) :
    key ∈ st.keys ∨ key = canon := by
  rw [mem_keys] at h ⊢
  rcases h with h | h | h
  · exact .inl (.inl h)
  · exact .inl (.inr (.inl h))
  · exact (KeyTable.keys_put _ _ _ h).imp (fun h => .inr (.inr h)) id

theorem keys_remove (h : key ∈ (st.remove env canon).keys) : key ∈ st.keys ∨ key = canon := by
  rw [mem_keys] at h ⊢
  rcases h with h | h | h
  · exact .inl (.inl (KeyTable.keys_drop _ _ h))
  · unfold NamespaceState.remove at h
    simp only at h
    split at h
    · exact .inl (.inr (.inl h))
    · rcases List.mem_append.mp h with h | h
      · exact .inl (.inr (.inl h))
      · exact .inr (List.mem_singleton.mp h)
  · exact .inl (.inr (.inr (KeyTable.keys_drop _ _ h)))

end Keys

/-- All keys of a run are canonical names. -/
theorem NamespaceRun.keys_canonical {rs : List Receipt} {st : NamespaceState}
    (h : NamespaceRun env names gov rs st) {key : PyVal} (hkey : key ∈ st.keys) :
    ∃ v, key = .str (canonicalize env names v) := by
  induction h with
  | start => exact absurd hkey List.not_mem_nil
  | step _ hproper hstep ih =>
    rcases foldReceipt_ok hstep with rfl | ⟨d, canon, hfolded, hd, rfl, _, hguard, hact⟩
    · exact ih hkey
    have hname := (hproper d hfolded hd hguard).1
    have hold (h : key ∈ NamespaceState.keys _ ∨ key = canonParam env names d) :
        ∃ v, key = .str (canonicalize env names v) :=
      h.elim ih fun hnew => ⟨nameParam d, hnew.trans hname⟩
    rcases hact with ⟨_, rfl⟩ | ⟨_, rfl⟩ | ⟨_, rfl⟩ | ⟨_, rfl⟩ | ⟨_, rfl⟩
    · exact hold (keys_setOwner hkey)
    · exact hold (keys_addDelegate hkey)
    · exact hold (keys_remove hkey)
    · exact hold (keys_setOwner (keys_dropDelegates hkey))
    · exact hold (keys_setOwner (keys_dropDelegates hkey))

/-! ## The fold -/

/-- How the owner of a name may change with the receipt `r` after the receipts `rs`. -/
def OwnerChange (env : Env) (names : NameText) (gov : String) (rs : List Receipt) (r : Receipt)
    (name : String) (v : NameView) : Prop :=
  (r.op = opAllocate ∧ ∀ pre stp, pre <+: rs → NamespaceRun env names gov pre stp →
      (stp.view env name).owner = none) ∨
    ((r.op = opSupersede ∨ r.op = opRevoke ∨ r.op = opInvalidate) ∧ v.OwnedBy r.authority) ∨
    (r.op = opAdjudicate ∧ r.authority = gov)

theorem NamespaceRun.ownerChange {rs : List Receipt} {r : Receipt} {st st' : NamespaceState}
    {name : String} (h : NamespaceRun env names gov rs st)
    (hstep : NameStep env names gov rs.length r name (st.view env name) (st'.view env name))
    (hne : (st'.view env name).owner ≠ (st.view env name).owner) :
    OwnerChange env names gov rs r name (st.view env name) := by
  generalize st'.view env name = v' at hstep hne
  cases hstep with
  | skip => exact absurd rfl hne
  | allocate _ hop hown hrev =>
    refine .inl ⟨hop, fun pre stp hpre hp => ?_⟩
    obtain ⟨more, rfl⟩ := hpre
    by_contra howned
    -- a name that was owned before would be owned or revoked now
    rcases hp.extend (fun _ _ _ _ hv hs => NameStep.taken hv hs) h (.inl howned) with hc | hc
    · exact hc hown
    · exact absurd (hc.symm.trans hrev) (by decide)
  | delegate => exact absurd rfl hne
  | remove _ hop hown => exact .inr (.inl ⟨.inr hop, hown⟩)
  | supersede _ hop hown _ => exact .inr (.inl ⟨.inl hop, hown⟩)
  | adjudicate _ hop hgov _ _ => exact .inr (.inr ⟨hop, hgov⟩)

/-- Along a run of proper receipts: no name is owned and revoked, a revoked name stays revoked and
    unowned, the owner changes by a first allocation, by the owner or by the Governor, delegates are
    granted by the present owner since it became owner, names are kept in canonical form, and a
    receipt that is not entitled changes no name. -/
theorem namespace_fold {rs : List Receipt} {st : NamespaceState}
    (h : NamespaceRun env names gov rs st) (name : String) :
    ¬((st.view env name).owner ≠ none ∧ (st.view env name).revoked = true) ∧
    (∀ more st', NamespaceRun env names gov (rs ++ more) st' → (st.view env name).revoked = true →
      (st'.view env name).revoked = true ∧ (st'.view env name).owner = none) ∧
    (∀ r st', NamespaceRun env names gov (rs ++ [r]) st' →
      (st'.view env name).owner ≠ (st.view env name).owner →
      OwnerChange env names gov rs r name (st.view env name)) ∧
    ((st.view env name).owner = none → (st.view env name).delegates = []) ∧
    (∀ cur, (st.view env name).owner = some cur →
      (∀ pre stp, pre <+: rs → NamespaceRun env names gov pre stp → cur.index < pre.length →
        (stp.view env name).owner = some cur) ∧
      ∀ da ∈ (st.view env name).delegates, ∃ j r, cur.index < j ∧ rs[j]? = some r ∧
        Grants env names r name cur.owner da) ∧
    (∀ key ∈ st.keys, ∃ v, key = .str (canonicalize env names v)) ∧
    (∀ r st', NamespaceRun env names gov (rs ++ [r]) st' →
      ¬Entitled env names gov r name (st.view env name) →
      st'.view env name = st.view env name) := by
  have hi := h.inv name
  have hnext {r st'} (h' : NamespaceRun env names gov (rs ++ [r]) st') :
      NameStep env names gov rs.length r name (st.view env name) (st'.view env name) := by
    obtain ⟨mid, hmid, hproper, hstep⟩ := h'.concat_inv
    rw [← h.unique hmid] at hproper hstep
    exact view_foldReceipt hproper hstep name
  refine ⟨?_, ?_, ?_, hi.unowned, ?_, ?_, ?_⟩
  · rintro ⟨howned, hrev⟩
    exact howned (hi.exclusive hrev)
  · intro more st' h' hrev
    exact h.extend (fun _ _ _ _ hv hs => NameStep.gone hv hs) h' ⟨hrev, hi.exclusive hrev⟩
  · intro r st' h' hne
    exact h.ownerChange (hnext h') hne
  · intro cur hcur
    exact ⟨fun pre stp hpre hp hindex => h.owner_since hcur hpre hp hindex, hi.granted cur hcur⟩
  · intro key hkey
    exact h.keys_canonical hkey
  · intro r st' h' hno
    exact (hnext h').eq_of_not_entitled hno

/-! ## Sample chains -/

/-- Text functions of ASCII deployments. -/
def sampleNames : NameText := ⟨id, fun _ => "object"⟩

/-- A receipt of a namespace operation. -/
def namespaceReceipt (op authority : String) (parameters : List (String × PyVal)) : Receipt :=
  { Nullable.replicate PyVal.none with
    receiptId := 1
    op := op
    authority := authority
    parameters := strDict parameters
    intent := op
    jurisdiction := "namespace"
    confidence := "high"
    timestamp := .fin ⟨"1.5".toList, isFloatLit_sample⟩
    failed := false
    sessionDkn := ""
    lawHash := ""
    legendHash := ""
    warrantId := ""
    intentRef := ""
    hS := ""
    hC := ""
    hM := ""
    hR := ""
    parentHR := ""
    mode := "strict"
    version := 8
    idCS := ""
    idCC := ""
    idCM := ""
    idCJ := ""
    hBody := "" }

/-- Alice takes a name. -/
def allocateAlpha : Receipt :=
  namespaceReceipt opAllocate "alice" [("name", .str "alpha"), ("canonical", .str "alpha")]

/-- Mallory awards it to herself. -/
def adjudicateAlpha : Receipt :=
  namespaceReceipt opAdjudicate "mallory"
    [("name", .str "alpha"), ("canonical", .str "alpha"), ("awarded_owner", .str "mallory")]

/-- The state after the allocation. -/
def aliceOwns : NamespaceState := { owners := [(.str "alpha", ⟨.str "alice", .str "alpha", 0⟩)] }

theorem namespaceRun_allocateAlpha :
    NamespaceRun sampleEnv sampleNames governorAuthority [allocateAlpha] aliceOwns := by
  refine @NamespaceRun.step _ _ _ [] _ _ _ .start ?_ rfl
  intro d _ hd _
  obtain rfl := Except.ok.inj hd
  have hcanon : canonicalize sampleEnv sampleNames (.str "alpha") = "alpha" := by decide +kernel
  refine ⟨?_, fun hop => absurd hop (by decide)⟩
  show PyVal.str "alpha" = .str (canonicalize sampleEnv sampleNames (.str "alpha"))
  rw [hcanon]

/-- The chain of one allocation is such a run. -/
theorem namespace_fold_allocateAlpha :
    ¬((aliceOwns.view sampleEnv "alpha").owner ≠ none ∧
      (aliceOwns.view sampleEnv "alpha").revoked = true) :=
  (namespace_fold namespaceRun_allocateAlpha "alpha").1

/-- Mallory allocates the same name, with a spelling of hers as its canonical form. -/
def respelledAlpha : Receipt :=
  namespaceReceipt opAllocate "mallory" [("name", .str "alpha"), ("canonical", .str "ALPHA")]

/-- An award by a stranger is folded, and so is a second allocation under another spelling. -/
theorem stranger_adjudication_folded :
    project sampleEnv sampleNames [allocateAlpha] = .ok aliceOwns ∧
      adjudicateAlpha.authority ≠ governorAuthority ∧
      (∃ st, project sampleEnv sampleNames [allocateAlpha, adjudicateAlpha] = .ok st ∧
        (aliceOwns.view sampleEnv "alpha").owner = some ⟨.str "alice", .str "alpha", 0⟩ ∧
        (st.view sampleEnv "alpha").owner = some ⟨.str "mallory", .str "alpha", 1⟩) ∧
      ∃ st, project sampleEnv sampleNames [allocateAlpha, respelledAlpha] = .ok st ∧
        (st.view sampleEnv "ALPHA").owner = some ⟨.str "mallory", .str "alpha", 1⟩ :=
  ⟨rfl, by decide, ⟨_, rfl, rfl, rfl⟩, _, rfl, rfl⟩

end Ugk
