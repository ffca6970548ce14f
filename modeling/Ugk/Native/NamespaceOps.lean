import Ugk.Native.Execute
import Ugk.Native.NamespaceGovernance

/-!
# Namespace operations

The governed calls of `ugk/namespace_governance.py`: each one is an `execute` behind a gate that
folds the receipt chain.  The gates compare with the authority as it was given; `execute` and the
fold know the one of the receipt.
-/

namespace Ugk

open Store Kernel

variable (rt : Runtime) (names : NameText)

/-- `_project(kernel._store)` -/
def projectWorld (w : World) : Except Exc NamespaceState := do
  let receipts ← allReceipts rt.toEnv (rows w.store)
  project rt.toEnv names receipts

/-- `owner_of(kernel._store, name)` -/
def ownerOfWorld (w : World) (name : String) : Except Exc PyVal := do
  let receipts ← allReceipts rt.toEnv (rows w.store)
  ownerOf rt.toEnv names receipts (.str name)

/-- `canonicalize(name)` -/
def canonOf (name : String) : String := canonicalize rt.toEnv names (.str name)

/-! ## Gates -/

/-- A gate that looks at the store and leaves it alone. -/
def readGate (f : World → Except Exc Bool) : Proc World Exc Bool := fun w => (f w, w)

/-- `make_allocation_gate` -/
def allocationGate (name : String) : Proc World Exc Bool := readGate fun w => do
  let canon := canonOf rt names name
  if canon = "" then .ok false
  else
    let st ← projectWorld rt names w
    .ok ((st.ownerRecord rt.toEnv (.str canon)).isNone && !st.isRevoked rt.toEnv (.str canon))

/-- The gate of the owner: `argument` is the truth of the other argument of the call. -/
def ownerGate (name : String) (authority : Option String) (argument : Bool) :
    Proc World Exc Bool := readGate fun w => do
  if canonOf rt names name = "" ∨ argument = false then .ok false
  else
    let owner ← ownerOfWorld rt names w name
    .ok (pyEq rt.toEnv owner (.ofOpt authority))

/-- The gate of the Governor, whose name is read when the call is made. -/
def governorGate (gov name awardedOwner : String) (authority : Option String) :
    Proc World Exc Bool := readGate fun w => do
  let canon := canonOf rt names name
  if canon = "" ∨ awardedOwner = "" then .ok false
  else if gov = "" ∨ authority ≠ some gov then .ok false
  else
    let st ← projectWorld rt names w
    .ok (!st.isRevoked rt.toEnv (.str canon))

/-! ## Calls -/

/-- The arguments of a governed call on a name. -/
def namespaceArgs (op name : String) (authority : Option String) (more : List (String × PyVal))
    (gate : Proc World Exc Bool) : ExecuteArgs :=
  { op := op
    authority := .ofOpt authority
    parameters := strDict ([("name", .str name), ("canonical", .str (canonOf rt names name))] ++ more)
    gate := some gate
    jurisdiction := "namespace" }

/-- `allocate` -/
def allocate (name : String) (authority : Option String) : Proc World Exc PyVal :=
  execute rt (namespaceArgs rt names opAllocate name authority [] (allocationGate rt names name))

/-- `delegate` -/
def delegate (name delegateAuthority : String) (authority : Option String) : Proc World Exc PyVal :=
  execute rt (namespaceArgs rt names opDelegate name authority
    [("delegate_authority", .str delegateAuthority)]
    (ownerGate rt names name authority (delegateAuthority != "")))

/-- `revoke` -/
def revoke (name : String) (authority : Option String) : Proc World Exc PyVal :=
  execute rt (namespaceArgs rt names opRevoke name authority []
    (ownerGate rt names name authority true))

/-- `invalidate` -/
def invalidate (name : String) (authority : Option String) : Proc World Exc PyVal :=
  execute rt (namespaceArgs rt names opInvalidate name authority []
    (ownerGate rt names name authority true))

/-- `supersede` -/
def supersede (name newOwner : String) (authority : Option String) : Proc World Exc PyVal :=
  execute rt (namespaceArgs rt names opSupersede name authority [("new_owner", .str newOwner)]
    (ownerGate rt names name authority (newOwner != "")))

/-- `adjudicate` -/
def adjudicate (name awardedOwner : String) (authority : Option String) : Proc World Exc PyVal := do
  let w ← Proc.get
  execute rt (namespaceArgs rt names opAdjudicate name authority
    [("awarded_owner", .str awardedOwner)]
    (governorGate rt names w.kernel.mosaicRoot name awardedOwner authority))

end Ugk
