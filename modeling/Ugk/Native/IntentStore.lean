import Mathlib.Data.List.Sort
import Mathlib.Data.String.Basic
import Ugk.Native.Will

/-!
# The intent store

`ugk/intent.py` with all the columns of its two tables: the declarations, each with the flag that
`revoke` sets, and the revocations, which only `revoke` itself writes.
-/

namespace Ugk

namespace IntentTable

/-- `IntentDeclaration` -/
structure Declaration where
  declarationHash : String
  declaredOps : List String
  scopeType : String
  scopeRef : String
  authority : String
  timestamp : String
deriving DecidableEq

/-- `IntentRevocation` -/
structure Revocation where
  revocationHash : String
  revokedDeclarationHash : String
  authority : String
  timestamp : String
deriving DecidableEq

/-- `sorted` of texts. -/
def sorted (ops : List String) : List String := ops.insertionSort (· ≤ ·)

/-- The body whose hash identifies a declaration. -/
def Declaration.body (d : Declaration) : PyVal := strDict [
  ("authority", .str d.authority), ("declared_ops", strList d.declaredOps),
  ("scope_ref", .str d.scopeRef), ("scope_type", .str d.scopeType),
  ("timestamp", .str d.timestamp)]

/-- `IntentDeclaration.create`, at the time `now`. -/
def Declaration.create (env : Env) (now : String) (declaredOps : List String) (authority : String)
    (scopeType : String := "session") (scopeRef : String := "") (timestamp : Option String := none) :
    Except Exc Declaration :=
  let d : Declaration := {
    declarationHash := ""
    declaredOps := sorted declaredOps.dedup
    scopeType := scopeType
    scopeRef := scopeRef
    authority := authority
    timestamp := if timestamp.getD "" = "" then now else timestamp.getD "" }
  (bindingCanonicalJson env d.body).map fun body =>
    { d with declarationHash := (env.sha256 (text body)).hex }

/-- The body whose hash identifies a revocation. -/
def Revocation.body (r : Revocation) : PyVal := strDict [
  ("authority", .str r.authority), ("revoked_declaration_hash", .str r.revokedDeclarationHash),
  ("timestamp", .str r.timestamp)]

/-- `IntentRevocation.create`, at the time `now`. -/
def Revocation.create (env : Env) (now : String) (revokedDeclarationHash authority : String)
    (timestamp : Option String := none) : Except Exc Revocation :=
  let r : Revocation := {
    revocationHash := ""
    revokedDeclarationHash := revokedDeclarationHash
    authority := authority
    timestamp := if timestamp.getD "" = "" then now else timestamp.getD "" }
  (bindingCanonicalJson env r.body).map fun body =>
    { r with revocationHash := (env.sha256 (text body)).hex }

/-- A row of `intent_declarations`. -/
structure Row where
  declaration : Declaration
  revoked : Bool := false
deriving DecidableEq

/-- The database of an `IntentStore`. -/
structure Tables where
  declarations : List Row := []
  revocations : List Revocation := []

/-- The row with a declaration hash, the primary key. -/
def Tables.row (t : Tables) (declarationHash : String) : Option Row :=
  t.declarations.find? fun row => row.declaration.declarationHash == declarationHash

/-- `declare`: INSERT OR IGNORE. -/
def Tables.declare (t : Tables) (d : Declaration) : Tables :=
  if (t.row d.declarationHash).isSome then t
  else { t with declarations := t.declarations ++ [{ declaration := d }] }

/-- `UPDATE intent_declarations SET revoked=1 WHERE declaration_hash=?` -/
def setRevoked (declarationHash : String) (row : Row) : Row :=
  if row.declaration.declarationHash = declarationHash then { row with revoked := true } else row

/-- `revoke`: INSERT OR IGNORE, and the flag of whatever row has the hash. -/
def Tables.revoke (t : Tables) (r : Revocation) : Tables where
  declarations := t.declarations.map (setRevoked r.revokedDeclarationHash)
  revocations :=
    if r.revocationHash ∈ t.revocations.map Revocation.revocationHash then t.revocations
    else t.revocations ++ [r]

/-- `_row_to_declaration` -/
def rowToDeclaration (row : Row) : Declaration :=
  { row.declaration with declaredOps := sorted row.declaration.declaredOps }

/-- `get` -/
def Tables.get (t : Tables) (declarationHash : String) : Option Declaration :=
  (t.row declarationHash).map rowToDeclaration

/-- `is_revoked` -/
def Tables.isRevoked (t : Tables) (declarationHash : String) : Bool :=
  (t.row declarationHash).any Row.revoked

/-- `active_declarations` -/
def Tables.activeDeclarations (t : Tables) (scopeRef : String := "") : List Declaration :=
  (t.declarations.filter fun row => !row.revoked &&
    (row.declaration.scopeRef == "" || row.declaration.scopeRef == scopeRef)).map rowToDeclaration

/-- A call on the store. -/
inductive Call where
  | declare (d : Declaration)
  | revoke (r : Revocation)
deriving DecidableEq

/-- The tables after a call. -/
def Tables.step (t : Tables) : Call → Tables
  | .declare d => t.declare d
  | .revoke r => t.revoke r

/-- The tables after a sequence of calls on a fresh store. -/
def run (calls : List Call) : Tables := calls.foldl Tables.step {}

/-- What the kernel's model keeps of a row. -/
def Row.project (row : Row) : IntentDeclaration where
  declarationHash := row.declaration.declarationHash
  declaredOps := row.declaration.declaredOps
  scopeRef := row.declaration.scopeRef
  revoked := row.revoked

end IntentTable

end Ugk
