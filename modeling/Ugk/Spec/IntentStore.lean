import Ugk.ForStd.FirstBy
import Ugk.Native.IntentStore
import Ugk.Spec.Will

/-!
# Declarations and revocations in any order

`revoke` marks the row that is there when it is called, whoever declared it, and `declare` stores a
row unmarked.  So the flag of a row is not what the stored revocations say: a revocation that comes
before its declaration marks nothing, and one by a foreign authority marks all the same.

## Key results

- `row_run`: the row of a hash after any sequence of calls
- `lawful_iff_inOrder`: when the active declarations are those without a revocation of their own
- `permutes_iff`: when the order of the calls does not matter
-/

namespace Ugk

namespace IntentTable

/-! ## The kernel's view -/

theorem get_project (t : Tables) (h : String) :
    IntentStore.get (t.declarations.map Row.project) h = (t.row h).map Row.project := by
  unfold IntentStore.get Tables.row
  rw [List.find?_map]
  rfl

/-- The store of the kernel's model is this one without the columns it does not read. -/
theorem declare_project (t : Tables) (d : Declaration) :
    (t.declare d).declarations.map Row.project =
      IntentStore.declare (Row.project { declaration := d }) (t.declarations.map Row.project) := by
  unfold Tables.declare IntentStore.declare
  rw [get_project, Option.isSome_map]
  show (if (t.row d.declarationHash).isSome then t else _).declarations.map Row.project = _
  by_cases h : (t.row d.declarationHash).isSome = true
  · rw [if_pos h]
    exact (if_pos h).symm
  · rw [if_neg h, List.map_append]
    exact (if_neg h).symm

theorem revoke_project (t : Tables) (r : Revocation) :
    (t.revoke r).declarations.map Row.project =
      IntentStore.revoke r.revokedDeclarationHash (t.declarations.map Row.project) := by
  unfold Tables.revoke IntentStore.revoke
  rw [List.map_map, List.map_map]
  refine List.map_congr_left fun row _ => ?_
  show (setRevoked r.revokedDeclarationHash row).project = if row.declaration.declarationHash = _
    then _ else _
  unfold setRevoked
  split <;> rfl

/-! ## The calls -/

/-- The declaration a call stores. -/
def Call.declared? : Call → Option Declaration
  | .declare d => some d
  | .revoke _ => none

/-- The revocation a call stores. -/
def Call.revocation? : Call → Option Revocation
  | .declare _ => none
  | .revoke r => some r

/-- Does the call declare this hash? -/
def Call.declares (h : String) (c : Call) : Bool := c.declared?.any fun d => d.declarationHash == h

/-- Does the call revoke this hash? -/
def Call.revokes (h : String) (c : Call) : Bool :=
  c.revocation?.any fun r => r.revokedDeclarationHash == h

/-- All that the calls declare. -/
def declared (calls : List Call) : List Declaration := calls.filterMap Call.declared?

/-- The revocations the calls leave in the table: the first of each revocation hash. -/
def storedRevocations (calls : List Call) : List Revocation :=
  firstBy Revocation.revocationHash (calls.filterMap Call.revocation?)

/-- What the first call that declares the hash declares. -/
def firstDeclared (calls : List Call) (h : String) : Option Declaration :=
  (declared calls).find? fun d => d.declarationHash == h

/-- Does a call revoke the hash after the first one that declares it? -/
def revokedAfter (calls : List Call) (h : String) : Bool :=
  (calls.dropWhile fun c => !c.declares h).any (Call.revokes h)

/-! ## The row of a hash -/

variable {t : Tables} {calls calls' : List Call} {d : Declaration} {h : String}

theorem row_declare (t : Tables) (d : Declaration) (h : String) :
    (t.declare d).row h = (t.row h).or
      (if d.declarationHash = h then some { declaration := d } else none) := by
  unfold Tables.declare
  split
  · rename_i hsome
    by_cases hd : d.declarationHash = h
    · obtain ⟨row, hrow⟩ := Option.isSome_iff_exists.mp (hd ▸ hsome)
      rw [hrow, Option.some_or]
    · rw [if_neg hd, Option.or_none]
  · unfold Tables.row
    rw [List.find?_append]
    congr 1
    by_cases hd : d.declarationHash = h
    · simp [hd]
    · simp [hd]

theorem row_revoke (t : Tables) (r : Revocation) (h : String) :
    (t.revoke r).row h = (t.row h).map (setRevoked r.revokedDeclarationHash) := by
  have hsame (row : Row) : (setRevoked r.revokedDeclarationHash row).declaration =
      row.declaration := by
    unfold setRevoked
    split <;> rfl
  unfold Tables.row Tables.revoke
  rw [List.find?_map]
  congr 2
  funext row
  exact congrArg (fun d : Declaration => d.declarationHash == h) (hsame row)

theorem hash_of_row {row : Row} (hrow : t.row h = some row) :
    row.declaration.declarationHash = h := by
  simpa using List.find?_some hrow

/-- A row that is there stays, and is marked by every revocation of its hash. -/
theorem row_steps_of_some (calls : List Call) {t : Tables} {row : Row} (hrow : t.row h = some row) :
    (calls.foldl Tables.step t).row h =
      some { row with revoked := row.revoked || calls.any (Call.revokes h) } := by
  induction calls generalizing t row with
  | nil => simpa using hrow
  | cons c calls ih =>
    rw [List.foldl_cons, List.any_cons]
    cases c with
    | declare d =>
      have hstep : (t.step (.declare d)).row h = some row := by
        show (t.declare d).row h = some row
        rw [row_declare, hrow, Option.some_or]
      exact ih hstep
    | revoke r =>
      have hstep : (t.step (.revoke r)).row h = some (setRevoked r.revokedDeclarationHash row) := by
        show (t.revoke r).row h = _
        rw [row_revoke, hrow, Option.map_some]
      rw [ih hstep]
      unfold setRevoked
      rw [hash_of_row hrow]
      by_cases hr : r.revokedDeclarationHash = h
      · simp [Call.revokes, Call.revocation?, hr]
      · have hne : (r.revokedDeclarationHash == h) = false := beq_false_of_ne hr
        simp [Call.revokes, Call.revocation?, hne, Ne.symm hr]

/-- The first declaration makes the row, and the revocations after it mark the row. -/
theorem row_steps_of_none (calls : List Call) {t : Tables} (hrow : t.row h = none) :
    (calls.foldl Tables.step t).row h =
      (firstDeclared calls h).map fun d => ⟨d, revokedAfter calls h⟩ := by
  induction calls generalizing t with
  | nil => exact hrow
  | cons c calls ih =>
    rw [List.foldl_cons]
    cases c with
    | declare d =>
      by_cases hd : d.declarationHash = h
      · have hstep : (t.step (.declare d)).row h = some { declaration := d } := by
          show (t.declare d).row h = _
          rw [row_declare, hrow, if_pos hd, Option.none_or]
        rw [row_steps_of_some calls hstep]
        simp [firstDeclared, declared, revokedAfter, Call.declares, Call.declared?, Call.revokes,
          Call.revocation?, hd]
      · have hstep : (t.step (.declare d)).row h = none := by
          show (t.declare d).row h = _
          rw [row_declare, hrow, if_neg hd, Option.none_or]
        rw [ih hstep]
        simp [firstDeclared, declared, revokedAfter, Call.declares, Call.declared?, hd]
    | revoke r =>
      -- there is no row to mark yet
      have hstep : (t.step (.revoke r)).row h = none := by
        show (t.revoke r).row h = _
        rw [row_revoke, hrow, Option.map_none]
      rw [ih hstep]
      simp [firstDeclared, declared, revokedAfter, Call.declares, Call.declared?]

theorem row_run (calls : List Call) (h : String) : (run calls).row h =
    (firstDeclared calls h).map fun d => ⟨d, revokedAfter calls h⟩ :=
  row_steps_of_none calls rfl

/-! ## The active declarations -/

/-- The hashes of the rows are distinct. -/
theorem nodup_run (calls : List Call) :
    ((run calls).declarations.map fun row => row.declaration.declarationHash).Nodup := by
  have hkeyed : Kernel.Keyed ((run calls).declarations.map Row.project) := by
    unfold run
    have hstart : Kernel.Keyed ((({} : Tables).declarations).map Row.project) := List.nodup_nil
    generalize ({} : Tables) = t at hstart ⊢
    induction calls generalizing t with
    | nil => exact hstart
    | cons c calls ih =>
      apply ih
      cases c with
      | declare d =>
        show Kernel.Keyed ((t.declare d).declarations.map Row.project)
        rw [declare_project]
        exact Kernel.keyed_declare hstart _
      | revoke r =>
        show Kernel.Keyed ((t.revoke r).declarations.map Row.project)
        rw [revoke_project]
        exact Kernel.keyed_revoke hstart _
  unfold Kernel.Keyed at hkeyed
  rw [List.map_map] at hkeyed
  exact hkeyed

theorem mem_declarations_iff {row : Row} : row ∈ (run calls).declarations ↔
    (run calls).row row.declaration.declarationHash = some row := by
  constructor
  · intro hrow
    unfold Tables.row
    cases hfind : (run calls).declarations.find? fun x =>
      x.declaration.declarationHash == row.declaration.declarationHash with
    | none =>
      have := List.find?_eq_none.mp hfind row hrow
      exact absurd (beq_self_eq_true _) this
    | some x =>
      have hhash : x.declaration.declarationHash = row.declaration.declarationHash := by
        simpa using List.find?_some hfind
      rw [List.inj_on_of_nodup_map (nodup_run calls) (List.mem_of_find?_eq_some hfind) hrow hhash]
  · exact List.mem_of_find?_eq_some

/-- A declaration as the store gives it back: with its ops in order. -/
def readBack (d : Declaration) : Declaration := rowToDeclaration { declaration := d }

/-- An open-scope declaration, or one of this scope. -/
def InScope (scope : String) (d : Declaration) : Prop := d.scopeRef = "" ∨ d.scopeRef = scope

/-- The active declarations: the first of their hash, and not revoked from there on. -/
theorem mem_active_iff {scope : String} : d ∈ (run calls).activeDeclarations scope ↔
    ∃ d₀, firstDeclared calls d₀.declarationHash = some d₀ ∧
      revokedAfter calls d₀.declarationHash = false ∧ InScope scope d₀ ∧ readBack d₀ = d := by
  unfold Tables.activeDeclarations InScope
  rw [List.mem_map]
  constructor
  · rintro ⟨row, hrow, rfl⟩
    obtain ⟨hmem, hkept⟩ := List.mem_filter.mp hrow
    have hrun := mem_declarations_iff.mp hmem
    rw [row_run] at hrun
    obtain ⟨d₀, hfirst, heq⟩ := Option.map_eq_some_iff.mp hrun
    have hhash : row.declaration.declarationHash = d₀.declarationHash := by
      rw [← heq]
    rw [hhash] at hfirst heq
    subst heq
    simp only [Bool.and_eq_true, Bool.not_eq_true', Bool.or_eq_true, beq_iff_eq] at hkept
    exact ⟨d₀, hfirst, hkept.1, hkept.2, rfl⟩
  · rintro ⟨d₀, hfirst, hrevoked, hscope, rfl⟩
    refine ⟨⟨d₀, false⟩, List.mem_filter.mpr ⟨?_, by simpa using hscope⟩, rfl⟩
    rw [mem_declarations_iff, row_run, hfirst, hrevoked]
    rfl

theorem revocations_run (calls : List Call) : (run calls).revocations = storedRevocations calls := by
  unfold run storedRevocations
  induction calls using List.reverseRecOn with
  | nil => rfl
  | append_singleton calls c ih =>
    rw [List.foldl_append, List.foldl_cons, List.foldl_nil, List.filterMap_append]
    cases c with
    | declare d =>
      have hsame : ((calls.foldl Tables.step {}).step (.declare d)).revocations =
          (calls.foldl Tables.step {}).revocations := by
        show ((calls.foldl Tables.step {}).declare d).revocations = _
        unfold Tables.declare
        split <;> rfl
      rw [hsame, ih]
      exact congrArg (firstBy _) (List.append_nil _).symm
    | revoke r =>
      have hconcat := firstBy_concat Revocation.revocationHash (calls.filterMap Call.revocation?) r
      show (if _ then _ else _) = firstBy Revocation.revocationHash (_ ++ [r])
      rw [hconcat, ih]
      by_cases hold : r.revocationHash ∈
          (calls.filterMap Call.revocation?).map Revocation.revocationHash
      · rw [if_pos hold]
        exact if_pos ((mem_keys_firstBy _).mpr hold)
      · rw [if_neg hold]
        exact if_neg (mt (mem_keys_firstBy _).mp hold)

/-! ## Lawful stores -/

/-- A stored revocation of the declaration, by its own authority. -/
def OwnRevocation (revocations : List Revocation) (d : Declaration) : Prop :=
  ∃ r ∈ revocations, r.revokedDeclarationHash = d.declarationHash ∧ r.authority = d.authority

/-- The active declarations are the declared ones, of that or open scope, without a stored revocation
    by their own authority, and `is_revoked` says of a declared hash that none of it is active. -/
structure Lawful (calls : List Call) : Prop where
  active : ∀ scope d, d ∈ (run calls).activeDeclarations scope ↔
    ∃ d₀ ∈ declared calls, InScope scope d₀ ∧
      ¬ OwnRevocation (run calls).revocations d₀ ∧ readBack d₀ = d
  isRevoked : ∀ h, (run calls).isRevoked h = true ↔ (∃ d ∈ declared calls, d.declarationHash = h) ∧
    ∀ scope, ∀ d ∈ (run calls).activeDeclarations scope, d.declarationHash ≠ h

/-- The calls come in an order in which the flags say what the revocations do: of each declaration
    either the first call with its hash declares it and none after that revokes it, or its own
    authority has a revocation of it stored. -/
def InOrder (calls : List Call) : Prop :=
  ∀ d ∈ declared calls,
    ((firstDeclared calls d.declarationHash).map readBack = some (readBack d) ∧
        revokedAfter calls d.declarationHash = false) ↔
      ¬ OwnRevocation (storedRevocations calls) d

theorem mem_of_firstDeclared (hfirst : firstDeclared calls h = some d) :
    d ∈ declared calls ∧ d.declarationHash = h :=
  ⟨List.mem_of_find?_eq_some hfirst, by simpa using List.find?_some hfirst⟩

theorem active_of_first (hfirst : firstDeclared calls h = some d)
    (hafter : revokedAfter calls h = false) :
    readBack d ∈ (run calls).activeDeclarations d.scopeRef := by
  have hhash := (mem_of_firstDeclared hfirst).2
  refine mem_active_iff.mpr ⟨d, ?_, ?_, .inr rfl, rfl⟩
  · rw [hhash]
    exact hfirst
  · rw [hhash]
    exact hafter

theorem exists_firstDeclared (hd : d ∈ declared calls) :
    ∃ d₀, firstDeclared calls d.declarationHash = some d₀ := by
  refine Option.isSome_iff_exists.mp (List.find?_isSome.mpr ⟨d, hd, ?_⟩)
  exact beq_self_eq_true _

/-- Reading back keeps all but the order of the ops. -/
theorem fields_of_readBack {d' : Declaration} (heq : readBack d = readBack d') :
    d.declarationHash = d'.declarationHash ∧ d.authority = d'.authority ∧
      d.scopeRef = d'.scopeRef := by
  have hhash : (readBack d).declarationHash = (readBack d').declarationHash := by rw [heq]
  have hauth : (readBack d).authority = (readBack d').authority := by rw [heq]
  have hscope : (readBack d).scopeRef = (readBack d').scopeRef := by rw [heq]
  exact ⟨hhash, hauth, hscope⟩

theorem ownRevocation_readBack {revocations : List Revocation} {d' : Declaration}
    (heq : readBack d = readBack d') :
    OwnRevocation revocations d ↔ OwnRevocation revocations d' := by
  obtain ⟨hhash, hauth, -⟩ := fields_of_readBack heq
  unfold OwnRevocation
  rw [hhash, hauth]

/-- The hashes with an active declaration are the declared ones that are not revoked from there on. -/
theorem isRevoked_run (calls : List Call) (h : String) : (run calls).isRevoked h = true ↔
    (∃ d ∈ declared calls, d.declarationHash = h) ∧
      ∀ scope, ∀ d ∈ (run calls).activeDeclarations scope, d.declarationHash ≠ h := by
  unfold Tables.isRevoked
  rw [row_run, Option.any_map]
  constructor
  · intro hrevoked
    obtain ⟨d, hfirst, hafter⟩ := (Option.any_eq_true _ _).mp hrevoked
    have hafter : revokedAfter calls h = true := hafter
    obtain ⟨hmem, hhash⟩ := mem_of_firstDeclared hfirst
    refine ⟨⟨d, hmem, hhash⟩, fun scope d' hd' heq => ?_⟩
    obtain ⟨d₀, -, hactive, -, rfl⟩ := mem_active_iff.mp hd'
    rw [show d₀.declarationHash = h from heq, hafter] at hactive
    exact nomatch hactive
  · rintro ⟨⟨d, hd, rfl⟩, hnone⟩
    obtain ⟨d₀, hfirst⟩ := exists_firstDeclared hd
    have hhash := (mem_of_firstDeclared hfirst).2
    rw [hfirst]
    show revokedAfter calls d.declarationHash = true
    by_contra hafter
    have hactive := active_of_first hfirst (Bool.not_eq_true _ ▸ hafter)
    exact hnone d₀.scopeRef (readBack d₀) hactive hhash

theorem lawful_iff_inOrder (calls : List Call) : Lawful calls ↔ InOrder calls := by
  constructor
  · intro hlawful d hd
    rw [← revocations_run]
    constructor
    · rintro ⟨hfirst, hafter⟩
      obtain ⟨d₀, hfirst, hread⟩ := Option.map_eq_some_iff.mp hfirst
      have hactive := active_of_first hfirst hafter
      rw [hread] at hactive
      obtain ⟨d₁, -, -, hown, hread₁⟩ := (hlawful.active d₀.scopeRef _).mp hactive
      rwa [← ownRevocation_readBack hread₁]
    · intro hown
      have hactive := (hlawful.active d.scopeRef _).mpr ⟨d, hd, .inr rfl, hown, rfl⟩
      obtain ⟨d₀, hfirst, hafter, -, hread⟩ := mem_active_iff.mp hactive
      have hhash := (fields_of_readBack hread).1
      rw [hhash] at hfirst hafter
      exact ⟨by rw [hfirst, Option.map_some, hread], hafter⟩
  · intro horder
    refine ⟨fun scope d => ?_, isRevoked_run calls⟩
    rw [mem_active_iff, revocations_run]
    constructor
    · rintro ⟨d₀, hfirst, hafter, hscope, rfl⟩
      have hmem := (mem_of_firstDeclared hfirst).1
      refine ⟨d₀, hmem, hscope, (horder d₀ hmem).mp ⟨?_, hafter⟩, rfl⟩
      rw [hfirst, Option.map_some]
    · rintro ⟨d, hd, hscope, hown, rfl⟩
      obtain ⟨hfirst, hafter⟩ := (horder d hd).mpr hown
      obtain ⟨d₀, hfirst, hread⟩ := Option.map_eq_some_iff.mp hfirst
      have hhash := (mem_of_firstDeclared hfirst).2
      have hsame := (fields_of_readBack hread).2.2
      refine ⟨d₀, hhash.symm ▸ hfirst, hhash.symm ▸ hafter, ?_, hread⟩
      unfold InScope
      rw [hsame]
      exact hscope

/-! ## The order of the calls -/

/-- The same declarations are active. -/
def SameActive (calls calls' : List Call) : Prop :=
  ∀ scope d, d ∈ (run calls).activeDeclarations scope ↔
    d ∈ (run calls').activeDeclarations scope

/-- No call revokes a declared hash, and a hash is that of one declaration. -/
structure NoConflict (calls : List Call) : Prop where
  unrevoked : ∀ d ∈ declared calls, ∀ c ∈ calls, c.revokes d.declarationHash = false
  addressed : ∀ d ∈ declared calls, ∀ d' ∈ declared calls,
    d.declarationHash = d'.declarationHash → readBack d = readBack d'

theorem revokedAfter_eq_false (hnone : ∀ c ∈ calls, c.revokes h = false) :
    revokedAfter calls h = false := by
  unfold revokedAfter
  rw [List.any_eq_false]
  intro c hc
  rw [hnone c ((List.dropWhile_suffix _).subset hc)]
  exact Bool.false_ne_true

/-- A declaration is passed over by no prefix that does not declare it. -/
theorem revokedAfter_append_left {pre : List Call} (hpre : ∀ c ∈ pre, c.declares h = false) :
    revokedAfter (pre ++ calls) h = revokedAfter calls h := by
  unfold revokedAfter
  rw [List.dropWhile_append_of_pos]
  intro c hc
  rw [hpre c hc]
  rfl

theorem declares_of_mem (hd : d ∈ declared calls) :
    ∃ c ∈ calls, c.declares d.declarationHash = true := by
  obtain ⟨c, hc, hdeclared⟩ := List.mem_filterMap.mp hd
  refine ⟨c, hc, ?_⟩
  unfold Call.declares
  rw [hdeclared]
  exact beq_self_eq_true _

/-- A revocation behind everything else comes after the declaration. -/
theorem revokedAfter_append_right {post : List Call} (hd : d ∈ declared calls)
    (hpost : ∃ c ∈ post, c.revokes d.declarationHash = true) :
    revokedAfter (calls ++ post) d.declarationHash = true := by
  obtain ⟨c, hc, hrevokes⟩ := hpost
  have hstop : (calls.dropWhile fun c => !c.declares d.declarationHash) ≠ [] := by
    intro hall
    obtain ⟨c', hc', hdeclares⟩ := declares_of_mem hd
    have := List.dropWhile_eq_nil_iff.mp hall c' hc'
    rw [hdeclares] at this
    exact nomatch this
  unfold revokedAfter
  rw [List.dropWhile_append, if_neg (by rwa [List.isEmpty_iff])]
  exact List.any_eq_true.mpr ⟨c, List.mem_append_right _ hc, hrevokes⟩

theorem declared_perm (hperm : calls.Perm calls') : (declared calls).Perm (declared calls') :=
  hperm.filterMap _

theorem noConflict_perm (hperm : calls.Perm calls') (hcalls : NoConflict calls) :
    NoConflict calls' := by
  have hmem (d : Declaration) : d ∈ declared calls' ↔ d ∈ declared calls :=
    (declared_perm hperm).mem_iff.symm
  refine ⟨fun d hd c hc => ?_, fun d hd d' hd' => ?_⟩
  · exact hcalls.unrevoked d ((hmem d).mp hd) c (hperm.mem_iff.mpr hc)
  · exact hcalls.addressed d ((hmem d).mp hd) d' ((hmem d').mp hd')

/-- Without conflicts every declaration is active in its scope. -/
theorem mem_active_of_noConflict (hcalls : NoConflict calls) {scope : String} :
    d ∈ (run calls).activeDeclarations scope ↔
      ∃ d₀ ∈ declared calls, InScope scope d₀ ∧ readBack d₀ = d := by
  rw [mem_active_iff]
  constructor
  · rintro ⟨d₀, hfirst, -, hscope, rfl⟩
    exact ⟨d₀, (mem_of_firstDeclared hfirst).1, hscope, rfl⟩
  · rintro ⟨d₁, hd₁, hscope, rfl⟩
    obtain ⟨d₀, hfirst⟩ := exists_firstDeclared hd₁
    obtain ⟨hmem, hhash⟩ := mem_of_firstDeclared hfirst
    have hread := hcalls.addressed d₀ hmem d₁ hd₁ hhash
    refine ⟨d₀, hhash.symm ▸ hfirst, revokedAfter_eq_false (hcalls.unrevoked d₀ hmem), ?_, hread⟩
    unfold InScope
    rw [(fields_of_readBack hread).2.2]
    exact hscope

/-- A revoked declaration is active or not as the calls are ordered. -/
theorem unrevoked_of_permutes (hall : ∀ calls', calls.Perm calls' → SameActive calls calls')
    (hd : d ∈ declared calls) {c : Call} (hc : c ∈ calls) :
    c.revokes d.declarationHash = false := by
  by_contra hrevokes
  have hrevokes : c.revokes d.declarationHash = true := Bool.not_eq_false _ ▸ hrevokes
  -- all revocations of the hash in front, and all of them behind
  have hfront : (calls.filter (Call.revokes d.declarationHash) ++
      calls.filter fun c => !c.revokes d.declarationHash).Perm calls :=
    List.filter_append_perm _ calls
  have hback := List.perm_append_comm.trans hfront
  have hnone : revokedAfter (calls.filter (Call.revokes d.declarationHash) ++
      calls.filter fun c => !c.revokes d.declarationHash) d.declarationHash = false := by
    rw [revokedAfter_append_left, revokedAfter_eq_false]
    · intro c hc
      simpa using (List.mem_filter.mp hc).2
    · intro c hc
      cases c with
      | declare d' => exact nomatch (List.mem_filter.mp hc).2
      | revoke r => rfl
  obtain ⟨d₀, hfirst⟩ := exists_firstDeclared ((declared_perm hfront).mem_iff.mpr hd)
  have hhash := (mem_of_firstDeclared hfirst).2
  have hactive := (hall _ hback.symm _ _).mp
    ((hall _ hfront.symm _ _).mpr (active_of_first hfirst hnone))
  obtain ⟨d₁, -, hafter, -, hread⟩ := mem_active_iff.mp hactive
  have hbehind : d ∈ declared (calls.filter fun c => !c.revokes d.declarationHash) := by
    obtain ⟨c', hc', hdeclared⟩ := List.mem_filterMap.mp hd
    refine List.mem_filterMap.mpr ⟨c', List.mem_filter.mpr ⟨hc', ?_⟩, hdeclared⟩
    cases c' with
    | declare d' => rfl
    | revoke r => exact nomatch hdeclared
  have hrevoked := revokedAfter_append_right hbehind
    ⟨c, List.mem_filter.mpr ⟨hc, hrevokes⟩, hrevokes⟩
  rw [(fields_of_readBack hread).1, hhash, hrevoked] at hafter
  exact nomatch hafter

/-- The order of the calls does not matter exactly when they do not conflict. -/
theorem permutes_iff (calls : List Call) :
    (∀ calls', calls.Perm calls' → SameActive calls calls') ↔ NoConflict calls := by
  constructor
  · intro hall
    have hunrevoked (d : Declaration) (hd : d ∈ declared calls) (c : Call) (hc : c ∈ calls) :
        c.revokes d.declarationHash = false := unrevoked_of_permutes hall hd hc
    refine ⟨hunrevoked, fun d hd d' hd' hhash => ?_⟩
    -- with either of the two in front, only that one is active
    have hfront (x : Declaration) (hx : x ∈ declared calls) :
        ∃ calls', calls.Perm calls' ∧ firstDeclared calls' x.declarationHash = some x ∧
          revokedAfter calls' x.declarationHash = false := by
      obtain ⟨c, hc, hdeclared⟩ := List.mem_filterMap.mp hx
      have hperm := List.perm_cons_erase hc
      refine ⟨_, hperm, ?_, revokedAfter_eq_false fun c' hc' => ?_⟩
      · unfold firstDeclared declared
        rw [List.filterMap_cons_some hdeclared]
        simp
      · exact hunrevoked x hx c' (hperm.mem_iff.mpr hc')
    obtain ⟨calls₁, hperm₁, hfirst₁, hafter₁⟩ := hfront d hd
    obtain ⟨calls₂, hperm₂, hfirst₂, -⟩ := hfront d' hd'
    have hactive := (hall _ hperm₂ _ _).mp
      ((hall _ hperm₁ _ _).mpr (active_of_first hfirst₁ hafter₁))
    obtain ⟨d₀, hfirst₀, -, -, hread⟩ := mem_active_iff.mp hactive
    rw [(fields_of_readBack hread).1, hhash, hfirst₂] at hfirst₀
    rw [← hread, Option.some.inj hfirst₀]
  · intro hcalls calls' hperm scope d
    rw [mem_active_of_noConflict hcalls, mem_active_of_noConflict (noConflict_perm hperm hcalls)]
    simp only [(declared_perm hperm).mem_iff]

/-! ## Content addresses -/

section Addresses

variable {env : Env} {d' : Declaration} {r r' : Revocation}

/-- The document of a body; two bodies of one document have the same fields. -/
theorem toJson_body (d : Declaration) : toJson env true d.body = .ok (objOf [
    ("authority", .str d.authority), ("declared_ops", .arr (d.declaredOps.map .str)),
    ("scope_ref", .str d.scopeRef), ("scope_type", .str d.scopeType),
    ("timestamp", .str d.timestamp)]) := by
  unfold Declaration.body
  rw [toJson_strDict]
  simp only [jsonItems, toJson_strList, toJson, Except.map]

theorem toJson_revocationBody (r : Revocation) : toJson env true r.body = .ok (objOf [
    ("authority", .str r.authority),
    ("revoked_declaration_hash", .str r.revokedDeclarationHash),
    ("timestamp", .str r.timestamp)]) := by
  unfold Revocation.body
  rw [toJson_strDict]
  simp only [jsonItems, toJson, Except.map]

/-- Is the declaration one that `create` makes? -/
def Declaration.Created (env : Env) (d : Declaration) : Prop :=
  ∃ now ops authority scopeType scopeRef timestamp,
    Declaration.create env now ops authority scopeType scopeRef timestamp = .ok d

/-- Is the revocation one that `create` makes? -/
def Revocation.Created (env : Env) (r : Revocation) : Prop :=
  ∃ now declarationHash authority timestamp,
    Revocation.create env now declarationHash authority timestamp = .ok r

theorem Declaration.hash_of_created (h : d.Created env) : ∃ body,
    bindingCanonicalJson env d.body = .ok body ∧
      d.declarationHash = (env.sha256 (text body)).hex := by
  obtain ⟨now, ops, authority, scopeType, scopeRef, timestamp, hcreate⟩ := h
  unfold Declaration.create at hcreate
  obtain ⟨body, hbody, rfl⟩ := Except.map_eq_ok hcreate
  exact ⟨body, hbody, rfl⟩

theorem Revocation.hash_of_created (h : r.Created env) : ∃ body,
    bindingCanonicalJson env r.body = .ok body ∧
      r.revocationHash = (env.sha256 (text body)).hex := by
  obtain ⟨now, declarationHash, authority, timestamp, hcreate⟩ := h
  unfold Revocation.create at hcreate
  obtain ⟨body, hbody, rfl⟩ := Except.map_eq_ok hcreate
  exact ⟨body, hbody, rfl⟩

/-- A hash names one created declaration. -/
theorem Declaration.eq_of_hash (hinj : Function.Injective env.sha256) (h : d.Created env)
    (h' : d'.Created env) (hhash : d.declarationHash = d'.declarationHash) : d = d' := by
  obtain ⟨body, hbody, hd⟩ := Declaration.hash_of_created h
  obtain ⟨body', hbody', hd'⟩ := Declaration.hash_of_created h'
  rw [hd, hd'] at hhash
  have hsame := text_injective (hinj (Digest.ext_hex hhash))
  unfold bindingCanonicalJson at hbody hbody'
  rw [toJson_body] at hbody hbody'
  rw [← Except.ok.inj hbody, ← Except.ok.inj hbody'] at hsame
  have hdoc := Json.render_injective _ hsame
  have hnames : ["authority", "declared_ops", "scope_ref", "scope_type", "timestamp"].Nodup := by
    decide
  have hitems := by
    refine objOf_injective ?_ ?_ hdoc
    · rfl
    · exact hnames
  simp only [List.cons.injEq, Prod.mk.injEq, Json.str.injEq, Json.arr.injEq, true_and,
    and_true] at hitems
  obtain ⟨hauth, hops, href, htype, htime⟩ := hitems
  have hops := List.map_injective_iff.mpr (fun _ _ h => Json.str.inj h) hops
  cases d
  cases d'
  simp_all

/-- A hash names one created revocation. -/
theorem Revocation.eq_of_hash (hinj : Function.Injective env.sha256) (h : r.Created env)
    (h' : r'.Created env) (hhash : r.revocationHash = r'.revocationHash) : r = r' := by
  obtain ⟨body, hbody, hr⟩ := Revocation.hash_of_created h
  obtain ⟨body', hbody', hr'⟩ := Revocation.hash_of_created h'
  rw [hr, hr'] at hhash
  have hsame := text_injective (hinj (Digest.ext_hex hhash))
  unfold bindingCanonicalJson at hbody hbody'
  rw [toJson_revocationBody] at hbody hbody'
  rw [← Except.ok.inj hbody, ← Except.ok.inj hbody'] at hsame
  have hdoc := Json.render_injective _ hsame
  have hnames : ["authority", "revoked_declaration_hash", "timestamp"].Nodup := by decide
  have hitems := by
    refine objOf_injective ?_ ?_ hdoc
    · rfl
    · exact hnames
  simp only [List.cons.injEq, Prod.mk.injEq, Json.str.injEq, true_and, and_true] at hitems
  obtain ⟨hauth, hdeclared, htime⟩ := hitems
  cases r
  cases r'
  simp_all

/-- Of created artifacts the order is right when each declaration is revoked after its first call
    exactly if its own authority revokes it at all. -/
theorem inOrder_iff_of_created (hinj : Function.Injective env.sha256)
    (hdeclared : ∀ d ∈ declared calls, d.Created env)
    (hrevoked : ∀ r ∈ calls.filterMap Call.revocation?, r.Created env) :
    InOrder calls ↔ ∀ d ∈ declared calls, revokedAfter calls d.declarationHash = true ↔
      OwnRevocation (calls.filterMap Call.revocation?) d := by
  have hfirst (d : Declaration) (hd : d ∈ declared calls) :
      (firstDeclared calls d.declarationHash).map readBack = some (readBack d) := by
    obtain ⟨d₀, hfirst⟩ := exists_firstDeclared hd
    obtain ⟨hmem, hhash⟩ := mem_of_firstDeclared hfirst
    rw [hfirst, Declaration.eq_of_hash hinj (hdeclared d₀ hmem) (hdeclared d hd) hhash]
    rfl
  have hown (d : Declaration) : OwnRevocation (storedRevocations calls) d ↔
      OwnRevocation (calls.filterMap Call.revocation?) d := by
    constructor
    · rintro ⟨r, hr, hnames⟩
      exact ⟨r, firstBy_subset _ _ hr, hnames⟩
    · rintro ⟨r, hr, hnames⟩
      have hkey : r.revocationHash ∈ (storedRevocations calls).map Revocation.revocationHash :=
        (mem_keys_firstBy _).mpr (List.mem_map_of_mem hr)
      obtain ⟨r', hr', hhash⟩ := List.mem_map.mp hkey
      -- the stored revocation with this hash is the same one
      have hsame := Revocation.eq_of_hash hinj (hrevoked r' (firstBy_subset _ _ hr'))
        (hrevoked r hr) hhash
      exact ⟨r, hsame ▸ hr', hnames⟩
  refine forall₂_congr fun d hd => ?_
  rw [hown, and_iff_right (hfirst d hd), ← Bool.not_eq_true]
  exact not_iff_not

end Addresses

/-- When the store is lawful, and when the order of the calls does not matter to it. -/
theorem intent_store_laws (calls : List Call) :
    (Lawful calls ↔ InOrder calls) ∧
      ((∀ calls', calls.Perm calls' → SameActive calls calls') ↔ NoConflict calls) :=
  ⟨lawful_iff_inOrder calls, permutes_iff calls⟩

/-- A declaration of the governor. -/
def writeIntent : Declaration where
  declarationHash := "declaration"
  declaredOps := ["write"]
  scopeType := "session"
  scopeRef := ""
  authority := "governor"
  timestamp := "2026-01-01T00:00:00Z"

/-- A revocation of it. -/
def writeRevocation (authority : String) : Revocation where
  revocationHash := "revocation"
  revokedDeclarationHash := "declaration"
  authority := authority
  timestamp := "2026-01-01T00:00:01Z"

/-- Revoked before it is stored, the declaration is active; revoked by a stranger, it is not. -/
theorem revocations_misapplied :
    (writeIntent ∈ Tables.activeDeclarations
        (run [.revoke (writeRevocation "governor"), .declare writeIntent]) ∧
      ¬ Lawful [.revoke (writeRevocation "governor"), .declare writeIntent]) ∧
    writeIntent ∉ Tables.activeDeclarations
        (run [.declare writeIntent, .revoke (writeRevocation "stranger")]) ∧
      ¬ Lawful [.declare writeIntent, .revoke (writeRevocation "stranger")] := by
  have hown : OwnRevocation [writeRevocation "governor"] writeIntent :=
    ⟨_, List.mem_singleton_self _, rfl, rfl⟩
  have hforeign : ¬ OwnRevocation [writeRevocation "stranger"] writeIntent := by
    rintro ⟨r, hr, -, hauth⟩
    obtain rfl := List.mem_singleton.mp hr
    exact absurd hauth (show "stranger" ≠ "governor" by decide)
  refine ⟨⟨by decide, fun h => ?_⟩, ⟨by decide, fun h => ?_⟩⟩
  · have horder := (lawful_iff_inOrder _).mp h writeIntent (by decide)
    exact horder.mp ⟨by decide, by decide⟩ hown
  · have horder := (lawful_iff_inOrder _).mp h writeIntent (by decide)
    exact absurd (horder.mpr hforeign).2 (by decide)

end IntentTable

end Ugk
