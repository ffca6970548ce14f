import Ugk.Native.Readers
import Ugk.Spec.Written

/-!
# Compressed fields and their readers

Which stored values read back as written.  A registered term is compressed to its code and comes
back; any other value is stored as it is, and reads as itself unless `int` makes a code of it.  The
readers that select by the stored text of the operation see what `all_receipts` sees exactly when no
operation is stored as a code.

## Key results

- `expand_eq_self_iff`, `expand_storeField_iff`: when a value survives
- `legend_reads`: the stores of which every reader sees the same receipts
-/

namespace Ugk

open Store

variable {env : Env} {cfg : Config} {clock : Clock}

/-! ## `int` on ASCII text -/

theorem isSpace_ascii {c : Char} (env' : Env) (hc : c.toNat < 128) : isSpace env c = isSpace env' c := by
  unfold isSpace
  rw [if_pos hc, if_pos hc]

theorem decimal_ascii {c : Char} (env' : Env) (hc : c.toNat < 128) :
    decimal? env c = decimal? env' c := by
  unfold decimal?
  rw [if_pos hc, if_pos hc]

theorem intDigits_ascii (env' : Env) {cs : List Char} (acc : Nat) (h : ∀ c ∈ cs, c.toNat < 128) :
    intDigits env cs acc = intDigits env' cs acc := by
  fun_induction intDigits env cs acc with
  | case1 acc => rfl
  | case2 c acc => rw [intDigits, decimal_ascii env' (h c (by simp))]
  | case3 c cs acc ih =>
    rw [intDigits, decimal_ascii env' (h c (by simp))]
    congr 1
    funext d
    exact ih d (fun x hx => h x (by simp [hx]))
  | case4 c cs acc hne hunder ih =>
    rw [intDigits, decimal_ascii env' (h c (by simp))]
    · congr 1
      funext d
      exact ih d (fun x hx => h x (by simp [hx]))
    all_goals assumption

theorem dropWhile_ascii (env' : Env) {cs : List Char} (h : ∀ c ∈ cs, c.toNat < 128) :
    cs.dropWhile (isSpace env) = cs.dropWhile (isSpace env') := by
  induction cs with
  | nil => rfl
  | cons c cs ih =>
    rw [List.forall_mem_cons] at h
    rw [List.dropWhile_cons, List.dropWhile_cons, isSpace_ascii env' h.1, ih h.2]

/-- On ASCII text `int` does not depend on the Unicode tables. -/
theorem pyInt_ascii (env env' : Env) {s : String} (h : isAscii s = true) :
    pyInt env s = pyInt env' s := by
  have hs : ∀ c ∈ s.toList, c.toNat < 128 := by simpa [isAscii] using h
  have hfront : ∀ c ∈ (s.toList.dropWhile (isSpace env')).reverse, c.toNat < 128 := fun c hc =>
    hs c ((List.dropWhile_sublist _).mem (List.mem_reverse.mp hc))
  have hback : ∀ c ∈ ((s.toList.dropWhile (isSpace env')).reverse.dropWhile
      (isSpace env')).reverse, c.toNat < 128 := fun c hc =>
    hfront c ((List.dropWhile_sublist _).mem (List.mem_reverse.mp hc))
  unfold pyInt
  dsimp only
  rw [dropWhile_ascii env' hs, dropWhile_ascii env' hfront]
  split
  · rename_i ds hds
    rw [intDigits_ascii env' 0 fun c hc => hback c (hds ▸ List.mem_cons_of_mem _ hc)]
  · rename_i ds hds
    rw [intDigits_ascii env' 0 fun c hc => hback c (hds ▸ List.mem_cons_of_mem _ hc)]
  · rw [intDigits_ascii env' 0 hback]

/-! ## The legend table -/

/-- `int` reads a registered code off the value. -/
def IsCode (env : Env) (v : String) : Prop :=
  ∃ cid entry, pyInt env v = some cid ∧ legendById cid = some entry

/-- The value is a term of the field's compression map. -/
def Registered (f : CompressedField) (v : String) : Prop := (compressedId f v).isSome = true

/-- No term of the legend is the spelling of a number. -/
theorem pyInt_render {cid : Int} {entry : LegendEntry} (h : legendById cid = some entry) :
    pyInt env entry.render = none := by
  have htable : ∀ e ∈ legendEntries, isAscii e.render = true ∧ pyInt sampleEnv e.render = none := by
    decide +kernel
  obtain ⟨hascii, hnone⟩ := htable entry (List.mem_reverse.mp (List.mem_of_find?_eq_some h))
  rw [pyInt_ascii env sampleEnv hascii, hnone]

/-- A compressed term is stored as a code of itself. -/
theorem compressedId_spec {f : CompressedField} {v : String} {cid : Int}
    (h : compressedId f v = some cid) : ∃ entry, pyInt env (String.ofList (Json.intText cid)) =
      some cid ∧ legendById cid = some entry ∧ entry.render = v := by
  have htable : ∀ e ∈ legendEntries, f.covers e = true →
      isAscii (String.ofList (Json.intText e.csilId)) = true ∧
      pyInt sampleEnv (String.ofList (Json.intText e.csilId)) = some e.csilId ∧
      (legendById e.csilId).map LegendEntry.render = some e.render := by
    cases f <;> decide +kernel
  obtain ⟨e, hfind, rfl⟩ := Option.map_eq_some_iff.mp h
  have hcovers := List.find?_some hfind
  rw [Bool.and_eq_true, beq_iff_eq] at hcovers
  obtain ⟨hascii, hint, hrender⟩ :=
    htable e (List.mem_reverse.mp (List.mem_of_find?_eq_some hfind)) hcovers.1
  obtain ⟨entry, hentry, heq⟩ := Option.map_eq_some_iff.mp hrender
  refine ⟨entry, ?_, hentry, heq.trans hcovers.2⟩
  rw [pyInt_ascii env sampleEnv hascii, hint]

theorem expand_of_code {v : String} {cid : Int} {entry : LegendEntry}
    (hint : pyInt env v = some cid) (hentry : legendById cid = some entry) :
    expand env v = entry.render := by
  simp [expand, hint, hentry]

/-- A value reads as itself unless it is the spelling of a code. -/
theorem expand_eq_self_iff {v : String} : expand env v = v ↔ ¬IsCode env v := by
  constructor
  · rintro hself ⟨cid, entry, hint, hentry⟩
    rw [expand_of_code hint hentry] at hself
    have hnone := @pyInt_render env cid entry hentry
    rw [hself, hint] at hnone
    exact nomatch hnone
  · intro hnot
    unfold expand
    split
    · rename_i cid hint
      split
      · rename_i entry hentry
        exact absurd ⟨cid, entry, hint, hentry⟩ hnot
      · rfl
    · rfl

/-- What a field is stored as: a code of it, or the value itself. -/
theorem storeField_cases (env : Env) (compress : Bool) (f : CompressedField) (v : String) :
    (compress = true ∧ Registered f v) ∧ expand env (storeField compress f v) = v ∧
        IsCode env (storeField compress f v) ∨
      ¬(compress = true ∧ Registered f v) ∧ storeField compress f v = v := by
  cases compress with
  | false => exact .inr ⟨fun h => Bool.noConfusion h.1, rfl⟩
  | true =>
    cases hid : compressedId f v with
    | none =>
      refine .inr ⟨fun h => ?_, ?_⟩
      · have hsome := h.2
        rw [Registered, hid] at hsome
        exact nomatch hsome
      · simp [storeField, compressField, hid]
    | some cid =>
      obtain ⟨entry, hint, hentry, hrender⟩ := @compressedId_spec env f v cid hid
      have hstored : storeField true f v = String.ofList (Json.intText cid) := by
        simp [storeField, compressField, hid]
      rw [hstored]
      exact .inl ⟨⟨rfl, by rw [Registered, hid]; rfl⟩,
        (expand_of_code hint hentry).trans hrender, cid, entry, hint, hentry⟩

/-- A field comes back when it was compressed as a registered term or is not the spelling of a
    code. -/
def Legible (env : Env) (compress : Bool) (f : CompressedField) (v : String) : Prop :=
  (compress = true ∧ Registered f v) ∨ ¬IsCode env v

theorem expand_storeField_iff {compress : Bool} {f : CompressedField} {v : String} :
    expand env (storeField compress f v) = v ↔ Legible env compress f v := by
  obtain ⟨hcoded, hback, -⟩ | ⟨hraw, hsame⟩ := storeField_cases env compress f v
  · exact iff_of_true hback (.inl hcoded)
  · rw [hsame, expand_eq_self_iff, Legible, or_iff_right hraw]

/-- The stored text is no code when the value is none and was not compressed into one. -/
theorem plain_storeField_iff {compress : Bool} {f : CompressedField} {v : String} :
    ¬IsCode env (storeField compress f v) ↔
      ¬(compress = true ∧ Registered f v) ∧ ¬IsCode env v := by
  obtain ⟨hcoded, -, hcode⟩ | ⟨hraw, hsame⟩ := storeField_cases env compress f v
  · exact iff_of_false (not_not.mpr hcode) fun h => h.1 hcoded
  · rw [hsame]
    exact (and_iff_right hraw).symm

/-! ## The rows of a run of writes -/

/-- Make the calls one after the other, whatever becomes of each. -/
def runWrites (cfg : Config) (clock : Clock) : List WriteArgs → StoreState → StoreState
  | [], s => s
  | a :: calls, s => runWrites cfg clock calls (Store.write cfg clock a s).2

/-- The calls that leave a row. -/
def storedCalls (cfg : Config) (clock : Clock) : List WriteArgs → StoreState → List WriteArgs
  | [], _ => []
  | a :: calls, s =>
    let s' := (Store.write cfg clock a s).2
    if (rows s').length = (rows s).length then storedCalls cfg clock calls s'
    else a :: storedCalls cfg clock calls s'

/-- The row of a call, as it is stored and as it is read. -/
structure Stores (env : Env) (a : WriteArgs) (row : Row) (read : Receipt) : Prop where
  reads : rowToReceipt env row = .ok read
  op : row.op = storeField a.compress .op a.op
  authority : read.authority = a.authority
  intent : read.intent = expand env (storeField a.compress .intent a.intentText)
  jurisdiction : read.jurisdiction = expand env (storeField a.compress .jurisdiction a.jurisdiction)
  confidence : read.confidence = expand env (storeField a.compress .confidence a.confidence)

theorem Stores.read_op {a : WriteArgs} {row : Row} {read : Receipt} (h : Stores env a row read) :
    read.op = expand env row.op := by
  obtain ⟨_, _, rfl⟩ := Except.map_eq_ok h.reads
  rfl

theorem stores_of_planned {built : List String} {tip : Tip} {time : FloatLit} {a : WriteArgs}
    {r : Resolved} {receipt : Receipt} {row : Row} (id : Nat)
    (hr : resolveWrite cfg.toEnv a = .ok r)
    (hplan : planWrite cfg built tip time a r = .ok (receipt, row)) :
    ∃ read, Stores cfg.toEnv a { row with receiptId := id } read := by
  obtain ⟨read, hread⟩ := readsAs_of_planned id hr hplan
  obtain ⟨c, sf, hBody, trace, -, -, -, -, rfl, hrow⟩ := planWrite_ok hplan
  obtain ⟨-, rfl⟩ := rowOfReceipt_ok hrow
  have hback := hread.reads
  obtain ⟨_, _, rfl⟩ := Except.map_eq_ok hback
  exact ⟨_, hback, rfl, rfl, rfl, rfl, rfl⟩

/-- A run of writes appends the rows of the calls that stored one. -/
theorem rows_runWrites (calls : List WriteArgs) (s : StoreState) :
    ∃ added : List (Row × Receipt),
      rows (runWrites cfg clock calls s) = rows s ++ added.map Prod.fst ∧
      allReceipts cfg.toEnv (added.map Prod.fst) = .ok (added.map Prod.snd) ∧
      List.Forall₂ (fun a x => Stores cfg.toEnv a x.1 x.2) (storedCalls cfg clock calls s) added := by
  induction calls generalizing s with
  | nil => exact ⟨[], by simp [runWrites], rfl, .nil⟩
  | cons a calls ih =>
    obtain ⟨added, hrows, hreads, hall⟩ := ih (Store.write cfg clock a s).2
    unfold runWrites storedCalls
    obtain hsame | ⟨r, receipt, row, hr, hp, hnew⟩ := @planned_row_of_write cfg clock a s
    · rw [if_pos (congrArg List.length hsame)]
      exact ⟨added, hsame ▸ hrows, hreads, hall⟩
    · have hlong : (rows (Store.write cfg clock a s).2).length ≠ (rows s).length := by
        rw [hnew]
        simp
      rw [if_neg hlong]
      obtain ⟨read, hstores⟩ := stores_of_planned (s.conn.current.seq + 1) hr hp
      refine ⟨(_, read) :: added, ?_, ?_, .cons hstores hall⟩
      · rw [hrows, hnew, List.append_assoc, List.singleton_append]
        rfl
      · rw [allReceipts] at hreads ⊢
        rw [List.map_cons, List.mapM_cons, hstores.reads, hreads]
        rfl

/-! ## What the readers see -/

/-- A receipt repeats the strings of the call. -/
structure Repeats (a : WriteArgs) (read : Receipt) : Prop where
  op : read.op = a.op
  authority : read.authority = a.authority
  intent : read.intent = a.intentText
  jurisdiction : read.jurisdiction = a.jurisdiction
  confidence : read.confidence = a.confidence

/-- The parameters of the receipts of one operation. -/
def parametersOf (receipts : List Receipt) (op : String) : List (Except Exc PyVal) :=
  (receipts.filter fun r => r.op == op).map fun r => .ok r.parameters

/-- Every reader sees the receipts of the calls, as they were given. -/
structure ReadsAgree (env : Env) (rows : List Row) (calls : List WriteArgs) : Prop where
  lossless : ∃ receipts, allReceipts env rows = .ok receipts ∧ List.Forall₂ Repeats calls receipts
  byOp : ∀ op, receiptsByOp env rows op =
    (allReceipts env rows).map fun receipts => receipts.filter fun r => r.op == op
  refusals : (allReceipts env rows).map (fun receipts =>
    receipts.countP fun r => r.op == "gate_refuse") = .ok (refusalCount rows)
  rates : refusalRateByOp env rows = (allReceipts env rows).bind fun receipts =>
    refusalRates env (parametersOf receipts "gate_admit") (parametersOf receipts "gate_refuse")

/-- The call stores its operation as it is and its other fields so that they come back. -/
structure Survives (env : Env) (a : WriteArgs) : Prop where
  op : ¬(a.compress = true ∧ Registered .op a.op) ∧ ¬IsCode env a.op
  intent : Legible env a.compress .intent a.intentText
  jurisdiction : Legible env a.compress .jurisdiction a.jurisdiction
  confidence : Legible env a.compress .confidence a.confidence

theorem Stores.repeats {a : WriteArgs} {row : Row} {read : Receipt} (h : Stores env a row read)
    (ha : Survives env a) : Repeats a read ∧ read.op = row.op := by
  have hplain : read.op = row.op := by
    rw [h.read_op, h.op, expand_eq_self_iff, plain_storeField_iff]
    exact ha.op
  refine ⟨⟨?_, h.authority, ?_, ?_, ?_⟩, hplain⟩
  · rw [h.read_op, h.op, expand_storeField_iff]
    exact .inr ha.op.2
  · rw [h.intent, expand_storeField_iff]
    exact ha.intent
  · rw [h.jurisdiction, expand_storeField_iff]
    exact ha.jurisdiction
  · rw [h.confidence, expand_storeField_iff]
    exact ha.confidence

theorem Stores.survives {a : WriteArgs} {row : Row} {read : Receipt} (h : Stores env a row read)
    (hread : Repeats a read) (hplain : read.op = row.op) : Survives env a where
  op := by
    rw [← plain_storeField_iff, ← expand_eq_self_iff, ← h.op, ← h.read_op]
    exact hplain
  intent := by
    rw [← expand_storeField_iff, ← h.intent]
    exact hread.intent
  jurisdiction := by
    rw [← expand_storeField_iff, ← h.jurisdiction]
    exact hread.jurisdiction
  confidence := by
    rw [← expand_storeField_iff, ← h.confidence]
    exact hread.confidence

/-- When every row is stored under the operation it reads as, every reader sees the same rows. -/
theorem readers_of_plain {added : List (Row × Receipt)}
    (h : ∀ x ∈ added, rowToReceipt env x.1 = .ok x.2 ∧ x.2.op = x.1.op) :
    (∀ op, receiptsByOp env (added.map Prod.fst) op =
      .ok ((added.map Prod.snd).filter fun r => r.op == op)) ∧
    ((added.map Prod.snd).countP fun r => r.op == "gate_refuse") =
      refusalCount (added.map Prod.fst) ∧
    refusalRateByOp env (added.map Prod.fst) =
      refusalRates env (parametersOf (added.map Prod.snd) "gate_admit")
        (parametersOf (added.map Prod.snd) "gate_refuse") := by
  have hsame : ∀ op, ∀ x ∈ added, (x.1.op == op) = (x.2.op == op) := fun op x hx => by
    rw [(h x hx).2]
  have hrows : ∀ op, ((added.map Prod.fst).filter fun row => row.op == op) =
      (added.filter fun x => x.2.op == op).map Prod.fst := fun op => by
    rw [List.filter_map]
    exact congrArg _ (List.filter_congr (hsame op))
  have hreceipts : ∀ op, ((added.map Prod.snd).filter fun r => r.op == op) =
      (added.filter fun x => x.2.op == op).map Prod.snd := fun op => by
    rw [List.filter_map]
    rfl
  refine ⟨fun op => ?_, ?_, ?_⟩
  · rw [receiptsByOp, hrows, hreceipts, mapM_ok_iff, List.forall₂_map_left_iff,
      List.forall₂_map_right_iff, List.forall₂_same]
    exact fun x hx => (h x (List.mem_of_mem_filter hx)).1
  · rw [refusalCount, List.countP_map, List.countP_map]
    exact (List.countP_congr fun x hx => by simp [hsame "gate_refuse" x hx]).symm
  · have hdocuments : ∀ op, (((added.map Prod.fst).filter fun row => row.op == op).map fun row =>
        loads env row.parameters) = parametersOf (added.map Prod.snd) op := by
      intro op
      rw [parametersOf, hrows, hreceipts, List.map_map, List.map_map]
      apply List.map_congr_left
      intro x hx
      obtain ⟨q, hq, hread⟩ := Except.map_eq_ok (h x (List.mem_of_mem_filter hx)).1
      show loads env x.1.parameters = .ok x.2.parameters
      rw [hq, ← hread]
    rw [← hdocuments, ← hdocuments]
    rfl

/-- The readers agree only when every call that stored a row survives. -/
theorem survives_of_readsAgree {stored : List WriteArgs} {added : List (Row × Receipt)}
    (hreads : allReceipts env (added.map Prod.fst) = .ok (added.map Prod.snd))
    (hall : List.Forall₂ (fun a x => Stores env a x.1 x.2) stored added)
    (hagree : ReadsAgree env (added.map Prod.fst) stored) : ∀ a ∈ stored, Survives env a := by
  intro a ha
  obtain ⟨receipts, hreceipts, hrepeats⟩ := hagree.lossless
  obtain rfl := Except.ok.inj (hreads.symm.trans hreceipts)
  rw [List.forall₂_map_right_iff] at hrepeats
  have hboth : List.Forall₂ (fun a x => Stores env a x.1 x.2 ∧ Repeats a x.2) stored added :=
    List.Forall₂.mp (fun _ _ h h' => ⟨h, h'⟩) hall hrepeats
  obtain ⟨⟨row, read⟩, hmem, hstores, hrepeat⟩ := forall₂_mem_left hboth ha
  apply hstores.survives hrepeat
  -- the receipt is among those `receipts_by_op` returns for the stored text of its operation
  have hby := hagree.byOp row.op
  rw [hreads] at hby
  obtain ⟨read', hread', hsame⟩ := forall₂_mem_left (mapM_ok_iff.mp hby)
    (List.mem_filter.mpr ⟨List.mem_map_of_mem hmem, beq_self_eq_true row.op⟩)
  obtain rfl := Except.ok.inj (hsame.symm.trans hstores.reads)
  exact beq_iff_eq.mp (List.mem_filter.mp hread').2

theorem readsAgree_of_survives {stored : List WriteArgs} {added : List (Row × Receipt)}
    (hreads : allReceipts env (added.map Prod.fst) = .ok (added.map Prod.snd))
    (hall : List.Forall₂ (fun a x => Stores env a x.1 x.2) stored added)
    (hsurvive : ∀ a ∈ stored, Survives env a) : ReadsAgree env (added.map Prod.fst) stored := by
  have hplain : ∀ x ∈ added, rowToReceipt env x.1 = .ok x.2 ∧ x.2.op = x.1.op := by
    intro x hx
    obtain ⟨a, ha, hstores⟩ := forall₂_mem_right hall hx
    exact ⟨hstores.reads, (hstores.repeats (hsurvive a ha)).2⟩
  obtain ⟨hby, hcount, hrate⟩ := readers_of_plain hplain
  refine ⟨⟨_, hreads, ?_⟩, ?_, ?_, ?_⟩
  · rw [List.forall₂_map_right_iff]
    exact ((List.forall₂_and_left _ _).mpr ⟨hsurvive, hall⟩).imp fun a x h => (h.2.repeats h.1).1
  · rw [hreads]
    exact hby
  · rw [hreads]
    exact congrArg _ hcount
  · rw [hreads]
    exact hrate

/-- Every reader of the rows of a run of writes into an empty store sees the receipts of the calls
    exactly when every call that stored a row survives. -/
theorem legend_reads (calls : List WriteArgs) (s : StoreState) (hempty : rows s = []) :
    ReadsAgree cfg.toEnv (rows (runWrites cfg clock calls s)) (storedCalls cfg clock calls s) ↔
      ∀ a ∈ storedCalls cfg clock calls s, Survives cfg.toEnv a := by
  obtain ⟨added, hrows, hreads, hall⟩ := @rows_runWrites cfg clock calls s
  rw [hempty, List.nil_append] at hrows
  rw [hrows]
  exact ⟨survives_of_readsAgree hreads hall, readsAgree_of_survives hreads hall⟩

theorem storedCalls_singleton {a : WriteArgs} {s : StoreState}
    (h : isOk (Store.write cfg clock a s).1 = true) : storedCalls cfg clock [a] s = [a] := by
  obtain ⟨row, read, hrows, -⟩ := row_of_isOk h
  have hlong : (rows (Store.write cfg clock a s).2).length ≠ (rows s).length := by
    rw [hrows]
    simp
  rw [storedCalls, storedCalls]
  exact if_neg hlong

theorem survives_sampleWrite : Survives sampleEnv sampleWrite where
  op := ⟨fun h => Bool.noConfusion h.1, expand_eq_self_iff.mp (by decide +kernel)⟩
  intent := .inr (expand_eq_self_iff.mp (by decide +kernel))
  jurisdiction := .inr (expand_eq_self_iff.mp (by decide +kernel))
  confidence := .inr (expand_eq_self_iff.mp (by decide +kernel))

theorem legend_reads_sampleWrite : ReadsAgree sampleEnv
    (rows (runWrites (configOf sampleEnv) sampleClock [sampleWrite] Store.empty)) [sampleWrite] := by
  have hreads := (@legend_reads (configOf sampleEnv) sampleClock [sampleWrite] Store.empty rfl).mpr
  rw [storedCalls_singleton isOk_write_sampleWrite] at hreads
  exact hreads fun a ha => List.mem_singleton.mp ha ▸ survives_sampleWrite

/-- A jurisdiction that is the spelling of a code. -/
def spelledWrite : WriteArgs := { sampleWrite with jurisdiction := "3005" }

/-- A compressed operation. -/
def codedWrite : WriteArgs := { sampleWrite with op := "gate_admit", compress := true }

theorem isOk_write_spelledWrite :
    isOk (Store.write (configOf sampleEnv) sampleClock spelledWrite Store.empty).1 = true :=
  (write_isOk_iff rfl).mpr (by decide +kernel)

theorem isOk_write_codedWrite :
    isOk (Store.write (configOf sampleEnv) sampleClock codedWrite Store.empty).1 = true :=
  (write_isOk_iff rfl).mpr (by decide +kernel)

/-- The first reads as another jurisdiction, and the second is hidden from `receipts_by_op`. -/
theorem readers_disagree :
    ¬ReadsAgree sampleEnv (rows (runWrites (configOf sampleEnv) sampleClock [spelledWrite]
      Store.empty)) [spelledWrite] ∧
    ¬ReadsAgree sampleEnv (rows (runWrites (configOf sampleEnv) sampleClock [codedWrite]
      Store.empty)) [codedWrite] := by
  have hfail : ∀ a, isOk (Store.write (configOf sampleEnv) sampleClock a Store.empty).1 = true →
      ¬Survives sampleEnv a → ¬ReadsAgree sampleEnv
        (rows (runWrites (configOf sampleEnv) sampleClock [a] Store.empty)) [a] := by
    intro a hok hlost hagree
    obtain ⟨added, hrows, hreads, hall⟩ :=
      @rows_runWrites (configOf sampleEnv) sampleClock [a] Store.empty
    rw [storedCalls_singleton hok] at hall
    rw [hrows] at hagree
    exact hlost (survives_of_readsAgree hreads hall hagree a (List.mem_singleton.mpr rfl))
  constructor
  · refine hfail _ isOk_write_spelledWrite fun h => ?_
    obtain ⟨hcompress, -⟩ | hplain := h.jurisdiction
    · exact Bool.noConfusion hcompress
    · rw [← expand_eq_self_iff] at hplain
      exact absurd hplain (by decide +kernel)
  · refine hfail _ isOk_write_codedWrite fun h => h.op.1 ⟨rfl, ?_⟩
    show (compressedId .op "gate_admit").isSome = true
    decide +kernel

end Ugk
