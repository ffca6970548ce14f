import Ugk.Native.EpochPrune
import Ugk.Spec.History
import Ugk.Spec.LegendReads

/-!
# What linkage says about the rows of a list

`verify_stream_hash` and `verify_from_seal` look at `h_r` and `parent_h_r` only.  For rows that
writes produced this settles a whole list from its last row: position by position it has the
commitments of the chain that row belongs to.  What a root does not commit (the timestamp, the
confidence, the receipt id) it does not settle.

## Key results

- `sameCommitted_of_hR`: written rows with one root have the same commitments and the same parent
- `linkage_binds_chain`: what the linkage verifiers accept, from genesis, a checkpoint or a seal
- `eq_of_matches`: rows of the chain itself are accepted in the order of the chain only
- `twin_row_accepted`: a list that is accepted and is not the chain
-/

namespace Ugk

open Store

variable {env : Env} {cfg cfg' : Config} {clock : Clock} {a a' : WriteArgs}

/-! ## Written rows -/

/-- A write of this call, on some store, appended the row. -/
def WrittenBy (cfg : Config) (a : WriteArgs) (row : Row) : Prop :=
  ∃ clock s, rows (Store.write cfg clock a s).2 = rows s ++ [row]

/-- Some store's write appended the row. -/
def Written (env : Env) (row : Row) : Prop := ∃ cfg a, cfg.toEnv = env ∧ WrittenBy cfg a row

/-- Every row of the list was appended by a write, of one store or another. -/
def WrittenRows (env : Env) (rows : List Row) : Prop := ∀ row ∈ rows, Written env row

/-- The columns of a row hold the commitments of its call after some tip. -/
structure Commits (cfg : Config) (a : WriteArgs) (row : Row) (r : Resolved) (built : List String)
    (tip : Tip) (c : Commitments) : Prop where
  resolved : resolveWrite cfg.toEnv a = .ok r
  commitments : commitments cfg built tip a r.parameters = .ok c
  hS : row.hS = c.hS.hex
  hC : row.hC = c.hC.hex
  hM : row.hM = c.hM.hex
  hJ : row.hJ = some c.hJ.hex
  hR : row.hR = c.hR.hex
  parentHR : row.parentHR = tip.priorHR

/-- The plan of a written row. -/
theorem planned_of_written {row : Row} (h : WrittenBy cfg a row) :
    ∃ clock s r receipt row', resolveWrite cfg.toEnv a = .ok r ∧
      planned cfg clock a r s = .ok (receipt, row') ∧
      row = { row' with receiptId := s.conn.current.seq + 1 } := by
  obtain ⟨clock, s, hrows⟩ := h
  rcases planned_row_of_write a s with hsame | ⟨r, receipt, row', hr, hplan, happended⟩
  · -- a write that appended nothing has no row
    have hlength := congrArg List.length (hsame.symm.trans hrows)
    simp at hlength
  · have hrow := List.append_cancel_left (hrows.symm.trans happended)
    exact ⟨clock, s, r, receipt, row', hr, hplan, by simpa using hrow⟩

theorem commits_of_written {row : Row} (h : WrittenBy cfg a row) :
    ∃ r built tip c, Commits cfg a row r built tip c := by
  obtain ⟨clock, s, r, receipt, row', hr, hplan, rfl⟩ := planned_of_written h
  obtain ⟨c, sf, hBody, trace, hcom, _, _, _, rfl, hrow⟩ := planWrite_ok hplan
  obtain ⟨_, rfl⟩ := rowOfReceipt_ok hrow
  exact ⟨r, _, s.tip, c, hr, hcom, rfl, rfl, rfl, rfl, rfl, rfl⟩

/-- A written row reads back, and its root is not empty. -/
theorem reads_of_written {row : Row} (h : Written env row) :
    ∃ r, rowToReceipt env row = .ok r ∧ r.hR ≠ "" := by
  obtain ⟨cfg, a, rfl, hw⟩ := h
  obtain ⟨clock, s, r, receipt, row', hr, hplan, rfl⟩ := planned_of_written hw
  obtain ⟨⟨read, hread⟩, _, _, hne⟩ := linkage_of_planned (s.conn.current.seq + 1) hr hplan
  refine ⟨read, hread, ?_⟩
  rw [(hashes_of_rowToReceipt hread).1]
  exact hne

/-! ## What a root settles -/

/-- Calls that the commitments cannot tell apart. -/
structure SameCall (cfg cfg' : Config) (a a' : WriteArgs) : Prop where
  op : nfc cfg.toEnv a.op = nfc cfg.toEnv a'.op
  authority : nfc cfg.toEnv a.authority = nfc cfg.toEnv a'.authority
  parameters : ∀ r r', resolveWrite cfg.toEnv a = .ok r → resolveWrite cfg.toEnv a' = .ok r' →
    SameDoc cfg.toEnv r.parameters r'.parameters
  intent : nfc cfg.toEnv a.intentText = nfc cfg.toEnv a'.intentText
  intentRef : nfc cfg.toEnv a.intentRef = nfc cfg.toEnv a'.intentRef
  policy : lookupPolicyId cfg a.jurisdiction = lookupPolicyId cfg' a'.jurisdiction
  legendHash : nfc cfg.toEnv a.legendHash = nfc cfg.toEnv a'.legendHash
  sessionDkn : nfc cfg.toEnv a.sessionDkn = nfc cfg.toEnv a'.sessionDkn
  warrantId : nfc cfg.toEnv a.warrantId = nfc cfg.toEnv a'.warrantId

/-- Rows that agree in everything a root commits. -/
structure SameCommitted (env : Env) (row row' : Row) : Prop where
  hS : row.hS = row'.hS
  hC : row.hC = row'.hC
  hM : row.hM = row'.hM
  hJ : row.hJ = row'.hJ
  hR : row.hR = row'.hR
  parentHR : row.parentHR = row'.parentHR
  call : ∀ cfg cfg' a a', cfg.toEnv = env → cfg'.toEnv = env → WrittenBy cfg a row →
    WrittenBy cfg' a' row' → SameCall cfg cfg' a a'

/-- The commitments under one root, and the calls they were computed from. -/
theorem sameCall_of_hR (hinj : Function.Injective cfg.sha256) (henv : cfg'.toEnv = cfg.toEnv)
    {row row' : Row} {r r' : Resolved} {built built' : List String} {tip tip' : Tip}
    {c c' : Commitments} (h : Commits cfg a row r built tip c)
    (h' : Commits cfg' a' row' r' built' tip' c') (heq : row.hR = row'.hR) :
    c.hS = c'.hS ∧ c.hC = c'.hC ∧ c.hM = c'.hM ∧ c.hJ = c'.hJ ∧
      SameDoc cfg.toEnv (.str tip.priorHR) (.str tip'.priorHR) ∧ SameCall cfg cfg' a a' := by
  obtain ⟨path, caps, hpath, hs, hc, hm, hj, hroot⟩ := commitments_ok h.commitments
  obtain ⟨path', caps', hpath', hs', hc', hm', hj', hroot'⟩ := commitments_ok h'.commitments
  rw [henv] at hs' hc' hm' hj' hroot'
  have hR : c'.hR = c.hR := Digest.ext_hex (h'.hR.symm.trans (heq.symm.trans h.hR))
  rw [hR] at hroot'
  obtain ⟨e1, e2, e3, e4, _⟩ := computeHR_injective hinj hroot hroot'
  obtain ⟨hop, hparams⟩ := hS_determines hinj hs (e1 ▸ hs')
  obtain ⟨hchain, hpolicy, hbasis, hparent⟩ := hC_determines hinj hc (e2 ▸ hc')
  obtain ⟨hintent, href, hlegend⟩ := hM_determines hinj hm (e3 ▸ hm')
  have hsession := hJ_determines hinj hj (e4 ▸ hj')
  refine ⟨e1, e2, e3, e4, hparent, ?_⟩
  exact {
    op := nfc_eq_of_sameDoc hop
    authority := authority_of_paths hpath hpath' hchain
    parameters := by
      intro q q' hq hq'
      have hr' := h'.resolved
      rw [henv] at hr'
      rw [Except.ok.inj (hq.symm.trans h.resolved), Except.ok.inj (hq'.symm.trans hr')]
      exact hparams
    intent := nfc_eq_of_sameDoc hintent
    intentRef := nfc_eq_of_sameDoc href
    policy := eq_of_sameDoc_ascii (Digest.ascii _) (Digest.ascii _) hpolicy
    legendHash := nfc_eq_of_sameDoc hlegend
    sessionDkn := nfc_eq_of_sameDoc hsession
    warrantId := warrant_of_basis hbasis }

/-- Written rows with one root agree in everything the root commits, the parent included. -/
theorem sameCommitted_of_hR (hinj : Function.Injective env.sha256) {row row' : Row}
    (h : Written env row) (h' : Written env row') (hascii : isAscii row.parentHR = true)
    (hascii' : isAscii row'.parentHR = true) (heq : row.hR = row'.hR) :
    SameCommitted env row row' := by
  obtain ⟨cfg, a, rfl, hw⟩ := h
  obtain ⟨cfg', a', henv, hw'⟩ := h'
  obtain ⟨r, built, tip, c, hc⟩ := commits_of_written hw
  obtain ⟨r', built', tip', c', hc'⟩ := commits_of_written hw'
  obtain ⟨e1, e2, e3, e4, hparent, -⟩ := sameCall_of_hR hinj henv hc hc' heq
  refine ⟨?_, ?_, ?_, ?_, heq, ?_, ?_⟩
  · rw [hc.hS, hc'.hS, e1]
  · rw [hc.hC, hc'.hC, e2]
  · rw [hc.hM, hc'.hM, e3]
  · rw [hc.hJ, hc'.hJ, e4]
  · rw [hc.parentHR] at hascii ⊢
    rw [hc'.parentHR] at hascii' ⊢
    exact eq_of_sameDoc_ascii hascii hascii' hparent
  · intro k k' b b' hk hk' hb hb'
    obtain ⟨_, _, _, _, hcb⟩ := commits_of_written hb
    obtain ⟨_, _, _, _, hcb'⟩ := commits_of_written hb'
    have hinj' : Function.Injective k.sha256 := by rw [hk]; exact hinj
    exact (sameCall_of_hR hinj' (hk'.trans hk.symm) hcb hcb' heq).2.2.2.2.2

/-! ## Chains of rows -/

/-- Rows that writes appended, each naming the one before it, the first one genesis. -/
structure HonestChain (env : Env) (chain : List Row) : Prop where
  written : WrittenRows env chain
  linked : Chain.Linked Row.hR Row.parentHR genesis chain

/-- The rows after the first one with this root. -/
def rowsAfter (root : String) : List Row → List Row
  | [] => []
  | row :: rest => if row.hR = root then rest else rowsAfter root rest

/-- The list has the commitments of this part of the chain, position by position, and a row of the
    chain that occurs in it occurs at its own place. -/
def Matches (env : Env) (chain rows part : List Row) : Prop :=
  List.Forall₂ (fun row own => SameCommitted env row own ∧ (row ∈ chain → row = own)) rows part

theorem isAscii_hR {row : Row} (h : Written env row) : isAscii row.hR = true := by
  obtain ⟨cfg, a, _, hw⟩ := h
  obtain ⟨_, _, _, c, hc⟩ := commits_of_written hw
  rw [hc.hR]
  exact c.hR.ascii

/-- The parents of linked written rows are roots or the anchor. -/
theorem isAscii_parentHR {g : String} (hg : isAscii g = true) {xs : List Row}
    (hw : WrittenRows env xs) (hl : Chain.Linked Row.hR Row.parentHR g xs) :
    ∀ row ∈ xs, isAscii row.parentHR = true := by
  induction xs generalizing g with
  | nil => exact fun row hrow => nomatch hrow
  | cons x xs ih =>
    obtain ⟨hx, hxs⟩ := List.forall_mem_cons.mp hw
    rw [List.forall_mem_cons]
    refine ⟨?_, ih (isAscii_hR hx) hxs hl.2⟩
    rw [hl.1]
    exact hg

/-- A written row whose parent its root settles, and whose root is not the genesis hash. -/
structure Settled (env : Env) (row : Row) : Prop where
  written : Written env row
  ascii : isAscii row.parentHR = true
  rooted : row.hR ≠ genesis

theorem settled_of_linked {g : String} (hg : isAscii g = true) {xs : List Row}
    (hw : WrittenRows env xs) (hl : Chain.Linked Row.hR Row.parentHR g xs)
    (hgen : ∀ row ∈ xs, row.hR ≠ genesis) : ∀ row ∈ xs, Settled env row :=
  fun row hrow => ⟨hw row hrow, isAscii_parentHR hg hw hl row hrow, hgen row hrow⟩

theorem settled_own (hinj : Function.Injective env.sha256) (x y : Row) (hx : Settled env x)
    (hy : Settled env y) (h : x.hR = y.hR) : SameCommitted env x y ∧ x.parentHR = y.parentHR := by
  have hsame := sameCommitted_of_hR hinj hx.written hy.written hx.ascii hy.ascii h
  exact ⟨hsame, hsame.parentHR⟩

/-- Corresponding rows and a chain without repeated roots: the rows of the chain are at their own
    places. -/
theorem matches_of_forall₂ {chain rows part : List Row} (hnodup : (chain.map Row.hR).Nodup)
    (hpart : part ⊆ chain) (h : List.Forall₂ (SameCommitted env) rows part) :
    Matches env chain rows part := by
  unfold Matches
  induction h with
  | nil => exact .nil
  | @cons row own rows part hsame _ ih =>
    obtain ⟨hown, hrest⟩ := List.cons_subset.mp hpart
    exact .cons ⟨hsame, fun hrow => List.inj_on_of_nodup_map hnodup hrow hown hsame.hR⟩ (ih hrest)

/-- Rows of the chain itself are that part of the chain: none is missing, repeated or moved. -/
theorem eq_of_matches {chain rows part : List Row} (h : Matches env chain rows part)
    (hsub : rows ⊆ chain) : rows = part := by
  unfold Matches at h
  induction h with
  | nil => rfl
  | cons hrow _ ih =>
    obtain ⟨hmem, hrest⟩ := List.cons_subset.mp hsub
    rw [hrow.2 hmem, ih hrest]

/-! ## The rows after a root -/

theorem rowsAfter_append {root : String} {before after : List Row} {row : Row}
    (hrow : row.hR = root) (hbefore : ∀ x ∈ before, x.hR ≠ root) :
    rowsAfter root (before ++ row :: after) = after := by
  induction before with
  | nil => exact if_pos hrow
  | cons x before ih =>
    obtain ⟨hx, hrest⟩ := List.forall_mem_cons.mp hbefore
    exact (if_neg hx).trans (ih hrest)

theorem rowsAfter_subset (root : String) (rows : List Row) : rowsAfter root rows ⊆ rows := by
  induction rows with
  | nil => exact List.Subset.refl []
  | cons row rest ih =>
    unfold rowsAfter
    split
    · exact List.subset_cons_self row rest
    · exact fun x hx => List.mem_cons_of_mem row (ih hx)

/-- The rows after a root end where the list ends. -/
theorem tip_rowsAfter {root : String} (g : String) {rows : List Row}
    (h : ∃ row ∈ rows, row.hR = root) :
    Chain.tip Row.hR root (rowsAfter root rows) = Chain.tip Row.hR g rows := by
  induction rows generalizing g with
  | nil =>
    obtain ⟨row, hrow, -⟩ := h
    exact nomatch hrow
  | cons x rest ih =>
    unfold rowsAfter
    split
    · rename_i hx
      show _ = Chain.tip Row.hR x.hR rest
      rw [hx]
    · rename_i hx
      refine ih x.hR ?_
      obtain ⟨row, hrow, hroot⟩ := h
      rcases List.mem_cons.mp hrow with rfl | hrow
      · exact absurd hroot hx
      · exact ⟨row, hrow, hroot⟩

/-! ## What the verifiers look at -/

theorem hashes_of_allReceipts {rows : List Row} {receipts : List Receipt}
    (h : allReceipts env rows = .ok receipts) :
    List.Forall₂ (fun (r : Receipt) (row : Row) => r.hR = row.hR ∧ r.parentHR = row.parentHR)
      receipts rows :=
  ((mapM_ok_iff.mp h).imp fun _ _ hread => hashes_of_rowToReceipt hread).flip

/-- The linkage loop over the receipts that were read says how their rows are linked. -/
theorem linked_rows {prior : String} {rows : List Row} {receipts : List Receipt}
    (h : List.Forall₂ (fun (r : Receipt) (row : Row) => r.hR = row.hR ∧ r.parentHR = row.parentHR)
      receipts rows) (hl : linked prior receipts = true) :
    Chain.Linked Row.hR Row.parentHR prior rows :=
  (Chain.linked_congr prior h).mp ((linked_iff prior receipts).mp hl).1

/-- The receipts after a checkpoint are those of the rows after it. -/
theorem rowsAfter_of_checkpoint {root prior : String} {rows : List Row}
    {receipts rest : List Receipt}
    (h : List.Forall₂ (fun (r : Receipt) (row : Row) => r.hR = row.hR ∧ r.parentHR = row.parentHR)
      receipts rows) (hck : afterCheckpoint receipts (some root) = some (prior, rest)) :
    prior = root ∧ (∃ row ∈ rows, row.hR = root) ∧
      List.Forall₂ (fun (r : Receipt) (row : Row) => r.hR = row.hR ∧ r.parentHR = row.parentHR)
        rest (rowsAfter root rows) := by
  induction h with
  | nil => exact nomatch hck
  | @cons r row receipts rows hrow hrows ih =>
    unfold afterCheckpoint at hck
    unfold rowsAfter
    rw [← hrow.1]
    split at hck
    · rename_i hroot
      obtain ⟨rfl, rfl⟩ := Prod.mk.inj (Option.some.inj hck)
      rw [if_pos hroot]
      exact ⟨rfl, ⟨row, List.mem_cons_self, hrow.1 ▸ hroot⟩, hrows⟩
    · rename_i hroot
      obtain ⟨hprior, ⟨x, hx, hxroot⟩, hrest⟩ := ih hck
      rw [if_neg hroot]
      exact ⟨hprior, ⟨x, List.mem_cons_of_mem row hx, hxroot⟩, hrest⟩

/-- What `verify_stream_hash` has looked at when it accepts a list. -/
theorem linked_of_accepted {rows : List Row} (h : verifyStreamHash env rows = .ok true) :
    Chain.Linked Row.hR Row.parentHR genesis rows := by
  obtain ⟨receipts, hread, hb⟩ := Except.map_eq_ok h
  have hhashes := hashes_of_allReceipts hread
  cases receipts with
  | nil =>
    cases hhashes
    trivial
  | cons r rest => exact linked_rows hhashes (by simpa [afterCheckpoint] using hb)

/-- Of written rows `verify_stream_hash` accepts the linked ones. -/
theorem accepted_of_linked {rows : List Row} (hw : WrittenRows env rows)
    (hl : Chain.Linked Row.hR Row.parentHR genesis rows) : verifyStreamHash env rows = .ok true := by
  have hread : ∃ receipts, allReceipts env rows = .ok receipts ∧ ∀ r ∈ receipts, r.hR ≠ "" := by
    clear hl
    induction rows with
    | nil => exact ⟨[], rfl, fun _ h => nomatch h⟩
    | cons row rest ih =>
      obtain ⟨hrow, hrest⟩ := List.forall_mem_cons.mp hw
      obtain ⟨r, hr, hne⟩ := reads_of_written hrow
      obtain ⟨receipts, hreceipts, hnes⟩ := ih hrest
      refine ⟨r :: receipts, ?_, List.forall_mem_cons.mpr ⟨hne, hnes⟩⟩
      rw [allReceipts] at hreceipts ⊢
      rw [List.mapM_cons, hr, hreceipts]
      rfl
  obtain ⟨receipts, hreceipts, hnes⟩ := hread
  exact verifyStreamHash_of_linked hreceipts
    ((Chain.linked_congr genesis (hashes_of_allReceipts hreceipts)).mpr hl) hnes

theorem linked_of_checkpoint {root : String} {rows : List Row} (hne : rows ≠ [])
    (h : verifyStreamHash env rows (some root) = .ok true) :
    (∃ row ∈ rows, row.hR = root) ∧
      Chain.Linked Row.hR Row.parentHR root (rowsAfter root rows) := by
  obtain ⟨receipts, hread, hb⟩ := Except.map_eq_ok h
  have hhashes := hashes_of_allReceipts hread
  have hnonempty : receipts.isEmpty = false := by
    cases hhashes with
    | nil => exact absurd rfl hne
    | cons _ _ => rfl
  rw [hnonempty, Bool.false_or] at hb
  split at hb
  · exact nomatch hb
  · rename_i prior rest hck
    obtain ⟨rfl, hmem, hrest⟩ := rowsAfter_of_checkpoint hhashes hck
    exact ⟨hmem, linked_rows hrest hb⟩

theorem linked_of_seal {root : String} {rows : List Row}
    (h : verifyFromSeal env rows root = .ok true) :
    Chain.Linked Row.hR Row.parentHR root rows := by
  obtain ⟨receipts, hread, hb⟩ := Except.map_eq_ok h
  exact linked_rows (hashes_of_allReceipts hread) hb

/-! ## What the verifiers settle -/

theorem HonestChain.settled {chain : List Row} (h : HonestChain env chain)
    (hgen : ∀ row ∈ chain, row.hR ≠ genesis) : ∀ row ∈ chain, Settled env row :=
  settled_of_linked (by decide) h.written h.linked hgen

section Binding

variable (hinj : Function.Injective env.sha256) {chain : List Row} (hchain : HonestChain env chain)
    (hgen : ∀ row ∈ chain, row.hR ≠ genesis)

include hinj hchain hgen

theorem nodup_roots : (chain.map Row.hR).Nodup :=
  Chain.nodup_own (settled_own hinj) (fun _ h => h.rooted) chain
    (hchain.settled hgen) hchain.linked

/-- Written rows linked from an ASCII anchor to the tip of the chain are the part of it that follows
    the anchor. -/
theorem matches_of_linked {root : String} {xs : List Row} (hascii : isAscii root = true)
    (hw : WrittenRows env xs) (hgen' : ∀ row ∈ xs, row.hR ≠ genesis)
    (hl : Chain.Linked Row.hR Row.parentHR root xs)
    (htip : Chain.tip Row.hR root xs = Chain.tip Row.hR genesis chain) :
    ∃ pre post, chain = pre ++ post ∧ Chain.tip Row.hR genesis pre = root ∧
      Matches env chain xs post := by
  have hsettled := hchain.settled hgen
  obtain ⟨pre, post, hsplit, hpre, hall⟩ := Chain.suffix_of_tip_eq
    (settled_own hinj) (fun _ h => h.rooted) xs chain (settled_of_linked hascii hw hl hgen') hsettled
    hl hchain.linked htip
  refine ⟨pre, post, hsplit, hpre, ?_⟩
  refine matches_of_forall₂ (nodup_roots hinj hchain hgen) ?_ hall
  rw [hsplit]
  exact List.subset_append_right pre post

/-- A chain is cut in one place only by a root in it. -/
theorem rowsAfter_of_tip {root : String} {pre post : List Row} (hsplit : chain = pre ++ post)
    (hpre : Chain.tip Row.hR genesis pre = root) (hroot : root ≠ genesis) :
    (∃ row ∈ chain, row.hR = root) ∧ rowsAfter root chain = post := by
  cases pre using List.reverseRecOn with
  | nil => exact absurd hpre.symm hroot
  | append_singleton pre row =>
    rw [Chain.tip_concat] at hpre
    have hnodup := nodup_roots hinj hchain hgen
    rw [hsplit, List.append_assoc] at hnodup
    rw [hsplit, List.append_assoc]
    refine ⟨⟨row, by simp, hpre⟩, rowsAfter_append hpre fun x hx heq => ?_⟩
    rw [List.map_append, List.nodup_append] at hnodup
    refine hnodup.2.2 x.hR (List.mem_map_of_mem hx) row.hR ?_ (heq.trans hpre.symm)
    simp

end Binding

/-- A list of written rows that ends in the last row of an honest chain: accepted from genesis it is
    the chain, accepted from a checkpoint or a seal it is the part of the chain after it, up to what
    roots do not commit. -/
theorem linkage_binds_chain (hinj : Function.Injective env.sha256) {chain rows : List Row}
    {last : Row} (hchain : HonestChain env chain) (hw : WrittenRows env rows)
    (hgen : ∀ row ∈ rows ++ chain, row.hR ≠ genesis) (hlast : rows.getLast? = some last)
    (hlast' : chain.getLast? = some last) :
    (verifyStreamHash env rows = .ok true → Matches env chain rows chain) ∧
      (∀ root, verifyStreamHash env rows (some root) = .ok true →
        (∃ row ∈ chain, row.hR = root) ∧
          Matches env chain (rowsAfter root rows) (rowsAfter root chain)) ∧
      (∀ root, (∃ row ∈ chain, row.hR = root) → verifyFromSeal env rows root = .ok true →
        Matches env chain rows (rowsAfter root chain)) := by
  obtain ⟨hgen_rows, hgen_chain⟩ := List.forall_mem_append.mp hgen
  have hend (g : String) : Chain.tip Row.hR g rows = Chain.tip Row.hR genesis chain :=
    (Chain.tip_of_getLast? hlast).trans (Chain.tip_of_getLast? hlast').symm
  refine ⟨fun h => ?_, fun root h => ?_, fun root hroot h => ?_⟩
  · obtain ⟨pre, post, hsplit, hpre, hall⟩ := matches_of_linked hinj hchain hgen_chain (by decide) hw
      hgen_rows (linked_of_accepted h) (hend genesis)
    -- nothing of the chain is left before the genesis
    have hnil : pre = [] := by
      refine Chain.eq_nil_of_tip_eq (fun x hx => hgen_chain x ?_) hpre
      rw [hsplit]
      exact List.mem_append_left post hx
    obtain rfl : chain = post := by rw [hsplit, hnil, List.nil_append]
    exact hall
  · have hne : rows ≠ [] := by
      rintro rfl
      exact nomatch hlast
    obtain ⟨⟨row, hrow, heq⟩, hl⟩ := linked_of_checkpoint hne h
    have hsub := rowsAfter_subset root rows
    have hascii : isAscii root = true := heq ▸ isAscii_hR (hw row hrow)
    have hroot : root ≠ genesis := heq ▸ hgen_rows row hrow
    obtain ⟨pre, post, hsplit, hpre, hall⟩ := matches_of_linked hinj hchain hgen_chain hascii
      (fun x hx => hw x (hsub hx)) (fun x hx => hgen_rows x (hsub hx)) hl
      ((tip_rowsAfter root ⟨row, hrow, heq⟩).trans (hend root))
    obtain ⟨hmem, hafter⟩ := rowsAfter_of_tip hinj hchain hgen_chain hsplit hpre hroot
    rw [hafter]
    exact ⟨hmem, hall⟩
  · obtain ⟨row, hrow, rfl⟩ := hroot
    obtain ⟨pre, post, hsplit, hpre, hall⟩ := matches_of_linked hinj hchain hgen_chain
      (isAscii_hR (hchain.written row hrow)) hw hgen_rows (linked_of_seal h) (hend row.hR)
    obtain ⟨_, hafter⟩ := rowsAfter_of_tip hinj hchain hgen_chain hsplit hpre (hgen_chain row hrow)
    rw [hafter]
    exact hall

/-! ## Stores leave honest chains -/

/-- A store without failures whose rows are an honest chain, with the last root as its tip. -/
structure Grows (cfg : Config) (s : StoreState) : Prop where
  faults : s.faults = []
  chain : HonestChain cfg.toEnv (rows s)
  tip : s.tip.priorHR = Chain.tip Row.hR genesis (rows s)

theorem Grows.write {s : StoreState} (h : Grows cfg s) (a : WriteArgs) :
    Grows cfg (Store.write cfg clock a s).2 := by
  cases hacc : accepted cfg (ensureDefaultEdgeFor cfg s.built a.authority) a with
  | false =>
    obtain ⟨e, s', hw, htables, htip, -, hfaults, -⟩ := write_rejected clock hacc
    rw [hw]
    exact ⟨hfaults.trans h.faults, htables.rows_eq ▸ h.chain,
      htip ▸ htables.rows_eq ▸ h.tip⟩
  | true =>
    obtain ⟨r, receipt, row, hr, hplan⟩ := planned_of_accepted clock hacc
    obtain ⟨_, hroot, hparent, _⟩ := linkage_of_planned (s.conn.current.seq + 1) hr hplan
    have hwrite : (Store.write cfg clock a s).2 = appended receipt row (sampled cfg a s) := by
      rw [write_of_planned hr hplan]
      rcases append_cases receipt row (sampled cfg a s) with ⟨hf, _⟩ | ⟨_, _, hc, _⟩ | ⟨_, _, happ⟩
      · exact absurd hf (not_faulty_of_nil h.faults)
      · exact absurd hc (not_faulty_of_nil (congrArg List.tail h.faults))
      · rw [happ]
    have hrows : rows (Store.write cfg clock a s).2 =
        rows s ++ [{ row with receiptId := s.conn.current.seq + 1 }] := by
      rw [hwrite]
      exact rows_appended ..
    refine ⟨?_, ⟨?_, ?_⟩, ?_⟩
    · rw [hwrite]
      exact faults_appended receipt row h.faults
    · rw [hrows, WrittenRows, List.forall_mem_append]
      refine ⟨h.chain.written, fun x hx => ?_⟩
      rw [List.mem_singleton.mp hx]
      exact ⟨cfg, a, rfl, clock, s, hrows⟩
    · rw [hrows, Chain.linked_concat]
      exact ⟨h.chain.linked, hparent.trans h.tip⟩
    · rw [hrows, hwrite, Chain.tip_concat]
      exact hroot.symm

/-- The rows that writes leave, whatever their arguments, are an honest chain. -/
theorem Grows.runWrites {s : StoreState} (h : Grows cfg s) (calls : List WriteArgs) :
    Grows cfg (runWrites cfg clock calls s) := by
  induction calls generalizing s with
  | nil => exact h
  | cons a calls ih => exact ih (h.write a)

theorem grows_empty : Grows cfg Store.empty where
  faults := rfl
  chain := ⟨fun _ h => absurd h List.not_mem_nil, trivial⟩
  tip := rfl

/-- A hash that never comes out as genesis gives no row the genesis as its root. -/
theorem hR_ne_genesis (hhash : ∀ m, (env.sha256 m).hex ≠ genesis) {row : Row}
    (h : Written env row) : row.hR ≠ genesis := by
  obtain ⟨cfg, a, rfl, hw⟩ := h
  obtain ⟨_, _, _, c, hc⟩ := commits_of_written hw
  obtain ⟨_, _, _, _, _, _, _, hroot⟩ := commitments_ok hc.commitments
  rw [computeHR_strictLeaves] at hroot
  rw [hc.hR, ← Except.ok.inj hroot]
  exact hhash _

/-! ## Twins -/

/-- One call at two times leaves rows that differ in their timestamps only, under one root. -/
theorem twin_of_clocks {clock' : Clock} {s : StoreState} {receipt receipt' : Receipt}
    (h : (Store.write cfg clock a s).1 = .ok receipt)
    (h' : (Store.write cfg clock' a s).1 = .ok receipt') :
    ∃ row row', rows (Store.write cfg clock a s).2 = rows s ++ [row] ∧
      rows (Store.write cfg clock' a s).2 = rows s ++ [row'] ∧ row.hR = row'.hR ∧
      row.parentHR = row'.parentHR ∧ row.timestamp = .fin (clock s.ticks) ∧ row'.timestamp = .fin (clock' s.ticks) := by
  obtain ⟨r, planned', row, hr, hplan, -, hstate⟩ := write_ok h
  obtain ⟨r', planned'', row', hr', hplan', -, hstate'⟩ := write_ok h'
  obtain rfl := Except.ok.inj (hr.symm.trans hr')
  obtain ⟨c, sf, hBody, trace, hcom, _, _, _, rfl, hrow⟩ := planWrite_ok hplan
  obtain ⟨c', sf', hBody', trace', hcom', _, _, _, rfl, hrow'⟩ := planWrite_ok hplan'
  obtain rfl := Except.ok.inj (hcom.symm.trans hcom')
  obtain ⟨_, rfl⟩ := rowOfReceipt_ok hrow
  obtain ⟨_, rfl⟩ := rowOfReceipt_ok hrow'
  rw [hstate, hstate']
  exact ⟨_, _, rows_appended .., rows_appended .., rfl, rfl, rfl, rfl⟩

/-- A chain and a list of written rows that `verify_stream_hash` accepts and that ends in the last
    row of the chain. -/
structure AcceptedAs (env : Env) (chain rows : List Row) : Prop where
  honest : HonestChain env chain
  written : WrittenRows env rows
  accepted : verifyStreamHash env rows = .ok true
  last : ∃ last, rows.getLast? = some last ∧ chain.getLast? = some last

def laterClock : Clock := fun _ => ⟨"2.5".toList, by decide⟩

/-- The second row of a store after the twin of its first one. -/
theorem exists_twin_list : ∃ chain rows, AcceptedAs sampleEnv chain rows ∧ rows ≠ chain := by
  have hiff (clock : Clock) (s : StoreState) (hf : s.faults = []) :=
    @write_isOk_iff (configOf sampleEnv) clock sampleWrite s hf
  have hacc := (hiff sampleClock Store.empty rfl).mp isOk_write_sampleWrite
  obtain ⟨receipt, hw⟩ := isOk_iff.mp isOk_write_sampleWrite
  obtain ⟨receipt', hw'⟩ := isOk_iff.mp ((hiff laterClock Store.empty rfl).mpr hacc)
  obtain ⟨row, twin, hrows, htwin, hroot, hparent, htime, htime'⟩ := twin_of_clocks hw hw'
  cases hstate : Store.write (configOf sampleEnv) sampleClock sampleWrite Store.empty with
  | mk result s =>
    rw [hstate] at hw hrows
    obtain rfl : result = .ok receipt := hw
    obtain ⟨_, hbuilt, hfaults⟩ := write_after hstate
    have hgrows : Grows (configOf sampleEnv) s := by
      have h := @Grows.write (configOf sampleEnv) sampleClock Store.empty grows_empty sampleWrite
      rwa [hstate] at h
    -- the second write of the store
    have hacc' : accepted (configOf sampleEnv)
        (ensureDefaultEdgeFor (configOf sampleEnv) s.built sampleWrite.authority) sampleWrite =
        true := by
      rw [hbuilt, ensureDefaultEdgeFor_idem]
      exact hacc
    obtain ⟨receipt₂, hw₂⟩ := isOk_iff.mp ((hiff sampleClock s hgrows.faults).mpr hacc')
    obtain ⟨last, _, hrows₂, -⟩ := row_of_isOk (isOk_iff.mpr ⟨receipt₂, hw₂⟩)
    have hchain := (@Grows.write _ sampleClock s hgrows sampleWrite).chain
    rw [hrows₂, hrows] at hchain
    have hwritten : WrittenRows sampleEnv [twin, last] := by
      have hfirst : Written sampleEnv twin := ⟨configOf sampleEnv, _, rfl, laterClock, _, htwin⟩
      have hsecond : Written sampleEnv last := hchain.written last (by simp)
      simp only [WrittenRows, List.forall_mem_cons]
      exact ⟨hfirst, hsecond, fun _ h => nomatch h⟩
    refine ⟨[row, last], [twin, last], ⟨hchain, hwritten, ?_, last, rfl, rfl⟩, ?_⟩
    · -- the twin links to genesis as the first row does, and the last row to the root of both
      have hl : Chain.Linked Row.hR Row.parentHR genesis [row, last] := hchain.linked
      refine accepted_of_linked hwritten ⟨?_, hl.2.1.trans hroot, trivial⟩
      rw [← hparent]
      exact hl.1
    · intro heq
      rw [← (List.cons.inj heq).1, htime'] at htime
      exact absurd htime (by decide)

theorem linkage_binds_chain_twins : ∃ chain rows, rows ≠ chain ∧
    Matches sampleEnv chain rows chain := by
  obtain ⟨chain, rows, ⟨hchain, hw, hv, last, hlast, hlast'⟩, hne⟩ := exists_twin_list
  have hgen : ∀ row ∈ rows ++ chain, row.hR ≠ genesis := by
    refine List.forall_mem_append.mpr ⟨fun row hrow => ?_, fun row hrow => ?_⟩
    · exact hR_ne_genesis (fun m => sampleHash_hex_ne m (by decide)) (hw row hrow)
    · exact hR_ne_genesis (fun m => sampleHash_hex_ne m (by decide)) (hchain.written row hrow)
  exact ⟨chain, rows, hne,
    (linkage_binds_chain sampleHash_injective hchain hw hgen hlast hlast').1 hv⟩

/-- A list of written rows that is accepted and ends in the last row of an honest chain, and that is
    not the chain: a root does not commit the time of the write. -/
theorem twin_row_accepted : ∃ chain rows last, HonestChain sampleEnv chain ∧
    WrittenRows sampleEnv rows ∧ verifyStreamHash sampleEnv rows = .ok true ∧
    rows.getLast? = some last ∧ chain.getLast? = some last ∧ rows ≠ chain := by
  obtain ⟨chain, rows, ⟨hchain, hw, hv, last, hlast, hlast'⟩, hne⟩ := exists_twin_list
  exact ⟨chain, rows, last, hchain, hw, hv, hlast, hlast', hne⟩

end Ugk
