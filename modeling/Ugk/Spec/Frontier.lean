import Ugk.Spec.Sample
import Ugk.Spec.StructuralLinkage

/-!
# The recovery frontier

`last_valid_frontier` and `verify_stream_hash` scan the same table.  Where the second one finds a
broken link, the first one should name the receipt before it.  It does so everywhere except at the
first receipt: there it answers `None`, which is its answer for an intact chain.

## Key results

- `frontierFrom_spec`: what the scan answers, with the prefix it has accepted
- `exactFrontier_iff`: the tables on which the frontier is exact
-/

namespace Ugk

open Store

variable {env : Env}

/-! ## The two scans -/

/-- `verify_stream_hash` runs the linkage loop over what was read. -/
theorem verifyStreamHash_of_reads {rows : List Row} {receipts : List Receipt}
    (h : allReceipts env rows = .ok receipts) :
    verifyStreamHash env rows = .ok (linked genesis receipts) := by
  unfold verifyStreamHash
  rw [h]
  cases receipts with
  | nil => rfl
  | cons r rest => rfl

theorem lastValidFrontier_of_reads {rows : List Row} {receipts : List Receipt}
    (h : allReceipts env rows = .ok receipts) :
    lastValidFrontier env rows = .ok (frontierFrom genesis none receipts) := by
  unfold lastValidFrontier
  rw [h]
  cases receipts with
  | nil => rfl
  | cons r rest => rfl

/-- The receipts split at the first broken link: those before it link, and the answer is the last
    of them. -/
structure SplitAt (prior : String) (lastValid : Option Nat) (receipts before : List Receipt)
    (broken : Receipt) (after : List Receipt) : Prop where
  split : receipts = before ++ broken :: after
  accepted : linked prior before = true
  refused : linked prior (before ++ [broken]) = false
  answer : frontierFrom prior lastValid receipts =
    (before.getLast?.map Receipt.receiptId).or lastValid

/-- The scan reaches the end of a linked list, or it stops at the first broken link. -/
theorem frontierFrom_spec (prior : String) (lastValid : Option Nat) (receipts : List Receipt) :
    (linked prior receipts = true ∧ frontierFrom prior lastValid receipts = none) ∨
      linked prior receipts = false ∧
        ∃ before broken after, SplitAt prior lastValid receipts before broken after := by
  induction receipts generalizing prior lastValid with
  | nil => exact .inl ⟨rfl, rfl⟩
  | cons r rest ih =>
    by_cases hr : r.hR = "" ∨ r.parentHR ≠ prior
    · -- the link of `r` itself is broken, and nothing before it is left
      have hbroken (tail : List Receipt) : linked prior (r :: tail) = false := by
        rcases hr with hr | hr <;> simp [linked, hr]
      refine .inr ⟨hbroken rest, [], r, rest, rfl, rfl, hbroken [], ?_⟩
      show (if r.hR = "" ∨ r.parentHR ≠ prior then lastValid else _) = lastValid
      rw [if_pos hr]
    · have hlinked (tail : List Receipt) : linked prior (r :: tail) = linked r.hR tail := by
        obtain ⟨hne, hparent⟩ := not_or.mp hr
        simp [linked, hne, not_not.mp hparent]
      have hscan : frontierFrom prior lastValid (r :: rest) =
          frontierFrom r.hR (some r.receiptId) rest := if_neg hr
      rw [hlinked, hscan]
      refine (ih r.hR (some r.receiptId)).imp id fun h => ⟨h.1, ?_⟩
      obtain ⟨before, broken, after, h⟩ := h.2
      refine ⟨r :: before, broken, after, congrArg (r :: ·) h.split, ?_, ?_, ?_⟩
      · rw [hlinked, h.accepted]
      · rw [List.cons_append, hlinked, h.refused]
      · rw [hscan, h.answer]
        cases before with
        | nil => rfl
        | cons first others => rw [List.getLast?_cons_cons, List.getLast?_cons]; rfl

/-! ## Exactness -/

/-- The answer for the rows before the first broken link: the last of them, and where there is none
    an answer that is neither `None` nor a receipt of the table. -/
def Pinpoints (frontier : Option Nat) (rows before : List Row) : Prop :=
  match before.getLast? with
  | some last => frontier = some last.receiptId
  | none => frontier ≠ none ∧ ∀ row ∈ rows, frontier ≠ some row.receiptId

/-- The frontier tells an intact table from a broken one, and names the end of the longest prefix
    that verifies. -/
def ExactFrontier (env : Env) (rows : List Row) : Prop :=
  ∃ frontier intact, lastValidFrontier env rows = .ok frontier ∧
    verifyStreamHash env rows = .ok intact ∧
    (frontier = none ↔ rows = [] ∨ intact = true) ∧
    (intact = false → ∃ before broken after, rows = before ++ broken :: after ∧
      verifyStreamHash env before = .ok true ∧
      verifyStreamHash env (before ++ [broken]) = .ok false ∧
      Pinpoints frontier rows before)

/-- What was read of a split table is split in the same place. -/
theorem allReceipts_split {rows : List Row} {before after : List Receipt} {broken : Receipt}
    (h : allReceipts env rows = .ok (before ++ broken :: after)) :
    ∃ rowsBefore row rowsAfter, rows = rowsBefore ++ row :: rowsAfter ∧
      allReceipts env rowsBefore = .ok before ∧ rowToReceipt env row = .ok broken := by
  have hreads := mapM_ok_iff.mp h
  have hbefore := List.forall₂_take_append rows before (broken :: after) hreads
  have hafter := List.forall₂_drop_append rows before (broken :: after) hreads
  revert hafter
  generalize hdrop : rows.drop before.length = tail
  intro hafter
  cases hafter with
  | @cons row _ rowsAfter _ hrow _ =>
    refine ⟨rows.take before.length, row, rowsAfter, ?_, mapM_ok_iff.mpr hbefore, hrow⟩
    rw [← hdrop, List.take_append_drop]

/-- On an intact table the scan answers `None`. -/
theorem exactFrontier_of_linked {rows : List Row} {receipts : List Receipt}
    (hread : allReceipts env rows = .ok receipts) (hlinked : linked genesis receipts = true)
    (hscan : frontierFrom genesis none receipts = none) : ExactFrontier env rows := by
  refine ⟨none, true, ?_, ?_, by simp, nofun⟩
  · rw [lastValidFrontier_of_reads hread, hscan]
  · rw [verifyStreamHash_of_reads hread, hlinked]

/-- A broken link behind the first receipt is pinpointed. -/
theorem exactFrontier_of_split {rows : List Row} {receipts before after : List Receipt}
    {broken : Receipt} (hread : allReceipts env rows = .ok receipts)
    (hlinked : linked genesis receipts = false)
    (h : SplitAt genesis none receipts before broken after) (hne : before ≠ []) :
    ExactFrontier env rows := by
  obtain ⟨rowsBefore, row, rowsAfter, hrows, hbefore, hrow⟩ := allReceipts_split (h.split ▸ hread)
  -- the last receipt of the prefix was read from the last row of it
  obtain ⟨rowsInit, last, rfl⟩ : ∃ init last, rowsBefore = init ++ [last] := by
    refine (List.eq_nil_or_concat' rowsBefore).resolve_left ?_
    rintro rfl
    exact hne (Except.ok.inj hbefore).symm
  have hlast : before.getLast?.map Receipt.receiptId = some last.receiptId := by
    obtain ⟨_, r, _, hr, rfl⟩ := allReceipts_of_concat hbefore
    obtain ⟨_, _, rfl⟩ := Except.map_eq_ok hr
    simp
  refine ⟨some last.receiptId, false, ?_, ?_, ?_, fun _ =>
    ⟨rowsInit ++ [last], row, rowsAfter, hrows, ?_, ?_, ?_⟩⟩
  · rw [lastValidFrontier_of_reads hread, h.answer, hlast]
    rfl
  · rw [verifyStreamHash_of_reads hread, hlinked]
  · rw [hrows]
    simp
  · rw [verifyStreamHash_of_reads hbefore, h.accepted]
  · rw [verifyStreamHash_of_reads (allReceipts_concat hbefore hrow), h.refused]
  · unfold Pinpoints
    rw [List.getLast?_concat]

/-- The frontier is exact on the tables that can be read and whose first receipt, if there is one,
    links to the genesis constant. -/
theorem exactFrontier_iff (env : Env) (rows : List Row) :
    ExactFrontier env rows ↔
      (∃ receipts, allReceipts env rows = .ok receipts) ∧
        ∀ row, rows.head? = some row → row.hR ≠ "" ∧ row.parentHR = genesis := by
  constructor
  · rintro ⟨frontier, intact, hfrontier, hintact, hnone, -⟩
    obtain ⟨receipts, hread, -⟩ := Except.map_eq_ok hintact
    refine ⟨⟨receipts, hread⟩, fun first hfirst => ?_⟩
    rw [lastValidFrontier_of_reads hread, Except.ok.injEq] at hfrontier
    rw [verifyStreamHash_of_reads hread, Except.ok.injEq] at hintact
    obtain ⟨rest, rfl⟩ := List.head?_eq_some_iff.mp hfirst
    obtain ⟨r, others, hr, -, rfl⟩ := List.forall₂_cons_left_iff.mp (mapM_ok_iff.mp hread)
    obtain ⟨hroot, hparent⟩ := hashes_of_rowToReceipt hr
    rw [← hroot, ← hparent]
    by_contra hlink
    -- a first receipt that does not link gets the answer of an intact chain
    have hbad : r.hR = "" ∨ r.parentHR ≠ genesis := by tauto
    have hanswer : frontier = none := by
      rw [← hfrontier]
      exact if_pos hbad
    rcases hnone.mp hanswer with h | h
    · exact nomatch h
    · rw [← hintact] at h
      have hlinks := (linked_iff _ _).mp h
      exact hbad.elim (hlinks.2 r (by simp)) (fun hp => hp hlinks.1.1)
  · rintro ⟨⟨receipts, hread⟩, hfirst⟩
    rcases frontierFrom_spec genesis none receipts with ⟨hlinked, hscan⟩ | ⟨hlinked, hsplit⟩
    · exact exactFrontier_of_linked hread hlinked hscan
    · obtain ⟨before, broken, after, h⟩ := hsplit
      refine exactFrontier_of_split hread hlinked h ?_
      rintro rfl
      obtain ⟨rowsBefore, row, rowsAfter, rfl, hbefore, hrow⟩ :=
        allReceipts_split (h.split ▸ hread)
      obtain rfl : rowsBefore = [] := by
        cases mapM_ok_iff.mp hbefore
        rfl
      obtain ⟨hne, hparent⟩ := hfirst row rfl
      obtain ⟨hroot, hpar⟩ := hashes_of_rowToReceipt hrow
      have hrefused := h.refused
      simp [linked, hroot, hpar, hne, hparent] at hrefused

/-- A row whose receipt hash is the one given and whose parent is the one given. -/
def frontierRow (hR parentHR : String) : Row :=
  { Nullable.replicate none with
    receiptId := 1, op := "attest", authority := "Governor", parameters := "\x7b\x7d", intent := ""
    jurisdiction := "session", confidence := "high", timestamp := .fin ⟨['0', '.', '0'], by decide⟩
    failed := 0, sessionDkn := "", lawHash := "", legendHash := "", warrantId := "", intentRef := ""
    hS := "", hC := "", hM := "", hR := hR, parentHR := parentHR, mode := "strict", version := 1
    idCS := "", idCC := "", idCM := "", idCJ := "", hBody := "" }

/-- One receipt that does not link to the genesis constant gets the answer of an intact table. -/
theorem broken_first_receipt :
    lastValidFrontier sampleEnv [frontierRow "aa" "bb"] = .ok none ∧
      verifyStreamHash sampleEnv [frontierRow "aa" "bb"] = .ok false ∧
      lastValidFrontier sampleEnv [frontierRow "aa" genesis] = .ok none ∧
      verifyStreamHash sampleEnv [frontierRow "aa" genesis] = .ok true ∧
      ¬ ∀ rows, ExactFrontier sampleEnv rows := by
  refine ⟨rfl, rfl, rfl, rfl, fun h => ?_⟩
  have hparent := (((exactFrontier_iff _ _).mp (h [frontierRow "aa" "bb"])).2 _ rfl).2
  exact absurd hparent (by decide)

end Ugk
