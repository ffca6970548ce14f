import Ugk.ForStd.Chain
import Ugk.ForStd.Traverse
import Ugk.Spec.ReadBack

/-!
# Linkage of the stored rows

Every row `write` appends reads back and names the chain tip, so a table whose rows are linked stays
linked, and `verify_stream_hash` says so.

## Key results

- `linkedRows_iff`: what `verify_stream_hash` and the tip say about the rows
- `LinkedRows.concat`: a planned row extends a linked table
-/

namespace Ugk

open Store

variable {env : Env}

/-- `linked` is linkage from the anchor with no empty hash. -/
theorem linked_iff (prior : String) (receipts : List Receipt) :
    linked prior receipts = true ↔
      Chain.Linked Receipt.hR Receipt.parentHR prior receipts ∧ ∀ r ∈ receipts, r.hR ≠ "" := by
  induction receipts generalizing prior with
  | nil => simp [linked, Chain.Linked]
  | cons r rest ih =>
    simp only [linked, Bool.and_eq_true, bne_iff_ne, ne_eq, beq_iff_eq, ih, Chain.Linked,
      List.forall_mem_cons]
    constructor
    · rintro ⟨⟨hr, hp⟩, hl, hrest⟩
      exact ⟨⟨hp, hl⟩, hr, hrest⟩
    · rintro ⟨⟨hp, hl⟩, hr, hrest⟩
      exact ⟨⟨hr, hp⟩, hl, hrest⟩

/-! ## Reading a table -/

/-- One more row that reads back. -/
theorem allReceipts_concat {rows : List Row} {receipts : List Receipt} {row : Row} {r : Receipt}
    (h : allReceipts env rows = .ok receipts) (hr : rowToReceipt env row = .ok r) :
    allReceipts env (rows ++ [row]) = .ok (receipts ++ [r]) := by
  rw [allReceipts] at h ⊢
  rw [List.mapM_append, h, List.mapM_cons, hr]
  rfl

/-- What was read of a table ends with what was read of its last row. -/
theorem allReceipts_of_concat {rows : List Row} {receipts : List Receipt} {row : Row}
    (h : allReceipts env (rows ++ [row]) = .ok receipts) :
    ∃ init r, allReceipts env rows = .ok init ∧ rowToReceipt env row = .ok r ∧
      receipts = init ++ [r] := by
  rw [allReceipts, List.mapM_append] at h
  obtain ⟨init, hinit, h⟩ := Except.bind_eq_ok h
  obtain ⟨last, hlast, h⟩ := Except.bind_eq_ok h
  obtain rfl := Except.ok.inj h
  rw [List.mapM_cons] at hlast
  obtain ⟨r, hr, hlast⟩ := Except.bind_eq_ok hlast
  obtain rfl := Except.ok.inj hlast
  exact ⟨init, r, hinit, hr, rfl⟩

/-- The hashes of a row are the ones it is read with. -/
theorem hashes_of_rowToReceipt {row : Row} {r : Receipt} (h : rowToReceipt env row = .ok r) :
    r.hR = row.hR ∧ r.parentHR = row.parentHR := by
  obtain ⟨_, _, rfl⟩ := Except.map_eq_ok h
  exact ⟨rfl, rfl⟩

theorem streamHash_concat (rows : List Row) (row : Row) :
    streamHash (rows ++ [row]) = orText row.hR genesis := by
  rw [streamHash, List.getLast?_concat]

/-- The stream hash of rows without empty roots is the tip of their chain. -/
theorem streamHash_eq_tip {rows : List Row} {receipts : List Receipt}
    (h : allReceipts env rows = .ok receipts) (hne : ∀ r ∈ receipts, r.hR ≠ "") :
    streamHash rows = Chain.tip Receipt.hR genesis receipts := by
  cases rows using List.reverseRecOn with
  | nil => cases h; rfl
  | append_singleton rows row =>
    obtain ⟨init, r, _, hr, rfl⟩ := allReceipts_of_concat h
    have hroot := (hashes_of_rowToReceipt hr).1
    show streamHash (rows ++ [row]) = Chain.tip Receipt.hR genesis (init ++ [r])
    rw [streamHash_concat, Chain.tip_concat, orText, ← hroot, if_neg (hne r (by simp))]

/-- A table that `verify_stream_hash` accepts is linked, and no root in it is empty. -/
theorem linked_of_verifyStreamHash {rows : List Row} (h : verifyStreamHash env rows = .ok true) :
    ∃ receipts, allReceipts env rows = .ok receipts ∧
      Chain.Linked Receipt.hR Receipt.parentHR genesis receipts ∧ ∀ r ∈ receipts, r.hR ≠ "" := by
  obtain ⟨receipts, hread, hb⟩ := Except.map_eq_ok h
  refine ⟨receipts, hread, ?_⟩
  cases receipts with
  | nil => exact ⟨trivial, by simp⟩
  | cons r rest =>
    refine (linked_iff _ _).mp ?_
    simpa [afterCheckpoint] using hb

theorem verifyStreamHash_of_linked {rows : List Row} {receipts : List Receipt}
    (hread : allReceipts env rows = .ok receipts)
    (hl : Chain.Linked Receipt.hR Receipt.parentHR genesis receipts)
    (hne : ∀ r ∈ receipts, r.hR ≠ "") : verifyStreamHash env rows = .ok true := by
  have hlinked : linked genesis receipts = true := (linked_iff _ _).mpr ⟨hl, hne⟩
  rw [verifyStreamHash, hread]
  cases receipts with
  | nil => rfl
  | cons r rest => simp only [Except.map, afterCheckpoint, hlinked, Bool.or_true]

/-! ## Linked tables -/

/-- The rows verify as a stream, and the tip is the hash of the last one. -/
structure LinkedRows (env : Env) (rows : List Row) (tip : Tip) : Prop where
  verified : verifyStreamHash env rows = .ok true
  tip : tip.priorHR = streamHash rows

/-- The row of a plan reads back, carries the root of its receipt and names the tip. -/
theorem linkage_of_planned {cfg : Config} {built : List String} {tip : Tip} {time : FloatLit}
    {a : WriteArgs} {r : Resolved} {receipt : Receipt} {row : Row} (id : Nat)
    (hr : resolveWrite cfg.toEnv a = .ok r)
    (hplan : planWrite cfg built tip time a r = .ok (receipt, row)) :
    (∃ read, rowToReceipt cfg.toEnv { row with receiptId := id } = .ok read) ∧
      row.hR = receipt.hR ∧ row.parentHR = tip.priorHR ∧ row.hR ≠ "" := by
  obtain ⟨c, s, hBody, trace, hcom, _, _, _, rfl, hrow⟩ := planWrite_ok hplan
  obtain ⟨_, rfl⟩ := rowOfReceipt_ok hrow
  refine ⟨?_, rfl, rfl, c.hR.nonempty⟩
  -- a committed state was hashed from a dictionary, and its stored text loads as one
  obtain ⟨p, _, _, hpj, _, _⟩ := resolveWrite_ok hr
  obtain ⟨d, hd⟩ := dict_of_hS (commitments_hS hcom)
  obtain ⟨q, hq⟩ := loads_paramsJson_dict (hd ▸ hpj)
  rw [rowToReceipt]
  exact ⟨_, by rw [hq]; rfl⟩

/-- A planned row extends a linked table. -/
theorem LinkedRows.concat {cfg : Config} {rows : List Row} {tip tip' : Tip} {row : Row}
    {read : Receipt} (h : LinkedRows cfg.toEnv rows tip)
    (hread : rowToReceipt cfg.toEnv row = .ok read) (hne : row.hR ≠ "")
    (hparent : row.parentHR = tip.priorHR) (htip : tip'.priorHR = row.hR) :
    LinkedRows cfg.toEnv (rows ++ [row]) tip' := by
  obtain ⟨receipts, hreads, hl, hnes⟩ := linked_of_verifyStreamHash h.verified
  obtain ⟨hroot, hpar⟩ := hashes_of_rowToReceipt hread
  have htips : read.parentHR = Chain.tip Receipt.hR genesis receipts := by
    rw [hpar, hparent, h.tip, streamHash_eq_tip hreads hnes]
  constructor
  · refine verifyStreamHash_of_linked (allReceipts_concat hreads hread)
      ((Chain.linked_concat _ _ _ _ _).mpr ⟨hl, htips⟩) ?_
    simpa [or_imp, forall_and] using ⟨hnes, hroot ▸ hne⟩
  · rw [streamHash_concat, orText, if_neg hne, htip]

end Ugk
