import Ugk.Spec.Durable
import Ugk.Spec.Faithful
import Ugk.Spec.HonestChain

/-!
# What a write leaves to read

A write appends at most one row, and what that row reads back as is settled by the arguments of the
write: `ReadsAs` says how, whatever the tip, the clock and the failures of the database were.

## Key results

- `rows_of_write`: the rows after a write, however it ended
- `write_returns_iff`: when a write returns, by its arguments and the next failures
- `lookup_of_loads`: the stored parameters give every named value back
-/

namespace Ugk

open Store

variable {env : Env} {cfg : Config} {clock : Clock} {a : WriteArgs}

/-- The row was planned for these arguments, and reads back as this receipt. -/
structure ReadsAs (cfg : Config) (a : WriteArgs) (row : Row) (read : Receipt) : Prop where
  reads : rowToReceipt cfg.toEnv row = .ok read
  stored : ∃ id tip time c r sf hBody trace q, resolveWrite cfg.toEnv a = .ok r ∧
    surfaces cfg.toEnv a = .ok sf ∧ loads cfg.toEnv r.parametersJson = .ok (.dict q) ∧
    read = Receipt.stored cfg.toEnv a.compress id (.dict q)
      (finish (draft tip time a c r sf) hBody trace)

theorem readsAs_of_planned {built : List String} {tip : Tip} {time : FloatLit} {r : Resolved}
    {receipt : Receipt} {row : Row} (id : Nat) (hr : resolveWrite cfg.toEnv a = .ok r)
    (hplan : planWrite cfg built tip time a r = .ok (receipt, row)) :
    ∃ read, ReadsAs cfg a { row with receiptId := id } read := by
  obtain ⟨p, _, _, hpj, _, _⟩ := resolveWrite_ok hr
  obtain ⟨c, sf, hBody, trace, hcom, hs, _, _, rfl, hrow⟩ := planWrite_ok hplan
  obtain ⟨d, hd⟩ := dict_of_hS (commitments_hS hcom)
  obtain ⟨q, hq⟩ := loads_paramsJson_dict (hd ▸ hpj)
  exact ⟨_, rowToReceipt_stored id hrow (stamped_finish ..) hq, id, tip, time, c, r, sf, hBody,
    trace, q, hr, hs, hq, rfl⟩

/-- The rows after a write: the ones before, with the planned row or, when the INSERT was not
    reached or failed, without it. -/
theorem planned_row_of_write (a : WriteArgs) (s : StoreState) :
    rows (Store.write cfg clock a s).2 = rows s ∨
      ∃ r receipt row, resolveWrite cfg.toEnv a = .ok r ∧
        planned cfg clock a r s = .ok (receipt, row) ∧
        rows (Store.write cfg clock a s).2 =
          rows s ++ [{ row with receiptId := s.conn.current.seq + 1 }] := by
  cases hr : resolveWrite cfg.toEnv a with
  | error e =>
    rw [write_of_unresolved hr]
    exact .inl rfl
  | ok r =>
    cases hp : planned cfg clock a r s with
    | error e =>
      rw [write_of_unplanned hr hp]
      exact .inl (unplanned_tables cfg clock a r s).rows_eq
    | ok x =>
      obtain ⟨receipt, row⟩ := x
      rw [write_of_planned hr hp]
      rcases append_cases receipt row (sampled cfg a s) with
        ⟨_, happ⟩ | ⟨_, _, _, happ⟩ | ⟨_, _, happ⟩
      · rw [happ]
        exact .inl rfl
      · rw [happ]
        exact .inr ⟨r, receipt, row, rfl, hp, rfl⟩
      · rw [happ]
        exact .inr ⟨r, receipt, row, rfl, hp, rows_appended ..⟩

/-- What the row of a write reads back as. -/
theorem rows_of_write (a : WriteArgs) (s : StoreState) :
    rows (Store.write cfg clock a s).2 = rows s ∨
      ∃ row read, rows (Store.write cfg clock a s).2 = rows s ++ [row] ∧ ReadsAs cfg a row read := by
  obtain hsame | ⟨r, receipt, row, hr, hp, hrows⟩ := planned_row_of_write a s
  · exact .inl hsame
  · obtain ⟨read, hread⟩ := readsAs_of_planned (s.conn.current.seq + 1) hr hp
    exact .inr ⟨_, read, hrows, hread⟩

/-- A write that returns has appended its row. -/
theorem rows_of_write_ok {s s' : StoreState} {receipt : Receipt}
    (h : Store.write cfg clock a s = (.ok receipt, s')) :
    ∃ row read, rows s' = rows s ++ [row] ∧ ReadsAs cfg a row read ∧ row.hR = receipt.hR ∧
      s'.txnDepth = s.txnDepth := by
  obtain ⟨r, planned', row, hr, hplan, hreceipt, hstate⟩ := write_ok (congrArg Prod.fst h)
  obtain ⟨read, hread⟩ := readsAs_of_planned (s.conn.current.seq + 1) hr hplan
  obtain ⟨_, hroot, _, _⟩ := linkage_of_planned (s.conn.current.seq + 1) hr hplan
  rw [h] at hstate
  have hs' : s' = appended planned' row (sampled cfg a s) := hstate
  rw [hs', hreceipt]
  exact ⟨_, read, rows_appended .., hread, hroot, txnDepth_appended ..⟩

theorem row_of_isOk {s : StoreState} (h : isOk (Store.write cfg clock a s).1 = true) :
    ∃ row read, rows (Store.write cfg clock a s).2 = rows s ++ [row] ∧ ReadsAs cfg a row read := by
  cases hw : Store.write cfg clock a s with
  | mk result s' =>
    rw [hw] at h
    obtain ⟨receipt, rfl⟩ := isOk_iff.mp h
    obtain ⟨row, read, hrows, hread, -⟩ := rows_of_write_ok hw
    exact ⟨row, read, hrows, hread⟩

/-! ## When a write returns -/

/-- The statements of a write that the database can refuse. -/
def statements (s : StoreState) : Nat := if s.txnDepth = 0 then 2 else 1

/-- None of the next `n` statements meets a failure. -/
def Quiet (n : Nat) (s : StoreState) : Prop := ∀ b ∈ s.faults.take n, b = false

theorem quiet_one {s : StoreState} : Quiet 1 s ↔ ¬Faulty s := by
  unfold Quiet Faulty
  cases s.faults with
  | nil => simp
  | cons b rest => cases b <;> simp

theorem quiet_two {s : StoreState} : Quiet 2 s ↔ ¬Faulty s ∧ ¬Faulty (passFault s) := by
  unfold Quiet Faulty passFault
  cases s.faults with
  | nil => simp
  | cons b rest =>
    cases rest with
    | nil => cases b <;> simp
    | cons c rest => cases b <;> cases c <;> simp

/-- The failures of a longer run are those of its start and of its rest. -/
theorem quiet_add {m n : Nat} {s s' : StoreState} (h : s'.faults = s.faults.drop m) :
    Quiet (m + n) s ↔ Quiet m s ∧ Quiet n s' := by
  unfold Quiet
  rw [h, List.take_add, List.forall_mem_append]

/-- A write returns exactly when its arguments are accepted and nothing fails. -/
theorem write_returns_iff {s : StoreState} :
    (∃ receipt s', Store.write cfg clock a s = (.ok receipt, s')) ↔
      accepted cfg (ensureDefaultEdgeFor cfg s.built a.authority) a = true ∧
        Quiet (statements s) s := by
  cases hacc : accepted cfg (ensureDefaultEdgeFor cfg s.built a.authority) a with
  | false =>
    obtain ⟨e, s', hw, _⟩ := write_rejected clock hacc
    rw [hw]
    constructor
    · rintro ⟨_, _, h⟩
      exact nomatch h
    · rintro ⟨h, _⟩
      exact nomatch h
  | true =>
    obtain ⟨r, receipt, row, hr, hplan⟩ := planned_of_accepted clock hacc
    rw [write_of_planned hr hplan]
    have hquiet : Quiet (statements s) s ↔ ¬Faulty s ∧ (s.txnDepth = 0 → ¬Faulty (passFault s)) := by
      unfold statements
      split
      · rename_i hd
        rw [quiet_two]
        exact and_congr_right fun _ => ⟨fun h _ => h, fun h => h hd⟩
      · rename_i hd
        rw [quiet_one]
        exact ⟨fun h => ⟨h, fun hzero => absurd hzero hd⟩, And.left⟩
    rcases append_cases receipt row (sampled cfg a s) with
      ⟨hf, happ⟩ | ⟨_, hd, hc, happ⟩ | ⟨hf, hc, happ⟩
    · rw [happ]
      constructor
      · rintro ⟨_, _, h⟩
        exact nomatch h
      · rintro ⟨_, h⟩
        exact absurd hf (hquiet.mp h).1
    · rw [happ]
      constructor
      · rintro ⟨_, _, h⟩
        exact nomatch h
      · rintro ⟨_, h⟩
        exact absurd hc ((hquiet.mp h).2 hd)
    · rw [happ]
      exact ⟨fun _ => ⟨rfl, hquiet.mpr ⟨hf, hc⟩⟩, fun _ => ⟨_, _, rfl⟩⟩

/-- What a write that returned left beside its row. -/
theorem write_after {s s' : StoreState} {receipt : Receipt}
    (h : Store.write cfg clock a s = (.ok receipt, s')) :
    s'.txnDepth = s.txnDepth ∧ s'.built = ensureDefaultEdgeFor cfg s.built a.authority ∧
      s'.faults = s.faults.drop (statements s) := by
  obtain ⟨r, planned', row, _, _, _, hstate⟩ := write_ok (congrArg Prod.fst h)
  rw [h] at hstate
  dsimp only at hstate
  rw [hstate]
  refine ⟨txnDepth_appended .., built_appended .., ?_⟩
  unfold appended statements
  by_cases hd : s.txnDepth = 0
  · rw [if_pos (show (sampled cfg a s).txnDepth = 0 from hd), if_pos hd]
    show s.faults.tail.tail = _
    rw [← List.drop_one, List.drop_tail]
  · rw [if_neg (show (sampled cfg a s).txnDepth ≠ 0 from hd), if_neg hd]
    show s.faults.tail = _
    rw [List.drop_one]

/-! ## Reading back -/

/-- One more row is one more receipt. -/
theorem allReceipts_append (older : List Row) {row : Row} {read : Receipt}
    (h : rowToReceipt env row = .ok read) :
    allReceipts env (older ++ [row]) =
      allReceipts env older >>= fun receipts => .ok (receipts ++ [read]) := by
  rw [allReceipts, allReceipts, List.mapM_append, List.mapM_cons, h]
  rfl

theorem PyDict.get_of_not_mem {d : PyDict} {k : String} (h : PyKey.str k ∉ d.map Prod.fst) :
    PyDict.get d k = .none := by
  have hnone : d.lookup (.str k) = none := by
    rw [List.lookup_eq_none_iff]
    intro kv hkv
    rw [bne_iff_ne]
    rintro heq
    exact h (heq ▸ List.mem_map_of_mem hkv)
  rw [PyDict.get, hnone]
  rfl

theorem PyDict.mem_keys_set {d : PyDict} {k k' : PyKey} {v : PyVal}
    (h : k ∈ (PyDict.set d k' v).map Prod.fst) : k = k' ∨ k ∈ d.map Prod.fst := by
  rw [PyDict.set] at h
  split at h
  · obtain ⟨kv, hkv, rfl⟩ := List.mem_map.mp h
    obtain ⟨kv', hkv', rfl⟩ := List.mem_map.mp hkv
    split
    · exact .inl rfl
    · exact .inr (List.mem_map_of_mem hkv')
  · rw [List.map_append, List.mem_append, List.map_singleton, List.mem_singleton] at h
    exact h.symm

theorem PyDict.mem_keys_ofPairs {kvs : List (PyKey × PyVal)} {k : PyKey}
    (h : k ∈ (PyDict.ofPairs kvs).map Prod.fst) : k ∈ kvs.map Prod.fst := by
  have hfold (acc : PyDict)
      (h : k ∈ (kvs.foldl (fun d kv => PyDict.set d kv.1 kv.2) acc).map Prod.fst) :
      k ∈ acc.map Prod.fst ∨ k ∈ kvs.map Prod.fst := by
    clear * - h
    induction kvs generalizing acc with
    | nil => exact .inl h
    | cons kv rest ih =>
      rcases ih _ h with hacc | hrest
      · rcases PyDict.mem_keys_set hacc with rfl | hacc
        · exact .inr List.mem_cons_self
        · exact .inl hacc
      · exact .inr (List.mem_cons_of_mem _ hrest)
  rcases hfold [] h with hnil | hmem
  · exact absurd hnil List.not_mem_nil
  · exact hmem

theorem keys_ofJsonMembers (members : List (String × Json)) :
    (ofJsonMembers env members).map Prod.fst = members.map fun m => .str m.1 := by
  induction members with
  | nil => rfl
  | cons m ms ih =>
    obtain ⟨k, v⟩ := m
    rw [ofJsonMembers, ofJsonMember, List.map_cons, List.map_cons, ih]

/-- A key of the stored parameters is the text of a key that was written. -/
theorem key_of_loads {d q : PyDict} {pj k : String} (h : paramsJson env (.dict d) = .ok pj)
    (hq : loads env pj = .ok (.dict q)) (hk : PyKey.str k ∈ q.map Prod.fst) :
    ∃ key ∈ d.map Prod.fst, keyText true key = .ok k := by
  obtain ⟨j, hj, hpj⟩ := paramsJson_ok h
  obtain ⟨items, hitems, members, rfl, hperm⟩ := toJson_dict_ok hj
  rw [loads_paramsJson hpj, ofJson] at hq
  obtain rfl := PyVal.dict.inj (Except.ok.inj hq)
  have hmem := PyDict.mem_keys_ofPairs hk
  rw [keys_ofJsonMembers] at hmem
  obtain ⟨m, hm, hname⟩ := List.mem_map.mp hmem
  obtain rfl := PyKey.str.inj hname
  obtain ⟨item, hitem, rfl⟩ := List.mem_map.mp (hperm.mem_iff.mp hm)
  obtain ⟨kv, hkv, _, hkey, _⟩ := exists_mem_of_forall₂ hitems.flip hitem
  exact ⟨kv.1, List.mem_map_of_mem hkv, hkey⟩

/-- An entry is what its key looks up, where the keys differ. -/
theorem lookup_of_mem {d : PyDict} {k : PyKey} {v : PyVal} (hnodup : (d.map Prod.fst).Nodup)
    (h : (k, v) ∈ d) : d.lookup k = some v := by
  induction d with
  | nil => exact absurd h List.not_mem_nil
  | cons kv rest ih =>
    rw [List.map_cons, List.nodup_cons] at hnodup
    rcases List.mem_cons.mp h with rfl | hrest
    · rw [List.lookup_cons_self]
    · have hne : k ≠ kv.1 := fun heq => hnodup.1 (heq ▸ List.mem_map_of_mem hrest)
      rw [List.lookup_cons, beq_eq_false_iff_ne.mpr hne]
      exact ih hnodup.2 hrest

theorem mem_ofJsonMembers {members : List (String × Json)} {m : String × Json} (h : m ∈ members) :
    (.str m.1, ofJson env m.2) ∈ ofJsonMembers env members := by
  induction members with
  | nil => exact absurd h List.not_mem_nil
  | cons m' ms ih =>
    obtain ⟨k, v⟩ := m'
    rw [ofJsonMembers, ofJsonMember]
    rcases List.mem_cons.mp h with rfl | hrest
    · exact List.mem_cons_self
    · exact List.mem_cons_of_mem _ (ih hrest)

/-- The stored parameters give a named value back as its document does. -/
theorem lookup_of_loads {kvs : List (String × PyVal)} {q : PyDict} {pj name : String}
    {v : PyVal} {j : Json} (hnodup : (kvs.map Prod.fst).Nodup)
    (h : paramsJson env (strDict kvs) = .ok pj) (hq : loads env pj = .ok (.dict q))
    (hmem : (name, v) ∈ kvs) (hj : toJson env true v = .ok j) :
    q.lookup (.str name) = some (ofJson env j) := by
  obtain ⟨doc, hdoc, hpj⟩ := paramsJson_ok h
  obtain ⟨items, hitems, members, rfl, hperm⟩ := toJson_dict_ok hdoc
  rw [loads_paramsJson hpj, ofJson] at hq
  obtain rfl := PyVal.dict.inj (Except.ok.inj hq)
  -- the members carry the names that were written, in another order
  have hnames : items.map (fun item => item.2.1) = kvs.map Prod.fst := by
    clear hmem hperm hnodup h hdoc hj hpj
    generalize hd : kvs.map (fun kv => ((.str kv.1 : PyKey), kv.2)) = d at hitems
    induction hitems generalizing kvs with
    | nil => rw [List.map_eq_nil_iff.mp hd]; rfl
    | cons hitem _ ih =>
      cases kvs with
      | nil => exact nomatch hd
      | cons kv rest =>
        obtain ⟨rfl, hrest⟩ := List.cons.inj hd
        obtain ⟨_, hkey, _⟩ := hitem
        rw [List.map_cons, List.map_cons, ih hrest, ← Except.ok.inj hkey]
  have hkeys : ((ofJsonMembers env members).map Prod.fst).Nodup := by
    rw [keys_ofJsonMembers]
    have hperm' : (members.map Prod.fst).Perm (kvs.map Prod.fst) := by
      have hfst := hperm.map Prod.fst
      rw [List.map_map] at hfst
      exact hnames ▸ hfst
    have hinj : Function.Injective (PyKey.str) := fun _ _ heq => PyKey.str.inj heq
    have hstr := (hperm'.nodup_iff.mpr hnodup).map hinj
    rw [List.map_map] at hstr
    exact hstr
  rw [PyDict.ofPairs_of_nodup hkeys]
  obtain ⟨item, hitem, _, hname, hdoc⟩ := exists_mem_of_forall₂ hitems
    (List.mem_map_of_mem hmem)
  have hmember : (name, j) ∈ members := by
    have hitem' : item.2 = (name, j) :=
      Prod.ext (Except.ok.inj hname).symm (Except.ok.inj (hdoc.symm.trans hj))
    exact hperm.mem_iff.mpr (hitem' ▸ List.mem_map_of_mem hitem)
  exact lookup_of_mem hkeys (mem_ofJsonMembers hmember)

namespace ReadsAs

variable {row : Row} {read : Receipt}

theorem op (h : ReadsAs cfg a row read) :
    read.op = expand cfg.toEnv (storeField a.compress .op a.op) := by
  obtain ⟨_, _, _, _, _, _, _, _, _, _, _, _, rfl⟩ := h.stored
  rfl

theorem authority (h : ReadsAs cfg a row read) : read.authority = a.authority := by
  obtain ⟨_, _, _, _, _, _, _, _, _, _, _, _, rfl⟩ := h.stored
  rfl

theorem failed (h : ReadsAs cfg a row read) : read.failed = a.failed := by
  obtain ⟨_, _, _, _, _, _, _, _, _, _, _, _, rfl⟩ := h.stored
  rfl

/-- The parameters are the ones the stored text loads as. -/
theorem parameters (h : ReadsAs cfg a row read) : ∃ r q, resolveWrite cfg.toEnv a = .ok r ∧
    loads cfg.toEnv r.parametersJson = .ok (.dict q) ∧ read.parameters = .dict q := by
  obtain ⟨_, _, _, _, r, _, _, _, q, hr, _, hq, rfl⟩ := h.stored
  exact ⟨r, q, hr, hq, rfl⟩

/-- Named values read back as their documents do. -/
theorem lookup (h : ReadsAs cfg a row read) {kvs : List (String × PyVal)}
    (hreserved : ∀ name ∈ reservedNames, name ∉ kvs.map Prod.fst)
    (hnodup : (kvs.map Prod.fst).Nodup) (hp : a.parameters = strDict kvs)
    (hcols : a.effectColumns = none) :
    ∃ q, read.parameters = .dict q ∧ ∀ name v j, (name, v) ∈ kvs →
      toJson cfg.toEnv true v = .ok j → q.lookup (.str name) = some (ofJson cfg.toEnv j) := by
  obtain ⟨r, q, hr, hq, hread⟩ := h.parameters
  obtain ⟨_, _, _, hpj, _⟩ := resolveWrite_ok hr
  rw [resolved_strDict hreserved hp hcols hr] at hpj
  exact ⟨q, hread, fun name v j hmem hj => lookup_of_loads hnodup hpj hq hmem hj⟩

end ReadsAs

end Ugk
