import Ugk.ForStd.JsonPretty
import Ugk.Native.Amendment

/-!
# The amendment archive

`AmendmentArchive` (`ugk/amendment.py`): the records a handle has loaded and appended, and the file
it rewrites from them.  Several handles may be open on one file.
-/

namespace Ugk

namespace Amendment

/-- The fields of `AmendmentRecord` and the defaults of the optional ones. -/
def recordFields : List (String × Option PyVal) := [
  ("amendment_hash", none), ("prior_law_hash", none), ("successor_law_hash", none),
  ("invariants_added", none), ("invariants_removed", none), ("authority", none),
  ("signature", none), ("phase_code", none), ("timestamp", none),
  ("amendment_kind", some (.str "ordinary")), ("prior_legend_hash", some (.str "")),
  ("successor_legend_hash", some (.str "")), ("prior_schema_hash", some (.str "")),
  ("successor_schema_hash", some (.str "")), ("prior_amendment_hash", some (.str ""))]

/-- A record as the archive holds it: the class does not check the values of its fields. -/
structure ArchiveRecord where
  fields : List (String × PyVal)
  names : fields.map Prod.fst = recordFields.map Prod.fst

/-- A record with values of the declared types. -/
def AmendmentRecord.archived (r : AmendmentRecord) : ArchiveRecord where
  fields := [
    ("amendment_hash", .str r.amendmentHash), ("prior_law_hash", .str r.priorLawHash),
    ("successor_law_hash", .str r.successorLawHash),
    ("invariants_added", .tuple (r.invariantsAdded.map .str)),
    ("invariants_removed", .tuple (r.invariantsRemoved.map .str)),
    ("authority", .str r.authority), ("signature", .str r.signature),
    ("phase_code", .str r.phaseCode), ("timestamp", .str r.timestamp),
    ("amendment_kind", .str r.amendmentKind), ("prior_legend_hash", .str r.priorLegendHash),
    ("successor_legend_hash", .str r.successorLegendHash),
    ("prior_schema_hash", .str r.priorSchemaHash),
    ("successor_schema_hash", .str r.successorSchemaHash),
    ("prior_amendment_hash", .str r.priorAmendmentHash)]
  names := rfl

/-- `tuple(v) if isinstance(v, list) else v` -/
def tupled : PyVal → PyVal
  | .list xs => .tuple xs
  | v => v

/-- `AmendmentRecord(**kwargs)`, where the keywords are accepted. -/
def ArchiveRecord.ofKeywords (kwargs : PyDict) : ArchiveRecord where
  fields := recordFields.map fun f =>
    (f.1, ((kwargs.lookup (.str f.1)).or f.2).getD .none)
  names := by rw [List.map_map]; rfl

/-- One entry of the file as a record.  `none` when that raises: the entry is no object, or it has a
    keyword the class does not know or lacks one it needs. -/
def ofEntry : PyVal → Option ArchiveRecord
  | .dict kvs =>
    let kwargs : PyDict := kvs.map fun kv => (kv.1, tupled kv.2)
    if kwargs.all (fun kv => recordFields.any fun f => kv.1 == .str f.1) &&
        recordFields.all (fun f => f.2.isSome || (kwargs.lookup (.str f.1)).isSome) then
      some (.ofKeywords kwargs)
    else none
  | _ => none

/-- `dataclasses.asdict` -/
def ArchiveRecord.asdict (r : ArchiveRecord) : PyVal := strDict r.fields

/-- What is at the path of an archive. -/
inductive ArchiveFile where
  | absent
  /-- bytes that `read_text` cannot decode -/
  | undecodable
  | text (s : String)

/-- The loop of `_load`: an entry that raises ends it, and the exception is passed over. -/
def loadEntries : List PyVal → List ArchiveRecord
  | [] => []
  | entry :: entries =>
    match ofEntry entry with
    | some r => r :: loadEntries entries
    | none => []

/-- `_load`.  A text that is no JSON, a value that cannot be iterated and the keys or characters of
    an iterable that is no array raise before there is a record. -/
def loadArchive (env : Env) : ArchiveFile → List ArchiveRecord
  | .text s =>
    match loads env s with
    | .ok (.list entries) => loadEntries entries
    | _ => []
  | _ => []

end Amendment

end Ugk
