import TaoSubnet.Lib.JsonText
import TaoSubnet.Lib.Sqlite
import TaoSubnet.Security.Pipeline

/-!
# The table of submissions

`secqurityVali/db.py`, `_verdict_to_row`, `record_verdict` and `_row_to_dict`, over the cells that SQLite
keeps, with `Verdict.to_dict` and what `_cached_verdict` makes of a row that was read.
-/

namespace TaoSubnet

open Py

/-- A column of `submissions`, and a field of a verdict. -/
inductive Column
  | minerId
  | receivedAt
  | filePath
  | status
  | stageReached
  | rejectReason
  | fileSha256
  | fileSize
  | source
  | imageRef
  | imageId
  | repoTags
  | arch
  | osName
  | layerCount
  | imageSize
  | entrypoint
  | imageUser
  | dryRunExitCode
  | dryRunMs
  | logExcerpt
  | agentDigest
  | duplicateOf
  | fromCache
  | errorDetail
  deriving DecidableEq, Repr

/-- `_COLUMNS`. -/
def COLUMNS : List Column :=
  [.minerId, .receivedAt, .filePath, .status, .stageReached, .rejectReason, .fileSha256, .fileSize,
    .source, .imageRef, .imageId, .repoTags, .arch, .osName, .layerCount, .imageSize, .entrypoint,
    .imageUser, .dryRunExitCode, .dryRunMs, .logExcerpt, .agentDigest, .duplicateOf, .fromCache,
    .errorDetail]

/-- `_JSON_COLUMNS`. -/
def JSON_COLUMNS : List Column := [.repoTags, .entrypoint]

namespace Column

/-- The type the schema declares. -/
def affinity : Column → Affinity
  | .fileSize | .layerCount | .imageSize | .dryRunExitCode | .dryRunMs | .duplicateOf
  | .fromCache => .integer
  | _ => .text

/-- `NOT NULL`. -/
def notNull : Column → Bool
  | .minerId | .receivedAt | .filePath | .status | .stageReached | .source | .fromCache => true
  | _ => false

end Column

/-- A dict with a value for each field. -/
abbrev Fields := Column → Json

/-! ## `Verdict.to_dict` -/

def strItem (s : String) : Json := .str (PyStr.ofString s)

/-- A field that may be `None`. -/
def optItem {α : Type} (f : α → Json) (x : Option α) : Json := (x.map f).getD .null

/-- A list of strings. -/
def listItem (items : List PyStr) : Json := .arr (items.map .str)

/-- `to_dict`. -/
def Verdict.toDict (v : Verdict) : Fields
  | .minerId => strItem v.minerId
  | .receivedAt => strItem v.receivedAt
  | .filePath => strItem v.filePath
  | .status => strItem v.status.value
  | .stageReached => strItem v.stageReached.value
  | .rejectReason => optItem (fun reason => strItem reason.value) v.rejectReason
  | .fileSha256 => optItem strItem v.fileSha256
  | .fileSize => optItem (fun n : Nat => .int n) v.fileSize
  | .source => strItem v.source
  | .imageRef => optItem strItem v.imageRef
  | .imageId => optItem .str v.imageId
  | .repoTags => listItem v.repoTags
  | .arch => optItem id v.arch
  | .osName => optItem id v.osName
  | .layerCount => optItem (fun n : Nat => .int n) v.layerCount
  | .imageSize => optItem .int v.imageSize
  | .entrypoint => listItem v.entrypoint
  | .imageUser => optItem id v.imageUser
  | .dryRunExitCode => optItem .int v.dryRunExitCode
  | .dryRunMs => optItem .int v.dryRunMs
  | .logExcerpt => optItem .str v.logExcerpt
  | .agentDigest => optItem strItem v.agentDigest
  | .duplicateOf => optItem (fun n : Nat => .int n) v.duplicateOf
  | .fromCache => .bool v.fromCache
  | .errorDetail => optItem strItem v.errorDetail

/-! ## Rows -/

/-- What the database runs on: how floats are written, and how many containers `json.loads` can have
    open, which is at least one. -/
structure SqlHost where
  realText : PyFloat → PyStr
  floatText : PyFloat → PyStr
  recursionLimit : Nat
  opens : 1 ≤ recursionLimit

/-- What `record_verdict` raises. -/
inductive RecordError
  | dumps (e : Exc)
  | sql (e : SqlError)
  deriving DecidableEq

structure TableRow where
  id : Nat
  cells : List (Column × SqlValue)

/-- The rows, oldest first; ids count up from one. -/
structure SubmissionsTable where
  rows : List TableRow := []
  numbered : rows.map TableRow.id = List.range' 1 rows.length := by rfl

/-- One value of `_verdict_to_row`. -/
def rowValue (h : SqlHost) (data : Fields) (column : Column) : Except Exc Json :=
  if column ∈ JSON_COLUMNS then (Json.dumps h.floatText (data column)).map .str
  else if column = .fromCache then .ok (.int (if (data column).truthy then 1 else 0))
  else .ok (data column)

/-- `_verdict_to_row`. -/
def verdictToRow (h : SqlHost) (verdict : Verdict) : Except Exc (List (Column × Json)) :=
  COLUMNS.mapM fun column => do return (column, ← rowValue h verdict.toDict column)

/-- What the schema asks of a cell. -/
def Column.allows (column : Column) (cell : SqlValue) : Bool :=
  match cell with
  | .null => !column.notNull
  | .text s => column ≠ .status ||
      s == PyStr.ofString Status.accepted.value || s == PyStr.ofString Status.rejected.value
  | _ => column ≠ .status

/-- The `INSERT`: the parameters are bound one after the other, then the constraints are checked. -/
def insertRow (h : SqlHost) (row : List (Column × Json)) :
    Except SqlError (List (Column × SqlValue)) := do
  let bound ← row.mapM fun p => do return (p.1, ← bindValue p.2)
  let cells := bound.map fun p => (p.1, p.2.store h.realText p.1.affinity)
  if cells.all fun p => p.1.allows p.2 then return cells else .error .integrity

namespace SubmissionsTable

/-- The table with a row more. -/
def append (table : SubmissionsTable) (cells : List (Column × SqlValue)) : SubmissionsTable where
  rows := table.rows ++ [⟨table.rows.length + 1, cells⟩]
  numbered := by
    rw [List.map_append, table.numbered, List.length_append, List.length_singleton,
      List.range'_1_concat, Nat.add_comm 1]
    rfl

/-- `record_verdict`: the new row's id, and the table with it. -/
def recordVerdict (h : SqlHost) (table : SubmissionsTable) (verdict : Verdict) :
    Except RecordError (Nat × SubmissionsTable) := do
  let row ← (verdictToRow h verdict).mapError .dumps
  let cells ← (insertRow h row).mapError .sql
  return (table.rows.length + 1, table.append cells)

end SubmissionsTable

/-- What `_row_to_dict` makes of a cell's value. -/
def columnValue (h : SqlHost) (column : Column) (value : Json) : Except Exc Json :=
  if column ∈ JSON_COLUMNS then
    if value.truthy then
      match value with
      | .str text => Json.loadsText h.recursionLimit text
      | _ => .error ⟨.typeError, "the JSON object must be str, bytes or bytearray"⟩
    else .ok (.arr [])
  else if column = .fromCache then .ok (.bool value.truthy)
  else .ok value

/-- A submission as it is read: its id, and the dict. -/
structure SubmissionDict where
  id : Nat
  items : List (Column × Json)

/-- `row.get(column)`, and `row[column]`. -/
def SubmissionDict.get (row : SubmissionDict) (column : Column) : Json :=
  (row.items.lookup column).getD .null

/-- `_row_to_dict`. -/
def rowToDict (h : SqlHost) (row : TableRow) : Except Exc SubmissionDict := do
  let items ← row.cells.mapM fun p => do return (p.1, ← columnValue h p.1 p.2.toPy)
  return ⟨row.id, items⟩

/-- `get_submission`. -/
def SubmissionsTable.findSubmission (h : SqlHost) (table : SubmissionsTable) (id : Nat) :
    Except Exc (Option SubmissionDict) :=
  match table.rows.find? fun row => row.id == id with
  | some row => (rowToDict h row).map some
  | none => .ok none

/-! ## `_cached_verdict` -/

/-- The members of `Stage`. -/
def Stage.members : List Stage := [.file, .structure, .load, .inspect, .dryRun]

/-- The members of `RejectReason`. -/
def RejectReason.members : List RejectReason :=
  [.fileMissing, .fileEmpty, .fileTooLarge, .notAnArchive, .notADockerImage, .unsafeTarEntry,
    .malformedArchive, .malformedManifest, .multipleImages, .decompressionBomb, .tooManyEntries,
    .loadFailed, .badImageRef, .pullFailed, .registryUnauthorized, .imageNotFound, .digestUnresolved,
    .archMismatch, .osMismatch, .noEntrypoint, .tooManyLayers, .imageTooLarge, .createFailed,
    .startFailed, .dryRunTimeout, .dryRunNonzeroExit, .duplicateAgent, .dockerUnavailable,
    .internalError]

/-- The member of an enumeration that has the value. -/
def memberOf {α : Type} (enum : String) (members : List α) (value : α → String) (name : Json) :
    Except Exc α :=
  let found := match name with
    | .str s => members.find? fun a => PyStr.ofString (value a) == s
    | _ => none
  match found with
  | some a => .ok a
  | none => .error ⟨.valueError, "not a valid " ++ enum⟩

/-- `RejectReason(row["reject_reason"]) if row["reject_reason"] else None`. -/
def reasonOf (name : Json) : Except Exc (Option RejectReason) :=
  if name.truthy then
    (memberOf "RejectReason" RejectReason.members RejectReason.value name).map some
  else .ok none

/-- A keyword argument of `_cached_verdict`, if the run measured it. -/
def Evidence.measured (e : Evidence) : Column → Option Json
  | .source => e.source.map strItem
  | .imageRef => e.imageRef.map strItem
  | .fileSha256 => e.fileSha256.map strItem
  | .fileSize => e.fileSize.map fun n : Nat => .int n
  | .imageId => e.imageId.map .str
  | .repoTags => e.repoTags.map listItem
  | .arch => e.arch
  | .osName => e.osName
  | .layerCount => e.layerCount.map fun n : Nat => .int n
  | .imageSize => e.imageSize.map .int
  | .entrypoint => e.entrypoint.map listItem
  | .imageUser => e.imageUser
  | .dryRunExitCode => e.dryRunExitCode.map .int
  | .dryRunMs => e.dryRunMs.map .int
  | .logExcerpt => e.logExcerpt.map .str
  | .agentDigest => e.agentDigest.map strItem
  | _ => none

/-- The fields that `_cached_verdict` passes by name, apart from those of `**replayed`. -/
def DRY_RUN_FIELDS : List Column := [.dryRunExitCode, .dryRunMs, .logExcerpt]

/-- `replayed`, before what was measured goes over it: what `Verdict` has by default where the row is
    not asked. -/
def replayed (row : SubmissionDict) : Fields
  | .repoTags => if (row.get .repoTags).truthy then row.get .repoTags else .arr []
  | .entrypoint => if (row.get .entrypoint).truthy then row.get .entrypoint else .arr []
  | .source => strItem SOURCE_FILE
  | .imageRef => .null
  | column => row.get column

/-- `_cached_verdict`, by the dict of the verdict it builds. A field that is passed twice is a
    `TypeError`. -/
def cachedVerdictDict (row : SubmissionDict) (s : Submission) (measured : Evidence) :
    Except Exc Fields := do
  let status ← memberOf "Status" [Status.accepted, .rejected] Status.value (row.get .status)
  let stage ← memberOf "Stage" Stage.members Stage.value (row.get .stageReached)
  let reason ← reasonOf (row.get .rejectReason)
  if DRY_RUN_FIELDS.any fun column => (measured.measured column).isSome then
    .error ⟨.typeError, "Verdict() got multiple values for keyword argument"⟩
  else return fun
    | .minerId => strItem s.minerId
    | .filePath => strItem s.filePath
    | .receivedAt => strItem s.receivedAt
    | .status => strItem status.value
    | .stageReached => strItem stage.value
    | .rejectReason => optItem (fun reason : RejectReason => strItem reason.value) reason
    | .duplicateOf => .int row.id
    | .fromCache => .bool true
    | column => (measured.measured column).getD (replayed row column)

end TaoSubnet
