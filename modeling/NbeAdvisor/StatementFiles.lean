import NbeAdvisor.Interleave
import NbeAdvisor.ObjectStore
import NbeAdvisor.Uuids
import Mathlib.Data.String.Basic

/-!
# The files of the statements

Any number of uploads, deletions, downloads, writes of the AI service and deletions of accounts, in
any interleaving of their statements and their calls to the object storage. An upload stores the
file, and makes the row when it is stored. A deletion lists the files of the statement page by page
and deletes them, bucket by bucket, and then deletes the row, unless the user retains documents.

`FileTask.view` is what a request knows, and `FileTask.step_moves` says what each step can do.
-/

namespace NbeAdvisor

open Interleave ObjectStore

/-! ## Keys -/

/-- The storages of `STORAGE_CLASSES`. -/
inductive Bucket where
  | raw
  | ocr
  | normalized
  | referenceData
  deriving DecidableEq

/-- The buckets of the settings. -/
def Bucket.bucketName : Bucket → String
  | raw => "pfm-statements-raw"
  | ocr => "pfm-statements-ocr"
  | normalized => "pfm-statements-normalized"
  | referenceData => "pfm-reference-data"

/-- `_storage_for_key`, `none` for the `ValueError`. -/
def storageForKey (objectKey : String) : Option (Bucket × String) :=
  let chars := objectKey.toList
  let key := String.ofList ((chars.dropWhile (· ≠ '/')).drop 1)
  ([.raw, .ocr, .normalized, .referenceData].find? fun b : Bucket =>
    b.bucketName = String.ofList (chars.takeWhile (· ≠ '/'))).map fun b => (b, key)

/-- `raw_statement_key`. -/
def rawStatementKey (user statement : Uuid) (extension : String) : String :=
  "pfm-statements-raw/" ++ user.text ++ "/" ++ statement.text ++ "/original." ++ extension

/-- `ocr_artifact_key`. -/
def ocrArtifactKey (user statement : Uuid) : String :=
  "pfm-statements-ocr/" ++ user.text ++ "/" ++ statement.text ++ "/"

/-- What comes after the bucket in the prefixes of `delete_statement_file`. -/
def statementFolder (user : Uuid) (pk : Option Uuid) : String :=
  user.text ++ "/" ++ pk.elim "None" Uuid.text ++ "/"

/-! ## The store -/

/-- The bytes of a file. -/
abbrev Bytes := List UInt8

/-- The columns of `StatementFile` that an upload sets, but the status. -/
structure FileRow where
  id : Uuid
  user : Uuid
  seaweedFileId : String
  checksum : String
  fileSize : ℕ
  fileType : String
  deriving DecidableEq

/-- The users, the rows of the statements, `retain_raw_documents` of those who have preferences, and
the objects of each bucket. -/
structure FileStore where
  users : List Uuid := []
  rows : List FileRow := []
  retain : List (Uuid × Bool) := []
  files : Bucket → Objects String Bytes := fun _ => []

namespace FileStore

variable (s : FileStore)

/-- The objects of a bucket are replaced. -/
def setFiles (b : Bucket) (objects : Objects String Bytes) : FileStore :=
  { s with files := fun c => if c = b then objects else s.files c }

/-- The object storage takes the object. -/
def putObject (b : Bucket) (key : String) (bytes : Bytes) : FileStore :=
  s.setFiles b (put (s.files b) key bytes)

/-- `store_raw_file`, where the storage takes the object. -/
def storeRawFile (objectKey : String) (bytes : Bytes) : FileStore :=
  match storageForKey objectKey with
  | some (b, key) => s.putObject b key bytes
  | none => s

/-- An insert, `none` if it meets the primary key, a unique constraint or the foreign key. -/
def insert (row : FileRow) : Option FileStore :=
  if row.user ∉ s.users ∨
      s.rows.any fun r => r.id = row.id ∨ (r.user = row.user ∧ r.checksum = row.checksum) then none
  else some { s with rows := s.rows ++ [row] }

/-- `UserPreference.objects.get_or_create`, `none` if the user is gone. -/
def getPreferences (user : Uuid) : Option (Bool × FileStore) :=
  match s.retain.find? fun x => x.1 = user with
  | some x => some (x.2, s)
  | none =>
    if user ∈ s.users then some (false, { s with retain := s.retain ++ [(user, false)] }) else none

end FileStore

/-! ## The requests -/

/-- `hashlib.sha256` in hexadecimal, `repr` and `str.lower`, and how many keys are on a page. -/
structure UploadHost where
  sha256 : Bytes → String
  repr : String → String
  lower : String → String
  pageSize : ℕ
  pageSize_pos : 0 < pageSize

/-- A file of a form. -/
structure UploadedFile where
  name : String
  contentType : Option String := none
  bytes : Bytes
  deriving DecidableEq

/-- `MAX_STATEMENT_UPLOAD_BYTES`. -/
def maxStatementUploadBytes : ℕ := 20 * 1024 * 1024

/-- `name.rsplit(".", 1)[-1].lower() if "." in name else default`. -/
def UploadHost.extension (host : UploadHost) (name default : String) : String :=
  if '.' ∈ name.toList then
    host.lower (String.ofList (name.toList.reverse.takeWhile (· ≠ '.')).reverse)
  else default

/-- `validate_statement_upload`, with the message of the error that it raises. -/
def UploadHost.validateStatementUpload (host : UploadHost) (file : UploadedFile) : Option String :=
  if maxStatementUploadBytes < file.bytes.length then
    some ("File is too large (" ++ toString file.bytes.length ++ " bytes) — the maximum is " ++
      toString maxStatementUploadBytes ++ " bytes.")
  else if host.extension file.name "" ∉ ["pdf", "png", "jpg", "jpeg"] then
    some ("Unsupported file type " ++ host.repr (host.extension file.name "") ++
      " — only jpeg, jpg, pdf, png files are accepted.")
  else
    match file.contentType with
    | none | some "" => none
    | some contentType =>
      if contentType ∈ ["application/pdf", "image/png", "image/jpeg"] then none
      else some ("Unsupported content type " ++ host.repr contentType ++
        " for a bank statement upload.")

/-- How a call to the object storage ends : also with an error after the storage has done it. -/
inductive StorageSignal where
  | ok
  | failed (message : String)
  | answerLost (message : String)
  deriving DecidableEq

/-- What a step gets from `uuid4`, the storage, and the table of the OCR results. -/
structure FileHeard where
  id : Uuid := default
  storage : StorageSignal := .ok
  hasOcrResult : Bool := true

/-- What the views answer. -/
inductive FileAnswer where
  | accepted
  | noContent
  | bulk (deleted : List Uuid) (skipped : List (Uuid × String))
  | file (bytes : Bytes)
  /-- A 422, with the field and its message. -/
  | invalid (field message : String)
  /-- A 422 with the code `storage_failed`. -/
  | storageFailed (message : String)
  | notFound (message : String)
  /-- A 500. -/
  | serverError
  deriving DecidableEq

/-- The points of an upload. -/
inductive FileUpload where
  | checking
  | storing (row : FileRow)
  | inserting (row : FileRow)
  | created (row : FileRow)
  | refused (row : Option FileRow) (a : FileAnswer)
  deriving DecidableEq

/-- The loop of a deletion : the instances that it has found, what it has still to do, and what it
has done. `begun` are the statements whose files it has begun to delete, `emptied` those that have
no raw file left then, and `kept` those whose files it has left. -/
structure DeleteLoop where
  found : List FileRow
  rest : List Uuid
  deleted : List Uuid := []
  skipped : List (Uuid × String) := []
  begun : List Uuid := []
  emptied : List Uuid := []
  kept : List Uuid := []
  deriving DecidableEq

/-- The points of a deletion. -/
inductive StatementDelete where
  | finding
  | preferring (x : DeleteLoop) (row : FileRow) (pk : Option Uuid)
  | sweeping (x : DeleteLoop) (row : FileRow) (pk : Option Uuid) (b : Bucket) (w : Sweep String)
  | dropping (x : DeleteLoop) (row : FileRow) (pk : Option Uuid)
  | answered (x : Option DeleteLoop) (a : FileAnswer)
  deriving DecidableEq

/-- Requests about files, and what else writes files and rows. -/
inductive FileTask where
  | upload (user : Uuid) (file : UploadedFile) (t : FileUpload)
  /-- One statement, or the ids of a bulk deletion. -/
  | delete (user : Uuid) (bulk : Bool) (ids : List Uuid) (t : StatementDelete)
  | ocrDownload (user statement : Uuid) (a : Option FileAnswer)
  /-- The AI service writes an artifact of a statement. -/
  | artifact (user statement : Uuid) (b : Bucket) (name : String) (bytes : Bytes) (done : Bool)
  | setPreference (user : Uuid) (retain done : Bool)
  | deleteUser (user : Uuid) (done : Bool)
  deriving DecidableEq

section Steps

variable (host : UploadHost) (s : FileStore) (r : FileHeard)

/-- A step of `create_statement_from_upload`, up to the start of the pipeline. -/
def FileUpload.step (user : Uuid) (file : UploadedFile) :
    FileUpload → Option (FileStore × FileUpload)
  | checking =>
    match host.validateStatementUpload file with
    | some message => some (s, refused none (.invalid "file" message))
    | none =>
      if s.rows.any fun r => r.user = user ∧ r.checksum = host.sha256 file.bytes then
        some (s, refused none (.invalid "file" "This exact file has already been uploaded."))
      else
        let extension := host.extension file.name "bin"
        some (s, storing
          { id := r.id, user, seaweedFileId := rawStatementKey user r.id extension
            checksum := host.sha256 file.bytes, fileSize := file.bytes.length
            fileType := extension })
  | storing row =>
    match r.storage with
    | .ok => some (s.storeRawFile row.seaweedFileId file.bytes, inserting row)
    | .answerLost message => some (s.storeRawFile row.seaweedFileId file.bytes,
        refused (some row) (.storageFailed ("The file could not be stored: " ++ message)))
    | .failed message =>
      some (s, refused (some row) (.storageFailed ("The file could not be stored: " ++ message)))
  | inserting row =>
    match s.insert row with
    | none => some (s, refused (some row) .serverError)
    | some s' => some (s', created row)
  | created _ | refused _ _ => none

/-- The loop of the deletion goes on to the next statement that was found. An instance that was
deleted before has no primary key. -/
def StatementDelete.proceed (bulk : Bool) : List Uuid → DeleteLoop → StatementDelete
  | [], x => answered (some { x with rest := [] })
      (if bulk then .bulk x.deleted x.skipped else .noContent)
  | id :: rest, x =>
    match x.found.find? fun row => row.id = id with
    | none => proceed bulk rest { x with skipped := x.skipped ++ [(id, "not_found")] }
    | some row =>
      preferring { x with rest := rest } row (if id ∈ x.deleted then none else some row.id)

/-- The bucket whose files are deleted after those of this one. -/
def Bucket.next : Bucket → Option Bucket
  | raw => some ocr
  | ocr => some normalized
  | normalized | referenceData => none

/-- A step of `StatementDetailView.delete` or `StatementBulkDeleteView.post`, with those of
`delete_statement_file` and `delete_prefix`. -/
def StatementDelete.step (user : Uuid) (bulk : Bool) (ids : List Uuid) :
    StatementDelete → Option (FileStore × StatementDelete)
  | finding =>
    let found := s.rows.filter fun row => row.id ∈ ids ∧ row.user = user
    if !bulk && found.isEmpty then
      some (s, answered none (.notFound "No StatementFile matches the given query."))
    else some (s, proceed bulk ids { found, rest := ids })
  | preferring x row pk =>
    match s.getPreferences row.user with
    | none => some (s, answered (some x) .serverError)
    | some (true, s') => some (s', dropping { x with kept := pk.toList ++ x.kept } row pk)
    | some (false, s') =>
      some (s', sweeping { x with begun := pk.toList ++ x.begun } row pk .raw .start)
  | sweeping x row pk b w =>
    match (if w.calls then r.storage else .ok),
      w.step host.pageSize (under (statementFolder row.user pk)) (s.files b) with
    | .failed _, _ => some (s, answered (some x) .serverError)
    | .answerLost _, some (files, _) => some (s.setFiles b files, answered (some x) .serverError)
    | .ok, some (files, .done) =>
      let x := if b = .raw then { x with emptied := pk.toList ++ x.emptied } else x
      some (s.setFiles b files, match b.next with
        | some b' => sweeping x row pk b' .start
        | none => dropping x row pk)
    | .ok, some (files, w') => some (s.setFiles b files, sweeping x row pk b w')
    | _, none => none
  | dropping x _ pk =>
    match pk with
    | none => some (s, answered (some x) .serverError)
    | some id => some ({ s with rows := s.rows.filter fun r => r.id ≠ id },
        proceed bulk x.rest { x with deleted := x.deleted ++ [id] })
  | answered _ _ => none

/-- `StatementOcrArtifactDownloadView.get`, with the storage as it is when it opens the stream. -/
def ocrDownloadStep (user statement : Uuid) : FileAnswer :=
  if s.rows.any fun row => row.id = statement ∧ row.user = user then
    if r.hasOcrResult then
      match storageForKey (ocrArtifactKey user statement ++ "document.md") with
      | some (b, key) =>
        match get (s.files b) key with
        | some bytes => .file bytes
        | none => .notFound "OCR document not available yet."
      | none => .serverError
    else .notFound "OCR result not available yet."
  else .notFound "No StatementFile matches the given query."

/-- One step of a task. -/
def FileTask.step : FileTask → Option (FileStore × FileTask)
  | upload user file t => (t.step host s r user file).map fun (s, t) => (s, upload user file t)
  | delete user bulk ids t =>
    (t.step host s r user bulk ids).map fun (s, t) => (s, delete user bulk ids t)
  | ocrDownload user statement none =>
    some (s, ocrDownload user statement (some (ocrDownloadStep s r user statement)))
  | artifact user statement b name bytes false =>
    some (s.putObject b (statementFolder user (some statement) ++ name) bytes,
      artifact user statement b name bytes true)
  | setPreference user retain false =>
    some ({ s with retain := s.retain.filter (fun x => x.1 ≠ user) ++ [(user, retain)] },
      setPreference user retain true)
  | deleteUser user false =>
    some ({ s with users := s.users.filter (· ≠ user), rows := s.rows.filter fun r => r.user ≠ user
                   retain := s.retain.filter fun x => x.1 ≠ user }, deleteUser user true)
  | ocrDownload _ _ (some _) | artifact _ _ _ _ _ true | setPreference _ _ true
  | deleteUser _ true => none

end Steps

/-- A task comes in at its first point. -/
def FileTask.Begins : FileTask → Prop
  | upload _ _ t => t = .checking
  | delete _ bulk ids t => t = .finding ∧ (bulk = false → ids.length = 1)
  | ocrDownload _ _ a => a = none
  | artifact _ _ b _ _ done => (b = .ocr ∨ b = .normalized) ∧ done = false
  | setPreference _ _ done | deleteUser _ done => done = false

instance : DecidablePred FileTask.Begins
  | .upload _ _ t => inferInstanceAs (Decidable (t = .checking))
  | .delete _ bulk _ t => inferInstanceAs (Decidable (t = .finding ∧ (bulk = false → _)))
  | .ocrDownload _ _ a => inferInstanceAs (Decidable (a = none))
  | .artifact _ _ b _ _ _ => inferInstanceAs (Decidable ((b = .ocr ∨ b = .normalized) ∧ _))
  | .setPreference _ _ done | .deleteUser _ done => inferInstanceAs (Decidable (done = false))

/-- All of them, in any order. -/
def fileServer (host : UploadHost) : System FileStore FileTask FileHeard where
  step _ s t r := (t.step host s r).map fun (s, t) => (s, t, [])
  arrives := FileTask.Begins

instance (host : UploadHost) : DecidablePred (fileServer host).arrives :=
  inferInstanceAs (DecidablePred FileTask.Begins)

/-! ## What a step does -/

/-- What a request knows : the row and the bytes of its upload, whether they are stored and the row
is made, its loop of deletions, and the statement whose raw files it is deleting. -/
structure FileView where
  launched : Option (FileRow × Bytes) := none
  stored : Bool := false
  created : Bool := false
  loop : Option DeleteLoop := none
  sweep : Option (FileRow × Option Uuid × Sweep String) := none
  deriving DecidableEq

/-- What an upload shows. -/
def FileUpload.view (bytes : Bytes) : FileUpload → FileView
  | checking | refused none _ => {}
  | storing row | refused (some row) _ => { launched := some (row, bytes) }
  | inserting row => { launched := some (row, bytes), stored := true }
  | created row => { launched := some (row, bytes), stored := true, created := true }

/-- What a deletion shows. -/
def StatementDelete.view : StatementDelete → FileView
  | finding | answered none _ => {}
  | sweeping x row pk .raw w => { loop := some x, sweep := some (row, pk, w) }
  | preferring x _ _ | sweeping x _ _ _ _ | dropping x _ _ | answered (some x) _ =>
    { loop := some x }

/-- What a task shows. -/
def FileTask.view : FileTask → FileView
  | upload _ file t => t.view file.bytes
  | delete _ _ _ t => t.view
  | ocrDownload _ _ _ | artifact _ _ _ _ _ _ | setPreference _ _ _ | deleteUser _ _ => {}

/-- The two loops have found the same, and deleted the same files. -/
structure DeleteLoop.SameFiles (x x' : DeleteLoop) : Prop where
  found : x'.found = x.found
  begun : x'.begun = x.begun
  emptied : x'.emptied = x.emptied

theorem DeleteLoop.SameFiles.refl (x : DeleteLoop) : x.SameFiles x := ⟨rfl, rfl, rfl⟩

/-- The row of an upload is that of its file. -/
structure UploadHost.RowOf (host : UploadHost) (row : FileRow) (bytes : Bytes) : Prop where
  seaweedFileId : row.seaweedFileId = rawStatementKey row.user row.id row.fileType
  checksum : row.checksum = host.sha256 bytes
  fileSize : row.fileSize = bytes.length

namespace FileTask

variable (host : UploadHost) (s : FileStore) (r : FileHeard)

/-- What a step of a request does. -/
inductive Moves (v : FileView) : FileStore → FileView → Prop where
  | quiet {s' : FileStore} : s'.files .raw = s.files .raw → s'.rows ⊆ s.rows → Moves v s' v
  | launches {row : FileRow} {bytes : Bytes} : v = {} → row.id = r.id → host.RowOf row bytes →
      Moves v s { launched := some (row, bytes) }
  | stores {row : FileRow} {bytes : Bytes} {stored : Bool} : v = { launched := some (row, bytes) } →
      Moves v (s.storeRawFile row.seaweedFileId bytes) { v with stored := stored }
  | refuses : v.created = false → Moves v s { v with stored := false }
  | creates {row : FileRow} {bytes : Bytes} {s' : FileStore} :
      v = { launched := some (row, bytes), stored := true } → s.insert row = some s' →
      Moves v s' { v with created := true }
  | finds {x : DeleteLoop} : v = {} → x.found ⊆ s.rows → x.begun = [] → x.emptied = [] →
      x.deleted = [] → Moves v s { loop := some x }
  | turns {s' : FileStore} {x x' : DeleteLoop}
      {sweep : Option (FileRow × Option Uuid × Sweep String)} :
      v = { loop := some x, sweep } → x.SameFiles x' → s'.files .raw = s.files .raw →
      s'.rows ⊆ s.rows → (∀ id ∈ x'.deleted, id ∈ x.deleted ∨ ∀ row ∈ s'.rows, row.id ≠ id) →
      Moves v s' { loop := some x' }
  | begins {s' : FileStore} {x : DeleteLoop} {row : FileRow} {pk : Option Uuid} :
      v = { loop := some x } → row ∈ x.found → (∀ id ∈ pk, id = row.id) → s'.files = s.files →
      s'.rows = s.rows → Moves v s' { loop := some { x with begun := pk.toList ++ x.begun }
                                      sweep := some (row, pk, .start) }
  | sweeps {x : DeleteLoop} {row : FileRow} {pk : Option Uuid} {w w' : Sweep String}
      {files : Objects String Bytes} {sweep : Option (FileRow × Option Uuid × Sweep String)} :
      v = { loop := some x, sweep := some (row, pk, w) } →
      w.step host.pageSize (under (statementFolder row.user pk)) (s.files .raw) =
        some (files, w') → sweep = none ∨ sweep = some (row, pk, w') →
      Moves v (s.setFiles .raw files) { loop := some x, sweep }
  | empties {x : DeleteLoop} {row : FileRow} {pk : Option Uuid} {w : Sweep String}
      {files : Objects String Bytes} : v = { loop := some x, sweep := some (row, pk, w) } →
      w.step host.pageSize (under (statementFolder row.user pk)) (s.files .raw) =
        some (files, .done) →
      Moves v (s.setFiles .raw files) { loop := some { x with emptied := pk.toList ++ x.emptied } }

end FileTask

/-! ## The loop of a deletion -/

/-- What a loop has dealt with are rows that it has found. -/
structure DeleteLoop.Sound (x : DeleteLoop) : Prop where
  deleted : ∀ id ∈ x.deleted, (∃ row ∈ x.found, row.id = id) ∧ (id ∈ x.emptied ∨ id ∈ x.kept)
  emptied : ∀ id ∈ x.emptied, id ∈ x.begun
  begun : ∀ id ∈ x.begun, ∃ row ∈ x.found, row.id = id

/-- The instance at which the loop is was found, and is done with before it is dropped. -/
def StatementDelete.Sound : StatementDelete → Prop
  | finding => True
  | preferring x row pk => x.Sound ∧ row ∈ x.found ∧ ∀ id ∈ pk, id = row.id
  | sweeping x row pk b _ => x.Sound ∧ row ∈ x.found ∧
      ∀ id ∈ pk, id = row.id ∧ id ∈ x.begun ∧ (b ≠ .raw → id ∈ x.emptied)
  | dropping x row pk => x.Sound ∧ row ∈ x.found ∧
      ∀ id ∈ pk, id = row.id ∧ (id ∈ x.emptied ∨ id ∈ x.kept)
  | answered x _ => ∀ y ∈ x, y.Sound

/-- The row of an upload is the user's. -/
def FileUpload.Sound (user : Uuid) : FileUpload → Prop
  | checking | refused none _ => True
  | storing row | inserting row | created row | refused (some row) _ => row.user = user

/-- The AI service writes no raw file. -/
def FileTask.Sound : FileTask → Prop
  | upload user _ t => t.Sound user
  | delete _ _ _ t => t.Sound
  | artifact _ _ b _ _ _ => b ≠ .raw
  | _ => True

theorem FileTask.Sound.delete {t : FileTask} (h : t.Sound) :
    (∀ x ∈ t.view.loop, x.Sound) ∧ ∀ row pk w, t.view.sweep = some (row, pk, w) →
      ∃ x ∈ t.view.loop, row ∈ x.found ∧ ∀ id ∈ pk, id = row.id ∧ id ∈ x.begun := by
  cases t with
  | delete user bulk ids t =>
    cases t with
    | finding => exact ⟨nofun, nofun⟩
    | preferring x row pk | dropping x row pk => exact ⟨by rintro y ⟨rfl⟩; exact h.1, nofun⟩
    | sweeping x row pk b w =>
      obtain ⟨hx, hrow, hpk⟩ := h
      cases b with
      | raw =>
        refine ⟨by rintro y ⟨rfl⟩; exact hx, ?_⟩
        rintro row' pk' w' ⟨rfl⟩
        exact ⟨x, rfl, hrow, fun id hid => ⟨(hpk id hid).1, (hpk id hid).2.1⟩⟩
      | ocr | normalized | referenceData => exact ⟨by rintro y ⟨rfl⟩; exact hx, nofun⟩
    | answered x a =>
      cases x with
      | none => exact ⟨nofun, nofun⟩
      | some x => exact ⟨h, nofun⟩
  | upload user file t =>
    cases t with
    | refused row a => cases row <;> exact ⟨nofun, nofun⟩
    | checking | storing | inserting | created => exact ⟨nofun, nofun⟩
  | ocrDownload | artifact | setPreference | deleteUser => exact ⟨nofun, nofun⟩

section Inversion

variable {host : UploadHost} {s s' : FileStore} {r : FileHeard}

theorem FileStore.insert_eq_some {row : FileRow} (h : s.insert row = some s') :
    s' = { s with rows := s.rows ++ [row] } := by
  unfold insert at h
  split at h
  · cases h
  · cases h
    rfl

theorem FileStore.getPreferences_eq_some {user : Uuid} {retain : Bool}
    (h : s.getPreferences user = some (retain, s')) : s'.files = s.files ∧ s'.rows = s.rows := by
  unfold getPreferences at h
  split at h
  · cases h
    exact ⟨rfl, rfl⟩
  · split at h
    · cases h
      exact ⟨rfl, rfl⟩
    · cases h

theorem FileStore.setFiles_self {b : Bucket} {files : Objects String Bytes} :
    (s.setFiles b files).files b = files := if_pos rfl

theorem FileStore.setFiles_ne {b c : Bucket} {files : Objects String Bytes} (h : c ≠ b) :
    (s.setFiles b files).files c = s.files c := if_neg h

namespace StatementDelete

theorem proceed_view (bulk : Bool) (ids : List Uuid) (x : DeleteLoop) :
    ∃ x', (proceed bulk ids x).view = { loop := some x' } ∧ x.SameFiles x' ∧
      x'.deleted = x.deleted := by
  induction ids generalizing x with
  | nil => exact ⟨_, rfl, ⟨rfl, rfl, rfl⟩, rfl⟩
  | cons id ids ih =>
    rw [proceed]
    split
    · obtain ⟨x', hview, hsame, hdeleted⟩ :=
        ih { x with skipped := x.skipped ++ [(id, "not_found")] }
      exact ⟨x', hview, ⟨hsame.found, hsame.begun, hsame.emptied⟩, hdeleted⟩
    · exact ⟨_, rfl, ⟨rfl, rfl, rfl⟩, rfl⟩

theorem proceed_sound (bulk : Bool) {x : DeleteLoop} (ids : List Uuid) (h : x.Sound) :
    (proceed bulk ids x).Sound := by
  induction ids generalizing x with
  | nil =>
    rintro y ⟨rfl⟩
    exact ⟨h.deleted, h.emptied, h.begun⟩
  | cons id ids ih =>
    rw [proceed]
    split
    · exact ih ⟨h.deleted, h.emptied, h.begun⟩
    · next row hrow =>
      refine ⟨⟨h.deleted, h.emptied, h.begun⟩, List.mem_of_find?_eq_some hrow, fun pk hpk => ?_⟩
      split at hpk <;> cases hpk
      rfl

end StatementDelete

namespace FileTask

theorem upload_sound {user : Uuid} {file : UploadedFile} {t t' : FileUpload} (hsound : t.Sound user)
    (h : t.step host s r user file = some (s', t')) : t'.Sound user := by
  cases t with
  | checking =>
    simp only [FileUpload.step] at h
    split at h
    · cases h
      trivial
    · split at h <;> cases h
      · trivial
      · rfl
  | storing row | inserting row =>
    simp only [FileUpload.step] at h
    split at h <;> cases h <;> exact hsound
  | created row | refused row a => cases h

theorem upload_moves {user : Uuid} {file : UploadedFile} {t t' : FileUpload}
    (h : t.step host s r user file = some (s', t')) :
    Moves host s r (t.view file.bytes) s' (t'.view file.bytes) := by
  cases t with
  | checking =>
    simp only [FileUpload.step] at h
    split at h
    · cases h
      exact .quiet rfl (List.Subset.refl _)
    · split at h <;> cases h
      · exact .quiet rfl (List.Subset.refl _)
      · exact .launches rfl rfl ⟨rfl, rfl, rfl⟩
  | storing row =>
    simp only [FileUpload.step] at h
    split at h <;> cases h
    · exact .stores rfl
    · exact .stores rfl
    · exact .quiet rfl (List.Subset.refl _)
  | inserting row =>
    simp only [FileUpload.step] at h
    split at h
    · cases h
      exact .refuses rfl
    · next hs =>
      cases h
      exact .creates rfl hs
  | created row | refused row a => cases h

theorem sweeping_view {x : DeleteLoop} {row : FileRow} {pk : Option Uuid} {b : Bucket}
    {w : Sweep String} (hb : b ≠ .raw) :
    (StatementDelete.sweeping x row pk b w).view = { loop := some x } := by
  cases b with
  | raw => exact absurd rfl hb
  | ocr | normalized | referenceData => rfl

/-- The raw files of a statement, page by page. -/
theorem sweepRaw_moves {user : Uuid} {bulk : Bool} {ids : List Uuid} {x : DeleteLoop}
    {row : FileRow} {pk : Option Uuid} {w : Sweep String} {t' : StatementDelete}
    (hsound : (StatementDelete.sweeping x row pk .raw w).Sound)
    (h : (StatementDelete.sweeping x row pk .raw w).step host s r user bulk ids = some (s', t')) :
    Moves host s r (StatementDelete.sweeping x row pk .raw w).view s' t'.view ∧ t'.Sound := by
  obtain ⟨hx, hrow, hpk⟩ := hsound
  simp only [StatementDelete.step] at h
  split at h
  · cases h
    exact ⟨.turns rfl (.refl x) rfl (List.Subset.refl _) fun _ => Or.inl,
      fun y hy => by cases hy; exact hx⟩
  · next hs =>
    cases h
    exact ⟨.sweeps rfl hs (Or.inl rfl), fun y hy => by cases hy; exact hx⟩
  · next hs =>
    cases h
    refine ⟨.empties rfl hs, ⟨fun id hid => ?_, fun id hid => ?_, hx.begun⟩, hrow,
      fun id hid => ⟨(hpk id hid).1, (hpk id hid).2.1, fun _ => ?_⟩⟩
    · exact (hx.deleted id hid).imp_right (Or.imp_left (List.mem_append_right _))
    · rcases List.mem_append.1 hid with hid | hid
      · exact (hpk id (Option.mem_toList.1 hid)).2.1
      · exact hx.emptied id hid
    · exact List.mem_append_left _ (Option.mem_toList.2 hid)
  · next hs =>
    cases h
    exact ⟨.sweeps rfl hs (Or.inr rfl), hx, hrow, hpk⟩
  · cases h

/-- The artifacts, which no raw file is among. -/
theorem sweepArtifacts_moves {user : Uuid} {bulk : Bool} {ids : List Uuid} {x : DeleteLoop}
    {row : FileRow} {pk : Option Uuid} {b : Bucket} {w : Sweep String} {t' : StatementDelete}
    (hb : b ≠ .raw) (hsound : (StatementDelete.sweeping x row pk b w).Sound)
    (h : (StatementDelete.sweeping x row pk b w).step host s r user bulk ids = some (s', t')) :
    Moves host s r (StatementDelete.sweeping x row pk b w).view s' t'.view ∧ t'.Sound := by
  obtain ⟨hx, hrow, hpk⟩ := hsound
  have hquiet : ∀ files,
      Moves host s r { loop := some x } (s.setFiles b files) { loop := some x } := fun files =>
    .quiet (FileStore.setFiles_ne (Ne.symm hb)) (List.Subset.refl _)
  rw [sweeping_view hb]
  simp only [StatementDelete.step, if_neg hb] at h
  split at h
  · cases h
    exact ⟨.quiet rfl (List.Subset.refl _), fun y hy => by cases hy; exact hx⟩
  · cases h
    exact ⟨hquiet _, fun y hy => by cases hy; exact hx⟩
  · cases h
    cases b with
    | raw => exact absurd rfl hb
    | ocr =>
      exact ⟨hquiet _, hx, hrow, fun id hid =>
        ⟨(hpk id hid).1, (hpk id hid).2.1, fun _ => (hpk id hid).2.2 hb⟩⟩
    | normalized | referenceData =>
      exact ⟨hquiet _, hx, hrow, fun id hid => ⟨(hpk id hid).1, Or.inl ((hpk id hid).2.2 hb)⟩⟩
  · cases h
    rw [sweeping_view hb]
    exact ⟨hquiet _, hx, hrow, hpk⟩
  · cases h

theorem delete_moves {user : Uuid} {bulk : Bool} {ids : List Uuid} {t t' : StatementDelete}
    (hsound : t.Sound) (h : t.step host s r user bulk ids = some (s', t')) :
    Moves host s r t.view s' t'.view ∧ t'.Sound := by
  cases t with
  | finding =>
    simp only [StatementDelete.step] at h
    split at h <;> cases h
    · exact ⟨.quiet rfl (List.Subset.refl _), fun y hy => nomatch hy⟩
    · obtain ⟨x, hview, hsame, hdeleted⟩ := StatementDelete.proceed_view bulk ids
        { found := s.rows.filter fun row => row.id ∈ ids ∧ row.user = user, rest := ids }
      refine ⟨?_, StatementDelete.proceed_sound bulk ids ⟨by simp, by simp, by simp⟩⟩
      rw [hview]
      exact .finds rfl (hsame.found ▸ List.filter_subset_self _) hsame.begun hsame.emptied hdeleted
  | preferring x row pk =>
    obtain ⟨hx, hrow, hpk⟩ := hsound
    simp only [StatementDelete.step] at h
    split at h
    · cases h
      exact ⟨.quiet rfl (List.Subset.refl _), fun y hy => by cases hy; exact hx⟩
    · next hs =>
      cases h
      obtain ⟨hfiles, hrows⟩ := FileStore.getPreferences_eq_some hs
      refine ⟨.turns rfl ⟨rfl, rfl, rfl⟩ (by rw [hfiles]) (hrows ▸ List.Subset.refl _)
        fun _ => Or.inl, ⟨fun id hid => ?_, hx.emptied, hx.begun⟩, hrow,
        fun id hid => ⟨hpk id hid, Or.inr ?_⟩⟩
      · exact (hx.deleted id hid).imp_right (Or.imp_right (List.mem_append_right _))
      · exact List.mem_append_left _ (Option.mem_toList.2 hid)
    · next hs =>
      cases h
      obtain ⟨hfiles, hrows⟩ := FileStore.getPreferences_eq_some hs
      refine ⟨.begins rfl hrow hpk hfiles hrows, ⟨hx.deleted, fun id hid => ?_, fun id hid => ?_⟩,
        hrow, fun id hid => ⟨hpk id hid, ?_, fun hb => absurd rfl hb⟩⟩
      · exact List.mem_append_right _ (hx.emptied id hid)
      · rcases List.mem_append.1 hid with hid | hid
        · exact ⟨row, hrow, (hpk id (Option.mem_toList.1 hid)).symm⟩
        · exact hx.begun id hid
      · exact List.mem_append_left _ (Option.mem_toList.2 hid)
  | sweeping x row pk b w =>
    by_cases hb : b = .raw
    · subst hb
      exact sweepRaw_moves hsound h
    · exact sweepArtifacts_moves hb hsound h
  | dropping x row pk =>
    obtain ⟨hx, hrow, hpk⟩ := hsound
    cases pk with
    | none =>
      cases h
      exact ⟨.quiet rfl (List.Subset.refl _), fun y hy => by cases hy; exact hx⟩
    | some id =>
      cases h
      obtain ⟨x', hview, hsame, hdeleted⟩ := StatementDelete.proceed_view bulk x.rest
        { x with deleted := x.deleted ++ [id] }
      refine ⟨?_, StatementDelete.proceed_sound bulk x.rest ⟨fun i hi => ?_, hx.emptied, hx.begun⟩⟩
      · rw [hview]
        refine .turns rfl ⟨hsame.found, hsame.begun, hsame.emptied⟩ rfl (List.filter_subset_self _)
          fun i hi => ?_
        rw [hdeleted, List.mem_append, List.mem_singleton] at hi
        refine hi.imp_right fun heq row hrow => ?_
        exact heq ▸ of_decide_eq_true (List.mem_filter.1 hrow).2
      · rcases List.mem_append.1 hi with hi | hi
        · exact hx.deleted i hi
        · obtain rfl := List.mem_singleton.1 hi
          exact ⟨⟨row, hrow, (hpk _ rfl).1.symm⟩, (hpk _ rfl).2⟩
  | answered x a => cases h

/-- A step is one of the moves, and keeps the loop of a deletion sound. -/
theorem step_moves {t t' : FileTask} (hsound : t.Sound) (h : t.step host s r = some (s', t')) :
    Moves host s r t.view s' t'.view ∧ t'.Sound := by
  cases t with
  | upload user file t =>
    obtain ⟨⟨s', t'⟩, hstep, heq⟩ := Option.map_eq_some_iff.1 h
    cases heq
    exact ⟨upload_moves hstep, upload_sound hsound hstep⟩
  | delete user bulk ids t =>
    obtain ⟨⟨s', t'⟩, hstep, heq⟩ := Option.map_eq_some_iff.1 h
    cases heq
    exact delete_moves hsound hstep
  | ocrDownload user statement a =>
    cases a <;> cases h
    exact ⟨.quiet rfl (List.Subset.refl _), trivial⟩
  | artifact user statement b name bytes done =>
    cases done <;> cases h
    exact ⟨.quiet (FileStore.setFiles_ne (Ne.symm hsound)) (List.Subset.refl _), hsound⟩
  | setPreference user retain done =>
    cases done <;> cases h
    exact ⟨.quiet rfl (List.Subset.refl _), trivial⟩
  | deleteUser user done =>
    cases done <;> cases h
    exact ⟨.quiet rfl (List.filter_subset_self _), trivial⟩

theorem Begins.sound {t : FileTask} (h : t.Begins) : t.Sound := by
  cases t with
  | delete user bulk ids t =>
    obtain ⟨rfl, -⟩ := h
    trivial
  | artifact user statement b name bytes done =>
    rintro rfl
    rcases h.1 with h | h <;> exact nomatch h
  | upload user file t =>
    obtain rfl : t = .checking := h
    trivial
  | ocrDownload | setPreference | deleteUser => trivial

theorem Begins.view {t : FileTask} (h : t.Begins) : t.view = {} := by
  cases t with
  | upload user file t =>
    obtain rfl : t = .checking := h
    rfl
  | delete user bulk ids t =>
    obtain ⟨rfl, -⟩ := h
    rfl
  | ocrDownload | artifact | setPreference | deleteUser => rfl

end FileTask

end Inversion

theorem fileServer_next {host : UploadHost} {p q : Pool FileStore FileTask}
    {a : Action FileTask FileHeard} (hn : (fileServer host).Next p a q) :
    (∃ t : FileTask, t.Begins ∧ q = ⟨p.store, p.threads ++ [t]⟩) ∨
    ∃ (i : ℕ) (r : FileHeard) (t t' : FileTask) (s' : FileStore), a = .run i r ∧
      p.threads[i]? = some t ∧ t.step host p.store r = some (s', t') ∧
      q = ⟨s', p.threads.set i t'⟩ := by
  cases hn with
  | @arrive t ht => exact Or.inl ⟨t, ht, rfl⟩
  | @run i r t t' s' new hi hs =>
    obtain ⟨⟨s', t'⟩, hstep, heq⟩ := Option.map_eq_some_iff.1 hs
    cases heq
    exact Or.inr ⟨i, r, t, t', s', rfl, hi, hstep, by simp⟩

end NbeAdvisor
