import OwncloudSync.Engine.Env
import Mathlib.Tactic.Common

/-!
# Propagation

The operations that change the disk or the space (`propagate/ops.rs`, `propagate/download.rs`,
`propagate/upload.rs`), each as a function from the tree it works on to its result and the tree
it leaves.  Every call of the source that can fail is looked up in `Env.fails` at the point
where the source makes it, so the tree left behind by a failure is the one the source leaves:
an error after the temp file was written leaves the temp file, an error of the final rename
removes it.

A request goes to the URL that `join_remote_path` has built for the path, and acts on the path that
this URL leads to: `url`.  For a name without tab, line feed and carriage return that is the path
itself, which is what the argument defaults to (`Engine/Calls.lean` says more).
-/

namespace OwncloudSync

open PathTree

/-! ## Deletes and MKCOL (`propagate/ops.rs`) -/

/-- `delete_local`: `remove_file`, with an absent path taken as success. -/
def deleteLocal (env : Env) (p : Path) (d : Disk) : Except SyncError Unit × Disk :=
  match env.fails .removeFile p with
  | some f => (.error f.error, d)
  | none =>
      match d.get p with
      | some (Node.file _) => (.ok (), d.erase p)
      | some Node.dir => (.error ioIsADirectory, d)
      | none => if fileAbove d p then (.error ioNotADirectory, d) else (.ok (), d)

/-- `delete_local_dir`: `remove_dir_all`, with an absent path taken as success.  A failure in
the middle leaves whatever it had not reached. -/
def deleteLocalDir (env : Env) (p : Path) (d : Disk) : Except SyncError Unit × Disk :=
  match env.fails .removeDirAll p with
  | some f => (.error f.error, d.prune (fun a => decide (p <:+ a) && f.removed a))
  | none =>
      match d.get p with
      | some Node.dir => (.ok (), d.erase p)
      | some (Node.file _) => (.error ioNotADirectory, d)
      | none => if fileAbove d p then (.error ioNotADirectory, d) else (.ok (), d)

/-- `delete_remote`: a DELETE, with 404 taken as success. -/
def deleteRemote (env : Env) (p : Path) (s : Space) (url : Path := p) :
    Except SyncError Unit × Space :=
  match env.fails .delete p with
  | some f => (.error f.error, s.prune (fun a => decide (url <:+ a) && f.removed a))
  | none =>
      let r := httpDelete s url
      (if r.1 ≠ 204 ∧ r.1 ≠ 200 ∧ r.1 ≠ 404 then
          .error (.http r.1 ("DELETE failed: " ++ statusText r.1))
        else .ok (), r.2)

/-- `mkdir_remote`: a MKCOL, with 405 (it exists) taken as success. -/
def mkdirRemote (fails : Option Failure) (p : Path) (s : Space) :
    Except SyncError Unit × Space :=
  match fails with
  | some f => (.error f.error, if f.performed then (httpMkcol s p).2 else s)
  | none =>
      let r := httpMkcol s p
      (if r.1 = 201 ∨ r.1 = 200 ∨ r.1 = 405 then .ok ()
        else .error (.http r.1 "MKCOL failed"), r.2)

/-- `create_dir_all`, which the directory phase calls for a directory that is new on the
server. -/
def createDirAll (fails : Option Failure) (p : Path) (d : Disk) : Except SyncError Unit × Disk :=
  match fails with
  | some f => (.error f.error, (d.mkdirAll? (p.drop f.progress)).getD d)
  | none =>
      match d.mkdirAll? p with
      | some d' => (.ok (), d')
      | none => (.error (if fileAbove d p then ioNotADirectory else ioFileExists), d)

/-! ## Download (`propagate/download.rs`) -/

/-- The second half of `propagate_download`: temp file, then rename onto the destination.  The
engine passes no `expected_etag`, so the check between the two halves never applies. -/
def storeBody (env : Env) (p : Path) (body : Blob) (d : Disk) : Except SyncError Unit × Disk :=
  match env.fails .createTmp p with
  | some f => (.error f.error, d)
  | none =>
      match d.write? (tmpPath p) ⟨body.take 0, env.mtime p⟩ with
      | none => (.error ioIsADirectory, d)
      | some d₁ =>
          match env.fails .writeTmp p with
          | some f =>
              (.error f.error,
                (d₁.write? (tmpPath p) ⟨body.take f.progress, env.mtime p⟩).getD d₁)
          | none =>
              let d₂ := (d₁.write? (tmpPath p) ⟨body, env.mtime p⟩).getD d₁
              -- the clean-up of the temp file after a failed rename ignores its own result
              let cleaned :=
                match env.fails .removeTmp p with
                | some _ => d₂
                | none => d₂.erase (tmpPath p)
              match env.fails .renameTmp p with
              | some f => (.error f.error, cleaned)
              | none =>
                  match d₂.rename? (tmpPath p) p with
                  | some d₃ => (.ok (), d₃)
                  | none => (.error ioIsADirectory, cleaned)

/-- `propagate_download`: GET, parent directories, body, temp file, rename.  Returns the `ETag`
header. -/
def propagateDownload (env : Env) (p : Path) (s : Space) (d : Disk) (url : Path := p) :
    Except SyncError Str × Disk :=
  match env.fails .get p with
  | some f => (.error f.error, d)
  | none =>
      match httpGet s url with
      | (200, some r) =>
          match createDirAll (env.fails .parentDirs p) p.tail d with
          | (.error e, d₁) => (.error e, d₁)
          | (.ok (), d₁) =>
              match env.fails .body p with
              | some f => (.error f.error, d₁)
              | none =>
                  match storeBody env p r.content d₁ with
                  | (.error e, d₂) => (.error e, d₂)
                  | (.ok (), d₂) => (.ok (env.getEtag p r), d₂)
      | (status, _) => (.error (.http status ("GET failed: " ++ statusText status)), d)

/-- `tokio::fs::metadata(..).map(|m| m.len()).unwrap_or(0)`. -/
def metadataLen (env : Env) (p : Path) (d : Disk) : UInt64 :=
  match env.fails .metadata p, d.get p with
  | none, some (Node.file a) => a.content.len
  | _, _ => 0

/-- The size a transfer task records for a file: its length, or zero where the size could not
be read (`unwrap_or(0)`). -/
def recordedSize (ε : Env) (p : Path) (c : LocalFile) : UInt64 :=
  match ε.fails .metadata p with
  | none => c.content.len
  | some _ => 0

lemma metadataLen_file {ε : Env} {p : Path} {d : Disk} {c : LocalFile}
    (h : d.get p = some (Node.file c)) : metadataLen ε p d = recordedSize ε p c := by
  unfold metadataLen recordedSize
  rw [h]
  cases ε.fails .metadata p <;> rfl

/-- The recorded size is the length exactly where it could be read, or where there is nothing to
read. -/
lemma recordedSize_eq_iff {ε : Env} {p : Path} {c : LocalFile} :
    recordedSize ε p c = c.content.len ↔ ε.fails .metadata p = none ∨ c.content.len = 0 := by
  unfold recordedSize
  cases ε.fails .metadata p with
  | none => simp
  | some f => simp [eq_comm]

/-- So what is uploaded is all of the file, or nothing. -/
lemma take_recordedSize_iff {ε : Env} {p : Path} {c : LocalFile} :
    c.content.take (recordedSize ε p c).toNat = c.content ↔
      ε.fails .metadata p = none ∨ c.content.len = 0 := by
  rw [← recordedSize_eq_iff]
  constructor
  · intro h
    unfold recordedSize at h ⊢
    cases hm : ε.fails .metadata p with
    | none => rfl
    | some f =>
        rw [hm] at h
        have hlen := congrArg Blob.len h
        rw [← hlen]
        rfl
  · intro h
    rw [h, Blob.take_len]

/-! ## Upload (`propagate/upload.rs`) -/

/-- `ensure_parent_collections`: MKCOL for every proper ancestor, outermost first, up to the
first one that fails.  `q` is the parent of what the URL of the file `p` leads to. -/
def ensureParentCollections (env : Env) (p : Path) : Path → Space → Except SyncError Unit × Space
  | [], s => (.ok (), s)
  | n :: q, s =>
      match ensureParentCollections env p q s with
      | (.error e, s') => (.error e, s')
      | (.ok (), s') => mkdirRemote (env.fails (.mkcolParent (n :: q)) p) (n :: q) s'

/-- One PUT with its status check. -/
def putOnce (fails : Option Failure) (message : String) (p : Path) (f : RemoteFile) (s : Space) :
    Except SyncError Unit × Space :=
  match fails with
  | some e => (.error e.error, if e.performed then (httpPut s p f).2 else s)
  | none =>
      let r := httpPut s p f
      (if r.1 ≠ 200 ∧ r.1 ≠ 201 ∧ r.1 ≠ 204 then
          .error (.http r.1 (message ++ toString r.1))
        else .ok (), r.2)

/-- `upload_put`: the body is what `Content-Length` frames.  A 409 means a missing parent: make
the ancestors and send the PUT once more. -/
def uploadPut (env : Env) (p : Path) (size : UInt64) (d : Disk) (s : Space) (url : Path := p) :
    Except SyncError Str × Space :=
  match env.fails .read p, d.get p with
  | none, some (Node.file a) =>
      let f : RemoteFile := ⟨a.content.take size.toNat, env.storedEtag p⟩
      if env.fails .put p = none ∧ (httpPut s url f).1 = 409 then
        match ensureParentCollections env p url.tail s with
        | (.error e, s') => (.error e, s')
        | (.ok (), s') =>
            match putOnce (env.fails .putRetry p) "PUT retry failed: " url f s' with
            | (.error e, s'') => (.error e, s'')
            | (.ok (), s'') => (.ok (env.putEtag p), s'')
      else
        match putOnce (env.fails .put p) "PUT failed: " url f s with
        | (.error e, s') => (.error e, s')
        | (.ok (), s') => (.ok (env.putEtag p), s')
  | some f, _ => (.error f.error, s)
  | none, some Node.dir => (.error ioIsADirectory, s)
  | none, none => (.error ioNotFound, s)

/-- The PATCH of a TUS upload with its status check. -/
def patchOnce (fails : Option Failure) (p : Path) (f : RemoteFile) (s : Space) :
    Except SyncError Unit × Space :=
  match fails with
  | some e => (.error e.error, if e.performed then (httpPatch s p f).2 else s)
  | none =>
      let r := httpPatch s p f
      (if r.1 ≠ 204 ∧ r.1 ≠ 200 then .error (.http r.1 "TUS PATCH failed") else .ok (), r.2)

/-- `upload_tus`: creation POST, then the local file is read, then one PATCH stores it. -/
def uploadTus (env : Env) (p : Path) (size : UInt64) (d : Disk) (s : Space) (url : Path := p) :
    Except SyncError Str × Space :=
  match env.fails .tusCreate p with
  | some f => (.error f.error, s)
  | none =>
      if httpTusCreate s url ≠ 201 then
        (.error (.http (httpTusCreate s url) "TUS creation failed"), s)
      else
        match env.fails .read p, d.get p with
        | none, some (Node.file a) =>
            match patchOnce (env.fails .tusPatch p) url
                ⟨a.content.take size.toNat, env.storedEtag p⟩ s with
            | (.error e, s') => (.error e, s')
            | (.ok (), s') => (.ok (env.putEtag p), s')
        | some f, _ => (.error f.error, s)
        | none, some Node.dir => (.error ioIsADirectory, s)
        | none, none => (.error ioNotFound, s)

/-- `propagate_upload`. -/
def propagateUpload (cfg : EngineConfig) (env : Env) (p : Path) (size : UInt64) (d : Disk)
    (s : Space) (url : Path := p) : Except SyncError Str × Space :=
  if cfg.tusThreshold ≤ size then uploadTus env p size d s url else uploadPut env p size d s url

end OwncloudSync
