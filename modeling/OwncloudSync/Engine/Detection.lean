import OwncloudSync.Engine.Faults
import Mathlib.Tactic.Common

/-!
# What a later run sees of a local change

A transfer task records the etag of the answer and the size of the local file.  The next run
compares these two with what it discovers, and nothing else: neither the modification time nor
the content.  So a change of the content is visible to it exactly through **the length**, and
`instruction_after_transfer` gives the instruction for every combination of what has changed.
-/

namespace OwncloudSync

open PathTree

variable {κ : EngineConfig} {ε : Env} {t : Item} {s σ : State}

/-- A file task that transfers its path: Download, Upload or Conflict. -/
def Item.transfers (t : Item) : Prop :=
  t.isDir = false ∧ (t.instr = .download ∨ t.instr = .upload ∨ t.instr = .conflict)

/-- The baseline a successful transfer leaves: the etag of the answer and the size of the file
it leaves on the disk. -/
lemma baseline_after_transfer {c : LocalFile} (ht : t.transfers)
    (hok : (exec κ ε t s).2 = none)
    (hc : (exec κ ε t s).1.disk.get t.path = some (Node.file c)) :
    ∃ e, (exec κ ε t s).1.journal.baseline t.path = some (e, recordedSize ε t.path c) := by
  obtain ⟨hfile, hi | hi | hi⟩ := ht
  · obtain ⟨r, -, -, -, hj⟩ := exec_fileDownload_ok hfile hi hok
    rw [metadataLen_file hc] at hj
    exact ⟨_, baseline_fileRow hj⟩
  · obtain ⟨a, -, hd, -, hj⟩ := exec_fileUpload_ok hfile hi hok
    rw [hd] at hc
    rw [metadataLen_file hc] at hj
    exact ⟨_, baseline_fileRow hj⟩
  · obtain ⟨a, r, -, -, -, -, -, hj⟩ := exec_fileConflict_ok hfile hi hok
    rw [metadataLen_file hc] at hj
    exact ⟨_, baseline_fileRow hj⟩

/-- The instruction for two files with a baseline, by what has changed. -/
lemma instruction_files {p : Path} {a : LocalFile} {r : RemoteFile} {e : Str} {n : UInt64}
    (hd : σ.disk.get p = some (Node.file a)) (hs : σ.space.get p = some (Node.file r))
    (hb : σ.journal.baseline p = some (e, n)) :
    instruction κ ε σ p =
      if a.content.len = n then (if trimQuotes r.etag = e then .ignore else .download)
      else if trimQuotes r.etag = e then .upload
      else
        match κ.conflictStrategy with
        | .keepBoth => .conflict
        | .keepRemote => .download
        | .keepLocal => .upload := by
  rw [instruction, localEntry_file hd, remoteEntry_file hs, hb]
  exact reconcile_both _ _ e n

/-- The local change at `p` is noticed: the path is neither ignored nor downloaded, it is
uploaded where the etag is the recorded one, and in conflict under `KeepBoth` where it is
not. -/
def LocalChangeNoticed (κ : EngineConfig) (ε : Env) (σ : State) (p : Path) : Prop :=
  instruction κ ε σ p ≠ .ignore ∧ instruction κ ε σ p ≠ .download ∧
  ∀ e n r, σ.journal.baseline p = some (e, n) → σ.space.get p = some (Node.file r) →
    (trimQuotes r.etag = e → instruction κ ε σ p = .upload) ∧
    (κ.conflictStrategy = .keepBoth → trimQuotes r.etag ≠ e → instruction κ ε σ p = .conflict)

/-- **What the next run makes of a path whose row a transfer wrote.**  `c` is the local file the
transfer left, `a` and `r` are what the two sides hold now.  A local file of another length than
recorded is never ignored: it is uploaded where the server's etag is the recorded one, and where
that changed too the strategy decides.  A local file of the recorded length counts as
unchanged. -/
theorem instruction_after_transfer (κ' : EngineConfig) (ε' : Env) {c a : LocalFile}
    {r : RemoteFile} (ht : t.transfers)
    (hok : (exec κ ε t s).2 = none)
    (hc : (exec κ ε t s).1.disk.get t.path = some (Node.file c))
    (hrow : σ.journal t.path = (exec κ ε t s).1.journal t.path)
    (hd : σ.disk.get t.path = some (Node.file a))
    (hs : σ.space.get t.path = some (Node.file r)) :
    ∃ e, σ.journal.baseline t.path = some (e, recordedSize ε t.path c) ∧
      (a.content.len ≠ recordedSize ε t.path c →
        instruction κ' ε' σ t.path ≠ .ignore ∧
        (trimQuotes r.etag = e → instruction κ' ε' σ t.path = .upload) ∧
        (trimQuotes r.etag ≠ e → instruction κ' ε' σ t.path =
          match κ'.conflictStrategy with
          | .keepBoth => .conflict
          | .keepRemote => .download
          | .keepLocal => .upload)) ∧
      (a.content.len = recordedSize ε t.path c →
        instruction κ' ε' σ t.path = if trimQuotes r.etag = e then .ignore else .download) := by
  obtain ⟨e, he⟩ := baseline_after_transfer ht hok hc
  have hb : σ.journal.baseline t.path = some (e, recordedSize ε t.path c) :=
    (baseline_congr hrow).trans he
  have hi := instruction_files (κ := κ') (ε := ε') hd hs hb
  refine ⟨e, hb, fun hlen => ?_, fun hlen => ?_⟩
  · rw [if_neg hlen] at hi
    rw [hi]
    refine ⟨?_, fun he => if_pos he, fun he => if_neg he⟩
    split
    · simp
    · split <;> simp
  · rw [hi, if_pos hlen]

/-- A file `a.txt` of one byte that is new on the server. -/
def newOnServer : State where
  disk := Tree.ofList []
  space := Tree.ofList [(["a.txt".toList], Node.file ⟨⟨[1], by decide⟩, "e1".toList⟩)]
  journal := fun _ => none
  sync := ⟨.idle, fun _ => none⟩

/-- Its Download task. -/
def newOnServerTask : Item := itemOf ⟨.keepBoth, 5000000⟩ Env.calm newOnServer ["a.txt".toList]

/-- After the download the user replaces the content by `bytes`. -/
def editedAfterDownload (bytes : Blob) : State :=
  { (exec ⟨.keepBoth, 5000000⟩ Env.calm newOnServerTask newOnServer).1 with
    disk := Tree.ofList [(["a.txt".toList], Node.file ⟨bytes, 9⟩)] }

/-- The theorem at a download of `a.txt` followed by an edit that makes it longer. -/
theorem instruction_after_download_of_longer :
    ∃ e, (editedAfterDownload ⟨[1, 2], by decide⟩).journal.baseline ["a.txt".toList] =
        some (e, 1) ∧
      instruction ⟨.keepBoth, 5000000⟩ Env.calm (editedAfterDownload ⟨[1, 2], by decide⟩)
        ["a.txt".toList] ≠ .ignore := by
  obtain ⟨e, hb, hlong, -⟩ := instruction_after_transfer (κ := ⟨.keepBoth, 5000000⟩)
    (ε := Env.calm) ⟨.keepBoth, 5000000⟩ Env.calm (t := newOnServerTask)
    (s := newOnServer) (σ := editedAfterDownload ⟨[1, 2], by decide⟩)
    (c := ⟨⟨[1], by decide⟩, 0⟩) (a := ⟨⟨[1, 2], by decide⟩, 9⟩)
    (r := ⟨⟨[1], by decide⟩, "e1".toList⟩)
    ⟨by decide, Or.inl (by decide)⟩ (by decide) (by decide) rfl (by decide) (by decide)
  exact ⟨e, hb, (hlong (by decide)).1⟩

/-- Local changes are not always noticed: an edit that keeps the length is ignored, and under
`KeepRemote` an edit of a file that the server has changed too is overwritten. -/
theorem equal_length_edit_missed :
    (¬ ∀ (κ κ' : EngineConfig) (ε ε' : Env) (t : Item) (s σ : State) (c a : LocalFile)
        (r : RemoteFile), t.transfers → (exec κ ε t s).2 = none →
      (exec κ ε t s).1.disk.get t.path = some (Node.file c) →
      σ.journal t.path = (exec κ ε t s).1.journal t.path →
      σ.disk.get t.path = some (Node.file a) → σ.space.get t.path = some (Node.file r) →
      a.content ≠ c.content → LocalChangeNoticed κ' ε' σ t.path) ∧
    instruction ⟨.keepBoth, 5000000⟩ Env.calm (editedAfterDownload ⟨[2], by decide⟩)
      ["a.txt".toList] = .ignore ∧
    instruction ⟨.keepRemote, 5000000⟩ Env.calm
      { editedAfterDownload ⟨[2, 3], by decide⟩ with
        space := Tree.ofList [(["a.txt".toList],
          Node.file ⟨⟨[4], by decide⟩, "e2".toList⟩)] } ["a.txt".toList] = .download := by
  refine ⟨fun h => ?_, by decide, by decide⟩
  have hn := h ⟨.keepBoth, 5000000⟩ ⟨.keepBoth, 5000000⟩ Env.calm Env.calm newOnServerTask
    newOnServer (editedAfterDownload ⟨[2], by decide⟩) ⟨⟨[1], by decide⟩, 0⟩
    ⟨⟨[2], by decide⟩, 9⟩ ⟨⟨[1], by decide⟩, "e1".toList⟩ ⟨by decide, Or.inl (by decide)⟩
    (by decide) (by decide) rfl (by decide) (by decide) (by decide)
  exact hn.1 (by decide)

end OwncloudSync
