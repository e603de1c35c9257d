import OwncloudSync.Engine.Tidy
import Mathlib.Tactic.Common

/-!
# What a run leaves at each path

A run from a tidy state whose file tasks succeed.  Every path belongs to one of five kinds, and
for each of them there is one result here.

* A file path that is not deleted ends as two files (`files_of_kept`).  If it had a task, they are
  those of the version that was taken, and the row holds its etag, and its size as far as it could be
  read (`transferred`); if nothing went wrong, all three agree (`synced_of_task`).
* A file path that is deleted is on neither side (`absent_of_deleted`).
* The copy of a conflict is the old local file, and is on the disk alone (`copy_of_conflict`).
* A directory is no file afterwards (`no_file_of_dir`).
* Any other path stays absent (`absent_of_absent`).

**The two halves of every argument** are the task that owns the path (`files_own`) and the tasks
after it, which leave the path alone because they are file tasks (`end_of_transfer`).
Together the five kinds give `Tidy.run`: a tidy state stays tidy.
-/

namespace OwncloudSync

open PathTree FileName

/-- Both sides hold a file and the baseline agrees with both. -/
def Settled (p : Path) (s : State) : Prop :=
  ∃ a r, s.disk.get p = some (Node.file a) ∧ s.space.get p = some (Node.file r) ∧
    s.journal.baseline p = some (trimQuotes r.etag, a.content.len)

/-- Both sides hold the same content, and the baseline agrees with it. -/
def Synced (p : Path) (s : State) : Prop :=
  ∃ a r, s.disk.get p = some (Node.file a) ∧ s.space.get p = some (Node.file r) ∧
    s.journal.baseline p = some (trimQuotes r.etag, a.content.len) ∧ a.content = r.content

/-- Both sides hold a file. -/
def BothFiles (p : Path) (s : State) : Prop :=
  ∃ a r, s.disk.get p = some (Node.file a) ∧ s.space.get p = some (Node.file r)

/-- The path is on neither side. -/
def Absent (p : Path) (s : State) : Prop := s.disk.get p = none ∧ s.space.get p = none

variable {κ : EngineConfig} {ε : Env} {σ s s' : State} {π : Schedule σ} {p q : Path} {t u : Item}

lemma Synced.settled (h : Synced p s) : Settled p s := by
  obtain ⟨a, r, ha, hr, hb, -⟩ := h
  exact ⟨a, r, ha, hr, hb⟩

lemma Synced.congr (h : Synced p s) (hd : s'.disk.get p = s.disk.get p)
    (hs : s'.space.get p = s.space.get p) (hj : s'.journal p = s.journal p) : Synced p s' := by
  obtain ⟨a, r, ha, hr, hb, hc⟩ := h
  exact ⟨a, r, hd.trans ha, hs.trans hr, (baseline_congr hj).trans hb, hc⟩

/-- The trees and the journal of the run are those its tasks leave. -/
lemma runSync_state (h : ε.discovery = none) :
    ∃ y, (runSync κ ε π).2 = { stateAfter κ ε σ (tasks κ ε π) with sync := y } := by
  unfold runSync
  rw [h]
  exact ⟨_, rfl⟩

/-- What is no delete and not ignored is a transfer. -/
lemma transfer_of_mem (ht : t ∈ tasks κ ε π) (hdel : t.instr.isDelete = false) :
    t.instr = .upload ∨ t.instr = .download ∨ t.instr = .conflict := by
  have hne := (mem_tasks.mp ht).2.2
  rw [(item_of_mem ht).2.1] at hdel hne ⊢
  rcases instruction_not_delete hdel with h | h | h | h
  · exact Or.inl h
  · exact Or.inr (Or.inl h)
  · exact Or.inr (Or.inr h)
  · exact absurd h hne

/-- A file path is not the root. -/
lemma ne_nil_of_file (h : isDirPath ε σ p = false) : p ≠ [] := by
  rintro rfl
  exact (isDirPath_eq_false.mp h).1 σ.disk.root

lemma isDir_of_after {pre post : List Item} (hsplit : tasks κ ε π = pre ++ u :: post)
    (ht : t ∈ pre) (hf : t.isDir = false) : u.isDir = false := by
  cases hd : u.isDir with
  | false => rfl
  | true => rw [isDir_of_before hsplit hd t ht] at hf; cases hf

/-- A path on both sides is not below anything that is deleted. -/
lemma not_below_deleted (hu : u ∈ tasks κ ε π) (hd : σ.disk.get p ≠ none)
    (hs : σ.space.get p ≠ none) : ¬ (u.instr.isDelete = true ∧ u.path <:+ p) := by
  obtain ⟨-, hinstr, -, -⟩ := item_of_mem hu
  rintro ⟨hi, hbelow⟩
  rw [hinstr, instruction_isDelete_iff] at hi
  rcases hi with hg | hg
  · exact hs (σ.space.none_of_below hbelow hg.2.1)
  · exact hd (σ.disk.none_of_below hbelow hg.1)

/-- **The row a task leaves when it succeeds**: a delete none, a directory one without an etag,
a transfer that of the file; a conflict of directories is not handled at all. -/
lemma own_row (ht : t ∈ tasks κ ε π) (hok : (exec κ ε t s).2 = none) :
    (t.instr.isDelete = true ∧ (exec κ ε t s).1.journal t.path = none) ∨
    (t.instr.isDelete = false ∧ t.isDir = true ∧
      ∃ fid, (exec κ ε t s).1.journal t.path = some (dirRow t.path fid)) ∨
    (t.instr = .conflict ∧ t.isDir = true ∧ (exec κ ε t s).1 = s) ∨
    (t.instr.isDelete = false ∧ t.isDir = false ∧
      ∃ etag n fid, (exec κ ε t s).1.journal t.path = some (fileRow t.path etag n fid)) := by
  have hne := (present_of_mem ht).1
  cases hdel : t.instr.isDelete with
  | true =>
      refine Or.inl ⟨rfl, ?_⟩
      cases hi : t.instr with
      | deleteLocal => exact (exec_deleteLocal_ok hne hi hok).2
      | deleteRemote => exact (exec_deleteRemote_ok hne hi hok).2
      | _ => rw [hi] at hdel; cases hdel
  | false =>
      refine Or.inr ?_
      cases hdir : t.isDir with
      | true =>
          rcases transfer_of_mem ht hdel with hi | hi | hi
          · exact Or.inl ⟨rfl, rfl, _, (exec_dirUpload_ok hdir hi hok).2⟩
          · exact Or.inl ⟨rfl, rfl, _, (exec_dirDownload_ok hdir hi hok).2⟩
          · refine Or.inr (Or.inl ⟨hi, rfl, ?_⟩)
            simp only [exec, hdir, if_true, execDir, hi]
      | false =>
          refine Or.inr (Or.inr ⟨rfl, rfl, ?_⟩)
          rcases transfer_of_mem ht hdel with hi | hi | hi
          · obtain ⟨a, -, -, -, hj⟩ := exec_fileUpload_ok hdir hi hok
            exact ⟨_, _, _, hj⟩
          · obtain ⟨r, -, -, -, hj⟩ := exec_fileDownload_ok hdir hi hok
            exact ⟨_, _, _, hj⟩
          · obtain ⟨a, r, -, -, -, -, -, hj⟩ := exec_fileConflict_ok hdir hi hok
            exact ⟨_, _, _, hj⟩

/-! ## Files -/

/-- A transfer that succeeds leaves a file on both sides. -/
lemma files_own (hf : t.isDir = false)
    (hi : t.instr = .upload ∨ t.instr = .download ∨ t.instr = .conflict)
    (hok : (exec κ ε t s).2 = none) :
    ∃ a r, (exec κ ε t s).1.disk.get t.path = some (Node.file a) ∧
      (exec κ ε t s).1.space.get t.path = some (Node.file r) := by
  rcases hi with hi | hi | hi
  · obtain ⟨a, ha, hdisk, hr, -⟩ := exec_fileUpload_ok hf hi hok
    exact ⟨a, _, by rw [hdisk]; exact ha, hr⟩
  · obtain ⟨r, hr, hspace, hd, -⟩ := exec_fileDownload_ok hf hi hok
    exact ⟨_, r, hd, by rw [hspace]; exact hr⟩
  · obtain ⟨a, r, -, hr, hspace, hd, -⟩ := exec_fileConflict_ok hf hi hok
    exact ⟨_, r, hd, by rw [hspace]; exact hr⟩

lemma Honest.metadataLen {a : LocalFile} {d : Disk} (hε : Honest ε)
    (h : d.get p = some (Node.file a)) : metadataLen ε p d = a.content.len := by
  unfold OwncloudSync.metadataLen
  rw [hε.metadata p, h]

/-- **A transfer that succeeds leaves its path in sync**, whichever of the three it is. -/
lemma synced_own (hε : Honest ε) (hf : t.isDir = false)
    (hi : t.instr = .upload ∨ t.instr = .download ∨ t.instr = .conflict)
    (hok : (exec κ ε t s).2 = none) : Synced t.path (exec κ ε t s).1 := by
  -- both kinds of fetch record the same row
  have hfetch : ∀ (r : RemoteFile) (fid : Option Str),
      (exec κ ε t s).1.space.get t.path = some (Node.file r) →
      (exec κ ε t s).1.disk.get t.path = some (Node.file ⟨r.content, ε.mtime t.path⟩) →
      (exec κ ε t s).1.journal t.path = some (fileRow t.path (ε.getEtag t.path r)
        (metadataLen ε t.path (exec κ ε t s).1.disk) fid) → Synced t.path (exec κ ε t s).1 := by
    intro r fid hr hd hj
    refine ⟨_, r, hd, hr, ?_, rfl⟩
    rw [baseline_fileRow hj, hε.metadataLen hd, hε.get]
  rcases hi with hi | hi | hi
  · obtain ⟨a, ha, hdisk, hr, hj⟩ := exec_fileUpload_ok hf hi hok
    rw [hε.metadataLen ha] at hr hj
    refine ⟨a, _, by rw [hdisk]; exact ha, hr, ?_, ?_⟩
    · rw [baseline_fileRow hj, hε.put]
    · exact (Blob.take_len a.content).symm
  · obtain ⟨r, hr, hspace, hd, hj⟩ := exec_fileDownload_ok hf hi hok
    exact hfetch r _ (by rw [hspace]; exact hr) hd hj
  · obtain ⟨a, r, -, hr, hspace, hd, -, hj⟩ := exec_fileConflict_ok hf hi hok
    exact hfetch r _ (by rw [hspace]; exact hr) hd hj

section Run

variable (hσ : Tidy σ) (hfresh : FreshConflicts κ ε σ)

include hσ hfresh in
/-- A task leaves a discovered path alone that is on both sides by now. -/
lemma frame_both (hu : u ∈ tasks κ ε π) (hp : σ.Present p) (hne : p ≠ u.path)
    (hdel : ¬ (u.instr.isDelete = true ∧ u.isDir = true ∧ u.path <:+ p))
    (hd : s.disk.get p ≠ none) (hs : s.space.get p ≠ none) :
    (exec κ ε u s).1.disk.get p = s.disk.get p ∧
      (exec κ ε u s).1.space.get p = s.space.get p ∧
      (exec κ ε u s).1.journal p = s.journal p := by
  refine ⟨frame_disk hσ hfresh hu hp hne hd ?_, frame_space hu hp hne hs ?_, exec_journal hne⟩
  · rintro ⟨hi, h⟩
    exact hdel ⟨by rw [hi]; rfl, h⟩
  · rintro ⟨hi, h⟩
    exact hdel ⟨by rw [hi]; rfl, h⟩

include hσ hfresh in
/-- **What a transfer leaves is there at the end of the run.** -/
lemma end_of_transfer (hrun : FilesSucceed κ ε π) (hk : KeptFile κ ε σ p)
    (hi : instruction κ ε σ p ≠ .ignore) :
    ∃ pre post, tasks κ ε π = pre ++ itemOf κ ε σ p :: post ∧
      (exec κ ε (itemOf κ ε σ p) (stateAfter κ ε σ pre)).2 = none ∧
      (runSync κ ε π).2.disk.get p =
        (exec κ ε (itemOf κ ε σ p) (stateAfter κ ε σ pre)).1.disk.get p ∧
      (runSync κ ε π).2.space.get p =
        (exec κ ε (itemOf κ ε σ p) (stateAfter κ ε σ pre)).1.space.get p ∧
      (runSync κ ε π).2.journal p =
        (exec κ ε (itemOf κ ε σ p) (stateAfter κ ε σ pre)).1.journal p := by
  have ht : itemOf κ ε σ p ∈ tasks κ ε π := itemOf_mem_tasks hk.ne hk.present hi
  obtain ⟨pre, post, hsplit⟩ := List.append_of_mem ht
  have hok := hrun.ok pre post _ hsplit hk.file
  obtain ⟨a, r, ha, hr⟩ := files_own hk.file (transfer_of_mem ht hk.kept) hok
  rw [show (itemOf κ ε σ p).path = p from rfl] at ha hr
  refine ⟨pre, post, hsplit, hok, ?_⟩
  obtain ⟨y, hy⟩ := runSync_state (κ := κ) (π := π) hrun.discovered
  rw [hy]
  refine TaskRun.run_establish_at (s := σ.started) (Q := fun s : State =>
    s.disk.get p = (exec κ ε (itemOf κ ε σ p) (stateAfter κ ε σ pre)).1.disk.get p ∧
    s.space.get p = (exec κ ε (itemOf κ ε σ p) (stateAfter κ ε σ pre)).1.space.get p ∧
    s.journal p = (exec κ ε (itemOf κ ε σ p) (stateAfter κ ε σ pre)).1.journal p)
    hsplit ⟨rfl, rfl, rfl⟩ (fun mid rest u hpost ⟨h₁, h₂, h₃⟩ => ?_)
  have hcut : tasks κ ε π = (pre ++ itemOf κ ε σ p :: mid) ++ u :: rest := by
    rw [hsplit, hpost, List.append_assoc, List.cons_append]
  have hmem : itemOf κ ε σ p ∈ pre ++ itemOf κ ε σ p :: mid := by simp
  have hne : p ≠ u.path := path_ne_of_before hcut hmem
  have hufile : u.isDir = false := isDir_of_after hcut hmem hk.file
  obtain ⟨k₁, k₂, k₃⟩ := frame_both hσ hfresh (mem_of_split hcut) hk.present hne
    (fun hc => by rw [hufile] at hc; cases hc.2.1) (by rw [h₁, ha]; simp) (by rw [h₂, hr]; simp)
  exact ⟨k₁.trans h₁, k₂.trans h₂, k₃.trans h₃⟩

include hσ hfresh in
/-- **A file that is transferred is in sync at the end of the run.** -/
theorem synced_of_task (hε : Honest ε) (hrun : FilesSucceed κ ε π)
    (hfile : isDirPath ε σ p = false) (hp : σ.Present p)
    (hdel : (instruction κ ε σ p).isDelete = false) (hi : instruction κ ε σ p ≠ .ignore) :
    Synced p (runSync κ ε π).2 := by
  have ht : itemOf κ ε σ p ∈ tasks κ ε π := itemOf_mem_tasks (ne_nil_of_file hfile) hp hi
  obtain ⟨pre, post, -, hok, h₁, h₂, h₃⟩ :=
    end_of_transfer (π := π) hσ hfresh hrun ⟨ne_nil_of_file hfile, hp, hfile, hdel⟩ hi
  exact (synced_own hε hfile (transfer_of_mem ht hdel) hok).congr h₁ h₂ h₃

include hσ hfresh in
/-- A local file is during the run what discovery saw, as long as its own task is still to come. -/
lemma disk_file_initial {pre post : List Item} (hsplit : tasks κ ε π = pre ++ t :: post)
    {a : LocalFile} (h : (stateAfter κ ε σ pre).disk.get t.path = some (Node.file a)) :
    σ.disk.get t.path = some (Node.file a) := by
  have hp := (present_of_mem (mem_of_split hsplit)).2
  refine TaskRun.run_invariant (s := σ.started) (I := fun s : State => ∀ a,
    s.disk.get t.path = some (Node.file a) → σ.disk.get t.path = some (Node.file a))
    (fun _ ha => ha) (fun u hu s hs a ha => ?_) a h
  have hmem := mem_of_pre hsplit u hu
  obtain ⟨hune, hup⟩ := present_of_mem hmem
  obtain ⟨-, hinstr, hud, -⟩ := item_of_mem hmem
  rcases exec_disk_file ha with hd | ⟨-, hd | hd⟩ | ⟨hf, hi, hd⟩
  · exact hs a hd
  · exact absurd hd.symm (path_ne_of_before hsplit hu)
  · exact absurd (hd ▸ hp) (hσ.tmp_absent hup hune)
  · exact absurd hp (hfresh _ ⟨u.path, hud ▸ hf, hinstr ▸ hi, hd⟩).1

/-- What a transfer leaves of a file: on both sides the version that it took, and a row with the
etag of that version, and with its size as far as it could be read. -/
structure Transferred (κ : EngineConfig) (ε : Env) (σ : State) (p : Path) (s : State)
    (a : LocalFile) (r : RemoteFile) : Prop where
  here : s.disk.get p = some (Node.file a)
  there : s.space.get p = some (Node.file r)
  row : s.journal.baseline p = some (trimQuotes r.etag, recordedSize ε p a)
  sent : instruction κ ε σ p = .upload → σ.disk.get p = some (Node.file a) ∧
    r = ⟨a.content.take (recordedSize ε p a).toNat, ε.storedEtag p⟩
  got : instruction κ ε σ p ≠ .upload →
    σ.space.get p = some (Node.file r) ∧ a.content = r.content

include hσ hfresh in
/-- **A file that is transferred**, whatever could be read of its size. -/
theorem transferred (hε : HonestEtags ε) (hrun : FilesSucceed κ ε π) (hk : KeptFile κ ε σ p)
    (hi : instruction κ ε σ p ≠ .ignore) :
    ∃ a r, Transferred κ ε σ p (runSync κ ε π).2 a r := by
  have ht : itemOf κ ε σ p ∈ tasks κ ε π := itemOf_mem_tasks hk.ne hk.present hi
  obtain ⟨pre, post, hsplit, hok, h₁, h₂, h₃⟩ := end_of_transfer (π := π) hσ hfresh hrun hk hi
  -- both kinds of fetch leave what the server had
  have hfetch : ∀ (r : RemoteFile) (fid : Option Str), instruction κ ε σ p ≠ .upload →
      (itemOf κ ε σ p).fetches →
      (stateAfter κ ε σ pre).space.get p = some (Node.file r) →
      (exec κ ε (itemOf κ ε σ p) (stateAfter κ ε σ pre)).1.space =
        (stateAfter κ ε σ pre).space →
      (exec κ ε (itemOf κ ε σ p) (stateAfter κ ε σ pre)).1.disk.get p =
        some (Node.file ⟨r.content, ε.mtime p⟩) →
      (exec κ ε (itemOf κ ε σ p) (stateAfter κ ε σ pre)).1.journal p =
        some (fileRow p (ε.getEtag p r) (metadataLen ε p
          (exec κ ε (itemOf κ ε σ p) (stateAfter κ ε σ pre)).1.disk) fid) →
      ∃ a r, Transferred κ ε σ p (runSync κ ε π).2 a r := by
    intro r fid hup hf hr hspace hd hj
    refine ⟨⟨r.content, ε.mtime p⟩, r, h₁.trans hd, h₂.trans (by rw [hspace, hr]), ?_,
      fun hc => absurd hc hup, fun _ => ⟨(fetched_initially hsplit hf hr).2, rfl⟩⟩
    rw [baseline_congr h₃, baseline_fileRow hj, metadataLen_file hd, hε.get]
  rcases transfer_of_mem ht hk.kept with hup | hdown | hconf
  · obtain ⟨a, ha, hdisk, hr, hj⟩ := exec_fileUpload_ok hk.file hup hok
    rw [show (itemOf κ ε σ p).path = p from rfl] at ha hr hj
    rw [metadataLen_file ha] at hr hj
    refine ⟨a, _, h₁.trans (by rw [hdisk]; exact ha), h₂.trans hr, ?_,
      fun _ => ⟨disk_file_initial hσ hfresh hsplit ha, rfl⟩, fun hc => absurd hup hc⟩
    rw [baseline_congr h₃, baseline_fileRow hj, hε.put]
  · obtain ⟨r, hr, hspace, hd, hj⟩ := exec_fileDownload_ok hk.file hdown hok
    have hi : instruction κ ε σ p = .download := hdown
    exact hfetch r _ (by rw [hi]; simp) ⟨hk.file, Or.inl hdown⟩ hr hspace hd hj
  · obtain ⟨a, r, -, hr, hspace, hd, -, hj⟩ := exec_fileConflict_ok hk.file hconf hok
    have hi : instruction κ ε σ p = .conflict := hconf
    exact hfetch r _ (by rw [hi]; simp) ⟨hk.file, Or.inr hconf⟩ hr hspace hd hj

include hσ hfresh in
/-- A path that is ignored is as it was at the end of the run. -/
lemma kept_of_ignored (hd : ε.discovery = none) (hp : σ.Present p)
    (hi : instruction κ ε σ p = .ignore) :
    (runSync κ ε π).2.disk.get p = σ.disk.get p ∧
      (runSync κ ε π).2.space.get p = σ.space.get p ∧
      (runSync κ ε π).2.journal p = σ.journal p := by
  have hpres : localEntry σ p ≠ none ∨ remoteEntry ε σ p ≠ none := by
    simpa [State.Present] using hp
  obtain ⟨l, r, hl, hr, -⟩ := (reconcile_ignore_iff hpres).mp hi
  have hdisk : σ.disk.get p ≠ none := by rw [Ne, ← localEntry_eq_none, hl]; simp
  have hspace : σ.space.get p ≠ none := by rw [Ne, ← remoteEntry_eq_none (ε := ε), hr]; simp
  obtain ⟨y, hy⟩ := runSync_state (κ := κ) (π := π) hd
  rw [hy]
  refine TaskRun.run_invariant (s := σ.started) (I := fun s : State =>
    s.disk.get p = σ.disk.get p ∧ s.space.get p = σ.space.get p ∧ s.journal p = σ.journal p)
    ⟨rfl, rfl, rfl⟩ (fun u hu s ⟨h₁, h₂, h₃⟩ => ?_)
  have hne : p ≠ u.path := by
    rintro rfl
    exact (mem_tasks.mp hu).2.2 ((item_of_mem hu).2.1.trans hi)
  obtain ⟨k₁, k₂, k₃⟩ := frame_both hσ hfresh hu hp hne
    (fun hc => not_below_deleted hu hdisk hspace ⟨hc.1, hc.2.2⟩)
    (by rw [h₁]; exact hdisk) (by rw [h₂]; exact hspace)
  exact ⟨k₁.trans h₁, k₂.trans h₂, k₃.trans h₃⟩

include hσ hfresh in
/-- A file that is ignored stays settled. -/
lemma settled_of_ignored (hd : ε.discovery = none) (hk : KeptFile κ ε σ p)
    (hi : instruction κ ε σ p = .ignore) : Settled p (runSync κ ε π).2 := by
  obtain ⟨h₁, h₂, h₃⟩ := kept_of_ignored (π := π) hσ hfresh hd hk.present hi
  have hpres : localEntry σ p ≠ none ∨ remoteEntry ε σ p ≠ none := by
    simpa [State.Present] using hk.present
  obtain ⟨l, e, hl, he, -⟩ := (reconcile_ignore_iff hpres).mp hi
  obtain ⟨a, ha⟩ := exists_localFile hk.file (by rw [Ne, ← localEntry_eq_none, hl]; simp)
  cases hs : σ.space.get p with
  | none => rw [remoteEntry_eq_none.mpr hs] at he; cases he
  | some x =>
      cases x with
      | dir => exact absurd hs (hσ.fileLocal p a ha)
      | file r =>
          refine ⟨a, r, h₁.trans ha, h₂.trans hs, ?_⟩
          rw [baseline_congr h₃]
          exact (instruction_ignore_files ha hs).mp hi

include hσ hfresh in
/-- **A file path that is not deleted ends as two files.** -/
theorem files_of_kept (hrun : FilesSucceed κ ε π) (hk : KeptFile κ ε σ p) :
    BothFiles p (runSync κ ε π).2 := by
  by_cases hi : instruction κ ε σ p = .ignore
  · obtain ⟨a, r, ha, hr, -⟩ :=
      settled_of_ignored (π := π) hσ hfresh hrun.discovered hk hi
    exact ⟨a, r, ha, hr⟩
  · have ht : itemOf κ ε σ p ∈ tasks κ ε π := itemOf_mem_tasks hk.ne hk.present hi
    obtain ⟨pre, post, -, hok, h₁, h₂, -⟩ := end_of_transfer (π := π) hσ hfresh hrun hk hi
    obtain ⟨a, r, ha, hr⟩ := files_own hk.file (transfer_of_mem ht hk.kept) hok
    exact ⟨a, r, h₁.trans ha, h₂.trans hr⟩

/-! ## Deleted files, and paths that are nowhere -/

/-- Nothing appears on disk where the server has something to delete. -/
lemma exec_deleteRemote_disk (hi : u.instr = .deleteRemote) (hs : s.disk.get p = none) :
    (exec κ ε u s).1.disk.get p = none := by
  rcases exec_disk_none (κ := κ) (ε := ε) (t := u) hs with h | h
  · exact h
  · rcases h with ⟨h, -⟩ | ⟨⟨-, h | h⟩, -⟩ | ⟨⟨-, h | h⟩, -⟩ | ⟨-, h, -⟩
    all_goals rw [hi] at h; cases h

include hσ hfresh in
/-- **A file path that is deleted is on neither side at the end of the run.** -/
theorem absent_of_deleted (hrun : FilesSucceed κ ε π) (hfile : isDirPath ε σ p = false)
    (hdel : (instruction κ ε σ p).isDelete = true) : Absent p (runSync κ ε π).2 := by
  have hp : σ.Present p := by
    rcases instruction_isDelete_iff.mp hdel with hg | hg
    · exact Or.inl hg.1
    · exact Or.inr hg.2.1
  have hne := ne_nil_of_file hfile
  have ht : itemOf κ ε σ p ∈ tasks κ ε π :=
    itemOf_mem_tasks hne hp (fun hc => by rw [hc] at hdel; cases hdel)
  have hcopy : ¬ ConflictCopy κ ε σ p := fun hc => (hfresh p hc).1 hp
  have hdisk := (isDirPath_eq_false.mp hfile).1
  obtain ⟨y, hy⟩ := runSync_state (κ := κ) (π := π) hrun.discovered
  rw [hy]
  have hown : ∀ u ∈ tasks κ ε π, u.path = p → u = itemOf κ ε σ p :=
    fun u hu hup => eq_of_path ht hu hup
  rcases instruction_isDelete_iff.mp hdel with hg | hg
  · have hi : (itemOf κ ε σ p).instr = .deleteLocal := instruction_deleteLocal_iff.mpr hg
    constructor
    · refine TaskRun.run_establish (Q := fun s : State => s.disk.get p = none) ht
        (fun pre post hsplit => ?_) (fun pre post u hsplit htpre hQ => ?_)
      · exact (exec_deleteLocal_ok hne hi (hrun.ok pre post _ hsplit hfile)).1
      · exact frame_disk_none hσ (mem_of_split hsplit) (path_ne_of_before hsplit htpre)
          (by rw [hg.2.1]; simp) hcopy (hrun.ok pre post u hsplit) hQ
    · refine TaskRun.run_invariant (s := σ.started) (I := fun s : State => s.space.get p = none)
        hg.2.1 (fun u hu s hs => frame_space_none hu (fun hup hpu => ?_) hdisk hs)
      rw [hown u hu hpu.symm, hi] at hup
      cases hup
  · have hi : (itemOf κ ε σ p).instr = .deleteRemote := instruction_deleteRemote_iff.mpr hg
    have hspace := (isDirPath_eq_false.mp hfile).2 hg.1
    constructor
    · refine TaskRun.run_invariant_at (s := σ.started)
        (I := fun s : State => s.disk.get p = none) hg.1 (fun pre post u hsplit hs => ?_)
      by_cases hpu : p = u.path
      · refine exec_deleteRemote_disk ?_ hs
        rw [hown u (mem_of_split hsplit) hpu.symm]
        exact hi
      · exact frame_disk_none hσ (mem_of_split hsplit) hpu hspace hcopy
          (hrun.ok pre post u hsplit) hs
    · refine TaskRun.run_establish (Q := fun s : State => s.space.get p = none) ht
        (fun pre post hsplit => ?_) (fun pre post u hsplit htpre hQ => ?_)
      · exact (exec_deleteRemote_ok hne hi (hrun.ok pre post _ hsplit hfile)).1
      · exact frame_space_none (mem_of_split hsplit)
          (fun _ => path_ne_of_before hsplit htpre) hdisk hQ

include hσ in
/-- A path that is nowhere and is no conflict copy stays so. -/
theorem absent_of_absent (hrun : FilesSucceed κ ε π) (hp : ¬ σ.Present p)
    (hcopy : ¬ ConflictCopy κ ε σ p) : Absent p (runSync κ ε π).2 := by
  have hd := disk_of_gone hp
  have hs := space_of_gone hp
  have hne : ∀ u ∈ tasks κ ε π, p ≠ u.path := fun u hu => ne_path_of_gone hp hu
  obtain ⟨y, hy⟩ := runSync_state (κ := κ) (π := π) hrun.discovered
  rw [hy]
  constructor
  · refine TaskRun.run_invariant_at (s := σ.started) (I := fun s : State => s.disk.get p = none)
      hd (fun pre post u hsplit h => ?_)
    have hu := mem_of_split hsplit
    exact frame_disk_none hσ hu (hne u hu) (by rw [hs]; simp) hcopy (hrun.ok pre post u hsplit) h
  · refine TaskRun.run_invariant (s := σ.started) (I := fun s : State => s.space.get p = none)
      hs (fun u hu s h => ?_)
    exact frame_space_none hu (fun _ => hne u hu) (by rw [hd]; simp) h

/-! ## Conflict copies -/

include hσ in
/-- Two conflicts of a tidy state never set their files aside under one name. -/
lemma conflictPath_inj (hp : σ.Present p) (hpne : p ≠ []) (hq : σ.Present q) (hqne : q ≠ [])
    {ts ts' : ℕ} (h : conflictPath p ts = conflictPath q ts') : p = q := by
  cases p with
  | nil => exact absurd rfl hpne
  | cons n x =>
      cases q with
      | nil => exact absurd rfl hqne
      | cons m y =>
          obtain ⟨hname, htail⟩ := List.cons.inj h
          have hn := (isFileName_iff.mp (hσ.names n x hp).1).2
          have hm := (isFileName_iff.mp (hσ.names m y hq).1).2
          rw [(conflictName_inj hn hm hname).1, htail]

include hσ in
/-- A conflict copy is no temp path. -/
lemma ConflictCopy.ne_tmp (hc : ConflictCopy κ ε σ p) (hq : σ.Present q) (hqne : q ≠ []) :
    p ≠ tmpPath q := by
  cases q with
  | nil => exact absurd rfl hqne
  | cons m y =>
      rintro rfl
      exact (hc.names hσ).2 (extension_tmpName (hσ.names m y hq).1)

include hσ hfresh in
/-- **The copy of a conflict is the old local file, on the disk alone and without a row.** -/
theorem copy_of_conflict {a : LocalFile} (hrun : FilesSucceed κ ε π)
    (hfile : isDirPath ε σ q = false) (hi : instruction κ ε σ q = .conflict)
    (ha : σ.disk.get q = some (Node.file a)) (hc : p = conflictPath q (ε.clock q)) :
    (runSync κ ε π).2.disk.get p = some (Node.file a) ∧
      (runSync κ ε π).2.space.get p = none ∧ (runSync κ ε π).2.journal p = none := by
  have hcopy : ConflictCopy κ ε σ p := ⟨q, hfile, hi, hc⟩
  obtain ⟨hp, hj⟩ := hfresh p hcopy
  have hd := disk_of_gone hp
  have hs := space_of_gone hp
  have hqne := ne_nil_of_file hfile
  have hqp : σ.Present q := Or.inl (by rw [ha]; simp)
  have hboth := instruction_conflict hi
  have ht : itemOf κ ε σ q ∈ tasks κ ε π := itemOf_mem_tasks hqne hqp (by rw [hi]; simp)
  have hne : ∀ u ∈ tasks κ ε π, p ≠ u.path := fun u hu => ne_path_of_gone hp hu
  obtain ⟨y, hy⟩ := runSync_state (κ := κ) (π := π) hrun.discovered
  rw [hy]
  refine ⟨?_, ?_, ?_⟩
  · refine TaskRun.run_establish (Q := fun s : State => s.disk.get p = some (Node.file a)) ht
      (fun pre post hsplit => ?_) (fun pre post u hsplit htpre hQ => ?_)
    · -- the file is still the one discovery saw when its own task sets it aside
      have hkept : (stateAfter κ ε σ pre).disk.get q = some (Node.file a) := by
        refine TaskRun.run_invariant (s := σ.started)
          (I := fun s : State => s.disk.get q = some (Node.file a)) ha (fun u hu s hs => ?_)
        refine (frame_disk hσ hfresh (mem_of_pre hsplit u hu) hqp
          (path_ne_of_before hsplit hu).symm (by rw [hs]; simp) (fun h => ?_)).trans hs
        exact not_below_deleted (mem_of_pre hsplit u hu) hboth.1 hboth.2
          ⟨by rw [h.1]; rfl, h.2.2⟩
      obtain ⟨b, r, hb, -, -, -, hset, -⟩ :=
        exec_fileConflict_ok hfile hi (hrun.ok pre post _ hsplit hfile)
      have hba : b = a := by
        have h := hb.symm.trans hkept
        simpa using h
      rw [hba] at hset
      subst hc
      exact hset (hne _ ht) (hcopy.ne_tmp hσ hqp hqne)
    · have hu := mem_of_split hsplit
      obtain ⟨hune, hup⟩ := present_of_mem hu
      have hud := isDir_of_after hsplit htpre hfile
      have hdisk : (stateAfter κ ε σ pre).disk.get p ≠ none := by
        rw [show (stateAfter κ ε σ pre).disk.get p = _ from hQ]; simp
      refine (exec_disk_keep hdisk ?_).trans hQ
      rintro (⟨-, -, hown⟩ | ⟨-, h | h⟩ | ⟨-, -, h⟩)
      · exact hne u hu (hown hud)
      · exact hne u hu h
      · exact hcopy.ne_tmp hσ hup hune h
      · have hpath := conflictPath_inj hσ hqp hqne hup hune (hc.symm.trans h)
        exact path_ne_of_before hsplit htpre hpath
  · refine TaskRun.run_invariant (s := σ.started) (I := fun s : State => s.space.get p = none)
      hs (fun u hu s h => frame_space_none hu (fun _ => hne u hu) (by rw [hd]; simp) h)
  · refine TaskRun.run_invariant (s := σ.started) (I := fun s : State => s.journal p = none)
      hj (fun u hu s h => (exec_journal (hne u hu)).trans h)

/-! ## Directories -/

include hσ hfresh in
/-- **A path handled as a directory is no file at the end of the run.** -/
theorem no_file_of_dir (hd : ε.discovery = none) (hdir : isDirPath ε σ p = true) :
    (∀ a, (runSync κ ε π).2.disk.get p ≠ some (Node.file a)) ∧
      ∀ r, (runSync κ ε π).2.space.get p ≠ some (Node.file r) := by
  have hp : σ.Present p := by
    rcases isDirPath_iff.mp hdir with h | ⟨-, h⟩
    · exact Or.inl (by rw [h]; simp)
    · exact Or.inr (by rw [h]; simp)
  have h₀ : (∀ a, σ.disk.get p ≠ some (Node.file a)) ∧
      ∀ r, σ.space.get p ≠ some (Node.file r) := by
    rcases isDirPath_iff.mp hdir with h | ⟨hn, h⟩
    · exact ⟨by simp [h], fun r hr => hσ.fileRemote p r hr h⟩
    · exact ⟨by simp [hn], by simp [h]⟩
  obtain ⟨y, hy⟩ := runSync_state (κ := κ) (π := π) hd
  rw [hy]
  refine TaskRun.run_invariant (s := σ.started) (I := fun s : State =>
    (∀ a, s.disk.get p ≠ some (Node.file a)) ∧ ∀ r, s.space.get p ≠ some (Node.file r)) h₀
    (fun u hu s ⟨hs₁, hs₂⟩ => ⟨fun a ha => ?_, fun r hr => ?_⟩)
  · obtain ⟨hune, hup⟩ := present_of_mem hu
    obtain ⟨-, hinstr, hud, -⟩ := item_of_mem hu
    rcases exec_disk_file ha with h | ⟨hf, h | h⟩ | ⟨hf, hi, h⟩
    · exact hs₁ a h
    · rw [← h, hdir] at hud
      exact absurd (hud.symm.trans hf.1) (by simp)
    · exact hσ.tmp_absent hup hune (h ▸ hp)
    · exact (hfresh p ⟨u.path, hud ▸ hf, hinstr ▸ hi, h⟩).1 hp
  · have hup : ¬ (u.instr = .upload ∧ u.isDir = false ∧ p = u.path) := by
      rintro ⟨-, hf, rfl⟩
      rw [(item_of_mem hu).2.2.1, hdir] at hf
      cases hf
    rcases exec_space_cases (κ := κ) (ε := ε) (σ := s) hup with h | h | ⟨-, h⟩
    · exact hs₂ r (h.symm.trans hr)
    · rw [h] at hr; cases hr
    · rw [h] at hr; cases hr

/-! ## Paths below nothing that is deleted -/

/-- No task of the run deletes the path or a directory above it. -/
def Undeleted (κ : EngineConfig) (ε : Env) {σ : State} (π : Schedule σ) (p : Path) : Prop :=
  ∀ u ∈ tasks κ ε π, ¬ (u.instr.isDelete = true ∧ u.path <:+ p)

lemma undeleted_of_both (hd : σ.disk.get p ≠ none) (hs : σ.space.get p ≠ none) :
    Undeleted κ ε π p := fun _ hu => not_below_deleted hu hd hs

/-- It is enough that the path's directory is on both sides, and the path not deleted itself. -/
lemma undeleted_of_parent (hdel : (instruction κ ε σ p).isDelete = false)
    (hd : σ.disk.get p.tail = some Node.dir) (hs : σ.space.get p.tail = some Node.dir) :
    Undeleted κ ε π p := by
  rintro u hu ⟨hi, hbelow⟩
  obtain ⟨hune, hinstr, -, -⟩ := item_of_mem hu
  have hp : p ≠ [] := by
    rintro rfl
    exact hune (List.suffix_nil.mp hbelow)
  rcases List.suffix_cons_iff.mp (List.cons_head_tail hp ▸ hbelow) with h | h
  · rw [hinstr, h, List.cons_head_tail hp, hdel] at hi
    cases hi
  · exact not_below_deleted hu (by rw [hd]; simp) (by rw [hs]; simp) ⟨hi, h⟩

/-- An upload leaves the disk alone. -/
lemma exec_upload_disk (hi : u.instr = .upload) : (exec κ ε u s).1.disk = s.disk := by
  unfold exec execDir execFile
  simp only [hi]
  split
  · split <;> rfl
  · split <;> rfl

include hσ hfresh in
/-- What is uploaded is the file that discovery saw, and it stays where it is. -/
lemma disk_of_upload (hd : ε.discovery = none) (hfree : Undeleted κ ε π p)
    (hi : instruction κ ε σ p = .upload) :
    (runSync κ ε π).2.disk.get p = σ.disk.get p := by
  have hp := instruction_upload hi
  rw [(runSync_discovery hd).1]
  refine TaskRun.run_invariant (s := σ.started)
    (I := fun s : State => s.disk.get p = σ.disk.get p) rfl (fun u hu s hs => ?_)
  by_cases hpu : p = u.path
  · rw [exec_upload_disk ((item_of_mem hu).2.1.trans (hpu ▸ hi))]
    exact hs
  · refine (frame_disk hσ hfresh hu (Or.inl hp) hpu (by rw [hs]; exact hp) ?_).trans hs
    rintro ⟨hdel, -, hbelow⟩
    exact hfree u hu ⟨by rw [hdel]; rfl, hbelow⟩

/-- What is not uploaded stays on the server as it is. -/
lemma space_of_fetch (hd : ε.discovery = none) (hfree : Undeleted κ ε π p)
    (hp : σ.space.get p ≠ none) (hi : isDirPath ε σ p = false → instruction κ ε σ p ≠ .upload) :
    (runSync κ ε π).2.space.get p = σ.space.get p := by
  rw [(runSync_discovery hd).2.1]
  refine TaskRun.run_invariant (s := σ.started)
    (I := fun s : State => s.space.get p = σ.space.get p) rfl (fun u hu s hs => ?_)
  refine (exec_space_keep (by rw [hs]; exact hp) ?_ ?_).trans hs
  · rintro ⟨hdel, hbelow⟩
    exact hfree u hu ⟨by rw [hdel]; rfl, hbelow⟩
  · rintro ⟨hup, hf, rfl⟩
    obtain ⟨-, hinstr, hdir, -⟩ := item_of_mem hu
    exact hi (hdir.symm.trans hf) (hinstr.symm.trans hup)

/-- A path of one side that is not deleted has no baseline. -/
lemma baseline_of_undeleted (hne : p ≠ []) (hp : σ.Present p) (hfree : Undeleted κ ε π p)
    (hnone : σ.disk.get p = none ∨ σ.space.get p = none) : σ.journal.baseline p = none := by
  by_contra hb
  cases hdel : (instruction κ ε σ p).isDelete with
  | true =>
      have ht : itemOf κ ε σ p ∈ tasks κ ε π :=
        itemOf_mem_tasks hne hp (fun hc => by rw [hc] at hdel; cases hdel)
      exact hfree _ ht ⟨hdel, List.suffix_refl p⟩
  | false =>
      obtain ⟨hd, hs⟩ := both_of_not_delete hp hdel hb
      rcases hnone with h | h
      · exact hd h
      · exact hs h

/-- A directory that is not deleted is on the disk at the end of the run. -/
lemma disk_dir_of_dir (hne : p ≠ []) (hrun : ErrorFree κ ε π) (hdir : isDirPath ε σ p = true)
    (hfree : Undeleted κ ε π p) : (runSync κ ε π).2.disk.get p = some Node.dir := by
  obtain ⟨hdisc, -⟩ := errorFree_iff.mp hrun
  have hkeep : ∀ u ∈ tasks κ ε π, ∀ s : State, s.disk.get p = some Node.dir →
      (exec κ ε u s).1.disk.get p = some Node.dir := by
    intro u hu s hs
    refine exec_disk_dir hs ?_
    rintro ⟨hi, hbelow⟩
    exact hfree u hu ⟨by rw [hi]; rfl, hbelow⟩
  rw [(runSync_discovery hdisc).1]
  rcases isDirPath_iff.mp hdir with hd | ⟨hd, hs⟩
  · exact TaskRun.run_invariant (s := σ.started)
      (I := fun s : State => s.disk.get p = some Node.dir) hd hkeep
  · have hp : σ.Present p := Or.inr (by rw [hs]; simp)
    have hi : instruction κ ε σ p = .download := instruction_newRemote hd (by rw [hs]; simp)
      (baseline_of_undeleted hne hp hfree (Or.inl hd))
    refine TaskRun.run_establish (t := itemOf κ ε σ p)
      (Q := fun s : State => s.disk.get p = some Node.dir)
      (itemOf_mem_tasks hne hp (by rw [hi]; simp)) (fun pre post hsplit => ?_)
      (fun pre post u hsplit _ h => hkeep u (mem_of_split hsplit) _ h)
    exact (exec_dirDownload_ok hdir hi (hrun.ok_at hsplit)).1

/-- It is also on the server. -/
lemma space_of_dir (hne : p ≠ []) (hrun : ErrorFree κ ε π) (hdir : isDirPath ε σ p = true)
    (hfree : Undeleted κ ε π p) : (runSync κ ε π).2.space.get p ≠ none := by
  obtain ⟨hdisc, -⟩ := errorFree_iff.mp hrun
  have hkeep : ∀ u ∈ tasks κ ε π, ∀ s : State, s.space.get p ≠ none →
      (exec κ ε u s).1.space.get p ≠ none := by
    intro u hu s hs hn
    obtain ⟨hi, hbelow⟩ := exec_space_removed hs hn
    exact hfree u hu ⟨by rw [hi]; rfl, hbelow⟩
  rw [(runSync_discovery hdisc).2.1]
  by_cases hs : σ.space.get p = none
  · have hd : σ.disk.get p ≠ none := by
      rcases isDirPath_iff.mp hdir with h | ⟨-, h⟩
      · rw [h]; simp
      · rw [hs] at h; cases h
    have hi : instruction κ ε σ p = .upload :=
      instruction_newLocal hd hs (baseline_of_undeleted hne (Or.inl hd) hfree (Or.inr hs))
    refine TaskRun.run_establish (t := itemOf κ ε σ p)
      (Q := fun s : State => s.space.get p ≠ none)
      (itemOf_mem_tasks hne (Or.inl hd) (by rw [hi]; simp)) (fun pre post hsplit => ?_)
      (fun pre post u hsplit _ h => hkeep u (mem_of_split hsplit) _ h)
    exact (exec_dirUpload_ok hdir hi (hrun.ok_at hsplit)).1
  · exact TaskRun.run_invariant (s := σ.started)
      (I := fun s : State => s.space.get p ≠ none) hs hkeep

include hσ hfresh in
lemma space_dir_of_dir (hne : p ≠ []) (hrun : ErrorFree κ ε π) (hdir : isDirPath ε σ p = true)
    (hfree : Undeleted κ ε π p) : (runSync κ ε π).2.space.get p = some Node.dir := by
  have hdisc := (errorFree_iff.mp hrun).1
  have hnofile := (no_file_of_dir (κ := κ) (π := π) hσ hfresh hdisc hdir).2
  cases hx : (runSync κ ε π).2.space.get p with
  | none => exact absurd hx (space_of_dir hne hrun hdir hfree)
  | some x =>
      cases x with
      | dir => rfl
      | file r => exact absurd hx (hnofile r)

/-- A local directory that is made on the server is not below one that is deleted locally: the
MKCOL would have been refused. -/
lemma upload_not_below_deleted (hrun : ErrorFree κ ε π) (hne : p ≠ [])
    (hdir : isDirPath ε σ p = true) (hi : instruction κ ε σ p = .upload)
    (hu : u ∈ tasks κ ε π) (hg : σ.GoneRemotely u.path) (hbelow : u.path <:+ p) : False := by
  have hp : σ.Present p := Or.inl (instruction_upload hi)
  have ht : itemOf κ ε σ p ∈ tasks κ ε π := itemOf_mem_tasks hne hp (by rw [hi]; simp)
  obtain ⟨pre, post, hsplit⟩ := List.append_of_mem ht
  have hui : u.instr = .deleteLocal :=
    (item_of_mem hu).2.1.trans (instruction_deleteLocal_iff.mpr hg)
  -- the directory phase makes no collection but those it is told to
  have hstep : ∀ v ∈ tasks κ ε π, v.isDir = true → ∀ s : State,
      s.space.get u.path = none → (exec κ ε v s).1.space.get u.path = none := by
    intro v hv hvd s hs
    rcases exec_space_none (κ := κ) (ε := ε) (t := v) hs with h | ⟨hvi, h⟩
    · exact h
    · rcases h with ⟨-, h, -⟩ | ⟨hf, -⟩ | ⟨hf, -⟩
      · rw [eq_of_path hu hv h.symm, hui] at hvi
        cases hvi
      · rw [hvd] at hf; cases hf
      · rw [hvd] at hf; cases hf
  have hpre : (stateAfter κ ε σ pre).space.get u.path = none :=
    TaskRun.run_invariant (s := σ.started) (I := fun s : State => s.space.get u.path = none)
      hg.2.1 (fun v hv s hs => hstep v (mem_of_pre hsplit v hv)
        (isDir_of_before hsplit hdir v hv) s hs)
  have hafter := hstep _ ht hdir _ hpre
  have hok := hrun.ok_at hsplit
  exact (exec_dirUpload_ok hdir hi hok).1 (Tree.none_of_below _ hbelow hafter)

/-! ## The state after the run -/

include hσ hfresh in
/-- The files after the run: kept, or the copy of a conflict. -/
theorem file_after (hrun : FilesSucceed κ ε π)
    (h : (∃ a, (runSync κ ε π).2.disk.get p = some (Node.file a)) ∨
      ∃ r, (runSync κ ε π).2.space.get p = some (Node.file r)) :
    KeptFile κ ε σ p ∨ ConflictCopy κ ε σ p := by
  have hthere : ¬ Absent p (runSync κ ε π).2 := by
    rintro ⟨hd, hs⟩
    rcases h with ⟨a, ha⟩ | ⟨r, hr⟩
    · rw [hd] at ha; cases ha
    · rw [hs] at hr; cases hr
  by_cases hcopy : ConflictCopy κ ε σ p
  · exact Or.inr hcopy
  by_cases hp : σ.Present p
  · cases hdir : isDirPath ε σ p with
    | true =>
        obtain ⟨hd, hs⟩ := no_file_of_dir (κ := κ) (π := π) hσ hfresh hrun.discovered hdir
        rcases h with ⟨a, ha⟩ | ⟨r, hr⟩
        · exact absurd ha (hd a)
        · exact absurd hr (hs r)
    | false =>
        cases hdel : (instruction κ ε σ p).isDelete with
        | true => exact absurd (absent_of_deleted hσ hfresh hrun hdir hdel) hthere
        | false => exact Or.inl ⟨ne_nil_of_file hdir, hp, hdir, hdel⟩
  · exact absurd (absent_of_absent hσ hrun hp hcopy) hthere

include hσ hfresh in
/-- The copy of a conflict after the run. -/
lemma copy_after (hrun : FilesSucceed κ ε π) (hc : ConflictCopy κ ε σ p) :
    (∃ a, (runSync κ ε π).2.disk.get p = some (Node.file a)) ∧
      (runSync κ ε π).2.space.get p = none ∧ (runSync κ ε π).2.journal p = none := by
  obtain ⟨q, hq, hi, hc⟩ := hc
  obtain ⟨a, ha⟩ := exists_localFile hq (instruction_conflict hi).1
  obtain ⟨hd, hs, hj⟩ := copy_of_conflict (π := π) hσ hfresh hrun hq hi ha hc
  exact ⟨⟨a, hd⟩, hs, hj⟩

include hσ in
/-- A path after the run was there before, or is the copy of a conflict. -/
lemma present_before (hrun : FilesSucceed κ ε π) (hp : (runSync κ ε π).2.Present p) :
    σ.Present p ∨ ConflictCopy κ ε σ p := by
  by_contra h
  rw [not_or] at h
  obtain ⟨hd, hs⟩ := absent_of_absent (π := π) hσ hrun h.1 h.2
  rcases hp with hp | hp
  · exact hp hd
  · exact hp hs

include hσ hfresh in
/-- **A run from a tidy state leaves a tidy state.** -/
theorem Tidy.run (hrun : FilesSucceed κ ε π) : Tidy (runSync κ ε π).2 where
  fileLocal p a ha := by
    rcases file_after hσ hfresh hrun (Or.inl ⟨a, ha⟩) with hk | hc
    · obtain ⟨_, r, -, hr⟩ := files_of_kept (π := π) hσ hfresh hrun hk
      rw [hr]; simp
    · rw [(copy_after (π := π) hσ hfresh hrun hc).2.1]; simp
  fileRemote p r hr := by
    rcases file_after hσ hfresh hrun (Or.inr ⟨r, hr⟩) with hk | hc
    · obtain ⟨a, _, ha, -⟩ := files_of_kept (π := π) hσ hfresh hrun hk
      rw [ha]; simp
    · obtain ⟨a, ha⟩ := (copy_after (π := π) hσ hfresh hrun hc).1
      rw [ha]; simp
  names n p hp := by
    rcases present_before (π := π) hσ hrun hp with h | h
    · exact hσ.names n p h
    · exact h.names hσ

end Run

end OwncloudSync
