import OwncloudSync.Engine.DirectoryPhase
import OwncloudSync.Engine.Statuses
import Mathlib.Tactic.Common

/-!
# Files against directories

A path may be a file on one side and a directory on the other.  `run_sync` takes the type of a
path from the local side, `reconcile` does not look at types, and for MKCOL the answer 405
counts as success; so a directory that is a file on the server is "uploaded", or "downloaded",
and shown as in sync.

* `clash_initial` — a run without errors makes no such path: where the sides disagree at its end,
  they did at its start.
* `typesAgree_iff` — a run without errors leaves no path shown as in sync whose sides disagree,
  exactly when it meets no such path that it would transfer, and none that is shown so already,
  **unless its local file stands in the way of a temp file** and is lost.
-/

namespace OwncloudSync

open PathTree

/-- The path is a file on one side and a directory on the other. -/
def State.Clash (σ : State) (p : Path) : Prop :=
  (σ.disk.get p = some Node.dir ∧ ∃ r, σ.space.get p = some (Node.file r)) ∨
  (∃ a, σ.disk.get p = some (Node.file a)) ∧ σ.space.get p = some Node.dir

/-- A path that is shown as in sync has one type. -/
def TypesAgree (s : State) : Prop :=
  ∀ p, s.sync.fileStatuses p = some .ok → ¬ s.Clash p

/-- The last task that writes to the local path is a download that uses it as its temp file. -/
def TempTaken (κ : EngineConfig) (ε : Env) {σ : State} (π : Schedule σ) (p : Path) : Prop :=
  ∃ pre t post, tasks κ ε π = pre ++ t :: post ∧ t.fetches ∧ tmpPath t.path = p ∧ t.path ≠ p ∧
    ∀ u ∈ post, u.isDir = false → u.instr = .conflict →
      conflictPath u.path (ε.clock u.path) ≠ p

/-- Paths with two types are neither transferred nor shown as in sync. -/
def ClashesLeftAlone (κ : EngineConfig) (ε : Env) {σ : State} (π : Schedule σ) : Prop :=
  ∀ p, σ.Clash p → instruction κ ε σ p ≠ .upload ∧ instruction κ ε σ p ≠ .download ∧
    (σ.sync.fileStatuses p = some .ok → TempTaken κ ε π p)

variable {κ : EngineConfig} {ε : Env} {σ : State} {π : Schedule σ} {p q : Path}
  {pre : List Item}

/-! ## Where types come from -/

/-- A collection was one at the start, or a directory on the disk. -/
lemma space_dir_origin (hpre : ∀ u ∈ pre, u ∈ tasks κ ε π)
    (h : (stateAfter κ ε σ pre).space.get q = some Node.dir) :
    σ.space.get q = some Node.dir ∨ σ.disk.get q = some Node.dir := by
  by_contra hno
  rw [not_or] at hno
  refine TaskRun.run_invariant (s := σ.started)
    (I := fun s : State => s.space.get q ≠ some Node.dir) hno.1 (fun u hu s hs => ?_) h
  exact exec_space_noDir (hpre u hu) hno.2 hs

/-- A file on the server was one at the start, there or on the disk. -/
lemma space_file_origin (hpre : ∀ u ∈ pre, u ∈ tasks κ ε π) {r : RemoteFile}
    (h : (stateAfter κ ε σ pre).space.get q = some (Node.file r)) :
    (∃ r, σ.space.get q = some (Node.file r)) ∨ ∃ a, σ.disk.get q = some (Node.file a) := by
  by_cases hup : instruction κ ε σ q = .upload ∧ isDirPath ε σ q = false
  · exact Or.inr (exists_localFile hup.2 (instruction_upload hup.1))
  · refine Or.inl (TaskRun.run_invariant (s := σ.started) (I := fun s : State => ∀ r,
      s.space.get q = some (Node.file r) → ∃ r, σ.space.get q = some (Node.file r))
      (fun r hr => ⟨r, hr⟩) (fun u hu s hs r hr => ?_) r h)
    have hnot : ¬ (u.instr = .upload ∧ u.isDir = false ∧ q = u.path) := by
      rintro ⟨hi, hd, rfl⟩
      obtain ⟨-, hinstr, hdir, -⟩ := item_of_mem (hpre u hu)
      exact hup ⟨hinstr ▸ hi, hdir ▸ hd⟩
    rcases exec_space_cases (κ := κ) (ε := ε) (σ := s) hnot with hc | hc | ⟨-, hc⟩
    · exact hs r (hc ▸ hr)
    · rw [hc] at hr; cases hr
    · rw [hc] at hr; cases hr

/-- A local directory was one at the start, there or on the server. -/
lemma disk_dir_origin (hpre : ∀ u ∈ pre, u ∈ tasks κ ε π)
    (h : (stateAfter κ ε σ pre).disk.get q = some Node.dir) :
    σ.disk.get q = some Node.dir ∨ σ.space.get q = some Node.dir := by
  refine TaskRun.run_invariant (s := σ.started) (I := fun s : State =>
    s.disk.get q = some Node.dir → σ.disk.get q = some Node.dir ∨
      σ.space.get q = some Node.dir) Or.inl (fun u hu s hs hnew => ?_) h
  obtain ⟨hne, hinstr, hdir, -⟩ := item_of_mem (hpre u hu)
  rcases exec_disk_newDir hnew with hold | ⟨-, hi, hd, hway⟩ | ⟨-, hf, hway⟩
  · exact hs hold
  · by_cases hq : q = u.path
    · subst hq
      rcases isDirPath_iff.mp (hdir.symm.trans hd) with h | h
      · exact Or.inl h
      · exact Or.inr h.2
    · exact Or.inr (σ.space.dir_of_below hway hq
        (instruction_download (hinstr.symm.trans hi)))
  · obtain ⟨ha, hane⟩ := above_of_suffix_tail hne hway
    refine Or.inr (σ.space.dir_of_below ha hane ?_)
    rcases hf.2 with hi | hi
    · exact instruction_download (hinstr.symm.trans hi)
    · exact (instruction_conflict (hinstr.symm.trans hi)).2

/-! ## Below a directory that is deleted -/

section Deleted

variable {b x : Path} (hrun : ErrorFree κ ε π) (hgone : σ.GoneRemotely b)
  (hdir : σ.disk.get b = some Node.dir)

include hrun hgone in
/-- Once a local directory has been deleted nothing appears below it any more.  At the path itself
the copy of a conflict may. -/
lemma disk_below_deleted {post : List Item} (hsplit : tasks κ ε π = pre ++ post)
    (hmem : itemOf κ ε σ b ∈ pre) (hbelow : b <:+ x) (hne : b ≠ x) :
    (stateAfter κ ε σ pre).disk.get x = none := by
  have hb : b ≠ [] := (item_of_mem (hsplit ▸ List.mem_append_left post hmem)).1
  refine TaskRun.run_establish (s := σ.started) (Q := fun s : State => s.disk.get x = none) hmem
    (fun pre' post' hsplit' => ?_) (fun pre' post' u hsplit' _ hx => ?_)
  · have hcut : tasks κ ε π = pre' ++ itemOf κ ε σ b :: (post' ++ post) := by
      rw [hsplit, hsplit', List.append_assoc, List.cons_append]
    have hok := hrun.ok_at hcut
    exact Tree.none_of_below _ hbelow
      (exec_deleteLocal_ok hb (instruction_deleteLocal_iff.mpr hgone) hok).1
  · have hu : u ∈ tasks κ ε π := by rw [hsplit, hsplit']; simp
    have hparent := suffix_tail_of_ne hbelow hne
    rcases exec_disk_none (κ := κ) (ε := ε) (t := u) hx with h | h
    · exact h
    · exfalso
      rcases h with ⟨hi, -, hway, -⟩ | ⟨hf, hway, -⟩ | ⟨hf, h | h⟩ | ⟨-, hi, h⟩
      · exact not_fetched_below hgone.2.1 hu (Or.inl hi) (hbelow.trans hway)
      · exact not_fetched_below hgone.2.1 hu hf.2
          (hbelow.trans (hway.trans (List.tail_suffix u.path)))
      · exact not_fetched_below hgone.2.1 hu hf.2 (h ▸ hbelow)
      · rw [h, tmpPath_tail] at hparent
        exact not_fetched_below hgone.2.1 hu hf.2 (hparent.trans (List.tail_suffix u.path))
      · rw [h, conflictPath_tail] at hparent
        exact not_fetched_below hgone.2.1 hu (Or.inr hi) (hparent.trans (List.tail_suffix u.path))

include hrun hgone hdir in
/-- A directory that is deleted, or below one that is, is not made on the server. -/
lemma space_below_deleted (hx : σ.disk.get x = some Node.dir) (hbelow : b <:+ x) :
    (stateAfter κ ε σ (tasks κ ε π)).space.get x = none := by
  have hb : b ≠ [] := by
    rintro rfl
    exact absurd hgone.2.1 (by rw [Tree.root]; simp)
  have hxne : x ≠ [] := by
    rintro rfl
    exact hb (List.suffix_nil.mp hbelow)
  have hown : itemOf κ ε σ b ∈ tasks κ ε π :=
    itemOf_mem_tasks hb (Or.inl hgone.1) (by rw [instruction_deleteLocal_iff.mpr hgone]; simp)
  have hbdir : isDirPath ε σ b = true := isDirPath_iff.mpr (Or.inl hdir)
  have hxdir : isDirPath ε σ x = true := isDirPath_iff.mpr (Or.inl hx)
  refine TaskRun.run_invariant_at (s := σ.started)
    (I := fun s : State => s.space.get x = none) (σ.space.none_of_below hbelow hgone.2.1)
    (fun pre' post' u hsplit hs => ?_)
  have hu := mem_of_split hsplit
  obtain ⟨-, hinstr, hud, -⟩ := item_of_mem hu
  rcases exec_space_none (κ := κ) (ε := ε) (t := u) hs with h | ⟨hi, h⟩
  · exact h
  · exfalso
    rcases h with ⟨-, rfl, -⟩ | ⟨hf, hway, -⟩ | ⟨hf, rfl, -⟩
    · exact upload_not_below_deleted hrun hxne hxdir (hinstr.symm.trans hi) hown hgone hbelow
    · -- the file phase finds nothing to upload there
      have hpre : itemOf κ ε σ b ∈ pre' := by
        rw [hsplit, List.mem_append, List.mem_cons] at hown
        rcases hown with h | h | h
        · exact h
        · rw [← h] at hf
          exact absurd (hf.symm.trans hbdir) (by simp)
        · obtain ⟨mid, post'', rfl⟩ := List.append_of_mem h
          have hcut : tasks κ ε π = (pre' ++ u :: mid) ++ itemOf κ ε σ b :: post'' := by
            rw [hsplit, List.append_assoc, List.cons_append]
          have := isDir_of_after hcut (t := u) (by simp) hf
          exact absurd (this.symm.trans hbdir) (by simp)
      have hok := hrun.ok_at hsplit
      obtain ⟨a, ha, -⟩ := exec_fileUpload_ok hf hi hok
      have hnone := disk_below_deleted hrun hgone hsplit hpre
        (hbelow.trans (hway.trans (List.tail_suffix u.path))) (fun h => ?_)
      · exact absurd (ha.symm.trans hnone) (by simp)
      · rw [← h] at hway
        exact (above_of_suffix_tail hb (hbelow.trans hway)).2 rfl
    · exact absurd (hf.symm.trans (hud.trans hxdir)) (by simp)

end Deleted

/-! ## No new disagreement -/

/-- A local directory stays one, unless a directory at or above it is deleted. -/
lemma disk_dir_stays (hpre : ∀ u ∈ pre, u ∈ tasks κ ε π) (h : σ.disk.get q = some Node.dir)
    (hfree : ∀ b, b <:+ q → ¬ σ.GoneRemotely b) :
    (stateAfter κ ε σ pre).disk.get q = some Node.dir := by
  refine TaskRun.run_invariant (s := σ.started)
    (I := fun s : State => s.disk.get q = some Node.dir) h (fun u hu s hs => ?_)
  refine exec_disk_dir hs ?_
  rintro ⟨hi, hbelow⟩
  have hinstr := (item_of_mem (hpre u hu)).2.1
  exact hfree u.path hbelow (instruction_deleteLocal_iff.mp (hinstr.symm.trans hi))

/-- A collection that the disk does not have ends as a directory on both sides or is deleted. -/
lemma newCollection_agrees (hrun : ErrorFree κ ε π) (hd : σ.disk.get q = none)
    (hs : σ.space.get q = some Node.dir) :
    (stateAfter κ ε σ (tasks κ ε π)).disk.get q = some Node.dir ∨
      (stateAfter κ ε σ (tasks κ ε π)).space.get q = none := by
  have hne : q ≠ [] := by
    rintro rfl
    rw [Tree.root] at hd
    cases hd
  have hp : σ.Present q := Or.inr (by rw [hs]; simp)
  have hdir : isDirPath ε σ q = true := isDirPath_iff.mpr (Or.inr ⟨hd, hs⟩)
  by_cases hb : σ.journal.baseline q = none
  · have hi : instruction κ ε σ q = .download :=
      instruction_newRemote hd (by rw [hs]; simp) hb
    refine Or.inl (TaskRun.run_establish (s := σ.started)
      (Q := fun s : State => s.disk.get q = some Node.dir)
      (itemOf_mem_tasks hne hp (by rw [hi]; simp))
      (fun pre post hsplit => ?_) (fun pre post u hsplit _ h => exec_disk_dir h ?_))
    · exact (exec_dirDownload_ok hdir hi (hrun.ok_at hsplit)).1
    · rintro ⟨hdel, hbelow⟩
      have hgone := instruction_deleteLocal_iff.mp
        ((item_of_mem (mem_of_split hsplit)).2.1.symm.trans hdel)
      exact absurd (hs.symm.trans (σ.space.none_of_below hbelow hgone.2.1)) (by simp)
  · have hi : instruction κ ε σ q = .deleteRemote :=
      instruction_deleteRemote_iff.mpr ⟨hd, by rw [hs]; simp, hb⟩
    have hown : itemOf κ ε σ q ∈ tasks κ ε π := itemOf_mem_tasks hne hp (by rw [hi]; simp)
    refine Or.inr (TaskRun.run_establish (s := σ.started)
      (Q := fun s : State => s.space.get q = none) hown
      (fun pre post hsplit => ?_) (fun pre post u hsplit htpre h => ?_))
    · exact (exec_deleteRemote_ok hne hi (hrun.ok_at hsplit)).1
    · have hu := mem_of_split hsplit
      obtain ⟨hune, hinstr, -⟩ := item_of_mem hu
      rcases exec_space_none (κ := κ) (ε := ε) (t := u) h with h | ⟨hui, h⟩
      · exact h
      · exfalso
        rcases h with ⟨-, h, -⟩ | ⟨-, hway, -⟩ | ⟨-, h, -⟩
        · exact path_ne_of_before hsplit htpre h
        · obtain ⟨habove, hqne⟩ := above_of_suffix_tail hune hway
          exact absurd (hd.symm.trans (σ.disk.dir_of_below habove hqne
            (instruction_upload (hinstr.symm.trans hui)))) (by simp)
        · exact path_ne_of_before hsplit htpre h

/-- **No new disagreement**: where the sides disagree after a run without errors, they did
before it. -/
theorem clash_initial (hrun : ErrorFree κ ε π)
    (h : (stateAfter κ ε σ (tasks κ ε π)).Clash q) : σ.Clash q := by
  have hall : ∀ u ∈ tasks κ ε π, u ∈ tasks κ ε π := fun u hu => hu
  rcases h with ⟨hd, r, hs⟩ | ⟨⟨a, hd⟩, hs⟩
  · rcases disk_dir_origin hall hd with hd' | hs'
    · rcases space_file_origin hall hs with hs' | ⟨a, ha⟩
      · exact Or.inl ⟨hd', hs'⟩
      · exact absurd (hd'.symm.trans ha) (by simp)
    · rcases space_file_origin hall hs with ⟨r', hr⟩ | ha
      · exact absurd (hs'.symm.trans hr) (by simp)
      · exact Or.inr ⟨ha, hs'⟩
  · by_cases hdir : σ.disk.get q = some Node.dir
    · exfalso
      by_cases hfree : ∀ b, b <:+ q → ¬ σ.GoneRemotely b
      · exact absurd (hd.symm.trans (disk_dir_stays hall hdir hfree)) (by simp)
      · push Not at hfree
        obtain ⟨b, hbelow, hgone⟩ := hfree
        have hbdir : σ.disk.get b = some Node.dir := by
          by_cases hbq : b = q
          · rw [hbq]; exact hdir
          · exact σ.disk.dir_of_below hbelow hbq (by rw [hdir]; simp)
        exact absurd (hs.symm.trans (space_below_deleted hrun hgone hbdir hdir hbelow)) (by simp)
    · have hs' := (space_dir_origin hall hs).resolve_right hdir
      cases hd' : σ.disk.get q with
      | none =>
          rcases newCollection_agrees hrun hd' hs' with h | h
          · exact absurd (hd.symm.trans h) (by simp)
          · exact absurd (hs.symm.trans h) (by simp)
      | some x =>
          cases x with
          | dir => exact absurd hd' hdir
          | file a' => exact Or.inr ⟨⟨a', hd'⟩, hs'⟩

/-! ## What becomes of a disagreement -/

lemma State.Clash.both (h : σ.Clash p) : σ.disk.get p ≠ none ∧ σ.space.get p ≠ none := by
  rcases h with ⟨hd, r, hs⟩ | ⟨⟨a, hd⟩, hs⟩
  · rw [hd, hs]; simp
  · rw [hd, hs]; simp

lemma State.Clash.ne_nil (h : σ.Clash p) : p ≠ [] := by
  rintro rfl
  rcases h with ⟨-, r, hs⟩ | ⟨⟨a, hd⟩, -⟩
  · rw [Tree.root] at hs; cases hs
  · rw [Tree.root] at hd; cases hd

/-- Nothing at or above a path that is on both sides is deleted. -/
lemma not_gone_above (hd : σ.disk.get p ≠ none) (hs : σ.space.get p ≠ none) {b : Path}
    (hb : b <:+ p) : ¬ σ.GoneRemotely b ∧ ¬ σ.GoneLocally b :=
  ⟨fun h => hs (σ.space.none_of_below hb h.2.1), fun h => hd (σ.disk.none_of_below hb h.1)⟩

/-- A collection that is on the disk too, as whatever type, stays a collection. -/
lemma collection_kept (hpre : ∀ u ∈ pre, u ∈ tasks κ ε π) (hd : σ.disk.get p ≠ none)
    (hs : σ.space.get p = some Node.dir) :
    (stateAfter κ ε σ pre).space.get p = some Node.dir := by
  refine TaskRun.run_invariant (s := σ.started)
    (I := fun s : State => s.space.get p = some Node.dir) hs (fun u hu s h => ?_)
  have hinstr := (item_of_mem (hpre u hu)).2.1
  by_cases hup : u.instr = .upload ∧ u.isDir = false ∧ p = u.path
  · obtain ⟨hi, -, rfl⟩ := hup
    rcases exec_space_upload (κ := κ) (ε := ε) (by rw [h]; simp) hi with h' | ⟨hno, -⟩
    · exact h'.trans h
    · exact absurd h hno
  · refine (exec_space_keep (by rw [h]; simp) ?_ hup).trans h
    rintro ⟨hi, hbelow⟩
    exact (not_gone_above hd (by rw [hs]; simp) hbelow).2
      (instruction_deleteRemote_iff.mp (hinstr.symm.trans hi))

/-- A directory that is a file on the server stays so. -/
lemma dirAgainstFile_kept (hd : σ.disk.get p = some Node.dir) {r : RemoteFile}
    (hs : σ.space.get p = some (Node.file r)) :
    (stateAfter κ ε σ (tasks κ ε π)).Clash p := by
  have hboth : σ.disk.get p ≠ none ∧ σ.space.get p ≠ none := by rw [hd, hs]; simp
  refine Or.inl ⟨disk_dir_stays (fun u hu => hu) hd
    (fun b hb => (not_gone_above hboth.1 hboth.2 hb).1), r, ?_⟩
  refine TaskRun.run_invariant (s := σ.started)
    (I := fun s : State => s.space.get p = some (Node.file r)) hs (fun u hu s h => ?_)
  obtain ⟨-, hinstr, hdir, -⟩ := item_of_mem hu
  refine (exec_space_keep (by rw [h]; simp) ?_ ?_).trans h
  · rintro ⟨hi, hbelow⟩
    exact (not_gone_above hboth.1 hboth.2 hbelow).2
      (instruction_deleteRemote_iff.mp (hinstr.symm.trans hi))
  · rintro ⟨-, hf, rfl⟩
    exact absurd (hf.symm.trans (hdir.trans (isDirPath_iff.mpr (Or.inl hd)))) (by simp)

/-- A path with two types is transferred, in conflict or ignored. -/
lemma State.Clash.not_delete (h : σ.Clash p) : (instruction κ ε σ p).isDelete = false := by
  by_contra hdel
  obtain ⟨hd, hs⟩ := h.both
  rcases instruction_isDelete_iff.mp (by simpa using hdel) with hg | hg
  · exact hs hg.2.1
  · exact hd hg.1

/-- A file that is a collection on the server cannot be transferred. -/
lemma fileAgainstDir_ignored (hrun : ErrorFree κ ε π) {a : LocalFile}
    (hd : σ.disk.get p = some (Node.file a)) (hs : σ.space.get p = some Node.dir) :
    instruction κ ε σ p = .ignore := by
  by_contra hi
  have hclash : σ.Clash p := Or.inr ⟨⟨a, hd⟩, hs⟩
  have hfile : isDirPath ε σ p = false := isDirPath_eq_false.mpr (by rw [hd]; simp)
  have ht : itemOf κ ε σ p ∈ tasks κ ε π :=
    itemOf_mem_tasks hclash.ne_nil (Or.inl hclash.both.1) hi
  obtain ⟨pre, post, hsplit⟩ := List.append_of_mem ht
  obtain ⟨-, r, -, hr⟩ := files_own (t := itemOf κ ε σ p) hfile
    (transfer_of_mem ht hclash.not_delete)
    (hrun.ok_at hsplit)
  have hkept := collection_kept (mem_of_concat hsplit) hclash.both.1 hs
  rw [stateAfter_concat] at hkept
  exact absurd (hr.symm.trans hkept) (by simp)

/-- A run without errors transfers a path with two types, or leaves its status alone. -/
lemma clash_not_handled (hrun : ErrorFree κ ε π) (h : σ.Clash p)
    (hup : instruction κ ε σ p ≠ .upload) (hdown : instruction κ ε σ p ≠ .download) :
    ¬ Handled κ ε σ p := by
  rintro ⟨-, -, hi, hno⟩
  rcases instruction_not_delete (h.not_delete (κ := κ) (ε := ε)) with h' | h' | h' | h'
  · exact hup h'
  · exact hdown h'
  · rcases h with ⟨hd, -⟩ | ⟨⟨a, hd⟩, hs⟩
    · exact hno ⟨isDirPath_iff.mpr (Or.inl hd), h'⟩
    · exact hi (fileAgainstDir_ignored hrun hd hs)
  · exact hi h'

/-! ## Temp files over an ignored file -/

section Ignored

variable (hrun : ErrorFree κ ε π) {a : LocalFile} (hd : σ.disk.get p = some (Node.file a))
  (hs : σ.space.get p = some Node.dir)

include hrun hd hs in
/-- No task is about a file that is a collection on the server. -/
lemma no_own_task {u : Item} (hu : u ∈ tasks κ ε π) : p ≠ u.path := by
  rintro rfl
  exact (mem_tasks.mp hu).2.2 ((item_of_mem hu).2.1.trans (fileAgainstDir_ignored hrun hd hs))

include hrun hd hs in
/-- Such a file stays, or a download has taken it as its temp file. -/
lemma file_or_taken (pre post : List Item) (hsplit : tasks κ ε π = pre ++ post) :
    (∃ a, (stateAfter κ ε σ pre).disk.get p = some (Node.file a)) ∨
      ∃ pre' t mid, pre = pre' ++ t :: mid ∧ t.fetches ∧ tmpPath t.path = p ∧ t.path ≠ p ∧
        ∀ u ∈ mid, u.isDir = false → u.instr = .conflict →
          conflictPath u.path (ε.clock u.path) ≠ p := by
  induction pre using List.reverseRecOn generalizing post with
  | nil => exact Or.inl ⟨a, hd⟩
  | append_singleton pre u ih =>
      have hcut : tasks κ ε π = pre ++ u :: post := by rw [hsplit]; simp
      have hu := mem_of_split hcut
      have hpu := no_own_task hrun hd hs hu
      have hok := hrun.ok_at hcut
      rcases ih (u :: post) hcut with ⟨b, hb⟩ | ⟨pre', t, mid, rfl, hf, htmp, hne, hmid⟩
      · -- the file is there: only a fetch takes it
        cases hnew : (stateAfter κ ε σ (pre ++ [u])).disk.get p with
        | none =>
            rw [stateAfter_concat] at hnew
            rcases exec_disk_removed (by rw [hb]; simp) hnew with
              ⟨hi, hbelow, -⟩ | ⟨hf, -, h⟩ | ⟨-, -, h⟩
            · exact absurd (instruction_deleteLocal_iff.mp ((item_of_mem hu).2.1.symm.trans hi))
                (not_gone_above (by rw [hd]; simp) (by rw [hs]; simp) hbelow).1
            · exact Or.inr ⟨pre, u, [], rfl, hf, h.symm, hpu.symm, by simp⟩
            · exact absurd h hpu
        | some x =>
            cases x with
            | file b' => exact Or.inl ⟨b', rfl⟩
            | dir =>
                rw [stateAfter_concat] at hnew
                rcases exec_disk_newDir hnew with h | ⟨h, -⟩ | ⟨h, -⟩
                · rw [hb] at h; cases h
                · rw [hb] at h; cases h
                · rw [hb] at h; cases h
      · -- the file has been taken: only the copy of a conflict brings one back
        by_cases hcopy : u.isDir = false ∧ u.instr = .conflict ∧
            conflictPath u.path (ε.clock u.path) = p
        · obtain ⟨huf, hui, hup⟩ := hcopy
          by_cases htmpu : p = tmpPath u.path
          · exact Or.inr ⟨_, u, [], rfl, ⟨huf, Or.inr hui⟩, htmpu.symm, hpu.symm, by simp⟩
          · obtain ⟨b, -, -, -, -, -, hb, -⟩ := exec_fileConflict_ok huf hui hok
            rw [stateAfter_concat, ← hup]
            exact Or.inl ⟨b, hb (by rw [hup]; exact hpu) (by rw [hup]; exact htmpu)⟩
        · refine Or.inr ⟨pre', t, mid ++ [u], by simp, hf, htmp, hne, fun v hv hvf hvi hvp => ?_⟩
          rcases List.mem_append.mp hv with hv | hv
          · exact hmid v hv hvf hvi hvp
          · rw [List.mem_singleton.mp hv] at hvf hvi hvp
            exact hcopy ⟨hvf, hvi, hvp⟩

include hrun hd hs in
/-- What a download has taken is no file at the end. -/
lemma taken_not_file (ht : TempTaken κ ε π p) (b : LocalFile) :
    (stateAfter κ ε σ (tasks κ ε π)).disk.get p ≠ some (Node.file b) := by
  obtain ⟨pre, t, post, hsplit, hf, rfl, hne, hpost⟩ := ht
  refine TaskRun.run_establish_at (s := σ.started)
    (Q := fun s : State => s.disk.get (tmpPath t.path) ≠ some (Node.file b)) hsplit ?_
    (fun mid rest u hu hQ hnew => ?_)
  · intro hb
    exact absurd (hb.symm.trans (exec_fetch_ok_tmp hf (hrun.ok_at hsplit) hne.symm)) (by simp)
  · have hcut : tasks κ ε π = (pre ++ t :: mid) ++ u :: rest := by
      rw [hsplit, hu, List.append_assoc, List.cons_append]
    have hpu := no_own_task hrun hd hs (mem_of_split hcut)
    rcases exec_disk_file hnew with h | ⟨huf, h | h⟩ | ⟨huf, hui, h⟩
    · exact hQ h
    · exact hpu h
    · rw [h] at hnew
      have htmp := exec_fetch_ok_tmp huf (hrun.ok_at hcut) (h ▸ hpu)
      exact absurd (hnew.symm.trans htmp) (by simp)
    · exact hpost u (by rw [hu]; simp) huf hui h.symm

end Ignored

/-! ## When the types agree -/

/-- A run in which nothing fails in silence shows no path as in sync whose sides disagree exactly if
it leaves the paths with two types alone. -/
lemma typesAgree_of_errorFree (hrun : ErrorFree κ ε π) :
    TypesAgree (runSync κ ε π).2 ↔ ClashesLeftAlone κ ε π := by
  have hdisc := (errorFree_iff.mp hrun).1
  obtain ⟨y, hy⟩ := runSync_state (κ := κ) (π := π) hdisc
  have hfinal : ∀ p, (runSync κ ε π).2.Clash p ↔
      (stateAfter κ ε σ (tasks κ ε π)).Clash p := by
    intro p
    rw [hy]
    exact Iff.rfl
  constructor
  · intro hagree p hclash
    rcases id hclash with ⟨hd, r, hs⟩ | ⟨⟨a, hd⟩, hs⟩
    · -- the disagreement is still there at the end, so the path is not shown as in sync
      have hno : (runSync κ ε π).2.sync.fileStatuses p ≠ some .ok :=
        fun h => hagree p h ((hfinal p).mpr (dirAgainstFile_kept hd hs))
      have htransfer : ¬ (instruction κ ε σ p = .upload ∨ instruction κ ε σ p = .download) := by
        intro hi
        refine hno (status_transferred hrun ⟨hclash.ne_nil, Or.inl hclash.both.1, ?_, ?_⟩
          hclash.not_delete)
        · rcases hi with hi | hi
          · rw [hi]; simp
          · rw [hi]; simp
        · rintro ⟨-, hc⟩
          rw [hc] at hi
          simp at hi
      rw [not_or] at htransfer
      refine ⟨htransfer.1, htransfer.2, fun hok => absurd ?_ hno⟩
      rw [status_without_task hdisc (clash_not_handled hrun hclash htransfer.1 htransfer.2)]
      exact hok
    · have hi := fileAgainstDir_ignored hrun hd hs
      refine ⟨by rw [hi]; simp, by rw [hi]; simp, fun hok => ?_⟩
      have hkept := collection_kept (fun u hu => hu) hclash.both.1 hs (κ := κ) (ε := ε) (π := π)
      have hshown : (runSync κ ε π).2.sync.fileStatuses p = some .ok := by
        rw [status_without_task hdisc (fun h => h.2.2.1 hi)]
        exact hok
      rcases file_or_taken hrun hd hs _ [] (List.append_nil _).symm with hfile | htaken
      · exact absurd ((hfinal p).mpr (Or.inr ⟨hfile, hkept⟩)) (hagree p hshown)
      · exact htaken
  · intro hleft p hshown hclash
    have hfinalClash := (hfinal p).mp hclash
    have hinit := clash_initial hrun hfinalClash
    obtain ⟨hup, hdown, htaken⟩ := hleft p hinit
    rw [status_without_task hdisc (clash_not_handled hrun hinit hup hdown)] at hshown
    rcases id hinit with ⟨hd, r, hs⟩ | ⟨⟨a, hd⟩, hs⟩
    · obtain ⟨pre, t, post, hsplit, hf, htmp, hne, -⟩ := htaken hshown
      have hstays : (stateAfter κ ε σ (pre ++ [t])).disk.get p = some Node.dir := by
        exact disk_dir_stays (mem_of_concat hsplit) hd
          (fun b hb => (not_gone_above hinit.both.1 hinit.both.2 hb).1)
      rw [stateAfter_concat, ← htmp] at hstays
      have hnone := exec_fetch_ok_tmp hf (hrun.ok_at hsplit) (by rw [htmp]; exact hne.symm)
      exact absurd (hstays.symm.trans hnone) (by simp)
    · have hkept := collection_kept (fun u hu => hu) hinit.both.1 hs (κ := κ) (ε := ε) (π := π)
      rcases hfinalClash with ⟨-, r, hr⟩ | ⟨⟨b, hb⟩, -⟩
      · exact absurd (hr.symm.trans hkept) (by simp)
      · exact taken_not_file hrun hd hs (htaken hshown) b hb

/-- A directory, recorded as the engine records directories, that is a file on the server. -/
def dirAgainstFile (etag : Str) : State where
  disk := Tree.ofList [(["d".toList], Node.dir)]
  space := Tree.ofList [(["d".toList], Node.file ⟨⟨[100], by decide⟩, etag⟩)]
  journal := Journal.upsertEntry (fun _ => none) ["d".toList] (dirRow ["d".toList] none)
  sync := ⟨.idle, fun _ => none⟩

end OwncloudSync
