import OwncloudSync.Engine.Plan
import OwncloudSync.Engine.TaskEffects
import Mathlib.Tactic.Common

/-!
# What the tasks before a task have done

A task of a run is met in the state `stateAfter pre` that the tasks `pre` before it left.  The
lemmas here relate that state to the one discovery saw: which row the journal has for a path,
and whether the server still has, or has got, a file there.
-/

namespace OwncloudSync

open PathTree

variable {κ : EngineConfig} {ε : Env} {σ : State} {π : Schedule σ} {p q : Path}

lemma journal_owned : TaskRun.Owned (exec κ ε) Item.path State.journal :=
  fun _ _ _ h => exec_journal h

/-- A row is as discovery saw it until the task of its own path runs. -/
lemma journal_before {pre : List Item} (h : ∀ u ∈ pre, u.path ≠ q) :
    (stateAfter κ ε σ pre).journal q = σ.journal q :=
  TaskRun.run_untouched (s := σ.started) journal_owned h

/-- A path that is not uploaded is a remote file during the run only if it was one at its
start. -/
lemma space_file_initial {pre : List Item} (hpre : ∀ u ∈ pre, u ∈ tasks κ ε π)
    (hi : instruction κ ε σ q ≠ .upload) {r : RemoteFile}
    (h : (stateAfter κ ε σ pre).space.get q = some (Node.file r)) :
    σ.space.get q = some (Node.file r) := by
  refine TaskRun.run_invariant (s := σ.started) (I := fun s : State => ∀ r,
    s.space.get q = some (Node.file r) → σ.space.get q = some (Node.file r))
    (fun r hr => hr) (fun u hu s hs r hr => ?_) r h
  have hup : ¬ (u.instr = .upload ∧ u.isDir = false ∧ q = u.path) := by
    rintro ⟨hu', -, rfl⟩
    exact hi ((item_of_mem (hpre u hu)).2.1 ▸ hu')
  rcases exec_space_cases (κ := κ) (ε := ε) (σ := s) hup with hc | hc | ⟨-, hc⟩
  · exact hs r (hc ▸ hr)
  · rw [hc] at hr; cases hr
  · rw [hc] at hr; cases hr

/-- A task that fetches a file was planned to do so, and the file was there from the start. -/
lemma fetched_initially {pre post : List Item} {t : Item} {r : RemoteFile}
    (hsplit : tasks κ ε π = pre ++ t :: post) (hf : t.fetches)
    (hr : (stateAfter κ ε σ pre).space.get t.path = some (Node.file r)) :
    (itemOf κ ε σ t.path).fetches ∧ σ.space.get t.path = some (Node.file r) := by
  have ht := mem_of_split hsplit
  have hitem : itemOf κ ε σ t.path = t := (mem_tasks.mp ht).2.1.symm
  refine ⟨hitem.symm ▸ hf, space_file_initial (mem_of_pre hsplit) ?_ hr⟩
  rw [← (item_of_mem ht).2.1]
  rcases hf.2 with hi | hi
  · rw [hi]; simp
  · rw [hi]; simp

/-- A path that is fetched although the server has no file there never gets a row. -/
lemma journal_unserved {pre post : List Item} (hsplit : tasks κ ε π = pre ++ post)
    (hf : (itemOf κ ε σ q).fetches) (hs : ∀ r, σ.space.get q ≠ some (Node.file r)) :
    (stateAfter κ ε σ pre).journal q = σ.journal q := by
  refine TaskRun.run_invariant_at (s := σ.started)
    (I := fun s : State => s.journal q = σ.journal q) rfl (fun pre' post' t ht hj => ?_)
  have hsplit' : tasks κ ε π = pre' ++ t :: (post' ++ post) := by
    rw [hsplit, ht, List.append_assoc, List.cons_append]
  by_cases hq : q = t.path
  · subst hq
    rw [← (mem_tasks.mp (mem_of_split hsplit')).2.1] at hf
    -- a fetch succeeds only where the server has a file
    refine (congrFun (exec_journal_error (fun hok => ?_)) t.path).trans hj
    have hserved : ∃ r, (stateAfter κ ε σ pre').space.get t.path = some (Node.file r) := by
      rcases hf.2 with hi | hi
      · obtain ⟨r, hr, -⟩ := exec_fileDownload_ok hf.1 hi hok
        exact ⟨r, hr⟩
      · obtain ⟨a, r, -, hr, -⟩ := exec_fileConflict_ok hf.1 hi hok
        exact ⟨r, hr⟩
    obtain ⟨r, hr⟩ := hserved
    exact hs r (fetched_initially hsplit' hf hr).2
  · exact (exec_journal hq).trans hj

/-- Nothing below a path that the server does not have is fetched. -/
lemma not_fetched_below {u : Item} (hs : σ.space.get q = none) (hu : u ∈ tasks κ ε π)
    (hi : u.instr = .download ∨ u.instr = .conflict) : ¬ q <:+ u.path := by
  intro hbelow
  have hnone := σ.space.none_of_below hbelow hs
  have hinstr := (item_of_mem hu).2.1
  rcases hi with hi | hi
  · exact instruction_download (hinstr.symm.trans hi) hnone
  · exact (instruction_conflict (hinstr.symm.trans hi)).2 hnone

/-- Where there is no local directory, no collection is made. -/
lemma exec_space_noDir {s : State} {u : Item} (hu : u ∈ tasks κ ε π)
    (hd : σ.disk.get p ≠ some Node.dir) (hs : s.space.get p ≠ some Node.dir) :
    (exec κ ε u s).1.space.get p ≠ some Node.dir := by
  obtain ⟨hune, hinstr, hdir, -⟩ := item_of_mem hu
  -- an upload of the path itself stores a file
  have hown : u.instr = .upload → p = u.path → u.isDir = false := by
    rintro hi rfl
    rw [hdir, isDirPath_eq_false]
    exact ⟨hd, fun hn => absurd hn (instruction_upload (hinstr.symm.trans hi))⟩
  cases hsp : s.space.get p with
  | none =>
      rcases exec_space_none (κ := κ) (ε := ε) (t := u) hsp with h | ⟨hi, h⟩
      · rw [h]; simp
      · rcases h with ⟨ht, h, -⟩ | ⟨-, hsuf, -⟩ | ⟨-, -, f, h⟩
        · rw [hown hi h] at ht; cases ht
        · obtain ⟨ha, hane⟩ := above_of_suffix_tail hune hsuf
          exact absurd (σ.disk.dir_of_below ha hane
            (instruction_upload (hinstr.symm.trans hi))) hd
        · rw [h]; simp
  | some x =>
      by_cases hup : u.instr = .upload ∧ u.isDir = false ∧ p = u.path
      · obtain ⟨hi, -, rfl⟩ := hup
        rcases exec_space_upload (κ := κ) (ε := ε) (by rw [hsp]; simp) hi with h | ⟨-, f, h⟩
        · rw [h]; exact hs
        · rw [h]; simp
      · rcases exec_space_cases (κ := κ) (ε := ε) (σ := s) hup with h | h | ⟨h, -⟩
        · rw [h]; exact hs
        · rw [h]; simp
        · rw [hsp] at h; cases h

end OwncloudSync
