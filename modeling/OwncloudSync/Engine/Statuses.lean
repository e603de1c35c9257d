import OwncloudSync.Engine.Outcome
import Mathlib.Tactic.Common

/-!
# The statuses a run shows

A task sets or clears the status of its own path and no other (`exec_status_other`), and what it
sets is determined by how it ends.  So the status a run leaves for a path is the one its task
gave it, and **a path without a task keeps the status it had** (`status_without_task`): an
ignored path, a path that is on neither side any more, and a directory in conflict, which no
branch of the directory phase handles.
-/

namespace OwncloudSync

open PathTree

variable {κ : EngineConfig} {ε : Env} {t : Item} {σ : State} {p q : Path}

/-! ## One task -/

lemma exec_status_other (h : q ≠ t.path) :
    (exec κ ε t σ).1.sync.fileStatuses q = σ.sync.fileStatuses q := by
  generalize hr : exec κ ε t σ = r
  cases hr ▸ exec_ends κ ε t σ with
  | failed => exact if_neg h
  | forgotten => exact if_neg h
  | recorded => exact if_neg h
  | unhandled => rfl

lemma exec_status_transfer (ht : t.moves) (h : (exec κ ε t σ).2 = none) :
    (exec κ ε t σ).1.sync.fileStatuses t.path = some .ok := by
  generalize hr : exec κ ε t σ = r at h
  cases hr ▸ exec_ends κ ε t σ with
  | failed => cases h
  | forgotten d s hi =>
      rcases ht with ht | ht | ⟨ht, -⟩
      · rw [ht] at hi; cases hi
      · rw [ht] at hi; cases hi
      · rw [ht] at hi; cases hi
  | recorded => exact if_pos rfl
  | unhandled hi => exact absurd ht hi

lemma exec_status_delete (ht : t.instr.isDelete = true) (h : (exec κ ε t σ).2 = none) :
    (exec κ ε t σ).1.sync.fileStatuses t.path = none := by
  generalize hr : exec κ ε t σ = r at h
  cases hr ▸ exec_ends κ ε t σ with
  | failed => cases h
  | forgotten => exact if_pos rfl
  | recorded d s hi =>
      rcases hi with hi | hi | ⟨hi, -⟩
      · rw [hi] at ht; cases ht
      · rw [hi] at ht; cases ht
      · rw [hi] at ht; cases ht
  | unhandled _ hi => rw [ht] at hi; cases hi

/-! ## A run -/

variable {π : Schedule σ}

/-- The path has a task that ends in a new status: it is not ignored, and no directory in
conflict. -/
def Handled (κ : EngineConfig) (ε : Env) (σ : State) (p : Path) : Prop :=
  p ≠ [] ∧ σ.Present p ∧ instruction κ ε σ p ≠ .ignore ∧
    ¬ (isDirPath ε σ p = true ∧ instruction κ ε σ p = .conflict)

/-- What is handled and not deleted is moved. -/
lemma Handled.moves (hp : Handled κ ε σ p) (hdel : (instruction κ ε σ p).isDelete = false) :
    (itemOf κ ε σ p).moves := by
  obtain ⟨-, -, hi, hno⟩ := hp
  rcases instruction_not_delete hdel with h | h | h | h
  · exact Or.inl h
  · exact Or.inr (Or.inl h)
  · refine Or.inr (Or.inr ⟨h, ?_⟩)
    by_contra hd
    exact hno ⟨(Bool.not_eq_false _).mp hd, h⟩
  · exact absurd h hi

lemma fileStatuses_run (h : ε.discovery = none) :
    (runSync κ ε π).2.sync.fileStatuses =
      (stateAfter κ ε σ (tasks κ ε π)).sync.fileStatuses := by
  unfold runSync
  rw [h]
  rfl

lemma status_owned : TaskRun.Owned (exec κ ε) Item.path
    (fun s : State => s.sync.fileStatuses) :=
  fun _ _ _ h => exec_status_other h

/-- The status a run leaves for the path of a task is the one the task gave it. -/
lemma status_of_task {pre post : List Item} (h : ε.discovery = none)
    (hsplit : tasks κ ε π = pre ++ t :: post) :
    (runSync κ ε π).2.sync.fileStatuses t.path =
      (exec κ ε t (stateAfter κ ε σ pre)).1.sync.fileStatuses t.path := by
  rw [fileStatuses_run h]
  exact TaskRun.run_owned status_owned hsplit
    (fun u hu => path_ne_of_split hsplit (Or.inr hu))

/-- Until its own task a path keeps its status. -/
lemma status_before {pre : List Item} (h : ∀ u ∈ pre, u.path ≠ q) :
    (stateAfter κ ε σ pre).sync.fileStatuses q = σ.sync.fileStatuses q :=
  TaskRun.run_untouched (s := σ.started) status_owned h

/-- The only task that does nothing is that of a directory in conflict. -/
lemma dirConflict_of_unhandled (ht : t ∈ tasks κ ε π) (hp : ¬ Handled κ ε σ t.path) :
    t.isDir = true ∧ t.instr = .conflict := by
  obtain ⟨hne, hinstr, hdir, -⟩ := item_of_mem ht
  by_contra hno
  rw [hinstr, hdir] at hno
  exact hp ⟨hne, (present_of_mem ht).2, hinstr ▸ (mem_tasks.mp ht).2.2, hno⟩

/-- A path that nothing handles keeps the status it had. -/
lemma status_without_task (h : ε.discovery = none) (hp : ¬ Handled κ ε σ p) :
    (runSync κ ε π).2.sync.fileStatuses p = σ.sync.fileStatuses p := by
  by_cases hmem : ∃ t ∈ tasks κ ε π, t.path = p
  · obtain ⟨t, ht, rfl⟩ := hmem
    obtain ⟨hd, hi⟩ := dirConflict_of_unhandled ht hp
    obtain ⟨pre, post, hsplit⟩ := List.append_of_mem ht
    rw [status_of_task h hsplit]
    simp only [exec, hd, if_true, execDir, hi]
    exact status_before (fun u hu => path_ne_of_before hsplit hu)
  · rw [fileStatuses_run h]
    exact status_before (fun u hu hc => hmem ⟨u, hu, hc⟩)

section ErrorFree

variable (hrun : ErrorFree κ ε π) (hp : Handled κ ε σ p)

include hrun hp in
/-- Where a run without errors handles a path, the task of the path has succeeded. -/
lemma task_of_handled : ∃ pre post, tasks κ ε π = pre ++ itemOf κ ε σ p :: post ∧
    (exec κ ε (itemOf κ ε σ p) (stateAfter κ ε σ pre)).2 = none := by
  obtain ⟨hne, hpres, hi, -⟩ := hp
  obtain ⟨pre, post, hsplit⟩ :=
    List.append_of_mem (itemOf_mem_tasks (κ := κ) (ε := ε) (π := π) hne hpres hi)
  exact ⟨pre, post, hsplit, hrun.ok_at hsplit⟩

include hrun hp in
lemma status_transferred (hdel : (instruction κ ε σ p).isDelete = false) :
    (runSync κ ε π).2.sync.fileStatuses p = some .ok := by
  obtain ⟨pre, post, hsplit, hok⟩ := task_of_handled hrun hp
  have hown := status_of_task (errorFree_iff.mp hrun).1 hsplit
  exact hown.trans (exec_status_transfer (hp.moves hdel) hok)

include hrun hp in
lemma status_deleted (hdel : (instruction κ ε σ p).isDelete = true) :
    (runSync κ ε π).2.sync.fileStatuses p = none := by
  obtain ⟨pre, post, hsplit, hok⟩ := task_of_handled hrun hp
  have hown := status_of_task (errorFree_iff.mp hrun).1 hsplit
  exact hown.trans (exec_status_delete hdel hok)

end ErrorFree

end OwncloudSync
