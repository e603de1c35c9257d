import OwncloudSync.Engine.RunSync
import OwncloudSync.Engine.OpEffects
import Mathlib.Tactic.Common

/-!
# What one task of a run can do

For every item of a run — a directory instruction or a file task, succeeding or failing at any
of its calls — this file says once what it can do to each path of the disk, of the space and of
the journal.  Every invariant of the development is derived from these lemmas.

* The journal changes at the item's own path only (`exec_journal`).
* On disk it performs at most one operation (`DiskEffect`), after setting its file aside if it
  is a conflict (`Prepared`).  `MayTake` lists the paths whose content it may remove or replace
  and `MayMake` those where it may make something appear; everything else is untouched
  (`exec_disk_keep`, `exec_disk_none`).  Note the two entries that are not the item's own path: a
  recursive delete takes whole subtrees, and a download takes whatever stands at its temp name.
* In the space only deletes and uploads act (`SpaceEffect`, `exec_space_keep`,
  `exec_space_none`).

The second half is what a task has established when it reports no error.
-/

namespace OwncloudSync

open PathTree

variable {κ : EngineConfig} {ε : Env} {t : Item} {σ : State} {q : Path}

/-- A file task that downloads: Download, or the second half of Conflict. -/
def Item.fetches (t : Item) : Prop :=
  t.isDir = false ∧ (t.instr = .download ∨ t.instr = .conflict)

lemma Item.fetches.not_deleteLocal (h : t.fetches) : t.instr ≠ .deleteLocal := by
  rintro hi
  rcases h.2 with h | h
  · rw [hi] at h; cases h
  · rw [hi] at h; cases h

/-- The paths whose local content the item may remove or replace. -/
def MayTake (ε : Env) (t : Item) (q : Path) : Prop :=
  (t.instr = .deleteLocal ∧ t.path <:+ q ∧ (t.isDir = false → q = t.path)) ∨
  (t.fetches ∧ (q = t.path ∨ q = tmpPath t.path)) ∨
  (t.isDir = false ∧ t.instr = .conflict ∧ q = conflictPath t.path (ε.clock t.path))

/-- The ways in which something may appear at a local path that held nothing. -/
def MayMake (ε : Env) (t : Item) (q : Path) (now : Option (Node LocalFile)) : Prop :=
  (t.instr = .download ∧ t.isDir = true ∧ q <:+ t.path ∧ now = some Node.dir) ∨
  (t.fetches ∧ q <:+ t.path.tail ∧ now = some Node.dir) ∨
  (t.fetches ∧ (q = t.path ∨ q = tmpPath t.path)) ∨
  (t.isDir = false ∧ t.instr = .conflict ∧ q = conflictPath t.path (ε.clock t.path))

/-- What an item takes without deleting it is taken by a fetch. -/
lemma fetches_of_transfer (h : (t.fetches ∧ (q = t.path ∨ q = tmpPath t.path)) ∨
    (t.isDir = false ∧ t.instr = .conflict ∧ q = conflictPath t.path (ε.clock t.path))) :
    t.fetches := by
  rcases h with ⟨hf, -⟩ | ⟨hfile, hi, -⟩
  · exact hf
  · exact ⟨hfile, Or.inr hi⟩

/-! ## How a task ends -/

/-- A task that moves something to the other side, or sets a file aside for it. -/
def Item.moves (t : Item) : Prop :=
  t.instr = .upload ∨ t.instr = .download ∨ (t.instr = .conflict ∧ t.isDir = false)

/-- **The ways a task can end**, its trees apart: with an error, with its row and status gone,
with a new row, or not handled at all. -/
inductive Ends (t : Item) (σ : State) : State × Option SyncError → Prop
  | failed (d : Disk) (s : Space) (e : SyncError) (message : String) :
      Ends t σ (State.failed { σ with disk := d, space := s } t.path message, some e)
  | forgotten (d : Disk) (s : Space) (hi : t.instr.isDelete = true) :
      Ends t σ (State.forgotten { σ with disk := d, space := s } t.path, none)
  | recorded (d : Disk) (s : Space) (hi : t.moves) (row : JournalEntry) :
      Ends t σ (State.recorded { σ with disk := d, space := s } t.path row, none)
  | unhandled (hi : ¬ t.moves) (hi' : t.instr.isDelete = false) : Ends t σ (σ, none)

lemma downloadAndRecord_ends (h : t.moves) (d : Disk) :
    Ends t σ (downloadAndRecord ε t { σ with disk := d }) := by
  unfold downloadAndRecord
  split
  · exact .recorded _ _ h _
  · exact .failed _ _ _ _

lemma execDir_ends (hd : t.isDir = true) : Ends t σ (execDir ε t σ) := by
  unfold execDir
  split
  · rename_i hi
    split
    · exact .recorded _ _ (Or.inl hi) _
    · exact .failed _ _ _ _
  · rename_i hi
    split
    · exact .recorded _ _ (Or.inr (Or.inl hi)) _
    · exact .failed _ _ _ _
  · rename_i hi
    split
    · exact .forgotten _ _ (by rw [hi]; rfl)
    · exact .failed _ _ _ _
  · rename_i hi
    split
    · exact .forgotten _ _ (by rw [hi]; rfl)
    · exact .failed _ _ _ _
  · rename_i h₁ h₂ h₃ h₄
    refine .unhandled ?_ ?_
    · rintro (h | h | ⟨-, h⟩)
      · exact h₁ h
      · exact h₂ h
      · rw [hd] at h; cases h
    · cases hi : t.instr with
      | deleteLocal => exact absurd hi h₄
      | deleteRemote => exact absurd hi h₃
      | _ => rfl

lemma execFile_ends (hd : t.isDir = false) : Ends t σ (execFile κ ε t σ) := by
  unfold execFile
  split
  · rename_i hi
    exact downloadAndRecord_ends (Or.inr (Or.inl hi)) σ.disk
  · rename_i hi
    dsimp only
    split
    · exact .recorded _ _ (Or.inl hi) _
    · exact .failed _ _ _ _
  · rename_i hi
    split
    · rename_i d _ _
      exact downloadAndRecord_ends (Or.inr (Or.inr ⟨hi, hd⟩)) d
    · exact .failed _ _ _ _
    · exact .failed _ _ _ _
  · rename_i hi
    split
    · exact .forgotten _ _ (by rw [hi]; rfl)
    · exact .failed _ _ _ _
  · rename_i hi
    split
    · exact .forgotten _ _ (by rw [hi]; rfl)
    · exact .failed _ _ _ _
  · rename_i h₁ h₂ h₃ h₄ h₅
    refine .unhandled ?_ ?_
    · rintro (h | h | ⟨h, -⟩)
      · exact h₂ h
      · exact h₁ h
      · exact h₃ h
    · cases hi : t.instr with
      | deleteLocal => exact absurd hi h₄
      | deleteRemote => exact absurd hi h₅
      | _ => rfl

lemma exec_ends (κ : EngineConfig) (ε : Env) (t : Item) (σ : State) :
    Ends t σ (exec κ ε t σ) := by
  unfold exec
  split
  · rename_i hd
    exact execDir_ends hd
  · rename_i hd
    exact execFile_ends (by simpa using hd)

/-- A task changes the journal at its own path only. -/
lemma exec_journal (h : q ≠ t.path) : (exec κ ε t σ).1.journal q = σ.journal q := by
  generalize hr : exec κ ε t σ = r
  cases hr ▸ exec_ends κ ε t σ with
  | failed => rfl
  | forgotten => exact deleteEntry_ne h
  | recorded => exact upsertEntry_ne h
  | unhandled => rfl

/-- A failed task leaves the journal alone. -/
lemma exec_journal_error (h : (exec κ ε t σ).2 ≠ none) :
    (exec κ ε t σ).1.journal = σ.journal := by
  generalize hr : exec κ ε t σ = r at h
  cases hr ▸ exec_ends κ ε t σ with
  | failed => rfl
  | _ => exact absurd rfl h

/-! ## The disk -/

lemma downloadAndRecord_disk :
    (downloadAndRecord ε t σ).1.disk =
      (propagateDownload ε t.path σ.space σ.disk).2 := by
  unfold downloadAndRecord
  split
  · rename_i h; rw [h]; rfl
  · rename_i h; rw [h]; rfl

/-- The disk a fetch downloads to: a Conflict has set its file aside first. -/
inductive Prepared (ε : Env) (t : Item) (σ : State) : Disk → Prop
  | asIs : Prepared ε t σ σ.disk
  | setAside {d : Disk} (hfile : t.isDir = false) (hi : t.instr = .conflict)
      (hr : σ.disk.rename? t.path (conflictPath t.path (ε.clock t.path)) = some d) :
      Prepared ε t σ d

/-- **What an item can do to the disk**: one operation, on its own path. -/
inductive DiskEffect (ε : Env) (t : Item) (σ : State) : Disk → Prop
  | unchanged : DiskEffect ε t σ σ.disk
  | madeDirs (hd : t.isDir = true) (hi : t.instr = .download) :
      DiskEffect ε t σ (createDirAll (ε.fails .createDirAll t.path) t.path σ.disk).2
  | deletedDir (hd : t.isDir = true) (hi : t.instr = .deleteLocal) :
      DiskEffect ε t σ (deleteLocalDir ε t.path σ.disk).2
  | deletedFile (hi : t.instr = .deleteLocal) :
      DiskEffect ε t σ (deleteLocal ε t.path σ.disk).2
  | fetched {d : Disk} (hf : t.fetches) (hp : Prepared ε t σ d) :
      DiskEffect ε t σ (propagateDownload ε t.path σ.space d).2

/-- Setting a file aside empties its path and fills the conflict path, with a file in either
case and never over a directory. -/
lemma Prepared.get {d : Disk} (h : Prepared ε t σ d) (q : Path) :
    d.get q = σ.disk.get q ∨
    (t.isDir = false ∧ t.instr = .conflict ∧ q = t.path ∧ d.get q = none ∧
      ∃ a, σ.disk.get q = some (Node.file a)) ∨
    (t.isDir = false ∧ t.instr = .conflict ∧ q = conflictPath t.path (ε.clock t.path) ∧
      σ.disk.get q ≠ some Node.dir ∧ ∃ a, d.get q = some (Node.file a)) := by
  cases h with
  | asIs => exact Or.inl rfl
  | setAside hfile hi hr =>
      obtain ⟨a, ha, ⟨-, rfl⟩ | ⟨-, hnd, hg⟩⟩ := Tree.rename?_eq_some hr
      · exact Or.inl rfl
      by_cases hp : q = t.path
      · subst hp
        exact Or.inr (Or.inl ⟨hfile, hi, rfl, by rw [hg, if_pos rfl], a, ha⟩)
      by_cases hc : q = conflictPath t.path (ε.clock t.path)
      · refine Or.inr (Or.inr ⟨hfile, hi, hc, by rw [hc]; exact hnd, a, ?_⟩)
        rw [hg, if_neg hp, if_pos hc]
      · exact Or.inl (by rw [hg, if_neg hp, if_neg hc])

lemma execDir_disk_effect (hd : t.isDir = true) :
    DiskEffect ε t σ (execDir ε t σ).1.disk := by
  unfold execDir
  split
  · split <;> exact .unchanged
  · rename_i hi
    have h : DiskEffect ε t σ _ := .madeDirs hd hi
    split
    · rename_i hc; rw [hc] at h; exact h
    · rename_i hc; rw [hc] at h; exact h
  · split <;> exact .unchanged
  · rename_i hi
    have h : DiskEffect ε t σ _ := .deletedDir hd hi
    split
    · rename_i hc; rw [hc] at h; exact h
    · rename_i hc; rw [hc] at h; exact h
  · exact .unchanged

lemma execFile_disk_effect (hd : t.isDir = false) :
    DiskEffect ε t σ (execFile κ ε t σ).1.disk := by
  unfold execFile
  split
  · rename_i hi
    rw [downloadAndRecord_disk]
    exact .fetched ⟨hd, Or.inl hi⟩ .asIs
  · dsimp only
    split <;> exact .unchanged
  · rename_i hi
    split
    · rename_i hr
      rw [downloadAndRecord_disk]
      exact .fetched ⟨hd, Or.inr hi⟩ (.setAside hd hi hr)
    · exact .unchanged
    · exact .unchanged
  · rename_i hi
    have h : DiskEffect ε t σ _ := .deletedFile hi
    split
    · rename_i hc; rw [hc] at h; exact h
    · rename_i hc; rw [hc] at h; exact h
  · split <;> exact .unchanged
  · exact .unchanged

lemma exec_disk_effect (κ : EngineConfig) (ε : Env) (t : Item) (σ : State) :
    DiskEffect ε t σ (exec κ ε t σ).1.disk := by
  unfold exec
  split
  · rename_i hd
    exact execDir_disk_effect hd
  · rename_i hd
    exact execFile_disk_effect (by simpa using hd)

/-- **The disk keeps what the item may not take.** -/
lemma exec_disk_keep (hq : σ.disk.get q ≠ none) (h : ¬ MayTake ε t q) :
    (exec κ ε t σ).1.disk.get q = σ.disk.get q := by
  generalize hr : (exec κ ε t σ).1.disk = d'
  cases hr ▸ exec_disk_effect κ ε t σ with
  | unchanged => rfl
  | madeDirs => exact createDirAll_keep hq
  | deletedDir hd hi =>
      refine deleteLocalDir_keep (fun hc => h (Or.inl ⟨hi, hc, fun hf => ?_⟩))
      rw [hd] at hf
      cases hf
  | deletedFile hi =>
      exact deleteLocal_keep (fun hc => h (Or.inl ⟨hi, hc ▸ List.suffix_refl _, fun _ => hc⟩))
  | @fetched d hf hp =>
      have hown : q ≠ t.path := fun hc => h (Or.inr (Or.inl ⟨hf, Or.inl hc⟩))
      have htmp : q ≠ tmpPath t.path := fun hc => h (Or.inr (Or.inl ⟨hf, Or.inr hc⟩))
      have hd : d.get q = σ.disk.get q := by
        rcases hp.get q with hd | ⟨-, -, hc, -⟩ | ⟨hfile, hi, hc, -⟩
        · exact hd
        · exact absurd hc hown
        · exact absurd (Or.inr (Or.inr ⟨hfile, hi, hc⟩)) h
      rw [propagateDownload_spec.1 q hown htmp (by rw [hd]; exact hq), hd]

/-- **On disk nothing appears but what the item may make.** -/
lemma exec_disk_none (hq : σ.disk.get q = none) :
    (exec κ ε t σ).1.disk.get q = none ∨
      MayMake ε t q ((exec κ ε t σ).1.disk.get q) := by
  by_cases hown : t.fetches ∧ (q = t.path ∨ q = tmpPath t.path)
  · exact Or.inr (Or.inr (Or.inr (Or.inl hown)))
  generalize hr : (exec κ ε t σ).1.disk = d'
  cases hr ▸ exec_disk_effect κ ε t σ with
  | unchanged => exact Or.inl hq
  | madeDirs hd hi => exact (createDirAll_none hq).imp id (fun h => Or.inl ⟨hi, hd, h⟩)
  | deletedDir => exact Or.inl (deleteLocalDir_none hq)
  | deletedFile => exact Or.inl (deleteLocal_none hq)
  | @fetched d hf hp =>
      rcases hp.get q with hd | ⟨-, -, hc, -⟩ | ⟨hfile, hi, hc, -⟩
      · rcases propagateDownload_spec.2.1 q (fun hc => hown ⟨hf, Or.inl hc⟩)
          (fun hc => hown ⟨hf, Or.inr hc⟩) (hd.trans hq) with h | h
        · exact Or.inl h
        · exact Or.inr (Or.inr (Or.inl ⟨hf, h⟩))
      · exact absurd ⟨hf, Or.inl hc⟩ hown
      · exact Or.inr (Or.inr (Or.inr (Or.inr ⟨hfile, hi, hc⟩)))

/-- A transfer leaves every path alone but its own, its temp path, its conflict path and the
directories above it. -/
lemma exec_disk_other (hfile : t.isDir = false) (hdel : t.instr ≠ .deleteLocal)
    (hp : q ≠ t.path) (ht : q ≠ tmpPath t.path)
    (hc : q ≠ conflictPath t.path (ε.clock t.path)) (habove : ¬ q <:+ t.path.tail) :
    (exec κ ε t σ).1.disk.get q = σ.disk.get q := by
  by_cases hq : σ.disk.get q = none
  · rw [hq]
    rcases exec_disk_none (κ := κ) (ε := ε) (t := t) hq with h | h
    · exact h
    · rcases h with ⟨-, hd, -⟩ | ⟨-, ha, -⟩ | ⟨-, h | h⟩ | ⟨-, -, h⟩
      · rw [hfile] at hd; cases hd
      · exact absurd ha habove
      · exact absurd h hp
      · exact absurd h ht
      · exact absurd h hc
  · refine exec_disk_keep hq ?_
    rintro (⟨hi, -⟩ | ⟨-, h | h⟩ | ⟨-, -, h⟩)
    · exact hdel hi
    · exact hp h
    · exact ht h
    · exact hc h

/-- **The ways a local path can vanish**: deleted, or below a deleted directory; in the way of
the temp file of a download that the server answers; set aside by its own conflict. -/
lemma exec_disk_removed (hq : σ.disk.get q ≠ none)
    (h : (exec κ ε t σ).1.disk.get q = none) :
    (t.instr = .deleteLocal ∧ t.path <:+ q ∧ (t.isDir = false → q = t.path)) ∨
    (t.fetches ∧ (∃ r, σ.space.get t.path = some (Node.file r)) ∧ q = tmpPath t.path) ∨
    (t.isDir = false ∧ t.instr = .conflict ∧ q = t.path) := by
  have htake : MayTake ε t q := by
    by_contra hno
    exact hq ((exec_disk_keep hq hno).symm.trans h)
  rcases htake with hdel | htransfer
  · exact Or.inl hdel
  have hf := fetches_of_transfer htransfer
  generalize hr : (exec κ ε t σ).1.disk = d' at h
  cases hr ▸ exec_disk_effect κ ε t σ with
  | unchanged => exact absurd h hq
  | madeDirs hd => exact absurd (hf.1.symm.trans hd) Bool.false_ne_true
  | deletedDir hd => exact absurd (hf.1.symm.trans hd) Bool.false_ne_true
  | deletedFile hi => exact absurd hi hf.not_deleteLocal
  | @fetched d _ hp =>
      rcases hp.get q with hd | ⟨hfile, hi, hc, -⟩ | ⟨-, -, -, -, a, hd⟩
      · exact Or.inr (Or.inl ⟨hf, propagateDownload_removed (hd ▸ hq) h⟩)
      · exact Or.inr (Or.inr ⟨hfile, hi, hc⟩)
      · exact Or.inr (Or.inl ⟨hf, propagateDownload_removed (by rw [hd]; simp) h⟩)

/-- A local delete leaves a path as it was, or takes it. -/
lemma exec_deleteLocal_cases (hi : t.instr = .deleteLocal) :
    (exec κ ε t σ).1.disk.get q = σ.disk.get q ∨ (exec κ ε t σ).1.disk.get q = none := by
  generalize hr : (exec κ ε t σ).1.disk = d'
  cases hr ▸ exec_disk_effect κ ε t σ with
  | unchanged => exact Or.inl rfl
  | madeDirs _ hi' => rw [hi] at hi'; cases hi'
  | deletedDir => exact deleteLocalDir_cases
  | deletedFile => exact deleteLocal_cases
  | fetched hf => exact absurd hi hf.not_deleteLocal

/-- **Where a local file comes from**: it was there, or it was fetched, or set aside. -/
lemma exec_disk_file {a : LocalFile} (h : (exec κ ε t σ).1.disk.get q = some (Node.file a)) :
    σ.disk.get q = some (Node.file a) ∨
    (t.fetches ∧ (q = t.path ∨ q = tmpPath t.path)) ∨
    (t.isDir = false ∧ t.instr = .conflict ∧ q = conflictPath t.path (ε.clock t.path)) := by
  by_cases hq : σ.disk.get q = none
  · rcases exec_disk_none (κ := κ) (ε := ε) (t := t) hq with hn | hm
    · rw [h] at hn; cases hn
    · rcases hm with ⟨-, -, -, hd⟩ | ⟨-, -, hd⟩ | hm | hm
      · rw [h] at hd; cases hd
      · rw [h] at hd; cases hd
      · exact Or.inr (Or.inl hm)
      · exact Or.inr (Or.inr hm)
  · by_cases htake : MayTake ε t q
    · rcases htake with ⟨hi, -, -⟩ | htransfer
      · rcases exec_deleteLocal_cases (κ := κ) (ε := ε) (σ := σ) (q := q) hi with hc | hc
        · exact Or.inl (hc.symm.trans h)
        · rw [h] at hc; cases hc
      · exact Or.inr htransfer
    · exact Or.inl ((exec_disk_keep hq htake).symm.trans h)

/-- **A local directory is taken by deletes alone**: a temp file is not made over it, and
nothing is renamed onto it. -/
lemma exec_disk_dir (h : σ.disk.get q = some Node.dir)
    (hdel : ¬ (t.instr = .deleteLocal ∧ t.path <:+ q)) :
    (exec κ ε t σ).1.disk.get q = some Node.dir := by
  have hne : σ.disk.get q ≠ none := by rw [h]; simp
  by_cases htake : MayTake ε t q
  · rcases htake with ⟨hi, hbelow, -⟩ | htransfer
    · exact absurd ⟨hi, hbelow⟩ hdel
    have hf := fetches_of_transfer htransfer
    generalize hr : (exec κ ε t σ).1.disk = d'
    cases hr ▸ exec_disk_effect κ ε t σ with
    | unchanged => exact h
    | madeDirs => exact (createDirAll_keep hne).trans h
    | deletedDir hd => exact absurd (hf.1.symm.trans hd) Bool.false_ne_true
    | deletedFile hi => exact absurd hi hf.not_deleteLocal
    | @fetched d _ hp =>
        refine propagateDownload_dir ?_
        rcases hp.get q with hd | ⟨-, -, -, -, a, ha⟩ | ⟨-, -, -, hnd, -⟩
        · exact hd.trans h
        · rw [h] at ha; cases ha
        · exact absurd h hnd
  · exact (exec_disk_keep hne htake).trans h

/-- A fetch makes directories above its path only. -/
lemma fetch_noDir (hf : t.fetches) (h : σ.disk.get q ≠ some Node.dir)
    (habove : ¬ q <:+ t.path.tail) : (exec κ ε t σ).1.disk.get q ≠ some Node.dir := by
  generalize hr : (exec κ ε t σ).1.disk = d'
  cases hr ▸ exec_disk_effect κ ε t σ with
  | unchanged => exact h
  | madeDirs hd => exact absurd (hf.1.symm.trans hd) Bool.false_ne_true
  | deletedDir hd => exact absurd (hf.1.symm.trans hd) Bool.false_ne_true
  | deletedFile hi => exact absurd hi hf.not_deleteLocal
  | @fetched d _ hp =>
      refine propagateDownload_noDir ?_ (fun _ => habove)
      rcases hp.get q with hd | ⟨-, -, -, hd, -⟩ | ⟨-, -, -, -, a, hd⟩
      · exact hd ▸ h
      · rw [hd]; simp
      · rw [hd]; simp

/-- What a task writes stands beside its path, and so not above it. -/
lemma not_above_of_written (hq : q ≠ []) (h : q = t.path ∨ q = tmpPath t.path ∨
    q = conflictPath t.path (ε.clock t.path)) : ¬ q <:+ t.path.tail := by
  cases hp : t.path with
  | nil =>
      rw [hp] at h
      rcases h with h | h | h
      · exact absurd h hq
      · exact absurd h hq
      · exact absurd h hq
  | cons n p =>
      rw [hp] at h
      rcases h with rfl | rfl | rfl
      · exact cons_not_suffix _ p
      · exact cons_not_suffix _ p
      · exact cons_not_suffix _ p

/-- **Where a local directory comes from**: it was there, or the item made it for its own path
or on the way to it. -/
lemma exec_disk_newDir (h : (exec κ ε t σ).1.disk.get q = some Node.dir) :
    σ.disk.get q = some Node.dir ∨
    (σ.disk.get q = none ∧ t.instr = .download ∧ t.isDir = true ∧ q <:+ t.path) ∨
    (σ.disk.get q = none ∧ t.fetches ∧ q <:+ t.path.tail) := by
  by_contra hno
  rw [not_or, not_or] at hno
  obtain ⟨hdir, hmade, hway⟩ := hno
  have hne : q ≠ [] := by
    rintro rfl
    exact hdir σ.disk.root
  -- at the places a fetch writes to, it makes no directory
  have hwritten : t.fetches → (q = t.path ∨ q = tmpPath t.path ∨
      q = conflictPath t.path (ε.clock t.path)) → False := fun hf hw =>
    fetch_noDir hf hdir (not_above_of_written hne hw) h
  by_cases hq : σ.disk.get q = none
  · rcases exec_disk_none (κ := κ) (ε := ε) (t := t) hq with hn | hm
    · rw [h] at hn; cases hn
    · rcases hm with ⟨hi, hd, hs, -⟩ | ⟨hf, hs, -⟩ | ⟨hf, hw | hw⟩ | ⟨hd, hi, hw⟩
      · exact hmade ⟨hq, hi, hd, hs⟩
      · exact hway ⟨hq, hf, hs⟩
      · exact hwritten hf (Or.inl hw)
      · exact hwritten hf (Or.inr (Or.inl hw))
      · exact hwritten ⟨hd, Or.inr hi⟩ (Or.inr (Or.inr hw))
  · by_cases htake : MayTake ε t q
    · rcases htake with ⟨hi, -, -⟩ | ⟨hf, hw | hw⟩ | ⟨hd, hi, hw⟩
      · rcases exec_deleteLocal_cases (κ := κ) (ε := ε) (σ := σ) (q := q) hi with hc | hc
        · exact hdir (hc.symm.trans h)
        · rw [h] at hc; cases hc
      · exact hwritten hf (Or.inl hw)
      · exact hwritten hf (Or.inr (Or.inl hw))
      · exact hwritten ⟨hd, Or.inr hi⟩ (Or.inr (Or.inr hw))
    · exact hdir ((exec_disk_keep hq htake).symm.trans h)

/-! ## The space -/

lemma downloadAndRecord_space : (downloadAndRecord ε t σ).1.space = σ.space := by
  unfold downloadAndRecord
  split <;> rfl

/-- **What an item can do to the space**: one operation, on its own path. -/
inductive SpaceEffect (κ : EngineConfig) (ε : Env) (t : Item) (σ : State) : Space → Prop
  | unchanged (hi : t.instr ≠ .deleteRemote) : SpaceEffect κ ε t σ σ.space
  | madeDir (hd : t.isDir = true) (hi : t.instr = .upload) :
      SpaceEffect κ ε t σ (mkdirRemote (ε.fails .mkcol t.path) t.path σ.space).2
  | deleted (hi : t.instr = .deleteRemote) :
      SpaceEffect κ ε t σ (deleteRemote ε t.path σ.space).2
  | uploaded (hd : t.isDir = false) (hi : t.instr = .upload) :
      SpaceEffect κ ε t σ
        (propagateUpload κ ε t.path (metadataLen ε t.path σ.disk) σ.disk σ.space).2

lemma execDir_space_effect (hd : t.isDir = true) :
    SpaceEffect κ ε t σ (execDir ε t σ).1.space := by
  unfold execDir
  split
  · rename_i hi
    have h : SpaceEffect κ ε t σ _ := .madeDir hd hi
    split
    · rename_i hc; rw [hc] at h; exact h
    · rename_i hc; rw [hc] at h; exact h
  · rename_i hi
    split <;> exact .unchanged (by rw [hi]; simp)
  · rename_i hi
    have h : SpaceEffect κ ε t σ _ := .deleted hi
    split
    · rename_i hc; rw [hc] at h; exact h
    · rename_i hc; rw [hc] at h; exact h
  · rename_i hi
    split <;> exact .unchanged (by rw [hi]; simp)
  · rename_i hi _
    exact .unchanged hi

lemma execFile_space_effect (hd : t.isDir = false) :
    SpaceEffect κ ε t σ (execFile κ ε t σ).1.space := by
  unfold execFile
  split
  · rename_i hi
    rw [downloadAndRecord_space]
    exact .unchanged (by rw [hi]; simp)
  · rename_i hi
    have h : SpaceEffect κ ε t σ _ := .uploaded hd hi
    dsimp only
    split
    · rename_i hc; rw [hc] at h; exact h
    · rename_i hc; rw [hc] at h; exact h
  · rename_i hi
    have h : t.instr ≠ .deleteRemote := by rw [hi]; simp
    split
    · rw [downloadAndRecord_space]
      exact .unchanged h
    · exact .unchanged h
    · exact .unchanged h
  · rename_i hi
    split <;> exact .unchanged (by rw [hi]; simp)
  · rename_i hi
    have h : SpaceEffect κ ε t σ _ := .deleted hi
    split
    · rename_i hc; rw [hc] at h; exact h
    · rename_i hc; rw [hc] at h; exact h
  · rename_i hi
    exact .unchanged hi

lemma exec_space_effect (κ : EngineConfig) (ε : Env) (t : Item) (σ : State) :
    SpaceEffect κ ε t σ (exec κ ε t σ).1.space := by
  unfold exec
  split
  · rename_i hd
    exact execDir_space_effect hd
  · rename_i hd
    exact execFile_space_effect (by simpa using hd)

/-- **The space keeps everything but what is deleted or uploaded.** -/
lemma exec_space_keep (hq : σ.space.get q ≠ none)
    (hdel : ¬ (t.instr = .deleteRemote ∧ t.path <:+ q))
    (hup : ¬ (t.instr = .upload ∧ t.isDir = false ∧ q = t.path)) :
    (exec κ ε t σ).1.space.get q = σ.space.get q := by
  generalize hr : (exec κ ε t σ).1.space = s'
  cases hr ▸ exec_space_effect κ ε t σ with
  | unchanged => rfl
  | madeDir => exact mkdirRemote_keep hq
  | deleted hi => exact deleteRemote_keep (fun hc => hdel ⟨hi, hc⟩)
  | uploaded hd hi => exact propagateUpload_leaves.keep q (fun hc => hup ⟨hi, hd, hc⟩) hq

/-- **In the space nothing appears but what is uploaded and the collections above it.** -/
lemma exec_space_none (hq : σ.space.get q = none) :
    (exec κ ε t σ).1.space.get q = none ∨ (t.instr = .upload ∧
      ((t.isDir = true ∧ q = t.path ∧ (exec κ ε t σ).1.space.get q = some Node.dir) ∨
       (t.isDir = false ∧ q <:+ t.path.tail ∧
          (exec κ ε t σ).1.space.get q = some Node.dir) ∨
       (t.isDir = false ∧ q = t.path ∧
          ∃ f, (exec κ ε t σ).1.space.get q = some (Node.file f)))) := by
  generalize hr : (exec κ ε t σ).1.space = s'
  cases hr ▸ exec_space_effect κ ε t σ with
  | unchanged => exact Or.inl hq
  | madeDir hd hi => exact (mkdirRemote_none hq).imp id (fun h => ⟨hi, Or.inl ⟨hd, h⟩⟩)
  | deleted => exact Or.inl (deleteRemote_none hq)
  | uploaded hd hi =>
      by_cases hp : q = t.path
      · subst hp
        rcases propagateUpload_leaves.target with h | ⟨-, h⟩
        · exact Or.inl (h.trans hq)
        · exact Or.inr ⟨hi, Or.inr (Or.inr ⟨hd, rfl, h⟩)⟩
      · rcases propagateUpload_leaves.made q hp hq with h | h
        · exact Or.inl h
        · exact Or.inr ⟨hi, Or.inr (Or.inl ⟨hd, h⟩)⟩

/-- An upload never removes its own target, and never replaces a collection there. -/
lemma exec_space_upload (hq : σ.space.get t.path ≠ none) (hi : t.instr = .upload) :
    (exec κ ε t σ).1.space.get t.path = σ.space.get t.path ∨
      (σ.space.get t.path ≠ some Node.dir ∧
        ∃ f, (exec κ ε t σ).1.space.get t.path = some (Node.file f)) := by
  generalize hr : (exec κ ε t σ).1.space = s'
  cases hr ▸ exec_space_effect κ ε t σ with
  | unchanged => exact Or.inl rfl
  | madeDir => exact Or.inl (mkdirRemote_keep hq)
  | deleted hi' => rw [hi] at hi'; cases hi'
  | uploaded => exact propagateUpload_leaves.target

/-- **The only way a remote path can vanish.** -/
lemma exec_space_removed (hq : σ.space.get q ≠ none)
    (h : (exec κ ε t σ).1.space.get q = none) :
    t.instr = .deleteRemote ∧ t.path <:+ q := by
  by_contra hdel
  by_cases hup : t.instr = .upload ∧ t.isDir = false ∧ q = t.path
  · obtain ⟨hi, -, rfl⟩ := hup
    rcases exec_space_upload (κ := κ) (ε := ε) hq hi with hk | ⟨-, f, hf⟩
    · exact hq (hk.symm.trans h)
    · rw [hf] at h
      cases h
  · exact hq ((exec_space_keep hq hdel hup).symm.trans h)

lemma exec_deleteRemote_space (hi : t.instr = .deleteRemote) :
    (exec κ ε t σ).1.space = (deleteRemote ε t.path σ.space).2 := by
  generalize hr : (exec κ ε t σ).1.space = s'
  cases hr ▸ exec_space_effect κ ε t σ with
  | unchanged hno => exact absurd hi hno
  | madeDir _ hi' => rw [hi] at hi'; cases hi'
  | deleted => rfl
  | uploaded _ hi' => rw [hi] at hi'; cases hi'

/-- A remote path keeps what it holds, vanishes, or becomes a collection where there was
nothing, unless the item uploads that very file. -/
lemma exec_space_cases (hup : ¬ (t.instr = .upload ∧ t.isDir = false ∧ q = t.path)) :
    (exec κ ε t σ).1.space.get q = σ.space.get q ∨
      (exec κ ε t σ).1.space.get q = none ∨
      (σ.space.get q = none ∧ (exec κ ε t σ).1.space.get q = some Node.dir) := by
  by_cases hq : σ.space.get q = none
  · rcases exec_space_none (κ := κ) (ε := ε) (t := t) hq with h | ⟨hi, h⟩
    · exact Or.inr (Or.inl h)
    · rcases h with ⟨-, -, h⟩ | ⟨-, -, h⟩ | ⟨hf, hp, -⟩
      · exact Or.inr (Or.inr ⟨hq, h⟩)
      · exact Or.inr (Or.inr ⟨hq, h⟩)
      · exact absurd ⟨hi, hf, hp⟩ hup
  · by_cases hdel : t.instr = .deleteRemote ∧ t.path <:+ q
    · rw [exec_deleteRemote_space hdel.1]
      exact (deleteRemote_cases).imp id Or.inl
    · exact Or.inl (exec_space_keep hq hdel hup)

/-! ## What a task has established when it reports no error -/

/-- A directory upload: the collection exists and its row has an empty etag. -/
lemma exec_dirUpload_ok (hd : t.isDir = true) (hi : t.instr = .upload)
    (h : (exec κ ε t σ).2 = none) :
    (exec κ ε t σ).1.space.get t.path ≠ none ∧
      (exec κ ε t σ).1.journal t.path = some (dirRow t.path none) := by
  have hok := mkdirRemote_ok (φ := ε.fails .mkcol t.path) (p := t.path) (s := σ.space)
  simp only [exec, hd, if_true, execDir, hi] at h ⊢
  split at h
  · rename_i hc
    rw [hc] at hok
    dsimp only
    exact ⟨hok rfl, upsertEntry_self _ _ _⟩
  · cases h

/-- A directory download: the directory exists and its row has an empty etag. -/
lemma exec_dirDownload_ok (hd : t.isDir = true) (hi : t.instr = .download)
    (h : (exec κ ε t σ).2 = none) :
    (exec κ ε t σ).1.disk.get t.path = some Node.dir ∧
      (exec κ ε t σ).1.journal t.path =
        some (dirRow t.path (t.rem.map (·.fileId))) := by
  have hok := createDirAll_ok (φ := ε.fails .createDirAll t.path) (p := t.path)
    (d := σ.disk) (q := t.path)
  simp only [exec, hd, if_true, execDir, hi] at h ⊢
  split at h
  · rename_i hc
    rw [hc] at hok
    dsimp only
    exact ⟨hok rfl (List.suffix_refl _), upsertEntry_self _ _ _⟩
  · cases h

/-- A delete on the disk: the path is gone and so is its row. -/
lemma exec_deleteLocal_ok (hp : t.path ≠ []) (hi : t.instr = .deleteLocal)
    (h : (exec κ ε t σ).2 = none) :
    (exec κ ε t σ).1.disk.get t.path = none ∧
      (exec κ ε t σ).1.journal t.path = none := by
  by_cases hd : t.isDir = true
  · have hok := fun h => deleteLocalDir_ok (ε := ε) (d := σ.disk) hp h
      (List.suffix_refl t.path)
    simp only [exec, hd, if_true, execDir, hi] at h ⊢
    split at h
    · rename_i hc
      rw [hc] at hok
      dsimp only
      exact ⟨hok rfl, deleteEntry_self _ _⟩
    · cases h
  · have hok := deleteLocal_ok (ε := ε) (d := σ.disk) hp
    simp only [exec, if_neg hd, execFile, hi] at h ⊢
    split at h
    · rename_i hc
      rw [hc] at hok
      dsimp only
      exact ⟨hok rfl, deleteEntry_self _ _⟩
    · cases h

/-- A delete on the server: the path is gone and so is its row. -/
lemma exec_deleteRemote_ok (hp : t.path ≠ []) (hi : t.instr = .deleteRemote)
    (h : (exec κ ε t σ).2 = none) :
    (exec κ ε t σ).1.space.get t.path = none ∧
      (exec κ ε t σ).1.journal t.path = none := by
  have hok := fun h => deleteRemote_ok (ε := ε) (s := σ.space) hp h
    (List.suffix_refl t.path)
  by_cases hd : t.isDir = true
  · simp only [exec, hd, if_true, execDir, hi] at h ⊢
    split at h
    · rename_i hc
      rw [hc] at hok
      dsimp only
      exact ⟨hok rfl, deleteEntry_self _ _⟩
    · cases h
  · simp only [exec, if_neg hd, execFile, hi] at h ⊢
    split at h
    · rename_i hc
      rw [hc] at hok
      dsimp only
      exact ⟨hok rfl, deleteEntry_self _ _⟩
    · cases h

/-- An upload: the server holds what the disk holds, and the row records the size sent and the
etag of the answer. -/
lemma exec_fileUpload_ok (hd : t.isDir = false) (hi : t.instr = .upload)
    (h : (exec κ ε t σ).2 = none) :
    ∃ a, σ.disk.get t.path = some (Node.file a) ∧
      (exec κ ε t σ).1.disk = σ.disk ∧
      (exec κ ε t σ).1.space.get t.path = some (Node.file
        ⟨a.content.take (metadataLen ε t.path σ.disk).toNat, ε.storedEtag t.path⟩) ∧
      (exec κ ε t σ).1.journal t.path = some
        (fileRow t.path (ε.putEtag t.path) (metadataLen ε t.path σ.disk) none) := by
  have hl := propagateUpload_leaves (ε := ε) (p := t.path) (s := σ.space)
    (d := σ.disk) (κ := κ) (z := metadataLen ε t.path σ.disk)
  have hok := hl.ok
  simp only [exec, hd, Bool.false_eq_true, if_false, execFile, hi] at h ⊢
  split at h
  · rename_i etag s hc
    rw [hc] at hok
    obtain ⟨he, a, ha, hs⟩ := hok etag rfl
    dsimp only
    exact ⟨a, ha, rfl, hs, by rw [he]; exact upsertEntry_self _ _ _⟩
  · cases h

lemma downloadAndRecord_ok (h : (downloadAndRecord ε t σ).2 = none) :
    ∃ r, σ.space.get t.path = some (Node.file r) ∧
      (downloadAndRecord ε t σ).1.disk.get t.path =
        some (Node.file ⟨r.content, ε.mtime t.path⟩) ∧
      (tmpPath t.path ≠ t.path →
        (downloadAndRecord ε t σ).1.disk.get (tmpPath t.path) = none) ∧
      (downloadAndRecord ε t σ).1.journal t.path = some
        (fileRow t.path (ε.getEtag t.path r)
          (metadataLen ε t.path (downloadAndRecord ε t σ).1.disk)
          (t.rem.map (·.fileId))) := by
  have hok := (propagateDownload_spec (ε := ε) (p := t.path) (s := σ.space)
    (d := σ.disk)).2.2
  rw [downloadAndRecord_disk]
  unfold downloadAndRecord at h ⊢
  split at h
  · rename_i etag d hc
    rw [hc] at hok
    obtain ⟨r, hr, he, hp, ht⟩ := hok etag rfl
    simp only [hc]
    exact ⟨r, hr, hp, ht, by rw [he]; exact upsertEntry_self _ _ _⟩
  · cases h

/-- A download: the disk holds what the server served, the temp file is gone, and the row
records the size on disk and the etag of the answer. -/
lemma exec_fileDownload_ok (hd : t.isDir = false) (hi : t.instr = .download)
    (h : (exec κ ε t σ).2 = none) :
    ∃ r, σ.space.get t.path = some (Node.file r) ∧
      (exec κ ε t σ).1.space = σ.space ∧
      (exec κ ε t σ).1.disk.get t.path =
        some (Node.file ⟨r.content, ε.mtime t.path⟩) ∧
      (exec κ ε t σ).1.journal t.path = some
        (fileRow t.path (ε.getEtag t.path r)
          (metadataLen ε t.path (exec κ ε t σ).1.disk) (t.rem.map (·.fileId))) := by
  have hex : exec κ ε t σ = downloadAndRecord ε t σ := by
    simp only [exec, hd, Bool.false_eq_true, if_false, execFile, hi]
  rw [hex] at h ⊢
  obtain ⟨r, hr, hp, -, hj⟩ := downloadAndRecord_ok h
  exact ⟨r, hr, downloadAndRecord_space, hp, hj⟩

/-- A conflict: the old content stands at the conflict path, the served one at the path. -/
lemma exec_fileConflict_ok (hd : t.isDir = false) (hi : t.instr = .conflict)
    (h : (exec κ ε t σ).2 = none) :
    ∃ a r, σ.disk.get t.path = some (Node.file a) ∧
      σ.space.get t.path = some (Node.file r) ∧
      (exec κ ε t σ).1.space = σ.space ∧
      (exec κ ε t σ).1.disk.get t.path =
        some (Node.file ⟨r.content, ε.mtime t.path⟩) ∧
      (conflictPath t.path (ε.clock t.path) ≠ t.path →
        conflictPath t.path (ε.clock t.path) ≠ tmpPath t.path →
        (exec κ ε t σ).1.disk.get (conflictPath t.path (ε.clock t.path)) =
          some (Node.file a)) ∧
      (exec κ ε t σ).1.journal t.path = some
        (fileRow t.path (ε.getEtag t.path r)
          (metadataLen ε t.path (exec κ ε t σ).1.disk) (t.rem.map (·.fileId))) := by
  simp only [exec, hd, Bool.false_eq_true, if_false, execFile, hi] at h ⊢
  split at h
  · rename_i d hf hr
    obtain ⟨r, hr', hp, -, hj⟩ := downloadAndRecord_ok h
    obtain ⟨a, ha, hren⟩ := Tree.rename?_eq_some hr
    refine ⟨a, r, ha, hr', downloadAndRecord_space, hp, fun hne ht => ?_, hj⟩
    rcases hren with ⟨hc, -⟩ | ⟨-, -, hg⟩
    · exact absurd hc.symm hne
    · have hd' : d.get (conflictPath t.path (ε.clock t.path)) = some (Node.file a) := by
        rw [hg, if_neg hne, if_pos rfl]
      rw [downloadAndRecord_disk]
      exact (propagateDownload_spec.1 _ hne ht (by rw [hd']; simp)).trans hd'
  · cases h
  · cases h

/-- After a successful download or conflict nothing is left at the temp name. -/
lemma exec_fetch_ok_tmp (hf : t.fetches) (h : (exec κ ε t σ).2 = none)
    (hne : tmpPath t.path ≠ t.path) : (exec κ ε t σ).1.disk.get (tmpPath t.path) = none := by
  obtain ⟨hd, hi | hi⟩ := hf
  · simp only [exec, hd, Bool.false_eq_true, if_false, execFile, hi] at h ⊢
    obtain ⟨-, -, -, htmp, -⟩ := downloadAndRecord_ok h
    exact htmp hne
  · simp only [exec, hd, Bool.false_eq_true, if_false, execFile, hi] at h ⊢
    split at h
    · obtain ⟨-, -, -, htmp, -⟩ := downloadAndRecord_ok h
      exact htmp hne
    · cases h
    · cases h

/-! ## What a task does when none of its calls fails -/

lemma downloadAndRecord_succeeds {r : RemoteFile} (hp : t.path ≠ [])
    (hok : ∀ op, ε.fails op t.path = none)
    (hs : σ.space.get t.path = some (Node.file r))
    (hdirs : ∀ b, b <:+ t.path.tail → σ.disk.get b = none ∨ σ.disk.get b = some Node.dir)
    (ht : σ.disk.get (tmpPath t.path) ≠ some Node.dir)
    (hd : σ.disk.get t.path ≠ some Node.dir) :
    (downloadAndRecord ε t σ).2 = none ∧ (tmpPath t.path ≠ t.path →
      (downloadAndRecord ε t σ).1.disk.get (tmpPath t.path) = none) := by
  have hdone : (downloadAndRecord ε t σ).2 = none := by
    cases hpath : t.path with
    | nil => exact absurd hpath hp
    | cons n p =>
        rw [hpath] at hok hs hdirs ht hd
        have hdl := propagateDownload_succeeds hok hs hdirs ht hd
        unfold downloadAndRecord
        rw [hpath]
        split
        · rfl
        · rename_i hres
          rw [hres] at hdl
          cases hdl
  obtain ⟨-, -, -, htmp, -⟩ := downloadAndRecord_ok hdone
  exact ⟨hdone, htmp⟩

/-- A file whose conflict path is free can be set aside; the directory above stays, its own path
is empty afterwards, and no directory has appeared. -/
lemma rename_aside {a : LocalFile} (hp : t.path ≠ [])
    (ha : σ.disk.get t.path = some (Node.file a))
    (hfree : σ.disk.get (conflictPath t.path (ε.clock t.path)) = none) :
    ∃ d, σ.disk.rename? t.path (conflictPath t.path (ε.clock t.path)) = some d ∧
      d.get t.path.tail = some Node.dir ∧ d.get t.path = none ∧
      ∀ q, σ.disk.get q ≠ some Node.dir → d.get q ≠ some Node.dir := by
  have hpar : σ.disk.get t.path.tail = some Node.dir := by
    cases hpath : t.path with
    | nil => exact absurd hpath hp
    | cons n p => exact σ.disk.closed n p (by rw [← hpath, ha]; simp)
  have htail : t.path.tail ≠ t.path := by
    cases hpath : t.path with
    | nil => exact absurd hpath hp
    | cons n p => exact (List.cons_ne_self n p).symm
  have hren : ∃ d, σ.disk.rename? t.path (conflictPath t.path (ε.clock t.path)) = some d := by
    cases hpath : t.path with
    | nil => exact absurd hpath hp
    | cons n p =>
        rw [hpath] at ha hpar hfree
        exact Tree.rename?_isSome ha hpar (by rw [← conflictPath, hfree]; simp)
  obtain ⟨d, hren⟩ := hren
  obtain ⟨_, -, ⟨hcp, -⟩ | ⟨-, -, hg⟩⟩ := Tree.rename?_eq_some hren
  · exact absurd hcp.symm (conflictPath_ne hp)
  refine ⟨d, hren, ?_, by rw [hg, if_pos rfl], fun q hq => ?_⟩
  · rw [hg, if_neg htail, if_neg (fun hcp => ?_), hpar]
    rw [hcp, hfree] at hpar
    cases hpar
  · rw [hg]
    split
    · simp
    · split
      · simp
      · exact hq

/-- A download or conflict that runs undisturbed succeeds, and nothing is left at its temp
name. -/
lemma exec_fetch_succeeds {r : RemoteFile} (hp : t.path ≠ []) (hf : t.fetches)
    (hok : ∀ op, ε.fails op t.path = none)
    (hs : σ.space.get t.path = some (Node.file r))
    (hdirs : ∀ b, b <:+ t.path.tail → σ.disk.get b = none ∨ σ.disk.get b = some Node.dir)
    (ht : σ.disk.get (tmpPath t.path) ≠ some Node.dir)
    (hd : σ.disk.get t.path ≠ some Node.dir)
    (hc : t.instr = .conflict → (∃ a, σ.disk.get t.path = some (Node.file a)) ∧
      σ.disk.get (conflictPath t.path (ε.clock t.path)) = none) :
    (exec κ ε t σ).2 = none ∧ (tmpPath t.path ≠ t.path →
      (exec κ ε t σ).1.disk.get (tmpPath t.path) = none) := by
  obtain ⟨hfile, hi | hi⟩ := hf
  · simp only [exec, hfile, Bool.false_eq_true, if_false, execFile, hi]
    exact downloadAndRecord_succeeds hp hok hs hdirs ht hd
  · obtain ⟨⟨a, ha⟩, hfree⟩ := hc hi
    obtain ⟨d, hren, hpar, hown, hnoDir⟩ := rename_aside hp ha hfree
    simp only [exec, hfile, Bool.false_eq_true, if_false, execFile, hi, hok, hren]
    exact downloadAndRecord_succeeds hp hok hs (fun b hb => d.dir_above_dir hpar hb)
      (hnoDir _ ht) (by rw [hown]; simp)

/-- An upload that runs undisturbed succeeds below an existing collection. -/
lemma exec_upload_succeeds {a : LocalFile} (hfile : t.isDir = false) (hi : t.instr = .upload)
    (hok : ∀ op, ε.fails op t.path = none)
    (ha : σ.disk.get t.path = some (Node.file a))
    (hpar : σ.space.get t.path.tail = some Node.dir)
    (hs : σ.space.get t.path ≠ some Node.dir) : (exec κ ε t σ).2 = none := by
  cases hpath : t.path with
  | nil => rw [hpath, σ.disk.root] at ha; cases ha
  | cons n p =>
      have hup := propagateUpload_succeeds (κ := κ) (n := n) (r := p)
        (z := metadataLen ε (n :: p) σ.disk) (hpath ▸ hok) (hpath ▸ ha) (hpath ▸ hpar) (hpath ▸ hs)
      rw [← hpath] at hup
      simp only [exec, hfile, Bool.false_eq_true, if_false, execFile, hi]
      split
      · rfl
      · rename_i hres
        rw [hres] at hup
        cases hup

end OwncloudSync
