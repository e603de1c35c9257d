import OwncloudSync.Engine.Calls
import OwncloudSync.Engine.Quiescence
import Mathlib.Tactic.Common

/-!
# Rows without a path

A row is removed by the delete of its own path and by nothing else, so it may outlive the path.
This file says when it does not: over every history of a folder pair, a run without errors leaves
only rows whose path is on both sides, **provided that** (`RowsCanFollow`)

* before the run every row's path is still on one of the sides — a path that both sides have deleted
  has no entry in the plan, and its row stays;
* no new directory lies below one that is to be deleted on the server — it is made locally and
  recorded, and then deleted with its parent;
* no fetched file has its temp file at a path that is to stay;
* no row of a path that is deleted fails to be deleted: the run would not say so;
* the names are plain, so that every request goes to its own path.

A row that cannot be read is none, in the second and the third of these.

`History` is what a folder pair goes through: both sides change in any way at any time, and runs
happen, with or without errors.  Outside changes leave the journal alone, so what the last run
left hygienic decides how the next one takes a path that is new by then (`journalHygiene`).
-/

namespace OwncloudSync

open PathTree

/-- Every row's path is on both sides. -/
def Hygienic (s : State) : Prop :=
  ∀ p, s.journal p ≠ none → s.disk.get p ≠ none ∧ s.space.get p ≠ none

/-- What the run makes or keeps, no other task of it takes away. -/
structure NothingTakenAway (κ : EngineConfig) (ε : Env) (σ : State) : Prop where
  dirs : ∀ d p, σ.GoneLocally d → d <:+ p → σ.space.get p = some Node.dir →
    σ.journal.baseline p ≠ none
  temps : ∀ p, isDirPath ε σ p = false →
    (instruction κ ε σ p = .download ∨ instruction κ ε σ p = .conflict) → tmpPath p ≠ p →
    σ.Present (tmpPath p) → isDirPath ε σ (tmpPath p) = false →
    (instruction κ ε σ (tmpPath p)).isDelete = true

/-- Before the run no row has lost its path, and none will. -/
structure RowsCanFollow (κ : EngineConfig) (ε : Env) (ω : Calls) (σ : State) : Prop where
  plain : σ.Plain
  present : ∀ p, σ.journal p ≠ none → σ.Present p
  deleted : ∀ p, (instruction κ ε (ω.read σ) p).isDelete = true → ω.unwritten p = false
  seen : NothingTakenAway κ ε (ω.read σ)

/-- What a folder pair goes through, with the state its last run left if that run reported no
errors.  It starts without a journal, either side changes in any way at any time, and `P` holds
before each run that reports no errors. -/
inductive History (P : EngineConfig → Env → Calls → State → Prop) : State → Option State → Prop
  | start {s : State} (h : ∀ p, s.journal p = none) : History P s none
  | user {s : State} {c : Option State} (d : Disk) (h : History P s c) :
      History P { s with disk := d } c
  | server {s : State} {c : Option State} (r : Space) (h : History P s c) :
      History P { s with space := r } c
  | clean {s : State} {c : Option State} (κ : EngineConfig) (ε : Env) (ω : Calls) (π : Schedule s)
      (h : History P s c) (hP : P κ ε ω s) (hrun : ω.ErrorFree κ ε π) :
      History P (ω.runSync κ ε π).2 (some (ω.runSync κ ε π).2)
  | failed {s : State} {c : Option State} (κ : EngineConfig) (ε : Env) (ω : Calls) (π : Schedule s)
      (h : History P s c) (hrun : ¬ ω.ErrorFree κ ε π) : History P (ω.runSync κ ε π).2 none

variable {ω : Calls} {κ : EngineConfig} {ε : Env} {σ s : State} {π : Schedule σ} {p : Path} {u : Item}

/-! ## One run -/

section Run

variable (hc : NothingTakenAway κ ε σ) (hrun : ErrorFree κ ε π)

include hc hrun in
/-- A directory that is not deleted itself is not below one that is. -/
lemma undeleted_of_dir (hne : p ≠ []) (hdir : isDirPath ε σ p = true) (hp : σ.Present p)
    (hdel : (instruction κ ε σ p).isDelete = false) : Undeleted κ ε π p := by
  by_cases hboth : σ.disk.get p ≠ none ∧ σ.space.get p ≠ none
  · exact undeleted_of_both hboth.1 hboth.2
  have hb : σ.journal.baseline p = none := by
    by_contra hb
    exact hboth (both_of_not_delete hp hdel hb)
  rintro u hu ⟨hi, hbelow⟩
  rw [(item_of_mem hu).2.1, instruction_isDelete_iff] at hi
  rcases isDirPath_iff.mp hdir with hd | ⟨hd, hs⟩
  · have hs : σ.space.get p = none := by
      by_contra hs
      exact hboth ⟨by rw [hd]; simp, hs⟩
    rcases hi with hg | hg
    · exact upload_not_below_deleted hrun hne hdir
        (instruction_newLocal (by rw [hd]; simp) hs hb) hu hg hbelow
    · have := σ.disk.none_of_below hbelow hg.1
      rw [hd] at this; cases this
  · rcases hi with hg | hg
    · have := σ.space.none_of_below hbelow hg.2.1
      rw [hs] at this; cases this
    · exact hc.dirs u.path p hg hbelow hs hb

include hc in
/-- A task keeps a local file that is to stay, unless it deletes a directory above it. -/
lemma frame_file (hu : u ∈ tasks κ ε π) (hfile : isDirPath ε σ p = false) (hp : σ.Present p)
    (hdel : (instruction κ ε σ p).isDelete = false) (hpu : p ≠ u.path)
    (hdir : ¬ (u.instr = .deleteLocal ∧ u.isDir = true ∧ u.path <:+ p))
    (hs : s.disk.get p ≠ none) : (exec κ ε u s).1.disk.get p ≠ none := by
  obtain ⟨-, hinstr, hud, -⟩ := item_of_mem hu
  intro hn
  rcases exec_disk_removed hs hn with ⟨hi, hbelow, hown⟩ | ⟨hf, -, h⟩ | ⟨-, -, h⟩
  · cases hd : u.isDir with
    | true => exact hdir ⟨hi, hd, hbelow⟩
    | false => exact hpu (hown hd)
  · subst h
    have hdelete := hc.temps u.path (hud.symm.trans hf.1)
      (hf.2.imp hinstr.symm.trans hinstr.symm.trans) hpu hp hfile
    rw [hdel] at hdelete
    cases hdelete
  · exact hpu h

include hc hrun in
/-- A file that is not deleted is on both sides at the end of the run. -/
lemma both_of_file (hfile : isDirPath ε σ p = false) (hp : σ.Present p)
    (hdel : (instruction κ ε σ p).isDelete = false) :
    (runSync κ ε π).2.disk.get p ≠ none ∧ (runSync κ ε π).2.space.get p ≠ none := by
  obtain ⟨hdisc, -⟩ := errorFree_iff.mp hrun
  obtain ⟨y, hy⟩ := runSync_state (κ := κ) (π := π) hdisc
  rw [hy]
  by_cases hi : instruction κ ε σ p = .ignore
  · have hpres : localEntry σ p ≠ none ∨ remoteEntry ε σ p ≠ none := by
      simpa [State.Present] using hp
    obtain ⟨l, r, hl, hr, -⟩ := (reconcile_ignore_iff hpres).mp hi
    have hd : σ.disk.get p ≠ none := by rw [Ne, ← localEntry_eq_none, hl]; simp
    have hs : σ.space.get p ≠ none := by rw [Ne, ← remoteEntry_eq_none (ε := ε), hr]; simp
    refine TaskRun.run_invariant (s := σ.started)
      (I := fun s : State => s.disk.get p ≠ none ∧ s.space.get p ≠ none) ⟨hd, hs⟩
      (fun u hu s hkept => ?_)
    have hpu : p ≠ u.path := by
      rintro rfl
      exact (mem_tasks.mp hu).2.2 ((item_of_mem hu).2.1.trans hi)
    have hfree := not_below_deleted hu hd hs
    refine ⟨frame_file hc hu hfile hp hdel hpu (fun h => ?_) hkept.1, ?_⟩
    · exact hfree ⟨by rw [h.1]; rfl, h.2.2⟩
    · rw [frame_space hu hp hpu hkept.2 (fun h => hfree ⟨by rw [h.1]; rfl, h.2.2⟩)]
      exact hkept.2
  · have ht : itemOf κ ε σ p ∈ tasks κ ε π := itemOf_mem_tasks (ne_nil_of_file hfile) hp hi
    refine TaskRun.run_establish
      (Q := fun s : State => s.disk.get p ≠ none ∧ s.space.get p ≠ none) ht
      (fun pre post hsplit => ?_) (fun pre post u hsplit htpre hQ => ?_)
    · obtain ⟨a, r, ha, hr⟩ := files_own hfile (transfer_of_mem ht hdel)
        (hrun.ok_at hsplit)
      constructor
      · intro hn
        exact absurd (ha.symm.trans hn) (by simp)
      · intro hn
        exact absurd (hr.symm.trans hn) (by simp)
    · -- the tasks after a file task are file tasks, and delete no directory
      have hu := mem_of_split hsplit
      have hpu : p ≠ u.path := path_ne_of_before hsplit htpre
      have hud := isDir_of_after hsplit htpre hfile
      refine ⟨frame_file hc hu hfile hp hdel hpu (fun h => ?_) hQ.1, ?_⟩
      · rw [hud] at h; cases h.2.1
      · rw [frame_space hu hp hpu hQ.2 (fun h => by rw [hud] at h; cases h.2.1)]
        exact hQ.2

include hc hrun in
/-- A path that is not deleted is on both sides at the end of the run. -/
lemma both_of_undeleted (hne : p ≠ []) (hp : σ.Present p)
    (hdel : (instruction κ ε σ p).isDelete = false) :
    (runSync κ ε π).2.disk.get p ≠ none ∧ (runSync κ ε π).2.space.get p ≠ none := by
  cases hdir : isDirPath ε σ p with
  | true =>
      have hfree := undeleted_of_dir hc hrun hne hdir hp hdel
      refine ⟨?_, space_of_dir hne hrun hdir hfree⟩
      rw [disk_dir_of_dir hne hrun hdir hfree]
      simp
  | false => exact both_of_file hc hrun hdir hp hdel

include hrun in
/-- The delete of a path has removed its row. -/
lemma no_row_of_deleted (hne : p ≠ []) (hp : σ.Present p)
    (hdel : (instruction κ ε σ p).isDelete = true) : (runSync κ ε π).2.journal p = none := by
  have ht : itemOf κ ε σ p ∈ tasks κ ε π :=
    itemOf_mem_tasks hne hp (fun h => by rw [h] at hdel; cases hdel)
  obtain ⟨pre, post, hsplit, hj⟩ := journal_of_task (errorFree_iff.mp hrun).1 ht
  have hnot : ∀ b : Bool, (itemOf κ ε σ p).instr.isDelete = b → b = true :=
    fun b h => h.symm.trans hdel
  rcases own_row ht (hrun.ok_at hsplit) with ⟨-, h⟩ | ⟨h, -⟩ | ⟨h, -⟩ | ⟨h, -⟩
  · exact hj.trans h
  · cases hnot _ h
  · cases hnot false (by rw [h]; rfl)
  · cases hnot _ h

end Run

/-- **One run without errors leaves a hygienic journal**, if no row can be left behind. -/
theorem hygienic_run (hc : RowsCanFollow κ ε ω σ) (hrun : ω.ErrorFree κ ε π) :
    Hygienic (ω.runSync κ ε π).2 := by
  have hurl := Calls.served_of_plain (ω := ω) (κ := κ) (ε := ε) (π := π) hc.plain
  obtain ⟨-, hend⟩ := Calls.follows_runSync hurl
  have hcalm : ErrorFree κ ε (π.read ω) := (Calls.errorFree_iff hurl).mp hrun
  intro p hrow
  rw [hend.disk, hend.space]
  rw [hend.journal p, Calls.row] at hrow
  by_cases hne : p = []
  · rw [hne, Tree.root, Tree.root]
    simp
  by_cases hp : σ.Present p
  · cases hdel : (instruction κ ε (ω.read σ) p).isDelete with
    | true =>
        -- its own delete has removed the row
        have hj := no_row_of_deleted hcalm hne hp hdel
        have hread : ω.unread p = false := by
          by_contra h
          rw [Calls.not_delete_of_unread (by simpa using h)] at hdel
          cases hdel
        rw [hc.deleted p hdel, hread, hj] at hrow
        exact absurd rfl hrow
    | false => exact both_of_undeleted hc.seen hcalm hne hp hdel
  · have hno : ∀ v ∈ tasks κ ε (π.read ω), v.path ≠ p :=
      fun v hv => (ne_path_of_gone (σ := ω.read σ) hp hv).symm
    have hj := journal_without_task (errorFree_iff.mp hcalm).1 hno
    have hold : σ.journal p = none := by
      by_contra h
      exact hp (hc.present p h)
    have hread : (ω.read σ).journal p = none := by
      rw [Calls.read_journal, hold]
      exact ite_self none
    rw [hj, hread, hold] at hrow
    simp at hrow

/-! ## Every history -/

/-- Outside changes leave the journal as the last run left it. -/
lemma History.journal_eq {P : EngineConfig → Env → Calls → State → Prop} {c : State}
    (h : History P s (some c)) : s.journal = c.journal := by
  generalize hc : some c = o at h
  induction h with
  | start _ => cases hc
  | user d _ ih => exact ih hc
  | server r _ ih => exact ih hc
  | clean κ ε ω π _ _ _ => cases hc; rfl
  | failed κ ε ω π _ _ => cases hc

lemma History.hygienic {c : State} (h : History RowsCanFollow s (some c)) : Hygienic c := by
  generalize hc : some c = o at h
  induction h with
  | start _ => cases hc
  | user d _ ih => exact ih hc
  | server r _ ih => exact ih hc
  | clean κ ε ω π _ hP hrun => cases hc; exact hygienic_run hP hrun
  | failed κ ε ω π _ _ => cases hc

/-- **Journal hygiene.**  In every history in which no row could be left behind by a run without
errors, such a run leaves only rows whose path is on both sides; and a path that was on neither
side then, and is new on one of them now, is uploaded or downloaded by the next run. -/
theorem journalHygiene {s c : State} (h : History RowsCanFollow s (some c)) :
    Hygienic c ∧ ∀ (κ : EngineConfig) (ε : Env) (ω : Calls) (p : Path), Absent p c →
      (s.disk.get p ≠ none → s.space.get p = none → instruction κ ε (ω.read s) p = .upload) ∧
      (s.disk.get p = none → s.space.get p ≠ none →
        instruction κ ε (ω.read s) p = .download) := by
  refine ⟨h.hygienic, fun κ ε ω p hp => ?_⟩
  have hrow : s.journal p = none := by
    by_contra hrow
    rw [h.journal_eq] at hrow
    exact (h.hygienic p hrow).1 hp.1
  have hb : (ω.read s).journal.baseline p = none := by
    refine baseline_of_none ?_
    rw [Calls.read_journal, hrow]
    exact ite_self none
  exact ⟨fun hd hs => instruction_newLocal hd hs hb, fun hd hs => instruction_newRemote hd hs hb⟩

lemma madeTwice_rowsCanFollow (κ : EngineConfig) :
    RowsCanFollow κ Env.calm Calls.sound madeTwice where
  plain := madeTwice_plain
  present p h := absurd rfl h
  deleted _ _ := rfl
  seen := {
    dirs := fun d p hg _ _ => absurd rfl hg.2.2
    temps := fun p hf hi _ ht _ => by
      have hp : madeTwice.Present p := by
        rcases hi with hi | hi
        · exact Or.inr (instruction_download hi)
        · exact Or.inr (instruction_conflict hi).2
      exact absurd ht (madeTwice_tidy.tmp_absent hp (ne_nil_of_file hf)) }

/-- The theorem at the first run of `madeTwice`, which leaves a row for `a.txt`. -/
theorem journalHygiene_madeTwice :
    Hygienic (Calls.sound.runSync ⟨.keepBoth, 5000000⟩ Env.calm madeTwiceSchedule).2 ∧
      (Calls.sound.runSync ⟨.keepBoth, 5000000⟩ Env.calm madeTwiceSchedule).2.journal
        ["a.txt".toList] ≠ none :=
  ⟨(journalHygiene (History.clean ⟨.keepBoth, 5000000⟩ Env.calm Calls.sound madeTwiceSchedule
    (History.start (fun _ => rfl)) (madeTwice_rowsCanFollow _)
    (Calls.sound_errorFree.mpr madeTwice_errorFree))).1, by decide⟩

/-- After the first run of `madeTwice` both sides delete everything. -/
def deletedTwice : State :=
  { (Calls.sound.runSync ⟨.keepBoth, 5000000⟩ Env.calm madeTwiceSchedule).2 with
    disk := Tree.ofList []
    space := Tree.ofList [] }

/-- Nothing is left to do. -/
def deletedTwiceSchedule : Schedule deletedTwice :=
  Schedule.ofList deletedTwice rfl rfl [] (by decide) (by decide) (by decide)

/-- The next run finds nothing to do and keeps the row of `a.txt`; when the file is made again,
it is deleted. -/
theorem row_outlives_path :
    (¬ ∀ s c, History (fun _ _ _ _ => True) s (some c) → Hygienic c) ∧
    instruction ⟨.keepBoth, 5000000⟩ Env.calm
      { (Calls.sound.runSync ⟨.keepBoth, 5000000⟩ Env.calm deletedTwiceSchedule).2 with
        disk := Tree.ofList [(["a.txt".toList], Node.file ⟨⟨[5], by decide⟩, 11⟩)] }
      ["a.txt".toList] = .deleteLocal := by
  refine ⟨fun h => ?_, by decide⟩
  have hstart : History (fun _ _ _ _ => True) deletedTwice
      (some (Calls.sound.runSync ⟨.keepBoth, 5000000⟩ Env.calm madeTwiceSchedule).2) :=
    History.server (Tree.ofList []) (History.user (Tree.ofList [])
      (History.clean ⟨.keepBoth, 5000000⟩ Env.calm Calls.sound madeTwiceSchedule
        (History.start (fun _ => rfl)) trivial (Calls.sound_errorFree.mpr madeTwice_errorFree)))
  have hnext := History.clean ⟨.keepBoth, 5000000⟩ Env.calm Calls.sound deletedTwiceSchedule hstart
    trivial (Calls.sound_errorFree.mpr (errorFree_iff.mpr ⟨rfl, by decide⟩))
  exact absurd (h _ _ hnext ["a.txt".toList] (by decide)).1 (by decide)

end OwncloudSync
