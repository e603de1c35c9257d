import OwncloudSync.Engine.MergeProgress
import OwncloudSync.Lib.Runs
import Mathlib.Tactic.Common

/-!
# Runs that are cut short

A run need not come to its end: the daemon is quit or killed, or the server cannot be reached any
more.  What it has done by then stays done, and the next run starts from the trees and the journal
that it left.  **It does not matter how often that happens**: the first run that comes to its end
leaves the merge of the two trees as they were before them all (`resumedRun`).

A run that is cut short leaves every path as it was or done with (`Resumable.halfway`), so the
state it leaves is one that can be merged again, over a base that is the old one at the first paths
and the merge at the others (`nextBase`).  The merge over that base is the same.

It is the journal that makes this delicate.  Rows of what was removed with its directory are left
behind, and directories that were made for what is below them have no row yet; with these the
state is `Resumable`, and not `Mergeable`.  And a task must do nothing by halves: what a task has
uploaded without a row of it would be a conflict.
-/

namespace OwncloudSync

open PathTree ThreeWay

variable {κ : EngineConfig} {ε : Env} {σ s : State} {π : Schedule σ} {B : TreeView} {p : Path}
  {t : Item}

/-- A run has begun in the one state and was cut short between two tasks, leaving the other.  The
statuses are not kept. -/
def CutShort (σ s : State) : Prop :=
  ∃ (κ : EngineConfig) (ε : Env) (ω : Calls) (π : Schedule σ) (pre : List Item) (sync : SyncState),
    Honest ε ∧ ω.Journaled ∧ pre <+: ω.tasks κ ε π ∧ NothingByHalves (ω.exec κ ε) pre σ.started ∧
      s = { ω.stateAfter κ ε σ pre with sync := sync }

/-- Between plain names, with a journal that works, such a run is one of `exec`. -/
lemma CutShort.plain (hcut : CutShort σ s) (hplain : σ.Plain) :
    ∃ (κ : EngineConfig) (ε : Env) (π : Schedule σ) (pre : List Item) (sync : SyncState),
      Honest ε ∧ (∀ u ∈ pre, u ∈ tasks κ ε π) ∧ NothingByHalves (exec κ ε) pre σ.started ∧
        s = { stateAfter κ ε σ pre with sync := sync } := by
  obtain ⟨κ, ε, ω, π, pre, sync, hε, hω, hpre, hok, rfl⟩ := hcut
  have hexec : ∀ u ∈ pre, ω.exec κ ε u = exec κ ε u := fun u hu =>
    Calls.exec_eq (Calls.served_of_plain hplain u (hpre.subset hu)) (hω.written u.path)
  refine ⟨κ, ε, π, pre, sync, hε, fun u hu => ?_, fun before t after hsplit => ?_, ?_⟩
  · rw [← Calls.tasks_eq hω.read]
    exact hpre.subset hu
  · have hbefore : TaskRun.run (ω.exec κ ε) before σ.started =
        TaskRun.run (exec κ ε) before σ.started :=
      TaskRun.run_congr (fun u hu => hexec u (by rw [hsplit]; simp [hu])) _
    have hstep := hok before t after hsplit
    rw [hbefore, hexec t (by rw [hsplit]; simp)] at hstep
    exact hstep
  · rw [Calls.stateAfter, TaskRun.run_congr hexec]
    rfl

/-! ## The next base -/

/-- What the two sides have in common, and the old base elsewhere. -/
def nextBase (B : TreeView) (s : State) : TreeView := fun p =>
  if s.diskView p = s.spaceView p then s.diskView p else B p

section Halfway

variable (h : Resumable B σ) (hσ : Tidy σ) (hhalf : ∀ p, Halfway B σ s p)

include h in
lemma Resumable.nextBase_untouched (hu : Untouched σ s p) : nextBase B s p = B p := by
  unfold nextBase
  split
  · rename_i hview
    rcases h.oneSided p with hc | hc
    · exact hu.diskView.trans hc
    · exact hview.trans (hu.spaceView.trans hc.1)
  · rfl

lemma LeavesMerge.nextBase (hl : LeavesMerge B σ s p) : nextBase B s p = merged B σ p := by
  unfold OwncloudSync.nextBase
  rw [if_pos (hl.here.trans hl.there.1.symm)]
  exact hl.here

lemma remoteUnchanged_congr {B' : TreeView} (h : B' p = B p) :
    s.RemoteUnchanged B' p ↔ s.RemoteUnchanged B p := by
  unfold State.RemoteUnchanged
  rw [h]

include h hhalf in
/-- **What is halfway can be merged again.** -/
theorem Resumable.next : Resumable (nextBase B s) s where
  rows p hne hp := by
    rcases hhalf p with hu | hl
    · rw [h.nextBase_untouched hu, records_congr hu.row, hu.unrecorded]
      exact h.rows p hne (hu.present.mp hp)
    · rw [hl.nextBase]
      exact hl.row hne hp
  sizes p a c ha hc hlen := by
    rcases hhalf p with hu | hl
    · rw [h.nextBase_untouched hu] at hc
      exact h.sizes p a c (hu.disk.symm.trans ha) hc hlen
    · rw [hl.nextBase, ← hl.here, diskView_of_file ha, Option.some.injEq, Node.file.injEq] at hc
      exact hc
  etags p r c hr hc hrow := by
    rcases hhalf p with hu | hl
    · rw [h.nextBase_untouched hu] at hc
      exact h.etags p r c (hu.space.symm.trans hr) hc ((baseline_congr hu.row).symm.trans hrow)
    · rw [hl.nextBase, ← hl.there.1, spaceView_of_file hr, Option.some.injEq,
        Node.file.injEq] at hc
      exact hc
  oneSided p := by
    rcases hhalf p with hu | hl
    · have hb := h.nextBase_untouched hu
      rw [remoteUnchanged_congr hb, hu.remoteUnchanged, hb, hu.diskView]
      exact h.oneSided p
    · exact Or.inl (hl.here.trans hl.nextBase.symm)
  removedHere d p hbelow hd hgone hp := by
    rcases hhalf d with hud | hld
    · rw [h.nextBase_untouched hud] at hd
      rw [hud.disk] at hgone
      rcases hhalf p with hu | hl
      · rw [h.nextBase_untouched hu] at hp
        exact hu.space.trans (h.removedHere d p hbelow hd hgone hp)
      · exact spaceView_eq_none.mp (hl.there.1.trans (hl.nextBase.symm.trans hp))
    · exact absurd (hld.nextBase.trans (hld.here.symm.trans (diskView_eq_none.mpr hgone))) hd
  removedThere d p hbelow hd hgone hp := by
    rcases hhalf d with hud | hld
    · rw [h.nextBase_untouched hud] at hd
      rw [hud.space] at hgone
      rcases hhalf p with hu | hl
      · rw [h.nextBase_untouched hu] at hp
        exact hu.disk.trans (h.removedThere d p hbelow hd hgone hp)
      · exact diskView_eq_none.mp (hl.here.trans (hl.nextBase.symm.trans hp))
    · exact absurd (hld.nextBase.trans (hld.there.1.symm.trans (spaceView_eq_none.mpr hgone))) hd

include h hhalf in
/-- And to the same merge. -/
theorem Resumable.merged_next : merged (nextBase B s) s = merged B σ := by
  funext p
  rcases hhalf p with hu | hl
  · show merge (nextBase B s) s.diskView s.spaceView p = merge B σ.diskView σ.spaceView p
    simp only [merge, h.nextBase_untouched hu, hu.diskView, hu.spaceView]
  · exact merge_of_eq hl.here hl.there.1

include hhalf in
/-- Nothing comes to a path that was on neither side. -/
lemma present_of_halfway (hp : s.Present p) : σ.Present p := by
  rcases hhalf p with hu | hl
  · exact hu.present.mp hp
  · by_contra hc
    have hV : merged B σ p = none :=
      merge_of_eq (diskView_eq_none.mpr (disk_of_gone hc)) (spaceView_eq_none.mpr (space_of_gone hc))
    rcases hp with hp | hp
    · exact hp (diskView_eq_none.mp (hl.here.trans hV))
    · exact hp (spaceView_eq_none.mp (hl.there.1.trans hV))

include hhalf in
lemma State.Plain.halfway (hplain : σ.Plain) : s.Plain :=
  fun p hp => hplain p (present_of_halfway hhalf hp)

include hσ hhalf in
lemma Tidy.halfway : Tidy s where
  fileLocal p a ha hs := by
    rcases hhalf p with hu | hl
    · exact hσ.fileLocal p a (hu.disk.symm.trans ha) (hu.space.symm.trans hs)
    · have hview := hl.here.trans hl.there.1.symm
      rw [diskView_of_file ha, spaceView_of_dir hs] at hview
      cases hview
  fileRemote p r hr hd := by
    rcases hhalf p with hu | hl
    · exact hσ.fileRemote p r (hu.space.symm.trans hr) (hu.disk.symm.trans hd)
    · have hview := hl.here.trans hl.there.1.symm
      rw [diskView_of_dir hd, spaceView_of_file hr] at hview
      cases hview
  names n p hp := hσ.names n p (present_of_halfway hhalf hp)

end Halfway

/-! ## An outage -/

/-- The server cannot be reached for the path: every request fails, and is not carried out. -/
def Unreachable (ε : Env) (p : Path) : Prop :=
  ∀ op, op ∈ [Op.mkcol, .delete, .get, .put, .tusCreate] →
    ∃ e n, ε.fails op p = some ⟨e, false, fun _ => false, n⟩

section Outage

variable (hout : Unreachable ε p)

include hout in
lemma mkdirRemote_unreachable (sp : Space) :
    ∃ e, mkdirRemote (ε.fails .mkcol p) p sp = (.error e, sp) := by
  obtain ⟨e, n, hf⟩ := hout .mkcol (by simp)
  exact ⟨e, by simp [mkdirRemote, hf]⟩

include hout in
lemma deleteRemote_unreachable (sp : Space) : ∃ e sp', deleteRemote ε p sp = (.error e, sp') ∧
    ∀ q, sp'.get q = sp.get q := by
  obtain ⟨e, n, hf⟩ := hout .delete (by simp)
  refine ⟨e, sp.prune (fun a => decide (p <:+ a) && false), by simp only [deleteRemote, hf],
    fun q => ?_⟩
  rw [Tree.prune_get, if_neg]
  intro hc
  obtain ⟨a, -, -, ha⟩ := Tree.covered_iff.mp hc
  simp at ha

include hout in
lemma propagateUpload_unreachable (z : UInt64) (d : Disk) (sp : Space) :
    ∃ e, propagateUpload κ ε p z d sp = (.error e, sp) := by
  obtain ⟨e, n, hf⟩ := hout .put (by simp)
  obtain ⟨e', n', hf'⟩ := hout .tusCreate (by simp)
  unfold propagateUpload
  split
  · exact ⟨e', by simp only [uploadTus, hf']⟩
  · unfold uploadPut
    split
    · exact ⟨e, by simp [hf, putOnce]⟩
    · exact ⟨_, rfl⟩
    · exact ⟨_, rfl⟩
    · exact ⟨_, rfl⟩

include hout in
lemma propagateDownload_unreachable (d : Disk) (sp : Space) :
    ∃ e, propagateDownload ε p sp d = (.error e, d) := by
  obtain ⟨e, n, hf⟩ := hout .get (by simp)
  exact ⟨e, by simp only [propagateDownload, hf]⟩

end Outage

/-- **A task that has to reach the server does nothing in an outage.** -/
theorem untouched_of_unreachable (hout : Unreachable ε t.path)
    (hi : t.instr = .upload ∨ t.instr = .deleteRemote ∨ t.instr = .download ∧ t.isDir = false)
    (p : Path) : Untouched s (exec κ ε t s).1 p := by
  rcases hi with hi | hi | ⟨hi, hd⟩
  · cases hd : t.isDir with
    | true =>
        obtain ⟨e, he⟩ := mkdirRemote_unreachable hout s.space
        simp only [exec, hd, if_true, execDir, hi, he]
        exact ⟨rfl, rfl, rfl⟩
    | false =>
        obtain ⟨e, he⟩ := propagateUpload_unreachable (κ := κ) hout
          (metadataLen ε t.path s.disk) s.disk s.space
        simp only [exec, hd, Bool.false_eq_true, if_false, execFile, hi, he]
        exact ⟨rfl, rfl, rfl⟩
  · obtain ⟨e, sp, he, hsame⟩ := deleteRemote_unreachable hout s.space
    cases hd : t.isDir with
    | true =>
        simp only [exec, hd, if_true, execDir, hi, he]
        exact ⟨rfl, hsame p, rfl⟩
    | false =>
        simp only [exec, hd, Bool.false_eq_true, if_false, execFile, hi, he]
        exact ⟨rfl, hsame p, rfl⟩
  · obtain ⟨e, he⟩ := propagateDownload_unreachable hout s.disk s.space
    simp only [exec, hd, Bool.false_eq_true, if_false, execFile, hi, downloadAndRecord, he]
    exact ⟨rfl, rfl, rfl⟩

/-- A run all of whose errors are of tasks that could not reach the server counts as cut short. -/
lemma CutShort.of_outage {ω : Calls} (hplain : σ.Plain) (hdisc : ε.discovery = none) (hε : Honest ε)
    (hω : ω.Journaled)
    (hall : ∀ pre t post, ω.tasks κ ε π = pre ++ t :: post →
      (ω.exec κ ε t (ω.stateAfter κ ε σ pre)).2 = none ∨ Unreachable ε t.path ∧
        (t.instr = .upload ∨ t.instr = .deleteRemote ∨ t.instr = .download ∧ t.isDir = false)) :
    CutShort σ (ω.runSync κ ε π).2 := by
  refine ⟨κ, ε, ω, π, ω.tasks κ ε π, (ω.runSync κ ε π).2.sync, hε, hω, List.prefix_rfl,
    fun pre t post hsplit => ?_, ?_⟩
  · rcases hall pre t post hsplit with hdone | ⟨hout, hi⟩
    · exact Or.inl hdone
    · have ht : t ∈ ω.tasks κ ε π := mem_of_split hsplit
      rw [Calls.exec_eq (Calls.served_of_plain hplain t ht) (hω.written t.path)]
      exact Or.inr (untouched_of_unreachable hout hi)
  · unfold Calls.runSync
    rw [hdisc]

/-! ## The run that comes to its end -/

lemma CutShort.next (hcut : CutShort σ s) (hσ : Tidy σ) (hplain : σ.Plain) (h : Resumable B σ) :
    Tidy s ∧ s.Plain ∧ ∃ B', Resumable B' s ∧ merged B' s = merged B σ := by
  obtain ⟨κ, ε, π, pre, sync, hε, hpre, hok, rfl⟩ := hcut.plain hplain
  have hhalf : ∀ p, Halfway B σ { stateAfter κ ε σ pre with sync := sync } p := by
    intro p
    exact (h.halfway hσ hε hpre hok p).keep ⟨rfl, rfl, rfl⟩
  exact ⟨hσ.halfway hhalf, hplain.halfway hhalf, _, h.next hhalf, h.merged_next hhalf⟩

/-- However many runs are cut short, the merge to be made stays the same. -/
lemma Resumable.resumed (h : Resumable B σ) (hσ : Tidy σ) (hplain : σ.Plain)
    (hcut : Relation.ReflTransGen CutShort σ s) :
    Tidy s ∧ s.Plain ∧ ∃ B', Resumable B' s ∧ merged B' s = merged B σ := by
  refine Runs.invariant
    (I := fun s => Tidy s ∧ s.Plain ∧ ∃ B', Resumable B' s ∧ merged B' s = merged B σ)
    (fun s s' hs hstep => ?_) ⟨hσ, hplain, B, h, rfl⟩ hcut
  obtain ⟨htidy, hsplain, B', hres, hV⟩ := hs
  obtain ⟨htidy', hsplain', B'', hres', hV'⟩ := hstep.next htidy hsplain hres
  exact ⟨htidy', hsplain', B'', hres', hV'.trans hV⟩

/-- **Interrupted runs do not matter.**  However many runs have been cut short, a run without
faults now reports no error, and a run without errors leaves on both sides what it would have left
before them all; the next run starts from there.  A run that meets an outage is cut short too. -/
theorem resumedRun (B : TreeView) {σ s : State} (hσ : Tidy σ) (hplain : σ.Plain)
    (h : Resumable B σ) (hcut : Relation.ReflTransGen CutShort σ s) :
    (∀ κ ε (ω : Calls) (π : Schedule s), Faultless ε → (∀ p, ω.unread p = false) →
      ParentFirst π → ω.ErrorFree κ ε π) ∧
    (∀ κ ε (ω : Calls) (π : Schedule s), Honest ε → ω.Journaled → ω.ErrorFree κ ε π →
      (∀ p, (ω.runSync κ ε π).2.diskView p = merged B σ p ∧
        (ω.runSync κ ε π).2.spaceView p = merged B σ p) ∧
      Resumable (merged B σ) (ω.runSync κ ε π).2) ∧
    ∀ κ ε (ω : Calls) (π : Schedule s), Honest ε → ω.Journaled → ε.discovery = none →
      (∀ pre t post, ω.tasks κ ε π = pre ++ t :: post →
        (ω.exec κ ε t (ω.stateAfter κ ε s pre)).2 = none ∨ Unreachable ε t.path ∧
          (t.instr = .upload ∨ t.instr = .deleteRemote ∨ t.instr = .download ∧ t.isDir = false)) →
      CutShort s (ω.runSync κ ε π).2 := by
  obtain ⟨htidy, hsplain, B', hres, hV⟩ := h.resumed hσ hplain hcut
  refine ⟨fun κ ε ω π hε hread hfirst => ?_, fun κ ε ω π hε hω hrun => ?_,
    fun κ ε ω π hε hω hdisc hall => .of_outage hsplain hdisc hε hω hall⟩
  · exact (Calls.errorFree_of_plain hsplain hread).mpr (hres.errorFree htidy hfirst hε)
  · rw [Calls.errorFree_of_plain hsplain hω.read] at hrun
    rw [Calls.runSync_of_plain hsplain hω]
    have hleaves : ∀ p, LeavesMerge B' s (runSync κ ε π).2 p := hres.mergedAt htidy hε hrun
    rw [← hV]
    refine ⟨fun p => ⟨(hleaves p).here, (hleaves p).there.1⟩, ?_⟩
    have hbase : nextBase B' (runSync κ ε π).2 = merged B' s :=
      funext (fun p => (hleaves p).nextBase)
    rw [← hbase]
    exact hres.next (fun p => Or.inr (hleaves p))

/-- The theorem where the run of `oneChangeEach` has stopped after its first task. -/
theorem resumedRun_oneChangeEach : ∃ s, CutShort oneChangeEach s ∧ ∃ π : Schedule s,
    Calls.sound.ErrorFree ⟨.keepBoth, 5000000⟩ Env.calm π ∧
      (Calls.sound.runSync ⟨.keepBoth, 5000000⟩ Env.calm π).2.spaceView ["m.txt".toList] =
        some (Node.file ⟨[30, 31], by decide⟩) ∧
      (Calls.sound.runSync ⟨.keepBoth, 5000000⟩ Env.calm π).2.diskView ["k.txt".toList] = none := by
  let first := (Calls.sound.tasks ⟨.keepBoth, 5000000⟩ Env.calm oneChangeEachSchedule).take 1
  let s : State := { Calls.sound.stateAfter ⟨.keepBoth, 5000000⟩ Env.calm oneChangeEach first with
    sync := oneChangeEach.sync }
  have hok : (TaskRun.run (Calls.sound.exec ⟨.keepBoth, 5000000⟩ Env.calm) first
      oneChangeEach.started).2 = [] := by decide
  have hcut : CutShort oneChangeEach s :=
    ⟨_, _, .sound, oneChangeEachSchedule, first, _, calm_honest, Calls.sound_journaled,
      List.take_prefix _ _, fun _ _ _ hsplit => Or.inl (TaskRun.run_ok_at hok hsplit), rfl⟩
  obtain ⟨π, hfirst⟩ := ParentFirst.exists s
  obtain ⟨hfree, hmerge, -⟩ := resumedRun beforeChanges oneChangeEach_tidy oneChangeEach_plain
    oneChangeEach_mergeable.toResumable (.single hcut)
  have hrun := hfree ⟨.keepBoth, 5000000⟩ Env.calm .sound π ⟨rfl, fun _ _ => rfl⟩ (fun _ => rfl)
    hfirst
  have hviews := (hmerge _ _ .sound π calm_honest Calls.sound_journaled hrun).1
  refine ⟨s, hcut, π, hrun, (hviews _).2.trans ?_, (hviews _).1.trans ?_⟩
  · exact merged_of_remote rfl
  · exact merged_of_local rfl

end OwncloudSync
