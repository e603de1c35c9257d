import OwncloudSync.Engine.Calls
import OwncloudSync.Engine.Faults
import Mathlib.Tactic.Common

/-!
# What the next run makes of a failed one

A failed task leaves its journal row as it was, and a path with a row that is on one side only is
deleted by the next run.  So a failure is harmless as long as **a path with a baseline stays on
both sides** (`BothOrNew`), and that is what every task but two keeps:

* a Conflict task moves the local file away before its download can fail;
* a download takes the local file at its temp name.

A third way is a row that cannot be read: its path is taken for new, and if its transfer then fails,
the row is still there for the next run.

`RetryIsSafe` is the property for one state and one set of rows that cannot be read, over all runs
with all failures; `RowsOutliveFailures` excludes exactly those three.  Behind it stands the same for
a journal that works (`SafeToRetry`, `RowsOutlive`).
-/

namespace OwncloudSync

open PathTree

variable {κ : EngineConfig} {ε : Env} {σ : State} {π : Schedule σ} {q x : Path}

/-- Whatever fails in a run from `st`, the next run deletes no file that this one did not. -/
def SafeToRetry (κ : EngineConfig) (σ : State) : Prop :=
  ∀ ε ε' (π : Schedule σ) q, KeptFile κ ε σ q →
    (instruction κ ε' (runSync κ ε π).2 q).isDelete = false

/-- The same of the runs that cannot read the rows in `unread`, whatever else fails in them. -/
def RetryIsSafe (κ : EngineConfig) (unread : Path → Bool) (σ : State) : Prop :=
  ∀ ω : Calls, ω.unread = unread → ∀ ε ε' (π : Schedule σ) q, KeptFile κ ε (σ.seen unread) q →
    (instruction κ ε' (ω.runSync κ ε π).2 q).isDelete = false

/-- The run can make the local directories above `p`: no local file stands there, but one that
its own conflict sets aside. -/
def Unblocked (κ : EngineConfig) (ε : Env) (σ : State) (p : Path) : Prop :=
  ∀ b x, b <:+ p.tail → σ.disk.get b = some (Node.file x) →
    instruction κ ε σ b = .conflict

/-- No synced file is in conflict, and the temp name of a file that can be fetched is not the path of
a file that is kept, unless that file has no baseline and will get none: because it is the fetched
file itself, or because the server has a directory in its place. -/
structure RowsOutlive (κ : EngineConfig) (σ : State) : Prop where
  conflict : ∀ ε q, KeptFile κ ε σ q → instruction κ ε σ q = .conflict →
    σ.journal.baseline q = none
  temp : ∀ ε p r, (itemOf κ ε σ p).fetches → σ.space.get p = some (Node.file r) →
    Unblocked κ ε σ p → KeptFile κ ε σ (tmpPath p) →
    σ.journal.baseline (tmpPath p) = none ∧
      (tmpPath p ≠ p → σ.space.get (tmpPath p) = some Node.dir)

/-- The condition: a file that is kept although its row cannot be read has no baseline, and the rest
holds of the rows that can. -/
structure RowsOutliveFailures (κ : EngineConfig) (unread : Path → Bool) (σ : State) : Prop where
  lost : ∀ ε q, KeptFile κ ε (σ.seen unread) q → unread q = true → σ.journal.baseline q = none
  seen : RowsOutlive κ (σ.seen unread)

/-- A path with a baseline is on both sides. -/
def BothOrNew (q : Path) (s : State) : Prop :=
  s.journal.baseline q ≠ none → s.disk.get q ≠ none ∧ s.space.get q ≠ none

lemma KeptFile.bothOrNew (h : KeptFile κ ε σ q) : BothOrNew q σ :=
  fun hb => both_of_not_delete h.present h.kept hb

lemma bothOrNew_not_delete {s : State} (h : BothOrNew q s) :
    (instruction κ ε s q).isDelete = false := by
  rw [← Bool.not_eq_true, instruction_isDelete_iff]
  rintro (⟨-, hs, hb⟩ | ⟨hd, -, hb⟩)
  · exact (h hb).2 hs
  · exact (h hb).1 hd

/-- An item that handles `q` as a file and does not delete it transfers it. -/
lemma KeptFile.transfers (h : KeptFile κ ε σ q)
    (hi : instruction κ ε σ q ≠ .ignore) : instruction κ ε σ q = .upload ∨
      instruction κ ε σ q = .download ∨ instruction κ ε σ q = .conflict := by
  have hrange : instruction κ ε σ q ∈
      [SyncInstruction.upload, .download, .deleteLocal, .deleteRemote, .conflict, .ignore] :=
    reconcile_range
  have hkept := h.kept
  simp only [List.mem_cons, List.not_mem_nil, or_false] at hrange
  rcases hrange with hi' | hi' | hi' | hi' | hi' | hi'
  · exact Or.inl hi'
  · exact Or.inr (Or.inl hi')
  · rw [hi'] at hkept; cases hkept
  · rw [hi'] at hkept; cases hkept
  · exact Or.inr (Or.inr hi')
  · exact absurd hi' hi

/-! ## The condition is sufficient -/

/-- Nothing blocks a path whose temp file, or which itself, is on the disk. -/
lemma unblocked_of_present {p : Path} (hx : x ∈ [p, tmpPath p]) (h : σ.disk.get x ≠ none) :
    Unblocked κ ε σ p := by
  intro b y hb hy
  have htail : x.tail = p.tail := by
    rcases List.mem_pair.mp hx with rfl | rfl
    · rfl
    · exact tmpPath_tail
  have hne : x ≠ [] := by
    rintro rfl
    rw [← htail, List.tail_nil, List.suffix_nil] at hb
    rw [hb, σ.disk.root] at hy
    cases hy
  rw [← htail] at hb
  obtain ⟨hbx, hbne⟩ := above_of_suffix_tail hne hb
  rw [σ.disk.dir_of_below hbx hbne h] at hy
  cases hy

/-- A synced local file against a remote directory stays where it is, unless it is in
conflict. -/
lemma blocking_file_stays (hc : RowsOutlive κ σ) {b : Path} {x : LocalFile}
    (hb : σ.disk.get b = some (Node.file x)) (hs : σ.space.get b = some Node.dir)
    (hi : instruction κ ε σ b ≠ .conflict) {pre post : List Item}
    (hsplit : tasks κ ε π = pre ++ post) :
    ∃ y, (stateAfter κ ε σ pre).disk.get b = some (Node.file y) := by
  have hpd : σ.disk.get b ≠ none := by rw [hb]; simp
  have hps : σ.space.get b ≠ none := by rw [hs]; simp
  have hbase : σ.journal.baseline b ≠ none := fun hn => hi (instruction_unknown hpd hps hn)
  have hk : KeptFile κ ε σ b := by
    refine ⟨?_, Or.inl hpd, isDirPath_eq_false.mpr ⟨by rw [hb]; simp, fun h => absurd h hpd⟩, ?_⟩
    · rintro rfl; rw [σ.disk.root] at hb; cases hb
    · rw [← Bool.not_eq_true, instruction_isDelete_iff]
      rintro (⟨-, h, -⟩ | ⟨h, -⟩)
      · exact hps h
      · exact hpd h
  refine TaskRun.run_invariant_at (s := σ.started)
    (I := fun s : State => ∃ y, s.disk.get b = some (Node.file y)) ⟨x, hb⟩ ?_
  rintro pre' post' t ht ⟨y, hy⟩
  have hsplit' : tasks κ ε π = pre' ++ t :: (post' ++ post) := by
    rw [hsplit, ht, List.append_assoc, List.cons_append]
  obtain ⟨-, hinstr, -, -⟩ := item_of_mem (mem_of_split hsplit')
  have hstay : (exec κ ε t (stateAfter κ ε σ pre')).1.disk.get b ≠ none := by
    intro hnone
    rcases exec_disk_removed (by rw [stateAfter, hy]; simp) hnone with
      ⟨hdel, hbelow, -⟩ | ⟨hf, ⟨r, hr⟩, htmp⟩ | ⟨-, hconf, hp⟩
    · have hgone := instruction_deleteLocal_iff.mp (hinstr.symm.trans hdel)
      exact hps (σ.space.none_of_below hbelow hgone.2.1)
    · obtain ⟨hf', hr'⟩ := fetched_initially hsplit' hf hr
      refine hbase ?_
      rw [htmp]
      exact (hc.temp ε t.path r hf' hr'
        (unblocked_of_present (by simp) (htmp ▸ hpd)) (htmp ▸ hk)).1
    · exact hi (hp ▸ hinstr.symm.trans hconf)
  cases hend : (exec κ ε t (stateAfter κ ε σ pre')).1.disk.get b with
  | none => exact absurd hend hstay
  | some z =>
      cases z with
      | dir =>
          rcases exec_disk_newDir hend with h | ⟨h, -⟩ | ⟨h, -⟩
          · exact absurd (h.symm.trans hy) (by simp)
          · exact absurd (h.symm.trans hy) (by simp)
          · exact absurd (h.symm.trans hy) (by simp)
      | file z => exact ⟨z, hend⟩

/-- The path's own task, succeeding or failing. -/
lemma bothOrNew_own (hc : RowsOutlive κ σ) (hk : KeptFile κ ε σ q)
    {pre post : List Item} {t : Item} (hsplit : tasks κ ε π = pre ++ t :: post)
    (hq : t.path = q) (hs : BothOrNew q (stateAfter κ ε σ pre)) :
    BothOrNew q (exec κ ε t (stateAfter κ ε σ pre)).1 := by
  subst hq
  have ht := mem_of_split hsplit
  obtain ⟨hne, hinstr, hdir, -⟩ := item_of_mem ht
  have hfile : t.isDir = false := hdir.trans hk.file
  have hcases := hk.transfers (hinstr ▸ (mem_tasks.mp ht).2.2)
  rw [← hinstr] at hcases
  cases hres : (exec κ ε t (stateAfter κ ε σ pre)).2 with
  | none =>
      -- a transfer that succeeded leaves a file on both sides
      intro _
      rcases hcases with hi | hi | hi
      · obtain ⟨a, ha, hd, hsp, -⟩ := exec_fileUpload_ok hfile hi hres
        rw [hd, ha, hsp]
        simp
      · obtain ⟨r, hr, hsp, hd, -⟩ := exec_fileDownload_ok hfile hi hres
        rw [hd, hsp, hr]
        simp
      · obtain ⟨a, r, -, hr, hsp, hd, -⟩ := exec_fileConflict_ok hfile hi hres
        rw [hd, hsp, hr]
        simp
  | some e =>
      have hj := exec_journal_error (κ := κ) (ε := ε) (t := t)
        (σ := stateAfter κ ε σ pre) (by rw [hres]; simp)
      have hinit : σ.journal.baseline t.path = (stateAfter κ ε σ pre).journal.baseline
          t.path := baseline_congr (journal_before (fun u hu => path_ne_of_before hsplit hu)).symm
      intro hb
      rw [hj] at hb
      obtain ⟨hpd, hps⟩ := hs hb
      constructor
      · intro hnone
        rcases exec_disk_removed hpd hnone with ⟨hi, -⟩ | ⟨hf, ⟨r, hr⟩, htmp⟩ | ⟨-, hi, -⟩
        · rcases hcases with h | h | h <;> rw [hi] at h <;> cases h
        · obtain ⟨hf', hr'⟩ := fetched_initially hsplit hf hr
          have hpres := (hk.bothOrNew (by rw [hinit]; exact hb)).1
          have hnb := (hc.temp ε t.path r hf' hr'
            (unblocked_of_present (x := t.path) (by simp) hpres) (htmp ▸ hk)).1
          rw [← htmp, hinit] at hnb
          exact hb hnb
        · exact hb (hinit ▸ hc.conflict ε t.path hk (hinstr.symm.trans hi))
      · intro hnone
        have hi := (exec_space_removed hps hnone).1
        rcases hcases with h | h | h <;> rw [hi] at h <;> cases h

/-- The task of any other path. -/
lemma bothOrNew_other (hc : RowsOutlive κ σ) (hk : KeptFile κ ε σ q)
    {pre post : List Item} {t : Item} (hsplit : tasks κ ε π = pre ++ t :: post)
    (hq : t.path ≠ q) (hs : BothOrNew q (stateAfter κ ε σ pre)) :
    BothOrNew q (exec κ ε t (stateAfter κ ε σ pre)).1 := by
  have ht := mem_of_split hsplit
  obtain ⟨hne, hinstr, hdir, -⟩ := item_of_mem ht
  intro hb
  rw [baseline_congr (exec_journal (Ne.symm hq))] at hb
  obtain ⟨hpd, hps⟩ := hs hb
  -- directory instructions run before the path's own task can have written a row
  have hdirs : t.isDir = true → σ.journal.baseline q ≠ none := by
    intro hd
    have hj : (stateAfter κ ε σ pre).journal q = σ.journal q := by
      refine journal_before (fun u hu hc => ?_)
      have hud := isDir_of_before hsplit hd u hu
      rw [(item_of_mem (mem_of_pre hsplit u hu)).2.2.1, hc, hk.file] at hud
      cases hud
    rwa [baseline_congr hj] at hb
  constructor
  · intro hnone
    rcases exec_disk_removed hpd hnone with ⟨hi, hbelow, hown⟩ | ⟨hf, ⟨r, hr⟩, htmp⟩ | ⟨-, -, hp⟩
    · cases hd : t.isDir with
      | false => exact hq (hown hd).symm
      | true =>
          have hgone := instruction_deleteLocal_iff.mp (hinstr.symm.trans hi)
          exact (hk.bothOrNew (hdirs hd)).2 (σ.space.none_of_below hbelow hgone.2.1)
    · obtain ⟨hf', hr'⟩ := fetched_initially hsplit hf hr
      -- the temp file is there now, so no local file has been blocking its directory
      have hub : Unblocked κ ε σ t.path := by
        intro b y hbp hy
        by_contra hi
        obtain ⟨hbt, hbne⟩ := above_of_suffix_tail hne hbp
        have hsb := σ.space.dir_of_below hbt hbne (by rw [hr']; simp)
        obtain ⟨z, hz⟩ := blocking_file_stays (π := π) hc hy hsb hi hsplit
        rw [← tmpPath_tail, ← htmp] at hbp
        obtain ⟨hbq, hbqne⟩ := above_of_suffix_tail hk.ne hbp
        rw [(stateAfter κ ε σ pre).disk.dir_of_below hbq hbqne hpd] at hz
        cases hz
      obtain ⟨hnb, hsd⟩ := hc.temp ε t.path r hf' hr' hub (htmp ▸ hk)
      have hdirq := hsd (fun h => hq (h.symm.trans htmp.symm))
      rw [← htmp] at hnb hdirq
      -- the path is a local file against a remote directory: its own fetch writes no row
      have hdq : σ.disk.get q ≠ none := fun hn =>
        (isDirPath_eq_false.mp hk.file).2 hn hdirq
      have hconf : instruction κ ε σ q = .conflict :=
        instruction_unknown hdq (by rw [hdirq]; simp) hnb
      have hj := journal_unserved hsplit (q := q) ⟨hk.file, Or.inr hconf⟩
        (fun r => by rw [hdirq]; simp)
      exact hb ((baseline_congr hj).trans hnb)
    · exact hq hp.symm
  · intro hnone
    obtain ⟨hi, hbelow⟩ := exec_space_removed hps hnone
    have hgone := instruction_deleteRemote_iff.mp (hinstr.symm.trans hi)
    have hdq := σ.disk.none_of_below hbelow hgone.1
    cases hd : t.isDir with
    | true => exact (hk.bothOrNew (hdirs hd)).1 hdq
    | false =>
        have hsq : σ.space.get q ≠ none := hk.present.resolve_left (fun h => h hdq)
        have hdirt := σ.space.dir_of_below hbelow hq hsq
        rw [hdir, ← Bool.not_eq_true, isDir_of_goneLocally hgone] at hd
        exact hd hdirt

/-- Every run keeps a kept file on both sides once it has a baseline. -/
lemma bothOrNew_run (hc : RowsOutlive κ σ) (hk : KeptFile κ ε σ q) :
    BothOrNew q (runSync κ ε π).2 := by
  cases hdisc : ε.discovery with
  | some e =>
      rw [runSync_undiscovered hdisc]
      exact hk.bothOrNew
  | none =>
      obtain ⟨hd, hs, hj⟩ := runSync_discovery (κ := κ) (π := π) hdisc
      have hrun : BothOrNew q (propagated κ ε π).1 := by
        refine TaskRun.run_invariant_at (s := σ.started) hk.bothOrNew ?_
        intro pre post t hsplit hI
        by_cases hq : t.path = q
        · exact bothOrNew_own hc hk hsplit hq hI
        · exact bothOrNew_other hc hk hsplit hq hI
      unfold BothOrNew at hrun ⊢
      rwa [hd, hs, hj]

/-! ## The condition is necessary -/

/-- A run that ends with a synced path on the server only shows that the next one deletes it. -/
lemma not_gone_after {s : State} (h : SafeToRetry κ σ) (hk : KeptFile κ ε σ q)
    (hend : SameFiles s (runSync κ ε π).2) (hgone : s.GoneLocally q) : False := by
  have hgone' : (runSync κ ε π).2.GoneLocally q := by
    unfold State.GoneLocally at hgone ⊢
    rwa [hend.disk, hend.space, hend.journal]
  have hno := h ε ε π q hk
  rw [instruction_isDelete_iff.mpr (Or.inr hgone')] at hno
  cases hno

/-- A conflict whose download fails leaves the path on the server only. -/
lemma exec_conflict_stuck {t : Item} {s : State} {f : Failure} (hne : t.path ≠ [])
    (hfile : t.isDir = false) (hi : t.instr = .conflict)
    (hok : ε.fails .setAside t.path = none) (hget : ε.fails .get t.path = some f)
    {a : LocalFile} (ha : s.disk.get t.path = some (Node.file a))
    (hfree : s.disk.get (conflictPath t.path (ε.clock t.path)) = none) :
    (exec κ ε t s).1.disk.get t.path = none ∧ (exec κ ε t s).1.space = s.space ∧
      (exec κ ε t s).1.journal = s.journal := by
  have hren : ∃ d, s.disk.rename? t.path (conflictPath t.path (ε.clock t.path)) =
      some d := by
    cases hpath : t.path with
    | nil => exact absurd hpath hne
    | cons n p =>
        rw [hpath] at ha hfree
        refine Tree.rename?_isSome ha (s.disk.closed n p (by rw [ha]; simp)) ?_
        rw [← conflictPath, hfree]
        simp
  obtain ⟨d, hren⟩ := hren
  have hd : d.get t.path = none := by
    obtain ⟨_, -, ⟨hcp, -⟩ | ⟨-, -, hg⟩⟩ := Tree.rename?_eq_some hren
    · exact absurd hcp.symm (conflictPath_ne hne)
    · rw [hg, if_pos rfl]
  simp only [exec, hfile, Bool.false_eq_true, if_false, execFile, hi, hok, hren,
    downloadAndRecord, propagateDownload, hget]
  exact ⟨hd, rfl, rfl⟩

/-- A file in conflict whose download fails is on the server only, and its row is as it was. -/
lemma conflict_moves_away (hk : KeptFile κ ε σ q) (hi : instruction κ ε σ q = .conflict) :
    ∃ (ε' : Env) (π : Schedule σ), KeptFile κ ε' σ q ∧ (runSync κ ε' π).2.disk.get q = none ∧
      (runSync κ ε' π).2.space.get q ≠ none ∧ (runSync κ ε' π).2.journal = σ.journal := by
  obtain ⟨π⟩ := Schedule.exists σ
  obtain ⟨hd, hs⟩ := instruction_conflict hi
  obtain ⟨a, ha⟩ := exists_localFile hk.file hd
  obtain ⟨ts, hts, -⟩ := exists_clock σ.disk [] hk.ne
  let live : Op → Path → Bool := fun op x => op == .setAside && x == q
  let ε' := ({ ε with clock := fun _ => ts } : Env).only live
  have hi' : instruction κ ε' σ q = .conflict := hi
  obtain ⟨π', s, hsame, hend⟩ := run_live_one (κ := κ)
    (ε := { ε with clock := fun _ => ts }) live
    ((π.mem_iff q).mpr ⟨hk.ne, hk.present⟩) (fun op r hr => by simp [live, hr]) hk.file
    (by rw [hi']; simp)
  have hstuck := exec_conflict_stuck (κ := κ) (ε := ε') (t := itemOf κ ε' σ q)
    (s := s) (f := idleFailure q) (a := a) hk.ne hk.file hi'
    (by simp [ε', Env.only, live, itemOf]) (by simp [ε', Env.only, live, itemOf])
    (by rw [hsame.disk]; exact ha) (by rw [hsame.disk]; exact hts)
  refine ⟨ε', π', ⟨hk.ne, hk.present, hk.file, hk.kept⟩, ?_, ?_, ?_⟩
  · rw [hend.disk]; exact hstuck.1
  · rw [hend.space, hstuck.2.1, hsame.space]; exact hs
  · rw [hend.journal, hstuck.2.2, hsame.journal]

/-- A synced file in conflict is lost to the next run when its download fails. -/
lemma conflict_without_baseline (h : SafeToRetry κ σ) (hk : KeptFile κ ε σ q)
    (hi : instruction κ ε σ q = .conflict) : σ.journal.baseline q = none := by
  by_contra hb
  obtain ⟨ε', π, hk', hd, hs, hj⟩ := conflict_moves_away hk hi
  exact not_gone_after h hk' (SameFiles.refl _) ⟨hd, hs, by rw [hj]; exact hb⟩

/-- A file that is its own temp file is lost when its download cannot be renamed. -/
lemma own_temp_without_baseline (h : SafeToRetry κ σ) (hk : KeptFile κ ε σ q)
    (hf : (itemOf κ ε σ q).fetches) {r : RemoteFile}
    (hr : σ.space.get q = some (Node.file r)) (htmp : tmpPath q = q) :
    σ.journal.baseline q = none := by
  by_contra hb
  have hi : instruction κ ε σ q = .download := by
    rcases hf.2 with hi | hi
    · exact hi
    · exact absurd (conflict_without_baseline h hk hi) hb
  obtain ⟨π⟩ := Schedule.exists σ
  obtain ⟨a, ha⟩ := exists_localFile hk.file (hk.bothOrNew hb).1
  let live : Op → Path → Bool := fun op x => !(op == .renameTmp) && x == q
  let ε' := ε.only live
  have hk' : KeptFile κ ε' σ q := ⟨hk.ne, hk.present, hk.file, hk.kept⟩
  have hi' : instruction κ ε' σ q = .download := hi
  obtain ⟨π', s, hsame, hend⟩ := run_live_one (κ := κ) (ε := ε) live
    ((π.mem_iff q).mpr ⟨hk.ne, hk.present⟩) (fun op r hr => by simp [live, hr]) hk.file
    (by rw [hi']; simp)
  have hgone : (exec κ ε' (itemOf κ ε' σ q) s).1.disk.get q = none := by
    simp only [exec, itemOf, hk'.file, Bool.false_eq_true, if_false, execFile, hi']
    rw [downloadAndRecord_disk, hsame.disk, hsame.space]
    cases hq : q with
    | nil => exact absurd hq hk.ne
    | cons n x =>
        subst hq
        have hlost := propagateDownload_renameFails (ε := ε') (e := idleFailure (n :: x))
          (fun op hop => by simp [ε', Env.only, live, hop])
          (by simp [ε', Env.only, live]) hr (by rw [htmp]; exact ha)
        rwa [htmp] at hlost
  have herr : (exec κ ε' (itemOf κ ε' σ q) s).2 ≠ none := by
    intro hok
    obtain ⟨_, -, -, hd, -⟩ := exec_fileDownload_ok hk'.file hi' hok
    exact absurd (hgone.symm.trans hd) (by simp)
  refine not_gone_after h hk' hend ⟨hgone, ?_, ?_⟩
  · rw [exec_space_keep (by rw [hsame.space, hr]; simp) ?_ ?_, hsame.space, hr]
    · simp
    · rintro ⟨hc, -⟩; exact absurd (hi'.symm.trans hc) (by simp)
    · rintro ⟨hc, -⟩; exact absurd (hi'.symm.trans hc) (by simp)
  · rw [exec_journal_error herr, hsame.journal]; exact hb

/-- A synced file at the temp name of another is lost to the next run when that one is
fetched. -/
lemma temp_without_baseline (h : SafeToRetry κ σ) {p : Path} {r : RemoteFile}
    (hf : (itemOf κ ε σ p).fetches) (hr : σ.space.get p = some (Node.file r))
    (hk : KeptFile κ ε σ (tmpPath p)) (hne : tmpPath p ≠ p) :
    σ.journal.baseline (tmpPath p) = none := by
  by_contra hb
  obtain ⟨π⟩ := Schedule.exists σ
  obtain ⟨hdq, hsq⟩ := hk.bothOrNew hb
  obtain ⟨a, ha⟩ := exists_localFile hk.file hdq
  have hp : p ≠ [] := by
    rintro rfl
    exact hne rfl
  obtain ⟨ts, hts, -⟩ := exists_clock σ.disk [] hp
  let live : Op → Path → Bool := fun _ x => x == p
  let ε' := ({ ε with clock := fun _ => ts } : Env).only live
  have hk' : KeptFile κ ε' σ (tmpPath p) := ⟨hk.ne, hk.present, hk.file, hk.kept⟩
  have hf' : (itemOf κ ε' σ p).fetches := ⟨hf.1, hf.2⟩
  have hcase : instruction κ ε' σ p = .download ∨ instruction κ ε' σ p = .conflict :=
    hf.2
  obtain ⟨π', s, hsame, hend⟩ := run_live_one (κ := κ)
    (ε := { ε with clock := fun _ => ts }) live
    ((π.mem_iff p).mpr ⟨hp, Or.inr (by rw [hr]; simp)⟩) (fun op r hr => by simp [live, hr]) hf.1
    (show instruction κ ε' σ p ≠ .ignore by rcases hcase with hi | hi <;> rw [hi] <;> simp)
  have hpar : σ.disk.get p.tail = some Node.dir := by
    cases p with
    | nil => exact absurd rfl hp
    | cons n x => exact σ.disk.closed (tmpName n) x (by rw [← tmpPath, ha]; simp)
  have hgone := (exec_fetch_succeeds (κ := κ) (ε := ε') (t := itemOf κ ε' σ p)
    (σ := s) (r := r) hp hf' (fun op => by simp [ε', Env.only, live, itemOf])
    (by rw [hsame.space]; exact hr)
    (by rw [hsame.disk]; exact fun b hb => σ.disk.dir_above_dir hpar hb)
    (by rw [hsame.disk]; exact (by rw [itemOf, ha]; simp))
    (by rw [hsame.disk]; exact (isDirPath_eq_false.mp hf.1).1)
    (fun hi => by
      rw [hsame.disk]
      exact ⟨exists_localFile hf.1 (instruction_conflict hi).1, hts⟩)).2 hne
  refine not_gone_after h hk' hend ⟨hgone, ?_, ?_⟩
  · rw [exec_space_keep (by rw [hsame.space]; exact hsq) ?_ ?_, hsame.space]
    · exact hsq
    · rintro ⟨hc, -⟩
      rcases hcase with hi | hi <;> exact absurd (hi.symm.trans hc) (by simp)
    · rintro ⟨hc, -⟩
      rcases hcase with hi | hi <;> exact absurd (hi.symm.trans hc) (by simp)
  · rw [baseline_congr (exec_journal hne), hsame.journal]; exact hb

/-- The transfer of a new file, undisturbed: afterwards there is a local file, the server has
the path, and it has a baseline. -/
lemma new_file_transferred {s : State} (hk : KeptFile κ ε σ q)
    (hb : σ.journal.baseline q = none) (hnd : σ.space.get q ≠ some Node.dir)
    (hok : ∀ op, ε.fails op q = none) (hs : s.space = σ.space)
    (hd : s.disk.get q = σ.disk.get q)
    (hpar : σ.space.get q.tail = some Node.dir)
    (hdirs : ∀ b, b <:+ q.tail → s.disk.get b = none ∨ s.disk.get b = some Node.dir)
    (ht : s.disk.get (tmpPath q) ≠ some Node.dir)
    (hc : s.disk.get (conflictPath q (ε.clock q)) = none) :
    (∃ a, (exec κ ε (itemOf κ ε σ q) s).1.disk.get q = some (Node.file a)) ∧
      (exec κ ε (itemOf κ ε σ q) s).1.space.get q ≠ none ∧
      (exec κ ε (itemOf κ ε σ q) s).1.journal.baseline q ≠ none := by
  have hqnd := (isDirPath_eq_false.mp hk.file).1
  have hfetched : (itemOf κ ε σ q).fetches → σ.space.get q ≠ none →
      (exec κ ε (itemOf κ ε σ q) s).2 = none := by
    intro hf hsq
    cases hx : σ.space.get q with
    | none => exact absurd hx hsq
    | some y =>
        cases y with
        | dir => exact absurd hx hnd
        | file r =>
            refine (exec_fetch_succeeds (t := itemOf κ ε σ q) (r := r) hk.ne hf hok
              (hs ▸ hx) hdirs ht (hd ▸ hqnd) (fun hi => ?_)).1
            exact ⟨hd ▸ exists_localFile hk.file (instruction_conflict hi).1, hc⟩
  by_cases hdn : σ.disk.get q = none
  · have hsq : σ.space.get q ≠ none := hk.present.resolve_left (fun h => h hdn)
    have hi : instruction κ ε σ q = .download := instruction_newRemote hdn hsq hb
    obtain ⟨r, hr, hsp, hdk, hj⟩ := exec_fileDownload_ok hk.file hi
      (hfetched ⟨hk.file, Or.inl hi⟩ hsq)
    exact ⟨⟨_, hdk⟩, hsp ▸ hr.trans_ne (Option.some_ne_none _),
      (baseline_fileRow hj).trans_ne (Option.some_ne_none _)⟩
  by_cases hsn : σ.space.get q = none
  · have hi : instruction κ ε σ q = .upload := instruction_newLocal hdn hsn hb
    obtain ⟨a, ha⟩ := exists_localFile hk.file hdn
    have hup : (exec κ ε (itemOf κ ε σ q) s).2 = none :=
      exec_upload_succeeds (t := itemOf κ ε σ q) (a := a) hk.file hi hok
        (hd.trans ha) (hs ▸ hpar) (hs ▸ hnd)
    obtain ⟨a', ha', hdk, hsp, hj⟩ := exec_fileUpload_ok hk.file hi hup
    exact ⟨⟨a', hdk ▸ ha'⟩, hsp.trans_ne (Option.some_ne_none _),
      (baseline_fileRow hj).trans_ne (Option.some_ne_none _)⟩
  · have hi : instruction κ ε σ q = .conflict := instruction_unknown hdn hsn hb
    obtain ⟨a, r, -, hr, hsp, hdk, -, hj⟩ := exec_fileConflict_ok hk.file hi
      (hfetched ⟨hk.file, Or.inr hi⟩ hsn)
    exact ⟨⟨_, hdk⟩, hsp ▸ hr.trans_ne (Option.some_ne_none _),
      (baseline_fileRow hj).trans_ne (Option.some_ne_none _)⟩

lemma conflictPath_ne_nil {p : Path} {ts : ℕ} (hp : p ≠ []) : conflictPath p ts ≠ [] := by
  cases p with
  | nil => exact absurd rfl hp
  | cons n q => simp [conflictPath]

/-- The task of the temp name of `p` leaves what stands beside it. -/
lemma own_temp_spares {p y : Path} {s : State} (hk : KeptFile κ ε σ (tmpPath p))
    (hy : y ≠ tmpPath p) (htail : y.tail = p.tail) (hne : y ≠ [])
    (hcopy : y ≠ conflictPath (tmpPath p) (ε.clock (tmpPath p))) :
    (exec κ ε (itemOf κ ε σ (tmpPath p)) s).1.disk.get y = s.disk.get y := by
  have hdel : (instruction κ ε σ (tmpPath p)).isDelete = false := hk.kept
  refine exec_disk_other (t := itemOf κ ε σ (tmpPath p)) hk.file ?_ hy ?_ hcopy ?_
  · intro hi
    rw [show instruction κ ε σ (tmpPath p) = .deleteLocal from hi] at hdel
    cases hdel
  · rw [show (itemOf κ ε σ (tmpPath p)).path = tmpPath p from rfl, tmpPath_tmpPath]
    exact hy
  · rw [show (itemOf κ ε σ (tmpPath p)).path.tail = p.tail from tmpPath_tail, ← htail]
    intro hsuf
    exact (above_of_suffix_tail hne hsuf).2 rfl

/-- Nor does it touch the file on the server at `p`. -/
lemma own_temp_spares_space {p : Path} {s : State} (hne : tmpPath p ≠ p)
    (hk : KeptFile κ ε σ (tmpPath p)) (hr : s.space.get p ≠ none) :
    (exec κ ε (itemOf κ ε σ (tmpPath p)) s).1.space.get p = s.space.get p := by
  have hdel : (instruction κ ε σ (tmpPath p)).isDelete = false := hk.kept
  refine exec_space_keep hr ?_ ?_
  · rintro ⟨hi, -⟩
    rw [show instruction κ ε σ (tmpPath p) = .deleteRemote from hi] at hdel
    cases hdel
  · rintro ⟨-, -, hpq⟩
    exact hne hpq.symm

/-- A file at the temp name of `p` that is synced is gone here, and nowhere else, once `p` has been
fetched. -/
lemma gone_after_fetch {p : Path} {r : RemoteFile} {a : LocalFile} {s : State}
    (hne : tmpPath p ≠ p) (hp : p ≠ []) (hf : (itemOf κ ε σ p).fetches)
    (hok : ∀ op, ε.fails op p = none) (hr : s.space.get p = some (Node.file r))
    (hdir : s.disk.get p.tail = some Node.dir)
    (hdisk : s.disk.get (tmpPath p) = some (Node.file a)) (hspace : s.space.get (tmpPath p) ≠ none)
    (hbase : s.journal.baseline (tmpPath p) ≠ none) (hsame : s.disk.get p = σ.disk.get p)
    (hcopy : s.disk.get (conflictPath p (ε.clock p)) = none) :
    (exec κ ε (itemOf κ ε σ p) s).1.GoneLocally (tmpPath p) := by
  have hgone := (exec_fetch_succeeds (κ := κ) (t := itemOf κ ε σ p) (σ := s) hp hf hok hr
    (fun b hb => s.disk.dir_above_dir hdir hb)
    (show s.disk.get (tmpPath p) ≠ _ by rw [hdisk]; simp)
    (show s.disk.get p ≠ _ by rw [hsame]; exact (isDirPath_eq_false.mp hf.1).1)
    (fun hi => ⟨hsame ▸ exists_localFile hf.1 (instruction_conflict hi).1, hcopy⟩)).2 hne
  have hinstr : ∀ i, (itemOf κ ε σ p).instr = i → i = .download ∨ i = .conflict :=
    fun i hi => hi ▸ hf.2
  refine ⟨hgone, ?_, ?_⟩
  · rw [exec_space_keep hspace ?_ ?_]
    · exact hspace
    · rintro ⟨hi, -⟩
      rcases hinstr _ hi with h | h <;> cases h
    · rintro ⟨hi, -⟩
      rcases hinstr _ hi with h | h <;> cases h
  · rw [baseline_congr (exec_journal (t := itemOf κ ε σ p) hne)]
    exact hbase

/-- Two tasks in a row: the file at the temp name of `p` is transferred and gets a row, then `p`
is fetched and takes it. -/
lemma taken_after_own {p : Path} {r : RemoteFile} {s : State} (hne : tmpPath p ≠ p)
    (hf : (itemOf κ ε σ p).fetches) (hr : σ.space.get p = some (Node.file r))
    (hk : KeptFile κ ε σ (tmpPath p)) (hb : σ.journal.baseline (tmpPath p) = none)
    (hnd : σ.space.get (tmpPath p) ≠ some Node.dir)
    (hokp : ∀ op, ε.fails op p = none) (hokq : ∀ op, ε.fails op (tmpPath p) = none)
    (hs : s.space = σ.space)
    (hdirs : ∀ b, b <:+ p.tail → s.disk.get b = none ∨ s.disk.get b = some Node.dir)
    (hdq : s.disk.get (tmpPath p) = σ.disk.get (tmpPath p))
    (hdp : s.disk.get p = σ.disk.get p)
    (hcq : s.disk.get (conflictPath (tmpPath p) (ε.clock (tmpPath p))) = none)
    (hcq' : conflictPath (tmpPath p) (ε.clock (tmpPath p)) ≠ p)
    (hcp : s.disk.get (conflictPath p (ε.clock p)) = none)
    (hcp' : conflictPath p (ε.clock p) ∉
      [tmpPath p, conflictPath (tmpPath p) (ε.clock (tmpPath p))]) :
    (exec κ ε (itemOf κ ε σ p)
      (exec κ ε (itemOf κ ε σ (tmpPath p)) s).1).1.GoneLocally (tmpPath p) := by
  have hp : p ≠ [] := by
    rintro rfl
    exact hne rfl
  have hspar : σ.space.get p.tail = some Node.dir := by
    obtain ⟨ha, hane⟩ := above_of_suffix_tail hp (List.suffix_refl p.tail)
    exact σ.space.dir_of_below ha hane (by rw [hr]; simp)
  obtain ⟨⟨a, hqa⟩, hqs, hqb⟩ := new_file_transferred (s := s) hk hb hnd hokq hs hdq
    (by rw [tmpPath_tail]; exact hspar) (by rw [tmpPath_tail]; exact hdirs)
    (by rw [tmpPath_tmpPath, hdq]; exact (isDirPath_eq_false.mp hk.file).1) hcq
  set s' := (exec κ ε (itemOf κ ε σ (tmpPath p)) s).1 with hs'
  have hp' : s'.disk.get p = σ.disk.get p :=
    (own_temp_spares hk (Ne.symm hne) rfl hp (Ne.symm hcq')).trans hdp
  have hsp' : s'.space.get p = some (Node.file r) := by
    rw [hs', own_temp_spares_space hne hk (by rw [hs, hr]; simp), hs, hr]
  have hpar' : s'.disk.get p.tail = some Node.dir := by
    obtain ⟨ha, hane⟩ := above_of_suffix_tail hk.ne (List.suffix_refl (tmpPath p).tail)
    rw [tmpPath_tail] at ha hane
    exact s'.disk.dir_of_below ha hane (by rw [hqa]; simp)
  have hcopy : s'.disk.get (conflictPath p (ε.clock p)) = none := by
    rw [List.mem_pair, not_or] at hcp'
    exact (own_temp_spares hk hcp'.1 (conflictPath_tail _) (conflictPath_ne_nil hp) hcp'.2).trans
      hcp
  exact gone_after_fetch hne hp hf hokp hsp' hpar' hqa hqs hqb hp' hcopy

/-- A local file that its conflict has set aside no longer blocks what is below it, and nothing
below it has changed. -/
lemma conflict_clears {b : Path} {x : LocalFile} {s : State} {f : Failure} (hne : b ≠ [])
    (hfile : isDirPath ε σ b = false) (hi : instruction κ ε σ b = .conflict)
    (hok : ε.fails .setAside b = none) (hget : ε.fails .get b = some f)
    (hb : s.disk.get b = some (Node.file x))
    (hfree : s.disk.get (conflictPath b (ε.clock b)) = none) :
    (∀ c y, b <:+ y → c <:+ y → (exec κ ε (itemOf κ ε σ b) s).1.disk.get c = none ∨
      (exec κ ε (itemOf κ ε σ b) s).1.disk.get c = some Node.dir) ∧
    (∀ y, b.length < y.length →
      (exec κ ε (itemOf κ ε σ b) s).1.disk.get y = s.disk.get y) ∧
    (exec κ ε (itemOf κ ε σ b) s).1.space = s.space := by
  obtain ⟨hgone, hsp, -⟩ := exec_conflict_stuck (t := itemOf κ ε σ b) hne hfile hi hok hget
    hb hfree
  have hlen : ∀ c, c.length ≠ b.length → c ≠ b ∧ c ≠ tmpPath b ∧
      c ≠ conflictPath b (ε.clock b) := by
    intro c hc
    refine ⟨fun h => hc (h ▸ rfl), fun h => hc ?_, fun h => hc ?_⟩
    · rw [h, length_tmpPath]
    · rw [h, length_conflictPath]
  refine ⟨fun c y hby hcy => ?_, fun y hy => ?_, hsp⟩
  · rcases List.suffix_or_suffix_of_suffix hcy hby with hcb | hbc
    · by_cases hcb' : c = b
      · exact Or.inl (hcb' ▸ hgone)
      · -- strictly above: a directory before, and not touched
        have hdir := s.disk.dir_of_below hcb hcb' (by rw [hb]; simp)
        have hlt : c.length ≠ b.length := fun h => hcb' (hcb.eq_of_length h)
        refine Or.inr ((exec_disk_keep (t := itemOf κ ε σ b) (by rw [hdir]; simp) ?_).trans
          hdir)
        rintro (⟨h, -⟩ | ⟨-, h | h⟩ | ⟨-, -, h⟩)
        · exact absurd (hi.symm.trans h) (by simp)
        · exact (hlen c hlt).1 h
        · exact (hlen c hlt).2.1 h
        · exact (hlen c hlt).2.2 h
    · exact Or.inl (Tree.none_of_below _ hbc hgone)
  · obtain ⟨h₁, h₂, h₃⟩ := hlen y (by omega)
    refine exec_disk_other (t := itemOf κ ε σ b) hfile ?_ h₁ h₂ h₃ (fun h => ?_)
    · intro h
      exact absurd (hi.symm.trans h) (by simp)
    · have hle := h.length_le
      rw [show (itemOf κ ε σ b).path = b from rfl, List.length_tail] at hle
      omega

section TempAgainstDir

variable {p : Path} {r : RemoteFile} (h : SafeToRetry κ σ)
  (hf : (itemOf κ ε σ p).fetches) (hr : σ.space.get p = some (Node.file r))
  (hk : KeptFile κ ε σ (tmpPath p)) (hb : σ.journal.baseline (tmpPath p) = none)
  (hne : tmpPath p ≠ p)

include hb in
/-- A new path is never ignored. -/
lemma new_not_ignored {y : Path} (hy : y ∈ [tmpPath p, p])
    (hk : KeptFile κ ε σ (tmpPath p)) (hf : (itemOf κ ε σ p).fetches) :
    instruction κ ε σ y ≠ .ignore := by
  intro hc
  rcases List.mem_pair.mp hy with rfl | rfl
  · obtain ⟨l, m, -, -, hj⟩ := (reconcile_ignore_iff (by
      rw [Ne, Ne, localEntry_eq_none, remoteEntry_eq_none]; exact hk.present)).mp hc
    rw [hb] at hj
    cases hj
  · rcases hf.2 with hi | hi <;> exact absurd (hi.symm.trans hc) (by simp)

include h hf hr hk hb hne in
/-- Without a local file above `p`: the file at its temp name is transferred, then `p` takes
it. -/
lemma temp_against_dir_free
    (hfree : ∀ b, b <:+ p.tail → σ.disk.get b = none ∨ σ.disk.get b = some Node.dir) :
    σ.space.get (tmpPath p) = some Node.dir := by
  by_contra hnd
  obtain ⟨π⟩ := Schedule.exists σ
  have hp : p ≠ [] := by
    rintro rfl
    exact hne rfl
  obtain ⟨tq, htq, htq'⟩ := exists_clock σ.disk [p] hk.ne
  obtain ⟨tp, htp, htp'⟩ := exists_clock σ.disk [tmpPath p, conflictPath (tmpPath p) tq] hp
  let live : Op → Path → Bool := fun _ y => y == p || y == tmpPath p
  let clock : Path → ℕ := fun y => if y = tmpPath p then tq else tp
  let ε' := ({ ε with clock := clock } : Env).only live
  have hk' : KeptFile κ ε' σ (tmpPath p) := ⟨hk.ne, hk.present, hk.file, hk.kept⟩
  have hf' : (itemOf κ ε' σ p).fetches := ⟨hf.1, hf.2⟩
  obtain ⟨π', s, hsame, hend⟩ := run_live (κ := κ) (ε := { ε with clock := clock })
    (π := π) live [tmpPath p, p] (by simp [hne])
    (fun y hy => by
      rw [π.mem_iff]
      rcases List.mem_pair.mp hy with rfl | rfl
      · exact ⟨hk.ne, hk.present⟩
      · exact ⟨hp, Or.inr (by rw [hr]; simp)⟩)
    (fun op y hy => by
      rw [List.mem_pair, not_or] at hy
      simp [live, hy.1, hy.2])
    (fun y hy => by
      rcases List.mem_pair.mp hy with rfl | rfl
      · exact hk.file
      · exact hf.1)
    (fun y hy => new_not_ignored (ε := ε') hb hy hk' hf')
  have hlost := taken_after_own (κ := κ) (ε := ε') (σ := σ) (s := s) hne hf' hr hk' hb
    hnd (fun op => by simp [ε', Env.only, live]) (fun op => by simp [ε', Env.only, live])
    hsame.space (by rw [hsame.disk]; exact hfree) (by rw [hsame.disk]) (by rw [hsame.disk])
    (by rw [hsame.disk]; simpa [ε', Env.only, clock] using htq)
    (by simpa [ε', Env.only, clock] using htq')
    (by rw [hsame.disk]; simpa [ε', Env.only, clock, hne.symm] using htp)
    (by simpa [ε', Env.only, clock, hne.symm] using htp')
  exact not_gone_after h hk' hend hlost

include h hf hr hk hb hne in
/-- With a local file above `p` that is in conflict: that one is set aside first. -/
lemma temp_against_dir_blocked {b : Path} {x : LocalFile} (hbp : b <:+ p.tail)
    (hx : σ.disk.get b = some (Node.file x)) (hib : instruction κ ε σ b = .conflict) :
    σ.space.get (tmpPath p) = some Node.dir := by
  by_contra hnd
  obtain ⟨π⟩ := Schedule.exists σ
  have hp : p ≠ [] := by
    rintro rfl
    exact hne rfl
  have hbne : b ≠ [] := by
    rintro rfl
    rw [σ.disk.root] at hx
    cases hx
  have hbfile : isDirPath ε σ b = false :=
    isDirPath_eq_false.mpr ⟨by rw [hx]; simp, fun hn => by rw [hx] at hn; cases hn⟩
  -- everything about `p` is longer than `b`
  have hlen : b.length < p.length := by
    have hle := hbp.length_le
    rw [List.length_tail] at hle
    have := List.length_pos_iff.mpr hp
    omega
  have hlentmp : b.length < (tmpPath p).length := by rwa [length_tmpPath]
  have hbneq : b ≠ tmpPath p := fun hc => by rw [hc] at hlentmp; omega
  have hbnep : b ≠ p := fun hc => by rw [hc] at hlen; omega
  obtain ⟨tb, htb, -⟩ := exists_clock σ.disk [] hbne
  obtain ⟨tq, htq, htq'⟩ := exists_clock σ.disk [p] hk.ne
  obtain ⟨tp, htp, htp'⟩ := exists_clock σ.disk [tmpPath p, conflictPath (tmpPath p) tq] hp
  let live : Op → Path → Bool := fun op y => y == p || y == tmpPath p ||
    (y == b && op == .setAside)
  let clock : Path → ℕ := fun y => if y = b then tb else if y = tmpPath p then tq else tp
  let ε' := ({ ε with clock := clock } : Env).only live
  have hk' : KeptFile κ ε' σ (tmpPath p) := ⟨hk.ne, hk.present, hk.file, hk.kept⟩
  have hf' : (itemOf κ ε' σ p).fetches := ⟨hf.1, hf.2⟩
  obtain ⟨π', s, hsame, hend⟩ := run_live (κ := κ) (ε := { ε with clock := clock })
    (π := π) live [b, tmpPath p, p] (by simp [hbneq, hbnep, hne])
    (fun y hy => by
      rw [π.mem_iff]
      rcases List.mem_cons.mp hy with rfl | hy
      · exact ⟨hbne, Or.inl (by rw [hx]; simp)⟩
      rcases List.mem_pair.mp hy with rfl | rfl
      · exact ⟨hk.ne, hk.present⟩
      · exact ⟨hp, Or.inr (by rw [hr]; simp)⟩)
    (fun op y hy => by
      simp only [List.mem_cons, List.not_mem_nil, or_false, not_or] at hy
      simp [live, hy.1, hy.2.1, hy.2.2])
    (fun y hy => by
      rcases List.mem_cons.mp hy with rfl | hy
      · exact hbfile
      rcases List.mem_pair.mp hy with rfl | rfl
      · exact hk.file
      · exact hf.1)
    (fun y hy => by
      rcases List.mem_cons.mp hy with rfl | hy
      · exact hib.trans_ne (by simp)
      · exact new_not_ignored (ε := ε') hb hy hk' hf')
  obtain ⟨hclear, hsameb, hspb⟩ := conflict_clears (κ := κ) (ε := ε') (σ := σ) (s := s)
    (b := b) (x := x) (f := idleFailure b) hbne hbfile hib
    (by simp [ε', Env.only, live]) (by simp [ε', Env.only, live, hbneq, hbnep])
    (by rw [hsame.disk]; exact hx)
    (by rw [hsame.disk]; simpa [ε', Env.only, clock] using htb)
  have hlost := taken_after_own (κ := κ) (ε := ε') (σ := σ) hne hf' hr hk' hb hnd
    (fun op => by simp [ε', Env.only, live]) (fun op => by simp [ε', Env.only, live])
    (hspb.trans hsame.space) (fun c hc => hclear c p.tail hbp hc)
    ((hsameb _ hlentmp).trans (by rw [hsame.disk]))
    ((hsameb _ hlen).trans (by rw [hsame.disk]))
    ((hsameb _ (by rwa [length_conflictPath])).trans (by
      rw [hsame.disk]; simpa [ε', Env.only, clock, hbneq.symm] using htq))
    (by simpa [ε', Env.only, clock, hbneq.symm] using htq')
    ((hsameb _ (by rwa [length_conflictPath])).trans (by
      rw [hsame.disk]; simpa [ε', Env.only, clock, hbnep.symm, hne.symm] using htp))
    (by simpa [ε', Env.only, clock, hbnep.symm, hne.symm, hbneq.symm] using htp')
  exact not_gone_after h hk' hend hlost

include h hf hr hk hb hne in
/-- The file at the temp name of a file that can be fetched is lost to the next run once it has
been transferred itself; only a directory on the server keeps that from happening. -/
lemma temp_against_dir (hub : Unblocked κ ε σ p) :
    σ.space.get (tmpPath p) = some Node.dir := by
  by_cases hblock : ∃ b x, b <:+ p.tail ∧ σ.disk.get b = some (Node.file x)
  · obtain ⟨b, x, hbp, hx⟩ := hblock
    exact temp_against_dir_blocked h hf hr hk hb hne hbp hx (hub b x hbp hx)
  · refine temp_against_dir_free h hf hr hk hb hne (fun b hbp => ?_)
    cases hx : σ.disk.get b with
    | none => exact Or.inl rfl
    | some y =>
        cases y with
        | dir => exact Or.inr rfl
        | file x => exact absurd ⟨b, x, hbp, hx⟩ hblock

end TempAgainstDir

/-- The condition is exact for a journal that works. -/
lemma safeToRetry_iff : SafeToRetry κ σ ↔ RowsOutlive κ σ := by
  constructor
  · intro h
    refine ⟨fun ε q hk hi => conflict_without_baseline h hk hi, fun ε p r hf hr hub hk => ?_⟩
    have hb : σ.journal.baseline (tmpPath p) = none := by
      by_cases htmp : tmpPath p = p
      · rw [htmp] at hk ⊢
        exact own_temp_without_baseline h hk hf hr htmp
      · exact temp_without_baseline h hf hr hk htmp
    exact ⟨hb, fun hne => temp_against_dir h hf hr hk hb hne hub⟩
  · intro hc ε ε' π q hk
    exact bothOrNew_not_delete (bothOrNew_run hc hk)

/-! ## Rows that cannot be read or written -/

/-- A kept file with a baseline has one after the run. -/
lemma baseline_kept (hk : KeptFile κ ε σ q) (hb : σ.journal.baseline q ≠ none) :
    (runSync κ ε π).2.journal.baseline q ≠ none := by
  cases hdisc : ε.discovery with
  | some e =>
      rw [runSync_undiscovered hdisc]
      exact hb
  | none =>
      rw [(runSync_discovery hdisc).2.2, propagated_eq]
      refine TaskRun.run_invariant (s := σ.started)
        (I := fun s : State => s.journal.baseline q ≠ none) hb (fun t ht s hs => ?_)
      by_cases hq : q = t.path
      · subst hq
        obtain ⟨-, hinstr, hdir, -⟩ := item_of_mem ht
        cases hres : (exec κ ε t s).2 with
        | some e => rwa [exec_journal_error (by rw [hres]; simp)]
        | none =>
            rcases own_row ht hres with ⟨hdel, -⟩ | ⟨-, hd, -⟩ | ⟨-, hd, -⟩ | ⟨-, -, _, _, _, hj⟩
            · rw [hinstr, hk.kept] at hdel; cases hdel
            · rw [hdir, hk.file] at hd; cases hd
            · rw [hdir, hk.file] at hd; cases hd
            · rw [baseline_fileRow hj]; simp
      · rwa [baseline_congr (exec_journal hq)]

section Silent

variable {unread : Path → Bool} {ω : Calls}

/-- Rows that could not be read or written keep a kept file on both sides. -/
lemma bothOrNew_silent (hc : RowsOutliveFailures κ ω.unread σ)
    (hk : KeptFile κ ε (σ.seen ω.unread) q) {s : State}
    (h : ω.Follows σ (runSync κ ε (π.read ω)).2 s) : BothOrNew q s := by
  intro hb
  have hboth : BothOrNew q (runSync κ ε (π.read ω)).2 := bothOrNew_run hc.seen hk
  rw [h.disk, h.space]
  refine hboth ?_
  have hj := h.journal q
  unfold Calls.row at hj
  -- the row is the old one only where it could be read
  have hold : s.journal q = σ.journal q → (runSync κ ε (π.read ω)).2.journal.baseline q ≠ none := by
    intro hsame
    rw [baseline_congr hsame] at hb
    refine baseline_kept hk ?_
    cases hr : ω.unread q with
    | true => exact absurd (hc.lost ε q hk hr) hb
    | false => rwa [baseline_congr (Calls.read_row hr)]
  cases hw : ω.unwritten q with
  | true => exact hold (by simpa [hw] using hj)
  | false =>
      cases hr : ω.unread q with
      | false =>
          simp only [hw, hr, Bool.false_eq_true, if_false] at hj
          rwa [baseline_congr hj] at hb
      | true =>
          simp only [hw, hr, Bool.false_eq_true, if_false, if_true] at hj
          cases hrow : (runSync κ ε (π.read ω)).2.journal q with
          | none => exact absurd hrow (fun _ => hold (by simpa [hrow] using hj) (baseline_of_none hrow))
          | some row =>
              rw [hrow, Option.some_or] at hj
              rwa [baseline_congr (hj.trans hrow.symm)] at hb

/-- Where only rows that cannot be read are in question, the run leaves every other row as it would
with a journal that works, and one it could not read where that would have left none. -/
lemma instruction_delete_of_calm {ε' : Env} {s s' : State}
    (h : ({ Calls.sound with unread := unread } : Calls).Follows σ s s')
    (hdel : (instruction κ ε' s q).isDelete = true) :
    (instruction κ ε' s' q).isDelete = true := by
  have hb : s.journal.baseline q ≠ none := by
    rcases instruction_isDelete_iff.mp hdel with hg | hg
    · exact hg.2.2
    · exact hg.2.2
  have hj : s'.journal q = s.journal q := by
    rw [h.journal q]
    unfold Calls.row
    change (if unread q then (s.journal q).or (σ.journal q) else s.journal q) = s.journal q
    cases hrow : s.journal q with
    | none => exact absurd (baseline_of_none hrow) hb
    | some row => simp
  rw [instruction_isDelete_iff] at hdel ⊢
  unfold State.GoneRemotely State.GoneLocally at hdel ⊢
  rwa [h.disk, h.space, baseline_congr hj]

end Silent

/-- **A failed transfer never turns into a deletion, exactly.** -/
theorem retryIsSafe_iff (κ : EngineConfig) (unread : Path → Bool) {σ : State} (hplain : σ.Plain) :
    RetryIsSafe κ unread σ ↔ RowsOutliveFailures κ unread σ := by
  constructor
  · intro h
    let ω : Calls := { Calls.sound with unread := unread }
    have hfollows : ∀ (ε : Env) (π : Schedule σ),
        ω.Follows σ (runSync κ ε (π.read ω)).2 (ω.runSync κ ε π).2 :=
      fun ε π => (Calls.follows_runSync (Calls.served_of_plain hplain)).2
    refine ⟨fun ε q hk hr => ?_, safeToRetry_iff.mp (fun ε ε' π q hk => ?_)⟩
    · by_contra hb
      have hnone : (σ.seen unread).journal q = none := Calls.read_unread (ω := ω) hr
      -- whatever has become of the path, its row is still there
      have hgone : ∀ (ε : Env) (π : Schedule (ω.read σ)), KeptFile κ ε (σ.seen unread) q →
          (runSync κ ε π).2.journal q = none →
          ((runSync κ ε π).2.disk.get q = none ∧ (runSync κ ε π).2.space.get q ≠ none ∨
            (runSync κ ε π).2.disk.get q ≠ none ∧ (runSync κ ε π).2.space.get q = none) →
          False := by
        intro ε π hk hj hside
        have hno := h ω rfl ε ε π.ofRead q hk
        have hend : ω.Follows σ (runSync κ ε π).2 (ω.runSync κ ε π.ofRead).2 := hfollows ε π.ofRead
        have hrow : (ω.runSync κ ε π.ofRead).2.journal q = σ.journal q := by
          rw [hend.journal q, Calls.row, if_neg (by simp [ω, Calls.sound]), if_pos hr]
          exact congrArg (Option.or · (σ.journal q)) hj
        rw [← Bool.not_eq_true, instruction_isDelete_iff] at hno
        rw [← hend.disk, ← hend.space] at hside
        rcases hside with ⟨hd, hs⟩ | ⟨hd, hs⟩
        · exact hno (Or.inr ⟨hd, hs, by rwa [baseline_congr hrow]⟩)
        · exact hno (Or.inl ⟨hd, hs, by rwa [baseline_congr hrow]⟩)
      by_cases hboth : σ.disk.get q ≠ none ∧ σ.space.get q ≠ none
      · obtain ⟨ε', π, hk', hd, hs, hj⟩ := conflict_moves_away hk
          (instruction_unknown hboth.1 hboth.2 (baseline_of_none hnone))
        exact hgone ε' π hk' ((congrFun hj q).trans hnone) (Or.inl ⟨hd, hs⟩)
      · obtain ⟨π, hsame⟩ := run_dead κ ε (ω.read σ)
        refine hgone (ε.only (fun _ _ => false)) π ⟨hk.ne, hk.present, hk.file, hk.kept⟩
          ((congrFun hsame.journal q).trans hnone) ?_
        rw [hsame.disk, hsame.space]
        rw [not_and_or, not_not, not_not] at hboth
        have hp : σ.disk.get q ≠ none ∨ σ.space.get q ≠ none := hk.present
        rcases hboth with hd | hs
        · exact Or.inl ⟨hd, hp.resolve_left (fun h => h hd)⟩
        · exact Or.inr ⟨hp.resolve_right (fun h => h hs), hs⟩
    · by_contra hdel
      rw [Bool.not_eq_false] at hdel
      let π' : Schedule σ := Schedule.ofRead (ω := ω) π
      have hno := h ω rfl ε ε' π' q hk
      rw [instruction_delete_of_calm (hfollows ε π') hdel] at hno
      cases hno
  · rintro hc ω rfl ε ε' π q hk
    exact bothOrNew_not_delete (bothOrNew_silent hc hk
      (Calls.follows_runSync (Calls.served_of_plain hplain)).2)

/-- A synced file that has been made longer on the disk. -/
def editedLocally : State where
  disk := Tree.ofList [(["l.txt".toList], Node.file ⟨⟨[4, 5, 6], by decide⟩, 9⟩)]
  space := Tree.ofList [(["l.txt".toList], Node.file ⟨⟨[6], by decide⟩, "e1".toList⟩)]
  journal := Journal.upsertEntry (fun _ => none) ["l.txt".toList]
    (fileRow ["l.txt".toList] "e1".toList 1 none)
  sync := ⟨.idle, fun _ => none⟩

lemma editedLocally_present {p : Path}
    (h : editedLocally.disk.get p ≠ none ∨ editedLocally.space.get p ≠ none) :
    p = [] ∨ p = ["l.txt".toList] := by
  rcases h with h | h
  · simpa using Tree.ofList_mem h
  · simpa using Tree.ofList_mem h

lemma editedLocally_plain : editedLocally.Plain := by
  intro p hp
  rcases editedLocally_present hp with rfl | rfl
  · simp
  · decide

/-- It is uploaded, whatever the surroundings. -/
lemma editedLocally_upload (hp : p ≠ [])
    (h : editedLocally.disk.get p ≠ none ∨ editedLocally.space.get p ≠ none) :
    instruction ⟨.keepBoth, 5000000⟩ ε (editedLocally.seen (fun _ => false)) p = .upload := by
  obtain rfl := (editedLocally_present h).resolve_left hp
  rw [instruction_env Env.calm (by decide)]
  decide

/-- The theorem at `editedLocally`: the upload may fail as often as it likes. -/
theorem retryIsSafe_editedLocally :
    RetryIsSafe ⟨.keepBoth, 5000000⟩ (fun _ => false) editedLocally := by
  refine (retryIsSafe_iff _ _ editedLocally_plain).mpr
    ⟨fun ε q _ h => absurd h (by simp), fun ε q hk hi => ?_, fun ε p r hf hr _ _ => ?_⟩
  · rw [editedLocally_upload hk.ne hk.present] at hi
    cases hi
  · have hp : p ≠ [] := ne_nil_of_file hf.1
    have hi : (itemOf ⟨.keepBoth, 5000000⟩ ε (editedLocally.seen (fun _ => false)) p).instr =
        .upload := editedLocally_upload hp (Or.inr (by
      rw [show editedLocally.space.get p = some (Node.file r) from hr]; simp))
    rcases hf.2 with h | h
    · cases hi.symm.trans h
    · cases hi.symm.trans h

/-- A synced file that both sides have changed. -/
def changedOnBothSides : State where
  disk := Tree.ofList [(["a.txt".toList], Node.file ⟨⟨[4, 5, 6], by decide⟩, 9⟩)]
  space := Tree.ofList [(["a.txt".toList], Node.file ⟨⟨[6, 7], by decide⟩, "e2".toList⟩)]
  journal := Journal.upsertEntry (fun _ => none) ["a.txt".toList]
    (fileRow ["a.txt".toList] "e1".toList 1 none)
  sync := ⟨.idle, fun _ => none⟩

/-- A run in which every GET times out. -/
def getsTimeOut : Env :=
  { Env.calm with
    fails := fun op p =>
      if op = .get then some { idleFailure p with error := .http 0 "timed out" } else none }

/-- Under `KeepBoth` the conflict moves the local file away, its GET fails, and the next run
deletes the file on the server. -/
theorem failed_conflict_deletes :
    ¬ RetryIsSafe ⟨.keepBoth, 5000000⟩ (fun _ => false) changedOnBothSides := by
  intro h
  let π : Schedule changedOnBothSides := Schedule.ofList changedOnBothSides rfl rfl
    [["a.txt".toList]] (by decide) (by decide) (by decide)
  have hkept : KeptFile ⟨.keepBoth, 5000000⟩ getsTimeOut
      (changedOnBothSides.seen (fun _ => false)) ["a.txt".toList] :=
    ⟨by decide, by decide, by decide, by decide⟩
  have hsafe := h Calls.sound rfl getsTimeOut Env.calm π ["a.txt".toList] hkept
  exact absurd hsafe (by decide)

end OwncloudSync
