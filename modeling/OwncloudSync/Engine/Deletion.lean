import OwncloudSync.Engine.Calls
import OwncloudSync.Engine.Faults
import Mathlib.Tactic.Common

/-!
# Which files a run removes

`reconcile` decides path by path, but a directory is deleted with everything below it and a
download takes whatever stands at its temp name.  So a run may remove a file whose own
instruction says nothing of the kind.

**Collateral deletion.**  `NoCollateralDeletion` is the property that no run from a state does
this; `DeletesAreIsolated` is the exact condition on the state under which it holds, where a row
counts only if it can be read.  The condition is sufficient because a local path can vanish in three
ways only (`exec_disk_removed`); it is necessary because a run in which nothing else works already
shows the loss (`Env.only`).

**Edits.**  `EditsSurvive` is the other half of the three-way merge: a file that is deleted
because the other side deleted it was not edited since the last sync.  `reconcile` compares
nothing when one side is gone, so the property holds exactly where no such file was edited.
-/

namespace OwncloudSync

open PathTree

variable {ω : Calls} {κ : EngineConfig} {ε : Env} {σ : State} {π : Schedule σ} {q : Path} {t : Item}

/-- The task `t` of the run removes the local file `q`: a file when the run started, there just
before `t`, not there after it.  A file that its own conflict sets aside is not removed. -/
def RemovesLocal (κ : EngineConfig) (ε : Env) (π : Schedule σ) (t : Item) (q : Path) :
    Prop :=
  ε.discovery = none ∧ (∃ a, σ.disk.get q = some (Node.file a)) ∧
    ¬ (t.path = q ∧ t.instr = .conflict) ∧
    ∃ pre post, tasks κ ε π = pre ++ t :: post ∧
      (stateAfter κ ε σ pre).disk.get q ≠ none ∧
      (exec κ ε t (stateAfter κ ε σ pre)).1.disk.get q = none

/-- The task `t` of the run removes the remote file `q`. -/
def RemovesRemote (κ : EngineConfig) (ε : Env) (π : Schedule σ) (t : Item) (q : Path) :
    Prop :=
  ε.discovery = none ∧ (∃ r, σ.space.get q = some (Node.file r)) ∧
    ∃ pre post, tasks κ ε π = pre ++ t :: post ∧
      (stateAfter κ ε σ pre).space.get q ≠ none ∧
      (exec κ ε t (stateAfter κ ε σ pre)).1.space.get q = none

/-- The same of a run with calls that fail in silence. -/
def Calls.RemovesLocal (ω : Calls) (κ : EngineConfig) (ε : Env) (π : Schedule σ) (t : Item)
    (q : Path) : Prop :=
  ε.discovery = none ∧ (∃ a, σ.disk.get q = some (Node.file a)) ∧
    ¬ (t.path = q ∧ t.instr = .conflict) ∧
    ∃ pre post, ω.tasks κ ε π = pre ++ t :: post ∧
      (ω.stateAfter κ ε σ pre).disk.get q ≠ none ∧
      (ω.exec κ ε t (ω.stateAfter κ ε σ pre)).1.disk.get q = none

/-- The same of a run with calls that fail in silence. -/
def Calls.RemovesRemote (ω : Calls) (κ : EngineConfig) (ε : Env) (π : Schedule σ) (t : Item)
    (q : Path) : Prop :=
  ε.discovery = none ∧ (∃ r, σ.space.get q = some (Node.file r)) ∧
    ∃ pre post, ω.tasks κ ε π = pre ++ t :: post ∧
      (ω.stateAfter κ ε σ pre).space.get q ≠ none ∧
      (ω.exec κ ε t (ω.stateAfter κ ε σ pre)).1.space.get q = none

/-- No run from `st` removes a file from a side unless the instruction of that very file
deletes it there. -/
structure OnlyOwnDeletes (κ : EngineConfig) (σ : State) : Prop where
  disk : ∀ ε (π : Schedule σ) t q, OwncloudSync.RemovesLocal κ ε π t q →
    instruction κ ε σ q = .deleteLocal
  space : ∀ ε (π : Schedule σ) t q, OwncloudSync.RemovesRemote κ ε π t q →
    instruction κ ε σ q = .deleteRemote

/-- No run from `st`, whatever calls fail in it, removes a file from a side unless the instruction of
that very file deletes it there; in particular a file that is new on one side outlives the run. -/
structure NoCollateralDeletion (κ : EngineConfig) (ω : Calls) (σ : State) : Prop where
  disk : ∀ ε (π : Schedule σ) t q, ω.RemovesLocal κ ε π t q →
    instruction κ ε (ω.read σ) q = .deleteLocal
  space : ∀ ε (π : Schedule σ) t q, ω.RemovesRemote κ ε π t q →
    instruction κ ε (ω.read σ) q = .deleteRemote
  newLocal : ∀ ε (π : Schedule σ) q a, σ.disk.get q = some (Node.file a) →
    σ.space.get q = none → σ.journal q = none →
    (ω.runSync κ ε π).2.disk.get q ≠ none ∨ (ω.runSync κ ε π).2.space.get q ≠ none
  newRemote : ∀ ε (π : Schedule σ) q r, σ.space.get q = some (Node.file r) →
    σ.disk.get q = none → σ.journal q = none →
    (ω.runSync κ ε π).2.disk.get q ≠ none ∨ (ω.runSync κ ε π).2.space.get q ≠ none

/-- The condition: a directory that one side has deleted holds, on the other side, only files
that are deleted themselves, and no file that is fetched has its temp name in the way of a
local file, unless that file is to be deleted or set aside. -/
structure DeletesAreIsolated (κ : EngineConfig) (σ : State) : Prop where
  dirLocal : ∀ d q a, σ.disk.get d = some Node.dir → σ.GoneRemotely d → d <:+ q →
    σ.disk.get q = some (Node.file a) → σ.GoneRemotely q
  dirRemote : ∀ d q r, σ.space.get d = some Node.dir → σ.GoneLocally d → d <:+ q →
    σ.space.get q = some (Node.file r) → σ.GoneLocally q
  temp : ∀ ε p r a, (itemOf κ ε σ p).fetches → σ.space.get p = some (Node.file r) →
    σ.disk.get (tmpPath p) = some (Node.file a) →
    σ.GoneRemotely (tmpPath p) ∨ (tmpPath p = p ∧ instruction κ ε σ p = .conflict)

/-! ## The condition is sufficient -/

/-- What a run removes from the disk is gone on the server. -/
lemma removesLocal_goneRemotely (hc : DeletesAreIsolated κ σ)
    (h : RemovesLocal κ ε π t q) : σ.GoneRemotely q := by
  obtain ⟨-, ⟨a, ha⟩, hown, pre, post, hsplit, hq, hnone⟩ := h
  have ht := mem_of_split hsplit
  obtain ⟨hne, hinstr, hdir, -⟩ := item_of_mem ht
  rcases exec_disk_removed hq hnone with ⟨hi, hbelow, -⟩ | ⟨hf, ⟨r, hr⟩, rfl⟩ | ⟨-, hi, hp⟩
  · -- deleted, or below a deleted directory
    have hgone := instruction_deleteLocal_iff.mp (hinstr.symm.trans hi)
    by_cases hp : t.path = q
    · exact hp ▸ hgone
    · exact hc.dirLocal t.path q a (σ.disk.dir_of_below hbelow hp (by rw [ha]; simp)) hgone
        hbelow ha
  · -- in the way of a temp file
    obtain ⟨hf', hr'⟩ := fetched_initially hsplit hf hr
    rcases hc.temp ε t.path r a hf' hr' ha with hgone | ⟨htp, hi⟩
    · exact hgone
    · exact absurd ⟨htp.symm, hinstr.trans hi⟩ hown
  · exact absurd ⟨hp.symm, hi⟩ hown

/-- What a run removes from the server is gone on the disk. -/
lemma removesRemote_goneLocally (hc : DeletesAreIsolated κ σ)
    (h : RemovesRemote κ ε π t q) : σ.GoneLocally q := by
  obtain ⟨-, ⟨r, hr⟩, pre, post, hsplit, hq, hnone⟩ := h
  obtain ⟨-, hinstr, -, -⟩ := item_of_mem (mem_of_split hsplit)
  obtain ⟨hi, hbelow⟩ := exec_space_removed hq hnone
  have hgone := instruction_deleteRemote_iff.mp (hinstr.symm.trans hi)
  by_cases hp : t.path = q
  · exact hp ▸ hgone
  · exact hc.dirRemote t.path q r (σ.space.dir_of_below hbelow hp (by rw [hr]; simp)) hgone
      hbelow hr

/-- A file that is new on the disk is still there after the run. -/
lemma newLocal_survives (hc : DeletesAreIsolated κ σ) {a : LocalFile}
    (ha : σ.disk.get q = some (Node.file a)) (hs : σ.space.get q = none)
    (hj : σ.journal q = none) : (runSync κ ε π).2.disk.get q ≠ none := by
  have hb := baseline_of_none hj
  have hpres : σ.disk.get q ≠ none := by rw [ha]; simp
  cases hdisc : ε.discovery with
  | some e =>
      rw [runSync_undiscovered hdisc]
      exact hpres
  | none =>
      rw [(runSync_discovery hdisc).1, propagated_eq]
      refine TaskRun.run_invariant_at (I := fun s : State => s.disk.get q ≠ none) hpres ?_
      intro pre post t hsplit hq hnone
      obtain ⟨-, hinstr, -, -⟩ := item_of_mem (mem_of_split hsplit)
      refine (removesLocal_goneRemotely hc
        ⟨hdisc, ⟨a, ha⟩, ?_, pre, post, hsplit, hq, hnone⟩).2.2 hb
      rintro ⟨rfl, hi⟩
      rw [hinstr, instruction_newLocal hpres hs hb] at hi
      cases hi

/-- A file that is new on the server is still there after the run. -/
lemma newRemote_survives (hc : DeletesAreIsolated κ σ) {r : RemoteFile}
    (hr : σ.space.get q = some (Node.file r)) (hj : σ.journal q = none) :
    (runSync κ ε π).2.space.get q ≠ none := by
  have hb := baseline_of_none hj
  have hpres : σ.space.get q ≠ none := by rw [hr]; simp
  cases hdisc : ε.discovery with
  | some e =>
      rw [runSync_undiscovered hdisc]
      exact hpres
  | none =>
      rw [(runSync_discovery hdisc).2.1, propagated_eq]
      refine TaskRun.run_invariant_at (I := fun s : State => s.space.get q ≠ none) hpres ?_
      intro pre post t hsplit hq hnone
      exact (removesRemote_goneLocally hc
        ⟨hdisc, ⟨r, hr⟩, pre, post, hsplit, hq, hnone⟩).2.2 hb

/-! ## The condition is necessary -/

/-- A directory the server has deleted takes every file below it along. -/
lemma dir_takes_local (hnc : OnlyOwnDeletes κ σ) {d : Path} {a : LocalFile}
    (hd : σ.disk.get d = some Node.dir) (hgone : σ.GoneRemotely d) (hdq : d <:+ q)
    (ha : σ.disk.get q = some (Node.file a)) : σ.GoneRemotely q := by
  obtain ⟨π⟩ := Schedule.exists σ
  let live : Op → Path → Bool := fun op r => op == .removeDirAll && r == d
  let ε := Env.calm.only live
  have hne : d ≠ [] := by
    rintro rfl
    rw [State.GoneRemotely, σ.space.root] at hgone
    cases hgone.2.1
  have hi : instruction κ ε σ d = .deleteLocal := instruction_deleteLocal_iff.mpr hgone
  obtain ⟨pre, post, hsplit, hsame⟩ := meets_start (κ := κ) (ε := Env.calm) (π := π)
    live (fun op r hr => by simp [live, hr]) hne (Or.inl hgone.1)
    (show instruction κ ε σ _ ≠ .ignore by rw [hi]; simp)
  refine instruction_deleteLocal_iff.mp (hnc.disk ε π (itemOf κ ε σ d) q
    ⟨rfl, ⟨a, ha⟩, ?_, pre, post, hsplit, by rw [hsame.disk, ha]; simp, ?_⟩)
  · rintro ⟨-, hc⟩
    rw [itemOf, hi] at hc
    cases hc
  · have hdir : isDirPath ε σ d = true := isDirPath_iff.mpr (Or.inl hd)
    have hfail : ε.fails .removeDirAll d = none := by simp [ε, Env.only, live]
    have hok : deleteLocalDir ε d (stateAfter κ ε σ pre).disk =
        (.ok (), σ.disk.erase d) := by
      rw [hsame.disk, deleteLocalDir, hfail, hd]
    simp only [exec, itemOf, hdir, if_true, execDir, hi, hok]
    exact (Tree.erase_get _ _ _).trans (if_pos ⟨hne, hdq⟩)

/-- A directory the user has deleted takes every remote file below it along. -/
lemma dir_takes_remote (hnc : OnlyOwnDeletes κ σ) {d : Path} {r : RemoteFile}
    (hd : σ.space.get d = some Node.dir) (hgone : σ.GoneLocally d) (hdq : d <:+ q)
    (hr : σ.space.get q = some (Node.file r)) : σ.GoneLocally q := by
  obtain ⟨π⟩ := Schedule.exists σ
  let live : Op → Path → Bool := fun op r => op == .delete && r == d
  let ε := Env.calm.only live
  have hne : d ≠ [] := by
    rintro rfl
    rw [State.GoneLocally, σ.disk.root] at hgone
    cases hgone.1
  have hi : instruction κ ε σ d = .deleteRemote := instruction_deleteRemote_iff.mpr hgone
  obtain ⟨pre, post, hsplit, hsame⟩ := meets_start (κ := κ) (ε := Env.calm) (π := π)
    live (fun op r hr => by simp [live, hr]) hne (Or.inr hgone.2.1)
    (show instruction κ ε σ _ ≠ .ignore by rw [hi]; simp)
  refine instruction_deleteRemote_iff.mp (hnc.space ε π (itemOf κ ε σ d) q
    ⟨rfl, ⟨r, hr⟩, pre, post, hsplit, by rw [hsame.space, hr]; simp, ?_⟩)
  have hfail : ε.fails .delete d = none := by simp [ε, Env.only, live]
  rw [exec_deleteRemote_space (show (itemOf κ ε σ d).instr = .deleteRemote from hi)]
  exact deleteRemote_ok hne (deleteRemote_succeeds hfail) hdq

/-- A download takes the local file at its temp name along. -/
lemma temp_takes_local (hnc : OnlyOwnDeletes κ σ) {ε₀ : Env} {p : Path}
    {r : RemoteFile} {a : LocalFile} (hf : (itemOf κ ε₀ σ p).fetches)
    (hr : σ.space.get p = some (Node.file r))
    (ha : σ.disk.get (tmpPath p) = some (Node.file a)) :
    σ.GoneRemotely (tmpPath p) ∨ (tmpPath p = p ∧ instruction κ ε₀ σ p = .conflict) := by
  by_cases hconf : tmpPath p = p ∧ instruction κ ε₀ σ p = .conflict
  · exact Or.inr hconf
  refine Or.inl ?_
  obtain ⟨π⟩ := Schedule.exists σ
  have hne : p ≠ [] := by
    rintro rfl
    rw [σ.space.root] at hr
    cases hr
  obtain ⟨ts, hts, -⟩ := exists_clock σ.disk [] hne
  -- everything about `p` works, but where `p` is its own temp file the last rename
  let live : Op → Path → Bool := fun op x => x == p && !(tmpPath p == p && op == .renameTmp)
  let ε := ({ Env.calm with clock := fun _ => ts } : Env).only live
  have hndir : σ.space.get p ≠ some Node.dir := by rw [hr]; simp
  have hinstr := instruction_env (κ := κ) (ε := ε) ε₀ hndir
  have hfile : isDirPath ε σ p = false := by
    have h := isDirPath_eq_false.mp hf.1
    exact isDirPath_eq_false.mpr h
  have hfetch : (itemOf κ ε σ p).fetches := ⟨hfile, by
    rw [show (itemOf κ ε σ p).instr = _ from hinstr]
    exact hf.2⟩
  have hnotIgnored : instruction κ ε σ p ≠ .ignore := by
    rw [hinstr]
    intro hc
    rcases hf.2 with hi | hi
    · exact absurd (hi.symm.trans hc) (by simp)
    · exact absurd (hi.symm.trans hc) (by simp)
  obtain ⟨pre, post, hsplit, hsame⟩ := meets_start (κ := κ) (π := π)
    live (fun op x hx => by simp [live, hx]) hne (Or.inr (by rw [hr]; simp)) hnotIgnored
  refine instruction_deleteLocal_iff.mp (hnc.disk ε π (itemOf κ ε σ p) (tmpPath p)
    ⟨rfl, ⟨a, ha⟩, ?_, pre, post, hsplit, by rw [hsame.disk, ha]; simp, ?_⟩)
  · rintro ⟨hpt, hi⟩
    exact hconf ⟨hpt.symm, hinstr.symm.trans hi⟩
  · cases hpath : p with
    | nil => exact absurd hpath hne
    | cons n x =>
      subst hpath
      by_cases hself : tmpPath (n :: x) = n :: x
      · -- only `Download` is left, and its clean-up removes the destination
        have hi : instruction κ ε σ (n :: x) = .download := by
          rcases hfetch.2 with hi | hi
          · exact hi
          · exact absurd ⟨hself, hinstr.symm.trans hi⟩ hconf
        simp only [exec, itemOf, hfile, Bool.false_eq_true, if_false, execFile, hi]
        rw [downloadAndRecord_disk, hsame.disk, hsame.space]
        refine propagateDownload_renameFails (e := idleFailure (n :: x)) (fun op hop => ?_) ?_
          hr ha
        · simp [ε, Env.only, live, hop]
        · simp [ε, Env.only, live, hself]
      · have hpar : σ.disk.get x = some Node.dir :=
          σ.disk.closed (tmpName n) x (by rw [← tmpPath, ha]; simp)
        refine (exec_fetch_succeeds (t := itemOf κ ε σ (n :: x)) (r := r) hne hfetch
          (fun op => ?_) (by rw [hsame.space]; exact hr)
          (by rw [hsame.disk]; exact fun b hb => σ.disk.dir_above_dir hpar hb)
          (by rw [hsame.disk, itemOf, ha]; simp) ?_ (fun hi => ?_)).2 hself
        · simp [ε, Env.only, live, hself, itemOf]
        · rw [hsame.disk]
          exact (isDirPath_eq_false.mp hfile).1
        · rw [hsame.disk]
          exact ⟨exists_localFile hfile (instruction_conflict hi).1, hts⟩

/-- The condition is exact for the runs whose journal works. -/
lemma onlyOwnDeletes_iff : OnlyOwnDeletes κ σ ↔ DeletesAreIsolated κ σ := by
  constructor
  · intro hnc
    exact {
      dirLocal := fun d q a hd hgone hdq ha => dir_takes_local hnc hd hgone hdq ha
      dirRemote := fun d q r hd hgone hdq hr => dir_takes_remote hnc hd hgone hdq hr
      temp := fun ε p r a hf hr ha => temp_takes_local hnc hf hr ha }
  · intro hc
    exact {
      disk := fun ε π t q h =>
        instruction_deleteLocal_iff.mpr (removesLocal_goneRemotely hc h)
      space := fun ε π t q h =>
        instruction_deleteRemote_iff.mpr (removesRemote_goneLocally hc h) }

/-! ## The calls that fail in silence -/

section Silent

variable (hplain : σ.Plain)

include hplain in
/-- A task meets and leaves the trees it would with a journal that works. -/
lemma Calls.trees_at {pre post : List Item} (hsplit : ω.tasks κ ε π = pre ++ t :: post) :
    ((ω.stateAfter κ ε σ pre).disk = (OwncloudSync.stateAfter κ ε (ω.read σ) pre).disk ∧
      (ω.stateAfter κ ε σ pre).space = (OwncloudSync.stateAfter κ ε (ω.read σ) pre).space) ∧
    (ω.exec κ ε t (ω.stateAfter κ ε σ pre)).1.disk =
      (OwncloudSync.exec κ ε t (OwncloudSync.stateAfter κ ε (ω.read σ) pre)).1.disk ∧
    (ω.exec κ ε t (ω.stateAfter κ ε σ pre)).1.space =
      (OwncloudSync.exec κ ε t (OwncloudSync.stateAfter κ ε (ω.read σ) pre)).1.space := by
  have hurl := Calls.served_of_plain (ω := ω) (κ := κ) (ε := ε) (π := π) hplain
  obtain ⟨hbefore, -⟩ := Calls.follows_batch hurl (mem_of_pre hsplit)
  obtain ⟨hafter, -⟩ := Calls.follows_batch hurl (mem_of_concat hsplit)
  rw [stateAfter_concat] at hafter
  have hlast : ω.stateAfter κ ε σ (pre ++ [t]) = (ω.exec κ ε t (ω.stateAfter κ ε σ pre)).1 :=
    TaskRun.run_split rfl _
  rw [hlast] at hafter
  exact ⟨⟨hbefore.disk, hbefore.space⟩, hafter.disk, hafter.space⟩

include hplain in
lemma Calls.removesLocal_iff :
    ω.RemovesLocal κ ε π t q ↔ OwncloudSync.RemovesLocal κ ε (π.read ω) t q := by
  unfold Calls.RemovesLocal OwncloudSync.RemovesLocal
  refine and_congr_right' (and_congr_right' (and_congr_right' ?_))
  constructor
  · rintro ⟨pre, post, hsplit, hq, hnone⟩
    obtain ⟨⟨hd, -⟩, hd', -⟩ := Calls.trees_at hplain hsplit
    exact ⟨pre, post, hsplit, hd ▸ hq, hd' ▸ hnone⟩
  · rintro ⟨pre, post, hsplit, hq, hnone⟩
    obtain ⟨⟨hd, -⟩, hd', -⟩ := Calls.trees_at hplain hsplit
    exact ⟨pre, post, hsplit, hd.symm ▸ hq, hd'.symm ▸ hnone⟩

include hplain in
lemma Calls.removesRemote_iff :
    ω.RemovesRemote κ ε π t q ↔ OwncloudSync.RemovesRemote κ ε (π.read ω) t q := by
  unfold Calls.RemovesRemote OwncloudSync.RemovesRemote
  refine and_congr_right' (and_congr_right' ?_)
  constructor
  · rintro ⟨pre, post, hsplit, hq, hnone⟩
    obtain ⟨⟨-, hs⟩, -, hs'⟩ := Calls.trees_at hplain hsplit
    exact ⟨pre, post, hsplit, hs ▸ hq, hs' ▸ hnone⟩
  · rintro ⟨pre, post, hsplit, hq, hnone⟩
    obtain ⟨⟨-, hs⟩, -, hs'⟩ := Calls.trees_at hplain hsplit
    exact ⟨pre, post, hsplit, hs.symm ▸ hq, hs'.symm ▸ hnone⟩

end Silent

/-- **No collateral deletion, exactly.**  No run between plain names removes a file that is not
itself to be deleted if and only if deleted directories hold no file that stays and temp names are
free, where a row that cannot be read is none. -/
theorem noCollateralDeletion_iff (κ : EngineConfig) (ω : Calls) {σ : State} (hplain : σ.Plain) :
    NoCollateralDeletion κ ω σ ↔ DeletesAreIsolated κ (ω.read σ) := by
  have hend : ∀ (ε : Env) (π : Schedule σ),
      (ω.runSync κ ε π).2.disk = (runSync κ ε (π.read ω)).2.disk ∧
        (ω.runSync κ ε π).2.space = (runSync κ ε (π.read ω)).2.space := by
    intro ε π
    obtain ⟨-, hd, hs, -, -⟩ := Calls.follows_runSync (ω := ω) (κ := κ) (ε := ε) (π := π)
      (Calls.served_of_plain hplain)
    exact ⟨hd, hs⟩
  constructor
  · intro hnc
    refine onlyOwnDeletes_iff.mp ⟨fun ε π t q h => ?_, fun ε π t q h => ?_⟩
    · exact hnc.disk ε π.ofRead t q
        ((Calls.removesLocal_iff hplain).mpr h)
    · exact hnc.space ε π.ofRead t q
        ((Calls.removesRemote_iff hplain).mpr h)
  · intro hc
    have hown := onlyOwnDeletes_iff.mpr hc
    -- a path without a row has none that could be read
    have hnew : ∀ q, σ.journal q = none → (ω.read σ).journal q = none := by
      intro q hj
      rw [Calls.read_journal, hj]
      exact ite_self none
    exact {
      disk := fun ε π t q h => hown.disk ε _ t q ((Calls.removesLocal_iff hplain).mp h)
      space := fun ε π t q h => hown.space ε _ t q ((Calls.removesRemote_iff hplain).mp h)
      newLocal := fun ε π q a ha hs hj => by
        rw [(hend ε π).1]
        exact Or.inl (newLocal_survives hc ha hs (hnew q hj))
      newRemote := fun ε π q r hr hd hj => by
        rw [(hend ε π).2]
        exact Or.inr (newRemote_survives hc hr (hnew q hj)) }

/-- A synced directory `e` with a synced file, both of which the server has deleted. -/
def deletedWithContent : State where
  disk := Tree.ofList [(["e".toList], Node.dir),
    (["old.txt".toList, "e".toList], Node.file ⟨⟨[80], by decide⟩, 7⟩)]
  space := Tree.ofList []
  journal := Journal.upsertEntry (Journal.upsertEntry (fun _ => none) ["e".toList]
    (dirRow ["e".toList] none)) ["old.txt".toList, "e".toList]
      (fileRow ["old.txt".toList, "e".toList] "e1".toList 1 none)
  sync := ⟨.idle, fun _ => none⟩

lemma deletedWithContent_space {p : Path} (h : deletedWithContent.space.get p ≠ none) : p = [] := by
  simpa using Tree.ofList_mem h

lemma deletedWithContent_disk {p : Path} (h : deletedWithContent.disk.get p ≠ none) :
    p = [] ∨ p = ["e".toList] ∨ p = ["old.txt".toList, "e".toList] := by
  simpa using Tree.ofList_mem h

/-- The theorem where no row can be written: the rows that can be read are enough. -/
theorem noCollateralDeletion_deleted : NoCollateralDeletion ⟨.keepBoth, 5000000⟩
    { Calls.sound with unwritten := fun _ => true } deletedWithContent := by
  refine (noCollateralDeletion_iff _ _ (fun p hp n hn => ?_)).mpr
    ⟨fun d q a _ _ _ ha => ?_, fun d q r _ _ _ hr => ?_, fun ε p r a _ hr _ => ?_⟩
  · rcases hp with hp | hp
    · rcases deletedWithContent_disk hp with rfl | rfl | rfl
      · cases hn
      · revert n
        decide
      · revert n
        decide
    · rw [deletedWithContent_space hp] at hn
      cases hn
  · replace ha : deletedWithContent.disk.get q = some (Node.file a) := ha
    rcases deletedWithContent_disk (by rw [ha]; simp) with rfl | rfl | rfl
    · cases (Tree.root _).symm.trans ha
    · have hdir : deletedWithContent.disk.get ["e".toList] = some Node.dir := by decide
      cases hdir.symm.trans ha
    · exact ⟨by decide, by decide, by decide⟩
  · replace hr : deletedWithContent.space.get q = some (Node.file r) := hr
    have hroot := deletedWithContent_space (show deletedWithContent.space.get _ ≠ none by rw [hr]; simp)
    rw [hroot] at hr
    cases (Tree.root _).symm.trans hr
  · replace hr : deletedWithContent.space.get p = some (Node.file r) := hr
    have hroot := deletedWithContent_space (show deletedWithContent.space.get _ ≠ none by rw [hr]; simp)
    rw [hroot] at hr
    cases (Tree.root _).symm.trans hr

/-- A synced directory `d` the server has deleted, with a file `d/new.txt` the user has just
created in it. -/
def newFileInDeletedDir : State where
  disk := Tree.ofList [(["d".toList], Node.dir),
    (["new.txt".toList, "d".toList], Node.file ⟨⟨[104, 105], by decide⟩, 7⟩)]
  space := Tree.ofList []
  journal := Journal.upsertEntry (fun _ => none) ["d".toList] (dirRow ["d".toList] none)
  sync := ⟨.idle, fun _ => none⟩

/-- The directory first, then the new file. -/
def newFileInDeletedDirSchedule : Schedule newFileInDeletedDir :=
  Schedule.ofList newFileInDeletedDir rfl rfl
    [["d".toList], ["new.txt".toList, "d".toList]] (by decide) (by decide) (by decide)

/-- Without any failure, `remove_dir_all` takes the new file along before it is uploaded, and
afterwards it is on neither side. -/
theorem newFile_lost :
    ¬ NoCollateralDeletion ⟨.keepBoth, 5000000⟩ Calls.sound newFileInDeletedDir := by
  intro hnc
  rcases hnc.newLocal Env.calm newFileInDeletedDirSchedule ["new.txt".toList, "d".toList]
    ⟨⟨[104, 105], by decide⟩, 7⟩ (by decide) (by decide) (by decide) with h | h
  · exact h (by decide)
  · exact h (by decide)

/-! ## Edits against deletions -/

/-- `reconcile` deletes only what has not changed since the baseline. -/
def DeletesUnchanged (loc : Option LocalEntry) (rem : Option RemoteEntry)
    (journal : Option JournalBaseline) (strategy : ConflictStrategy) : Prop :=
  (reconcile loc rem journal strategy = .deleteLocal →
    ∃ l e, loc = some l ∧ journal = some (e, l.size)) ∧
  (reconcile loc rem journal strategy = .deleteRemote →
    ∃ r n, rem = some r ∧ journal = some (r.etag, n))

/-- The side that is left, if only one is, agrees with the baseline, if there is one. -/
def SurvivorUnchanged (loc : Option LocalEntry) (rem : Option RemoteEntry)
    (journal : Option JournalBaseline) : Prop :=
  (∀ l e n, loc = some l → rem = none → journal = some (e, n) → l.size = n) ∧
  (∀ r e n, loc = none → rem = some r → journal = some (e, n) → r.etag = e)

lemma deletesUnchanged_iff {loc : Option LocalEntry} {rem : Option RemoteEntry}
    {journal : Option JournalBaseline} {strategy : ConflictStrategy} :
    DeletesUnchanged loc rem journal strategy ↔ SurvivorUnchanged loc rem journal := by
  unfold DeletesUnchanged SurvivorUnchanged
  rw [reconcile_deleteLocal_iff, reconcile_deleteRemote_iff]
  rcases loc with _ | l <;> rcases rem with _ | r <;> rcases journal with _ | ⟨e, n⟩ <;>
    simp [eq_comm]

/-- No run from `st` removes, because the other side deleted it, a file that was edited after
its last sync: what such a delete takes has the journaled size, or the journaled etag. -/
structure EditsSurvive (κ : EngineConfig) (σ : State) : Prop where
  disk : ∀ ε (π : Schedule σ) t q a e n, RemovesLocal κ ε π t q →
    t.instr = .deleteLocal → σ.disk.get q = some (Node.file a) →
    σ.journal.baseline q = some (e, n) → a.content.len = n
  space : ∀ ε (π : Schedule σ) t q r e n, RemovesRemote κ ε π t q →
    t.instr = .deleteRemote → σ.space.get q = some (Node.file r) →
    σ.journal.baseline q = some (e, n) → trimQuotes r.etag = e

/-- No synced file that one side has deleted was edited on the other. -/
structure GoneFilesUnchanged (σ : State) : Prop where
  disk : ∀ q a e n, σ.disk.get q = some (Node.file a) → σ.space.get q = none →
    σ.journal.baseline q = some (e, n) → a.content.len = n
  space : ∀ q r e n, σ.space.get q = some (Node.file r) → σ.disk.get q = none →
    σ.journal.baseline q = some (e, n) → trimQuotes r.etag = e

/-- An edited file whose old version the server deleted is removed by its own task. -/
lemma edited_local_removed {a : LocalFile} (ha : σ.disk.get q = some (Node.file a))
    (hgone : σ.GoneRemotely q) (π : Schedule σ) :
    ∃ ε t, RemovesLocal κ ε π t q ∧ t.instr = .deleteLocal := by
  let live : Op → Path → Bool := fun op r => op == .removeFile && r == q
  let ε := Env.calm.only live
  have hne : q ≠ [] := by
    rintro rfl
    rw [σ.disk.root] at ha
    cases ha
  have hi : instruction κ ε σ q = .deleteLocal := instruction_deleteLocal_iff.mpr hgone
  obtain ⟨pre, post, hsplit, hsame⟩ := meets_start (κ := κ) (ε := Env.calm) (π := π)
    live (fun op r hr => by simp [live, hr]) hne (Or.inl hgone.1)
    (show instruction κ ε σ _ ≠ .ignore by rw [hi]; simp)
  refine ⟨ε, itemOf κ ε σ q,
    ⟨rfl, ⟨a, ha⟩, ?_, pre, post, hsplit, by rw [hsame.disk, ha]; simp, ?_⟩, hi⟩
  · rintro ⟨-, hc⟩
    rw [itemOf, hi] at hc
    cases hc
  · have hdir : isDirPath ε σ q = false :=
      isDirPath_eq_false.mpr ⟨by rw [ha]; simp, fun hn => absurd hn hgone.1⟩
    have hfail : ε.fails .removeFile q = none := by simp [ε, Env.only, live]
    have hok : deleteLocal ε q (stateAfter κ ε σ pre).disk =
        (.ok (), σ.disk.erase q) := by
      rw [hsame.disk, deleteLocal, hfail, ha]
    simp only [exec, itemOf, hdir, Bool.false_eq_true, if_false, execFile, hi, hok]
    exact Tree.erase_self hne

/-- An edited file whose old version the user deleted is removed by its own task. -/
lemma edited_remote_removed {r : RemoteFile} (hr : σ.space.get q = some (Node.file r))
    (hgone : σ.GoneLocally q) (π : Schedule σ) :
    ∃ ε t, RemovesRemote κ ε π t q ∧ t.instr = .deleteRemote := by
  let live : Op → Path → Bool := fun op r => op == .delete && r == q
  let ε := Env.calm.only live
  have hne : q ≠ [] := by
    rintro rfl
    rw [σ.space.root] at hr
    cases hr
  have hi : instruction κ ε σ q = .deleteRemote := instruction_deleteRemote_iff.mpr hgone
  obtain ⟨pre, post, hsplit, hsame⟩ := meets_start (κ := κ) (ε := Env.calm) (π := π)
    live (fun op r hr => by simp [live, hr]) hne (Or.inr hgone.2.1)
    (show instruction κ ε σ _ ≠ .ignore by rw [hi]; simp)
  refine ⟨ε, itemOf κ ε σ q,
    ⟨rfl, ⟨r, hr⟩, pre, post, hsplit, by rw [hsame.space, hr]; simp, ?_⟩, hi⟩
  have hfail : ε.fails .delete q = none := by simp [ε, Env.only, live]
  rw [exec_deleteRemote_space (show (itemOf κ ε σ q).instr = .deleteRemote from hi)]
  exact deleteRemote_ok hne (deleteRemote_succeeds hfail) (List.suffix_refl q)

/-- A synced file of one byte that the server has deleted and the user has made longer. -/
def editedThenDeleted : State where
  disk := Tree.ofList [(["a.txt".toList], Node.file ⟨⟨[1, 2, 3], by decide⟩, 9⟩)]
  space := Tree.ofList []
  journal := Journal.upsertEntry (fun _ => none) ["a.txt".toList]
    (fileRow ["a.txt".toList] "e1".toList 1 none)
  sync := ⟨.idle, fun _ => none⟩

end OwncloudSync
