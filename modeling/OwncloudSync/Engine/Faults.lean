import OwncloudSync.Engine.Plan
import OwncloudSync.Engine.TaskEffects
import Mathlib.Tactic.Common

/-!
# Runs in which almost everything fails

To show that a run **can** do something it is enough to let one or two tasks work and every
other call fail before it has done anything.  `Env.only live` is such an environment: the calls
in `live` succeed, all others are idle failures.  A task without live calls changes neither the
trees nor the journal (`exec_idle`), so the live tasks meet the state the run started from
(`run_idle`).
-/

namespace OwncloudSync

open PathTree

/-- A call that fails before it has done anything. -/
def idleFailure (p : Path) : Failure where
  error := .cancelled
  performed := false
  removed := fun _ => false
  progress := p.length

/-- Only the calls in `live` succeed; discovery does. -/
def Env.only (ε : Env) (live : Op → Path → Bool) : Env :=
  { ε with
    discovery := none
    fails := fun op p => if live op p then none else some (idleFailure p) }

/-- The two states have the same trees and the same journal. -/
structure SameFiles (σ σ' : State) : Prop where
  disk : σ'.disk = σ.disk
  space : σ'.space = σ.space
  journal : σ'.journal = σ.journal

lemma SameFiles.refl (σ : State) : SameFiles σ σ := ⟨rfl, rfl, rfl⟩

lemma SameFiles.trans {a b c : State} (h : SameFiles a b) (h' : SameFiles b c) :
    SameFiles a c :=
  ⟨h'.disk.trans h.disk, h'.space.trans h.space, h'.journal.trans h.journal⟩

lemma sameFiles_started (σ : State) : SameFiles σ σ.started := ⟨rfl, rfl, rfl⟩

variable {κ : EngineConfig} {ε : Env} {t : Item} {σ : State}

lemma prune_idle {α : Type} (t : Tree Name α) (p q : Path) :
    t.prune (fun a => decide (p <:+ a) && (idleFailure q).removed a) = t := by
  ext r : 2
  rw [Tree.prune_get, if_neg]
  intro hc
  obtain ⟨a, -, -, ha⟩ := Tree.covered_iff.mp hc
  simp [idleFailure] at ha

lemma createDirAll_idle (p : Path) (d : Disk) :
    createDirAll (some (idleFailure p)) p d = (.error .cancelled, d) := by
  simp [createDirAll, idleFailure, Tree.mkdirAll?]

/-- A task all of whose calls fail at once leaves the trees and the journal as they are. -/
lemma exec_idle (h : ∀ op, ε.fails op t.path = some (idleFailure t.path)) :
    SameFiles σ (exec κ ε t σ).1 := by
  have hdl : ∀ s : State, SameFiles s (downloadAndRecord ε t s).1 := by
    intro s
    unfold downloadAndRecord propagateDownload
    rw [h]
    exact ⟨rfl, rfl, rfl⟩
  have hdr : deleteRemote ε t.path σ.space = (.error .cancelled, σ.space) := by
    unfold deleteRemote
    rw [h]
    exact Prod.ext rfl (prune_idle _ _ _)
  have hup : ∀ size, propagateUpload κ ε t.path size σ.disk σ.space =
      (.error .cancelled, σ.space) := by
    intro size
    unfold propagateUpload
    split
    · unfold uploadTus
      rw [h]
      rfl
    · unfold uploadPut
      rw [h]
      rfl
  unfold exec
  split
  · unfold execDir
    split
    · rw [h]
      exact ⟨rfl, rfl, rfl⟩
    · rw [h, createDirAll_idle]
      exact ⟨rfl, rfl, rfl⟩
    · rw [hdr]
      exact ⟨rfl, rfl, rfl⟩
    · unfold deleteLocalDir
      rw [h]
      exact ⟨prune_idle _ _ _, rfl, rfl⟩
    · exact SameFiles.refl σ
  · unfold execFile
    split
    · exact hdl σ
    · dsimp only
      rw [hup]
      exact ⟨rfl, rfl, rfl⟩
    · rw [h]
      exact ⟨rfl, rfl, rfl⟩
    · unfold deleteLocal
      rw [h]
      exact ⟨rfl, rfl, rfl⟩
    · rw [hdr]
      exact ⟨rfl, rfl, rfl⟩
    · exact SameFiles.refl σ

/-- A batch of idle tasks leaves the trees and the journal as they are. -/
lemma run_idle (ts : List Item) (live : Op → Path → Bool)
    (h : ∀ t ∈ ts, ∀ op, live op t.path = false) :
    SameFiles σ (TaskRun.run (exec κ (ε.only live)) ts σ).1 := by
  refine TaskRun.run_invariant (I := SameFiles σ) (SameFiles.refl σ) (fun t hit s hs => ?_)
  refine hs.trans (exec_idle (fun op => ?_))
  simp [Env.only, h t hit op]

variable {π : Schedule σ} {q : Path}

/-- The task of `p` meets the state the run started from when only calls for `p` are live. -/
lemma meets_start (live : Op → Path → Bool) {p : Path}
    (hlive : ∀ op r, r ≠ p → live op r = false) (hne : p ≠ [])
    (hpres : σ.disk.get p ≠ none ∨ σ.space.get p ≠ none)
    (hi : instruction κ (ε.only live) σ p ≠ .ignore) :
    ∃ pre post, tasks κ (ε.only live) π = pre ++ itemOf κ (ε.only live) σ p :: post ∧
      SameFiles σ (stateAfter κ (ε.only live) σ pre) := by
  obtain ⟨pre, post, hsplit⟩ := List.append_of_mem (itemOf_mem_tasks (π := π) hne hpres hi)
  refine ⟨pre, post, hsplit, (sameFiles_started σ).trans (run_idle pre live (fun u hu op => ?_))⟩
  exact hlive op u.path (path_ne_of_before hsplit hu)

/-- A run in which only calls for the files `ps` are live, their tasks running first, does what
these tasks do to the state the run started from. -/
lemma run_live (live : Op → Path → Bool) (ps : List Path) (hnd : ps.Nodup)
    (hps : ∀ p ∈ ps, p ∈ π.order) (hlive : ∀ op r, r ∉ ps → live op r = false)
    (hdir : ∀ p ∈ ps, isDirPath (ε.only live) σ p = false)
    (hi : ∀ p ∈ ps, instruction κ (ε.only live) σ p ≠ .ignore) :
    ∃ (π' : Schedule σ) (s : State), SameFiles σ s ∧ SameFiles
      (TaskRun.run (exec κ (ε.only live)) (ps.map (itemOf κ (ε.only live) σ)) s).1
      (runSync κ (ε.only live) π').2 := by
  have htasks := tasks_first (κ := κ) hnd hps hdir hi
  set pre := (instructions κ (ε.only live) σ π.order).filter (·.isDir) with hpre
  set post := (instructions κ (ε.only live) σ (π.order.filter (fun p => p ∉ ps))).filter
    (fun t => !t.isDir) with hpost
  have hidle₁ : ∀ u ∈ pre, ∀ op, live op u.path = false := by
    intro u hu op
    rw [hpre, List.mem_filter] at hu
    refine hlive op u.path (fun hmem => ?_)
    have hd := hdir u.path hmem
    rw [(mem_instructions.mp hu.1).2.1] at hu
    exact absurd (hd.symm.trans hu.2) (by simp)
  have hidle₂ : ∀ u ∈ post, ∀ op, live op u.path = false := by
    intro u hu op
    rw [hpost, List.mem_filter] at hu
    have hmem := (mem_instructions.mp hu.1).1
    rw [List.mem_filter, decide_eq_true_eq] at hmem
    exact hlive op u.path hmem.2
  refine ⟨π.first ps hnd hps, stateAfter κ (ε.only live) σ pre,
    (sameFiles_started σ).trans (run_idle pre live hidle₁), ?_⟩
  obtain ⟨hd, hs, hj⟩ := runSync_discovery (κ := κ) (ε := ε.only live)
    (π := π.first ps hnd hps) rfl
  have hend := run_idle (κ := κ) (ε := ε) post live
    (σ := (TaskRun.run (exec κ (ε.only live)) (ps.map (itemOf κ (ε.only live) σ))
      (stateAfter κ (ε.only live) σ pre)).1) hidle₂
  have hrun : (propagated κ (ε.only live) (π.first ps hnd hps)).1 = _ :=
    congrArg Prod.fst (congrArg (fun ts => TaskRun.run (exec κ (ε.only live)) ts σ.started)
      htasks)
  rw [(TaskRun.run_append pre _ σ.started).1, (TaskRun.run_append _ post _).1] at hrun
  exact ⟨hd.trans (hrun ▸ hend.disk), hs.trans (hrun ▸ hend.space),
    hj.trans (hrun ▸ hend.journal)⟩

/-- The case of one file. -/
lemma run_live_one (live : Op → Path → Bool) {p : Path} (hp : p ∈ π.order)
    (hlive : ∀ op r, r ≠ p → live op r = false)
    (hdir : isDirPath (ε.only live) σ p = false)
    (hi : instruction κ (ε.only live) σ p ≠ .ignore) :
    ∃ (π' : Schedule σ) (s : State), SameFiles σ s ∧
      SameFiles (exec κ (ε.only live) (itemOf κ (ε.only live) σ p) s).1
        (runSync κ (ε.only live) π').2 := by
  exact run_live (κ := κ) (ε := ε) live [p] (List.nodup_singleton p)
    (by simpa using hp) (fun op r hr => hlive op r (by simpa using hr)) (by simpa using hdir)
    (by simpa using hi)

/-- A run in which every call fails at once changes nothing. -/
lemma run_dead (κ : EngineConfig) (ε : Env) (σ : State) : ∃ π : Schedule σ,
    SameFiles σ (runSync κ (ε.only (fun _ _ => false)) π).2 := by
  obtain ⟨π⟩ := Schedule.exists σ
  obtain ⟨π', s, hsame, hend⟩ := run_live (κ := κ) (ε := ε) (π := π) (fun _ _ => false) []
    List.nodup_nil (by simp) (by simp) (by simp) (by simp)
  exact ⟨π', hsame.trans hend⟩

end OwncloudSync
