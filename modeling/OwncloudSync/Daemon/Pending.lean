import OwncloudSync.Daemon.SingleFlight
import OwncloudSync.Lib.Runs
import Mathlib.Tactic.Common

/-!
# What becomes of a request

A request sets `pending`, and only `start_sync` clears it: neither `finish_sync` nor `pause` nor
`resume` touch the flag (`apply_pending`).  So a request that was **taken** is remembered until
the next start, over whatever the loop and the tasks do in between, and the first tick that finds
the folder idle and not paused starts it.

The two requests differ in what they take.  `force_request_sync` (the GUI) takes every request
for a folder that is not paused; `request_sync` (the poller and the watchers) passes over a folder
whose sync is running, and leaves the change to the next poll.
-/

namespace OwncloudSync

namespace SyncScheduler

/-- The calls that change the scheduler. -/
inductive Op where
  | addFolder (id : Uuid)
  | requestSync (id : Uuid)
  | forceRequestSync (id : Uuid)
  | startSync (id : Uuid)
  | finishSync (id : Uuid)
  | pause (id : Uuid)
  | resume (id : Uuid)

/-- What an operation does to the scheduler. -/
def apply (s : SyncScheduler) : Op → SyncScheduler
  | .addFolder id => s.addFolder id
  | .requestSync id => s.requestSync id
  | .forceRequestSync id => s.forceRequestSync id
  | .startSync id => s.startSync id
  | .finishSync id => s.finishSync id
  | .pause id => s.pause id
  | .resume id => s.resume id

/-- The calls of an interleaving, one after another. -/
def perform (s : SyncScheduler) (ops : List Op) : SyncScheduler := ops.foldl apply s

/-- The folder has a sync to come. -/
def pending (s : SyncScheduler) (id : Uuid) : Bool := (s id).any FolderScheduleState.pending

variable {s : SyncScheduler} {id x : Uuid} {f : FolderScheduleState → FolderScheduleState}

/-- A change that never clears the flag in a state keeps it for every folder. -/
lemma modify_pending (h : ∀ st, st.pending = true → (f st).pending = true)
    (hp : s.pending x = true) : (s.modify id f).pending x = true := by
  unfold pending at hp ⊢
  by_cases hx : x = id
  · subst hx
    rw [modify_self]
    cases hst : s x with
    | none => rw [hst] at hp; exact hp
    | some st =>
        rw [hst] at hp
        exact h st hp
  · rw [modify_ne hx]
    exact hp

/-- **Only `start_sync` of the folder itself clears its flag.** -/
lemma apply_pending {op : Op} (hp : s.pending x = true) (hop : op ≠ .startSync x) :
    (s.apply op).pending x = true := by
  cases op with
  | addFolder id =>
      unfold pending at hp ⊢
      simp only [apply, addFolder]
      by_cases hx : x = id
      · subst hx
        rw [if_pos rfl]
        cases hst : s x with
        | none => rw [hst] at hp; cases hp
        | some st => rw [hst] at hp; exact hp
      · rw [if_neg hx]
        exact hp
  | requestSync id =>
      refine modify_pending (fun st hst => ?_) hp
      split
      · rfl
      · exact hst
  | forceRequestSync id =>
      refine modify_pending (fun st hst => ?_) hp
      split
      · rfl
      · exact hst
  | startSync id =>
      have hx : x ≠ id := by
        rintro rfl
        exact hop rfl
      unfold pending at hp ⊢
      simp only [apply, startSync, modify_ne hx]
      exact hp
  | finishSync id => exact modify_pending (fun _ hst => hst) hp
  | pause id => exact modify_pending (fun _ hst => hst) hp
  | resume id => exact modify_pending (fun _ hst => hst) hp

lemma perform_pending {ops : List Op} (hp : s.pending x = true) (hops : .startSync x ∉ ops) :
    (s.perform ops).pending x = true := by
  induction ops generalizing s with
  | nil => exact hp
  | cons op ops ih =>
      rw [List.mem_cons, not_or] at hops
      exact ih (apply_pending hp (Ne.symm hops.1)) hops.2

/-- No call makes a folder unknown. -/
lemma apply_known {op : Op} (h : s x ≠ none) : s.apply op x ≠ none := by
  cases op with
  | addFolder id =>
      simp only [apply, addFolder]
      by_cases hx : x = id
      · simp [hx]
      · rw [if_neg hx]
        exact h
  | _ => exact modify_known.mpr h

lemma perform_known {ops : List Op} (h : s x ≠ none) : s.perform ops x ≠ none := by
  induction ops generalizing s with
  | nil => exact h
  | cons op ops ih => exact ih (apply_known h)

/-! ## The requests that are taken -/

lemma forceRequestSync_pending (hknown : s id ≠ none) (hpaused : s.paused id = false) :
    (s.forceRequestSync id).pending id = true := by
  obtain ⟨st, hst⟩ := Option.ne_none_iff_exists'.mp hknown
  simp only [paused, hst, Option.any_some] at hpaused
  simp [pending, forceRequestSync, modify_self, hst, hpaused]

lemma requestSync_pending (hknown : s id ≠ none) (hpaused : s.paused id = false)
    (hrunning : s.running id = false) : (s.requestSync id).pending id = true := by
  obtain ⟨st, hst⟩ := Option.ne_none_iff_exists'.mp hknown
  simp only [paused, running, hst, Option.any_some] at hpaused hrunning
  simp [pending, requestSync, modify_self, hst, hpaused, hrunning]

lemma isReady_of_pending (hp : s.pending id = true) (hpaused : s.paused id = false)
    (hrunning : s.running id = false) : s.isReady id = true := by
  refine isReady_iff.mpr ⟨fun hn => ?_, hrunning, hpaused, hp⟩
  rw [pending, hn] at hp
  cases hp

end SyncScheduler

namespace Daemon

variable {d d' : Daemon} {f : Uuid}

/-! ## The calls of a step -/

/-- Every step changes the scheduler through its calls, and calls `start_sync` only for what it
starts. -/
lemma step_ops (hs : Step d d') : ∃ ops, d'.scheduler = d.scheduler.perform ops ∧
    ∀ id, .startSync id ∈ ops → d.started id < d'.started id := by
  cases hs with
  | triggerSync id => exact ⟨[.forceRequestSync id], rfl, by simp⟩
  | pauseFolder id => exact ⟨[.pause id], rfl, by simp⟩
  | resumeFolder id => exact ⟨[.resume id], rfl, by simp⟩
  | schedule =>
      rename_i id n hl
      exact ⟨[.addFolder id, .requestSync id], rfl, by simp⟩
  | pollRecv => exact ⟨[.requestSync _], rfl, by simp⟩
  | drain => exact ⟨[.requestSync _], rfl, by simp⟩
  | finish => exact ⟨[.finishSync _], rfl, by simp⟩
  | tick hl hready =>
      rename_i ready
      refine ⟨ready.map .startSync, ?_, fun id hid => ?_⟩
      · simp only [SyncScheduler.startAll, SyncScheduler.perform, List.foldl_map]
        rfl
      · obtain ⟨x, hx, hxid⟩ := List.mem_map.mp hid
        cases hxid
        have hpos := List.count_pos_iff.mpr hx
        simp only [started, hl, toSpawn, List.count_nil]
        omega
  | _ => exact ⟨[], rfl, by simp⟩

lemma known_step (hs : Step d d') (h : d.scheduler f ≠ none) : d'.scheduler f ≠ none := by
  obtain ⟨ops, hops, -⟩ := step_ops hs
  rw [hops]
  exact SyncScheduler.perform_known h

/-- A run in which no sync of the folder is started. -/
def WithoutStart (f : Uuid) : Daemon → Daemon → Prop :=
  Relation.ReflTransGen (fun d d' => Step d d' ∧ ¬ d.started f < d'.started f)

lemma pending_without_start (hrun : WithoutStart f d d') (hp : d.scheduler.pending f = true) :
    d'.scheduler.pending f = true := by
  refine Runs.invariant (I := fun d : Daemon => d.scheduler.pending f = true)
    (fun a b ha hab => ?_) hp hrun
  obtain ⟨ops, hops, hstart⟩ := step_ops hab.1
  rw [hops]
  exact SyncScheduler.perform_pending ha (fun hf => hab.2 (hstart f hf))

/-- The call is taken: the GUI asks, or the poller or a watcher asks while no sync is running. -/
def Taken (s s' : SyncScheduler) (f : Uuid) : Prop :=
  s' = s.forceRequestSync f ∨ (s' = s.requestSync f ∧ s.running f = false)

lemma Taken.pending {s s' : SyncScheduler} (h : Taken s s' f) (hknown : s f ≠ none)
    (hpaused : s.paused f = false) : s'.pending f = true := by
  rcases h with rfl | ⟨rfl, hrunning⟩
  · exact SyncScheduler.forceRequestSync_pending hknown hpaused
  · exact SyncScheduler.requestSync_pending hknown hpaused hrunning

/-- **A request that is taken is not lost.**  In every state of the daemon: whatever calls follow,
in whatever order, the folder stays pending until its next `start_sync`; and in the daemon the
first tick after that which finds it idle and not paused starts it, without a further request. -/
theorem request_remembered (d : Daemon) (f : Uuid)
    (hknown : d.scheduler f ≠ none) (hpaused : d.scheduler.paused f = false) :
    (∀ s, Taken d.scheduler s f → ∀ ops, .startSync f ∉ ops →
      (s.perform ops).pending f = true) ∧
    ∀ d₁ d₂, Step d d₁ → Taken d.scheduler d₁.scheduler f → WithoutStart f d₁ d₂ →
      d₂.scheduler.pending f = true ∧
      ∀ d₃ ready, Step d₂ d₃ → d₂.loop = .select → d₃.loop = .spawning ready →
        d₂.scheduler.running f = false → d₂.scheduler.paused f = false → f ∈ ready := by
  refine ⟨fun s hs ops hops => ?_, fun d₁ d₂ _ htaken hrun => ?_⟩
  · exact SyncScheduler.perform_pending (hs.pending hknown hpaused) hops
  · have hp := pending_without_start hrun (htaken.pending hknown hpaused)
    refine ⟨hp, fun d₃ ready hs hl hl₃ hrunning hpaused₂ => ?_⟩
    -- from `select` only a tick leads to the spawning of syncs
    cases hs with
    | tick _ hready =>
        cases hl₃
        exact (hready.2 f).mpr (SyncScheduler.isReady_of_pending hp hpaused₂ hrunning)
    | _ => simp_all

/-- The theorem where it matters: the GUI asks while a sync is running. -/
theorem forced_request_outlives_sync :
    ((((SyncScheduler.new [7]).startSync 7).forceRequestSync 7).perform
      [.pause 7, .finishSync 7, .resume 7]).pending 7 = true :=
  (request_remembered { init [7] with scheduler := (SyncScheduler.new [7]).startSync 7 } 7
    (by decide) (by decide)).1 _ (Or.inl rfl) _ (by simp)

/-! ## A request that is not taken -/

lemma enumerates_nil {P : Uuid → Prop} (h : ∀ id, ¬ P id) : Enumerates [] P :=
  ⟨List.nodup_nil, fun id => iff_of_false List.not_mem_nil (h id)⟩

lemma enumerates_singleton {P : Uuid → Prop} {x : Uuid} (hx : P x) (h : ∀ id, P id → id = x) :
    Enumerates [x] P := by
  refine ⟨List.nodup_singleton x, fun id => ⟨fun hid => ?_, fun hid => ?_⟩⟩
  · rw [List.mem_singleton.mp hid]
    exact hx
  · exact List.mem_singleton.mpr (h id hid)

/-- In a daemon with one folder only that one can be ready. -/
lemma ready_only {s : SyncScheduler} {x id : Uuid} (ops : List SyncScheduler.Op)
    (hs : s = (SyncScheduler.new [x]).perform ops)
    (hops : ∀ op ∈ ops, ∀ y, op ≠ .addFolder y) (h : s.isReady id = true) : id = x := by
  have hknown := (SyncScheduler.isReady_iff.mp h).1
  rw [hs] at hknown
  clear hs h
  induction ops using List.reverseRecOn with
  | nil =>
      by_contra hne
      exact hknown (if_neg (fun h => hne (List.mem_singleton.mp h)))
  | append_singleton ops op ih =>
      refine ih (fun o ho => hops o (by simp [ho])) ?_
      rw [SyncScheduler.perform, List.foldl_append] at hknown
      cases op with
      | addFolder y => exact absurd rfl (hops _ (by simp) y)
      | _ => exact SyncScheduler.modify_known.mp hknown

/-- A change is reported while the sync of its folder runs.  When its debounce entry is due the
sync is still running, the request is passed over, and when the sync has finished nothing is left
of the change. -/
theorem running_request_dropped : ∃ d d' d'' : Daemon, Reachable d ∧ Step d d' ∧
    d.scheduler.running 7 = true ∧ d.debounceMap 7 = some 500 ∧ d.loop = .draining [7] ∧
    d'.scheduler = d.scheduler.requestSync 7 ∧ d.scheduler 7 ≠ none ∧
    d.scheduler.paused 7 = false ∧ d'.scheduler.pending 7 = false ∧
    WithoutStart 7 d' d'' ∧ d''.tasks = [] ∧ d''.loop = .select ∧
    d''.scheduler.isReady 7 = false := by
  have hrun := (((((((((Relation.ReflTransGen.refl.tail
    (Step.triggerSync 7 (d := init [7]) rfl)).tail
    (Step.tick rfl (enumerates_singleton (x := 7) (by decide)
      (fun id h => ready_only [.forceRequestSync 7] rfl (by simp) h)))).tail
    (Step.spawn rfl)).tail
    (Step.due rfl (enumerates_nil (fun id => by simp [init])))).tail
    (Step.drained rfl)).tail
    (Step.watcher 7 rfl (by decide))).tail
    (Step.pass 500)).tail
    (Step.tick rfl (enumerates_nil (fun id h => by
      obtain rfl := ready_only [.forceRequestSync 7, .startSync 7] rfl (by simp) h
      revert h
      decide)))).tail
    (Step.due rfl (enumerates_singleton (x := 7) ⟨500, by decide, by decide⟩
      (fun id h => by
        by_contra hne
        obtain ⟨t, ht, -⟩ := h
        simp only [init, Option.ite_none_right_eq_some] at ht
        exact hne ht.1))))
  exact ⟨_, _, _, ⟨[7], hrun⟩, Step.drain rfl, by decide, by decide, rfl, rfl, by decide,
    by decide, by decide, (Relation.ReflTransGen.refl.tail
      ⟨Step.drained rfl, by simp [started, toSpawn]⟩).tail
        ⟨Step.finish (.error .cancelled) List.mem_cons_self, by simp [started, toSpawn]⟩,
    rfl, rfl, by decide⟩

end Daemon

end OwncloudSync
