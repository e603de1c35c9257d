import OwncloudSync.Daemon.MainLoop
import Mathlib.Data.List.Count
import Mathlib.Tactic.Common

/-!
# One sync at a time

A sync of a folder is **started** when a tick calls `start_sync` for it and ends when its task
calls `finish_sync`; in between it waits to be spawned or runs.  The flag `running` of the
scheduler and the tasks are changed in different places, by the loop and by the tasks, and meet
in one invariant (`Accounted`): for every folder,

> started syncs + panicked ones = 1 if the scheduler has it as running, and 0 otherwise.

A tick starts a folder only if it is not running, so the sum never exceeds one.  A folder that the
scheduler knows has an engine, since the `FolderManager` gets it first and never drops it; hence
the branch without an engine, which would lose a sync, is not taken.
-/

namespace OwncloudSync

namespace Daemon

/-- The folders a tick has started and not yet spawned. -/
def toSpawn : Loop → List Uuid
  | .spawning ready => ready
  | _ => []

/-- The syncs of a folder that have been started and have not called `finish_sync`. -/
def started (d : Daemon) (id : Uuid) : ℕ := (toSpawn d.loop).count id + d.tasks.count id

/-- What holds in every state of the daemon. -/
structure Accounted (d : Daemon) : Prop where
  flights : ∀ id, d.started id + d.panicked.count id = (d.scheduler.running id).toNat
  engines : ∀ id, d.scheduler id ≠ none → d.engines id = true
  registered : ∀ id n, d.loop = .registered id n → d.engines id = true
  unpaused : ∀ id ∈ toSpawn d.loop, d.scheduler id ≠ none ∧ d.scheduler.paused id = false

/-- At most one sync of a folder is in flight, every folder of the scheduler has an engine, and a
folder is shown as running exactly while a sync of it is in flight. -/
structure SingleFlight (d : Daemon) : Prop where
  atMostOne : ∀ id, d.started id ≤ 1
  engines : ∀ id, d.scheduler id ≠ none → d.engines id = true
  running : d.panicked = [] → ∀ id, d.scheduler.running id = true ↔ d.started id = 1

variable {d d' : Daemon} {id : Uuid}

/-! ## The invariant -/

lemma accounted_init (ids : List Uuid) : Accounted (init ids) where
  flights id := by
    simp only [started, init, toSpawn, SyncScheduler.running, SyncScheduler.new]
    split <;> rfl
  engines id h := by
    simp only [init, SyncScheduler.new] at h ⊢
    split at h
    · rename_i hid
      exact List.contains_iff_mem.mpr hid
    · exact absurd rfl h
  registered id n h := by cases h
  unpaused id h := by cases h

/-- A step that starts nothing, ends nothing and keeps what the scheduler knows. -/
lemma Accounted.frame (h : Accounted d) (hloop : toSpawn d.loop = [])
    (hloop' : toSpawn d'.loop = []) (htasks : d'.tasks = d.tasks)
    (hpanicked : d'.panicked = d.panicked)
    (hrunning : ∀ id, d'.scheduler.running id = d.scheduler.running id)
    (hengines : ∀ id, d'.scheduler id ≠ none → d'.engines id = true)
    (hregistered : ∀ id n, d'.loop = .registered id n → d'.engines id = true) :
    Accounted d' where
  flights id := by
    have hcount := h.flights id
    rw [started, hloop] at hcount
    rw [started, hloop', htasks, hpanicked, hrunning]
    exact hcount
  engines := hengines
  registered := hregistered
  unpaused id hid := by
    rw [hloop'] at hid
    cases hid

/-- A request for a known folder, at a place where nothing waits to be spawned. -/
lemma Accounted.modified {f : FolderScheduleState → FolderScheduleState} (h : Accounted d)
    (hd : d'.scheduler = d.scheduler.modify id f) (hf : ∀ st, (f st).running = st.running)
    (hloop : toSpawn d.loop = []) (hloop' : toSpawn d'.loop = [])
    (htasks : d'.tasks = d.tasks) (hpanicked : d'.panicked = d.panicked)
    (hengines : d'.engines = d.engines)
    (hregistered : ∀ id n, d'.loop ≠ .registered id n) : Accounted d' := by
  refine h.frame hloop hloop' htasks hpanicked (fun x => ?_) (fun x hx => ?_)
    (fun x n hx => absurd hx (hregistered x n))
  · rw [hd, SyncScheduler.modify_running hf]
  · rw [hd, SyncScheduler.modify_known] at hx
    rw [hengines]
    exact h.engines x hx

lemma accounted_tick {ready : List Uuid} (h : Accounted d) (hloop : d.loop = .select)
    (hready : Enumerates ready (fun id => d.scheduler.isReady id = true)) :
    Accounted { d with scheduler := d.scheduler.startAll ready, loop := .spawning ready } where
  flights id := by
    have hcount := h.flights id
    have hknown : ∀ i ∈ ready, d.scheduler i ≠ none :=
      fun i hi => (SyncScheduler.isReady_iff.mp ((hready.2 i).mp hi)).1
    rw [started, hloop] at hcount
    simp only [started, toSpawn, List.count_nil, Nat.zero_add] at hcount ⊢
    rw [SyncScheduler.startAll_running hknown]
    by_cases hid : id ∈ ready
    · -- it was not running, so nothing of it is in flight
      have hidle := (SyncScheduler.isReady_iff.mp ((hready.2 id).mp hid)).2.1
      rw [hidle, Bool.toNat_false] at hcount
      rw [List.count_eq_one_of_mem hready.1 hid, decide_eq_true hid, Bool.true_or,
        Bool.toNat_true]
      omega
    · rw [List.count_eq_zero_of_not_mem hid, decide_eq_false hid, Bool.false_or]
      omega
  engines id hid := h.engines id (SyncScheduler.startAll_known.mp hid)
  registered id n hid := by cases hid
  unpaused id hid := by
    obtain ⟨hknown, -, hpaused, -⟩ := SyncScheduler.isReady_iff.mp ((hready.2 id).mp hid)
    exact ⟨SyncScheduler.startAll_known.mpr hknown,
      SyncScheduler.startAll_paused.trans hpaused⟩

lemma accounted_spawn {rest : List Uuid} (h : Accounted d)
    (hloop : d.loop = .spawning (id :: rest)) :
    Accounted { d with tasks := if d.engines id then id :: d.tasks else d.tasks
                       loop := .spawning rest
                       events := d.events ++ [.syncStarted id] } where
  flights x := by
    have hcount := h.flights x
    have hknown := (h.unpaused id (by rw [hloop]; exact List.mem_cons_self)).1
    -- the folder is known, so there is an engine for it
    rw [started, hloop] at hcount
    simp only [started, toSpawn, h.engines id hknown, if_true] at hcount ⊢
    rw [List.count_cons] at hcount ⊢
    omega
  engines := h.engines
  registered x n hx := by cases hx
  unpaused x hx := h.unpaused x (by rw [hloop]; exact List.mem_cons_of_mem id hx)

lemma accounted_finish (result : Except SyncError SyncReport) (h : Accounted d)
    (hid : id ∈ d.tasks) :
    Accounted { d with scheduler := d.scheduler.finishSync id
                       tasks := d.tasks.erase id
                       finished := d.finished ++ [(id, result)] } where
  flights x := by
    have hcount := h.flights x
    simp only [started] at hcount ⊢
    rw [SyncScheduler.finishSync_running]
    by_cases hx : x = id
    · subst hx
      have hone := Bool.toNat_le (d.scheduler.running x)
      have hpos := List.count_pos_iff.mpr hid
      rw [List.count_erase_self, decide_eq_true rfl, Bool.not_true, Bool.false_and,
        Bool.toNat_false]
      omega
    · rw [List.count_erase_of_ne hx, decide_eq_false hx, Bool.not_false, Bool.true_and]
      exact hcount
  engines x hx := h.engines x (SyncScheduler.modify_known.mp hx)
  registered := h.registered
  unpaused x hx := by
    obtain ⟨hknown, hpaused⟩ := h.unpaused x hx
    exact ⟨SyncScheduler.modify_known.mpr hknown, SyncScheduler.finishSync_paused.trans hpaused⟩

lemma accounted_panic (h : Accounted d) (hid : id ∈ d.tasks) :
    Accounted { d with tasks := d.tasks.erase id, panicked := id :: d.panicked } where
  flights x := by
    have hcount := h.flights x
    simp only [started] at hcount ⊢
    by_cases hx : x = id
    · subst hx
      have hpos := List.count_pos_iff.mpr hid
      rw [List.count_erase_self, List.count_cons_self]
      omega
    · rw [List.count_erase_of_ne hx, List.count_cons_of_ne (Ne.symm hx)]
      exact hcount
  engines := h.engines
  registered := h.registered
  unpaused := h.unpaused

/-- **Every step keeps the account.** -/
theorem accounted_step (h : Accounted d) (hs : Step d d') : Accounted d' := by
  cases hs with
  | triggerSync id hl =>
      exact h.modified rfl (fun st => by split <;> rfl) (by rw [hl]; rfl)
        (by rw [hl]; rfl) rfl rfl rfl (by rw [hl]; simp)
  | pauseFolder id hl =>
      exact h.modified rfl (fun st => by rfl) (by rw [hl]; rfl) (by rw [hl]; rfl) rfl rfl rfl
        (by rw [hl]; simp)
  | resumeFolder id hl =>
      exact h.modified rfl (fun st => by rfl) (by rw [hl]; rfl) (by rw [hl]; rfl) rfl rfl rfl
        (by rw [hl]; simp)
  | addFolders n hl =>
      exact h.frame (by rw [hl]; rfl) rfl rfl rfl (fun _ => rfl) h.engines (by simp)
  | removeAccount id hl =>
      exact h.frame (by rw [hl]; rfl) (by rw [hl]; rfl) rfl rfl (fun _ => rfl) h.engines
        h.registered
  | quit hl => exact h.frame (by rw [hl]; rfl) rfl rfl rfl (fun _ => rfl) h.engines (by simp)
  | refuse hl => exact h.frame (by rw [hl]; rfl) rfl rfl rfl (fun _ => rfl) h.engines (by simp)
  | register id hl =>
      refine h.frame (by rw [hl]; rfl) rfl rfl rfl (fun _ => rfl) (fun x hx => ?_)
        (fun x n hx => ?_)
      · simp only [h.engines x hx, Bool.or_true]
      · cases hx
        simp
  | schedule hl =>
      rename_i id n
      have hid := h.registered id n hl
      refine h.frame (by rw [hl]; rfl) rfl rfl rfl (fun x => ?_) (fun x hx => ?_) (by simp)
      · rw [SyncScheduler.requestSync_running, SyncScheduler.addFolder_running]
      · by_cases hxid : x = id
        · rw [hxid]
          exact hid
        · rw [SyncScheduler.requestSync, SyncScheduler.modify_known,
            SyncScheduler.addFolder, if_neg hxid] at hx
          exact h.engines x hx
  | added hl => exact h.frame (by rw [hl]; rfl) rfl rfl rfl (fun _ => rfl) h.engines (by simp)
  | pollTick => exact ⟨h.flights, h.engines, h.registered, h.unpaused⟩
  | pollSend => exact ⟨h.flights, h.engines, h.registered, h.unpaused⟩
  | pollRecv hl =>
      exact h.modified rfl (fun st => by split <;> rfl) (by rw [hl]; rfl) (by rw [hl]; rfl) rfl
        rfl rfl (by rw [hl]; simp)
  | watcher => exact ⟨h.flights, h.engines, h.registered, h.unpaused⟩
  | pass => exact ⟨h.flights, h.engines, h.registered, h.unpaused⟩
  | tick hl hready => exact accounted_tick h hl hready
  | spawn hl => exact accounted_spawn h hl
  | due hl => exact h.frame (by rw [hl]; rfl) rfl rfl rfl (fun _ => rfl) h.engines (by simp)
  | drain hl =>
      exact h.modified rfl (fun st => by split <;> rfl) (by rw [hl]; rfl) rfl rfl rfl rfl
        (by simp)
  | drained hl => exact h.frame (by rw [hl]; rfl) rfl rfl rfl (fun _ => rfl) h.engines (by simp)
  | finish result hid => exact accounted_finish result h hid
  | report => exact ⟨h.flights, h.engines, h.registered, h.unpaused⟩
  | panic hid => exact accounted_panic h hid

/-- **Every reachable state is accounted for.** -/
theorem accounted (h : Reachable d) : Accounted d :=
  h.invariant accounted_init (fun _ _ hd hs => accounted_step hd hs)

/-! ## What a tick starts -/

/-- A sync is begun by a step: a tick starts the folder, or its task is spawned. -/
def Begins (d d' : Daemon) (id : Uuid) : Prop :=
  d.started id < d'.started id ∨ d.tasks.count id < d'.tasks.count id

lemma not_begins_of_eq (hloop : toSpawn d'.loop = toSpawn d.loop) (htasks : d'.tasks = d.tasks) :
    ¬ Begins d d' id := by
  unfold Begins started
  rw [hloop, htasks]
  simp

lemma not_begins_of_erase {x : Uuid} (hloop : d'.loop = d.loop)
    (htasks : d'.tasks = d.tasks.erase x) : ¬ Begins d d' id := by
  have hle := (List.erase_sublist (a := x) (l := d.tasks)).count_le id
  unfold Begins started
  rw [hloop, htasks]
  omega

/-- Only ticks begin a sync: of a folder that is ready, or of one that was when it was started. -/
lemma ready_or_spawned (hs : Step d d') (h : Begins d d' id) :
    d.scheduler.isReady id = true ∨ id ∈ toSpawn d.loop := by
  cases hs with
  | tick hl hready =>
      refine Or.inl ((hready.2 id).mp ?_)
      by_contra hid
      rcases h with h | h
      · rw [started, started, hl] at h
        simp [toSpawn, List.count_eq_zero_of_not_mem hid] at h
      · exact absurd h (lt_irrefl _)
  | spawn hl =>
      rename_i x rest
      refine Or.inr ?_
      by_contra hid
      rw [hl, toSpawn, List.mem_cons, not_or] at hid
      rcases h with h | h
      · rw [started, started, hl] at h
        dsimp only [toSpawn] at h
        split at h
        · rw [List.count_cons_of_ne (Ne.symm hid.1), List.count_cons_of_ne (Ne.symm hid.1)] at h
          exact absurd h (lt_irrefl _)
        · rw [List.count_cons_of_ne (Ne.symm hid.1)] at h
          exact absurd h (lt_irrefl _)
      · dsimp only at h
        split at h
        · rw [List.count_cons_of_ne (Ne.symm hid.1)] at h
          exact absurd h (lt_irrefl _)
        · exact absurd h (lt_irrefl _)
  | finish => exact absurd h (not_begins_of_erase rfl rfl)
  | panic => exact absurd h (not_begins_of_erase rfl rfl)
  | _ =>
      -- nothing is spawned, and nothing waits to be
      refine absurd h (not_begins_of_eq ?_ rfl)
      simp [toSpawn, *]

lemma Accounted.oneTaskEach (h : Accounted d) : SingleFlight d where
  atMostOne id := by
    have hcount := h.flights id
    have hone := Bool.toNat_le (d.scheduler.running id)
    omega
  engines := h.engines
  running hpanicked id := by
    have hcount := h.flights id
    rw [hpanicked, List.count_nil, Nat.add_zero] at hcount
    rw [hcount]
    cases d.scheduler.running id <;> simp

/-- **Single flight**, in every state the daemon can reach and over every step from there: a paused
folder is neither started nor spawned. -/
theorem singleFlight (d : Daemon) (h : Reachable d) :
    SingleFlight d ∧ ∀ d' id, Step d d' → Begins d d' id →
      d.scheduler id ≠ none ∧ d.scheduler.paused id = false := by
  have hacc := accounted h
  refine ⟨hacc.oneTaskEach, fun d' id hs hbegins => ?_⟩
  rcases ready_or_spawned hs hbegins with hready | hspawn
  · obtain ⟨hknown, -, hpaused, -⟩ := SyncScheduler.isReady_iff.mp hready
    exact ⟨hknown, hpaused⟩
  · exact hacc.unpaused id hspawn

/-- The theorem in the state in which the first sync of a folder runs. -/
theorem singleFlight_firstSync : ∃ d, Reachable d ∧ d.tasks = [7] ∧ SingleFlight d := by
  have hready : Enumerates [7] (fun id =>
      (SyncScheduler.forceRequestSync (init [7]).scheduler 7).isReady id = true) := by
    refine ⟨by simp, fun id => ?_⟩
    by_cases hid : id = 7
    · subst hid
      decide
    · refine iff_of_false (fun h => hid (List.mem_singleton.mp h)) (fun h => ?_)
      have hknown := SyncScheduler.modify_known.mp (SyncScheduler.isReady_iff.mp h).1
      exact hknown (if_neg (fun h => hid (List.mem_singleton.mp h)))
  have hrun := ((Relation.ReflTransGen.refl.tail (Step.triggerSync 7 (d := init [7]) rfl)).tail
    (Step.tick rfl hready)).tail (Step.spawn rfl)
  exact ⟨_, ⟨[7], hrun⟩, rfl, (singleFlight _ ⟨[7], hrun⟩).1⟩

end Daemon

end OwncloudSync
