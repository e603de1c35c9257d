import OwncloudSync.Daemon.Pending
import Mathlib.Data.List.Chain
import Mathlib.Tactic.Common

/-!
# Started and finished

A tick broadcasts `SyncStarted` when it spawns a sync, and the sync task broadcasts `SyncFinished`
at its end.  If these were all, the two would alternate for every folder (`Matched`): the last
event tells of a start exactly while a sync is spawned and has not reported.  Three things disturb
this:

* `TriggerSync` broadcasts `SyncStarted` too, **before** anything has been started and whether or
  not anything will be (the folder may be paused or unknown);
* the task calls `finish_sync` first and reports afterwards, so a tick may start the next sync in
  between;
* a task whose `run_sync` panics reports nothing.

`startsFinish_of_orderly` is the pairing over the runs without them.
-/

namespace OwncloudSync

namespace Daemon

/-- What an event tells of the syncs of one folder. -/
inductive Mark where
  | started
  | finished
  deriving DecidableEq

/-- What an event says about a folder. -/
def mark (f : Uuid) : DaemonEvent → Option Mark
  | .syncStarted id => if id = f then some .started else none
  | .syncFinished id _ _ => if id = f then some .finished else none
  | .accountStateChanged _ _ => none

/-- The `SyncStarted` and `SyncFinished` events of a folder, in the order of their broadcast. -/
def marks (f : Uuid) (events : List DaemonEvent) : List Mark := events.filterMap (mark f)

/-- The tasks of a folder that have called `finish_sync` and not told the GUI. -/
def unreported (d : Daemon) (f : Uuid) : ℕ := (d.finished.map Prod.fst).count f

/-- No sync of the folder is in flight (not even one that has yet to report) or pending. -/
structure Quiet (f : Uuid) (d : Daemon) : Prop where
  started : d.started f = 0
  reported : d.unreported f = 0
  unasked : d.scheduler.pending f = false

/-- Started and finished events match. -/
structure StartsFinish (f : Uuid) (d : Daemon) : Prop where
  separated : ∀ pre mid post,
    marks f d.events = pre ++ .started :: (mid ++ .started :: post) → .finished ∈ mid
  settled : Quiet f d → (marks f d.events).getLast? ≠ some .started

/-- The loop takes a `TriggerSync` for the folder. -/
def Triggers (f : Uuid) (d d' : Daemon) : Prop :=
  d.loop = .select ∧ d'.events = d.events ++ [.syncStarted f]

/-- The tick spawns the sync of the folder. -/
def Spawns (f : Uuid) (d d' : Daemon) : Prop := toSpawn d.loop = f :: toSpawn d'.loop

/-- The `run_sync` of the folder panics. -/
def Panics (f : Uuid) (d d' : Daemon) : Prop := d'.panicked = f :: d.panicked

/-- A step that does not disturb the events of the folder. -/
structure Orderly (f : Uuid) (d d' : Daemon) : Prop where
  untriggered : ¬ Triggers f d d'
  unpanicked : ¬ Panics f d d'
  reported : Spawns f d d' → d.unreported f = 0

/-- The syncs of a folder that are spawned and have not reported. -/
def spawned (d : Daemon) (f : Uuid) : ℕ := d.tasks.count f + d.unreported f

/-- The events alternate, and the last tells whether there is a sync that has yet to report. -/
structure Matched (f : Uuid) (d : Daemon) : Prop where
  atMostOne : d.spawned f ≤ 1
  alternate : (marks f d.events).IsChain (fun a b => ¬ (a = .started ∧ b = .started))
  last : (marks f d.events).getLast? = some .started ↔ d.spawned f = 1

variable {d d' : Daemon} {f id : Uuid} {e : DaemonEvent}

lemma marks_append (events : List DaemonEvent) :
    marks f (events ++ [e]) = marks f events ++ (mark f e).toList := by
  rw [marks, List.filterMap_append]
  cases h : mark f e with
  | none => simp [marks, h]
  | some m => simp [marks, h]

/-! ## One step -/

/-- A step that tells nothing of the folder and neither spawns nor reports a sync of it. -/
lemma Matched.frame (h : Matched f d) (hevents : marks f d'.events = marks f d.events)
    (hspawned : d'.spawned f = d.spawned f) : Matched f d' where
  atMostOne := by rw [hspawned]; exact h.atMostOne
  alternate := by rw [hevents]; exact h.alternate
  last := by rw [hevents, hspawned]; exact h.last

/-- A sync is spawned while no other has yet to report. -/
lemma Matched.start (h : Matched f d) (hevents : marks f d'.events = marks f d.events ++ [.started])
    (hidle : d.spawned f = 0) (hspawned : d'.spawned f = 1) : Matched f d' where
  atMostOne := le_of_eq hspawned
  alternate := by
    rw [hevents, List.isChain_append]
    refine ⟨h.alternate, List.isChain_singleton _, fun a ha b _ hab => ?_⟩
    -- the last event so far tells of no start
    rw [Option.mem_def, hab.1, h.last, hidle] at ha
    cases ha
  last := by rw [hevents, hspawned]; simp

/-- The one sync that has yet to report does so. -/
lemma Matched.report (h : Matched f d)
    (hevents : marks f d'.events = marks f d.events ++ [.finished])
    (hspawned : d.spawned f = d'.spawned f + 1) : Matched f d' := by
  have hone := h.atMostOne
  refine ⟨by omega, ?_, ?_⟩
  · rw [hevents, List.isChain_append]
    refine ⟨h.alternate, List.isChain_singleton _, fun a _ b hb hab => ?_⟩
    simp only [List.head?_cons, Option.mem_def, Option.some.injEq] at hb
    rw [hab.2] at hb
    cases hb
  · rw [hevents]
    simp only [List.getLast?_append, List.getLast?_singleton, Option.some_or, Option.some.injEq,
      reduceCtorEq, false_iff]
    omega

lemma unreported_append (result : Except SyncError SyncReport)
    (h : d'.finished = d.finished ++ [(id, result)]) :
    d'.unreported f = d.unreported f + if id = f then 1 else 0 := by
  simp only [unreported, h, List.map_append, List.map_cons, List.map_nil, List.count_append,
    List.count_singleton, beq_iff_eq]

lemma matched_spawn {rest : List Uuid} (hacc : Accounted d) (h : Matched f d)
    (hl : d.loop = .spawning (id :: rest)) (hidle : id = f → d.unreported f = 0) :
    Matched f { d with tasks := if d.engines id then id :: d.tasks else d.tasks
                       loop := .spawning rest
                       events := d.events ++ [.syncStarted id] } := by
  have hknown := (hacc.unpaused id (by rw [hl]; exact List.mem_cons_self)).1
  have hmarks := marks_append (f := f) (e := .syncStarted id) d.events
  by_cases hid : id = f
  · subst hid
    have hnone : d.tasks.count id = 0 := by
      have hflight := hacc.oneTaskEach.atMostOne id
      rw [started, hl, toSpawn, List.count_cons_self] at hflight
      omega
    have hzero : d.spawned id = 0 := by rw [spawned, hnone, hidle rfl]
    refine h.start (by rw [hmarks]; simp [mark]) hzero ?_
    simp only [spawned, unreported, hacc.engines id hknown, if_true, List.count_cons_self] at hzero ⊢
    omega
  · refine h.frame (by rw [hmarks]; simp [mark, hid]) ?_
    simp only [spawned, unreported, hacc.engines id hknown, if_true,
      List.count_cons_of_ne hid]

lemma matched_finish (result : Except SyncError SyncReport) (h : Matched f d)
    (hid : id ∈ d.tasks) :
    Matched f { d with scheduler := d.scheduler.finishSync id
                       tasks := d.tasks.erase id
                       finished := d.finished ++ [(id, result)] } := by
  refine h.frame rfl ?_
  rw [spawned, unreported_append result rfl, spawned]
  by_cases hf : id = f
  · subst hf
    have hpos := List.count_pos_iff.mpr hid
    rw [List.count_erase_self, if_pos rfl]
    omega
  · rw [List.count_erase_of_ne (Ne.symm hf), if_neg hf]
    rfl

lemma matched_report {result : Except SyncError SyncReport}
    {before after : List (Uuid × Except SyncError SyncReport)} (h : Matched f d)
    (hd : d.finished = before ++ (id, result) :: after) :
    Matched f { d with finished := before ++ after
                       events := d.events ++
                         [.syncFinished id (outcome result).1 (outcome result).2] } := by
  have hmarks := marks_append (f := f)
    (e := .syncFinished id (outcome result).1 (outcome result).2) d.events
  by_cases hf : id = f
  · refine h.report (by rw [hmarks]; simp [mark, hf]) ?_
    simp only [spawned, unreported, hd, List.map_append, List.map_cons, List.count_append, hf,
      List.count_cons_self]
    omega
  · refine h.frame (by rw [hmarks]; simp [mark, hf]) ?_
    simp only [spawned, unreported, hd, List.map_append, List.map_cons, List.count_append,
      List.count_cons_of_ne hf]

/-- **Every orderly step keeps the events matched.** -/
theorem matched_step (hacc : Accounted d) (h : Matched f d) (hs : Step d d')
    (ho : Orderly f d d') : Matched f d' := by
  cases hs with
  | triggerSync id hl =>
      have hid : id ≠ f := by
        rintro rfl
        exact ho.untriggered ⟨hl, rfl⟩
      exact h.frame (by rw [marks_append]; simp [mark, hid]) rfl
  | pauseFolder id => exact h.frame (by rw [marks_append]; simp [mark]) rfl
  | resumeFolder id => exact h.frame (by rw [marks_append]; simp [mark]) rfl
  | removeAccount id => exact h.frame (by rw [marks_append]; simp [mark]) rfl
  | spawn hl =>
      refine matched_spawn hacc h hl (fun hid => ho.reported ?_)
      rw [Spawns, hl, hid]
      rfl
  | finish result hid => exact matched_finish result h hid
  | report hd => exact matched_report h hd
  | panic hid =>
      rename_i id
      have hne : f ≠ id := by
        rintro rfl
        exact ho.unpanicked rfl
      refine h.frame rfl ?_
      simp only [spawned, unreported, List.count_erase_of_ne hne]
  | _ => exact h.frame rfl rfl

/-! ## The runs -/

lemma matched_init (ids : List Uuid) : Matched f (init ids) where
  atMostOne := Nat.zero_le 1
  alternate := List.isChain_nil
  last := by simp [init, marks, spawned, unreported]

lemma Matched.startsFinish (h : Matched f d) : StartsFinish f d where
  separated pre mid post hmarks := by
    have halt := h.alternate
    rw [hmarks, List.isChain_append] at halt
    -- what follows the first start is no start
    cases mid with
    | nil =>
        rw [List.nil_append, List.isChain_cons_cons] at halt
        exact absurd ⟨rfl, rfl⟩ halt.2.1.1
    | cons m mid =>
        rw [List.cons_append, List.isChain_cons_cons] at halt
        cases m with
        | started => exact absurd ⟨rfl, rfl⟩ halt.2.1.1
        | finished => exact List.mem_cons_self
  settled hq := by
    have hstarted := hq.started
    rw [Daemon.started] at hstarted
    rw [Ne, h.last, spawned, hq.reported]
    omega

/-- **In every run whose steps are orderly for a folder, its started and finished events match**,
in every state the run reaches. -/
theorem startsFinish_of_orderly (f : Uuid) (ids : List Uuid) (d : Daemon)
    (hrun : Relation.ReflTransGen (fun d d' => Step d d' ∧ Orderly f d d') (init ids) d) :
    StartsFinish f d := by
  have hinv := Runs.invariant (I := fun d => Accounted d ∧ Matched f d)
    (fun a b ha hab => ⟨accounted_step ha.1 hab.1, matched_step ha.1 ha.2 hab.1 hab.2⟩)
    ⟨accounted_init ids, matched_init ids⟩ hrun
  exact hinv.2.startsFinish

/-- The theorem where the poller asks for a sync, which runs and reports. -/
theorem polled_starts_and_finishes :
    ∃ d : Daemon, marks 7 d.events = [.started, .finished] ∧ StartsFinish 7 d := by
  have hrun : Relation.ReflTransGen (fun d d' => Step d d' ∧ Orderly 7 d d') (init [7]) _ :=
    ((((((Relation.ReflTransGen.refl.tail
    ⟨Step.pollTick rfl, by simp [Triggers], by simp [Panics], by simp [Spawns]⟩).tail
    ⟨Step.pollSend rfl, by simp [Triggers], by simp [Panics], by simp [Spawns]⟩).tail
    ⟨Step.pollRecv rfl rfl, by simp [Triggers], by simp [Panics], by simp [Spawns]⟩).tail
    ⟨Step.tick rfl (enumerates_singleton (x := 7) (by decide)
        (fun id h => ready_only [.requestSync 7] rfl (by simp) h)),
      by simp [Triggers], by simp [Panics], by simp [Spawns, toSpawn, init]⟩).tail
    ⟨Step.spawn rfl, by simp [Triggers], by simp [Panics], fun _ => rfl⟩).tail
    ⟨Step.finish (.error .cancelled) List.mem_cons_self, by simp [Triggers], by simp [Panics],
      by simp [Spawns]⟩).tail
    ⟨@Step.report _ _ _ [] _ rfl, by simp [Triggers], by simp [Panics], by simp [Spawns]⟩
  exact ⟨_, by decide, startsFinish_of_orderly 7 [7] _ hrun⟩

/-- The user asks for a sync of an idle folder: `SyncStarted` is broadcast for the command, and
again when the tick spawns the sync. -/
theorem triggered_starts_twice : ∃ d : Daemon, Reachable d ∧
    marks 7 d.events = [.started, .started] ∧ ¬ StartsFinish 7 d := by
  have hrun := ((Relation.ReflTransGen.refl.tail (Step.triggerSync 7 (d := init [7]) rfl)).tail
    (Step.tick rfl (enumerates_singleton (x := 7) (by decide)
      (fun id h => ready_only [.forceRequestSync 7] rfl (by simp) h)))).tail (Step.spawn rfl)
  refine ⟨_, ⟨[7], hrun⟩, by decide, fun h => ?_⟩
  exact absurd (h.separated [] [] [] (by decide)) List.not_mem_nil

end Daemon

end OwncloudSync
