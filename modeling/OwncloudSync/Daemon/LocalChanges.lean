import OwncloudSync.Daemon.Pending
import Mathlib.Tactic.Common

/-!
# What becomes of a local change

A watcher reports a change through two channels (`watcher.rs`, `main.rs`): its own, of 64 events, from
which a task takes them one by one, and that of the main loop, of 256.  Both make the sender wait
when they are full, so nothing falls out.  The loop sets a deadline 500 ms ahead, and the first
tick after it asks for a sync.

`Watched` is the daemon of `MainLoop.lean` with these channels.  **A change is not lost on its way, unless
its folder is paused or its sync runs when the deadline is drained** (`changeKept`): until the next start
it is in a channel, under a deadline, or pending.
-/

namespace OwncloudSync

open Daemon

/-- The daemon, and the events of its watchers on their way. -/
structure Watched where
  daemon : Daemon
  /-- the channel of each watcher, oldest first; `false` is an error of the watcher -/
  notified : Uuid → List Bool
  /-- the tasks that hold an event and wait for room -/
  forwarding : Uuid → Bool
  watcherRx : List Uuid

namespace Watched

/-- The daemon has started, and nothing has changed yet. -/
def init (folderIds : List Uuid) : Watched where
  daemon := Daemon.init folderIds
  notified _ := []
  forwarding _ := false
  watcherRx := []

/-- One step of a watcher, of a forwarding task, or of the main loop. -/
inductive Step : Watched → Watched → Prop
  /-- `blocking_send` of the watcher of a folder -/
  | notify {w : Watched} (id : Uuid) (ok : Bool) (hid : w.daemon.engines id = true)
      (hroom : (w.notified id).length < 64) :
      Step w { w with notified := Function.update w.notified id (w.notified id ++ [ok]) }
  /-- `next_event` returns an event, … -/
  | nextEvent {w : Watched} {id : Uuid} {rest : List Bool} (h : w.notified id = true :: rest)
      (hidle : w.forwarding id = false) :
      Step w { w with notified := Function.update w.notified id rest
                      forwarding := Function.update w.forwarding id true }
  /-- … and passes over an error -/
  | warn {w : Watched} {id : Uuid} {rest : List Bool} (h : w.notified id = false :: rest)
      (hidle : w.forwarding id = false) :
      Step w { w with notified := Function.update w.notified id rest }
  | forward {w : Watched} {id : Uuid} (h : w.forwarding id = true)
      (hroom : w.watcherRx.length < 256) :
      Step w { w with forwarding := Function.update w.forwarding id false
                      watcherRx := w.watcherRx ++ [id] }
  /-- the main loop takes an event -/
  | recv {w : Watched} {id : Uuid} {rest : List Uuid} (h : w.watcherRx = id :: rest)
      (hloop : w.daemon.loop = .select) :
      Step w { w with
        watcherRx := rest
        daemon := { w.daemon with debounceMap := fun x => if x = id then some (w.daemon.now + 500)
                                                          else w.daemon.debounceMap x } }
  /-- any other step of the daemon; the deadlines come from events alone -/
  | other {w : Watched} {d : Daemon} (h : Daemon.Step w.daemon d)
      (hno : ∀ x t, d.debounceMap x = some t → w.daemon.debounceMap x = some t) :
      Step w { w with daemon := d }

/-- The state of some run from some folders. -/
def Reachable (w : Watched) : Prop := ∃ ids, Relation.ReflTransGen Step (init ids) w

end Watched

variable {d d' : Daemon} {w w' : Watched} {f : Uuid}

/-! ## In the loop -/

namespace Daemon

/-- A change of the folder waits for its deadline or for a tick. -/
def Owes (d : Daemon) (f : Uuid) : Prop :=
  d.debounceMap f ≠ none ∨ d.scheduler.pending f = true

/-- The deadline of the folder is drained, and the request passed over. -/
def PassesOver (d d' : Daemon) (f : Uuid) : Prop :=
  (∃ rest, d.loop = .draining (f :: rest) ∧ d'.loop = .draining rest) ∧
    (d.scheduler.running f = true ∨ d.scheduler.paused f = true)

/-- The folders of the `FolderManager` are known to the scheduler, or will be next. -/
def Known (d : Daemon) : Prop :=
  ∀ id, d.engines id = true → d.scheduler id ≠ none ∨ ∃ n, d.loop = .registered id n

lemma known_init (ids : List Uuid) : Known (init ids) := by
  intro id h
  left
  simp only [init, SyncScheduler.new] at h ⊢
  rw [if_pos (List.contains_iff_mem.mp h)]
  exact Option.some_ne_none _

lemma known_of_step (h : Known d) (hs : Step d d') : Known d' := by
  intro id hid
  have hstep : d.scheduler id ≠ none → d'.scheduler id ≠ none := known_step hs
  cases hs with
  | register x hl =>
      simp only [Bool.or_eq_true, decide_eq_true_eq] at hid
      rcases hid with rfl | hid
      · exact Or.inr ⟨_, rfl⟩
      · refine Or.inl (hstep ((h id hid).resolve_right ?_))
        rintro ⟨n, hn⟩
        rw [hl] at hn
        cases hn
  | schedule hl =>
      rename_i x n
      left
      rcases h id hid with hk | ⟨m, hm⟩
      · exact hstep hk
      · rw [hl] at hm
        cases hm
        rw [SyncScheduler.requestSync, SyncScheduler.modify_known, SyncScheduler.addFolder,
          if_pos rfl]
        exact Option.some_ne_none _
  | pollTick => exact (h id hid).imp hstep (fun hl => hl)
  | pollSend => exact (h id hid).imp hstep (fun hl => hl)
  | pass => exact (h id hid).imp hstep (fun hl => hl)
  | removeAccount => exact (h id hid).imp hstep (fun hl => hl)
  | finish => exact (h id hid).imp hstep (fun hl => hl)
  | report => exact (h id hid).imp hstep (fun hl => hl)
  | panic => exact (h id hid).imp hstep (fun hl => hl)
  | _ =>
      refine Or.inl (hstep ((h id hid).resolve_right ?_))
      rintro ⟨n, hn⟩
      simp_all

/-- **One step of the loop**: only a start of the folder, or a drain that passes it over, lets go of a
change. -/
lemma owes_step (hknown : Known d) (hengine : d.debounceMap f ≠ none → d.engines f = true)
    (hs : Step d d') (hstart : ¬ d.started f < d'.started f) (hpass : ¬ PassesOver d d' f)
    (h : d.Owes f) : d'.Owes f := by
  rcases h with h | h
  · cases hs with
    | watcher x hl =>
        left
        simp only
        split
        · exact Option.some_ne_none _
        · exact h
    | drain hl =>
        rename_i x rest
        by_cases hx : f = x
        · subst hx
          right
          have hk := (hknown f (hengine h)).resolve_right (by
            rintro ⟨n, hn⟩
            rw [hl] at hn
            cases hn)
          have hfree : ¬ (d.scheduler.running f = true ∨ d.scheduler.paused f = true) :=
            fun hc => hpass ⟨⟨rest, hl, rfl⟩, hc⟩
          rw [not_or, Bool.not_eq_true, Bool.not_eq_true] at hfree
          exact SyncScheduler.requestSync_pending hk hfree.2 hfree.1
        · left
          simp only
          rw [if_neg hx]
          exact h
    | _ => exact Or.inl h
  · right
    obtain ⟨ops, hops, hstarts⟩ := step_ops hs
    rw [hops]
    exact SyncScheduler.perform_pending h (fun hf => hstart (hstarts f hf))

end Daemon

/-! ## On the way to the loop -/

namespace Watched

/-- A change of the folder is in one of the channels, or in the loop. -/
def Owed (w : Watched) (f : Uuid) : Prop :=
  true ∈ w.notified f ∨ w.forwarding f = true ∨ f ∈ w.watcherRx ∨ w.daemon.Owes f

/-- What holds at any time. -/
structure Sound (w : Watched) : Prop where
  known : Known w.daemon
  engines : ∀ id, w.notified id ≠ [] ∨ w.forwarding id = true ∨ id ∈ w.watcherRx ∨
    w.daemon.debounceMap id ≠ none → w.daemon.engines id = true
  deadline : ∀ id t, w.daemon.debounceMap id = some t → t ≤ w.daemon.now + 500

lemma engines_of_step {id : Uuid} (hs : Daemon.Step d d') (h : d.engines id = true) :
    d'.engines id = true := by
  cases hs with
  | register x => simp [h]
  | _ => exact h

lemma now_le_of_step (hs : Daemon.Step d d') : d.now ≤ d'.now := by
  cases hs with
  | pass ms => exact Nat.le_add_right _ ms
  | _ => exact le_refl _

lemma sound_init (ids : List Uuid) : Sound (init ids) where
  known := known_init ids
  engines id h := by
    rcases h with h | h | h | h
    · exact absurd rfl h
    · cases h
    · exact absurd h List.not_mem_nil
    · exact absurd rfl h
  deadline id t h := by cases h

lemma Sound.step (h : Sound w) (hs : Step w w') : Sound w' := by
  cases hs with
  | notify x ok hid =>
      refine ⟨h.known, fun id hc => ?_, h.deadline⟩
      by_cases hx : id = x
      · rw [hx]
        exact hid
      · simp only [Function.update_of_ne hx] at hc
        exact h.engines id hc
  | @nextEvent x rest hx hidle =>
      refine ⟨h.known, fun id hc => ?_, h.deadline⟩
      by_cases hid : id = x
      · rw [hid]
        exact h.engines x (Or.inl (by rw [hx]; exact List.cons_ne_nil _ _))
      · simp only [Function.update_of_ne hid] at hc
        exact h.engines id hc
  | @warn x rest hx hidle =>
      refine ⟨h.known, fun id hc => ?_, h.deadline⟩
      by_cases hid : id = x
      · rw [hid]
        exact h.engines x (Or.inl (by rw [hx]; exact List.cons_ne_nil _ _))
      · simp only [Function.update_of_ne hid] at hc
        exact h.engines id hc
  | @forward x hx hroom =>
      refine ⟨h.known, fun id hc => ?_, h.deadline⟩
      by_cases hid : id = x
      · rw [hid]
        exact h.engines x (Or.inr (Or.inl hx))
      · simp only [Function.update_of_ne hid, List.mem_append, List.mem_singleton] at hc
        exact h.engines id (hc.imp_right (Or.imp_right (Or.imp_left (fun hm => hm.resolve_right hid))))
  | @recv x rest hx hloop =>
      refine ⟨fun id hid => h.known id hid, fun id hc => ?_, fun id t ht => ?_⟩
      · by_cases hid : id = x
        · rw [hid]
          exact h.engines x (Or.inr (Or.inr (Or.inl (by rw [hx]; exact List.mem_cons_self))))
        · simp only [if_neg hid] at hc
          exact h.engines id (hc.imp_right (Or.imp_right (Or.imp_left (fun hm => by
            rw [hx]
            exact List.mem_cons_of_mem x hm))))
      · simp only at ht
        split at ht
        · cases ht
          exact le_refl _
        · exact h.deadline id t ht
  | other hs hno =>
      refine ⟨known_of_step h.known hs, fun id hc => engines_of_step hs (h.engines id ?_),
        fun id t ht => ?_⟩
      · refine hc.imp_right (Or.imp_right (Or.imp_right (fun hm => ?_)))
        obtain ⟨t, ht⟩ := Option.ne_none_iff_exists'.mp hm
        rw [hno id t ht]
        exact Option.some_ne_none t
      · have hle := h.deadline id t (hno id t ht)
        have hnow := now_le_of_step hs
        dsimp only
        omega

lemma sound (h : Reachable w) : Sound w := by
  obtain ⟨ids, hrun⟩ := h
  exact Runs.invariant (fun _ _ hw hs => hw.step hs) (sound_init ids) hrun

/-- A step that neither starts the folder nor passes it over. -/
def Keeps (f : Uuid) (w w' : Watched) : Prop :=
  Step w w' ∧ ¬ w.daemon.started f < w'.daemon.started f ∧ ¬ PassesOver w.daemon w'.daemon f

/-- **One step, on the way or in the loop.** -/
lemma owed_step (hw : Sound w) (hs : Keeps f w w') (h : w.Owed f) : w'.Owed f := by
  obtain ⟨hs, hstart, hpass⟩ := hs
  cases hs with
  | notify x ok =>
      refine h.imp_left (fun hm => ?_)
      by_cases hx : f = x
      · subst hx
        simp only [Function.update_self]
        exact List.mem_append_left _ hm
      · simp only [Function.update_of_ne hx]
        exact hm
  | @nextEvent x rest hx hidle =>
      by_cases hf : f = x
      · subst hf
        exact Or.inr (Or.inl (Function.update_self f true w.forwarding))
      · unfold Owed
        simp only [Function.update_of_ne hf]
        exact h
  | @warn x rest hx hidle =>
      refine h.imp_left (fun hm => ?_)
      by_cases hf : f = x
      · subst hf
        simp only [Function.update_self]
        rw [hx] at hm
        exact (List.mem_cons.mp hm).resolve_left (fun hc => by cases hc)
      · simp only [Function.update_of_ne hf]
        exact hm
  | @forward x hx hroom =>
      by_cases hf : f = x
      · subst hf
        exact Or.inr (Or.inr (Or.inl (List.mem_append_right _ (List.mem_singleton.mpr rfl))))
      · unfold Owed
        simp only [Function.update_of_ne hf]
        exact h.imp_right (Or.imp_right (Or.imp_left (List.mem_append_left _)))
  | @recv x rest hx hloop =>
      by_cases hf : f = x
      · exact Or.inr (Or.inr (Or.inr (Or.inl (by simp [hf]))))
      · refine h.imp_right (Or.imp_right (fun hm => ?_))
        rcases hm with hm | hm
        · rw [hx] at hm
          exact Or.inl ((List.mem_cons.mp hm).resolve_left hf)
        · refine Or.inr (hm.imp_left (fun hn => ?_))
          simp only [if_neg hf]
          exact hn
  | other hs =>
      refine h.imp_right (Or.imp_right (Or.imp_right (fun hm => ?_)))
      exact owes_step hw.known (fun hn => hw.engines f (Or.inr (Or.inr (Or.inr hn)))) hs hstart
        hpass hm

/-- **A local change is not lost on its way.**  From when the watcher has reported it until the next
start of its folder, it is in a channel, under a deadline or pending, unless a drain passes it over
because the folder is paused or its sync runs.  The deadline is at most 500 ms ahead, the first tick
after it drains the folder, and the first tick that finds a pending folder idle and not paused
starts it. -/
theorem changeKept {w w' : Watched} (h : Reachable w) (f : Uuid) (howed : w.Owed f)
    (hrun : Relation.ReflTransGen (Keeps f) w w') :
    w'.Owed f ∧
    (∀ t, w'.daemon.debounceMap f = some t → t ≤ w'.daemon.now + 500 ∧
      ∀ d due, Daemon.Step w'.daemon d → w'.daemon.loop = .spawning [] → d.loop = .draining due →
        t ≤ w'.daemon.now → f ∈ due) ∧
    (w'.daemon.scheduler.pending f = true → ∀ d ready, Daemon.Step w'.daemon d →
      w'.daemon.loop = .select → d.loop = .spawning ready →
        w'.daemon.scheduler.running f = false → w'.daemon.scheduler.paused f = false → f ∈ ready) := by
  have hinv : Sound w' ∧ w'.Owed f := by
    refine Runs.invariant (I := fun w : Watched => Sound w ∧ w.Owed f) (fun a b hab hs => ?_)
      ⟨sound h, howed⟩ hrun
    exact ⟨hab.1.step hs.1, owed_step hab.1 hs hab.2⟩
  refine ⟨hinv.2, fun t ht => ⟨hinv.1.deadline f t ht, fun d due hs hl hl' hle => ?_⟩,
    fun hp d ready hs hl hl' hrunning hpaused => ?_⟩
  · cases hs with
    | due _ hdue =>
        cases hl'
        exact (hdue.2 f).mpr ⟨t, ht, hle⟩
    | _ => simp_all
  · cases hs with
    | tick _ hready =>
        cases hl'
        exact (hready.2 f).mpr (SyncScheduler.isReady_of_pending hp hpaused hrunning)
    | _ => simp_all

/-- The theorem for a change that has come as far as the loop. -/
theorem changeKept_received : ∃ w, Reachable w ∧ w.Owed 7 ∧ w.daemon.debounceMap 7 = some 500 := by
  have hnotify : Step (init [7]) _ := .notify 7 true rfl (by decide)
  let told : Watched := { init [7] with notified := Function.update (fun _ => []) 7 [true] }
  have hnext : Step told _ := .nextEvent (show told.notified 7 = [true] from rfl) rfl
  let carried : Watched :=
    { told with
      notified := Function.update told.notified 7 []
      forwarding := Function.update told.forwarding 7 true }
  have hforward : Step carried _ := .forward (show carried.forwarding 7 = true from rfl) (by decide)
  let arrived : Watched :=
    { carried with forwarding := Function.update carried.forwarding 7 false, watcherRx := [7] }
  have hrecv : Step arrived _ := .recv (show arrived.watcherRx = [7] from rfl) rfl
  have hreach : Reachable _ := ⟨[7], Relation.ReflTransGen.single hnotify⟩
  have hrun := ((Relation.ReflTransGen.single (r := Keeps 7) ⟨hnext, Nat.lt_irrefl _, by
    rintro ⟨⟨rest, hl, -⟩, -⟩
    cases hl⟩).tail ⟨hforward, Nat.lt_irrefl _, by
    rintro ⟨⟨rest, hl, -⟩, -⟩
    cases hl⟩).tail ⟨hrecv, Nat.lt_irrefl _, by
    rintro ⟨⟨rest, hl, -⟩, -⟩
    cases hl⟩
  obtain ⟨howed, -, -⟩ := changeKept hreach 7 (Or.inl (by
    show true ∈ Function.update (fun _ => []) 7 ([] ++ [true]) 7
    simp)) hrun
  exact ⟨_, ⟨[7], ((((Relation.ReflTransGen.single hnotify).tail hnext).tail hforward).tail hrecv)⟩,
    howed, rfl⟩

end Watched

end OwncloudSync
