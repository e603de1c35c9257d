import OwncloudSync.Engine.Types
import Mathlib.Tactic.Common

/-!
# The sync scheduler of the daemon

`SyncScheduler` (`scheduler.rs`): three flags for each folder it knows.  A request sets
`pending`, the main loop starts what is ready, and the sync task reports when it is done.

The methods go through `HashMap::get_mut` and therefore do nothing for an unknown folder; only
`add_folder` makes one known, and **nothing makes it unknown again**.  The time of the last sync
is left out, since no method reads it.
-/

namespace OwncloudSync

/-- `Uuid`. -/
abbrev Uuid := BitVec 128

/-- `FolderScheduleState`. -/
structure FolderScheduleState where
  paused : Bool := false
  running : Bool := false
  pending : Bool := false
  deriving DecidableEq

/-- `SyncScheduler::folders`. -/
abbrev SyncScheduler := Uuid → Option FolderScheduleState

namespace SyncScheduler

/-- `SyncScheduler::new`. -/
def new (ids : List Uuid) : SyncScheduler := fun id => if id ∈ ids then some {} else none

/-- `get_mut`, then a change of what it finds. -/
def modify (s : SyncScheduler) (id : Uuid) (f : FolderScheduleState → FolderScheduleState) :
    SyncScheduler :=
  fun x => if x = id then (s id).map f else s x

/-- `add_folder`: `entry(id).or_default()`. -/
def addFolder (s : SyncScheduler) (id : Uuid) : SyncScheduler :=
  fun x => if x = id then some ((s id).getD {}) else s x

/-- `request_sync`, refused while the folder is syncing. -/
def requestSync (s : SyncScheduler) (id : Uuid) : SyncScheduler :=
  s.modify id (fun st => if !st.running && !st.paused then { st with pending := true } else st)

/-- `force_request_sync`. -/
def forceRequestSync (s : SyncScheduler) (id : Uuid) : SyncScheduler :=
  s.modify id (fun st => if !st.paused then { st with pending := true } else st)

/-- `start_sync`. -/
def startSync (s : SyncScheduler) (id : Uuid) : SyncScheduler :=
  s.modify id (fun st => { st with running := true, pending := false })

/-- `finish_sync`. -/
def finishSync (s : SyncScheduler) (id : Uuid) : SyncScheduler :=
  s.modify id (fun st => { st with running := false })

/-- `pause`. -/
def pause (s : SyncScheduler) (id : Uuid) : SyncScheduler :=
  s.modify id (fun st => { st with paused := true })

/-- `resume`. -/
def resume (s : SyncScheduler) (id : Uuid) : SyncScheduler :=
  s.modify id (fun st => { st with paused := false })

/-- The folders `ready_to_run` collects. -/
def isReady (s : SyncScheduler) (id : Uuid) : Bool :=
  (s id).any (fun st => st.pending && !st.running && !st.paused)

/-- The main loop starts every folder of a list. -/
def startAll (s : SyncScheduler) (ids : List Uuid) : SyncScheduler := ids.foldl startSync s

/-- Is a sync of the folder running, as far as the scheduler knows? -/
def running (s : SyncScheduler) (id : Uuid) : Bool := (s id).any FolderScheduleState.running

/-- The folder is paused. -/
def paused (s : SyncScheduler) (id : Uuid) : Bool := (s id).any FolderScheduleState.paused

variable {s : SyncScheduler} {id x : Uuid}
  {f : FolderScheduleState → FolderScheduleState}

/-! ## What a method does to the flags -/

lemma modify_self : s.modify id f id = (s id).map f := if_pos rfl

lemma modify_ne (h : x ≠ id) : s.modify id f x = s x := if_neg h

/-- No method but `add_folder` makes a folder known or unknown. -/
lemma modify_known : s.modify id f x ≠ none ↔ s x ≠ none := by
  by_cases hx : x = id
  · subst hx
    rw [modify_self, Ne, Option.map_eq_none_iff]
  · rw [modify_ne hx]

/-- A change that leaves `running` alone in every state leaves it alone for every folder. -/
lemma modify_running (h : ∀ st, (f st).running = st.running) :
    (s.modify id f).running x = s.running x := by
  unfold running
  by_cases hx : x = id
  · subst hx
    rw [modify_self, Option.any_map]
    simp [h]
  · rw [modify_ne hx]

lemma modify_paused (h : ∀ st, (f st).paused = st.paused) :
    (s.modify id f).paused x = s.paused x := by
  unfold paused
  by_cases hx : x = id
  · subst hx
    rw [modify_self, Option.any_map]
    simp [h]
  · rw [modify_ne hx]

lemma requestSync_running : (s.requestSync id).running x = s.running x :=
  modify_running (fun st => by split <;> rfl)

lemma addFolder_running : (s.addFolder id).running x = s.running x := by
  unfold running addFolder
  by_cases hx : x = id
  · subst hx
    cases h : s x <;> simp
  · rw [if_neg hx]

lemma addFolder_paused : (s.addFolder id).paused x = s.paused x := by
  unfold paused addFolder
  by_cases hx : x = id
  · subst hx
    cases h : s x <;> simp
  · rw [if_neg hx]

lemma startSync_running (h : s id ≠ none) :
    (s.startSync id).running x = (decide (x = id) || s.running x) := by
  unfold running startSync
  by_cases hx : x = id
  · subst hx
    obtain ⟨st, hst⟩ := Option.ne_none_iff_exists'.mp h
    simp [modify_self, hst]
  · simp [modify_ne hx, hx]

lemma finishSync_running : (s.finishSync id).running x = (!decide (x = id) && s.running x) := by
  unfold running finishSync
  by_cases hx : x = id
  · subst hx
    cases h : s x <;> simp [modify_self, h]
  · simp [modify_ne hx, hx]

lemma finishSync_paused : (s.finishSync id).paused x = s.paused x :=
  modify_paused (fun st => by rfl)

/-! ## The folders a tick starts -/

lemma isReady_iff : s.isReady id = true ↔
    s id ≠ none ∧ s.running id = false ∧ s.paused id = false ∧ (s id).any (·.pending) = true := by
  unfold isReady running paused
  cases h : s id with
  | none => simp
  | some st =>
      simp only [Option.any_some, Bool.and_eq_true, Bool.not_eq_true', ne_eq, reduceCtorEq,
        not_false_eq_true, true_and]
      constructor
      · rintro ⟨⟨h₁, h₂⟩, h₃⟩
        exact ⟨h₂, h₃, h₁⟩
      · rintro ⟨h₂, h₃, h₁⟩
        exact ⟨⟨h₁, h₂⟩, h₃⟩

lemma startAll_known {ids : List Uuid} : s.startAll ids x ≠ none ↔ s x ≠ none := by
  induction ids generalizing s with
  | nil => rfl
  | cons i ids ih => exact ih.trans modify_known

lemma startAll_paused {ids : List Uuid} : (s.startAll ids).paused x = s.paused x := by
  induction ids generalizing s with
  | nil => rfl
  | cons i ids ih => exact ih.trans (modify_paused (fun _ => rfl))

/-- Starting known folders sets `running` for them and for no other. -/
lemma startAll_running {ids : List Uuid} (h : ∀ i ∈ ids, s i ≠ none) :
    (s.startAll ids).running x = (decide (x ∈ ids) || s.running x) := by
  induction ids generalizing s with
  | nil => simp [startAll]
  | cons i ids ih =>
      have hrest : ∀ j ∈ ids, s.startSync i j ≠ none :=
        fun j hj => modify_known.mpr (h j (List.mem_cons_of_mem i hj))
      have hstep := ih hrest
      rw [startSync_running (h i List.mem_cons_self)] at hstep
      rw [show s.startAll (i :: ids) = (s.startSync i).startAll ids from rfl, hstep]
      by_cases hx : x = i <;> by_cases hm : x ∈ ids <;> simp [hx, hm]

end SyncScheduler

end OwncloudSync
