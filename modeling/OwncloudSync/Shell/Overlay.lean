import OwncloudSync.Daemon.Coherence
import OwncloudSync.Engine.Progress
import OwncloudSync.Shell.Server
import Mathlib.Tactic.Common

/-!
# The overlay icons of the file manager

Three things hold a status for a file: the `SyncState` inside the `SyncEngine` of its folder, which
`run_sync` writes with paths **relative** to the root; the map `sync_states` of the `FolderManager`,
which the resolver reads with **absolute** paths; and the list `folder_roots`, which says whose map
to read.  The comment on `sync_states` says that the engines write into it.  They do not: a
`SyncEngine` makes a state of its own, and the map gets an empty one when a folder is registered and
is never written again.  The roots are copied once, at start-up.

So the resolver shows every path below a root of the start-up as `OK`, whatever the engine says, and
every other path as `NONE` (`reply_eq`).  `shown_iff` says where this is the status of the engine,
`startup_shown_iff` what it means for a folder of the start-up, and `outside_shown` that paths outside
of all folders are shown as they should be.

The engines are taken as writing whatever they like (`SyncWrite`); `writes_runSync` says that a run
of `run_sync` is such a sequence of writes.
-/

namespace OwncloudSync

open PathTree LexicalPath

/-- `SyncState::new`. -/
def SyncState.new : SyncState where
  status := .idle
  fileStatuses _ := none

/-- One write to the state of an engine. -/
inductive SyncWrite : SyncState → SyncState → Prop
  | status (s : SyncState) (status : FolderStatus) : SyncWrite s { s with status := status }
  | setFileStatus (s : SyncState) (p : Path) (fs : FileStatus) : SyncWrite s (s.setFileStatus p fs)
  | clearFileStatus (s : SyncState) (p : Path) : SyncWrite s (s.clearFileStatus p)

/-- The daemon with its engines and the server of the socket API. -/
structure Overlay where
  process : Process
  /-- the `SyncState` inside the `SyncEngine` of each folder -/
  engines : Uuid → SyncState
  server : Shell.SocketApiServer

namespace Overlay

open Shell Process

/-! ## The system -/

/-- `FolderManager::folder_roots`, in some order. -/
def rootOf (m : ManagedFolder) : Str × Uuid := (m.config.localPath, m.config.id)

/-- The daemon has started: each folder has an empty map and its root. -/
structure Starts (o : Overlay) : Prop where
  process : Process.Starts o.process
  engines : o.engines = fun _ => SyncState.new
  syncStates : ∀ m ∈ o.process.managed, o.server.resolver.syncStates m.config.id = some []
  folderRoots : o.server.resolver.folderRoots.Perm (o.process.managed.map rootOf)

/-- What a step of the daemon does to the tables: `add_folder` makes an engine, and inserts a new
`SyncState` into `sync_states`. -/
def follow (o : Overlay) (p' : Process) : Action → Overlay
  | .register id =>
      { process := p'
        engines := fun x => if x = id then SyncState.new else o.engines x
        server := { o.server with
          resolver := { o.server.resolver with
            syncStates := fun x => if x = id then some [] else o.server.resolver.syncStates x } } }
  | _ => { o with process := p' }

/-- A step of the main loop, or a write of an engine. -/
inductive Step : Overlay → Overlay → Prop
  | process {o : Overlay} {a : Action} {p' : Process} (hs : Process.Step o.process a p') :
      Step o (o.follow p' a)
  | engine {o : Overlay} {m : ManagedFolder} {s : SyncState} (hm : m ∈ o.process.managed)
      (hw : SyncWrite (o.engines m.config.id) s) :
      Step o { o with engines := fun x => if x = m.config.id then s else o.engines x }

/-- The states of a run. -/
def Reachable (o : Overlay) : Prop := ∃ o₀, Starts o₀ ∧ Relation.ReflTransGen Step o₀ o

/-! ## What is shown and what should be -/

/-- The path a file manager asks about. -/
def localFile (m : ManagedFolder) (rel : Path) : Str := m.config.localPath ++ '/' :: pathStr rel

/-- The answer to `RETRIEVE_FILE_STATUS`. -/
def reply (o : Overlay) (path : Str) : Option Str :=
  o.server.answer (request "RETRIEVE_FILE_STATUS".toList path)

/-- There is an answer, and it carries the tag. -/
def Carries (reply : Option Str) (tag : Tag) : Prop :=
  ∃ path, reply = some ("STATUS:".toList ++ tag.text ++ ':' :: path)

/-- The tag of the status the engine of a folder has for a path. -/
def engineTag (o : Overlay) (m : ManagedFolder) (rel : Path) : Tag :=
  match (o.engines m.config.id).fileStatuses rel with
  | none => .ok
  | some fs => tagOf fs

/-- The path is in no folder of the daemon. -/
def Outside (o : Overlay) (path : Str) : Prop :=
  ∀ m ∈ o.process.managed, startsWith path m.config.localPath = false

variable {o o' : Overlay} {m : ManagedFolder} {rel : Path} {path : Str} {tag : Tag}

/-! ## The tables -/

/-- What holds in every state: the maps of the roots are empty, and the roots are of folders that
the daemon still has. -/
structure Tables (o : Overlay) : Prop where
  empty : ∀ root ∈ o.server.resolver.folderRoots, o.server.resolver.syncStates root.2 = some []
  roots : ∀ root ∈ o.server.resolver.folderRoots, ∃ m ∈ o.process.managed, rootOf m = root

lemma tables_of_starts (h : Starts o) : Tables o where
  empty root hroot := by
    obtain ⟨m, hm, rfl⟩ := List.mem_map.mp (h.folderRoots.mem_iff.mp hroot)
    exact h.syncStates m hm
  roots root hroot := List.mem_map.mp (h.folderRoots.mem_iff.mp hroot)

@[simp] lemma follow_process (o : Overlay) (p' : Process) (a : Action) :
    (o.follow p' a).process = p' := by
  cases a <;> rfl

@[simp] lemma follow_folderRoots (o : Overlay) (p' : Process) (a : Action) :
    (o.follow p' a).server.resolver.folderRoots = o.server.resolver.folderRoots := by
  cases a <;> rfl

/-- A step of the daemon leaves an empty map empty. -/
lemma follow_empty {p' : Process} {a : Action} {id : Uuid}
    (h : o.server.resolver.syncStates id = some []) :
    (o.follow p' a).server.resolver.syncStates id = some [] := by
  cases a with
  | register new =>
      by_cases hid : id = new
      · exact if_pos hid
      · exact (if_neg hid).trans h
  | _ => exact h

lemma tables_step (h : Tables o) (hs : Step o o') : Tables o' := by
  cases hs with
  | process hs =>
      refine ⟨fun root hroot => ?_, fun root hroot => ?_⟩
      · rw [follow_folderRoots] at hroot
        exact follow_empty (h.empty root hroot)
      · rw [follow_folderRoots] at hroot
        obtain ⟨m, hm, hrootOf⟩ := h.roots root hroot
        rw [follow_process]
        exact ⟨m, managed_mono hs hm, hrootOf⟩
  | engine hm hw => exact ⟨h.empty, h.roots⟩

/-- In every state the tables fit the folders. -/
theorem tables (h : Reachable o) : Tables o := by
  obtain ⟨o₀, hstart, hrun⟩ := h
  exact Runs.invariant (fun _ _ ho hs => tables_step ho hs) (tables_of_starts hstart) hrun

/-- The overlay takes nothing away from the daemon: its states are those of the daemon alone. -/
theorem reachable_process (h : Reachable o) : Process.Reachable o.process := by
  obtain ⟨o₀, hstart, hrun⟩ := h
  refine Runs.invariant (I := fun o => Process.Reachable o.process) ?_
    ⟨_, hstart.process, .refl⟩ hrun
  rintro o o' ⟨p₀, hp₀, hp⟩ hs
  cases hs with
  | process hs =>
      refine ⟨p₀, hp₀, ?_⟩
      rw [follow_process]
      exact hp.tail ⟨_, hs⟩
  | engine => exact ⟨p₀, hp₀, hp⟩

/-! ## The answers -/

/-- An answer carries one tag only. -/
lemma carries_some_iff {t : Tag} :
    Carries (some ("STATUS:".toList ++ t.text ++ ':' :: path)) tag ↔ t = tag := by
  constructor
  · rintro ⟨path', h⟩
    have htext := Option.some.inj h
    rw [List.append_assoc, List.append_assoc, List.append_cancel_left_eq] at htext
    have hcut := congrArg (Text.splitOnce ':') htext
    rw [Text.splitOnce_append (t.colon_not_mem_text),
      Text.splitOnce_append (tag.colon_not_mem_text)] at hcut
    exact Tag.text_injective (Prod.mk.inj (Option.some.inj hcut)).1
  · rintro rfl
    exact ⟨path, rfl⟩

lemma not_carries_none : ¬ Carries none tag := by
  rintro ⟨_, h⟩
  cases h

/-- **The answer depends on the roots of the start-up alone.** -/
theorem reply_eq (h : Reachable o) : o.reply path =
    if asRead path = [] then none
    else some ("STATUS:".toList ++
      (if o.server.resolver.Covers (asRead path) then Tag.ok else Tag.none).text ++
      ':' :: (asRead path ++ ['\n'])) := by
  rw [reply, answer_fileStatus, resolveFile_of_empty (tables h).empty, List.append_assoc _ _ ['\n'],
    List.cons_append]

/-- The tag of an answer. -/
lemma carries_reply_iff (h : Reachable o) : Carries (o.reply path) tag ↔ asRead path ≠ [] ∧
    (if o.server.resolver.Covers (asRead path) then Tag.ok else Tag.none) = tag := by
  rw [reply_eq h]
  by_cases hpath : asRead path = []
  · rw [if_pos hpath]
    exact iff_of_false not_carries_none (fun hp => hp.1 hpath)
  · rw [if_neg hpath, carries_some_iff, and_iff_right hpath]

/-- The engine shows nothing else than `OK` for the path. -/
lemma engineTag_eq_ok : o.engineTag m rel = .ok ↔
    (o.engines m.config.id).fileStatuses rel = none ∨
      (o.engines m.config.id).fileStatuses rel = some .ok := by
  unfold engineTag
  cases (o.engines m.config.id).fileStatuses rel with
  | none => simp
  | some fs => cases fs <;> simp [tagOf]

lemma engineTag_ne_none : o.engineTag m rel ≠ .none := by
  unfold engineTag
  cases (o.engines m.config.id).fileStatuses rel with
  | none => simp
  | some fs => cases fs <;> simp [tagOf]

/-- **What is shown is the status of the engine exactly below the roots of the start-up, for the
files the engine has no status for, or `Ok`.** -/
theorem shown_iff (h : Reachable o) :
    (∀ m ∈ o.process.managed, ∀ rel,
      Carries (o.reply (localFile m rel)) (o.engineTag m rel) ↔
        (asRead (localFile m rel) ≠ [] ∧
          o.server.resolver.Covers (asRead (localFile m rel))) ∧
        ((o.engines m.config.id).fileStatuses rel = none ∨
          (o.engines m.config.id).fileStatuses rel = some .ok)) ∧
    (∀ path, o.Outside path →
      (Carries (o.reply path) .none ↔
        asRead path ≠ [] ∧ ¬ o.server.resolver.Covers (asRead path))) := by
  constructor
  · intro m hm rel
    rw [carries_reply_iff h, and_assoc, ← engineTag_eq_ok]
    refine and_congr_right (fun _ => ?_)
    by_cases hcovers : o.server.resolver.Covers (asRead (localFile m rel))
    · rw [if_pos hcovers, and_iff_right hcovers]
      exact eq_comm
    · rw [if_neg hcovers]
      exact iff_of_false (Ne.symm engineTag_ne_none) (fun hc => hcovers hc.1)
  · intro path hout
    rw [carries_reply_iff h]
    refine and_congr_right (fun _ => ?_)
    by_cases hcovers : o.server.resolver.Covers (asRead path)
    · rw [if_pos hcovers]
      simp [hcovers]
    · rw [if_neg hcovers]
      simp [hcovers]

/-- A folder of the start-up is covered, so its files are shown as the engine has them unless it has
`Syncing`, `Error` or `Excluded`. -/
theorem startup_shown_iff (h : Reachable o) (hroot : rootOf m ∈ o.server.resolver.folderRoots)
    (hread : asRead (localFile m rel) = localFile m rel) :
    Carries (o.reply (localFile m rel)) (o.engineTag m rel) ↔ o.engineTag m rel = .ok := by
  have hne : asRead (localFile m rel) ≠ [] := by
    rw [hread]
    simp [localFile]
  have hcovers : o.server.resolver.Covers (asRead (localFile m rel)) := by
    rw [hread]
    exact ⟨rootOf m, hroot, startsWith_iff.mpr (components_prefix_append _ _)⟩
  rw [carries_reply_iff h, if_pos hcovers, and_iff_right hne]
  exact eq_comm

/-- A path outside of all folders is shown as `NONE`. -/
theorem outside_shown (h : Reachable o) (hout : o.Outside path) (hread : asRead path = path)
    (hne : path ≠ []) : Carries (o.reply path) .none := by
  have hnot : ¬ o.server.resolver.Covers (asRead path) := by
    rintro ⟨root, hroot, hstarts⟩
    obtain ⟨m, hm, rfl⟩ := (tables h).roots root hroot
    have hfalse := hout m hm
    rw [hread] at hstarts
    exact Bool.false_ne_true (hfalse.symm.trans hstarts)
  rw [carries_reply_iff h, if_neg hnot]
  exact ⟨by rw [hread]; exact hne, rfl⟩

/-! ## The engines -/

section Engines

variable {κ : EngineConfig} {ε : Env} {χ : Crash} {σ s : State} {π : Schedule σ} {t : Item}

/-- A task that gets to its end writes to the state once, or not at all. -/
lemma writes_exec (κ : EngineConfig) (ε : Env) (t : Item) (s : State) :
    Relation.ReflTransGen SyncWrite s.sync (exec κ ε t s).1.sync := by
  generalize hr : exec κ ε t s = r
  cases hr ▸ exec_ends κ ε t s with
  | failed => exact .single (.setFileStatus _ _ _)
  | forgotten => exact .single (.clearFileStatus _ _)
  | recorded => exact .single (.setFileStatus _ _ _)
  | unhandled => exact .refl

/-- A task that panics has announced its path, or not. -/
lemma writes_execTask : Relation.ReflTransGen SyncWrite s.sync
    (execTask κ ε χ.panics t s).1.sync := by
  by_cases hc : t.isDir = false → χ.panics t.path = none
  · rw [execTask_calm hc]
    exact writes_exec κ ε t s
  · push Not at hc
    rw [execTask_crashed hc.1 hc.2]
    split
    · exact .single (.setFileStatus _ _ _)
    · exact .refl

/-- **A run of an engine is a sequence of writes to its own state.** -/
theorem writes_runSync : Relation.ReflTransGen SyncWrite σ.sync (runSyncWith κ ε χ π).2.sync := by
  have hstarted : Relation.ReflTransGen SyncWrite σ.sync σ.started.sync :=
    .single (.status _ _)
  have htasks : Relation.ReflTransGen SyncWrite σ.sync
      (TaskRun.run (execTask κ ε χ.panics) (tasks κ ε π) σ.started).1.sync :=
    TaskRun.run_invariant (I := fun s : State => Relation.ReflTransGen SyncWrite σ.sync s.sync)
      hstarted
      (fun _ _ _ hs => hs.trans writes_execTask)
  unfold runSyncWith
  split
  · exact hstarted
  · dsimp only
    split
    · exact hstarted
    · exact htasks.tail (.status _ _)

end Engines

/-! ## A start-up -/

/-- The overlay after a start-up. -/
def atStart (cfg : AppConfig) (loaded : Uuid → Bool) : Overlay where
  process := Process.start cfg loaded
  engines _ := SyncState.new
  server := {
    resolver := {
      syncStates := fun id =>
        if (initSync cfg loaded).any (fun m => m.config.id = id) then some [] else none
      folderRoots := (initSync cfg loaded).map rootOf }
    hydrates := fun _ => true
    dehydrates := fun _ => true }

lemma reachable_atStart (cfg : AppConfig) (loaded : Uuid → Bool)
    (hf : (cfg.folders.map FolderConfig.id).Nodup)
    (ha : (cfg.account.map AccountConfig.id).Nodup) : Reachable (atStart cfg loaded) := by
  refine ⟨_, ⟨starts_start cfg loaded hf ha, rfl, fun m hm => if_pos ?_, .refl _⟩, .refl⟩
  exact List.any_eq_true.mpr ⟨m, hm, by simp⟩

/-- A configuration with the folder `/home/alice/A`. -/
def sharedFolder : AppConfig where
  account := [{
    id := 1
    url := "https://ocis.example.com".toList
    username := []
    displayName := "Alice".toList
    folder := [⟨21, "/home/alice/A".toList, "s".toList, "A".toList, [], "off".toList, false⟩] }]

/-- Its folder in the `FolderManager`. -/
def sharedManaged : ManagedFolder where
  config := ⟨21, "/home/alice/A".toList, "s".toList, "A".toList, [], "off".toList, false⟩
  accountId := 1
  rootPath := none

lemma sharedManaged_mem :
    sharedManaged ∈ (atStart sharedFolder (fun _ => true)).process.managed :=
  List.mem_singleton_self _

/-- The theorem after the start-up: a file the engine knows nothing of is shown as `OK`, and one
outside of the folder as `NONE`. -/
theorem startup_file_shown :
    Carries ((atStart sharedFolder (fun _ => true)).reply
      (localFile sharedManaged ["x.txt".toList])) .ok ∧
    Carries ((atStart sharedFolder (fun _ => true)).reply "/home/alice/Ab".toList) .none := by
  have hreach := reachable_atStart sharedFolder (fun _ => true) (by decide) (by decide)
  refine ⟨((shown_iff hreach).1 sharedManaged sharedManaged_mem ["x.txt".toList]).mpr
    ⟨by decide, Or.inl rfl⟩, ((shown_iff hreach).2 _ ?_).mpr (by decide)⟩
  intro m hm
  rw [show m = sharedManaged from List.mem_singleton.mp hm]
  decide

/-- The engine has begun to upload `x.txt`. -/
def uploading : Overlay :=
  { atStart sharedFolder (fun _ => true) with
    engines := fun x => if x = 21 then SyncState.new.setFileStatus ["x.txt".toList] .syncing
      else SyncState.new }

lemma reachable_uploading : Reachable uploading := by
  obtain ⟨o₀, hstart, hrun⟩ :=
    reachable_atStart sharedFolder (fun _ => true) (by decide) (by decide)
  exact ⟨o₀, hstart, hrun.tail (.engine sharedManaged_mem (.setFileStatus _ _ _))⟩

/-- A file the engine is syncing is shown as `OK`. -/
theorem syncing_shown_ok : Reachable uploading ∧ sharedManaged ∈ uploading.process.managed ∧
    uploading.engineTag sharedManaged ["x.txt".toList] = .sync ∧
    uploading.reply (localFile sharedManaged ["x.txt".toList]) =
      some "STATUS:OK:/home/alice/A/x.txt\n".toList ∧
    ¬ Carries (uploading.reply (localFile sharedManaged ["x.txt".toList]))
      (uploading.engineTag sharedManaged ["x.txt".toList]) := by
  refine ⟨reachable_uploading, sharedManaged_mem, rfl, by decide, fun hcarries => ?_⟩
  -- what is shown is `OK` or `NONE`
  obtain ⟨-, htag⟩ := (carries_reply_iff reachable_uploading).mp hcarries
  split at htag
  · cases htag
  · cases htag

end Overlay

end OwncloudSync
