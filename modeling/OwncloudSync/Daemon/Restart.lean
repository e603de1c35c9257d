import OwncloudSync.Daemon.OrphanSync
import Mathlib.Tactic.Common

/-!
# A restart

A restart makes the scheduler from the config file alone: `FolderManager::init_sync` makes the
folders of the accounts whose credentials load, and `SyncScheduler::new` gives each of them a fresh
state.  The file is the configuration as long as every save succeeds (`file_eq_config`), so the
restarted scheduler knows exactly the configured folders — and **none of them is paused**, since
`FolderConfig::paused` is neither written by `PauseFolder` nor read at start-up.

Whether the scheduler before the restart knows the configured folders is a matter of the run: it
does as long as the removals of the run are harmless (`Daemon/OrphanSync.lean`).
-/

namespace OwncloudSync

namespace Process

/-- The scheduler after a restart.  It fails if the file cannot be loaded, or the journal, the VFS
or the watcher of one of the folders cannot be opened. -/
def restart (loaded : Uuid → Bool) (opens : FolderConfig → Bool) (file : Option AppConfig) :
    Option SyncScheduler :=
  match file with
  | none => none
  | some cfg =>
      if (initSync cfg loaded).all (fun m => opens m.config) then
        some (SyncScheduler.new ((initSync cfg loaded).map (fun m => m.config.id)))
      else none

/-- The restarted scheduler has the same folders, with the same paused flags. -/
def Faithful (loaded : Uuid → Bool) (opens : FolderConfig → Bool) (p : Process) : Prop :=
  ∃ s, restart loaded opens p.file = some s ∧
    ∀ id, (s id ≠ none ↔ p.core.scheduler id ≠ none) ∧ s.paused id = p.core.scheduler.paused id

/-- The scheduler knows exactly the configured folders. -/
def InStep (p : Process) : Prop :=
  ∀ id, p.core.scheduler id ≠ none ↔ Configured p.config id

/-- No folder is on its way from the configuration to the scheduler. -/
def AtRest (p : Process) : Prop := ∀ accountId folder todo, p.job ≠ .pushed accountId folder todo

variable {p p' p₀ : Process} {a : Action} {id : Uuid} {cfg : AppConfig} {loaded : Uuid → Bool}
  {opens : FolderConfig → Bool}

/-! ## The file -/

lemma file_save {result : SaveResult} (h : (p.save cfg result).allSaved = true) :
    (p.save cfg result).file = some cfg := by
  cases result with
  | ok => rfl
  | failed left => cases h

lemma file_step (h : p.allSaved = true → p.file = some p.config) (hs : Step p a p')
    (hsaved : p'.allSaved = true) : p'.file = some p'.config := by
  cases hs with
  | push => simpa using file_save hsaved
  | removeAccount => simpa using file_save hsaved
  | dismissSpace => simpa using file_save hsaved
  | signedIn => simpa using file_save hsaved
  | pollRemove => simpa using file_save hsaved
  | _ => exact h hsaved

/-- As long as every save succeeds, the file is the configuration. -/
lemma file_eq_config (h : Reachable p) (hsaved : p.allSaved = true) : p.file = some p.config := by
  obtain ⟨p₀, hstart, hrun⟩ := h
  refine Runs.invariant (I := fun p => p.allSaved = true → p.file = some p.config)
    (fun _ _ hp ⟨_, hs⟩ => file_step hp hs) ?_ hrun hsaved
  obtain ⟨cfg, loaded, ids, rfl, -⟩ := hstart.eq_init
  exact fun _ => rfl

/-! ## The restarted scheduler -/

/-- With all credentials loaded, every configured folder is made. -/
lemma initSync_config (hload : ∀ a ∈ cfg.account, loaded a.id = true) :
    (initSync cfg loaded).map ManagedFolder.config = cfg.folders := by
  refine (initSync_sublist cfg loaded).eq_of_length ?_
  rw [List.length_map, initSync, List.filterMap_length_eq_length.mpr]
  intro f hf
  obtain ⟨a, ha, hfa⟩ := AppConfig.mem_folders.mp hf
  have hsome : (cfg.account.find? (fun a => a.folder.any (fun g => g.id = f.id))).isSome = true := by
    rw [List.find?_isSome]
    exact ⟨a, ha, List.any_eq_true.mpr ⟨f, hfa, by simp⟩⟩
  obtain ⟨b, hb⟩ := Option.isSome_iff_exists.mp hsome
  rw [hb]
  dsimp only
  rw [if_pos (hload b (List.mem_of_find?_eq_some hb))]
  rfl

/-- What a restart makes of a configuration whose credentials load. -/
lemma restart_eq (hload : ∀ a ∈ cfg.account, loaded a.id = true) :
    restart loaded opens (some cfg) =
      if cfg.folders.all opens then some (SyncScheduler.new (cfg.folders.map FolderConfig.id))
      else none := by
  have hids : (initSync cfg loaded).map (fun m => m.config.id) =
      cfg.folders.map FolderConfig.id := by
    rw [← initSync_config hload, List.map_map]
    rfl
  have hall : (initSync cfg loaded).all (fun m => opens m.config) = cfg.folders.all opens := by
    rw [← initSync_config hload, List.all_map]
    rfl
  simp only [restart, hids, hall]

lemma new_known {ids : List Uuid} : SyncScheduler.new ids id ≠ none ↔ id ∈ ids := by
  unfold SyncScheduler.new
  split
  · rename_i h
    exact iff_of_true (by simp) h
  · rename_i h
    exact iff_of_false (by simp) h

lemma new_paused {ids : List Uuid} : (SyncScheduler.new ids).paused id = false := by
  unfold SyncScheduler.paused SyncScheduler.new
  split
  · rfl
  · rfl

/-! ## The run before the restart -/

/-- No step makes a folder unknown. -/
lemma known_mono (hat : p.job.At p.core.loop) (hs : Step p a p')
    (hid : p.core.scheduler id ≠ none) : p'.core.scheduler id ≠ none := by
  rcases projects hat hs with heq | hstep
  · rw [heq]
    exact hid
  · exact Daemon.known_step hstep hid

/-- A folder on its way to the scheduler stays so until it is there. -/
lemma step_scheduled (hat : p.job.At p.core.loop) (hs : Step p a p') {accountId : Uuid}
    {folder : FolderConfig} {todo : List NewFolder} (h : p.job = .pushed accountId folder todo) :
    p'.job = p.job ∨ p'.core.scheduler folder.id ≠ none := by
  have hnot : p.core.loop ≠ .select := by
    intro hl
    rw [job_idle_of_select hat hl] at h
    cases h
  cases step_job hs with
  | none h' => exact Or.inl h'
  | setAccountFolders _ _ _ hl => exact absurd hl hnot
  | addAccountSpace _ _ _ hl => exact absurd hl hnot
  | refuse _ _ _ hj => rw [h] at hj; cases hj
  | register _ _ _ _ hj => rw [h] at hj; cases hj
  | push _ _ _ hj => rw [h] at hj; cases hj
  | schedule _ _ _ hj hscheduler =>
      obtain ⟨rfl, rfl, rfl⟩ := Job.pushed.inj (h.symm.trans hj)
      refine Or.inr ?_
      rw [hscheduler, SyncScheduler.requestSync, SyncScheduler.modify_known,
        SyncScheduler.addFolder, if_pos rfl]
      simp
  | added _ hj => rw [h] at hj; cases hj

/-- A configured folder is known, or on its way to the scheduler. -/
def Scheduled (p : Process) : Prop :=
  ∀ f ∈ p.config.folders, p.core.scheduler f.id ≠ none ∨
    ∃ accountId todo, p.job = .pushed accountId f todo

lemma scheduled_step (hc : Coherent p) (h : Scheduled p) (hs : Step p a p') : Scheduled p' := by
  have hkept : ∀ f ∈ p.config.folders, p'.core.scheduler f.id ≠ none ∨
      ∃ accountId todo, p'.job = .pushed accountId f todo := by
    intro f hf
    rcases h f hf with hknown | ⟨accountId, todo, hj⟩
    · exact Or.inl (known_mono hc.loop hs hknown)
    · rcases step_scheduled hc.loop hs hj with hj' | hknown
      · exact Or.inr ⟨accountId, todo, hj'.trans hj⟩
      · exact Or.inl hknown
  intro f hf
  rcases (step_config hs).folders with hsub | ⟨accountId, folder, todo, hj, hj', hcfg⟩
  · exact hkept f (hsub.subset hf)
  · have hacc := hc.account accountId (by rw [hj]; rfl)
    rw [hcfg, (AppConfig.folders_pushFolder hacc).mem_iff, List.mem_cons] at hf
    rcases hf with rfl | hf
    · exact Or.inr ⟨accountId, todo, hj'⟩
    · exact hkept f hf

/-- After harmless removals the scheduler knows the configured folders and no other. -/
lemma inStep_of_harmless (hstart : Starts p₀) (h₀ : InStep p₀)
    (hrun : Relation.ReflTransGen HarmlessNext p₀ p) (hrest : AtRest p) : InStep p := by
  have hanch := (harmless_run hrun (coherent_of_starts hstart) (anchored_of_starts hstart)).1
  have hsched : Coherent p ∧ Scheduled p := by
    refine Runs.invariant (I := fun p => Coherent p ∧ Scheduled p)
      (fun q q' hq ⟨⟨act, hs⟩, _⟩ => ⟨coherent_step hq.1 hs, scheduled_step hq.1 hq.2 hs⟩)
      ⟨coherent_of_starts hstart, fun f hf => Or.inl ?_⟩ hrun
    exact (h₀ f.id).mpr (configured_iff.mpr ⟨f, hf, rfl⟩)
  refine fun id => ⟨hanch.known id, fun hid => ?_⟩
  obtain ⟨f, hf, rfl⟩ := configured_iff.mp hid
  rcases hsched.2 f hf with hknown | ⟨accountId, todo, hj⟩
  · exact hknown
  · exact absurd hj (hrest accountId f todo)

/-! ## The restart -/

/-- **Exactly when a restart is faithful.**  In every state in which all saves have succeeded, and
given that the credentials load: the scheduler knows exactly the configured folders, none of them
is paused, and each can be opened again.  The first holds in every run that began so and whose
removals are harmless. -/
theorem restart_faithful_iff (p : Process) (h : Reachable p) (hsaved : p.allSaved = true)
    (loaded : Uuid → Bool) (opens : FolderConfig → Bool)
    (hload : ∀ a ∈ p.config.account, loaded a.id = true) :
    (Faithful loaded opens p ↔ InStep p ∧ (∀ id, p.core.scheduler.paused id = false) ∧
      ∀ f ∈ p.config.folders, opens f = true) ∧
    ∀ p₀, Starts p₀ → InStep p₀ → Relation.ReflTransGen HarmlessNext p₀ p → AtRest p →
      InStep p := by
  refine ⟨?_, fun p₀ hstart h₀ hrun hrest => inStep_of_harmless hstart h₀ hrun hrest⟩
  have hknown : ∀ id, SyncScheduler.new (p.config.folders.map FolderConfig.id) id ≠ none ↔
      Configured p.config id := by
    intro id
    rw [new_known, configured_iff, List.mem_map]
  unfold Faithful
  rw [file_eq_config h hsaved, restart_eq hload]
  constructor
  · rintro ⟨s, hs, hsame⟩
    split at hs
    · rename_i hall
      cases hs
      refine ⟨fun id => ?_, fun id => ?_, List.all_eq_true.mp hall⟩
      · rw [← (hsame id).1, hknown]
      · rw [← (hsame id).2, new_paused]
    · cases hs
  · rintro ⟨hstep, hpaused, hopens⟩
    refine ⟨_, if_pos (List.all_eq_true.mpr hopens), fun id => ⟨?_, ?_⟩⟩
    · rw [hknown, hstep]
    · rw [new_paused, hpaused]

lemma inStep_start : InStep (start oneFolder (fun _ => true)) := by
  intro id
  rw [show (start oneFolder (fun _ => true)).core.scheduler = SyncScheduler.new [21] from rfl,
    new_known, configured_iff]
  simp [start, init, oneFolder, AppConfig.folders, eq_comm]

/-- The theorem after start-up. -/
theorem faithful_after_start :
    Faithful (fun _ => true) (fun _ => true) (start oneFolder (fun _ => true)) := by
  have hstart := starts_start oneFolder (fun _ => true) (by decide) (by decide)
  exact (restart_faithful_iff _ ⟨_, hstart, .refl⟩ rfl (fun _ => true) (fun _ => true)
    (fun _ _ => rfl)).1.mpr ⟨inStep_start, fun _ => new_paused, fun _ _ => rfl⟩

/-- A paused folder is not paused after a restart. -/
theorem paused_forgotten : ∃ p : Process, Reachable p ∧ p.allSaved = true ∧
    p.core.scheduler.paused 21 = true ∧ ¬ Faithful (fun _ => true) (fun _ => true) p := by
  have hstart := starts_start oneFolder (fun _ => true) (by decide) (by decide)
  have hpause := Step.core (p := start oneFolder (fun _ => true))
    ⟨.pauseFolder 21 rfl, Or.inl rfl, by simp⟩
  refine ⟨_, ⟨_, hstart, .single ⟨_, hpause⟩⟩, rfl, by decide, ?_⟩
  rintro ⟨s, hs, hsame⟩
  obtain rfl : SyncScheduler.new [21] = s := Option.some.inj hs
  exact absurd (hsame 21).2 (by decide)

end Process

end OwncloudSync
