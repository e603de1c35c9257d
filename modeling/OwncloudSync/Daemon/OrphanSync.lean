import OwncloudSync.Daemon.Coherence
import Mathlib.Tactic.Common

/-!
# Syncs of folders that are no longer configured

A folder gets into the configuration before the scheduler knows it (`push`, then `schedule`), so
at first every folder of the scheduler is configured (`Anchored`).  But `RemoveAccount` and the
space pollers take folders out of the configuration **only**: the scheduler, the `FolderManager` and
the ids of the poll loop keep them, since nothing makes a folder unknown to them.  The next poll
tick asks for a sync of the removed folder, and the sync runs.

A removal is harmless where the scheduler does not know the folder, which is so when the
credentials of its account could not be loaded at start-up.
-/

namespace OwncloudSync

namespace Process

/-- The folder is an entry of an account. -/
def Configured (cfg : AppConfig) (id : Uuid) : Prop :=
  ∃ a ∈ cfg.account, ∃ f ∈ a.folder, f.id = id

/-- What the next tick can start is configured. -/
def NoOrphans (p : Process) : Prop :=
  ∀ id, p.core.scheduler.isReady id = true → Configured p.config id

/-- The step takes the folder out of the configuration. -/
def Removes (p p' : Process) (id : Uuid) : Prop :=
  Configured p.config id ∧ ¬ Configured p'.config id

/-- The step takes no folder out of the configuration that the scheduler knows, or is about to be
told of. -/
structure Harmless (p p' : Process) : Prop where
  unknown : ∀ id, Removes p p' id → p.core.scheduler id = none
  unpushed : ∀ accountId folder todo, p.job = .pushed accountId folder todo →
    ¬ Removes p p' folder.id

/-- A step that is harmless. -/
def HarmlessNext (p p' : Process) : Prop := Next p p' ∧ Harmless p p'

/-- What the scheduler knows, or is about to, is configured. -/
structure Anchored (p : Process) : Prop where
  known : ∀ id, p.core.scheduler id ≠ none → Configured p.config id
  pushed : ∀ accountId folder todo, p.job = .pushed accountId folder todo →
    Configured p.config folder.id

/-- The folder was made, has been removed and is not being added. -/
structure Forgotten (id : Uuid) (p : Process) : Prop where
  made : ∃ f ∈ p.made, f.id = id
  removed : ¬ Configured p.config id
  unregistered : ∀ accountId folder todo, p.job = .registered accountId folder todo →
    folder.id ≠ id

variable {p p' : Process} {a : Action} {id : Uuid} {d d' : Daemon}

lemma configured_iff {cfg : AppConfig} : Configured cfg id ↔ ∃ f ∈ cfg.folders, f.id = id := by
  constructor
  · rintro ⟨a, ha, f, hf, hid⟩
    exact ⟨f, AppConfig.mem_folders.mpr ⟨a, ha, hf⟩, hid⟩
  · rintro ⟨f, hf, hid⟩
    obtain ⟨a, ha, hfa⟩ := AppConfig.mem_folders.mp hf
    exact ⟨a, ha, f, hfa, hid⟩

/-! ## What the scheduler knows -/

/-- Only the command that adds folders makes one known. -/
lemma Internal.known (h : Internal d d') (hid : d'.scheduler id ≠ none) :
    d.scheduler id ≠ none := by
  obtain ⟨hs, hl, -⟩ := h
  cases hs with
  | triggerSync => exact SyncScheduler.modify_known.mp hid
  | pauseFolder => exact SyncScheduler.modify_known.mp hid
  | resumeFolder => exact SyncScheduler.modify_known.mp hid
  | pollRecv => exact SyncScheduler.modify_known.mp hid
  | drain => exact SyncScheduler.modify_known.mp hid
  | finish => exact SyncScheduler.modify_known.mp hid
  | tick => exact SyncScheduler.startAll_known.mp hid
  | schedule h' =>
      rw [h'] at hl
      simp [inJob] at hl
  | _ => exact hid

lemma step_known (hs : Step p a p') (hid : p'.core.scheduler id ≠ none) :
    p.core.scheduler id ≠ none ∨ ∃ accountId folder todo,
      p.job = .pushed accountId folder todo ∧ p'.config = p.config ∧ folder.id = id := by
  cases hs with
  | core hint => exact Or.inl (hint.known hid)
  | schedule hj =>
      rename_i accountId folder todo
      by_cases h : id = folder.id
      · exact Or.inr ⟨accountId, folder, todo, hj, rfl, h.symm⟩
      · refine Or.inl ?_
        rw [SyncScheduler.requestSync, SyncScheduler.modify_known, SyncScheduler.addFolder,
          if_neg h] at hid
        exact hid
  | push => exact Or.inl (by simpa using hid)
  | removeAccount accountId result =>
      refine Or.inl ?_
      by_cases hr : result = .ok
      · simpa [hr] using hid
      · simpa [hr] using hid
  | dismissSpace => exact Or.inl (by simpa using hid)
  | signedIn => exact Or.inl (by simpa using hid)
  | pollRemove => exact Or.inl (by simpa [setPoll] using hid)
  | _ => exact Or.inl hid

/-- A folder is pushed when it was registered, and stays so until it is scheduled. -/
lemma step_pushed (hs : Step p a p') {accountId : Uuid} {folder : FolderConfig}
    {todo : List NewFolder} (h : p'.job = .pushed accountId folder todo) :
    p.job = .pushed accountId folder todo ∨
      p.job = .registered accountId folder todo ∧
        p'.config = p.config.pushFolder accountId folder := by
  cases step_job hs with
  | none h' => exact Or.inl (h'.symm.trans h)
  | push _ _ _ hjob hcfg h' =>
      obtain ⟨rfl, rfl, rfl⟩ := Job.pushed.inj (h'.symm.trans h)
      exact Or.inr ⟨hjob, hcfg⟩
  | setAccountFolders _ _ _ _ _ _ h' => rw [h'] at h; cases h
  | addAccountSpace _ _ _ _ _ _ h' => rw [h'] at h; cases h
  | refuse _ _ _ _ h' => rw [h'] at h; cases h
  | register _ _ _ _ _ _ _ _ h' => rw [h'] at h; cases h
  | schedule _ _ _ _ _ h' => rw [h'] at h; cases h
  | added _ _ h' => rw [h'] at h; cases h

/-! ## Harmless steps -/

lemma anchored_of_starts (h : Starts p) : Anchored p where
  known id hid := by
    obtain ⟨cfg, loaded, ids, rfl, hids⟩ := h.eq_init
    have hmem : id ∈ ids := by
      by_contra hno
      exact hid (if_neg hno)
    obtain ⟨m, hm, hmid⟩ := (hids.2 id).mp hmem
    exact configured_iff.mpr ⟨m.config,
      (initSync_sublist cfg loaded).subset (List.mem_map_of_mem hm), hmid⟩
  pushed _ _ _ hj := by
    obtain ⟨cfg, loaded, ids, rfl, -⟩ := h.eq_init
    cases hj

/-- A pushed folder is configured. -/
lemma configured_of_pushFolder {accountId : Uuid} {folder : FolderConfig}
    {todo : List NewFolder} (hc : Coherent p) (hj : p.job = .registered accountId folder todo)
    (h : p'.config = p.config.pushFolder accountId folder) : Configured p'.config folder.id := by
  rw [configured_iff, h]
  have hacc := hc.account accountId (by rw [hj]; rfl)
  exact ⟨folder, (AppConfig.folders_pushFolder hacc).mem_iff.mpr List.mem_cons_self, rfl⟩

/-- A harmless step leaves every folder with its account. -/
theorem anchored_step (hc : Coherent p) (h : Anchored p) (hs : Step p a p')
    (hharm : Harmless p p') : Anchored p' where
  known id hid := by
    rcases step_known hs hid with hknown | ⟨accountId, folder, todo, hj, hcfg, rfl⟩
    · by_contra hno
      exact hknown (hharm.unknown id ⟨h.known id hknown, hno⟩)
    · rw [hcfg]
      exact h.pushed accountId folder todo hj
  pushed accountId folder todo hj := by
    rcases step_pushed hs hj with hj₀ | ⟨hj₀, hcfg⟩
    · by_contra hno
      exact hharm.unpushed accountId folder todo hj₀
        ⟨h.pushed accountId folder todo hj₀, hno⟩
    · exact configured_of_pushFolder hc hj₀ hcfg

/-- What has been removed does not come back. -/
lemma forgotten_step (hc : Coherent p) (h : Forgotten id p) (hs : Step p a p') :
    Forgotten id p' where
  made := by
    obtain ⟨f, hf, hid⟩ := h.made
    exact ⟨f, made_mono hs hf, hid⟩
  removed := by
    rw [configured_iff]
    rintro ⟨f, hf, rfl⟩
    refine h.removed (configured_iff.mpr ?_)
    rcases (step_config hs).folders with hsub | ⟨accountId, folder, todo, hj, -, hcfg⟩
    · exact ⟨f, hsub.subset hf, rfl⟩
    · have hacc := hc.account accountId (by rw [hj]; rfl)
      rw [hcfg, (AppConfig.folders_pushFolder hacc).mem_iff, List.mem_cons] at hf
      rcases hf with rfl | hf
      · exact absurd rfl (h.unregistered accountId f todo hj)
      · exact ⟨f, hf, rfl⟩
  unregistered accountId folder todo hj := by
    rcases step_registered hs hj with ⟨hnew, -, -⟩ | ⟨hj₀, -⟩
    · obtain ⟨f, hf, rfl⟩ := h.made
      exact (hnew f hf).symm
    · exact h.unregistered accountId folder todo hj₀

lemma forgotten_of_removes (hc : Coherent p) (hs : Step p a p') (h : Removes p p' id) :
    Forgotten id p' where
  made := by
    obtain ⟨f, hf, hid⟩ := configured_iff.mp h.1
    exact ⟨f, made_mono hs (hc.configMade f hf), hid⟩
  removed := h.2
  unregistered accountId folder todo hj := by
    rcases step_registered hs hj with ⟨-, hcfg, -⟩ | ⟨hj₀, -⟩
    · exact absurd h.1 (hcfg ▸ h.2)
    · rintro rfl
      obtain ⟨f, hf, hid⟩ := configured_iff.mp h.1
      exact hc.registered accountId folder todo hj₀ f hf hid

/-! ## The runs -/

/-- A sync begins only of a folder the scheduler knows. -/
lemma known_of_begins (hreach : Daemon.Reachable p.core) (hat : p.job.At p.core.loop)
    (hs : Step p a p') (h : Daemon.Begins p.core p'.core id) : p.core.scheduler id ≠ none := by
  rcases projects hat hs with heq | hstep
  · rw [heq] at h
    rcases h with h | h
    · exact absurd h (lt_irrefl _)
    · exact absurd h (lt_irrefl _)
  · rcases Daemon.ready_or_spawned hstep h with hready | hspawn
    · exact (SyncScheduler.isReady_iff.mp hready).1
    · exact ((Daemon.accounted hreach).unpaused id hspawn).1

lemma HarmlessNext.reachable {p₀ : Process} (hstart : Starts p₀)
    (hrun : Relation.ReflTransGen HarmlessNext p₀ p) : Reachable p :=
  ⟨p₀, hstart, Relation.ReflTransGen.mono (fun _ _ h => h.1) _ _ hrun⟩

/-- Over harmless steps everything stays anchored, and what is forgotten stays forgotten. -/
lemma harmless_run (hrun : Relation.ReflTransGen HarmlessNext p p') (hc : Coherent p)
    (h : Anchored p) : Anchored p' ∧ ∀ id, Forgotten id p → Forgotten id p' := by
  refine (Runs.invariant
    (I := fun q => Coherent q ∧ Anchored q ∧ ∀ id, Forgotten id p → Forgotten id q)
    (fun q q' hq hqq' => ?_) ⟨hc, h, fun _ hf => hf⟩ hrun).2
  obtain ⟨⟨act, hs⟩, hharm⟩ := hqq'
  obtain ⟨hcq, hanch, hforg⟩ := hq
  exact ⟨coherent_step hcq hs, anchored_step hcq hanch hs hharm,
    fun id hf => forgotten_step hcq (hforg id hf) hs⟩

/-- **In every run whose removals are harmless there are no orphans**: what a tick can start is
configured in every state, and no sync of a removed folder begins after its removal. -/
theorem noOrphans_of_harmless (p₀ p : Process) (hstart : Starts p₀)
    (hrun : Relation.ReflTransGen HarmlessNext p₀ p) :
    NoOrphans p ∧ ∀ p' id, HarmlessNext p p' → Removes p p' id →
      ∀ q q', Relation.ReflTransGen HarmlessNext p' q → Next q q' →
        ¬ Daemon.Begins q.core q'.core id := by
  have hanch := (harmless_run hrun (coherent_of_starts hstart) (anchored_of_starts hstart)).1
  refine ⟨fun id hready => hanch.known id (SyncScheduler.isReady_iff.mp hready).1, ?_⟩
  rintro p' id hnext hremoves q q' hrun' ⟨act, hs⟩ hbegins
  have hall : Relation.ReflTransGen HarmlessNext p₀ q := (hrun.tail hnext).trans hrun'
  have hreach := HarmlessNext.reachable hstart hall
  have hanchq :=
    (harmless_run hall (coherent_of_starts hstart) (anchored_of_starts hstart)).1
  -- the folder has been removed, so it is not configured, and the scheduler does not know it
  obtain ⟨⟨act', hs'⟩, hharm⟩ := hnext
  have hc := coherent (HarmlessNext.reachable hstart hrun)
  have hforgotten := (harmless_run hrun' (coherent_step hc hs')
    (anchored_step hc hanch hs' hharm)).2 id (forgotten_of_removes hc hs' hremoves)
  exact hforgotten.removed (hanchq.known id
    (known_of_begins (reachable_core hreach) (coherent hreach).loop hs hbegins))

/-- An account with one folder. -/
def oneFolder : AppConfig where
  account := [{
    id := 1
    url := "https://ocis.example.com".toList
    username := []
    displayName := "Alice".toList
    folder := [⟨21, "/home/alice/A".toList, "s".toList, "A".toList, [], "off".toList, false⟩] }]

/-- The theorem where the account is removed whose credentials could not be loaded. -/
theorem unloaded_account_removed : ∃ p, Relation.ReflTransGen HarmlessNext
    (start oneFolder (fun _ => false)) p ∧ p.config.account = [] ∧ NoOrphans p := by
  have hstart := starts_start oneFolder (fun _ => false) (by decide) (by decide)
  have hrun : Relation.ReflTransGen HarmlessNext (start oneFolder (fun _ => false)) _ :=
    Relation.ReflTransGen.refl.tail
      ⟨⟨_, .removeAccount 1 .ok rfl⟩, fun _ _ => rfl, fun _ _ _ hj => nomatch hj⟩
  exact ⟨_, hrun, rfl, (noOrphans_of_harmless _ _ hstart hrun).1⟩

/-- The account is removed, and the next poll starts a sync of its folder. -/
theorem removed_account_synced : ∃ p₁ p₂ p₃ : Process,
    Reachable p₁ ∧ p₁.config.account = [] ∧
    p₁.core.events = [.accountStateChanged 1 "removed"] ∧
    Relation.ReflTransGen Next p₁ p₂ ∧ ¬ NoOrphans p₂ ∧
    Next p₂ p₃ ∧ Daemon.Begins p₂.core p₃.core 21 := by
  have hstart := starts_start oneFolder (fun _ => true) (by decide) (by decide)
  have hremove := Step.removeAccount (p := start oneFolder (fun _ => true)) 1 .ok rfl
  refine ⟨_, _, _, ⟨_, hstart, .single ⟨_, hremove⟩⟩, rfl, rfl,
    ((Relation.ReflTransGen.refl.tail
      ⟨_, .core ⟨.pollTick rfl, Or.inl rfl, by simp⟩⟩).tail
      ⟨_, .core ⟨.pollSend rfl, Or.inl rfl, by simp⟩⟩).tail
      ⟨_, .core ⟨.pollRecv rfl rfl, Or.inl rfl, by simp⟩⟩, fun h => ?_,
    ⟨_, .core ⟨@Daemon.Step.tick _ [21] rfl ?_, Or.inr ⟨rfl, rfl⟩, by simp⟩⟩, Or.inl ?_⟩
  · obtain ⟨a, ha, -⟩ := h 21 (by decide)
    cases ha
  · exact Daemon.enumerates_singleton (by decide)
      (fun id h => Daemon.ready_only [.requestSync 21] rfl (by simp) h)
  · decide

end Process

end OwncloudSync
