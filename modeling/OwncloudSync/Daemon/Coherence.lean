import OwncloudSync.Daemon.Process
import Mathlib.Tactic.Common

/-!
# What holds in every state of the daemon

`ConfigChange` says once what a step can do to the configuration, `JobChange` what it can do to the
command that adds folders, and `step_made` what it does to the folders that have been made.  From
these follows the invariant `Coherent`:

* the command stands where the main loop stands, and its account is configured;
* no folder id has been drawn twice, and the configured folders are among the ones made.

`projects` connects the daemon to the main loop alone: every step is a step of the loop, or none.
-/

namespace OwncloudSync

namespace Job

/-- The account of the command that adds folders. -/
def account? : Job → Option Uuid
  | .idle => none
  | .adding accountId _ => some accountId
  | .registered accountId _ _ => some accountId
  | .pushed accountId _ _ => some accountId

/-- The place of the command is the place of the loop. -/
def At : Job → Loop → Prop
  | .idle, l => Process.inJob l = false
  | .adding _ todo, l => l = .adding todo.length
  | .registered _ folder todo, l => l = .registered folder.id todo.length
  | .pushed _ folder todo, l => l = .registered folder.id todo.length

end Job

namespace Process

variable {p p' : Process} {a : Action} {cfg : AppConfig} {result : SaveResult}

/-! ## A save changes the configuration and its file only -/

@[simp] lemma save_config : (p.save cfg result).config = cfg := by cases result <;> rfl
@[simp] lemma save_core : (p.save cfg result).core = p.core := by cases result <;> rfl
@[simp] lemma save_job : (p.save cfg result).job = p.job := by cases result <;> rfl
@[simp] lemma save_made : (p.save cfg result).made = p.made := by cases result <;> rfl
@[simp] lemma save_managed : (p.save cfg result).managed = p.managed := by cases result <;> rfl
@[simp] lemma save_polls : (p.save cfg result).polls = p.polls := by cases result <;> rfl
@[simp] lemma save_signIns : (p.save cfg result).signIns = p.signIns := by cases result <;> rfl
@[simp] lemma save_usedAccounts : (p.save cfg result).usedAccounts = p.usedAccounts := by
  cases result <;> rfl

/-! ## What a step can do -/

/-- The changes of the configuration. -/
inductive ConfigChange (p p' : Process) : Prop
  | none (h : p'.config = p.config)
  | pushFolder (accountId : Uuid) (folder : FolderConfig) (todo : List NewFolder)
      (hjob : p.job = .registered accountId folder todo)
      (hjob' : p'.job = .pushed accountId folder todo)
      (h : p'.config = p.config.pushFolder accountId folder)
  | removeAccount (accountId : Uuid) (hl : p.core.loop = .select)
      (h : p'.config = p.config.removeAccount accountId)
  | dismissSpace (accountId : Uuid) (spaceId : Str)
      (h : p'.config = p.config.dismissSpace accountId spaceId)
  | pushAccount (flow : SignIn) (account : AccountConfig) (hflow : flow ∈ p.signIns)
      (hid : account.id = flow.accountId) (hurl : account.url = flow.url)
      (hfolder : account.folder = [])
      (hdup : ∀ b ∈ p.config.account, ¬ (b.url = account.url ∧ b.userId = account.userId))
      (h : p'.config = p.config.pushAccount account)
  | removeFolders (accountId : Uuid) (ids : List Uuid) (hpoll : p.polls accountId = .removing ids)
      (h : p'.config = SpacePoller.remove p.config accountId ids)

lemma step_config (hs : Step p a p') : ConfigChange p p' := by
  cases hs with
  | push result hjob => exact .pushFolder _ _ _ hjob rfl (by simp)
  | removeAccount accountId result hl => exact .removeAccount accountId hl (by simp)
  | dismissSpace accountId spaceId => exact .dismissSpace accountId spaceId (by simp)
  | signedIn userId displayName serverType result h hdup =>
      exact .pushAccount _ ⟨_, _, userId, [], displayName, serverType, [], []⟩ h rfl rfl rfl hdup
        (by simp)
  | pollRemove result h => exact .removeFolders _ _ h (by simp)
  | _ => exact .none rfl

/-- The changes of the command that adds folders. -/
inductive JobChange (p p' : Process) : Prop
  | none (h : p'.job = p.job)
  | setAccountFolders (accountId : Uuid) (rootPath : Str) (spaces : List (Str × Str))
      (hl : p.core.loop = .select) (hacc : (p.config.findAccount accountId).isSome = true)
      (hcfg : p'.config = p.config)
      (h : p'.job = .adding accountId (spaces.map (NewFolder.ofSelection rootPath)))
  | addAccountSpace (accountId : Uuid) (spaceId localPath : Str)
      (hl : p.core.loop = .select) (hacc : (p.config.findAccount accountId).isSome = true)
      (hcfg : p'.config = p.config)
      (h : p'.job = .adding accountId [NewFolder.ofPath spaceId localPath])
  | refuse (accountId : Uuid) (n : NewFolder) (todo : List NewFolder)
      (hjob : p.job = .adding accountId (n :: todo)) (h : p'.job = .adding accountId todo)
  | register (accountId : Uuid) (n : NewFolder) (todo : List NewFolder) (id : Uuid)
      (hjob : p.job = .adding accountId (n :: todo)) (hnew : ∀ f ∈ p.made, f.id ≠ id)
      (hmade : p'.made = p.made ++ [n.config id]) (hcfg : p'.config = p.config)
      (h : p'.job = .registered accountId (n.config id) todo)
  | push (accountId : Uuid) (folder : FolderConfig) (todo : List NewFolder)
      (hjob : p.job = .registered accountId folder todo)
      (hcfg : p'.config = p.config.pushFolder accountId folder)
      (h : p'.job = .pushed accountId folder todo)
  | schedule (accountId : Uuid) (folder : FolderConfig) (todo : List NewFolder)
      (hjob : p.job = .pushed accountId folder todo)
      (hscheduler : p'.core.scheduler =
        (p.core.scheduler.addFolder folder.id).requestSync folder.id)
      (h : p'.job = .adding accountId todo)
  | added (accountId : Uuid) (hjob : p.job = .adding accountId []) (h : p'.job = .idle)

lemma step_job (hs : Step p a p') : JobChange p p' := by
  cases hs with
  | setAccountFolders accountId rootPath spaces hl hacc =>
      exact .setAccountFolders accountId rootPath spaces hl hacc rfl rfl
  | addAccountSpace accountId spaceId localPath hl hacc =>
      exact .addAccountSpace accountId spaceId localPath hl hacc rfl rfl
  | refuse hjob => exact .refuse _ _ _ hjob rfl
  | register id hjob hacc hnew => exact .register _ _ _ id hjob hnew rfl rfl rfl
  | push result hjob => exact .push _ _ _ hjob (by simp) rfl
  | schedule hjob => exact .schedule _ _ _ hjob rfl rfl
  | added hjob => exact .added _ hjob rfl
  | removeAccount => exact .none (by simp)
  | dismissSpace => exact .none (by simp)
  | signedIn => exact .none (by simp)
  | pollRemove => exact .none (by simp [setPoll])
  | _ => exact .none rfl

/-- Folders are made, and the `FolderManager` gets them, when they are registered and at no other
time. -/
lemma step_registers (hs : Step p a p') : (p'.made = p.made ∧ p'.managed = p.managed) ∨
    ∃ accountId n todo id, p.job = .adding accountId (n :: todo) ∧ (∀ f ∈ p.made, f.id ≠ id) ∧
      p'.made = p.made ++ [n.config id] ∧
      p'.managed = p.managed ++ [⟨n.config id, accountId, n.rootPath⟩] := by
  cases hs with
  | register id hj hacc hnew => exact Or.inr ⟨_, _, _, id, hj, hnew, rfl, rfl⟩
  | push => exact Or.inl (by simp)
  | removeAccount => exact Or.inl (by simp)
  | dismissSpace => exact Or.inl (by simp)
  | signedIn => exact Or.inl (by simp)
  | pollRemove => exact Or.inl (by simp [setPoll])
  | _ => exact Or.inl ⟨rfl, rfl⟩

/-- The folders that have been made only grow, by the one that is registered. -/
lemma step_made (hs : Step p a p') : p'.made = p.made ∨
    ∃ folder, p'.made = p.made ++ [folder] ∧ ∀ f ∈ p.made, f.id ≠ folder.id := by
  rcases step_registers hs with ⟨hmade, -⟩ | ⟨_, n, _, id, -, hnew, hmade, -⟩
  · exact Or.inl hmade
  · exact Or.inr ⟨n.config id, hmade, hnew⟩

/-- No step drops a folder from the `FolderManager`. -/
lemma managed_mono (hs : Step p a p') {m : ManagedFolder} (hm : m ∈ p.managed) : m ∈ p'.managed := by
  rcases step_registers hs with ⟨-, hmanaged⟩ | ⟨_, _, _, _, -, -, -, hmanaged⟩
  · rw [hmanaged]
    exact hm
  · rw [hmanaged]
    exact List.mem_append_left _ hm

lemma made_mono (hs : Step p a p') {f : FolderConfig} (hf : f ∈ p.made) : f ∈ p'.made := by
  rcases step_made hs with hmade | ⟨folder, hmade, -⟩
  · rw [hmade]
    exact hf
  · rw [hmade]
    exact List.mem_append_left _ hf

/-- What holds in every state. -/
structure Coherent (p : Process) : Prop where
  loop : p.job.At p.core.loop
  account : ∀ accountId, p.job.account? = some accountId →
    (p.config.findAccount accountId).isSome = true
  madeIds : (p.made.map FolderConfig.id).Nodup
  configMade : ∀ f ∈ p.config.folders, f ∈ p.made
  configIds : (p.config.folders.map FolderConfig.id).Nodup
  registered : ∀ accountId folder todo, p.job = .registered accountId folder todo →
    ∀ f ∈ p.config.folders, f.id ≠ folder.id
  registeredMade : ∀ accountId folder todo, p.job = .registered accountId folder todo →
    folder ∈ p.made

/-! ## The main loop -/

lemma job_idle_of_select (h : p.job.At p.core.loop) (hl : p.core.loop = .select) :
    p.job = .idle := by
  rw [hl] at h
  cases hj : p.job with
  | idle => rfl
  | adding _ todo => rw [hj] at h; cases h
  | registered _ _ _ => rw [hj] at h; cases h
  | pushed _ _ _ => rw [hj] at h; cases h

/-- **Every step is a step of the main loop, or none.** -/
theorem projects (h : p.job.At p.core.loop) (hs : Step p a p') :
    p'.core = p.core ∨ Daemon.Step p.core p'.core := by
  cases hs with
  | core hint => exact Or.inr hint.step
  | setAccountFolders accountId rootPath spaces hl => exact Or.inr (.addFolders _ hl)
  | addAccountSpace accountId spaceId localPath hl => exact Or.inr (.addFolders _ hl)
  | refuse hj =>
      rw [hj] at h
      exact Or.inr (.refuse h)
  | register id hj =>
      rw [hj] at h
      exact Or.inr (.register id h)
  | push => exact Or.inl (by simp)
  | schedule hj =>
      rw [hj] at h
      exact Or.inr (.schedule h)
  | added hj =>
      rw [hj] at h
      exact Or.inr (.added h)
  | removeAccount accountId result hl =>
      by_cases hr : result = .ok
      · refine Or.inr ?_
        simp only [hr, if_true]
        exact .removeAccount accountId hl
      · refine Or.inl ?_
        simp [hr]
  | dismissSpace => exact Or.inl (by simp)
  | signedIn => exact Or.inl (by simp)
  | pollRemove => exact Or.inl (by simp [setPoll])
  | _ => exact Or.inl rfl

/-- The place of the command follows the loop. -/
lemma step_at (h : p.job.At p.core.loop) (hs : Step p a p') : p'.job.At p'.core.loop := by
  cases hs with
  | core hint =>
      rcases hint.loop with hl | ⟨hl, hl'⟩
      · change p.job.At _
        rw [hl]
        exact h
      · -- outside of the command the loop goes where it wants
        change p.job.At _
        cases hj : p.job with
        | idle => exact hl'
        | adding _ todo => rw [hj] at h; rw [show p.core.loop = _ from h] at hl; cases hl
        | registered _ _ _ => rw [hj] at h; rw [show p.core.loop = _ from h] at hl; cases hl
        | pushed _ _ _ => rw [hj] at h; rw [show p.core.loop = _ from h] at hl; cases hl
  | setAccountFolders => simp [Job.At]
  | addAccountSpace => rfl
  | refuse => rfl
  | register => rfl
  | push result hj =>
      rw [hj] at h
      simpa [Job.At] using h
  | schedule => rfl
  | added => rfl
  | removeAccount accountId result =>
      by_cases hr : result = .ok
      · simp only [hr, if_true, save_job]
        exact h
      · simp only [hr, if_false, save_job]
        exact h
  | dismissSpace => simpa using h
  | signedIn => simpa using h
  | pollRemove => simpa [setPoll] using h
  | _ => exact h

/-! ## The configuration -/

/-- Only `RemoveAccount`, which the loop takes when no command is adding folders, takes accounts
away. -/
lemma ConfigChange.account (h : ConfigChange p p') (hl : p.core.loop ≠ .select) {id : Uuid}
    (hid : (p.config.findAccount id).isSome = true) :
    (p'.config.findAccount id).isSome = true := by
  cases h with
  | none h => rw [h]; exact hid
  | pushFolder accountId folder todo hjob _ h =>
      rw [h, AppConfig.pushFolder, AppConfig.isSome_findAccount_modifyAccount (fun _ => by rfl)]
      exact hid
  | removeAccount accountId hsel h => exact absurd hsel hl
  | dismissSpace accountId spaceId h =>
      rw [h, AppConfig.dismissSpace,
        AppConfig.isSome_findAccount_modifyAccount (fun _ => by split <;> rfl)]
      exact hid
  | pushAccount flow account _ _ _ _ _ h =>
      rw [h]
      exact AppConfig.isSome_findAccount_pushAccount hid
  | removeFolders accountId ids hpoll h =>
      rw [h, SpacePoller.remove, AppConfig.retainFolders,
        AppConfig.isSome_findAccount_modifyAccount (fun _ => by rfl)]
      exact hid

/-- Only the push of a folder adds one to the configuration. -/
lemma ConfigChange.folders (h : ConfigChange p p') :
    p'.config.folders.Sublist p.config.folders ∨
    ∃ accountId folder todo, p.job = .registered accountId folder todo ∧
      p'.job = .pushed accountId folder todo ∧
      p'.config = p.config.pushFolder accountId folder := by
  cases h with
  | none h => exact Or.inl (by rw [h])
  | pushFolder accountId folder todo hjob hjob' h =>
      exact Or.inr ⟨accountId, folder, todo, hjob, hjob', h⟩
  | removeAccount accountId hsel h =>
      exact Or.inl (by rw [h]; exact AppConfig.folders_removeAccount _ _)
  | dismissSpace accountId spaceId h => exact Or.inl (by rw [h, AppConfig.folders_dismissSpace])
  | pushAccount flow account _ _ _ hfolder _ h =>
      exact Or.inl (by rw [h, AppConfig.folders_pushAccount hfolder])
  | removeFolders accountId ids hpoll h =>
      exact Or.inl (by rw [h]; exact AppConfig.folders_retainFolders _ _ _)

/-- The command that adds folders keeps its account. -/
lemma step_account (hs : Step p a p') {accountId : Uuid}
    (h : p'.job.account? = some accountId) : p.job.account? = some accountId ∨
      p'.config = p.config ∧ (p.config.findAccount accountId).isSome = true := by
  cases step_job hs with
  | none h' => exact Or.inl (by rw [← h']; exact h)
  | setAccountFolders id rootPath spaces hl hacc hcfg h' =>
      rw [h'] at h
      obtain rfl := Option.some.inj h
      exact Or.inr ⟨hcfg, hacc⟩
  | addAccountSpace id spaceId localPath hl hacc hcfg h' =>
      rw [h'] at h
      obtain rfl := Option.some.inj h
      exact Or.inr ⟨hcfg, hacc⟩
  | refuse id n todo hjob h' => exact Or.inl (by rw [hjob]; rw [h'] at h; exact h)
  | register id n todo folderId hjob _ _ _ h' => exact Or.inl (by rw [hjob]; rw [h'] at h; exact h)
  | push id folder todo hjob _ h' => exact Or.inl (by rw [hjob]; rw [h'] at h; exact h)
  | schedule id folder todo hjob _ h' => exact Or.inl (by rw [hjob]; rw [h'] at h; exact h)
  | added id hjob h' => rw [h'] at h; cases h

/-- A folder is registered with a new id, and while it is, nothing is pushed. -/
lemma step_registered (hs : Step p a p') {accountId : Uuid} {folder : FolderConfig}
    {todo : List NewFolder} (h : p'.job = .registered accountId folder todo) :
    ((∀ f ∈ p.made, f.id ≠ folder.id) ∧ p'.config = p.config ∧ folder ∈ p'.made) ∨
      (p.job = .registered accountId folder todo ∧
        p'.config.folders.Sublist p.config.folders) := by
  cases step_job hs with
  | none h' =>
      refine Or.inr ⟨h'.symm.trans h, ?_⟩
      rcases (step_config hs).folders with hsub | ⟨_, _, _, -, hpushed, -⟩
      · exact hsub
      · rw [hpushed] at h
        cases h
  | register id n _ folderId hjob hnew hmade hcfg h' =>
      obtain ⟨-, rfl, -⟩ := Job.registered.inj (h'.symm.trans h)
      rw [hmade]
      exact Or.inl ⟨hnew, hcfg, List.mem_append_right _ (List.mem_singleton_self _)⟩
  | setAccountFolders _ _ _ _ _ _ h' => rw [h'] at h; cases h
  | addAccountSpace _ _ _ _ _ _ h' => rw [h'] at h; cases h
  | refuse _ _ _ _ h' => rw [h'] at h; cases h
  | push _ _ _ _ _ h' => rw [h'] at h; cases h
  | schedule _ _ _ _ _ h' => rw [h'] at h; cases h
  | added _ _ h' => rw [h'] at h; cases h

/-! ## The invariant -/

lemma Starts.made (h : Starts p) : p.made = p.config.folders := by
  obtain ⟨cfg, loaded, ids, rfl, -⟩ := h.eq_init
  rfl

/-- The folders of the `FolderManager` are configured ones. -/
lemma initSync_sublist (cfg : AppConfig) (loaded : Uuid → Bool) :
    ((initSync cfg loaded).map ManagedFolder.config).Sublist cfg.folders := by
  unfold initSync
  induction cfg.folders with
  | nil => exact List.Sublist.refl _
  | cons fc rest ih =>
      rw [List.filterMap_cons]
      split
      · exact ih.cons fc
      · rename_i m hm
        have hfc : m.config = fc := by
          split at hm
          · cases hm
          · split at hm
            · cases hm
              rfl
            · cases hm
        rw [List.map_cons, hfc]
        exact ih.cons_cons fc

/-- A start-up. -/
def start (cfg : AppConfig) (loaded : Uuid → Bool) : Process :=
  init cfg loaded ((initSync cfg loaded).map (fun m => m.config.id))

/-- A configuration without repeated ids can be started from. -/
lemma starts_start (cfg : AppConfig) (loaded : Uuid → Bool)
    (hf : (cfg.folders.map FolderConfig.id).Nodup)
    (ha : (cfg.account.map AccountConfig.id).Nodup) : Starts (start cfg loaded) where
  eq_init := by
    refine ⟨cfg, loaded, _, rfl, ?_, fun id => List.mem_map⟩
    have hsub := (initSync_sublist cfg loaded).map FolderConfig.id
    rw [List.map_map] at hsub
    exact hf.sublist hsub
  folderIds := hf
  accountIds := ha

lemma coherent_of_starts (h : Starts p) : Coherent p where
  loop := by
    obtain ⟨cfg, loaded, ids, rfl, -⟩ := h.eq_init
    rfl
  account id hid := by
    obtain ⟨cfg, loaded, ids, rfl, -⟩ := h.eq_init
    cases hid
  madeIds := by rw [h.made]; exact h.folderIds
  configMade f hf := by rw [h.made]; exact hf
  configIds := h.folderIds
  registered _ _ _ hj := by
    obtain ⟨cfg, loaded, ids, rfl, -⟩ := h.eq_init
    cases hj
  registeredMade _ _ _ hj := by
    obtain ⟨cfg, loaded, ids, rfl, -⟩ := h.eq_init
    cases hj

/-- **Every step keeps the daemon coherent.** -/
theorem coherent_step (h : Coherent p) (hs : Step p a p') : Coherent p' where
  loop := step_at h.loop hs
  account id hid := by
    rcases step_account hs hid with hjob | ⟨hcfg, hacc⟩
    · refine (step_config hs).account (fun hl => ?_) (h.account id hjob)
      rw [job_idle_of_select h.loop hl] at hjob
      cases hjob
    · rw [hcfg]
      exact hacc
  madeIds := by
    rcases step_made hs with hmade | ⟨folder, hmade, hnew⟩
    · rw [hmade]
      exact h.madeIds
    · rw [hmade, List.map_append, List.nodup_append]
      refine ⟨h.madeIds, List.nodup_singleton _, fun x hx y hy => ?_⟩
      obtain ⟨f, hf, rfl⟩ := List.mem_map.mp hx
      rw [List.mem_singleton.mp hy]
      exact hnew f hf
  configMade f hf := by
    rcases (step_config hs).folders with hsub | ⟨id, folder, todo, hjob, -, hpush⟩
    · exact made_mono hs (h.configMade f (hsub.subset hf))
    · rw [hpush, (AppConfig.folders_pushFolder (h.account id (by rw [hjob]; rfl))).mem_iff,
        List.mem_cons] at hf
      rcases hf with rfl | hf
      · exact made_mono hs (h.registeredMade id f todo hjob)
      · exact made_mono hs (h.configMade f hf)
  configIds := by
    rcases (step_config hs).folders with hsub | ⟨id, folder, todo, hjob, -, hpush⟩
    · exact h.configIds.sublist (hsub.map _)
    · rw [hpush]
      have hacc := h.account id (by rw [hjob]; rfl)
      have hperm : (p.config.pushFolder id folder).folders.Perm _ :=
        AppConfig.folders_pushFolder hacc
      rw [(hperm.map _).nodup_iff, List.map_cons, List.nodup_cons]
      refine ⟨fun hmem => ?_, h.configIds⟩
      obtain ⟨f, hf, hid⟩ := List.mem_map.mp hmem
      exact h.registered id folder todo hjob f hf hid
  registered id folder todo hjob f hf := by
    rcases step_registered hs hjob with ⟨hnew, hcfg, -⟩ | ⟨hjob₀, hsub⟩
    · rw [hcfg] at hf
      exact hnew f (h.configMade f hf)
    · exact h.registered id folder todo hjob₀ f (hsub.subset hf)
  registeredMade id folder todo hjob := by
    rcases step_registered hs hjob with ⟨-, -, hmem⟩ | ⟨hjob₀, -⟩
    · exact hmem
    · exact made_mono hs (h.registeredMade id folder todo hjob₀)

/-- **Every state of the daemon is coherent.** -/
theorem coherent (h : Reachable p) : Coherent p := by
  obtain ⟨p₀, hstart, hrun⟩ := h
  exact Runs.invariant (fun _ _ hc ⟨_, hs⟩ => coherent_step hc hs) (coherent_of_starts hstart) hrun

/-- What holds in every state of the main loop holds here. -/
theorem reachable_core (h : Reachable p) : Daemon.Reachable p.core := by
  obtain ⟨p₀, hstart, hrun⟩ := h
  have hstep : ∀ p p', Coherent p ∧ Daemon.Reachable p.core → Next p p' →
      Coherent p' ∧ Daemon.Reachable p'.core := by
    rintro p p' ⟨hp, ids, hcore⟩ ⟨a, hs⟩
    refine ⟨coherent_step hp hs, ids, ?_⟩
    rcases projects hp.loop hs with heq | hstep
    · rw [heq]
      exact hcore
    · exact hcore.tail hstep
  have hinit : Daemon.Reachable p₀.core := by
    obtain ⟨cfg, loaded, ids, rfl, -⟩ := hstart.eq_init
    exact ⟨ids, Relation.ReflTransGen.refl⟩
  exact (Runs.invariant (I := fun p => Coherent p ∧ Daemon.Reachable p.core) hstep
    ⟨coherent_of_starts hstart, hinit⟩ hrun).2

end Process

end OwncloudSync
