import OwncloudSync.Daemon.Subscription
import Mathlib.Tactic.Common

/-!
# The steps of the daemon, as a client sees them

`Daemon/Subscription.lean` has the changes of the configuration and their broadcasts as steps of a
`Session`.  Here they are those of the daemon (`Daemon/Process.lean`): **a session follows every step
but `RemoveAccount`** (`follows_step`).  It has the same configuration afterwards, and its client has
received what was told.

Most steps tell nothing that is listed, and the session stays where it is (`Matches.silent`).  A
sign-in is two steps of the session, since the account is pushed before it is told.
-/

namespace OwncloudSync

open Gui

namespace Session

/-- The events of a process that change what is listed. -/
def listedEvents (events : List AccountEvent) : List Protocol.DaemonEvent :=
  events.filterMap (fun e => match e with
    | .spaceRemoved a f name path => some (.spaceRemoved a f name path)
    | .accountFolderAdded a f space path name => some (.accountFolderAdded a f space path name)
    | .accountAddCompleted a user name url => some (.accountAddCompleted a user name url)
    | .spaceDiscovered _ _ _ => none
    | .accountAddFailed _ _ => none)

/-- The folder that a command has pushed and not told. -/
def untoldOf : Job → List (Uuid × FolderConfig)
  | .pushed a folder _ => [(a, folder)]
  | _ => []

/-- A session shows the configuration of a process, and what it has told. -/
structure Matches (p : Process) (s : Session) : Prop where
  config : s.config = p.config
  untoldAccounts : s.untoldAccounts = []
  untoldFolders : s.untoldFolders = untoldOf p.job
  usedAccounts : ∀ a ∈ s.usedAccounts, a ∈ p.usedAccounts ∧ ∀ flow ∈ p.signIns, flow.accountId ≠ a
  signIns : (p.signIns.map SignIn.accountId).Nodup ∧ ∀ flow ∈ p.signIns, flow.accountId ∈ p.usedAccounts
  usedFolders : ∀ f ∈ s.usedFolders, (∃ x ∈ p.made, x.id = f) ∧
    ∀ a x todo, p.job = .registered a x todo → x.id ≠ f

/-- A process steps, and a session follows: it has the same configuration, and a client has received
what was told. -/
def Follows (p p' : Process) (s : Session) : Prop :=
  ∃ s' new, Relation.ReflTransGen Next s s' ∧ Matches p' s' ∧
    p'.accountEvents = p.accountEvents ++ new ∧ s'.client = s.client.receive (listedEvents new)

variable {p p' : Process} {s : Session}

/-- Steps that neither change the configuration nor tell what is listed. -/
lemma Matches.stay (h : Matches p s) (hcfg : p'.config = p.config)
    (htold : untoldOf p'.job = untoldOf p.job) (hsign : p'.signIns.Sublist p.signIns)
    (hused : p'.usedAccounts = p.usedAccounts) (hmade : p'.made = p.made)
    (hreg : ∀ a x todo, p'.job = .registered a x todo → p.job = .registered a x todo) :
    Matches p' s where
  config := h.config.trans hcfg.symm
  untoldAccounts := h.untoldAccounts
  untoldFolders := h.untoldFolders.trans htold.symm
  usedAccounts a ha := by
    obtain ⟨ha, hflow⟩ := h.usedAccounts a ha
    exact ⟨hused ▸ ha, fun flow hf => hflow flow (hsign.subset hf)⟩
  signIns := ⟨h.signIns.1.sublist (hsign.map _),
    fun flow hf => hused ▸ h.signIns.2 flow (hsign.subset hf)⟩
  usedFolders f hf := by
    obtain ⟨hx, hne⟩ := h.usedFolders f hf
    exact ⟨hmade ▸ hx, fun a x todo hj => hne a x todo (hreg a x todo hj)⟩

/-- The session stays where it is. -/
lemma Matches.follows (h : Matches p' s) (new : List AccountEvent) (hlisted : listedEvents new = [])
    (hev : p'.accountEvents = p.accountEvents ++ new) : Follows p p' s :=
  ⟨s, new, .refl, h, hev, by rw [hlisted, Client.receive_nil]⟩

lemma Matches.silent (h : Matches p' s) (hev : p'.accountEvents = p.accountEvents) :
    Follows p p' s :=
  h.follows [] rfl (hev.trans (List.append_nil _).symm)

lemma listedEvents_discover {accountId : Uuid} {localIds dismissed : List Str}
    {remote : List RemoteSpace} {emitted : List Str} :
    listedEvents (SpacePoller.discover accountId localIds dismissed remote emitted).2 = [] := by
  induction remote generalizing emitted with
  | nil => rfl
  | cons x rest ih =>
      rw [SpacePoller.discover]
      split
      · exact ih
      · exact ih

/-- Steps of a command that leave nothing untold, before and after. -/
lemma Matches.job (h : Matches p s) (hcfg : p'.config = p.config) (hsign : p'.signIns = p.signIns)
    (hused : p'.usedAccounts = p.usedAccounts) (hmade : p'.made = p.made)
    (hjob : untoldOf p.job = []) (hjob' : untoldOf p'.job = [])
    (hreg : ∀ a x todo, p'.job ≠ .registered a x todo) : Matches p' s :=
  h.stay hcfg (hjob'.trans hjob.symm) (hsign ▸ List.Sublist.refl _) hused hmade
    (fun a x todo hj => absurd hj (hreg a x todo))

lemma listedEvents_removed {cfg : AppConfig} {accountId : Uuid} {ids : List Uuid} :
    listedEvents (SpacePoller.removedEvents accountId (SpacePoller.toRemove cfg accountId ids)) =
      removedEvents cfg accountId ids := by
  rw [listedEvents, SpacePoller.removedEvents, removedEvents, List.filterMap_map]
  exact congrFun List.filterMap_eq_map' _

/-- A new sign-in has an id of its own. -/
lemma Matches.addAccount {accountId : Uuid} (h : Matches p s) (entered : Str)
    (resolved : Option Str) (hnew : accountId ∉ p.usedAccounts) :
    Matches { p with signIns := p.signIns ++ [⟨accountId, addAccountUrl entered resolved⟩]
                     usedAccounts := p.usedAccounts ++ [accountId] } s := by
  refine ⟨h.config, h.untoldAccounts, h.untoldFolders, fun a ha => ?_, ⟨?_, ?_⟩, h.usedFolders⟩
  · obtain ⟨ha, hflow⟩ := h.usedAccounts a ha
    refine ⟨List.mem_append_left _ ha, fun flow hf => ?_⟩
    rcases List.mem_append.mp hf with hf | hf
    · exact hflow flow hf
    · rw [List.mem_singleton.mp hf]
      rintro rfl
      exact hnew ha
  · rw [List.map_append]
    refine List.Nodup.append h.signIns.1 (List.nodup_singleton _) ?_
    rw [List.map_singleton, List.disjoint_singleton]
    intro hm
    obtain ⟨flow, hf, hid⟩ := List.mem_map.mp hm
    have hused := h.signIns.2 flow hf
    rw [hid] at hused
    exact hnew hused
  · intro flow hf
    rcases List.mem_append.mp hf with hf | hf
    · exact List.mem_append_left _ (h.signIns.2 flow hf)
    · rw [List.mem_singleton.mp hf]
      exact List.mem_append_right _ (List.mem_singleton_self _)

/-- The end of a sign-in, which tells the account right after it has been pushed. -/
lemma Matches.signedIn {flow : SignIn} (h : Matches p s) (userId displayName : Str)
    (serverType : ServerType) (result : SaveResult) (hf : flow ∈ p.signIns)
    (hdup : ∀ a ∈ p.config.account, ¬ (a.url = flow.url ∧ a.userId = userId)) :
    Follows p
      { p.save (p.config.pushAccount
          ⟨flow.accountId, flow.url, userId, [], displayName, serverType, [], []⟩) result with
        signIns := p.signIns.erase flow
        tokens := fun a => if a = flow.accountId then decide (result = .ok) else p.tokens a
        accountEvents := p.accountEvents ++
          if result = .ok then [.accountAddCompleted flow.accountId userId displayName flow.url]
          else [] } s := by
  have hnew : flow.accountId ∉ s.usedAccounts := fun hm => (h.usedAccounts _ hm).2 flow hf rfl
  have hused : ∀ a ∈ flow.accountId :: s.usedAccounts, a ∈ p.usedAccounts ∧
      ∀ x ∈ p.signIns.erase flow, x.accountId ≠ a := by
    intro a ha
    rcases List.mem_cons.mp ha with rfl | ha
    · exact ⟨h.signIns.2 flow hf, fun x hx => key_ne_of_mem_erase h.signIns.1 hf hx⟩
    · obtain ⟨ha, hflow⟩ := h.usedAccounts a ha
      exact ⟨ha, fun x hx => hflow x (List.mem_of_mem_erase hx)⟩
  have hsign : ((p.signIns.erase flow).map SignIn.accountId).Nodup ∧
      ∀ x ∈ p.signIns.erase flow, x.accountId ∈ p.usedAccounts :=
    ⟨h.signIns.1.sublist (List.erase_sublist.map _),
      fun x hx => h.signIns.2 x (List.mem_of_mem_erase hx)⟩
  have hdup' : ∀ a ∈ s.config.account, ¬ (a.url = flow.url ∧ a.userId = userId) := by
    rw [h.config]
    exact hdup
  cases result with
  | ok =>
      have hpush := Step.signIn (s := s)
        ⟨flow.accountId, flow.url, userId, [], displayName, serverType, [], []⟩ true hnew rfl hdup'
      refine ⟨_, _, Relation.ReflTransGen.head ⟨_, hpush⟩ (.single ⟨.tellAccount
          ⟨flow.accountId, flow.url, userId, [], displayName, serverType, [], []⟩, .tellAccount ?_⟩),
        ⟨?_, ?_, h.untoldFolders, hused, hsign, h.usedFolders⟩, rfl, rfl⟩
      · simp
      · simp [h.config]
      · simp [h.untoldAccounts]
  | failed left =>
      have hpush := Step.signIn (s := s)
        ⟨flow.accountId, flow.url, userId, [], displayName, serverType, [], []⟩ false hnew rfl hdup'
      refine ⟨_, _, Relation.ReflTransGen.single ⟨_, hpush⟩,
        ⟨?_, ?_, h.untoldFolders, hused, hsign, h.usedFolders⟩, rfl, (Client.receive_nil _).symm⟩
      · simp [h.config]
      · simp [h.untoldAccounts]

/-- A folder that is registered has an id of its own, and is not told. -/
lemma Matches.register {managed : List ManagedFolder} {core : Daemon} {accountId id : Uuid}
    {n : NewFolder} {todo : List NewFolder} (h : Matches p s) (hjob : untoldOf p.job = [])
    (hnew : ∀ f ∈ p.made, f.id ≠ id) :
    Matches { p with managed := managed, made := p.made ++ [n.config id]
                     job := .registered accountId (n.config id) todo, core := core } s := by
  refine ⟨h.config, h.untoldAccounts, h.untoldFolders.trans hjob, h.usedAccounts, h.signIns,
    fun f hf => ?_⟩
  obtain ⟨⟨x, hx, hxf⟩, -⟩ := h.usedFolders f hf
  refine ⟨⟨x, List.mem_append_left _ hx, hxf⟩, fun a y todo hj => ?_⟩
  cases hj
  rintro rfl
  exact hnew x hx hxf

/-- A registered folder goes into the configuration, whether or not it can be saved. -/
lemma Matches.push {accountId : Uuid} {folder : FolderConfig} {todo : List NewFolder}
    (h : Matches p s) (hco : Process.Coherent p) (hj : p.job = .registered accountId folder todo)
    (result : SaveResult) :
    Follows p { p.save (p.config.pushFolder accountId folder) result with
      job := .pushed accountId folder todo } s := by
  have hacc : accountId ∈ s.config.accountIds := by
    rw [h.config, AppConfig.mem_accountIds]
    exact hco.account accountId (by rw [hj]; rfl)
  have hnew : folder.id ∉ s.usedFolders :=
    fun hm => (h.usedFolders _ hm).2 accountId folder todo hj rfl
  refine ⟨_, [], Relation.ReflTransGen.single ⟨.pushFolder accountId folder,
    .pushFolder _ _ hacc hnew⟩, ⟨?_, h.untoldAccounts, ?_, ?_, ?_, fun f hf => ?_⟩, ?_,
    (Client.receive_nil _).symm⟩
  · simp [h.config]
  · simp [h.untoldFolders, hj, untoldOf]
  · simpa using h.usedAccounts
  · simpa using h.signIns
  · simp only [Process.save_made]
    refine ⟨?_, fun _ _ _ hjob => nomatch hjob⟩
    rcases List.mem_cons.mp hf with rfl | hf
    · exact ⟨folder, hco.registeredMade accountId folder todo hj, rfl⟩
    · exact (h.usedFolders f hf).1
  · cases result <;> simp [Process.save]

/-- Then it is told. -/
lemma Matches.schedule {core : Daemon} {accountId : Uuid} {folder : FolderConfig}
    {todo : List NewFolder} (h : Matches p s) (hj : p.job = .pushed accountId folder todo) :
    Follows p { p with
      job := .adding accountId todo
      core := core
      accountEvents := p.accountEvents ++ [.accountFolderAdded accountId folder.id folder.spaceId
        folder.localPath folder.displayName] } s := by
  have huntold : s.untoldFolders = [(accountId, folder)] := by
    rw [h.untoldFolders, hj]
    rfl
  refine ⟨_, [_], Relation.ReflTransGen.single ⟨.tellFolder accountId folder, .tellFolder ?_⟩,
    ⟨h.config, h.untoldAccounts, ?_, h.usedAccounts, h.signIns, fun f hf => ?_⟩, rfl, rfl⟩
  · simp [huntold]
  · simp [huntold, untoldOf]
  · exact ⟨(h.usedFolders f hf).1, fun _ _ _ hjob => nomatch hjob⟩

/-- A space that is dismissed takes nothing from what is listed. -/
lemma Matches.dismissSpace (h : Matches p s) (accountId : Uuid) (spaceId : Str)
    (result : SaveResult) :
    Follows p (p.save (p.config.dismissSpace accountId spaceId) result) s := by
  refine ⟨_, [], Relation.ReflTransGen.single ⟨_, .dismissSpace accountId spaceId⟩,
    ⟨?_, h.untoldAccounts, ?_, ?_, ?_, ?_⟩, ?_, (Client.receive_nil _).symm⟩
  · simp [h.config]
  · simp [h.untoldFolders]
  · simpa using h.usedAccounts
  · simpa using h.signIns
  · simpa using h.usedFolders
  · cases result <;> simp [Process.save]

/-- A poll removes the spaces that are gone, and tells every one of them. -/
lemma Matches.pollRemove {accountId : Uuid} {ids : List Uuid} (h : Matches p s)
    (result : SaveResult) :
    Follows p
      { (p.setPoll accountId .idle).save (SpacePoller.remove p.config accountId ids) result with
        accountEvents := p.accountEvents ++
          SpacePoller.removedEvents accountId (SpacePoller.toRemove p.config accountId ids) } s := by
  refine ⟨_, _, Relation.ReflTransGen.single ⟨_, .removeSpaces accountId ids⟩,
    ⟨?_, h.untoldAccounts, ?_, ?_, ?_, ?_⟩, rfl, ?_⟩
  · simp [h.config]
  · simp [h.untoldFolders, Process.setPoll]
  · simpa [Process.setPoll] using h.usedAccounts
  · simpa [Process.setPoll] using h.signIns
  · simpa [Process.setPoll] using h.usedFolders
  · rw [listedEvents_removed, h.config]

/-- **A session follows every step of the daemon** but `RemoveAccount`. -/
lemma follows_step {act : Process.Action} (hco : Process.Coherent p) (h : Matches p s)
    (hs : Process.Step p act p') (hact : ∀ a r, act ≠ .removeAccount a r) : Follows p p' s := by
  cases hs with
  | core hint =>
      refine Matches.silent ?_ rfl
      exact h.stay rfl rfl (List.Sublist.refl _) rfl rfl (fun _ _ _ hj => hj)
  | setAccountFolders accountId rootPath spaces hsel hacc htok =>
      refine Matches.silent ?_ rfl
      exact h.job rfl rfl rfl rfl (by rw [Process.job_idle_of_select hco.loop hsel]; rfl) rfl
        (fun _ _ _ hj => nomatch hj)
  | addAccountSpace accountId spaceId localPath hsel hacc htok =>
      refine Matches.silent ?_ rfl
      exact h.job rfl rfl rfl rfl (by rw [Process.job_idle_of_select hco.loop hsel]; rfl) rfl
        (fun _ _ _ hj => nomatch hj)
  | refuse hj =>
      refine Matches.silent ?_ rfl
      exact h.job rfl rfl rfl rfl (by rw [hj]; rfl) rfl (fun _ _ _ hj => nomatch hj)
  | added hj =>
      refine Matches.silent ?_ rfl
      exact h.job rfl rfl rfl rfl (by rw [hj]; rfl) rfl (fun _ _ _ hj => nomatch hj)
  | register id hj hacc hnew =>
      refine Matches.silent ?_ rfl
      exact h.register (by rw [hj]; rfl) hnew
  | push result hj => exact h.push hco hj result
  | schedule hj => exact h.schedule hj
  | removeAccount accountId result hsel => exact absurd rfl (hact accountId result)
  | dismissSpace accountId spaceId result hsel hacc => exact h.dismissSpace accountId spaceId result
  | addAccount accountId entered resolved hsel hnew =>
      refine Matches.silent ?_ rfl
      exact h.addAccount entered resolved hnew
  | signedIn userId displayName serverType result hf hdup =>
      exact h.signedIn userId displayName serverType result hf hdup
  | signInFailed hf =>
      refine Matches.silent ?_ rfl
      exact h.stay rfl rfl List.erase_sublist rfl rfl (fun _ _ _ hj => hj)
  | pollAsk hpoller hp hacc =>
      refine Matches.silent ?_ rfl
      exact h.stay rfl rfl (List.Sublist.refl _) rfl rfl (fun _ _ _ hj => hj)
  | pollFailed hp =>
      refine Matches.silent ?_ rfl
      exact h.stay rfl rfl (List.Sublist.refl _) rfl rfl (fun _ _ _ hj => hj)
  | pollListed remote hp =>
      refine Matches.follows ?_ _ listedEvents_discover rfl
      exact h.stay rfl rfl (List.Sublist.refl _) rfl rfl (fun _ _ _ hj => hj)
  | pollRemove result hp => exact h.pollRemove result

end Session

end OwncloudSync
