import OwncloudSync.Daemon.Coherence
import OwncloudSync.Daemon.GuiView
import OwncloudSync.Lib.Runs
import Mathlib.Tactic.Common

/-!
# A client subscribes

The handler of `Subscribe` (`gui_ipc/mod.rs`) subscribes to the broadcasts first and takes the
snapshot afterwards, so that no event is lost in between.  An event that comes in between, or whose
change was made before the snapshot and is told after it, is then handled **on top of a snapshot that
has the change already**, and the GUI pushes what it lists.

Changes of the configuration and their events come apart differently:

* a sign-in pushes its account under the lock and broadcasts `AccountAddCompleted` after it; if the
  save fails the account stays, and is not told;
* `SetAccountFolders` and `AddAccountSpace` push the folder under the lock, and broadcast
  `AccountFolderAdded` after the scheduler has been told;
* a space poller broadcasts `SpaceRemoved` under the lock.

The client may subscribe between any two broadcasts, and takes its snapshot under the lock.  Left out
are `RemoveAccount` and events that are dropped.
-/

namespace OwncloudSync

open Gui

/-- The client: without a receiver, with one, and after its snapshot was written.  Its connection
keeps the order. -/
inductive Client where
  | away
  | subscribed (queue : List Protocol.DaemonEvent)
  | live (inbox : List Protocol.DaemonEvent)

/-- An event goes to whom has a receiver. -/
def Client.receive (c : Client) (events : List Protocol.DaemonEvent) : Client :=
  match c with
  | .away => .away
  | .subscribed queue => .subscribed (queue ++ events)
  | .live inbox => .live (inbox ++ events)

/-- The daemon, and a client of it. -/
structure Session where
  config : AppConfig
  scheduler : SyncScheduler
  /-- in the configuration, and not told yet -/
  untoldAccounts : List AccountConfig
  untoldFolders : List (Uuid × FolderConfig)
  /-- the ids `Uuid::new_v4` has drawn -/
  usedAccounts : List Uuid
  usedFolders : List Uuid
  client : Client
  app : App

namespace Session

/-- The events of a poller, broadcast under the lock. -/
def removedEvents (cfg : AppConfig) (accountId : Uuid) (ids : List Uuid) :
    List Protocol.DaemonEvent :=
  (SpacePoller.toRemove cfg accountId ids).map
    (fun f => .spaceRemoved accountId f.id f.displayName f.localPath)

/-- The event that tells the GUI of an account. -/
def accountEvent (a : AccountConfig) : Protocol.DaemonEvent :=
  .accountAddCompleted a.id a.userId a.displayName a.url

/-- The event that tells the GUI of a folder. -/
def folderEvent (accountId : Uuid) (f : FolderConfig) : Protocol.DaemonEvent :=
  .accountFolderAdded accountId f.id f.spaceId f.localPath f.displayName

/-- What a step is about. -/
inductive Action where
  | signIn (account : AccountConfig) (saved : Bool)
  | tellAccount (account : AccountConfig)
  | pushFolder (accountId : Uuid) (folder : FolderConfig)
  | tellFolder (accountId : Uuid) (folder : FolderConfig)
  | removeSpaces (accountId : Uuid) (ids : List Uuid)
  /-- the client subscribes after so many of the broadcasts -/
  | removeSpacesMeanwhile (accountId : Uuid) (ids : List Uuid) (told : ℕ)
  | dismissSpace (accountId : Uuid) (spaceId : Str)
  | broadcast (e : Protocol.DaemonEvent)
  | schedule (scheduler : SyncScheduler)
  | subscribe
  | snapshot
  | handle
  | disconnect

/-- A step of the daemon or of one GUI, with every await a step of its own. -/
inductive Step : Session → Action → Session → Prop
  -- `handle_callback`
  | signIn {s : Session} (account : AccountConfig) (saved : Bool)
      (hnew : account.id ∉ s.usedAccounts) (hempty : account.folder = [])
      (hdup : ∀ a ∈ s.config.account, ¬ (a.url = account.url ∧ a.userId = account.userId)) :
      Step s (.signIn account saved)
        { s with config := s.config.pushAccount account
                 usedAccounts := account.id :: s.usedAccounts
                 untoldAccounts := s.untoldAccounts ++ if saved then [account] else [] }
  | tellAccount {s : Session} {account : AccountConfig} (h : account ∈ s.untoldAccounts) :
      Step s (.tellAccount account)
        { s with untoldAccounts := s.untoldAccounts.erase account
                 client := s.client.receive [accountEvent account] }
  -- `SetAccountFolders` and `AddAccountSpace`
  | pushFolder {s : Session} (accountId : Uuid) (folder : FolderConfig)
      (hacc : accountId ∈ s.config.accountIds) (hnew : folder.id ∉ s.usedFolders) :
      Step s (.pushFolder accountId folder)
        { s with config := s.config.pushFolder accountId folder
                 usedFolders := folder.id :: s.usedFolders
                 untoldFolders := s.untoldFolders ++ [(accountId, folder)] }
  | tellFolder {s : Session} {accountId : Uuid} {folder : FolderConfig}
      (h : (accountId, folder) ∈ s.untoldFolders) :
      Step s (.tellFolder accountId folder)
        { s with untoldFolders := s.untoldFolders.erase (accountId, folder)
                 client := s.client.receive [folderEvent accountId folder] }
  -- a space poller
  | removeSpaces {s : Session} (accountId : Uuid) (ids : List Uuid) :
      Step s (.removeSpaces accountId ids)
        { s with config := SpacePoller.remove s.config accountId ids
                 client := s.client.receive (removedEvents s.config accountId ids) }
  | removeSpacesMeanwhile {s : Session} (accountId : Uuid) (ids : List Uuid) (told : ℕ)
      (h : s.client = .away) :
      Step s (.removeSpacesMeanwhile accountId ids told)
        { s with config := SpacePoller.remove s.config accountId ids
                 client := .subscribed ((removedEvents s.config accountId ids).drop told) }
  -- what else the daemon does
  | dismissSpace {s : Session} (accountId : Uuid) (spaceId : Str) :
      Step s (.dismissSpace accountId spaceId)
        { s with config := s.config.dismissSpace accountId spaceId }
  | broadcast {s : Session} (e : Protocol.DaemonEvent) (h : listed e = false) :
      Step s (.broadcast e) { s with client := s.client.receive [e] }
  | schedule {s : Session} (scheduler : SyncScheduler) :
      Step s (.schedule scheduler) { s with scheduler := scheduler }
  -- the client
  | subscribe {s : Session} (h : s.client = .away) :
      Step s .subscribe { s with client := .subscribed [] }
  | snapshot {s : Session} {queue : List Protocol.DaemonEvent} (h : s.client = .subscribed queue) :
      Step s .snapshot
        { s with client := .live (OwncloudSync.snapshot s.config s.scheduler :: queue) }
  | handle {s : Session} {e : Protocol.DaemonEvent} {inbox : List Protocol.DaemonEvent}
      (h : s.client = .live (e :: inbox)) :
      Step s .handle { s with client := .live inbox, app := handleEvent s.app e }
  | disconnect {s : Session} : Step s .disconnect { s with client := .away }

/-- The start: no id occurs twice, and nobody is connected. -/
structure Starts (s : Session) : Prop where
  accountIds : s.config.accountIds.Nodup
  folderIds : ∀ a, (s.config.folderIds a).Nodup
  usedAccounts : ∀ a ∈ s.config.accountIds, a ∈ s.usedAccounts
  usedFolders : ∀ a, ∀ f ∈ s.config.folderIds a, f ∈ s.usedFolders
  untoldAccounts : s.untoldAccounts = []
  untoldFolders : s.untoldFolders = []
  client : s.client = .away

/-- Everything has been told, and everything told has been handled. -/
structure Settled (s : Session) : Prop where
  client : s.client = .live []
  untoldAccounts : s.untoldAccounts = []
  untoldFolders : s.untoldFolders = []

/-- The GUI lists the accounts of the configuration and their folders, each once. -/
structure Consistent (s : Session) : Prop where
  accounts : Daemon.Enumerates s.app.accountIds (· ∈ s.config.accountIds)
  folders : ∀ a, Daemon.Enumerates (s.app.folderIds a) (· ∈ s.config.folderIds a)

/-- A folder that is in the configuration and not told. -/
def Untold (s : Session) (a f : Uuid) : Prop := ∃ p ∈ s.untoldFolders, p.1 = a ∧ p.2.id = f

/-- The condition under which the client gets a consistent view:

* at its snapshot, of the accounts and folders in the configuration none is still to be told, and
  none is in its queue;
* from its subscription on, a folder is told only while it is in the configuration, and, after its
  snapshot, only after its account;
* after its snapshot, no sign-in fails to save. -/
def Orderly (s : Session) : Action → Prop
  | .signIn _ saved => saved = false → ∀ inbox, s.client ≠ .live inbox
  | .tellFolder a folder =>
      (s.client ≠ .away → folder.id ∈ s.config.folderIds a) ∧
        ((∃ inbox, s.client = .live inbox) → ∀ x ∈ s.untoldAccounts, x.id ≠ a)
  | .snapshot => s.untoldAccounts = [] ∧ (∀ p ∈ s.untoldFolders, p.2.id ∉ s.config.folderIds p.1) ∧
      ∀ queue, s.client = .subscribed queue →
        (∀ a user name url, .accountAddCompleted a user name url ∉ queue) ∧
        ∀ a f space path name, .accountFolderAdded a f space path name ∈ queue →
          f ∉ s.config.folderIds a
  | _ => True

/-- A step that meets the condition. -/
def OrderlyStep (s s' : Session) : Prop := ∃ a, Step s a s' ∧ Orderly s a

/-- A step, whatever it is about. -/
def Next (s s' : Session) : Prop := ∃ a, Step s a s'

variable {s s' : Session} {act : Action} {a b f : Uuid}

/-! ## What is drawn and what is untold -/

/-- What holds whoever is connected. -/
structure Sound (s : Session) : Prop where
  accountIds : s.config.accountIds.Nodup
  folderIds : ∀ a, (s.config.folderIds a).Nodup
  usedAccounts : ∀ a ∈ s.config.accountIds, a ∈ s.usedAccounts
  usedFolders : ∀ a, ∀ f ∈ s.config.folderIds a, f ∈ s.usedFolders
  untoldAccounts : (s.untoldAccounts.map AccountConfig.id).Nodup
  untoldKnown : ∀ x ∈ s.untoldAccounts, x.id ∈ s.config.accountIds
  untoldFolders : (s.untoldFolders.map (fun p => p.2.id)).Nodup
  untoldUsed : ∀ p ∈ s.untoldFolders, p.2.id ∈ s.usedFolders

lemma Starts.sound (h : Starts s) : Sound s where
  accountIds := h.accountIds
  folderIds := h.folderIds
  usedAccounts := h.usedAccounts
  usedFolders := h.usedFolders
  untoldAccounts := by rw [h.untoldAccounts]; exact List.nodup_nil
  untoldKnown := by rw [h.untoldAccounts]; exact fun x hx => nomatch hx
  untoldFolders := by rw [h.untoldFolders]; exact List.nodup_nil
  untoldUsed := by rw [h.untoldFolders]; exact fun x hx => nomatch hx

lemma folderIds_remove {cfg : AppConfig} {accountId : Uuid} {ids : List Uuid} :
    (SpacePoller.remove cfg accountId ids).folderIds a =
      if a = accountId then (cfg.folderIds a).filter (fun f => !ids.contains f)
      else cfg.folderIds a := by
  rw [SpacePoller.remove, AppConfig.retainFolders, AppConfig.folderIds_modifyAccount (by intro; rfl)]
  by_cases ha : a = accountId
  · rw [if_pos ha, if_pos ha, AppConfig.folderIds]
    cases cfg.findAccount a with
    | none => rfl
    | some x => simp [List.filter_map, Function.comp_def]
  · rw [if_neg ha, if_neg ha]

lemma folderIds_remove_sublist {cfg : AppConfig} {accountId : Uuid} {ids : List Uuid} :
    List.Sublist ((SpacePoller.remove cfg accountId ids).folderIds a) (cfg.folderIds a) := by
  rw [folderIds_remove]
  split
  · exact List.filter_sublist
  · exact List.Sublist.refl _

/-- A push keeps the folders of every account, and adds the one it pushes. -/
lemma mem_folderIds_pushFolder {cfg : AppConfig} {accountId : Uuid} {folder : FolderConfig}
    (h : f ∈ (cfg.pushFolder accountId folder).folderIds a) :
    f ∈ cfg.folderIds a ∨ f = folder.id := by
  rw [AppConfig.folderIds_pushFolder] at h
  split at h
  · exact (List.mem_append.mp h).imp id List.mem_singleton.mp
  · exact Or.inl h

lemma folderIds_subset_pushFolder {cfg : AppConfig} {accountId : Uuid} {folder : FolderConfig}
    (h : f ∈ cfg.folderIds a) : f ∈ (cfg.pushFolder accountId folder).folderIds a := by
  rw [AppConfig.folderIds_pushFolder]
  split
  · exact List.mem_append_left _ h
  · exact h

/-- A configuration with the same accounts and no more folders. -/
lemma Sound.shrink {cfg : AppConfig} (h : Sound s) (hacc : cfg.accountIds = s.config.accountIds)
    (hfold : ∀ a, List.Sublist (cfg.folderIds a) (s.config.folderIds a)) (c : Client) :
    Sound { s with config := cfg, client := c } where
  accountIds := hacc ▸ h.accountIds
  folderIds a := (h.folderIds a).sublist (hfold a)
  usedAccounts := hacc ▸ h.usedAccounts
  usedFolders a f hf := h.usedFolders a f ((hfold a).subset hf)
  untoldAccounts := h.untoldAccounts
  untoldKnown := hacc ▸ h.untoldKnown
  untoldFolders := h.untoldFolders
  untoldUsed := h.untoldUsed

/-- A sign-in pushes an account without folders, under an id that has not been drawn. -/
lemma Sound.signIn {account : AccountConfig} {saved : Bool} (h : Sound s)
    (hnew : account.id ∉ s.usedAccounts) (hempty : account.folder = []) :
    Sound { s with config := s.config.pushAccount account
                   usedAccounts := account.id :: s.usedAccounts
                   untoldAccounts := s.untoldAccounts ++ if saved then [account] else [] } := by
  have hnot : account.id ∉ s.config.accountIds := fun hmem => hnew (h.usedAccounts _ hmem)
  have honly : ∀ x ∈ if saved then [account] else [], x = account := by
    intro x hx
    split at hx
    · simpa using hx
    · simp at hx
  refine ⟨?_, ?_, ?_, ?_, ?_, ?_, h.untoldFolders, h.untoldUsed⟩
  · rw [AppConfig.accountIds_pushAccount]
    exact List.Nodup.append h.accountIds (List.nodup_singleton _) (by simpa using hnot)
  · intro a
    rw [AppConfig.folderIds_pushAccount hempty]
    exact h.folderIds a
  · intro a ha
    rw [AppConfig.accountIds_pushAccount, List.mem_append, List.mem_singleton] at ha
    rcases ha with ha | rfl
    · exact List.mem_cons_of_mem _ (h.usedAccounts a ha)
    · exact List.mem_cons_self
  · intro a f hf
    rw [AppConfig.folderIds_pushAccount hempty] at hf
    exact h.usedFolders a f hf
  · rw [List.map_append]
    refine List.Nodup.append h.untoldAccounts (by split <;> simp) (fun x hx hx' => ?_)
    obtain ⟨y, hy, rfl⟩ := List.mem_map.mp hx
    obtain ⟨z, hz, hzy⟩ := List.mem_map.mp hx'
    rw [honly z hz] at hzy
    exact hnot (hzy ▸ h.untoldKnown y hy)
  · intro x hx
    rw [AppConfig.accountIds_pushAccount]
    rcases List.mem_append.mp hx with hx | hx
    · exact List.mem_append_left _ (h.untoldKnown x hx)
    · rw [honly x hx]
      exact List.mem_append_right _ (List.mem_singleton_self _)

/-- A folder is pushed under an id that has not been drawn. -/
lemma Sound.pushFolder {accountId : Uuid} {folder : FolderConfig} (h : Sound s)
    (hnew : folder.id ∉ s.usedFolders) :
    Sound { s with config := s.config.pushFolder accountId folder
                   usedFolders := folder.id :: s.usedFolders
                   untoldFolders := s.untoldFolders ++ [(accountId, folder)] } := by
  refine ⟨?_, ?_, ?_, ?_, h.untoldAccounts, ?_, ?_, ?_⟩
  · rw [AppConfig.accountIds_pushFolder]
    exact h.accountIds
  · intro a
    rw [AppConfig.folderIds_pushFolder]
    split
    · exact List.Nodup.append (h.folderIds a) (List.nodup_singleton _)
        (by simpa using fun hmem => hnew (h.usedFolders a _ hmem))
    · exact h.folderIds a
  · rw [AppConfig.accountIds_pushFolder]
    exact h.usedAccounts
  · intro a f hf
    rcases mem_folderIds_pushFolder hf with hf | rfl
    · exact List.mem_cons_of_mem _ (h.usedFolders a f hf)
    · exact List.mem_cons_self
  · rw [AppConfig.accountIds_pushFolder]
    exact h.untoldKnown
  · rw [List.map_append]
    refine List.Nodup.append h.untoldFolders (List.nodup_singleton _) ?_
    rw [List.map_singleton, List.disjoint_singleton]
    intro hmem
    obtain ⟨p, hp, hpid⟩ := List.mem_map.mp hmem
    exact hnew (hpid ▸ h.untoldUsed p hp)
  · intro p hp
    rcases List.mem_append.mp hp with hp | hp
    · exact List.mem_cons_of_mem _ (h.untoldUsed p hp)
    · rw [List.mem_singleton.mp hp]
      exact List.mem_cons_self

lemma sound_step (h : Sound s) (hs : Step s act s') : Sound s' := by
  cases hs with
  | signIn account saved hnew hempty hdup => exact h.signIn hnew hempty
  | tellAccount hmem =>
      refine ⟨h.accountIds, h.folderIds, h.usedAccounts, h.usedFolders, ?_, ?_, h.untoldFolders,
        h.untoldUsed⟩
      · exact h.untoldAccounts.sublist (List.erase_sublist.map _)
      · exact fun x hx => h.untoldKnown x (List.mem_of_mem_erase hx)
  | pushFolder accountId folder hacc hnew => exact h.pushFolder hnew
  | tellFolder hmem =>
      refine ⟨h.accountIds, h.folderIds, h.usedAccounts, h.usedFolders, h.untoldAccounts,
        h.untoldKnown, ?_, ?_⟩
      · exact h.untoldFolders.sublist (List.erase_sublist.map _)
      · exact fun p hp => h.untoldUsed p (List.mem_of_mem_erase hp)
  | removeSpaces accountId ids =>
      exact h.shrink AppConfig.accountIds_retainFolders (fun _ => folderIds_remove_sublist) _
  | removeSpacesMeanwhile accountId ids told hc =>
      exact h.shrink AppConfig.accountIds_retainFolders (fun _ => folderIds_remove_sublist) _
  | dismissSpace accountId spaceId =>
      refine h.shrink AppConfig.accountIds_dismissSpace (fun _ => ?_) _
      rw [AppConfig.folderIds_dismissSpace]
  | _ => exact ⟨h.accountIds, h.folderIds, h.usedAccounts, h.usedFolders, h.untoldAccounts,
      h.untoldKnown, h.untoldFolders, h.untoldUsed⟩

/-! ## After the snapshot -/

/-- What the GUI will list when it has handled its inbox: all that has been told. -/
structure Lists (s : Session) (app : App) : Prop where
  accounts : Daemon.Enumerates app.accountIds
    (fun a => a ∈ s.config.accountIds ∧ ∀ x ∈ s.untoldAccounts, x.id ≠ a)
  folders : ∀ a, Daemon.Enumerates (app.folderIds a)
    (fun f => f ∈ s.config.folderIds a ∧ ¬ s.Untold a f)
  parents : ∀ x ∈ s.untoldAccounts, ∀ f ∈ s.config.folderIds x.id, s.Untold x.id f

variable {app : App}

/-- Of records with different keys, one is left out. -/
lemma key_ne_of_mem_erase {α β : Type} [BEq α] [LawfulBEq α] {key : α → β} {l : List α} {x y : α}
    (hnd : (l.map key).Nodup) (hx : x ∈ l) (hy : y ∈ l.erase x) : key y ≠ key x := by
  have hperm := (List.perm_cons_erase hx).map key
  rw [hperm.nodup_iff, List.map_cons, List.nodup_cons] at hnd
  intro hkey
  exact hnd.1 (hkey ▸ List.mem_map_of_mem hy)

lemma Lists.signIn {account : AccountConfig} (h : Lists s app)
    (hnot : account.id ∉ s.config.accountIds) (hempty : account.folder = []) :
    Lists { s with config := s.config.pushAccount account
                   usedAccounts := account.id :: s.usedAccounts
                   untoldAccounts := s.untoldAccounts ++ [account] } app where
  accounts := by
    refine h.accounts.congr (fun a => ?_)
    rw [AppConfig.accountIds_pushAccount, List.mem_append, List.mem_singleton,
      List.forall_mem_append, List.forall_mem_singleton]
    constructor
    · rintro ⟨ha, hx⟩
      exact ⟨Or.inl ha, hx, fun h => hnot (h ▸ ha)⟩
    · rintro ⟨ha | ha, hx, hne⟩
      · exact ⟨ha, hx⟩
      · exact absurd ha.symm hne
  folders a := by
    rw [AppConfig.folderIds_pushAccount hempty]
    exact h.folders a
  parents x hx f hf := by
    rw [AppConfig.folderIds_pushAccount hempty] at hf
    rcases List.mem_append.mp hx with hx | hx
    · exact h.parents x hx f hf
    · rw [List.mem_singleton.mp hx] at hf
      exact absurd (AppConfig.mem_accountIds_of_mem_folderIds hf) hnot

lemma Lists.tellAccount {account : AccountConfig} (h : Lists s app) (hsound : Sound s)
    (hmem : account ∈ s.untoldAccounts) (c : Client) :
    Lists { s with untoldAccounts := s.untoldAccounts.erase account, client := c }
      (handleEvent app (accountEvent account)) where
  accounts := by
    rw [accountEvent, accountIds_addCompleted]
    refine (h.accounts.concat (fun hP => hP.2 account hmem rfl)).congr (fun a => ?_)
    constructor
    · rintro (⟨ha, hx⟩ | rfl)
      · exact ⟨ha, fun x hxe => hx x (List.mem_of_mem_erase hxe)⟩
      · exact ⟨hsound.untoldKnown account hmem,
          fun x hxe => key_ne_of_mem_erase hsound.untoldAccounts hmem hxe⟩
    · rintro ⟨ha, hx⟩
      by_cases haa : a = account.id
      · exact Or.inr haa
      · refine Or.inl ⟨ha, fun x hxm => ?_⟩
        by_cases hxa : x = account
        · rw [hxa]
          exact Ne.symm haa
        · exact hx x ((List.mem_erase_of_ne hxa).mpr hxm)
  folders a := by
    rw [accountEvent, folderIds_addCompleted]
    exact h.folders a
  parents x hx f hf := h.parents x (List.mem_of_mem_erase hx) f hf

lemma untold_concat {p : Uuid × FolderConfig} {cfg : AppConfig} {used : List Uuid} :
    Untold { s with config := cfg, usedFolders := used, untoldFolders := s.untoldFolders ++ [p] } a f ↔
      s.Untold a f ∨ (p.1 = a ∧ p.2.id = f) := by
  simp only [Untold, List.mem_append, List.mem_singleton]
  constructor
  · rintro ⟨q, hq | rfl, hqa⟩
    · exact Or.inl ⟨q, hq, hqa⟩
    · exact Or.inr hqa
  · rintro (⟨q, hq, hqa⟩ | hpa)
    · exact ⟨q, Or.inl hq, hqa⟩
    · exact ⟨p, Or.inr rfl, hpa⟩

lemma Lists.pushFolder {accountId : Uuid} {folder : FolderConfig} (h : Lists s app)
    (hsound : Sound s) (hnew : folder.id ∉ s.usedFolders) :
    Lists { s with config := s.config.pushFolder accountId folder
                   usedFolders := folder.id :: s.usedFolders
                   untoldFolders := s.untoldFolders ++ [(accountId, folder)] } app where
  accounts := by
    rw [AppConfig.accountIds_pushFolder]
    exact h.accounts
  folders a := by
    refine (h.folders a).congr (fun f => ?_)
    rw [untold_concat, AppConfig.folderIds_pushFolder]
    have hold : f ∈ s.config.folderIds a → ¬ (accountId = a ∧ folder.id = f) := by
      rintro hf ⟨-, rfl⟩
      exact hnew (hsound.usedFolders a _ hf)
    constructor
    · rintro ⟨hf, hu⟩
      refine ⟨?_, fun hun => hun.elim hu (hold hf)⟩
      split
      · exact List.mem_append_left _ hf
      · exact hf
    · rintro ⟨hf, hu⟩
      rw [not_or] at hu
      refine ⟨?_, hu.1⟩
      split at hf
      · rename_i ha
        rcases List.mem_append.mp hf with hf | hf
        · exact hf
        · exact absurd ⟨ha.1.symm, (List.mem_singleton.mp hf).symm⟩ hu.2
      · exact hf
  parents x hx f hf := by
    rw [untold_concat]
    rw [AppConfig.folderIds_pushFolder] at hf
    split at hf
    · rename_i ha
      rcases List.mem_append.mp hf with hf | hf
      · exact Or.inl (h.parents x hx f hf)
      · exact Or.inr ⟨ha.1.symm, (List.mem_singleton.mp hf).symm⟩
    · exact Or.inl (h.parents x hx f hf)

lemma untold_erase {accountId : Uuid} {folder : FolderConfig} {c : Client} (hsound : Sound s)
    (hmem : (accountId, folder) ∈ s.untoldFolders) :
    Untold { s with untoldFolders := s.untoldFolders.erase (accountId, folder), client := c } a f ↔
      s.Untold a f ∧ ¬ (accountId = a ∧ folder.id = f) := by
  simp only [Untold]
  constructor
  · rintro ⟨p, hp, hpa, hpf⟩
    refine ⟨⟨p, List.mem_of_mem_erase hp, hpa, hpf⟩, fun h => ?_⟩
    exact key_ne_of_mem_erase hsound.untoldFolders hmem hp (hpf.trans h.2.symm)
  · rintro ⟨⟨p, hp, hpa, hpf⟩, hne⟩
    refine ⟨p, (List.mem_erase_of_ne ?_).mpr hp, hpa, hpf⟩
    rintro rfl
    exact hne ⟨hpa, hpf⟩

lemma Lists.tellFolder {accountId : Uuid} {folder : FolderConfig} (h : Lists s app)
    (hsound : Sound s) (hmem : (accountId, folder) ∈ s.untoldFolders)
    (hstill : folder.id ∈ s.config.folderIds accountId)
    (htold : ∀ x ∈ s.untoldAccounts, x.id ≠ accountId) (c : Client) :
    Lists { s with untoldFolders := s.untoldFolders.erase (accountId, folder), client := c }
      (handleEvent app (folderEvent accountId folder)) where
  accounts := by
    rw [folderEvent, accountIds_folderAdded]
    exact h.accounts
  folders a := by
    have hacc : accountId ∈ app.accountIds :=
      (h.accounts.2 accountId).mpr ⟨AppConfig.mem_accountIds_of_mem_folderIds hstill, htold⟩
    rw [folderEvent, folderIds_folderAdded]
    by_cases ha : a = accountId
    · subst ha
      rw [if_pos ⟨rfl, hacc⟩]
      have hnew : ¬ (folder.id ∈ s.config.folderIds a ∧ ¬ s.Untold a folder.id) :=
        fun hP => hP.2 ⟨(a, folder), hmem, rfl, rfl⟩
      refine ((h.folders a).concat hnew).congr (fun f => ?_)
      rw [untold_erase hsound hmem]
      constructor
      · rintro (⟨hf, hu⟩ | rfl)
        · exact ⟨hf, fun hun => hu hun.1⟩
        · exact ⟨hstill, fun hun => hun.2 ⟨rfl, rfl⟩⟩
      · rintro ⟨hf, hu⟩
        by_cases hff : f = folder.id
        · exact Or.inr hff
        · exact Or.inl ⟨hf, fun hun => hu ⟨hun, fun hne => hff hne.2.symm⟩⟩
    · rw [if_neg (fun hP => ha hP.1)]
      refine (h.folders a).congr (fun f => ?_)
      rw [untold_erase hsound hmem]
      exact and_congr_right (fun _ => not_congr
        ⟨fun hun => ⟨hun, fun hne => ha hne.1.symm⟩, fun hun => hun.1⟩)
  parents x hx f hf := by
    rw [untold_erase hsound hmem]
    exact ⟨h.parents x hx f hf, fun hne => htold x hx hne.1.symm⟩

/-- Handling the events of a poll. -/
lemma ids_foldl_removed (accountId : Uuid) (removed : List FolderConfig) (app : App) :
    ((removed.map (fun f => .spaceRemoved accountId f.id f.displayName f.localPath)).foldl
      handleEvent app).accountIds = app.accountIds ∧
    ∀ a, ((removed.map (fun f => .spaceRemoved accountId f.id f.displayName f.localPath)).foldl
      handleEvent app).folderIds a =
        if a = accountId then
          (app.folderIds a).filter (fun x => !(removed.map FolderConfig.id).contains x)
        else app.folderIds a := by
  induction removed generalizing app with
  | nil => exact ⟨rfl, fun a => by simp⟩
  | cons r removed ih =>
      obtain ⟨hacc, hfold⟩ := ih (handleEvent app (.spaceRemoved accountId r.id r.displayName r.localPath))
      refine ⟨?_, fun a => ?_⟩
      · rw [List.map_cons, List.foldl_cons, hacc, accountIds_spaceRemoved]
      · rw [List.map_cons, List.foldl_cons, hfold, folderIds_spaceRemoved]
        by_cases ha : a = accountId
        · rw [if_pos ha, if_pos ha, if_pos ha, List.filter_filter]
          refine List.filter_congr (fun x _ => ?_)
          simp [Bool.and_comm]
        · rw [if_neg ha, if_neg ha, if_neg ha]

lemma mem_toRemove {cfg : AppConfig} {accountId : Uuid} {ids : List Uuid} :
    f ∈ (SpacePoller.toRemove cfg accountId ids).map FolderConfig.id ↔
      f ∈ cfg.folderIds accountId ∧ ids.contains f = true := by
  rw [SpacePoller.toRemove, AppConfig.folderIds]
  cases cfg.findAccount accountId with
  | none => simp
  | some a =>
      simp only [List.mem_map, List.mem_filter, Option.map_some, Option.getD_some]
      constructor
      · rintro ⟨x, ⟨hx, hid⟩, rfl⟩
        exact ⟨⟨x, hx, rfl⟩, hid⟩
      · rintro ⟨⟨x, hx, rfl⟩, hid⟩
        exact ⟨x, ⟨hx, hid⟩, rfl⟩

lemma Lists.removeSpaces (h : Lists s app) (accountId : Uuid) (ids : List Uuid) (c : Client) :
    Lists { s with config := SpacePoller.remove s.config accountId ids, client := c }
      ((removedEvents s.config accountId ids).foldl handleEvent app) where
  accounts := by
    rw [removedEvents, (ids_foldl_removed accountId _ app).1, SpacePoller.remove,
      AppConfig.accountIds_retainFolders]
    exact h.accounts
  folders a := by
    rw [removedEvents, (ids_foldl_removed accountId _ app).2, folderIds_remove]
    by_cases ha : a = accountId
    · subst ha
      rw [if_pos rfl, if_pos rfl]
      refine ((h.folders a).filter _).congr (fun f => ?_)
      rw [Bool.not_eq_true', List.contains_eq_mem, decide_eq_false_iff_not, mem_toRemove,
        List.mem_filter, Bool.not_eq_true']
      constructor
      · rintro ⟨⟨hf, hu⟩, hno⟩
        exact ⟨⟨hf, by simpa [hf] using hno⟩, hu⟩
      · rintro ⟨⟨hf, hno⟩, hu⟩
        exact ⟨⟨hf, hu⟩, fun hm => by rw [hno] at hm; cases hm.2⟩
    · rw [if_neg ha, if_neg ha]
      exact h.folders a
  parents x hx f hf := h.parents x hx f (folderIds_remove_sublist.subset hf)

lemma Lists.quiet {e : Protocol.DaemonEvent} (h : Lists s app) (he : listed e = false) (c : Client) :
    Lists { s with client := c } (handleEvent app e) where
  accounts := by
    rw [(ids_of_not_listed he).1]
    exact h.accounts
  folders a := by
    rw [(ids_of_not_listed he).2]
    exact h.folders a
  parents := h.parents

/-! ## Before the snapshot -/

/-- Every addition in the queue is of a folder in the configuration, or undone later in the queue. -/
def AddsHold (cfg : AppConfig) : List Protocol.DaemonEvent → Prop
  | [] => True
  | e :: queue =>
      (∀ a f space path name, e = .accountFolderAdded a f space path name →
        f ∈ cfg.folderIds a ∨ ∃ name path, .spaceRemoved a f name path ∈ queue) ∧ AddsHold cfg queue

/-- The queue of a client that has no snapshot yet. -/
structure Queued (s : Session) (queue : List Protocol.DaemonEvent) : Prop where
  adds : AddsHold s.config queue
  removed : ∀ a f name path, .spaceRemoved a f name path ∈ queue →
    f ∈ s.usedFolders ∧ f ∉ s.config.folderIds a
  noSnapshot : ∀ accounts, .accountSnapshot accounts ∉ queue

lemma AddsHold.append {cfg cfg' : AppConfig} {queue events : List Protocol.DaemonEvent}
    (h : AddsHold cfg queue)
    (hcfg : ∀ a f, f ∈ cfg.folderIds a →
      f ∈ cfg'.folderIds a ∨ ∃ name path, .spaceRemoved a f name path ∈ events)
    (hevents : AddsHold cfg' events) : AddsHold cfg' (queue ++ events) := by
  induction queue with
  | nil => exact hevents
  | cons e queue ih =>
      refine ⟨fun a f space path name he => ?_, ih h.2⟩
      rcases h.1 a f space path name he with hf | ⟨n, p, hr⟩
      · rcases hcfg a f hf with hf | ⟨n, p, hr⟩
        · exact Or.inl hf
        · exact Or.inr ⟨n, p, List.mem_append_right _ hr⟩
      · exact Or.inr ⟨n, p, List.mem_append_left _ hr⟩

/-- A queue of events that add no folder. -/
lemma AddsHold.of_not_added {cfg : AppConfig} {events : List Protocol.DaemonEvent}
    (h : ∀ a f space path name, .accountFolderAdded a f space path name ∉ events) :
    AddsHold cfg events := by
  induction events with
  | nil => trivial
  | cons e events ih =>
      refine ⟨fun a f space path name he => ?_, ih (fun a f space path name hm => ?_)⟩
      · exact absurd (he ▸ List.mem_cons_self) (h a f space path name)
      · exact h a f space path name (List.mem_cons_of_mem _ hm)

/-- What an event that is no snapshot does to one folder on the screen. -/
lemma count_handleEvent {e : Protocol.DaemonEvent} (hsnap : ∀ accounts, e ≠ .accountSnapshot accounts)
    (app : App) (a f : Uuid) :
    (∃ name path, e = .spaceRemoved a f name path ∧
      ((handleEvent app e).folderIds a).count f = 0) ∨
    (∃ space path name, e = .accountFolderAdded a f space path name) ∨
    ((∀ name path, e ≠ .spaceRemoved a f name path) ∧
      ((handleEvent app e).folderIds a).count f = (app.folderIds a).count f) := by
  cases hl : listed e with
  | false =>
      refine Or.inr (Or.inr ⟨?_, by rw [(ids_of_not_listed hl).2]⟩)
      rintro name path rfl
      cases hl
  | true =>
      cases e with
      | accountAddCompleted b user name url =>
          exact Or.inr (Or.inr ⟨(fun _ _ h => nomatch h), by rw [folderIds_addCompleted]⟩)
      | accountFolderAdded b g space path name =>
          by_cases hbg : b = a ∧ g = f
          · obtain ⟨rfl, rfl⟩ := hbg
            exact Or.inr (Or.inl ⟨space, path, name, rfl⟩)
          · refine Or.inr (Or.inr ⟨(fun _ _ h => nomatch h), ?_⟩)
            rw [folderIds_folderAdded]
            split
            · rename_i hab
              have hgf : g ≠ f := fun hgf => hbg ⟨hab.1.symm, hgf⟩
              rw [List.count_append, List.count_singleton]
              simp [hgf]
            · rfl
      | spaceRemoved b g name path =>
          by_cases hbg : b = a ∧ g = f
          · obtain ⟨rfl, rfl⟩ := hbg
            refine Or.inl ⟨name, path, rfl, ?_⟩
            rw [folderIds_spaceRemoved, if_pos rfl, List.count_eq_zero]
            simp
          · refine Or.inr (Or.inr ⟨?_, ?_⟩)
            · rintro name' path' h
              cases h
              exact hbg ⟨rfl, rfl⟩
            · rw [folderIds_spaceRemoved]
              split
              · rename_i hab
                have hfg : f ≠ g := fun hfg => hbg ⟨hab.symm, hfg.symm⟩
                exact List.count_filter (by simpa using hfg)
              · rfl
      | accountSnapshot accounts => exact absurd rfl (hsnap accounts)
      | _ => cases hl

/-- **What was added and removed before the snapshot is gone in the end.** -/
lemma count_foldl_eq_zero {cfg : AppConfig} {queue : List Protocol.DaemonEvent}
    (hsnap : ∀ accounts, .accountSnapshot accounts ∉ queue) (hadds : AddsHold cfg queue)
    (hf : f ∉ cfg.folderIds a)
    (h : (app.folderIds a).count f = 0 ∨ ∃ name path, .spaceRemoved a f name path ∈ queue) :
    ((queue.foldl handleEvent app).folderIds a).count f = 0 := by
  induction queue generalizing app with
  | nil =>
      rcases h with h | ⟨name, path, h⟩
      · exact h
      · cases h
  | cons e queue ih =>
      rw [List.foldl_cons]
      refine ih (fun accounts hm => hsnap accounts (List.mem_cons_of_mem _ hm)) hadds.2 ?_
      rcases count_handleEvent (fun accounts he => hsnap accounts (he ▸ List.mem_cons_self)) app a f
        with ⟨name, path, -, hzero⟩ | ⟨space, path, name, he⟩ | ⟨hne, hcount⟩
      · exact Or.inl hzero
      · exact Or.inr ((hadds.1 a f space path name he).resolve_left hf)
      · refine h.imp (fun hzero => hcount.trans hzero) ?_
        rintro ⟨name, path, hm⟩
        rcases List.mem_cons.mp hm with he | hm
        · exact absurd he.symm (hne name path)
        · exact ⟨name, path, hm⟩

/-- What no event of the queue names stays. -/
lemma count_foldl_eq {queue : List Protocol.DaemonEvent}
    (hsnap : ∀ accounts, .accountSnapshot accounts ∉ queue)
    (hadd : ∀ space path name, .accountFolderAdded a f space path name ∉ queue)
    (hremoved : ∀ name path, .spaceRemoved a f name path ∉ queue) :
    ((queue.foldl handleEvent app).folderIds a).count f = (app.folderIds a).count f := by
  induction queue generalizing app with
  | nil => rfl
  | cons e queue ih =>
      simp only [List.mem_cons, not_or] at hsnap hadd hremoved
      rw [List.foldl_cons, ih (fun x => (hsnap x).2) (fun x y z => (hadd x y z).2)
        (fun x y => (hremoved x y).2)]
      rcases count_handleEvent (fun accounts he => (hsnap accounts).1 he.symm) app a f
        with ⟨name, path, he, -⟩ | ⟨space, path, name, he⟩ | ⟨-, hcount⟩
      · exact absurd he.symm (hremoved name path).1
      · exact absurd he.symm (hadd space path name).1
      · exact hcount

/-- Without `AccountAddCompleted` in the queue, the accounts stay. -/
lemma accountIds_foldl {queue : List Protocol.DaemonEvent}
    (hsnap : ∀ accounts, .accountSnapshot accounts ∉ queue)
    (hadd : ∀ a user name url, .accountAddCompleted a user name url ∉ queue) :
    (queue.foldl handleEvent app).accountIds = app.accountIds := by
  induction queue generalizing app with
  | nil => rfl
  | cons e queue ih =>
      simp only [List.mem_cons, not_or] at hsnap hadd
      rw [List.foldl_cons, ih (fun x => (hsnap x).2) (fun x y z w => (hadd x y z w).2)]
      cases e with
      | accountAddCompleted a user name url => exact absurd rfl (hadd a user name url).1
      | accountFolderAdded a f space path name => exact accountIds_folderAdded
      | spaceRemoved a f name path => exact accountIds_spaceRemoved
      | accountSnapshot accounts => exact absurd rfl (hsnap accounts).1
      | _ => exact (ids_of_not_listed rfl).1

/-- The snapshot, and what was told before it. -/
lemma Queued.snapshot {queue : List Protocol.DaemonEvent} (hq : Queued s queue) (hsound : Sound s)
    (hc : s.client = .subscribed queue) (hord : Orderly s .snapshot) (c : Client) :
    Lists { s with client := c }
      ((OwncloudSync.snapshot s.config s.scheduler :: queue).foldl handleEvent app) := by
  obtain ⟨hacc, hfold, hqueue⟩ := hord
  obtain ⟨hcompleted, hadded⟩ := hqueue queue hc
  obtain ⟨hsnapAcc, hsnapFold⟩ := ids_snapshot app s.config s.scheduler
  rw [List.foldl_cons]
  refine ⟨?_, fun a => ?_, ?_⟩
  · rw [accountIds_foldl hq.noSnapshot hcompleted, hsnapAcc]
    exact ⟨hsound.accountIds, fun a => by simp [hacc]⟩
  · have hcount : ∀ f, (((queue.foldl handleEvent (handleEvent app
        (OwncloudSync.snapshot s.config s.scheduler))).folderIds a).count f) =
        (s.config.folderIds a).count f := by
      intro f
      rw [← hsnapFold]
      by_cases hf : f ∈ s.config.folderIds a
      · refine count_foldl_eq hq.noSnapshot ?_ ?_
        · exact fun space path name hm => hadded a f space path name hm hf
        · exact fun name path hm => (hq.removed a f name path hm).2 hf
      · have hzero : ((handleEvent app (OwncloudSync.snapshot s.config s.scheduler)).folderIds a).count f
            = 0 := by rw [hsnapFold, List.count_eq_zero]; exact hf
        rw [hzero]
        exact count_foldl_eq_zero hq.noSnapshot hq.adds hf (Or.inl hzero)
    refine ⟨List.nodup_iff_count_le_one.mpr (fun f => ?_), fun f => ?_⟩
    · rw [hcount]
      exact List.nodup_iff_count_le_one.mp (hsound.folderIds a) f
    · rw [← List.count_pos_iff, hcount, List.count_pos_iff]
      refine ⟨fun hf => ⟨hf, ?_⟩, fun h => h.1⟩
      rintro ⟨p, hp, rfl, rfl⟩
      exact hfold p hp hf
  · intro x hx
    exact absurd hx (by simp [hacc])

/-! ## Any run -/

/-- The invariant. -/
def Inv (s : Session) : Prop :=
  Sound s ∧ match s.client with
    | .away => True
    | .subscribed queue => Queued s queue
    | .live inbox => Lists s (inbox.foldl handleEvent s.app)

/-- A configuration in which the queue means the same, or for which it is corrected. -/
lemma Queued.receive {queue events : List Protocol.DaemonEvent} (hq : Queued s queue)
    (hcfg : ∀ a f, f ∈ s.config.folderIds a →
      f ∈ s'.config.folderIds a ∨ ∃ name path, .spaceRemoved a f name path ∈ events)
    (hused : ∀ f ∈ s.usedFolders, f ∈ s'.usedFolders)
    (hnew : ∀ a, ∀ f ∈ s'.config.folderIds a, f ∈ s.config.folderIds a ∨ f ∉ s.usedFolders)
    (hevents : Queued s' events) : Queued s' (queue ++ events) where
  adds := hq.adds.append hcfg hevents.adds
  removed a f name path hm := by
    rcases List.mem_append.mp hm with hm | hm
    · obtain ⟨hf, hno⟩ := hq.removed a f name path hm
      refine ⟨hused f hf, fun hf' => ?_⟩
      rcases hnew a f hf' with hf' | hf'
      · exact hno hf'
      · exact hf' hf
    · exact hevents.removed a f name path hm
  noSnapshot accounts hm := by
    rcases List.mem_append.mp hm with hm | hm
    · exact hq.noSnapshot accounts hm
    · exact hevents.noSnapshot accounts hm

/-- The configuration stays, as far as the queue looks at it. -/
lemma Queued.append {queue events : List Protocol.DaemonEvent} (hq : Queued s queue)
    (hcfg : ∀ a, s'.config.folderIds a = s.config.folderIds a)
    (hused : s'.usedFolders = s.usedFolders) (hevents : Queued s' events) :
    Queued s' (queue ++ events) := by
  refine hq.receive (fun a f hf => Or.inl ?_) (fun f hf => ?_) (fun a f hf => Or.inl ?_) hevents
  · rw [hcfg]
    exact hf
  · rw [hused]
    exact hf
  · rw [← hcfg]
    exact hf

lemma queued_nil : Queued s [] where
  adds := trivial
  removed _ _ _ _ h := nomatch h
  noSnapshot _ h := nomatch h

/-- An event that lists nothing, or an account. -/
lemma queued_singleton {e : Protocol.DaemonEvent}
    (hadd : ∀ a f space path name, e = .accountFolderAdded a f space path name →
      f ∈ s.config.folderIds a)
    (hremoved : ∀ a f name path, e ≠ .spaceRemoved a f name path)
    (hsnap : ∀ accounts, e ≠ .accountSnapshot accounts) : Queued s [e] where
  adds := ⟨fun a f space path name he => Or.inl (hadd a f space path name he), trivial⟩
  removed a f name path h := absurd (List.mem_singleton.mp h).symm (hremoved a f name path)
  noSnapshot accounts h := absurd (List.mem_singleton.mp h).symm (hsnap accounts)

lemma queued_account {account : AccountConfig} : Queued s [accountEvent account] :=
  queued_singleton (fun _ _ _ _ _ he => nomatch he) (fun _ _ _ _ he => nomatch he)
    (fun _ he => nomatch he)

lemma queued_folder {folder : FolderConfig} (h : folder.id ∈ s.config.folderIds a) :
    Queued s [folderEvent a folder] := by
  refine queued_singleton (fun _ _ _ _ _ he => ?_) (fun _ _ _ _ he => nomatch he)
    (fun _ he => nomatch he)
  cases he
  exact h

lemma queued_unlisted {e : Protocol.DaemonEvent} (he : listed e = false) : Queued s [e] := by
  refine queued_singleton (fun a f space path name h => ?_) (fun a f name path h => ?_)
    (fun accounts h => ?_)
  all_goals
    rw [h] at he
    cases he

lemma queued_removed {accountId : Uuid} {ids : List Uuid} {events : List Protocol.DaemonEvent}
    {c : Client} (hsound : Sound s)
    (h : ∀ e ∈ events, e ∈ removedEvents s.config accountId ids) :
    Queued { s with config := SpacePoller.remove s.config accountId ids, client := c } events where
  adds := by
    refine AddsHold.of_not_added (fun a f space path name hm => ?_)
    obtain ⟨x, -, hx⟩ := List.mem_map.mp (h _ hm)
    cases hx
  removed a f name path hm := by
    obtain ⟨x, hx, he⟩ := List.mem_map.mp (h _ hm)
    cases he
    obtain ⟨hf, hid⟩ := mem_toRemove.mp (List.mem_map_of_mem hx)
    refine ⟨hsound.usedFolders accountId x.id hf, ?_⟩
    rw [folderIds_remove, if_pos rfl, List.mem_filter, hid]
    simp
  noSnapshot accounts hm := by
    obtain ⟨x, -, hx⟩ := List.mem_map.mp (h _ hm)
    cases hx

/-- What a poller takes out of the configuration, it tells. -/
lemma mem_remove_or_told {accountId : Uuid} {ids : List Uuid} (hf : f ∈ s.config.folderIds a) :
    f ∈ (SpacePoller.remove s.config accountId ids).folderIds a ∨
      ∃ name path, .spaceRemoved a f name path ∈ removedEvents s.config accountId ids := by
  by_cases hkept : f ∈ (SpacePoller.remove s.config accountId ids).folderIds a
  · exact Or.inl hkept
  · rw [folderIds_remove] at hkept
    split at hkept
    · rename_i ha
      subst ha
      have hm : f ∈ (SpacePoller.toRemove s.config a ids).map FolderConfig.id := by
        rw [mem_toRemove]
        simpa [hf] using hkept
      obtain ⟨x, hx, rfl⟩ := List.mem_map.mp hm
      exact Or.inr ⟨x.displayName, x.localPath, List.mem_map_of_mem hx⟩
    · exact absurd hf hkept

/-- A new folder is in no event of the queue. -/
lemma Queued.pushFolder {queue : List Protocol.DaemonEvent} {folder : FolderConfig}
    {untold : List (Uuid × FolderConfig)} (hq : Queued s queue)
    (hnew : folder.id ∉ s.usedFolders) :
    Queued { s with config := s.config.pushFolder a folder
                    usedFolders := folder.id :: s.usedFolders
                    untoldFolders := untold } (queue ++ []) := by
  refine hq.receive (fun b f hf => Or.inl (folderIds_subset_pushFolder hf))
    (fun _ hf => List.mem_cons_of_mem _ hf) (fun b f hf => ?_) queued_nil
  rcases mem_folderIds_pushFolder hf with hf | rfl
  · exact Or.inl hf
  · exact Or.inr hnew

/-- A poller tells what it removes. -/
lemma Queued.removeSpaces {queue : List Protocol.DaemonEvent} {c : Client} (hq : Queued s queue)
    (hsound : Sound s) (accountId : Uuid) (ids : List Uuid) :
    Queued { s with config := SpacePoller.remove s.config accountId ids, client := c }
      (queue ++ removedEvents s.config accountId ids) :=
  hq.receive (fun _ _ hf => mem_remove_or_told hf) (fun _ hf => hf)
    (fun _ _ hf => Or.inl (folderIds_remove_sublist.subset hf))
    (queued_removed hsound (fun _ he => he))

/-- A dismissed space is no account and no folder. -/
lemma Lists.dismissSpace (hl : Lists s app) (accountId : Uuid) (spaceId : Str) :
    Lists { s with config := s.config.dismissSpace accountId spaceId } app where
  accounts := by
    rw [AppConfig.accountIds_dismissSpace]
    exact hl.accounts
  folders a := by
    rw [AppConfig.folderIds_dismissSpace]
    exact hl.folders a
  parents x hx f hf := by
    rw [AppConfig.folderIds_dismissSpace] at hf
    exact hl.parents x hx f hf

lemma Client.receive_nil (c : Client) : c.receive [] = c := by
  cases c with
  | away => rfl
  | subscribed queue => exact congrArg Client.subscribed (List.append_nil queue)
  | live inbox => exact congrArg Client.live (List.append_nil inbox)

/-- A step of the daemon, by what it broadcasts. -/
lemma Inv.receive {events : List Protocol.DaemonEvent} (h : Inv s) (hsound : Sound s')
    (hclient : s'.client = s.client.receive events) (happ : s'.app = s.app)
    (hq : ∀ queue, s.client = .subscribed queue → Queued s queue → Queued s' (queue ++ events))
    (hl : ∀ inbox, s.client = .live inbox → ∀ app, Lists s app →
      Lists s' (events.foldl handleEvent app)) : Inv s' := by
  refine ⟨hsound, ?_⟩
  have hinv := h.2
  rw [hclient]
  cases hc : s.client with
  | away => trivial
  | subscribed queue =>
      rw [hc] at hinv
      exact hq queue hc hinv
  | live inbox =>
      rw [hc] at hinv
      change Lists s' ((inbox ++ events).foldl handleEvent s'.app)
      rw [List.foldl_append, happ]
      exact hl inbox hc _ hinv

lemma inv_step (h : Inv s) (hs : Step s act s') (hord : Orderly s act) : Inv s' := by
  have hsound := h.1
  have hsound' := sound_step hsound hs
  cases hs with
  | signIn account saved hnew hempty hdup =>
      have hnot : account.id ∉ s.config.accountIds := fun hm => hnew (hsound.usedAccounts _ hm)
      refine h.receive hsound' (Client.receive_nil _).symm rfl (fun queue _ hq => ?_)
        (fun inbox hc app hl => ?_)
      · exact hq.append (fun _ => AppConfig.folderIds_pushAccount hempty) rfl queued_nil
      · cases saved with
        | false => exact absurd hc (hord rfl inbox)
        | true => exact hl.signIn hnot hempty
  | tellAccount hmem =>
      refine h.receive hsound' rfl rfl (fun queue _ hq => ?_) (fun inbox _ app hl => ?_)
      · exact hq.append (fun _ => rfl) rfl queued_account
      · exact hl.tellAccount hsound hmem _
  | pushFolder accountId folder hacc hnew =>
      refine h.receive hsound' (Client.receive_nil _).symm rfl (fun queue _ hq => ?_)
        (fun inbox _ app hl => ?_)
      · exact hq.pushFolder hnew
      · exact hl.pushFolder hsound hnew
  | tellFolder hmem =>
      refine h.receive hsound' rfl rfl (fun queue hc hq => ?_) (fun inbox hc app hl => ?_)
      · refine hq.append (fun _ => rfl) rfl (queued_folder ?_)
        exact hord.1 (by rw [hc]; exact fun he => nomatch he)
      · exact hl.tellFolder hsound hmem (hord.1 (by rw [hc]; exact fun he => nomatch he))
          (hord.2 ⟨inbox, hc⟩) _
  | removeSpaces accountId ids =>
      refine h.receive hsound' rfl rfl (fun queue _ hq => ?_) (fun inbox _ app hl => ?_)
      · exact hq.removeSpaces hsound accountId ids
      · exact hl.removeSpaces accountId ids _
  | removeSpacesMeanwhile accountId ids told hc =>
      exact ⟨hsound', queued_removed hsound (fun _ he => List.mem_of_mem_drop he)⟩
  | dismissSpace accountId spaceId =>
      refine h.receive hsound' (Client.receive_nil _).symm rfl (fun queue _ hq => ?_)
        (fun inbox _ app hl => hl.dismissSpace accountId spaceId)
      exact hq.append (fun _ => AppConfig.folderIds_dismissSpace) rfl queued_nil
  | broadcast e he =>
      refine h.receive hsound' rfl rfl (fun queue _ hq => ?_) (fun inbox _ app hl => hl.quiet he _)
      exact hq.append (fun _ => rfl) rfl (queued_unlisted he)
  | schedule scheduler =>
      refine h.receive hsound' (Client.receive_nil _).symm rfl (fun queue _ hq => ?_)
        (fun inbox _ app hl => ⟨hl.accounts, hl.folders, hl.parents⟩)
      exact hq.append (fun _ => rfl) rfl queued_nil
  | subscribe hc => exact ⟨hsound', queued_nil⟩
  | snapshot hc =>
      have hinv := h.2
      rw [hc] at hinv
      exact ⟨hsound', hinv.snapshot hsound hc hord _⟩
  | handle hc =>
      have hinv := h.2
      rw [hc] at hinv
      exact ⟨hsound', hinv.accounts, hinv.folders, hinv.parents⟩
  | disconnect => exact ⟨hsound', trivial⟩

lemma Starts.inv (h : Starts s) : Inv s := by
  refine ⟨h.sound, ?_⟩
  rw [h.client]
  trivial

/-- **A client gets a consistent view in every orderly run**: once everything has been told and
handled, its GUI lists the accounts and folders of the configuration, each once. -/
theorem consistent_of_orderly {s₀ s : Session} (h₀ : Starts s₀)
    (hrun : Relation.ReflTransGen OrderlyStep s₀ s) (hsettled : Settled s) : Consistent s := by
  have hinv : Inv s := Runs.invariant (fun _ _ h ⟨_, hs, hord⟩ => inv_step h hs hord) h₀.inv hrun
  have hlists := hinv.2
  rw [hsettled.client] at hlists
  refine ⟨hlists.accounts.congr (fun a => ?_), fun a => (hlists.folders a).congr (fun f => ?_)⟩
  · simp [hsettled.untoldAccounts]
  · simp [Untold, hsettled.untoldFolders]

/-! ## An account between subscription and snapshot -/

/-- The account of a sign-in that the GUI joins in the middle of. -/
def carol : AccountConfig where
  id := 1
  url := "https://ocis.example.com".toList
  userId := "carol".toList
  username := []
  displayName := "Carol".toList

/-- Nobody has signed in, and nobody is connected. -/
def empty : Session where
  config := {}
  scheduler := SyncScheduler.new []
  untoldAccounts := []
  untoldFolders := []
  usedAccounts := []
  usedFolders := []
  client := .away
  app := ⟨[]⟩

lemma empty_starts : Starts empty where
  accountIds := List.nodup_nil
  folderIds _ := List.nodup_nil
  usedAccounts _ h := nomatch h
  usedFolders _ _ h := nomatch h
  untoldAccounts := rfl
  untoldFolders := rfl
  client := rfl

/-- Carol has signed in, and has not been told. -/
def pushed (s : Session) : Session :=
  { s with config := s.config.pushAccount carol, usedAccounts := carol.id :: s.usedAccounts
           untoldAccounts := s.untoldAccounts ++ [carol] }

/-- The GUI has subscribed, … -/
def subscribed (s : Session) : Session := { s with client := .subscribed [] }

/-- … it gets the snapshot, … -/
def snapshotted (s : Session) : Session :=
  { s with client := .live [OwncloudSync.snapshot s.config s.scheduler] }

/-- … the daemon tells of the account, … -/
def told (s : Session) : Session :=
  { s with untoldAccounts := s.untoldAccounts.erase carol
           client := s.client.receive [accountEvent carol] }

/-- … and the GUI handles what it was sent first. -/
def handled (s : Session) : Session :=
  match s.client with
  | .live (e :: inbox) => { s with client := .live inbox, app := handleEvent s.app e }
  | _ => s

/-- Carol signs in after the snapshot. -/
def later : Session := (handled (handled (told (pushed (snapshotted (subscribed empty))))))

lemma later_run : Relation.ReflTransGen OrderlyStep empty later := by
  have hsubscribe : OrderlyStep empty (subscribed empty) := ⟨.subscribe, .subscribe rfl, trivial⟩
  have hsnapshot : OrderlyStep (subscribed empty) (snapshotted (subscribed empty)) := by
    refine ⟨.snapshot, .snapshot rfl, rfl, (fun p hp => nomatch hp), fun queue hq => ?_⟩
    cases hq
    exact ⟨(fun _ _ _ _ h => nomatch h), (fun _ _ _ _ _ h => nomatch h)⟩
  have hpush : OrderlyStep (snapshotted (subscribed empty))
      (pushed (snapshotted (subscribed empty))) := by
    refine ⟨.signIn carol true, .signIn carol true ?_ rfl ?_, fun h => nomatch h⟩
    · exact fun h => nomatch h
    · exact fun a h => nomatch h
  have htell : OrderlyStep (pushed (snapshotted (subscribed empty)))
      (told (pushed (snapshotted (subscribed empty)))) :=
    ⟨.tellAccount carol, .tellAccount (List.mem_singleton_self carol), trivial⟩
  have hfirst : OrderlyStep (told (pushed (snapshotted (subscribed empty))))
      (handled (told (pushed (snapshotted (subscribed empty))))) := ⟨.handle, .handle rfl, trivial⟩
  have hsecond : OrderlyStep (handled (told (pushed (snapshotted (subscribed empty))))) later :=
    ⟨.handle, .handle rfl, trivial⟩
  exact (((((Relation.ReflTransGen.single hsubscribe).tail hsnapshot).tail hpush).tail htell).tail
    hfirst).tail hsecond

/-- The GUI lists an account that is signed in after the snapshot. -/
theorem later_consistent : Settled later ∧ Consistent later := by
  have hsettled : Settled later := ⟨rfl, rfl, rfl⟩
  exact ⟨hsettled, consistent_of_orderly empty_starts later_run hsettled⟩

/-- Carol signs in before the snapshot, and is told after it. -/
def meanwhile : Session := handled (handled (told (snapshotted (subscribed (pushed empty)))))

lemma meanwhile_run : Relation.ReflTransGen Next empty meanwhile := by
  have hpush : Next empty (pushed empty) := by
    refine ⟨.signIn carol true, .signIn carol true ?_ rfl ?_⟩
    · exact fun h => nomatch h
    · exact fun a h => nomatch h
  have hsubscribe : Next (pushed empty) (subscribed (pushed empty)) := ⟨.subscribe, .subscribe rfl⟩
  have hsnapshot : Next (subscribed (pushed empty)) (snapshotted (subscribed (pushed empty))) :=
    ⟨.snapshot, .snapshot rfl⟩
  have htell : Next (snapshotted (subscribed (pushed empty)))
      (told (snapshotted (subscribed (pushed empty)))) :=
    ⟨.tellAccount carol, .tellAccount (List.mem_singleton_self carol)⟩
  have hfirst : Next (told (snapshotted (subscribed (pushed empty))))
      (handled (told (snapshotted (subscribed (pushed empty))))) := ⟨.handle, .handle rfl⟩
  have hsecond : Next (handled (told (snapshotted (subscribed (pushed empty))))) meanwhile :=
    ⟨.handle, .handle rfl⟩
  exact (((((Relation.ReflTransGen.single hpush).tail hsubscribe).tail hsnapshot).tail htell).tail
    hfirst).tail hsecond

/-- **The account is listed twice.** -/
theorem meanwhile_listed_twice : ¬ ∀ s₀ s, Starts s₀ → Relation.ReflTransGen Next s₀ s →
    Settled s → Consistent s := by
  intro h
  have hcons := h empty meanwhile empty_starts meanwhile_run ⟨rfl, rfl, rfl⟩
  have hnodup : meanwhile.app.accountIds.Nodup := hcons.accounts.1
  revert hnodup
  decide

end Session

end OwncloudSync
