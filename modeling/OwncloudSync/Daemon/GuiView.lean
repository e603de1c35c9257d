import OwncloudSync.Daemon.AppConfig
import OwncloudSync.Daemon.GuiStatus
import OwncloudSync.Daemon.Protocol
import Mathlib.Data.List.Count
import Mathlib.Tactic.Common

/-!
# What the GUI lists

`handle_daemon_event` (`gui/src/app.rs`) for every event, as far as it changes the accounts and
folders on the screen, and the snapshot a new client is given (`main.rs`).

The reducer **trusts the events**: `AccountAddCompleted` and `AccountFolderAdded` push whatever they
name, also what is there already, and an event for an account that is not there is dropped.  What an
event does to the ids is said once for each event (`accountIds_*`, `folderIds_*`).
-/

namespace OwncloudSync

/-- `SyncScheduler::folder_status`. -/
def SyncScheduler.folderStatus (s : SyncScheduler) (id : Uuid) : Option Str :=
  (s id).map (fun st =>
    if st.paused then "paused".toList else if st.running then "syncing".toList else "idle".toList)

/-! ## Lists of ids, each once -/

namespace Daemon.Enumerates

variable {l : List Uuid} {P Q : Uuid → Prop} {x : Uuid}

lemma congr (h : Enumerates l P) (hPQ : ∀ y, P y ↔ Q y) : Enumerates l Q :=
  ⟨h.1, fun y => (h.2 y).trans (hPQ y)⟩

lemma concat (h : Enumerates l P) (hx : ¬ P x) : Enumerates (l ++ [x]) (fun y => P y ∨ y = x) := by
  refine ⟨List.Nodup.append h.1 (List.nodup_singleton x) ?_, fun y => ?_⟩
  · rw [List.disjoint_singleton, h.2]
    exact hx
  · rw [List.mem_append, List.mem_singleton, h.2]

lemma filter (h : Enumerates l P) (keep : Uuid → Bool) :
    Enumerates (l.filter keep) (fun y => P y ∧ keep y = true) :=
  ⟨h.1.filter _, fun y => by rw [List.mem_filter, h.2]⟩

end Daemon.Enumerates

namespace AppConfig

/-- The accounts of the config. -/
def accountIds (cfg : AppConfig) : List Uuid := cfg.account.map AccountConfig.id

/-- The folders of the account of that id. -/
def folderIds (cfg : AppConfig) (accountId : Uuid) : List Uuid :=
  ((cfg.findAccount accountId).map (fun a => a.folder.map FolderConfig.id)).getD []

variable {cfg : AppConfig} {accountId a : Uuid} {g : AccountConfig → AccountConfig}
  {account : AccountConfig}

lemma mem_accountIds : a ∈ cfg.accountIds ↔ (cfg.findAccount a).isSome = true := by
  rw [findAccount, Keyed.find_isSome]
  simp [accountIds]

lemma mem_accountIds_of_mem_folderIds {f : Uuid} (h : f ∈ cfg.folderIds a) : a ∈ cfg.accountIds := by
  rw [mem_accountIds]
  rw [folderIds] at h
  cases hfind : cfg.findAccount a with
  | some x => rfl
  | none =>
      rw [hfind] at h
      cases h

lemma accountIds_modifyAccount (hg : ∀ a, (g a).id = a.id) :
    (cfg.modifyAccount accountId g).accountIds = cfg.accountIds :=
  Keyed.map_modify AccountConfig.id hg

lemma accountIds_pushAccount : (cfg.pushAccount account).accountIds = cfg.accountIds ++ [account.id] := by
  simp [accountIds, pushAccount]

/-- A new account has no folders, and hides none. -/
lemma folderIds_pushAccount (h : account.folder = []) :
    (cfg.pushAccount account).folderIds a = cfg.folderIds a := by
  simp only [folderIds, findAccount, pushAccount, Keyed.find_append]
  cases Keyed.find AccountConfig.id a cfg.account with
  | some x => rfl
  | none =>
      by_cases ha : account.id = a
      · simp [Keyed.find, ha, h]
      · simp [Keyed.find, ha]

lemma folderIds_modifyAccount (hg : ∀ a, (g a).id = a.id) :
    (cfg.modifyAccount accountId g).folderIds a =
      if a = accountId then
        ((cfg.findAccount a).map (fun x => (g x).folder.map FolderConfig.id)).getD []
      else cfg.folderIds a := by
  simp only [folderIds, findAccount, modifyAccount]
  by_cases ha : a = accountId
  · rw [if_pos ha, ha, Keyed.find_modify_self hg, Option.map_map]
    rfl
  · rw [if_neg ha, Keyed.find_modify_ne hg ha]

lemma accountIds_pushFolder {folder : FolderConfig} :
    (cfg.pushFolder accountId folder).accountIds = cfg.accountIds :=
  accountIds_modifyAccount (by intro; rfl)

lemma folderIds_pushFolder {folder : FolderConfig} :
    (cfg.pushFolder accountId folder).folderIds a =
      if a = accountId ∧ accountId ∈ cfg.accountIds then cfg.folderIds a ++ [folder.id]
      else cfg.folderIds a := by
  rw [pushFolder, folderIds_modifyAccount (by intro; rfl)]
  by_cases ha : a = accountId
  · subst ha
    rw [if_pos rfl]
    cases h : cfg.findAccount a with
    | none => simp [mem_accountIds, folderIds, h]
    | some x => simp [mem_accountIds, folderIds, h]
  · rw [if_neg ha, if_neg (fun h => ha h.1)]

lemma accountIds_retainFolders {keep : FolderConfig → Bool} :
    (cfg.retainFolders accountId keep).accountIds = cfg.accountIds :=
  accountIds_modifyAccount (by intro; rfl)

lemma accountIds_dismissSpace {spaceId : Str} :
    (cfg.dismissSpace accountId spaceId).accountIds = cfg.accountIds :=
  accountIds_modifyAccount (fun a => by split <;> rfl)

lemma folderIds_dismissSpace {spaceId : Str} :
    (cfg.dismissSpace accountId spaceId).folderIds a = cfg.folderIds a := by
  rw [dismissSpace, folderIds_modifyAccount (fun a => by split <;> rfl)]
  by_cases ha : a = accountId
  · rw [if_pos ha, folderIds]
    congr 1
    refine congrFun (congrArg _ (funext (fun x => ?_))) _
    split <;> rfl
  · rw [if_neg ha]

end AppConfig

/-- The snapshot provider of `main.rs`. -/
def snapshot (cfg : AppConfig) (scheduler : SyncScheduler) : Protocol.DaemonEvent :=
  .accountSnapshot (cfg.account.map (fun a =>
    ⟨a.id, a.url, a.displayName, a.folder.map (fun f =>
      ⟨f.id, f.spaceId, f.displayName, f.localPath,
        (scheduler.folderStatus f.id).getD "idle".toList⟩)⟩))

namespace Gui

/-- The status of a folder in a snapshot. -/
def FolderStatus.ofSnapshot (status : Str) : FolderStatus :=
  if status = "syncing".toList then .syncing
  else if status = "paused".toList then .paused
  else .idle

/-- A folder of a snapshot. -/
def FolderView.ofSnapshot (f : Protocol.FolderSnapshot) : FolderView where
  id := f.folderId
  spaceId := String.ofList f.spaceId
  displayName := String.ofList f.displayName
  localPath := String.ofList f.localPath
  status := .ofSnapshot f.status
  progress := none
  errors := []

/-- An account of a snapshot. -/
def AccountView.ofSnapshot (a : Protocol.AccountSnapshot) : AccountView where
  id := a.accountId
  url := String.ofList a.url
  displayName := String.ofList a.displayName
  folders := a.folders.map FolderView.ofSnapshot

/-- `handle_daemon_event`, for every event. -/
def handleEvent (app : App) : Protocol.DaemonEvent → App
  | .syncStarted folderId => handleDaemonEvent app (.syncStarted folderId)
  | .syncProgress folderId done total =>
      ⟨modifyFolder folderId (fun v => { v with progress := some (done, total) }) app.accounts⟩
  | .syncFinished folderId errors _ =>
      handleDaemonEvent app (.syncFinished folderId (errors.map String.ofList) none)
  | .accountAddCompleted accountId _ displayName url =>
      ⟨app.accounts ++ [⟨accountId, String.ofList url, String.ofList displayName, []⟩]⟩
  | .accountFolderAdded accountId folderId spaceId localPath displayName =>
      ⟨Keyed.modify AccountView.id accountId (fun a => { a with folders := a.folders ++
        [⟨folderId, String.ofList spaceId, String.ofList displayName, String.ofList localPath, .idle,
          none, []⟩] }) app.accounts⟩
  | .spaceRemoved accountId folderId _ _ =>
      ⟨Keyed.modify AccountView.id accountId
        (fun a => { a with folders := a.folders.filter (fun v => v.id ≠ folderId) }) app.accounts⟩
  | .accountSnapshot accounts => ⟨accounts.map AccountView.ofSnapshot⟩
  -- these change the view that is open, or are logged only
  | .ready => app
  | .fileStatusChanged _ _ => app
  | .accountStateChanged _ _ => app
  | .accountAddStarted _ => app
  | .accountAddFailed _ _ => app
  | .accountSpaceFailed _ _ => app
  | .spacesListed _ _ => app
  | .spaceDiscovered _ _ _ _ => app

/-- `set_folder_status`. -/
def setFolderStatus (app : App) (folderId : Uuid) (status : FolderStatus) : App :=
  ⟨modifyFolder folderId (fun v => { v with status := status }) app.accounts⟩

/-- What is shown of a folder. -/
def statusOf (app : App) (folderId : Uuid) : Option FolderStatus :=
  (findFolder app folderId).map (·.status)

/-! ## The ids on the screen -/

namespace App

/-- The accounts the GUI shows. -/
def accountIds (app : App) : List Uuid := app.accounts.map AccountView.id

/-- The folders of the account of that id. -/
def folderIds (app : App) (accountId : Uuid) : List Uuid :=
  ((Keyed.find AccountView.id accountId app.accounts).map
    (fun a => a.folders.map FolderView.id)).getD []

end App

/-- The event changes which accounts and folders are listed. -/
def listed : Protocol.DaemonEvent → Bool
  | .accountAddCompleted _ _ _ _ => true
  | .accountFolderAdded _ _ _ _ _ => true
  | .spaceRemoved _ _ _ _ => true
  | .accountSnapshot _ => true
  | _ => false

variable {app : App} {a b f : Uuid} {e : Protocol.DaemonEvent} {g : FolderView → FolderView}

/-- A change of one folder that keeps its id keeps all ids. -/
lemma map_modifyFolder (hg : ∀ v, (g v).id = v.id) (accounts : List AccountView) :
    (modifyFolder f g accounts).map (fun a => (a.id, a.folders.map FolderView.id)) =
      accounts.map (fun a => (a.id, a.folders.map FolderView.id)) := by
  induction accounts with
  | nil => rfl
  | cons a accounts ih =>
      rw [modifyFolder]
      split
      · simp [Keyed.map_modify FolderView.id hg]
      · rw [List.map_cons, List.map_cons, ih]

/-- The events of the main loop keep all ids. -/
lemma map_handleDaemonEvent (app : App) (e : DaemonEvent) :
    (handleDaemonEvent app e).accounts.map (fun a => (a.id, a.folders.map FolderView.id)) =
      app.accounts.map (fun a => (a.id, a.folders.map FolderView.id)) := by
  cases e with
  | syncStarted f => exact map_modifyFolder (by intro; rfl) _
  | syncFinished f errors report =>
      refine map_modifyFolder (fun v => ?_) _
      split <;> rfl
  | accountStateChanged a state => rfl

/-- A change of one folder leaves the others. -/
lemma findFolder_modifyFolder_ne {f' : Uuid} (hg : ∀ v, (g v).id = v.id) (hf : f' ≠ f)
    (accounts : List AccountView) :
    findFolder ⟨modifyFolder f g accounts⟩ f' = findFolder ⟨accounts⟩ f' := by
  simp only [findFolder]
  induction accounts with
  | nil => rfl
  | cons a accounts ih =>
      rw [modifyFolder, List.flatMap_cons, Keyed.find_append]
      split
      · rw [List.flatMap_cons, Keyed.find_append, Keyed.find_modify_ne hg hf]
      · rw [List.flatMap_cons, Keyed.find_append, ih]

lemma statusOf_modifyFolder (hg : ∀ v, (g v).id = v.id) (accounts : List AccountView) :
    statusOf ⟨modifyFolder f g accounts⟩ f = (findFolder ⟨accounts⟩ f).map (fun v => (g v).status) := by
  rw [statusOf, findFolder_modifyFolder hg, Option.map_map]
  rfl

lemma statusOf_modifyFolder_ne {f' : Uuid} (hg : ∀ v, (g v).id = v.id) (hf : f' ≠ f)
    (accounts : List AccountView) :
    statusOf ⟨modifyFolder f g accounts⟩ f' = statusOf ⟨accounts⟩ f' := by
  rw [statusOf, findFolder_modifyFolder_ne hg hf, statusOf]

/-- The ids are a matter of the accounts' ids and their folders' ids. -/
lemma ids_congr {app app' : App}
    (h : app'.accounts.map (fun a => (a.id, a.folders.map FolderView.id)) =
      app.accounts.map (fun a => (a.id, a.folders.map FolderView.id))) :
    app'.accountIds = app.accountIds ∧ ∀ a, app'.folderIds a = app.folderIds a := by
  have hids : ∀ app : App, app.accountIds =
      (app.accounts.map (fun a => (a.id, a.folders.map FolderView.id))).map Prod.fst := by
    intro app
    simp [App.accountIds]
  have hfolders : ∀ (app : App) a, app.folderIds a = ((Keyed.find Prod.fst a
      (app.accounts.map (fun a => (a.id, a.folders.map FolderView.id)))).map Prod.snd).getD [] := by
    intro app a
    simp [App.folderIds, Keyed.find, List.find?_map, Function.comp_def]
  exact ⟨by rw [hids, hids, h], fun a => by rw [hfolders, hfolders, h]⟩

lemma folders_congr {app app' : App}
    (h : app'.accounts.map (fun a => (a.id, a.folders.map FolderView.id)) =
      app.accounts.map (fun a => (a.id, a.folders.map FolderView.id))) :
    (app'.accounts.flatMap AccountView.folders).map FolderView.id =
      (app.accounts.flatMap AccountView.folders).map FolderView.id := by
  have hids : ∀ app : App, (app.accounts.flatMap AccountView.folders).map FolderView.id =
      (app.accounts.map (fun a => (a.id, a.folders.map FolderView.id))).flatMap Prod.snd := by
    intro app
    rw [List.map_flatMap, List.flatMap_map]
  rw [hids, hids, h]

lemma ids_of_not_listed (h : listed e = false) :
    (handleEvent app e).accountIds = app.accountIds ∧
      ∀ a, (handleEvent app e).folderIds a = app.folderIds a := by
  apply ids_congr
  cases e with
  | syncStarted id => exact map_handleDaemonEvent app _
  | syncProgress id done total => exact map_modifyFolder (by intro; rfl) _
  | syncFinished id errors report => exact map_handleDaemonEvent app _
  | accountAddCompleted _ _ _ _ => cases h
  | accountFolderAdded _ _ _ _ _ => cases h
  | spaceRemoved _ _ _ _ => cases h
  | accountSnapshot _ => cases h
  | _ => rfl

lemma accountIds_addCompleted {user name url : Str} :
    (handleEvent app (.accountAddCompleted a user name url)).accountIds = app.accountIds ++ [a] := by
  simp [handleEvent, App.accountIds]

/-- A pushed account has no folders, and hides none. -/
lemma folderIds_addCompleted {user name url : Str} :
    (handleEvent app (.accountAddCompleted a user name url)).folderIds b = app.folderIds b := by
  simp only [handleEvent, App.folderIds, Keyed.find_append]
  cases Keyed.find AccountView.id b app.accounts with
  | some v => rfl
  | none =>
      by_cases hab : a = b
      · simp [Keyed.find, hab]
      · simp [Keyed.find, hab]

lemma accountIds_folderAdded {space path name : Str} :
    (handleEvent app (.accountFolderAdded a f space path name)).accountIds = app.accountIds :=
  Keyed.map_modify AccountView.id (fun _ => rfl)

lemma folderIds_folderAdded {space path name : Str} :
    (handleEvent app (.accountFolderAdded a f space path name)).folderIds b =
      if b = a ∧ a ∈ app.accountIds then app.folderIds b ++ [f] else app.folderIds b := by
  simp only [handleEvent, App.folderIds]
  by_cases hb : b = a
  · subst hb
    rw [Keyed.find_modify_self (by intro; rfl)]
    have hmem : b ∈ app.accountIds ↔ (Keyed.find AccountView.id b app.accounts).isSome = true := by
      simp [App.accountIds, Keyed.find_isSome]
    cases h : Keyed.find AccountView.id b app.accounts with
    | none => simp [hmem, h]
    | some v => simp [hmem, h]
  · rw [Keyed.find_modify_ne (by intro; rfl) hb, if_neg (fun h => hb h.1)]

lemma accountIds_spaceRemoved {name path : Str} :
    (handleEvent app (.spaceRemoved a f name path)).accountIds = app.accountIds :=
  Keyed.map_modify AccountView.id (fun _ => rfl)

lemma folderIds_spaceRemoved {name path : Str} :
    (handleEvent app (.spaceRemoved a f name path)).folderIds b =
      if b = a then (app.folderIds b).filter (fun x => x ≠ f) else app.folderIds b := by
  simp only [handleEvent, App.folderIds]
  by_cases hb : b = a
  · subst hb
    rw [Keyed.find_modify_self (by intro; rfl), if_pos rfl]
    cases Keyed.find AccountView.id b app.accounts with
    | none => rfl
    | some v => simp [List.filter_map, Function.comp_def]
  · rw [Keyed.find_modify_ne (by intro; rfl) hb, if_neg hb]

/-- The snapshot lists the configuration. -/
lemma ids_snapshot (app : App) (cfg : AppConfig) (scheduler : SyncScheduler) :
    (handleEvent app (snapshot cfg scheduler)).accountIds = cfg.accountIds ∧
      ∀ a, (handleEvent app (snapshot cfg scheduler)).folderIds a = cfg.folderIds a := by
  constructor
  · simp [handleEvent, snapshot, App.accountIds, AppConfig.accountIds, AccountView.ofSnapshot]
  · intro a
    simp [handleEvent, snapshot, App.folderIds, AppConfig.folderIds, AppConfig.findAccount,
      Keyed.find, List.find?_map, AccountView.ofSnapshot, FolderView.ofSnapshot, Function.comp_def]

end Gui

end OwncloudSync
