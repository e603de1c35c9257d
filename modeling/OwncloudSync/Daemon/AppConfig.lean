import OwncloudSync.Daemon.Scheduler
import OwncloudSync.Lib.Keyed
import Mathlib.Data.List.Flatten
import Mathlib.Tactic.Common

/-!
# The configuration of the daemon

`AppConfig` (`config.rs`): the accounts, and for each of them the folders that are synced.  The
GUI commands, the sign-ins and the space pollers change it, each in one go under its lock; this
file has the changes, as the handlers make them.

The folders of an account are found through the account's id, and of several accounts with one id
the first is meant.
-/

namespace OwncloudSync

/-- `ServerType`. -/
inductive ServerType where
  | ocis
  | classic
  deriving DecidableEq

/-- `GeneralConfig`, with its defaults. -/
structure GeneralConfig where
  logLevel : Str := "info".toList
  notificationEnabled : Bool := true
  pollIntervalSecs : UInt64 := 30
  spacePollIntervalSecs : UInt64 := 300
  insecure : Bool := false
  deriving DecidableEq

/-- `FolderConfig`. -/
structure FolderConfig where
  id : Uuid
  localPath : Str
  spaceId : Str
  displayName : Str
  selectiveSyncExcluded : List Str := []
  vfsMode : Str := "off".toList
  paused : Bool := false
  deriving DecidableEq

/-- `AccountConfig`. -/
structure AccountConfig where
  id : Uuid
  url : Str
  userId : Str := []
  username : Str
  displayName : Str
  serverType : ServerType := .ocis
  folder : List FolderConfig := []
  dismissedSpaces : List Str := []
  deriving DecidableEq

/-- `AppConfig`, what the config file holds. -/
structure AppConfig where
  general : GeneralConfig := {}
  account : List AccountConfig := []
  deriving DecidableEq

namespace AppConfig

/-- `cfg.account.iter().find(|a| a.id == account_id)`. -/
def findAccount (cfg : AppConfig) (accountId : Uuid) : Option AccountConfig :=
  Keyed.find AccountConfig.id accountId cfg.account

/-- `cfg.account.iter_mut().find(|a| a.id == account_id)`, then a change of what it finds. -/
def modifyAccount (cfg : AppConfig) (accountId : Uuid) (f : AccountConfig → AccountConfig) :
    AppConfig :=
  { cfg with account := Keyed.modify AccountConfig.id accountId f cfg.account }

/-- `acc.folder.push(new_folder)` of `SetAccountFolders` and `AddAccountSpace`. -/
def pushFolder (cfg : AppConfig) (accountId : Uuid) (folder : FolderConfig) : AppConfig :=
  cfg.modifyAccount accountId (fun a => { a with folder := a.folder ++ [folder] })

/-- `account.folder.retain(..)` of a space poller. -/
def retainFolders (cfg : AppConfig) (accountId : Uuid) (keep : FolderConfig → Bool) : AppConfig :=
  cfg.modifyAccount accountId (fun a => { a with folder := a.folder.filter keep })

/-- `DismissSpace`. -/
def dismissSpace (cfg : AppConfig) (accountId : Uuid) (spaceId : Str) : AppConfig :=
  cfg.modifyAccount accountId (fun a =>
    if a.dismissedSpaces.contains spaceId then a
    else { a with dismissedSpaces := a.dismissedSpaces ++ [spaceId] })

/-- `RemoveAccount`. -/
def removeAccount (cfg : AppConfig) (accountId : Uuid) : AppConfig :=
  { cfg with account := cfg.account.filter (fun a => a.id ≠ accountId) }

/-- `cfg.account.push(..)` of a sign-in. -/
def pushAccount (cfg : AppConfig) (account : AccountConfig) : AppConfig :=
  { cfg with account := cfg.account ++ [account] }

/-- `initial_config.account.iter().flat_map(|a| a.folder.clone())`. -/
def folders (cfg : AppConfig) : List FolderConfig := cfg.account.flatMap AccountConfig.folder

variable {cfg : AppConfig} {accountId : Uuid} {folder f : FolderConfig} {a : AccountConfig}
  {g : AccountConfig → AccountConfig}

/-! ## What a change does to the accounts -/

/-- A change of an account that keeps its id keeps which accounts there are. -/
lemma isSome_findAccount_modifyAccount (hg : ∀ a, (g a).id = a.id) (id : Uuid) :
    ((cfg.modifyAccount accountId g).findAccount id).isSome = (cfg.findAccount id).isSome := by
  by_cases hid : id = accountId
  · rw [hid, findAccount, modifyAccount, Keyed.find_modify_self hg, Option.isSome_map]
    rfl
  · rw [findAccount, modifyAccount, Keyed.find_modify_ne hg hid]
    rfl

lemma isSome_findAccount_pushAccount {id : Uuid} (h : (cfg.findAccount id).isSome = true) :
    ((cfg.pushAccount a).findAccount id).isSome = true := by
  rw [findAccount, pushAccount, Keyed.find_append, Option.isSome_or]
  exact Bool.or_eq_true_iff.mpr (Or.inl h)

/-! ## What a change does to the folders -/

lemma mem_folders : f ∈ cfg.folders ↔ ∃ a ∈ cfg.account, f ∈ a.folder := List.mem_flatMap

/-- The folders around an account that is changed. -/
lemma folders_modifyAccount (h : cfg.findAccount accountId = some a) :
    ∃ l₁ l₂, cfg.folders = l₁ ++ (a.folder ++ l₂) ∧
      ∀ g, (cfg.modifyAccount accountId g).folders = l₁ ++ ((g a).folder ++ l₂) := by
  obtain ⟨as, bs, hl, hmod⟩ := Keyed.modify_split h
  refine ⟨as.flatMap AccountConfig.folder, bs.flatMap AccountConfig.folder, ?_, fun g => ?_⟩
  · simp only [folders, hl, List.flatMap_append, List.flatMap_cons]
  · simp only [folders, modifyAccount, hmod, List.flatMap_append, List.flatMap_cons]

lemma modifyAccount_of_findAccount_eq_none (h : cfg.findAccount accountId = none) :
    cfg.modifyAccount accountId g = cfg := by
  rw [modifyAccount, Keyed.modify_of_find_eq_none h]

lemma pushFolder_of_findAccount_eq_none (h : cfg.findAccount accountId = none) :
    cfg.pushFolder accountId folder = cfg := modifyAccount_of_findAccount_eq_none h

/-- A folder is pushed where its account is. -/
lemma folders_pushFolder (h : (cfg.findAccount accountId).isSome = true) :
    (cfg.pushFolder accountId folder).folders.Perm (folder :: cfg.folders) := by
  obtain ⟨a, ha⟩ := Option.isSome_iff_exists.mp h
  obtain ⟨l₁, l₂, hfold, hmod⟩ := folders_modifyAccount ha
  rw [pushFolder, hmod, hfold]
  dsimp only
  rw [List.append_assoc, ← List.append_assoc, ← List.append_assoc l₁]
  exact List.perm_middle

lemma folders_dismissSpace (cfg : AppConfig) (accountId : Uuid) (spaceId : Str) :
    (cfg.dismissSpace accountId spaceId).folders = cfg.folders := by
  cases h : cfg.findAccount accountId with
  | none => rw [dismissSpace, modifyAccount_of_findAccount_eq_none h]
  | some a =>
      obtain ⟨l₁, l₂, hfold, hmod⟩ := folders_modifyAccount h
      rw [dismissSpace, hmod, hfold]
      split
      · rfl
      · rfl

lemma folders_removeAccount (cfg : AppConfig) (accountId : Uuid) :
    (cfg.removeAccount accountId).folders.Sublist cfg.folders :=
  List.filter_sublist.flatMap _

lemma folders_retainFolders (cfg : AppConfig) (accountId : Uuid) (keep : FolderConfig → Bool) :
    (cfg.retainFolders accountId keep).folders.Sublist cfg.folders := by
  cases h : cfg.findAccount accountId with
  | none => rw [retainFolders, modifyAccount_of_findAccount_eq_none h]
  | some a =>
      obtain ⟨l₁, l₂, hfold, hmod⟩ := folders_modifyAccount h
      rw [retainFolders, hmod, hfold]
      exact (List.Sublist.refl l₁).append (List.filter_sublist.append (List.Sublist.refl l₂))

lemma folders_pushAccount (h : a.folder = []) : (cfg.pushAccount a).folders = cfg.folders := by
  simp [folders, pushAccount, h]

end AppConfig

end OwncloudSync
