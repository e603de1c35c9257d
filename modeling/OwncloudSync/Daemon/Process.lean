import OwncloudSync.Daemon.Pending
import OwncloudSync.Daemon.SpacePoller
import OwncloudSync.Discovery.Propfind
import OwncloudSync.Lib.LexicalPath
import Mathlib.Tactic.Common

/-!
# The daemon with its accounts

The main loop of `Daemon/MainLoop.lean` together with what it left out: the configuration and its
file, the token managers, the folders of the `FolderManager` with their configuration, the sign-ins
and the space pollers.  A step has a name (`Action`), and is either one of the main loop that
touches none of this (`core`), or one of

* `SetAccountFolders` and `AddAccountSpace`, one space at a time and for each space in three steps:
  the `FolderManager` gets the folder, then the configuration, then the scheduler;
* `RemoveAccount`, `DismissSpace` and `AddAccount`;
* the end of a sign-in, which adds its account if there is none with the same text as URL and the
  same user;
* the three pieces of a `poll_once`.

The last two run in tasks of their own and may come between any two others.  **Every step is at most
one step of the main loop** (`projects`), so what holds in every state of the loop holds here.

A save may fail, and the file then holds whatever it holds.  `Uuid::new_v4` draws ids that have not
been drawn before; `made` and `usedAccounts` remember them, and no step of the code reads these two.
-/

namespace OwncloudSync

open LexicalPath

/-- How `AppConfig::save` ends; a failed one leaves what the file can be loaded as, if at all. -/
inductive SaveResult where
  | ok
  | failed (left : Option AppConfig)
  deriving DecidableEq

/-- A folder a command is about to add. -/
structure NewFolder where
  spaceId : Str
  displayName : Str
  localPath : Str
  /-- `root_path` of `SetAccountFolders` -/
  rootPath : Option Str
  deriving DecidableEq

namespace NewFolder

/-- One space of `SetAccountFolders`. -/
def ofSelection (rootPath : Str) (space : Str × Str) : NewFolder where
  spaceId := space.1
  displayName := space.2
  localPath := joinText rootPath space.2
  rootPath := some rootPath

/-- The space of `AddAccountSpace`. -/
def ofPath (spaceId localPath : Str) : NewFolder where
  spaceId := spaceId
  displayName := (fileName localPath).getD spaceId
  localPath := localPath
  rootPath := none

/-- The folder as it is put into the config. -/
def config (n : NewFolder) (id : Uuid) : FolderConfig where
  id := id
  localPath := n.localPath
  spaceId := n.spaceId
  displayName := n.displayName

end NewFolder

/-- `ManagedFolder`, with the account it was added for. -/
structure ManagedFolder where
  config : FolderConfig
  accountId : Uuid
  rootPath : Option Str

/-- Where `SetAccountFolders` or `AddAccountSpace` stands. -/
inductive Job where
  | idle
  | adding (accountId : Uuid) (todo : List NewFolder)
  /-- the `FolderManager` has the folder -/
  | registered (accountId : Uuid) (folder : FolderConfig) (todo : List NewFolder)
  /-- the configuration has it too -/
  | pushed (accountId : Uuid) (folder : FolderConfig) (todo : List NewFolder)

/-- Where a `poll_once` stands. -/
inductive Poll where
  | idle
  | listing (existing : List FolderConfig) (dismissed : List Str)
  | removing (ids : List Uuid)

/-- An `AddAccount` flow that waits for its callback. -/
structure SignIn where
  accountId : Uuid
  url : Str
  deriving DecidableEq

/-- The text `AddAccount` keeps as the URL of the account: the instance WebFinger names, or else
what was entered, behind `https://`. -/
def addAccountUrl (entered : Str) (resolved : Option Str) : Str :=
  let bare := ((stripPrefix "https://".toList entered).or
    (stripPrefix "http://".toList entered)).getD entered
  resolved.getD ("https://".toList ++ bare)

/-- The daemon with its config, the file of it, and what is under way. -/
structure Process where
  core : Daemon
  config : AppConfig
  /-- what the config file can be loaded as -/
  file : Option AppConfig
  /-- no save has failed -/
  allSaved : Bool
  /-- the accounts in `token_managers` -/
  tokens : Uuid → Bool
  managed : List ManagedFolder
  job : Job
  signIns : List SignIn
  /-- the accounts that have a `SpacePoller` -/
  pollers : Uuid → Bool
  polls : Uuid → Poll
  /-- `emitted_discoveries` of the pollers -/
  emitted : Uuid → List Str
  accountEvents : List AccountEvent
  made : List FolderConfig
  usedAccounts : List Uuid

namespace Process

/-! ## Start-up -/

/-- The folders `FolderManager::init_sync` makes: those of an account whose credentials could be
loaded. -/
def initSync (cfg : AppConfig) (loaded : Uuid → Bool) : List ManagedFolder :=
  cfg.folders.filterMap (fun fc =>
    match cfg.account.find? (fun a => a.folder.any (fun f => f.id = fc.id)) with
    | none => none
    | some a => if loaded a.id then some ⟨fc, a.id, none⟩ else none)

/-- The daemon after start-up.  `ids` are the keys of the `FolderManager`, in some order. -/
def init (cfg : AppConfig) (loaded : Uuid → Bool) (ids : List Uuid) : Process where
  core := Daemon.init ids
  config := cfg
  file := some cfg
  allSaved := true
  tokens id := cfg.account.any (fun a => a.id = id) && loaded id
  managed := initSync cfg loaded
  job := .idle
  signIns := []
  pollers id := cfg.account.any (fun a => a.id = id && a.serverType ≠ .classic) && loaded id
  polls _ := .idle
  emitted _ := []
  accountEvents := []
  made := cfg.folders
  usedAccounts := cfg.account.map AccountConfig.id

/-- The start-up of a daemon with a configuration as a daemon writes it: no id occurs twice. -/
structure Starts (p : Process) : Prop where
  eq_init : ∃ cfg loaded ids, p = init cfg loaded ids ∧
    Daemon.Enumerates ids (fun id => ∃ m ∈ initSync cfg loaded, m.config.id = id)
  folderIds : (p.config.folders.map FolderConfig.id).Nodup
  accountIds : (p.config.account.map AccountConfig.id).Nodup

/-! ## Steps -/

/-- What happens to the process. -/
inductive Action where
  | core
  | setAccountFolders (accountId : Uuid) (rootPath : Str) (spaces : List (Str × Str))
  | addAccountSpace (accountId : Uuid) (spaceId localPath : Str)
  | refuse
  | register (id : Uuid)
  | push (result : SaveResult)
  | schedule
  | added
  | removeAccount (accountId : Uuid) (result : SaveResult)
  | dismissSpace (accountId : Uuid) (spaceId : Str) (result : SaveResult)
  | addAccount (accountId : Uuid) (entered : Str) (resolved : Option Str)
  | signedIn (flow : SignIn) (account : AccountConfig) (result : SaveResult)
  | signInFailed (flow : SignIn)
  | pollAsk (accountId : Uuid)
  | pollFailed (accountId : Uuid)
  | pollListed (accountId : Uuid) (remote : List RemoteSpace)
  | pollRemove (accountId : Uuid) (result : SaveResult)

/-- The loop is in `SetAccountFolders` or `AddAccountSpace`. -/
def inJob : Loop → Bool
  | .adding _ => true
  | .registered _ _ => true
  | _ => false

/-- A step of the main loop or of a sync task that is none of the commands named here. -/
structure Internal (d d' : Daemon) : Prop where
  step : Daemon.Step d d'
  loop : d'.loop = d.loop ∨ inJob d.loop = false ∧ inJob d'.loop = false
  events : ∀ accountId, d'.events ≠ d.events ++ [.accountStateChanged accountId "removed"]

/-- The configuration is changed and saved. -/
def save (p : Process) (cfg : AppConfig) : SaveResult → Process
  | .ok => { p with config := cfg, file := some cfg }
  | .failed left => { p with config := cfg, file := left, allSaved := false }

/-- A poller is somewhere else. -/
def setPoll (p : Process) (accountId : Uuid) (poll : Poll) : Process :=
  { p with polls := fun a => if a = accountId then poll else p.polls a }

/-- One action. -/
inductive Step : Process → Action → Process → Prop
  | core {p : Process} {d : Daemon} (h : Internal p.core d) : Step p .core { p with core := d }
  -- `SetAccountFolders` and `AddAccountSpace`
  | setAccountFolders {p : Process} (accountId : Uuid) (rootPath : Str)
      (spaces : List (Str × Str)) (h : p.core.loop = .select)
      (hacc : (p.config.findAccount accountId).isSome = true) (htok : p.tokens accountId = true) :
      Step p (.setAccountFolders accountId rootPath spaces)
        { p with job := .adding accountId (spaces.map (NewFolder.ofSelection rootPath))
                 core := { p.core with loop := .adding spaces.length } }
  | addAccountSpace {p : Process} (accountId : Uuid) (spaceId localPath : Str)
      (h : p.core.loop = .select) (hacc : (p.config.findAccount accountId).isSome = true)
      (htok : p.tokens accountId = true) :
      Step p (.addAccountSpace accountId spaceId localPath)
        { p with job := .adding accountId [NewFolder.ofPath spaceId localPath]
                 core := { p.core with loop := .adding 1 } }
  | refuse {p : Process} {accountId : Uuid} {n : NewFolder} {todo : List NewFolder}
      (h : p.job = .adding accountId (n :: todo)) :
      Step p .refuse { p with job := .adding accountId todo
                              core := { p.core with loop := .adding todo.length } }
  | register {p : Process} {accountId : Uuid} {n : NewFolder} {todo : List NewFolder} (id : Uuid)
      (h : p.job = .adding accountId (n :: todo))
      (hacc : (p.config.findAccount accountId).isSome = true) (hnew : ∀ f ∈ p.made, f.id ≠ id) :
      Step p (.register id)
        { p with managed := p.managed ++ [⟨n.config id, accountId, n.rootPath⟩]
                 made := p.made ++ [n.config id]
                 job := .registered accountId (n.config id) todo
                 core := { p.core with engines := fun x => decide (x = id) || p.core.engines x
                                       loop := .registered id todo.length } }
  | push {p : Process} {accountId : Uuid} {folder : FolderConfig} {todo : List NewFolder}
      (result : SaveResult) (h : p.job = .registered accountId folder todo) :
      Step p (.push result)
        { p.save (p.config.pushFolder accountId folder) result with
          job := .pushed accountId folder todo }
  | schedule {p : Process} {accountId : Uuid} {folder : FolderConfig} {todo : List NewFolder}
      (h : p.job = .pushed accountId folder todo) :
      Step p .schedule
        { p with job := .adding accountId todo
                 core := { p.core with
                   scheduler := (p.core.scheduler.addFolder folder.id).requestSync folder.id
                   liveFolderIds := p.core.liveFolderIds ++ [folder.id]
                   loop := .adding todo.length }
                 accountEvents := p.accountEvents ++
                   [.accountFolderAdded accountId folder.id folder.spaceId folder.localPath
                     folder.displayName] }
  | added {p : Process} {accountId : Uuid} (h : p.job = .adding accountId []) :
      Step p .added { p with job := .idle, core := { p.core with loop := .select } }
  -- the other commands
  | removeAccount {p : Process} (accountId : Uuid) (result : SaveResult)
      (h : p.core.loop = .select) :
      Step p (.removeAccount accountId result)
        { p.save (p.config.removeAccount accountId) result with
          -- the handler returns before it tells the GUI if the save fails
          core := if result = .ok then
              { p.core with
                events := p.core.events ++ [.accountStateChanged accountId "removed"] }
            else p.core }
  | dismissSpace {p : Process} (accountId : Uuid) (spaceId : Str) (result : SaveResult)
      (h : p.core.loop = .select) (hacc : (p.config.findAccount accountId).isSome = true) :
      Step p (.dismissSpace accountId spaceId result)
        (p.save (p.config.dismissSpace accountId spaceId) result)
  | addAccount {p : Process} (accountId : Uuid) (entered : Str) (resolved : Option Str)
      (h : p.core.loop = .select) (hnew : accountId ∉ p.usedAccounts) :
      Step p (.addAccount accountId entered resolved)
        { p with signIns := p.signIns ++ [⟨accountId, addAccountUrl entered resolved⟩]
                 usedAccounts := p.usedAccounts ++ [accountId] }
  -- the end of a sign-in
  | signedIn {p : Process} {flow : SignIn} (userId displayName : Str) (serverType : ServerType)
      (result : SaveResult) (h : flow ∈ p.signIns)
      (hdup : ∀ a ∈ p.config.account, ¬ (a.url = flow.url ∧ a.userId = userId)) :
      Step p
        (.signedIn flow ⟨flow.accountId, flow.url, userId, [], displayName, serverType, [], []⟩
          result)
        { p.save (p.config.pushAccount
            ⟨flow.accountId, flow.url, userId, [], displayName, serverType, [], []⟩) result with
          signIns := p.signIns.erase flow
          tokens := fun a => if a = flow.accountId then decide (result = .ok) else p.tokens a
          accountEvents := p.accountEvents ++
            if result = .ok then
              [.accountAddCompleted flow.accountId userId displayName flow.url]
            else [] }
  | signInFailed {p : Process} {flow : SignIn} (h : flow ∈ p.signIns) :
      Step p (.signInFailed flow) { p with signIns := p.signIns.erase flow }
  -- a poll
  | pollAsk {p : Process} {accountId : Uuid} {a : AccountConfig}
      (hpoller : p.pollers accountId = true) (h : p.polls accountId = .idle)
      (hacc : p.config.findAccount accountId = some a) :
      Step p (.pollAsk accountId) (p.setPoll accountId (.listing a.folder a.dismissedSpaces))
  | pollFailed {p : Process} {accountId : Uuid} {existing : List FolderConfig}
      {dismissed : List Str} (h : p.polls accountId = .listing existing dismissed) :
      Step p (.pollFailed accountId) (p.setPoll accountId .idle)
  | pollListed {p : Process} {accountId : Uuid} {existing : List FolderConfig}
      {dismissed : List Str} (remote : List RemoteSpace)
      (h : p.polls accountId = .listing existing dismissed) :
      Step p (.pollListed accountId remote)
        { p.setPoll accountId
            (if SpacePoller.removedFolderIds existing remote = [] then .idle
              else .removing (SpacePoller.removedFolderIds existing remote)) with
          emitted := fun a => if a = accountId then
              (SpacePoller.discover accountId (existing.map FolderConfig.spaceId) dismissed remote
                (p.emitted accountId)).1.filter
                (fun s => !(existing.map FolderConfig.spaceId).contains s && !dismissed.contains s)
            else p.emitted a
          accountEvents := p.accountEvents ++
            (SpacePoller.discover accountId (existing.map FolderConfig.spaceId) dismissed remote
              (p.emitted accountId)).2 }
  | pollRemove {p : Process} {accountId : Uuid} {ids : List Uuid} (result : SaveResult)
      (h : p.polls accountId = .removing ids) :
      Step p (.pollRemove accountId result)
        { (p.setPoll accountId .idle).save (SpacePoller.remove p.config accountId ids) result with
          accountEvents := p.accountEvents ++ SpacePoller.removedEvents accountId
            (SpacePoller.toRemove p.config accountId ids) }

/-- A step, whatever its name. -/
def Next (p p' : Process) : Prop := ∃ a, Step p a p'

/-- The states of the daemon. -/
def Reachable (p : Process) : Prop := ∃ p₀, Starts p₀ ∧ Relation.ReflTransGen Next p₀ p

end Process

end OwncloudSync
