import OwncloudSync.Daemon.Accounts
import OwncloudSync.Daemon.GuiAgreement
import OwncloudSync.Daemon.GuiView
import Mathlib.Data.Finset.Dedup
import Mathlib.Data.List.DropRight
import Mathlib.Tactic.Common

/-!
# One connection attempt at a time

The state of the GUI and all its messages: `update` of `gui/src/app.rs`, and around it
`IcedApp::update` of `main.rs`, which keeps `DaemonConnected`, `DaemonDisconnected` and `StartDaemon`
to itself.  An update returns **tasks**; a task to connect yields one `DaemonConnected` some time later,
and until it does `daemon_connecting` says that it is under way.

So between messages there is one task to connect when the flag is set, and none otherwise, whatever
else is delivered and in whatever order (`oneAttempt`): the other messages start none and leave the
flags alone (`update_leaves`).

Texts come from the locale files (`t`).  What the subscription to the events of a connection yields are
messages like all others.
-/

namespace OwncloudSync

namespace IcedApp

open Protocol

/-! ## The state -/

/-- The languages of the GUI. -/
inductive Language where
  | en
  | de
  | fr
  | zh
  deriving DecidableEq

/-- What is open in the window. -/
inductive View where
  | syncStatus
  | accountSettings (accountId : Uuid)
  | addAccount (urlInput : Str) (error : Option Str)
  | addAccountWaiting (accountId : Uuid) (urlInput : Str)
  | pickSpaces (accountId : Uuid) (spaces : List SpaceInfo) (selected : Finset Str)
      (error : Option Str)
  | pickRootFolder (accountId : Uuid) (spaces : List SpaceInfo) (localPath error : Option Str)
  | generalSettings
  | folderErrors (accountId folderId : Uuid)
  | about

/-- The sending end of a connection: the channel to the task that writes. -/
structure DaemonConnection where
  queue : List DaemonCommand
  capacity : ℕ
  closed : Bool

namespace DaemonConnection

/-- Nobody receives from it. -/
def disconnected : DaemonConnection := ⟨[], 1, true⟩

/-- What `connect` makes. -/
def connected : DaemonConnection := ⟨[], 64, false⟩

/-- `try_send`. -/
def send (c : DaemonConnection) (cmd : DaemonCommand) : DaemonConnection × Bool :=
  if c.closed || c.capacity ≤ c.queue.length then (c, false)
  else ({ c with queue := c.queue ++ [cmd] }, true)

lemma send_eq {c : DaemonConnection} (hopen : c.closed = false)
    (hroom : c.queue.length < c.capacity) (cmd : DaemonCommand) :
    c.send cmd = ({ c with queue := c.queue ++ [cmd] }, true) := by
  rw [send, hopen, Bool.false_or, decide_eq_false (by omega), if_neg Bool.false_ne_true]

/-- The task that writes takes a command, or ends. -/
inductive Background : DaemonConnection → DaemonConnection → Prop
  | taken (cmd : DaemonCommand) (queue : List DaemonCommand) (capacity : ℕ) :
      Background ⟨cmd :: queue, capacity, false⟩ ⟨queue, capacity, false⟩
  | ended (c : DaemonConnection) : Background c { c with closed := true }

end DaemonConnection

/-- `App`. -/
structure App extends Gui.App where
  daemon : DaemonConnection
  activeView : View
  /-- a tray icon is there -/
  tray : Bool
  windowVisible : Bool
  windowId : Option ℕ
  daemonRunning : Bool
  daemonConnecting : Bool
  language : Language
  guiConfigPath : Str

/-- `Message`, what the GUI is updated by. -/
inductive Message where
  | daemonEvent (event : Protocol.DaemonEvent)
  | daemonDisconnected
  | navigateTo (view : View)
  | toggleWindow
  | windowOpened (id : ℕ)
  | windowCloseRequested (id : ℕ)
  | addAccountUrlChanged (url : Str)
  | addAccountSubmit
  | toggleSpaceSelection (accountId : Uuid) (spaceId : Str) (selected : Bool)
  | pickSpacesNext (accountId : Uuid)
  | pickRootFolderBrowse
  | pickRootFolderPicked (path : Option Str)
  | pickRootFolderSubmit (accountId : Uuid)
  | addSpaceClicked (accountId : Uuid)
  | acceptDiscoveredSpace (accountId : Uuid) (spaceId suggestedPath : Str)
  | dismissDiscoveredSpace (accountId : Uuid) (spaceId : Str)
  | pauseFolder (folderId : Uuid)
  | resumeFolder (folderId : Uuid)
  | forceSyncFolder (folderId : Uuid)
  | removeAccount (accountId : Uuid)
  | openFolder (path : Str)
  | quit
  | showAbout
  | startDaemon
  | openUrl (url : Str)
  /-- a connection, and the carrier of its events -/
  | daemonConnected (payload : Option (DaemonConnection × ℕ))
  | languageChanged (language : Language)
  /-- on macOS only -/
  | applyAppIcon

/-- The labels of the tray menu. -/
structure TrayState where
  daemonRunning : Bool
  daemonStatus : Str
  openItem : Str
  about : Str
  quit : Str

/-- The modes of a window that are used. -/
inductive Mode where
  | windowed
  | hidden

/-- What an update asks for. -/
inductive Task where
  /-- `spawn_and_connect` -/
  | spawnAndConnect (backoffMs : ℕ)
  /-- the receiver of the carrier becomes the one that is listened to; then `SyncStatus` is opened -/
  | takeReceiver (carrier : ℕ)
  | pickFolder
  /-- the language is saved; then `GeneralSettings` is opened -/
  | saveLanguage (path : Str) (language : Language)
  | applyAppIcon
  | setMode (window : ℕ) (mode : Mode)
  | gainFocus (window : ℕ)
  | exit
  -- these are done at once
  | rebuildMenu (state : TrayState)
  | spawnOpener (target : Str)
  | saveDetected (path : Str) (language : Language)

/-- What an update finds around it: the texts of the locale files, and the home directory. -/
structure Desktop where
  t : Language → String → Str
  homeDir : Option Str

/-! ## `gui::app` -/

/-- Trailing empty parts and dots are dropped; a dot that a relative path begins with stays. -/
def trimParts (rooted : Bool) : List Str → List Str
  | [] => []
  | part :: parts =>
      match parts.rdropWhile (fun p => p = [] ∨ p = ['.']) with
      | [] => if part = [] ∨ rooted ∧ part = ['.'] then [] else [part]
      | p :: ps => part :: p :: ps

/-- `Path::parent`, as text. -/
def parentText (p : Str) : Option Str :=
  let rooted : Bool := p.head? = some '/'
  let parts := trimParts rooted ((if rooted then p.tail else p).splitOn '/')
  if parts = [] then none
  else some ((if rooted then ['/'] else []) ++ ['/'].intercalate (trimParts rooted parts.dropLast))

namespace App

/-- `send_command`. -/
def sendCommand (app : App) (cmd : DaemonCommand) : App :=
  { app with daemon := (app.daemon.send cmd).1 }

/-- The folders of the account of that id, none if there is no such account. -/
def foldersOf (app : App) (accountId : Uuid) : List Gui.FolderView :=
  ((Keyed.find Gui.AccountView.id accountId app.accounts).map Gui.AccountView.folders).getD []

/-- The same application with other accounts. -/
def withListing (app : App) (listing : Gui.App) : App := { app with toApp := listing }

end App

section

variable (dt : Desktop)

/-- The texts of the tray menu. -/
def trayState (language : Language) (daemonRunning : Bool) : TrayState where
  daemonRunning := daemonRunning
  daemonStatus :=
    if daemonRunning then "● ".toList ++ dt.t language "tray_daemon_running"
    else "○ ".toList ++ dt.t language "tray_daemon_stopped"
  openItem := dt.t language "tray_open"
  about := dt.t language "tray_about"
  quit := dt.t language "tray_quit"

/-- `sync_tray`. -/
def syncTray (app : App) : List Task :=
  if app.tray then [.rebuildMenu (trayState dt app.language app.daemonRunning)] else []

/-- `set_window_visibility`. -/
def setWindowVisibility (windowId : Option ℕ) (visible : Bool) : List Task :=
  match windowId with
  | some id => if visible then [.setMode id .windowed, .gainFocus id] else [.setMode id .hidden]
  | none => []

/-- `derive_root`. -/
def deriveRoot (existingPaths : List Str) : Str :=
  match existingPaths.head?.bind parentText with
  | some root => root
  | none =>
      match dt.homeDir with
      | some h => if h = [] ∨ h.getLast? = some '/' then h ++ "ownCloud".toList
          else h ++ "/ownCloud".toList
      | none => "/tmp/ownCloud".toList

/-- What `handle_daemon_event` opens. -/
def openView (app : App) : Protocol.DaemonEvent → View
  | .accountAddStarted accountId =>
      match app.activeView with
      | .addAccountWaiting _ url => .addAccountWaiting accountId url
      | view => view
  | .accountAddFailed _ reason =>
      match app.activeView with
      | .addAccountWaiting _ url => .addAccount url (some reason)
      | view => view
  | .spacesListed accountId spaces =>
      if (app.foldersOf accountId).isEmpty then
        let personal := spaces.filter (fun s => s.driveType = "personal".toList)
        .pickSpaces accountId spaces (personal.map SpaceInfo.id).toFinset none
      else
        let synced := (app.foldersOf accountId).map (fun f => f.spaceId.toList)
        .pickSpaces accountId (spaces.filter (fun s => !synced.contains s.id)) ∅ none
  | .accountSpaceFailed accountId reason =>
      match app.activeView with
      | .pickSpaces a spaces selected error =>
          .pickSpaces a spaces selected (if a = accountId then some reason else error)
      | .pickRootFolder a spaces localPath error =>
          .pickRootFolder a spaces localPath (if a = accountId then some reason else error)
      | view => view
  | .accountFolderAdded accountId _ _ _ _ =>
      match app.activeView with
      | .pickRootFolder a spaces localPath error =>
          if a = accountId then .syncStatus else .pickRootFolder a spaces localPath error
      | view => view
  | _ => app.activeView

/-- `handle_daemon_event`, with all it does. -/
def handleDaemonEvent (app : App) (event : Protocol.DaemonEvent) : App :=
  let shown := { app.withListing (Gui.handleEvent app.toApp event) with
    activeView := openView app event }
  match event with
  | .accountAddCompleted accountId _ _ _ => shown.sendCommand (.listSpaces accountId)
  | _ => shown

/-- `AddAccountSubmit`. -/
def addAccountSubmit (app : App) : App :=
  match app.activeView with
  | .addAccount urlInput _ =>
      let normalized := stripUrlSchema (trim urlInput)
      if normalized = [] then
        { app with activeView := .addAccount normalized (some (dt.t app.language "error_enter_url")) }
      else if (app.daemon.send (.addAccount normalized)).2 then
        { app.sendCommand (.addAccount normalized) with
            activeView := .addAccountWaiting 0 normalized }
      else
        { app with activeView :=
            .addAccount normalized (some (dt.t app.language "error_not_connected")) }
  | _ => app

/-- `PickSpacesNext`: the spaces are added, or a root folder is chosen first. -/
def pickSpacesNext (app : App) (accountId : Uuid) : App :=
  match app.activeView with
  | .pickSpaces _ spaces selected _ =>
      let chosen := spaces.filter (fun s => s.id ∈ selected)
      if (app.foldersOf accountId).isEmpty then
        { app with activeView := .pickRootFolder accountId chosen none none }
      else
        let root := deriveRoot dt ((app.foldersOf accountId).map (fun f => f.localPath.toList))
        let localPath := fun name : Str => root.rdropWhile (· = '/') ++ '/' :: name
        let sent := chosen.foldl (fun app space =>
          app.sendCommand (.addAccountSpace accountId space.id (localPath space.name))) app
        { sent with activeView := .accountSettings accountId }
  | _ => app

/-- `PickRootFolderSubmit`. -/
def pickRootFolderSubmit (app : App) (accountId : Uuid) : App :=
  match app.activeView with
  | .pickRootFolder _ spaces (some root) _ =>
      app.sendCommand (.setAccountFolders accountId root (spaces.map (fun s => ⟨s.id, s.name⟩)))
  | _ => app

/-- `update` of `gui::app`. -/
def appUpdate (app : App) : Message → App × List Task
  | .daemonEvent event => (handleDaemonEvent app event, [])
  | .daemonDisconnected => (app, [])
  | .navigateTo view => ({ app with activeView := view }, [])
  | .toggleWindow =>
      ({ app with windowVisible := !app.windowVisible },
        setWindowVisibility app.windowId !app.windowVisible)
  | .windowOpened id => ({ app with windowId := some id }, [])
  | .windowCloseRequested id =>
      if app.tray then ({ app with windowVisible := false }, [.setMode id .hidden])
      else (app, [.exit])
  | .addAccountUrlChanged url =>
      match app.activeView with
      | .addAccount _ error => ({ app with activeView := .addAccount url error }, [])
      | _ => (app, [])
  | .addAccountSubmit => (addAccountSubmit dt app, [])
  | .toggleSpaceSelection _ spaceId select =>
      match app.activeView with
      | .pickSpaces a spaces selected error =>
          let selected := if select then insert spaceId selected else selected.erase spaceId
          ({ app with activeView := .pickSpaces a spaces selected error }, [])
      | _ => (app, [])
  | .pickSpacesNext accountId => (pickSpacesNext dt app accountId, [])
  | .pickRootFolderBrowse => (app, [.pickFolder])
  | .pickRootFolderPicked path =>
      match app.activeView, path with
      | .pickRootFolder a spaces _ _, some path =>
          ({ app with activeView := .pickRootFolder a spaces (some path) none }, [])
      | _, _ => (app, [])
  | .pickRootFolderSubmit accountId => (pickRootFolderSubmit app accountId, [])
  | .addSpaceClicked accountId => (app.sendCommand (.listSpaces accountId), [])
  | .acceptDiscoveredSpace accountId spaceId suggestedPath =>
      (app.sendCommand (.addAccountSpace accountId spaceId suggestedPath), [])
  | .dismissDiscoveredSpace accountId spaceId =>
      (app.sendCommand (.dismissSpace accountId spaceId), [])
  | .pauseFolder folderId =>
      ((app.sendCommand (.pauseFolder folderId)).withListing
        (Gui.setFolderStatus app.toApp folderId .paused), [])
  | .resumeFolder folderId =>
      ((app.sendCommand (.resumeFolder folderId)).withListing
        (Gui.setFolderStatus app.toApp folderId .idle), [])
  | .forceSyncFolder folderId => (app.sendCommand (.triggerSync folderId), [])
  | .removeAccount accountId =>
      ({ (app.sendCommand (.removeAccount accountId)).withListing
          ⟨app.accounts.filter (fun a => a.id ≠ accountId)⟩ with activeView := .syncStatus }, [])
  | .openFolder path => (app, [.spawnOpener path])
  | .languageChanged language =>
      let app := { app with language := language }
      (app, syncTray dt app ++ [.saveLanguage app.guiConfigPath language])
  | .quit => (app.sendCommand .quit, [.exit])
  | .startDaemon => (app, [])
  | .showAbout =>
      ({ app with windowVisible := true, activeView := .about },
        setWindowVisibility app.windowId true)
  | .openUrl url => (app, [.spawnOpener url])
  | .daemonConnected _ => (app, [])
  | .applyAppIcon => (app, [])

/-! ## `IcedApp` -/

/-- `IcedApp::init`: the language that was saved, or the one of the system, which is saved; a tray icon,
if there can be one; and the first attempt to connect. -/
def init (savedLanguage : Option Language) (detected : Language) (tray macos : Bool)
    (guiConfigPath : Str) : App × List Task :=
  ({ accounts := []
     daemon := .disconnected
     activeView := .syncStatus
     tray := tray
     windowVisible := true
     windowId := none
     daemonRunning := false
     daemonConnecting := true
     language := savedLanguage.getD detected
     guiConfigPath := guiConfigPath },
    (if savedLanguage.isNone then [.saveDetected guiConfigPath detected] else []) ++
      .spawnAndConnect 0 :: (if macos then [.applyAppIcon] else []))

/-- `IcedApp::update`. -/
def update (app : App) : Message → App × List Task
  | .daemonConnected (some (conn, carrier)) =>
      let app := { app with daemonConnecting := false, daemon := conn, daemonRunning := true }
      (app, syncTray dt app ++ [.takeReceiver carrier])
  | .daemonConnected none =>
      let app := { app with daemonConnecting := false, daemonRunning := false }
      (app, syncTray dt app)
  | .daemonDisconnected =>
      let app := { app with daemonRunning := false }
      if app.daemonConnecting then (app, syncTray dt app)
      else ({ app with daemonConnecting := true }, syncTray dt app ++ [.spawnAndConnect 2000])
  | .startDaemon =>
      if app.daemonConnecting then (app, [])
      else ({ app with daemonConnecting := true }, [.spawnAndConnect 0])
  | message => appUpdate dt app message

end

/-! ## Runs -/

namespace Task

/-- What a task yields when it is done. -/
def Yields : Task → Message → Prop
  | spawnAndConnect _, .daemonConnected _ => True
  | takeReceiver _, .navigateTo .syncStatus => True
  | pickFolder, .pickRootFolderPicked _ => True
  | saveLanguage _ _, .navigateTo .generalSettings => True
  | applyAppIcon, .applyAppIcon => True
  | _, _ => False

/-- The task connects to the daemon. -/
def connects : Task → Bool
  | spawnAndConnect _ => true
  | _ => false

end Task

namespace Message

/-- The message is that of a new connection. -/
def isConnected : Message → Bool
  | daemonConnected _ => true
  | _ => false

/-- `DaemonConnected` or `DaemonDisconnected`. -/
def ofConnection : Message → Bool
  | daemonConnected _ => true
  | daemonDisconnected => true
  | _ => false

end Message

/-- The GUI between two messages, with the tasks that are not done. -/
structure Session where
  app : App
  tasks : List Task

namespace Session

/-- The tasks to connect that have not yielded their message. -/
def outstanding (s : Session) : ℕ := s.tasks.countP Task.connects

variable (dt : Desktop)

/-- A message is worked off. -/
def receive (s : Session) (m : Message) : Session :=
  ⟨(update dt s.app m).1, s.tasks ++ (update dt s.app m).2⟩

/-- A message is delivered: one from a widget, the tray or a subscription, or what a task yields.
`DaemonConnected` comes from tasks only. -/
inductive Delivers (s : Session) (m : Message) : Session → Prop
  | external (h : m.isConnected = false) : Delivers s m (s.receive dt m)
  | yielded (before after : List Task) (task : Task) (hs : s.tasks = before ++ task :: after)
      (hm : task.Yields m) : Delivers s m (receive dt ⟨s.app, before ++ after⟩ m)

/-- The runs of the GUI, with the messages that have been delivered. -/
inductive Run : List Message → Session → Prop
  | init (savedLanguage : Option Language) (detected : Language) (tray macos : Bool) (path : Str) :
      Run [] ⟨(IcedApp.init savedLanguage detected tray macos path).1,
        (IcedApp.init savedLanguage detected tray macos path).2⟩
  | deliver {ms : List Message} {m : Message} {s s' : Session} (h : Run ms s)
      (hs : Delivers dt s m s') : Run (ms ++ [m]) s'
  | background {ms : List Message} {s : Session} {daemon : DaemonConnection} (h : Run ms s)
      (hd : DaemonConnection.Background s.app.daemon daemon) :
      Run ms ⟨{ s.app with daemon := daemon }, s.tasks⟩

end Session

variable {dt : Desktop} {app : App} {m : Message} {ms : List Message} {s s' : Session}

/-! ## Two parts of it -/

/-- A click on a folder or an account. -/
def Message.ofClick : OwncloudSync.Message → Message
  | .pauseFolder folderId => .pauseFolder folderId
  | .resumeFolder folderId => .resumeFolder folderId
  | .forceSyncFolder folderId => .forceSyncFolder folderId
  | .removeAccount accountId => .removeAccount accountId

/-- With room in the channel, a click shows and sends what a `Station` shows and sends. -/
lemma appUpdate_ofClick (dt : Desktop) (hopen : app.daemon.closed = false)
    (hroom : app.daemon.queue.length < app.daemon.capacity) (click : OwncloudSync.Message)
    (inbox : List OwncloudSync.DaemonEvent) :
    (appUpdate dt app (.ofClick click)).1.toApp =
        (Station.update ⟨app.toApp, app.daemon.queue, inbox⟩ click).app ∧
      (appUpdate dt app (.ofClick click)).1.daemon.queue =
        (Station.update ⟨app.toApp, app.daemon.queue, inbox⟩ click).outbox := by
  have hsend : ∀ cmd, (app.daemon.send cmd).1.queue = app.daemon.queue ++ [cmd] := by
    intro cmd
    rw [DaemonConnection.send_eq hopen hroom]
  cases click with
  | pauseFolder folderId => exact ⟨rfl, hsend _⟩
  | resumeFolder folderId => exact ⟨rfl, hsend _⟩
  | forceSyncFolder folderId => exact ⟨rfl, hsend _⟩
  | removeAccount accountId => exact ⟨rfl, hsend _⟩

/-- What is sent of an entered URL. -/
lemma queue_addAccountSubmit (dt : Desktop) {urlInput : Str} {error : Option Str}
    (hview : app.activeView = .addAccount urlInput error) (hopen : app.daemon.closed = false)
    (hroom : app.daemon.queue.length < app.daemon.capacity) :
    (appUpdate dt app .addAccountSubmit).1.daemon.queue = app.daemon.queue ++
      ((OwncloudSync.addAccountSubmit urlInput).map DaemonCommand.addAccount).toList := by
  simp only [appUpdate, addAccountSubmit, hview, OwncloudSync.addAccountSubmit]
  by_cases h : stripUrlSchema (trim urlInput) = []
  · simp [h]
  · simp [h, App.sendCommand, DaemonConnection.send_eq hopen hroom]

/-! ## What the other messages leave alone -/

/-- An update keeps both flags and does not connect. -/
structure Leaves (app : App) (r : App × List Task) : Prop where
  connecting : r.1.daemonConnecting = app.daemonConnecting
  running : r.1.daemonRunning = app.daemonRunning
  tasks : r.2.countP Task.connects = 0

@[simp] lemma countP_syncTray : (syncTray dt app).countP Task.connects = 0 := by
  unfold syncTray
  split <;> rfl

@[simp] lemma countP_setWindowVisibility (id : Option ℕ) (visible : Bool) :
    (setWindowVisibility id visible).countP Task.connects = 0 := by
  unfold setWindowVisibility
  split
  · split <;> rfl
  · rfl

lemma leaves_handleDaemonEvent (event : Protocol.DaemonEvent) :
    Leaves app (handleDaemonEvent app event, []) := by
  cases event with
  | _ => exact ⟨rfl, rfl, rfl⟩

lemma leaves_addAccountSubmit : Leaves app (addAccountSubmit dt app, []) := by
  unfold addAccountSubmit
  split
  · dsimp only
    split
    · exact ⟨rfl, rfl, rfl⟩
    · split
      · exact ⟨rfl, rfl, rfl⟩
      · exact ⟨rfl, rfl, rfl⟩
  · exact ⟨rfl, rfl, rfl⟩

lemma leaves_foldl_sendCommand {α : Type} (cmd : α → DaemonCommand) (l : List α) (app : App) :
    Leaves app (l.foldl (fun app x => app.sendCommand (cmd x)) app, []) := by
  induction l generalizing app with
  | nil => exact ⟨rfl, rfl, rfl⟩
  | cons x l ih =>
      obtain ⟨hconnecting, hrunning, htasks⟩ := ih (app.sendCommand (cmd x))
      exact ⟨hconnecting, hrunning, htasks⟩

lemma leaves_pickSpacesNext (accountId : Uuid) : Leaves app (pickSpacesNext dt app accountId, []) := by
  unfold pickSpacesNext
  split
  · dsimp only
    split
    · exact ⟨rfl, rfl, rfl⟩
    · obtain ⟨hconnecting, hrunning, htasks⟩ := leaves_foldl_sendCommand (fun space : SpaceInfo =>
        .addAccountSpace accountId space.id _) _ app
      exact ⟨hconnecting, hrunning, htasks⟩
  · exact ⟨rfl, rfl, rfl⟩

lemma leaves_pickRootFolderSubmit (accountId : Uuid) :
    Leaves app (pickRootFolderSubmit app accountId, []) := by
  unfold pickRootFolderSubmit
  split
  · exact ⟨rfl, rfl, rfl⟩
  · exact ⟨rfl, rfl, rfl⟩

/-- **The messages of the window and the daemon's events start no attempt and leave the flags alone.** -/
lemma appUpdate_leaves (dt : Desktop) (app : App) (m : Message) : Leaves app (appUpdate dt app m) := by
  cases m with
  | daemonEvent event => exact leaves_handleDaemonEvent event
  | addAccountSubmit => exact leaves_addAccountSubmit
  | pickSpacesNext accountId => exact leaves_pickSpacesNext accountId
  | pickRootFolderSubmit accountId => exact leaves_pickRootFolderSubmit accountId
  | toggleWindow => exact ⟨rfl, rfl, countP_setWindowVisibility _ _⟩
  | showAbout => exact ⟨rfl, rfl, countP_setWindowVisibility _ _⟩
  | languageChanged language =>
      refine ⟨rfl, rfl, ?_⟩
      simp [appUpdate, Task.connects]
  | windowCloseRequested id =>
      simp only [appUpdate]
      split
      · exact ⟨rfl, rfl, rfl⟩
      · exact ⟨rfl, rfl, rfl⟩
  | addAccountUrlChanged url =>
      simp only [appUpdate]
      split
      · exact ⟨rfl, rfl, rfl⟩
      · exact ⟨rfl, rfl, rfl⟩
  | toggleSpaceSelection accountId spaceId select =>
      simp only [appUpdate]
      split
      · exact ⟨rfl, rfl, rfl⟩
      · exact ⟨rfl, rfl, rfl⟩
  | pickRootFolderPicked path =>
      simp only [appUpdate]
      split
      · exact ⟨rfl, rfl, rfl⟩
      · exact ⟨rfl, rfl, rfl⟩
  | _ => exact ⟨rfl, rfl, rfl⟩

/-! ## What an update does to the connection -/

lemma update_eq (h : m.ofConnection = false) (hstart : m ≠ .startDaemon) :
    update dt app m = appUpdate dt app m := by
  cases m with
  | daemonConnected payload => cases h
  | daemonDisconnected => cases h
  | startDaemon => exact absurd rfl hstart
  | _ => rfl

/-- An attempt is started together with the flag, and where the flag is clear. -/
lemma update_starts (dt : Desktop) (app : App) (h : m.isConnected = false) :
    (update dt app m).2.countP Task.connects + app.daemonConnecting.toNat =
      (update dt app m).1.daemonConnecting.toNat := by
  by_cases hstart : m = .startDaemon
  · subst hstart
    cases hconnecting : app.daemonConnecting <;> simp [update, hconnecting, Task.connects]
  · cases hof : m.ofConnection with
    | false =>
        obtain ⟨hconnecting, -, htasks⟩ := appUpdate_leaves dt app m
        rw [update_eq hof hstart, htasks, hconnecting, Nat.zero_add]
    | true =>
        cases m with
        | daemonConnected payload => cases h
        | daemonDisconnected =>
            cases hconnecting : app.daemonConnecting <;> simp [update, hconnecting, Task.connects]
        | _ => cases hof

/-- The result of an attempt clears the flag, and starts no other. -/
lemma update_connected (dt : Desktop) (app : App) (payload : Option (DaemonConnection × ℕ)) :
    (update dt app (.daemonConnected payload)).2.countP Task.connects = 0 ∧
      (update dt app (.daemonConnected payload)).1.daemonConnecting = false ∧
      (update dt app (.daemonConnected payload)).1.daemonRunning = payload.isSome := by
  cases payload with
  | none => simp [update]
  | some payload => simp [update, Task.connects]

lemma update_disconnected : (update dt app .daemonDisconnected).1.daemonRunning = false := by
  cases hconnecting : app.daemonConnecting <;> simp [update, hconnecting]

lemma update_running (h : m.ofConnection = false) :
    (update dt app m).1.daemonRunning = app.daemonRunning := by
  by_cases hstart : m = .startDaemon
  · subst hstart
    cases hconnecting : app.daemonConnecting <;> simp [update, hconnecting]
  · obtain ⟨-, hrunning, -⟩ := appUpdate_leaves dt app m
    rw [update_eq h hstart, hrunning]

/-! ## The invariant -/

/-- The last message about the connection says that there is one. -/
def LastConnected (ms : List Message) : Prop :=
  ∃ conn carrier, (ms.filter Message.ofConnection).getLast? =
    some (.daemonConnected (some (conn, carrier)))

lemma lastConnected_concat : LastConnected (ms ++ [m]) ↔
    if m.ofConnection then ∃ conn carrier, m = .daemonConnected (some (conn, carrier))
    else LastConnected ms := by
  unfold LastConnected
  rw [List.filter_append]
  cases h : m.ofConnection with
  | true => simp [h]
  | false => simp [h]

/-- The flags are true of the tasks and of the messages. -/
structure Tracks (ms : List Message) (s : Session) : Prop where
  attempts : s.outstanding = s.app.daemonConnecting.toNat
  running : s.app.daemonRunning = true ↔ LastConnected ms

lemma tracks_init (savedLanguage : Option Language) (detected : Language) (tray macos : Bool)
    (path : Str) : Tracks [] ⟨(init savedLanguage detected tray macos path).1,
      (init savedLanguage detected tray macos path).2⟩ where
  attempts := by
    cases savedLanguage <;> cases macos <;> rfl
  running := by simp [init, LastConnected]

/-- What is running after a message. -/
lemma running_update (h : app.daemonRunning = true ↔ LastConnected ms) :
    (update dt app m).1.daemonRunning = true ↔ LastConnected (ms ++ [m]) := by
  rw [lastConnected_concat]
  cases hof : m.ofConnection with
  | false =>
      rw [update_running hof]
      simpa using h
  | true =>
      cases m with
      | daemonConnected payload =>
          rw [(update_connected dt app payload).2.2]
          cases payload with
          | none => simp
          | some payload => simpa using ⟨payload.1, payload.2, rfl⟩
      | daemonDisconnected =>
          rw [update_disconnected]
          simp
      | _ => cases hof

/-- A message that is not the result of an attempt. -/
lemma outstanding_receive (hs : s.outstanding = s.app.daemonConnecting.toNat)
    (h : m.isConnected = false) :
    (s.receive dt m).outstanding = (s.receive dt m).app.daemonConnecting.toNat := by
  have hstarts := update_starts dt s.app h
  have hcount : (s.receive dt m).outstanding =
      s.outstanding + (update dt s.app m).2.countP Task.connects := List.countP_append
  rw [hcount, hs, Nat.add_comm]
  exact hstarts

/-- The result of an attempt: that attempt was the only one. -/
lemma outstanding_connected {payload : Option (DaemonConnection × ℕ)} {before after : List Task}
    {backoffMs : ℕ} (htasks : s.tasks = before ++ .spawnAndConnect backoffMs :: after)
    (hs : s.outstanding = s.app.daemonConnecting.toNat) :
    (Session.receive dt ⟨s.app, before ++ after⟩ (.daemonConnected payload)).outstanding =
      (Session.receive dt ⟨s.app, before ++ after⟩
        (.daemonConnected payload)).app.daemonConnecting.toNat := by
  obtain ⟨hnone, hclear, -⟩ := update_connected dt s.app payload
  have hcount : s.outstanding = (before ++ after).countP Task.connects + 1 := by
    rw [Session.outstanding, htasks, List.countP_append, List.countP_append, List.countP_cons]
    rfl
  have hle : s.outstanding ≤ 1 := by
    rw [hs]
    exact Bool.toNat_le _
  have hleft : (Session.receive dt ⟨s.app, before ++ after⟩ (.daemonConnected payload)).outstanding =
      (before ++ after).countP Task.connects +
        (update dt s.app (.daemonConnected payload)).2.countP Task.connects := List.countP_append
  have hflag : (Session.receive dt ⟨s.app, before ++ after⟩
      (.daemonConnected payload)).app.daemonConnecting = false := hclear
  rw [hleft, hflag, hnone, Bool.toNat_false]
  omega

lemma connects_of_yields {task : Task} {payload : Option (DaemonConnection × ℕ)}
    (h : task.Yields (.daemonConnected payload)) : ∃ backoffMs, task = .spawnAndConnect backoffMs := by
  cases task with
  | spawnAndConnect backoffMs => exact ⟨backoffMs, rfl⟩
  | _ => cases h

lemma isConnected_cases (m : Message) :
    m.isConnected = false ∨ ∃ payload, m = .daemonConnected payload := by
  cases m with
  | daemonConnected payload => exact .inr ⟨payload, rfl⟩
  | _ => exact .inl rfl

/-- A task that yields another message is not one to connect. -/
lemma not_connects_of_yields {task : Task} (hm : task.Yields m) (h : m.isConnected = false) :
    task.connects = false := by
  cases task with
  | spawnAndConnect backoffMs =>
      cases m with
      | daemonConnected payload => cases h
      | _ => cases hm
  | _ => rfl

lemma tracks_delivers (h : Tracks ms s) (hs : Session.Delivers dt s m s') : Tracks (ms ++ [m]) s' := by
  obtain ⟨hattempts, hrunning⟩ := h
  cases hs with
  | external hm => exact ⟨outstanding_receive hattempts hm, running_update hrunning⟩
  | yielded before after task htasks hm =>
      refine ⟨?_, running_update hrunning⟩
      rcases isConnected_cases m with hother | ⟨payload, rfl⟩
      · have hsame : Session.outstanding ⟨s.app, before ++ after⟩ = s.outstanding := by
          simp [Session.outstanding, htasks, not_connects_of_yields hm hother]
        exact outstanding_receive (hsame.trans hattempts) hother
      · obtain ⟨backoffMs, rfl⟩ := connects_of_yields hm
        exact outstanding_connected htasks hattempts

lemma tracks_run (h : Session.Run dt ms s) : Tracks ms s := by
  induction h with
  | init savedLanguage detected tray macos path => exact tracks_init savedLanguage detected tray macos path
  | deliver _ hs ih => exact tracks_delivers ih hs
  | background _ _ ih => exact ⟨ih.attempts, ih.running⟩

/-- **One attempt at a time.**  In every run there is one outstanding task to connect if the flag is set
and none otherwise, and the daemon counts as running exactly when the last message about the
connection was a successful `DaemonConnected`. -/
theorem oneAttempt (dt : Desktop) (ms : List Message) (s : Session) (h : Session.Run dt ms s) :
    s.outstanding = (if s.app.daemonConnecting then 1 else 0) ∧
      (s.app.daemonRunning = true ↔ ∃ conn carrier, (ms.filter Message.ofConnection).getLast? =
        some (.daemonConnected (some (conn, carrier)))) := by
  obtain ⟨hattempts, hrunning⟩ := tracks_run h
  refine ⟨?_, hrunning⟩
  rw [hattempts]
  cases s.app.daemonConnecting <;> rfl

/-- A desktop without translations. -/
def plainDesktop : Desktop := ⟨fun _ key => key.toList, none⟩

/-- The first attempt fails; the user starts the daemon and, impatient, starts it again; the second
attempt succeeds, and later the connection is lost. -/
theorem reconnecting_oneAttempt : ∃ s, Session.Run plainDesktop
    [.daemonConnected none, .startDaemon, .startDaemon, .daemonConnected (some (.connected, 0)),
      .daemonDisconnected] s ∧
    s.app.daemonConnecting = true ∧ s.outstanding = 1 ∧ s.app.daemonRunning = false := by
  have hinit := @Session.Run.init plainDesktop (some .en) .en false false []
  have hfailed := hinit.deliver (.yielded [] [] (.spawnAndConnect 0) rfl
    (m := .daemonConnected none) trivial)
  have hstart := (hfailed.deliver (.external (m := .startDaemon) rfl)).deliver
    (.external (m := .startDaemon) rfl)
  have hconnected := hstart.deliver (.yielded [] [] (.spawnAndConnect 0) rfl
    (m := .daemonConnected (some (.connected, 0))) trivial)
  have hlost := hconnected.deliver (.external (m := .daemonDisconnected) rfl)
  obtain ⟨hattempts, -⟩ := oneAttempt _ _ _ hlost
  exact ⟨_, hlost, rfl, hattempts, rfl⟩

end IcedApp

end OwncloudSync
