import OwncloudSync.Daemon.GuiUpdate
import Mathlib.Tactic.Common

/-!
# The wizard asks for what was offered

To set up an account the user picks spaces from a listing of the daemon, then a root folder, and
the GUI sends `SetAccountFolders`; for an account that has folders it sends `AddAccountSpace` for
each space picked.  The views of the wizard hold an account and its spaces; the buttons name the
account again.

`Widget` has the messages that the widgets give (`views/*.rs`, and the sidebar in `main.rs`).  A
click is made on the window as it was last drawn, and that may be a message behind: iced puts the
clicks and the daemon's events of one round into one queue.

**Whatever is clicked and in whatever order, the GUI asks only for spaces that the daemon has listed,
and `SetAccountFolders` only below a folder that the user has picked.  It asks for them as spaces of
the account they were listed for, and for one space at least, if every click was on an up-to-date
window** (`wizard`); an old one can mix two accounts (`wizard_mixed`).  The folder of an
`AddAccountSpace` is that of the spaces the account has, if it has any.
-/

namespace OwncloudSync

namespace IcedApp

open Protocol

/-! ## The widgets -/

/-- `sync_status_view` is shown, also for the errors of a folder whose account is gone. -/
def App.showsSyncStatus (app : App) : Bool :=
  match app.activeView with
  | .syncStatus => true
  | .folderErrors accountId _ => (Keyed.find Gui.AccountView.id accountId app.accounts).isNone
  | _ => false

/-- What the badge of a folder does. -/
def badgeMessage (accountId : Uuid) (folder : Gui.FolderView) : Message :=
  match folder.status with
  | .idle => .forceSyncFolder folder.id
  | .syncing => .pauseFolder folder.id
  | .paused => .resumeFolder folder.id
  | .error => .navigateTo (.folderErrors accountId folder.id)

/-- The messages of the widgets. -/
inductive Widget (app : App) : Message → Prop
  /-- the sidebar, and every button to go back or to cancel -/
  | syncStatus : Widget app (.navigateTo .syncStatus)
  | addAccount : Widget app (.navigateTo (.addAccount [] none))
  | generalSettings : Widget app (.navigateTo .generalSettings)
  | about : Widget app (.navigateTo .about)
  -- `sync_status_view`
  | settings (a : Gui.AccountView) (hview : app.showsSyncStatus = true) (ha : a ∈ app.accounts) :
      Widget app (.navigateTo (.accountSettings a.id))
  | openFolder (a : Gui.AccountView) (f : Gui.FolderView) (hview : app.showsSyncStatus = true)
      (ha : a ∈ app.accounts) (hf : f ∈ a.folders) : Widget app (.openFolder f.localPath.toList)
  | badge (a : Gui.AccountView) (f : Gui.FolderView) (hview : app.showsSyncStatus = true)
      (ha : a ∈ app.accounts) (hf : f ∈ a.folders) : Widget app (badgeMessage a.id f)
  -- `add_account_view`
  | urlInput (url urlInput : Str) (error : Option Str)
      (hview : app.activeView = .addAccount urlInput error) :
      Widget app (.addAccountUrlChanged url)
  | connect (urlInput : Str) (error : Option Str)
      (hview : app.activeView = .addAccount urlInput error) : Widget app .addAccountSubmit
  -- `account_settings_view`
  | removeAccount (a : Gui.AccountView) (hview : app.activeView = .accountSettings a.id)
      (ha : a ∈ app.accounts) : Widget app (.removeAccount a.id)
  | addSpace (a : Gui.AccountView) (hview : app.activeView = .accountSettings a.id)
      (ha : a ∈ app.accounts) : Widget app (.addSpaceClicked a.id)
  -- `pick_spaces_view`: the next step is disabled when nothing is selected
  | toggle (accountId : Uuid) (spaces : List SpaceInfo) (selected : Finset Str)
      (error : Option Str) (space : SpaceInfo) (checked : Bool)
      (hview : app.activeView = .pickSpaces accountId spaces selected error)
      (hspace : space ∈ spaces) : Widget app (.toggleSpaceSelection accountId space.id checked)
  | next (accountId : Uuid) (spaces : List SpaceInfo) (selected : Finset Str)
      (error : Option Str) (hview : app.activeView = .pickSpaces accountId spaces selected error)
      (hselected : selected ≠ ∅) : Widget app (.pickSpacesNext accountId)
  -- `pick_root_folder_view`
  | browse (accountId : Uuid) (spaces : List SpaceInfo) (localPath error : Option Str)
      (hview : app.activeView = .pickRootFolder accountId spaces localPath error) :
      Widget app .pickRootFolderBrowse
  | submit (accountId : Uuid) (spaces : List SpaceInfo) (localPath error : Option Str)
      (hview : app.activeView = .pickRootFolder accountId spaces localPath error)
      (hpath : localPath ≠ none) : Widget app (.pickRootFolderSubmit accountId)
  -- `general_settings_view` and `about_view`
  | language (language : Language) (hview : app.activeView = .generalSettings) :
      Widget app (.languageChanged language)
  | website (url : Str) (hview : app.activeView = .about)
      (hurl : url = "https://owncloud.com".toList ∨ url = "https://central.owncloud.com".toList) :
      Widget app (.openUrl url)

/-- The messages of the subscriptions: of the daemon, the window and the tray. -/
inductive Subscribed : Message → Prop
  | event (e : Protocol.DaemonEvent) : Subscribed (.daemonEvent e)
  | disconnected : Subscribed .daemonDisconnected
  | opened (id : ℕ) : Subscribed (.windowOpened id)
  | closeRequested (id : ℕ) : Subscribed (.windowCloseRequested id)
  | quit : Subscribed .quit
  | showAbout : Subscribed .showAbout
  | startDaemon : Subscribed .startDaemon
  | toggleWindow : Subscribed .toggleWindow

/-! ## Runs -/

/-- The runs of the GUI with its user, who sees the state that was drawn last; `fresh` runs are
those where that is always the state there is. -/
inductive Used (dt : Desktop) (fresh : Prop) : List Message → App → Session → Prop
  | init (savedLanguage : Option Language) (detected : Language) (tray macos : Bool) (path : Str) :
      Used dt fresh [] (IcedApp.init savedLanguage detected tray macos path).1
        ⟨(IcedApp.init savedLanguage detected tray macos path).1,
          (IcedApp.init savedLanguage detected tray macos path).2⟩
  | draw {ms : List Message} {drawn : App} {s : Session} (h : Used dt fresh ms drawn s) :
      Used dt fresh ms s.app s
  | press {ms : List Message} {drawn : App} {s : Session} {m : Message}
      (h : Used dt fresh ms drawn s) (hm : Widget drawn m) (hfresh : fresh → drawn = s.app) :
      Used dt fresh (ms ++ [m]) drawn (s.receive dt m)
  | told {ms : List Message} {drawn : App} {s : Session} {m : Message}
      (h : Used dt fresh ms drawn s) (hm : Subscribed m) :
      Used dt fresh (ms ++ [m]) drawn (s.receive dt m)
  /-- a task is done; a connection it yields is new -/
  | yielded {ms : List Message} {drawn : App} {s : Session} {m : Message}
      (h : Used dt fresh ms drawn s) (before after : List Task) (task : Task)
      (hs : s.tasks = before ++ task :: after) (hm : task.Yields m)
      (hnew : ∀ conn carrier, m = .daemonConnected (some (conn, carrier)) → conn.queue = []) :
      Used dt fresh (ms ++ [m]) drawn (Session.receive dt ⟨s.app, before ++ after⟩ m)
  | background {ms : List Message} {drawn : App} {s : Session} {daemon : DaemonConnection}
      (h : Used dt fresh ms drawn s) (hd : DaemonConnection.Background s.app.daemon daemon) :
      Used dt fresh ms drawn ⟨{ s.app with daemon := daemon }, s.tasks⟩

variable {dt : Desktop} {fresh : Prop} {app drawn : App} {m : Message} {ms ns : List Message}
  {s : Session} {cmd : DaemonCommand} {view : View}

lemma Widget.not_isConnected (h : Widget app m) : m.isConnected = false := by
  cases h with
  | badge a f =>
      unfold badgeMessage
      split
      · rfl
      · rfl
      · rfl
      · rfl
  | _ => rfl

/-- The user does no more than the runs without one allow. -/
lemma Used.run (h : Used dt fresh ms drawn s) : Session.Run dt ms s := by
  induction h with
  | init => exact .init _ _ _ _ _
  | draw _ ih => exact ih
  | press _ hm _ ih => exact ih.deliver (.external hm.not_isConnected)
  | told _ hm ih =>
      refine ih.deliver (.external ?_)
      cases hm with
      | _ => rfl
  | yielded _ before after task hs hm _ ih => exact ih.deliver (.yielded before after task hs hm)
  | background _ hd ih => exact ih.background hd

/-! ## What has been offered -/

/-- The spaces are from a listing for an account, for this one in fresh runs. -/
def Offered (fresh : Prop) (ms : List Message) (accountId : Uuid) (spaces : List SpaceInfo) : Prop :=
  ∃ listedFor listing, .daemonEvent (.spacesListed listedFor listing) ∈ ms ∧ spaces ⊆ listing ∧
    (fresh → listedFor = accountId)

/-- The user has picked the folder. -/
def Picked (ms : List Message) (path : Str) : Prop := .pickRootFolderPicked (some path) ∈ ms

/-- What is open has been offered. -/
def View.Vouched (fresh : Prop) (ms : List Message) : View → Prop
  | pickSpaces accountId spaces selected _ =>
      Offered fresh ms accountId spaces ∧ (fresh → ∀ id ∈ selected, ∃ s ∈ spaces, s.id = id)
  | pickRootFolder accountId spaces localPath _ =>
      Offered fresh ms accountId spaces ∧ (fresh → spaces ≠ []) ∧
        ∀ path, localPath = some path → Picked ms path
  | _ => True

/-- What is asked for has been offered. -/
def Vouched (fresh : Prop) (ms : List Message) : DaemonCommand → Prop
  | .setAccountFolders accountId rootPath selections =>
      Picked ms rootPath ∧ ∃ spaces, Offered fresh ms accountId spaces ∧
        selections = spaces.map (fun s => ⟨s.id, s.name⟩) ∧ (fresh → spaces ≠ [])
  | .addAccountSpace accountId spaceId _ =>
      ∃ space, Offered fresh ms accountId [space] ∧ space.id = spaceId
  | _ => True

lemma Offered.mono {accountId : Uuid} {spaces : List SpaceInfo}
    (h : Offered fresh ms accountId spaces) (hsub : ms ⊆ ns) : Offered fresh ns accountId spaces := by
  obtain ⟨listedFor, listing, hmem, hspaces, hid⟩ := h
  exact ⟨listedFor, listing, hsub hmem, hspaces, hid⟩

lemma Offered.subset {accountId : Uuid} {spaces few : List SpaceInfo}
    (h : Offered fresh ms accountId spaces) (hfew : few ⊆ spaces) :
    Offered fresh ms accountId few := by
  obtain ⟨listedFor, listing, hmem, hspaces, hid⟩ := h
  exact ⟨listedFor, listing, hmem, List.Subset.trans hfew hspaces, hid⟩

/-- Under another account id, outside of fresh runs. -/
lemma Offered.rename {a b : Uuid} {spaces : List SpaceInfo} (h : Offered fresh ms a spaces)
    (hab : fresh → a = b) : Offered fresh ms b spaces := by
  obtain ⟨listedFor, listing, hmem, hspaces, hid⟩ := h
  exact ⟨listedFor, listing, hmem, hspaces, fun hf => (hid hf).trans (hab hf)⟩

lemma View.Vouched.mono (h : view.Vouched fresh ms) (hsub : ms ⊆ ns) : view.Vouched fresh ns := by
  cases view with
  | pickSpaces => exact ⟨h.1.mono hsub, h.2⟩
  | pickRootFolder => exact ⟨h.1.mono hsub, h.2.1, fun path hp => hsub (h.2.2 path hp)⟩
  | _ => trivial

lemma vouched_mono (h : Vouched fresh ms cmd) (hsub : ms ⊆ ns) : Vouched fresh ns cmd := by
  cases cmd with
  | setAccountFolders accountId rootPath selections =>
      obtain ⟨hpicked, spaces, hoffered, hrest⟩ := h
      exact ⟨hsub hpicked, spaces, hoffered.mono hsub, hrest⟩
  | addAccountSpace accountId spaceId localPath =>
      obtain ⟨space, hoffered, hid⟩ := h
      exact ⟨space, hoffered.mono hsub, hid⟩
  | _ => trivial

/-- What is open and what waits to be sent have been offered. -/
structure Sound (fresh : Prop) (ms : List Message) (app : App) : Prop where
  view : app.activeView.Vouched fresh ms
  queue : ∀ cmd ∈ app.daemon.queue, Vouched fresh ms cmd

lemma Sound.mono (h : Sound fresh ms app) (hsub : ms ⊆ ns) : Sound fresh ns app :=
  ⟨h.view.mono hsub, fun cmd hcmd => vouched_mono (h.queue cmd hcmd) hsub⟩

lemma Sound.sendCommand (h : Sound fresh ms app) (cmd : DaemonCommand)
    (hcmd : Vouched fresh ms cmd) :
    Sound fresh ms (app.sendCommand cmd) := by
  refine ⟨h.view, ?_⟩
  intro c hc
  simp only [App.sendCommand, DaemonConnection.send] at hc
  split at hc
  · exact h.queue c hc
  · rcases List.mem_append.mp hc with hc | hc
    · exact h.queue c hc
    · rw [List.mem_singleton.mp hc]
      exact hcmd

/-- Another view. -/
lemma Sound.opens {app' : App} (h : Sound fresh ms app) (hview : app'.activeView.Vouched fresh ms)
    (hdaemon : app'.daemon = app.daemon) : Sound fresh ms app' :=
  ⟨hview, fun c hc => h.queue c (hdaemon ▸ hc)⟩

lemma Sound.sendAll {α : Type} {f : α → DaemonCommand} {l : List α} (h : Sound fresh ms app)
    (hl : ∀ x ∈ l, Vouched fresh ms (f x)) :
    Sound fresh ms (l.foldl (fun app x => app.sendCommand (f x)) app) := by
  induction l generalizing app with
  | nil => exact h
  | cons x l ih =>
      refine ih (h.sendCommand _ (hl x List.mem_cons_self)) ?_
      intro y hy
      exact hl y (List.mem_cons_of_mem x hy)

/-! ## What a message may ask for -/

/-- A message that opens no page of the wizard by itself, and whose button was there in a fresh run. -/
def Message.Fits (fresh : Prop) (app : App) : Message → Prop
  | navigateTo view => ∀ ms, view.Vouched fresh ms
  | toggleSpaceSelection _ spaceId _ => fresh → ∃ accountId spaces selected error,
      app.activeView = .pickSpaces accountId spaces selected error ∧ ∃ s ∈ spaces, s.id = spaceId
  | pickSpacesNext accountId => fresh → ∃ spaces selected error,
      app.activeView = .pickSpaces accountId spaces selected error ∧ selected ≠ ∅
  | pickRootFolderSubmit accountId => fresh → ∃ spaces localPath error,
      app.activeView = .pickRootFolder accountId spaces localPath error
  | acceptDiscoveredSpace _ _ _ => False
  | daemonConnected payload => ∀ conn carrier, payload = some (conn, carrier) → conn.queue = []
  | _ => True

lemma Widget.fits (h : Widget drawn m) (hfresh : fresh → drawn = app) : m.Fits fresh app := by
  cases h with
  | badge a f =>
      unfold badgeMessage
      split
      · trivial
      · trivial
      · trivial
      · exact fun _ => trivial
  | toggle accountId spaces selected error space checked hview hspace =>
      intro hf
      exact ⟨accountId, spaces, selected, error, hfresh hf ▸ hview, space, hspace, rfl⟩
  | next accountId spaces selected error hview hselected =>
      intro hf
      exact ⟨spaces, selected, error, hfresh hf ▸ hview, hselected⟩
  | submit accountId spaces localPath error hview =>
      intro hf
      exact ⟨spaces, localPath, error, hfresh hf ▸ hview⟩
  | syncStatus | addAccount | generalSettings | about | settings => exact fun _ => trivial
  | _ => trivial

lemma Subscribed.fits (h : Subscribed m) : m.Fits fresh app := by
  cases h with
  | _ => trivial

lemma fits_of_yields {task : Task} (h : task.Yields m)
    (hnew : ∀ conn carrier, m = .daemonConnected (some (conn, carrier)) → conn.queue = []) :
    m.Fits fresh app := by
  cases m with
  | navigateTo view =>
      cases task with
      | takeReceiver | saveLanguage =>
          cases view with
          | syncStatus | generalSettings => exact fun _ => trivial
          | _ => cases h
      | _ => cases h
  | daemonConnected payload =>
      rintro conn carrier rfl
      exact hnew conn carrier rfl
  | toggleSpaceSelection | pickSpacesNext | pickRootFolderSubmit | acceptDiscoveredSpace =>
      cases task with
      | _ => cases h
  | _ => trivial

/-! ## Updates -/

lemma sound_openView (h : Sound fresh ms app) (e : Protocol.DaemonEvent) :
    (openView app e).Vouched fresh (ms ++ [.daemonEvent e]) := by
  have hview := (h.mono (List.subset_append_left ms [.daemonEvent e])).view
  cases e with
  | spacesListed accountId spaces =>
      have hlisted : ∀ {few : List SpaceInfo}, few ⊆ spaces →
          Offered fresh (ms ++ [.daemonEvent (.spacesListed accountId spaces)]) accountId few :=
        fun hfew => ⟨accountId, spaces, by simp, hfew, fun _ => rfl⟩
      simp only [openView]
      split
      · refine ⟨hlisted (List.Subset.refl _), ?_⟩
        intro _ id hid
        obtain ⟨x, hx, rfl⟩ := List.mem_map.mp (List.mem_toFinset.mp hid)
        exact ⟨x, (List.mem_filter.mp hx).1, rfl⟩
      · exact ⟨hlisted (List.filter_subset_self _), fun _ id hid => by simp at hid⟩
  | accountFolderAdded accountId =>
      simp only [openView]
      cases hv : app.activeView with
      | pickRootFolder a =>
          rw [hv] at hview
          dsimp only
          split
          · trivial
          · exact hview
      | pickSpaces =>
          rw [hv] at hview
          exact hview
      | _ => trivial
  | accountAddStarted | accountAddFailed | accountSpaceFailed =>
      simp only [openView]
      cases hv : app.activeView with
      | pickSpaces | pickRootFolder =>
          rw [hv] at hview
          exact hview
      | _ => trivial
  | _ => exact hview

lemma sound_handleDaemonEvent (h : Sound fresh ms app) (e : Protocol.DaemonEvent) :
    Sound fresh (ms ++ [.daemonEvent e]) (handleDaemonEvent app e) := by
  have hshown : Sound fresh (ms ++ [.daemonEvent e])
      { app.withListing (Gui.handleEvent app.toApp e) with activeView := openView app e } :=
    ⟨sound_openView h e, fun cmd hcmd =>
      vouched_mono (h.queue cmd hcmd) (List.subset_append_left _ _)⟩
  cases e with
  | accountAddCompleted => exact hshown.sendCommand _ trivial
  | _ => exact hshown

lemma sound_addAccountSubmit (h : Sound fresh ms app) : Sound fresh ms (addAccountSubmit dt app) := by
  unfold addAccountSubmit
  split
  · dsimp only
    split
    · exact h.opens trivial rfl
    · split
      · exact (h.sendCommand (.addAccount _) trivial).opens trivial rfl
      · exact h.opens trivial rfl
  · exact h

lemma sound_pickSpacesNext (h : Sound fresh ms app) {accountId : Uuid}
    (hfits : Message.Fits fresh app (.pickSpacesNext accountId)) :
    Sound fresh ms (pickSpacesNext dt app accountId) := by
  unfold pickSpacesNext
  split
  · rename_i a spaces selected error hv
    have hview := h.view
    rw [hv] at hview
    obtain ⟨hoffered, hids⟩ := hview
    -- the button names the account of the view
    have hsame : fresh → a = accountId ∧ selected ≠ ∅ := by
      intro hf
      obtain ⟨spaces', selected', error', hv', hne⟩ := hfits hf
      rw [hv, View.pickSpaces.injEq] at hv'
      exact ⟨hv'.1, hv'.2.2.1 ▸ hne⟩
    have hchosen : Offered fresh ms accountId (spaces.filter (fun s => s.id ∈ selected)) :=
      (hoffered.subset (List.filter_subset_self _)).rename (fun hf => (hsame hf).1)
    dsimp only
    split
    · refine h.opens ⟨hchosen, fun hf => ?_, fun path hp => by cases hp⟩ rfl
      obtain ⟨id, hid⟩ := Finset.nonempty_iff_ne_empty.mpr (hsame hf).2
      obtain ⟨x, hx, rfl⟩ := hids hf id hid
      exact List.ne_nil_of_mem (List.mem_filter.mpr ⟨hx, by simpa using hid⟩)
    · refine Sound.opens (Sound.sendAll h ?_) trivial rfl
      intro x hx
      exact ⟨x, hchosen.subset (by simpa using hx), rfl⟩
  · exact h

lemma sound_pickRootFolderSubmit (h : Sound fresh ms app) {accountId : Uuid}
    (hfits : Message.Fits fresh app (.pickRootFolderSubmit accountId)) :
    Sound fresh ms (pickRootFolderSubmit app accountId) := by
  unfold pickRootFolderSubmit
  split
  · rename_i a spaces root error hv
    have hview := h.view
    rw [hv] at hview
    obtain ⟨hoffered, hne, hpicked⟩ := hview
    refine h.sendCommand _ ⟨hpicked root rfl, spaces, hoffered.rename (fun hf => ?_), rfl, hne⟩
    obtain ⟨spaces', localPath', error', hv'⟩ := hfits hf
    rw [hv, View.pickRootFolder.injEq] at hv'
    exact hv'.1
  · exact h

/-- **Every update keeps to what has been offered.** -/
lemma Sound.update (h : Sound fresh ms app) (hfits : m.Fits fresh app) :
    Sound fresh (ms ++ [m]) (update dt app m).1 := by
  have hmono := h.mono (List.subset_append_left ms [m])
  cases m with
  | daemonEvent e => exact sound_handleDaemonEvent h e
  | navigateTo view => exact hmono.opens (hfits _) rfl
  | daemonConnected payload =>
      cases payload with
      | none => exact hmono.opens hmono.view rfl
      | some payload =>
          refine ⟨hmono.view, ?_⟩
          intro cmd hcmd
          have hempty : payload.1.queue = [] := hfits payload.1 payload.2 rfl
          have hnil : cmd ∈ payload.1.queue := hcmd
          simp [hempty] at hnil
  | daemonDisconnected | startDaemon =>
      simp only [IcedApp.update]
      split
      · exact hmono.opens hmono.view rfl
      · exact hmono.opens hmono.view rfl
  | addAccountUrlChanged url =>
      simp only [IcedApp.update, appUpdate]
      split
      · exact hmono.opens trivial rfl
      · exact hmono
  | addAccountSubmit => exact sound_addAccountSubmit hmono
  | toggleSpaceSelection accountId spaceId select =>
      simp only [IcedApp.update, appUpdate]
      split
      · rename_i a spaces selected error hv
        have hview := hmono.view
        rw [hv] at hview
        refine hmono.opens ⟨hview.1, fun hf id hid => ?_⟩ rfl
        cases select with
        | false => exact hview.2 hf id (Finset.mem_of_mem_erase hid)
        | true =>
            rcases Finset.mem_insert.mp hid with rfl | hid
            · obtain ⟨a', spaces', selected', error', hv', x, hx, hxid⟩ := hfits hf
              rw [hv, View.pickSpaces.injEq] at hv'
              exact ⟨x, hv'.2.1 ▸ hx, hxid⟩
            · exact hview.2 hf id hid
      · exact hmono
  | pickSpacesNext accountId => exact sound_pickSpacesNext hmono hfits
  | pickRootFolderPicked path =>
      simp only [IcedApp.update, appUpdate]
      split
      · rename_i a spaces localPath error path hv
        have hview := hmono.view
        rw [hv] at hview
        refine hmono.opens ⟨hview.1, hview.2.1, ?_⟩ rfl
        intro p hp
        obtain rfl := Option.some.inj hp
        simp [Picked]
      · exact hmono
  | pickRootFolderSubmit accountId => exact sound_pickRootFolderSubmit hmono hfits
  | acceptDiscoveredSpace => exact hfits.elim
  | windowCloseRequested id =>
      simp only [IcedApp.update, appUpdate]
      split
      · exact hmono.opens hmono.view rfl
      · exact hmono
  | addSpaceClicked | dismissDiscoveredSpace | forceSyncFolder | quit =>
      exact hmono.sendCommand _ trivial
  | pauseFolder folderId =>
      exact (hmono.sendCommand (.pauseFolder folderId) trivial).opens hmono.view rfl
  | resumeFolder folderId =>
      exact (hmono.sendCommand (.resumeFolder folderId) trivial).opens hmono.view rfl
  | removeAccount accountId =>
      exact (hmono.sendCommand (.removeAccount accountId) trivial).opens trivial rfl
  | showAbout => exact hmono.opens trivial rfl
  | toggleWindow | windowOpened | languageChanged => exact hmono.opens hmono.view rfl
  | pickRootFolderBrowse | openFolder | openUrl | applyAppIcon => exact hmono

lemma mem_of_background {c c' : DaemonConnection} (h : DaemonConnection.Background c c')
    (hcmd : cmd ∈ c'.queue) : cmd ∈ c.queue := by
  cases h with
  | taken c queue capacity => exact List.mem_cons_of_mem c hcmd
  | ended => exact hcmd

lemma Used.sound (h : Used dt fresh ms drawn s) : Sound fresh ms s.app := by
  induction h with
  | init => exact ⟨trivial, fun cmd hcmd => by cases hcmd⟩
  | draw _ ih => exact ih
  | press _ hm hfresh ih => exact ih.update (hm.fits hfresh)
  | told _ hm ih => exact ih.update hm.fits
  | yielded _ before after task _ hm hnew ih =>
      exact @Sound.update dt fresh _ _ _ ih (fits_of_yields hm hnew)
  | background _ hd ih => exact ⟨ih.view, fun cmd hcmd => ih.queue cmd (mem_of_background hd hcmd)⟩

/-- **The wizard asks for what was offered.**  In every run of the GUI with its user, whatever of its
commands waits to be sent: the root folder of a `SetAccountFolders` has been picked, and the spaces it
names are of one listing, under their names; the space of an `AddAccountSpace` has been listed.  If no
click was on an old window, that was a listing for the account of the command, and a
`SetAccountFolders` names one space at least. -/
theorem wizard (dt : Desktop) (fresh : Prop) (h : Used dt fresh ms drawn s) :
    (∀ accountId rootPath selections,
      .setAccountFolders accountId rootPath selections ∈ s.app.daemon.queue →
      .pickRootFolderPicked (some rootPath) ∈ ms ∧
      ∃ listedFor listing, .daemonEvent (.spacesListed listedFor listing) ∈ ms ∧
        (∀ x ∈ selections, ∃ y ∈ listing, x = ⟨y.id, y.name⟩) ∧
        (fresh → listedFor = accountId ∧ selections ≠ [])) ∧
    (∀ accountId spaceId localPath,
      .addAccountSpace accountId spaceId localPath ∈ s.app.daemon.queue →
      ∃ listedFor listing, .daemonEvent (.spacesListed listedFor listing) ∈ ms ∧
        (∃ y ∈ listing, y.id = spaceId) ∧ (fresh → listedFor = accountId)) := by
  constructor
  · intro accountId rootPath selections hcmd
    obtain ⟨hpicked, spaces, ⟨listedFor, listing, hmem, hsub, hid⟩, rfl, hne⟩ :=
      h.sound.queue _ hcmd
    refine ⟨hpicked, listedFor, listing, hmem, ?_, fun hf => ⟨hid hf, by simpa using hne hf⟩⟩
    intro x hx
    obtain ⟨y, hy, rfl⟩ := List.mem_map.mp hx
    exact ⟨y, hsub hy, rfl⟩
  · intro accountId spaceId localPath hcmd
    obtain ⟨space, ⟨listedFor, listing, hmem, hsub, hid⟩, rfl⟩ := h.sound.queue _ hcmd
    exact ⟨listedFor, listing, hmem, ⟨space, hsub (by simp), rfl⟩, hid⟩

/-! ## Two accounts in one command -/

/-- The spaces of one account, … -/
def firstListing : List SpaceInfo := [⟨"s1".toList, "One".toList, "personal".toList⟩]

/-- … and of another. -/
def secondListing : List SpaceInfo := [⟨"s2".toList, "Two".toList, "personal".toList⟩]

/-- The theorem for a run in which the listing of account 2 arrives as the user goes on from that
of account 1: the folders of account 1 are to be those of account 2. -/
theorem wizard_mixed : ∃ ms drawn s, Used plainDesktop False ms drawn s ∧
    .setAccountFolders 1 "/r".toList [⟨"s2".toList, "Two".toList⟩] ∈ s.app.daemon.queue ∧
    .pickRootFolderPicked (some "/r".toList) ∈ ms ∧
    ∀ listing, .daemonEvent (.spacesListed 1 listing) ∈ ms → listing = firstListing := by
  have hinit := @Used.init plainDesktop False (some .en) .en false false []
  have hconnected := hinit.yielded (m := .daemonConnected (some (.connected, 0))) [] []
    (.spawnAndConnect 0) rfl trivial (by
      intro conn carrier h
      cases h
      rfl)
  have hfirst := (hconnected.told (.event (.spacesListed 1 firstListing))).draw
  have hsecond := hfirst.told (.event (.spacesListed 2 secondListing))
  have hnext := hsecond.press (.next 1 firstListing {"s1".toList} none rfl (by simp)) False.elim
  have hbrowse := hnext.draw.press (.browse 1 secondListing none none rfl) False.elim
  have hpicked := hbrowse.yielded (m := .pickRootFolderPicked (some "/r".toList)) [.takeReceiver 0]
    [] .pickFolder rfl trivial (by
      intro conn carrier h
      cases h)
  have hsubmit := hpicked.draw.press
    (.submit 1 secondListing (some "/r".toList) none rfl (by simp)) False.elim
  obtain ⟨hwizard, -⟩ := wizard plainDesktop False hsubmit
  refine ⟨_, _, _, hsubmit, List.mem_singleton.mpr rfl,
    (hwizard _ _ _ (List.mem_singleton.mpr rfl)).1, ?_⟩
  intro listing hlisting
  simpa using hlisting

end IcedApp

end OwncloudSync
