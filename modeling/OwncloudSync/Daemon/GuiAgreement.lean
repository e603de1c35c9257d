import OwncloudSync.Daemon.GuiView
import OwncloudSync.Daemon.Pending
import OwncloudSync.Lib.Runs
import Mathlib.Logic.Function.Basic
import Mathlib.Tactic.Common

/-!
# Paused and removed, in every GUI

Any number of GUIs are subscribed to the daemon.  A GUI that pauses or resumes a folder, or removes
an account, shows this at once and sends the command; the daemon answers with an
`AccountStateChanged`, **which every GUI ignores**, also those that did not act.  `SyncStarted` and
`SyncFinished` set the status of a folder whether it is paused or not, and `TriggerSync` broadcasts a
`SyncStarted` for a paused folder, too.

So a GUI and the scheduler agree on `Paused` as long as a GUI that pauses is the only one that lists
the folder, and no event of a sync reaches it between its click and the next `ResumeFolder`
(`agrees_of_orderly`).

The commands of a GUI keep their order, and so do the events to it.  The steps of the daemon are
those of `Daemon/MainLoop.lean`, and none of them is left out (`background_or_command`).
-/

namespace OwncloudSync

open Gui

/-- A GUI, and what is on its way from it and to it. -/
structure Station where
  app : App
  outbox : List Protocol.DaemonCommand
  inbox : List DaemonEvent

/-- What a user does. -/
inductive Message where
  | pauseFolder (folderId : Uuid)
  | resumeFolder (folderId : Uuid)
  | forceSyncFolder (folderId : Uuid)
  | removeAccount (accountId : Uuid)

/-- `update` of the GUI. -/
def Station.update (c : Station) : Message → Station
  | .pauseFolder f => { c with app := setFolderStatus c.app f .paused
                               outbox := c.outbox ++ [.pauseFolder f] }
  | .resumeFolder f => { c with app := setFolderStatus c.app f .idle
                                outbox := c.outbox ++ [.resumeFolder f] }
  | .forceSyncFolder f => { c with outbox := c.outbox ++ [.triggerSync f] }
  | .removeAccount a => { c with app := ⟨c.app.accounts.filter (fun x => x.id ≠ a)⟩
                                 outbox := c.outbox ++ [.removeAccount a] }

/-- What a GUI shows of a folder. -/
def Station.shown (c : Station) (f : Uuid) : Option Gui.FolderStatus := statusOf c.app f

/-- The folders of a GUI. -/
def Station.listing (c : Station) : List FolderView := c.app.accounts.flatMap AccountView.folders

/-- The daemon and the GUIs that are connected to it. -/
structure Network (ι : Type) where
  daemon : Daemon
  config : AppConfig
  stations : ι → Station

namespace Network

variable {ι : Type} [DecidableEq ι]

/-- Every GUI is told what the daemon has added to its events. -/
def broadcast (n : Network ι) (events : List DaemonEvent) : Network ι :=
  { n with stations := fun i => { n.stations i with inbox := (n.stations i).inbox ++ events } }

/-- One GUI has changed. -/
def setStation (n : Network ι) (i : ι) (c : Station) : Network ι :=
  { n with stations := Function.update n.stations i c }

/-- The scheduler is changed, and every GUI told. -/
def tell (n : Network ι) (scheduler : SyncScheduler) (events : List DaemonEvent) : Network ι :=
  broadcast { n with daemon := { n.daemon with scheduler := scheduler
                                               events := n.daemon.events ++ events } } events

/-- `handle_command` for the commands sent here; a `RemoveAccount` whose save fails is not told. -/
def handleCommand (n : Network ι) (saved : Bool) : Protocol.DaemonCommand → Network ι
  | .triggerSync f => n.tell (n.daemon.scheduler.forceRequestSync f) [.syncStarted f]
  | .pauseFolder f => n.tell (n.daemon.scheduler.pause f) [.accountStateChanged f "paused"]
  | .resumeFolder f => n.tell (n.daemon.scheduler.resume f) [.accountStateChanged f "active"]
  | .removeAccount a =>
      tell { n with config := n.config.removeAccount a } n.daemon.scheduler
        (if saved then [.accountStateChanged a "removed"] else [])
  | _ => n

/-- A step of the main loop or of a sync task that is no command of a GUI: it pauses and resumes
nothing, and tells only of syncs that it starts. -/
structure Background (d d' : Daemon) : Prop where
  step : Daemon.Step d d'
  paused : ∀ f, d'.scheduler.paused f = d.scheduler.paused f
  started : ∀ f, d'.events = d.events ++ [.syncStarted f] → ∃ rest, d.loop = .spawning (f :: rest)

/-- Who acts: a user, the main loop on a command or by itself, or a GUI on an event. -/
inductive Action (ι : Type) where
  | message (i : ι) (m : Message)
  | command (i : ι)
  | background (d : Daemon)
  | handle (i : ι)

/-- One action. -/
inductive Step : Network ι → Action ι → Network ι → Prop
  | message {n : Network ι} (i : ι) (m : Message) :
      Step n (.message i m) (n.setStation i ((n.stations i).update m))
  | command {n : Network ι} (i : ι) {cmd : Protocol.DaemonCommand}
      {rest : List Protocol.DaemonCommand} (saved : Bool) (h : n.daemon.loop = .select)
      (hout : (n.stations i).outbox = cmd :: rest) :
      Step n (.command i)
        ((n.setStation i { n.stations i with outbox := rest }).handleCommand saved cmd)
  | background {n : Network ι} {d : Daemon} {events : List DaemonEvent}
      (h : Background n.daemon d) (hev : d.events = n.daemon.events ++ events) :
      Step n (.background d) ({ n with daemon := d }.broadcast events)
  | handle {n : Network ι} (i : ι) {e : DaemonEvent} {rest : List DaemonEvent}
      (hin : (n.stations i).inbox = e :: rest) :
      Step n (.handle i)
        (n.setStation i { n.stations i with inbox := rest
                                            app := handleDaemonEvent (n.stations i).app e })

/-! ## Agreement -/

/-- Every GUI shows a folder as `Paused` exactly when the scheduler has it paused, and lists only
accounts of the configuration. -/
structure Agrees (n : Network ι) : Prop where
  paused : ∀ i, ∀ v ∈ (n.stations i).listing, (v.status = .paused ↔ n.daemon.scheduler.paused v.id = true)
  accounts : ∀ i, ∀ a ∈ (n.stations i).app.accountIds, a ∈ n.config.accountIds

/-- The folders the main loop is about to start. -/
def spawning : Loop → List Uuid
  | .spawning ready => ready
  | _ => []

/-- No sync of the folder is in progress. -/
structure Idle (d : Daemon) (f : Uuid) : Prop where
  spawning : f ∉ spawning d.loop
  tasks : f ∉ d.tasks
  finished : ∀ result, (f, result) ∉ d.finished

/-- All commands and events have been delivered, and no sync is in progress. -/
structure Settled (n : Network ι) : Prop where
  outbox : ∀ i, (n.stations i).outbox = []
  inbox : ∀ i, (n.stations i).inbox = []
  idle : ∀ f, Idle n.daemon f

/-- The GUIs have subscribed: they agree, and no folder is listed twice by one of them. -/
structure Starts (n : Network ι) : Prop where
  settled : Settled n
  agrees : Agrees n
  folderIds : ∀ i, ((n.stations i).listing.map FolderView.id).Nodup

/-- The event is of a sync of the folder. -/
def aboutSync (f : Uuid) : DaemonEvent → Bool
  | .syncStarted g => g = f
  | .syncFinished g _ _ => g = f
  | .accountStateChanged _ _ => false

/-- What a command makes of the folder's flag. -/
def flagOf (f : Uuid) : Protocol.DaemonCommand → Option Bool
  | .pauseFolder g => if g = f then some true else none
  | .resumeFolder g => if g = f then some false else none
  | _ => none

/-- What the commands that are on their way make of it. -/
def lastFlag (f : Uuid) : List Protocol.DaemonCommand → Option Bool
  | [] => none
  | cmd :: rest => (lastFlag f rest).or (flagOf f cmd)

/-- The folder is paused, or will be when the commands of the GUI have been handled. -/
def due (d : Daemon) (c : Station) (f : Uuid) : Bool :=
  (lastFlag f c.outbox).getD (d.scheduler.paused f)

/-- The condition under which the GUIs agree with the daemon:

* a folder is paused or resumed, and an account is removed, only by a GUI that is the only one to
  list it;
* a folder is paused only when the scheduler knows it, no sync of it is in progress, and none is
  still to be shown by that GUI;
* no sync of a folder starts, and no `TriggerSync` of it is handled, as long as a GUI that lists the
  folder has it paused. -/
def Orderly (n : Network ι) : Action ι → Prop
  | .message i (.pauseFolder f) =>
      (∀ j, j ≠ i → (n.stations j).shown f = none) ∧ n.daemon.scheduler f ≠ none ∧ Idle n.daemon f ∧
        ∀ e ∈ (n.stations i).inbox, aboutSync f e = false
  | .message i (.resumeFolder f) => ∀ j, j ≠ i → (n.stations j).shown f = none
  | .message i (.removeAccount a) => ∀ j, j ≠ i → a ∉ (n.stations j).app.accountIds
  | .message _ (.forceSyncFolder _) => True
  | .command i => ∀ f, (n.stations i).outbox.head? = some (.triggerSync f) →
      ∀ j, (n.stations j).shown f ≠ none → due n.daemon (n.stations j) f = false
  | .background d => ∀ ready, n.daemon.loop = .select → d.loop = .spawning ready →
      ∀ f ∈ ready, ∀ j, (n.stations j).shown f ≠ none → due n.daemon (n.stations j) f = false
  | .handle _ => True

/-- A step that meets the condition. -/
def OrderlyStep (n n' : Network ι) : Prop := ∃ act, Step n act n' ∧ Orderly n act

/-- Any step. -/
def Next (n n' : Network ι) : Prop := ∃ act, Step n act n'

variable {n n' : Network ι} {act : Action ι} {d d' : Daemon} {c : Station} {f g : Uuid}

/-! ## One GUI and one folder -/

/-- The GUI shows what the folder will be, and if it will be paused, nothing comes that changes
this. -/
structure Tuned (d : Daemon) (c : Station) (f : Uuid) : Prop where
  status : ∀ st, c.shown f = some st → (st = .paused ↔ due d c f = true)
  quiet : c.shown f ≠ none → due d c f = true →
    Idle d f ∧ ∀ e ∈ c.inbox, aboutSync f e = false

omit [DecidableEq ι] in
lemma lastFlag_concat {cmd : Protocol.DaemonCommand} {l : List Protocol.DaemonCommand} :
    lastFlag f (l ++ [cmd]) = (flagOf f cmd).or (lastFlag f l) := by
  induction l with
  | nil => simp [lastFlag]
  | cons x l ih => rw [List.cons_append, lastFlag, ih, Option.or_assoc, lastFlag]

/-- After a click on the folder. -/
lemma shown_click {status : Gui.FolderStatus} {out : List Protocol.DaemonCommand} :
    Station.shown { c with app := setFolderStatus c.app f status, outbox := out } f =
      (findFolder c.app f).map (fun _ => status) :=
  statusOf_modifyFolder (by intro; rfl) _

lemma shown_click_ne {status : Gui.FolderStatus} {out : List Protocol.DaemonCommand} (h : g ≠ f) :
    Station.shown { c with app := setFolderStatus c.app f status, outbox := out } g = c.shown g :=
  statusOf_modifyFolder_ne (by intro; rfl) h _

/-- An event about a folder shows something else than `Paused`. -/
lemma statusOf_of_aboutSync (app : App) {e : DaemonEvent} (h : aboutSync f e = true) :
    (statusOf (handleDaemonEvent app e) f = none ↔ statusOf app f = none) ∧
      statusOf (handleDaemonEvent app e) f ≠ some .paused := by
  cases e with
  | syncStarted g =>
      obtain rfl : g = f := by simpa [aboutSync] using h
      rw [handleDaemonEvent, statusOf_modifyFolder (by intro; rfl)]
      simp [statusOf]
  | syncFinished g errors report =>
      obtain rfl : g = f := by simpa [aboutSync] using h
      rw [handleDaemonEvent, statusOf_modifyFolder (fun v => by split <;> rfl)]
      cases errors with
      | nil => simp [statusOf]
      | cons x xs => simp [statusOf]
  | accountStateChanged a state => cases h

lemma statusOf_of_not_aboutSync {app : App} {e : DaemonEvent} (h : aboutSync f e = false) :
    statusOf (handleDaemonEvent app e) f = statusOf app f := by
  cases e with
  | syncStarted g =>
      have hne : f ≠ g := fun hfg => by simp [aboutSync, hfg] at h
      exact statusOf_modifyFolder_ne (by intro; rfl) hne _
  | syncFinished g errors report =>
      have hne : f ≠ g := fun hfg => by simp [aboutSync, hfg] at h
      exact statusOf_modifyFolder_ne (fun v => by split <;> rfl) hne _
  | accountStateChanged a state => rfl

/-- What is on its way may grow, unless it is about a folder that is to stay paused. -/
lemma Tuned.receive (h : Tuned d c f) {events : List DaemonEvent}
    (hev : c.shown f ≠ none → due d c f = true → ∀ e ∈ events, aboutSync f e = false) :
    Tuned d { c with inbox := c.inbox ++ events } f where
  status := h.status
  quiet hs hd := by
    obtain ⟨hidle, hin⟩ := h.quiet hs hd
    exact ⟨hidle, List.forall_mem_append.mpr ⟨hin, hev hs hd⟩⟩

/-- The daemon does something else. -/
lemma Tuned.daemon (h : Tuned d c f) (hp : d'.scheduler.paused f = d.scheduler.paused f)
    (hidle : c.shown f ≠ none → due d c f = true → Idle d f → Idle d' f) : Tuned d' c f := by
  have hdue : due d' c f = due d c f := by rw [due, due, hp]
  refine ⟨fun st hst => ?_, fun hs hd => ?_⟩
  · rw [hdue]
    exact h.status st hst
  · rw [hdue] at hd
    obtain ⟨hi, hin⟩ := h.quiet hs hd
    exact ⟨hidle hs hd hi, hin⟩

/-- The GUI handles an event. -/
lemma Tuned.handle {e : DaemonEvent} {rest : List DaemonEvent} (h : Tuned d c f)
    (hin : c.inbox = e :: rest) :
    Tuned d { c with inbox := rest, app := handleDaemonEvent c.app e } f := by
  have hdue : due d { c with inbox := rest, app := handleDaemonEvent c.app e } f = due d c f := rfl
  cases he : aboutSync f e with
  | false =>
      have hsame : Station.shown { c with inbox := rest, app := handleDaemonEvent c.app e } f =
          c.shown f := statusOf_of_not_aboutSync he
      refine ⟨fun st hst => h.status st (hsame ▸ hst), fun hs hd => ?_⟩
      obtain ⟨hidle, hq⟩ := h.quiet (hsame ▸ hs) hd
      exact ⟨hidle, fun x hx => hq x (hin ▸ List.mem_cons_of_mem _ hx)⟩
  | true =>
      obtain ⟨hnone, hne⟩ := statusOf_of_aboutSync c.app he
      -- it would not be on its way if the folder was to stay paused
      have hnot : Station.shown { c with inbox := rest, app := handleDaemonEvent c.app e } f ≠ none →
          due d c f = false := by
        intro hs
        by_contra hd
        rw [Bool.not_eq_false] at hd
        have hq := (h.quiet (fun hnn => hs (hnone.mpr hnn)) hd).2 e (hin ▸ List.mem_cons_self)
        rw [he] at hq
        cases hq
      refine ⟨fun st hst => ?_, fun hs hd => ?_⟩
      · rw [hdue, hnot (by rw [hst]; simp)]
        refine iff_of_false (fun hp => ?_) (by simp)
        rw [hp] at hst
        exact hne hst
      · rw [hdue, hnot hs] at hd
        cases hd

/-- A click on another folder. -/
lemma Tuned.click_ne {status : Gui.FolderStatus} {cmd : Protocol.DaemonCommand} (h : Tuned d c g)
    (hg : g ≠ f) (hcmd : flagOf g cmd = none) :
    Tuned d { c with app := setFolderStatus c.app f status, outbox := c.outbox ++ [cmd] } g := by
  have hdue : due d { c with app := setFolderStatus c.app f status, outbox := c.outbox ++ [cmd] } g =
      due d c g := by
    rw [due, due, lastFlag_concat, hcmd, Option.none_or]
  refine ⟨fun st hst => ?_, fun hs hd => ?_⟩
  · rw [shown_click_ne hg] at hst
    rw [hdue]
    exact h.status st hst
  · rw [shown_click_ne hg] at hs
    rw [hdue] at hd
    exact h.quiet hs hd

lemma Tuned.pause (h : Tuned d c g) (hidle : Idle d f)
    (hin : ∀ e ∈ c.inbox, aboutSync f e = false) : Tuned d (c.update (.pauseFolder f)) g := by
  by_cases hg : g = f
  · subst hg
    have hdue : due d (c.update (.pauseFolder g)) g = true := by
      rw [due, Station.update, lastFlag_concat]
      simp [flagOf]
    refine ⟨fun st hst => ?_, fun _ _ => ⟨hidle, hin⟩⟩
    rw [Station.update, shown_click, Option.map_eq_some_iff] at hst
    obtain ⟨v, -, rfl⟩ := hst
    exact iff_of_true rfl hdue
  · exact h.click_ne hg (if_neg (Ne.symm hg))

lemma Tuned.resume (h : Tuned d c g) : Tuned d (c.update (.resumeFolder f)) g := by
  by_cases hg : g = f
  · subst hg
    have hdue : due d (c.update (.resumeFolder g)) g = false := by
      rw [due, Station.update, lastFlag_concat]
      simp [flagOf]
    refine ⟨fun st hst => ?_, fun _ hd => ?_⟩
    · rw [Station.update, shown_click, Option.map_eq_some_iff] at hst
      obtain ⟨v, -, rfl⟩ := hst
      rw [hdue]
      simp
    · rw [hdue] at hd
      cases hd
  · exact h.click_ne hg (if_neg (Ne.symm hg))

/-- A click that concerns no flag, and after which no more is listed. -/
lemma Tuned.other {app : App} {cmd : Protocol.DaemonCommand} (h : Tuned d c g)
    (happ : ∀ st, statusOf app g = some st → c.shown g = some st) (hcmd : flagOf g cmd = none) :
    Tuned d { c with app := app, outbox := c.outbox ++ [cmd] } g := by
  have hdue : due d { c with app := app, outbox := c.outbox ++ [cmd] } g = due d c g := by
    rw [due, due, lastFlag_concat, hcmd, Option.none_or]
  refine ⟨fun st hst => ?_, fun hs hd => ?_⟩
  · rw [hdue]
    exact h.status st (happ st hst)
  · obtain ⟨st, hst⟩ := Option.ne_none_iff_exists'.mp hs
    rw [hdue] at hd
    exact h.quiet (by rw [happ st hst]; simp) hd

/-- A command of the GUI is handled, and the flag becomes what was due. -/
lemma due_command {cmd : Protocol.DaemonCommand} {rest : List Protocol.DaemonCommand}
    (hout : c.outbox = cmd :: rest)
    (hp : d'.scheduler.paused g = (flagOf g cmd).getD (d.scheduler.paused g)) :
    due d' { c with outbox := rest } g = due d c g := by
  rw [due, due, hout, lastFlag, hp]
  cases lastFlag g rest <;> rfl

lemma Tuned.command {cmd : Protocol.DaemonCommand} {rest : List Protocol.DaemonCommand}
    (h : Tuned d c g) (hout : c.outbox = cmd :: rest)
    (hp : d'.scheduler.paused g = (flagOf g cmd).getD (d.scheduler.paused g))
    (hidle : Idle d g → Idle d' g) : Tuned d' { c with outbox := rest } g := by
  have hdue := due_command hout hp
  refine ⟨fun st hst => ?_, fun hs hd => ?_⟩
  · rw [hdue]
    exact h.status st hst
  · rw [hdue] at hd
    obtain ⟨hi, hin⟩ := h.quiet hs hd
    exact ⟨hidle hi, hin⟩

/-! ## The steps of the daemon -/

/-- A folder that is not ready stays idle. -/
lemma Idle.step (h : Idle d f) (hs : Daemon.Step d d')
    (hready : ∀ ready, d.loop = .select → d'.loop = .spawning ready → f ∉ ready) : Idle d' f := by
  obtain ⟨hsp, htasks, hfin⟩ := h
  cases hs with
  | tick hl hr => exact ⟨hready _ hl rfl, htasks, hfin⟩
  | spawn hl =>
      rw [hl] at hsp
      refine ⟨fun hm => hsp (List.mem_cons_of_mem _ hm), ?_, hfin⟩
      dsimp only
      split
      · rw [List.mem_cons, not_or]
        exact ⟨fun he => hsp (he ▸ List.mem_cons_self), htasks⟩
      · exact htasks
  | finish result hm =>
      refine ⟨hsp, fun hm' => htasks (List.mem_of_mem_erase hm'), fun r hr => ?_⟩
      rcases List.mem_append.mp hr with hr | hr
      · exact hfin r hr
      · obtain ⟨rfl, -⟩ := Prod.mk.inj (List.mem_singleton.mp hr)
        exact htasks hm
  | report hf =>
      refine ⟨hsp, htasks, fun r hr => hfin r ?_⟩
      rw [hf]
      rcases List.mem_append.mp hr with hr | hr
      · exact List.mem_append_left _ hr
      · exact List.mem_append_right _ (List.mem_cons_of_mem _ hr)
  | panic hm => exact ⟨hsp, fun hm' => htasks (List.mem_of_mem_erase hm'), hfin⟩
  | _ => first | exact ⟨hsp, htasks, hfin⟩ | exact ⟨List.not_mem_nil, htasks, hfin⟩

/-- Every step of the daemon is one of the background, or handles a command of a GUI. -/
lemma background_or_command (hs : Daemon.Step d d') : Background d d' ∨ d.loop = .select ∧ ∃ f,
    d' = { d with scheduler := d.scheduler.forceRequestSync f
                  events := d.events ++ [.syncStarted f] } ∨
    d' = { d with scheduler := d.scheduler.pause f
                  events := d.events ++ [.accountStateChanged f "paused"] } ∨
    d' = { d with scheduler := d.scheduler.resume f
                  events := d.events ++ [.accountStateChanged f "active"] } := by
  have hstep := hs
  cases hs with
  | triggerSync id hl => exact Or.inr ⟨hl, id, Or.inl rfl⟩
  | pauseFolder id hl => exact Or.inr ⟨hl, id, Or.inr (Or.inl rfl)⟩
  | resumeFolder id hl => exact Or.inr ⟨hl, id, Or.inr (Or.inr rfl)⟩
  | spawn hl =>
      refine Or.inl ⟨hstep, fun _ => rfl, fun f he => ?_⟩
      have hlast := List.append_cancel_left he
      rw [List.cons.injEq] at hlast
      cases hlast.1
      exact ⟨_, hl⟩
  | schedule hl =>
      refine Or.inl ⟨hstep, fun f => ?_, fun f he => by simp at he⟩
      exact (SyncScheduler.modify_paused (fun st => by split <;> rfl)).trans
        SyncScheduler.addFolder_paused
  | pollRecv hl hrx =>
      refine Or.inl ⟨hstep, fun f => ?_, fun f he => by simp at he⟩
      exact SyncScheduler.modify_paused (fun st => by split <;> rfl)
  | drain hl =>
      refine Or.inl ⟨hstep, fun f => ?_, fun f he => by simp at he⟩
      exact SyncScheduler.modify_paused (fun st => by split <;> rfl)
  | tick hl hr =>
      exact Or.inl ⟨hstep, fun f => SyncScheduler.startAll_paused, fun f he => by simp at he⟩
  | finish result hm =>
      exact Or.inl ⟨hstep, fun f => SyncScheduler.finishSync_paused, fun f he => by simp at he⟩
  | _ => exact Or.inl ⟨hstep, fun f => rfl, fun f he => by simp at he⟩

/-- The daemon tells nothing of a folder that is idle. -/
lemma Idle.not_told {events : List DaemonEvent} (h : Idle d f) (hb : Background d d')
    (hev : d'.events = d.events ++ events) : ∀ e ∈ events, aboutSync f e = false := by
  obtain ⟨hs, -, hstarted⟩ := hb
  cases hs with
  | triggerSync id hl =>
      obtain ⟨rest, hsp⟩ := hstarted id rfl
      rw [hl] at hsp
      cases hsp
  | spawn hl =>
      obtain rfl := List.append_cancel_left hev
      have hsp := h.spawning
      rw [hl] at hsp
      rw [List.forall_mem_singleton]
      exact decide_eq_false (fun he => hsp (he ▸ List.mem_cons_self))
  | report hf =>
      rename_i id result before after
      obtain rfl := List.append_cancel_left hev
      rw [List.forall_mem_singleton]
      refine decide_eq_false (fun he => h.finished result ?_)
      rw [hf, ← he]
      exact List.mem_append_right _ List.mem_cons_self
  | pauseFolder id hl =>
      obtain rfl := List.append_cancel_left hev
      rw [List.forall_mem_singleton]
      rfl
  | resumeFolder id hl =>
      obtain rfl := List.append_cancel_left hev
      rw [List.forall_mem_singleton]
      rfl
  | removeAccount a hl =>
      obtain rfl := List.append_cancel_left hev
      rw [List.forall_mem_singleton]
      rfl
  | _ =>
      obtain rfl : events = [] := List.self_eq_append_right.mp hev
      exact fun e he => nomatch he

/-! ## All GUIs -/

/-- The invariant. -/
structure Inv (n : Network ι) : Prop where
  folderIds : ∀ i, ((n.stations i).listing.map FolderView.id).Nodup
  tuned : ∀ i f, Tuned n.daemon (n.stations i) f
  /-- who pauses or resumes is alone -/
  alone : ∀ i f, ∀ cmd ∈ (n.stations i).outbox, flagOf f cmd ≠ none →
    ∀ j, j ≠ i → (n.stations j).shown f = none
  known : ∀ i f, .pauseFolder f ∈ (n.stations i).outbox → n.daemon.scheduler f ≠ none
  accounts : ∀ i, ∀ a ∈ (n.stations i).app.accountIds, a ∈ n.config.accountIds ∧
    ∀ j, .removeAccount a ∉ (n.stations j).outbox

/-- With ids that occur once, what is found is what is listed. -/
lemma findFolder_eq_some {app : App} {v : FolderView}
    (hnd : ((app.accounts.flatMap AccountView.folders).map FolderView.id).Nodup) :
    findFolder app f = some v ↔ v ∈ app.accounts.flatMap AccountView.folders ∧ v.id = f := by
  constructor
  · intro h
    exact ⟨Keyed.mem_of_find h, Keyed.key_of_find h⟩
  · rintro ⟨hm, rfl⟩
    cases hfind : findFolder app v.id with
    | none => exact absurd rfl (Keyed.find_eq_none.mp hfind v hm)
    | some w =>
        rw [List.inj_on_of_nodup_map hnd (Keyed.mem_of_find hfind) hm (Keyed.key_of_find hfind)]

omit [DecidableEq ι] in
lemma Starts.inv (h : Starts n) : Inv n where
  folderIds := h.folderIds
  tuned i f := by
    have hdue : due n.daemon (n.stations i) f = n.daemon.scheduler.paused f := by
      rw [due, h.settled.outbox i]
      rfl
    refine ⟨fun st hst => ?_, fun _ _ => ⟨h.settled.idle f, ?_⟩⟩
    · obtain ⟨v, hv, rfl⟩ := Option.map_eq_some_iff.mp hst
      obtain ⟨hm, rfl⟩ := (findFolder_eq_some (h.folderIds i)).mp hv
      rw [hdue]
      exact h.agrees.paused i v hm
    · rw [h.settled.inbox i]
      exact fun e he => nomatch he
  alone i f cmd hm := by
    rw [h.settled.outbox i] at hm
    cases hm
  known i f hm := by
    rw [h.settled.outbox i] at hm
    cases hm
  accounts i a ha := by
    refine ⟨h.agrees.accounts i a ha, fun j hm => ?_⟩
    rw [h.settled.outbox j] at hm
    cases hm

omit [DecidableEq ι] in
/-- The invariant is agreement, once the commands have been handled. -/
lemma Inv.agrees (h : Inv n) (hout : ∀ i, (n.stations i).outbox = []) : Agrees n where
  paused i v hm := by
    have hfind := (findFolder_eq_some (h.folderIds i)).mpr ⟨hm, rfl⟩
    have hstatus := (h.tuned i v.id).status v.status (by
      rw [Station.shown, statusOf, hfind]
      rfl)
    rwa [due, hout i] at hstatus
  accounts i a ha := (h.accounts i a ha).1

lemma setStation_self {i : ι} : (n.setStation i c).stations i = c := Function.update_self ..

lemma setStation_ne {i j : ι} (h : j ≠ i) : (n.setStation i c).stations j = n.stations j :=
  Function.update_of_ne h ..

/-- A property of the changed GUI and of the others. -/
lemma forall_setStation {i : ι} {P : ι → Station → Prop} (hi : P i c)
    (h : ∀ j, P j (n.stations j)) (j : ι) : P j ((n.setStation i c).stations j) := by
  by_cases hj : j = i
  · subst hj
    rw [setStation_self]
    exact hi
  · rw [setStation_ne hj]
    exact h j

/-- One GUI changes; `New` are the commands it sends. -/
lemma Inv.update {i : ι} (h : Inv n) (New : Protocol.DaemonCommand → Prop)
    (hids : (c.listing.map FolderView.id).Nodup) (htuned : ∀ f, Tuned n.daemon c f)
    (hsub : ∀ f, (n.stations i).shown f = none → c.shown f = none)
    (hout : ∀ x ∈ c.outbox, x ∈ (n.stations i).outbox ∨ New x)
    (halone : ∀ x, New x → ∀ f, flagOf f x ≠ none → ∀ j, j ≠ i → (n.stations j).shown f = none)
    (hknown : ∀ f, New (.pauseFolder f) → n.daemon.scheduler f ≠ none)
    (haccounts : ∀ a ∈ c.app.accountIds, a ∈ (n.stations i).app.accountIds)
    (hremoved : ∀ a, New (.removeAccount a) → a ∉ c.app.accountIds ∧
      ∀ j, j ≠ i → a ∉ (n.stations j).app.accountIds) : Inv (n.setStation i c) where
  folderIds j := forall_setStation (P := fun _ c => (c.listing.map FolderView.id).Nodup) hids
    h.folderIds j
  tuned j := forall_setStation (P := fun _ c => ∀ f, Tuned n.daemon c f) htuned h.tuned j
  alone j f cmd' hm hflag k hk := by
    -- nothing is shown that was not shown before
    have hshown : (n.stations k).shown f = none → ((n.setStation i c).stations k).shown f = none := by
      intro hnone
      by_cases hki : k = i
      · subst hki
        rw [setStation_self]
        exact hsub f hnone
      · rw [setStation_ne hki]
        exact hnone
    by_cases hj : j = i
    · subst hj
      rw [setStation_self] at hm
      rcases hout cmd' hm with hm | hm
      · exact hshown (h.alone j f cmd' hm hflag k hk)
      · exact hshown (halone cmd' hm f hflag k hk)
    · rw [setStation_ne hj] at hm
      exact hshown (h.alone j f cmd' hm hflag k hk)
  known j f hm := by
    by_cases hj : j = i
    · subst hj
      rw [setStation_self] at hm
      rcases hout _ hm with hm | hm
      · exact h.known j f hm
      · exact hknown f hm
    · rw [setStation_ne hj] at hm
      exact h.known j f hm
  accounts j a ha := by
    have hold : a ∈ (n.stations j).app.accountIds := by
      by_cases hj : j = i
      · subst hj
        rw [setStation_self] at ha
        exact haccounts a ha
      · rwa [setStation_ne hj] at ha
    obtain ⟨hcfg, hno⟩ := h.accounts j a hold
    refine ⟨hcfg, fun k hm => ?_⟩
    by_cases hk : k = i
    · subst hk
      rw [setStation_self] at hm
      rcases hout _ hm with hm | hm
      · exact hno k hm
      · obtain ⟨hown, hothers⟩ := hremoved a hm
        by_cases hj : j = k
        · subst hj
          rw [setStation_self] at ha
          exact hown ha
        · exact hothers j hj hold
    · rw [setStation_ne hk] at hm
      exact hno k hm

lemma mem_concat_or {cmd x : Protocol.DaemonCommand} {l : List Protocol.DaemonCommand}
    (h : x ∈ l ++ [cmd]) : x ∈ l ∨ x = cmd :=
  (List.mem_append.mp h).imp_right List.mem_singleton.mp

/-- A click on a folder lists what was listed. -/
lemma click_ids (status : Gui.FolderStatus) (app : App) (f : Uuid) :
    (((setFolderStatus app f status).accounts.flatMap AccountView.folders).map FolderView.id =
      (app.accounts.flatMap AccountView.folders).map FolderView.id) ∧
    (setFolderStatus app f status).accountIds = app.accountIds := by
  have h := map_modifyFolder (f := f) (g := fun v : FolderView => { v with status := status })
    (by intro; rfl) app.accounts
  exact ⟨folders_congr h, (ids_congr h).1⟩

lemma click_none {status : Gui.FolderStatus} {out : List Protocol.DaemonCommand}
    (h : c.shown g = none) :
    Station.shown { c with app := setFolderStatus c.app f status, outbox := out } g = none := by
  by_cases hg : g = f
  · subst hg
    rw [shown_click]
    simpa [Station.shown, statusOf] using h
  · rw [shown_click_ne hg]
    exact h

lemma flagOf_pauseFolder (h : flagOf g (.pauseFolder f) ≠ none) : g = f := by
  by_contra hne
  exact h (if_neg (Ne.symm hne))

lemma flagOf_resumeFolder (h : flagOf g (.resumeFolder f) ≠ none) : g = f := by
  by_contra hne
  exact h (if_neg (Ne.symm hne))

lemma Inv.message {i : ι} {m : Message} (h : Inv n) (hord : Orderly n (.message i m)) :
    Inv (n.setStation i ((n.stations i).update m)) := by
  cases m with
  | pauseFolder f =>
      obtain ⟨halone, hknown, hidle, hin⟩ := hord
      have hids := click_ids .paused (n.stations i).app f
      refine h.update (fun x => x = .pauseFolder f) ?_ (fun g => (h.tuned i g).pause hidle hin)
        (fun g hg => click_none hg) (fun x hx => mem_concat_or hx) ?_ ?_ ?_ ?_
      · exact hids.1 ▸ h.folderIds i
      · rintro x rfl g hg j hj
        rw [flagOf_pauseFolder hg]
        exact halone j hj
      · rintro g hg
        cases hg
        exact hknown
      · exact fun a ha => hids.2 ▸ ha
      · rintro a ha
        cases ha
  | resumeFolder f =>
      have hids := click_ids .idle (n.stations i).app f
      refine h.update (fun x => x = .resumeFolder f) ?_ (fun g => (h.tuned i g).resume)
        (fun g hg => click_none hg) (fun x hx => mem_concat_or hx) ?_ ?_ ?_ ?_
      · exact hids.1 ▸ h.folderIds i
      · rintro x rfl g hg j hj
        rw [flagOf_resumeFolder hg]
        exact hord j hj
      · rintro g hg
        cases hg
      · exact fun a ha => hids.2 ▸ ha
      · rintro a ha
        cases ha
  | forceSyncFolder f =>
      refine h.update (fun x => x = .triggerSync f) (h.folderIds i)
        (fun g => (h.tuned i g).other (fun st hst => hst) rfl)
        (fun g hg => hg) (fun x hx => mem_concat_or hx) ?_ ?_ (fun a ha => ha) ?_
      · rintro x rfl g hg
        exact absurd rfl hg
      · rintro g hg
        cases hg
      · rintro a ha
        cases ha
  | removeAccount a =>
      have hsub : List.Sublist (((n.stations i).app.accounts.filter (fun x => x.id ≠ a)).flatMap
          AccountView.folders) (n.stations i).listing := List.filter_sublist.flatMap _
      have hnd := (h.folderIds i).sublist (hsub.map FolderView.id)
      have hstatus : ∀ g st, statusOf ⟨(n.stations i).app.accounts.filter (fun x => x.id ≠ a)⟩ g =
          some st → (n.stations i).shown g = some st := by
        intro g st hst
        obtain ⟨v, hv, rfl⟩ := Option.map_eq_some_iff.mp hst
        obtain ⟨hm, hid⟩ := (findFolder_eq_some hnd).mp hv
        rw [Station.shown, statusOf, (findFolder_eq_some (h.folderIds i)).mpr ⟨hsub.subset hm, hid⟩]
        rfl
      refine h.update (fun x => x = .removeAccount a) hnd
        (fun g => (h.tuned i g).other (hstatus g) rfl) ?_ (fun x hx => mem_concat_or hx) ?_ ?_ ?_ ?_
      · intro g hg
        by_contra hne
        obtain ⟨st, hst⟩ := Option.ne_none_iff_exists'.mp hne
        rw [hstatus g st hst] at hg
        cases hg
      · rintro x rfl g hg
        exact absurd rfl hg
      · rintro g hg
        cases hg
      · intro b hb
        exact (List.filter_sublist.map _).subset hb
      · rintro b hb
        cases hb
        refine ⟨?_, hord⟩
        simp [Station.update, App.accountIds]

/-- A command is handled. -/
lemma Inv.command {i : ι} {cmd : Protocol.DaemonCommand} {rest : List Protocol.DaemonCommand}
    {scheduler : SyncScheduler} {cfg : AppConfig} {events : List DaemonEvent} (h : Inv n)
    (hout : (n.stations i).outbox = cmd :: rest)
    (hp : ∀ g, scheduler.paused g = (flagOf g cmd).getD (n.daemon.scheduler.paused g))
    (hknown : ∀ g, n.daemon.scheduler g ≠ none → scheduler g ≠ none)
    (hev : ∀ g j, (n.stations j).shown g ≠ none → due n.daemon (n.stations j) g = true →
      ∀ e ∈ events, aboutSync g e = false)
    (hcfg : ∀ a ∈ n.config.accountIds, cmd ≠ .removeAccount a → a ∈ cfg.accountIds) :
    Inv (tell { n.setStation i { n.stations i with outbox := rest } with config := cfg } scheduler
      events) := by
  have hmem : cmd ∈ (n.stations i).outbox := by
    rw [hout]
    exact List.mem_cons_self
  -- every GUI is as before, but for the command that is gone and the events that have come
  have hself : (tell { n.setStation i { n.stations i with outbox := rest } with config := cfg }
      scheduler events).stations i =
        { n.stations i with outbox := rest, inbox := (n.stations i).inbox ++ events } := by
    simp [tell, broadcast, setStation]
  have hother : ∀ j, j ≠ i → (tell { n.setStation i { n.stations i with outbox := rest } with
      config := cfg } scheduler events).stations j =
        { n.stations j with inbox := (n.stations j).inbox ++ events } := by
    intro j hj
    simp [tell, broadcast, setStation, hj]
  have hsame : ∀ j, ∃ out inb, (tell { n.setStation i { n.stations i with outbox := rest } with
      config := cfg } scheduler events).stations j = ⟨(n.stations j).app, out, inb⟩ ∧
        ∀ x ∈ out, x ∈ (n.stations j).outbox := by
    intro j
    by_cases hj : j = i
    · subst hj
      exact ⟨_, _, hself, fun x hx => hout ▸ List.mem_cons_of_mem _ hx⟩
    · exact ⟨_, _, hother j hj, fun x hx => hx⟩
  refine ⟨fun j => ?_, fun j g => ?_, fun j f x hx hflag k hk => ?_, fun j f hx => ?_, fun j a ha => ?_⟩
  · obtain ⟨out, inb, hstation, -⟩ := hsame j
    rw [hstation]
    exact h.folderIds j
  · change Tuned { n.daemon with scheduler := scheduler, events := n.daemon.events ++ events } _ g
    by_cases hj : j = i
    · subst hj
      rw [hself]
      have htuned : Tuned { n.daemon with scheduler := scheduler
                                          events := n.daemon.events ++ events }
          { n.stations j with outbox := rest } g :=
        (h.tuned j g).command hout (hp g) (fun hi => ⟨hi.1, hi.2, hi.3⟩)
      refine htuned.receive (fun hs hd => hev g j hs ?_)
      rwa [due_command hout (hp g)] at hd
    · rw [hother j hj]
      by_cases hflag : flagOf g cmd = none
      · have hpaused : scheduler.paused g = n.daemon.scheduler.paused g := by rw [hp, hflag]; rfl
        have htuned : Tuned { n.daemon with scheduler := scheduler
                                            events := n.daemon.events ++ events }
            (n.stations j) g :=
          (h.tuned j g).daemon hpaused (fun _ _ hi => ⟨hi.1, hi.2, hi.3⟩)
        refine htuned.receive (fun hs hd => hev g j hs ?_)
        rw [due] at hd ⊢
        rwa [show SyncScheduler.paused _ g = n.daemon.scheduler.paused g from hpaused] at hd
      · -- it is not listed here
        have hnone := h.alone i g cmd hmem hflag j hj
        exact ⟨fun st hst => absurd (hnone.symm.trans hst) (by simp), fun hs => absurd hnone hs⟩
  · obtain ⟨out, inb, hstation, hsub⟩ := hsame j
    obtain ⟨out', inb', hstation', -⟩ := hsame k
    rw [hstation] at hx
    rw [hstation']
    exact h.alone j f x (hsub x hx) hflag k hk
  · obtain ⟨out, inb, hstation, hsub⟩ := hsame j
    rw [hstation] at hx
    exact hknown f (h.known j f (hsub _ hx))
  · obtain ⟨out, inb, hstation, hsub⟩ := hsame j
    rw [hstation] at ha
    obtain ⟨ha, hno⟩ := h.accounts j a ha
    refine ⟨hcfg a ha (fun he => hno i (he ▸ hmem)), fun k hx => ?_⟩
    obtain ⟨out', inb', hstation', hsub'⟩ := hsame k
    rw [hstation'] at hx
    exact hno k (hsub' _ hx)

lemma paused_pause {s : SyncScheduler} (h : s f ≠ none) (g : Uuid) :
    (s.pause f).paused g = (flagOf g (.pauseFolder f)).getD (s.paused g) := by
  unfold SyncScheduler.pause SyncScheduler.paused
  by_cases hg : f = g
  · subst hg
    obtain ⟨st, hst⟩ := Option.ne_none_iff_exists'.mp h
    simp [SyncScheduler.modify_self, hst, flagOf]
  · simp [SyncScheduler.modify_ne (Ne.symm hg), flagOf, hg]

lemma paused_resume {s : SyncScheduler} (g : Uuid) :
    (s.resume f).paused g = (flagOf g (.resumeFolder f)).getD (s.paused g) := by
  unfold SyncScheduler.resume SyncScheduler.paused
  by_cases hg : f = g
  · subst hg
    cases hst : s f with
    | none => simp [SyncScheduler.modify_self, hst, flagOf]
    | some st => simp [SyncScheduler.modify_self, hst, flagOf]
  · simp [SyncScheduler.modify_ne (Ne.symm hg), flagOf, hg]

/-- A command that is no concern of the handler here. -/
lemma Inv.drop {i : ι} {cmd : Protocol.DaemonCommand} {rest : List Protocol.DaemonCommand}
    (h : Inv n) (hout : (n.stations i).outbox = cmd :: rest) (hflag : ∀ g, flagOf g cmd = none) :
    Inv (n.setStation i { n.stations i with outbox := rest }) := by
  refine h.update (fun _ => False) (h.folderIds i) (fun g => ?_) (fun g hg => hg)
    (fun x hx => Or.inl ?_) ?_ ?_ (fun a ha => ha) ?_
  · refine (h.tuned i g).command hout ?_ (fun hi => hi)
    rw [hflag g]
    rfl
  · rw [hout]
    exact List.mem_cons_of_mem _ hx
  · exact fun x hx => hx.elim
  · exact fun x hx => hx.elim
  · exact fun x hx => hx.elim

lemma Inv.handleCommand {i : ι} {cmd : Protocol.DaemonCommand} {rest : List Protocol.DaemonCommand}
    {saved : Bool} (h : Inv n) (hout : (n.stations i).outbox = cmd :: rest)
    (hord : Orderly n (.command i)) :
    Inv ((n.setStation i { n.stations i with outbox := rest }).handleCommand saved cmd) := by
  have hmem : cmd ∈ (n.stations i).outbox := by
    rw [hout]
    exact List.mem_cons_self
  cases cmd with
  | triggerSync f =>
      refine h.command hout (fun g => ?_) (fun g hg => SyncScheduler.modify_known.mpr hg)
        (fun g j hs hd => ?_) (fun a ha _ => ha)
      · exact SyncScheduler.modify_paused (fun st => by split <;> rfl)
      · rw [List.forall_mem_singleton]
        refine decide_eq_false (fun hfg => ?_)
        subst hfg
        rw [hord f (by rw [hout]; rfl) j hs] at hd
        cases hd
  | pauseFolder f =>
      refine h.command hout (paused_pause (h.known i f hmem))
        (fun g hg => SyncScheduler.modify_known.mpr hg) (fun g j _ _ => ?_) (fun a ha _ => ha)
      rw [List.forall_mem_singleton]
      rfl
  | resumeFolder f =>
      refine h.command hout paused_resume (fun g hg => SyncScheduler.modify_known.mpr hg)
        (fun g j _ _ => ?_) (fun a ha _ => ha)
      rw [List.forall_mem_singleton]
      rfl
  | removeAccount a =>
      refine h.command hout (fun g => rfl) (fun g hg => hg) (fun g j _ _ e he => ?_)
        (fun b hb hne => ?_)
      · cases saved with
        | true =>
            rw [List.mem_singleton.mp he]
            rfl
        | false => cases he
      · have hab : b ≠ a := fun hab => hne (hab ▸ rfl)
        obtain ⟨x, hx, rfl⟩ := List.mem_map.mp hb
        exact List.mem_map_of_mem (List.mem_filter.mpr ⟨hx, decide_eq_true hab⟩)
  | _ => exact h.drop hout (fun g => rfl)

omit [DecidableEq ι] in
lemma Inv.background {events : List DaemonEvent} (h : Inv n) (hb : Background n.daemon d)
    (hev : d.events = n.daemon.events ++ events) (hord : Orderly n (.background d)) :
    Inv (broadcast { n with daemon := d } events) where
  folderIds := h.folderIds
  tuned j g := by
    have htuned : Tuned d (n.stations j) g := by
      refine (h.tuned j g).daemon (hb.paused g) (fun hs hd hi => hi.step hb.step ?_)
      intro ready hl hl' hg
      rw [hord ready hl hl' g hg j hs] at hd
      cases hd
    refine htuned.receive (fun hs hd => ?_)
    have hdue : due n.daemon (n.stations j) g = true := by
      rw [due] at hd ⊢
      rwa [hb.paused g] at hd
    exact ((h.tuned j g).quiet hs hdue).1.not_told hb hev
  alone := h.alone
  known j f hm := Daemon.known_step hb.step (h.known j f hm)
  accounts := h.accounts

lemma Inv.handle {i : ι} {e : DaemonEvent} {rest : List DaemonEvent} (h : Inv n)
    (hin : (n.stations i).inbox = e :: rest) :
    Inv (n.setStation i { n.stations i with inbox := rest
                                            app := handleDaemonEvent (n.stations i).app e }) := by
  have hmap := map_handleDaemonEvent (n.stations i).app e
  refine h.update (fun _ => False) ?_ (fun g => (h.tuned i g).handle hin) (fun g hg => ?_)
    (fun x hx => Or.inl hx) ?_ ?_ (fun a ha => (ids_congr hmap).1 ▸ ha) ?_
  · change (((handleDaemonEvent (n.stations i).app e).accounts.flatMap AccountView.folders).map
      FolderView.id).Nodup
    rw [folders_congr hmap]
    exact h.folderIds i
  · cases he : aboutSync g e with
    | true => exact (statusOf_of_aboutSync _ he).1.mpr hg
    | false => exact (statusOf_of_not_aboutSync he).trans hg
  · exact fun x hx => hx.elim
  · exact fun x hx => hx.elim
  · exact fun x hx => hx.elim

lemma inv_step (h : Inv n) (hs : Step n act n') (hord : Orderly n act) : Inv n' := by
  cases hs with
  | message i m => exact h.message hord
  | command i saved hl hout => exact h.handleCommand hout hord
  | background hb hev => exact h.background hb hev hord
  | handle i hin => exact h.handle hin

/-- **In every orderly run the GUIs agree with the daemon** on what is paused and what is removed,
whenever all commands and events have been delivered and no sync is in progress. -/
theorem agrees_of_orderly {n₀ n : Network ι} (h₀ : Starts n₀)
    (hrun : Relation.ReflTransGen OrderlyStep n₀ n) (hsettled : Settled n) : Agrees n := by
  have hinv : Inv n := Runs.invariant (fun _ _ h ⟨_, hs, hord⟩ => inv_step h hs hord) h₀.inv hrun
  exact hinv.agrees hsettled.outbox

/-! ## One GUI, and two -/

/-- A folder as the GUIs show it. -/
def photos : FolderView := ⟨1, "space", "Photos", "/home/dora/Photos", .idle, none, []⟩

/-- A GUI that lists one folder. -/
def watching : Station := ⟨⟨[⟨2, "https://ocis.example.com", "Dora", [photos]⟩]⟩, [], []⟩

/-- The daemon with this folder, and some GUIs. -/
def opened : Network ι where
  daemon := Daemon.init [1]
  config := { account := [{ id := 2, url := [], username := [], displayName := [] }] }
  stations _ := watching

omit [DecidableEq ι] in
lemma opened_starts : Starts (opened : Network ι) where
  settled := ⟨fun _ => rfl, fun _ => rfl,
    fun f => ⟨List.not_mem_nil, List.not_mem_nil, fun _ => List.not_mem_nil⟩⟩
  agrees := by
    refine ⟨fun i v hv => ?_, fun i a ha => ?_⟩
    · obtain rfl : v = photos := List.mem_singleton.mp hv
      change photos.status = .paused ↔ (Daemon.init [1]).scheduler.paused 1 = true
      decide
    · exact ha
  folderIds _ := List.nodup_singleton _

/-- The user of a GUI pauses the folder. -/
def clicked (i : ι) : Network ι := opened.setStation i (watching.update (.pauseFolder 1))

/-- The daemon has handled the command. -/
def paused (i : ι) : Network ι :=
  ((clicked i).setStation i { (clicked i).stations i with outbox := [] }).handleCommand true
    (.pauseFolder 1)

/-- A GUI has handled the event. -/
def heard (n : Network ι) (i : ι) : Network ι :=
  n.setStation i { n.stations i with
    inbox := []
    app := handleDaemonEvent (n.stations i).app (.accountStateChanged 1 "paused") }

/-- One GUI alone agrees. -/
theorem alone_agrees : Settled (heard (paused ()) ()) ∧ Agrees (heard (paused ()) ()) := by
  have hsettled : Settled (heard (paused ()) ()) :=
    ⟨fun _ => rfl, fun _ => rfl, fun _ => ⟨List.not_mem_nil, List.not_mem_nil, fun _ => List.not_mem_nil⟩⟩
  have hclick : OrderlyStep (opened : Network Unit) (clicked ()) := by
    refine ⟨.message () (.pauseFolder 1), .message () _, fun j hj => absurd rfl hj, by decide,
      opened_starts.settled.idle 1, fun e he => ?_⟩
    cases he
  have hcommand : OrderlyStep (clicked ()) (paused ()) := by
    refine ⟨.command (), .command () true rfl rfl, fun f hf => ?_⟩
    cases hf
  have hheard : OrderlyStep (paused ()) (heard (paused ()) ()) := ⟨.handle (), .handle () rfl, trivial⟩
  refine ⟨hsettled, agrees_of_orderly opened_starts ?_ hsettled⟩
  exact ((Relation.ReflTransGen.single hclick).tail hcommand).tail hheard

/-- Both GUIs have heard of it. -/
def bothHeard : Network Bool := heard (heard (paused false) false) true

/-- **The other GUI does not show it.** -/
theorem other_not_paused : ¬ ∀ n₀ n : Network Bool, Starts n₀ →
    Relation.ReflTransGen Next n₀ n → Settled n → Agrees n := by
  intro h
  have hclick : Next (opened : Network Bool) (clicked false) := ⟨.message false _, .message false _⟩
  have hcommand : Next (clicked false) (paused false) := ⟨.command false, .command false true rfl rfl⟩
  have hfirst : Next (paused false) (heard (paused false) false) := ⟨.handle false, .handle false rfl⟩
  have hsecond : Next (heard (paused false) false) bothHeard := ⟨.handle true, .handle true rfl⟩
  have hsettled : Settled bothHeard := by
    refine ⟨fun i => ?_, fun i => ?_,
      fun f => ⟨List.not_mem_nil, List.not_mem_nil, fun _ => List.not_mem_nil⟩⟩
    · cases i <;> rfl
    · cases i <;> rfl
  have hagrees := h opened bothHeard opened_starts
    ((((Relation.ReflTransGen.single hclick).tail hcommand).tail hfirst).tail hsecond) hsettled
  have hpaused := (hagrees.paused true photos (List.mem_singleton_self _)).mpr (by decide)
  exact absurd hpaused (by decide)

end Network

end OwncloudSync
