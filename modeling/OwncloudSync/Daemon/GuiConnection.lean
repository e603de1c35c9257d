import OwncloudSync.Daemon.Protocol
import Mathlib.Tactic.Common

/-!
# The connection of a subscribed GUI

The loop of `handle_connection_inner` (`gui_ipc/mod.rs`) once its client has subscribed.  Each round
is a `select!` between `read_message` and the next event, and the branch that loses is dropped.  A
`read_message` that has been polled has **taken** what had arrived of its frame out of the reader,
into buffers of its own; when an event wins the round, these bytes are gone with it.

So the bytes of the client are in one of three places — not here yet (`pending`), arrived and not
read (`arrived`), or in the buffers of the running `read_message` (`taken`) — and the next frame is
read correctly as long as no event wins while `taken` is not empty.

Left out are the client hanging up, and the channel to the main loop being closed.
-/

namespace OwncloudSync

open Framing Protocol

namespace GuiConnection

/-- A connection of the GUI: what is still under way, what has arrived, and what has been made of
it. -/
structure Conn where
  pending : List UInt8
  arrived : List UInt8
  taken : List UInt8
  /-- sent to `cmd_tx` -/
  forwarded : List DaemonCommand
  /-- written to the client -/
  written : List Protocol.DaemonEvent
  /-- the loop has ended -/
  ended : Bool

/-- What can happen to a connection. -/
inductive Action where
  /-- so many bytes arrive -/
  | arrive (n : ℕ)
  /-- `read_message` is polled -/
  | poll
  /-- `rx.recv` returns an event, which is written -/
  | event (event : Protocol.DaemonEvent)
  /-- `rx.recv` returns `Lagged` -/
  | lagged
  /-- an event cannot be written -/
  | writeFails
  deriving DecidableEq

variable (fromSlice : List UInt8 → Option DaemonCommand)

/-- A poll: the frame is complete, or more bytes are needed, or it is no command. -/
def poll (c : Conn) : Conn :=
  match readMessage fromSlice [c.taken ++ c.arrived] with
  | .ok (cmd, rest) =>
      { c with taken := [], arrived := rest.flatten, forwarded := c.forwarded ++ [cmd] }
  | .error .unexpectedEof => { c with taken := c.taken ++ c.arrived, arrived := [] }
  | .error _ => { c with ended := true }

/-- What an action does to the connection. -/
def step (c : Conn) (a : Action) : Conn :=
  if c.ended then c
  else
    match a with
    | .arrive n => { c with arrived := c.arrived ++ c.pending.take n, pending := c.pending.drop n }
    | .poll => poll fromSlice c
    | .event e => { c with taken := [], written := c.written ++ [e] }
    | .lagged => { c with taken := [] }
    | .writeFails => { c with taken := [], ended := true }

/-- The connection after a sequence of actions. -/
def run (c : Conn) (acts : List Action) : Conn := acts.foldl (step fromSlice) c

/-- A client that is about to write the commands. -/
def start (cmds : List DaemonCommand) : Conn where
  pending := cmds.flatMap writeCommand
  arrived := []
  taken := []
  forwarded := []
  written := []
  ended := false

/-- No event wins while a part of a frame is taken, and events can be written. -/
def Calm (c : Conn) : Action → Prop
  | .arrive _ => True
  | .poll => True
  | .event _ => c.taken = []
  | .lagged => c.taken = []
  | .writeFails => False

/-- All actions of a sequence are calm where they happen. -/
def AllCalm (c : Conn) (acts : List Action) : Prop :=
  ∀ pre a post, acts = pre ++ a :: post → Calm (run fromSlice c pre) a

/-- The commands are forwarded: in order, each once, without an error, and all of them once they
have arrived and the reader has been polled often enough. -/
structure Forwards (cmds : List DaemonCommand) (c : Conn) : Prop where
  inOrder : c.forwarded <+: cmds
  noError : c.ended = false
  complete : c.pending = [] →
    ∃ n, (run fromSlice c (List.replicate n .poll)).forwarded = cmds

/-- No byte has been lost. -/
structure Intact (cmds : List DaemonCommand) (c : Conn) : Prop where
  noError : c.ended = false
  bytes : ∃ todo, cmds = c.forwarded ++ todo ∧
    c.taken ++ c.arrived ++ c.pending = todo.flatMap writeCommand

variable {fromSlice} {cmds : List DaemonCommand} {c : Conn} {a : Action} {acts : List Action}

lemma run_append (c : Conn) (acts acts' : List Action) :
    run fromSlice c (acts ++ acts') = run fromSlice (run fromSlice c acts) acts' :=
  List.foldl_append

lemma step_of_open (h : c.ended = false) : step fromSlice c a =
    match a with
    | .arrive n => { c with arrived := c.arrived ++ c.pending.take n, pending := c.pending.drop n }
    | .poll => poll fromSlice c
    | .event e => { c with taken := [], written := c.written ++ [e] }
    | .lagged => { c with taken := [] }
    | .writeFails => { c with taken := [], ended := true } :=
  if_neg (by simp [h])

section

variable (hparse : ∀ cmd ∈ cmds, fromSlice (toVec cmd.toJson) = some cmd)
  (hlen : ∀ cmd ∈ cmds, (toVec cmd.toJson).length ≤ maxLen)

include hparse hlen

/-- A poll forwards the next command or leaves all bytes where the next poll finds them; with
everything there, it forwards. -/
lemma poll_cases (hopen : c.ended = false) {todo : List DaemonCommand}
    (hcmds : cmds = c.forwarded ++ todo)
    (hbytes : c.taken ++ c.arrived ++ c.pending = todo.flatMap writeCommand) :
    (∃ cmd rest, todo = cmd :: rest ∧ (poll fromSlice c).ended = false ∧
        (poll fromSlice c).forwarded = c.forwarded ++ [cmd] ∧
        (poll fromSlice c).pending = c.pending ∧
        (poll fromSlice c).taken ++ (poll fromSlice c).arrived ++ (poll fromSlice c).pending =
          rest.flatMap writeCommand) ∨
      ((c.pending = [] → todo = []) ∧
        poll fromSlice c = { c with taken := c.taken ++ c.arrived, arrived := [] }) := by
  cases todo with
  | nil =>
      have hnil : c.taken ++ c.arrived = [] := (List.append_eq_nil_iff.mp hbytes).1
      have hread : readMessage fromSlice [c.taken ++ c.arrived] = .error .unexpectedEof :=
        readFrame_nil (by rw [hnil]; rfl)
      exact Or.inr ⟨fun _ => rfl, by rw [poll, hread]⟩
  | cons cmd rest =>
      have hmem : cmd ∈ cmds := by rw [hcmds]; simp
      rw [List.flatMap_cons] at hbytes
      have hpre : c.taken ++ c.arrived <+: writeCommand cmd ++ rest.flatMap writeCommand := by
        rw [← hbytes]
        exact List.prefix_append _ _
      by_cases hshort : (c.taken ++ c.arrived).length < (writeCommand cmd).length
      · have hread : readMessage fromSlice [c.taken ++ c.arrived] = .error .unexpectedEof := by
          refine readFrame_truncated maxLen_lt (hlen cmd hmem) ?_
            (by rw [List.flatten_singleton]; exact hshort)
          rw [List.flatten_singleton]
          exact List.prefix_of_prefix_length_le hpre (List.prefix_append _ _)
            (Nat.le_of_lt hshort)
        refine Or.inr ⟨fun hnone => ?_, by rw [poll, hread]⟩
        -- all bytes are here, so the frame is complete
        rw [hnone, List.append_nil] at hbytes
        rw [hbytes, List.length_append] at hshort
        omega
      · obtain ⟨more, hmore⟩ := List.prefix_of_prefix_length_le (List.prefix_append _ _) hpre
          (Nat.le_of_not_lt hshort)
        have hwhole : [c.taken ++ c.arrived].flatten = frame (toVec cmd.toJson) ++ more := by
          rw [List.flatten_singleton]
          exact hmore.symm
        obtain ⟨chunks, hread, hflat⟩ := readFrame_frame
          (fun len => "incoming message too large: " ++ toString len ++ " bytes") maxLen_lt
          (hlen cmd hmem) (hparse cmd hmem) hwhole
        have hpoll : poll fromSlice c =
            { c with taken := [], arrived := more, forwarded := c.forwarded ++ [cmd] } := by
          rw [poll, readMessage, hread]
          simp only [hflat]
        refine Or.inl ⟨cmd, rest, rfl, ?_⟩
        rw [hpoll]
        refine ⟨hopen, rfl, rfl, ?_⟩
        rw [← hmore, List.append_assoc] at hbytes
        exact List.append_cancel_left hbytes

/-- **A calm action loses no byte.** -/
lemma intact_step (h : Intact cmds c) (hcalm : Calm c a) : Intact cmds (step fromSlice c a) := by
  obtain ⟨todo, hcmds, hbytes⟩ := h.bytes
  rw [step_of_open h.noError]
  cases a with
  | arrive n =>
      refine ⟨h.noError, todo, hcmds, ?_⟩
      simp only [List.append_assoc, List.take_append_drop] at hbytes ⊢
      exact hbytes
  | poll =>
      rcases poll_cases hparse hlen h.noError hcmds hbytes with
        ⟨cmd, rest, rfl, hopen, hforwarded, -, hbytes'⟩ | ⟨-, hpoll⟩
      · exact ⟨hopen, rest, by rw [hforwarded, List.append_assoc]; exact hcmds, hbytes'⟩
      · refine ⟨by simp only [hpoll]; exact h.noError, todo, by simp only [hpoll]; exact hcmds, ?_⟩
        simp only [hpoll, List.append_nil]
        exact hbytes
  | event e =>
      rw [show c.taken = [] from hcalm] at hbytes
      exact ⟨h.noError, todo, hcmds, hbytes⟩
  | lagged =>
      rw [show c.taken = [] from hcalm] at hbytes
      exact ⟨h.noError, todo, hcmds, hbytes⟩
  | writeFails => exact absurd hcalm not_false

lemma intact_run (hcalm : AllCalm fromSlice (start cmds) acts) :
    Intact cmds (run fromSlice (start cmds) acts) := by
  induction acts using List.reverseRecOn with
  | nil => exact ⟨rfl, cmds, rfl, rfl⟩
  | append_singleton acts a ih =>
      rw [run_append]
      refine intact_step hparse hlen (ih ?_) (hcalm acts a [] rfl)
      intro pre b post hacts
      exact hcalm pre b (post ++ [a]) (by rw [hacts, List.append_assoc]; rfl)

/-- Once all bytes are here, every poll forwards a command. -/
lemma drained {todo : List DaemonCommand} (hopen : c.ended = false)
    (hcmds : cmds = c.forwarded ++ todo)
    (hbytes : c.taken ++ c.arrived ++ c.pending = todo.flatMap writeCommand)
    (hall : c.pending = []) :
    ∃ n, (run fromSlice c (List.replicate n .poll)).forwarded = cmds := by
  induction todo generalizing c with
  | nil => exact ⟨0, by rw [hcmds, List.append_nil]; rfl⟩
  | cons cmd todo ih =>
      rcases poll_cases hparse hlen hopen hcmds hbytes with
        ⟨cmd', rest, htodo, hopen', hforwarded, hpending, hbytes'⟩ | ⟨hdone, -⟩
      · obtain ⟨rfl, rfl⟩ := List.cons.inj htodo
        obtain ⟨n, hn⟩ := ih hopen' (by rw [hforwarded, List.append_assoc]; exact hcmds) hbytes'
          (hpending.trans hall)
        refine ⟨n + 1, ?_⟩
        rw [List.replicate_succ, run, List.foldl_cons, step_of_open hopen]
        exact hn
      · cases hdone hall

end

/-- **Commands survive calm event traffic**: whatever arrives in whatever chunks, and whatever is
broadcast, in every state of a run in which no event wins while a part of a frame is taken. -/
theorem forwards_of_calm (fromSlice : List UInt8 → Option DaemonCommand)
    (cmds : List DaemonCommand) (acts : List Action)
    (hparse : ∀ cmd ∈ cmds, fromSlice (toVec cmd.toJson) = some cmd)
    (hlen : ∀ cmd ∈ cmds, (toVec cmd.toJson).length ≤ maxLen)
    (hcalm : AllCalm fromSlice (start cmds) acts) :
    Forwards fromSlice cmds (run fromSlice (start cmds) acts) := by
  have hintact := intact_run hparse hlen hcalm
  obtain ⟨todo, hcmds, hbytes⟩ := hintact.bytes
  refine ⟨⟨todo, hcmds.symm⟩, hintact.noError, fun hall => ?_⟩
  exact drained hparse hlen hintact.noError hcmds hbytes hall

/-! ## A command in two chunks -/

/-- A parser that knows `Quit`. -/
def parseQuit (text : List UInt8) : Option DaemonCommand :=
  if text = toVec DaemonCommand.quit.toJson then some .quit else none

/-- An event between two frames does no harm. -/
theorem quit_forwarded : Forwards parseQuit [.quit]
    (run parseQuit (start [.quit]) [.event .ready, .arrive 5, .poll, .arrive 100, .poll]) := by
  refine forwards_of_calm parseQuit [.quit] _ (by decide) (by decide) ?_
  intro pre a post hacts
  match pre, hacts with
  | [], hacts => cases hacts; exact rfl
  | [_], hacts => cases hacts; trivial
  | [_, _], hacts => cases hacts; trivial
  | [_, _, _], hacts => cases hacts; trivial
  | [_, _, _, _], hacts => cases hacts; trivial
  | _ :: _ :: _ :: _ :: _ :: pre, hacts => simp at hacts

/-- **An event inside a frame loses the command**: the length and one byte have been taken, and
what is left of the body is read as a length. -/
theorem quit_lost : ¬ Forwards parseQuit [.quit]
    (run parseQuit (start [.quit]) [.arrive 5, .poll, .event .ready, .arrive 100, .poll]) := by
  intro h
  exact absurd h.noError (by decide)

end GuiConnection

end OwncloudSync
