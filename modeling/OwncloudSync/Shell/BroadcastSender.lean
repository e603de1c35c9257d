import OwncloudSync.Daemon.Scheduler
import OwncloudSync.Shell.Protocol
import Mathlib.Data.List.Nodup
import Mathlib.Logic.Function.Basic
import Mathlib.Tactic.Common

/-!
# The broadcaster

`BroadcastSender` (`broadcast.rs`): a call copies the list of connections, and then sends to one after
the other, waiting where a queue of 64 is full.  The lock is held for the copy, and again when the
connections that are dead are taken off the list.

A message is named by the number of its call, and the **stream** of a connection is what its writer has
taken from the queue, and behind it the queue.  What is in a stream has been sent there, once; and what
has been sent to a connection that is alive is in its stream (`Inv`).
-/

namespace OwncloudSync

namespace Shell

namespace BroadcastSender

/-! ## The code -/

/-- The channel of a connection, with what has been taken from it.  It is closed when the task that
writes is gone. -/
structure Channel where
  queue : List ℕ
  received : List ℕ
  closed : Bool

/-- The bound of `mpsc::channel(64)`. -/
def capacity : ℕ := 64

/-- A call of `broadcast`: the copy of the list is what has been sent to and what is still to do. -/
structure Call where
  message : Broadcast
  sent : List Uuid
  todo : List Uuid
  deadIds : List Uuid
  returned : Bool

/-- The copy of the list that the call goes through. -/
def Call.senders (call : Call) : List Uuid := call.sent ++ call.todo

/-- The list of connections, all channels there have been, and the calls so far. -/
structure State where
  connections : List Uuid
  channels : Uuid → Option Channel
  calls : List Call

/-- No connection, and no call. -/
def State.new : State := ⟨[], fun _ => none, []⟩

/-- A step of the server, of a connection or of a call. -/
inductive Action where
  | addConnection (id : Uuid)
  | removeConnection (id : Uuid)
  /-- the task that writes ends -/
  | close (id : Uuid)
  /-- the task that writes takes a message -/
  | receive (id : Uuid)
  | call (message : Broadcast)
  /-- the next send of a call is done -/
  | send (n : ℕ)
  /-- a call returns -/
  | finish (n : ℕ)

namespace Channel

/-- `recv`. -/
def take (c : Channel) : Channel :=
  match c.closed, c.queue with
  | false, n :: queue => { c with queue := queue, received := c.received ++ [n] }
  | _, _ => c

/-- The message is put at the end of the queue. -/
def push (c : Channel) (n : ℕ) : Channel := { c with queue := c.queue ++ [n] }

/-- All that has been put into the channel. -/
def stream (c : Channel) : List ℕ := c.received ++ c.queue

end Channel

namespace State

/-- The channel of a connection is changed, if it has one. -/
def modifyChannel (s : State) (id : Uuid) (f : Channel → Channel) : State :=
  { s with channels := Function.update s.channels id ((s.channels id).map f) }

/-- One turn of the loop of `broadcast`.  A send to a full queue waits. -/
def send (s : State) (n : ℕ) : State :=
  match s.calls[n]? with
  | none => s
  | some call =>
      match call.todo with
      | [] => s
      | id :: todo =>
          match s.channels id with
          | none => s
          | some c =>
              if c.closed then
                { s with calls := s.calls.set n { call with
                    sent := call.sent ++ [id], todo := todo, deadIds := call.deadIds ++ [id] } }
              else if c.queue.length < capacity then
                { s.modifyChannel id (fun c => c.push n) with
                  calls := s.calls.set n { call with sent := call.sent ++ [id], todo := todo } }
              else s

/-- The end of `broadcast`. -/
def finish (s : State) (n : ℕ) : State :=
  match s.calls[n]? with
  | none => s
  | some call =>
      if call.todo = [] ∧ call.returned = false then
        { s with
          connections := s.connections.filter (fun id => !call.deadIds.contains id)
          calls := s.calls.set n { call with returned := true } }
      else s

/-- An id is drawn at random, so it is a new one. -/
def addConnection (s : State) (id : Uuid) : State :=
  match s.channels id with
  | some _ => s
  | none => { s with
      connections := s.connections ++ [id]
      channels := Function.update s.channels id (some ⟨[], [], false⟩) }

/-- What an action does. -/
def step (s : State) : Action → State
  | .addConnection id => s.addConnection id
  | .removeConnection id => { s with connections := s.connections.filter (fun x => x ≠ id) }
  | .close id => s.modifyChannel id (fun c => { c with closed := true })
  | .receive id => s.modifyChannel id Channel.take
  | .call message => { s with calls := s.calls ++ [⟨message, [], s.connections, [], false⟩] }
  | .send n => s.send n
  | .finish n => s.finish n

/-- The actions, one after the other. -/
def run (s : State) (acts : List Action) : State := acts.foldl step s

/-! ## What is received -/

/-- The messages that a connection is sent. -/
def stream (s : State) (id : Uuid) : List ℕ := ((s.channels id).map Channel.stream).getD []

/-- The connection is live. -/
def Open (s : State) (id : Uuid) : Prop := ∃ c, s.channels id = some c ∧ c.closed = false

/-- Call `n` has gone through its list. -/
def Returned (s : State) (n : ℕ) : Prop := ∃ call, s.calls[n]? = some call ∧ call.returned = true

/-- The next send of a call goes into this channel. -/
def Sends (s : State) (n : ℕ) (id : Uuid) : Prop :=
  ∃ call todo c, s.calls[n]? = some call ∧ call.todo = id :: todo ∧ s.channels id = some c ∧
    c.closed = false ∧ c.queue.length < capacity

end State

namespace State

variable {s t : State} {id id' : Uuid} {n m : ℕ} {f : Channel → Channel} {call : Call}
  {a : Action} {acts : List Action}

/-! ## Channels -/

lemma channels_modifyChannel : (s.modifyChannel id f).channels id' =
    if id' = id then (s.channels id').map f else s.channels id' := by
  rw [modifyChannel]
  by_cases h : id' = id
  · subst h
    simp
  · simp [h]

/-- A change that puts nothing into the channel. -/
lemma stream_modifyChannel (hf : ∀ c, (f c).stream = c.stream) :
    (s.modifyChannel id f).stream = s.stream := by
  funext id'
  simp only [stream, channels_modifyChannel]
  split
  · rw [Option.map_map]
    congr 1
    refine congrArg (fun g => Option.map g (s.channels id')) (funext ?_)
    intro c
    exact hf c
  · rfl

lemma isSome_modifyChannel :
    ((s.modifyChannel id f).channels id').isSome = (s.channels id').isSome := by
  rw [channels_modifyChannel]
  split
  · exact Option.isSome_map
  · rfl

/-- A change that opens nothing. -/
lemma open_of_open_modifyChannel (hf : ∀ c, (f c).closed = false → c.closed = false)
    (h : (s.modifyChannel id f).Open id') : s.Open id' := by
  obtain ⟨c, hc, hclosed⟩ := h
  rw [channels_modifyChannel] at hc
  split at hc
  · obtain ⟨c', hc', rfl⟩ := Option.map_eq_some_iff.mp hc
    exact ⟨c', hc', hf c' hclosed⟩
  · exact ⟨c, hc, hclosed⟩

lemma stream_take (c : Channel) : c.take.stream = c.stream := by
  unfold Channel.take
  split
  · rename_i n queue _ hqueue
    simp [Channel.stream, hqueue]
  · rfl

lemma closed_take (c : Channel) : c.take.closed = c.closed := by
  unfold Channel.take
  split <;> rfl

lemma stream_of_none (h : s.channels id = none) : s.stream id = [] := by
  rw [stream, h]
  rfl

/-- A message that is put into a channel stands at its end. -/
lemma stream_push {c : Channel} (hc : s.channels id = some c) :
    (s.modifyChannel id (fun c => c.push n)).stream id' =
      if id' = id then s.stream id ++ [n] else s.stream id' := by
  simp only [stream, channels_modifyChannel]
  split
  · rename_i heq
    rw [heq, hc]
    simp [Channel.stream, Channel.push]
  · rfl

/-! ## What a step can do -/

/-- The call has gone on to its next connection. -/
def advance (s : State) (n : ℕ) (call : Call) : State := { s with calls := s.calls.set n call }

lemma sends_iff (hcall : s.calls[n]? = some call) : s.Sends n id ↔ ∃ todo c, call.todo = id :: todo ∧
    s.channels id = some c ∧ c.closed = false ∧ c.queue.length < capacity := by
  simp [Sends, hcall]

/-- The connection it goes to is the first that is still to do. -/
lemma sends_iff_of_todo {todo : List Uuid} (hcall : s.calls[n]? = some call)
    (htodo : call.todo = id :: todo) : s.Sends n id' ↔ id' = id ∧
      ∃ c, s.channels id = some c ∧ c.closed = false ∧ c.queue.length < capacity := by
  rw [sends_iff hcall, htodo]
  constructor
  · rintro ⟨todo', c, hcons, h⟩
    obtain ⟨rfl, -⟩ := List.cons.inj hcons
    exact ⟨rfl, c, h⟩
  · rintro ⟨rfl, c, h⟩
    exact ⟨todo, c, rfl, h⟩

/-- A turn of the loop: nothing, a connection that is dead, or a message that is put into a queue. -/
lemma send_cases (s : State) (n : ℕ) :
    (s.send n = s ∧ ∀ id, ¬ s.Sends n id) ∨
      (∃ call id todo, s.calls[n]? = some call ∧ call.todo = id :: todo ∧ ¬ s.Open id ∧
        s.send n = s.advance n { call with
          sent := call.sent ++ [id], todo := todo, deadIds := call.deadIds ++ [id] }) ∨
      (∃ call id todo, s.calls[n]? = some call ∧ call.todo = id :: todo ∧ s.Sends n id ∧
        s.send n = (s.modifyChannel id (fun c => c.push n)).advance n { call with
          sent := call.sent ++ [id], todo := todo }) := by
  cases hcall : s.calls[n]? with
  | none => exact .inl ⟨by simp [send, hcall], by simp [Sends, hcall]⟩
  | some call =>
      cases htodo : call.todo with
      | nil => exact .inl ⟨by simp [send, hcall, htodo], by simp [sends_iff hcall, htodo]⟩
      | cons id todo =>
          have hsends := fun id' => @sends_iff_of_todo s id id' n call todo hcall htodo
          cases hchannel : s.channels id with
          | none =>
              refine .inl ⟨by simp [send, hcall, htodo, hchannel], ?_⟩
              simp [hsends, hchannel]
          | some c =>
              cases hclosed : c.closed with
              | true =>
                  refine .inr (.inl ⟨call, id, todo, rfl, htodo, ?_, ?_⟩)
                  · simp [Open, hchannel, hclosed]
                  · simp [send, hcall, htodo, hchannel, hclosed, advance]
              | false =>
                  by_cases hroom : c.queue.length < capacity
                  · refine .inr (.inr ⟨call, id, todo, rfl, htodo, ?_, ?_⟩)
                    · simp [hsends, hchannel, hclosed, hroom]
                    · simp [send, hcall, htodo, hchannel, hclosed, hroom, advance, modifyChannel]
                  · refine .inl ⟨by simp [send, hcall, htodo, hchannel, hclosed, hroom], ?_⟩
                    simp only [hsends, hchannel, Option.some.injEq]
                    rintro id' ⟨-, c', rfl, -, hroom'⟩
                    exact hroom hroom'

lemma finish_cases (s : State) (n : ℕ) :
    s.finish n = s ∨ ∃ call, s.calls[n]? = some call ∧ call.todo = [] ∧
      s.finish n = { s.advance n { call with returned := true } with
        connections := s.connections.filter (fun id => !call.deadIds.contains id) } := by
  unfold finish
  split
  · exact .inl rfl
  · rename_i call hcall
    split
    · rename_i h
      exact .inr ⟨call, hcall, h.1, rfl⟩
    · exact .inl rfl

/-! ## The invariant -/

/-- A call goes to each connection once, and has returned only when it has gone to all. -/
structure Goes (s : State) (call : Call) : Prop where
  nodup : call.senders.Nodup
  known : ∀ id ∈ call.senders, (s.channels id).isSome = true
  done : call.returned = true → call.todo = []

/-- Every message in a stream was sent there, and at most once. -/
structure Inv (s : State) : Prop where
  conns : s.connections.Nodup
  connsKnown : ∀ id ∈ s.connections, (s.channels id).isSome = true
  calls : ∀ call ∈ s.calls, s.Goes call
  /-- what is in a stream has been sent there -/
  sent : ∀ n id, n ∈ s.stream id → ∃ call, s.calls[n]? = some call ∧ id ∈ call.sent
  /-- what has been sent to a connection that is alive is in its stream -/
  reached : ∀ n call id, s.calls[n]? = some call → id ∈ call.sent → s.Open id → n ∈ s.stream id
  once : ∀ id, (s.stream id).Nodup

lemma inv_new : Inv .new where
  conns := List.nodup_nil
  connsKnown := by simp [new]
  calls := by simp [new]
  sent n id h := by simp [stream, new] at h
  reached n call id h := by simp [new] at h
  once id := List.nodup_nil

lemma Goes.mono (h : s.Goes call)
    (hknown : ∀ id, (s.channels id).isSome = true → (t.channels id).isSome = true) :
    t.Goes call :=
  ⟨h.nodup, fun id hid => hknown id (h.known id hid), h.done⟩

/-- A step that neither calls nor sends. -/
lemma Inv.quiet (h : Inv s) (hcalls : t.calls = s.calls) (hstream : t.stream = s.stream)
    (hknown : ∀ id, (s.channels id).isSome = true → (t.channels id).isSome = true)
    (hopen : ∀ id, (s.channels id).isSome = true → t.Open id → s.Open id)
    (hconns : t.connections.Nodup)
    (hconnsKnown : ∀ id ∈ t.connections, (t.channels id).isSome = true) : Inv t where
  conns := hconns
  connsKnown := hconnsKnown
  calls call hcall := by
    rw [hcalls] at hcall
    exact (h.calls call hcall).mono hknown
  sent n id hn := by
    rw [hstream] at hn
    rw [hcalls]
    exact h.sent n id hn
  reached n call id hcall hid ho := by
    rw [hcalls] at hcall
    have hk := (h.calls call (List.mem_of_getElem? hcall)).known id (List.mem_append_left _ hid)
    rw [hstream]
    exact h.reached n call id hcall hid (hopen id hk ho)
  once id := by
    rw [hstream]
    exact h.once id

lemma Inv.addConnection (h : Inv s) (id : Uuid) : Inv (s.addConnection id) := by
  unfold State.addConnection
  split
  · exact h
  · rename_i hnew
    have hother : ∀ id', (s.channels id').isSome = true → id' ≠ id := by
      rintro id' hk rfl
      rw [hnew] at hk
      cases hk
    refine h.quiet rfl ?_ ?_ ?_ ?_ ?_
    · funext id'
      by_cases heq : id' = id
      · subst heq
        rw [stream_of_none hnew]
        simp [stream, Channel.stream]
      · simp [stream, heq]
    · intro id' hk
      simp [hother id' hk, hk]
    · rintro id' hk ⟨c, hc, hclosed⟩
      simp only [Function.update_of_ne (hother id' hk)] at hc
      exact ⟨c, hc, hclosed⟩
    · refine List.Nodup.append h.conns (List.nodup_singleton id) ?_
      rw [List.disjoint_singleton]
      intro hmem
      exact hother id (h.connsKnown id hmem) rfl
    · intro id' hmem
      rcases List.mem_append.mp hmem with hmem | hmem
      · have hk := h.connsKnown id' hmem
        simp [hother id' hk, hk]
      · rw [List.mem_singleton.mp hmem]
        simp

lemma Inv.removeConnections (h : Inv s) (keep : Uuid → Bool) :
    Inv { s with connections := s.connections.filter keep } :=
  h.quiet rfl rfl (fun _ hk => hk) (fun _ _ ho => ho) (h.conns.filter keep)
    (fun id hid => h.connsKnown id (List.mem_filter.mp hid).1)

lemma Inv.modifyChannel (h : Inv s) (id : Uuid) (hstream : ∀ c, (f c).stream = c.stream)
    (hclosed : ∀ c, (f c).closed = false → c.closed = false) : Inv (s.modifyChannel id f) := by
  refine h.quiet rfl (stream_modifyChannel hstream) ?_ ?_ h.conns ?_
  · intro id' hk
    rw [isSome_modifyChannel]
    exact hk
  · intro id' _ ho
    exact open_of_open_modifyChannel hclosed ho
  · intro id' hmem
    rw [isSome_modifyChannel]
    exact h.connsKnown id' hmem

/-- A new call has not sent anything. -/
lemma Inv.newCall (h : Inv s) (message : Broadcast) : Inv (s.step (.call message)) where
  conns := h.conns
  connsKnown := h.connsKnown
  calls call hcall := by
    rcases List.mem_append.mp hcall with hcall | hcall
    · exact (h.calls call hcall).mono (fun _ hk => hk)
    · rw [List.mem_singleton.mp hcall]
      exact ⟨h.conns, h.connsKnown, by simp⟩
  sent n id hn := by
    obtain ⟨call, hcall, hid⟩ := h.sent n id hn
    have hlt := List.getElem?_eq_some_iff.mp hcall
    exact ⟨call, (List.getElem?_append_left hlt.1).trans hcall, hid⟩
  reached n call id hcall hid ho := by
    by_cases hn : n < s.calls.length
    · rw [step, List.getElem?_append_left hn] at hcall
      exact h.reached n call id hcall hid ho
    · rw [step, List.getElem?_append_right (by omega), List.getElem?_singleton] at hcall
      split at hcall
      · cases hcall
        cases hid
      · cases hcall
  once := h.once

lemma getElem?_advance {k : ℕ} {call' : Call} (hcall : s.calls[n]? = some call) :
    (s.advance n call').calls[k]? = if k = n then some call' else s.calls[k]? := by
  rw [advance, List.getElem?_set]
  by_cases h : k = n
  · subst h
    simp [(List.getElem?_eq_some_iff.mp hcall).1]
  · rw [if_neg (Ne.symm h), if_neg h]

/-- A call that has a connection before it has not sent there. -/
lemma Inv.not_mem_stream (h : Inv s) {todo : List Uuid} (hcall : s.calls[n]? = some call)
    (htodo : call.todo = id :: todo) : n ∉ s.stream id := by
  intro hmem
  obtain ⟨call', hcall', hid⟩ := h.sent n id hmem
  rw [hcall] at hcall'
  cases hcall'
  have hnodup := (h.calls call (List.mem_of_getElem? hcall)).nodup
  rw [Call.senders, htodo, List.nodup_append] at hnodup
  exact hnodup.2.2 id hid id List.mem_cons_self rfl

lemma Goes.next (h : s.Goes call) {call' : Call} {todo : List Uuid} (htodo : call.todo = id :: todo)
    (hsent : call'.sent = call.sent ++ [id]) (htodo' : call'.todo = todo)
    (hreturned : call'.returned = call.returned) : s.Goes call' := by
  have hsenders : call'.senders = call.senders := by simp [Call.senders, hsent, htodo', htodo]
  refine ⟨hsenders ▸ h.nodup, fun x hx => h.known x (hsenders ▸ hx), ?_⟩
  intro hr
  have hnil := h.done (hreturned ▸ hr)
  rw [htodo] at hnil
  cases hnil

/-- A call has gone on to its next connection, and its message is in the queue if that is alive. -/
lemma Inv.sentTo (h : Inv s) (call' : Call) {todo : List Uuid} (hcall : s.calls[n]? = some call)
    (htodo : call.todo = id :: todo) (hsent : call'.sent = call.sent ++ [id])
    (htodo' : call'.todo = todo) (hreturned : call'.returned = call.returned)
    (hconns : t.connections = s.connections) (hcalls : t.calls = (s.advance n call').calls)
    (hknown : ∀ id, (t.channels id).isSome = (s.channels id).isSome)
    (hopen : ∀ id, t.Open id → s.Open id)
    (hstream : ∀ x, t.stream x = s.stream x ∨ x = id ∧ t.stream x = s.stream x ++ [n])
    (hnew : t.Open id → n ∈ t.stream id) : Inv t where
  conns := hconns ▸ h.conns
  connsKnown x hx := by
    rw [hknown]
    exact h.connsKnown x (hconns ▸ hx)
  calls c hc := by
    rw [hcalls] at hc
    rcases List.mem_or_eq_of_mem_set hc with hc | rfl
    · exact (h.calls c hc).mono (fun x hx => (hknown x).trans hx)
    · have hgoes := (h.calls call (List.mem_of_getElem? hcall)).next htodo hsent htodo' hreturned
      exact hgoes.mono (fun x hx => (hknown x).trans hx)
  sent k x hk := by
    have hold : k ∈ s.stream x ∨ x = id ∧ k = n := by
      rcases hstream x with hx | ⟨hid, hx⟩
      · exact .inl (hx ▸ hk)
      · rw [hx, List.mem_append, List.mem_singleton] at hk
        exact hk.imp_right (fun hkn => ⟨hid, hkn⟩)
    rw [hcalls, getElem?_advance hcall]
    rcases hold with hk | ⟨rfl, rfl⟩
    · obtain ⟨c, hc, hmem⟩ := h.sent k x hk
      split
      · rename_i hkn
        rw [hkn, hcall] at hc
        cases hc
        refine ⟨call', rfl, ?_⟩
        rw [hsent]
        exact List.mem_append_left _ hmem
      · exact ⟨c, hc, hmem⟩
    · rw [if_pos rfl]
      refine ⟨call', rfl, ?_⟩
      rw [hsent]
      exact List.mem_append_right _ List.mem_cons_self
  reached k c x hc hx ho := by
    have hkeep : k ∈ s.stream x → k ∈ t.stream x := by
      intro hk
      rcases hstream x with hs | ⟨-, hs⟩
      · exact hs ▸ hk
      · rw [hs]
        exact List.mem_append_left _ hk
    rw [hcalls, getElem?_advance hcall] at hc
    split at hc
    · rename_i hkn
      cases hc
      rw [hsent, List.mem_append, List.mem_singleton] at hx
      rcases hx with hx | rfl
      · exact hkeep (h.reached k call x (hkn ▸ hcall) hx (hopen x ho))
      · exact hkn ▸ hnew ho
    · exact hkeep (h.reached k c x hc hx (hopen x ho))
  once x := by
    rcases hstream x with hs | ⟨rfl, hs⟩
    · exact hs ▸ h.once x
    · rw [hs]
      refine List.Nodup.append (h.once x) (List.nodup_singleton n) ?_
      rw [List.disjoint_singleton]
      exact h.not_mem_stream hcall htodo

lemma Inv.send (h : Inv s) (n : ℕ) : Inv (s.send n) := by
  rcases send_cases s n with ⟨heq, -⟩ | ⟨call, id, todo, hcall, htodo, hdead, heq⟩ |
    ⟨call, id, todo, hcall, htodo, hsends, heq⟩
  · rw [heq]
    exact h
  · rw [heq]
    refine h.sentTo { call with
      sent := call.sent ++ [id], todo := todo, deadIds := call.deadIds ++ [id] } hcall htodo rfl rfl
      rfl rfl rfl (fun _ => rfl) (fun _ ho => ho) (fun _ => .inl rfl) ?_
    intro ho
    exact absurd ho hdead
  · obtain ⟨-, -, c, -, -, hc, -⟩ := hsends
    have hstream : ∀ x, (s.modifyChannel id (fun c => c.push n)).stream x =
        if x = id then s.stream id ++ [n] else s.stream x := fun x => stream_push hc
    rw [heq]
    have hclosed : ∀ c : Channel, (c.push n).closed = false → c.closed = false := fun _ hc => hc
    have hopen : ∀ x, (s.modifyChannel id (fun c => c.push n)).Open x → s.Open x :=
      fun x ho => open_of_open_modifyChannel hclosed ho
    refine h.sentTo { call with sent := call.sent ++ [id], todo := todo } hcall htodo rfl rfl rfl rfl
      rfl (fun _ => isSome_modifyChannel) hopen ?_ ?_
    · intro x
      refine (em (x = id)).symm.imp (fun hx => ?_) (fun hx => ⟨hx, ?_⟩)
      · exact (hstream x).trans (if_neg hx)
      · rw [hx]
        exact (hstream id).trans (if_pos rfl)
    · intro _
      have hid : n ∈ (s.modifyChannel id (fun c => c.push n)).stream id := by
        rw [hstream, if_pos rfl]
        exact List.mem_append_right _ List.mem_cons_self
      exact hid

lemma Inv.finish (h : Inv s) (n : ℕ) : Inv (s.finish n) := by
  rcases finish_cases s n with heq | ⟨call, hcall, htodo, heq⟩
  · rw [heq]
    exact h
  · rw [heq]
    have hgoes := h.calls call (List.mem_of_getElem? hcall)
    refine @Inv.removeConnections (s.advance n { call with returned := true }) ?_ _
    exact
      { conns := h.conns
        connsKnown := h.connsKnown
        calls := by
          intro c hc
          rcases List.mem_or_eq_of_mem_set hc with hc | rfl
          · exact (h.calls c hc).mono (fun _ hk => hk)
          · exact ⟨hgoes.nodup, hgoes.known, fun _ => htodo⟩
        sent := by
          intro k x hk
          obtain ⟨c, hc, hmem⟩ := h.sent k x hk
          rw [getElem?_advance hcall]
          split
          · rename_i hkn
            rw [hkn, hcall] at hc
            cases hc
            exact ⟨_, rfl, hmem⟩
          · exact ⟨c, hc, hmem⟩
        reached := by
          intro k c x hc hx ho
          rw [getElem?_advance hcall] at hc
          split at hc
          · rename_i hkn
            cases hc
            exact h.reached k call x (hkn ▸ hcall) hx ho
          · exact h.reached k c x hc hx ho
        once := h.once }

lemma Inv.step (h : Inv s) (a : Action) : Inv (s.step a) := by
  cases a with
  | addConnection id => exact h.addConnection id
  | removeConnection id => exact h.removeConnections _
  | close id => exact h.modifyChannel id (fun _ => rfl) (by simp)
  | receive id =>
      refine h.modifyChannel id stream_take ?_
      intro c hc
      exact closed_take c ▸ hc
  | call message => exact h.newCall message
  | send n => exact h.send n
  | finish n => exact h.finish n

lemma inv_run (acts : List Action) : Inv (State.new.run acts) := by
  induction acts using List.reverseRecOn with
  | nil => exact inv_new
  | append_singleton acts a ih =>
      rw [run, List.foldl_append]
      exact ih.step a

end State

end BroadcastSender

end Shell

end OwncloudSync
