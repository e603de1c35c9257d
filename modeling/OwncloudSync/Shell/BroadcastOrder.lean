import OwncloudSync.Lib.PairOrder
import OwncloudSync.Lib.Runs
import OwncloudSync.Shell.BroadcastSender
import Mathlib.Tactic.Common

/-!
# The order of broadcasts

**Nothing orders the sends of different calls**: they may overtake each other on one connection and not
on another.  So calls that overlap are received in the same order everywhere just as long as no message
is put into a queue behind one that it is ahead of in another queue (`sameOrder_iff_notOvertaken`); and
a call that begins after another one has returned is received after it everywhere
(`ahead_of_returned`).  A status that is called last, and after all others of its path have returned, is
the last one everywhere (`lastStatus_of_inTurn`).  It is there when its call has returned: a client that
stands still, with a full queue, keeps the call waiting, and those behind it on the list are not told.
-/

namespace OwncloudSync

namespace Shell

namespace BroadcastSender

/-- The tag, if this is a `STATUS` of the path. -/
def statusOf (path : Str) : Broadcast → Option Tag
  | .statusChanged tag p => if p = path then some tag else none
  | _ => none

namespace State

/-- No two messages are received in different orders on two connections that are alive. -/
def SameOrder (s : State) : Prop :=
  ∀ c c', s.Open c → s.Open c' → PairOrder.Agree (s.stream c) (s.stream c')

/-- No message is put behind one that it is ahead of on another connection. -/
def NotOvertaken (s : State) : Action → Prop
  | .send n => ∀ id, s.Sends n id → ∀ m ∈ s.stream id, ∀ c, s.Open c →
      ¬ [n, m].Sublist (s.stream c)
  | _ => True

/-- The connection was on the list when the call copied it. -/
def Registered (s : State) (n : ℕ) (id : Uuid) : Prop :=
  ∃ call, s.calls[n]? = some call ∧ id ∈ call.senders

/-- The first call had returned before the second was made. -/
def InTurn (acts : List Action) (n m : ℕ) : Prop :=
  ∃ pre, pre <+: acts ∧ (new.run pre).Returned n ∧ (new.run pre).calls.length ≤ m

/-- The tag that a connection reads off a message, if it is about the path. -/
def tagOfCall (s : State) (path : Str) (n : ℕ) : Option Tag :=
  s.calls[n]?.bind (fun call => statusOf path call.message)

/-- The call sends a `STATUS` of the path. -/
def About (s : State) (path : Str) (n : ℕ) : Prop := (s.tagOfCall path n).isSome = true

/-- The last `STATUS` of a path that a connection receives. -/
def lastStatus (s : State) (path : Str) (id : Uuid) : Option Tag :=
  ((s.stream id).filterMap (s.tagOfCall path)).getLast?

variable {s : State} {id id' : Uuid} {n m : ℕ} {a : Action} {acts : List Action}

/-! ## Streams from step to step -/

lemma Sends.open (h : s.Sends n id) : s.Open id := by
  obtain ⟨-, -, c, -, -, hc, hclosed, -⟩ := h
  exact ⟨c, hc, hclosed⟩

lemma Sends.unique (h : s.Sends n id) (h' : s.Sends n id') : id' = id := by
  obtain ⟨call, todo, c, hcall, htodo, -⟩ := h
  exact ((sends_iff_of_todo hcall htodo).mp h').1

lemma stream_of_sends (h : s.Sends n id) (x : Uuid) :
    (s.step (.send n)).stream x = if x = id then s.stream id ++ [n] else s.stream x := by
  rcases send_cases s n with ⟨-, hno⟩ | ⟨call, id', todo, hcall, htodo, hdead, -⟩ |
    ⟨call, id', todo, hcall, htodo, -, heq⟩
  · exact absurd h (hno id)
  · obtain ⟨rfl, c, hc, hclosed, -⟩ := (sends_iff_of_todo hcall htodo).mp h
    exact absurd ⟨c, hc, hclosed⟩ hdead
  · obtain ⟨rfl, c, hc, -⟩ := (sends_iff_of_todo hcall htodo).mp h
    rw [step, heq]
    exact stream_push hc

/-- A step that is not a send to a queue puts nothing into a stream. -/
lemma stream_of_not_sends (h : ∀ n, a = .send n → ∀ id, ¬ s.Sends n id) :
    (s.step a).stream = s.stream := by
  cases a with
  | addConnection id =>
      rw [step, addConnection]
      split
      · rfl
      · rename_i hnew
        funext x
        by_cases hx : x = id
        · subst hx
          rw [stream_of_none hnew]
          simp [stream, Channel.stream]
        · simp [stream, hx]
  | removeConnection id => rfl
  | close id => exact stream_modifyChannel (fun _ => rfl)
  | receive id => exact stream_modifyChannel stream_take
  | call message => rfl
  | send n =>
      rcases send_cases s n with ⟨heq, -⟩ | ⟨call, id, todo, -, -, -, heq⟩ |
        ⟨call, id, todo, -, -, hsends, -⟩
      · rw [step, heq]
      · rw [step, heq]
        rfl
      · exact absurd hsends (h n rfl id)
  | finish n =>
      rcases finish_cases s n with heq | ⟨call, -, -, heq⟩
      · rw [step, heq]
      · rw [step, heq]
        rfl

lemma open_of_open_send (h : (s.step (.send n)).Open id) : s.Open id := by
  rcases send_cases s n with ⟨heq, -⟩ | ⟨call, x, todo, -, -, -, heq⟩ |
    ⟨call, x, todo, -, -, -, heq⟩
  · rw [step, heq] at h
    exact h
  · rw [step, heq] at h
    exact h
  · rw [step, heq] at h
    have hclosed : ∀ c : Channel, (c.push n).closed = false → c.closed = false := fun _ hc => hc
    exact open_of_open_modifyChannel hclosed h

/-- What is alive was alive, or has not been sent anything. -/
lemma open_of_open_step (h : (s.step a).Open id) : s.Open id ∨ s.stream id = [] := by
  cases a with
  | addConnection new =>
      rw [step, addConnection] at h
      split at h
      · exact .inl h
      · rename_i hnew
        by_cases hx : id = new
        · subst hx
          exact .inr (stream_of_none hnew)
        · obtain ⟨c, hc, hclosed⟩ := h
          simp only [Function.update_of_ne hx] at hc
          exact .inl ⟨c, hc, hclosed⟩
  | removeConnection x => exact .inl h
  | close x => exact .inl (open_of_open_modifyChannel (by simp) h)
  | receive x =>
      refine .inl (open_of_open_modifyChannel ?_ h)
      intro c hc
      exact closed_take c ▸ hc
  | call message => exact .inl h
  | send n => exact .inl (open_of_open_send h)
  | finish n =>
      rcases finish_cases s n with heq | ⟨call, -, -, heq⟩
      · rw [step, heq] at h
        exact .inl h
      · rw [step, heq] at h
        exact .inl h

/-- A send closes nothing. -/
lemma Open.send (h : s.Open id) (n : ℕ) : (s.step (.send n)).Open id := by
  rcases send_cases s n with ⟨heq, -⟩ | ⟨call, x, todo, -, -, -, heq⟩ |
    ⟨call, x, todo, -, -, -, heq⟩
  · rw [step, heq]
    exact h
  · rw [step, heq]
    exact h
  · obtain ⟨c, hc, hclosed⟩ := h
    have hopen : (s.modifyChannel x (fun c => c.push n)).Open id := by
      by_cases hx : id = x
      · exact ⟨c.push n, by rw [channels_modifyChannel, if_pos hx, hc, Option.map_some], hclosed⟩
      · exact ⟨c, by rw [channels_modifyChannel, if_neg hx, hc], hclosed⟩
    rw [step, heq]
    exact hopen

/-! ## Overtaking -/

/-- A step that sends nothing keeps the order. -/
lemma SameOrder.quiet (hs : s.SameOrder) (h : (s.step a).stream = s.stream) :
    (s.step a).SameOrder := by
  intro c c' hc hc'
  rw [h]
  rcases open_of_open_step hc with hc | hnil
  · rcases open_of_open_step hc' with hc' | hnil
    · exact hs c c' hc hc'
    · rw [hnil]
      exact PairOrder.agree_nil _
  · rw [hnil]
    exact (PairOrder.agree_nil _).symm

/-- A pair of a stream after a send was there before, or the message that is sent makes it. -/
lemma pair_of_sends (h : s.Sends n id) {x : Uuid} {k : ℕ}
    (hpair : [m, k].Sublist ((s.step (.send n)).stream x)) :
    [m, k].Sublist (s.stream x) ∨ x = id ∧ m ∈ s.stream id ∧ k = n := by
  rw [stream_of_sends h] at hpair
  split at hpair
  · rename_i hx
    rcases PairOrder.pair_concat.mp hpair with hold | ⟨hm, hk⟩
    · exact .inl (hx ▸ hold)
    · exact .inr ⟨hx, hm, hk⟩
  · exact .inl hpair

lemma sublist_of_sends (h : s.Sends n id) (x : Uuid) :
    (s.stream x).Sublist ((s.step (.send n)).stream x) := by
  rw [stream_of_sends h]
  split
  · rename_i hx
    rw [hx]
    exact List.sublist_append_left _ _
  · exact List.Sublist.refl _

lemma Inv.not_mem_of_sends (hinv : Inv s) (h : s.Sends n id) : n ∉ s.stream id := by
  obtain ⟨call, todo, c, hcall, htodo, -⟩ := h
  exact hinv.not_mem_stream hcall htodo

/-- **One send.**  It keeps the order exactly when it does not overtake. -/
lemma sameOrder_send_iff (hinv : Inv s) (hs : s.SameOrder) (h : s.Sends n id) :
    (s.step (.send n)).SameOrder ↔ s.NotOvertaken (.send n) := by
  constructor
  · intro hs' id' h' m hm c hc hpair
    obtain rfl := h.unique h'
    refine hs' c id' (hc.send n) (h.open.send n) n m (hpair.trans (sublist_of_sends h c)) ?_
    rw [stream_of_sends h, if_pos rfl]
    exact PairOrder.pair_concat.mpr (.inr ⟨hm, rfl⟩)
  · intro hno c c' hc hc' x y hxy hyx
    have ho := open_of_open_send hc
    have ho' := open_of_open_send hc'
    rcases pair_of_sends h hxy with hold | ⟨-, hx, rfl⟩
    · rcases pair_of_sends h hyx with hold' | ⟨-, hy, rfl⟩
      · exact hs c c' ho ho' x y hold hold'
      · exact hno id h y hy c ho hold
    · rcases pair_of_sends h hyx with hold' | ⟨-, hy, -⟩
      · exact hno id h x hx c' ho' hold'
      · exact hinv.not_mem_of_sends h hy

lemma sameOrder_step_iff (hinv : Inv s) (hs : s.SameOrder) :
    (s.step a).SameOrder ↔ s.NotOvertaken a := by
  by_cases hsend : ∃ n id, a = .send n ∧ s.Sends n id
  · obtain ⟨n, id, rfl, h⟩ := hsend
    exact sameOrder_send_iff hinv hs h
  · have hquiet : ∀ n, a = .send n → ∀ id, ¬ s.Sends n id :=
      fun n ha id h => hsend ⟨n, id, ha, h⟩
    refine iff_of_true (hs.quiet (stream_of_not_sends hquiet)) ?_
    cases a with
    | send n => exact fun id h => absurd h (hquiet n rfl id)
    | _ => trivial

/-- **Exactly when all are told in the same order.** -/
lemma sameOrder_iff_notOvertaken (acts : List Action) :
    (∀ pre, pre <+: acts → (new.run pre).SameOrder) ↔
      ∀ pre a post, acts = pre ++ a :: post → (new.run pre).NotOvertaken a := by
  induction acts using List.reverseRecOn with
  | nil =>
      refine iff_of_true ?_ (by simp)
      intro pre hpre c c' hc
      rw [List.prefix_nil.mp hpre] at hc
      obtain ⟨ch, hch, -⟩ := hc
      cases hch
  | append_singleton acts a ih =>
      rw [Runs.forall_split_concat, ← ih]
      simp only [List.prefix_concat_iff, forall_eq_or_imp]
      have hlast : new.run (acts ++ [a]) = (new.run acts).step a := List.foldl_append
      rw [hlast, and_comm]
      refine and_congr_right (fun hacts => ?_)
      exact sameOrder_step_iff (inv_run acts) (hacts acts (List.prefix_refl acts))

/-! ## Calls that do not overlap -/

/-- What has returned has returned for good. -/
lemma Returned.step (h : s.Returned n) (a : Action) : (s.step a).Returned n := by
  obtain ⟨call, hcall, hreturned⟩ := h
  have hadvance : ∀ (k : ℕ) (call₀ call' : Call), s.calls[k]? = some call₀ →
      (call₀.returned = true → call'.returned = true) → (s.advance k call').Returned n := by
    intro k call₀ call' hk hkeep
    by_cases hkn : n = k
    · refine ⟨call', by rw [getElem?_advance hk, if_pos hkn], hkeep ?_⟩
      rw [← hkn, hcall] at hk
      cases hk
      exact hreturned
    · exact ⟨call, by rw [getElem?_advance hk, if_neg hkn, hcall], hreturned⟩
  cases a with
  | addConnection id =>
      rw [State.step, State.addConnection]
      split
      · exact ⟨call, hcall, hreturned⟩
      · exact ⟨call, hcall, hreturned⟩
  | removeConnection id => exact ⟨call, hcall, hreturned⟩
  | close id => exact ⟨call, hcall, hreturned⟩
  | receive id => exact ⟨call, hcall, hreturned⟩
  | call message =>
      have hlt := List.getElem?_eq_some_iff.mp hcall
      exact ⟨call, (List.getElem?_append_left hlt.1).trans hcall, hreturned⟩
  | send k =>
      rcases send_cases s k with ⟨heq, -⟩ | ⟨call₀, x, todo, hk, -, -, heq⟩ |
        ⟨call₀, x, todo, hk, -, -, heq⟩
      · rw [State.step, heq]
        exact ⟨call, hcall, hreturned⟩
      · rw [State.step, heq]
        exact hadvance k call₀ _ hk (fun hr => hr)
      · rw [State.step, heq]
        exact hadvance k call₀ _ hk (fun hr => hr)
  | finish k =>
      rcases finish_cases s k with heq | ⟨call₀, hk, -, heq⟩
      · rw [State.step, heq]
        exact ⟨call, hcall, hreturned⟩
      · rw [State.step, heq]
        exact hadvance k call₀ _ hk (fun _ => rfl)

/-- What has returned sends no more. -/
lemma Inv.not_sends (hinv : Inv s) (h : s.Returned n) (id : Uuid) : ¬ s.Sends n id := by
  obtain ⟨call, hcall, hreturned⟩ := h
  rw [sends_iff hcall, (hinv.calls call (List.mem_of_getElem? hcall)).done hreturned]
  simp

/-- A pair whose second message has been sent everywhere does not come up. -/
lemma not_pair_step (hinv : Inv s) (h : s.Returned n) (hpair : ∀ id, ¬ [m, n].Sublist (s.stream id))
    (a : Action) (id : Uuid) : ¬ [m, n].Sublist ((s.step a).stream id) := by
  by_cases hsend : ∃ k x, a = .send k ∧ s.Sends k x
  · obtain ⟨k, x, rfl, hk⟩ := hsend
    intro hnew
    rcases pair_of_sends hk hnew with hold | ⟨-, -, rfl⟩
    · exact hpair id hold
    · exact hinv.not_sends h x hk
  · rw [stream_of_not_sends (fun k ha x hk => hsend ⟨k, x, ha, hk⟩)]
    exact hpair id

/-- **What has returned stays ahead of what is called later.** -/
lemma ahead_of_returned {pre : List Action} (hpre : pre <+: acts) (hn : (new.run pre).Returned n)
    (hm : (new.run pre).calls.length ≤ m) :
    (new.run acts).Returned n ∧ ∀ id, ¬ [m, n].Sublist ((new.run acts).stream id) := by
  obtain ⟨post, rfl⟩ := hpre
  induction post using List.reverseRecOn with
  | nil =>
      rw [List.append_nil]
      refine ⟨hn, fun id hpair => ?_⟩
      obtain ⟨call, hcall, -⟩ := (inv_run pre).sent m id (hpair.subset List.mem_cons_self)
      have hlt := List.getElem?_eq_some_iff.mp hcall
      have hm' := hlt.1
      omega
  | append_singleton post a ih =>
      obtain ⟨hreturned, hpair⟩ := ih
      have hlast : new.run (pre ++ (post ++ [a])) = (new.run (pre ++ post)).step a := by
        rw [← List.append_assoc]
        exact List.foldl_append
      rw [hlast]
      exact ⟨hreturned.step a, not_pair_step (inv_run _) hreturned hpair a⟩

/-! ## What is received in the end -/

/-- A call that has returned has reached all that are alive of those it was for. -/
lemma Inv.mem_stream (hinv : Inv s) (hn : s.Returned n) (hid : s.Registered n id) (ho : s.Open id) :
    n ∈ s.stream id := by
  obtain ⟨call, hcall, hreturned⟩ := hn
  obtain ⟨call', hcall', hmem⟩ := hid
  rw [hcall] at hcall'
  cases hcall'
  have hdone := (hinv.calls call (List.mem_of_getElem? hcall)).done hreturned
  rw [Call.senders, hdone, List.append_nil] at hmem
  exact hinv.reached n call id hcall hmem ho

/-- Both messages are received, and in the order of the calls. -/
lemma InTurn.pair (h : InTurn acts n m) (hm : (new.run acts).Returned m)
    (hid : (new.run acts).Registered n id) (hid' : (new.run acts).Registered m id)
    (ho : (new.run acts).Open id) : [n, m].Sublist ((new.run acts).stream id) := by
  obtain ⟨pre, hpre, hn, hlen⟩ := h
  obtain ⟨hn', hno⟩ := ahead_of_returned hpre hn hlen
  have hne : n ≠ m := by
    obtain ⟨call, hcall, -⟩ := hn
    have hlt := List.getElem?_eq_some_iff.mp hcall
    have hlt' := hlt.1
    omega
  have hinv := inv_run acts
  exact (PairOrder.pair_or_pair (hinv.mem_stream hn' hid ho) (hinv.mem_stream hm hid' ho)
    hne).resolve_right (hno id)

lemma InTurn.not_pair (h : InTurn acts n m) (id : Uuid) :
    ¬ [m, n].Sublist ((new.run acts).stream id) := by
  obtain ⟨pre, hpre, hn, hlen⟩ := h
  exact (ahead_of_returned hpre hn hlen).2 id

/-- The last one is a matter of the messages about the path. -/
lemma lastStatus_eq (s : State) (path : Str) (id : Uuid) : s.lastStatus path id =
    (((s.stream id).filter (fun n => (s.tagOfCall path n).isSome)).filterMap
      (s.tagOfCall path)).getLast? := by
  have hfilter : ∀ l : List ℕ, (l.filter (fun n => (s.tagOfCall path n).isSome)).filterMap
      (s.tagOfCall path) = l.filterMap (s.tagOfCall path) := by
    intro l
    induction l with
    | nil => rfl
    | cons n l ih =>
        cases htag : s.tagOfCall path n with
        | none => rw [List.filter_cons_of_neg (by simp [htag]), List.filterMap_cons_none htag, ih]
        | some tag =>
            rw [List.filter_cons_of_pos (by simp [htag]), List.filterMap_cons_some htag,
              List.filterMap_cons_some htag, ih]
  rw [hfilter, lastStatus]

/-- A connection that is told last what was called last ends with its tag. -/
lemma lastStatus_of_inTurn {path : Str} (hn : (new.run acts).About path n)
    (hturn : ∀ m, (new.run acts).About path m → m ≠ n → InTurn acts m n)
    (hreturned : (new.run acts).Returned n) (hid : (new.run acts).Registered n id)
    (ho : (new.run acts).Open id) :
    (new.run acts).lastStatus path id = (new.run acts).tagOfCall path n := by
  have hinv := inv_run acts
  have hmem : n ∈ ((new.run acts).stream id).filter
      (fun n => ((new.run acts).tagOfCall path n).isSome) :=
    List.mem_filter.mpr ⟨hinv.mem_stream hreturned hid ho, hn⟩
  have hlast := PairOrder.getLast?_of_not_pair hmem ?_
  · obtain ⟨front, hfront⟩ := List.getLast?_eq_some_iff.mp hlast
    obtain ⟨tag, htag⟩ := Option.isSome_iff_exists.mp hn
    rw [lastStatus_eq, hfront, List.filterMap_append, List.filterMap_cons_some htag,
      List.filterMap_nil, List.getLast?_concat, htag]
  · intro m hpair
    have hm := (List.mem_filter.mp (hpair.subset (List.mem_cons_of_mem n List.mem_cons_self))).2
    have hstream := hpair.trans List.filter_sublist
    by_cases heq : m = n
    · rw [heq] at hstream
      exact List.nodup_iff_sublist.mp (hinv.once id) n hstream
    · exact (hturn m hm heq).not_pair id hstream

/-- Two connections that are told everything, and in the same order, are told the same. -/
lemma stream_eq_of_sameOrder {c c' : Uuid} (horder : (new.run acts).SameOrder)
    (hreturned : ∀ n < (new.run acts).calls.length, (new.run acts).Returned n)
    (hc : (new.run acts).Open c ∧
      ∀ n < (new.run acts).calls.length, (new.run acts).Registered n c)
    (hc' : (new.run acts).Open c' ∧
      ∀ n < (new.run acts).calls.length, (new.run acts).Registered n c') :
    (new.run acts).stream c = (new.run acts).stream c' := by
  have hinv := inv_run acts
  have hmem : ∀ id, ((new.run acts).Open id ∧
      ∀ n < (new.run acts).calls.length, (new.run acts).Registered n id) →
      ∀ n, n ∈ (new.run acts).stream id ↔ n < (new.run acts).calls.length := by
    intro id hid n
    constructor
    · intro hn
      obtain ⟨call, hcall, -⟩ := hinv.sent n id hn
      have hlt := List.getElem?_eq_some_iff.mp hcall
      exact hlt.1
    · intro hn
      exact hinv.mem_stream (hreturned n hn) (hid.2 n hn) hid.1
  exact PairOrder.eq_of_agree (hinv.once c) (hinv.once c')
    (fun n => (hmem c hc n).trans (hmem c' hc' n).symm) (horder c c' hc.1 hc'.1)

end State

/-- What a run promises to its connections. -/
structure KeepsOrder (acts : List Action) : Prop where
  /-- all are told in the same order, at all times, exactly when no send overtakes -/
  sameOrder : (∀ pre, pre <+: acts → (State.new.run pre).SameOrder) ↔
    ∀ pre a post, acts = pre ++ a :: post → (State.new.run pre).NotOvertaken a
  /-- of two calls in turn, nobody is ever told the second before the first; and when the second has
  returned too, all that are registered during both and alive have been told both, in their order -/
  inTurn : ∀ n m, State.InTurn acts n m →
    (∀ id, ¬ [m, n].Sublist ((State.new.run acts).stream id)) ∧
      ((State.new.run acts).Returned m → ∀ id, (State.new.run acts).Registered n id →
        (State.new.run acts).Registered m id → (State.new.run acts).Open id →
        [n, m].Sublist ((State.new.run acts).stream id))
  /-- a `STATUS` of a path that is called when all others of the path have returned is, once its call has
  returned, the last one for all that are registered during the call and alive -/
  lastStatus : ∀ path n id, (State.new.run acts).About path n →
    (∀ m, (State.new.run acts).About path m → m ≠ n → State.InTurn acts m n) →
    (State.new.run acts).Returned n → (State.new.run acts).Registered n id →
    (State.new.run acts).Open id →
    (State.new.run acts).lastStatus path id = (State.new.run acts).tagOfCall path n
  /-- in the same order, all that are registered during all calls are told the same in the end -/
  sameStream : ∀ c c', (State.new.run acts).SameOrder →
    (∀ n < (State.new.run acts).calls.length, (State.new.run acts).Returned n ∧
      (State.new.run acts).Registered n c ∧ (State.new.run acts).Registered n c') →
    (State.new.run acts).Open c → (State.new.run acts).Open c' →
    (State.new.run acts).stream c = (State.new.run acts).stream c'

/-- **The order of broadcasts.** -/
theorem keepsOrder (acts : List Action) : KeepsOrder acts where
  sameOrder := State.sameOrder_iff_notOvertaken acts
  inTurn _ _ h := ⟨h.not_pair, fun hm _ hid hid' ho => h.pair hm hid hid' ho⟩
  lastStatus _ _ _ hn hturn hreturned hid ho :=
    State.lastStatus_of_inTurn hn hturn hreturned hid ho
  sameStream _ _ horder h hc hc' :=
    State.stream_eq_of_sameOrder horder (fun n hn => (h n hn).1) ⟨hc, fun n hn => (h n hn).2.1⟩
      ⟨hc', fun n hn => (h n hn).2.2⟩

/-- Two calls with a `STATUS` of the same file; the second one goes to both connections while the first
one is between them. -/
def crossing : List Action :=
  [.addConnection 1, .addConnection 2, .call (.statusChanged .sync "/home/a".toList),
    .call (.statusChanged .ok "/home/a".toList), .send 0, .send 1, .send 1, .send 0, .finish 0,
    .finish 1]

/-- One connection ends with `OK`, and the other with `SYNC`. -/
theorem crossing_overtakes : ¬ (∀ acts, (State.new.run acts).SameOrder) ∧
    (State.new.run crossing).lastStatus "/home/a".toList 1 = some .ok ∧
    (State.new.run crossing).lastStatus "/home/a".toList 2 = some .sync := by
  refine ⟨?_, by decide, by decide⟩
  intro h
  have hagree := h crossing 1 2 ⟨_, rfl, rfl⟩ ⟨_, rfl, rfl⟩ 0 1
  exact hagree (by decide) (by decide)

end BroadcastSender

end Shell

end OwncloudSync
