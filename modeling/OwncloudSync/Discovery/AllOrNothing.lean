import OwncloudSync.Discovery.LocalWalk
import OwncloudSync.Discovery.Propfind
import OwncloudSync.Engine.Plan
import Mathlib.Tactic.Common

/-!
# Phase 1 is all or nothing

Phase 1 of `run_sync`: a token, then the local walk and the PROPFINDs under `try_join!`.  The
requests of `discover_remote` are read off its loop (`requests`), each with the answer it got, so
that one can say **which collections have been reached**: the space root, and whatever a parsed
answer lists.  `reached_answered` says that a discovery that succeeds has asked for all of them.

`allOrNothing` puts the two halves in front of `runSync`.
-/

namespace OwncloudSync

open PathTree

/-- What an answer lists, if it is a 207 whose body can be parsed. -/
def Reply.parsed (enc : Str → Str) (spaceRoot url : Str) :
    Reply → Option (List RemoteEntry × List Str)
  | .lost _ => none
  | .answer status events =>
      if status ≠ 207 then none
      else
        match parsePropfind enc spaceRoot url events with
        | .error _ => none
        | .ok r => some r

/-- The requests of `discover_remote`, each with its answer.  It ends with the first one that is
not answered well. -/
def requests (enc : Str → Str) (spaceRoot : Str) :
    List Reply → List Str → List Str → List (Str × Option Reply)
  | _, [], _ => []
  | [], url :: _, _ => [(url, none)]
  | reply :: replies, url :: queue, visited =>
      (url, some reply) ::
        match reply.parsed enc spaceRoot url with
        | none => []
        | some (_, dirs) =>
            requests enc spaceRoot replies (enqueueNew dirs visited queue).2
              (enqueueNew dirs visited queue).1

/-- The request got a 207 whose body could be parsed. -/
def Answered (enc : Str → Str) (spaceRoot : Str) (x : Str × Option Reply) : Prop :=
  ∃ reply listed, x.2 = some reply ∧ reply.parsed enc spaceRoot x.1 = some listed

variable {enc : Str → Str} {spaceRoot url : Str} {replies : List Reply}
  {queue visited seen : List Str} {result : List RemoteEntry}

/-! ## The loop and its requests -/

/-- One round of the loop. -/
lemma discoverLoop_parsed {reply : Reply} {listed : List RemoteEntry × List Str}
    (h : reply.parsed enc spaceRoot url = some listed) :
    discoverLoop enc spaceRoot (reply :: replies) (url :: queue) visited seen result =
      discoverLoop enc spaceRoot replies (enqueueNew listed.2 visited queue).2
        (enqueueNew listed.2 visited queue).1 (pushNew listed.1 seen result).1
        (pushNew listed.1 seen result).2 := by
  cases reply with
  | lost message => cases h
  | answer status events =>
      rw [discoverLoop]
      simp only [Reply.parsed] at h
      by_cases hs : status = 207
      · rw [if_neg (fun hc => hc hs)] at h ⊢
        cases hp : parsePropfind enc spaceRoot url events with
        | error e => rw [hp] at h; cases h
        | ok r =>
            rw [hp] at h
            obtain rfl := Option.some.inj h
            rfl
      · rw [if_pos hs] at h
        cases h

lemma discoverLoop_unparsed {reply : Reply} (h : reply.parsed enc spaceRoot url = none)
    (replies : List Reply) (queue visited seen : List Str) (result : List RemoteEntry) :
    ∃ e, discoverLoop enc spaceRoot (reply :: replies) (url :: queue) visited seen result =
      .error e := by
  cases reply with
  | lost message => exact ⟨_, rfl⟩
  | answer status events =>
      rw [discoverLoop]
      simp only [Reply.parsed] at h
      by_cases hs : status = 207
      · rw [if_neg (fun hc => hc hs)] at h ⊢
        cases hp : parsePropfind enc spaceRoot url events with
        | error e => exact ⟨e, rfl⟩
        | ok r => rw [hp] at h; cases h
      · rw [if_pos hs]
        exact ⟨_, rfl⟩

/-- The loop succeeds exactly if all its requests are answered. -/
lemma discoverLoop_ok_iff :
    (∃ es, discoverLoop enc spaceRoot replies queue visited seen result = .ok es) ↔
      ∀ x ∈ requests enc spaceRoot replies queue visited, Answered enc spaceRoot x := by
  induction replies generalizing queue visited seen result with
  | nil =>
      cases queue with
      | nil => simp [discoverLoop, requests]
      | cons url queue => simp [discoverLoop, requests, Answered]
  | cons reply replies ih =>
      cases queue with
      | nil => simp [discoverLoop, requests]
      | cons url queue =>
          rw [requests, List.forall_mem_cons]
          cases hp : reply.parsed enc spaceRoot url with
          | none =>
              obtain ⟨e, he⟩ := discoverLoop_unparsed hp replies queue visited seen result
              rw [he]
              refine iff_of_false (by simp) (fun h => ?_)
              obtain ⟨reply', listed, hr, hl⟩ := h.1
              obtain rfl := Option.some.inj hr
              exact absurd (hp.symm.trans hl) (by simp)
          | some listed =>
              rw [discoverLoop_parsed hp, ih]
              exact ⟨fun h => ⟨⟨reply, listed, rfl, hp⟩, h⟩, fun h => h.2⟩

/-! ## Every collection that is reached -/

/-- What is enqueued: nothing is dropped, every listed collection is marked, and what is marked is
in the queue or was marked before. -/
lemma enqueueNew_spec (dirs visited queue : List Str) :
    (∀ u ∈ queue, u ∈ (enqueueNew dirs visited queue).2) ∧
    (∀ d ∈ dirs, trimEndSlash d ∈ (enqueueNew dirs visited queue).1) ∧
    (∀ v ∈ visited, v ∈ (enqueueNew dirs visited queue).1) ∧
    ∀ v ∈ (enqueueNew dirs visited queue).1,
      v ∈ visited ∨ ∃ u ∈ (enqueueNew dirs visited queue).2, trimEndSlash u = v := by
  induction dirs generalizing visited queue with
  | nil => exact ⟨fun _ h => h, by simp, fun _ h => h, fun _ h => Or.inl h⟩
  | cons d dirs ih =>
      unfold enqueueNew
      by_cases hd : trimEndSlash d ∈ visited
      · rw [if_pos hd]
        obtain ⟨hqueue, hdirs, hold, hnew⟩ := ih visited queue
        refine ⟨hqueue, ?_, hold, hnew⟩
        exact List.forall_mem_cons.mpr ⟨hold _ hd, hdirs⟩
      · rw [if_neg hd]
        obtain ⟨hqueue, hdirs, hold, hnew⟩ := ih (trimEndSlash d :: visited) (queue ++ [d])
        refine ⟨fun u hu => hqueue u (List.mem_append_left _ hu), ?_,
          fun v hv => hold v (List.mem_cons_of_mem _ hv), fun v hv => ?_⟩
        · exact List.forall_mem_cons.mpr ⟨hold _ List.mem_cons_self, hdirs⟩
        · rcases hnew v hv with h | h
          · rcases List.mem_cons.mp h with rfl | h
            · exact Or.inr ⟨d, hqueue d (by simp), rfl⟩
            · exact Or.inl h
          · exact Or.inr h

/-- Where all requests are answered, everything in the queue is asked for. -/
lemma requested_of_queue
    (h : ∀ x ∈ requests enc spaceRoot replies queue visited, Answered enc spaceRoot x) :
    ∀ u ∈ queue, ∃ r, (u, r) ∈ requests enc spaceRoot replies queue visited := by
  induction replies generalizing queue visited with
  | nil =>
      cases queue with
      | nil => simp
      | cons url queue =>
          obtain ⟨reply, -, hr, -⟩ := h (url, none) (by simp [requests])
          cases hr
  | cons reply replies ih =>
      cases queue with
      | nil => simp
      | cons url queue =>
          rw [requests] at h ⊢
          obtain ⟨hhead, htail⟩ := List.forall_mem_cons.mp h
          obtain ⟨reply', listed, hr, hl⟩ := hhead
          obtain rfl := Option.some.inj hr
          rw [show reply.parsed enc spaceRoot url = some listed from hl] at htail ⊢
          intro u hu
          rcases List.mem_cons.mp hu with rfl | hu
          · exact ⟨some reply, List.mem_cons_self⟩
          · obtain ⟨r, hr⟩ := ih htail u ((enqueueNew_spec listed.2 visited queue).1 u hu)
            exact ⟨r, List.mem_cons_of_mem _ hr⟩

/-- What an answer lists is asked for, unless it was before. -/
lemma requested_of_listed
    (h : ∀ x ∈ requests enc spaceRoot replies queue visited, Answered enc spaceRoot x)
    {reply : Reply} {listed : List RemoteEntry × List Str} {d : Str}
    (hx : (url, some reply) ∈ requests enc spaceRoot replies queue visited)
    (hp : reply.parsed enc spaceRoot url = some listed) (hd : d ∈ listed.2) :
    trimEndSlash d ∈ visited ∨ ∃ u r, (u, r) ∈ requests enc spaceRoot replies queue visited ∧
      trimEndSlash u = trimEndSlash d := by
  induction replies generalizing queue visited with
  | nil =>
      cases queue with
      | nil => cases hx
      | cons u queue => simp [requests] at hx
  | cons reply' replies ih =>
      cases queue with
      | nil => cases hx
      | cons u queue =>
          rw [requests] at h hx ⊢
          obtain ⟨⟨reply₀, listed₀, hr₀, hl₀⟩, htail⟩ := List.forall_mem_cons.mp h
          obtain rfl := Option.some.inj hr₀
          rw [show reply'.parsed enc spaceRoot u = some listed₀ from hl₀] at htail hx ⊢
          obtain ⟨-, hdirs, -, hnew⟩ := enqueueNew_spec listed₀.2 visited queue
          -- a mark is an old one, or its URL is in the queue now
          have hmark : trimEndSlash d ∈ (enqueueNew listed₀.2 visited queue).1 →
              trimEndSlash d ∈ visited ∨ ∃ v r, (v, r) ∈ (u, some reply') ::
                requests enc spaceRoot replies (enqueueNew listed₀.2 visited queue).2
                  (enqueueNew listed₀.2 visited queue).1 ∧ trimEndSlash v = trimEndSlash d := by
            intro hm
            rcases hnew _ hm with hv | ⟨v, hv, hkey⟩
            · exact Or.inl hv
            · obtain ⟨r, hr⟩ := requested_of_queue htail v hv
              exact Or.inr ⟨v, r, List.mem_cons_of_mem _ hr, hkey⟩
          rcases List.mem_cons.mp hx with hx | hx
          · obtain ⟨rfl, hr⟩ := Prod.mk.inj hx
            obtain rfl := Option.some.inj hr
            obtain rfl := Option.some.inj (hp.symm.trans hl₀)
            exact hmark (hdirs d hd)
          · rcases ih htail hx with hv | ⟨v, r, hv, hkey⟩
            · exact hmark hv
            · exact Or.inr ⟨v, r, List.mem_cons_of_mem _ hv, hkey⟩

/-- The collections a discovery reaches, by the path of their URL without a slash at its end: the
space root, and what the answer for one of them lists. -/
inductive Reached (enc : Str → Str) (spaceRoot : Str) (replies : List Reply) : Str → Prop
  | root : Reached enc spaceRoot replies (trimEndSlash spaceRoot)
  | sub {url d : Str} {reply : Reply} {listed : List RemoteEntry × List Str} :
      Reached enc spaceRoot replies (trimEndSlash url) →
      (url, some reply) ∈ requests enc spaceRoot replies [spaceRoot] [trimEndSlash spaceRoot] →
      reply.parsed enc spaceRoot url = some listed → d ∈ listed.2 →
      Reached enc spaceRoot replies (trimEndSlash d)

lemma Reply.parsed_eq_some {reply : Reply} {listed : List RemoteEntry × List Str}
    (h : reply.parsed enc spaceRoot url = some listed) :
    ∃ events, reply = .answer 207 events ∧ parsePropfind enc spaceRoot url events = .ok listed := by
  cases reply with
  | lost message => cases h
  | answer status events =>
      simp only [Reply.parsed] at h
      by_cases hs : status = 207
      · subst hs
        refine ⟨events, rfl, ?_⟩
        rw [if_neg (by simp)] at h
        cases hp : parsePropfind enc spaceRoot url events with
        | error e => rw [hp] at h; cases h
        | ok r =>
            rw [hp] at h
            obtain rfl := Option.some.inj h
            rfl
      · rw [if_pos hs] at h
        cases h

/-- **Nothing that is reached is left out**: if all requests are answered, every collection that is
reached was asked for. -/
theorem reached_answered {key : Str}
    (h : ∀ x ∈ requests enc spaceRoot replies [spaceRoot] [trimEndSlash spaceRoot],
      Answered enc spaceRoot x) (hr : Reached enc spaceRoot replies key) :
    ∃ url events listed, (url, some (.answer 207 events)) ∈
        requests enc spaceRoot replies [spaceRoot] [trimEndSlash spaceRoot] ∧
      trimEndSlash url = key ∧ parsePropfind enc spaceRoot url events = .ok listed := by
  have hasked : ∃ u r, (u, r) ∈
      requests enc spaceRoot replies [spaceRoot] [trimEndSlash spaceRoot] ∧
        trimEndSlash u = key := by
    have hroot : ∃ r, (spaceRoot, r) ∈
        requests enc spaceRoot replies [spaceRoot] [trimEndSlash spaceRoot] :=
      requested_of_queue h spaceRoot List.mem_cons_self
    cases hr with
    | root =>
        obtain ⟨r, hr⟩ := hroot
        exact ⟨spaceRoot, r, hr, rfl⟩
    | sub _ hx hp hd =>
        rcases requested_of_listed h hx hp hd with hv | ⟨u, r, hu, hkey⟩
        · obtain ⟨r, hr⟩ := hroot
          exact ⟨spaceRoot, r, hr, (List.mem_singleton.mp hv).symm⟩
        · exact ⟨u, r, hu, hkey⟩
  obtain ⟨u, r, hu, hkey⟩ := hasked
  obtain ⟨reply, listed, hreply, hp⟩ := h _ hu
  obtain ⟨events, rfl, hparse⟩ := Reply.parsed_eq_some hp
  refine ⟨u, events, listed, ?_, hkey, hparse⟩
  rw [← hreply]
  exact hu

/-! ## Phase 1 in front of the run -/

/-- What phase 1 meets: the token manager, the operating system and the server. -/
structure Phase1 (disk : Disk) where
  token : Except String Str
  /-- the thread of the walk died -/
  panicked : Option String
  listing : Listing
  shows : listing.Shows disk
  /-- what the client makes of the PROPFINDs -/
  sends : List (Followed Reply)
  /-- which of two errors comes first -/
  localFirst : Bool

/-- `tokio::try_join!`: the first error ends both. -/
def tryJoin {α β : Type} (leftFirst : Bool) (l : Except SyncError α) (r : Except SyncError β) :
    Except SyncError (α × β) :=
  match l, r with
  | .ok a, .ok b => .ok (a, b)
  | .error e, .ok _ => .error e
  | .ok _, .error e => .error e
  | .error e, .error e' => .error (if leftFirst then e else e')

lemma tryJoin_ok_iff {α β : Type} {leftFirst : Bool} {l : Except SyncError α}
    {r : Except SyncError β} :
    (∃ x, tryJoin leftFirst l r = .ok x) ↔ (∃ a, l = .ok a) ∧ ∃ b, r = .ok b := by
  cases l <;> cases r <;> simp [tryJoin]

namespace Phase1

variable {disk : Disk}

/-- The replies that `discover_remote` sees. -/
def received (φ : Phase1 disk) : List Reply := φ.sends.map Followed.last

/-- Phase 1 of `run_sync`. -/
def discover (φ : Phase1 disk) (enc : Str → Str) (spaceRoot : Str) :
    Except SyncError (List LocalEntry × List RemoteEntry) :=
  match φ.token with
  | .error message => .error (.auth message)
  | .ok _ =>
      tryJoin φ.localFirst (discoverLocal φ.panicked φ.listing)
        (discoverRemote enc spaceRoot φ.received)

/-- The requests of the remote walk. -/
def asked (φ : Phase1 disk) (enc : Str → Str) (spaceRoot : Str) : List (Str × Option Reply) :=
  requests enc spaceRoot φ.received [spaceRoot] [trimEndSlash spaceRoot]

/-- The same with what the client followed on the way. -/
def exchanges (φ : Phase1 disk) (enc : Str → Str) (spaceRoot : Str) :
    List (Str × Followed Reply) :=
  ((φ.asked enc spaceRoot).map Prod.fst).zip φ.sends

/-- One of the points at which phase 1 can fail was hit. -/
def Fails (φ : Phase1 disk) (enc : Str → Str) (spaceRoot : Str) : Prop :=
  (∃ message, φ.token = .error message) ∨
  φ.panicked ≠ none ∨ φ.listing.clean = false ∨
  ∃ x ∈ φ.asked enc spaceRoot, ¬ Answered enc spaceRoot x

/-- The surroundings of a run whose phase 1 is `φ`. -/
def env (φ : Phase1 disk) (enc : Str → Str) (spaceRoot : Str) (ε : Env) : Env :=
  { ε with discovery :=
      match φ.discover enc spaceRoot with
      | .error e => some e
      | .ok _ => none }

/-- Phase 1 succeeds exactly if it fails nowhere. -/
lemma discover_ok_iff (φ : Phase1 disk) :
    (∃ x, φ.discover enc spaceRoot = .ok x) ↔ ¬ φ.Fails enc spaceRoot := by
  unfold discover Fails
  cases htoken : φ.token with
  | error message => simp
  | ok token =>
      rw [tryJoin_ok_iff, discoverLocal_ok_iff, discoverRemote, discoverLoop_ok_iff]
      simp [asked, and_assoc]

lemma env_discovery_iff (φ : Phase1 disk) {ε : Env} :
    (φ.env enc spaceRoot ε).discovery = none ↔ ¬ φ.Fails enc spaceRoot := by
  rw [← discover_ok_iff, env]
  cases φ.discover enc spaceRoot <;> simp

end Phase1

/-- A run whose phase 1 fails returns an error and changes nothing. -/
lemma Phase1.run_of_fails {κ : EngineConfig} {ε : Env} {σ : State} {π : Schedule σ}
    {φ : Phase1 σ.disk} (h : φ.Fails enc spaceRoot) :
    let r := runSync κ (φ.env enc spaceRoot ε) π
    ∃ e, r.1 = .error e ∧
      r.2.disk = σ.disk ∧ r.2.space = σ.space ∧ r.2.journal = σ.journal := by
  intro r
  have hd : (φ.env enc spaceRoot ε).discovery ≠ none :=
    fun hnone => (φ.env_discovery_iff.mp hnone) h
  obtain ⟨e, he⟩ := Option.ne_none_iff_exists'.mp hd
  have hstate : r.2 = σ.started := runSync_undiscovered he
  refine ⟨e, runSync_failed he, ?_⟩
  rw [hstate]
  exact ⟨rfl, rfl, rfl⟩

/-- A directory in a directory, with a file in it. -/
def nestedFolder : State where
  disk := Tree.ofList [(["a".toList], Node.dir), (["b".toList, "a".toList], Node.dir),
    (["x".toList, "b".toList, "a".toList], Node.file ⟨⟨[70], by decide⟩, 0⟩)]
  space := Tree.ofList [(["a".toList], Node.dir), (["b".toList, "a".toList], Node.dir)]
  journal := fun _ => none
  sync := ⟨.idle, fun _ => none⟩

/-- Its tasks, parents first. -/
def nestedFolderSchedule : Schedule nestedFolder :=
  Schedule.ofList nestedFolder rfl rfl
    [["a".toList], ["b".toList, "a".toList], ["x".toList, "b".toList, "a".toList]] (by decide)
    (by decide) (by decide)

/-- The walk of its three levels. -/
def nestedListing : Listing :=
  .dir "a".toList 0 (.dir "b".toList 0 (.file "x".toList 0 1 .done) .done) .done

lemma nestedListing_shows : nestedListing.Shows nestedFolder.disk := by
  intro p l n hfind _ hdir
  have hsome : nestedFolder.disk.get (n :: p) ≠ none := by
    rw [hdir]
    simp
  have hmem := Tree.ofList_mem hsome
  rcases hmem with hnil | hmem
  · cases hnil
  · simp only [List.map_cons, List.map_nil, List.mem_cons, List.not_mem_nil, or_false] at hmem
    rcases hmem with heq | heq | heq
    · obtain ⟨rfl, rfl⟩ := List.cons.inj heq
      obtain rfl := Option.some.inj hfind
      simp [nestedListing, Listing.sub]
    · obtain ⟨rfl, rfl⟩ := List.cons.inj heq
      obtain rfl := Option.some.inj hfind
      simp [Listing.sub]
    · rw [heq] at hdir
      cases hdir

/-- The listing of a collection that has one collection in it. -/
def listsCollection (href : Str) : Reply :=
  .answer 207 [.start "response".toList, .start "href".toList, .text href, .close "href".toList,
    .empty "collection".toList, .close "response".toList]

/-- The walk of the space, where the client may have to follow redirects for the first directory. -/
def nestedPhase1 (hops : List Hop) : Phase1 nestedFolder.disk where
  token := .ok "t".toList
  panicked := none
  listing := nestedListing
  shows := nestedListing_shows
  sends := [⟨[], listsCollection "/dav/a/".toList⟩, ⟨hops, listsCollection "/dav/a/b/".toList⟩,
    ⟨[], .answer 207 []⟩]
  localFirst := true

lemma nestedPhase1_remote : ∃ es, discoverRemote id "/dav/".toList
    [listsCollection "/dav/a/".toList, listsCollection "/dav/a/b/".toList, .answer 207 []] =
      .ok es := by
  have hok : (discoverRemote id "/dav/".toList [listsCollection "/dav/a/".toList,
      listsCollection "/dav/a/b/".toList, .answer 207 []]).isOk = true := by decide +kernel
  cases hes : discoverRemote id "/dav/".toList [listsCollection "/dav/a/".toList,
      listsCollection "/dav/a/b/".toList, .answer 207 []] with
  | ok es => exact ⟨es, rfl⟩
  | error e =>
      rw [hes] at hok
      cases hok

lemma nestedPhase1_ok (hops : List Hop) : ∃ rep, (runSync ⟨.keepBoth, 5000000⟩
    ((nestedPhase1 hops).env id "/dav/".toList .calm) nestedFolderSchedule).1 = .ok rep := by
  have hdiscovery : ((nestedPhase1 hops).env id "/dav/".toList .calm).discovery = none := by
    rw [Phase1.env_discovery_iff, ← Phase1.discover_ok_iff, Phase1.discover]
    exact tryJoin_ok_iff.mpr ⟨discoverLocal_ok_iff.mpr ⟨rfl, rfl⟩, nestedPhase1_remote⟩
  rw [runSync, hdiscovery]
  exact ⟨_, rfl⟩

end OwncloudSync
