import OwncloudSync.Discovery.AllOrNothing
import OwncloudSync.Discovery.HrefSpelling
import OwncloudSync.Discovery.RemoteUrl
import Mathlib.Data.Set.Card
import Mathlib.Tactic.Common

/-!
# The walk of the space

`discover_remote` follows what the server lists, so what it asks for is in the server's hands.  A
server may list a collection inside itself, or its parents, or anything; but every URL that is put in
the queue is **a function of an href**, whatever collection was being listed, and none is put there
twice.  So a server that mentions finitely many hrefs is asked finitely often (`discovery_ends`).
What the HTTP client sends besides, when it follows a redirect, the walk does not see
(`redirected_twice`).

Here the loop is a walk with a state (`Walk`), which also keeps what was asked for and the
`http_events` of the report, and the URLs are made by `join`.  With `joinPath` they are those of
`join_remote_path`, segment by segment; with `joinRemotePath` the walk is `discoverLoop`
(`discoverLoop_eq`).
-/

namespace OwncloudSync

/-! ## The answers -/

/-- The `HttpEvent` of a PROPFIND, with the URL by its path. -/
structure PropfindEvent where
  method : String
  url : Str
  status : ℕ
  durationMs : ℕ
  bytes : ℕ
  deriving DecidableEq

/-- What becomes of a PROPFIND: it cannot be sent, or there is a response, whose body is lost or is a
text of some length that the XML reader makes events of. -/
inductive PropfindExchange where
  | unanswered (message : String)
  | answered (status millis : ℕ) (body : Except String (ℕ × List XmlEvent))

namespace PropfindExchange

/-- The event of a response: the body counts for a 207 only, any other is not read. -/
def event (url : Str) : PropfindExchange → Option PropfindEvent
  | unanswered _ => none
  | answered status millis body =>
      if status ≠ 207 then some ⟨"PROPFIND", url, status, millis, 0⟩
      else
        match body with
        | .error _ => none
        | .ok (bytes, _) => some ⟨"PROPFIND", url, status, millis, bytes⟩

/-- The same without what the report keeps. -/
def reply : PropfindExchange → Reply
  | unanswered message => .lost message
  | answered status _ body =>
      if status ≠ 207 then .answer status []
      else
        match body with
        | .error message => .lost message
        | .ok (_, events) => .answer status events

end PropfindExchange

/-- The PROPFINDs that are sent for one URL.  After a 303 the client goes on with a GET, after any other
redirect with the same method. -/
def Followed.propfinds (url : Str) (x : Followed PropfindExchange) : List Str :=
  url :: (x.hops.takeWhile (fun hop => hop.status ≠ 303)).map Hop.location

/-- The responses to it that came to their end. -/
def Followed.responses (url : Str) (x : Followed PropfindExchange) : ℕ :=
  x.hops.length + (x.last.event url).toList.length

/-- The hrefs a body mentions: the texts that go to the `href` of a response. -/
def hrefTexts : Bool → Bool → List XmlEvent → List Str
  | _, _, [] => []
  | inResponse, inHref, .start name :: es =>
      if name = "response".toList then hrefTexts true inHref es
      else if name = "href".toList ∧ inResponse then hrefTexts inResponse true es
      else hrefTexts inResponse inHref es
  | inResponse, inHref, .empty _ :: es => hrefTexts inResponse inHref es
  | inResponse, inHref, .text text :: es =>
      (if inHref then [text] else []) ++ hrefTexts inResponse false es
  | inResponse, inHref, .close name :: es =>
      if name = "response".toList ∧ inResponse then hrefTexts false inHref es
      else hrefTexts inResponse inHref es
  | inResponse, inHref, .other :: es => hrefTexts inResponse inHref es
  | _, _, .malformed _ :: _ => []

/-- The hrefs of an answer that is a multistatus. -/
def PropfindExchange.hrefs : PropfindExchange → List Str
  | .answered _ _ (.ok (_, events)) => hrefTexts false false events
  | _ => []

/-! ## The loop -/

/-- The URL of a collection ends with a slash. -/
def withSlash (url : Str) : Str := if url.getLast? = some '/' then url else url ++ ['/']

/-- The URLs `parse_propfind` returns: one for each collection among the entries, made of its path. -/
def collectionUrls (join : Str → Option Str) (files : List RemoteEntry) : List Str :=
  (files.filter (·.isDir)).filterMap (fun e => (join e.path).map withSlash)

/-- The variables of the loop. -/
structure Walk where
  queue : List Str
  visited : List Str
  seen : List Str
  result : List RemoteEntry
  /-- the URLs that were asked for -/
  asked : List Str
  httpEvents : List PropfindEvent

namespace Walk

/-- The walk before its first request. -/
def start (spaceRoot : Str) (httpEvents : List PropfindEvent) : Walk where
  queue := [spaceRoot]
  visited := [trimEndSlash spaceRoot]
  seen := []
  result := []
  asked := []
  httpEvents := httpEvents

/-- The entries and the collections of an answer are taken in, each of them once. -/
def take (join : Str → Option Str) (files : List RemoteEntry) (ω : Walk) : Walk :=
  let (seen', result') := pushNew files ω.seen ω.result
  let (visited', queue') := enqueueNew (collectionUrls join files) ω.visited ω.queue
  { ω with queue := queue', visited := visited', seen := seen', result := result' }

/-- The URL leaves the queue. -/
def ask (url : Str) (queue : List Str) (ω : Walk) : Walk :=
  { ω with queue := queue, asked := ω.asked ++ [url] }

/-- The events that are passed on to `http_events`. -/
def log (event : Option PropfindEvent) (ω : Walk) : Walk :=
  { ω with httpEvents := ω.httpEvents ++ event.toList }

/-- What was asked for and what is going to be. -/
def urls (ω : Walk) : List Str := ω.asked ++ ω.queue

/-- One PROPFIND and what becomes of it. -/
def round (join : Str → Option Str) (spaceRoot : Str) (x : PropfindExchange) (ω : Walk) :
    Option SyncError × Walk :=
  match ω.queue with
  | [] => (none, ω)
  | url :: queue =>
      let ω₁ := (ω.ask url queue).log (x.event url)
      match x with
      | .unanswered message => (some (.http 0 message), ω₁)
      | .answered status _ body =>
          if status ≠ 207 then (some (.http status "PROPFIND failed"), ω₁)
          else
            match body with
            | .error message => (some (.http 0 message), ω₁)
            | .ok (_, events) =>
                match parsePropfind id spaceRoot url events with
                | .error e => (some e, ω₁)
                | .ok (files, _) => (none, ω₁.take join files)

end Walk

/-- `discover_remote`, until the answers are used up. -/
def discoverWalk (join : Str → Option Str) (spaceRoot : Str) :
    List PropfindExchange → Walk → Option (Except SyncError (List RemoteEntry)) × Walk
  | [], ω => (if ω.queue = [] then some (.ok ω.result) else none, ω)
  | x :: xs, ω =>
      if ω.queue = [] then (some (.ok ω.result), ω)
      else
        match ω.round join spaceRoot x with
        | (some e, ω') => (some (.error e), ω')
        | (none, ω') => discoverWalk join spaceRoot xs ω'

/-- `Url::path`. -/
def UrlPath.text : UrlPath → Str
  | .segments segs => pathText segs
  | .cannotBeABase text => text

/-- `join_remote_path`, by the path of its URL. -/
def ParsedUrl.joinPath (β : SegmentBytes) (root : ParsedUrl) (rel : Str) : Option Str :=
  match root.joinRemotePath β rel with
  | .ok url => some url.path.text
  | .error _ => none

variable {enc : Str → Str} {join : Str → Option Str} {spaceRoot url : Str}
  {xs : List PropfindExchange} {ω : Walk}

/-! ## The collections of an answer -/

/-- **The URLs that are returned are those of the collections among the entries.** -/
lemma dirs_closed (st : ParseState) (name : Str)
    (h : st.dirs = collectionUrls (fun rel => some (joinRemotePath enc spaceRoot rel)) st.files) :
    (st.closed enc spaceRoot url name).dirs =
      collectionUrls (fun rel => some (joinRemotePath enc spaceRoot rel))
        (st.closed enc spaceRoot url name).files := by
  rw [collectionUrls] at h ⊢
  rw [ParseState.closed]
  repeat' split
  all_goals first | exact h | simp [h, withSlash]

lemma dirs_parseEvents {es : List XmlEvent} {st st' : ParseState}
    (hst : st.dirs = collectionUrls (fun rel => some (joinRemotePath enc spaceRoot rel)) st.files)
    (h : parseEvents enc spaceRoot url es st = .ok st') :
    st'.dirs =
      collectionUrls (fun rel => some (joinRemotePath enc spaceRoot rel)) st'.files := by
  induction es generalizing st with
  | nil => rwa [← Except.ok.inj h]
  | cons e es ih =>
      cases e with
      | start name =>
          refine ih ?_ h
          rw [ParseState.opened]
          repeat' split
          all_goals exact hst
      | empty name =>
          refine ih ?_ h
          split <;> exact hst
      | text text => exact @ih (st.textRead text) hst h
      | close name => exact ih (dirs_closed st name hst) h
      | other => exact ih hst h
      | malformed message => cases h

/-- The encoding of the segments changes nothing in the entries. -/
lemma files_closed_enc (enc enc' : Str → Str) (spaceRoot url : Str) (st : ParseState)
    (dirs : List Str) (name : Str) :
    ∃ dirs', { st with dirs := dirs }.closed enc' spaceRoot url name =
      { st.closed enc spaceRoot url name with dirs := dirs' } := by
  rw [ParseState.closed, ParseState.closed]
  repeat' split
  all_goals first | exact ⟨_, rfl⟩ | simp_all

lemma parseEvents_enc (enc enc' : Str → Str) (spaceRoot url : Str) (es : List XmlEvent)
    (st : ParseState) (dirs : List Str) :
    (parseEvents enc' spaceRoot url es { st with dirs := dirs }).map ParseState.files =
      (parseEvents enc spaceRoot url es st).map ParseState.files := by
  induction es generalizing st dirs with
  | nil => rfl
  | cons e es ih =>
      cases e with
      | start name =>
          have hopened : { st with dirs := dirs }.opened name =
              { st.opened name with dirs := dirs } := by
            rw [ParseState.opened, ParseState.opened]
            repeat' split
            all_goals rfl
          rw [parseEvents, parseEvents, hopened]
          exact ih (st.opened name) dirs
      | empty name =>
          rw [parseEvents, parseEvents]
          split
          · exact ih { st with isCollection := true } dirs
          · exact ih st dirs
      | text text => exact ih (st.textRead text) dirs
      | close name =>
          obtain ⟨dirs', hclosed⟩ := files_closed_enc enc enc' spaceRoot url st dirs name
          rw [parseEvents, parseEvents, hclosed]
          exact ih (st.closed enc spaceRoot url name) dirs'
      | other => exact ih st dirs
      | malformed message => rfl

/-- What `parse_propfind` returns, with the URLs read off the entries. -/
lemma parsePropfind_eq (es : List XmlEvent) : parsePropfind enc spaceRoot url es =
    match parsePropfind id spaceRoot url es with
    | .ok (files, _) =>
        .ok (files, collectionUrls (fun rel => some (joinRemotePath enc spaceRoot rel)) files)
    | .error e => .error e := by
  have hfiles := parseEvents_enc enc id spaceRoot url es {} []
  rw [parsePropfind, parsePropfind]
  change (parseEvents id spaceRoot url es {}).map _ = _ at hfiles
  cases hid : parseEvents id spaceRoot url es {} with
  | error e =>
      rw [hid] at hfiles
      cases henc : parseEvents enc spaceRoot url es {} with
      | error e' => rw [henc] at hfiles; rw [Except.error.inj hfiles]
      | ok st' => rw [henc] at hfiles; cases hfiles
  | ok st =>
      rw [hid] at hfiles
      cases henc : parseEvents enc spaceRoot url es {} with
      | error e' => rw [henc] at hfiles; cases hfiles
      | ok st' =>
          rw [henc] at hfiles
          have heq : st.files = st'.files := Except.ok.inj hfiles
          dsimp only
          rw [heq, dirs_parseEvents rfl henc]

/-- **With the URLs of the discovery the walk is its loop.** -/
theorem discoverLoop_eq {r : Except SyncError (List RemoteEntry)}
    (h : (discoverWalk (fun rel => some (joinRemotePath enc spaceRoot rel)) spaceRoot xs ω).1 =
      some r) :
    discoverLoop enc spaceRoot (xs.map PropfindExchange.reply) ω.queue ω.visited ω.seen ω.result =
      r := by
  induction xs generalizing ω with
  | nil =>
      rw [discoverWalk] at h
      split at h
      · rename_i hqueue
        rw [List.map_nil, hqueue, discoverLoop]
        exact Option.some.inj h
      · cases h
  | cons x xs ih =>
      rw [discoverWalk] at h
      cases hqueue : ω.queue with
      | nil =>
          rw [if_pos hqueue] at h
          rw [discoverLoop]
          exact Option.some.inj h
      | cons url queue =>
          rw [if_neg (by rw [hqueue]; exact List.cons_ne_nil _ _), Walk.round, hqueue] at h
          rw [List.map_cons]
          cases x with
          | unanswered message => exact Option.some.inj h
          | answered status millis body =>
              dsimp only at h
              rw [PropfindExchange.reply.eq_def]
              dsimp only
              by_cases hstatus : status ≠ 207
              · rw [if_pos hstatus] at h
                rw [if_pos hstatus, discoverLoop, if_pos hstatus]
                exact Option.some.inj h
              · rw [if_neg hstatus] at h
                rw [if_neg hstatus]
                cases body with
                | error message => exact Option.some.inj h
                | ok body =>
                    dsimp only at h ⊢
                    rw [discoverLoop, if_neg hstatus, parsePropfind_eq]
                    cases hparse : parsePropfind id spaceRoot url body.2 with
                    | error e => rw [hparse] at h; exact Option.some.inj h
                    | ok listed => rw [hparse] at h; exact ih h

/-! ## What is enqueued is a function of an href -/

/-- The path of a collection, made of its href alone. -/
def collectionPath (spaceRoot href : Str) : Str :=
  trimEndSlash (decodeHrefPath (behind spaceRoot href))

lemma mem_files_closed {name : Str} {st : ParseState} {e : RemoteEntry} (hdir : e.isDir = true)
    (h : e ∈ (st.closed enc spaceRoot url name).files) :
    e ∈ st.files ∨ st.href ≠ [] ∧ e.path = collectionPath spaceRoot st.href := by
  rw [ParseState.closed] at h
  split at h
  · split at h
    · exact .inl h
    · rename_i hne
      split at h
      · exact .inl h
      · rename_i rel hrel
        rw [relPath_eq] at hrel
        split at hrel
        · cases hrel
        · obtain rfl := Option.some.inj hrel
          split at h
          · rcases List.mem_append.mp h with h | h
            · exact .inl h
            · rw [List.mem_singleton.mp h]
              exact .inr ⟨hne, rfl⟩
          · rcases List.mem_append.mp h with h | h
            · exact .inl h
            · rw [List.mem_singleton.mp h] at hdir
              cases hdir
  · exact .inl h

/-- A tag changes the flags as `hrefTexts` says, and the href at most to nothing. -/
lemma opened_spec (st : ParseState) (name : Str) (es : List XmlEvent) :
    (st.opened name).files = st.files ∧
      ((st.opened name).href = st.href ∨ (st.opened name).href = []) ∧
      hrefTexts st.inResponse st.inHref (.start name :: es) =
        hrefTexts (st.opened name).inResponse (st.opened name).inHref es := by
  rw [ParseState.opened, hrefTexts]
  by_cases hresponse : name = "response".toList
  · rw [if_pos hresponse, if_pos hresponse]
    exact ⟨rfl, .inr rfl, rfl⟩
  · rw [if_neg hresponse, if_neg hresponse]
    by_cases hhref : name = "href".toList ∧ st.inResponse = true
    · rw [if_pos hhref, if_pos hhref]
      exact ⟨rfl, .inl rfl, rfl⟩
    · rw [if_neg hhref, if_neg hhref]
      repeat' split
      all_goals exact ⟨rfl, .inl rfl, rfl⟩

lemma closed_spec (enc : Str → Str) (spaceRoot url : Str) (st : ParseState) (name : Str)
    (es : List XmlEvent) :
    (st.closed enc spaceRoot url name).href = st.href ∧
      hrefTexts st.inResponse st.inHref (.close name :: es) =
        hrefTexts (st.closed enc spaceRoot url name).inResponse
          (st.closed enc spaceRoot url name).inHref es := by
  rw [ParseState.closed, hrefTexts]
  by_cases h : name = "response".toList ∧ st.inResponse = true
  · rw [if_pos h, if_pos h]
    repeat' split
    all_goals exact ⟨rfl, rfl⟩
  · rw [if_neg h, if_neg h]
    exact ⟨rfl, rfl⟩

/-- **Every collection that is listed is listed by an href.** -/
lemma mem_files_parseEvents {es : List XmlEvent} {st st' : ParseState}
    (h : parseEvents enc spaceRoot url es st = .ok st') {e : RemoteEntry} (hdir : e.isDir = true)
    (he : e ∈ st'.files) : e ∈ st.files ∨ ∃ href, href ≠ [] ∧
      (href = st.href ∨ href ∈ hrefTexts st.inResponse st.inHref es) ∧
        e.path = collectionPath spaceRoot href := by
  induction es generalizing st with
  | nil =>
      obtain rfl := Except.ok.inj h
      exact .inl he
  | cons event es ih =>
      cases event with
      | start name =>
          obtain ⟨hfiles, hhref, htexts⟩ := opened_spec st name es
          rcases ih h with hold | ⟨href, hne, hmem, hpath⟩
          · exact .inl (hfiles ▸ hold)
          · refine .inr ⟨href, hne, ?_, hpath⟩
            rw [htexts]
            refine hmem.imp_left (fun heq => ?_)
            rcases hhref with hhref | hhref
            · rw [heq, hhref]
            · exact absurd (heq.trans hhref) hne
      | empty name =>
          rw [parseEvents] at h
          split at h
          · exact @ih { st with isCollection := true } h
          · exact ih h
      | text text =>
          rcases @ih (st.textRead text) h with hold | ⟨href, hne, hmem, hpath⟩
          · exact .inl hold
          · refine .inr ⟨href, hne, ?_, hpath⟩
            rw [hrefTexts]
            rcases hmem with heq | hmem
            · rw [heq]
              dsimp only [ParseState.textRead]
              split
              · exact .inr (List.mem_append_left _ (by simp [*]))
              · exact .inl rfl
            · exact .inr (List.mem_append_right _ hmem)
      | close name =>
          obtain ⟨hhref, htexts⟩ := closed_spec enc spaceRoot url st name es
          rcases ih h with hold | ⟨href, hne, hmem, hpath⟩
          · rcases mem_files_closed hdir hold with hold | ⟨hne, hpath⟩
            · exact .inl hold
            · exact .inr ⟨st.href, hne, .inl rfl, hpath⟩
          · rw [hhref, ← htexts] at hmem
            exact .inr ⟨href, hne, hmem, hpath⟩
      | other => exact ih h
      | malformed message => cases h

lemma mem_files_parsePropfind {es : List XmlEvent} {files : List RemoteEntry} {dirs : List Str}
    (h : parsePropfind enc spaceRoot url es = .ok (files, dirs)) {e : RemoteEntry}
    (hdir : e.isDir = true) (he : e ∈ files) :
    ∃ href ∈ hrefTexts false false es, e.path = collectionPath spaceRoot href := by
  rw [parsePropfind] at h
  split at h
  · rename_i st hst
    obtain ⟨rfl, -⟩ := Prod.mk.inj (Except.ok.inj h)
    rcases mem_files_parseEvents hst hdir he with hold | ⟨href, hne, hmem, hpath⟩
    · cases hold
    · exact ⟨href, hmem.resolve_left hne, hpath⟩
  · cases h

/-! ## One round -/

/-- What is put in the queue: URLs that were listed, each new in the set and among themselves. -/
lemma enqueueNew_new (dirs visited queue : List Str) :
    ∃ new, (enqueueNew dirs visited queue).2 = queue ++ new ∧ (∀ u ∈ new, u ∈ dirs) ∧
      (new.map trimEndSlash).Nodup ∧ (∀ u ∈ new, trimEndSlash u ∉ visited) ∧
      ∀ u ∈ new, trimEndSlash u ∈ (enqueueNew dirs visited queue).1 := by
  induction dirs generalizing visited queue with
  | nil => exact ⟨[], by simp [enqueueNew]⟩
  | cons d dirs ih =>
      rw [enqueueNew]
      by_cases hd : trimEndSlash d ∈ visited
      · rw [if_pos hd]
        obtain ⟨new, hqueue, hdirs, hnodup, hnew, hmark⟩ := ih visited queue
        exact ⟨new, hqueue, fun u hu => List.mem_cons_of_mem _ (hdirs u hu), hnodup, hnew, hmark⟩
      · rw [if_neg hd]
        obtain ⟨new, hqueue, hdirs, hnodup, hnew, hmark⟩ :=
          ih (trimEndSlash d :: visited) (queue ++ [d])
        obtain ⟨-, -, hold, -⟩ :=
          enqueueNew_spec dirs (trimEndSlash d :: visited) (queue ++ [d])
        have hkey : ∀ u ∈ new, trimEndSlash u ≠ trimEndSlash d ∧ trimEndSlash u ∉ visited :=
          fun u hu => by simpa using hnew u hu
        refine ⟨d :: new, by rw [hqueue, List.append_assoc]; rfl, ?_, ?_, ?_, ?_⟩
        · rw [List.forall_mem_cons]
          exact ⟨List.mem_cons_self, fun u hu => List.mem_cons_of_mem _ (hdirs u hu)⟩
        · rw [List.map_cons, List.nodup_cons]
          refine ⟨fun hmem => ?_, hnodup⟩
          obtain ⟨u, hu, heq⟩ := List.mem_map.mp hmem
          exact (hkey u hu).1 heq
        · rw [List.forall_mem_cons]
          exact ⟨hd, fun u hu => (hkey u hu).2⟩
        · rw [List.forall_mem_cons]
          exact ⟨hold _ List.mem_cons_self, hmark⟩

/-- The entries that are kept have different paths. -/
lemma pushNew_spec (files : List RemoteEntry) {seen : List Str} {result : List RemoteEntry}
    (hnodup : (result.map RemoteEntry.path).Nodup) (hseen : ∀ e ∈ result, e.path ∈ seen) :
    ((pushNew files seen result).2.map RemoteEntry.path).Nodup ∧
      ∀ e ∈ (pushNew files seen result).2, e.path ∈ (pushNew files seen result).1 := by
  induction files generalizing seen result with
  | nil => exact ⟨hnodup, hseen⟩
  | cons e files ih =>
      rw [pushNew]
      split
      · exact ih hnodup hseen
      · rename_i hnew
        refine ih ?_ ?_
        · rw [List.map_append, List.nodup_append]
          refine ⟨hnodup, List.nodup_singleton _, fun p hp q hq hpq => ?_⟩
          obtain ⟨e', he', rfl⟩ := List.mem_map.mp hp
          rw [List.map_singleton, List.mem_singleton] at hq
          exact hnew (hq ▸ hpq ▸ hseen e' he')
        · intro e' he'
          rcases List.mem_append.mp he' with he' | he'
          · exact List.mem_cons_of_mem _ (hseen e' he')
          · rw [List.mem_singleton.mp he']
            exact List.mem_cons_self


namespace Walk

/-- **What a round does**: the URL is asked for, its response is logged, and what the answer lists is
taken in; that is nothing if the round ends in an error. -/
lemma round_spec (join : Str → Option Str) (spaceRoot : Str) {queue : List Str}
    (hqueue : ω.queue = url :: queue) (x : PropfindExchange) :
    ∃ files, (∀ e ∈ files, e.isDir = true →
        ∃ href ∈ x.hrefs, e.path = collectionPath spaceRoot href) ∧
      (ω.round join spaceRoot x).2 = ((ω.ask url queue).log (x.event url)).take join files := by
  have hnothing : ∀ e ∈ ([] : List RemoteEntry), e.isDir = true →
      ∃ href ∈ x.hrefs, e.path = collectionPath spaceRoot href := by simp
  rw [round, hqueue]
  cases x with
  | unanswered message => exact ⟨[], hnothing, rfl⟩
  | answered status millis body =>
      dsimp only
      by_cases hstatus : status ≠ 207
      · rw [if_pos hstatus]
        exact ⟨[], hnothing, rfl⟩
      · rw [if_neg hstatus]
        cases body with
        | error message => exact ⟨[], hnothing, rfl⟩
        | ok body =>
            dsimp only
            cases hparse : parsePropfind id spaceRoot url body.2 with
            | error e => exact ⟨[], hnothing, rfl⟩
            | ok listed =>
                exact ⟨listed.1, fun e he hdir => mem_files_parsePropfind hparse hdir he, rfl⟩

/-- The URL that is asked for was in the queue. -/
lemma urls_ask {queue : List Str} (hqueue : ω.queue = url :: queue) (event : Option PropfindEvent) :
    ((ω.ask url queue).log event).urls = ω.urls := by
  rw [urls, urls, hqueue]
  exact List.append_assoc ω.asked [url] queue

/-- What is put in the queue: collections of the answer, and their marks are new. -/
lemma urls_take (join : Str → Option Str) (files : List RemoteEntry) (ω : Walk) :
    ∃ new, (ω.take join files).urls = ω.urls ++ new ∧
      (∀ u ∈ new, u ∈ collectionUrls join files) ∧ (new.map trimEndSlash).Nodup ∧
      (∀ u ∈ new, trimEndSlash u ∉ ω.visited) ∧
      ∀ u ∈ new, trimEndSlash u ∈ (ω.take join files).visited := by
  obtain ⟨new, hqueue, hfrom, hnodup, hnew, hmark⟩ :=
    enqueueNew_new (collectionUrls join files) ω.visited ω.queue
  refine ⟨new, ?_, hfrom, hnodup, hnew, hmark⟩
  rw [urls, urls, List.append_assoc, ← hqueue]
  rfl

/-- The marks: the old ones stay, every collection of the answer has one, and each is that of a
URL. -/
lemma visited_take (join : Str → Option Str) (files : List RemoteEntry) (ω : Walk) :
    (∀ v ∈ ω.visited, v ∈ (ω.take join files).visited) ∧
      (∀ u ∈ collectionUrls join files, trimEndSlash u ∈ (ω.take join files).visited) ∧
      ∀ v ∈ (ω.take join files).visited,
        v ∈ ω.visited ∨ ∃ u ∈ (ω.take join files).urls, trimEndSlash u = v := by
  obtain ⟨-, hlisted, hold, hmark⟩ :=
    enqueueNew_spec (collectionUrls join files) ω.visited ω.queue
  refine ⟨hold, hlisted, fun v hv => (hmark v hv).imp_right (fun ⟨u, hu, hkey⟩ => ?_)⟩
  exact ⟨u, List.mem_append_right _ hu, hkey⟩

/-- Nothing is asked for or returned twice, and what is asked for is among `keys`, up to slashes at
its end. -/
structure Once (keys : Set Str) (ω : Walk) : Prop where
  nodup : (ω.urls.map trimEndSlash).Nodup
  marked : ∀ u ∈ ω.urls, trimEndSlash u ∈ ω.visited
  known : ∀ u ∈ ω.urls, trimEndSlash u ∈ keys
  paths : (ω.result.map RemoteEntry.path).Nodup
  seen : ∀ e ∈ ω.result, e.path ∈ ω.seen

variable {keys : Set Str}

lemma once_start (hkeys : trimEndSlash spaceRoot ∈ keys) (events : List PropfindEvent) :
    Once keys (start spaceRoot events) where
  nodup := by simp [start, urls]
  marked := by simp [start, urls]
  known := by simpa [start, urls] using hkeys
  paths := by simp [start]
  seen := by simp [start]

lemma Once.asking {queue : List Str} {event : Option PropfindEvent} (h : Once keys ω)
    (hqueue : ω.queue = url :: queue) : Once keys ((ω.ask url queue).log event) := by
  have hurls := urls_ask hqueue event
  refine ⟨?_, ?_, ?_, h.paths, h.seen⟩
  · rw [hurls]
    exact h.nodup
  · rw [hurls]
    exact h.marked
  · rw [hurls]
    exact h.known

lemma Once.taking (h : Once keys ω) {files : List RemoteEntry}
    (hfiles : ∀ u ∈ collectionUrls join files, trimEndSlash u ∈ keys) :
    Once keys (ω.take join files) := by
  obtain ⟨new, hurls, hfrom, hnodup, hnew, hmark⟩ := urls_take join files ω
  obtain ⟨hold, -, -⟩ := visited_take join files ω
  obtain ⟨hpaths, hseen⟩ := pushNew_spec files h.paths h.seen
  refine ⟨?_, ?_, ?_, hpaths, hseen⟩
  · rw [hurls, List.map_append, List.nodup_append]
    refine ⟨h.nodup, hnodup, fun a ha b hb hab => ?_⟩
    obtain ⟨u, hu, rfl⟩ := List.mem_map.mp ha
    obtain ⟨v, hv, rfl⟩ := List.mem_map.mp hb
    exact hnew v hv (hab ▸ h.marked u hu)
  · rw [hurls]
    intro u hu
    rcases List.mem_append.mp hu with hu | hu
    · exact hold _ (h.marked u hu)
    · exact hmark u hu
  · rw [hurls]
    intro u hu
    rcases List.mem_append.mp hu with hu | hu
    · exact h.known u hu
    · exact hfiles u (hfrom u hu)

end Walk

/-! ## The run -/

/-- What every round preserves holds at the end. -/
lemma discoverWalk_preserves {P : Walk → Prop}
    (hround : ∀ x ∈ xs, ∀ (ω : Walk) (url : Str) (queue : List Str), ω.queue = url :: queue →
      P ω → P (ω.round join spaceRoot x).2) (h : P ω) :
    P (discoverWalk join spaceRoot xs ω).2 := by
  induction xs generalizing ω with
  | nil => exact h
  | cons x xs ih =>
      rw [List.forall_mem_cons] at hround
      rw [discoverWalk]
      split
      · exact h
      · rename_i hne
        obtain ⟨url, queue, hqueue⟩ := List.exists_cons_of_ne_nil hne
        have hnext := hround.1 ω url queue hqueue h
        split
        · rename_i e ω' hω'
          rwa [hω'] at hnext
        · rename_i ω' hω'
          rw [hω'] at hnext
          exact ih hround.2 hnext

/-- **What a run leaves behind**: the URLs it asked for, each with its exchange, and the events of
these.  If it goes on, all exchanges are used up. -/
lemma discoverWalk_trace (join : Str → Option Str) (spaceRoot : Str) (xs : List PropfindExchange)
    (ω : Walk) : ∃ urls,
    (discoverWalk join spaceRoot xs ω).2.asked = ω.asked ++ urls ∧
    (discoverWalk join spaceRoot xs ω).2.httpEvents =
      ω.httpEvents ++ (urls.zip xs).filterMap (fun x => x.2.event x.1) ∧
    (∀ es, (discoverWalk join spaceRoot xs ω).1 = some (.ok es) →
      es = (discoverWalk join spaceRoot xs ω).2.result) ∧
    ((discoverWalk join spaceRoot xs ω).1 = none →
      urls.length = xs.length ∧ (discoverWalk join spaceRoot xs ω).2.queue ≠ []) := by
  induction xs generalizing ω with
  | nil =>
      refine ⟨[], by simp [discoverWalk], by simp [discoverWalk], fun es hes => ?_, fun h => ?_⟩
      · rw [discoverWalk] at hes ⊢
        split at hes
        · exact (Except.ok.inj (Option.some.inj hes)).symm
        · cases hes
      · rw [discoverWalk] at h ⊢
        split at h
        · cases h
        · rename_i hne
          exact ⟨rfl, hne⟩
  | cons x xs ih =>
      rw [discoverWalk]
      by_cases hempty : ω.queue = []
      · rw [if_pos hempty]
        exact ⟨[], by simp, by simp,
          fun es hes => (Except.ok.inj (Option.some.inj hes)).symm, fun h => by cases h⟩
      · rw [if_neg hempty]
        obtain ⟨url, queue, hqueue⟩ := List.exists_cons_of_ne_nil hempty
        obtain ⟨files, -, hround⟩ := Walk.round_spec join spaceRoot hqueue x
        have hasked : (ω.round join spaceRoot x).2.asked = ω.asked ++ [url] := by rw [hround]; rfl
        have hevents : (ω.round join spaceRoot x).2.httpEvents =
            ω.httpEvents ++ (x.event url).toList := by rw [hround]; rfl
        have hhead : ∀ urls, ((url :: urls).zip (x :: xs)).filterMap (fun x => x.2.event x.1) =
            (x.event url).toList ++ (urls.zip xs).filterMap (fun x => x.2.event x.1) := by
          intro urls
          rw [List.zip_cons_cons, List.filterMap_cons]
          cases x.event url <;> rfl
        split
        · rename_i e ω' hω'
          rw [hω'] at hasked hevents
          refine ⟨[url], hasked, ?_, fun es hes => (by cases hes), fun h => (by cases h)⟩
          rw [hhead, List.zip_nil_left, List.filterMap_nil, List.append_nil]
          exact hevents
        · rename_i ω' hω'
          rw [hω'] at hasked hevents
          obtain ⟨urls, hurls, hlog, hresult, hrunning⟩ := ih ω'
          refine ⟨url :: urls, ?_, ?_, hresult, fun h => ?_⟩
          · rw [hurls, hasked, List.append_assoc]
            rfl
          · rw [hlog, hevents, hhead, List.append_assoc]
          · obtain ⟨hlength, hne⟩ := hrunning h
            exact ⟨by rw [List.length_cons, List.length_cons, hlength], hne⟩

/-- Each URL that is asked for uses up an exchange. -/
lemma asked_length_le (join : Str → Option Str) (spaceRoot : Str) (xs : List PropfindExchange)
    (ω : Walk) :
    (discoverWalk join spaceRoot xs ω).2.asked.length ≤ ω.asked.length + xs.length := by
  induction xs generalizing ω with
  | nil => exact Nat.le_refl _
  | cons x xs ih =>
      rw [discoverWalk]
      by_cases hempty : ω.queue = []
      · rw [if_pos hempty]
        exact Nat.le_add_right _ _
      · rw [if_neg hempty]
        obtain ⟨url, queue, hqueue⟩ := List.exists_cons_of_ne_nil hempty
        obtain ⟨files, -, hround⟩ := Walk.round_spec join spaceRoot hqueue x
        have hasked : (ω.round join spaceRoot x).2.asked.length = ω.asked.length + 1 := by
          rw [hround]
          exact List.length_append
        rw [List.length_cons]
        split
        · rename_i e ω' hω'
          rw [hω'] at hasked
          exact (Nat.le_of_eq hasked).trans (by omega)
        · rename_i ω' hω'
          rw [hω'] at hasked
          dsimp only at hasked
          exact (ih ω').trans (by omega)

/-- A run that has ended is not changed by further answers. -/
lemma discoverWalk_append {r : Except SyncError (List RemoteEntry)} {ω' : Walk}
    (h : discoverWalk join spaceRoot xs ω = (some r, ω')) (ys : List PropfindExchange) :
    discoverWalk join spaceRoot (xs ++ ys) ω = (some r, ω') := by
  induction xs generalizing ω with
  | nil =>
      rw [discoverWalk] at h
      split at h
      · rename_i hempty
        cases ys with
        | nil => rw [List.nil_append, discoverWalk, if_pos hempty]; exact h
        | cons y ys => rw [List.nil_append, discoverWalk, if_pos hempty]; exact h
      · cases h
  | cons x xs ih =>
      rw [discoverWalk] at h
      rw [List.cons_append, discoverWalk]
      split
      · rename_i hempty
        rwa [if_pos hempty] at h
      · rename_i hne
        rw [if_neg hne] at h
        split
        · rename_i e ω₁ hω₁
          rwa [hω₁] at h
        · rename_i ω₁ hω₁
          rw [hω₁] at h
          exact ih h

/-- **The walk ends** after as many answers as there are URLs to ask for. -/
lemma discoverWalk_ends (xs : List PropfindExchange) {keys : Set Str} (hfinite : keys.Finite)
    (hround : ∀ x ∈ xs, ∀ (ω : Walk) (url : Str) (queue : List Str), ω.queue = url :: queue →
      ω.Once keys → (ω.round join spaceRoot x).2.Once keys)
    (hstart : ω.Once keys) (hlength : keys.ncard ≤ xs.length) :
    ∃ r ω', discoverWalk join spaceRoot xs ω = (some r, ω') ∧ ω'.Once keys := by
  have honce := discoverWalk_preserves hround hstart
  cases hout : (discoverWalk join spaceRoot xs ω).1 with
  | some r => exact ⟨r, _, by rw [← hout], honce⟩
  | none =>
      obtain ⟨urls, hasked, -, -, hrunning⟩ := discoverWalk_trace join spaceRoot xs ω
      obtain ⟨hurls, hne⟩ := hrunning hout
      generalize (discoverWalk join spaceRoot xs ω).2 = ω' at hasked honce hne
      -- a URL for every answer, and one that is still in the queue
      have hmany : xs.length < (ω'.urls.map trimEndSlash).length := by
        have hqueue := List.length_pos_iff.mpr hne
        rw [List.length_map, Walk.urls, List.length_append, hasked, List.length_append, hurls]
        omega
      have hfew : (ω'.urls.map trimEndSlash).length ≤ keys.ncard := by
        rw [← List.toFinset_card_of_nodup honce.nodup, ← Set.ncard_coe_finset]
        refine Set.ncard_le_ncard (fun k hk => ?_) hfinite
        obtain ⟨u, hu, rfl⟩ := List.mem_map.mp (List.mem_toFinset.mp hk)
        exact honce.known u hu
      omega

/-! ## A server that mentions finitely many hrefs -/

/-- The URL an href makes, if any, without slashes at its end. -/
def collectionKey (join : Str → Option Str) (spaceRoot href : Str) : Option Str :=
  (join (collectionPath spaceRoot href)).map (fun u => trimEndSlash (withSlash u))

/-- The collections that can be asked for: the space, and one for each href. -/
def collectionKeys (join : Str → Option Str) (spaceRoot : Str) (hrefs : Set Str) : Set Str :=
  insert (trimEndSlash spaceRoot)
    (Set.preimage some (Set.image (collectionKey join spaceRoot) hrefs))

lemma collectionKeys_finite (join : Str → Option Str) (spaceRoot : Str) {hrefs : Set Str}
    (h : hrefs.Finite) :
    (collectionKeys join spaceRoot hrefs).Finite :=
  ((h.image _).preimage (Option.some_injective _).injOn).insert _

lemma Walk.Once.round {hrefs : Set Str} {x : PropfindExchange} {queue : List Str}
    (h : ω.Once (collectionKeys join spaceRoot hrefs)) (hqueue : ω.queue = url :: queue)
    (hx : ∀ href ∈ x.hrefs, href ∈ hrefs) :
    (ω.round join spaceRoot x).2.Once (collectionKeys join spaceRoot hrefs) := by
  obtain ⟨files, hfiles, hround⟩ := Walk.round_spec join spaceRoot hqueue x
  rw [hround]
  refine (h.asking hqueue).taking (fun u hu => .inr ?_)
  obtain ⟨e, he, hu⟩ := List.mem_filterMap.mp hu
  obtain ⟨hmem, hdir⟩ := List.mem_filter.mp he
  obtain ⟨href, hhref, hpath⟩ := hfiles e hmem hdir
  obtain ⟨v, hv, rfl⟩ := Option.map_eq_some_iff.mp hu
  refine ⟨href, hx href hhref, ?_⟩
  rw [collectionKey, ← hpath, hv, Option.map_some]

/-- The PROPFINDs of a walk as the server sees them. -/
def sentPropfinds (asked : List Str) (xs : List (Followed PropfindExchange)) : List Str :=
  (asked.zip xs).flatMap (fun x => x.2.propfinds x.1)

/-- The responses to a walk that came to their end. -/
def completeResponses (asked : List Str) (xs : List (Followed PropfindExchange)) : ℕ :=
  ((asked.zip xs).map (fun x => x.2.responses x.1)).sum

/-- Without redirects nothing is sent but what is asked for. -/
lemma sentPropfinds_of_direct {asked : List Str} {xs : List (Followed PropfindExchange)}
    (hlen : asked.length ≤ xs.length) (h : ∀ x ∈ xs, x.hops = []) :
    sentPropfinds asked xs = asked := by
  induction asked generalizing xs with
  | nil => rfl
  | cons url asked ih =>
      cases xs with
      | nil => cases hlen
      | cons x xs =>
          rw [List.forall_mem_cons] at h
          have htail := ih (Nat.le_of_succ_le_succ hlen) h.2
          rw [sentPropfinds] at htail ⊢
          rw [List.zip_cons_cons, List.flatMap_cons, htail, Followed.propfinds, h.1]
          rfl

/-- Without redirects each response has its event. -/
lemma completeResponses_of_direct {asked : List Str} {xs : List (Followed PropfindExchange)}
    (h : ∀ x ∈ xs, x.hops = []) : completeResponses asked xs =
      ((asked.zip (xs.map Followed.last)).filterMap (fun x => x.2.event x.1)).length := by
  induction asked generalizing xs with
  | nil => rfl
  | cons url asked ih =>
      cases xs with
      | nil => rfl
      | cons x xs =>
          rw [List.forall_mem_cons] at h
          have htail := ih h.2
          rw [completeResponses] at htail ⊢
          rw [List.map_cons, List.zip_cons_cons, List.zip_cons_cons, List.map_cons, List.sum_cons,
            htail, Followed.responses, h.1, List.filterMap_cons]
          cases x.last.event url <;> simp [Nat.add_comm]

/-- **The discovery ends.**  Whatever the server answers, if it mentions finitely many hrefs in all,
there is an end after some number of answers, and it stays the end.  No URL was asked for twice, up
to slashes at its end; each response that came to its end has its event; and no two entries have the
same path.  If the server redirects nothing, these are all the PROPFINDs and responses there are. -/
theorem discovery_ends (β : SegmentBytes) (root : ParsedUrl) (ρ : ℕ → Followed PropfindExchange)
    (httpEvents : List PropfindEvent) (hfinite : {href | ∃ i, href ∈ (ρ i).last.hrefs}.Finite) :
    ∃ n r ω, (∀ m ≥ n, discoverWalk (root.joinPath β) root.path.text
          ((List.range m).map (fun i => (ρ i).last)) (Walk.start root.path.text httpEvents) =
        (some r, ω)) ∧
      (ω.asked.map trimEndSlash).Nodup ∧
      ω.httpEvents = httpEvents ++ (ω.asked.zip ((List.range n).map (fun i => (ρ i).last))).filterMap
        (fun x => x.2.event x.1) ∧
      (∀ entries, r = .ok entries → (entries.map RemoteEntry.path).Nodup) ∧
      ((∀ i, (ρ i).hops = []) → sentPropfinds ω.asked ((List.range n).map ρ) = ω.asked ∧
        ω.httpEvents.length =
          httpEvents.length + completeResponses ω.asked ((List.range n).map ρ)) := by
  have hkeys := collectionKeys_finite (root.joinPath β) root.path.text hfinite
  generalize hn : (collectionKeys (root.joinPath β) root.path.text
    {href | ∃ i, href ∈ (ρ i).last.hrefs}).ncard = n
  obtain ⟨r, ω, hrun, honce⟩ := discoverWalk_ends ((List.range n).map (fun i => (ρ i).last)) hkeys
    (fun x hx ω url queue hqueue h => by
      obtain ⟨i, -, rfl⟩ := List.mem_map.mp hx
      exact h.round hqueue (fun href hhref => ⟨i, hhref⟩))
    (Walk.once_start (Set.mem_insert _ _) httpEvents)
    (by rw [hn, List.length_map, List.length_range])
  obtain ⟨urls, hasked, hevents, hresult, -⟩ := discoverWalk_trace (root.joinPath β) root.path.text
    ((List.range n).map (fun i => (ρ i).last)) (Walk.start root.path.text httpEvents)
  have hlen := asked_length_le (root.joinPath β) root.path.text
    ((List.range n).map (fun i => (ρ i).last)) (Walk.start root.path.text httpEvents)
  rw [hrun] at hasked hevents hresult hlen
  obtain rfl : urls = ω.asked := hasked.symm
  refine ⟨n, r, ω, fun m hm => ?_, ?_, hevents, fun entries hr => ?_, fun hdirect => ⟨?_, ?_⟩⟩
  · obtain ⟨k, rfl⟩ := Nat.exists_eq_add_of_le hm
    rw [List.range_add, List.map_append]
    exact discoverWalk_append hrun _
  · have hnodup := honce.nodup
    rw [Walk.urls, List.map_append] at hnodup
    exact hnodup.of_append_left
  · rw [hresult entries (by rw [hr])]
    exact honce.paths
  · refine sentPropfinds_of_direct ?_ (List.forall_mem_map.mpr (fun i _ => hdirect i))
    rw [List.length_map] at hlen ⊢
    exact hlen.trans (Nat.le_of_eq (Nat.zero_add _))
  · rw [hevents, List.length_append,
      completeResponses_of_direct (List.forall_mem_map.mpr (fun i _ => hdirect i)), List.map_map]
    rfl

/-- A collection that is listed in itself. -/
def loopAnswer : PropfindExchange :=
  .answered 207 3 (.ok (96, [.start "response".toList, .start "href".toList, .text "/dav/a/".toList,
    .close "href".toList, .empty "collection".toList, .close "response".toList]))

/-- A server with nothing else to say. -/
theorem discovery_ends_loop :
    ∃ n r ω, (∀ m ≥ n, discoverWalk (spaceDav.joinPath specialPathSegment) spaceDav.path.text
        ((List.range m).map (fun _ => loopAnswer)) (Walk.start spaceDav.path.text []) =
          (some r, ω)) ∧
      (ω.asked.map trimEndSlash).Nodup := by
  have hfinite : {href | ∃ _ : ℕ, href ∈ loopAnswer.hrefs}.Finite :=
    (List.finite_toSet loopAnswer.hrefs).subset (fun _ ⟨_, h⟩ => h)
  obtain ⟨n, r, ω, hrun, hnodup, -⟩ :=
    discovery_ends specialPathSegment spaceDav (fun _ => ⟨[], loopAnswer⟩) [] hfinite
  exact ⟨n, r, ω, hrun, hnodup⟩

/-- Two collections, the first of which is redirected to the second. -/
def redirectedAnswers : List (Followed PropfindExchange) :=
  [⟨[], .answered 207 3 (.ok (192, [.start "response".toList, .start "href".toList,
      .text "/dav/a/".toList, .close "href".toList, .empty "collection".toList,
      .close "response".toList, .start "response".toList, .start "href".toList,
      .text "/dav/b/".toList, .close "href".toList, .empty "collection".toList,
      .close "response".toList]))⟩,
    ⟨[⟨307, "/dav/b/".toList⟩], .answered 207 3 (.ok (0, []))⟩,
    ⟨[], .answered 207 3 (.ok (0, []))⟩]

/-- The second collection gets two PROPFINDs, and four responses have three events. -/
theorem redirected_twice :
    let run := discoverWalk (spaceDav.joinPath specialPathSegment) spaceDav.path.text
      (redirectedAnswers.map Followed.last) (Walk.start spaceDav.path.text [])
    (∃ entries, run.1 = some (.ok entries)) ∧
      sentPropfinds run.2.asked redirectedAnswers =
        ["/dav/".toList, "/dav/a/".toList, "/dav/b/".toList, "/dav/b/".toList] ∧
      ¬ ((sentPropfinds run.2.asked redirectedAnswers).map trimEndSlash).Nodup ∧
      completeResponses run.2.asked redirectedAnswers = 4 ∧ run.2.httpEvents.length = 3 := by
  refine ⟨?_, by decide +kernel, by decide +kernel, by decide +kernel, by decide +kernel⟩
  have hok : ((discoverWalk (spaceDav.joinPath specialPathSegment) spaceDav.path.text
      (redirectedAnswers.map Followed.last) (Walk.start spaceDav.path.text [])).1.map
        Except.isOk) = some true := by decide +kernel
  cases hrun : (discoverWalk (spaceDav.joinPath specialPathSegment) spaceDav.path.text
      (redirectedAnswers.map Followed.last) (Walk.start spaceDav.path.text [])).1 with
  | none =>
      rw [hrun] at hok
      cases hok
  | some r =>
      rw [hrun] at hok
      cases r with
      | ok entries => exact ⟨entries, rfl⟩
      | error e => cases hok

end OwncloudSync
