import OwncloudSync.Daemon.Process
import Mathlib.Tactic.Common

/-!
# Telling of new spaces

A `SpacePoller` over its whole life.  It tells the GUIs of a space once, and remembers that it has
(`emitted_discoveries`); a poll that finds the space among the folders or the dismissed spaces of the
account forgets it again.  `mem_emitted` is what the set means: the spaces that were told of **since
the last poll that found them settled**.  `announced_iff` follows: nothing is told twice, and nothing
is kept back.

A poll that finds no account, no URL it can read or no answer changes nothing.
-/

namespace OwncloudSync

namespace SpacePoller

/-- What a poll that gets its answer works with: the copy of the folders and the dismissed spaces, and
the spaces of the server. -/
structure Poll where
  existing : List FolderConfig
  dismissed : List Str
  remote : List RemoteSpace

/-- The spaces that are synced already. -/
def Poll.localIds (poll : Poll) : List Str := poll.existing.map FolderConfig.spaceId

/-- The space is that of a folder, or dismissed. -/
def Poll.Settled (poll : Poll) (s : Str) : Prop := s ∈ poll.localIds ∨ s ∈ poll.dismissed

instance (poll : Poll) (s : Str) : Decidable (poll.Settled s) := inferInstanceAs (Decidable (_ ∨ _))

/-- The first half of `poll_once`, after the answer: what is remembered, and what is told. -/
def announce (accountId : Uuid) (poll : Poll) (emitted : List Str) :
    List Str × List AccountEvent :=
  let r := discover accountId poll.localIds poll.dismissed poll.remote emitted
  (r.1.filter (fun s => !poll.localIds.contains s && !poll.dismissed.contains s), r.2)

/-- A call of `poll_once`: the configuration it finds, and the answer to `list_spaces`. -/
structure Attempt where
  cfg : AppConfig
  answer : Option (List RemoteSpace)

/-- The poll, if it gets so far; `readable` is `Url::parse(..).is_ok()`. -/
def Attempt.poll? (readable : Str → Bool) (accountId : Uuid) (a : Attempt) : Option Poll :=
  match a.cfg.findAccount accountId with
  | none => none
  | some account =>
      if readable account.url then
        a.answer.map (fun remote => ⟨account.folder, account.dismissedSpaces, remote⟩)
      else none

/-- `poll_once`, as far as it tells of new spaces. -/
def pollOnce (readable : Str → Bool) (accountId : Uuid) (emitted : List Str) (a : Attempt) :
    List Str × List AccountEvent :=
  match a.poll? readable accountId with
  | none => (emitted, [])
  | some poll => announce accountId poll emitted

/-- `emitted_discoveries` after some calls. -/
def emittedAfter (readable : Str → Bool) (accountId : Uuid) (attempts : List Attempt) : List Str :=
  attempts.foldl (fun emitted a => (pollOnce readable accountId emitted a).1) []

/-- The event tells of the space. -/
def tellsOf (accountId : Uuid) (s : Str) : AccountEvent → Bool
  | .spaceDiscovered a spaceId _ => a = accountId && spaceId = s
  | _ => false

/-- What a call tells, after the calls before it. -/
def told (readable : Str → Bool) (accountId : Uuid) (before : List Attempt) (a : Attempt) :
    List AccountEvent :=
  (pollOnce readable accountId (emittedAfter readable accountId before) a).2

/-- The call tells of the space. -/
def Announces (readable : Str → Bool) (accountId : Uuid) (before : List Attempt) (a : Attempt)
    (s : Str) : Prop :=
  (told readable accountId before a).any (tellsOf accountId s) = true

/-- One of the calls told of the space, and no poll has found it settled since. -/
def AnnouncedSince (readable : Str → Bool) (accountId : Uuid) (before : List Attempt) (s : Str) :
    Prop :=
  ∃ earlier a later, before = earlier ++ a :: later ∧
    Announces readable accountId earlier a s ∧
    ∀ b ∈ later, ∀ poll, b.poll? readable accountId = some poll → ¬ poll.Settled s

variable {readable : Str → Bool} {accountId : Uuid} {poll : Poll} {emitted : List Str} {s : Str}
  {before : List Attempt} {a : Attempt}

/-! ## One poll -/

/-- The step of the daemon that gets the answer to a poll is `announce`. -/
lemma pollListed_announce {p p' : Process} {remote : List RemoteSpace}
    (h : Process.Step p (.pollListed accountId remote) p') :
    ∃ existing dismissed, p.polls accountId = .listing existing dismissed ∧
      p'.emitted accountId =
        (announce accountId ⟨existing, dismissed, remote⟩ (p.emitted accountId)).1 ∧
      p'.accountEvents = p.accountEvents ++
        (announce accountId ⟨existing, dismissed, remote⟩ (p.emitted accountId)).2 := by
  cases h with
  | pollListed _ hpoll => exact ⟨_, _, hpoll, if_pos rfl, rfl⟩

/-- A space is told of if the server lists it, it is not settled and has not been told of; then it is
told of once, and remembered. -/
lemma discover_spec (localIds dismissed : List Str) (remote : List RemoteSpace)
    (emitted : List Str) (s : Str) :
    (s ∈ (discover accountId localIds dismissed remote emitted).1 ↔ s ∈ emitted ∨
      (s ∈ remote.map RemoteSpace.id ∧ s ∉ localIds ∧ s ∉ dismissed)) ∧
    (discover accountId localIds dismissed remote emitted).2.countP (tellsOf accountId s) =
      if s ∈ remote.map RemoteSpace.id ∧ s ∉ localIds ∧ s ∉ dismissed ∧ s ∉ emitted then 1
      else 0 := by
  induction remote generalizing emitted with
  | nil => simp [discover]
  | cons space rest ih =>
      rw [discover]
      split
      · rename_i hnew
        simp only [Bool.and_eq_true, Bool.not_eq_true', List.contains_eq_mem,
          decide_eq_false_iff_not] at hnew
        obtain ⟨hmem, hcount⟩ := ih (space.id :: emitted)
        dsimp only
        rw [hmem, List.countP_cons, hcount]
        by_cases hs : s = space.id
        · subst hs
          simp [tellsOf, hnew.1.1, hnew.1.2, hnew.2]
        · simp [tellsOf, hs, Ne.symm hs]
      · rename_i hold
        simp only [Bool.and_eq_true, Bool.not_eq_true', List.contains_eq_mem,
          decide_eq_false_iff_not, not_and, not_not] at hold
        obtain ⟨hmem, hcount⟩ := ih emitted
        rw [hmem, hcount]
        by_cases hs : s = space.id
        · subst hs
          constructor
          · constructor
            · rintro (h | h)
              · exact .inl h
              · exact .inr ⟨by simp, h.2⟩
            · rintro (h | ⟨-, h⟩)
              · exact .inl h
              · exact .inl (hold ⟨h.1, h.2⟩)
          · have hno : ¬ (space.id ∉ localIds ∧ space.id ∉ dismissed ∧ space.id ∉ emitted) :=
              fun h => h.2.2 (hold ⟨h.1, h.2.1⟩)
            rw [if_neg (fun h => hno h.2), if_neg (fun h => hno h.2)]
        · simp [hs]

lemma countP_announce : (announce accountId poll emitted).2.countP (tellsOf accountId s) =
    if s ∈ poll.remote.map RemoteSpace.id ∧ ¬ poll.Settled s ∧ s ∉ emitted then 1 else 0 := by
  rw [announce, (discover_spec _ _ _ _ s).2]
  simp only [Poll.Settled, not_or, and_assoc]

lemma mem_announce : s ∈ (announce accountId poll emitted).1 ↔
    ¬ poll.Settled s ∧ (s ∈ emitted ∨ s ∈ poll.remote.map RemoteSpace.id) := by
  rw [announce, List.mem_filter, (discover_spec _ _ _ _ s).1, Poll.Settled]
  simp only [Bool.and_eq_true, Bool.not_eq_true', List.contains_eq_mem, decide_eq_false_iff_not]
  tauto

/-- What a call tells of a space, in terms of what it remembers. -/
lemma countP_told : (told readable accountId before a).countP (tellsOf accountId s) ≤ 1 ∧
    (Announces readable accountId before a s ↔
      ∃ poll, a.poll? readable accountId = some poll ∧ s ∈ poll.remote.map RemoteSpace.id ∧
        ¬ poll.Settled s ∧ s ∉ emittedAfter readable accountId before) := by
  rw [Announces, List.any_eq_true, ← List.countP_pos_iff, told, pollOnce]
  cases h : a.poll? readable accountId with
  | none => simp
  | some poll =>
      dsimp only
      rw [countP_announce]
      by_cases hnew : s ∈ poll.remote.map RemoteSpace.id ∧ ¬ poll.Settled s ∧
          s ∉ emittedAfter readable accountId before
      · rw [if_pos hnew]
        exact ⟨le_refl 1, fun _ => ⟨poll, rfl, hnew⟩, fun _ => Nat.one_pos⟩
      · rw [if_neg hnew]
        refine ⟨Nat.zero_le 1, fun h => absurd h (lt_irrefl 0), ?_⟩
        rintro ⟨poll', hpoll, h⟩
        obtain rfl := Option.some.inj hpoll
        exact absurd h hnew

/-! ## All polls -/

lemma announcedSince_nil : ¬ AnnouncedSince readable accountId [] s := by
  rintro ⟨earlier, a, later, h, -⟩
  exact List.append_ne_nil_of_right_ne_nil _ (List.cons_ne_nil _ _) h.symm

/-- One call more. -/
lemma announcedSince_concat : AnnouncedSince readable accountId (before ++ [a]) s ↔
    Announces readable accountId before a s ∨
      AnnouncedSince readable accountId before s ∧
        ∀ poll, a.poll? readable accountId = some poll → ¬ poll.Settled s := by
  constructor
  · rintro ⟨earlier, b, later, hsplit, htold, hlater⟩
    rcases List.eq_nil_or_concat later with rfl | ⟨later, c, rfl⟩
    · obtain ⟨rfl, hab⟩ := List.append_inj' hsplit rfl
      obtain rfl := List.singleton_inj.mp hab
      exact .inl htold
    · rw [List.concat_eq_append, ← List.cons_append, ← List.append_assoc] at hsplit
      obtain ⟨rfl, hac⟩ := List.append_inj' hsplit rfl
      obtain rfl := List.singleton_inj.mp hac
      rw [List.concat_eq_append] at hlater
      exact .inr ⟨⟨earlier, b, later, rfl, htold, fun b hb => hlater b (List.mem_append_left _ hb)⟩,
        hlater a (List.mem_append_right _ (List.mem_singleton_self a))⟩
  · rintro (htold | ⟨⟨earlier, b, later, rfl, htold, hlater⟩, ha⟩)
    · exact ⟨before, a, [], rfl, htold, fun b hb => absurd hb List.not_mem_nil⟩
    · refine ⟨earlier, b, later ++ [a], by simp, htold, fun c hc => ?_⟩
      rcases List.mem_append.mp hc with hc | hc
      · exact hlater c hc
      · rw [List.mem_singleton.mp hc]
        exact ha

/-- **What the poller remembers.** -/
lemma mem_emitted : s ∈ emittedAfter readable accountId before ↔
    AnnouncedSince readable accountId before s := by
  induction before using List.reverseRecOn with
  | nil => exact iff_of_false List.not_mem_nil announcedSince_nil
  | append_singleton before a ih =>
      have hlast : emittedAfter readable accountId (before ++ [a]) =
          (pollOnce readable accountId (emittedAfter readable accountId before) a).1 := by
        rw [emittedAfter, List.foldl_append]
        rfl
      rw [announcedSince_concat, countP_told.2, ← ih, hlast, pollOnce]
      cases h : a.poll? readable accountId with
      | none => simp
      | some poll =>
          dsimp only
          rw [mem_announce]
          constructor
          · rintro ⟨hopen, hmem | hmem⟩
            · exact .inr ⟨hmem, fun q hq => Option.some.inj hq ▸ hopen⟩
            · by_cases hold : s ∈ emittedAfter readable accountId before
              · exact .inr ⟨hold, fun q hq => Option.some.inj hq ▸ hopen⟩
              · exact .inl ⟨poll, rfl, hmem, hopen, hold⟩
          · rintro (⟨q, hq, hmem, hopen, -⟩ | ⟨hold, hopen⟩)
            · obtain rfl := Option.some.inj hq
              exact ⟨hopen, .inr hmem⟩
            · exact ⟨hopen poll rfl, .inl hold⟩

/-- **When a space is told of**: in a poll that lists it, that does not find it settled, and before
which it has not been told of since it was last found settled.  It is told of once then. -/
theorem announced_iff (readable : Str → Bool) (accountId : Uuid) (before : List Attempt)
    (a : Attempt) (s : Str) :
    (Announces readable accountId before a s ↔
      ∃ poll, a.poll? readable accountId = some poll ∧ s ∈ poll.remote.map RemoteSpace.id ∧
        ¬ poll.Settled s ∧ ¬ AnnouncedSince readable accountId before s) ∧
    (told readable accountId before a).countP (tellsOf accountId s) ≤ 1 := by
  refine ⟨countP_told.2.trans ?_, countP_told.1⟩
  rw [mem_emitted]

end SpacePoller

end OwncloudSync
