import OwncloudSync.Daemon.Coherence
import Mathlib.Tactic.Common

/-!
# A poll among other tasks

A `poll_once` decides on a copy of its account's folders, and what it decides is carried out on a
configuration that other tasks may have changed since (`Meanwhile`): commands of the GUI, sign-ins,
the polls of other accounts.  It carries ids over from the one to the other, and that is enough,
because **an id stands for one folder for ever** (`Coherent.madeIds`): what has the id under the lock
is what had it in the copy.
-/

namespace OwncloudSync

namespace Process

/-- The step belongs to the poll of the account. -/
def Action.ofPoll (accountId : Uuid) : Action → Prop
  | .pollAsk a => a = accountId
  | .pollFailed a => a = accountId
  | .pollListed a _ => a = accountId
  | .pollRemove a _ => a = accountId
  | _ => False

/-- Anything but a step of the poll of the account. -/
def Meanwhile (accountId : Uuid) (p p' : Process) : Prop :=
  ∃ act, Step p act p' ∧ ¬ act.ofPoll accountId

/-- The folders of an account. -/
def foldersOf (cfg : AppConfig) (accountId : Uuid) : List FolderConfig :=
  match cfg.findAccount accountId with
  | none => []
  | some a => a.folder

/-- The folder is among the copied ones and its space is not among the listed ones. -/
def gone (copied : List FolderConfig) (remote : List RemoteSpace) (f : FolderConfig) : Bool :=
  copied.contains f && !(remote.map RemoteSpace.id).contains f.spaceId

/-- Of one account exactly the folders with the property are removed, and the GUI is told of each
of them once. -/
structure RemovesExactly (accountId : Uuid) (P : FolderConfig → Bool) (p p' : Process) : Prop where
  own : p'.config.findAccount accountId = (p.config.findAccount accountId).map
    (fun a => { a with folder := a.folder.filter (fun f => !P f) })
  others : ∀ b, b ≠ accountId → p'.config.findAccount b = p.config.findAccount b
  accounts : p'.config.account.map AccountConfig.id = p.config.account.map AccountConfig.id
  general : p'.config.general = p.config.general
  events : p'.accountEvents = p.accountEvents ++
    SpacePoller.removedEvents accountId ((foldersOf p.config accountId).filter P)

/-- Nothing is removed, and no `SpaceRemoved` is told. -/
structure RemovesNothing (p p' : Process) : Prop where
  config : p'.config = p.config
  events : ∃ told, p'.accountEvents = p.accountEvents ++ told ∧
    ∀ a f n q, AccountEvent.spaceRemoved a f n q ∉ told

variable {p p' p₀ p₁ p₂ p₃ p₄ p₅ : Process} {a b : Uuid} {act : Action} {f g : FolderConfig}
  {copied : List FolderConfig} {remote : List RemoteSpace}

/-! ## What the others leave alone -/

lemma polls_of_other (hs : Step p act p') (h : ¬ act.ofPoll a) : p'.polls a = p.polls a := by
  cases hs with
  | push => simp
  | removeAccount => simp
  | dismissSpace => simp
  | signedIn => simp
  | pollAsk => exact if_neg (Ne.symm h)
  | pollFailed => exact if_neg (Ne.symm h)
  | pollListed => exact if_neg (Ne.symm h)
  | pollRemove =>
      simp only [save_polls]
      exact if_neg (Ne.symm h)
  | _ => rfl

/-- The poll stands where it stood, and no folder that has been made is forgotten. -/
lemma meanwhile_keeps (h : Relation.ReflTransGen (Meanwhile a) p p') (hp : Coherent p) :
    Coherent p' ∧ p'.polls a = p.polls a ∧ ∀ f ∈ p.made, f ∈ p'.made := by
  refine Runs.invariant
    (I := fun q => Coherent q ∧ q.polls a = p.polls a ∧ ∀ f ∈ p.made, f ∈ q.made)
    (fun q q' hq hqq' => ?_) ⟨hp, rfl, fun _ hf => hf⟩ h
  obtain ⟨act, hs, hother⟩ := hqq'
  obtain ⟨hc, hpoll, hmade⟩ := hq
  exact ⟨coherent_step hc hs, (polls_of_other hs hother).trans hpoll,
    fun f hf => made_mono hs (hmade f hf)⟩

/-! ## The pieces of the poll -/

lemma mem_folders_of_foldersOf (h : f ∈ foldersOf p.config a) : f ∈ p.config.folders := by
  unfold foldersOf at h
  split at h
  · cases h
  · rename_i acc hacc
    exact AppConfig.mem_folders.mpr ⟨acc, Keyed.mem_of_find hacc, h⟩

/-- An id stands for one folder. -/
lemma Coherent.eq_of_id (h : Coherent p) (hf : f ∈ p.made) (hg : g ∈ p.made) (hid : f.id = g.id) :
    f = g :=
  List.inj_on_of_nodup_map h.madeIds hf hg hid

lemma gone_iff :
    gone copied remote f = true ↔ f ∈ copied ∧ f.spaceId ∉ remote.map RemoteSpace.id := by
  simp only [gone, Bool.and_eq_true, Bool.not_eq_true', List.contains_eq_mem, decide_eq_true_eq,
    decide_eq_false_iff_not]

/-- Under the lock the ids mean what they meant in the copy. -/
lemma contains_ids (h : Coherent p) (hcopied : ∀ g ∈ copied, g ∈ p.made)
    (hf : f ∈ foldersOf p.config a) :
    (SpacePoller.removedFolderIds copied remote).contains f.id = gone copied remote f := by
  rw [Bool.eq_iff_iff, gone_iff, List.contains_iff_mem, SpacePoller.mem_removedFolderIds]
  constructor
  · rintro ⟨g, hg, hspace, hid⟩
    have hmade := h.configMade f (mem_folders_of_foldersOf hf)
    obtain rfl := h.eq_of_id (hcopied g hg) hmade hid
    exact ⟨hg, hspace⟩
  · rintro ⟨hmem, hspace⟩
    exact ⟨f, hmem, hspace, rfl⟩

lemma removedFolderIds_eq_nil : SpacePoller.removedFolderIds copied remote = [] ↔
    ∀ f, gone copied remote f = false := by
  rw [List.eq_nil_iff_forall_not_mem]
  simp only [SpacePoller.mem_removedFolderIds, Bool.eq_false_iff, ne_eq, gone_iff]
  constructor
  · rintro h f ⟨hmem, hspace⟩
    exact h f.id ⟨f, hmem, hspace, rfl⟩
  · rintro h id ⟨f, hmem, hspace, -⟩
    exact h f ⟨hmem, hspace⟩

/-- The removal itself. -/
lemma removesExactly_of_remove {result : SaveResult} (hp : Coherent p)
    (hcopied : ∀ g ∈ copied, g ∈ p.made)
    (hpoll : p.polls a = .removing (SpacePoller.removedFolderIds copied remote))
    (hs : Step p (.pollRemove a result) p') :
    RemovesExactly a (gone copied remote) p p' := by
  cases hs with
  | pollRemove _ h =>
      rename_i ids
      obtain rfl : ids = SpacePoller.removedFolderIds copied remote := by
        rw [hpoll] at h
        exact (Poll.removing.inj h).symm
      have hcontains : ∀ acc, p.config.findAccount a = some acc → ∀ f ∈ acc.folder,
          (SpacePoller.removedFolderIds copied remote).contains f.id = gone copied remote f := by
        intro acc hacc f hf
        refine contains_ids (a := a) hp hcopied ?_
        rw [foldersOf, hacc]
        exact hf
      refine ⟨?_, fun b hb => ?_, ?_, ?_, ?_⟩
      · simp only [save_config, SpacePoller.remove, AppConfig.retainFolders]
        rw [AppConfig.findAccount, AppConfig.modifyAccount, Keyed.find_modify_self (fun _ => by rfl)]
        change (p.config.findAccount a).map _ = _
        cases hacc : p.config.findAccount a with
        | none => rfl
        | some acc =>
            simp only [Option.map_some, Option.some.injEq, AccountConfig.mk.injEq, true_and,
              and_true]
            refine List.filter_congr (fun f hf => ?_)
            rw [hcontains acc hacc f hf]
      · simp only [save_config, SpacePoller.remove, AppConfig.retainFolders]
        rw [AppConfig.findAccount, AppConfig.modifyAccount,
          Keyed.find_modify_ne (fun _ => by rfl) hb]
        rfl
      · simp only [save_config, SpacePoller.remove, AppConfig.retainFolders]
        exact Keyed.map_modify _ (fun _ => rfl)
      · simp only [save_config]
        rfl
      · dsimp only
        congr 2
        unfold SpacePoller.toRemove foldersOf
        cases hacc : p.config.findAccount a with
        | none => rfl
        | some acc => exact List.filter_congr (fun f hf => hcontains acc hacc f hf)

/-- What a poll asks with. -/
lemma pollAsk_copies (hs : Step p (.pollAsk a) p') :
    (∃ dismissed, p'.polls a = .listing (foldersOf p.config a) dismissed) ∧
      RemovesNothing p p' ∧ p'.made = p.made := by
  cases hs with
  | pollAsk hpoller h hacc =>
      rename_i acc
      refine ⟨⟨acc.dismissedSpaces, (if_pos rfl).trans ?_⟩,
        ⟨rfl, [], (List.append_nil _).symm, by simp⟩, rfl⟩
      rw [foldersOf, hacc]

lemma pollFailed_ends (hs : Step p (.pollFailed a) p') :
    RemovesNothing p p' ∧ p'.polls a = .idle := by
  cases hs with
  | pollFailed h => exact ⟨⟨rfl, [], (List.append_nil _).symm, by simp⟩, if_pos rfl⟩

lemma pollListed_decides {dismissed : List Str} (h : p.polls a = .listing copied dismissed)
    (hs : Step p (.pollListed a remote) p') : RemovesNothing p p' ∧ p'.made = p.made ∧
      p'.polls a = if SpacePoller.removedFolderIds copied remote = [] then .idle
        else .removing (SpacePoller.removedFolderIds copied remote) := by
  cases hs with
  | pollListed _ h' =>
      obtain ⟨rfl, rfl⟩ := Poll.listing.inj (h.symm.trans h')
      exact ⟨⟨rfl, _, rfl, fun _ _ _ _ => SpacePoller.discover_not_removed⟩, rfl, if_pos rfl⟩

/-! ## The whole poll -/

/-- **Space removal is exact under concurrency.**  In every state of the daemon and whatever
happens between the pieces of the poll: asking removes nothing; if `list_spaces` fails, nothing is
removed and the poll is over; if it succeeds, either no copied folder is gone and the poll is over,
or the removal can be carried out, whenever that is, and removes exactly what is gone. -/
theorem removal_exact (a : Uuid) (p₀ p₁ p₂ : Process) (h₀ : Reachable p₀)
    (hask : Step p₀ (.pollAsk a) p₁) (hrun : Relation.ReflTransGen (Meanwhile a) p₁ p₂) :
    RemovesNothing p₀ p₁ ∧
    (∀ p₃, Step p₂ (.pollFailed a) p₃ → RemovesNothing p₂ p₃ ∧ p₃.polls a = .idle) ∧
    ∀ remote p₃, Step p₂ (.pollListed a remote) p₃ → RemovesNothing p₂ p₃ ∧
      (p₃.polls a = .idle ∧ (∀ f, gone (foldersOf p₀.config a) remote f = false) ∨
        ∀ p₄, Relation.ReflTransGen (Meanwhile a) p₃ p₄ →
          (∀ result, ∃ p₅, Step p₄ (.pollRemove a result) p₅) ∧
          ∀ result p₅, Step p₄ (.pollRemove a result) p₅ →
            RemovesExactly a (gone (foldersOf p₀.config a) remote) p₄ p₅) := by
  have hc₀ := coherent h₀
  obtain ⟨⟨dismissed, hpoll₁⟩, hnothing₁, hmade₁⟩ := pollAsk_copies hask
  obtain ⟨hc₂, hpoll₂, hmade₂⟩ := meanwhile_keeps hrun (coherent_step hc₀ hask)
  rw [hpoll₁] at hpoll₂
  refine ⟨hnothing₁, fun p₃ hs => pollFailed_ends hs, fun remote p₃ hlisted => ?_⟩
  obtain ⟨hnothing₃, hmade₃, hpoll₃⟩ := pollListed_decides hpoll₂ hlisted
  refine ⟨hnothing₃, ?_⟩
  by_cases hnil : SpacePoller.removedFolderIds (foldersOf p₀.config a) remote = []
  · rw [if_pos hnil] at hpoll₃
    exact Or.inl ⟨hpoll₃, removedFolderIds_eq_nil.mp hnil⟩
  · rw [if_neg hnil] at hpoll₃
    refine Or.inr (fun p₄ hrun₄ => ?_)
    obtain ⟨hc₄, hpoll₄, hmade₄⟩ := meanwhile_keeps hrun₄ (coherent_step hc₂ hlisted)
    rw [hpoll₃] at hpoll₄
    -- the copied folders were configured, and are remembered
    have hcopied : ∀ g ∈ foldersOf p₀.config a, g ∈ p₄.made := by
      intro g hg
      refine hmade₄ g ?_
      rw [hmade₃]
      refine hmade₂ g ?_
      rw [hmade₁]
      exact hc₀.configMade g (mem_folders_of_foldersOf hg)
    exact ⟨fun result => ⟨_, .pollRemove result hpoll₄⟩,
      fun result p₅ hs => removesExactly_of_remove hc₄ hcopied hpoll₄ hs⟩

/-- An account with two folders. -/
def twoFolders : AppConfig where
  account := [{
    id := 1
    url := "https://ocis.example.com".toList
    username := []
    displayName := "Alice".toList
    folder := [⟨21, "/home/alice/A".toList, "s".toList, "A".toList, [], "off".toList, false⟩,
      ⟨22, "/home/alice/B".toList, "t".toList, "B".toList, [], "off".toList, false⟩] }]

/-- The theorem where the server lists only the second space, and a space is dismissed before the
removal. -/
theorem second_space_stays : ∃ p₄ p₅,
    RemovesExactly 1 (gone (foldersOf twoFolders 1) [⟨"t".toList, "B".toList⟩]) p₄ p₅ ∧
    p₅.config.folders.map FolderConfig.id = [22] ∧
    p₅.accountEvents = [.spaceRemoved 1 21 "A".toList "/home/alice/A".toList] := by
  have hstart := starts_start twoFolders (fun _ => true) (by decide) (by decide)
  have hask := @Step.pollAsk (start twoFolders (fun _ => true)) 1 _ rfl rfl rfl
  have hexact := (removal_exact 1 _ _ _ ⟨_, hstart, .refl⟩ hask .refl).2.2
    [⟨"t".toList, "B".toList⟩] _ (.pollListed _ rfl)
  rcases hexact.2 with ⟨-, hnone⟩ | hexact
  · exact absurd (hnone ⟨21, "/home/alice/A".toList, "s".toList, "A".toList, [], "off".toList,
      false⟩) (by decide)
  · obtain ⟨-, hremove⟩ := hexact _ (Relation.ReflTransGen.refl.tail
      ⟨_, .dismissSpace 1 "x".toList .ok rfl rfl, not_false⟩)
    exact ⟨_, _, hremove .ok _ (.pollRemove .ok rfl), rfl, rfl⟩

end Process

end OwncloudSync
