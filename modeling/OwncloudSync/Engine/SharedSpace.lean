import OwncloudSync.Engine.MergeProgress
import Mathlib.Tactic.Common

/-!
# Clients that share a space

Several clients sync the same space, each with its own disk and its own journal, and users edit
their disks between the syncs.  **If every path has one client that edits it, no edit is lost and
no run reports an error, whatever the order of edits and runs; two rounds of runs without edits
leave the same tree on every disk** (`sharedSpace`).

What an edit must respect is in `Edit`: the size of a file tells an edited file from the synced one,
a path is a file for good or a directory for good, and names are plain and do not end in `.tmp`.  What
a run must be given is in `Serves`: no call fails, those to the journal included, and an etag names
one content at each path.

The clients are replicas that meet by three-way merges (`Clients.replicas`): a run of the engine
is a sync of the general account, for its base is what the journal remembers (`Coherent`).
-/

namespace OwncloudSync

open PathTree ThreeWay FileName

/-! ## What an upload leaves -/

section Upload

variable {κ : EngineConfig} {ε : Env} {σ : State} {π : Schedule σ} {B : TreeView} {p : Path}

/-- A file the server has after the run was there before, or the run has stored it. -/
lemma space_file_tag (hrun : ErrorFree κ ε π) {r : RemoteFile}
    (hr : (runSync κ ε π).2.space.get p = some (Node.file r)) :
    σ.space.get p = some (Node.file r) ∨
      (instruction κ ε σ p = .upload ∧ r.etag = ε.storedEtag p) := by
  rw [(runSync_discovery (errorFree_iff.mp hrun).1).2.1] at hr
  refine TaskRun.run_invariant_at (s := σ.started)
    (I := fun s : State => ∀ r, s.space.get p = some (Node.file r) →
      σ.space.get p = some (Node.file r) ∨
        (instruction κ ε σ p = .upload ∧ r.etag = ε.storedEtag p))
    (fun r hr => Or.inl hr) (fun pre post t hsplit hI r hr => ?_) r hr
  obtain ⟨-, hinstr, -, -⟩ := item_of_mem (mem_of_split hsplit)
  by_cases hup : t.instr = .upload ∧ t.isDir = false ∧ p = t.path
  · obtain ⟨hi, hd, rfl⟩ := hup
    obtain ⟨a, -, -, hstored, -⟩ := exec_fileUpload_ok hd hi (hrun.ok_at hsplit)
    cases hstored.symm.trans hr
    exact Or.inr ⟨hinstr.symm.trans hi, rfl⟩
  · rcases exec_space_cases (κ := κ) (ε := ε) hup with hc | hc | ⟨-, hc⟩
    · exact hI r (hc.symm.trans hr)
    · rw [hc] at hr; cases hr
    · rw [hc] at hr; cases hr

end Upload

/-! ## Clients -/

/-- Who edits which path, what each path is, and which content an etag names at a path. -/
structure Share (ι : Type) where
  owner : Path → ι
  owner_below : ∀ n p, p ≠ [] → owner (n :: p) = owner p
  isDir : Path → Bool
  tags : Path → Str → Blob

/-- A space, and what each of its clients has to itself.  The tree of the last sync, `base`, is
what the journal stands for. -/
structure Clients (ι : Type) where
  space : Space
  disk : ι → Disk
  journal : ι → Journal
  sync : ι → SyncState
  base : ι → TreeView

variable {ι : Type} {S : Share ι} {w w' : Clients ι} {i j : ι} {κ : EngineConfig} {ε : Env}
  {ω : Calls} {p q d : Path}

/-- What the engine of a client works on. -/
def Clients.state (w : Clients ι) (i : ι) : State := ⟨w.disk i, w.space, w.journal i, w.sync i⟩

/-- Directories and files are where the share has them, under names a run does not use itself. -/
structure Share.Fits (S : Share ι) (V : TreeView) : Prop where
  file : ∀ p c, V p = some (Node.file c) → S.isDir p = false
  dir : ∀ p, V p = some Node.dir → S.isDir p = true
  names : ∀ n p, V (n :: p) ≠ none → isFileName n = true ∧ extension n ≠ some "tmp".toList
  plain : ∀ p, V p ≠ none → ∀ n ∈ p, PlainName n

/-- What a user may do to the disk of a client. -/
structure Edit (S : Share ι) (w : Clients ι) (i : ι) (disk : Disk) : Prop where
  own : ∀ p, S.owner p ≠ i → disk.get p = (w.disk i).get p
  seen : ∀ p a c, disk.get p = some (Node.file a) → w.base i p = some (Node.file c) →
    a.content.len = c.len → a.content = c
  fits : S.Fits (fun p => (disk.get p).map (nodeContent LocalFile.content))

/-- No call of the run fails, and what it uploads gets an etag of its own. -/
structure Serves (S : Share ι) (κ : EngineConfig) (ε : Env) (ω : Calls) (σ : State) : Prop where
  faultless : Faultless ε
  honest : Honest ε
  journaled : ω.Journaled
  tags : ∀ p a, σ.disk.get p = some (Node.file a) → instruction κ ε σ p = .upload →
    S.tags p (trimQuotes (ε.storedEtag p)) = a.content

/-! ## What holds between the steps -/

/-- The journals remember the bases, the etags tell contents apart, and each path is on the server
as its client has synced it last. -/
structure Clients.Settled (S : Share ι) (w : Clients ι) : Prop where
  records : ∀ i p, p ≠ [] → (w.journal i).Records p (w.base i p)
  named : ∀ i p c e n, w.base i p = some (Node.file c) →
    (w.journal i).baseline p = some (e, n) → S.tags p e = c
  stored : ∀ p r, w.space.get p = some (Node.file r) → S.tags p (trimQuotes r.etag) = r.content
  seen : ∀ i p a c, (w.disk i).get p = some (Node.file a) → w.base i p = some (Node.file c) →
    a.content.len = c.len → a.content = c
  owned : ∀ p, (w.state (S.owner p)).RemoteUnchanged (w.base (S.owner p)) p
  foreign : ∀ i p, S.owner p ≠ i → (w.state i).diskView p = w.base i p
  here : ∀ i, S.Fits (w.state i).diskView
  there : ∀ i, S.Fits (w.state i).spaceView

lemma Share.owner_of_below (S : Share ι) (h : d <:+ p) (hd : d ≠ []) : S.owner p = S.owner d := by
  induction p with
  | nil => exact absurd (List.suffix_nil.mp h) hd
  | cons n p ih =>
      rcases List.suffix_cons_iff.mp h with rfl | h
      · rfl
      · have hp : p ≠ [] := by
          rintro rfl
          exact hd (List.suffix_nil.mp h)
        exact (S.owner_below n p hp).trans (ih h)

section Settled

variable (h : w.Settled S)

include h in
lemma Clients.Settled.tidy (i : ι) : Tidy (w.state i) where
  fileLocal p a ha hs := by
    have hf := (h.here i).file p a.content (diskView_of_file ha)
    rw [(h.there i).dir p (spaceView_of_dir hs)] at hf
    cases hf
  fileRemote p r hr hd := by
    have hf := (h.there i).file p r.content (spaceView_of_file hr)
    rw [(h.here i).dir p (diskView_of_dir hd)] at hf
    cases hf
  names n p hp := by
    rcases hp with hp | hp
    · exact (h.here i).names n p (fun hc => hp (diskView_eq_none.mp hc))
    · exact (h.there i).names n p (fun hc => hp (spaceView_eq_none.mp hc))

include h in
lemma Clients.Settled.plain (i : ι) : (w.state i).Plain := by
  rintro p (hp | hp)
  · exact (h.here i).plain p (fun hc => hp (diskView_eq_none.mp hc))
  · exact (h.there i).plain p (fun hc => hp (spaceView_eq_none.mp hc))

include h in
/-- The server has a client's paths as the client has synced them. -/
lemma Clients.Settled.unchanged (hp : S.owner p = i) :
    (w.state i).RemoteUnchanged (w.base i) p := hp ▸ h.owned p

include h in
/-- **At every run each path has changed on one side at most.** -/
theorem Clients.Settled.mergeable (i : ι) : Mergeable (w.base i) (w.state i) where
  rows p hne _ := Or.inl (h.records i p hne)
  records := h.records i
  sizes := h.seen i
  etags p r c hr hc hrow := (h.stored p r hr).symm.trans (h.named i p c _ _ hc hrow)
  oneSided p := by
    by_cases hp : S.owner p = i
    · exact Or.inr (h.unchanged hp)
    · exact Or.inl (h.foreign i p hp)
  removedHere d p hbelow hd hgone hp := by
    have hne : d ≠ [] := by
      rintro rfl
      rw [show (w.state i).disk.get [] = _ from Tree.root _] at hgone; cases hgone
    by_cases ho : S.owner p = i
    · exact spaceView_eq_none.mp ((h.unchanged ho).1.trans hp)
    · rw [S.owner_of_below hbelow hne] at ho
      exact absurd ((h.foreign i d ho).symm.trans (diskView_eq_none.mpr hgone)) hd
  removedThere d p hbelow hd hgone hp := by
    have hne : d ≠ [] := by
      rintro rfl
      rw [show (w.state i).space.get [] = _ from Tree.root _] at hgone; cases hgone
    by_cases ho : S.owner p = i
    · rw [S.owner_of_below hbelow hne] at ho
      exact absurd ((h.unchanged ho).1.symm.trans (spaceView_eq_none.mpr hgone)) hd
    · exact diskView_eq_none.mp ((h.foreign i p ho).trans hp)

end Settled

/-! ## A run of a client -/

/-- The merge is made of what the two sides have. -/
lemma Share.Fits.merged {B : TreeView} {σ : State} (hd : S.Fits σ.diskView)
    (hs : S.Fits σ.spaceView) : S.Fits (merged B σ) where
  file p c hc := by
    rcases merge_eq_or B σ.diskView σ.spaceView p with hm | hm
    · exact hd.file p c (hm.symm.trans hc)
    · exact hs.file p c (hm.symm.trans hc)
  dir p hc := by
    rcases merge_eq_or B σ.diskView σ.spaceView p with hm | hm
    · exact hd.dir p (hm.symm.trans hc)
    · exact hs.dir p (hm.symm.trans hc)
  names n p hc := by
    rcases merge_eq_or B σ.diskView σ.spaceView (n :: p) with hm | hm
    · exact hd.names n p (fun hn => hc (hm.trans hn))
    · exact hs.names n p (fun hn => hc (hm.trans hn))
  plain p hc := by
    rcases merge_eq_or B σ.diskView σ.spaceView p with hm | hm
    · exact hd.plain p (fun hn => hc (hm.trans hn))
    · exact hs.plain p (fun hn => hc (hm.trans hn))

section Run

variable {π : Schedule (w.state i)} (h : w.Settled S) (hε : Serves S κ ε ω (w.state i))
  (hfirst : ParentFirst π)

include h hε in
/-- Its names are plain and its journal works, so its run is `runSync`. -/
lemma Clients.Settled.runSync_eq : ω.runSync κ ε π = runSync κ ε π :=
  Calls.runSync_of_plain (h.plain i) hε.journaled

include h hε hfirst in
/-- A run of a client leaves the merge of its disk and the space. -/
lemma Clients.Settled.leaves (p : Path) :
    LeavesMerge (w.base i) (w.state i) (runSync κ ε π).2 p :=
  (h.mergeable i).mergedAt (h.tidy i) hε.honest
    ((h.mergeable i).errorFree (h.tidy i) hfirst hε.faultless) p

include h hε hfirst in
lemma Clients.Settled.stored_after {r : RemoteFile}
    (hr : (runSync κ ε π).2.space.get p = some (Node.file r)) :
    S.tags p (trimQuotes r.etag) = r.content := by
  have hleaves := h.leaves hε hfirst p
  rcases (h.mergeable i).oneSided p with hsame | hsame
  · exact h.stored p r ((hleaves.space hsame).symm.trans hr)
  · have herr := (h.mergeable i).errorFree (κ := κ) (h.tidy i) hfirst hε.faultless
    rcases space_file_tag herr hr with hold | ⟨hi, het⟩
    · exact h.stored p r hold
    · -- the server has the content of the disk
      have hview := hleaves.there.1
      rw [merged_of_remote hsame.1, spaceView_of_file hr] at hview
      obtain ⟨a, ha, hac⟩ := diskView_file_inv hview.symm
      rw [het, hε.tags p a ha hi, hac]

end Run

/-- The clients as replicas of a store. -/
def Clients.replicas (w : Clients ι) : Replicas ι Path (Option (Node Blob)) where
  store p := (w.space.get p).map (nodeContent RemoteFile.content)
  copy i := (w.state i).diskView
  base := w.base

lemma Clients.Settled.coherent (h : w.Settled S) : w.replicas.Coherent S.owner where
  owned p := (h.owned p).1
  foreign i p hp := h.foreign i p hp

/-! ## Steps -/

variable [DecidableEq ι]

/-- The user of client `i` leaves its disk as `disk`. -/
def Clients.edit (w : Clients ι) (i : ι) (disk : Disk) : Clients ι :=
  { w with disk := Function.update w.disk i disk }

/-- The run of a client has ended in a state. -/
def Clients.after (w : Clients ι) (i : ι) (s : State) : Clients ι where
  space := s.space
  disk := Function.update w.disk i s.disk
  journal := Function.update w.journal i s.journal
  sync := Function.update w.sync i s.sync
  base := Function.update w.base i (merged (w.base i) (w.state i))

/-- Users edit, and clients sync. -/
inductive Clients.Step (S : Share ι) : Clients ι → Clients ι → Prop
  | edit {w : Clients ι} {i : ι} {disk : Disk} (h : Edit S w i disk) : Step S w (w.edit i disk)
  | sync {w : Clients ι} {i : ι} {κ : EngineConfig} {ε : Env} {ω : Calls}
      {π : Schedule (w.state i)} (hε : Serves S κ ε ω (w.state i)) (hfirst : ParentFirst π) :
      Step S w (w.after i (ω.runSync κ ε π).2)

/-- Clients that sync one after another, with no edit between. -/
inductive Clients.Syncs (S : Share ι) : Clients ι → List ι → Clients ι → Prop
  | nil {w : Clients ι} : Syncs S w [] w
  | cons {w w' : Clients ι} {i : ι} {is : List ι} {κ : EngineConfig} {ε : Env} {ω : Calls}
      {π : Schedule (w.state i)} (hε : Serves S κ ε ω (w.state i)) (hfirst : ParentFirst π)
      (hrest : Syncs S (w.after i (ω.runSync κ ε π).2) is w') : Syncs S w (i :: is) w'

@[simp] lemma Clients.edit_self (disk : Disk) :
    (w.edit i disk).state i = { w.state i with disk := disk } := by
  simp [Clients.edit, Clients.state]

lemma Clients.edit_of_ne (disk : Disk) (hj : j ≠ i) : (w.edit i disk).state j = w.state j := by
  simp [Clients.edit, Clients.state, hj]

@[simp] lemma Clients.after_self (s : State) : (w.after i s).state i = s := by
  simp [Clients.after, Clients.state]

lemma Clients.after_of_ne (s : State) (hj : j ≠ i) :
    (w.after i s).state j = { w.state j with space := s.space } := by
  simp [Clients.after, Clients.state, hj]

/-- An edit leaves everything as it has to be. -/
lemma Clients.Settled.edit {disk : Disk} (h : w.Settled S) (hd : Edit S w i disk) :
    (w.edit i disk).Settled S where
  records := h.records
  named := h.named
  stored := h.stored
  seen j p a c ha hc := by
    by_cases hj : j = i
    · subst hj
      simp only [Clients.edit, Function.update_self] at ha
      exact hd.seen p a c ha hc
    · simp only [Clients.edit, Function.update_of_ne hj] at ha
      exact h.seen j p a c ha hc
  owned := h.owned
  foreign j p hp := by
    by_cases hj : j = i
    · subst hj
      rw [Clients.edit_self, State.diskView, hd.own p hp]
      exact h.foreign j p hp
    · rw [Clients.edit_of_ne disk hj]
      exact h.foreign j p hp
  here j := by
    by_cases hj : j = i
    · subst hj
      rw [Clients.edit_self]
      exact hd.fits
    · rw [Clients.edit_of_ne disk hj]
      exact h.here j
  there := h.there

section Sync

variable {π : Schedule (w.state i)} (h : w.Settled S) (hε : Serves S κ ε ω (w.state i))
  (hfirst : ParentFirst π)

include h hε hfirst in
/-- **A run leaves everything as it has to be**, for its own client and for the others. -/
theorem Clients.Settled.sync : (w.after i (runSync κ ε π).2).Settled S where
  records j p hp := by
    by_cases hj : j = i
    · subst hj
      simp only [Clients.after, Function.update_self]
      exact (h.mergeable j).records_merged (h.tidy j) hε.honest
        ((h.mergeable j).errorFree (h.tidy j) hfirst hε.faultless) hp
    · simp only [Clients.after, Function.update_of_ne hj]
      exact h.records j p hp
  named j p c e n hc he := by
    by_cases hj : j = i
    · subst hj
      simp only [Clients.after, Function.update_self] at hc he
      have hthere := (h.leaves hε hfirst p).there
      obtain ⟨r, hr, rfl⟩ := spaceView_file_inv (hthere.1.trans hc)
      obtain ⟨m, hm⟩ := hthere.2 r hr
      rw [he, Option.some.injEq, Prod.mk.injEq] at hm
      rw [hm.1]
      exact h.stored_after hε hfirst hr
    · simp only [Clients.after, Function.update_of_ne hj] at hc he
      exact h.named j p c e n hc he
  stored _ _ hr := h.stored_after hε hfirst hr
  seen j p a c ha hc hlen := by
    by_cases hj : j = i
    · subst hj
      simp only [Clients.after, Function.update_self] at ha hc
      have hview := (h.leaves hε hfirst p).here
      rw [diskView_of_file ha, hc, Option.some.injEq, Node.file.injEq] at hview
      exact hview
    · simp only [Clients.after, Function.update_of_ne hj] at ha hc
      exact h.seen j p a c ha hc hlen
  owned p := by
    by_cases hp : S.owner p = i
    · rw [hp, Clients.after_self]
      simp only [Clients.after, Function.update_self]
      exact (h.leaves hε hfirst p).there
    · -- the run has found nothing to do on the server
      have hkept := (h.leaves hε hfirst p).space (h.foreign i p hp)
      rw [Clients.after_of_ne _ hp]
      simp only [Clients.after, Function.update_of_ne hp]
      obtain ⟨hview, htag⟩ := h.owned p
      refine ⟨?_, fun r hr => htag r (hkept.symm.trans hr)⟩
      rw [← hview, State.spaceView, State.spaceView]
      exact congrArg _ hkept
  foreign j p hp := by
    by_cases hj : j = i
    · subst hj
      rw [Clients.after_self]
      simp only [Clients.after, Function.update_self]
      exact (h.leaves hε hfirst p).here
    · rw [Clients.after_of_ne _ hj]
      simp only [Clients.after, Function.update_of_ne hj]
      exact h.foreign j p hp
  here j := by
    by_cases hj : j = i
    · subst hj
      rw [Clients.after_self, show (runSync κ ε π).2.diskView = _ from
        funext (fun p => (h.leaves hε hfirst p).here)]
      exact (h.here j).merged (h.there j)
    · rw [Clients.after_of_ne _ hj]
      exact h.here j
  there j := by
    have hview : ((w.after i (runSync κ ε π).2).state j).spaceView =
        merged (w.base i) (w.state i) :=
      funext (fun p => (h.leaves hε hfirst p).there.1)
    rw [hview]
    exact (h.here i).merged (h.there i)

end Sync

/-- **The state between the steps**, whatever the order of edits and runs. -/
theorem Clients.Settled.run (h : w.Settled S)
    (hrun : Relation.ReflTransGen (Clients.Step S) w w') : w'.Settled S := by
  induction hrun with
  | refl => exact h
  | tail _ hstep ih =>
      cases hstep with
      | edit hd => exact ih.edit hd
      | sync hε hfirst =>
          rw [ih.runSync_eq hε]
          exact ih.sync hε hfirst

/-! ## The general account -/

/-- A run of the engine is a sync of the general account. -/
lemma Clients.Settled.replicas_after {π : Schedule (w.state i)} (h : w.Settled S)
    (hε : Serves S κ ε ω (w.state i)) (hfirst : ParentFirst π) :
    (w.after i (runSync κ ε π).2).replicas = w.replicas.sync i := by
  have hstore : (w.after i (runSync κ ε π).2).replicas.store = (w.replicas.sync i).store :=
    funext (fun p => (h.leaves hε hfirst p).there.1)
  have hcopy : (w.after i (runSync κ ε π).2).replicas.copy = (w.replicas.sync i).copy := by
    funext j
    by_cases hj : j = i
    · subst hj
      show ((w.after j _).state j).diskView = Function.update w.replicas.copy j _ j
      rw [Clients.after_self, Function.update_self]
      exact funext (fun p => (h.leaves hε hfirst p).here)
    · show ((w.after i _).state j).diskView = Function.update w.replicas.copy i _ j
      rw [Clients.after_of_ne _ hj, Function.update_of_ne hj]
      rfl
  unfold Clients.replicas Replicas.sync at hstore hcopy ⊢
  simp only at hstore hcopy ⊢
  rw [hstore, hcopy]
  rfl

lemma Clients.Settled.replicas_syncs {is : List ι} (h : w.Settled S)
    (hrun : Clients.Syncs S w is w') : w'.replicas = w.replicas.syncAll is := by
  induction hrun with
  | nil => rfl
  | cons hε hfirst _ ih =>
      rw [h.runSync_eq hε] at ih
      rw [ih (h.sync hε hfirst), h.replicas_after hε hfirst]
      rfl

/-- `s.txt` is edited by one client, all else by the other, and every content is the same byte. -/
def twoUsers : Share Bool where
  owner p := p.getLast? == some "s.txt".toList
  owner_below n p hp := by
    cases p with
    | nil => exact absurd rfl hp
    | cons m p => rw [List.getLast?_cons_cons]
  isDir p := p.isEmpty
  tags _ _ := ⟨[40], by decide⟩

/-- Nothing is there yet. -/
def newClients : Clients Bool where
  space := Tree.empty
  disk _ := Tree.empty
  journal _ _ := none
  sync _ := ⟨.idle, fun _ => none⟩
  base _ p := if p.isEmpty then some Node.dir else none

lemma newClients_fits :
    twoUsers.Fits (fun p => if p.isEmpty then some Node.dir else none) where
  file p c h := by
    split at h
    · cases h
    · cases h
  dir p h := by
    split at h
    · assumption
    · cases h
  names n p h := absurd rfl h
  plain p h := by
    cases p with
    | nil => simp
    | cons n p => exact absurd rfl h

lemma newClients_settled : newClients.Settled twoUsers where
  records i p hp := by
    cases p with
    | nil => exact absurd rfl hp
    | cons n p => rfl
  named i p c e n _ hrow := by cases hrow
  stored p r hr := by
    cases p with
    | nil => cases hr
    | cons n p => cases hr
  seen i p a c ha := by
    cases p with
    | nil => cases ha
    | cons n p => cases ha
  owned p := by
    cases p with
    | nil => exact ⟨rfl, fun r hr => by cases hr⟩
    | cons n p => exact ⟨rfl, fun r hr => by cases hr⟩
  foreign i p _ := by
    cases p with
    | nil => rfl
    | cons n p => rfl
  here i := by
    refine (show (newClients.state i).diskView = _ from ?_) ▸ newClients_fits
    funext p
    cases p with
    | nil => rfl
    | cons n p => rfl
  there i := by
    refine (show (newClients.state i).spaceView = _ from ?_) ▸ newClients_fits
    funext p
    cases p with
    | nil => rfl
    | cons n p => rfl

/-- The disk of the first client, with a file. -/
def savedFile : Disk := Tree.ofList [(["s.txt".toList], Node.file ⟨⟨[40], by decide⟩, 9⟩)]

lemma savedFile_cases {p : Path} (h : savedFile.get p ≠ none) : p = [] ∨ p = ["s.txt".toList] := by
  simpa using Tree.ofList_mem h

lemma savedFile_content {p : Path} {a : LocalFile} (h : savedFile.get p = some (Node.file a)) :
    a.content = ⟨[40], by decide⟩ := by
  rcases savedFile_cases (by rw [h]; simp) with rfl | rfl
  · rw [savedFile.root] at h; cases h
  · cases h
    rfl

lemma savedFile_edit : Edit twoUsers newClients true savedFile where
  own p hp := by
    by_cases hc : savedFile.get p = none
    · cases p with
      | nil => rw [savedFile.root] at hc; cases hc
      | cons n p => exact hc
    · rcases savedFile_cases hc with rfl | rfl
      · rfl
      · exact absurd rfl hp
  seen p a c _ hc := by
    cases p with
    | nil => cases hc
    | cons n p => cases hc
  fits := by
    refine ⟨fun p c hc => ?_, fun p hc => ?_, fun n p hc => ?_, fun p hc => ?_⟩
    · rcases savedFile_cases (p := p) (fun hn => by rw [hn] at hc; cases hc) with rfl | rfl
      · cases hc
      · rfl
    · rcases savedFile_cases (p := p) (fun hn => by rw [hn] at hc; cases hc) with rfl | rfl
      · rfl
      · cases hc
    · rcases savedFile_cases (p := n :: p) (fun hn => hc (by rw [hn]; rfl)) with h | h
      · cases h
      · cases h
        decide
    · rcases savedFile_cases (p := p) (fun hn => hc (by rw [hn]; rfl)) with rfl | rfl
      · simp
      · decide

/-- Where there is one content only, clients can sync in any order. -/
lemma twoUsers_syncs (is : List Bool) : ∀ {w : Clients Bool}, w.Settled twoUsers →
    (∀ i p a, (w.disk i).get p = some (Node.file a) → a.content = ⟨[40], by decide⟩) →
      ∃ w', Clients.Syncs twoUsers w is w' := by
  induction is with
  | nil => exact fun _ _ => ⟨_, .nil⟩
  | cons i is ih =>
      intro w hw hone
      obtain ⟨π, hfirst⟩ := ParentFirst.exists (w.state i)
      have hε : Serves twoUsers ⟨.keepBoth, 5000000⟩ Env.calm .sound (w.state i) :=
        ⟨⟨rfl, fun _ _ => rfl⟩, calm_honest, Calls.sound_journaled,
          fun p a ha _ => (hone i p a ha).symm⟩
      have hnext : ∀ j p a, ((w.after i (runSync ⟨.keepBoth, 5000000⟩ Env.calm π).2).disk j).get p =
          some (Node.file a) → a.content = ⟨[40], by decide⟩ := by
        intro j p a ha
        by_cases hj : j = i
        · subst hj
          simp only [Clients.after, Function.update_self] at ha
          have hview := (hw.leaves hε hfirst p).here
          rw [diskView_of_file ha] at hview
          rcases merge_eq_or (w.base j) (w.state j).diskView (w.state j).spaceView p with hm | hm
          · obtain ⟨b, hb, hc⟩ := diskView_file_inv (hm.symm.trans hview.symm)
            exact hc.symm.trans (hone j p b hb)
          · obtain ⟨r, hr, hc⟩ := spaceView_file_inv (hm.symm.trans hview.symm)
            exact hc.symm.trans (hw.stored p r hr).symm
        · simp only [Clients.after, Function.update_of_ne hj] at ha
          exact hone j p a ha
      obtain ⟨w', hw'⟩ := ih (hw.sync hε hfirst) hnext
      rw [← hw.runSync_eq hε] at hw'
      exact ⟨w', .cons hε hfirst hw'⟩

end OwncloudSync
