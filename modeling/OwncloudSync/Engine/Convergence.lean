import OwncloudSync.Engine.Quiescence
import OwncloudSync.Engine.Detection
import Mathlib.Tactic.Common

/-!
# The first sync

Two trees that have never been synced, and two runs.  `InMerge` says what the result is meant to
be, in terms of the two trees alone:

* everything the server has is in it,
* so is everything local that the server does not have,
* and a file that both sides have is there a second time, with the local content under the name
  of its conflict copy.

**The first run** leaves this tree on the disk, and on the server all of it but the copies
(`firstRun_file`, `firstRun_dir`, `firstRun_copy`).  **The second** finds the copies as new local
files and uploads them, and leaves everything else as it is.  That is the plan; it needs the rows of
the first run.  A row that is lost makes the second run set its file aside once more
(`secondRun_lost`), and a size that could not be read makes it upload the file again
(`secondRun_file`).  `firstSync_converges_iff` says exactly when both sides end as the merge.
-/

namespace OwncloudSync

open PathTree FileName

/-- What a node holds: the content of a file, without its time or etag. -/
def nodeContent {α : Type} (f : α → Blob) : Node α → Node Blob
  | .dir => .dir
  | .file a => .file (f a)

/-- What the disk holds at a path. -/
def State.diskView (s : State) (p : Path) : Option (Node Blob) :=
  (s.disk.get p).map (nodeContent LocalFile.content)

/-- What the server holds at a path. -/
def State.spaceView (s : State) (p : Path) : Option (Node Blob) :=
  (s.space.get p).map (nodeContent RemoteFile.content)

/-- **The merge of the two trees**, as a first sync is meant to make it. -/
inductive InMerge (ε : Env) (σ : State) : Path → Node Blob → Prop
  | remote {p : Path} {x : Node Blob} (h : σ.spaceView p = some x) : InMerge ε σ p x
  | loc {p : Path} {x : Node Blob} (hs : σ.space.get p = none) (h : σ.diskView p = some x) :
      InMerge ε σ p x
  | copy {q : Path} {a : LocalFile} {r : RemoteFile} (hd : σ.disk.get q = some (Node.file a))
      (hs : σ.space.get q = some (Node.file r)) :
      InMerge ε σ (conflictPath q (ε.clock q)) (Node.file a.content)

variable {κ : EngineConfig} {ε ε' : Env} {σ s : State} {π : Schedule σ} {p q : Path}
  {x y : Node Blob}

lemma diskView_eq_none : s.diskView p = none ↔ s.disk.get p = none := Option.map_eq_none_iff

lemma spaceView_eq_none : s.spaceView p = none ↔ s.space.get p = none := Option.map_eq_none_iff

/-! ## Plans without a journal -/

section Unsynced

variable (hj : ∀ p, σ.journal p = none)

include hj in
/-- Nothing is deleted without a journal. -/
lemma undeleted_of_unsynced : Undeleted κ ε π p := by
  rintro u hu ⟨hi, -⟩
  rw [(item_of_mem hu).2.1, instruction_isDelete_iff] at hi
  rcases hi with hg | hg
  · exact hg.2.2 (baseline_of_none (hj u.path))
  · exact hg.2.2 (baseline_of_none (hj u.path))

include hj in
/-- Two files are in conflict, and no other file path is. -/
lemma conflictCopy_iff (hσ : Tidy σ) : ConflictCopy κ ε σ p ↔
    ∃ q a r, σ.disk.get q = some (Node.file a) ∧ σ.space.get q = some (Node.file r) ∧
      p = conflictPath q (ε.clock q) := by
  constructor
  · rintro ⟨q, hf, hi, hp⟩
    obtain ⟨hd, hs⟩ := instruction_conflict hi
    obtain ⟨a, ha⟩ := exists_localFile hf hd
    cases hr : σ.space.get q with
    | none => exact absurd hr hs
    | some z =>
        cases z with
        | dir => exact absurd hr (hσ.fileLocal q a ha)
        | file r => exact ⟨q, a, r, ha, hr, hp⟩
  · rintro ⟨q, a, r, ha, hr, hp⟩
    refine ⟨q, isDirPath_eq_false.mpr ⟨by rw [ha]; simp, fun h => ?_⟩, ?_, hp⟩
    · rw [ha] at h; cases h
    · exact instruction_unknown (by rw [ha]; simp) (by rw [hr]; simp) (baseline_of_none (hj q))

include hj in
/-- The merge has one entry for a path at most. -/
lemma InMerge.unique (hσ : Tidy σ) (hfresh : FreshConflicts κ ε σ) (hx : InMerge ε σ p x)
    (hy : InMerge ε σ p y) : x = y := by
  have hcopy : ∀ {q a r}, σ.disk.get q = some (Node.file a) → σ.space.get q = some (Node.file r) →
      ¬ σ.Present (conflictPath q (ε.clock q)) :=
    fun hd hs => (hfresh _ ((conflictCopy_iff hj hσ).mpr ⟨_, _, _, hd, hs, rfl⟩)).1
  have hremote : ∀ {p z}, σ.spaceView p = some z → σ.Present p := by
    intro p z h
    exact Or.inr (fun hn => by rw [spaceView_eq_none.mpr hn] at h; cases h)
  have hlocal : ∀ {p z}, σ.diskView p = some z → σ.Present p := by
    intro p z h
    exact Or.inl (fun hn => by rw [diskView_eq_none.mpr hn] at h; cases h)
  cases hx with
  | remote h =>
      generalize hp : p = c at hy
      cases hy with
      | remote h' => subst hp; exact Option.some.inj (h.symm.trans h')
      | loc hs _ => subst hp; rw [spaceView_eq_none.mpr hs] at h; cases h
      | copy hd hs => subst hp; exact absurd (hremote h) (hcopy hd hs)
  | loc hs h =>
      generalize hp : p = c at hy
      cases hy with
      | remote h' => subst hp; rw [spaceView_eq_none.mpr hs] at h'; cases h'
      | loc _ h' => subst hp; exact Option.some.inj (h.symm.trans h')
      | copy hd hs' => subst hp; exact absurd (hlocal h) (hcopy hd hs')
  | copy hd hs =>
      rename_i q a r
      generalize hp : conflictPath q (ε.clock q) = c at hy
      cases hy with
      | remote h' => subst hp; exact absurd (hremote h') (hcopy hd hs)
      | loc _ h' => subst hp; exact absurd (hlocal h') (hcopy hd hs)
      | copy hd' hs' =>
          rename_i q' a' r'
          have hne : ∀ {q b}, σ.disk.get q = some (Node.file b) → q ≠ [] := by
            rintro q b hb rfl
            rw [σ.disk.root] at hb; cases hb
          have hqq := conflictPath_inj hσ (Or.inl (by rw [hd]; simp)) (hne hd)
            (Or.inl (by rw [hd']; simp)) (hne hd') hp
          subst hqq
          rw [hd, Option.some.injEq, Node.file.injEq] at hd'
          rw [hd']

end Unsynced

/-! ## The two runs -/

lemma diskView_of_dir (h : s.disk.get p = some Node.dir) : s.diskView p = some Node.dir := by
  rw [State.diskView, h]; rfl

lemma spaceView_of_dir (h : s.space.get p = some Node.dir) : s.spaceView p = some Node.dir := by
  rw [State.spaceView, h]; rfl

lemma diskView_of_file {a : LocalFile} (h : s.disk.get p = some (Node.file a)) :
    s.diskView p = some (Node.file a.content) := by
  rw [State.diskView, h]; rfl

lemma spaceView_of_file {r : RemoteFile} (h : s.space.get p = some (Node.file r)) :
    s.spaceView p = some (Node.file r.content) := by
  rw [State.spaceView, h]; rfl

/-- Both sides have the path as the merge does. -/
def MergedAt (ε : Env) (σ s : State) (p : Path) : Prop :=
  ∃ x, InMerge ε σ p x ∧ s.diskView p = some x ∧ s.spaceView p = some x

/-- Neither side has the path, and the merge does not. -/
def MissingAt (ε : Env) (σ s : State) (p : Path) : Prop :=
  (∀ x, ¬ InMerge ε σ p x) ∧ Absent p s

section Runs

variable (hj : ∀ p, σ.journal p = none) (hσ : Tidy σ) (hε : HonestEtags ε)
  (hfresh : FreshConflicts κ ε σ) (hrun : ErrorFree κ ε π)

include hj in
/-- A file path is kept by the first run, and is not ignored. -/
lemma kept_of_unsynced (hfile : isDirPath ε σ p = false) (hp : σ.Present p) :
    KeptFile κ ε σ p ∧ instruction κ ε σ p ≠ .ignore := by
  obtain ⟨π⟩ := Schedule.exists σ
  have hi : instruction κ ε σ p ≠ .ignore := by
    intro hi
    have hpres : localEntry σ p ≠ none ∨ remoteEntry ε σ p ≠ none := by
      simpa [State.Present] using hp
    obtain ⟨l, r, -, -, h⟩ := (reconcile_ignore_iff hpres).mp hi
    rw [baseline_of_none (hj p)] at h; cases h
  refine ⟨⟨ne_nil_of_file hfile, hp, hfile, Bool.eq_false_iff.mpr (fun hc => ?_)⟩, hi⟩
  exact undeleted_of_unsynced (κ := κ) (ε := ε) (π := π) hj _
    (itemOf_mem_tasks (ne_nil_of_file hfile) hp hi) ⟨hc, List.suffix_refl p⟩

include hj hσ hε hfresh hrun in
/-- **A file path after the first run**: the disk has it as the merge does, the server's version, if
there is one. -/
lemma firstRun_file (hfile : isDirPath ε σ p = false) (hp : σ.Present p) :
    ∃ a r, Transferred κ ε σ p (runSync κ ε π).2 a r ∧ InMerge ε σ p (Node.file a.content) := by
  obtain ⟨hk, hi⟩ := kept_of_unsynced (κ := κ) hj hfile hp
  obtain ⟨a, r, ht⟩ := transferred (π := π) hσ hfresh hε hrun.filesSucceed hk hi
  refine ⟨a, r, ht, ?_⟩
  have hb := baseline_of_none (hj p)
  cases hs : σ.space.get p with
  | some z =>
      have hup : instruction κ ε σ p ≠ .upload := by
        by_cases hd : σ.disk.get p = none
        · rw [instruction_newRemote hd (by rw [hs]; simp) hb]; simp
        · rw [instruction_unknown hd (by rw [hs]; simp) hb]; simp
      obtain ⟨hr, hac⟩ := ht.got hup
      exact InMerge.remote (hac ▸ spaceView_of_file hr)
  | none =>
      have hd : σ.disk.get p ≠ none := hp.resolve_right (fun h => h hs)
      exact InMerge.loc hs (diskView_of_file (ht.sent (instruction_newLocal hd hs hb)).1)

include hj hσ hfresh hrun in
/-- A directory is merged by the first run: it is made where it is missing. -/
lemma firstRun_dir (hdir : isDirPath ε σ p = true) : InMerge ε σ p Node.dir ∧
    (runSync κ ε π).2.disk.get p = some Node.dir ∧
      (runSync κ ε π).2.space.get p = some Node.dir := by
  have hfree : Undeleted κ ε π p := undeleted_of_unsynced hj
  refine ⟨?_, ?_⟩
  · cases hs : σ.space.get p with
    | none =>
        rcases isDirPath_iff.mp hdir with hd | ⟨-, h⟩
        · exact InMerge.loc hs (diskView_of_dir hd)
        · rw [hs] at h; cases h
    | some z =>
        cases z with
        | dir => exact InMerge.remote (spaceView_of_dir hs)
        | file r =>
            rcases isDirPath_iff.mp hdir with hd | ⟨-, h⟩
            · exact absurd hd (hσ.fileRemote p r hs)
            · rw [hs] at h; cases h
  · by_cases hne : p = []
    · rw [hne]; exact ⟨Tree.root _, Tree.root _⟩
    · exact ⟨disk_dir_of_dir hne hrun hdir hfree,
        space_dir_of_dir hσ hfresh hne hrun hdir hfree⟩

include hj hσ hfresh hrun in
/-- A conflict copy after the first run. -/
lemma firstRun_copy {a : LocalFile} {r : RemoteFile} (hd : σ.disk.get q = some (Node.file a))
    (hs : σ.space.get q = some (Node.file r)) :
    ConflictCopy κ ε σ (conflictPath q (ε.clock q)) ∧
      (runSync κ ε π).2.disk.get (conflictPath q (ε.clock q)) = some (Node.file a) ∧
      (runSync κ ε π).2.space.get (conflictPath q (ε.clock q)) = none ∧
      (runSync κ ε π).2.journal (conflictPath q (ε.clock q)) = none := by
  have hfile : isDirPath ε σ q = false :=
    isDirPath_eq_false.mpr ⟨by rw [hd]; simp, fun h => by rw [hd] at h; cases h⟩
  have hi : instruction κ ε σ q = .conflict := instruction_unknown (by rw [hd]; simp)
    (by rw [hs]; simp) (baseline_of_none (hj q))
  exact ⟨⟨q, hfile, hi, rfl⟩,
    copy_of_conflict (π := π) hσ hfresh hrun.filesSucceed hfile hi hd rfl⟩

/-- What is neither on a side nor the name of a copy is not in the merge. -/
lemma not_inMerge (hσ : Tidy σ) (hj : ∀ p, σ.journal p = none) (hp : ¬ σ.Present p)
    (hcopy : ¬ ConflictCopy κ ε σ p) : ¬ InMerge ε σ p x := by
  intro hx
  cases hx with
  | remote h => exact hp (Or.inr (fun hn => by rw [spaceView_eq_none.mpr hn] at h; cases h))
  | loc _ h => exact hp (Or.inl (fun hn => by rw [diskView_eq_none.mpr hn] at h; cases h))
  | copy hd hs => exact hcopy ((conflictCopy_iff hj hσ).mpr ⟨_, _, _, hd, hs, rfl⟩)

end Runs

/-! ## The second run

It starts from the trees that the first has left, and from rows that may be missing. -/

section Second

variable {σ₁ : State} {π₁ : Schedule σ₁} {κ' : EngineConfig}
  (hj : ∀ p, σ.journal p = none) (hσ : Tidy σ) (hε : HonestEtags ε)
  (hfresh : FreshConflicts κ ε σ) (hrun : ErrorFree κ ε π)
  (hd₁ : σ₁.disk = (runSync κ ε π).2.disk) (hs₁ : σ₁.space = (runSync κ ε π).2.space)
  (hfresh₁ : FreshConflicts κ' ε' σ₁) (hrun₁ : ErrorFree κ' ε' π₁)

include hσ hfresh hrun hd₁ hs₁ in
lemma tidy_second : Tidy σ₁ := (hσ.run hfresh hrun.filesSucceed).congr hd₁ hs₁

include hj hσ hfresh hrun hd₁ hs₁ hfresh₁ hrun₁ in
/-- A directory stays merged. -/
lemma secondRun_dir (hdir : isDirPath ε σ p = true) : MergedAt ε σ (runSync κ' ε' π₁).2 p := by
  obtain ⟨hx, hd, hs⟩ := firstRun_dir (π := π) hj hσ hfresh hrun hdir
  rw [← hd₁] at hd
  rw [← hs₁] at hs
  have hdir' : isDirPath ε' σ₁ p = true := isDirPath_iff.mpr (Or.inl hd)
  have hfree : Undeleted κ' ε' π₁ p :=
    undeleted_of_both (by rw [hd]; simp) (by rw [hs]; simp)
  refine ⟨Node.dir, hx, ?_, ?_⟩
  · by_cases hne : p = []
    · rw [hne]; exact diskView_of_dir (Tree.root _)
    · exact diskView_of_dir (disk_dir_of_dir hne hrun₁ hdir' hfree)
  · by_cases hne : p = []
    · rw [hne]; exact spaceView_of_dir (Tree.root _)
    · exact spaceView_of_dir (space_dir_of_dir (tidy_second hσ hfresh hrun hd₁ hs₁) hfresh₁ hne
        hrun₁ hdir' hfree)

include hσ hfresh hrun hd₁ hs₁ hfresh₁ hrun₁ in
/-- What is sent in the second run arrives whole exactly if its size could be read, or is zero. -/
lemma secondRun_upload (hε' : HonestEtags ε') {a : LocalFile}
    (hfile : isDirPath ε' σ₁ p = false) (ha : σ₁.disk.get p = some (Node.file a))
    (hi : instruction κ' ε' σ₁ p = .upload) (hx : InMerge ε σ p (Node.file a.content)) :
    MergedAt ε σ (runSync κ' ε' π₁).2 p ↔ ε'.fails .metadata p = none ∨ a.content.len = 0 := by
  have hk : KeptFile κ' ε' σ₁ p :=
    ⟨ne_nil_of_file hfile, Or.inl (by rw [ha]; simp), hfile, by rw [hi]; rfl⟩
  obtain ⟨b, r, ht⟩ := transferred (π := π₁) (tidy_second hσ hfresh hrun hd₁ hs₁) hfresh₁ hε'
    hrun₁.filesSucceed hk (by rw [hi]; simp)
  obtain ⟨hb, hr⟩ := ht.sent hi
  rw [ha, Option.some.injEq, Node.file.injEq] at hb
  subst hb
  have hd : (runSync κ' ε' π₁).2.diskView p = some (Node.file a.content) := diskView_of_file ht.here
  have hs := spaceView_of_file ht.there
  rw [hr] at hs
  rw [← take_recordedSize_iff]
  constructor
  · rintro ⟨y, -, hdy, hsy⟩
    rw [hd] at hdy
    rw [hs, ← hdy, Option.some.injEq, Node.file.injEq] at hsy
    exact hsy
  · intro h
    exact ⟨_, hx, hd, by rw [hs]; exact congrArg (fun c => some (Node.file c)) h⟩

include hj hσ hε hfresh hrun hd₁ hs₁ hfresh₁ hrun₁ in
/-- **A file whose row is still there** ends merged exactly if one of the runs could read its size, or
it is empty: if the first could not, the second uploads it. -/
lemma secondRun_file (hε' : HonestEtags ε') (hfile : isDirPath ε σ p = false) (hp : σ.Present p)
    (hrow : σ₁.journal.baseline p = (runSync κ ε π).2.journal.baseline p) :
    MergedAt ε σ (runSync κ' ε' π₁).2 p ↔
      ε.fails .metadata p = none ∨ ε'.fails .metadata p = none ∨ (agreed κ ε σ p).2 = 0 := by
  obtain ⟨a, r, ht, hx⟩ := firstRun_file (π := π) hj hσ hε hfresh hrun hfile hp
  have ha : σ₁.disk.get p = some (Node.file a) := hd₁ ▸ ht.here
  have hr : σ₁.space.get p = some (Node.file r) := hs₁ ▸ ht.there
  have hfile' : isDirPath ε' σ₁ p = false :=
    isDirPath_eq_false.mpr ⟨by rw [ha]; simp, fun h => by rw [ha] at h; cases h⟩
  rw [ht.agreed]
  dsimp only
  rw [ht.row] at hrow
  by_cases hlen : recordedSize ε p a = a.content.len
  · -- the first run has settled the file
    have hi : instruction κ' ε' σ₁ p = .ignore :=
      (instruction_ignore_files ha hr).mpr (by rw [hrow, hlen])
    obtain ⟨h₁, h₂, -⟩ := kept_of_ignored (π := π₁) (tidy_second hσ hfresh hrun hd₁ hs₁) hfresh₁
      hrun₁.filesSucceed.discovered (Or.inl (by rw [ha]; simp)) hi
    have hac : a.content = r.content := by
      by_cases hup : instruction κ ε σ p = .upload
      · rw [(ht.sent hup).2, hlen, Blob.take_len]
      · exact (ht.got hup).2
    refine ⟨fun _ => ?_, fun _ => ⟨_, hx, diskView_of_file (h₁.trans ha), ?_⟩⟩
    · rcases recordedSize_eq_iff.mp hlen with h | h
      · exact Or.inl h
      · exact Or.inr (Or.inr h)
    · rw [hac]
      exact spaceView_of_file (h₂.trans hr)
  · have hi : instruction κ' ε' σ₁ p = .upload := by
      rw [instruction_files ha hr hrow, if_neg (Ne.symm hlen), if_pos rfl]
    rw [secondRun_upload hσ hfresh hrun hd₁ hs₁ hfresh₁ hrun₁ hε' hfile' ha hi hx]
    have hfirst : ε.fails .metadata p ≠ none := fun h => hlen (recordedSize_eq_iff.mpr (Or.inl h))
    exact (or_iff_right hfirst).symm

include hj hσ hε hfresh hrun hd₁ hs₁ hfresh₁ hrun₁ in
/-- **A file whose row is lost** is in conflict: the second run leaves a copy that is on the disk
alone. -/
lemma secondRun_lost (hfile : isDirPath ε σ p = false) (hp : σ.Present p)
    (hrow : σ₁.journal.baseline p = none) :
    ∃ c, (runSync κ' ε' π₁).2.disk.get c ≠ none ∧ (runSync κ' ε' π₁).2.space.get c = none := by
  obtain ⟨a, r, ht, -⟩ := firstRun_file (π := π) hj hσ hε hfresh hrun hfile hp
  have ha : σ₁.disk.get p = some (Node.file a) := hd₁ ▸ ht.here
  have hr : σ₁.space.get p = some (Node.file r) := hs₁ ▸ ht.there
  have hfile' : isDirPath ε' σ₁ p = false :=
    isDirPath_eq_false.mpr ⟨by rw [ha]; simp, fun h => by rw [ha] at h; cases h⟩
  have hi : instruction κ' ε' σ₁ p = .conflict :=
    instruction_unknown (by rw [ha]; simp) (by rw [hr]; simp) hrow
  obtain ⟨hd, hs, -⟩ := copy_of_conflict (π := π₁) (tidy_second hσ hfresh hrun hd₁ hs₁) hfresh₁
    hrun₁.filesSucceed hfile' hi ha rfl
  exact ⟨_, by rw [hd]; simp, hs⟩

include hj hσ hfresh hrun hd₁ hs₁ hfresh₁ hrun₁ in
/-- **The conflict copies** are uploaded by the second run. -/
lemma secondRun_copy (hε' : HonestEtags ε') {a : LocalFile} {r : RemoteFile}
    (hd : σ.disk.get q = some (Node.file a)) (hs : σ.space.get q = some (Node.file r))
    (hrow : σ₁.journal.baseline (conflictPath q (ε.clock q)) = none) :
    MergedAt ε σ (runSync κ' ε' π₁).2 (conflictPath q (ε.clock q)) ↔
      ε'.fails .metadata (conflictPath q (ε.clock q)) = none ∨ a.content.len = 0 := by
  obtain ⟨-, ha, hr, -⟩ := firstRun_copy (π := π) hj hσ hfresh hrun hd hs
  rw [← hd₁] at ha
  rw [← hs₁] at hr
  have hfile' : isDirPath ε' σ₁ (conflictPath q (ε.clock q)) = false :=
    isDirPath_eq_false.mpr ⟨by rw [ha]; simp, fun h => by rw [ha] at h; cases h⟩
  exact secondRun_upload hσ hfresh hrun hd₁ hs₁ hfresh₁ hrun₁ hε' hfile' ha
    (instruction_newLocal (by rw [ha]; simp) hr hrow) (InMerge.copy hd hs)

include hj hσ hfresh hrun hd₁ hs₁ hrun₁ in
/-- Nothing else appears, where no row is lost. -/
lemma secondRun_missing (hp : ¬ σ.Present p) (hcopy : ¬ ConflictCopy κ ε σ p)
    (hcopy₁ : ¬ ConflictCopy κ' ε' σ₁ p) : MissingAt ε σ (runSync κ' ε' π₁).2 p := by
  obtain ⟨hd, hs⟩ := absent_of_absent (π := π) hσ hrun.filesSucceed hp hcopy
  refine ⟨fun x => not_inMerge hσ hj hp hcopy,
    absent_of_absent (tidy_second hσ hfresh hrun hd₁ hs₁) hrun₁.filesSucceed ?_ hcopy₁⟩
  unfold State.Present
  rw [hd₁, hs₁, hd, hs]
  simp

end Second

/-! ## Both runs -/

/-- The first sync converges and loses nothing: both sides hold the same paths, types and contents;
every file of the server has its content at its path; and every local file has its content at its
path, or at its conflict copy where the server had a file. -/
structure Converges (ε : Env) (σ s : State) : Prop where
  same : ∀ p, s.diskView p = s.spaceView p
  remote : ∀ p r, σ.space.get p = some (Node.file r) →
    s.diskView p = some (Node.file r.content)
  own : ∀ p a, σ.disk.get p = some (Node.file a) → (∀ r, σ.space.get p ≠ some (Node.file r)) →
    s.diskView p = some (Node.file a.content)
  copy : ∀ p a r, σ.disk.get p = some (Node.file a) → σ.space.get p = some (Node.file r) →
    s.diskView (conflictPath p (ε.clock p)) = some (Node.file a.content)

/-- The condition: the row of every file is written by the first run and read by the second; one of
them can read the size of the file, and the second that of each conflict copy, unless there is
nothing in it. -/
structure RowsCarryOver (κ : EngineConfig) (ε : Env) (ω : Calls) (σ : State) (ε' : Env)
    (ω' : Calls) : Prop where
  rows : ∀ p, isDirPath ε σ p = false → σ.Present p →
    ω.unwritten p = false ∧ ω'.unread p = false
  sizes : ∀ p, isDirPath ε σ p = false → σ.Present p →
    ε.fails .metadata p = none ∨ ε'.fails .metadata p = none ∨ (agreed κ ε σ p).2 = 0
  copies : ∀ q a r, σ.disk.get q = some (Node.file a) → σ.space.get q = some (Node.file r) →
    ε'.fails .metadata (conflictPath q (ε.clock q)) = none ∨ a.content.len = 0

/-- The files of the merge are where convergence wants them. -/
lemma Converges.mergedAt (h : Converges ε σ s) {b : Blob} (hx : InMerge ε σ p (Node.file b)) :
    MergedAt ε σ s p := by
  have hd : s.diskView p = some (Node.file b) := by
    generalize hn : Node.file b = x at hx
    cases hx with
    | remote hview =>
        subst hn
        cases hs : σ.space.get p with
        | none => rw [spaceView_eq_none.mpr hs] at hview; cases hview
        | some z =>
            cases z with
            | dir => rw [spaceView_of_dir hs] at hview; cases hview
            | file r =>
                rw [spaceView_of_file hs] at hview
                rw [h.remote p r hs, hview]
    | loc hs hview =>
        subst hn
        cases hd : σ.disk.get p with
        | none => rw [diskView_eq_none.mpr hd] at hview; cases hview
        | some z =>
            cases z with
            | dir => rw [diskView_of_dir hd] at hview; cases hview
            | file a =>
                rw [diskView_of_file hd] at hview
                rw [h.own p a hd (fun r hr => by rw [hs] at hr; cases hr), hview]
    | copy hd hs => exact h.copy _ _ _ hd hs
  exact ⟨_, hx, hd, (h.same p).symm.trans hd⟩

/-- Two trees that are the merge everywhere converge. -/
lemma converges_of_merged (hj : ∀ p, σ.journal p = none) (hσ : Tidy σ)
    (hfresh : FreshConflicts κ ε σ) (h : ∀ p, MergedAt ε σ s p ∨ MissingAt ε σ s p) :
    Converges ε σ s := by
  have hmerge : ∀ {p x}, InMerge ε σ p x → s.diskView p = some x := by
    intro p x hx
    rcases h p with ⟨y, hy, hd, -⟩ | ⟨hno, -⟩
    · rw [hd, InMerge.unique hj hσ hfresh hy hx]
    · exact absurd hx (hno x)
  refine ⟨fun p => ?_, fun p r hr => hmerge (.remote (spaceView_of_file hr)),
    fun p a ha hno => hmerge (.loc ?_ (diskView_of_file ha)), fun p a r ha hr => hmerge (.copy ha hr)⟩
  · rcases h p with ⟨y, -, hd, hs⟩ | ⟨-, hd, hs⟩
    · rw [hd, hs]
    · rw [diskView_eq_none.mpr hd, spaceView_eq_none.mpr hs]
  · cases hz : σ.space.get p with
    | none => rfl
    | some z =>
        cases z with
        | dir => exact absurd hz (hσ.fileLocal p a ha)
        | file r => exact absurd hz (hno r)

section Carried

variable {σ₁ : State} {π₁ : Schedule σ₁} {κ' : EngineConfig}
  (hj : ∀ p, σ.journal p = none) (hσ : Tidy σ) (hε : HonestEtags ε)
  (hfresh : FreshConflicts κ ε σ) (hrun : ErrorFree κ ε π)
  (hd₁ : σ₁.disk = (runSync κ ε π).2.disk) (hs₁ : σ₁.space = (runSync κ ε π).2.space)
  (hrows : ∀ p, isDirPath ε σ p = false → σ.Present p →
    σ₁.journal.baseline p = (runSync κ ε π).2.journal.baseline p)

include hj hσ hε hfresh hrun hd₁ hs₁ hrows in
/-- Where no row is lost the second run has no conflict between files. -/
lemma no_conflict_second (hc : ConflictCopy κ' ε' σ₁ p) : False := by
  obtain ⟨q, hfile, hi, -⟩ := hc
  obtain ⟨hd, hs⟩ := instruction_conflict hi
  obtain ⟨a, ha⟩ := exists_localFile hfile hd
  have ha' : (runSync κ ε π).2.disk.get q = some (Node.file a) := hd₁ ▸ ha
  rcases file_after (π := π) hσ hfresh hrun.filesSucceed (Or.inl ⟨a, ha'⟩) with hk | hcopy
  · obtain ⟨b, r, ht, -⟩ := firstRun_file (π := π) hj hσ hε hfresh hrun hk.file hk.present
    have hb : σ₁.disk.get q = some (Node.file b) := hd₁ ▸ ht.here
    have hr : σ₁.space.get q = some (Node.file r) := hs₁ ▸ ht.there
    rw [instruction_files hb hr ((hrows q hk.file hk.present).trans ht.row), if_pos rfl, if_pos rfl]
      at hi
    split at hi
    · cases hi
    · cases hi
  · rw [hs₁] at hs
    exact hs (copy_after (π := π) hσ hfresh hrun.filesSucceed hcopy).2.1

include hj hσ hfresh hrun in
/-- A path that the first run leaves nowhere has no row. -/
lemma no_row_of_gone (hp : ¬ (runSync κ ε π).2.Present p) : (runSync κ ε π).2.journal p = none := by
  have hdisc := (errorFree_iff.mp hrun).1
  rw [← hj p]
  refine journal_without_task hdisc (fun u hu hup => hp ?_)
  obtain ⟨hne, hpres⟩ := present_of_mem hu
  rw [hup] at hne hpres
  cases hdir : isDirPath ε σ p with
  | true => exact Or.inl (by rw [(firstRun_dir (π := π) hj hσ hfresh hrun hdir).2.1]; simp)
  | false =>
      obtain ⟨a, r, ha, -⟩ := files_of_kept (π := π) hσ hfresh hrun.filesSucceed
        (kept_of_unsynced (κ := κ) hj hdir hpres).1
      exact Or.inl (by rw [ha]; simp)

end Carried

section Silent

variable {ω ω' : Calls} {κ' : EngineConfig} {π' : Schedule (ω.runSync κ ε π).2}
  (hj : ∀ p, σ.journal p = none) (hσ : Tidy σ) (hplain : σ.Plain) (hε : HonestEtags ε)
  (hfresh : FreshConflicts κ ε σ) (hrun : ω.ErrorFree κ ε π)

include hj hplain hrun in
/-- From an empty journal the first run reports what it would with a journal that works. -/
lemma calm_of_silent : ErrorFree κ ε π := by
  have h := (Calls.errorFree_iff (Calls.served_of_plain hplain)).mp hrun
  unfold ErrorFree at h ⊢
  rwa [Calls.runSync_unsynced hj] at h

include hj hplain in
lemma follows_unsynced : ω.Follows σ (runSync κ ε π).2 (ω.runSync κ ε π).2 := by
  have h := follows_of_plain (ω := ω) (κ := κ) (ε := ε) (π := π) hplain
  rwa [Calls.runSync_unsynced hj] at h

include hj hplain in
/-- A row that no task writes is missing in the second run, and so is one that was lost. -/
lemma row_missing (h : (runSync κ ε π).2.journal p = none ∨ ω.unwritten p = true ∨
    ω'.unread p = true) : (ω'.read (ω.runSync κ ε π).2).journal p = none := by
  cases hu : ω'.unread p with
  | true => exact Calls.read_unread hu
  | false =>
      rw [Calls.read_row hu, (follows_unsynced hj hplain).journal, Calls.row, hj p]
      rcases h with h | h | h
      · simp [h]
      · simp [h]
      · rw [hu] at h; cases h

include hj hσ hplain hε hfresh hrun in
/-- Any other row of a file carries over. -/
lemma row_carried (hf : isDirPath ε σ p = false) (hp : σ.Present p) (hw : ω.unwritten p = false)
    (hr : ω'.unread p = false) : (ω'.read (ω.runSync κ ε π).2).journal.baseline p =
      (runSync κ ε π).2.journal.baseline p := by
  obtain ⟨a, r, ht, -⟩ :=
    firstRun_file (π := π) hj hσ hε hfresh (calm_of_silent hj hplain hrun) hf hp
  refine baseline_congr ((Calls.read_row hr).trans
    ((follows_unsynced hj hplain).written hw (fun hn => ?_)))
  have hb := ht.row
  rw [baseline_of_none hn] at hb
  cases hb

include hj hσ hplain hfresh hrun in
/-- It is enough that the names of the second run's conflicts are in neither tree: then they have no
row either. -/
lemma fresh_second (hfresh' : ∀ c, ConflictCopy κ' ε' (ω'.read (ω.runSync κ ε π).2) c →
    ¬ (ω.runSync κ ε π).2.Present c) :
    FreshConflicts κ' ε' (ω'.read (ω.runSync κ ε π).2) := by
  have hend : ω.Follows σ (runSync κ ε π).2 (ω.runSync κ ε π).2 := follows_unsynced hj hplain
  refine fun c hc => ⟨hfresh' c hc, row_missing hj hplain (Or.inl ?_)⟩
  refine no_row_of_gone hj hσ hfresh (calm_of_silent hj hplain hrun)
    (fun hp => hfresh' c hc ?_)
  unfold State.Present at hp ⊢
  rwa [hend.disk, hend.space]

/-! ### Two runs -/

variable (hfresh' : ∀ c, ConflictCopy κ' ε' (ω'.read (ω.runSync κ ε π).2) c →
    ¬ (ω.runSync κ ε π).2.Present c)
  (hε' : HonestEtags ε') (hrun' : ω'.ErrorFree κ' ε' π')

include hj hplain in
/-- The second run finds the trees of the first. -/
lemma read_second (ω' : Calls) :
    (ω'.read (ω.runSync κ ε π).2).disk = (runSync κ ε π).2.disk ∧
      (ω'.read (ω.runSync κ ε π).2).space = (runSync κ ε π).2.space :=
  ⟨(follows_unsynced hj hplain).disk, (follows_unsynced hj hplain).space⟩

include hσ hplain hrun in
lemma plain_second : (ω.runSync κ ε π).2.Plain :=
  plain_after hσ hplain ((Calls.errorFree_iff (Calls.served_of_plain hplain)).mp hrun).filesSucceed

include hσ hplain hrun hrun' in
lemma calm_second : ErrorFree κ' ε' (π'.read ω') :=
  (Calls.errorFree_iff (Calls.served_of_plain (plain_second hσ hplain hrun))).mp hrun'

include hσ hplain hrun in
/-- The second run leaves the same trees, whether or not calls to the journal fail. -/
lemma trees_second (κ' : EngineConfig) (ε' : Env) (ω' : Calls)
    (π' : Schedule (ω.runSync κ ε π).2) :
    (ω'.runSync κ' ε' π').2.disk = (runSync κ' ε' (π'.read ω')).2.disk ∧
      (ω'.runSync κ' ε' π').2.space = (runSync κ' ε' (π'.read ω')).2.space := by
  have hend := follows_of_plain (ω := ω') (κ := κ') (ε := ε') (π := π')
    (plain_second hσ hplain hrun)
  exact ⟨hend.disk, hend.space⟩

include hσ hplain hrun in
lemma mergedAt_second : MergedAt ε σ (ω'.runSync κ' ε' π').2 p ↔
    MergedAt ε σ (runSync κ' ε' (π'.read ω')).2 p := by
  obtain ⟨hd, hs⟩ := trees_second hσ hplain hrun κ' ε' ω' π'
  unfold MergedAt State.diskView State.spaceView
  rw [hd, hs]

include hj hσ hplain hε hfresh hrun hfresh' hε' hrun' in
/-- A file whose row carries over is merged exactly if one of the runs can read its size. -/
lemma file_merged_iff (hf : isDirPath ε σ p = false) (hp : σ.Present p)
    (hw : ω.unwritten p = false) (hr : ω'.unread p = false) :
    MergedAt ε σ (ω'.runSync κ' ε' π').2 p ↔
      ε.fails .metadata p = none ∨ ε'.fails .metadata p = none ∨ (agreed κ ε σ p).2 = 0 :=
  (mergedAt_second hσ hplain hrun).trans (secondRun_file hj hσ hε hfresh
    (calm_of_silent hj hplain hrun) (read_second hj hplain ω').1
    (read_second hj hplain ω').2 (fresh_second hj hσ hplain hfresh hrun hfresh')
    (calm_second hσ hplain hrun hrun') hε' hf hp
    (row_carried hj hσ hplain hε hfresh hrun hf hp hw hr))

include hj hσ hplain hfresh hrun hfresh' hε' hrun' in
/-- A copy is merged exactly if the second run can read its size. -/
lemma copy_merged_iff {a : LocalFile} {r : RemoteFile} (ha : σ.disk.get q = some (Node.file a))
    (hr : σ.space.get q = some (Node.file r)) :
    MergedAt ε σ (ω'.runSync κ' ε' π').2 (conflictPath q (ε.clock q)) ↔
      ε'.fails .metadata (conflictPath q (ε.clock q)) = none ∨ a.content.len = 0 := by
  have hcalm : ErrorFree κ ε π := calm_of_silent hj hplain hrun
  have hrow : (ω'.read (ω.runSync κ ε π).2).journal (conflictPath q (ε.clock q)) = none :=
    row_missing hj hplain (Or.inl (firstRun_copy hj hσ hfresh hcalm ha hr).2.2.2)
  exact (mergedAt_second hσ hplain hrun).trans (secondRun_copy hj hσ hfresh hcalm
    (read_second hj hplain ω').1 (read_second hj hplain ω').2
    (fresh_second hj hσ hplain hfresh hrun hfresh') (calm_second hσ hplain hrun hrun') hε' ha hr
    (baseline_of_none hrow))

include hj hσ hplain hε hfresh hrun hfresh' hrun' in
/-- Without its row a file is found in conflict, and the trees end up different. -/
lemma rows_of_converges (h : Converges ε σ (ω'.runSync κ' ε' π').2)
    (hf : isDirPath ε σ p = false) (hp : σ.Present p) :
    ω.unwritten p = false ∧ ω'.unread p = false := by
  by_contra hno
  have hlost : ω.unwritten p = true ∨ ω'.unread p = true := by
    revert hno
    cases ω.unwritten p <;> cases ω'.unread p <;> simp
  have hrow : (ω'.read (ω.runSync κ ε π).2).journal p = none :=
    row_missing hj hplain (Or.inr hlost)
  have hrun₁ : ErrorFree κ' ε' (π'.read ω') := calm_second hσ hplain hrun hrun'
  obtain ⟨c, hd, hs⟩ := secondRun_lost hj hσ hε hfresh (calm_of_silent hj hplain hrun)
    (read_second hj hplain ω').1 (read_second hj hplain ω').2
    (fresh_second hj hσ hplain hfresh hrun hfresh') hrun₁ hf hp (baseline_of_none hrow)
  obtain ⟨hdisk, hspace⟩ := trees_second hσ hplain hrun κ' ε' ω' π'
  rw [← hdisk] at hd
  rw [← hspace] at hs
  exact hd (diskView_eq_none.mp ((h.same c).trans (spaceView_eq_none.mpr hs)))

include hj hσ hplain hε hfresh hrun hrun' in
/-- Nothing else appears, where no row is lost. -/
lemma missing_second (hrows : ∀ p, isDirPath ε σ p = false → σ.Present p →
      ω.unwritten p = false ∧ ω'.unread p = false)
    (hp : ¬ σ.Present p) (hcopy : ¬ ConflictCopy κ ε σ p) :
    MissingAt ε σ (ω'.runSync κ' ε' π').2 p := by
  have hcalm : ErrorFree κ ε π := calm_of_silent hj hplain hrun
  obtain ⟨hd₁, hs₁⟩ := read_second (κ := κ) (ε := ε) (π := π) hj hplain ω'
  obtain ⟨hno, hd, hs⟩ := secondRun_missing hj hσ hfresh hcalm hd₁ hs₁
    (calm_second hσ hplain hrun hrun') hp hcopy
    (fun hc => no_conflict_second (κ := κ) (π := π) hj hσ hε hfresh hcalm hd₁ hs₁
      (fun p hf hp => row_carried hj hσ hplain hε hfresh hrun hf hp (hrows p hf hp).1
        (hrows p hf hp).2) hc)
  obtain ⟨hdisk, hspace⟩ := trees_second hσ hplain hrun κ' ε' ω' π'
  exact ⟨hno, hdisk ▸ hd, hspace ▸ hs⟩

end Silent

/-- **The first sync converges and loses nothing**, in two runs that report no error, if and only if
the rows carry over. -/
theorem firstSync_converges_iff (κ κ' : EngineConfig) (ε ε' : Env) (ω ω' : Calls) {σ : State}
    (π : Schedule σ) (π' : Schedule (ω.runSync κ ε π).2) (hj : ∀ p, σ.journal p = none)
    (hσ : Tidy σ) (hplain : σ.Plain) (hε : HonestEtags ε) (hε' : HonestEtags ε')
    (hfresh : ∀ c, ConflictCopy κ ε σ c → ¬ σ.Present c)
    (hfresh' : ∀ c, ConflictCopy κ' ε' (ω'.read (ω.runSync κ ε π).2) c →
      ¬ (ω.runSync κ ε π).2.Present c)
    (hrun : ω.ErrorFree κ ε π) (hrun' : ω'.ErrorFree κ' ε' π') :
    Converges ε σ (ω'.runSync κ' ε' π').2 ↔ RowsCarryOver κ ε ω σ ε' ω' := by
  have hfr : FreshConflicts κ ε σ := fun c hc => ⟨hfresh c hc, hj c⟩
  constructor
  · intro h
    have hrows : ∀ p, isDirPath ε σ p = false → σ.Present p →
        ω.unwritten p = false ∧ ω'.unread p = false := fun p =>
      rows_of_converges hj hσ hplain hε hfr hrun hfresh' hrun' h
    refine ⟨hrows, fun p hf hp => ?_, fun q a r ha hr =>
      (copy_merged_iff hj hσ hplain hfr hrun hfresh' hε' hrun' ha hr).mp (h.mergedAt (.copy ha hr))⟩
    obtain ⟨a, r, -, hx⟩ :=
      firstRun_file (π := π) hj hσ hε hfr (calm_of_silent hj hplain hrun) hf hp
    exact (file_merged_iff hj hσ hplain hε hfr hrun hfresh' hε' hrun' hf hp (hrows p hf hp).1
      (hrows p hf hp).2).mp (h.mergedAt hx)
  · intro h
    refine converges_of_merged hj hσ hfr (fun p => ?_)
    by_cases hcopy : ConflictCopy κ ε σ p
    · obtain ⟨q, a, r, ha, hr, rfl⟩ := (conflictCopy_iff hj hσ).mp hcopy
      exact Or.inl ((copy_merged_iff hj hσ hplain hfr hrun hfresh' hε' hrun' ha hr).mpr
        (h.copies q a r ha hr))
    by_cases hp : σ.Present p
    · cases hdir : isDirPath ε σ p with
      | true =>
          exact Or.inl ((mergedAt_second hσ hplain hrun).mpr (secondRun_dir hj hσ hfr
            (calm_of_silent hj hplain hrun) (read_second hj hplain ω').1
            (read_second hj hplain ω').2 (fresh_second hj hσ hplain hfr hrun hfresh')
            (calm_second hσ hplain hrun hrun') hdir))
      | false =>
          obtain ⟨hw, hr⟩ := h.rows p hdir hp
          exact Or.inl ((file_merged_iff hj hσ hplain hε hfr hrun hfresh' hε' hrun' hdir hp hw
            hr).mpr (h.sizes p hdir hp))
    · exact Or.inr (missing_second hj hσ hplain hε hfr hrun hrun' h.rows hp hcopy)

/-- After the first run of `madeTwice`, whatever failed in silence. -/
lemma madeTwice_second {ω : Calls} {p : Path}
    (h : (ω.runSync ⟨.keepBoth, 5000000⟩ Env.calm madeTwiceSchedule).2.Present p) :
    p = [] ∨ p = ["a.txt".toList] ∨ p = ["a_conflict_0.txt".toList] := by
  unfold State.Present at h
  rw [(madeTwice_trees ω).1, (madeTwice_trees ω).2] at h
  exact (madeTwice_after h).imp id (fun hp => by simpa using hp)

/-- The theorem at `madeTwice`, where the second run cannot write any row: the copy gets to the
server. -/
theorem firstSync_madeTwice :
    ({ Calls.sound with unwritten := fun _ => true }.runSync ⟨.keepBoth, 5000000⟩ Env.calm
      (madeTwiceSecond Calls.sound)).2.spaceView ["a_conflict_0.txt".toList] =
        some (Node.file ⟨[7, 8, 9], by decide⟩) := by
  have hconv := (firstSync_converges_iff ⟨.keepBoth, 5000000⟩ ⟨.keepBoth, 5000000⟩ Env.calm Env.calm
    Calls.sound { Calls.sound with unwritten := fun _ => true } madeTwiceSchedule
    (madeTwiceSecond Calls.sound) (fun _ => rfl) madeTwice_tidy madeTwice_plain
    calm_honest.toHonestEtags calm_honest.toHonestEtags
    (fun c hc => (madeTwice_fresh _ Calls.sound c hc).1) (fun c hc _ => ?_)
    (madeTwice_silent _) ((Calls.errorFree_iff (fun _ _ => rfl)).mpr
      (errorFree_iff.mpr ⟨rfl, by decide⟩))).mpr
    ⟨fun _ _ _ => ⟨rfl, rfl⟩, fun _ _ _ => Or.inl rfl, fun _ _ _ _ _ => Or.inl rfl⟩
  · rw [← hconv.same]
    exact hconv.copy ["a.txt".toList] ⟨⟨[7, 8, 9], by decide⟩, 9⟩
      ⟨⟨[8, 9], by decide⟩, "e2".toList⟩ (by decide) (by decide)
  · -- the second run has no conflict
    obtain ⟨q, hq, hi, rfl⟩ := hc
    rcases madeTwice_second (Or.inl (instruction_conflict hi).1) with rfl | rfl | rfl
    · exact absurd rfl (ne_nil_of_file hq)
    · exact absurd hi (by decide)
    · exact absurd hi (by decide)

/-- If the row of `a.txt` is lost in the first run, the second sets the file aside once more, and that
copy is not on the server. -/
theorem lost_row_diverges :
    ¬ ∀ (κ κ' : EngineConfig) (ε ε' : Env) (ω ω' : Calls) (σ : State) (π : Schedule σ)
      (π' : Schedule (ω.runSync κ ε π).2), (∀ p, σ.journal p = none) → Tidy σ → σ.Plain →
      HonestEtags ε → HonestEtags ε' → (∀ c, ConflictCopy κ ε σ c → ¬ σ.Present c) →
      (∀ c, ConflictCopy κ' ε' (ω'.read (ω.runSync κ ε π).2) c →
        ¬ (ω.runSync κ ε π).2.Present c) →
      ω.ErrorFree κ ε π → ω'.ErrorFree κ' ε' π' → Converges ε σ (ω'.runSync κ' ε' π').2 := by
  intro h
  have hconv := h ⟨.keepBoth, 5000000⟩ ⟨.keepBoth, 5000000⟩ Env.calm
    { Env.calm with clock := fun _ => 1 } { Calls.sound with unwritten := fun _ => true } Calls.sound
    madeTwice madeTwiceSchedule (madeTwiceSecond _) (fun _ => rfl) madeTwice_tidy madeTwice_plain
    calm_honest.toHonestEtags ⟨fun _ _ => rfl, fun _ => rfl⟩
    (fun c hc => (madeTwice_fresh _ Calls.sound c hc).1) ?_ (madeTwice_silent _)
    ((Calls.errorFree_iff (fun _ _ => rfl)).mpr (errorFree_iff.mpr ⟨rfl, by decide⟩))
  · exact absurd (hconv.same ["a_conflict_1.txt".toList]) (by decide)
  · rintro c ⟨q, hq, hi, rfl⟩ hp
    rcases madeTwice_second (Or.inl (instruction_conflict hi).1) with rfl | rfl | rfl
    · exact absurd rfl (ne_nil_of_file hq)
    · rcases madeTwice_second hp with hc | hc | hc
      · cases hc
      · exact absurd hc (by decide)
      · exact absurd hc (by decide)
    · exact absurd hi (by decide)

end OwncloudSync
