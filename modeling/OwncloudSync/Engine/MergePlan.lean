import OwncloudSync.Engine.Convergence
import OwncloudSync.Engine.Detection
import OwncloudSync.Lib.ThreeWay
import Mathlib.Tactic.Common

/-!
# What a merge is to do

The journal remembers the tree of the last sync, the base.  `Rooted` says of a state that its trees
go back to such a base by changes a run can tell.

* What has changed can be seen: a local edit changes the size, another etag is another content.
* Nothing new is below a directory that the other side has removed, for `remove_dir_all` and
  DELETE take whatever they find.
* What is there has the row of the base (`Journal.Records`), but for directories on both sides,
  which may have none.  Rows of paths that are gone do no harm.

`Divergent` lets both sides change a path; with `Resumable` every path is on one side as it was, and
`Mergeable` asks for the journal of the base itself.

`Change` is what can have happened to a path then, and gives its instruction.  The last section says
what is to be at a path in the end, **the three-way merge of the two trees over the base**
(`merged`), by the instruction that is to bring it there.
-/

namespace OwncloudSync

open PathTree ThreeWay

/-- A tree with its contents, as `State.diskView` and `State.spaceView` give it. -/
abbrev TreeView := Path → Option (Node Blob)

/-- The row of a path whose last sync left the node there. -/
def Journal.Records (j : Journal) (p : Path) : Option (Node Blob) → Prop
  | none => j p = none
  | some Node.dir => j.baseline p = some ([], 0)
  | some (Node.file c) => ∃ e, j.baseline p = some (e, c.len)

/-- The server has at the path what the base has, under the etag of the row. -/
def State.RemoteUnchanged (σ : State) (B : TreeView) (p : Path) : Prop :=
  σ.spaceView p = B p ∧ ∀ r, σ.space.get p = some (Node.file r) →
    ∃ n, σ.journal.baseline p = some (trimQuotes r.etag, n)

/-- The path is on both sides and in the journal as the tree has it. -/
structure AsIn (V : TreeView) (p : Path) (s : State) : Prop where
  here : s.diskView p = V p
  there : s.RemoteUnchanged V p
  row : p ≠ [] → s.journal.Records p (V p)

/-- Both sides and the journal agree on the tree. -/
def InSync (V : TreeView) (s : State) : Prop := ∀ p, AsIn V p s

/-- Two directories without a row. -/
def State.Unrecorded (σ : State) (p : Path) : Prop :=
  σ.disk.get p = some Node.dir ∧ σ.space.get p = some Node.dir ∧ σ.journal p = none

/-- The two trees go back to the base: what is there has its row, and changes are visible.  The
journal may lack rows of directories that both sides have, and have rows of paths that are gone. -/
structure Rooted (B : TreeView) (σ : State) : Prop where
  rows : ∀ p, p ≠ [] → σ.Present p → σ.journal.Records p (B p) ∨ σ.Unrecorded p
  sizes : ∀ p a c, σ.disk.get p = some (Node.file a) → B p = some (Node.file c) →
    a.content.len = c.len → a.content = c
  etags : ∀ p r c, σ.space.get p = some (Node.file r) → B p = some (Node.file c) →
    σ.journal.baseline p = some (trimQuotes r.etag, c.len) → r.content = c
  removedHere : ∀ d p, d <:+ p → B d ≠ none → σ.disk.get d = none → B p = none →
    σ.space.get p = none
  removedThere : ∀ d p, d <:+ p → B d ≠ none → σ.space.get d = none → B p = none →
    σ.disk.get p = none

/-- Each path has changed on one side at most since the base. -/
structure Resumable (B : TreeView) (σ : State) : Prop extends Rooted B σ where
  oneSided : ∀ p, σ.diskView p = B p ∨ σ.RemoteUnchanged B p

/-- Both sides may have changed a path, but they have not both made a file of a directory, or a
directory of a file. -/
structure Divergent (B : TreeView) (σ : State) : Prop extends Rooted B σ where
  dirs : ∀ p a r, B p = some Node.dir → σ.disk.get p = some (Node.file a) →
    σ.space.get p ≠ some (Node.file r)
  files : ∀ p c, B p = some (Node.file c) → σ.disk.get p = some Node.dir →
    σ.space.get p ≠ some Node.dir

/-- The same with the journal of the base itself. -/
structure Mergeable (B : TreeView) (σ : State) : Prop extends Resumable B σ where
  records : ∀ p, p ≠ [] → σ.journal.Records p (B p)

/-- The tree a run is to leave. -/
def merged (B : TreeView) (σ : State) : TreeView := merge B σ.diskView σ.spaceView

variable {κ : EngineConfig} {ε : Env} {σ s : State} {π : Schedule σ} {B V : TreeView} {p q : Path}
  {t u : Item}

/-! ## What has happened to a path -/

/-- **The ways a path can have changed since the base.** -/
inductive Change (B : TreeView) (σ : State) (p : Path) : Prop
  | absent (hd : σ.disk.get p = none) (hs : σ.space.get p = none) (hb : B p = none)
  | dirs (hd : σ.disk.get p = some Node.dir) (hs : σ.space.get p = some Node.dir)
      (hb : B p = some Node.dir)
  | newHere (hd : σ.disk.get p ≠ none) (hs : σ.space.get p = none) (hb : B p = none)
  | newThere (hd : σ.disk.get p = none) (hs : σ.space.get p ≠ none) (hb : B p = none)
  | goneHere (hd : σ.disk.get p = none) (hs : σ.space.get p ≠ none)
      (hb : σ.RemoteUnchanged B p)
  | goneThere (hd : σ.disk.get p ≠ none) (hs : σ.space.get p = none) (hb : σ.diskView p = B p)
  | files (a : LocalFile) (r : RemoteFile) (c : Blob) (hd : σ.disk.get p = some (Node.file a))
      (hs : σ.space.get p = some (Node.file r)) (hb : B p = some (Node.file c))
      (hone : a.content = c ∨ σ.RemoteUnchanged B p)

lemma diskView_file_inv {c : Blob} (h : s.diskView p = some (Node.file c)) :
    ∃ a, s.disk.get p = some (Node.file a) ∧ a.content = c := by
  unfold State.diskView at h
  cases hd : s.disk.get p with
  | none => rw [hd] at h; cases h
  | some x =>
      rw [hd] at h
      cases x with
      | dir => cases h
      | file a => cases h; exact ⟨a, rfl, rfl⟩

lemma diskView_dir_inv (h : s.diskView p = some Node.dir) : s.disk.get p = some Node.dir := by
  unfold State.diskView at h
  cases hd : s.disk.get p with
  | none => rw [hd] at h; cases h
  | some x =>
      rw [hd] at h
      cases x with
      | dir => rfl
      | file a => cases h

lemma spaceView_dir_inv (h : s.spaceView p = some Node.dir) : s.space.get p = some Node.dir := by
  unfold State.spaceView at h
  cases hs : s.space.get p with
  | none => rw [hs] at h; cases h
  | some x =>
      rw [hs] at h
      cases x with
      | dir => rfl
      | file r => cases h

lemma spaceView_file_inv {c : Blob} (h : s.spaceView p = some (Node.file c)) :
    ∃ r, s.space.get p = some (Node.file r) ∧ r.content = c := by
  unfold State.spaceView at h
  cases hs : s.space.get p with
  | none => rw [hs] at h; cases h
  | some x =>
      rw [hs] at h
      cases x with
      | dir => cases h
      | file r => cases h; exact ⟨r, rfl, rfl⟩

/-- On both sides of a tidy state: two directories, or two files. -/
lemma Tidy.both (hσ : Tidy σ) (hd : σ.disk.get p ≠ none) (hs : σ.space.get p ≠ none) :
    (σ.disk.get p = some Node.dir ∧ σ.space.get p = some Node.dir) ∨
      ∃ a r, σ.disk.get p = some (Node.file a) ∧ σ.space.get p = some (Node.file r) := by
  obtain ⟨x, hx⟩ := Option.ne_none_iff_exists'.mp hd
  obtain ⟨y, hy⟩ := Option.ne_none_iff_exists'.mp hs
  cases x with
  | dir =>
      cases y with
      | dir => exact Or.inl ⟨hx, hy⟩
      | file r => exact absurd hx (hσ.fileRemote p r hy)
  | file a =>
      cases y with
      | dir => exact absurd hy (hσ.fileLocal p a hx)
      | file r => exact Or.inr ⟨a, r, hx, hy⟩

lemma Resumable.change (h : Resumable B σ) (hσ : Tidy σ) (p : Path) : Change B σ p := by
  have hone := h.oneSided p
  by_cases hd : σ.disk.get p = none
  · have hdv := diskView_eq_none.mpr hd
    by_cases hs : σ.space.get p = none
    · refine .absent hd hs ?_
      rcases hone with hb | hb
      · rw [← hb, hdv]
      · rw [← hb.1, spaceView_eq_none.mpr hs]
    · rcases hone with hb | hb
      · exact .newThere hd hs (hb.symm.trans hdv)
      · exact .goneHere hd hs hb
  · by_cases hs : σ.space.get p = none
    · rcases hone with hb | hb
      · exact .goneThere hd hs hb
      · exact .newHere hd hs (hb.1.symm.trans (spaceView_eq_none.mpr hs))
    · rcases hσ.both hd hs with ⟨hdd, hsd⟩ | ⟨a, r, ha, hr⟩
      · refine .dirs hdd hsd ?_
        rcases hone with hb | hb
        · rw [← hb, diskView_of_dir hdd]
        · rw [← hb.1, spaceView_of_dir hsd]
      · rcases hone with hb | hb
        · exact .files a r a.content ha hr (hb.symm.trans (diskView_of_file ha)) (Or.inl rfl)
        · exact .files a r r.content ha hr (hb.1.symm.trans (spaceView_of_file hr)) (Or.inr hb)

/-! ## The instructions -/

section Rooted

variable (h : Rooted B σ)

include h in
lemma Rooted.baseline_none (hne : p ≠ []) (hp : σ.Present p) (hb : B p = none) :
    σ.journal p = none := by
  rcases h.rows p hne hp with hrow | hun
  · rw [hb] at hrow
    exact hrow
  · exact hun.2.2

include h in
lemma Rooted.baseline_some (hne : p ≠ []) (hp : σ.Present p) (hun : ¬ σ.Unrecorded p)
    (hb : B p ≠ none) : σ.journal.baseline p ≠ none := by
  have hrow := (h.rows p hne hp).resolve_right hun
  obtain ⟨x, hx⟩ := Option.ne_none_iff_exists'.mp hb
  rw [hx] at hrow
  cases x with
  | dir => rw [show σ.journal.baseline p = _ from hrow]; simp
  | file c =>
      obtain ⟨e, he⟩ := hrow
      rw [he]
      simp

include h in
/-- A file has its row. -/
lemma Rooted.file_row {c : Blob} (hne : p ≠ []) (hp : σ.Present p)
    (hb : B p = some (Node.file c)) (hd : σ.disk.get p ≠ some Node.dir) :
    ∃ e, σ.journal.baseline p = some (e, c.len) := by
  have hrow := (h.rows p hne hp).resolve_right (fun hun => hd hun.1)
  rw [hb] at hrow
  exact hrow

include h in
lemma Rooted.goneRemotely_iff (hne : p ≠ []) :
    σ.GoneRemotely p ↔ σ.disk.get p ≠ none ∧ σ.space.get p = none ∧ B p ≠ none := by
  refine and_congr_right (fun hd => and_congr_right (fun hs => ⟨fun hb hn => ?_, fun hb => ?_⟩))
  · exact hb (baseline_of_none (h.baseline_none hne (Or.inl hd) hn))
  · refine h.baseline_some hne (Or.inl hd) (fun hun => ?_) hb
    rw [hun.2.1] at hs
    cases hs

include h in
lemma Rooted.goneLocally_iff (hne : p ≠ []) :
    σ.GoneLocally p ↔ σ.disk.get p = none ∧ σ.space.get p ≠ none ∧ B p ≠ none := by
  refine and_congr_right (fun hd => and_congr_right (fun hs => ⟨fun hb hn => ?_, fun hb => ?_⟩))
  · exact hb (baseline_of_none (h.baseline_none hne (Or.inr hs) hn))
  · refine h.baseline_some hne (Or.inr hs) (fun hun => ?_) hb
    rw [hun.1] at hd
    cases hd

include h in
/-- **Whatever the run does at or below a path it deletes is the same deletion.** -/
lemma Rooted.below_deleted (hu : u ∈ tasks κ ε π) (hbelow : p <:+ u.path) (hne : p ≠ [])
    (hdel : (instruction κ ε σ p).isDelete = true) : u.instr = instruction κ ε σ p := by
  obtain ⟨hune, hup⟩ := present_of_mem hu
  rw [(item_of_mem hu).2.1]
  rcases instruction_isDelete_iff.mp hdel with hg | hg
  · obtain ⟨-, hs, hb⟩ := (h.goneRemotely_iff hne).mp hg
    have hus := σ.space.none_of_below hbelow hs
    have hud := hup.resolve_right (fun hc => hc hus)
    have hub : B u.path ≠ none := fun hn => hud (h.removedThere p u.path hbelow hb hs hn)
    rw [instruction_deleteLocal_iff.mpr hg,
      instruction_deleteLocal_iff.mpr ((h.goneRemotely_iff hune).mpr ⟨hud, hus, hub⟩)]
  · obtain ⟨hd, -, hb⟩ := (h.goneLocally_iff hne).mp hg
    have hud := σ.disk.none_of_below hbelow hd
    have hus := hup.resolve_left (fun hc => hc hud)
    have hub : B u.path ≠ none := fun hn => hus (h.removedHere p u.path hbelow hb hd hn)
    rw [instruction_deleteRemote_iff.mpr hg,
      instruction_deleteRemote_iff.mpr ((h.goneLocally_iff hune).mpr ⟨hud, hus, hub⟩)]

include h in
/-- What is above a transfer is not deleted. -/
lemma Rooted.above_transfer (ht : t ∈ tasks κ ε π) (htrans : t.instr.isDelete = false)
    (habove : p <:+ t.path) (hne : p ≠ []) : (instruction κ ε σ p).isDelete = false := by
  by_contra hc
  rw [Bool.not_eq_false] at hc
  rw [h.below_deleted ht habove hne hc, hc] at htrans
  cases htrans

include h in
/-- What is new is not below anything that is deleted. -/
lemma Rooted.undeleted_new (hp : σ.Present p) (hb : B p = none) : Undeleted κ ε π p := by
  rintro u hu ⟨hdel, hbelow⟩
  obtain ⟨hune, hinstr, -, -⟩ := item_of_mem hu
  rw [hinstr] at hdel
  rcases instruction_isDelete_iff.mp hdel with hg | hg
  · obtain ⟨-, hs, hub⟩ := (h.goneRemotely_iff hune).mp hg
    exact hp.elim (fun hd => hd (h.removedThere u.path p hbelow hub hs hb))
      (fun hc => hc (σ.space.none_of_below hbelow hs))
  · obtain ⟨hd, -, hub⟩ := (h.goneLocally_iff hune).mp hg
    exact hp.elim (fun hc => hc (σ.disk.none_of_below hbelow hd))
      (fun hs => hs (h.removedHere u.path p hbelow hub hd hb))

end Rooted

/-- Two directories are never uploaded: the local size is the recorded one, or there is none. -/
lemma Divergent.dirs_not_uploaded (h : Divergent B σ) (hne : p ≠ [])
    (hd : σ.disk.get p = some Node.dir) (hs : σ.space.get p = some Node.dir) :
    instruction κ ε σ p ≠ .upload := by
  intro hi
  have hunknown : σ.journal p = none → False := by
    intro hnone
    rw [instruction_unknown (by rw [hd]; simp) (by rw [hs]; simp) (baseline_of_none hnone)] at hi
    cases hi
  rcases h.rows p hne (Or.inl (by rw [hd]; simp)) with hrow | hun
  · cases hb : B p with
    | none =>
        rw [hb] at hrow
        exact hunknown hrow
    | some x =>
        cases x with
        | file c => exact h.files p c hb hd hs
        | dir =>
            rw [hb] at hrow
            rw [instruction, localEntry_dir hd, remoteEntry_dir hs,
              show σ.journal.baseline p = some ([], 0) from hrow, reconcile_both, if_pos rfl] at hi
            split at hi
            · cases hi
            · cases hi
  · exact hunknown hun.2.2

section Plan

variable (h : Resumable B σ)

include h in
/-- One side has not changed, so the path is still what it was. -/
lemma Resumable.divergent : Divergent B σ where
  toRooted := h.toRooted
  dirs p a r hb ha hr := by
    rcases h.oneSided p with hc | hc
    · rw [diskView_of_file ha, hb] at hc
      cases hc
    · rw [State.RemoteUnchanged, spaceView_of_file hr, hb] at hc
      cases hc.1
  files p c hb hd hs := by
    rcases h.oneSided p with hc | hc
    · rw [diskView_of_dir hd, hb] at hc
      cases hc
    · rw [State.RemoteUnchanged, spaceView_of_dir hs, hb] at hc
      cases hc.1

include h in
/-- A run of such a state has no conflict of files. -/
lemma Resumable.no_conflict (hσ : Tidy σ) (hfile : isDirPath ε σ p = false) :
    instruction κ ε σ p ≠ .conflict := by
  intro hi
  obtain ⟨hd, hs⟩ := instruction_conflict hi
  cases h.change hσ p with
  | absent hd' => exact hd hd'
  | newThere hd' => exact hd hd'
  | goneHere hd' => exact hd hd'
  | newHere _ hs' => exact hs hs'
  | goneThere _ hs' => exact hs hs'
  | dirs hdd => exact (isDirPath_eq_false.mp hfile).1 hdd
  | files a r c ha hr hb hone =>
      obtain ⟨e, he⟩ := h.file_row (ne_nil_of_file hfile) (Or.inl hd) hb (by rw [ha]; simp)
      rw [instruction_files ha hr he] at hi
      rcases hone with hac | hun
      · rw [if_pos (by rw [hac])] at hi
        split at hi
        · cases hi
        · cases hi
      · obtain ⟨n, hn⟩ := hun.2 r hr
        rw [he, Option.some.injEq, Prod.mk.injEq] at hn
        rw [if_pos hn.1.symm, if_pos hn.1.symm] at hi
        split at hi
        · cases hi
        · cases hi

include h in
lemma Resumable.fresh (hσ : Tidy σ) : FreshConflicts κ ε σ := by
  rintro c ⟨q, hq, hi, -⟩
  exact absurd hi (h.no_conflict hσ hq)

end Plan

/-! ## What is to be at a path -/

lemma merged_of_local (hb : σ.diskView p = B p) : merged B σ p = σ.spaceView p :=
  merge_of_left hb

lemma merged_of_remote (hb : σ.spaceView p = B p) : merged B σ p = σ.diskView p :=
  merge_of_right hb

section Target

variable (h : Resumable B σ) (hσ : Tidy σ)

include h in
/-- Nothing is to be at or below what a run deletes, and a side that has not changed has nothing
there. -/
lemma Resumable.below_deletion (ht : t ∈ tasks κ ε π) (hdel : t.instr.isDelete = true)
    (hbelow : t.path <:+ p) : merged B σ p = none ∧
      (σ.diskView p = B p → σ.space.get p = none) ∧
      (σ.RemoteUnchanged B p → σ.disk.get p = none) := by
  obtain ⟨hne, hinstr, -, -⟩ := item_of_mem ht
  rw [hinstr] at hdel
  rcases instruction_isDelete_iff.mp hdel with hg | hg
  · obtain ⟨-, hs, hb⟩ := (h.goneRemotely_iff hne).mp hg
    have hps := σ.space.none_of_below hbelow hs
    have hview := spaceView_eq_none.mpr hps
    have hclean : B p = none → σ.disk.get p = none := h.removedThere t.path p hbelow hb hs
    refine ⟨?_, fun _ => hps, fun hc => hclean (hc.1.symm.trans hview)⟩
    rcases h.oneSided p with hc | hc
    · exact (merged_of_local hc).trans hview
    · exact merge_of_eq (diskView_eq_none.mpr (hclean (hc.1.symm.trans hview))) hview
  · obtain ⟨hd, -, hb⟩ := (h.goneLocally_iff hne).mp hg
    have hpd := σ.disk.none_of_below hbelow hd
    have hview := diskView_eq_none.mpr hpd
    have hclean : B p = none → σ.space.get p = none := h.removedHere t.path p hbelow hb hd
    refine ⟨?_, fun hc => hclean (hc.symm.trans hview), fun _ => hpd⟩
    rcases h.oneSided p with hc | hc
    · exact merge_of_eq hview (spaceView_eq_none.mpr (hclean (hc.symm.trans hview)))
    · exact (merged_of_remote hc.1).trans hview

include h hσ in
/-- Above an upload there are to be directories. -/
lemma Resumable.above_upload (ht : t ∈ tasks κ ε π) (hi : t.instr = .upload)
    (habove : p <:+ t.path) (hne : p ≠ t.path) : σ.disk.get p = some Node.dir ∧
      merged B σ p = some Node.dir ∧ (σ.space.get p = none → B p = none) := by
  obtain ⟨-, hinstr, -, -⟩ := item_of_mem ht
  have hd := σ.disk.dir_of_below habove hne (instruction_upload (hinstr.symm.trans hi))
  have hnew : σ.space.get p = none → B p = none := by
    intro hs
    have hpne : p ≠ [] := by
      rintro rfl
      rw [σ.space.root] at hs; cases hs
    by_contra hb
    have hdel := h.above_transfer ht (by rw [hi]; rfl) habove hpne
    rw [instruction_deleteLocal_iff.mpr
      ((h.goneRemotely_iff hpne).mpr ⟨by rw [hd]; simp, hs, hb⟩)] at hdel
    cases hdel
  refine ⟨hd, ?_, hnew⟩
  by_cases hs : σ.space.get p = none
  · have hview := (spaceView_eq_none.mpr hs).trans (hnew hs).symm
    exact (merged_of_remote hview).trans (diskView_of_dir hd)
  · rcases hσ.both (by rw [hd]; simp) hs with ⟨-, hc⟩ | ⟨a, _, ha, -⟩
    · exact merge_of_eq (diskView_of_dir hd) (spaceView_of_dir hc)
    · rw [hd] at ha; cases ha

include h hσ in
/-- And above a download. -/
lemma Resumable.above_download (ht : t ∈ tasks κ ε π) (hi : t.instr = .download)
    (habove : p <:+ t.path) (hne : p ≠ t.path) : σ.space.get p = some Node.dir ∧
      merged B σ p = some Node.dir ∧ (σ.disk.get p = none → B p = none) := by
  obtain ⟨-, hinstr, -, -⟩ := item_of_mem ht
  have hs := σ.space.dir_of_below habove hne (instruction_download (hinstr.symm.trans hi))
  have hnew : σ.disk.get p = none → B p = none := by
    intro hd
    have hpne : p ≠ [] := by
      rintro rfl
      rw [σ.disk.root] at hd; cases hd
    by_contra hb
    have hdel := h.above_transfer ht (by rw [hi]; rfl) habove hpne
    rw [instruction_deleteRemote_iff.mpr
      ((h.goneLocally_iff hpne).mpr ⟨hd, by rw [hs]; simp, hb⟩)] at hdel
    cases hdel
  refine ⟨hs, ?_, hnew⟩
  by_cases hd : σ.disk.get p = none
  · have hview := (diskView_eq_none.mpr hd).trans (hnew hd).symm
    exact (merged_of_local hview).trans (spaceView_of_dir hs)
  · rcases hσ.both hd (by rw [hs]; simp) with ⟨hc, -⟩ | ⟨_, r, -, hr⟩
    · exact merge_of_eq (diskView_of_dir hc) (spaceView_of_dir hs)
    · rw [hs] at hr; cases hr

include h hσ in
/-- What is uploaded has changed here, and is to be on both sides. -/
lemma Resumable.uploaded (hne : p ≠ []) (hi : instruction κ ε σ p = .upload) :
    merged B σ p = σ.diskView p ∧ σ.diskView p ≠ B p := by
  have hd := instruction_upload hi
  cases h.change hσ p with
  | absent hc => exact absurd hc hd
  | newThere hc => exact absurd hc hd
  | goneHere hc => exact absurd hc hd
  | newHere _ hs hb =>
      exact ⟨merged_of_remote ((spaceView_eq_none.mpr hs).trans hb.symm),
        fun hc => hd (diskView_eq_none.mp (hc.trans hb))⟩
  | goneThere _ hs hb =>
      have hbs : B p ≠ none := fun hn => hd (diskView_eq_none.mp (hb.trans hn))
      rw [instruction_deleteLocal_iff.mpr ((h.goneRemotely_iff hne).mpr ⟨hd, hs, hbs⟩)] at hi
      cases hi
  | dirs hdd hsd hb => exact absurd hi (h.divergent.dirs_not_uploaded hne hdd hsd)
  | files a r c ha hr hb hone =>
      obtain ⟨e, he⟩ := h.file_row hne (Or.inl hd) hb (by rw [ha]; simp)
      rw [instruction_files ha hr he] at hi
      have hac : a.content ≠ c := by
        intro hc
        rw [if_pos (by rw [hc])] at hi
        split at hi
        · cases hi
        · cases hi
      refine ⟨merged_of_remote (hone.resolve_left hac).1, fun hc => hac ?_⟩
      rw [diskView_of_file ha, hb, Option.some.injEq, Node.file.injEq] at hc
      exact hc

include h hσ in
/-- What is downloaded is to be on both sides; it has changed there, or is a directory that is
here already. -/
lemma Resumable.downloaded (hne : p ≠ []) (hi : instruction κ ε σ p = .download) :
    merged B σ p = σ.spaceView p ∧
      (σ.RemoteUnchanged B p → σ.disk.get p = some Node.dir) := by
  have hs := instruction_download hi
  cases h.change hσ p with
  | absent _ hc => exact absurd hc hs
  | newHere _ hc => exact absurd hc hs
  | goneThere _ hc => exact absurd hc hs
  | newThere hd _ hb =>
      exact ⟨merged_of_local ((diskView_eq_none.mpr hd).trans hb.symm),
        fun hc => absurd (spaceView_eq_none.mp (hc.1.trans hb)) hs⟩
  | goneHere hd _ hb =>
      have hbs : B p ≠ none := fun hn => hs (spaceView_eq_none.mp (hb.1.trans hn))
      rw [instruction_deleteRemote_iff.mpr ((h.goneLocally_iff hne).mpr ⟨hd, hs, hbs⟩)] at hi
      cases hi
  | dirs hdd hsd hb =>
      refine ⟨?_, fun _ => hdd⟩
      rw [spaceView_of_dir hsd]
      exact merge_of_eq (diskView_of_dir hdd) (spaceView_of_dir hsd)
  | files a r c ha hr hb hone =>
      obtain ⟨e, he⟩ := h.file_row hne (Or.inr hs) hb (by rw [ha]; simp)
      rw [instruction_files ha hr he] at hi
      have het : trimQuotes r.etag ≠ e := by
        intro hc
        rw [if_pos hc, if_pos hc] at hi
        split at hi
        · cases hi
        · cases hi
      have hthere : ¬ σ.RemoteUnchanged B p := by
        intro hc
        obtain ⟨n, hn⟩ := hc.2 r hr
        rw [he, Option.some.injEq, Prod.mk.injEq] at hn
        exact het hn.1.symm
      refine ⟨merged_of_local ?_, fun hc => absurd hc hthere⟩
      rw [diskView_of_file ha, hb, hone.resolve_right hthere]

end Target

end OwncloudSync
