import OwncloudSync.Engine.MergeResume
import Mathlib.Tactic.Common

/-!
# A merge with conflicts

Both sides may have changed the same file.  Then the configured strategy decides whose version
stays at the path, and `KeepBoth` sets the local one aside under the name of a conflict copy; two
files that are both new are always in conflict.  `Resolution` says what the result is meant to be,
in terms of the two trees and the base alone:

* the version that stays at its path (`resolved`),
* and the local files that are set aside, under the names of their copies.

**The first run** leaves this on the disk, and on the server all of it but the copies.  What it
leaves can be merged over `resolved` without any conflict, the copies being new, so **the next
run** leaves all of it on both sides (`conflictsSettle`).

Removals are not resolved: what one side has removed and the other has changed is lost, so
`Resolvable` has none of these.
-/

namespace OwncloudSync

open PathTree ThreeWay FileName

variable {κ κ' : EngineConfig} {ε ε' : Env} {σ s : State} {π : Schedule σ} {B V : TreeView}
  {p q : Path} {x : Node Blob}

/-- What one side has removed, the other has not changed. -/
structure Resolvable (B : TreeView) (σ : State) : Prop extends Divergent B σ where
  goneHere : ∀ p, σ.disk.get p = none → σ.space.get p ≠ none → B p = none ∨ σ.RemoteUnchanged B p
  goneThere : ∀ p, σ.space.get p = none → σ.disk.get p ≠ none → B p = none ∨ σ.diskView p = B p

/-- Both sides have a file there, and both have changed it. -/
structure Contested (B : TreeView) (σ : State) (p : Path) : Prop where
  here : ∃ a, σ.disk.get p = some (Node.file a)
  there : ∃ r, σ.space.get p = some (Node.file r)
  changedHere : σ.diskView p ≠ B p
  changedThere : ¬ σ.RemoteUnchanged B p

/-- The local version stays at its path. -/
def LocalStays (κ : EngineConfig) (B : TreeView) (σ : State) (p : Path) : Prop :=
  σ.RemoteUnchanged B p ∨
    Contested B σ p ∧ B p ≠ none ∧ κ.conflictStrategy = .keepLocal

/-- The local version is kept as a copy. -/
def SetAside (κ : EngineConfig) (B : TreeView) (σ : State) (p : Path) : Prop :=
  Contested B σ p ∧ (B p = none ∨ κ.conflictStrategy = .keepBoth)

open Classical in
/-- The version that stays at its path. -/
noncomputable def resolved (κ : EngineConfig) (B : TreeView) (σ : State) : TreeView := fun p =>
  if LocalStays κ B σ p then σ.diskView p else σ.spaceView p

/-- **What both sides are to have in the end.** -/
inductive Resolution (κ : EngineConfig) (ε : Env) (B : TreeView) (σ : State) :
    Path → Node Blob → Prop
  | stays {p : Path} {x : Node Blob} (h : resolved κ B σ p = some x) : Resolution κ ε B σ p x
  | copy {q : Path} {a : LocalFile} (ha : σ.disk.get q = some (Node.file a))
      (h : SetAside κ B σ q) : Resolution κ ε B σ (conflictPath q (ε.clock q)) (Node.file a.content)

/-- Both sides have the path as the tree has it, and the journal would not let a run take it for
anything else. -/
structure Leaves (V : TreeView) (s : State) (p : Path) : Prop where
  here : s.diskView p = V p
  there : s.RemoteUnchanged V p
  row : p ≠ [] → s.Present p → s.journal.Records p (V p) ∨ s.Unrecorded p

lemma AsIn.leaves (h : AsIn V p s) : Leaves V s p :=
  ⟨h.here, h.there, fun hne _ => Or.inl (h.row hne)⟩

lemma resolved_of_local (h : LocalStays κ B σ p) : resolved κ B σ p = σ.diskView p := if_pos h

lemma resolved_of_remote (h : ¬ LocalStays κ B σ p) : resolved κ B σ p = σ.spaceView p := if_neg h

/-- What both sides have in common stays. -/
lemma resolved_of_eq {y : Option (Node Blob)} (hd : σ.diskView p = y) (hs : σ.spaceView p = y) :
    resolved κ B σ p = y := by
  by_cases h : LocalStays κ B σ p
  · exact (resolved_of_local h).trans hd
  · exact (resolved_of_remote h).trans hs

lemma resolved_of_gone (hp : ¬ σ.Present p) : resolved κ B σ p = none :=
  resolved_of_eq (diskView_eq_none.mpr (disk_of_gone hp)) (spaceView_eq_none.mpr (space_of_gone hp))

/-- What only the server has changed is as it has it. -/
lemma not_localStays (hone : ¬ σ.RemoteUnchanged B p) (h : ¬ Contested B σ p) :
    ¬ LocalStays κ B σ p := by
  rintro (hc | ⟨hc, -⟩)
  · exact hone hc
  · exact h hc

/-! ## Where nothing is contested -/

/-- There the resolution is the three-way merge. -/
theorem Resolvable.resolved_of_uncontested (h : Resolvable B σ) (hσ : Tidy σ)
    (hc : ¬ Contested B σ p) : resolved κ B σ p = merged B σ p := by
  by_cases hone : σ.RemoteUnchanged B p
  · rw [merged_of_remote hone.1]
    exact resolved_of_local (Or.inl hone)
  have hremote := resolved_of_remote (κ := κ) (not_localStays hone hc)
  by_cases hlocal : σ.diskView p = B p
  · rw [merged_of_local hlocal]
    exact hremote
  by_cases hview : σ.spaceView p = σ.diskView p
  · rw [hremote, hview]
    exact (merge_of_eq rfl hview).symm
  -- both have changed it, and neither has removed it
  have hd : σ.disk.get p ≠ none := by
    intro hd
    have hs : σ.space.get p ≠ none := fun hs =>
      hview ((spaceView_eq_none.mpr hs).trans (diskView_eq_none.mpr hd).symm)
    rcases h.goneHere p hd hs with hb | hb
    · exact hlocal ((diskView_eq_none.mpr hd).trans hb.symm)
    · exact hone hb
  have hs : σ.space.get p ≠ none := by
    intro hs
    rcases h.goneThere p hs hd with hb | hb
    · exact hone (remoteUnchanged_of_none hs hb)
    · exact hlocal hb
  rcases hσ.both hd hs with ⟨hdd, hsd⟩ | ⟨a, r, ha, hr⟩
  · exact absurd ((spaceView_of_dir hsd).trans (diskView_of_dir hdd).symm) hview
  · exact absurd ⟨⟨a, ha⟩, ⟨r, hr⟩, hlocal, hone⟩ hc

/-! ## What the run decides -/

/-- **The ways a path with two files can have changed**, and what the run does about them. -/
inductive Decision (κ : EngineConfig) (ε : Env) (B : TreeView) (σ : State) (p : Path) : Prop
  | unchanged (hd : σ.diskView p = B p) (hs : σ.RemoteUnchanged B p)
      (hi : instruction κ ε σ p = .ignore)
  | there (hd : σ.diskView p = B p) (hs : ¬ σ.RemoteUnchanged B p)
      (hi : instruction κ ε σ p = .download)
  | here (hd : σ.diskView p ≠ B p) (hs : σ.RemoteUnchanged B p)
      (hi : instruction κ ε σ p = .upload)
  | aside (hc : SetAside κ B σ p) (hi : instruction κ ε σ p = .conflict)
  | remoteKept (hc : Contested B σ p) (hb : B p ≠ none) (hk : κ.conflictStrategy = .keepRemote)
      (hi : instruction κ ε σ p = .download)
  | localKept (hc : Contested B σ p) (hb : B p ≠ none) (hk : κ.conflictStrategy = .keepLocal)
      (hi : instruction κ ε σ p = .upload)

section Decide

variable (h : Divergent B σ) {a : LocalFile} {r : RemoteFile}
  (ha : σ.disk.get p = some (Node.file a)) (hr : σ.space.get p = some (Node.file r))

include ha in
lemma ne_nil_of_localFile : p ≠ [] := by
  rintro rfl
  rw [σ.disk.root] at ha
  cases ha

include h ha in
/-- The size tells whether the local file has changed. -/
lemma Divergent.sameHere_iff {c : Blob} (hb : B p = some (Node.file c)) :
    a.content.len = c.len ↔ σ.diskView p = B p := by
  rw [diskView_of_file ha, hb, Option.some.injEq, Node.file.injEq]
  exact ⟨h.sizes p a c ha hb, congrArg Blob.len⟩

include h hr in
/-- The etag tells whether the server's has. -/
lemma Divergent.sameThere_iff {c : Blob} {e : Str} (hb : B p = some (Node.file c))
    (he : σ.journal.baseline p = some (e, c.len)) :
    trimQuotes r.etag = e ↔ σ.RemoteUnchanged B p := by
  constructor
  · rintro rfl
    refine ⟨?_, fun r' hr' => ?_⟩
    · rw [spaceView_of_file hr, hb, h.etags p r c hr hb he]
    · rw [hr, Option.some.injEq, Node.file.injEq] at hr'
      exact ⟨_, hr' ▸ he⟩
  · rintro ⟨-, hrow⟩
    obtain ⟨n, hn⟩ := hrow r hr
    rw [he, Option.some.injEq, Prod.mk.injEq] at hn
    exact hn.1.symm

include h ha hr in
/-- Two files are dealt with by what has changed. -/
theorem Divergent.decision : Decision κ ε B σ p := by
  have hne := ne_nil_of_localFile ha
  have hp : σ.Present p := Or.inl (by rw [ha]; simp)
  cases hb : B p with
  | none =>
      -- both are new
      refine .aside ⟨⟨⟨a, ha⟩, ⟨r, hr⟩, ?_, ?_⟩, Or.inl hb⟩ ?_
      · rw [diskView_of_file ha, hb]
        simp
      · intro hc
        rw [State.RemoteUnchanged, spaceView_of_file hr, hb] at hc
        cases hc.1
      · exact instruction_unknown (by rw [ha]; simp) (by rw [hr]; simp)
          (baseline_of_none (h.baseline_none hne hp hb))
  | some x =>
      cases x with
      | dir => exact absurd hr (h.dirs p a r hb ha)
      | file c =>
          obtain ⟨e, he⟩ := h.file_row hne hp hb (by rw [ha]; simp)
          have hi := instruction_files (κ := κ) (ε := ε) ha hr he
          by_cases hd : σ.diskView p = B p
          · rw [if_pos ((h.sameHere_iff ha hb).mpr hd)] at hi
            by_cases hs : σ.RemoteUnchanged B p
            · rw [if_pos ((h.sameThere_iff hr hb he).mpr hs)] at hi
              exact .unchanged hd hs hi
            · rw [if_neg (fun hc => hs ((h.sameThere_iff hr hb he).mp hc))] at hi
              exact .there hd hs hi
          · rw [if_neg (fun hc => hd ((h.sameHere_iff ha hb).mp hc))] at hi
            by_cases hs : σ.RemoteUnchanged B p
            · rw [if_pos ((h.sameThere_iff hr hb he).mpr hs)] at hi
              exact .here hd hs hi
            · rw [if_neg (fun hc => hs ((h.sameThere_iff hr hb he).mp hc))] at hi
              have hc : Contested B σ p := ⟨⟨a, ha⟩, ⟨r, hr⟩, hd, hs⟩
              cases hk : κ.conflictStrategy with
              | keepBoth => exact .aside ⟨hc, Or.inr hk⟩ (by rw [hi, hk])
              | keepRemote => exact .remoteKept hc (by rw [hb]; simp) hk (by rw [hi, hk])
              | keepLocal => exact .localKept hc (by rw [hb]; simp) hk (by rw [hi, hk])

end Decide

/-- What is set aside is what the run has a conflict about. -/
lemma Divergent.conflictCopy_iff (h : Divergent B σ) (hσ : Tidy σ) :
    ConflictCopy κ ε σ p ↔ ∃ q, SetAside κ B σ q ∧ p = conflictPath q (ε.clock q) := by
  have hdecide : ∀ {q}, Contested B σ q → Decision κ ε B σ q := by
    rintro q ⟨⟨a, ha⟩, ⟨r, hr⟩, -, -⟩
    exact h.decision ha hr
  constructor
  · rintro ⟨q, hf, hi, hp⟩
    obtain ⟨hd, hs⟩ := instruction_conflict hi
    rcases hσ.both hd hs with ⟨hc, -⟩ | ⟨a, r, ha, hr⟩
    · exact absurd hc (isDirPath_eq_false.mp hf).1
    · cases h.decision (κ := κ) (ε := ε) ha hr with
      | aside hc => exact ⟨q, hc, hp⟩
      | unchanged _ _ hi' => rw [hi] at hi'; cases hi'
      | there _ _ hi' => rw [hi] at hi'; cases hi'
      | here _ _ hi' => rw [hi] at hi'; cases hi'
      | remoteKept _ _ _ hi' => rw [hi] at hi'; cases hi'
      | localKept _ _ _ hi' => rw [hi] at hi'; cases hi'
  · rintro ⟨q, hc, hp⟩
    obtain ⟨a, ha⟩ := hc.1.here
    refine ⟨q, isDirPath_eq_false.mpr ⟨by rw [ha]; simp, fun hn => ?_⟩, ?_, hp⟩
    · rw [ha] at hn
      cases hn
    · cases hdecide hc.1 with
      | aside _ hi => exact hi
      | unchanged hd => exact absurd hd hc.1.changedHere
      | there hd => exact absurd hd hc.1.changedHere
      | here _ hs => exact absurd hs hc.1.changedThere
      | remoteKept _ hb hk =>
          rcases hc.2 with hn | hn
          · exact absurd hn hb
          · rw [hk] at hn; cases hn
      | localKept _ hb hk =>
          rcases hc.2 with hn | hn
          · exact absurd hn hb
          · rw [hk] at hn; cases hn

/-! ## Deletions -/

section Deleted

variable (h : Rooted B σ) (hne : p ≠ []) (hdel : (instruction κ ε σ p).isDelete = true)

include h hne hdel in
/-- Nothing that is done at or below a deleted path brings anything there. -/
lemma Rooted.no_transfer {u : Item} (hu : u ∈ tasks κ ε π) (hbelow : p <:+ u.path) :
    u.instr ≠ .upload ∧ u.instr ≠ .download ∧ u.instr ≠ .conflict := by
  rw [h.below_deleted hu hbelow hne hdel]
  refine ⟨fun hi => ?_, fun hi => ?_, fun hi => ?_⟩
  · rw [hi] at hdel; cases hdel
  · rw [hi] at hdel; cases hdel
  · rw [hi] at hdel; cases hdel

include h hne hdel in
lemma Rooted.space_stays_gone {u : Item} (hu : u ∈ tasks κ ε π) (hs : s.space.get p = none) :
    (exec κ ε u s).1.space.get p = none := by
  rcases exec_space_none (κ := κ) (ε := ε) (t := u) hs with hc | ⟨hi, hc⟩
  · exact hc
  refine absurd hi (h.no_transfer hne hdel hu ?_).1
  rcases hc with ⟨-, hp, -⟩ | ⟨-, hp, -⟩ | ⟨-, hp, -⟩
  · exact hp ▸ List.suffix_refl p
  · exact hp.trans (List.tail_suffix u.path)
  · exact hp ▸ List.suffix_refl p

include h hne hdel in
lemma Rooted.disk_stays_gone (hσ : Tidy σ) (hfresh : FreshConflicts κ ε σ) {u : Item}
    (hu : u ∈ tasks κ ε π) (hs : s.disk.get p = none) : (exec κ ε u s).1.disk.get p = none := by
  have hp : σ.Present p := by
    rcases instruction_isDelete_iff.mp hdel with hg | hg
    · exact Or.inl hg.1
    · exact Or.inr hg.2.1
  obtain ⟨hune, hup⟩ := present_of_mem hu
  obtain ⟨-, hinstr, hud, -⟩ := item_of_mem hu
  have hnofetch : p <:+ u.path → ¬ u.fetches := by
    rintro hbelow ⟨-, hi | hi⟩
    · exact (h.no_transfer hne hdel hu hbelow).2.1 hi
    · exact (h.no_transfer hne hdel hu hbelow).2.2 hi
  rcases exec_disk_none (κ := κ) (ε := ε) (t := u) hs with hc | hc
  · exact hc
  rcases hc with ⟨hi, -, hbelow, -⟩ | ⟨hf, hbelow, -⟩ | ⟨hf, hc | hc⟩ | ⟨hf, hi, hc⟩
  · exact absurd hi (h.no_transfer hne hdel hu hbelow).2.1
  · exact absurd hf (hnofetch (hbelow.trans (List.tail_suffix u.path)))
  · exact absurd hf (hnofetch (hc ▸ List.suffix_refl p))
  · exact absurd (hc ▸ hp) (hσ.tmp_absent hup hune)
  · exact absurd hp (hfresh p ⟨u.path, hud.symm.trans hf, hinstr.symm.trans hi, hc⟩).1

include h hne hdel in
/-- A deleted path is on neither side at the end, a directory as well as a file. -/
lemma Rooted.absent_of_deleted (hσ : Tidy σ) (hfresh : FreshConflicts κ ε σ)
    (hrun : ErrorFree κ ε π) : Absent p (runSync κ ε π).2 := by
  have hp : σ.Present p := by
    rcases instruction_isDelete_iff.mp hdel with hg | hg
    · exact Or.inl hg.1
    · exact Or.inr hg.2.1
  have ht : itemOf κ ε σ p ∈ tasks κ ε π :=
    itemOf_mem_tasks hne hp (fun hc => by rw [hc] at hdel; cases hdel)
  obtain ⟨y, hy⟩ := runSync_state (κ := κ) (π := π) (errorFree_iff.mp hrun).1
  rw [hy]
  rcases instruction_isDelete_iff.mp hdel with hg | hg
  · have hi : (itemOf κ ε σ p).instr = .deleteLocal := instruction_deleteLocal_iff.mpr hg
    refine ⟨TaskRun.run_establish (Q := fun s : State => s.disk.get p = none) ht
      (fun pre post hsplit => (exec_deleteLocal_ok hne hi (hrun.ok_at hsplit)).1)
      (fun pre post u hsplit _ hQ => ?_), ?_⟩
    · exact h.disk_stays_gone hne hdel hσ hfresh (mem_of_split hsplit) hQ
    · exact TaskRun.run_invariant (s := σ.started) (I := fun s : State => s.space.get p = none)
        hg.2.1 (fun u hu s hs => h.space_stays_gone hne hdel hu hs)
  · have hi : (itemOf κ ε σ p).instr = .deleteRemote := instruction_deleteRemote_iff.mpr hg
    refine ⟨TaskRun.run_invariant (s := σ.started) (I := fun s : State => s.disk.get p = none)
      hg.1 (fun u hu s hs => h.disk_stays_gone hne hdel hσ hfresh hu hs),
      TaskRun.run_establish (Q := fun s : State => s.space.get p = none) ht
        (fun pre post hsplit => (exec_deleteRemote_ok hne hi (hrun.ok_at hsplit)).1)
        (fun pre post u hsplit _ hQ => ?_)⟩
    exact h.space_stays_gone hne hdel (mem_of_split hsplit) hQ

end Deleted

/-- What is not deleted is not below a deletion. -/
lemma Rooted.undeleted (h : Rooted B σ) (hne : p ≠ []) (hp : σ.Present p)
    (hdel : (instruction κ ε σ p).isDelete = false) : Undeleted κ ε π p := by
  by_cases hd : σ.disk.get p = none
  · refine h.undeleted_new hp ?_
    by_contra hb
    rw [instruction_deleteRemote_iff.mpr ((h.goneLocally_iff hne).mpr
      ⟨hd, hp.resolve_left (fun hc => hc hd), hb⟩)] at hdel
    cases hdel
  · by_cases hs : σ.space.get p = none
    · refine h.undeleted_new hp ?_
      by_contra hb
      rw [instruction_deleteLocal_iff.mpr ((h.goneRemotely_iff hne).mpr ⟨hd, hs, hb⟩)] at hdel
      cases hdel
    · exact undeleted_of_both hd hs

/-- Nothing is to stay where the run deletes. -/
lemma Resolvable.resolved_of_deleted (h : Resolvable B σ) (hne : p ≠ [])
    (hdel : (instruction κ ε σ p).isDelete = true) : resolved κ B σ p = none := by
  rcases instruction_isDelete_iff.mp hdel with hg | hg
  · obtain ⟨-, hs, hb⟩ := (h.goneRemotely_iff hne).mp hg
    have hview := spaceView_eq_none.mpr hs
    refine (resolved_of_remote (not_localStays (fun hc => ?_) (fun hc => ?_))).trans hview
    · exact hb (hc.1.symm.trans hview)
    · obtain ⟨r, hr⟩ := hc.there
      rw [hs] at hr; cases hr
  · obtain ⟨hd, hs, hb⟩ := (h.goneLocally_iff hne).mp hg
    exact (resolved_of_local (Or.inl ((h.goneHere p hd hs).resolve_left hb))).trans
      (diskView_eq_none.mpr hd)

/-! ## The first run -/

section FirstRun

variable (h : Resolvable B σ) (hσ : Tidy σ) (hfresh : FreshConflicts κ ε σ) (hε : Honest ε)
  (hrun : ErrorFree κ ε π)

lemma Leaves.ofAbsent (ha : Absent p s) (hV : V p = none) : Leaves V s p :=
  ⟨(diskView_eq_none.mpr ha.1).trans hV.symm, remoteUnchanged_of_none ha.2 hV,
    fun _ hp => (hp.elim (fun hd => hd ha.1) (fun hs => hs ha.2)).elim⟩

include h hσ hfresh hε hrun in
/-- An upload leaves the local version. -/
lemma Resolvable.leaves_of_upload (hfile : isDirPath ε σ p = false) (hp : σ.Present p)
    (hi : instruction κ ε σ p = .upload) (hstays : LocalStays κ B σ p) :
    Leaves (resolved κ B σ) (runSync κ ε π).2 p := by
  have hdel : (instruction κ ε σ p).isDelete = false := by rw [hi]; rfl
  have hsync := synced_of_task hσ hfresh hε hrun.filesSucceed hfile hp hdel (by rw [hi]; simp)
  have hkept := disk_of_upload (π := π) hσ hfresh hrun.filesSucceed.discovered
    (h.undeleted (ne_nil_of_file hfile) hp hdel) hi
  refine (AsIn.ofSynced hsync ?_).leaves
  rw [resolved_of_local hstays, State.diskView, hkept]
  rfl

include h hσ hfresh hε hrun in
/-- A download and a conflict leave the server's. -/
lemma Resolvable.leaves_of_fetch (hfile : isDirPath ε σ p = false) (hp : σ.Present p)
    (hi : instruction κ ε σ p = .download ∨ instruction κ ε σ p = .conflict)
    (hgives : ¬ LocalStays κ B σ p) : Leaves (resolved κ B σ) (runSync κ ε π).2 p := by
  have hdel : (instruction κ ε σ p).isDelete = false := by
    rcases hi with hi | hi
    · rw [hi]; rfl
    · rw [hi]; rfl
  have hnot : instruction κ ε σ p ≠ .ignore ∧ instruction κ ε σ p ≠ .upload := by
    rcases hi with hi | hi
    · rw [hi]; simp
    · rw [hi]; simp
  have hs : σ.space.get p ≠ none := by
    rcases hi with hi | hi
    · exact instruction_download hi
    · exact (instruction_conflict hi).2
  have hsync := synced_of_task hσ hfresh hε hrun.filesSucceed hfile hp hdel hnot.1
  have hkept := space_of_fetch (π := π) hrun.filesSucceed.discovered
    (h.undeleted (ne_nil_of_file hfile) hp hdel) hs (fun _ => hnot.2)
  refine (AsIn.ofSynced hsync ?_).leaves
  obtain ⟨a, r, ha, hr, -, hc⟩ := hsync
  rw [resolved_of_remote hgives, diskView_of_file ha, hc,
    spaceView_of_file (hkept.symm.trans hr)]

include h hσ hfresh hε hrun in
lemma Resolvable.leaves_of_file (hfile : isDirPath ε σ p = false) (hp : σ.Present p)
    (hdel : (instruction κ ε σ p).isDelete = false) :
    Leaves (resolved κ B σ) (runSync κ ε π).2 p := by
  have hne := ne_nil_of_file hfile
  have huncontested : (∀ a r, σ.disk.get p = some (Node.file a) →
      σ.space.get p ≠ some (Node.file r)) → ¬ Contested B σ p := by
    rintro hone ⟨⟨a, ha⟩, ⟨r, hr⟩, -, -⟩
    exact hone a r ha hr
  by_cases hd : σ.disk.get p = none
  · -- new on the server
    have hs := hp.resolve_left (fun hc => hc hd)
    have hb : B p = none := by
      by_contra hb
      rw [instruction_deleteRemote_iff.mpr ((h.goneLocally_iff hne).mpr ⟨hd, hs, hb⟩)] at hdel
      cases hdel
    refine h.leaves_of_fetch hσ hfresh hε hrun hfile hp (Or.inl (instruction_newRemote hd hs
      (baseline_of_none (h.baseline_none hne hp hb)))) (not_localStays (fun hc => ?_) ?_)
    · exact hs (spaceView_eq_none.mp (hc.1.trans hb))
    · exact huncontested (fun a r ha => by rw [hd] at ha; cases ha)
  by_cases hs : σ.space.get p = none
  · -- new here
    have hb : B p = none := by
      by_contra hb
      rw [instruction_deleteLocal_iff.mpr ((h.goneRemotely_iff hne).mpr ⟨hd, hs, hb⟩)] at hdel
      cases hdel
    refine h.leaves_of_upload hσ hfresh hε hrun hfile hp (instruction_newLocal hd hs
      (baseline_of_none (h.baseline_none hne hp hb))) (Or.inl (remoteUnchanged_of_none hs hb))
  rcases hσ.both hd hs with ⟨hc, -⟩ | ⟨a, r, ha, hr⟩
  · exact absurd hc (isDirPath_eq_false.mp hfile).1
  cases h.decision (κ := κ) (ε := ε) ha hr with
  | unchanged hc ht hi =>
      obtain ⟨h₁, h₂, h₃⟩ :=
        kept_of_ignored (π := π) hσ hfresh hrun.filesSucceed.discovered hp hi
      have hkept : Untouched σ (runSync κ ε π).2 p := ⟨h₁, h₂, h₃⟩
      have hV : resolved κ B σ p = B p := (resolved_of_local (Or.inl ht)).trans hc
      refine ⟨hkept.diskView.trans (hc.trans hV.symm), ?_, fun _ _ => ?_⟩
      · rw [hkept.remoteUnchanged, State.RemoteUnchanged, hV]
        exact ht
      · rw [hV, records_congr hkept.row, hkept.unrecorded]
        exact h.rows p hne hp
  | there hc ht hi =>
      exact h.leaves_of_fetch hσ hfresh hε hrun hfile hp (Or.inl hi)
        (not_localStays ht (fun hn => hn.changedHere hc))
  | here _ ht hi => exact h.leaves_of_upload hσ hfresh hε hrun hfile hp hi (Or.inl ht)
  | aside hc hi =>
      refine h.leaves_of_fetch hσ hfresh hε hrun hfile hp (Or.inr hi) ?_
      rintro (ht | ⟨-, hb, hk⟩)
      · exact hc.1.changedThere ht
      · rcases hc.2 with hn | hn
        · exact hb hn
        · rw [hk] at hn; cases hn
  | remoteKept hc _ hk hi =>
      refine h.leaves_of_fetch hσ hfresh hε hrun hfile hp (Or.inl hi) ?_
      rintro (ht | ⟨-, -, hn⟩)
      · exact hc.changedThere ht
      · rw [hk] at hn; cases hn
  | localKept hc hb hk hi =>
      exact h.leaves_of_upload hσ hfresh hε hrun hfile hp hi (Or.inr ⟨hc, hb, hk⟩)

include hrun in
/-- The row of a directory that stays is the old one, or the row of a directory. -/
lemma dir_row_after (hne : p ≠ []) (hp : σ.Present p) (hdir : isDirPath ε σ p = true)
    (hdel : (instruction κ ε σ p).isDelete = false) :
    (runSync κ ε π).2.journal p = σ.journal p ∨
      (runSync κ ε π).2.journal.baseline p = some ([], 0) := by
  have hdisc := (errorFree_iff.mp hrun).1
  by_cases hi : instruction κ ε σ p = .ignore
  · refine Or.inl (journal_without_task hdisc (fun u hu hc => ?_))
    obtain ⟨-, hitem, hnot⟩ := mem_tasks.mp hu
    obtain ⟨-, hinstr, -, -⟩ := item_of_mem hu
    rw [hinstr, hc, hi] at hnot
    exact hnot rfl
  obtain ⟨pre, post, hsplit, hend⟩ := journal_of_task hdisc (itemOf_mem_tasks (π := π) hne hp hi)
  rw [show (itemOf κ ε σ p).path = p from rfl] at hend
  rcases own_row (mem_of_split hsplit) (hrun.ok_at hsplit) with ho | ⟨-, -, fid, ho⟩ | ⟨-, -, ho⟩ |
    ⟨-, ho, -⟩
  · rw [show (itemOf κ ε σ p).instr = instruction κ ε σ p from rfl, hdel] at ho
    cases ho.1
  · exact Or.inr (baseline_dirRow (hend.trans ho))
  · refine Or.inl (hend.trans ?_)
    rw [ho]
    exact journal_before (fun u hu => path_ne_of_before hsplit hu)
  · rw [show (itemOf κ ε σ p).isDir = isDirPath ε σ p from rfl, hdir] at ho
    cases ho

include h hσ hfresh hrun in
lemma Resolvable.leaves_of_dir (hne : p ≠ []) (hdir : isDirPath ε σ p = true)
    (hdel : (instruction κ ε σ p).isDelete = false) :
    Leaves (resolved κ B σ) (runSync κ ε π).2 p := by
  have hp : σ.Present p := by
    rcases isDirPath_iff.mp hdir with hc | ⟨-, hc⟩
    · exact Or.inl (by rw [hc]; simp)
    · exact Or.inr (by rw [hc]; simp)
  have hfree : Undeleted κ ε π p := h.undeleted hne hp hdel
  have hd := disk_dir_of_dir hne hrun hdir hfree
  have hs := space_dir_of_dir hσ hfresh hne hrun hdir hfree
  have hnew : σ.disk.get p = none ∨ σ.space.get p = none → B p = none := by
    intro hc
    by_contra hb
    have hboth := both_of_not_delete hp hdel (h.baseline_some hne hp (fun hun => ?_) hb)
    · exact hc.elim hboth.1 hboth.2
    · rcases hc with hc | hc
      · rw [hun.1] at hc; cases hc
      · rw [hun.2.1] at hc; cases hc
  have hV : resolved κ B σ p = some Node.dir := by
    rcases isDirPath_iff.mp hdir with hdd | ⟨hdn, hsd⟩
    · by_cases hsn : σ.space.get p = none
      · rw [resolved_of_local (Or.inl (remoteUnchanged_of_none hsn (hnew (Or.inr hsn)))),
          diskView_of_dir hdd]
      · rcases hσ.both (by rw [hdd]; simp) hsn with ⟨-, hsd⟩ | ⟨a, _, ha, -⟩
        · exact resolved_of_eq (diskView_of_dir hdd) (spaceView_of_dir hsd)
        · rw [hdd] at ha; cases ha
    · rw [resolved_of_remote, spaceView_of_dir hsd]
      refine not_localStays (fun hc => ?_) (fun hc => ?_)
      · rw [State.RemoteUnchanged, spaceView_of_dir hsd, hnew (Or.inl hdn)] at hc
        cases hc.1
      · obtain ⟨a, ha⟩ := hc.here
        rw [hdn] at ha; cases ha
  refine ⟨(diskView_of_dir hd).trans hV.symm, remoteUnchanged_of_dir hs hV, fun _ _ => ?_⟩
  have hunrecorded : σ.journal p = none → (runSync κ ε π).2.journal p = σ.journal p →
      (runSync κ ε π).2.Unrecorded p := fun hj hkept => ⟨hd, hs, hkept.trans hj⟩
  rw [hV]
  rcases dir_row_after hrun hne hp hdir hdel with hkept | hrow
  · rcases h.rows p hne hp with hold | hun
    · cases hb : B p with
      | none =>
          rw [hb] at hold
          exact Or.inr (hunrecorded hold hkept)
      | some x =>
          cases x with
          | dir =>
              rw [hb] at hold
              exact Or.inl ((baseline_congr hkept).trans hold)
          | file c =>
              -- no path is two directories now that was a file
              have hdn : σ.disk.get p ≠ none := fun hc => by rw [hnew (Or.inl hc)] at hb; cases hb
              have hsn : σ.space.get p ≠ none := fun hc => by rw [hnew (Or.inr hc)] at hb; cases hb
              rcases hσ.both hdn hsn with ⟨hc, hc'⟩ | ⟨a, _, ha, -⟩
              · exact absurd hc' (h.files p c hb hc)
              · rcases isDirPath_iff.mp hdir with hdd | ⟨hdd, -⟩
                · rw [ha] at hdd; cases hdd
                · exact absurd hdd hdn
    · exact Or.inr (hunrecorded hun.2.2 hkept)
  · exact Or.inl hrow

include h hσ hfresh hε hrun in
/-- **The first run leaves at every path what stays there**, but for the copies. -/
theorem Resolvable.leaves (hcopy : ¬ ConflictCopy κ ε σ p) :
    Leaves (resolved κ B σ) (runSync κ ε π).2 p := by
  by_cases hne : p = []
  · subst hne
    have hV : resolved κ B σ [] = some Node.dir :=
      resolved_of_eq (diskView_of_dir σ.disk.root) (spaceView_of_dir σ.space.root)
    exact ⟨(diskView_of_dir (Tree.root _)).trans hV.symm, remoteUnchanged_of_dir (Tree.root _) hV,
      fun hc => absurd rfl hc⟩
  by_cases hp : σ.Present p
  · cases hdel : (instruction κ ε σ p).isDelete with
    | true =>
        exact .ofAbsent (h.absent_of_deleted hne hdel hσ hfresh hrun) (h.resolved_of_deleted hne hdel)
    | false =>
        cases hdir : isDirPath ε σ p with
        | true => exact h.leaves_of_dir hσ hfresh hrun hne hdir hdel
        | false => exact h.leaves_of_file hσ hfresh hε hrun hdir hp hdel
  · exact .ofAbsent (absent_of_absent hσ hrun.filesSucceed hp hcopy) (resolved_of_gone hp)

include h hσ hfresh hrun in
/-- And under the name of a copy the file that is set aside, on the disk alone. -/
lemma Resolvable.leaves_copy {a : LocalFile} (hc : SetAside κ B σ q)
    (ha : σ.disk.get q = some (Node.file a)) :
    (runSync κ ε π).2.diskView (conflictPath q (ε.clock q)) = some (Node.file a.content) ∧
      (runSync κ ε π).2.space.get (conflictPath q (ε.clock q)) = none ∧
      (runSync κ ε π).2.journal (conflictPath q (ε.clock q)) = none ∧
      resolved κ B σ (conflictPath q (ε.clock q)) = none := by
  have hcopy := (h.conflictCopy_iff (κ := κ) (ε := ε) hσ).mpr ⟨q, hc, rfl⟩
  obtain ⟨q', hf, hi, hq⟩ := hcopy
  obtain ⟨b, hb⟩ := exists_localFile hf (instruction_conflict hi).1
  have hqq : q' = q := by
    refine conflictPath_inj hσ (Or.inl (by rw [hb]; simp)) (ne_nil_of_file hf)
      (Or.inl (by rw [ha]; simp)) (ne_nil_of_localFile ha) hq.symm
  subst hqq
  obtain ⟨hd, hs, hj⟩ := copy_of_conflict (π := π) hσ hfresh hrun.filesSucceed hf hi ha rfl
  exact ⟨diskView_of_file hd, hs, hj, resolved_of_gone (hfresh _ ⟨_, hf, hi, rfl⟩).1⟩

include h hσ hfresh hε hrun in
/-- **What the first run leaves can be merged without conflict**: the copies are new here. -/
theorem Resolvable.next : Resumable (resolved κ B σ) (runSync κ ε π).2 := by
  have hcopy : ∀ {p}, ConflictCopy κ ε σ p → (runSync κ ε π).2.space.get p = none ∧
      (runSync κ ε π).2.journal p = none ∧ resolved κ B σ p = none := by
    intro p hc
    obtain ⟨q, hq, rfl⟩ := (h.conflictCopy_iff hσ).mp hc
    obtain ⟨a, ha⟩ := hq.1.here
    exact (h.leaves_copy hσ hfresh hrun hq ha).2
  have hleaves : ∀ {p}, resolved κ B σ p ≠ none → Leaves (resolved κ B σ) (runSync κ ε π).2 p :=
    fun hV => h.leaves hσ hfresh hε hrun (fun hc => hV (hcopy hc).2.2)
  exact
    { rows := fun p hne hp => by
        by_cases hc : ConflictCopy κ ε σ p
        · rw [(hcopy hc).2.2]
          exact Or.inl (hcopy hc).2.1
        · exact (h.leaves hσ hfresh hε hrun hc).row hne hp
      sizes := fun p a c ha hc _ => by
        have hview := (hleaves (p := p) (by rw [hc]; simp)).here
        rw [diskView_of_file ha, hc, Option.some.injEq, Node.file.injEq] at hview
        exact hview
      etags := fun p r c hr hc _ => by
        have hview := (hleaves (p := p) (by rw [hc]; simp)).there.1
        rw [spaceView_of_file hr, hc, Option.some.injEq, Node.file.injEq] at hview
        exact hview
      removedHere := fun d p _ hd hgone _ =>
        absurd ((hleaves hd).here.symm.trans (diskView_eq_none.mpr hgone)) hd
      removedThere := fun d p _ hd hgone _ =>
        absurd ((hleaves hd).there.1.symm.trans (spaceView_eq_none.mpr hgone)) hd
      oneSided := fun p => by
        by_cases hc : ConflictCopy κ ε σ p
        · exact Or.inr (remoteUnchanged_of_none (hcopy hc).1 (hcopy hc).2.2)
        · exact Or.inl (h.leaves hσ hfresh hε hrun hc).here }

end FirstRun

/-! ## The result -/

section Result

variable (h : Resolvable B σ) (hσ : Tidy σ) (hfresh : FreshConflicts κ ε σ)

include h hσ in
lemma Resolvable.resolution_iff (hcopy : ¬ ConflictCopy κ ε σ p) :
    Resolution κ ε B σ p x ↔ resolved κ B σ p = some x := by
  refine ⟨fun hx => ?_, .stays⟩
  cases hx with
  | stays hx => exact hx
  | copy ha hc => exact absurd ((h.conflictCopy_iff hσ).mpr ⟨_, hc, rfl⟩) hcopy

include h hσ hfresh in
lemma Resolvable.resolution_copy_iff {a : LocalFile} (hc : SetAside κ B σ q)
    (ha : σ.disk.get q = some (Node.file a)) :
    Resolution κ ε B σ (conflictPath q (ε.clock q)) x ↔ some (Node.file a.content) = some x := by
  constructor
  · generalize hp : conflictPath q (ε.clock q) = p
    intro hx
    cases hx with
    | stays hx =>
        have hgone := (hfresh p ((h.conflictCopy_iff hσ).mpr ⟨q, hc, hp.symm⟩)).1
        rw [resolved_of_gone hgone] at hx
        cases hx
    | @copy q' a' ha' _ =>
        have hqq : q = q' := conflictPath_inj hσ (Or.inl (by rw [ha]; simp))
          (ne_nil_of_localFile ha) (Or.inl (by rw [ha']; simp)) (ne_nil_of_localFile ha') hp
        subst hqq
        rw [ha, Option.some.injEq, Node.file.injEq] at ha'
        rw [ha']
  · intro hx
    cases hx
    exact .copy ha hc

include h hσ in
/-- Under `KeepBoth` no change is lost: a changed file is at its path or at its copy. -/
lemma Resolvable.keepBoth (hk : κ.conflictStrategy = .keepBoth) :
    (∀ p a, σ.disk.get p = some (Node.file a) → σ.diskView p ≠ B p →
      ∃ q, Resolution κ ε B σ q (Node.file a.content)) ∧
    ∀ p r, σ.space.get p = some (Node.file r) → ¬ σ.RemoteUnchanged B p →
      Resolution κ ε B σ p (Node.file r.content) := by
  refine ⟨fun p a ha hchanged => ?_, fun p r hr hchanged => .stays ?_⟩
  · by_cases hone : σ.RemoteUnchanged B p
    · exact ⟨p, .stays ((resolved_of_local (Or.inl hone)).trans (diskView_of_file ha))⟩
    have hs : σ.space.get p ≠ none := by
      intro hs
      rcases h.goneThere p hs (by rw [ha]; simp) with hb | hb
      · exact hone (remoteUnchanged_of_none hs hb)
      · exact hchanged hb
    rcases hσ.both (by rw [ha]; simp) hs with ⟨hc, -⟩ | ⟨_, r, -, hr⟩
    · rw [ha] at hc; cases hc
    · exact ⟨_, .copy ha ⟨⟨⟨a, ha⟩, ⟨r, hr⟩, hchanged, hone⟩, Or.inr hk⟩⟩
  · refine (resolved_of_remote ?_).trans (spaceView_of_file hr)
    rintro (hc | ⟨-, -, hc⟩)
    · exact hchanged hc
    · rw [hk] at hc; cases hc

end Result

/-- **Conflicts settle.**  A run without errors leaves the resolution on the disk, and all of it but
the copies on the server; the next one that comes to its end leaves it on both sides, however many
were cut short before.  Under `KeepBoth` no change is lost, and where nothing is contested this is
the three-way merge. -/
theorem conflictsSettle (κ : EngineConfig) (ε : Env) (ω : Calls) {σ : State} (π : Schedule σ)
    (B : TreeView) (hσ : Tidy σ) (hplain : σ.Plain) (h : Resolvable B σ)
    (hfresh : FreshConflicts κ ε σ) (hε : Honest ε) (hω : ω.Journaled)
    (hrun : ω.ErrorFree κ ε π) :
    (∀ p x, (ω.runSync κ ε π).2.diskView p = some x ↔ Resolution κ ε B σ p x) ∧
    (∀ p, (ω.runSync κ ε π).2.spaceView p = resolved κ B σ p) ∧
    (∀ s κ' ε' (ω' : Calls) (π' : Schedule s),
      Relation.ReflTransGen CutShort (ω.runSync κ ε π).2 s →
      Honest ε' → ω'.Journaled → ω'.ErrorFree κ' ε' π' → ∀ p x,
        ((ω'.runSync κ' ε' π').2.diskView p = some x ↔ Resolution κ ε B σ p x) ∧
        ((ω'.runSync κ' ε' π').2.spaceView p = some x ↔ Resolution κ ε B σ p x)) ∧
    (κ.conflictStrategy = .keepBoth →
      (∀ p a, σ.disk.get p = some (Node.file a) → σ.diskView p ≠ B p →
        ∃ q, Resolution κ ε B σ q (Node.file a.content)) ∧
      ∀ p r, σ.space.get p = some (Node.file r) → ¬ σ.RemoteUnchanged B p →
        Resolution κ ε B σ p (Node.file r.content)) ∧
    ∀ p, ¬ Contested B σ p → resolved κ B σ p = merged B σ p := by
  have hread := (Calls.errorFree_iff (Calls.served_of_plain hplain)).mp hrun
  have hplain' : (ω.runSync κ ε π).2.Plain := plain_after hσ hplain hread.filesSucceed
  rw [Calls.errorFree_of_plain hplain hω.read] at hrun
  rw [Calls.runSync_of_plain hplain hω] at hplain' ⊢
  have hnext := h.next hσ hfresh hε hrun
  have hdisk : ∀ p x, (runSync κ ε π).2.diskView p = some x ↔ Resolution κ ε B σ p x := by
    intro p x
    by_cases hcopy : ConflictCopy κ ε σ p
    · obtain ⟨q, hq, rfl⟩ := (h.conflictCopy_iff hσ).mp hcopy
      obtain ⟨a, ha⟩ := hq.1.here
      rw [(h.leaves_copy hσ hfresh hrun hq ha).1, h.resolution_copy_iff hσ hfresh hq ha]
    · rw [(h.leaves hσ hfresh hε hrun hcopy).here, h.resolution_iff hσ hcopy]
  have hspace : ∀ p, (runSync κ ε π).2.spaceView p = resolved κ B σ p := by
    intro p
    by_cases hcopy : ConflictCopy κ ε σ p
    · obtain ⟨q, hq, rfl⟩ := (h.conflictCopy_iff hσ).mp hcopy
      obtain ⟨a, ha⟩ := hq.1.here
      obtain ⟨-, hs, -, hV⟩ := h.leaves_copy hσ hfresh hrun hq ha
      rw [spaceView_eq_none.mpr hs, hV]
    · exact (h.leaves hσ hfresh hε hrun hcopy).there.1
  refine ⟨hdisk, hspace, fun s κ' ε' ω' π' hcut hε' hω' hrun' p x => ?_, h.keepBoth hσ,
    fun p => h.resolved_of_uncontested hσ⟩
  obtain ⟨htidy, hsplain, B', hres, hV⟩ :=
    hnext.resumed (hσ.run hfresh hrun.filesSucceed) hplain' hcut
  rw [Calls.errorFree_of_plain hsplain hω'.read] at hrun'
  rw [Calls.runSync_of_plain hsplain hω']
  have hleaves := hres.mergedAt htidy hε' hrun' p
  -- the server has nothing that is new, so the merge is what the disk has
  have hmerged : merged B' s p = (runSync κ ε π).2.diskView p := by
    rw [hV]
    exact merged_of_remote (hspace p)
  rw [hleaves.here, hleaves.there.1, hmerged]
  exact ⟨hdisk p x, hdisk p x⟩

/-! ## A file that both sides have edited -/

/-- A file that was synced under `e1` and edited on both sides. -/
def bothEdited : State where
  disk := Tree.ofList [(["n.txt".toList], Node.file ⟨⟨[60, 61, 62], by decide⟩, 9⟩)]
  space := Tree.ofList [(["n.txt".toList], Node.file ⟨⟨[60, 63], by decide⟩, "e2".toList⟩)]
  journal := Journal.upsertEntry (fun _ => none) ["n.txt".toList]
    (fileRow ["n.txt".toList] "e1".toList 1 none)
  sync := ⟨.idle, fun _ => none⟩

/-- The file before the two edits. -/
def beforeEdits : TreeView := fun p =>
  if p = [] then some Node.dir
  else if p = ["n.txt".toList] then some (Node.file ⟨[60], by decide⟩)
  else none

lemma bothEdited_cases (p : Path) : p = [] ∨ p = ["n.txt".toList] ∨
    (bothEdited.disk.get p = none ∧ bothEdited.space.get p = none ∧ bothEdited.journal p = none ∧
      beforeEdits p = none) := by
  by_cases h₀ : p = []
  · exact Or.inl h₀
  by_cases hn : p = ["n.txt".toList]
  · exact Or.inr (Or.inl hn)
  refine Or.inr (Or.inr ⟨?_, ?_, ?_, ?_⟩)
  · by_contra hc
    have hmem : p = [] ∨ p = ["n.txt".toList] := by simpa using Tree.ofList_mem hc
    exact hmem.elim h₀ hn
  · by_contra hc
    have hmem : p = [] ∨ p = ["n.txt".toList] := by simpa using Tree.ofList_mem hc
    exact hmem.elim h₀ hn
  · simp only [bothEdited, Journal.upsertEntry, if_neg hn]
  · simp only [beforeEdits, if_neg h₀, if_neg hn]

lemma bothEdited_tidy : Tidy bothEdited where
  fileLocal p a ha := by
    rcases bothEdited_cases p with rfl | rfl | h
    · rw [bothEdited.disk.root] at ha; cases ha
    · decide
    · rw [h.1] at ha; cases ha
  fileRemote p r hr := by
    rcases bothEdited_cases p with rfl | rfl | h
    · rw [bothEdited.space.root] at hr; cases hr
    · decide
    · rw [h.2.1] at hr; cases hr
  names n p hp := by
    rcases bothEdited_cases (n :: p) with h | h | h
    · cases h
    · cases h; decide
    · exact absurd hp (fun hc => hc.elim (fun hd => hd h.1) (fun hs => hs h.2.1))

lemma bothEdited_resolvable : Resolvable beforeEdits bothEdited where
  rows p hne hp := by
    rcases bothEdited_cases p with rfl | rfl | h
    · exact absurd rfl hne
    · exact Or.inl ⟨"e1".toList, by decide⟩
    · exact absurd hp (fun hc => hc.elim (fun hd => hd h.1) (fun hs => hs h.2.1))
  sizes p a c ha hc hlen := by
    rcases bothEdited_cases p with rfl | rfl | h
    · rw [bothEdited.disk.root] at ha; cases ha
    · cases ha
      cases hc
      exact absurd hlen (by decide)
    · rw [h.1] at ha; cases ha
  etags p r c hr hc hrow := by
    rcases bothEdited_cases p with rfl | rfl | h
    · rw [bothEdited.space.root] at hr; cases hr
    · cases hr
      cases hc
      exact absurd hrow (by decide)
    · rw [h.2.1] at hr; cases hr
  removedHere d p _ hd hgone _ := by
    rcases bothEdited_cases d with rfl | rfl | h
    · rw [bothEdited.disk.root] at hgone; cases hgone
    · cases hgone
    · exact absurd h.2.2.2 hd
  removedThere d p _ hd hgone _ := by
    rcases bothEdited_cases d with rfl | rfl | h
    · rw [bothEdited.space.root] at hgone; cases hgone
    · cases hgone
    · exact absurd h.2.2.2 hd
  dirs p a r hb ha := by
    rcases bothEdited_cases p with rfl | rfl | h
    · rw [bothEdited.disk.root] at ha; cases ha
    · cases hb
    · rw [h.1] at ha; cases ha
  files p c hb hd := by
    rcases bothEdited_cases p with rfl | rfl | h
    · cases hb
    · cases hd
    · rw [h.1] at hd; cases hd
  goneHere p hd hs := by
    rcases bothEdited_cases p with rfl | rfl | h
    · rw [bothEdited.disk.root] at hd; cases hd
    · cases hd
    · exact absurd h.2.1 hs
  goneThere p hs hd := by
    rcases bothEdited_cases p with rfl | rfl | h
    · rw [bothEdited.space.root] at hs; cases hs
    · cases hs
    · exact absurd h.1 hd

lemma bothEdited_fresh (κ : EngineConfig) : FreshConflicts κ Env.calm bothEdited := by
  rintro c ⟨q, hq, hi, rfl⟩
  rcases bothEdited_cases q with rfl | rfl | h
  · exact absurd rfl (ne_nil_of_file hq)
  · refine ⟨fun hc => ?_, by decide⟩
    rcases hc with hc | hc
    · exact hc (by decide)
    · exact hc (by decide)
  · exact absurd h.1 (instruction_conflict hi).1

lemma bothEdited_plain : bothEdited.Plain := by
  intro p hp
  rcases bothEdited_cases p with rfl | rfl | h
  · simp
  · decide
  · exact absurd hp (fun hc => hc.elim (fun hd => hd h.1) (fun hs => hs h.2.1))

/-- The theorem at `bothEdited`: after two runs both versions are on the server. -/
theorem conflictsSettle_bothEdited : ∃ (π : Schedule bothEdited)
    (π' : Schedule (Calls.sound.runSync ⟨.keepBoth, 5000000⟩ Env.calm π).2),
    (Calls.sound.runSync ⟨.keepBoth, 5000000⟩ Env.calm π').2.spaceView ["n.txt".toList] =
        some (Node.file ⟨[60, 63], by decide⟩) ∧
      (Calls.sound.runSync ⟨.keepBoth, 5000000⟩ Env.calm π').2.spaceView
        ["n_conflict_0.txt".toList] = some (Node.file ⟨[60, 61, 62], by decide⟩) := by
  have hcalm : Faultless Env.calm := ⟨rfl, fun _ _ => rfl⟩
  obtain ⟨π, hfirst⟩ := ParentFirst.exists bothEdited
  have hrun : ErrorFree ⟨.keepBoth, 5000000⟩ Env.calm π :=
    bothEdited_resolvable.errorFree bothEdited_tidy (bothEdited_fresh _) hfirst hcalm
  have hnext := bothEdited_resolvable.next bothEdited_tidy (bothEdited_fresh _) calm_honest hrun
  have htidy := bothEdited_tidy.run (bothEdited_fresh _) hrun.filesSucceed
  have hsound : Calls.sound.runSync ⟨.keepBoth, 5000000⟩ Env.calm π =
      runSync ⟨.keepBoth, 5000000⟩ Env.calm π := Calls.sound_runSync
  rw [← hsound] at hnext htidy
  obtain ⟨π', hfirst'⟩ :=
    ParentFirst.exists (Calls.sound.runSync ⟨.keepBoth, 5000000⟩ Env.calm π).2
  have hrun' : ErrorFree ⟨.keepBoth, 5000000⟩ Env.calm π' := hnext.errorFree htidy hfirst' hcalm
  obtain ⟨-, -, hsettled, hkept, -⟩ := conflictsSettle ⟨.keepBoth, 5000000⟩ Env.calm .sound π
    beforeEdits bothEdited_tidy bothEdited_plain bothEdited_resolvable (bothEdited_fresh _)
    calm_honest Calls.sound_journaled (Calls.sound_errorFree.mpr hrun)
  have hboth := hsettled _ _ _ .sound π' .refl calm_honest Calls.sound_journaled
    (Calls.sound_errorFree.mpr hrun')
  have hchanged : ¬ bothEdited.RemoteUnchanged beforeEdits ["n.txt".toList] :=
    fun hc => absurd hc.1 (by decide)
  refine ⟨π, π', ?_, ?_⟩
  · refine (hboth _ _).2.mpr ?_
    exact (hkept rfl).2 ["n.txt".toList] ⟨⟨[60, 63], by decide⟩, "e2".toList⟩ rfl hchanged
  · refine (hboth _ _).2.mpr ?_
    refine .copy (q := ["n.txt".toList]) (a := ⟨⟨[60, 61, 62], by decide⟩, 9⟩) rfl ⟨?_, Or.inr rfl⟩
    exact ⟨⟨_, rfl⟩, ⟨_, rfl⟩, by decide, hchanged⟩

end OwncloudSync
