import OwncloudSync.Engine.Calls
import Mathlib.Tactic.Common

/-!
# Quiescence

What the run after a successful run has to do, when nothing has changed in between.

**Files.**  Nothing, but for the copies of conflicts, which were made during the first run and
are uploaded by the second; the run after that ignores every file.  All of it rests on the rows that
the first run leaves (`RowKept`): one that could not be written, or was written with a size that could
not be read, makes the next run transfer the file again, and so does one that this run cannot read.
`fileQuiescence_iff` says exactly when the files are at rest.

**Directories** are another matter.  The directory phase records an **empty etag**, the server
never reports one, so a directory that was just synced is taken as changed: `dirIgnored_iff`.
-/

namespace OwncloudSync

open PathTree FileName

variable {κ κ' : EngineConfig} {ε ε' : Env} {σ : State} {π : Schedule σ} {p q : Path}

/-- No call of the run fails. -/
def Faultless (ε : Env) : Prop := ε.discovery = none ∧ ∀ op p, ε.fails op p = none

lemma calm_honest : Honest Env.calm := ⟨⟨fun _ _ => rfl, fun _ => rfl⟩, fun _ => rfl⟩

/-! ## The instructions of the next run -/

/-- A settled path is ignored, whatever the next run is like. -/
lemma Settled.ignored (h : Settled p σ) : instruction κ ε σ p = .ignore := by
  obtain ⟨a, r, ha, hr, hb⟩ := h
  exact (instruction_ignore_files ha hr).mpr hb

/-- A file path of the run is a file on one of the sides. -/
lemma file_of_present (hfile : isDirPath ε σ p = false) (hp : σ.Present p) :
    (∃ a, σ.disk.get p = some (Node.file a)) ∨ ∃ r, σ.space.get p = some (Node.file r) := by
  cases hd : σ.disk.get p with
  | some x => exact Or.inl (hd ▸ exists_localFile hfile (by rw [hd]; simp))
  | none =>
      cases hs : σ.space.get p with
      | none => exact absurd hp (by simp [State.Present, hd, hs])
      | some y =>
          cases y with
          | dir => exact absurd hs ((isDirPath_eq_false.mp hfile).2 hd)
          | file r => exact Or.inr ⟨r, rfl⟩

/-- **The upload of a file that is new in a directory of both sides succeeds**, wherever in the
run its task stands. -/
lemma upload_succeeds_at (hσ : Tidy σ) (hfresh : FreshConflicts κ ε σ)
    (hcalls : ∀ op p, ε.fails op p = none) {pre post : List Item} {t : Item}
    (hsplit : tasks κ ε π = pre ++ t :: post) (hf : t.isDir = false) (hi : t.instr = .upload)
    (hs : σ.space.get t.path = none) (hd : σ.disk.get t.path.tail = some Node.dir)
    (hr : σ.space.get t.path.tail = some Node.dir) :
    (exec κ ε t (stateAfter κ ε σ pre)).2 = none := by
  obtain ⟨hne, hinstr, hdir, -⟩ := item_of_mem (mem_of_split hsplit)
  have hpres : σ.disk.get t.path ≠ none := instruction_upload (hinstr.symm.trans hi)
  obtain ⟨a, ha⟩ := exists_localFile (hdir.symm.trans hf) hpres
  have hmem := mem_of_pre hsplit
  have hfree : Undeleted κ ε π t.path :=
    undeleted_of_parent (by rw [← hinstr, hi]; rfl) hd hr
  refine exec_upload_succeeds (a := a) hf hi (fun op => hcalls op t.path) ?_ ?_ ?_
  · refine TaskRun.run_invariant (s := σ.started)
      (I := fun s : State => s.disk.get t.path = some (Node.file a)) ha (fun u hu s hsa => ?_)
    refine (frame_disk hσ hfresh (hmem u hu) (Or.inl hpres) (path_ne_of_before hsplit hu).symm
      (by rw [hsa]; simp) (fun h => ?_)).trans hsa
    exact hfree u (hmem u hu) ⟨by rw [h.1]; rfl, h.2.2⟩
  · refine TaskRun.run_invariant (s := σ.started)
      (I := fun s : State => s.space.get t.path.tail = some Node.dir) hr (fun u hu s hsr => ?_)
    refine (exec_space_keep (by rw [hsr]; simp) (fun h => ?_) (fun h => ?_)).trans hsr
    · exact not_below_deleted (hmem u hu) (by rw [hd]; simp) (by rw [hr]; simp)
        ⟨by rw [h.1]; rfl, h.2⟩
    · obtain ⟨-, huf, hpath⟩ := h
      rw [(item_of_mem (hmem u hu)).2.2.1, ← hpath] at huf
      exact (isDirPath_eq_false.mp huf).1 hd
  · have hnone : (stateAfter κ ε σ pre).space.get t.path = none := by
      refine TaskRun.run_invariant (s := σ.started)
        (I := fun s : State => s.space.get t.path = none) hs (fun u hu s hsn => ?_)
      exact frame_space_none (hmem u hu) (fun _ => (path_ne_of_before hsplit hu).symm)
        (by rw [ha]; simp) hsn
    rw [hnone]
    simp

/-! ## The rows of the files -/

/-- The etag and the size that the two sides agree on when a file has been transferred: those of the
version that is taken. -/
def agreed (κ : EngineConfig) (ε : Env) (σ : State) (p : Path) : JournalBaseline :=
  match instruction κ ε σ p, σ.disk.get p, σ.space.get p with
  | .upload, some (Node.file a), _ => (trimQuotes (ε.storedEtag p), a.content.len)
  | _, _, some (Node.file r) => (trimQuotes r.etag, r.content.len)
  | _, _, _ => ([], 0)

/-- After the run the row of a file agrees with both sides: the file is ignored; or its row is
written, and its size could be read or is zero; or its row cannot be written and holds the right
values already. -/
inductive RowKept (κ : EngineConfig) (ω : Calls) (ε : Env) (σ : State) (p : Path) : Prop
  | ignored (hi : instruction κ ε (ω.read σ) p = .ignore)
  | written (hw : ω.unwritten p = false)
      (hm : ε.fails .metadata p = none ∨ (agreed κ ε (ω.read σ) p).2 = 0)
  | stale (hw : ω.unwritten p = true)
      (hb : σ.journal.baseline p = some (agreed κ ε (ω.read σ) p))

/-- The names of conflicts are in neither tree nor journal. -/
def FreshNames (κ : EngineConfig) (ε : Env) (ω : Calls) (σ : State) : Prop :=
  ∀ c, ConflictCopy κ ε (ω.read σ) c → ¬ σ.Present c ∧ σ.journal c = none

variable {ω ω' : Calls} {s : State}

lemma Transferred.agreed {a : LocalFile} {r : RemoteFile} (h : Transferred κ ε σ p s a r) :
    agreed κ ε σ p = (trimQuotes r.etag, a.content.len) := by
  by_cases hi : instruction κ ε σ p = .upload
  · obtain ⟨ha, hr⟩ := h.sent hi
    rw [hr]
    simp only [OwncloudSync.agreed, hi, ha]
  · obtain ⟨hr, hc⟩ := h.got hi
    unfold OwncloudSync.agreed
    rw [hr, hc]
    cases hins : instruction κ ε σ p with
    | upload => exact absurd hins hi
    | _ => rfl

lemma Tidy.read (h : Tidy σ) (ω : Calls) : Tidy (ω.read σ) := h.congr rfl rfl

lemma FreshNames.read (h : FreshNames κ ε ω σ) : FreshConflicts κ ε (ω.read σ) := by
  intro c hc
  obtain ⟨hp, hj⟩ := h c hc
  refine ⟨hp, ?_⟩
  rw [Calls.read_journal, hj]
  cases ω.unread c <;> rfl

section Next

variable (hσ : Tidy σ) (hplain : σ.Plain) (hfresh : FreshNames κ ε ω σ)
  (hrun : FilesSucceed κ ε (π.read ω))

include hplain in
/-- The state after the run is that of the run that reports the same, but for the rows. -/
lemma follows_of_plain : ω.Follows σ (runSync κ ε (π.read ω)).2 (ω.runSync κ ε π).2 :=
  (Calls.follows_runSync (Calls.served_of_plain hplain)).2

include hσ hplain hfresh hrun in
lemma tidy_after : Tidy (ω.runSync κ ε π).2 := by
  have hend := follows_of_plain (ω := ω) (κ := κ) (ε := ε) (π := π) hplain
  exact ((hσ.read ω).run hfresh.read hrun).congr hend.disk hend.space

include hσ hplain hrun in
/-- The names after the run are as plain as before. -/
lemma plain_after : (ω.runSync κ ε π).2.Plain := by
  have hend := follows_of_plain (ω := ω) (κ := κ) (ε := ε) (π := π) hplain
  intro p hp
  rw [hend.disk, hend.space] at hp
  rcases present_before (π := π.read ω) (hσ.read ω) hrun hp with h | ⟨q, hq, hi, rfl⟩
  · exact hplain p h
  · have hnames := hplain q (Or.inl (instruction_conflict hi).1)
    cases q with
    | nil => exact absurd rfl (ne_nil_of_file hq)
    | cons n r =>
        intro m hm
        rcases List.mem_cons.mp hm with rfl | hm
        · exact (hnames n (by simp)).conflict _
        · exact hnames m (by simp [hm])

include hσ hplain hfresh hrun in
/-- A kept file is a file on both sides after the run. -/
lemma kept_after (hk : KeptFile κ ε (ω.read σ) p) : BothFiles p (ω.runSync κ ε π).2 := by
  have hend := follows_of_plain (ω := ω) (κ := κ) (ε := ε) (π := π) hplain
  obtain ⟨a, r, ha, hr⟩ := files_of_kept (π := π.read ω) (hσ.read ω) hfresh.read hrun hk
  exact ⟨a, r, hend.disk ▸ ha, hend.space ▸ hr⟩

include hσ hplain hfresh hrun in
/-- A conflict copy is a file on the disk alone, without a row. -/
lemma copied_after {a : LocalFile} (hfile : isDirPath ε σ q = false)
    (hi : instruction κ ε (ω.read σ) q = .conflict) (ha : σ.disk.get q = some (Node.file a)) :
    (ω.runSync κ ε π).2.disk.get (conflictPath q (ε.clock q)) = some (Node.file a) ∧
      (ω.runSync κ ε π).2.space.get (conflictPath q (ε.clock q)) = none ∧
      (ω.runSync κ ε π).2.journal (conflictPath q (ε.clock q)) = none := by
  have hend := follows_of_plain (ω := ω) (κ := κ) (ε := ε) (π := π) hplain
  obtain ⟨hd, hs, hj⟩ :=
    copy_of_conflict (π := π.read ω) (hσ.read ω) hfresh.read hrun hfile hi ha rfl
  refine ⟨by rw [hend.disk]; exact hd, by rw [hend.space]; exact hs, ?_⟩
  rw [hend.journal, Calls.row, hj, (hfresh _ ⟨q, hfile, hi, rfl⟩).2]
  simp

include hσ hplain hfresh hrun in
/-- **The files of the next run** are those that were kept, and the conflict copies. -/
lemma file_next (hfile : isDirPath ε' (ω.runSync κ ε π).2 p = false)
    (hp : (ω.runSync κ ε π).2.Present p) :
    KeptFile κ ε (ω.read σ) p ∨ ConflictCopy κ ε (ω.read σ) p := by
  have hend := follows_of_plain (ω := ω) (κ := κ) (ε := ε) (π := π) hplain
  refine file_after (π := π.read ω) (hσ.read ω) hfresh.read hrun ?_
  rw [← hend.disk, ← hend.space]
  exact file_of_present hfile hp

include hσ hplain hfresh hrun in
/-- The conflict copies are uploaded. -/
lemma copy_next (hc : ConflictCopy κ ε (ω.read σ) p) (κ' : EngineConfig) (ε' : Env) (ω' : Calls) :
    isDirPath ε' (ω.runSync κ ε π).2 p = false ∧ (ω.runSync κ ε π).2.space.get p = none ∧
      instruction κ' ε' (ω'.read (ω.runSync κ ε π).2) p = .upload := by
  obtain ⟨q, hfile, hi, rfl⟩ := hc
  obtain ⟨a, ha⟩ := exists_localFile hfile (instruction_conflict hi).1
  obtain ⟨hd, hs, hj⟩ := copied_after (π := π) hσ hplain hfresh hrun hfile hi ha
  refine ⟨isDirPath_eq_false.mpr ⟨by rw [hd]; simp, fun h => ?_⟩, hs,
    instruction_newLocal (by rw [Calls.read_disk, hd]; simp) hs (baseline_of_none ?_)⟩
  · rw [hd] at h; cases h
  · rw [Calls.read_journal, hj]
    cases ω'.unread _ <;> rfl

include hσ hplain hfresh hrun in
/-- The directory of a conflict copy is on both sides. -/
lemma copy_parent (hc : ConflictCopy κ ε (ω.read σ) p) :
    (ω.runSync κ ε π).2.disk.get p.tail = some Node.dir ∧
      (ω.runSync κ ε π).2.space.get p.tail = some Node.dir := by
  obtain ⟨q, hq, hi, rfl⟩ := hc
  have hne := ne_nil_of_file hq
  obtain ⟨a, r, ha, hr⟩ := kept_after (π := π) hσ hplain hfresh hrun
    ⟨hne, Or.inl (instruction_conflict hi).1, hq, by rw [hi]; rfl⟩
  obtain ⟨hsuf, hsne⟩ := above_of_suffix_tail hne (List.suffix_refl q.tail)
  rw [conflictPath_tail]
  exact ⟨Tree.dir_of_below _ hsuf hsne (by rw [ha]; simp),
    Tree.dir_of_below _ hsuf hsne (by rw [hr]; simp)⟩

include hσ hplain hfresh hrun in
/-- **The row of a kept file agrees with both sides after the run** exactly if it is kept. -/
theorem settled_iff (hε : HonestEtags ε) (hk : KeptFile κ ε (ω.read σ) p) :
    Settled p (ω.runSync κ ε π).2 ↔ RowKept κ ω ε σ p := by
  have hend := follows_of_plain (ω := ω) (κ := κ) (ε := ε) (π := π) hplain
  by_cases hi : instruction κ ε (ω.read σ) p = .ignore
  · refine ⟨fun _ => .ignored hi, fun _ => ?_⟩
    obtain ⟨a, r, ha, hr, hb⟩ := settled_of_ignored (π := π.read ω) (hσ.read ω) hfresh.read
      hrun.discovered hk hi
    refine ⟨a, r, hend.disk ▸ ha, hend.space ▸ hr, ?_⟩
    have hkept := (kept_of_ignored (π := π.read ω) (hσ.read ω) hfresh.read hrun.discovered
      hk.present hi).2.2
    have hread : ω.unread p = false := by
      by_contra hu
      rw [baseline_congr hkept, baseline_of_none (Calls.read_unread (by simpa using hu))] at hb
      cases hb
    rw [← hb]
    refine baseline_congr ((hend.journal p).trans ?_)
    rw [Calls.row, hread, hkept, Calls.read_row hread]
    cases ω.unwritten p <;> rfl
  · obtain ⟨a, r, ht⟩ := transferred (π := π.read ω) (hσ.read ω) hfresh.read hε hrun hk hi
    have ha : (ω.runSync κ ε π).2.disk.get p = some (Node.file a) := hend.disk ▸ ht.here
    have hr : (ω.runSync κ ε π).2.space.get p = some (Node.file r) := hend.space ▸ ht.there
    have hsettled : Settled p (ω.runSync κ ε π).2 ↔
        (ω.runSync κ ε π).2.journal.baseline p = some (agreed κ ε (ω.read σ) p) := by
      rw [ht.agreed]
      constructor
      · rintro ⟨a', r', ha', hr', hb⟩
        rw [ha, Option.some.injEq, Node.file.injEq] at ha'
        rw [hr, Option.some.injEq, Node.file.injEq] at hr'
        rw [hb, ha', hr']
      · exact fun hb => ⟨a, r, ha, hr, hb⟩
    rw [hsettled]
    cases hw : ω.unwritten p with
    | true =>
        rw [baseline_congr (hend.stale hw)]
        constructor
        · exact fun hb => .stale hw hb
        · rintro (hc | ⟨hc, -⟩ | ⟨-, hb⟩)
          · exact absurd hc hi
          · rw [hw] at hc; cases hc
          · exact hb
    | false =>
        have hrow : (runSync κ ε (π.read ω)).2.journal p ≠ none := by
          intro hn
          have hb := ht.row
          rw [baseline_of_none hn] at hb
          cases hb
        rw [baseline_congr (hend.written hw hrow), ht.row, ht.agreed, Option.some.injEq,
          Prod.mk.injEq, eq_self_iff_true, true_and, recordedSize_eq_iff]
        constructor
        · exact fun hm => .written hw (by rw [ht.agreed]; exact hm)
        · rintro (hc | ⟨-, hm⟩ | ⟨hc, -⟩)
          · exact absurd hc hi
          · rw [ht.agreed] at hm; exact hm
          · rw [hw] at hc; cases hc

include hσ hplain hfresh hrun in
/-- **The next run ignores a kept file** exactly if its row agrees with both sides and can be
read. -/
theorem ignored_next_iff (hε : HonestEtags ε) (hk : KeptFile κ ε (ω.read σ) p)
    (κ' : EngineConfig) (ε' : Env) :
    instruction κ' ε' (ω'.read (ω.runSync κ ε π).2) p = .ignore ↔
      ω'.unread p = false ∧ RowKept κ ω ε σ p := by
  obtain ⟨a, r, ha, hr⟩ := kept_after (π := π) hσ hplain hfresh hrun hk
  rw [← settled_iff hσ hplain hfresh hrun hε hk,
    instruction_ignore_files (σ := ω'.read (ω.runSync κ ε π).2) ha hr]
  constructor
  · intro hb
    have hread : ω'.unread p = false := by
      by_contra hu
      rw [baseline_of_none (Calls.read_unread (by simpa using hu))] at hb
      cases hb
    exact ⟨hread, a, r, ha, hr, by rw [← baseline_congr (Calls.read_row hread)]; exact hb⟩
  · rintro ⟨hread, a', r', ha', hr', hb⟩
    rw [ha, Option.some.injEq, Node.file.injEq] at ha'
    rw [hr, Option.some.injEq, Node.file.injEq] at hr'
    rw [baseline_congr (Calls.read_row hread), hb, ha', hr']

end Next

/-! ## Three runs -/

/-- The second and third run leave the files alone: the second ignores the files of both sides and
uploads the conflict copies of the first, the third ignores every file. -/
structure FilesQuiet (κ : EngineConfig) (ε : Env) (ω : Calls) {σ : State} (π : Schedule σ)
    (κ' : EngineConfig) (ε' : Env) (ω' : Calls) (π' : Schedule (ω.runSync κ ε π).2)
    (κ'' : EngineConfig) (ε'' : Env) (ω'' : Calls) : Prop where
  both : ∀ p, isDirPath ε' (ω.runSync κ ε π).2 p = false →
    (ω.runSync κ ε π).2.disk.get p ≠ none → (ω.runSync κ ε π).2.space.get p ≠ none →
      instruction κ' ε' (ω'.read (ω.runSync κ ε π).2) p = .ignore
  rest : ∀ p, isDirPath ε' (ω.runSync κ ε π).2 p = false → (ω.runSync κ ε π).2.Present p →
    instruction κ' ε' (ω'.read (ω.runSync κ ε π).2) p ≠ .ignore →
      ConflictCopy κ ε (ω.read σ) p ∧
        instruction κ' ε' (ω'.read (ω.runSync κ ε π).2) p = .upload
  third : ∀ p, isDirPath ε'' (ω'.runSync κ' ε' π').2 p = false →
    (ω'.runSync κ' ε' π').2.Present p →
      instruction κ'' ε'' (ω''.read (ω'.runSync κ' ε' π').2) p = .ignore

/-- The condition: the row of a file is kept by the first run and can be read in the two others;
that of a copy is written by the second, which can read its size or finds it empty, and can be read
in the third. -/
structure RowsHold (κ : EngineConfig) (ε : Env) (ω : Calls) (σ : State) (ε' : Env)
    (ω' ω'' : Calls) : Prop where
  kept : ∀ p, KeptFile κ ε (ω.read σ) p →
    ω'.unread p = false ∧ ω''.unread p = false ∧ RowKept κ ω ε σ p
  copies : ∀ q a, isDirPath ε σ q = false → instruction κ ε (ω.read σ) q = .conflict →
    σ.disk.get q = some (Node.file a) →
      ω'.unwritten (conflictPath q (ε.clock q)) = false ∧
      ω''.unread (conflictPath q (ε.clock q)) = false ∧
      (ε'.fails .metadata (conflictPath q (ε.clock q)) = none ∨ a.content.len = 0)

section Third

variable {π' : Schedule (ω.runSync κ ε π).2}
  (hσ : Tidy σ) (hplain : σ.Plain) (hε : HonestEtags ε) (hfresh : FreshNames κ ε ω σ)
  (hrun : FilesSucceed κ ε (π.read ω))

include hσ hplain hε hfresh hrun in
/-- The second run does what it should exactly if the rows of the first are kept and can be read. -/
lemma second_iff (κ' : EngineConfig) (ε' : Env) (ω' : Calls) :
    (∀ p, isDirPath ε' (ω.runSync κ ε π).2 p = false → (ω.runSync κ ε π).2.disk.get p ≠ none →
      (ω.runSync κ ε π).2.space.get p ≠ none →
        instruction κ' ε' (ω'.read (ω.runSync κ ε π).2) p = .ignore) ↔
    ∀ p, KeptFile κ ε (ω.read σ) p → ω'.unread p = false ∧ RowKept κ ω ε σ p := by
  constructor
  · intro h p hk
    obtain ⟨a, r, ha, hr⟩ := kept_after (π := π) hσ hplain hfresh hrun hk
    refine (ignored_next_iff hσ hplain hfresh hrun hε hk κ' ε').mp
      (h p (isDirPath_eq_false.mpr ⟨by rw [ha]; simp, fun hc => ?_⟩) (by rw [ha]; simp)
        (by rw [hr]; simp))
    rw [ha] at hc; cases hc
  · intro h p hf hd hs
    rcases file_next hσ hplain hfresh hrun hf (Or.inl hd) with hk | hc
    · exact (ignored_next_iff hσ hplain hfresh hrun hε hk κ' ε').mpr (h p hk)
    · exact absurd (copy_next hσ hplain hfresh hrun hc κ' ε' ω').2.1 hs

variable (hkept : ∀ p, KeptFile κ ε (ω.read σ) p → ω'.unread p = false ∧ RowKept κ ω ε σ p)

include hσ hplain hε hfresh hrun hkept in
/-- The second run has no conflict between files. -/
lemma no_conflict_next (κ' : EngineConfig) (ε' : Env) :
    ¬ ConflictCopy κ' ε' (ω'.read (ω.runSync κ ε π).2) p := by
  rintro ⟨q, hq, hi, -⟩
  rcases file_next hσ hplain hfresh hrun hq (Or.inl (instruction_conflict hi).1) with hk | hc
  · rw [(ignored_next_iff hσ hplain hfresh hrun hε hk κ' ε').mpr (hkept q hk)] at hi
    cases hi
  · rw [(copy_next hσ hplain hfresh hrun hc κ' ε' ω').2.2] at hi
    cases hi

include hσ hplain hε hfresh hrun hkept in
/-- What the second run keeps are the files of the first and the copies. -/
lemma kept_next_iff (κ' : EngineConfig) (ε' : Env) :
    KeptFile κ' ε' (ω'.read (ω.runSync κ ε π).2) p ↔
      KeptFile κ ε (ω.read σ) p ∨ ConflictCopy κ ε (ω.read σ) p := by
  constructor
  · exact fun hk => file_next hσ hplain hfresh hrun hk.file hk.present
  · rintro (hk | hc)
    · obtain ⟨a, r, ha, hr⟩ := kept_after (π := π) hσ hplain hfresh hrun hk
      refine ⟨hk.ne, Or.inl (by rw [Calls.read_disk, ha]; simp),
        isDirPath_eq_false.mpr ⟨by rw [Calls.read_disk, ha]; simp, fun h => ?_⟩, ?_⟩
      · rw [Calls.read_disk, ha] at h; cases h
      · rw [(ignored_next_iff hσ hplain hfresh hrun hε hk κ' ε').mpr (hkept p hk)]
        rfl
    · obtain ⟨hfile, -, hi⟩ := copy_next hσ hplain hfresh hrun hc κ' ε' ω'
      refine ⟨ne_nil_of_file hfile, Or.inl (instruction_upload hi), hfile, ?_⟩
      rw [hi]
      rfl

include hσ hplain hε hfresh hrun hkept in
/-- The row of a file of the first run is kept by the second as it is; that of a copy has to be
written. -/
lemma rowKept_next (κ' : EngineConfig) (ε' : Env) :
    (∀ p, KeptFile κ' ε' (ω'.read (ω.runSync κ ε π).2) p →
      RowKept κ' ω' ε' (ω.runSync κ ε π).2 p) ↔
    ∀ q a, isDirPath ε σ q = false → instruction κ ε (ω.read σ) q = .conflict →
      σ.disk.get q = some (Node.file a) →
        ω'.unwritten (conflictPath q (ε.clock q)) = false ∧
        (ε'.fails .metadata (conflictPath q (ε.clock q)) = none ∨ a.content.len = 0) := by
  -- a copy is uploaded, and what is uploaded is the old local file
  have hagreed : ∀ q a, isDirPath ε σ q = false → instruction κ ε (ω.read σ) q = .conflict →
      σ.disk.get q = some (Node.file a) →
      (agreed κ' ε' (ω'.read (ω.runSync κ ε π).2) (conflictPath q (ε.clock q))).2 =
        a.content.len := by
    intro q a hq hi ha
    have hup := (copy_next (π := π) hσ hplain hfresh hrun ⟨q, hq, hi, rfl⟩ κ' ε' ω').2.2
    have hd := (copied_after (π := π) hσ hplain hfresh hrun hq hi ha).1
    rw [agreed, hup, Calls.read_disk, hd]
  constructor
  · intro h q a hq hi ha
    have hc : ConflictCopy κ ε (ω.read σ) (conflictPath q (ε.clock q)) := ⟨q, hq, hi, rfl⟩
    have hup := (copy_next (π := π) hσ hplain hfresh hrun hc κ' ε' ω').2.2
    have hj := (copied_after (π := π) hσ hplain hfresh hrun hq hi ha).2.2
    rcases h _ ((kept_next_iff hσ hplain hε hfresh hrun hkept κ' ε').mpr (Or.inr hc)) with
      hig | ⟨hw, hm⟩ | ⟨-, hb⟩
    · rw [hup] at hig; cases hig
    · exact ⟨hw, hagreed q a hq hi ha ▸ hm⟩
    · rw [baseline_of_none hj] at hb; cases hb
  · intro h p hk
    rcases (kept_next_iff hσ hplain hε hfresh hrun hkept κ' ε').mp hk with hk | ⟨q, hq, hi, rfl⟩
    · exact .ignored ((ignored_next_iff hσ hplain hfresh hrun hε hk κ' ε').mpr (hkept p hk))
    · obtain ⟨a, ha⟩ := exists_localFile hq (instruction_conflict hi).1
      obtain ⟨hw, hm⟩ := h q a hq hi ha
      exact .written hw (by rw [hagreed q a hq hi ha]; exact hm)

include hσ hplain hε hfresh hrun hkept in
/-- The files of the second run all succeed, if it reports no error or nothing fails in it. -/
lemma second_succeeds (hrun' : ω'.ErrorFree κ' ε' π' ∨ Faultless ε') :
    FilesSucceed κ' ε' (π'.read ω') := by
  have hplain' : (ω.runSync κ ε π).2.Plain := plain_after hσ hplain hrun
  rcases hrun' with h | h
  · exact ((Calls.errorFree_iff (Calls.served_of_plain hplain')).mp h).filesSucceed
  refine ⟨h.1, fun pre post t hsplit hf => ?_⟩
  obtain ⟨-, hinstr, hdir, -⟩ := item_of_mem (mem_of_split hsplit)
  have hpres := (present_of_mem (mem_of_split hsplit)).2
  rcases file_next hσ hplain hfresh hrun (hdir.symm.trans hf) hpres with hk | hc
  · have hi := (ignored_next_iff hσ hplain hfresh hrun hε hk κ' ε').mpr (hkept t.path hk)
    exact absurd (hinstr.trans hi) (mem_tasks.mp (mem_of_split hsplit)).2.2
  · obtain ⟨-, hs, hi⟩ := copy_next hσ hplain hfresh hrun hc κ' ε' ω'
    obtain ⟨hd, hr⟩ := copy_parent hσ hplain hfresh hrun hc
    exact upload_succeeds_at ((tidy_after hσ hplain hfresh hrun).read ω')
      (fun c hc => absurd hc (no_conflict_next hσ hplain hε hfresh hrun hkept κ' ε')) h.2
      hsplit hf (hinstr.trans hi) hs hd hr

include hσ hplain hε hfresh hrun hkept in
/-- **The third run** ignores every file exactly if it can read the rows, and those of the copies
hold. -/
lemma third_iff (hε' : HonestEtags ε') (hrun' : FilesSucceed κ' ε' (π'.read ω'))
    (κ'' : EngineConfig) (ε'' : Env) (ω'' : Calls) :
    (∀ p, isDirPath ε'' (ω'.runSync κ' ε' π').2 p = false → (ω'.runSync κ' ε' π').2.Present p →
      instruction κ'' ε'' (ω''.read (ω'.runSync κ' ε' π').2) p = .ignore) ↔
    (∀ p, KeptFile κ ε (ω.read σ) p ∨ ConflictCopy κ ε (ω.read σ) p → ω''.unread p = false) ∧
    ∀ q a, isDirPath ε σ q = false → instruction κ ε (ω.read σ) q = .conflict →
      σ.disk.get q = some (Node.file a) →
        ω'.unwritten (conflictPath q (ε.clock q)) = false ∧
        (ε'.fails .metadata (conflictPath q (ε.clock q)) = none ∨ a.content.len = 0) := by
  have hσ' : Tidy (ω.runSync κ ε π).2 := tidy_after hσ hplain hfresh hrun
  have hplain' : (ω.runSync κ ε π).2.Plain := plain_after hσ hplain hrun
  have hnone : ∀ c, ¬ ConflictCopy κ' ε' (ω'.read (ω.runSync κ ε π).2) c :=
    fun c => no_conflict_next hσ hplain hε hfresh hrun hkept κ' ε'
  have hfresh' : FreshNames κ' ε' ω' (ω.runSync κ ε π).2 := fun c hc => absurd hc (hnone c)
  have hsecond := second_iff (κ := κ') (ε := ε') (ω := ω') (π := π') hσ' hplain' hε' hfresh' hrun'
    κ'' ε'' ω''
  rw [← rowKept_next (π := π) hσ hplain hε hfresh hrun hkept κ' ε']
  constructor
  · intro h
    have hrows := hsecond.mp (fun p hf hd _ => h p hf (Or.inl hd))
    refine ⟨fun p hp => (hrows p ?_).1, fun p hk => (hrows p hk).2⟩
    exact (kept_next_iff hσ hplain hε hfresh hrun hkept κ' ε').mpr hp
  · rintro ⟨hread, hrows⟩ p hf hp
    rcases file_next hσ' hplain' hfresh' hrun' hf hp with hk | hc
    · refine (ignored_next_iff hσ' hplain' hfresh' hrun' hε' hk κ'' ε'').mpr ⟨?_, hrows p hk⟩
      exact hread p ((kept_next_iff hσ hplain hε hfresh hrun hkept κ' ε').mp hk)
    · exact absurd hc (hnone p)

end Third

/-- **File quiescence, exactly.**  After a run without errors from a tidy state the files are left
alone by the next two runs if and only if the rows hold. -/
theorem fileQuiescence_iff (κ : EngineConfig) (ε : Env) (ω : Calls) {σ : State} (π : Schedule σ)
    (hσ : Tidy σ) (hplain : σ.Plain) (hε : HonestEtags ε) (hfresh : FreshNames κ ε ω σ)
    (hrun : ω.ErrorFree κ ε π) (κ' : EngineConfig) (ε' : Env) (ω' : Calls)
    (π' : Schedule (ω.runSync κ ε π).2) (hε' : HonestEtags ε')
    (hrun' : ω'.ErrorFree κ' ε' π' ∨ Faultless ε') (κ'' : EngineConfig) (ε'' : Env) (ω'' : Calls) :
    FilesQuiet κ ε ω π κ' ε' ω' π' κ'' ε'' ω'' ↔ RowsHold κ ε ω σ ε' ω' ω'' := by
  have hfiles : FilesSucceed κ ε (π.read ω) :=
    ((Calls.errorFree_iff (Calls.served_of_plain hplain)).mp hrun).filesSucceed
  have hsecond := second_iff (π := π) hσ hplain hε hfresh hfiles κ' ε' ω'
  have hthird : ∀ hkept, _ := fun hkept => third_iff hσ hplain hε hfresh hfiles hkept hε'
    (second_succeeds hσ hplain hε hfresh hfiles hkept hrun') κ'' ε'' ω''
  constructor
  · intro h
    have hkept := hsecond.mp h.both
    obtain ⟨hread, hcopies⟩ := (hthird hkept).mp h.third
    refine ⟨fun p hk => ⟨(hkept p hk).1, hread p (Or.inl hk), (hkept p hk).2⟩,
      fun q a hq hi ha => ?_⟩
    obtain ⟨hw, hm⟩ := hcopies q a hq hi ha
    exact ⟨hw, hread _ (Or.inr ⟨q, hq, hi, rfl⟩), hm⟩
  · intro h
    have hkept : ∀ p, KeptFile κ ε (ω.read σ) p → ω'.unread p = false ∧ RowKept κ ω ε σ p :=
      fun p hk => ⟨(h.kept p hk).1, (h.kept p hk).2.2⟩
    refine ⟨hsecond.mpr hkept, fun p hf hp hi => ?_, (hthird hkept).mpr ⟨fun p hp => ?_,
      fun q a hq hi ha => ⟨(h.copies q a hq hi ha).1, (h.copies q a hq hi ha).2.2⟩⟩⟩
    · rcases file_next hσ hplain hfresh hfiles hf hp with hk | hc
      · exact absurd ((ignored_next_iff hσ hplain hfresh hfiles hε hk κ' ε').mpr (hkept p hk)) hi
      · exact ⟨hc, (copy_next hσ hplain hfresh hfiles hc κ' ε' ω').2.2⟩
    · rcases hp with hk | ⟨q, hq, hi, rfl⟩
      · exact (h.kept p hk).2.1
      · obtain ⟨a, ha⟩ := exists_localFile hq (instruction_conflict hi).1
        exact (h.copies q a hq hi ha).2.1

/-- A file `a.txt` that both sides have made on their own. -/
def madeTwice : State where
  disk := Tree.ofList [(["a.txt".toList], Node.file ⟨⟨[7, 8, 9], by decide⟩, 9⟩)]
  space := Tree.ofList [(["a.txt".toList], Node.file ⟨⟨[8, 9], by decide⟩, "e2".toList⟩)]
  journal := fun _ => none
  sync := ⟨.idle, fun _ => none⟩

/-- The one conflict. -/
def madeTwiceSchedule : Schedule madeTwice :=
  Schedule.ofList madeTwice rfl rfl [["a.txt".toList]] (by decide) (by decide) (by decide)

lemma madeTwice_present {p : Path} (h : madeTwice.Present p) :
    p = [] ∨ p = ["a.txt".toList] := by
  rcases h with h | h
  · simpa using Tree.ofList_mem h
  · simpa using Tree.ofList_mem h

lemma madeTwice_tidy : Tidy madeTwice where
  fileLocal p a ha := by
    rcases madeTwice_present (Or.inl (by rw [ha]; simp)) with rfl | rfl
    · rw [madeTwice.disk.root] at ha; cases ha
    · decide
  fileRemote p r hr := by
    rcases madeTwice_present (Or.inr (by rw [hr]; simp)) with rfl | rfl
    · rw [madeTwice.space.root] at hr; cases hr
    · decide
  names n p hp := by
    rcases madeTwice_present hp with h | h
    · cases h
    · cases h
      decide

lemma madeTwice_plain : madeTwice.Plain := by
  intro p hp
  rcases madeTwice_present hp with rfl | rfl
  · simp
  · decide

lemma madeTwice_fresh (κ : EngineConfig) (ω : Calls) : FreshNames κ Env.calm ω madeTwice := by
  rintro c ⟨q, hq, hi, rfl⟩
  refine ⟨fun hc => ?_, rfl⟩
  rcases madeTwice_present (Or.inl (instruction_conflict hi).1) with rfl | rfl
  · exact absurd rfl (ne_nil_of_file hq)
  · rcases madeTwice_present hc with h | h
    · cases h
    · exact absurd h (by decide)

lemma madeTwice_errorFree : ErrorFree ⟨.keepBoth, 5000000⟩ Env.calm madeTwiceSchedule :=
  errorFree_iff.mpr ⟨rfl, by decide⟩

/-- The run of `madeTwice` reports no error, whatever fails in silence. -/
lemma madeTwice_silent (ω : Calls) :
    ω.ErrorFree ⟨.keepBoth, 5000000⟩ Env.calm madeTwiceSchedule := by
  refine (Calls.errorFree_iff (Calls.served_of_plain madeTwice_plain)).mpr ?_
  unfold ErrorFree
  rw [Calls.runSync_unsynced (fun _ => rfl)]
  exact madeTwice_errorFree

/-- And leaves the same trees. -/
lemma madeTwice_trees (ω : Calls) :
    (ω.runSync ⟨.keepBoth, 5000000⟩ Env.calm madeTwiceSchedule).2.disk =
        (runSync ⟨.keepBoth, 5000000⟩ Env.calm madeTwiceSchedule).2.disk ∧
      (ω.runSync ⟨.keepBoth, 5000000⟩ Env.calm madeTwiceSchedule).2.space =
        (runSync ⟨.keepBoth, 5000000⟩ Env.calm madeTwiceSchedule).2.space := by
  have hend := follows_of_plain (ω := ω) (κ := ⟨.keepBoth, 5000000⟩) (ε := Env.calm)
    (π := madeTwiceSchedule) madeTwice_plain
  rw [hend.disk, hend.space, Calls.runSync_unsynced (fun _ => rfl)]
  exact ⟨rfl, rfl⟩

/-- After the first run of `madeTwice` there are `a.txt` and its copy. -/
lemma madeTwice_after {p : Path}
    (h : (runSync ⟨.keepBoth, 5000000⟩ Env.calm madeTwiceSchedule).2.Present p) :
    p = [] ∨ p ∈ [["a.txt".toList], ["a_conflict_0.txt".toList]] := by
  rcases present_before (π := madeTwiceSchedule) madeTwice_tidy madeTwice_errorFree.filesSucceed h
    with hp | ⟨q, hq, hi, rfl⟩
  · exact (madeTwice_present hp).imp id (fun h => by simp [h])
  · rcases madeTwice_present (Or.inl (instruction_conflict hi).1) with rfl | rfl
    · exact absurd rfl (ne_nil_of_file hq)
    · exact Or.inr (by decide)

/-- The second run has the copy to upload, and the file again where a row is missing. -/
def madeTwiceSecond (ω : Calls) :
    Schedule (ω.runSync ⟨.keepBoth, 5000000⟩ Env.calm madeTwiceSchedule).2 where
  order := [["a.txt".toList], ["a_conflict_0.txt".toList]]
  finish := [["a.txt".toList], ["a_conflict_0.txt".toList]]
  nodup := by decide
  mem_iff p := by
    obtain ⟨hd, hs⟩ := madeTwice_trees ω
    rw [hd, hs]
    refine ⟨fun h => ?_, fun h => (madeTwice_after h.2).resolve_left h.1⟩
    rcases List.mem_pair.mp h with rfl | rfl
    · decide
    · decide
  perm := List.Perm.refl _

/-- The theorem at `madeTwice`, where the second run cannot write the row of `a.txt`: it has no need
to. -/
theorem filesQuiet_madeTwice :
    FilesQuiet ⟨.keepBoth, 5000000⟩ Env.calm Calls.sound madeTwiceSchedule
      ⟨.keepBoth, 5000000⟩ Env.calm
      { Calls.sound with unwritten := fun p => p == ["a.txt".toList] }
      (madeTwiceSecond Calls.sound) ⟨.keepBoth, 5000000⟩ Env.calm Calls.sound := by
  refine (fileQuiescence_iff _ _ _ _ madeTwice_tidy madeTwice_plain calm_honest.toHonestEtags
    (madeTwice_fresh _ _) (madeTwice_silent _) _ _ _ _ calm_honest.toHonestEtags
    (Or.inr ⟨rfl, fun _ _ => rfl⟩) _ _ _).mpr
    ⟨fun p hk => ⟨rfl, rfl, .written rfl (Or.inl rfl)⟩, fun q a hq hi _ => ?_⟩
  rcases madeTwice_present (Or.inl (instruction_conflict hi).1) with rfl | rfl
  · exact absurd rfl (ne_nil_of_file hq)
  · exact ⟨by decide, rfl, Or.inl rfl⟩

/-- If the row of `a.txt` cannot be written in the first run, which nothing reports, the second finds
the file in conflict. -/
theorem lost_row_conflict :
    ¬ ∀ (κ : EngineConfig) (ε : Env) (ω : Calls) (σ : State) (π : Schedule σ), Tidy σ → σ.Plain →
      HonestEtags ε → FreshNames κ ε ω σ → ω.ErrorFree κ ε π →
      ∀ (κ' : EngineConfig) (ε' : Env) (ω' : Calls) (π' : Schedule (ω.runSync κ ε π).2),
        HonestEtags ε' → (ω'.ErrorFree κ' ε' π' ∨ Faultless ε') → ∀ κ'' ε'' ω'',
          FilesQuiet κ ε ω π κ' ε' ω' π' κ'' ε'' ω'' := by
  intro h
  have hquiet := h ⟨.keepBoth, 5000000⟩ Env.calm { Calls.sound with unwritten := fun _ => true }
    madeTwice madeTwiceSchedule madeTwice_tidy madeTwice_plain calm_honest.toHonestEtags
    (madeTwice_fresh _ _) (madeTwice_silent _) ⟨.keepBoth, 5000000⟩ Env.calm Calls.sound
    (madeTwiceSecond _) calm_honest.toHonestEtags (Or.inr ⟨rfl, fun _ _ => rfl⟩)
    ⟨.keepBoth, 5000000⟩ Env.calm Calls.sound
  have hi := hquiet.both ["a.txt".toList] (by decide) (by decide) (by decide)
  exact absurd hi (by decide)

/-! ## Directories -/

/-- The row of a task's path at the end of the run is the one its task left. -/
lemma journal_of_task {t : Item} (hd : ε.discovery = none) (ht : t ∈ tasks κ ε π) :
    ∃ pre post, tasks κ ε π = pre ++ t :: post ∧
      (runSync κ ε π).2.journal t.path = (exec κ ε t (stateAfter κ ε σ pre)).1.journal t.path := by
  obtain ⟨pre, post, hsplit⟩ := List.append_of_mem ht
  refine ⟨pre, post, hsplit, ?_⟩
  rw [(runSync_discovery hd).2.2, propagated_eq]
  exact TaskRun.run_owned journal_owned hsplit
    (fun u hu => path_ne_of_split hsplit (Or.inr hu))

/-- The row of a path without a task is as it was. -/
lemma journal_without_task (hd : ε.discovery = none) (h : ∀ u ∈ tasks κ ε π, u.path ≠ p) :
    (runSync κ ε π).2.journal p = σ.journal p := by
  rw [(runSync_discovery hd).2.2]
  exact journal_before h

/-- Two directories are ignored exactly when the row has the collection's etag and size zero. -/
lemma instruction_ignore_dirs (hd : σ.disk.get p = some Node.dir)
    (hs : σ.space.get p = some Node.dir) :
    instruction κ ε σ p = .ignore ↔
      σ.journal.baseline p = some (trimQuotes (ε.dirEtag p), 0) := by
  have hl := localEntry_dir hd
  have hr := remoteEntry_dir (ε := ε) hs
  rw [instruction, reconcile_ignore_iff (Or.inl (by rw [hl]; simp)), hl, hr]
  constructor
  · rintro ⟨l, r, hl', hr', hj⟩
    cases hl'
    cases hr'
    exact hj
  · intro hj
    exact ⟨_, _, rfl, rfl, hj⟩

/-- The row holds size zero and the etag that the server reports after the run, and the run leaves it
alone: the directory is ignored, or in a conflict, which is not handled, or the row cannot be
written. -/
structure RowIsCurrent (κ : EngineConfig) (ω : Calls) (ε ε' : Env) (σ : State) (d : Path) : Prop where
  row : σ.journal.baseline d = some (trimQuotes (ε'.dirEtag d), 0)
  kept : ω.unwritten d = true ∨ instruction κ ε (ω.read σ) d = .ignore ∨
    instruction κ ε (ω.read σ) d = .conflict

section Directory

variable {d : Path} (hrun : ErrorFree κ ε π) (hne : d ≠ [])
  (hd : (runSync κ ε π).2.disk.get d = some Node.dir)
  (hs : (runSync κ ε π).2.space.get d = some Node.dir)

include hrun hs in
/-- A collection at the end of the run where there was no local directory was there all along,
and its path had no file task that transferred it. -/
lemma space_dir_initial (hdisk : σ.disk.get d ≠ some Node.dir) {pre post : List Item}
    (hsplit : tasks κ ε π = pre ++ post) :
    (stateAfter κ ε σ pre).space.get d = some Node.dir := by
  by_contra hno
  have hend : (stateAfter κ ε σ (tasks κ ε π)).space.get d ≠ some Node.dir := by
    unfold stateAfter
    rw [hsplit, (TaskRun.run_append pre post σ.started).1]
    refine TaskRun.run_invariant (s := stateAfter κ ε σ pre)
      (I := fun s : State => s.space.get d ≠ some Node.dir) hno (fun u hu s h => ?_)
    exact exec_space_noDir (π := π) (by rw [hsplit]; simp [hu]) hdisk h
  rw [(runSync_discovery (errorFree_iff.mp hrun).1).2.1] at hs
  exact hend hs

include hrun hs in
/-- No task transfers the path as a file: it would have stored or met one, which no collection
replaces. -/
lemma isDir_of_transfer {t : Item} (ht : t ∈ tasks κ ε π) (htd : t.path = d)
    (hdel : t.instr.isDelete = false) : t.isDir = true := by
  subst htd
  obtain ⟨-, -, hdir, -⟩ := item_of_mem ht
  by_contra hfile
  rw [Bool.not_eq_true] at hfile
  obtain ⟨pre, post, hsplit⟩ := List.append_of_mem ht
  obtain ⟨-, f, -, hf⟩ := files_own hfile (transfer_of_mem ht hdel) (hrun.ok_at hsplit)
  have hlast : tasks κ ε π = (pre ++ [t]) ++ post := by rw [hsplit]; simp
  have hcoll := space_dir_initial hrun hs
    (isDirPath_eq_false.mp (hdir.symm.trans hfile)).1 hlast
  rw [stateAfter_concat] at hcoll
  exact absurd (hf.symm.trans hcoll) (by simp)

include hrun hs in
/-- A directory that is in conflict keeps its row, since nothing handles it. -/
lemma row_of_conflict (hne : d ≠ []) (hp : σ.Present d) (hi : instruction κ ε σ d = .conflict) :
    (runSync κ ε π).2.journal d = σ.journal d := by
  have ht : itemOf κ ε σ d ∈ tasks κ ε π := itemOf_mem_tasks hne hp (by rw [hi]; simp)
  have hdir := isDir_of_transfer hrun hs ht rfl (by rw [itemOf, hi]; rfl)
  obtain ⟨pre, post, hsplit, hj⟩ := journal_of_task (errorFree_iff.mp hrun).1 ht
  refine hj.trans ?_
  have hinstr : (itemOf κ ε σ d).instr = .conflict := hi
  simp only [exec, hdir, if_true, execDir, hinstr]
  exact journal_before (fun u hu => path_ne_of_before hsplit hu)

include hrun hs in
/-- A directory that is neither ignored nor in conflict has afterwards no row, or one with an empty
etag. -/
lemma row_of_task (hne : d ≠ []) (hp : σ.Present d) (hi : instruction κ ε σ d ≠ .ignore)
    (hc : instruction κ ε σ d ≠ .conflict) :
    ((instruction κ ε σ d).isDelete = true ∧ (runSync κ ε π).2.journal d = none) ∨
      ∃ fid, (runSync κ ε π).2.journal d = some (dirRow d fid) := by
  have ht : itemOf κ ε σ d ∈ tasks κ ε π := itemOf_mem_tasks hne hp hi
  obtain ⟨pre, post, hsplit, hj⟩ := journal_of_task (errorFree_iff.mp hrun).1 ht
  rcases own_row ht (hrun.ok_at hsplit) with
    ⟨hdel, hrow⟩ | ⟨-, -, fid, hrow⟩ | ⟨h, -⟩ | ⟨hdel, hfile, -⟩
  · exact Or.inl ⟨hdel, hj.trans hrow⟩
  · exact Or.inr ⟨fid, hj.trans hrow⟩
  · exact absurd h hc
  · rw [isDir_of_transfer hrun hs ht rfl hdel] at hfile
    cases hfile

include hrun hs in
/-- A directory of both sides was there before the run. -/
lemma present_of_both : σ.Present d := by
  by_contra hp
  have h := space_dir_initial (π := π) hrun hs (by rw [disk_of_gone hp]; simp)
    (List.nil_append _).symm
  exact absurd ((space_of_gone hp).symm.trans h) (by simp)

end Directory

section Silent

variable {ω ω' : Calls} {d : Path} (hplain : σ.Plain) (hrun : ω.ErrorFree κ ε π) (hne : d ≠ [])
  (hs : (ω.runSync κ ε π).2.space.get d = some Node.dir)

include hplain hrun hne hs in
/-- The row of a directory that is ignored, in conflict, or cannot be written stays. -/
lemma row_stays (hkept : ω.unwritten d = true ∨ instruction κ ε (ω.read σ) d = .ignore ∨
    instruction κ ε (ω.read σ) d = .conflict) :
    (ω.runSync κ ε π).2.journal d = σ.journal d := by
  have hurl := Calls.served_of_plain (ω := ω) (κ := κ) (ε := ε) (π := π) hplain
  obtain ⟨-, hend⟩ := Calls.follows_runSync hurl
  have hcalm := (Calls.errorFree_iff hurl).mp hrun
  rw [hend.space] at hs
  rw [hend.journal d, Calls.row]
  cases hw : ω.unwritten d with
  | true => rfl
  | false =>
      -- with a journal that works the row would be the one that was read
      have hrow : (runSync κ ε (π.read ω)).2.journal d = (ω.read σ).journal d := by
        rcases hkept with h | hi | hc
        · rw [hw] at h; cases h
        · exact journal_without_task (errorFree_iff.mp hcalm).1 (fun u hu hud =>
            (mem_tasks.mp hu).2.2 ((item_of_mem hu).2.1.trans (hud ▸ hi)))
        · exact row_of_conflict hcalm hs hne (present_of_both hcalm hs) hc
      rw [hrow, Calls.read_journal]
      cases hr : ω.unread d <;> simp

include hplain hrun hne hs in
/-- Any other directory is left without an etag. -/
lemma no_etag (hkept : ¬ (ω.unwritten d = true ∨ instruction κ ε (ω.read σ) d = .ignore ∨
    instruction κ ε (ω.read σ) d = .conflict)) {e : Str} (he : e ≠ []) :
    (ω.runSync κ ε π).2.journal.baseline d ≠ some (e, 0) := by
  have hurl := Calls.served_of_plain (ω := ω) (κ := κ) (ε := ε) (π := π) hplain
  obtain ⟨-, hend⟩ := Calls.follows_runSync hurl
  have hcalm := (Calls.errorFree_iff hurl).mp hrun
  rw [hend.space] at hs
  have hj := hend.journal d
  rw [not_or, not_or, Bool.not_eq_true] at hkept
  obtain ⟨hw, hi, hc⟩ := hkept
  rw [Calls.row, hw] at hj
  rcases row_of_task hcalm hs hne (present_of_both hcalm hs) hi hc with ⟨hdel, hrow⟩ | ⟨fid, hrow⟩
  · have hr : ω.unread d = false := by
      by_contra h
      rw [Calls.not_delete_of_unread (by simpa using h)] at hdel
      cases hdel
    rw [hr, hrow] at hj
    rw [baseline_of_none (by simpa using hj)]
    simp
  · have hj' : (ω.runSync κ ε π).2.journal d = some (dirRow d fid) := by
      rw [hj, hrow]
      cases ω.unread d <;> rfl
    rw [baseline_dirRow hj']
    simpa using he.symm

end Silent

/-- A server that tags its collections. -/
def taggedCollections : Env := { Env.calm with dirEtag := fun _ => "e1".toList }

/-- A directory of both sides, with a row that holds the etag of the collection. -/
def rowWithEtag : State where
  disk := Tree.ofList [(["d".toList], Node.dir)]
  space := Tree.ofList [(["d".toList], Node.dir)]
  journal := Journal.upsertEntry (fun _ => none) ["d".toList]
    (fileRow ["d".toList] "e1".toList 0 none)
  sync := ⟨.idle, fun _ => none⟩

lemma rowWithEtag_plain : rowWithEtag.Plain := by
  intro p hp
  have hp' : p = [] ∨ p = ["d".toList] := by
    rcases hp with h | h
    · simpa using Tree.ofList_mem h
    · simpa using Tree.ofList_mem h
  rcases hp' with rfl | rfl
  · simp
  · decide

/-- A directory that is new on the server. -/
def newCollection : State where
  disk := Tree.ofList []
  space := Tree.ofList [(["d".toList], Node.dir)]
  journal := fun _ => none
  sync := ⟨.idle, fun _ => none⟩

/-- The one collection. -/
def newCollectionSchedule : Schedule newCollection :=
  Schedule.ofList newCollection rfl rfl [["d".toList]] (by decide) (by decide) (by decide)

end OwncloudSync
