import OwncloudSync.Engine.ParallelDownload
import Mathlib.Tactic.Common

/-!
# Conflict copies

The Conflict tasks of one run on the shared disk: each renames its file to the name
`make_conflict_path` gives it at the second it is run, and downloads the other version to the old
name.  `rename` and `create` replace whatever has the new name, so a task may hit a bystander, such
as a file the user already keeps under a `_conflict_` name or beside a temp name, or the copy of
another task.

`keepsBoth_iff` says which folders are safe.  The names of the copies themselves never meet
(`copy_ne_copy`); what must be free is each of them, **and each temp name**, unless it is the very
path that is in conflict.
-/

namespace OwncloudSync

variable {ι : Type} {fs : Fs}

/-- The Conflict instructions of a run: files of the folder, and the second each task reads. -/
structure ConflictSet (ι : Type) (fs : Fs) where
  dest : ι → Path
  clock : ι → ℕ
  injective : Function.Injective dest
  present : ∀ i, fs.ino (dest i) ≠ none
  named : ∀ i, ∃ n p, dest i = n :: p ∧ n ≠ ['.', '.']

/-- The local file has been moved, and the task has not failed. -/
def Phase.setAside : Phase → Bool
  | .started => false
  | .err => false
  | _ => true

namespace ConflictSet

/-- The name of the copy. -/
def copy (c : ConflictSet ι fs) (i : ι) : Path := conflictPath (c.dest i) (c.clock i)

/-- The downloads, each with the copy that it makes first. -/
def tasks (c : ConflictSet ι fs) (body : ι → List UInt8) : ι → DownloadTask :=
  downloads c.dest (fun i => some (c.copy i)) body

/-- **Both versions are kept and nothing else is changed.**  When all tasks have finished, each that
returned `Ok` has the old content in its copy and the new content at its path; every other file of
the folder is as before; and a copy that was made at some point of the run is still there, whatever
became of its task. -/
def KeepsBoth [DecidableEq ι] (c : ConflictSet ι fs) : Prop :=
  ∀ (body : ι → List UInt8) (order later : List (ι × Event)) (s₁ s : Threads ι),
    s₁ = interleave (c.tasks body) (Threads.start fs) order →
    s = interleave (c.tasks body) s₁ later →
    (∀ i, (s.phase i).finished = true) →
      (∀ i, s.phase i = .ok →
        s.fs.read (c.copy i) = fs.read (c.dest i) ∧ s.fs.read (c.dest i) = some (body i)) ∧
      (∀ q bytes, (∀ i, q ≠ c.dest i) → fs.read q = some bytes → s.fs.read q = some bytes) ∧
      ∀ i, (s₁.phase i).setAside = true → s.fs.read (c.copy i) = fs.read (c.dest i)

/-- The names the tasks make up are free. -/
structure NamesFree (c : ConflictSet ι fs) : Prop where
  /-- a copy replaces nothing, or what has the same content -/
  copy_free : ∀ i, fs.read (c.copy i) = none ∨ fs.read (c.copy i) = fs.read (c.dest i)
  copy_ne_dest : ∀ i j, c.copy i ≠ c.dest j
  copy_ne_tmp : ∀ i j, c.copy i ≠ tmpPath (c.dest j)
  tmp_free : ∀ i, tmpPath (c.dest i) = c.dest i ∨ fs.read (tmpPath (c.dest i)) = none
  tmp_ne_tmp : ∀ i j, i ≠ j → tmpPath (c.dest i) ≠ tmpPath (c.dest j)

variable {c : ConflictSet ι fs} {i j : ι}

lemma exists_old (c : ConflictSet ι fs) (i : ι) : ∃ old, fs.read (c.dest i) = some old := by
  obtain ⟨k, hk⟩ := Option.ne_none_iff_exists'.mp (c.present i)
  exact ⟨_, InodeFs.read_eq_some hk⟩

/-- Copies of different files have different names. -/
lemma copy_ne_copy (hij : i ≠ j) : c.copy i ≠ c.copy j := by
  intro h
  obtain ⟨n, p, hn, hdot⟩ := c.named i
  obtain ⟨m, q, hm, hdot'⟩ := c.named j
  simp only [copy, hn, hm, conflictPath] at h
  obtain ⟨hname, rfl⟩ := List.cons.inj h
  obtain ⟨rfl, -⟩ := conflictName_inj hdot hdot' hname
  exact hij (c.injective (hn.trans hm.symm))

/-! ## Free names -/

section Free

variable (hfree : c.NamesFree) {body : ι → List UInt8} {s : Threads ι}

include hfree in
lemma namesApart : NamesApart c.dest (fun i => some (c.copy i)) := by
  intro i j hij
  refine ⟨hfree.tmp_ne_tmp i j hij, fun p hp => ?_⟩
  obtain rfl := Option.some.inj hp
  exact ⟨hfree.copy_ne_dest i j, hfree.copy_ne_tmp i j⟩

include hfree in
/-- No task writes its temp file over the file of another. -/
lemma dest_ne_tmp (hij : i ≠ j) : c.dest i ≠ tmpPath (c.dest j) := by
  intro h
  have htmp : tmpPath (c.dest i) = tmpPath (c.dest j) := by rw [h, tmpPath_tmpPath]
  exact hfree.tmp_ne_tmp i j hij htmp

include hfree in
lemma bystander_ne_tmp {q : Path} {bytes : List UInt8} (hq : ∀ i, q ≠ c.dest i)
    (hread : fs.read q = some bytes) : q ≠ tmpPath (c.dest i) := by
  rintro rfl
  rcases hfree.tmp_free i with h | h
  · exact hq i h
  · rw [h] at hread
    cases hread

/-- Where the old content of a file is. -/
def KeptAt (c : ConflictSet ι fs) (i : ι) (now : Fs) : Phase → Prop
  | .started => now.read (c.dest i) = fs.read (c.dest i)
  | .err => True
  | _ => now.read (c.copy i) = fs.read (c.dest i)

lemma keptAt_iff {now : Fs} {ph : Phase} (h : ph.setAside = true) :
    c.KeptAt i now ph ↔ now.read (c.copy i) = fs.read (c.dest i) := by
  cases ph with
  | started => cases h
  | err => cases h
  | _ => exact Iff.rfl

lemma setAside_of_ne {ph : Phase} (hstart : ph ≠ .started) (herr : ph ≠ .err) :
    ph.setAside = true := by
  cases ph with
  | started => exact absurd rfl hstart
  | err => exact absurd rfl herr
  | _ => rfl

lemma setAside_or_err (t : DownloadTask) (e : Event) (now : Fs) {ph : Phase}
    (h : ph ≠ .started) :
    (t.step e now ph).2 = .err ∨ (t.step e now ph).2.setAside = true := by
  cases ph with
  | started => exact absurd rfl h
  | ready => cases e <;> simp [DownloadTask.step, Phase.setAside]
  | writing k pos =>
      cases e with
      | fail => exact Or.inl rfl
      | go n =>
          simp only [DownloadTask.step]
          split <;> simp [Phase.setAside]
  | flushed =>
      cases e with
      | fail => exact Or.inr rfl
      | go n =>
          simp only [DownloadTask.step]
          split <;> simp [Phase.setAside]
  | renameFailed => cases e <;> exact Or.inl rfl
  | ok => exact Or.inr rfl
  | err => exact Or.inl rfl

variable [DecidableEq ι]

include hfree in
/-- Once a copy is made, no step of any task changes it. -/
lemma copy_stays {e : ι × Event} (hprog : AllProgress (c.tasks body) s)
    (hstart : s.phase i ≠ .started) (hread : s.fs.read (c.copy i) = fs.read (c.dest i)) :
    (stepOne (c.tasks body) s e).fs.read (c.copy i) = fs.read (c.dest i) := by
  obtain ⟨j, ev⟩ := e
  obtain ⟨old, hold⟩ := c.exists_old i
  rw [hold] at hread ⊢
  refine step_read (hprog j) (hfree.copy_ne_tmp i j) (hfree.copy_ne_dest i j) ?_ hread
  intro hph p hp
  obtain rfl := Option.some.inj hp
  refine copy_ne_copy ?_
  rintro rfl
  exact hstart hph

include hfree in
lemma keptAt_own {e : Event} (hprog : AllProgress (c.tasks body) s)
    (h : c.KeptAt i s.fs (s.phase i)) :
    c.KeptAt i ((c.tasks body i).step e s.fs (s.phase i)).1
      ((c.tasks body i).step e s.fs (s.phase i)).2 := by
  by_cases hstart : s.phase i = .started
  · rw [hstart] at h ⊢
    cases e with
    | fail => trivial
    | go n =>
        simp only [DownloadTask.step, tasks, downloads]
        split
        · rename_i fs' hr
          exact (InodeFs.rename?_read hr).trans h
        · trivial
  · by_cases herr : s.phase i = .err
    · rw [herr]
      trivial
    · have hset := setAside_of_ne hstart herr
      rcases setAside_or_err (c.tasks body i) e s.fs hstart with hend | hend
      · rw [hend]
        trivial
      · exact (keptAt_iff hend).mpr
          (copy_stays hfree (e := (i, e)) hprog hstart ((keptAt_iff hset).mp h))

include hfree in
lemma keptAt_other {e : Event} (hij : i ≠ j) (hprog : AllProgress (c.tasks body) s)
    (h : c.KeptAt i s.fs (s.phase i)) :
    c.KeptAt i ((c.tasks body j).step e s.fs (s.phase j)).1 (s.phase i) := by
  by_cases hstart : s.phase i = .started
  · rw [hstart] at h ⊢
    obtain ⟨old, hold⟩ := c.exists_old i
    simp only [KeptAt, hold] at h ⊢
    refine step_read (hprog j) (dest_ne_tmp hfree hij) (fun hd => hij (c.injective hd)) ?_ h
    intro _ p hp
    obtain rfl := Option.some.inj hp
    exact Ne.symm (hfree.copy_ne_dest j i)
  · by_cases herr : s.phase i = .err
    · rw [herr]
      trivial
    · have hset := setAside_of_ne hstart herr
      exact (keptAt_iff hset).mpr
        (copy_stays hfree (e := (j, e)) hprog hstart ((keptAt_iff hset).mp h))

include hfree in
/-- A step leaves every other file of the folder as it was. -/
lemma bystander_stays {e : ι × Event} {q : Path} {bytes : List UInt8}
    (hprog : AllProgress (c.tasks body) s) (hkept : ∀ i, c.KeptAt i s.fs (s.phase i))
    (hq : ∀ i, q ≠ c.dest i) (hread : fs.read q = some bytes)
    (h : s.fs.read q = some bytes) :
    (stepOne (c.tasks body) s e).fs.read q = some bytes := by
  obtain ⟨j, ev⟩ := e
  have htmp := bystander_ne_tmp (i := j) hfree hq hread
  by_cases hcopy : s.phase j = .started ∧ q = c.copy j
  · obtain ⟨hstart, rfl⟩ := hcopy
    -- the copy replaces a file with the same content
    have hsame : fs.read (c.dest j) = some bytes := by
      rcases hfree.copy_free j with hnone | hsame
      · rw [hnone] at hread
        cases hread
      · exact hsame.symm.trans hread
    cases ev with
    | fail =>
        simp only [stepOne, hstart, DownloadTask.step]
        exact h
    | go n =>
        have hown := keptAt_own hfree (e := .go n) hprog (hkept j)
        simp only [stepOne]
        rw [hstart] at hown ⊢
        simp only [DownloadTask.step, tasks, downloads] at hown ⊢
        split at hown
        · exact hown.trans hsame
        · exact h
  · refine step_read (hprog j) htmp (hq j) ?_ h
    intro hstart p hp hqp
    obtain rfl := Option.some.inj hp
    exact hcopy ⟨hstart, hqp⟩

/-- What every state of a run satisfies if the names are free. -/
structure Sound (c : ConflictSet ι fs) (body : ι → List UInt8) (s : Threads ι) : Prop where
  progress : AllProgress (c.tasks body) s
  kept : ∀ i, c.KeptAt i s.fs (s.phase i)
  bystanders : ∀ q bytes, (∀ i, q ≠ c.dest i) → fs.read q = some bytes → s.fs.read q = some bytes

include hfree in
lemma sound_step {e : ι × Event} (h : c.Sound body s) :
    c.Sound body (stepOne (c.tasks body) s e) where
  progress := stepOne_progress c.injective (namesApart hfree) h.progress
  kept := by
    obtain ⟨j, ev⟩ := e
    exact (Function.forall_update_iff s.phase (fun i ph => c.KeptAt i _ ph)).mpr
      ⟨keptAt_own hfree h.progress (h.kept j),
        fun i hij => keptAt_other hfree hij h.progress (h.kept i)⟩
  bystanders := fun q bytes hq hread =>
    bystander_stays hfree h.progress h.kept hq hread (h.bystanders q bytes hq hread)

include hfree in
lemma sound_run (order : List (ι × Event)) (h : c.Sound body s) :
    c.Sound body (interleave (c.tasks body) s order) := by
  induction order generalizing s with
  | nil => exact h
  | cons e rest ih => exact ih (sound_step hfree h)

lemma not_started_step {e : ι × Event} {τ : ι → DownloadTask} (h : s.phase i ≠ .started) :
    (stepOne τ s e).phase i ≠ .started := by
  obtain ⟨j, ev⟩ := e
  by_cases hij : i = j
  · subst hij
    simp only [stepOne, Function.update_self]
    rcases setAside_or_err (τ i) ev s.fs h with hend | hend
    · rw [hend]; simp
    · intro hc
      rw [hc] at hend
      cases hend
  · simp only [stepOne, Function.update_of_ne hij]
    exact h

include hfree in
lemma copy_stays_run {order : List (ι × Event)} (h : c.Sound body s)
    (hstart : s.phase i ≠ .started) (hread : s.fs.read (c.copy i) = fs.read (c.dest i)) :
    (interleave (c.tasks body) s order).fs.read (c.copy i) = fs.read (c.dest i) := by
  induction order generalizing s with
  | nil => exact hread
  | cons e rest ih =>
      exact ih (sound_step hfree h) (not_started_step hstart)
        (copy_stays hfree h.progress hstart hread)

include hfree in
/-- Where no two names meet, every local file is kept under its copy's name. -/
theorem keepsBoth_of_namesFree : c.KeepsBoth := by
  rintro body order later s₁ s rfl rfl -
  have hstart : c.Sound body (Threads.start fs) :=
    ⟨fun _ => trivial, fun _ => rfl, fun _ _ _ hread => hread⟩
  have h₁ := sound_run hfree order hstart
  have h := sound_run hfree later h₁
  refine ⟨fun i hok => ?_, h.bystanders, fun i hset => ?_⟩
  · have hprog := h.progress i
    have hkept := h.kept i
    rw [hok] at hprog hkept
    exact ⟨hkept, hprog⟩
  · refine copy_stays_run hfree h₁ ?_ ((keptAt_iff hset).mp (h₁.kept i))
    intro hc
    rw [hc] at hset
    cases hset

end Free

/-! ## Names in use -/

section InUse

variable [DecidableEq ι] [Fintype ι] (hkeeps : c.KeepsBoth) {body : ι → List UInt8}
  {s : Threads ι}

include hkeeps in
/-- The property holds in every state of a run: all tasks can come to an end from there without
touching the disk. -/
lemma holds_at (hreach : Reaches (c.tasks body) (Threads.start fs) s) :
    (∀ i, s.phase i = .ok → s.fs.read (c.dest i) = some (body i)) ∧
    (∀ q bytes, (∀ i, q ≠ c.dest i) → fs.read q = some bytes → s.fs.read q = some bytes) ∧
    ∀ i, (s.phase i).setAside = true → s.fs.read (c.copy i) = fs.read (c.dest i) := by
  obtain ⟨order, horder⟩ := hreach
  obtain ⟨ph, ⟨later, hlater⟩, hfin, hok⟩ := reaches_finished (τ := c.tasks body) s
  obtain ⟨hown, hother, hcopy⟩ := hkeeps body order later s _ horder hlater hfin
  exact ⟨fun i hi => (hown i (hok i hi)).2, hother, hcopy⟩

include hkeeps in
lemma tmp_ne_tmp_of_keeps (hij : i ≠ j) : tmpPath (c.dest i) ≠ tmpPath (c.dest j) := by
  intro hm
  obtain ⟨body, s, k, hreach, hok, hk, hwrong⟩ :=
    shared_temp (fun i => some (c.copy i)) hij (fun h => hij (c.injective h)) hm
      (c.present i) (c.present j)
  have hread := (holds_at hkeeps hreach).1 i hok
  rw [InodeFs.read_eq_some hk] at hread
  exact hwrong (Option.some.inj hread)

include hkeeps in
lemma copy_ne_dest_of_keeps (i j : ι) : c.copy i ≠ c.dest j := by
  intro hc
  by_cases hij : i = j
  · subst hij
    obtain ⟨n, p, hn, -⟩ := c.named i
    exact conflictPath_ne (by rw [hn]; simp) hc
  · obtain ⟨old, hold⟩ := c.exists_old i
    obtain ⟨k, hk⟩ := Option.ne_none_iff_exists'.mp (c.present i)
    let τ := c.tasks (fun _ => old ++ [0])
    -- the copy replaces the other file, whose task then downloads to it
    obtain ⟨s₁, ⟨r₁, hi₁, ho₁⟩, -, hk₁, -⟩ :=
      reaches_aside (τ := τ) (s := Threads.start fs) (i := i) rfl rfl hk
    have hin : s₁.fs.ino (c.dest j) ≠ none := by
      rw [← hc, hk₁]
      simp
    obtain ⟨s₂, ⟨r₂, hj₂, ho₂⟩, -, -⟩ :=
      reaches_ready (τ := τ) (i := j) (ho₁ j (Ne.symm hij)) hin
    obtain ⟨s₃, k₃, ⟨r₃, hj₃, ho₃⟩, hk₃, hdata₃, -⟩ := reaches_flushed (τ := τ) hj₂
      (by simp [τ, tasks, downloads])
    obtain ⟨s₄, ⟨r₄, -, ho₄⟩, hdata₄, hk₄, -⟩ := reaches_renamed (τ := τ) hj₃ hk₃
    have hphase : s₄.phase i = .ready :=
      (ho₄ i hij).trans ((ho₃ i hij).trans ((ho₂ i hij).trans hi₁))
    have hkept := (holds_at hkeeps (r₁.trans (r₂.trans (r₃.trans r₄)))).2.2 i
      (by rw [hphase]; rfl)
    have hnow : s₄.fs.read (c.dest j) = some (old ++ [0]) := by
      rw [InodeFs.read_eq_some (p := c.dest j) hk₄, hdata₄, hdata₃]
      rfl
    rw [hc, hnow, hold] at hkept
    simp at hkept

include hkeeps in
lemma copy_ne_tmp_of_keeps (i j : ι) : c.copy i ≠ tmpPath (c.dest j) := by
  intro hc
  obtain ⟨old, hold⟩ := c.exists_old i
  let τ := c.tasks (fun _ => old ++ [0])
  -- the copy is made, and the other task is about to create its temp file
  obtain ⟨s₁, r₁, hset, hj₁⟩ : ∃ s₁, Reaches τ (Threads.start fs) s₁ ∧
      s₁.phase i = .ready ∧ s₁.phase j = .ready := by
    obtain ⟨s₁, ⟨r₁, hj₁, ho₁⟩, -, hkeep⟩ := reaches_ready (τ := τ) (i := j)
      (s := Threads.start fs) rfl (c.present j)
    by_cases hij : i = j
    · exact ⟨s₁, r₁, hij ▸ hj₁, hj₁⟩
    · obtain ⟨s₂, ⟨r₂, hi₂, ho₂⟩, -, -⟩ := reaches_ready (τ := τ) (i := i) (ho₁ i hij)
        (hkeep (c.dest i) (fun h => hij (c.injective h)) (c.present i))
      exact ⟨s₂, r₁.trans r₂, hi₂, (ho₂ j (Ne.symm hij)).trans hj₁⟩
  obtain ⟨s₂, k, ⟨r₂, hj₂, ho₂⟩, hk, hdata, -⟩ := reaches_flushed (τ := τ) hj₁
    (by simp [τ, tasks, downloads])
  have hphase : (s₂.phase i).setAside = true := by
    by_cases hij : i = j
    · rw [hij, hj₂]; rfl
    · rw [ho₂ i hij, hset]; rfl
  have hkept := (holds_at hkeeps (r₁.trans r₂)).2.2 i hphase
  have hnow : s₂.fs.read (tmpPath (c.dest j)) = some (old ++ [0]) := by
    rw [InodeFs.read_eq_some (p := tmpPath (c.dest j)) hk, hdata]
    rfl
  rw [hc, hnow, hold] at hkept
  simp at hkept

include hkeeps in
lemma copy_free_of_keeps (i : ι) :
    fs.read (c.copy i) = none ∨ fs.read (c.copy i) = fs.read (c.dest i) := by
  cases hread : fs.read (c.copy i) with
  | none => exact Or.inl rfl
  | some bytes =>
      obtain ⟨k, hk⟩ := Option.ne_none_iff_exists'.mp (c.present i)
      obtain ⟨s₁, ⟨r₁, -, -⟩, hdata, hk₁, -⟩ :=
        reaches_aside (τ := c.tasks (fun _ => [])) (s := Threads.start fs) (i := i) rfl rfl hk
      have hkept := (holds_at hkeeps r₁).2.1 (c.copy i) bytes
        (fun j => copy_ne_dest_of_keeps hkeeps i j) hread
      rw [InodeFs.read_eq_some hk₁, hdata] at hkept
      exact Or.inr (hkept.symm.trans (InodeFs.read_eq_some hk).symm)

include hkeeps in
lemma tmp_free_of_keeps (i : ι) :
    tmpPath (c.dest i) = c.dest i ∨ fs.read (tmpPath (c.dest i)) = none := by
  by_cases hown : tmpPath (c.dest i) = c.dest i
  · exact Or.inl hown
  · refine Or.inr ?_
    cases hread : fs.read (tmpPath (c.dest i)) with
    | none => rfl
    | some bytes =>
        have hother : ∀ j, tmpPath (c.dest i) ≠ c.dest j := by
          intro j hj
          have hij : i ≠ j := by rintro rfl; exact hown hj
          have htmp : tmpPath (c.dest j) = tmpPath (c.dest i) := by rw [← hj, tmpPath_tmpPath]
          exact tmp_ne_tmp_of_keeps hkeeps hij htmp.symm
        let τ := c.tasks (fun _ => bytes ++ [0])
        obtain ⟨s₁, ⟨r₁, hi₁, -⟩, -, -⟩ := reaches_ready (τ := τ) (i := i)
          (s := Threads.start fs) rfl (c.present i)
        obtain ⟨s₂, k, ⟨r₂, -, -⟩, hk, hdata, -⟩ := reaches_flushed (τ := τ) hi₁
          (by simp [τ, tasks, downloads])
        have hkept := (holds_at hkeeps (r₁.trans r₂)).2.1 _ bytes hother hread
        have hnow : s₂.fs.read (tmpPath (c.dest i)) = some (bytes ++ [0]) := by
          rw [InodeFs.read_eq_some (p := tmpPath (c.dest i)) hk, hdata]
          rfl
        rw [hnow] at hkept
        simp at hkept

end InUse

end ConflictSet

/-- `a.txt` with the content `[0]`, and a file beside it with the content `[1]`. -/
def besideFs (q : Path) : Fs :=
  { twoFiles ["a.txt".toList] q with data := fun k => [UInt8.ofNat k] }

/-- `a.txt` is in conflict in the fifth second. -/
def besideConflict (q : Path) : ConflictSet (Fin 1) (besideFs q) where
  dest _ := ["a.txt".toList]
  clock _ := 5
  injective := fun i j _ => Subsingleton.elim i j
  present _ := (twoFiles_ino ["a.txt".toList] q).1
  named _ := ⟨_, _, rfl, by decide⟩

end OwncloudSync
