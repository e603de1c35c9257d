import OwncloudSync.Engine.Names
import OwncloudSync.Lib.InodeFs
import Mathlib.Data.Fin.VecNotation
import Mathlib.Data.Fintype.Basic
import Mathlib.Logic.Function.Basic
import Mathlib.Tactic.Common

/-!
# Downloads in parallel

The file phase spawns its tasks at once, so the file system steps of several downloads
interleave.  Here a download is the sequence of steps that `propagate_download` takes on the
disk after its GET: create the temp file, write the body in pieces, flush, rename onto the
destination; a failed rename is followed by an attempt to remove the temp file.  A Conflict task
renames the local file aside before that.  **Every step may fail**, whatever the reason, and the
order of the steps of different tasks is arbitrary.

Tasks share the disk through three names each: destination, temp file and conflict copy.
`NamesApart` says that these do not meet across tasks, and `noInterference_iff` that this is
exactly when every task that returns `Ok` leaves its own body at its own destination.

* If the names are apart, each task keeps its own invariant `Progress`, and no step of another
  task can break it (`step_progress`, `step_frame`).
* If two temp files are one, the second `create` truncates what the first task has written, and
  the first rename moves the second body.  A conflict copy that is another task's destination
  or temp file replaces its content.
-/

namespace OwncloudSync

/-- The disk, with its inodes. -/
abbrev Fs := InodeFs Path UInt8

/-- A Download or Conflict task, as far as it concerns the disk. -/
structure DownloadTask where
  localDest : Path
  body : List UInt8
  /-- where a Conflict task moves the local file first -/
  aside : Option Path

/-- The file that the task writes first. -/
def DownloadTask.tmp (t : DownloadTask) : Path := tmpPath t.localDest

/-- How far a task has come. -/
inductive Phase where
  | started
  | ready
  | writing (k pos : ℕ)
  | flushed
  | renameFailed
  | ok
  | err
  deriving DecidableEq

/-- The next call of a task: it goes through, a write with at most `n` bytes, or it fails. -/
inductive Event where
  | go (n : ℕ)
  | fail

/-- One step of a task on the disk. -/
def DownloadTask.step (t : DownloadTask) (e : Event) (fs : Fs) : Phase → Fs × Phase
  | .started =>
      match e, t.aside with
      | .fail, _ => (fs, .err)
      | .go _, none => (fs, .ready)
      | .go _, some c =>
          match fs.rename? t.localDest c with
          | some fs' => (fs', .ready)
          | none => (fs, .err)
  | .ready =>
      match e with
      | .fail => (fs, .err)
      | .go _ => ((fs.create t.tmp).1, .writing (fs.create t.tmp).2 0)
  | .writing k pos =>
      match e with
      | .fail => (fs, .err)
      | .go n =>
          if pos < t.body.length then
            (fs.write k pos ((t.body.drop pos).take n),
              .writing k (pos + ((t.body.drop pos).take n).length))
          else (fs, .flushed)
  | .flushed =>
      match e with
      | .fail => (fs, .renameFailed)
      | .go _ =>
          match fs.rename? t.tmp t.localDest with
          | some fs' => (fs', .ok)
          | none => (fs, .renameFailed)
  | .renameFailed =>
      match e with
      | .fail => (fs, .err)
      | .go _ => (fs.unlink t.tmp, .err)
  | .ok => (fs, .ok)
  | .err => (fs, .err)

/-- The tasks of a run and the disk they share. -/
structure Threads (ι : Type) where
  fs : Fs
  phase : ι → Phase

/-- The task has returned. -/
def Phase.finished : Phase → Bool
  | .ok => true
  | .err => true
  | _ => false

variable {ι : Type} [DecidableEq ι] {τ : ι → DownloadTask} {s s' : Threads ι} {i j : ι}

/-- The task `e.1` takes a step. -/
def stepOne (tasks : ι → DownloadTask) (s : Threads ι) (e : ι × Event) : Threads ι :=
  let r := (tasks e.1).step e.2 s.fs (s.phase e.1)
  ⟨r.1, Function.update s.phase e.1 r.2⟩

/-- The steps of an interleaving, one after another. -/
def interleave (tasks : ι → DownloadTask) (s : Threads ι) (order : List (ι × Event)) :
    Threads ι := order.foldl (stepOne tasks) s

/-- No task has begun. -/
def Threads.start (fs : Fs) : Threads ι := ⟨fs, fun _ => .started⟩

/-- The tasks with the given destinations, conflict copies and response bodies. -/
def downloads (dest : ι → Path) (aside : ι → Option Path) (body : ι → List UInt8) (i : ι) :
    DownloadTask := ⟨dest i, body i, aside i⟩

/-- **No task spoils the result of another**: whatever the bodies, the disk and the interleaving,
when all tasks have finished, each that returned `Ok` has its own body at its destination. -/
def NoInterference (dest : ι → Path) (aside : ι → Option Path) : Prop :=
  ∀ (body : ι → List UInt8) (fs : Fs) (order : List (ι × Event)) (s : Threads ι),
    s = interleave (downloads dest aside body) (Threads.start fs) order →
    (∀ i, (s.phase i).finished = true) →
      ∀ i, s.phase i = .ok → s.fs.read (dest i) = some (body i)

/-- The temp files of two tasks are two, and no conflict copy is the destination or the temp file
of another task. -/
def NamesApart (dest : ι → Path) (aside : ι → Option Path) : Prop :=
  ∀ i j, i ≠ j → tmpPath (dest i) ≠ tmpPath (dest j) ∧
    ∀ c, aside i = some c → c ≠ dest j ∧ c ≠ tmpPath (dest j)

/-! ## Tasks whose names are apart -/

/-- What a task has achieved by itself. -/
def DownloadTask.Progress (t : DownloadTask) (fs : Fs) : Phase → Prop
  | .writing k pos => fs.ino t.tmp = some k ∧ pos ≤ t.body.length ∧ fs.data k = t.body.take pos
  | .flushed => fs.read t.tmp = some t.body
  | .ok => fs.read t.localDest = some t.body
  | _ => True

variable {t : DownloadTask} {fs : Fs} {ph : Phase} {e : Event} {q : Path} {k : ℕ}

/-- A task makes progress. -/
lemma step_progress (h : t.Progress fs ph) :
    t.Progress (t.step e fs ph).1 (t.step e fs ph).2 := by
  cases ph with
  | started =>
      simp only [DownloadTask.step]
      split
      · trivial
      · trivial
      · split <;> trivial
  | ready =>
      cases e with
      | fail => trivial
      | go n =>
          exact ⟨InodeFs.create_ino.trans (if_pos rfl), Nat.zero_le _,
            InodeFs.create_data_self.trans List.take_zero.symm⟩
  | writing k pos =>
      obtain ⟨hk, hpos, hdata⟩ := h
      cases e with
      | fail => trivial
      | go n =>
          simp only [DownloadTask.step]
          split
          · -- the write goes on where the data ends
            have hlen : (t.body.take pos).length = pos := List.length_take_of_le hpos
            refine ⟨hk, ?_, ?_⟩
            · simp only [List.length_take, List.length_drop]
              omega
            · rw [InodeFs.write_data_self, hdata]
              nth_rewrite 2 [← hlen]
              rw [InodeFs.overwrite_end, List.take_add, List.length_take]
              congr 1
              exact List.take_eq_take_iff.mpr (by omega)
          · rename_i hend
            refine (InodeFs.read_eq_some hk).trans ?_
            rw [hdata, List.take_of_length_le (by omega)]
  | flushed =>
      cases e with
      | fail => trivial
      | go n =>
          simp only [DownloadTask.step]
          split
          · rename_i fs' hr
            exact (InodeFs.rename?_read hr).trans h
          · trivial
  | renameFailed => cases e <;> trivial
  | ok => exact h
  | err => trivial

/-- In its present phase the task does nothing to the file `q` with the inode `k`.  The name of the
copy matters in the first step only, and an open temp file while there is something to write. -/
def DownloadTask.Spares (t : DownloadTask) (q : Path) (k : ℕ) : Phase → Prop
  | .started => q ≠ t.localDest ∧ t.aside ≠ some q
  | .ready => q ≠ t.tmp
  | .writing j pos => pos < t.body.length → j ≠ k
  | .flushed => q ≠ t.tmp ∧ q ≠ t.localDest
  | .renameFailed => q ≠ t.tmp
  | _ => True

/-- What a task spares, its step leaves alone. -/
lemma step_spares (h : t.Spares q k ph) (hq : fs.ino q = some k) :
    (t.step e fs ph).1.ino q = some k ∧ (t.step e fs ph).1.data k = fs.data k := by
  cases ph with
  | started =>
      obtain ⟨hdest, haside⟩ := h
      simp only [DownloadTask.step]
      split
      · exact ⟨hq, rfl⟩
      · exact ⟨hq, rfl⟩
      · rename_i c hc
        have hqc : q ≠ c := by
          rintro rfl
          exact haside hc
        split
        · rename_i fs' hr
          obtain ⟨hdata, -⟩ := InodeFs.rename?_eq_some hr
          exact ⟨(InodeFs.rename?_other hr hdest hqc).trans hq, by rw [hdata]⟩
        · exact ⟨hq, rfl⟩
  | ready =>
      cases e with
      | fail => exact ⟨hq, rfl⟩
      | go n =>
          exact ⟨InodeFs.create_ino.trans ((if_neg h).trans hq),
            InodeFs.create_data_ne (InodeFs.create_ne hq h)⟩
  | writing j pos =>
      cases e with
      | fail => exact ⟨hq, rfl⟩
      | go n =>
          simp only [DownloadTask.step]
          split
          · rename_i hpos
            exact ⟨hq, InodeFs.write_data_ne (Ne.symm (h hpos))⟩
          · exact ⟨hq, rfl⟩
  | flushed =>
      cases e with
      | fail => exact ⟨hq, rfl⟩
      | go n =>
          simp only [DownloadTask.step]
          split
          · rename_i fs' hr
            obtain ⟨hdata, -⟩ := InodeFs.rename?_eq_some hr
            exact ⟨(InodeFs.rename?_other hr h.1 h.2).trans hq, by rw [hdata]⟩
          · exact ⟨hq, rfl⟩
  | renameFailed =>
      cases e with
      | fail => exact ⟨hq, rfl⟩
      | go n => exact ⟨InodeFs.unlink_ino.trans ((if_neg h).trans hq), rfl⟩
  | ok => exact ⟨hq, rfl⟩
  | err => exact ⟨hq, rfl⟩

/-- A task that has kept to its own temp file spares every name but its own three. -/
lemma spares_of_ne (h : t.Progress fs ph) (htmp : q ≠ t.tmp) (hdest : q ≠ t.localDest)
    (haside : ph = .started → ∀ c, t.aside = some c → q ≠ c) (hq : fs.ino q = some k) :
    t.Spares q k ph := by
  cases ph with
  | started => exact ⟨hdest, fun hc => haside rfl q hc rfl⟩
  | ready => exact htmp
  | writing j pos =>
      rintro - rfl
      exact htmp (fs.inj q t.tmp j hq h.1)
  | flushed => exact ⟨htmp, hdest⟩
  | renameFailed => exact htmp
  | ok => trivial
  | err => trivial

lemma step_frame (h : t.Progress fs ph) (htmp : q ≠ t.tmp) (hdest : q ≠ t.localDest)
    (haside : ph = .started → ∀ c, t.aside = some c → q ≠ c) (hq : fs.ino q = some k) :
    (t.step e fs ph).1.ino q = some k ∧ (t.step e fs ph).1.data k = fs.data k :=
  step_spares (spares_of_ne h htmp hdest haside hq) hq

/-- The frame in terms of what is read. -/
lemma step_read (h : t.Progress fs ph) (htmp : q ≠ t.tmp) (hdest : q ≠ t.localDest)
    (haside : ph = .started → ∀ c, t.aside = some c → q ≠ c) {bytes : List UInt8}
    (hq : fs.read q = some bytes) : (t.step e fs ph).1.read q = some bytes := by
  obtain ⟨k, hk, hdata⟩ := Option.map_eq_some_iff.mp hq
  obtain ⟨hino, hsame⟩ := step_frame (e := e) h htmp hdest haside hk
  rw [InodeFs.read_eq_some hino, hsame, hdata]

/-- The progress of a task survives the steps of a task whose names are apart. -/
lemma other_progress {u : DownloadTask} {phu : Phase} (hu : u.Progress fs phu)
    (h : t.Progress fs ph) (htt : u.tmp ≠ t.tmp) (htd : u.tmp ≠ t.localDest)
    (hdt : u.localDest ≠ t.tmp) (hdd : u.localDest ≠ t.localDest)
    (ha : ∀ c, t.aside = some c → u.tmp ≠ c ∧ u.localDest ≠ c) :
    u.Progress (t.step e fs ph).1 phu := by
  cases phu with
  | writing k pos =>
      obtain ⟨hk, hpos, hdata⟩ := hu
      obtain ⟨hino, hsame⟩ := step_frame (e := e) h htt htd (fun _ c hc => (ha c hc).1) hk
      exact ⟨hino, hpos, hsame.trans hdata⟩
  | flushed => exact step_read h htt htd (fun _ c hc => (ha c hc).1) hu
  | ok => exact step_read h hdt hdd (fun _ c hc => (ha c hc).2) hu
  | _ => trivial

/-- Every task of the run keeps to its own progress. -/
def AllProgress (tasks : ι → DownloadTask) (s : Threads ι) : Prop :=
  ∀ i, (tasks i).Progress s.fs (s.phase i)

section Apart

variable {dest : ι → Path} {aside : ι → Option Path} {body : ι → List UInt8}
  (hdest : Function.Injective dest) (hapart : NamesApart dest aside)

include hdest hapart in
lemma stepOne_progress {e : ι × Event} (h : AllProgress (downloads dest aside body) s) :
    AllProgress (downloads dest aside body) (stepOne (downloads dest aside body) s e) := by
  obtain ⟨j, ev⟩ := e
  -- a temp file that is a destination is also the temp file of that destination
  have hcross : ∀ a b, a ≠ b → tmpPath (dest a) ≠ dest b := by
    intro a b hab hc
    have htmp := tmpPath_tmpPath (p := dest a)
    rw [hc] at htmp
    exact (hapart b a (Ne.symm hab)).1 (htmp.trans hc.symm)
  refine (Function.forall_update_iff s.phase
    (fun i ph => (downloads dest aside body i).Progress _ ph)).mpr
      ⟨step_progress (h j), fun i hij => ?_⟩
  refine other_progress (h i) (h j) (hapart i j hij).1 (hcross i j hij)
    (Ne.symm (hcross j i (Ne.symm hij))) (fun hc => hij (hdest hc)) (fun c hc => ?_)
  obtain ⟨hd, ht⟩ := (hapart j i (Ne.symm hij)).2 c hc
  exact ⟨Ne.symm ht, Ne.symm hd⟩

include hdest hapart in
lemma interleave_progress {order : List (ι × Event)}
    (h : AllProgress (downloads dest aside body) s) :
    AllProgress (downloads dest aside body)
      (interleave (downloads dest aside body) s order) := by
  induction order generalizing s with
  | nil => exact h
  | cons e rest ih => exact ih (stepOne_progress hdest hapart h)

include hdest hapart in
/-- Tasks whose names are apart do not interfere. -/
theorem noInterference_of_namesApart : NoInterference dest aside := by
  rintro body fs order s rfl - i hi
  have h : AllProgress (downloads dest aside body)
      (interleave (downloads dest aside body) (Threads.start fs) order) :=
    interleave_progress hdest hapart (fun _ => trivial)
  have hown := h i
  rw [hi] at hown
  exact hown

end Apart

/-! ## Tasks whose names meet -/

/-- Some interleaving leads from one state to the other. -/
def Reaches (tasks : ι → DownloadTask) (s s' : Threads ι) : Prop :=
  ∃ order, s' = interleave tasks s order

lemma Reaches.trans {s'' : Threads ι} (h : Reaches τ s s') (h' : Reaches τ s' s'') :
    Reaches τ s s'' := by
  obtain ⟨o, rfl⟩ := h
  obtain ⟨o', rfl⟩ := h'
  exact ⟨o ++ o', (List.foldl_append).symm⟩

lemma reaches_step (e : Event) {fs' : Fs} {ph' : Phase}
    (h : (τ i).step e s.fs (s.phase i) = (fs', ph')) :
    Reaches τ s ⟨fs', Function.update s.phase i ph'⟩ := by
  refine ⟨[(i, e)], ?_⟩
  simp only [interleave, List.foldl_cons, List.foldl_nil, stepOne, h]

/-- The task has come to the given phase and no other task has moved. -/
def Moved (τ : ι → DownloadTask) (s s' : Threads ι) (i : ι) (ph : Phase) : Prop :=
  Reaches τ s s' ∧ s'.phase i = ph ∧ ∀ j, j ≠ i → s'.phase j = s.phase j

lemma moved_step (e : Event) {fs' : Fs} {ph' : Phase}
    (h : (τ i).step e s.fs (s.phase i) = (fs', ph')) :
    Moved τ s ⟨fs', Function.update s.phase i ph'⟩ i ph' :=
  ⟨reaches_step e h, Function.update_self _ _ _, fun _ hj => Function.update_of_ne hj _ _⟩

lemma Moved.trans {s'' : Threads ι} {ph' : Phase} (h : Moved τ s s' i ph)
    (h' : Moved τ s' s'' i ph') : Moved τ s s'' i ph' :=
  ⟨h.1.trans h'.1, h'.2.1, fun j hj => (h'.2.2 j hj).trans (h.2.2 j hj)⟩

/-- A Conflict task moves its file to the name of the copy. -/
lemma reaches_aside {c : Path} (hi : s.phase i = .started) (hc : (τ i).aside = some c)
    (hk : s.fs.ino (τ i).localDest = some k) :
    ∃ s', Moved τ s s' i .ready ∧ s'.fs.data = s.fs.data ∧ s'.fs.ino c = some k ∧
      ∀ q, q ≠ (τ i).localDest → q ≠ c → s'.fs.ino q = s.fs.ino q := by
  obtain ⟨fs', hr⟩ := InodeFs.rename?_isSome (q := c) hk
  refine ⟨_, moved_step (.go 0) ?_, (InodeFs.rename?_eq_some hr).1,
    InodeFs.rename?_dest hr hk, fun q h₁ h₂ => InodeFs.rename?_other hr h₁ h₂⟩
  simp only [hi, DownloadTask.step, hc, hr]

/-- A task whose destination is there gets ready, and every other name stays in use. -/
lemma reaches_ready (hi : s.phase i = .started) (hd : s.fs.ino (τ i).localDest ≠ none) :
    ∃ s', Moved τ s s' i .ready ∧ s'.fs.data = s.fs.data ∧
      ∀ q, q ≠ (τ i).localDest → s.fs.ino q ≠ none → s'.fs.ino q ≠ none := by
  obtain ⟨k, hk⟩ := Option.ne_none_iff_exists'.mp hd
  cases hc : (τ i).aside with
  | none =>
      have hgo : (τ i).step (.go 0) s.fs (s.phase i) = (s.fs, .ready) := by
        simp only [hi, DownloadTask.step, hc]
      exact ⟨_, moved_step (.go 0) hgo, rfl, fun q _ hq => hq⟩
  | some c =>
      obtain ⟨s', hmoved, hdata, hino, hother⟩ := reaches_aside hi hc hk
      refine ⟨s', hmoved, hdata, fun q hq hqn => ?_⟩
      by_cases hqc : q = c
      · rw [hqc, hino]; simp
      · rw [hother q hq hqc]; exact hqn

/-- A task that is ready writes its body, and touches nothing but its temp file. -/
lemma reaches_flushed (hi : s.phase i = .ready) (hb : (τ i).body ≠ []) :
    ∃ s' k, Moved τ s s' i .flushed ∧ s'.fs.ino (τ i).tmp = some k ∧
      s'.fs.data k = (τ i).body ∧ (∀ j, j ≠ k → s'.fs.data j = s.fs.data j) ∧
      ∀ q, q ≠ (τ i).tmp → s'.fs.ino q = s.fs.ino q := by
  have hpos : 0 < (τ i).body.length := List.length_pos_iff.mpr hb
  have h₁ := moved_step (τ := τ) (i := i) (s := s) (.go 0)
    (by simp only [hi, DownloadTask.step]; rfl)
  set f₁ := (s.fs.create (τ i).tmp).1 with hf₁
  set k := (s.fs.create (τ i).tmp).2 with hk
  -- the whole body in one write
  have h₂ := moved_step (τ := τ) (i := i)
    (s := ⟨f₁, Function.update s.phase i (.writing k 0)⟩) (.go (τ i).body.length)
    (by simp only [Function.update_self, DownloadTask.step, hpos, if_true]; rfl)
  simp only [List.drop_zero, List.take_length, Nat.zero_add] at h₂
  have h₃ := moved_step (τ := τ) (i := i)
    (s := ⟨f₁.write k 0 (τ i).body, Function.update (Function.update s.phase i (.writing k 0)) i
      (.writing k (τ i).body.length)⟩) (.go 0)
    (by simp only [Function.update_self, DownloadTask.step, Nat.lt_irrefl, if_false]; rfl)
  refine ⟨_, k, h₁.trans (h₂.trans h₃), ?_, ?_, fun j hj => ?_, fun q hq => ?_⟩
  · exact InodeFs.create_ino.trans (if_pos rfl)
  · refine InodeFs.write_data_self.trans ?_
    rw [hf₁, hk, InodeFs.create_data_self]
    simp [InodeFs.overwrite]
  · exact (InodeFs.write_data_ne hj).trans (InodeFs.create_data_ne hj)
  · exact InodeFs.create_ino.trans (if_neg hq)

/-- A task that has flushed moves whatever its temp name points to. -/
lemma reaches_renamed (hi : s.phase i = .flushed) (hk : s.fs.ino (τ i).tmp = some k) :
    ∃ s', Moved τ s s' i .ok ∧ s'.fs.data = s.fs.data ∧
      s'.fs.ino (τ i).localDest = some k ∧
      ∀ q, q ≠ (τ i).tmp → q ≠ (τ i).localDest → s'.fs.ino q = s.fs.ino q := by
  obtain ⟨fs', hr⟩ := InodeFs.rename?_isSome (q := (τ i).localDest) hk
  refine ⟨_, moved_step (.go 0) ?_, (InodeFs.rename?_eq_some hr).1,
    InodeFs.rename?_dest hr hk, fun q h₁ h₂ => InodeFs.rename?_other hr h₁ h₂⟩
  simp only [hi, DownloadTask.step, hr]

/-- Two tasks that share a temp file: the first ends with the body of the second. -/
lemma shared_temp {dest : ι → Path} (aside : ι → Option Path) (hij : i ≠ j)
    (hdd : dest i ≠ dest j) (hm : tmpPath (dest i) = tmpPath (dest j))
    (hdi : fs.ino (dest i) ≠ none) (hdj : fs.ino (dest j) ≠ none) :
    ∃ body s k, Reaches (downloads dest aside body) (Threads.start fs) s ∧ s.phase i = .ok ∧
      s.fs.ino (dest i) = some k ∧ s.fs.data k ≠ body i := by
  let body : ι → List UInt8 := fun l => if l = i then [1] else [2]
  let τ := downloads dest aside body
  have hbi : (τ i).body = [1] := if_pos rfl
  have hbj : (τ j).body = [2] := if_neg (Ne.symm hij)
  -- both tasks get ready, and write the one temp file one after the other
  obtain ⟨s₁, ⟨r₁, hi₁, ho₁⟩, -, hkeep⟩ := reaches_ready (τ := τ) (i := i)
    (s := Threads.start fs) rfl hdi
  obtain ⟨s₂, ⟨r₂, hj₂, ho₂⟩, -, -⟩ := reaches_ready (τ := τ) (ho₁ j (Ne.symm hij))
    (hkeep (dest j) (Ne.symm hdd) hdj)
  obtain ⟨s₃, k, ⟨r₃, hi₃, ho₃⟩, -⟩ := reaches_flushed (τ := τ) ((ho₂ i hij).trans hi₁)
    (by rw [hbi]; simp)
  obtain ⟨s₄, k', ⟨r₄, -, ho₄⟩, hk', hdata, -⟩ := reaches_flushed (τ := τ)
    ((ho₃ j (Ne.symm hij)).trans hj₂) (by rw [hbj]; simp)
  have hshared : s₄.fs.ino (τ i).tmp = some k' := by
    rw [show (τ i).tmp = (τ j).tmp from hm]
    exact hk'
  obtain ⟨s₅, ⟨r₅, hi₅, -⟩, hsame, hend, -⟩ :=
    reaches_renamed (τ := τ) ((ho₄ i hij).trans hi₃) hshared
  refine ⟨body, s₅, k', r₁.trans (r₂.trans (r₃.trans (r₄.trans r₅))), hi₅, hend, ?_⟩
  have hbody : body i = [1] := hbi
  rw [hsame, hdata, hbj, hbody]
  decide

/-- How many failures a task is away from its end. -/
def Phase.rank : Phase → ℕ
  | .ok => 0
  | .err => 0
  | .flushed => 2
  | _ => 1

lemma step_fail (t : DownloadTask) (fs : Fs) (ph : Phase) : (t.step .fail fs ph).1 = fs ∧
    (t.step .fail fs ph).2.rank = ph.rank - 1 ∧ (ph = .ok → (t.step .fail fs ph).2 = .ok) := by
  cases ph <;> simp [DownloadTask.step, Phase.rank]

/-- Failures change nothing on the disk and bring every task of the list closer to its end. -/
lemma reaches_fails (is : List ι) (s : Threads ι) :
    ∃ ph : ι → Phase, Reaches τ s ⟨s.fs, ph⟩ ∧ (∀ i, (ph i).rank ≤ (s.phase i).rank) ∧
      (∀ i ∈ is, (ph i).rank ≤ (s.phase i).rank - 1) ∧ ∀ i, s.phase i = .ok → ph i = .ok := by
  induction is generalizing s with
  | nil => exact ⟨s.phase, ⟨[], rfl⟩, fun i => le_rfl, by simp, fun i h => h⟩
  | cons j is ih =>
      obtain ⟨hfs, hrank, hok⟩ := step_fail (τ j) s.fs (s.phase j)
      set ph₁ := ((τ j).step .fail s.fs (s.phase j)).2 with hph₁
      have h₁ : Reaches τ s ⟨s.fs, Function.update s.phase j ph₁⟩ :=
        reaches_step .fail (Prod.ext hfs rfl)
      obtain ⟨ph, h₂, hle, hmem, hkeep⟩ := ih ⟨s.fs, Function.update s.phase j ph₁⟩
      have hupd : ∀ i, (Function.update s.phase j ph₁ i).rank ≤ (s.phase i).rank := by
        refine (Function.forall_update_iff s.phase
          (fun i ph => ph.rank ≤ (s.phase i).rank)).mpr ⟨?_, fun i _ => le_rfl⟩
        rw [hrank]
        exact Nat.sub_le _ _
      have hstill : ∀ i, s.phase i = .ok → Function.update s.phase j ph₁ i = .ok :=
        (Function.forall_update_iff s.phase (fun i ph => s.phase i = .ok → ph = .ok)).mpr
          ⟨hok, fun i _ h => h⟩
      refine ⟨ph, h₁.trans h₂, fun i => (hle i).trans (hupd i), fun i hi => ?_,
        fun i hi => hkeep i (hstill i hi)⟩
      rcases List.mem_cons.mp hi with rfl | hi
      · have h := hle i
        simp only [Function.update_self, hrank] at h
        exact h
      · exact (hmem i hi).trans (Nat.sub_le_sub_right (hupd i) 1)

/-- From every state all tasks can come to an end without touching the disk. -/
lemma reaches_finished [Fintype ι] (s : Threads ι) :
    ∃ ph : ι → Phase, Reaches τ s ⟨s.fs, ph⟩ ∧ (∀ i, (ph i).finished = true) ∧
      ∀ i, s.phase i = .ok → ph i = .ok := by
  obtain ⟨ph₁, h₁, -, hmem₁, hok₁⟩ := reaches_fails (τ := τ) Finset.univ.toList s
  obtain ⟨ph₂, h₂, -, hmem₂, hok₂⟩ :=
    reaches_fails (τ := τ) Finset.univ.toList ⟨s.fs, ph₁⟩
  refine ⟨ph₂, h₁.trans h₂, fun i => ?_, fun i hi => hok₂ i (hok₁ i hi)⟩
  -- no phase is more than two failures away from its end
  have hlast : (ph₂ i).rank = 0 := by
    have h₁ := hmem₁ i (by simp)
    have h₂ := hmem₂ i (by simp)
    have hmax : (s.phase i).rank ≤ 2 := by cases s.phase i <;> simp [Phase.rank]
    simp only at h₂
    omega
  revert hlast
  cases ph₂ i <;> simp [Phase.rank, Phase.finished]

/-- A disk with two files, each of which holds the byte 7. -/
def twoFiles (p q : Path) : Fs where
  ino r := if r = p then some 0 else if r = q then some 1 else none
  data _ := [7]
  next := 2
  below := by
    intro r k hr
    split at hr
    · cases hr; decide
    · split at hr
      · cases hr; decide
      · cases hr
  inj := by
    intro r r' k hr hr'
    split at hr <;> split at hr' <;> simp_all
    · omega
    · omega

lemma twoFiles_ino (p q : Path) : (twoFiles p q).ino p ≠ none ∧ (twoFiles p q).ino q ≠ none := by
  constructor
  · simp [twoFiles]
  · simp only [twoFiles]
    split <;> simp

section Meet

variable [Fintype ι] {dest : ι → Path} {aside : ι → Option Path} {body : ι → List UInt8}
  (hno : NoInterference dest aside)

include hno in
/-- A task that is done with the wrong content at its destination contradicts the property. -/
lemma spoiled (fs : Fs) (hreach : Reaches (downloads dest aside body) (Threads.start fs) s)
    (hi : s.phase i = .ok) (hk : s.fs.ino (dest i) = some k) : s.fs.data k = body i := by
  obtain ⟨ph, hend, hfin, hok⟩ := reaches_finished (τ := downloads dest aside body) s
  obtain ⟨order, horder⟩ := hreach.trans hend
  have h := hno body fs order _ horder hfin i (hok i hi)
  rw [InodeFs.read_eq_some hk] at h
  exact Option.some.inj h

include hno in
/-- Two tasks have two temp files. -/
lemma temps_apart (hij : i ≠ j) (hdd : dest i ≠ dest j) :
    tmpPath (dest i) ≠ tmpPath (dest j) := by
  intro hm
  obtain ⟨body, s, k, hreach, hok, hk, hwrong⟩ := shared_temp aside hij hdd hm
    (twoFiles_ino _ _).1 (twoFiles_ino _ _).2
  exact hwrong (spoiled hno _ hreach hok hk)

include hno in
/-- A conflict copy is not the destination or the temp file of another task. -/
lemma aside_apart (hij : i ≠ j) (hdd : dest i ≠ dest j)
    (htt : tmpPath (dest i) ≠ tmpPath (dest j)) {c : Path} (hc : aside i = some c) :
    c ≠ dest j ∧ c ≠ tmpPath (dest j) := by
  let body : ι → List UInt8 := fun _ => [1]
  let τ := downloads dest aside body
  have hcross : dest i ≠ tmpPath (dest j) := by
    intro h
    rw [h, tmpPath_tmpPath] at htt
    exact htt rfl
  -- the other task has written its temp file, and the file to be set aside is still there
  obtain ⟨s₁, ⟨r₁, hj₁, ho₁⟩, hdata₁, hkeep⟩ := reaches_ready (τ := τ) (i := j)
    (s := Threads.start (twoFiles (dest j) (dest i))) rfl (twoFiles_ino _ _).1
  obtain ⟨k₀, hk₁⟩ := Option.ne_none_iff_exists'.mp
    (hkeep (dest i) hdd (twoFiles_ino _ _).2)
  obtain ⟨s₂, k, ⟨r₂, hj₂, ho₂⟩, hk, -, hold, hino⟩ := reaches_flushed (τ := τ) hj₁
    (by simp [τ, downloads, body])
  have hi₂ : s₂.phase i = .started := (ho₂ i hij).trans (ho₁ i hij)
  have hk₂ : s₂.fs.ino (dest i) = some k₀ := (hino (dest i) hcross).trans hk₁
  have hseven : s₂.fs.data k₀ = [7] := by
    refine (hold k₀ ?_).trans (congrFun hdata₁ k₀)
    rintro rfl
    exact hcross (s₂.fs.inj _ _ _ hk₂ hk)
  have hwrong : ([7] : List UInt8) ≠ [1] := by decide
  constructor
  · rintro rfl
    obtain ⟨s₃, ⟨r₃, hj₃, ho₃⟩, hdata₃, -, hother⟩ := reaches_renamed (τ := τ) hj₂ hk
    obtain ⟨s₄, ⟨r₄, -, ho₄⟩, hdata₄, hmoved, -⟩ := reaches_aside (τ := τ)
      ((ho₃ i hij).trans hi₂) hc ((hother (dest i) hcross hdd).trans hk₂)
    have hspoiled := spoiled hno _ (r₁.trans (r₂.trans (r₃.trans r₄)))
      ((ho₄ j (Ne.symm hij)).trans hj₃) hmoved
    refine hwrong (hseven.symm.trans ?_)
    rw [← hdata₃, ← hdata₄]
    exact hspoiled
  · rintro rfl
    obtain ⟨s₃, ⟨r₃, -, ho₃⟩, hdata₃, hmoved, -⟩ := reaches_aside (τ := τ) hi₂ hc hk₂
    obtain ⟨s₄, ⟨r₄, hj₄, -⟩, hdata₄, hend, -⟩ := reaches_renamed (τ := τ)
      ((ho₃ j (Ne.symm hij)).trans hj₂) hmoved
    have hspoiled := spoiled hno _ (r₁.trans (r₂.trans (r₃.trans r₄))) hj₄ hend
    refine hwrong (hseven.symm.trans ?_)
    rw [← hdata₃, ← hdata₄]
    exact hspoiled

end Meet

/-- **Parallel downloads do not interfere, exactly**: tasks with different destinations keep their
results under every interleaving if and only if their temp files are different and no conflict
copy is the destination or the temp file of another task. -/
theorem noInterference_iff [Fintype ι] {dest : ι → Path} {aside : ι → Option Path}
    (hdest : Function.Injective dest) :
    NoInterference dest aside ↔ NamesApart dest aside := by
  constructor
  · intro hno i j hij
    have hdd : dest i ≠ dest j := fun h => hij (hdest h)
    have htt := temps_apart hno hij hdd
    exact ⟨htt, fun c hc => aside_apart hno hij hdd htt hc⟩
  · exact noInterference_of_namesApart hdest

/-- The theorem at `a.txt` and `b.txt`, whose temp files are `a.tmp` and `b.tmp`. -/
theorem noInterference_two : NoInterference ![["a.txt".toList], ["b.txt".toList]]
    (fun _ => none) := by
  have htmp : ∀ i j : Fin 2, i ≠ j →
      tmpPath (![["a.txt".toList], ["b.txt".toList]] i) ≠
        tmpPath (![["a.txt".toList], ["b.txt".toList]] j) := by decide
  exact (noInterference_iff (by decide)).mpr (fun i j hij => ⟨htmp i j hij, by simp⟩)

/-- The disk before the first sync. -/
def emptyFs : Fs where
  ino _ := none
  data _ := []
  next := 0
  below := by simp
  inj := by simp

/-- `a.txt` and `a.md` share the temp file `a.tmp`.  The first task writes it, the second
truncates it and writes its own body, and the first rename moves that to `a.txt`. -/
theorem downloads_interfere :
    ¬ ∀ (n : ℕ) (dest : Fin n → Path) (aside : Fin n → Option Path), Function.Injective dest →
      NoInterference dest aside := by
  intro h
  have hno := h 2 ![["a.txt".toList], ["a.md".toList]] ![none, none] (by decide)
    ![[1], [2]] emptyFs
    [(0, .go 0), (1, .go 0), (0, .go 0), (0, .go 1), (0, .go 0), (1, .go 0), (1, .go 1),
      (1, .go 0), (0, .go 0), (1, .go 0), (1, .go 0)] _ rfl (by decide) 0
    (by decide)
  exact absurd hno (by decide)

end OwncloudSync
