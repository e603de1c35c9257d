import OwncloudSync.Engine.Calls
import OwncloudSync.Engine.ParallelDownload
import Mathlib.Tactic.Common

/-!
# One write from outside

A run decides on what discovery saw and acts later.  Here its tasks take their steps one by one,
in any order, and at some point between two of them **someone else writes to one path**: another
client to the server, or the user to the local file, in place or by replacing it.

What a task may still do to a path depends on how far it has come (`LiveTask.Harmless` for the disk,
`LiveTask.HarmlessRemote` for the server): none of its calls carries a precondition, so a PUT or a
DELETE that is still to come takes what it finds, and so does the rename at the end of a download.
`noLostUpdate` says that the write is safe if no task of the run is such a one at the moment it
happens.  A Conflict task that has not started yet is no threat; it sets aside what it finds.

The bytes a GET returns and the bytes an upload reads are parameters of the tasks, and so is what
the URL of a path leads to (`Calls.served`): an upload and a delete act on that.  Requests that
store nothing (the POST of an upload, a PUT answered 409 and the MKCOLs after it) are no steps, and
nothing depends on the directory phase coming first.
-/

namespace OwncloudSync

/-- The files of the space. -/
abbrev Server := Path → Option (List UInt8)

/-- A directory instruction or a file task, as far as it concerns files. -/
inductive LiveTask where
  | fetch (t : DownloadTask)
  | upload (path : Path) (bytes : List UInt8)
  | deleteRemote (path : Path)
  | deleteLocal (path : Path)
  /-- `remove_dir_all`, one file after the other -/
  | deleteLocalDir (path : Path)
  /-- touches no file -/
  | other

/-- How the next call of a task ends. -/
inductive Call where
  | go (n : ℕ)
  | fail
  /-- the request is carried out, but its answer is lost -/
  | lost
  /-- one removal of `remove_dir_all` -/
  | remove (q : Path)

/-- The event of the download that a call is. -/
def Call.event : Call → Event
  | .go n => .go n
  | _ => .fail

/-- DELETE on the server. -/
def Server.remove (srv : Server) (d : Path) : Server := fun q => if d <:+ q then none else srv q

/-- PUT on the server. -/
def Server.put (srv : Server) (p : Path) (bytes : List UInt8) : Server :=
  Function.update srv p (some bytes)

/-- A request that is made once: `srv'` is the server when it has been carried out. -/
def requestStep (e : Call) (fs : Fs) (srv srv' : Server) : Phase → Fs × Server × Phase
  | .started =>
      match e with
      | .go _ => (fs, srv', .ok)
      | .lost => (fs, srv', .err)
      | _ => (fs, srv, .err)
  | ph => (fs, srv, ph)

/-- One step of a task. -/
def LiveTask.step (t : LiveTask) (e : Call) (fs : Fs) (srv : Server) (ph : Phase) :
    Fs × Server × Phase :=
  match t with
  | .fetch d => ((d.step e.event fs ph).1, srv, (d.step e.event fs ph).2)
  | .upload p bytes => requestStep e fs srv (srv.put p bytes) ph
  | .deleteRemote d => requestStep e fs srv (srv.remove d) ph
  | .deleteLocal p =>
      match ph, e with
      | .started, .go _ => (fs.unlink p, srv, .ok)
      | .started, _ => (fs, srv, .err)
      | ph, _ => (fs, srv, ph)
  | .deleteLocalDir d =>
      match ph, e with
      | .started, .remove q => (if d <:+ q then fs.unlink q else fs, srv, .started)
      | .started, .go _ => (fs, srv, .ok)
      | .started, _ => (fs, srv, .err)
      | ph, _ => (fs, srv, ph)
  | .other => requestStep e fs srv srv ph

/-- A run under way. -/
structure Live (ι : Type) where
  fs : Fs
  srv : Server
  phase : ι → Phase

variable {ι : Type} [DecidableEq ι]

/-- One call of one task. -/
def liveStep (τ : ι → LiveTask) (s : Live ι) (e : ι × Call) : Live ι :=
  let r := (τ e.1).step e.2 s.fs s.srv (s.phase e.1)
  ⟨r.1, r.2.1, Function.update s.phase e.1 r.2.2⟩

/-- The calls of a run, in order. -/
def liveRun (τ : ι → LiveTask) (s : Live ι) (order : List (ι × Call)) : Live ι :=
  order.foldl (liveStep τ) s

/-- The write from outside. -/
inductive Write where
  | onServer (p : Path) (bytes : List UInt8)
  | onDisk (p : Path) (bytes : List UInt8) (inPlace : Bool)

/-- The user saves the file: into the file that is there, or by putting a new one in its place. -/
def saveFile (fs : Fs) (p : Path) (bytes : List UInt8) (inPlace : Bool) : Fs :=
  let opened := if inPlace then fs.create p else (fs.unlink p).create p
  opened.1.write opened.2 0 bytes

/-- The write of the other side. -/
def Write.apply (w : Write) (s : Live ι) : Live ι :=
  match w with
  | .onServer p bytes => { s with srv := s.srv.put p bytes }
  | .onDisk p bytes inPlace => { s with fs := saveFile s.fs p bytes inPlace }

/-- The written content is still at its path, or in the conflict copy of that path. -/
def Write.Survives (w : Write) (τ : ι → LiveTask) (s : Live ι) : Prop :=
  match w with
  | .onServer p bytes => s.srv p = some bytes
  | .onDisk p bytes _ => s.fs.read p = some bytes ∨
      ∃ i t c, τ i = .fetch t ∧ t.localDest = p ∧ t.aside = some c ∧ s.fs.read c = some bytes

/-- From its present phase on, the task does nothing to the file `p`, whose inode is `m`. -/
def LiveTask.Harmless : LiveTask → Phase → Path → ℕ → Prop
  | .fetch t, .started, p, _ => p ≠ t.tmp ∧ p ≠ t.localDest ∧ t.aside ≠ some p
  | .fetch t, .ready, p, _ => p ≠ t.tmp ∧ p ≠ t.localDest
  | .fetch t, .writing k pos, p, m =>
      p ≠ t.tmp ∧ p ≠ t.localDest ∧ (pos < t.body.length → k ≠ m)
  | .fetch t, .flushed, p, _ => p ≠ t.tmp ∧ p ≠ t.localDest
  | .fetch t, .renameFailed, p, _ => p ≠ t.tmp
  | .deleteLocal q, .started, p, _ => q ≠ p
  | .deleteLocalDir d, .started, p, _ => ¬ d <:+ p
  | _, _, _, _ => True

/-- From its present phase on, the task does nothing to `p` on the server. -/
def LiveTask.HarmlessRemote : LiveTask → Phase → Path → Prop
  | .upload q _, .started, p => q ≠ p
  | .deleteRemote d, .started, p => ¬ d <:+ p
  | _, _, _ => True

/-- The moment is safe for the write: no task does anything to the path any more.  For the disk it
is enough if the one exception is the Conflict task of the path, not yet started, and its copy is
out of the way of the others as well. -/
def Write.Safe (w : Write) (τ : ι → LiveTask) (s : Live ι) : Prop :=
  match w with
  | .onServer p _ => ∀ i, (τ i).HarmlessRemote (s.phase i) p
  | .onDisk p _ _ => ∀ m, (w.apply s).fs.ino p = some m →
      (∀ i, (τ i).Harmless (s.phase i) p m) ∨
      ∃ i t c, τ i = .fetch t ∧ t.localDest = p ∧ t.aside = some c ∧ s.phase i = .started ∧
        ∀ j, j ≠ i → (τ j).Harmless (s.phase j) p m ∧ (τ j).Harmless (s.phase j) c m

variable {τ : ι → LiveTask} {s : Live ι} {t : LiveTask} {e : Call} {fs : Fs} {srv srv' : Server}
  {ph : Phase} {p c : Path} {m : ℕ} {bytes : List UInt8} {i : ι}

/-! ## The server -/

lemma put_other {q : Path} (h : q ≠ p) : (srv.put q bytes) p = srv p :=
  Function.update_of_ne (Ne.symm h) _ _

lemma remove_other {d : Path} (h : ¬ d <:+ p) : (srv.remove d) p = srv p := if_neg h

lemma requestStep_srv (h : ph = .started → srv' p = srv p) :
    (requestStep e fs srv srv' ph).2.1 p = srv p := by
  cases ph with
  | started => cases e <;> first | exact h rfl | rfl
  | _ => rfl

/-- A request is made once. -/
lemma requestStep_phase : (requestStep e fs srv srv' ph).2.2 ≠ .started := by
  cases ph with
  | started => cases e <;> simp [requestStep]
  | _ => simp [requestStep]

lemma requestStep_fs : (requestStep e fs srv srv' ph).1 = fs := by
  cases ph with
  | started => cases e <;> rfl
  | _ => rfl

lemma harmlessRemote_of_ne (h : ph ≠ .started) : t.HarmlessRemote ph p := by
  cases ph with
  | started => exact absurd rfl h
  | _ => cases t <;> trivial

/-- A task that is harmless leaves the path alone, and stays harmless. -/
lemma remote_step (e : Call) (fs : Fs) (srv : Server) (h : t.HarmlessRemote ph p) :
    (t.step e fs srv ph).2.1 p = srv p ∧ t.HarmlessRemote (t.step e fs srv ph).2.2 p := by
  cases t with
  | fetch d => exact ⟨rfl, trivial⟩
  | upload q b =>
      refine ⟨requestStep_srv (fun hph => ?_), harmlessRemote_of_ne requestStep_phase⟩
      subst hph
      exact put_other h
  | deleteRemote d =>
      refine ⟨requestStep_srv (fun hph => ?_), harmlessRemote_of_ne requestStep_phase⟩
      subst hph
      exact remove_other h
  | deleteLocal q =>
      refine ⟨?_, trivial⟩
      cases ph with
      | started => cases e <;> rfl
      | _ => rfl
  | deleteLocalDir d =>
      refine ⟨?_, trivial⟩
      cases ph with
      | started => cases e <;> rfl
      | _ => rfl
  | other => exact ⟨requestStep_srv (fun _ => rfl), trivial⟩

/-! ## The disk -/

lemma spares_of_harmless {d : DownloadTask} (h : (LiveTask.fetch d).Harmless ph p m) :
    d.Spares p m ph := by
  cases ph with
  | started => exact h.2
  | ready => exact h.1
  | writing k pos => exact h.2.2
  | flushed => exact h
  | renameFailed => exact h
  | ok => trivial
  | err => trivial

/-- A download that is harmless to the file with the inode, and to another name for it, does not
open it either. -/
lemma fetch_harmless {d : DownloadTask} {ev : Event} (hino : fs.ino p = some m)
    (hp : (LiveTask.fetch d).Harmless ph p m) (hc : (LiveTask.fetch d).Harmless ph c m) :
    (LiveTask.fetch d).Harmless (d.step ev fs ph).2 c m := by
  cases ph with
  | started =>
      simp only [DownloadTask.step]
      split
      · trivial
      · exact ⟨hc.1, hc.2.1⟩
      · split
        · exact ⟨hc.1, hc.2.1⟩
        · trivial
  | ready =>
      cases ev with
      | fail => trivial
      | go n => exact ⟨hc.1, hc.2, fun _ => Ne.symm (InodeFs.create_ne hino hp.1)⟩
  | writing k pos =>
      cases ev with
      | fail => trivial
      | go n =>
          simp only [DownloadTask.step]
          split
          · rename_i hpos
            exact ⟨hc.1, hc.2.1, fun _ => hc.2.2 hpos⟩
          · exact ⟨hc.1, hc.2.1⟩
  | flushed =>
      cases ev with
      | fail => exact hc.1
      | go n =>
          simp only [DownloadTask.step]
          split
          · trivial
          · exact hc.1
  | renameFailed => cases ev <;> trivial
  | ok => trivial
  | err => trivial

/-- A task that is harmless leaves the file alone. -/
lemma disk_step (e : Call) (srv : Server) (hino : fs.ino p = some m) (h : t.Harmless ph p m) :
    (t.step e fs srv ph).1.ino p = some m ∧ (t.step e fs srv ph).1.data m = fs.data m := by
  cases t with
  | fetch d => exact step_spares (spares_of_harmless h) hino
  | upload q b =>
      have hfs : (LiveTask.step (.upload q b) e fs srv ph).1 = fs := requestStep_fs
      rw [hfs]
      exact ⟨hino, rfl⟩
  | deleteRemote d =>
      have hfs : (LiveTask.step (.deleteRemote d) e fs srv ph).1 = fs := requestStep_fs
      rw [hfs]
      exact ⟨hino, rfl⟩
  | deleteLocal q =>
      cases ph with
      | started =>
          cases e with
          | go n => exact ⟨InodeFs.unlink_ino.trans ((if_neg (Ne.symm h)).trans hino), rfl⟩
          | _ => exact ⟨hino, rfl⟩
      | _ => exact ⟨hino, rfl⟩
  | deleteLocalDir d =>
      cases ph with
      | started =>
          cases e with
          | remove q =>
              simp only [LiveTask.step]
              split
              · rename_i hq
                have hpq : p ≠ q := by
                  rintro rfl
                  exact h hq
                exact ⟨InodeFs.unlink_ino.trans ((if_neg hpq).trans hino), rfl⟩
              · exact ⟨hino, rfl⟩
          | _ => exact ⟨hino, rfl⟩
      | _ => exact ⟨hino, rfl⟩
  | other =>
      have hfs : (LiveTask.step .other e fs srv ph).1 = fs := requestStep_fs
      rw [hfs]
      exact ⟨hino, rfl⟩

/-- A task that is harmless stays so. -/
lemma harmless_step (hino : fs.ino p = some m) (hp : t.Harmless ph p m)
    (hc : t.Harmless ph c m) : t.Harmless (t.step e fs srv ph).2.2 c m := by
  cases t with
  | fetch d => exact fetch_harmless hino hp hc
  | upload q b => trivial
  | deleteRemote d => trivial
  | deleteLocal q =>
      cases ph with
      | started => cases e <;> trivial
      | _ => exact hc
  | deleteLocalDir d =>
      cases ph with
      | started =>
          cases e with
          | remove q => exact hc
          | _ => trivial
      | _ => exact hc
  | other => trivial

/-! ## The run -/

lemma saveFile_ino (fs : Fs) (p : Path) (bytes : List UInt8) (inPlace : Bool) :
    ∃ m, (saveFile fs p bytes inPlace).ino p = some m ∧
      (saveFile fs p bytes inPlace).data m = bytes := by
  have hopened : ∀ f : Fs, ((f.create p).1.write (f.create p).2 0 bytes).ino p =
      some (f.create p).2 ∧
        ((f.create p).1.write (f.create p).2 0 bytes).data (f.create p).2 = bytes := by
    intro f
    refine ⟨InodeFs.create_ino.trans (if_pos rfl), InodeFs.write_data_self.trans ?_⟩
    rw [InodeFs.create_data_self]
    simp [InodeFs.overwrite]
  cases inPlace with
  | true => exact ⟨_, hopened fs⟩
  | false => exact ⟨_, hopened (fs.unlink p)⟩

/-- The content is at the path, and no task does anything to it. -/
def Held (τ : ι → LiveTask) (s : Live ι) (p : Path) (m : ℕ) (bytes : List UInt8) : Prop :=
  s.fs.ino p = some m ∧ s.fs.data m = bytes ∧ ∀ i, (τ i).Harmless (s.phase i) p m

/-- The content is at the path, and the Conflict task of the path will set it aside. -/
def Pending (τ : ι → LiveTask) (s : Live ι) (p c : Path) (m : ℕ) (bytes : List UInt8) (i : ι) :
    Prop :=
  s.fs.ino p = some m ∧ s.fs.data m = bytes ∧ s.phase i = .started ∧
    ∀ j, j ≠ i → (τ j).Harmless (s.phase j) p m ∧ (τ j).Harmless (s.phase j) c m

lemma held_step {ev : ι × Call} (h : Held τ s p m bytes) :
    Held τ (liveStep τ s ev) p m bytes := by
  obtain ⟨hino, hdata, hharm⟩ := h
  obtain ⟨j, e⟩ := ev
  obtain ⟨hino', hdata'⟩ := disk_step e s.srv hino (hharm j)
  refine ⟨hino', hdata'.trans hdata, ?_⟩
  exact (Function.forall_update_iff s.phase (fun i ph => (τ i).Harmless ph p m)).mpr
    ⟨harmless_step hino (hharm j) (hharm j), fun i _ => hharm i⟩

/-- The path and the copy of a Conflict task that was about to start: it starts, fails, or another
task takes a step. -/
lemma pending_step {d : DownloadTask} (ev : ι × Call) (hd : τ i = .fetch d)
    (hdest : d.localDest = p) (haside : d.aside = some c) (hnamed : c ≠ d.tmp ∧ c ≠ d.localDest)
    (h : Pending τ s p c m bytes i) :
    Pending τ (liveStep τ s ev) p c m bytes i ∨ Held τ (liveStep τ s ev) p m bytes ∨
      Held τ (liveStep τ s ev) c m bytes := by
  obtain ⟨hino, hdata, hstart, hothers⟩ := h
  obtain ⟨j, e⟩ := ev
  by_cases hij : i = j
  · subst hij
    have hstep : liveStep τ s (i, e) = ⟨(d.step e.event s.fs .started).1, s.srv,
        Function.update s.phase i (d.step e.event s.fs .started).2⟩ := by
      simp only [liveStep, hd, hstart, LiveTask.step]
    rw [hstep]
    have hharm : ∀ q ph, (LiveTask.fetch d).Harmless ph q m →
        (∀ j, j ≠ i → (τ j).Harmless (s.phase j) q m) →
        ∀ j, (τ j).Harmless (Function.update s.phase i ph j) q m := by
      intro q ph hown hother
      rw [← hd] at hown
      exact (Function.forall_update_iff s.phase (fun j ph => (τ j).Harmless ph q m)).mpr
        ⟨hown, hother⟩
    cases hev : e.event with
    | fail =>
        refine Or.inr (Or.inl ⟨hino, hdata, hharm p .err trivial (fun j hj => (hothers j hj).1)⟩)
    | go n =>
        obtain ⟨fs', hr⟩ := InodeFs.rename?_isSome (q := c) hino
        obtain ⟨hsame, -⟩ := InodeFs.rename?_eq_some hr
        have hgo : d.step (.go n) s.fs .started = (fs', .ready) := by
          simp only [DownloadTask.step, haside, hdest, hr]
        rw [hgo]
        refine Or.inr (Or.inr ⟨InodeFs.rename?_dest hr hino, ?_, ?_⟩)
        · exact (congrFun hsame m).trans hdata
        · exact hharm c .ready hnamed (fun j hj => (hothers j hj).2)
  · obtain ⟨hp, hc⟩ := hothers j (Ne.symm hij)
    obtain ⟨hino', hdata'⟩ := disk_step e s.srv hino hp
    refine Or.inl ⟨hino', hdata'.trans hdata, ?_, fun k hk => ?_⟩
    · simp only [liveStep, Function.update_of_ne hij]
      exact hstart
    · by_cases hkj : k = j
      · subst hkj
        simp only [liveStep, Function.update_self]
        exact ⟨harmless_step hino hp hp, harmless_step hino hp hc⟩
      · simp only [liveStep, Function.update_of_ne hkj]
        exact hothers k hk

/-- Where the content of the user's write is during the rest of the run. -/
def Kept (τ : ι → LiveTask) (s : Live ι) (p : Path) (m : ℕ) (bytes : List UInt8) : Prop :=
  Held τ s p m bytes ∨ ∃ i d c, τ i = .fetch d ∧ d.localDest = p ∧ d.aside = some c ∧
    (Pending τ s p c m bytes i ∨ Held τ s c m bytes)

/-- The copies of the Conflict tasks stand beside their files and temp files. -/
def CopiesNamed (τ : ι → LiveTask) : Prop :=
  ∀ i d c, τ i = .fetch d → d.aside = some c → c ≠ d.tmp ∧ c ≠ d.localDest

lemma kept_step {ev : ι × Call} (hτ : CopiesNamed τ) (h : Kept τ s p m bytes) :
    Kept τ (liveStep τ s ev) p m bytes := by
  rcases h with h | ⟨i, d, c, hd, hdest, haside, h | h⟩
  · exact Or.inl (held_step h)
  · rcases pending_step ev hd hdest haside (hτ i d c hd haside) h with h | h | h
    · exact Or.inr ⟨i, d, c, hd, hdest, haside, Or.inl h⟩
    · exact Or.inl h
    · exact Or.inr ⟨i, d, c, hd, hdest, haside, Or.inr h⟩
  · exact Or.inr ⟨i, d, c, hd, hdest, haside, Or.inr (held_step h)⟩

lemma kept_run {order : List (ι × Call)} (hτ : CopiesNamed τ) (h : Kept τ s p m bytes) :
    Kept τ (liveRun τ s order) p m bytes := by
  induction order generalizing s with
  | nil => exact h
  | cons ev rest ih => exact ih (kept_step hτ h)

lemma remote_run {order : List (ι × Call)} (hsrv : s.srv p = some bytes)
    (hharm : ∀ i, (τ i).HarmlessRemote (s.phase i) p) :
    (liveRun τ s order).srv p = some bytes := by
  induction order generalizing s with
  | nil => exact hsrv
  | cons ev rest ih =>
      obtain ⟨j, e⟩ := ev
      obtain ⟨hsame, hharm'⟩ := remote_step e s.fs s.srv (hharm j)
      refine ih (hsame.trans hsrv) ?_
      exact (Function.forall_update_iff s.phase (fun i ph => (τ i).HarmlessRemote ph p)).mpr
        ⟨hharm', fun i _ => hharm i⟩

/-- A write at a safe moment survives every continuation of the run. -/
theorem survives_of_safe {w : Write} (hτ : CopiesNamed τ) (h : w.Safe τ s)
    (later : List (ι × Call)) : w.Survives τ (liveRun τ (w.apply s) later) := by
  cases w with
  | onServer p bytes => exact remote_run (Function.update_self _ _ _) h
  | onDisk p bytes inPlace =>
      obtain ⟨m, hino, hdata⟩ := saveFile_ino s.fs p bytes inPlace
      have hstart : Kept τ ((Write.onDisk p bytes inPlace).apply s) p m bytes := by
        rcases h m hino with h | ⟨i, d, c, hd, hdest, haside, hphase, hothers⟩
        · exact Or.inl ⟨hino, hdata, h⟩
        · exact Or.inr ⟨i, d, c, hd, hdest, haside, Or.inl ⟨hino, hdata, hphase, hothers⟩⟩
      rcases kept_run hτ hstart with h | ⟨i, d, c, hd, hdest, haside, h | h⟩
      · exact Or.inl ((InodeFs.read_eq_some h.1).trans (congrArg some h.2.1))
      · exact Or.inl ((InodeFs.read_eq_some h.1).trans (congrArg some h.2.1))
      · exact Or.inr ⟨i, d, c, hd, hdest, haside,
          (InodeFs.read_eq_some h.1).trans (congrArg some h.2.1)⟩

/-! ## The tasks of `run_sync` -/

section Run

open PathTree

/-- The task of an instruction.  `bytes` is what the GET of a path returns, or what its upload has
read. -/
def liveTask (ω : Calls) (ε : Env) (bytes : Path → List UInt8) (it : Item) : LiveTask :=
  match it.isDir, it.instr with
  | _, .deleteRemote => .deleteRemote (ω.served it.path)
  | true, .deleteLocal => .deleteLocalDir it.path
  | true, _ => .other
  | false, .download => .fetch ⟨it.path, bytes it.path, none⟩
  | false, .conflict =>
      .fetch ⟨it.path, bytes it.path, some (conflictPath it.path (ε.clock it.path))⟩
  | false, .upload => .upload (ω.served it.path) (bytes it.path)
  | false, .deleteLocal => .deleteLocal it.path
  | false, _ => .other

/-- The tasks of a run, from the snapshot its discovery took and the rows it could read. -/
def liveTasks (κ : EngineConfig) (ω : Calls) (ε : Env) {σ : State} (π : Schedule σ)
    (bytes : Path → List UInt8) (it : Item) : LiveTask :=
  if it ∈ ω.tasks κ ε π then liveTask ω ε bytes it else .other

/-- The bytes of a local file. -/
def localBytes : Option (Node LocalFile) → Option (List UInt8)
  | some (.file a) => some a.content.bytes
  | _ => none

/-- The bytes of a remote file. -/
def remoteBytes : Option (Node RemoteFile) → Option (List UInt8)
  | some (.file r) => some r.content.bytes
  | _ => none

/-- The files of the state that discovery saw. -/
structure Snapshot (σ : State) where
  fs : Fs
  srv : Server
  disk_files : ∀ q, fs.read q = localBytes (σ.disk.get q)
  space_files : ∀ q, srv q = remoteBytes (σ.space.get q)

/-- No task has begun. -/
def Snapshot.start {σ : State} (n : Snapshot σ) : Live Item := ⟨n.fs, n.srv, fun _ => .started⟩

variable {κ : EngineConfig} {ω : Calls} {ε : Env} {σ : State} {π : Schedule σ}

lemma liveTask_conflict {bytes : Path → List UInt8} {it : Item} {d : DownloadTask} {c : Path}
    (h : liveTask ω ε bytes it = .fetch d) (hc : d.aside = some c) :
    d.localDest = it.path ∧ c = conflictPath it.path (ε.clock it.path) := by
  unfold liveTask at h
  split at h <;> cases h
  · cases hc
  · exact ⟨rfl, (Option.some.inj hc).symm⟩

lemma copiesNamed (bytes : Path → List UInt8) : CopiesNamed (liveTasks κ ω ε π bytes) := by
  intro it d c hd hc
  unfold liveTasks at hd
  split at hd
  · rename_i hmem
    obtain ⟨hdest, rfl⟩ := liveTask_conflict hd hc
    have hne := (item_of_mem hmem).1
    rw [DownloadTask.tmp, hdest]
    exact ⟨conflictPath_ne_tmpPath hne, conflictPath_ne hne⟩
  · cases hd

/-- **No lost update**, if the write comes at a safe moment: whatever steps the run took before and
takes afterwards, the written content is still there. -/
theorem noLostUpdate (κ : EngineConfig) (ω : Calls) (ε : Env) {σ : State} (π : Schedule σ)
    (n : Snapshot σ) (bytes : Path → List UInt8) (w : Write) (before later : List (Item × Call))
    (hsafe : w.Safe (liveTasks κ ω ε π bytes)
      (liveRun (liveTasks κ ω ε π bytes) n.start before)) :
    w.Survives (liveTasks κ ω ε π bytes)
      (liveRun (liveTasks κ ω ε π bytes)
        (w.apply (liveRun (liveTasks κ ω ε π bytes) n.start before)) later) :=
  survives_of_safe (copiesNamed bytes) hsafe later

/-! ## Two edited files -/

/-- `up.txt` was edited here and is uploaded, `down.txt` was edited there and is downloaded. -/
def twoEdits : State where
  disk := Tree.ofList [(["up.txt".toList], Node.file ⟨⟨[11, 12], by decide⟩, 0⟩),
    (["down.txt".toList], Node.file ⟨⟨[13], by decide⟩, 0⟩)]
  space := Tree.ofList [(["up.txt".toList], Node.file ⟨⟨[11], by decide⟩, "e1".toList⟩),
    (["down.txt".toList], Node.file ⟨⟨[13, 14], by decide⟩, "e2".toList⟩)]
  journal := Journal.upsertEntry
    (Journal.upsertEntry (fun _ => none) ["up.txt".toList]
      (fileRow ["up.txt".toList] "e1".toList 1 none))
    ["down.txt".toList] (fileRow ["down.txt".toList] "e1".toList 1 none)
  sync := ⟨.idle, fun _ => none⟩

/-- The upload, then the download. -/
def twoEditsSchedule : Schedule twoEdits :=
  Schedule.ofList twoEdits rfl rfl [["up.txt".toList], ["down.txt".toList]] (by decide)
    (by decide) (by decide)

/-- The disk of `twoEdits`, with an inode for each file. -/
def twoEditsFs : Fs :=
  { twoFiles ["up.txt".toList] ["down.txt".toList] with
    data := fun k => if k = 0 then [11, 12] else [13] }

/-- That disk and that server are those of `twoEdits`. -/
def twoEditsSnapshot : Snapshot twoEdits where
  fs := twoEditsFs
  srv := fun q => remoteBytes (twoEdits.space.get q)
  disk_files := by
    intro q
    by_cases hu : q = ["up.txt".toList]
    · rw [hu]
      decide
    · by_cases hd : q = ["down.txt".toList]
      · rw [hd]
        decide
      · have hino : twoEditsFs.ino q = none := by
          simp only [twoEditsFs, twoFiles, if_neg hu, if_neg hd]
        have hget : localBytes (twoEdits.disk.get q) = none := by
          by_cases hq : twoEdits.disk.get q = none
          · rw [hq]
            rfl
          · rcases Tree.ofList_mem hq with rfl | hmem
            · rfl
            · simp only [List.map_cons, List.map_nil, List.mem_cons, List.not_mem_nil,
                or_false] at hmem
              exact (hmem.elim hu hd).elim
        rw [hget, InodeFs.read, hino]
        rfl
  space_files := fun _ => rfl

/-- The task of a path. -/
def twoEditsItem (p : Path) : Item := itemOf ⟨.keepBoth, 5000000⟩ Env.calm twoEdits p

/-- The run of `twoEdits`: the bytes are those of the snapshot. -/
def twoEditsTasks : Item → LiveTask :=
  liveTasks ⟨.keepBoth, 5000000⟩ Calls.sound Env.calm twoEditsSchedule
    (fun p => if p = ["up.txt".toList] then [11, 12] else [13, 14])

lemma tasks_twoEdits : Calls.sound.tasks ⟨.keepBoth, 5000000⟩ Env.calm twoEditsSchedule =
    [twoEditsItem ["up.txt".toList], twoEditsItem ["down.txt".toList]] := by decide

/-- The user saves the file that is being uploaded. -/
theorem noLostUpdate_twoEdits :
    (Write.onDisk ["up.txt".toList] [9] true).Survives twoEditsTasks
      (liveRun twoEditsTasks ((Write.onDisk ["up.txt".toList] [9] true).apply
        (liveRun twoEditsTasks twoEditsSnapshot.start []))
          [(twoEditsItem ["up.txt".toList], .go 0), (twoEditsItem ["down.txt".toList], .go 0)]) := by
  refine noLostUpdate _ _ _ _ twoEditsSnapshot _ _ [] _ (fun m _ => Or.inl (fun it => ?_))
  unfold liveTasks
  split
  · rename_i hmem
    rw [tasks_twoEdits, List.mem_cons, List.mem_singleton] at hmem
    rcases hmem with rfl | rfl
    · trivial
    · exact ⟨by decide, by decide, by decide⟩
  · trivial

/-- Another client stores a new `up.txt` before the run does, and the user saves `down.txt` before
the run has renamed its download.  Both writes are lost. -/
theorem updates_lost :
    ¬ (Write.onServer ["up.txt".toList] [9]).Survives twoEditsTasks
      (liveRun twoEditsTasks
        ((Write.onServer ["up.txt".toList] [9]).apply twoEditsSnapshot.start)
        [(twoEditsItem ["up.txt".toList], .go 0)]) ∧
    ¬ (Write.onDisk ["down.txt".toList] [9] true).Survives twoEditsTasks
      (liveRun twoEditsTasks
        ((Write.onDisk ["down.txt".toList] [9] true).apply twoEditsSnapshot.start)
        [(twoEditsItem ["down.txt".toList], .go 0), (twoEditsItem ["down.txt".toList], .go 0),
          (twoEditsItem ["down.txt".toList], .go 2), (twoEditsItem ["down.txt".toList], .go 0),
          (twoEditsItem ["down.txt".toList], .go 0)]) := by
  constructor
  · intro h
    exact absurd (show _ = _ from h) (by decide)
  · rintro (h | ⟨it, d, c, hd, -, hc, -⟩)
    · exact absurd h (by decide)
    · unfold twoEditsTasks liveTasks at hd
      split at hd
      · rename_i hmem
        rw [tasks_twoEdits, List.mem_cons, List.mem_singleton] at hmem
        rcases hmem with rfl | rfl
        · cases hd
        · cases hd
          cases hc
      · cases hd

end Run

end OwncloudSync
