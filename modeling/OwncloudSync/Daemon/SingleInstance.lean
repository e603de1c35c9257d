import OwncloudSync.Lib.Runs
import Mathlib.Logic.Function.Basic
import Mathlib.Tactic.Common

/-!
# One daemon at a time

Any number of `ocsyncd` processes are launched, by hand or by GUIs that found no socket
(`ensure_daemon_running`).  `LockFile::acquire` lets one of them into `main`; two tasks of it then
take the paths of the sockets, remove whatever is there, and listen.

The lock is a local of `main`, the tasks belong to the runtime.  So a daemon that quits gives up its
lock first, and its tasks end after that: `unwinding` is a process between the two.  The file of
the shell socket is removed by `Drop for UnixTransport`, whoever has made the file by then.

`singleInstance` says what this guards and what not.

* At most one process is in `main`, and whoever a client connects to is in `main` or unwinding.
* **The sockets of a daemon stay its own if no other was unwinding when it began to listen.**
* Otherwise the end of the other's shell listener takes the path from it, and it never comes back;
  only a process that is killed leaves the path as it is.
* Whatever files crashed daemons have left, the next one gets both paths.

Windows has named pipes instead, and several servers of one name.
-/

namespace OwncloudSync

/-- The socket of the shell extensions (`UnixTransport`) and that of the GUIs (`GuiIpcServer`). -/
inductive SocketName where
  | shell
  | gui
  deriving DecidableEq

/-- How far the task of a socket has come. -/
inductive Listener where
  | idle
  /-- `UnixTransport::bind` has found a file at the path -/
  | stale
  | cleared
  | bound
  | closed
  deriving DecidableEq

/-- How far a process has come in `main`. -/
inductive ProcessPhase where
  | absent
  | starting
  | inMain
  | unwinding
  | gone
  deriving DecidableEq

/-- The processes of one user. -/
structure Instances where
  phase : ℕ → ProcessPhase
  lock : Option ℕ
  listener : SocketName → ℕ → Listener
  /-- the process that has made the file at the path, if there is a file -/
  path : SocketName → Option ℕ

namespace Instances

/-- No process has been launched. -/
def init : Instances where
  phase _ := .absent
  lock := none
  listener _ _ := .idle
  path _ := none

/-- The tasks of the process run. -/
def Alive (s : Instances) (k : ℕ) : Prop := s.phase k = .inMain ∨ s.phase k = .unwinding

/-- Process `k` comes to `p`. -/
def setPhase (s : Instances) (k : ℕ) (p : ProcessPhase) : Instances :=
  { s with phase := Function.update s.phase k p }

/-- What a task of the process does: how far it is with its socket, and what is at the path. -/
def task (s : Instances) (x : SocketName) (k : ℕ) (v : Listener) (o : Option ℕ) : Instances :=
  { s with
    listener := fun y l => if y = x ∧ l = k then v else s.listener y l
    path := Function.update s.path x o }

/-- The process a client of the path gets: the one whose listener has made the file, while it
listens. -/
def connect (s : Instances) (x : SocketName) : Option ℕ :=
  (s.path x).filter (fun k => s.listener x k = .bound)

/-- A step of one process. -/
inductive Step : Instances → Instances → Prop
  | launch {s : Instances} (k : ℕ) (h : s.phase k = .absent) : Step s (s.setPhase k .starting)
  /-- `LockFile::acquire` -/
  | acquire {s : Instances} (k : ℕ) (h : s.phase k = .starting) (hlock : s.lock = none) :
      Step s { s.setPhase k .inMain with lock := some k }
  /-- `AlreadyRunning` -/
  | refuse {s : Instances} (k : ℕ) (h : s.phase k = .starting) (hlock : s.lock ≠ none) :
      Step s (s.setPhase k .gone)
  /-- `path.exists()` of `UnixTransport::bind`, … -/
  | look {s : Instances} (k : ℕ) (h : s.Alive k) (hidle : s.listener .shell k = .idle) :
      Step s (s.task .shell k (if s.path .shell = none then .cleared else .stale) (s.path .shell))
  /-- … and its `remove_file`, where an error ends it -/
  | removeStale {s : Instances} (k : ℕ) (h : s.Alive k) (hstale : s.listener .shell k = .stale) :
      Step s (s.task .shell k (if s.path .shell = none then .closed else .cleared) none)
  /-- `remove_file` of `GuiIpcServer::run`, whose error is ignored -/
  | clear {s : Instances} (k : ℕ) (h : s.Alive k) (hidle : s.listener .gui k = .idle) :
      Step s (s.task .gui k .cleared none)
  /-- `UnixListener::bind`, … -/
  | bind {s : Instances} (x : SocketName) (k : ℕ) (h : s.Alive k) (hcleared : s.listener x k = .cleared)
      (hpath : s.path x = none) : Step s (s.task x k .bound (some k))
  /-- … which fails if there is a file; any other error ends the task as well -/
  | fail {s : Instances} (x : SocketName) (k : ℕ) (h : s.Alive k) (hopen : s.listener x k ≠ .bound) :
      Step s (s.task x k .closed (s.path x))
  /-- the task ends, at an error of `accept` or with the runtime: `Drop for UnixTransport` removes
  the file, the other socket leaves its own -/
  | close {s : Instances} (x : SocketName) (k : ℕ) (h : s.Alive k) (hbound : s.listener x k = .bound) :
      Step s (s.task x k .closed (if x = .shell then none else s.path x))
  /-- `main` returns -/
  | leave {s : Instances} (k : ℕ) (h : s.phase k = .inMain) :
      Step s { s.setPhase k .unwinding with lock := none }
  /-- the process ends, as it comes or by a crash: the system closes what it has open -/
  | die {s : Instances} (k : ℕ) (h : s.phase k ≠ .absent) :
      Step s { s with
        phase := Function.update s.phase k .gone
        lock := s.lock.filter (· ≠ k)
        listener := fun y l => if l = k then .closed else s.listener y l }

/-- The states that any number of launches lead to. -/
def Reachable (s : Instances) : Prop := Relation.ReflTransGen Step init s

/-- A step at whose end the process is in `main`. -/
def StepIn (l : ℕ) (s t : Instances) : Prop := Step s t ∧ t.phase l = .inMain

variable {s t : Instances} {x y : SocketName} {k l : ℕ} {v : Listener} {p : ProcessPhase} {o : Option ℕ}

/-! ## Updates -/

@[simp] lemma setPhase_phase : (s.setPhase k p).phase = Function.update s.phase k p := rfl

@[simp] lemma setPhase_lock : (s.setPhase k p).lock = s.lock := rfl

@[simp] lemma setPhase_listener : (s.setPhase k p).listener = s.listener := rfl

@[simp] lemma setPhase_path : (s.setPhase k p).path = s.path := rfl

@[simp] lemma task_phase : (s.task x k v o).phase = s.phase := rfl

@[simp] lemma task_lock : (s.task x k v o).lock = s.lock := rfl

@[simp] lemma task_path : (s.task x k v o).path x = o := by simp [task]

@[simp] lemma task_listener : (s.task x k v o).listener x k = v := by simp [task]

/-- The second of two things a task does to its socket is what remains. -/
@[simp] lemma task_task {w : Listener} {o' : Option ℕ} :
    (s.task x k v o).task x k w o' = s.task x k w o' := by
  simp only [task, Function.update_idem, Instances.mk.injEq, true_and, and_true]
  funext y l
  split
  · rfl
  · rfl

lemma task_path_ne (h : y ≠ x) : (s.task x k v o).path y = s.path y := by
  simp [task, Function.update_of_ne h]

lemma task_listener_ne (h : y ≠ x ∨ l ≠ k) :
    (s.task x k v o).listener y l = s.listener y l := by
  simp only [task, ite_eq_right_iff, and_imp]
  intro hy hl
  exact absurd hl (h.resolve_left (fun hc => hc hy))

lemma connect_eq_some : s.connect x = some k ↔ s.path x = some k ∧ s.listener x k = .bound := by
  simp [connect, Option.filter_eq_some_iff]

/-! ## The lock -/

/-- The lock is with the process in `main`, and only tasks that run listen. -/
structure Sound (s : Instances) : Prop where
  lock : ∀ k, s.lock = some k ↔ s.phase k = .inMain
  fresh : ∀ x k, s.phase k = .absent ∨ s.phase k = .starting → s.listener x k = .idle
  bound : ∀ x k, s.listener x k = .bound → s.Alive k

lemma sound_init : Sound init where
  lock k := by simp [init]
  fresh _ _ _ := rfl
  bound x k h := by cases h

lemma Sound.inMain_unique (hs : Sound s) (hk : s.phase k = .inMain) (hl : s.phase l = .inMain) :
    k = l := by
  have h := ((hs.lock k).mpr hk).symm.trans ((hs.lock l).mpr hl)
  exact Option.some.inj h

lemma Sound.task (hs : Sound s) (h : s.Alive k) : Sound (s.task x k v o) where
  lock := hs.lock
  fresh y l hl := by
    have hne : l ≠ k := by
      rintro rfl
      rcases h with h | h <;> simp [h] at hl
    rw [task_listener_ne (Or.inr hne)]
    exact hs.fresh y l hl
  bound y l hl := by
    by_cases hne : l = k
    · rw [hne]
      exact h
    · rw [task_listener_ne (Or.inr hne)] at hl
      exact hs.bound y l hl

/-- A process that is not in `main` changes its phase, and nothing listens for it after. -/
lemma Sound.setPhase (hs : Sound s) (hk : s.phase k ≠ .inMain) (hp : p ≠ .inMain)
    (hidle : ∀ x, s.listener x k = .idle) : Sound (s.setPhase k p) where
  lock l := by
    by_cases hl : l = k
    · subst hl
      simp [hp, hs.lock, hk]
    · simp [Function.update_of_ne hl, hs.lock]
  fresh x l h := by
    by_cases hl : l = k
    · rw [hl]
      exact hidle x
    · rw [setPhase_phase, Function.update_of_ne hl] at h
      exact hs.fresh x l h
  bound x l h := by
    have hl : l ≠ k := by
      rintro rfl
      rw [setPhase_listener, hidle x] at h
      cases h
    rw [Alive, setPhase_phase, Function.update_of_ne hl]
    exact hs.bound x l h

lemma Sound.step (hs : Sound s) (h : Step s t) : Sound t := by
  cases h with
  | launch k h => exact hs.setPhase (by simp [h]) (by simp) (fun x => hs.fresh x k (Or.inl h))
  | refuse k h => exact hs.setPhase (by simp [h]) (by simp) (fun x => hs.fresh x k (Or.inr h))
  | look k h | removeStale k h | clear k h | bind _ k h | fail _ k h | close _ k h =>
      exact hs.task h
  | acquire k h hlock =>
      refine ⟨fun l => ?_, fun x l hl => ?_, fun x l hl => ?_⟩
      · by_cases hl : l = k
        · simp [hl]
        · have hno : s.phase l ≠ .inMain := by simp [← hs.lock, hlock]
          simp [Function.update_of_ne hl, hno, Ne.symm hl]
      · by_cases hk : l = k
        · rw [hk]
          exact hs.fresh x k (Or.inr h)
        · simp only [setPhase_phase, Function.update_of_ne hk] at hl
          exact hs.fresh x l hl
      · by_cases hk : l = k
        · exact Or.inl (by simp [hk])
        · simpa [Alive, Function.update_of_ne hk] using hs.bound x l hl
  | leave k h =>
      refine ⟨fun l => ?_, fun x l hl => ?_, fun x l hl => ?_⟩
      · by_cases hl : l = k
        · simp [hl]
        · have hno : s.phase l ≠ .inMain := fun hc => hl (hs.inMain_unique hc h)
          simp [Function.update_of_ne hl, hno]
      · by_cases hk : l = k
        · simp [hk] at hl
        · simp only [setPhase_phase, Function.update_of_ne hk] at hl
          exact hs.fresh x l hl
      · by_cases hk : l = k
        · exact Or.inr (by simp [hk])
        · simpa [Alive, Function.update_of_ne hk] using hs.bound x l hl
  | die k h =>
      refine ⟨fun l => ?_, fun x l hl => ?_, fun x l hl => ?_⟩
      · by_cases hl : l = k
        · simp [hl, Option.filter_eq_some_iff]
        · simp [Option.filter_eq_some_iff, hs.lock, hl]
      · by_cases hk : l = k
        · simp [hk] at hl
        · simp only [Function.update_of_ne hk] at hl
          simpa [hk] using hs.fresh x l hl
      · by_cases hk : l = k
        · simp [hk] at hl
        · simp only [if_neg hk] at hl
          simpa [Alive, Function.update_of_ne hk] using hs.bound x l hl

lemma Reachable.sound (h : Reachable s) : Sound s :=
  Runs.invariant (fun _ _ hs hstep => Sound.step hs hstep) sound_init h

/-! ## The paths -/

/-- No daemon that has quit is still there. -/
def Quiet (s : Instances) : Prop := ∀ k, s.phase k ≠ .unwinding

/-- If the process listens, clients of the path come to it. -/
def Served (s : Instances) (x : SocketName) (l : ℕ) : Prop :=
  s.listener x l = .bound → s.path x = some l

/-- The process has listened, and the file at the path is not its own. -/
def Lost (s : Instances) (x : SocketName) (l : ℕ) : Prop :=
  (s.listener x l = .bound ∨ s.listener x l = .closed) ∧ s.path x ≠ some l

lemma Quiet.eq_of_alive (hq : Quiet s) (hs : Sound s) (hl : s.phase l = .inMain) (h : s.Alive k) :
    k = l :=
  hs.inMain_unique (h.resolve_right (hq k)) hl

/-- As long as a process is in `main`, no other can quit. -/
lemma Quiet.step (hq : Quiet s) (hs : Sound s) (hl : s.phase l = .inMain) (h : StepIn l s t) :
    Quiet t := by
  intro j
  obtain ⟨hstep, ht⟩ := h
  cases hstep with
  | look | removeStale | clear | bind | fail | close => exact hq j
  | launch k | refuse k | acquire k | die k =>
      by_cases hj : j = k
      · simp [hj]
      · simpa [Function.update_of_ne hj] using hq j
  | leave k h =>
      -- it would be the process itself
      obtain rfl := hs.inMain_unique h hl
      simp at ht

/-- The task of a socket is served if it makes the file whenever it listens. -/
lemma Served.task (hv : Served s x l) (h : v = .bound → o = some l) :
    Served (s.task y l v o) x l := by
  intro hb
  by_cases hx : x = y
  · subst hx
    rw [task_listener] at hb
    rw [task_path]
    exact h hb
  · rw [task_listener_ne (Or.inl hx)] at hb
    rw [task_path_ne hx]
    exact hv hb

/-- **A daemon that is alone keeps its paths.** -/
lemma Served.step (hv : Served s x l) (hq : Quiet s) (hs : Sound s) (hl : s.phase l = .inMain)
    (h : StepIn l s t) : Served t x l := by
  obtain ⟨hstep, ht⟩ := h
  have hown : ∀ {k}, s.Alive k → k = l := fun h => hq.eq_of_alive hs hl h
  cases hstep with
  | launch | refuse | acquire | leave => exact hv
  | die k =>
      have hne : l ≠ k := by
        rintro rfl
        simp at ht
      intro hb
      simp only [if_neg hne] at hb
      exact hv hb
  | look k h | removeStale k h =>
      obtain rfl := hown h
      refine hv.task (fun hb => ?_)
      split at hb <;> cases hb
  | clear k h | fail _ k h | close _ k h =>
      obtain rfl := hown h
      exact hv.task (fun hb => by cases hb)
  | bind y k h =>
      obtain rfl := hown h
      exact hv.task (fun _ => rfl)

/-- A task that has not listened does not get the path back for another one. -/
lemma Lost.task (hlost : Lost s x l) (hpath : y = x → o ≠ some l)
    (h : s.listener y k = .bound ∨ s.listener y k = .closed → v = .closed) :
    Lost (s.task y k v o) x l := by
  obtain ⟨hopened, hp⟩ := hlost
  by_cases hx : x = y
  · subst hx
    refine ⟨?_, by rw [task_path]; exact hpath rfl⟩
    by_cases hl : l = k
    · subst hl
      rw [task_listener]
      exact Or.inr (h hopened)
    · rwa [task_listener_ne (Or.inr hl)]
  · exact ⟨by rwa [task_listener_ne (Or.inl hx)], by rwa [task_path_ne hx]⟩

/-- **A path that is lost stays lost**: a process listens once. -/
lemma Lost.step (hlost : Lost s x l) (h : Step s t) : Lost t x l := by
  cases h with
  | launch | refuse | acquire | leave => exact hlost
  | die k =>
      refine ⟨?_, hlost.2⟩
      show (if l = k then _ else _) = _ ∨ (if l = k then _ else _) = _
      split
      · exact Or.inr rfl
      · exact hlost.1
  | look k h hidle =>
      exact hlost.task (fun hx => hx ▸ hlost.2) (by simp [hidle])
  | removeStale k h hstale => exact hlost.task (by simp) (by simp [hstale])
  | clear k h hidle => exact hlost.task (by simp) (by simp [hidle])
  | bind y k h hcleared =>
      refine hlost.task (fun hx hk => ?_) (by simp [hcleared])
      obtain rfl := Option.some.inj hk
      obtain rfl := hx
      exact absurd hlost.1 (by simp [hcleared])
  | fail y k h => exact hlost.task (fun hx => hx ▸ hlost.2) (fun _ => rfl)
  | close y k h =>
      refine hlost.task (fun hx => ?_) (fun _ => rfl)
      subst hx
      split
      · simp
      · exact hlost.2

/-- A process that lives stops to listen by closing its socket. -/
lemma eq_close (h : Step s t) (hb : s.listener x k = .bound) (hclosed : t.listener x k ≠ .bound)
    (hlives : t.phase k ≠ .gone) :
    t = s.task x k .closed (if x = .shell then none else s.path x) := by
  -- a task of another process, or of another socket, leaves this listener alone
  have hother : ∀ {y l v o}, s.listener y l ≠ .bound → t = s.task y l v o → False := by
    rintro y l v o hidle rfl
    refine hclosed ?_
    rw [task_listener_ne, hb]
    by_contra hsame
    push Not at hsame
    obtain ⟨rfl, rfl⟩ := hsame
    exact hidle hb
  cases h with
  | launch | refuse | acquire | leave => exact absurd hb hclosed
  | look l h hidle => exact (hother (by simp [hidle]) rfl).elim
  | removeStale l h hstale => exact (hother (by simp [hstale]) rfl).elim
  | clear l h hidle => exact (hother (by simp [hidle]) rfl).elim
  | bind y l h hcleared => exact (hother (by simp [hcleared]) rfl).elim
  | fail y l h hopen => exact (hother hopen rfl).elim
  | close y l h hbound =>
      by_cases hsame : x = y ∧ k = l
      · obtain ⟨rfl, rfl⟩ := hsame
        rfl
      · refine absurd ?_ hclosed
        rw [task_listener_ne (by tauto)]
        exact hb
  | die l h =>
      by_cases hl : k = l
      · exact absurd (by simp [hl]) hlives
      · refine absurd ?_ hclosed
        rw [← hb]
        exact if_neg hl

/-! ## The next daemon -/

/-- A task whose socket is idle can listen, whatever is at the path. -/
lemma serve (x : SocketName) (h : s.Alive l) (hidle : s.listener x l = .idle) :
    Relation.ReflTransGen Step s (s.task x l .bound (some l)) := by
  have hbind : Step (s.task x l .cleared none) (s.task x l .bound (some l)) := by
    have := Step.bind (s := s.task x l .cleared none) x l h (by simp) (by simp)
    simpa using this
  refine Relation.ReflTransGen.tail ?_ hbind
  cases x with
  | gui => exact .single (.clear l h hidle)
  | shell =>
      have hlook := Step.look l h hidle
      by_cases hp : s.path .shell = none
      · rw [if_pos hp, hp] at hlook
        exact .single hlook
      · rw [if_neg hp] at hlook
        refine .tail (.single hlook) ?_
        have := Step.removeStale (s := s.task .shell l .stale (s.path .shell)) l h (by simp)
        simpa [hp] using this

/-- **The next daemon gets both paths**, whatever the ones before it have left. -/
lemma recover (hs : Sound s) (hfree : s.lock = none) (hl : s.phase l = .starting) :
    ∃ t, Relation.ReflTransGen Step s t ∧ t.phase l = .inMain ∧ ∀ x, t.connect x = some l := by
  let begun : Instances := { s.setPhase l .inMain with lock := some l }
  have hidle : ∀ x, begun.listener x l = .idle := fun x => hs.fresh x l (Or.inr hl)
  have hmain : begun.phase l = .inMain := by simp [begun]
  have hshell := serve .shell (Or.inl hmain) (hidle .shell)
  have hgui := serve (s := begun.task .shell l .bound (some l)) (l := l) .gui (Or.inl hmain)
    (by rw [task_listener_ne (Or.inl (by simp))]; exact hidle .gui)
  refine ⟨_, (Relation.ReflTransGen.head (.acquire l hl hfree) hshell).trans hgui, hmain, ?_⟩
  intro x
  rw [connect_eq_some]
  cases x with
  | gui => simp
  | shell => rw [task_path_ne (by simp), task_listener_ne (Or.inl (by simp))]; simp

/-! ## All runs -/

/-- A daemon in `main` among quiet others, with the paths it has taken. -/
structure Alone (s : Instances) (l : ℕ) : Prop where
  sound : Sound s
  inMain : s.phase l = .inMain
  quiet : Quiet s
  served : ∀ x, Served s x l

lemma Alone.step (h : Alone s l) (hstep : StepIn l s t) : Alone t l where
  sound := h.sound.step hstep.1
  inMain := hstep.2
  quiet := h.quiet.step h.sound h.inMain hstep
  served x := (h.served x).step h.quiet h.sound h.inMain hstep

/-- **One daemon at a time.**  In every reachable state at most one process is in `main`, and whom
a client of a socket gets is in `main` or on its way out.  From there:

* if no daemon is on its way out, one in `main` whose clients come to it keeps them as long as it
  is in `main` and listens;
* if two listen on the shell socket, each can stop, and if one stops that is not killed, it takes the
  path from the other, which listens on and never gets a client again;
* a process that starts while the lock is free can come to serve both sockets. -/
theorem singleInstance (h : Reachable s) :
    (∀ k l, s.phase k = .inMain → s.phase l = .inMain → k = l) ∧
    (∀ x k, s.connect x = some k → s.phase k = .inMain ∨ s.phase k = .unwinding) ∧
    (∀ l, s.phase l = .inMain → Quiet s →
      (∀ x, s.listener x l = .bound → s.connect x = some l) →
      ∀ t, Relation.ReflTransGen (StepIn l) s t →
        ∀ x, t.listener x l = .bound → t.connect x = some l) ∧
    (∀ k l, s.listener .shell k = .bound → s.listener .shell l = .bound → k ≠ l →
      (∃ t, Step s t ∧ t.phase = s.phase ∧ t.listener .shell k = .closed ∧
        t.listener .shell l = .bound) ∧
      ∀ t, Step s t → t.listener .shell k ≠ .bound → t.phase k ≠ .gone →
        ∀ u, Relation.ReflTransGen Step t u → u.connect .shell ≠ some l) ∧
    (s.lock = none → ∀ l, s.phase l = .starting →
      ∃ t, Relation.ReflTransGen Step s t ∧ t.phase l = .inMain ∧ ∀ x, t.connect x = some l) := by
  have hs := h.sound
  refine ⟨fun k l => hs.inMain_unique, fun x k hc => ?_, fun l hl hq hserved t hrun x hb => ?_,
    fun k l hk hl hne => ⟨?_, fun t hstep hclosed hlives u hrun hu => ?_⟩,
    fun hfree l hl => recover hs hfree hl⟩
  · exact hs.bound x k (connect_eq_some.mp hc).2
  · have halone : Alone s l :=
      ⟨hs, hl, hq, fun y hy => (connect_eq_some.mp (hserved y hy)).1⟩
    have ht : Alone t l := Runs.invariant (I := fun u => Alone u l)
      (fun _ _ ha hstep => ha.step hstep) halone hrun
    exact connect_eq_some.mpr ⟨ht.served x hb, hb⟩
  · refine ⟨_, Step.close .shell k (hs.bound .shell k hk) hk, rfl, by simp, ?_⟩
    rw [task_listener_ne (Or.inr hne.symm)]
    exact hl
  · obtain rfl := eq_close hstep hk hclosed hlives
    have hbound : (s.task .shell k .closed none).listener .shell l = .bound := by
      rw [task_listener_ne (Or.inr hne.symm)]
      exact hl
    have hlost : Lost (s.task .shell k .closed none) .shell l := ⟨Or.inl hbound, by simp⟩
    have hend : Lost u .shell l := Runs.invariant (I := fun u => Lost u .shell l)
      (fun _ _ hi hstep => hi.step hstep) hlost hrun
    exact hend.2 (connect_eq_some.mp hu).1

/-- The first daemon serves the shell extensions, … -/
def first : Instances :=
  { ((init.setPhase 0 .starting).setPhase 1 .starting).setPhase 0 .inMain with lock := some 0 }.task
    .shell 0 .bound (some 0)

/-- … and has quit when the second begins to. -/
def overlap : Instances :=
  { (first.setPhase 0 .unwinding).setPhase 1 .inMain with lock := some 1 }.task
    .shell 1 .bound (some 1)

lemma overlap_reachable : Reachable overlap := by
  have hlaunch : Reachable ((init.setPhase 0 .starting).setPhase 1 .starting) :=
    (Relation.ReflTransGen.single (.launch 0 rfl)).tail (.launch 1 (by simp [init]))
  have hfirst : Reachable first :=
    (hlaunch.tail (.acquire 0 (by simp) rfl)).trans (serve .shell (Or.inl (by simp)) rfl)
  have hleave : Reachable { first.setPhase 0 .unwinding with lock := none } :=
    hfirst.tail (.leave 0 (by simp [first]))
  refine (hleave.tail (.acquire 1 (by simp [first]) rfl)).trans
    (serve .shell (Or.inl (by simp)) ?_)
  show first.listener .shell 1 = .idle
  rw [first, task_listener_ne (Or.inr (by simp))]
  rfl

/-- The theorem there: the end of the first takes the path from the second. -/
theorem singleInstance_overlap : overlap.connect .shell = some 1 ∧
    ∃ t, Step overlap t ∧ t.phase 1 = .inMain ∧
      ∀ u, Relation.ReflTransGen Step t u → u.connect .shell ≠ some 1 := by
  obtain ⟨-, -, -, hrace, -⟩ := singleInstance overlap_reachable
  have hconnect : overlap.connect .shell = some 1 := connect_eq_some.mpr (by simp [overlap])
  obtain ⟨⟨t, hstep, hphase, hclosed, -⟩, htakes⟩ := hrace 0 1
    (by simp [overlap, first, task]) (by simp [overlap]) (by decide)
  refine ⟨hconnect, t, hstep, ?_, htakes t hstep (by rw [hclosed]; decide) ?_⟩
  · rw [hphase]
    simp [overlap]
  · rw [hphase]
    simp [overlap, first]

end Instances

end OwncloudSync
