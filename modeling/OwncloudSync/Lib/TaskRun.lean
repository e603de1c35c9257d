import Mathlib.Data.List.Basic
import Mathlib.Data.List.Induction
import Mathlib.Data.List.Nodup
import Mathlib.Tactic.Common

/-!
# Running a list of fallible tasks

A batch runner: every task is executed, each may report an error, and an error never stops
the tasks after it.  `run` threads the state through and collects the errors in order.

A task is met in the state that the tasks before it left, so every rule speaks of the cut of the
batch at a task.

* `run_invariant` — what every task preserves holds at the end; `run_invariant_at` is the form in
  which a step may use where in the batch it stands.
* `run_establish` — **the owner rule**.  If one task establishes a fact and every task after it
  keeps it, then the fact holds at the end, wherever in the batch its owner stood;
  `run_establish_at` is the form for a given cut.
* `run_ok_iff` — a batch reports nothing exactly when every task of it succeeds.
* `trace` — every task with what it reported; the errors of a run are read off it
  (`run_snd_eq`), and each task is in it once (`trace_map_fst`).
* `run_simulation` — two runners over two kinds of state, related task by task.
* `run_untouched`, `run_owned` — where every task has a key and changes a view of the state at
  that key only, the batch leaves each key as its owner left it.
-/

namespace TaskRun

variable {τ σ ε : Type}

/-- Execute the tasks one after another, collecting the errors they report. -/
def run (exec : τ → σ → σ × Option ε) : List τ → σ → σ × List ε
  | [], s => (s, [])
  | t :: ts, s =>
      let r := exec t s
      let rest := run exec ts r.1
      (rest.1, r.2.toList ++ rest.2)

variable {exec : τ → σ → σ × Option ε}

lemma run_cons_fst (t : τ) (ts : List τ) (s : σ) :
    (run exec (t :: ts) s).1 = (run exec ts (exec t s).1).1 := rfl

lemma run_cons_snd (t : τ) (ts : List τ) (s : σ) :
    (run exec (t :: ts) s).2 = (exec t s).2.toList ++ (run exec ts (exec t s).1).2 := rfl

lemma run_append (xs ys : List τ) (s : σ) :
    (run exec (xs ++ ys) s).1 = (run exec ys (run exec xs s).1).1 ∧
      (run exec (xs ++ ys) s).2 = (run exec xs s).2 ++ (run exec ys (run exec xs s).1).2 := by
  induction xs generalizing s with
  | nil => exact ⟨rfl, rfl⟩
  | cons t ts ih =>
      obtain ⟨ih1, ih2⟩ := ih (exec t s).1
      constructor
      · rw [List.cons_append, run_cons_fst, run_cons_fst, ih1]
      · rw [List.cons_append, run_cons_snd, run_cons_snd, run_cons_fst, ih2, List.append_assoc]

/-- An error-free batch is one whose first task succeeded and whose rest is error-free. -/
lemma run_cons_ok {t : τ} {ts : List τ} {s : σ} :
    (run exec (t :: ts) s).2 = [] ↔ (exec t s).2 = none ∧ (run exec ts (exec t s).1).2 = [] := by
  rw [run_cons_snd, List.append_eq_nil_iff, Option.toList_eq_nil_iff]

/-- The batch cut at one of its tasks. -/
lemma run_split {ts pre post : List τ} {t : τ} (hts : ts = pre ++ t :: post) (s : σ) :
    (run exec ts s).1 = (run exec post (exec t (run exec pre s).1).1).1 := by
  rw [hts, (run_append pre (t :: post) s).1, run_cons_fst]

/-- What every task of the batch preserves holds at the end. -/
theorem run_invariant {I : σ → Prop} {ts : List τ} {s : σ} (h0 : I s)
    (hstep : ∀ t ∈ ts, ∀ s, I s → I (exec t s).1) : I (run exec ts s).1 := by
  induction ts generalizing s with
  | nil => exact h0
  | cons t ts ih =>
      rw [run_cons_fst]
      exact ih (hstep t List.mem_cons_self s h0)
        (fun u hu => hstep u (List.mem_cons_of_mem t hu))

/-- The same where the argument needs to know how the batch got there: each task is met in the
state that the tasks before it left. -/
theorem run_invariant_at {I : σ → Prop} {ts : List τ} {s : σ} (h0 : I s)
    (hstep : ∀ pre post t, ts = pre ++ t :: post → I (run exec pre s).1 →
      I (exec t (run exec pre s).1).1) : I (run exec ts s).1 := by
  induction ts using List.reverseRecOn with
  | nil => exact h0
  | append_singleton ts t ih =>
      have hpre : I (run exec ts s).1 := by
        refine ih (fun pre post u hu => hstep pre (post ++ [t]) u ?_)
        rw [hu, List.append_assoc, List.cons_append]
      rw [(run_append ts [t] s).1]
      exact hstep ts [] t rfl hpre

/-- **The owner rule**, at a given cut: the task `t` establishes `Q`, and every task after it
keeps `Q`. -/
theorem run_establish_at {Q : σ → Prop} {ts pre post : List τ} {s : σ} {t : τ}
    (hts : ts = pre ++ t :: post) (hown : Q (exec t (run exec pre s).1).1)
    (hkeep : ∀ mid rest u, post = mid ++ u :: rest → Q (run exec (pre ++ t :: mid) s).1 →
      Q (exec u (run exec (pre ++ t :: mid) s).1).1) : Q (run exec ts s).1 := by
  rw [run_split hts]
  refine run_invariant_at hown (fun mid rest u hu hQ => ?_)
  -- the tasks between the owner and `u` continue the batch that ended with the owner
  have hstate : (run exec (pre ++ t :: mid) s).1 =
      (run exec mid (exec t (run exec pre s).1).1).1 := by
    rw [(run_append pre (t :: mid) s).1, run_cons_fst]
  have h := hkeep mid rest u hu
  rw [hstate] at h
  exact h hQ

/-- The owner rule, wherever in the batch the owner stands. -/
theorem run_establish {Q : σ → Prop} {ts : List τ} {s : σ} {t : τ} (ht : t ∈ ts)
    (hown : ∀ pre post, ts = pre ++ t :: post → Q (exec t (run exec pre s).1).1)
    (hkeep : ∀ pre post u, ts = pre ++ u :: post → t ∈ pre → Q (run exec pre s).1 →
      Q (exec u (run exec pre s).1).1) : Q (run exec ts s).1 := by
  obtain ⟨pre, post, hts⟩ := List.append_of_mem ht
  refine run_establish_at hts (hown pre post hts) (fun mid rest u hu => ?_)
  have hcut : ts = (pre ++ t :: mid) ++ u :: rest := by
    rw [hts, hu, List.append_assoc, List.cons_append]
  exact hkeep (pre ++ t :: mid) rest u hcut (by simp)

/-- In a batch that reported nothing every task succeeded. -/
lemma run_ok_at {ts pre post : List τ} {t : τ} {s : σ} (hok : (run exec ts s).2 = [])
    (hts : ts = pre ++ t :: post) : (exec t (run exec pre s).1).2 = none := by
  rw [hts, (run_append pre (t :: post) s).2, List.append_eq_nil_iff] at hok
  exact (run_cons_ok.mp hok.2).1

/-- **A batch reports nothing exactly when every task, met where it stands, succeeds.** -/
lemma run_ok_iff {ts : List τ} {s : σ} : (run exec ts s).2 = [] ↔
    ∀ pre t post, ts = pre ++ t :: post → (exec t (run exec pre s).1).2 = none := by
  refine ⟨fun hok pre t post hts => run_ok_at hok hts, fun h => ?_⟩
  induction ts using List.reverseRecOn with
  | nil => rfl
  | append_singleton ts t ih =>
      have hpre : (run exec ts s).2 = [] := by
        refine ih (fun pre u post hu => h pre u (post ++ [t]) ?_)
        rw [hu, List.append_assoc, List.cons_append]
      rw [(run_append ts [t] s).2, hpre, List.nil_append, run_cons_ok]
      exact ⟨h ts t [] rfl, rfl⟩

/-! ## The log of a run -/

/-- Every task with what it reported, in the order of the run. -/
def trace (exec : τ → σ → σ × Option ε) : List τ → σ → List (τ × Option ε)
  | [], _ => []
  | t :: ts, s => (t, (exec t s).2) :: trace exec ts (exec t s).1

/-- Each task of the batch is executed once. -/
lemma trace_map_fst (ts : List τ) (s : σ) : (trace exec ts s).map Prod.fst = ts := by
  induction ts generalizing s with
  | nil => rfl
  | cons t ts ih => rw [trace, List.map_cons, ih]

/-- The errors of a run are those of its tasks, in their order. -/
lemma run_snd_eq (ts : List τ) (s : σ) :
    (run exec ts s).2 = (trace exec ts s).filterMap Prod.snd := by
  induction ts generalizing s with
  | nil => rfl
  | cons t ts ih =>
      rw [run_cons_snd, ih, trace]
      cases (exec t s).2 <;> rfl

/-- **Simulation of batches.**  A relation that every task of the batch preserves, with the same
report on both sides, relates the states at the end, and the logs are the same. -/
theorem run_simulation {σ' : Type} {exec' : τ → σ' → σ' × Option ε} {R : σ → σ' → Prop}
    {ts : List τ} {s : σ} {s' : σ'} (h0 : R s s')
    (hstep : ∀ t ∈ ts, ∀ s s', R s s' →
      R (exec t s).1 (exec' t s').1 ∧ (exec' t s').2 = (exec t s).2) :
    R (run exec ts s).1 (run exec' ts s').1 ∧ trace exec' ts s' = trace exec ts s := by
  induction ts generalizing s s' with
  | nil => exact ⟨h0, rfl⟩
  | cons t ts ih =>
      obtain ⟨hnext, hreport⟩ := hstep t List.mem_cons_self s s' h0
      obtain ⟨hend, htrace⟩ := ih hnext (fun u hu => hstep u (List.mem_cons_of_mem t hu))
      exact ⟨hend, by rw [trace, trace, htrace, hreport]⟩

/-- Runners that agree on the tasks of the batch run it alike. -/
lemma run_congr {exec' : τ → σ → σ × Option ε} {ts : List τ} (h : ∀ t ∈ ts, exec' t = exec t)
    (s : σ) : run exec' ts s = run exec ts s := by
  induction ts generalizing s with
  | nil => rfl
  | cons t ts ih =>
      rw [run, run, h t List.mem_cons_self, ih (fun u hu => h u (List.mem_cons_of_mem t hu))]

section Messages

variable {δ : Type} (f : τ → ε → δ)

/-- A runner that only renders the errors differently, each task its own. -/
lemma run_map (g : τ → σ → σ × Option δ) {ts : List τ}
    (h : ∀ t ∈ ts, ∀ s, g t s = ((exec t s).1, (exec t s).2.map (f t))) (s : σ) :
    run g ts s = ((run exec ts s).1, (trace exec ts s).filterMap (fun x => x.2.map (f x.1))) := by
  induction ts generalizing s with
  | nil => rfl
  | cons t ts ih =>
      have hhead := h t List.mem_cons_self s
      have hrest := ih (fun u hu => h u (List.mem_cons_of_mem t hu))
      refine Prod.ext ?_ ?_
      · rw [run_cons_fst, hhead, hrest]
        rfl
      · rw [run_cons_snd, hhead, hrest, trace]
        cases (exec t s).2 <;> rfl

/-- There is a text exactly for each error. -/
lemma isEmpty_messages (ts : List τ) (s : σ) :
    ((trace exec ts s).filterMap (fun x => x.2.map (f x.1))).isEmpty =
      (run exec ts s).2.isEmpty := by
  induction ts generalizing s with
  | nil => rfl
  | cons t ts ih =>
      rw [run_cons_snd, trace]
      cases h : (exec t s).2 with
      | none => simpa [h] using ih (exec t s).1
      | some e => simp

end Messages

/-- What a task reported, it reported in some state. -/
lemma exists_of_mem_trace {ts : List τ} {s : σ} {x : τ × Option ε} (h : x ∈ trace exec ts s) :
    x.1 ∈ ts ∧ ∃ s', x.2 = (exec x.1 s').2 := by
  induction ts generalizing s with
  | nil => cases h
  | cons t ts ih =>
      rw [trace, List.mem_cons] at h
      rcases h with rfl | h
      · exact ⟨List.mem_cons_self, s, rfl⟩
      · obtain ⟨hmem, hex⟩ := ih h
        exact ⟨List.mem_cons_of_mem t hmem, hex⟩

/-! ## Tasks that own a key -/

section Keyed

variable {ι ν : Type} {key : τ → ι} {view : σ → ι → ν} {ts pre post : List τ} {t : τ} {s : σ}
  {i : ι}

/-- Every task changes the view at its own key only. -/
def Owned (exec : τ → σ → σ × Option ε) (key : τ → ι) (view : σ → ι → ν) : Prop :=
  ∀ t s i, i ≠ key t → view (exec t s).1 i = view s i

/-- A key that no task of the batch owns is left alone. -/
lemma run_untouched (h : Owned exec key view) (hts : ∀ t ∈ ts, key t ≠ i) :
    view (run exec ts s).1 i = view s i := by
  refine run_invariant (I := fun s' => view s' i = view s i) rfl (fun t ht s' hs => ?_)
  exact (h t s' i (hts t ht).symm).trans hs

/-- A key is at the end as its owner left it. -/
lemma run_owned (h : Owned exec key view) (hts : ts = pre ++ t :: post)
    (hpost : ∀ u ∈ post, key u ≠ key t) :
    view (run exec ts s).1 (key t) = view (exec t (run exec pre s).1).1 (key t) := by
  rw [run_split hts]
  exact run_untouched h hpost

end Keyed

end TaskRun
