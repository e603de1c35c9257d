import OwncloudSync.Engine.Progress
import Mathlib.Data.Set.Card
import Mathlib.Tactic.Common

/-!
# What a report adds up to

A path goes through two maps, a set union, a partition, a loop and a `JoinSet` before it is counted.
`executed` is the log of a run: every operation that was carried out, with the message it left if it
failed.  An instruction that falls through to the `_` arm of its phase is no operation; of those that
are computed, only the `Conflict` of a directory does (`operates_of_mem`).

`report_conserved` compares the report with the log and with what discovery has found, for every run
that returns a report: whatever fails, and whichever tasks panic.
-/

namespace OwncloudSync

open PathTree

/-- The path is among the discovered local or remote entries. -/
def Discovered (ε : Env) (σ : State) (p : Path) : Prop :=
  p ≠ [] ∧ (localEntry σ p ≠ none ∨ remoteEntry ε σ p ≠ none)

/-- The instruction has an arm of its own in its phase. -/
def Item.operates (t : Item) : Bool :=
  match t.isDir, t.instr with
  | _, .upload => true
  | _, .download => true
  | _, .deleteLocal => true
  | _, .deleteRemote => true
  | false, .conflict => true
  | _, _ => false

/-- The operations of a run in the order in which they were carried out, each with its message if it
failed. -/
def executed (cfg : EngineConfig) (env : Env) (crash : Crash) {st : State} (sch : Schedule st) :
    List (Item × Option String) :=
  (TaskRun.trace (execTask cfg env crash.panics) (tasks cfg env sch) st.started).filter
    (fun x => x.1.operates)

variable {κ : EngineConfig} {ε : Env} {χ : Crash} {σ s : State} {π : Schedule σ} {t : Item}
  {p : Path}

/-! ## The counters -/

lemma discovered_iff : Discovered ε σ p ↔
    p ≠ [] ∧ (σ.disk.get p ≠ none ∨ σ.space.get p ≠ none) := by
  unfold Discovered
  rw [ne_eq (localEntry σ p), localEntry_eq_none, ne_eq (remoteEntry ε σ p), remoteEntry_eq_none]

/-- A schedule lists each discovered path once. -/
lemma order_length (ε : Env) (π : Schedule σ) :
    π.order.length = {p | Discovered ε σ p}.ncard := by
  have hset : {p | Discovered ε σ p} = (π.order.toFinset : Set Path) := by
    ext p
    rw [Set.mem_ofPred_eq, discovered_iff, ← π.mem_iff, Finset.mem_coe, List.mem_toFinset]
  rw [hset, Set.ncard_coe_finset, List.toFinset_card_of_nodup π.nodup]

/-- How often phase 2 has found an instruction. -/
def countOf (κ : EngineConfig) (ε : Env) (σ : State) (ps : List Path) (i : SyncInstruction) : ℕ :=
  (ps.filter (fun p => instruction κ ε σ p = i)).length

/-- Counting the items with an instruction is counting the paths with it. -/
lemma length_filter_instructions {i : SyncInstruction} (hi : i ≠ .ignore) (ps : List Path) :
    ((instructions κ ε σ ps).filter (fun t => t.instr = i)).length = countOf κ ε σ ps i := by
  have hboth : ∀ t : Item, (decide (t.instr = i) && decide (t.instr ≠ .ignore)) =
      decide (t.instr = i) := by
    intro t
    by_cases h : t.instr = i
    · simp [h, hi]
    · simp [h]
  rw [instructions, List.filter_filter, List.filter_congr (fun t _ => hboth t), List.filter_map,
    List.length_map]
  rfl

/-- **Every path is in exactly one class.** -/
lemma countOf_sum (κ : EngineConfig) (ε : Env) (σ : State) (ps : List Path) :
    countOf κ ε σ ps .download + countOf κ ε σ ps .upload + countOf κ ε σ ps .conflict +
      countOf κ ε σ ps .deleteLocal + countOf κ ε σ ps .deleteRemote +
      countOf κ ε σ ps .ignore = ps.length := by
  induction ps with
  | nil => rfl
  | cons p ps ih =>
      have hcons : ∀ i, countOf κ ε σ (p :: ps) i =
          (if instruction κ ε σ p = i then 1 else 0) + countOf κ ε σ ps i := by
        intro i
        by_cases h : instruction κ ε σ p = i
        · simp [countOf, h, Nat.add_comm]
        · simp [countOf, h]
      have hrange : instruction κ ε σ p ∈ [SyncInstruction.upload, .download, .deleteLocal,
          .deleteRemote, .conflict, .ignore] := reconcile_range
      simp only [hcons, List.length_cons]
      simp only [List.mem_cons, List.not_mem_nil, or_false] at hrange
      rcases hrange with h | h | h | h | h | h
      · simp only [h, reduceCtorEq, if_true, if_false]; omega
      · simp only [h, reduceCtorEq, if_true, if_false]; omega
      · simp only [h, reduceCtorEq, if_true, if_false]; omega
      · simp only [h, reduceCtorEq, if_true, if_false]; omega
      · simp only [h, reduceCtorEq, if_true, if_false]; omega
      · simp only [h, reduceCtorEq, if_true, if_false]; omega

/-- The counters of a report add up to the discovered paths. -/
lemma report_sum (κ : EngineConfig) (ε : Env) (π : Schedule σ) (errors : List String) :
    let rep := report κ ε π errors
    rep.downloads + rep.uploads + rep.conflicts + rep.deletesLocal + rep.deletesRemote +
      rep.ignored = {p | Discovered ε σ p}.ncard := by
  intro rep
  rw [← order_length, ← countOf_sum κ ε σ π.order,
    ← length_filter_instructions (i := .download) (by simp),
    ← length_filter_instructions (i := .upload) (by simp),
    ← length_filter_instructions (i := .conflict) (by simp),
    ← length_filter_instructions (i := .deleteLocal) (by simp),
    ← length_filter_instructions (i := .deleteRemote) (by simp)]
  rfl

/-! ## The operations -/

/-- What is no operation changes nothing and reports nothing. -/
lemma execTask_idle (hd : t.isDir = true) (h : t.operates = false) :
    execTask κ ε χ.panics t s = (s, none) := by
  unfold execTask
  rw [if_pos hd]
  cases hi : t.instr <;> simp [Item.operates, hd, hi] at h <;> simp [execDir, hi]

/-- Among the tasks, only a directory in conflict has no operation. -/
lemma operates_of_mem (ht : t ∈ tasks κ ε π) :
    t.operates = true ↔ ¬ (t.isDir = true ∧ t.instr = .conflict) := by
  obtain ⟨-, hinstr, -, -⟩ := item_of_mem ht
  have hrange : t.instr ∈ [SyncInstruction.upload, .download, .deleteLocal, .deleteRemote,
      .conflict, .ignore] := hinstr ▸ reconcile_range
  have hne := (mem_tasks.mp ht).2.2
  simp only [List.mem_cons, List.not_mem_nil, or_false] at hrange
  rcases hrange with h | h | h | h | h | h
  · simp [Item.operates, h]
  · simp [Item.operates, h]
  · simp [Item.operates, h]
  · simp [Item.operates, h]
  · cases hd : t.isDir <;> simp [Item.operates, h, hd]
  · exact absurd h hne

/-- What is in the log was carried out once, and nothing else was. -/
lemma map_fst_executed : (executed κ ε χ π).map Prod.fst = (tasks κ ε π).filter Item.operates := by
  have hlog : (TaskRun.trace (execTask κ ε χ.panics) (tasks κ ε π) σ.started).map Prod.fst =
      tasks κ ε π := TaskRun.trace_map_fst _ _
  have hfilter : ((TaskRun.trace (execTask κ ε χ.panics) (tasks κ ε π) σ.started).map
      Prod.fst).filter Item.operates = (executed κ ε χ π).map Prod.fst := List.filter_map
  rw [← hfilter, hlog]

/-- A path has one operation if it is handled, and none otherwise. -/
lemma countP_executed (χ : Crash) (π : Schedule σ) (p : Path) [Decidable (Handled κ ε σ p)] :
    (executed κ ε χ π).countP (fun x => x.1.path = p) = if Handled κ ε σ p then 1 else 0 := by
  have hfst : (executed κ ε χ π).countP (fun x => x.1.path = p) =
      ((tasks κ ε π).filter Item.operates).countP (fun t => t.path = p) := by
    rw [← map_fst_executed (χ := χ), List.countP_map]
    rfl
  rw [hfst]
  split
  · rename_i hp
    obtain ⟨hne, hpres, hi, hno⟩ := hp
    have hmem : itemOf κ ε σ p ∈ tasks κ ε π := itemOf_mem_tasks hne hpres hi
    have hcount : ((tasks κ ε π).filter Item.operates).countP (fun t => t.path = p) =
        ((tasks κ ε π).filter Item.operates).count (itemOf κ ε σ p) := by
      refine List.countP_congr (fun t ht => ?_)
      have heq := (mem_tasks.mp (List.mem_of_mem_filter ht)).2.1
      simp only [decide_eq_true_eq, beq_iff_eq]
      refine ⟨fun h => by rw [heq, h], fun h => by rw [h]; rfl⟩
    rw [hcount]
    exact List.count_eq_one_of_mem (tasks_nodup.filter _)
      (List.mem_filter.mpr ⟨hmem, (operates_of_mem hmem).mpr hno⟩)
  · rename_i hp
    refine List.countP_eq_zero.mpr (fun t ht hpath => hp ?_)
    obtain ⟨hmem, hop⟩ := List.mem_filter.mp ht
    by_contra hunhandled
    rw [decide_eq_true_eq] at hpath
    exact (operates_of_mem hmem).mp hop (dirConflict_of_unhandled hmem (hpath ▸ hunhandled))

/-- The messages of the run are those of its operations. -/
lemma errors_eq : (TaskRun.run (execTask κ ε χ.panics) (tasks κ ε π) σ.started).2 =
    (executed κ ε χ π).filterMap Prod.snd := by
  rw [TaskRun.run_snd_eq, executed, List.filterMap_filter]
  refine List.filterMap_congr (fun x hx => ?_)
  by_cases hop : x.1.operates = true
  · rw [if_pos hop]
  · obtain ⟨hmem, s, hs⟩ := TaskRun.exists_of_mem_trace hx
    have hdir : x.1.isDir = true := by
      by_contra hd
      exact hop ((operates_of_mem hmem).mpr (fun hc => hd hc.1))
    rw [if_neg hop, hs, execTask_idle hdir (by simpa using hop)]

/-- A run that returns a report has got to its end. -/
lemma reaches_end_of_ok {rep : SyncReport} (h : (runSyncWith κ ε χ π).1 = .ok rep) :
    ε.discovery = none ∧ (χ.rootless = true → tasks κ ε π = []) := by
  have hdisc : ε.discovery = none := by
    by_contra hd
    obtain ⟨e, he⟩ := Option.ne_none_iff_exists'.mp hd
    rw [runSyncWith_undiscovered he] at h
    cases h
  refine ⟨hdisc, fun hr => ?_⟩
  by_contra ht
  obtain ⟨e, he⟩ := runSyncWith_rootless hdisc hr ht
  rw [he] at h
  cases h

/-- **A report is conserved.**  Its counters add up to the discovered paths; each path that is not
ignored has exactly one operation, except for a directory in conflict, which has none; there is one
message for each operation that failed; and the folder is shown as failed exactly if there is a
message. -/
theorem report_conserved (κ : EngineConfig) (ε : Env) (χ : Crash) {σ : State} (π : Schedule σ)
    (rep : SyncReport) (h : (runSyncWith κ ε χ π).1 = .ok rep) :
    rep.downloads + rep.uploads + rep.conflicts + rep.deletesLocal + rep.deletesRemote +
      rep.ignored = {p | Discovered ε σ p}.ncard ∧
    (∀ p, Discovered ε σ p → instruction κ ε σ p ≠ .ignore →
      (executed κ ε χ π).countP (fun x => x.1.path = p) =
        if isDirPath ε σ p = true ∧ instruction κ ε σ p = .conflict then 0 else 1) ∧
    (∀ x ∈ executed κ ε χ π, Discovered ε σ x.1.path ∧ instruction κ ε σ x.1.path ≠ .ignore) ∧
    rep.errors = (executed κ ε χ π).filterMap Prod.snd ∧
    ((runSyncWith κ ε χ π).2.sync.status = .error ↔ rep.errors ≠ []) := by
  obtain ⟨hdisc, hroot⟩ := reaches_end_of_ok h
  obtain ⟨r, hr, heq⟩ := runSyncWith_end hdisc hroot
  rw [heq] at h
  obtain rfl := (Except.ok.inj h).symm
  have herrors : r.2 = (executed κ ε χ π).filterMap Prod.snd := by rw [hr, errors_eq]
  refine ⟨report_sum κ ε π r.2, fun p hp hi => ?_, fun x hx => ?_, herrors, ?_⟩
  · classical
    have hhandled : Handled κ ε σ p ↔
        ¬ (isDirPath ε σ p = true ∧ instruction κ ε σ p = .conflict) := by
      obtain ⟨hne, hpres⟩ := discovered_iff.mp hp
      exact ⟨fun hh => hh.2.2.2, fun hno => ⟨hne, hpres, hi, hno⟩⟩
    rw [countP_executed χ π p]
    by_cases hdc : isDirPath ε σ p = true ∧ instruction κ ε σ p = .conflict
    · rw [if_pos hdc, if_neg (fun hh => hhandled.mp hh hdc)]
    · rw [if_neg hdc, if_pos (hhandled.mpr hdc)]
  · have hmem : x.1 ∈ tasks κ ε π :=
      (TaskRun.exists_of_mem_trace (List.mem_of_mem_filter hx)).1
    obtain ⟨hpres, heq, hi⟩ := mem_tasks.mp hmem
    exact ⟨discovered_iff.mpr hpres, fun hign => hi (by rw [heq]; exact hign)⟩
  · rw [heq]
    cases hnil : r.2 with
    | nil => simp [report]
    | cons e es => simp [report]

/-- On both sides there is a directory `d` that was never synced, on the disk a file `a`, and on the
server a file `b`. -/
def mixedFolder : State where
  disk := Tree.ofList [(["d".toList], Node.dir), (["a".toList], Node.file ⟨⟨[97, 97], by decide⟩, 0⟩)]
  space := Tree.ofList
    [(["d".toList], Node.dir), (["b".toList], Node.file ⟨⟨[98, 98], by decide⟩, "e".toList⟩)]
  journal := fun _ => none
  sync := ⟨.idle, fun _ => none⟩

/-- The collection first. -/
def mixedSchedule : Schedule mixedFolder :=
  Schedule.ofList mixedFolder rfl rfl [["d".toList], ["a".toList], ["b".toList]] (by decide)
    (by decide) (by decide)

/-- The task of `a` panics. -/
def panicAtA : Crash where
  rootless := false
  panics p :=
    if p = ["a".toList] then some ⟨"boom", mixedFolder.disk, mixedFolder.space, fun _ => none⟩
    else none

/-- The theorem for a run in which the upload panics. -/
theorem mixed_conserved : ∃ rep,
    (runSyncWith ⟨.keepBoth, 5000000⟩ Env.calm panicAtA mixedSchedule).1 = .ok rep ∧
    rep.downloads + rep.uploads + rep.conflicts + rep.deletesLocal + rep.deletesRemote +
      rep.ignored = {p | Discovered Env.calm mixedFolder p}.ncard ∧
    rep.errors = ["task panicked: boom"] ∧
    (executed ⟨.keepBoth, 5000000⟩ Env.calm panicAtA mixedSchedule).countP
      (fun x => x.1.path = ["d".toList]) = 0 := by
  have h := report_conserved ⟨.keepBoth, 5000000⟩ Env.calm panicAtA mixedSchedule _ rfl
  have hd : Discovered Env.calm mixedFolder ["d".toList] :=
    discovered_iff.mpr ⟨by decide, Or.inl (by decide)⟩
  refine ⟨_, rfl, h.1, by decide, ?_⟩
  exact (h.2.1 ["d".toList] hd (by decide)).trans (by decide)

end OwncloudSync
