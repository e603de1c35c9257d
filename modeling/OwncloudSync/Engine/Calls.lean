import OwncloudSync.Engine.Progress
import OwncloudSync.Engine.RunEffects
import OwncloudSync.Discovery.RemoteUrl
import Mathlib.Tactic.Common

/-!
# The calls a run does not see

Two things can go wrong in a run without a word in its report.

**The URL of a path may lead elsewhere.**  `join_remote_path` drops tab, line feed and carriage return
from a name, so the requests for such a path act on another one (`Calls.served`).  For names without
the three characters they act on the path itself; `Calls.ofRoot` is what the URLs below one space come
to.

**The journal may fail.**  `run_sync` takes a `get_entry` that fails for "no row", and it drops what
`upsert_entry` and `delete_entry` return: the row stays as it was, and the path is shown as in sync.

`Calls.runSync` is the run with all of this.  `follows_runSync` reduces it: for plain names it reports
what `runSync` reports **from the journal as it could be read**, it leaves the same trees and
statuses, and its journal has the old row wherever the write failed (`Calls.row`).  With `Calls.sound`
it is `runSync` itself.
-/

namespace OwncloudSync

open PathTree

/-- A name that a URL carries as it is. -/
def PlainName (n : Name) : Prop := EntryName n ∧ TabFree n

instance (n : Name) : Decidable (PlainName n) := inferInstanceAs (Decidable (_ ∧ _))

/-- A conflict name is as plain as the name it is made from. -/
lemma PlainName.conflict {n : Name} (h : PlainName n) (ts : ℕ) : PlainName (conflictName n ts) := by
  have hdigits : ∀ x ∈ Nat.toDigits 10 ts, x.isDigit = true := fun x hx =>
    Nat.isDigit_of_mem_toDigits (by decide) (by decide) hx
  have hmarker : '_' ∈ conflictName n ts := by
    unfold conflictName
    split <;> simp
  have hother : ∀ d : List Char, '_' ∉ d → conflictName n ts ≠ d :=
    fun d hd hname => hd (hname ▸ hmarker)
  refine ⟨⟨hother _ (by simp), fun hmem => ?_, hother _ (by simp), hother _ (by simp)⟩,
    fun x hx => ?_⟩
  · rcases mem_conflictName hmem with hn | hm | hd
    · exact h.1.slash hn
    · exact absurd hm (by decide)
    · exact absurd (hdigits _ hd) (by decide)
  · rcases mem_conflictName hx with hn | hm | hd
    · exact h.2 x hn
    · exact (by decide : TabFree "_conflict_".toList) x hm
    · refine Bool.eq_false_iff.mpr (fun htab => ?_)
      have hdigit := hdigits x hd
      simp only [isTabOrNewline, Bool.or_eq_true, decide_eq_true_eq] at htab
      rcases htab with (rfl | rfl) | rfl
      all_goals exact absurd hdigit (by decide)

/-- The calls of a run that fail in silence. -/
structure Calls where
  /-- what the URL of a path leads to -/
  served : Path → Path
  served_plain : ∀ p, (∀ n ∈ p, PlainName n) → served p = p
  /-- `get_entry` fails -/
  unread : Path → Bool
  /-- `upsert_entry` or `delete_entry` fails, whichever it is -/
  unwritten : Path → Bool

/-- Every name on either side is plain. -/
def State.Plain (σ : State) : Prop :=
  ∀ p, σ.disk.get p ≠ none ∨ σ.space.get p ≠ none → ∀ n ∈ p, PlainName n

/-- Nothing fails in silence. -/
def Calls.sound : Calls where
  served p := p
  served_plain _ _ := rfl
  unread _ := false
  unwritten _ := false

/-- No call to the journal fails. -/
structure Calls.Journaled (ω : Calls) : Prop where
  read : ∀ p, ω.unread p = false
  written : ∀ p, ω.unwritten p = false

/-! ## The run -/

/-- The state with the rows that phase 2 gets to see. -/
def State.seen (st : State) (unread : Path → Bool) : State :=
  { st with journal := fun p => if unread p then none else st.journal p }

/-- The state as the run reads it: a row that it cannot read is not there. -/
def Calls.read (ω : Calls) (st : State) : State := st.seen ω.unread

/-- The order of a run does not depend on the journal. -/
def Schedule.read {st : State} (sch : Schedule st) (ω : Calls) : Schedule (ω.read st) :=
  ⟨sch.order, sch.finish, sch.nodup, sch.mem_iff, sch.perm⟩

/-- The tasks are those of the state it reads. -/
def Schedule.ofRead {ω : Calls} {st : State} (sch : Schedule (ω.read st)) : Schedule st :=
  ⟨sch.order, sch.finish, sch.nodup, sch.mem_iff, sch.perm⟩

/-- One instruction: the requests go to the URL of the path, and the result of the write to the
journal is dropped. -/
def Calls.exec (ω : Calls) (cfg : EngineConfig) (env : Env) (it : Item) (st : State) :
    State × Option SyncError :=
  let url := ω.served it.path
  let r := if it.isDir then execDir env it st url else execFile cfg env it st url
  ({ r.1 with journal := if ω.unwritten it.path then st.journal else r.1.journal }, r.2)

/-- The tasks of a run, from the rows that could be read. -/
def Calls.tasks (ω : Calls) (cfg : EngineConfig) (env : Env) {st : State} (sch : Schedule st) :
    List Item :=
  OwncloudSync.tasks cfg env (sch.read ω)

/-- The state in which the run reaches the tasks after `pre`. -/
def Calls.stateAfter (ω : Calls) (cfg : EngineConfig) (env : Env) (st : State) (pre : List Item) :
    State :=
  (TaskRun.run (ω.exec cfg env) pre st.started).1

/-- `run_sync`, with the calls that fail in silence. -/
def Calls.runSync (ω : Calls) (cfg : EngineConfig) (env : Env) {st : State} (sch : Schedule st) :
    Except SyncError SyncReport × State :=
  match env.discovery with
  | some e => (.error e, st.started)
  | none =>
      let log := TaskRun.trace (ω.exec cfg env) (ω.tasks cfg env sch) st.started
      let errors := log.filterMap (fun x => x.2.map x.1.message)
      let last := ω.stateAfter cfg env st (ω.tasks cfg env sch)
      let status : FolderStatus := if errors.isEmpty then .idle else .error
      (.ok (report cfg env (sch.read ω) errors),
        { last with sync := { last.sync with status := status } })

/-- The run reports no error. -/
def Calls.ErrorFree (ω : Calls) (κ : EngineConfig) (ε : Env) {σ : State} (π : Schedule σ) : Prop :=
  ∃ rep, (ω.runSync κ ε π).1 = .ok rep ∧ rep.errors = []

variable {ω : Calls} {κ : EngineConfig} {ε : Env} {σ s s' : State} {π : Schedule σ} {t : Item}
  {p q : Path}

@[simp] lemma Calls.read_disk : (ω.read σ).disk = σ.disk := rfl

@[simp] lemma Calls.read_space : (ω.read σ).space = σ.space := rfl

lemma Calls.read_journal : (ω.read σ).journal p = if ω.unread p then none else σ.journal p := rfl

/-- A row that can be read is the one there is. -/
lemma Calls.read_row (h : ω.unread p = false) : (ω.read σ).journal p = σ.journal p := by
  rw [Calls.read_journal, h]
  rfl

lemma Calls.read_unread (h : ω.unread p = true) : (ω.read σ).journal p = none := by
  rw [Calls.read_journal, h]
  rfl

/-- Where every row can be read, phase 2 sees the journal itself. -/
lemma Calls.read_eq (h : ∀ p, ω.unread p = false) : ω.read σ = σ := by
  cases σ with
  | mk d r j y =>
      unfold Calls.read State.seen
      congr 1
      funext p
      rw [h p]
      rfl

/-- An empty journal reads as empty, whatever fails. -/
lemma Calls.read_unsynced (h : ∀ p, σ.journal p = none) : ω.read σ = σ := by
  cases σ with
  | mk d r j y =>
      unfold Calls.read State.seen
      congr 1
      funext p
      rw [h p, ite_self]
      exact (h p).symm

/-! ## One instruction -/

/-- What an instruction does to the row of its path. -/
inductive RowWrite where
  | keep
  | put (row : JournalEntry)
  | drop

/-- What the write does to the journal, if it succeeds. -/
def RowWrite.apply (w : RowWrite) (p : Path) (j : Journal) : Journal :=
  match w with
  | .keep => j
  | .put row => j.upsertEntry p row
  | .drop => j.deleteEntry p

lemma RowWrite.apply_ne (w : RowWrite) (j : Journal) (h : q ≠ p) : w.apply p j q = j q := by
  cases w with
  | keep => rfl
  | put row => exact upsertEntry_ne h
  | drop => exact deleteEntry_ne h

lemma RowWrite.apply_congr (w : RowWrite) {j j' : Journal} (h : j p = j' p) :
    w.apply p j p = w.apply p j' p := by
  cases w with
  | keep => exact h
  | put row => rw [RowWrite.apply, RowWrite.apply, upsertEntry_self, upsertEntry_self]
  | drop => rw [RowWrite.apply, RowWrite.apply, deleteEntry_self, deleteEntry_self]

/-- The end of an instruction does not depend on the journal, and what it writes there neither. -/
def Writes (t : Item) (w : RowWrite) (f : State → State × Option SyncError) (s : State) : Prop :=
  ∀ j, f { s with journal := j } = ({ (f s).1 with journal := w.apply t.path j }, (f s).2)

lemma downloadAndRecord_writes (s : State) (url : Path) :
    ∃ w, w ≠ .drop ∧ Writes t w (fun s => downloadAndRecord ε t s url) s := by
  rcases h : propagateDownload ε t.path s.space s.disk url with ⟨e | etag, d⟩
  · refine ⟨.keep, by simp, fun j => ?_⟩
    simp only [downloadAndRecord, h, State.failed, RowWrite.apply]
  · refine ⟨.put (fileRow t.path etag (metadataLen ε t.path d) (t.rem.map (·.fileId))),
      by simp, fun j => ?_⟩
    simp only [downloadAndRecord, h, State.recorded, RowWrite.apply]

lemma execDir_writes (s : State) (url : Path) :
    ∃ w, (t.instr.isDelete = false → w ≠ .drop) ∧ Writes t w (fun s => execDir ε t s url) s := by
  cases hi : t.instr with
  | upload =>
      rcases h : mkdirRemote (ε.fails .mkcol t.path) url s.space with ⟨e | _, x⟩
      · refine ⟨.keep, by simp, fun j => ?_⟩
        simp only [execDir, hi, h, State.failed, RowWrite.apply]
      · refine ⟨.put (dirRow t.path none), by simp, fun j => ?_⟩
        simp only [execDir, hi, h, State.recorded, RowWrite.apply]
  | download =>
      rcases h : createDirAll (ε.fails .createDirAll t.path) t.path s.disk with ⟨e | _, x⟩
      · refine ⟨.keep, by simp, fun j => ?_⟩
        simp only [execDir, hi, h, State.failed, RowWrite.apply]
      · refine ⟨.put (dirRow t.path (t.rem.map (·.fileId))), by simp, fun j => ?_⟩
        simp only [execDir, hi, h, State.recorded, RowWrite.apply]
  | deleteRemote =>
      rcases h : deleteRemote ε t.path s.space url with ⟨e | _, x⟩
      · refine ⟨.keep, by simp, fun j => ?_⟩
        simp only [execDir, hi, h, State.failed, RowWrite.apply]
      · refine ⟨.drop, by simp [SyncInstruction.isDelete], fun j => ?_⟩
        simp only [execDir, hi, h, State.forgotten, RowWrite.apply]
  | deleteLocal =>
      rcases h : deleteLocalDir ε t.path s.disk with ⟨e | _, x⟩
      · refine ⟨.keep, by simp, fun j => ?_⟩
        simp only [execDir, hi, h, State.failed, RowWrite.apply]
      · refine ⟨.drop, by simp [SyncInstruction.isDelete], fun j => ?_⟩
        simp only [execDir, hi, h, State.forgotten, RowWrite.apply]
  | _ =>
      refine ⟨.keep, by simp, fun j => ?_⟩
      simp only [execDir, hi, RowWrite.apply]

lemma execFile_writes (s : State) (url : Path) :
    ∃ w, (t.instr.isDelete = false → w ≠ .drop) ∧
      Writes t w (fun s => execFile κ ε t s url) s := by
  cases hi : t.instr with
  | download =>
      obtain ⟨w, hw, h⟩ := downloadAndRecord_writes (ε := ε) (t := t) s url
      refine ⟨w, fun _ => hw, fun j => ?_⟩
      simpa only [execFile, hi] using h j
  | upload =>
      rcases h : propagateUpload κ ε t.path (metadataLen ε t.path s.disk) s.disk s.space url with
        ⟨e | etag, x⟩
      · refine ⟨.keep, by simp, fun j => ?_⟩
        simp only [execFile, hi, h, State.failed, RowWrite.apply]
      · refine ⟨.put (fileRow t.path etag (metadataLen ε t.path s.disk) none), by simp,
          fun j => ?_⟩
        simp only [execFile, hi, h, State.recorded, RowWrite.apply]
  | conflict =>
      cases hf : ε.fails .setAside t.path with
      | some f =>
          refine ⟨.keep, by simp, fun j => ?_⟩
          simp only [execFile, hi, hf, State.failed, RowWrite.apply]
      | none =>
          cases hr : s.disk.rename? t.path (conflictPath t.path (ε.clock t.path)) with
          | none =>
              refine ⟨.keep, by simp, fun j => ?_⟩
              simp only [execFile, hi, hf, hr, State.failed, RowWrite.apply]
          | some d =>
              obtain ⟨w, hw, h⟩ :=
                downloadAndRecord_writes (ε := ε) (t := t) { s with disk := d } url
              refine ⟨w, fun _ => hw, fun j => ?_⟩
              simpa only [execFile, hi, hf, hr] using h j
  | deleteLocal =>
      rcases h : deleteLocal ε t.path s.disk with ⟨e | _, x⟩
      · refine ⟨.keep, by simp, fun j => ?_⟩
        simp only [execFile, hi, h, State.failed, RowWrite.apply]
      · refine ⟨.drop, by simp [SyncInstruction.isDelete], fun j => ?_⟩
        simp only [execFile, hi, h, State.forgotten, RowWrite.apply]
  | deleteRemote =>
      rcases h : deleteRemote ε t.path s.space url with ⟨e | _, x⟩
      · refine ⟨.keep, by simp, fun j => ?_⟩
        simp only [execFile, hi, h, State.failed, RowWrite.apply]
      · refine ⟨.drop, by simp [SyncInstruction.isDelete], fun j => ?_⟩
        simp only [execFile, hi, h, State.forgotten, RowWrite.apply]
  | _ =>
      refine ⟨.keep, by simp, fun j => ?_⟩
      simp only [execFile, hi, RowWrite.apply]

/-- **One instruction writes at most the row of its own path, whatever the journal holds.** -/
lemma exec_writes (s : State) :
    ∃ w, (t.instr.isDelete = false → w ≠ .drop) ∧ Writes t w (exec κ ε t) s := by
  cases hd : t.isDir with
  | true =>
      obtain ⟨w, hw, h⟩ := execDir_writes (ε := ε) (t := t) s t.path
      refine ⟨w, hw, fun j => ?_⟩
      simpa only [OwncloudSync.exec, hd, if_true] using h j
  | false =>
      obtain ⟨w, hw, h⟩ := execFile_writes (κ := κ) (ε := ε) (t := t) s t.path
      refine ⟨w, hw, fun j => ?_⟩
      simpa only [OwncloudSync.exec, hd, Bool.false_eq_true, if_false] using h j

/-! ## The run -/

/-- The row that the run from `σ` really leaves where the one from the rows it could read leaves
`s`. -/
def Calls.row (ω : Calls) (σ s : State) (p : Path) : Option JournalEntry :=
  if ω.unwritten p then σ.journal p
  else if ω.unread p then (s.journal p).or (σ.journal p)
  else s.journal p

/-- Two states with the same trees and statuses, the second with the rows that are really there. -/
structure Calls.Follows (ω : Calls) (σ s s' : State) : Prop where
  disk : s'.disk = s.disk
  space : s'.space = s.space
  sync : s'.sync = s.sync
  journal : ∀ p, s'.journal p = ω.row σ s p

/-- A row that was written is the one of the run without failures. -/
lemma Calls.Follows.written (h : ω.Follows σ s s') (hw : ω.unwritten p = false)
    (hj : s.journal p ≠ none) : s'.journal p = s.journal p := by
  obtain ⟨row, hrow⟩ := Option.ne_none_iff_exists'.mp hj
  rw [h.journal p, Calls.row, hw, hrow]
  cases ω.unread p <;> rfl

/-- A row that could not be written is as it was. -/
lemma Calls.Follows.stale (h : ω.Follows σ s s') (hw : ω.unwritten p = true) :
    s'.journal p = σ.journal p := by
  rw [h.journal p, Calls.row, hw]
  rfl

lemma Calls.follows_start : ω.Follows σ (ω.read σ).started σ.started where
  disk := rfl
  space := rfl
  sync := rfl
  journal p := by
    change σ.journal p = ω.row σ (ω.read σ).started p
    unfold Calls.row
    change _ = if ω.unwritten p then _ else if ω.unread p then
      ((ω.read σ).journal p).or (σ.journal p) else (ω.read σ).journal p
    cases hw : ω.unwritten p <;> cases hr : ω.unread p <;> simp [Calls.read_journal, hr]

/-- The plan deletes nothing whose row could not be read. -/
lemma Calls.not_delete_of_unread (h : ω.unread p = true) :
    (instruction κ ε (ω.read σ) p).isDelete = false := by
  refine Bool.eq_false_iff.mpr (fun hdel => ?_)
  have hb := baseline_of_none (Calls.read_unread (σ := σ) h)
  rcases instruction_isDelete_iff.mp hdel with hg | hg
  · exact hg.2.2 hb
  · exact hg.2.2 hb

/-- **One instruction, with and without the calls that fail in silence.** -/
lemma Calls.Follows.step (h : ω.Follows σ s s') (hurl : ω.served t.path = t.path)
    (hdel : ω.unread t.path = true → t.instr.isDelete = false) :
    ω.Follows σ (OwncloudSync.exec κ ε t s).1 (ω.exec κ ε t s').1 ∧
      (ω.exec κ ε t s').2 = (OwncloudSync.exec κ ε t s).2 := by
  obtain ⟨w, hw, hwrites⟩ := exec_writes (κ := κ) (ε := ε) (t := t) s
  have hs' : s' = { s with journal := s'.journal } := by
    cases s' with
    | mk d r j y =>
        obtain ⟨hd, hr, hy, -⟩ := h
        cases hd
        cases hr
        cases hy
        rfl
  have hown : ω.exec κ ε t s' =
      ({ (OwncloudSync.exec κ ε t s').1 with
          journal := if ω.unwritten t.path then s'.journal
            else (OwncloudSync.exec κ ε t s').1.journal },
        (OwncloudSync.exec κ ε t s').2) := by
    simp only [Calls.exec, hurl, OwncloudSync.exec]
  have hafter := hwrites s'.journal
  rw [← hs'] at hafter
  have hbefore : (OwncloudSync.exec κ ε t s).1.journal = w.apply t.path s.journal :=
    congrArg (fun r : State × Option SyncError => r.1.journal) (hwrites s.journal)
  rw [hown, hafter]
  refine ⟨⟨rfl, rfl, rfl, fun p => ?_⟩, rfl⟩
  have hj := h.journal p
  unfold Calls.row at hj ⊢
  rw [hbefore]
  dsimp only
  by_cases hp : p = t.path
  · subst hp
    cases hunw : ω.unwritten t.path with
    | true => simpa [hunw] using hj
    | false =>
        cases hunr : ω.unread t.path with
        | false =>
            simp only [hunw, hunr, Bool.false_eq_true, if_false] at hj ⊢
            exact w.apply_congr hj
        | true =>
            simp only [hunw, hunr, Bool.false_eq_true, if_false, if_true] at hj ⊢
            cases w with
            | keep => exact hj
            | put row => simp [RowWrite.apply]
            | drop => exact absurd rfl (hw (hdel hunr))
  · cases hunw : ω.unwritten t.path <;> simp [w.apply_ne _ hp, hj]

/-- An instruction at its own URL, with its row written, is the one of `exec`. -/
lemma Calls.exec_eq (hurl : ω.served t.path = t.path) (hw : ω.unwritten t.path = false) :
    ω.exec κ ε t = OwncloudSync.exec κ ε t := by
  funext s
  simp only [Calls.exec, OwncloudSync.exec, hurl, hw, Bool.false_eq_true, if_false]

/-! ## The run of all of them -/

/-- The requests of a run between plain names go to the paths of its tasks. -/
lemma Calls.served_of_plain (h : σ.Plain) : ∀ u ∈ ω.tasks κ ε π, ω.served u.path = u.path :=
  fun u hu => ω.served_plain _ (h u.path (mem_tasks.mp hu).1.2)

section Run

variable (hurl : ∀ u ∈ ω.tasks κ ε π, ω.served u.path = u.path)

include hurl in
lemma Calls.follows_batch {pre : List Item} (hpre : ∀ u ∈ pre, u ∈ ω.tasks κ ε π) :
    ω.Follows σ (OwncloudSync.stateAfter κ ε (ω.read σ) pre) (ω.stateAfter κ ε σ pre) ∧
      TaskRun.trace (ω.exec κ ε) pre σ.started =
        TaskRun.trace (OwncloudSync.exec κ ε) pre (ω.read σ).started := by
  refine TaskRun.run_simulation Calls.follows_start (fun u hu s s' h => ?_)
  refine h.step (hurl u (hpre u hu)) (fun hunread => ?_)
  rw [(item_of_mem (hpre u hu)).2.1]
  exact Calls.not_delete_of_unread hunread

include hurl in
/-- **A run with calls that fail in silence** reports what the run from the rows it could read
reports, and leaves what that leaves, but for the rows it could not write. -/
theorem Calls.follows_runSync : (ω.runSync κ ε π).1 = (OwncloudSync.runSync κ ε (π.read ω)).1 ∧
    ω.Follows σ (OwncloudSync.runSync κ ε (π.read ω)).2 (ω.runSync κ ε π).2 := by
  unfold Calls.runSync OwncloudSync.runSync
  cases ε.discovery with
  | some e => exact ⟨rfl, Calls.follows_start⟩
  | none =>
      obtain ⟨hend, htrace⟩ := Calls.follows_batch hurl
        (fun u (hu : u ∈ ω.tasks κ ε π) => hu)
      have hmessages : (TaskRun.trace (ω.exec κ ε) (ω.tasks κ ε π) σ.started).filterMap
          (fun x => x.2.map x.1.message) = messages κ ε (π.read ω) := by
        rw [htrace]
        rfl
      have hempty : (messages κ ε (π.read ω)).isEmpty =
          (propagated κ ε (π.read ω)).2.isEmpty := TaskRun.isEmpty_messages _ _ _
      dsimp only
      rw [hmessages, hempty]
      refine ⟨rfl, hend.disk, hend.space, ?_, hend.journal⟩
      rw [hend.sync]
      rfl

include hurl in
lemma Calls.errorFree_iff :
    ω.ErrorFree κ ε π ↔ OwncloudSync.ErrorFree κ ε (π.read ω) := by
  unfold Calls.ErrorFree OwncloudSync.ErrorFree
  rw [(Calls.follows_runSync hurl).1]

end Run

lemma runSync_congr {σ' : State} {π' : Schedule σ'} (h : σ' = σ) (horder : π'.order = π.order)
    (hfinish : π'.finish = π.finish) : runSync κ ε π' = runSync κ ε π := by
  subst h
  cases π
  cases π'
  cases horder
  cases hfinish
  rfl

/-- With all rows read, the tasks are those of `tasks`. -/
lemma Calls.tasks_eq (h : ∀ p, ω.unread p = false) :
    ω.tasks κ ε π = OwncloudSync.tasks κ ε π := by
  have hcongr : ∀ {σ' : State} {π' : Schedule σ'}, σ' = σ → π'.order = π.order →
      π'.finish = π.finish → OwncloudSync.tasks κ ε π' = OwncloudSync.tasks κ ε π := by
    rintro σ' π' rfl horder hfinish
    simp only [OwncloudSync.tasks, horder, hfinish]
  exact hcongr (Calls.read_eq h) rfl rfl

/-- From an empty journal it does not matter what can be read. -/
lemma Calls.runSync_unsynced (h : ∀ p, σ.journal p = none) :
    OwncloudSync.runSync κ ε (π.read ω) = OwncloudSync.runSync κ ε π :=
  runSync_congr (Calls.read_unsynced h) rfl rfl

/-- With all rows read, phase 2 sees the journal itself. -/
lemma Calls.runSync_read (h : ∀ p, ω.unread p = false) :
    OwncloudSync.runSync κ ε (π.read ω) = OwncloudSync.runSync κ ε π :=
  runSync_congr (Calls.read_eq h) rfl rfl

/-- **Where the journal works this is `runSync`.** -/
theorem Calls.runSync_eq (hurl : ∀ u ∈ ω.tasks κ ε π, ω.served u.path = u.path)
    (hω : ω.Journaled) : ω.runSync κ ε π = OwncloudSync.runSync κ ε π := by
  obtain ⟨hreport, hd, hr, hy, hj⟩ := Calls.follows_runSync hurl
  rw [Calls.runSync_read hω.read] at hreport hd hr hy hj
  refine Prod.ext hreport ?_
  cases h : (ω.runSync κ ε π).2 with
  | mk d r j y =>
      rw [h] at hd hr hy hj
      cases hd
      cases hr
      cases hy
      congr 1
      funext p
      refine (hj p).trans ?_
      rw [Calls.row, hω.written p, hω.read p]
      rfl

/-- Between plain names, with a journal that works, the run is `runSync`. -/
lemma Calls.runSync_of_plain (hplain : σ.Plain) (hω : ω.Journaled) :
    ω.runSync κ ε π = OwncloudSync.runSync κ ε π :=
  Calls.runSync_eq (Calls.served_of_plain hplain) hω

/-- Between plain names the report does not depend on what could be written. -/
lemma Calls.errorFree_of_plain (hplain : σ.Plain) (hread : ∀ p, ω.unread p = false) :
    ω.ErrorFree κ ε π ↔ OwncloudSync.ErrorFree κ ε π := by
  rw [Calls.errorFree_iff (Calls.served_of_plain hplain), OwncloudSync.ErrorFree,
    Calls.runSync_read hread]
  rfl

lemma Calls.sound_journaled : Calls.sound.Journaled := ⟨fun _ => rfl, fun _ => rfl⟩

lemma Calls.sound_runSync : Calls.sound.runSync κ ε π = OwncloudSync.runSync κ ε π :=
  Calls.runSync_eq (fun _ _ => rfl) Calls.sound_journaled

lemma Calls.sound_errorFree :
    Calls.sound.ErrorFree κ ε π ↔ OwncloudSync.ErrorFree κ ε π := by
  unfold Calls.ErrorFree OwncloudSync.ErrorFree
  rw [Calls.sound_runSync]

/-! ## The URLs below one space -/

/-- What the URL of a path below `spaceRoot` leads to, if the server splits and decodes it the way
hrefs are read. -/
def servedBelow (β : SegmentBytes) (spaceRoot : ParsedUrl) (segs : List Str) (p : Path) : Path :=
  match p, spaceRoot.joinRemotePath β (pathStr p) with
  | _ :: _, .ok { path := .segments ss, .. } =>
      (segments (decodeHrefPath (below segs (pathText ss)))).reverse
  | p, _ => p

lemma servedBelow_plain {β : SegmentBytes} {spaceRoot : ParsedUrl} {segs : List Str}
    (hpath : spaceRoot.path = .segments segs) (hp : ∀ n ∈ p, PlainName n) :
    servedBelow β spaceRoot segs p = p := by
  cases p with
  | nil => rfl
  | cons n r =>
      have hne : (n :: r).reverse ≠ [] := by simp
      have hnames : ∀ c ∈ (n :: r).reverse, EntryName c := fun c hc => (hp c (List.mem_reverse.mp hc)).1
      have hsolid : ∀ c ∈ (n :: r).reverse, Solid c := fun c hc =>
        (hnames c hc).solid (hp c (List.mem_reverse.mp hc)).2
      have hjoin := joinRemotePath_intercalate (β := β) hpath hnames hsolid hne
      have hclean : (n :: r).reverse.map (fun c => encodeSegment β (cleaned c)) =
          (n :: r).reverse.map (encodeSegment β) := List.map_congr_left (fun c hc => by
        rw [cleaned_eq_self.mpr (hp c (List.mem_reverse.mp hc)).2])
      have hencoded := encodedNames (β := β) hsolid
      rw [hclean] at hjoin hencoded
      unfold servedBelow
      rw [pathStr, hjoin]
      dsimp only
      rw [below_pathText hencoded (by simp), decodeHrefPath_encodeSegments,
        segments_intercalate hnames hne, List.reverse_reverse]

/-- The calls of a run on one space, with a journal that works. -/
def Calls.ofRoot (β : SegmentBytes) (spaceRoot : ParsedUrl) (segs : List Str)
    (hpath : spaceRoot.path = .segments segs) : Calls where
  served := servedBelow β spaceRoot segs
  served_plain _ hp := servedBelow_plain hpath hp
  unread _ := false
  unwritten _ := false

end OwncloudSync
