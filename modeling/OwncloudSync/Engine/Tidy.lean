import OwncloudSync.Engine.Names
import OwncloudSync.Engine.RunEffects
import Mathlib.Tactic.Common

/-!
# Tidy states

The states and surroundings in which the engine is meant to work, and what a run does to each
path there.

* `Tidy` — no path is a file on one side and a directory on the other, every name is the name of
  a file, and none has the extension `tmp`.  So no download can be in the way of a path.
* `HonestEtags` — the etag of an answer is the one discovery reports next, up to quotes; `Honest` —
  and the size of a file that is there can be read.
* `FreshConflicts` — the name a conflict sets a file aside under is in neither tree nor journal.

In such a state no task is in the way of another: the frame lemmas at the end say that a task
leaves every discovered path alone that is not its own and not below a directory it deletes, and
that nothing appears where there was nothing, but directories, and the copies of conflicts.
-/

namespace OwncloudSync

open PathTree FileName

/-- The path is on one of the sides. -/
def State.Present (σ : State) (p : Path) : Prop := σ.disk.get p ≠ none ∨ σ.space.get p ≠ none

/-- No path is a file here and a directory there, every name is a file name, and none has the
extension `tmp`. -/
structure Tidy (σ : State) : Prop where
  fileLocal : ∀ p a, σ.disk.get p = some (Node.file a) → σ.space.get p ≠ some Node.dir
  fileRemote : ∀ p r, σ.space.get p = some (Node.file r) → σ.disk.get p ≠ some Node.dir
  names : ∀ n p, σ.Present (n :: p) → isFileName n = true ∧ extension n ≠ some "tmp".toList

/-- The server reports the etags it answers with. -/
structure HonestEtags (ε : Env) : Prop where
  get : ∀ p r, trimQuotes (ε.getEtag p r) = trimQuotes r.etag
  put : ∀ p, trimQuotes (ε.putEtag p) = trimQuotes (ε.storedEtag p)

/-- And the size of a file can be read. -/
structure Honest (ε : Env) : Prop extends HonestEtags ε where
  metadata : ∀ p, ε.fails .metadata p = none

/-- A path that the run finds, handles as a file, and does not delete. -/
structure KeptFile (κ : EngineConfig) (ε : Env) (σ : State) (q : Path) : Prop where
  ne : q ≠ []
  present : σ.disk.get q ≠ none ∨ σ.space.get q ≠ none
  file : isDirPath ε σ q = false
  kept : (instruction κ ε σ q).isDelete = false

/-- The path under which the run sets the file of a conflict aside. -/
def ConflictCopy (κ : EngineConfig) (ε : Env) (σ : State) (c : Path) : Prop :=
  ∃ q, isDirPath ε σ q = false ∧ instruction κ ε σ q = .conflict ∧
    c = conflictPath q (ε.clock q)

/-- Conflict names occur in neither tree nor journal. -/
def FreshConflicts (κ : EngineConfig) (ε : Env) (σ : State) : Prop :=
  ∀ c, ConflictCopy κ ε σ c → ¬ σ.Present c ∧ σ.journal c = none

/-- Phase 1 and every file task of the run succeed. -/
structure FilesSucceed (κ : EngineConfig) (ε : Env) {σ : State} (π : Schedule σ) : Prop where
  discovered : ε.discovery = none
  ok : ∀ pre post t, tasks κ ε π = pre ++ t :: post → t.isDir = false →
    (exec κ ε t (stateAfter κ ε σ pre)).2 = none

variable {κ : EngineConfig} {ε : Env} {σ s : State} {π : Schedule σ} {p q : Path} {t u : Item}

lemma ErrorFree.filesSucceed (h : ErrorFree κ ε π) : FilesSucceed κ ε π where
  discovered := (errorFree_iff.mp h).1
  ok _ _ _ hsplit _ := h.ok_at hsplit

/-! ## Names that are not in the way -/

/-- Tidiness is a matter of the trees. -/
lemma Tidy.congr {s' : State} (h : Tidy s) (hd : s'.disk = s.disk) (hs : s'.space = s.space) :
    Tidy s' where
  fileLocal := by rw [hd, hs]; exact h.fileLocal
  fileRemote := by rw [hd, hs]; exact h.fileRemote
  names := by unfold State.Present; rw [hd, hs]; exact h.names

/-- No path of a tidy state is the temp path of one. -/
lemma Tidy.tmp_absent (h : Tidy σ) (hp : σ.Present p) (hne : p ≠ []) :
    ¬ σ.Present (tmpPath p) := by
  cases p with
  | nil => exact absurd rfl hne
  | cons n r =>
      intro hq
      exact (h.names (tmpName n) r hq).2 (extension_tmpName (h.names n r hp).1)

lemma Tidy.tmp_ne (h : Tidy σ) (hp : σ.Present p) (hne : p ≠ []) : tmpPath p ≠ p := by
  intro hc
  exact h.tmp_absent hp hne (hc.symm ▸ hp)

lemma present_of_mem (ht : t ∈ tasks κ ε π) : t.path ≠ [] ∧ σ.Present t.path :=
  (mem_tasks.mp ht).1

section Gone

variable (hgone : ¬ σ.Present p)

include hgone in
lemma disk_of_gone : σ.disk.get p = none := by
  by_contra h
  exact hgone (Or.inl h)

include hgone in
lemma space_of_gone : σ.space.get p = none := by
  by_contra h
  exact hgone (Or.inr h)

include hgone in
lemma ne_path_of_gone (ht : t ∈ tasks κ ε π) : p ≠ t.path := by
  rintro rfl
  exact hgone (present_of_mem ht).2

end Gone

/-- A conflict copy has the extension of the file it is made from, so it is no temp path. -/
lemma ConflictCopy.names {n : Name} {r : Path} (h : ConflictCopy κ ε σ (n :: r)) (ht : Tidy σ) :
    isFileName n = true ∧ extension n ≠ some "tmp".toList := by
  obtain ⟨q, hq, hi, hc⟩ := h
  cases q with
  | nil => rw [isDirPath_iff.mpr (Or.inl σ.disk.root)] at hq; cases hq
  | cons m x =>
      obtain ⟨hm, hext⟩ := ht.names m x (Or.inl (instruction_conflict hi).1)
      obtain ⟨rfl, -⟩ := List.cons.inj hc
      have hdd := (isFileName_iff.mp hm).2
      refine ⟨isFileName_iff.mpr ⟨?_, ?_⟩, by rw [extension_conflictName hdd]; exact hext⟩
      · intro hnil
        have hlen := congrArg List.length hnil
        unfold conflictName at hlen
        split at hlen <;> simp at hlen
      · intro hnil
        have hcut := rsplitFileAtDot_conflictName (ε.clock (m :: x)) hdd
        rw [hnil, show rsplitFileAtDot ['.', '.'] = (['.', '.'], none) from rfl,
          Prod.mk.injEq] at hcut
        have hmem : '_' ∈ (['.', '.'] : List Char) := by rw [hcut.1]; simp
        exact absurd hmem (by decide)

/-! ## What one task does to a path that is not its own -/

section Frame

variable (hσ : Tidy σ) (hfresh : FreshConflicts κ ε σ) (hu : u ∈ tasks κ ε π)

include hσ hfresh hu in
/-- A discovered path keeps what it holds on disk, unless a directory above it is deleted. -/
lemma frame_disk (hp : σ.Present p) (hne : p ≠ u.path) (hs : s.disk.get p ≠ none)
    (hdel : ¬ (u.instr = .deleteLocal ∧ u.isDir = true ∧ u.path <:+ p)) :
    (exec κ ε u s).1.disk.get p = s.disk.get p := by
  obtain ⟨hune, hup⟩ := present_of_mem hu
  obtain ⟨-, hinstr, hdir, -⟩ := item_of_mem hu
  refine exec_disk_keep hs ?_
  rintro (⟨hi, hbelow, hown⟩ | ⟨-, h | h⟩ | ⟨hf, hi, h⟩)
  · cases hd : u.isDir with
    | false => exact hne (hown hd)
    | true => exact hdel ⟨hi, hd, hbelow⟩
  · exact hne h
  · exact hσ.tmp_absent hup hune (h ▸ hp)
  · exact (hfresh p ⟨u.path, hdir ▸ hf, hinstr ▸ hi, h⟩).1 hp

include hσ hu in
/-- Where there is nothing on disk nothing appears, but directories the server has, conflict
copies, and the temp files of tasks that fail. -/
lemma frame_disk_none (hne : p ≠ u.path) (hdir : σ.space.get p ≠ some Node.dir)
    (hcopy : ¬ ConflictCopy κ ε σ p) (hok : u.isDir = false → (exec κ ε u s).2 = none)
    (hs : s.disk.get p = none) : (exec κ ε u s).1.disk.get p = none := by
  obtain ⟨hune, hup⟩ := present_of_mem hu
  obtain ⟨-, hinstr, hud, -⟩ := item_of_mem hu
  -- a path above one that the server has is a directory there
  have habove : σ.space.get u.path ≠ none → ¬ p <:+ u.path := by
    intro hsu hsuf
    exact hdir (σ.space.dir_of_below hsuf hne hsu)
  have hfetched : u.fetches → σ.space.get u.path ≠ none := by
    rintro ⟨-, hi | hi⟩
    · exact instruction_download (hinstr.symm.trans hi)
    · exact (instruction_conflict (hinstr.symm.trans hi)).2
  rcases exec_disk_none (κ := κ) (ε := ε) (t := u) hs with h | h
  · exact h
  rcases h with ⟨hi, -, hsuf, -⟩ | ⟨hf, hsuf, -⟩ | ⟨hf, h | h⟩ | ⟨hf, hi, h⟩
  · exact absurd hsuf (habove (instruction_download (hinstr.symm.trans hi)))
  · exact absurd (above_of_suffix_tail hune hsuf).1 (habove (hfetched hf))
  · exact absurd h hne
  · rw [h]
    exact exec_fetch_ok_tmp hf (hok hf.1) (hσ.tmp_ne hup hune)
  · exact absurd ⟨u.path, hud ▸ hf, hinstr ▸ hi, h⟩ hcopy

include hu in
/-- A path keeps what it holds on the server, unless something above it is deleted. -/
lemma frame_space (hp : σ.Present p) (hne : p ≠ u.path) (hs : s.space.get p ≠ none)
    (hdel : ¬ (u.instr = .deleteRemote ∧ u.isDir = true ∧ u.path <:+ p)) :
    (exec κ ε u s).1.space.get p = s.space.get p := by
  obtain ⟨-, hinstr, hud, -⟩ := item_of_mem hu
  refine exec_space_keep hs ?_ (fun h => hne h.2.2)
  rintro ⟨hi, hbelow⟩
  have hgone := instruction_deleteRemote_iff.mp (hinstr.symm.trans hi)
  -- a file that is deleted on the server has nothing below it on either side
  have hsp : σ.space.get p ≠ none :=
    hp.resolve_left (fun h => h (σ.disk.none_of_below hbelow hgone.1))
  have hdir := σ.space.dir_of_below hbelow (Ne.symm hne) hsp
  exact hdel ⟨hi, by rw [hud]; exact (isDir_of_goneLocally hgone).mpr hdir, hbelow⟩

include hu in
/-- Where there is nothing on the server nothing appears, but collections for local
directories. -/
lemma frame_space_none (hne : u.instr = .upload → p ≠ u.path)
    (hdir : σ.disk.get p ≠ some Node.dir) (hs : s.space.get p = none) :
    (exec κ ε u s).1.space.get p = none := by
  obtain ⟨hune, -⟩ := present_of_mem hu
  obtain ⟨-, hinstr, -, -⟩ := item_of_mem hu
  rcases exec_space_none (κ := κ) (ε := ε) (t := u) hs with h | ⟨hi, h⟩
  · exact h
  · rcases h with ⟨-, h, -⟩ | ⟨-, hsuf, -⟩ | ⟨-, h, -⟩
    · exact absurd h (hne hi)
    · obtain ⟨ha, hane⟩ := above_of_suffix_tail hune hsuf
      exact absurd (σ.disk.dir_of_below ha hane (instruction_upload (hinstr.symm.trans hi))) hdir
    · exact absurd h (hne hi)

end Frame

end OwncloudSync
