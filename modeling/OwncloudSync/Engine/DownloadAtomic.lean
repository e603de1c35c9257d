import OwncloudSync.Engine.OpEffects
import Mathlib.Tactic.Common

/-!
# Is a download atomic?

`propagate_download` for any answer of the server and any `expected_etag`; the engine's own use of it
is `propagateDownload` (`propagateDownload_eq`).  The body goes to a temp file next to the
destination and is renamed from there.

**The temp file is nobody's by right.**  Its name is the destination's with the extension `tmp`, so a
file of the user may stand there, or the destination itself; and only a failed rename is cleaned up
after.  `atomic_iff` says exactly when nothing is lost and nothing is left.
-/

namespace OwncloudSync

open PathTree

/-- The answer to a GET. -/
structure Response where
  status : ℕ
  /-- the status as it is displayed -/
  statusText : String
  /-- the `etag` header, empty if there is none -/
  etag : Str
  body : Blob

/-- The check of `expected_etag`. -/
def etagMatches (expected : Option Str) (etag : Str) : Bool :=
  match expected with
  | none => true
  | some e => trimQuotes etag = trimQuotes e

/-- `propagate_download`, from the answer to its GET. -/
def propagateDownloadFrom (env : Env) (dest : Path) (expectedEtag : Option Str)
    (resp : Except SyncError Response) (d : Disk) : Except SyncError Str × Disk :=
  match resp with
  | .error e => (.error e, d)
  | .ok a =>
      if a.status ≠ 200 then (.error (.http a.status ("GET failed: " ++ a.statusText)), d)
      else
        match createDirAll (env.fails .parentDirs dest) dest.tail d with
        | (.error e, d₁) => (.error e, d₁)
        | (.ok (), d₁) =>
            match env.fails .body dest with
            | some f => (.error f.error, d₁)
            | none =>
                if etagMatches expectedEtag a.etag then
                  match storeBody env dest a.body d₁ with
                  | (.error e, d₂) => (.error e, d₂)
                  | (.ok (), d₂) => (.ok a.etag, d₂)
                else
                  (.error (.parse ("ETag mismatch: expected " ++
                    String.ofList (expectedEtag.getD []) ++ ", got " ++ String.ofList a.etag)), d₁)

/-- The answer of the server of a run. -/
def responseOf (env : Env) (p : Path) (s : Space) : Except SyncError Response :=
  match env.fails .get p with
  | some f => .error f.error
  | none =>
      match httpGet s p with
      | (200, some r) => .ok ⟨200, statusText 200, env.getEtag p r, r.content⟩
      | (status, _) => .ok ⟨status, statusText status, [], ⟨[], by decide⟩⟩

/-- What stands at a path, modification times apart. -/
def contentOf : Option (Node LocalFile) → Option (Node Blob)
  | none => none
  | some Node.dir => some Node.dir
  | some (Node.file a) => some (Node.file a.content)

/-- A download either puts the body at its destination and changes nothing else that existed, or
changes nothing that existed and makes no more than directories above its destination. -/
structure Atomic (dest : Path) (resp : Except SyncError Response) (d : Disk)
    (r : Except SyncError Str × Disk) : Prop where
  ok : ∀ e, r.1 = .ok e →
    (∃ a, resp = .ok a ∧ contentOf (r.2.get dest) = some (Node.file a.body)) ∧
    ∀ q, q ≠ dest → d.get q ≠ none → r.2.get q = d.get q
  error : ∀ e, r.1 = .error e →
    (∀ q, d.get q ≠ none → contentOf (r.2.get q) = contentOf (d.get q)) ∧
    ∀ q, d.get q = none → r.2.get q = none ∨ (q <:+ dest.tail ∧ r.2.get q = some Node.dir)

/-- The download gets as far as writing its temp file. -/
structure Stores (env : Env) (dest : Path) (expectedEtag : Option Str) (a : Response) (d : Disk) :
    Prop where
  status : a.status = 200
  parents : env.fails .parentDirs dest = none ∧ d.mkdirAll? dest.tail ≠ none
  received : env.fails .body dest = none
  expected : etagMatches expectedEtag a.etag = true
  created : env.fails .createTmp dest = none
  named : dest ≠ []
  free : d.get (tmpPath dest) ≠ some Node.dir

/-- What was at the temp name is not missed, and what is left there was there before. -/
def SparesTmp (env : Env) (dest : Path) (body : Blob) (d : Disk) : Prop :=
  match env.fails .writeTmp dest with
  | some f => contentOf (d.get (tmpPath dest)) = some (Node.file (body.take f.progress))
  | none =>
      if env.fails .renameTmp dest ≠ none ∨ d.get dest = some Node.dir then
        if env.fails .removeTmp dest = none then d.get (tmpPath dest) = none
        else contentOf (d.get (tmpPath dest)) = some (Node.file body)
      else tmpPath dest = dest ∨ d.get (tmpPath dest) = none

variable {ε : Env} {p q : Path} {x : Option Str} {a : Response} {resp : Except SyncError Response}
  {d : Disk} {s : Space}

lemma propagateDownload_eq (ε : Env) (p : Path) (s : Space) (d : Disk) :
    propagateDownload ε p s d = propagateDownloadFrom ε p none (responseOf ε p s) d := by
  unfold propagateDownload responseOf
  cases ε.fails .get p with
  | some f => rfl
  | none =>
      cases hs : s.get p with
      | none => simp [httpGet, hs, propagateDownloadFrom]
      | some x =>
          cases x with
          | dir => simp [httpGet, hs, propagateDownloadFrom]
          | file r =>
              have hget : httpGet s p = (200, some r) := by simp [httpGet, hs]
              rw [hget]
              rfl

/-! ## Up to the temp file -/

/-- Making the directories above the destination changes neither the destination nor the temp
name. -/
lemma mkdirAll_beside {d₁ : Disk} (hm : d.mkdirAll? p.tail = some d₁) (hq : ¬ q <:+ p.tail) :
    d₁.get q = d.get q := by
  rw [Tree.mkdirAll?_get hm, if_neg hq]

lemma tmpPath_not_above (hp : p ≠ []) : ¬ tmpPath p <:+ p.tail := by
  cases p with
  | nil => exact absurd rfl hp
  | cons n r => exact cons_not_suffix (tmpName n) r

lemma not_above_self (hp : p ≠ []) : ¬ p <:+ p.tail := by
  cases p with
  | nil => exact absurd rfl hp
  | cons n r => exact cons_not_suffix n r

/-- Next to the destination a temp file can be made unless a directory has its name. -/
lemma tmp_writable {d₁ : Disk} (htail : d₁.get p.tail = some Node.dir) (hp : p ≠ [])
    (ht : d₁.get (tmpPath p) ≠ some Node.dir) (f : LocalFile) :
    ∃ d', d₁.write? (tmpPath p) f = some d' := by
  cases p with
  | nil => exact absurd rfl hp
  | cons n r => exact Tree.write?_isSome htail ht

/-- The directories are made, unless a step fails or something is in the way. -/
lemma createDirAll_cases (φ : Option Failure) (p : Path) (d : Disk) :
    (∃ e d', createDirAll φ p d = (.error e, d') ∧ ¬ (φ = none ∧ d.mkdirAll? p ≠ none)) ∨
      ∃ d', createDirAll φ p d = (.ok (), d') ∧ φ = none ∧ d.mkdirAll? p = some d' := by
  cases φ with
  | some f => exact Or.inl ⟨_, _, rfl, fun h => nomatch h.1⟩
  | none =>
      unfold createDirAll
      cases hm : d.mkdirAll? p with
      | none => exact Or.inl ⟨_, _, rfl, fun h => h.2 rfl⟩
      | some d' => exact Or.inr ⟨d', rfl, rfl, rfl⟩

/-- **The download fails before it stores anything, or it stores the body.** -/
lemma from_cases (ε : Env) (p : Path) (x : Option Str) (resp : Except SyncError Response)
    (d : Disk) :
    ((∃ e, (propagateDownloadFrom ε p x resp d).1 = .error e) ∧
      (propagateDownloadFrom ε p x resp d).2 ∈
        [d, (createDirAll (ε.fails .parentDirs p) p.tail d).2] ∧
      ∀ a, resp = .ok a → ¬ Stores ε p x a d) ∨
    ∃ a d₁, resp = .ok a ∧ a.status = 200 ∧ ε.fails .parentDirs p = none ∧
      d.mkdirAll? p.tail = some d₁ ∧ ε.fails .body p = none ∧ etagMatches x a.etag = true ∧
      propagateDownloadFrom ε p x resp d =
        ((storeBody ε p a.body d₁).1.map (fun _ => a.etag), (storeBody ε p a.body d₁).2) := by
  unfold propagateDownloadFrom
  cases resp with
  | error e => exact Or.inl ⟨⟨e, rfl⟩, by simp, nofun⟩
  | ok a =>
      have hearly : ¬ Stores ε p x a d → ∀ a', Except.ok a = Except.ok (ε := SyncError) a' →
          ¬ Stores ε p x a' d := by
        intro h a' ha'
        rw [← Except.ok.inj ha']
        exact h
      dsimp only
      by_cases hstatus : a.status = 200
      swap
      · rw [if_pos hstatus]
        exact Or.inl ⟨⟨_, rfl⟩, by simp, hearly (fun h => hstatus h.status)⟩
      rw [if_neg (fun h => h hstatus)]
      rcases createDirAll_cases (ε.fails .parentDirs p) p.tail d with
        ⟨e, d₁, hdirs, hparents⟩ | ⟨d₁, hdirs, hf, hm⟩
      · rw [hdirs]
        exact Or.inl ⟨⟨e, rfl⟩, by simp, hearly (fun h => hparents h.parents)⟩
      rw [hdirs]
      dsimp only
      cases hbody : ε.fails .body p with
      | some f =>
          refine Or.inl ⟨⟨_, rfl⟩, by simp, hearly (fun h => ?_)⟩
          have hnone := h.received
          rw [hbody] at hnone
          cases hnone
      | none =>
          dsimp only
          by_cases hetag : etagMatches x a.etag = true
          · refine Or.inr ⟨a, d₁, rfl, hstatus, hf, hm, rfl, hetag, ?_⟩
            rw [if_pos hetag]
            split
            · rename_i hst; rw [hst]; rfl
            · rename_i hst; rw [hst]; rfl
          · rw [if_neg hetag]
            exact Or.inl ⟨⟨_, rfl⟩, by simp, hearly (fun h => hetag h.expected)⟩

/-- What fails before it stores anything is atomic. -/
lemma atomic_of_early {r : Except SyncError Str × Disk} {e : SyncError} (he : r.1 = .error e)
    (hd : r.2 ∈ [d, (createDirAll (ε.fails .parentDirs p) p.tail d).2]) : Atomic p resp d r := by
  refine ⟨fun e' h => ?_, fun _ _ => ⟨fun q hq => ?_, fun q hq => ?_⟩⟩
  · rw [he] at h
    cases h
  · rcases List.mem_cons.mp hd with h | h
    · rw [h]
    · rw [List.mem_singleton.mp h, createDirAll_keep hq]
  · rcases List.mem_cons.mp hd with h | h
    · exact Or.inl (by rw [h]; exact hq)
    · rw [List.mem_singleton.mp h]
      exact createDirAll_none hq

/-! ## At the temp file -/

/-- A failure that leaves `o` at the temp name is atomic exactly if that is what was there. -/
lemma atomic_error_iff {r : Except SyncError Str × Disk} {d₁ : Disk} {e : SyncError}
    {o : Option (Node LocalFile)} (he : r.1 = .error e)
    (hm : d.mkdirAll? p.tail = some d₁) (ho : o ≠ some Node.dir)
    (hg : ∀ q, r.2.get q = if q = tmpPath p then o else d₁.get q) :
    Atomic p resp d r ↔ contentOf o = contentOf (d.get (tmpPath p)) := by
  constructor
  · intro h
    obtain ⟨hold, hnew⟩ := h.error e he
    by_cases ht : d.get (tmpPath p) = none
    · rcases hnew _ ht with h | ⟨-, h⟩
      · rw [hg, if_pos rfl] at h
        rw [h, ht]
      · rw [hg, if_pos rfl] at h
        exact absurd h ho
    · have h := hold _ ht
      rw [hg, if_pos rfl] at h
      exact h
  · intro h
    refine ⟨fun e' h' => ?_, fun _ _ => ⟨fun q hq => ?_, fun q hq => ?_⟩⟩
    · rw [he] at h'
      cases h'
    · rw [hg]
      split
      · rename_i hqt
        rw [hqt, h]
      · rw [Tree.mkdirAll?_keep hm hq]
    · rw [hg]
      split
      · rename_i hqt
        rw [hqt] at hq
        rw [hq] at h
        left
        cases o with
        | none => rfl
        | some x => cases x <;> cases h
      · rw [Tree.mkdirAll?_get hm]
        by_cases hq' : q <:+ p.tail
        · exact Or.inr ⟨hq', if_pos hq'⟩
        · exact Or.inl (by rw [if_neg hq', hq])

/-- A success is atomic exactly if there was nothing at the temp name to lose. -/
lemma atomic_ok_iff {r : Except SyncError Str × Disk} {d₁ : Disk} {e : Str} {m : ℕ}
    (he : r.1 = .ok e) (hm : d.mkdirAll? p.tail = some d₁)
    (hg : ∀ q, r.2.get q = if q = p then some (Node.file ⟨a.body, m⟩)
      else if q = tmpPath p then none else d₁.get q) :
    Atomic p (.ok a) d r ↔ tmpPath p = p ∨ d.get (tmpPath p) = none := by
  constructor
  · intro h
    by_contra hno
    push Not at hno
    obtain ⟨-, hold⟩ := h.ok e he
    have htmp := hold _ hno.1 hno.2
    rw [hg, if_neg hno.1, if_pos rfl] at htmp
    exact hno.2 htmp.symm
  · intro h
    refine ⟨fun _ _ => ⟨⟨a, rfl, by rw [hg, if_pos rfl]; rfl⟩, fun q hq hex => ?_⟩, fun e' h' => ?_⟩
    swap
    · rw [he] at h'
      cases h'
    have hqt : q ≠ tmpPath p := by
      rintro rfl
      rcases h with h | h
      · exact hq h
      · exact hex h
    rw [hg, if_neg hq, if_neg hqt, Tree.mkdirAll?_keep hm hex]

lemma contentOf_eq_none {o : Option (Node LocalFile)} : contentOf o = none ↔ o = none := by
  cases o with
  | none => simp [contentOf]
  | some x => cases x <;> simp [contentOf]

/-- A download that gets as far as its temp file can make it. -/
lemma Stores.not_refused {d₁ : Disk} (hs : Stores ε p x a d) (hm : d.mkdirAll? p.tail = some d₁)
    (b : LocalFile) : ¬ (ε.fails .createTmp p ≠ none ∨ d₁.write? (tmpPath p) b = none) := by
  have htail : d₁.get p.tail = some Node.dir := by
    rw [Tree.mkdirAll?_get hm, if_pos (List.suffix_refl _)]
  have hfree : d₁.get (tmpPath p) ≠ some Node.dir := by
    rw [mkdirAll_beside hm (tmpPath_not_above hs.named)]
    exact hs.free
  rintro (h | h)
  · exact h hs.created
  · obtain ⟨d', hd'⟩ := tmp_writable htail hs.named hfree b
    rw [hd'] at h
    cases h

/-- What becomes of a download that gets as far as its temp file. -/
lemma atomic_stored_iff {d₁ : Disk} {res : Except SyncError Unit × Disk}
    (hs : Stores ε p x a d) (hm : d.mkdirAll? p.tail = some d₁)
    (h : Stored ε p a.body d₁ res) :
    Atomic p (.ok a) d (res.1.map (fun _ => a.etag), res.2) ↔ SparesTmp ε p a.body d := by
  have hdest : d₁.get p = d.get p := mkdirAll_beside hm (not_above_self hs.named)
  cases h with
  | refused e h => exact absurd h (hs.not_refused hm _)
  | writeFailed f hcreate ht hf hg =>
      rw [atomic_error_iff rfl hm (by simp) hg, SparesTmp, hf]
      exact eq_comm
  | renameFailed e hcreate ht hwrite hr hg =>
      rw [hdest] at hr
      rw [atomic_error_iff rfl hm (by split <;> simp) hg, SparesTmp, hwrite]
      dsimp only
      rw [if_pos hr]
      by_cases hrm : ε.fails .removeTmp p = none
      · rw [if_pos hrm, if_pos hrm, eq_comm]
        exact contentOf_eq_none
      · rw [if_neg hrm, if_neg hrm]
        exact eq_comm
  | done hcreate ht hwrite hr hd hg =>
      rw [hdest] at hd
      have hno : ¬ (ε.fails .renameTmp p ≠ none ∨ d.get p = some Node.dir) :=
        not_or.mpr ⟨fun h => h hr, hd⟩
      rw [atomic_ok_iff rfl hm hg, SparesTmp, hwrite]
      dsimp only
      rw [if_neg hno]

/-- Where only the temp file was in the way of a download, it has not been made. -/
lemma refused_of_not_stores {d₁ : Disk} {res : Except SyncError Unit × Disk}
    (hm : d.mkdirAll? p.tail = some d₁)
    (hs : ¬ (ε.fails .createTmp p = none ∧ p ≠ [] ∧ d.get (tmpPath p) ≠ some Node.dir))
    (h : Stored ε p a.body d₁ res) : ∃ e, res = (.error e, d₁) := by
  have hnot : ¬ (ε.fails .createTmp p = none ∧ d₁.get (tmpPath p) ≠ some Node.dir) := by
    rintro ⟨hcreate, ht⟩
    have hp : p ≠ [] := by
      rintro rfl
      exact ht d₁.root
    rw [mkdirAll_beside hm (tmpPath_not_above hp)] at ht
    exact hs ⟨hcreate, hp, ht⟩
  cases h with
  | refused e h => exact ⟨e, rfl⟩
  | writeFailed f hcreate ht hf hg => exact absurd ⟨hcreate, ht⟩ hnot
  | renameFailed e hcreate ht hwrite hr hg => exact absurd ⟨hcreate, ht⟩ hnot
  | done hcreate ht hwrite hr hd hg => exact absurd ⟨hcreate, ht⟩ hnot

/-- **A download is atomic exactly if it does not get as far as its temp file, or does no harm
there**: for every destination, answer and failure. -/
theorem atomic_iff (ε : Env) (p : Path) (x : Option Str) (resp : Except SyncError Response)
    (d : Disk) : Atomic p resp d (propagateDownloadFrom ε p x resp d) ↔
      ∀ a, resp = .ok a → Stores ε p x a d → SparesTmp ε p a.body d := by
  rcases from_cases ε p x resp d with ⟨⟨e, he⟩, hd, hnot⟩ |
    ⟨a, d₁, rfl, hstatus, hparents, hm, hbody, hetag, heq⟩
  · exact iff_of_true (atomic_of_early he hd) (fun a ha h => absurd h (hnot a ha))
  have hreach : (∀ a', Except.ok a = Except.ok (ε := SyncError) a' → Stores ε p x a' d →
      SparesTmp ε p a'.body d) ↔ (Stores ε p x a d → SparesTmp ε p a.body d) := by
    constructor
    · exact fun h => h a rfl
    · rintro h a' ha'
      rw [← Except.ok.inj ha']
      exact h
  have hstored := storeBody_stored ε p a.body d₁
  rw [hreach, heq]
  by_cases hs : Stores ε p x a d
  · rw [atomic_stored_iff hs hm hstored]
    exact ⟨fun h _ => h, fun h => h hs⟩
  · obtain ⟨e, he⟩ := refused_of_not_stores hm (fun ⟨hcreate, hp, hfree⟩ =>
      hs ⟨hstatus, ⟨hparents, by rw [hm]; simp⟩, hbody, hetag, hcreate, hp, hfree⟩) hstored
    rw [he]
    refine iff_of_true (atomic_of_early (ε := ε) (e := e) rfl ?_) (fun h => absurd h hs)
    simp [createDirAll, hparents, hm]

/-- A folder in which the user keeps a file `notes.tmp`. -/
def notesFolder : Disk :=
  Tree.ofList [(["notes.tmp".toList], Node.file ⟨⟨[117, 115, 101, 114], by decide⟩, 7⟩)]

/-- A response of two bytes. -/
def twoBytes : Response := ⟨200, "200 OK", "e".toList, ⟨[1, 2], by decide⟩⟩

/-- The disk is full after the first byte of the temp file. -/
def fullDisk : Env :=
  { Env.calm with fails := fun op _ =>
      if op = .writeTmp then some ⟨.io "No space left on device (os error 28)", false, fun _ => false, 1⟩
      else none }

/-- The download of `notes.txt` succeeds, and the user's `notes.tmp` is gone.  Into an empty folder on
a full disk it fails, and half a temp file stays. -/
theorem notes_tmp_lost :
    ¬ Atomic ["notes.txt".toList] (.ok twoBytes) notesFolder
      (propagateDownloadFrom Env.calm ["notes.txt".toList] none (.ok twoBytes) notesFolder) ∧
    ¬ Atomic ["notes.txt".toList] (.ok twoBytes) (Tree.ofList [])
      (propagateDownloadFrom fullDisk ["notes.txt".toList] none (.ok twoBytes)
        (Tree.ofList [])) := by
  constructor
  · intro h
    have hkept := (h.ok "e".toList (by decide)).2 ["notes.tmp".toList] (by decide)
      (by decide)
    revert hkept
    decide
  · intro h
    have hnew := (h.error (.io "No space left on device (os error 28)") (by decide)).2
      ["notes.tmp".toList] (by decide)
    revert hnew
    decide

end OwncloudSync
