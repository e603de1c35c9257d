import OwncloudSync.Engine.Propagate
import OwncloudSync.Engine.Names
import Mathlib.Tactic.Common

/-!
# What each propagation operation does to its tree

One lemma for each operation of `Propagate.lean`, in terms of the paths: which paths keep what
they hold whatever the outcome, and what holds after success.  The tasks of a run are built from
these operations and are reasoned about through these lemmas alone.
-/

namespace OwncloudSync

open PathTree

variable {ε : Env} {p q : Path} {d : Disk} {s : Space} {φ : Option Failure}

/-! ## Deletes -/

lemma deleteLocal_keep (h : q ≠ p) : (deleteLocal ε p d).2.get q = d.get q := by
  unfold deleteLocal
  split
  · rfl
  · split
    · rename_i a ha
      exact Tree.erase_file_keep ha h
    · rfl
    · split <;> rfl

lemma deleteLocal_ok (hp : p ≠ []) (h : (deleteLocal ε p d).1 = .ok ()) :
    (deleteLocal ε p d).2.get p = none := by
  unfold deleteLocal at h ⊢
  split at h
  · cases h
  · split at h
    · exact Tree.erase_self hp
    · cases h
    · rename_i hn
      split at h
      · cases h
      · rename_i hf; simpa [hf] using hn

lemma deleteLocal_none (h : d.get q = none) : (deleteLocal ε p d).2.get q = none := by
  unfold deleteLocal
  split
  · exact h
  · split
    · exact Tree.prune_none h
    · exact h
    · split <;> exact h

lemma deleteLocal_cases :
    (deleteLocal ε p d).2.get q = d.get q ∨ (deleteLocal ε p d).2.get q = none := by
  unfold deleteLocal
  split
  · exact Or.inl rfl
  · split
    · rw [Tree.erase_get]
      split
      · exact Or.inr rfl
      · exact Or.inl rfl
    · exact Or.inl rfl
    · split <;> exact Or.inl rfl

lemma deleteLocalDir_keep (h : ¬ p <:+ q) : (deleteLocalDir ε p d).2.get q = d.get q := by
  unfold deleteLocalDir
  split
  · refine Tree.prune_of_not_below (fun a ha => ?_) h
    rw [Bool.and_eq_true, decide_eq_true_eq] at ha
    exact ha.1
  · split
    · exact Tree.erase_of_not_below h
    · rfl
    · split <;> rfl

lemma deleteLocalDir_none (h : d.get q = none) : (deleteLocalDir ε p d).2.get q = none := by
  unfold deleteLocalDir
  split
  · exact Tree.prune_none h
  · split
    · exact Tree.prune_none h
    · exact h
    · split <;> exact h

/-- Whatever the outcome, a path either keeps what it holds or holds nothing. -/
lemma deleteLocalDir_cases :
    (deleteLocalDir ε p d).2.get q = d.get q ∨ (deleteLocalDir ε p d).2.get q = none := by
  unfold deleteLocalDir
  split
  · rw [Tree.prune_get]
    split
    · exact Or.inr rfl
    · exact Or.inl rfl
  · split
    · rw [Tree.erase_get]
      split
      · exact Or.inr rfl
      · exact Or.inl rfl
    · exact Or.inl rfl
    · split <;> exact Or.inl rfl

lemma deleteLocalDir_ok (hp : p ≠ []) (h : (deleteLocalDir ε p d).1 = .ok ()) (hq : p <:+ q) :
    (deleteLocalDir ε p d).2.get q = none := by
  unfold deleteLocalDir at h ⊢
  split at h
  · cases h
  · split at h
    · rw [Tree.erase_get, if_pos ⟨hp, hq⟩]
    · cases h
    · rename_i hn
      split at h
      · cases h
      · rename_i hf
        simpa [hf] using d.none_of_below hq hn

lemma deleteRemote_keep (h : ¬ p <:+ q) : (deleteRemote ε p s).2.get q = s.get q := by
  unfold deleteRemote
  split
  · refine Tree.prune_of_not_below (fun a ha => ?_) h
    rw [Bool.and_eq_true, decide_eq_true_eq] at ha
    exact ha.1
  · have hd : (httpDelete s p).2.get q = s.get q := by
      unfold httpDelete
      split
      · exact Tree.erase_of_not_below h
      · rfl
    exact hd

lemma deleteRemote_none (h : s.get q = none) : (deleteRemote ε p s).2.get q = none := by
  unfold deleteRemote
  split
  · exact Tree.prune_none h
  · have hd : (httpDelete s p).2.get q = none := by
      unfold httpDelete
      split
      · exact Tree.prune_none h
      · exact h
    exact hd

lemma deleteRemote_cases :
    (deleteRemote ε p s).2.get q = s.get q ∨ (deleteRemote ε p s).2.get q = none := by
  unfold deleteRemote
  split
  · rw [Tree.prune_get]
    split
    · exact Or.inr rfl
    · exact Or.inl rfl
  · have hd : (httpDelete s p).2.get q = s.get q ∨ (httpDelete s p).2.get q = none := by
      unfold httpDelete
      split
      · rw [Tree.erase_get]
        split
        · exact Or.inr rfl
        · exact Or.inl rfl
      · exact Or.inl rfl
    exact hd

lemma deleteRemote_ok (hp : p ≠ []) (h : (deleteRemote ε p s).1 = .ok ()) (hq : p <:+ q) :
    (deleteRemote ε p s).2.get q = none := by
  unfold deleteRemote at h ⊢
  split at h
  · cases h
  · unfold httpDelete
    split
    · rw [Tree.erase_get, if_pos ⟨hp, hq⟩]
    · rename_i hn
      exact s.none_of_below hq hn

/-- Without failures a delete of the server side succeeds. -/
lemma deleteRemote_succeeds (h : ε.fails .delete p = none) :
    (deleteRemote ε p s).1 = .ok () := by
  unfold deleteRemote httpDelete
  rw [h]
  cases s.get p <;> simp

/-! ## Making directories -/

lemma httpMkcol_keep (h : s.get q ≠ none) : (httpMkcol s p).2.get q = s.get q := by
  unfold httpMkcol
  split
  · rfl
  · rename_i hn
    split
    · rename_i s' hs
      obtain ⟨-, -, hg⟩ := Tree.mkdir?_eq_some hs
      rw [hg, if_neg]
      rintro rfl
      exact h hn
    · rfl

lemma httpMkcol_none (h : s.get q = none) :
    (httpMkcol s p).2.get q = none ∨ (q = p ∧ (httpMkcol s p).2.get q = some Node.dir) := by
  unfold httpMkcol
  split
  · exact Or.inl h
  · split
    · rename_i s' hs
      obtain ⟨-, -, hg⟩ := Tree.mkdir?_eq_some hs
      by_cases hqp : q = p
      · exact Or.inr ⟨hqp, by rw [hg, if_pos hqp]⟩
      · exact Or.inl (by rw [hg, if_neg hqp, h])
    · exact Or.inl h

lemma mkdirRemote_keep (h : s.get q ≠ none) : (mkdirRemote φ p s).2.get q = s.get q := by
  unfold mkdirRemote
  split
  · split
    · exact httpMkcol_keep h
    · rfl
  · exact httpMkcol_keep h

lemma mkdirRemote_none (h : s.get q = none) :
    (mkdirRemote φ p s).2.get q = none ∨
      (q = p ∧ (mkdirRemote φ p s).2.get q = some Node.dir) := by
  unfold mkdirRemote
  split
  · split
    · exact httpMkcol_none h
    · exact Or.inl h
  · exact httpMkcol_none h

/-- After a successful MKCOL the path exists, and with it its parent. -/
lemma mkdirRemote_ok (h : (mkdirRemote φ p s).1 = .ok ()) :
    (mkdirRemote φ p s).2.get p ≠ none := by
  unfold mkdirRemote at h ⊢
  split at h
  · cases h
  · unfold httpMkcol at h ⊢
    split at h
    · rename_i x hx
      simp [hx]
    · split at h
      · rename_i s' hs
        obtain ⟨-, -, hg⟩ := Tree.mkdir?_eq_some hs
        simp [hg]
      · simp at h

lemma createDirAll_keep (h : d.get q ≠ none) : (createDirAll φ p d).2.get q = d.get q := by
  unfold createDirAll
  split
  · rename_i f
    cases hm : d.mkdirAll? (p.drop f.progress) with
    | none => rfl
    | some d' => exact Tree.mkdirAll?_keep hm h
  · split
    · rename_i d' hm
      exact Tree.mkdirAll?_keep hm h
    · rfl

lemma createDirAll_none (h : d.get q = none) :
    (createDirAll φ p d).2.get q = none ∨
      (q <:+ p ∧ (createDirAll φ p d).2.get q = some Node.dir) := by
  unfold createDirAll
  split
  · rename_i f
    cases hm : d.mkdirAll? (p.drop f.progress) with
    | none => exact Or.inl h
    | some d' =>
        rw [Option.getD_some, Tree.mkdirAll?_get hm q]
        by_cases hq : q <:+ p.drop f.progress
        · exact Or.inr ⟨hq.trans (List.drop_suffix _ _), if_pos hq⟩
        · exact Or.inl (by rw [if_neg hq, h])
  · split
    · rename_i d' hm
      rw [Tree.mkdirAll?_get hm q]
      by_cases hq : q <:+ p
      · exact Or.inr ⟨hq, if_pos hq⟩
      · exact Or.inl (by rw [if_neg hq, h])
    · exact Or.inl h

lemma createDirAll_ok (h : (createDirAll φ p d).1 = .ok ()) (hq : q <:+ p) :
    (createDirAll φ p d).2.get q = some Node.dir := by
  unfold createDirAll at h ⊢
  split at h
  · cases h
  · split at h
    · rename_i d' hm
      exact (Tree.mkdirAll?_get hm q).trans (if_pos hq)
    · cases h

lemma createDirAll_succeeds (h : ∀ r, r <:+ p → d.get r = none ∨ d.get r = some Node.dir) :
    (createDirAll none p d).1 = .ok () := by
  obtain ⟨d', hd⟩ := Tree.mkdirAll?_isSome h
  simp [createDirAll, hd]

/-! ## Download -/

/-- **What storing a body can do**, each with what it takes: nothing; fail in the write or in the
rename with a temp file that may be left over; or move the body to its destination. -/
inductive Stored (ε : Env) (p : Path) (b : Blob) (d : Disk) : Except SyncError Unit × Disk → Prop
  | refused (e : SyncError) (h : ε.fails .createTmp p ≠ none ∨
      d.write? (tmpPath p) ⟨b.take 0, ε.mtime p⟩ = none) : Stored ε p b d (.error e, d)
  | writeFailed {d' : Disk} (f : Failure) (hcreate : ε.fails .createTmp p = none)
      (ht : d.get (tmpPath p) ≠ some Node.dir) (hf : ε.fails .writeTmp p = some f)
      (hg : ∀ r, d'.get r = if r = tmpPath p then
        some (Node.file ⟨b.take f.progress, ε.mtime p⟩) else d.get r) :
      Stored ε p b d (.error f.error, d')
  | renameFailed {d' : Disk} (e : SyncError) (hcreate : ε.fails .createTmp p = none)
      (ht : d.get (tmpPath p) ≠ some Node.dir) (hwrite : ε.fails .writeTmp p = none)
      (hr : ε.fails .renameTmp p ≠ none ∨ d.get p = some Node.dir)
      (hg : ∀ r, d'.get r = if r = tmpPath p then
        (if ε.fails .removeTmp p = none then none else some (Node.file ⟨b, ε.mtime p⟩))
        else d.get r) : Stored ε p b d (.error e, d')
  | done {d' : Disk} (hcreate : ε.fails .createTmp p = none)
      (ht : d.get (tmpPath p) ≠ some Node.dir) (hwrite : ε.fails .writeTmp p = none)
      (hr : ε.fails .renameTmp p = none) (hd : d.get p ≠ some Node.dir)
      (hg : ∀ r, d'.get r = if r = p then some (Node.file ⟨b, ε.mtime p⟩)
        else if r = tmpPath p then none else d.get r) : Stored ε p b d (.ok (), d')

/-- The clean-up after a failed rename takes the temp file away, unless it fails itself. -/
lemma get_of_cleaned {d₁ : Disk} {a : LocalFile}
    (hg : ∀ r, d₁.get r = if r = tmpPath p then some (Node.file a) else d.get r)
    (hne : tmpPath p ≠ []) (r : Path) :
    (match ε.fails .removeTmp p with
      | some _ => d₁
      | none => d₁.erase (tmpPath p)).get r =
      if r = tmpPath p then (if ε.fails .removeTmp p = none then none else some (Node.file a))
      else d.get r := by
  cases hrm : ε.fails .removeTmp p with
  | some f => simpa using hg r
  | none =>
      by_cases hr : r = tmpPath p
      · rw [if_pos hr, hr, if_pos rfl]
        exact Tree.erase_self hne
      · have htmp : d₁.get (tmpPath p) = some (Node.file a) := by rw [hg, if_pos rfl]
        rw [if_neg hr]
        exact (Tree.erase_file_keep htmp hr).trans (by rw [hg, if_neg hr])

/-- A written temp file can be moved wherever no directory is in the way. -/
lemma rename_tmp {d₁ d₂ : Disk} {a a' : LocalFile} (hw : d.write? (tmpPath p) a = some d₁)
    (hg : ∀ r, d₂.get r = if r = tmpPath p then some (Node.file a') else d.get r)
    (hd : d.get p ≠ some Node.dir) : ∃ d₃, d₂.rename? (tmpPath p) p = some d₃ := by
  cases p with
  | nil => exact absurd d.root hd
  | cons n r =>
      have hself : d₂.get (tmpPath (n :: r)) = some (Node.file a') := by rw [hg, if_pos rfl]
      have hpar : d₂.get r = some Node.dir := by
        rw [hg, tmpPath, if_neg (List.cons_ne_self (tmpName n) r).symm]
        exact Tree.write?_parent hw
      refine Tree.rename?_isSome hself hpar ?_
      rw [hg]
      split
      · simp
      · exact hd

lemma storeBody_stored (ε : Env) (p : Path) (b : Blob) (d : Disk) :
    Stored ε p b d (storeBody ε p b d) := by
  unfold storeBody
  split
  · rename_i f hf
    exact .refused _ (Or.inl (by rw [hf]; simp))
  rename_i hcreate
  split
  · rename_i hw
    exact .refused _ (Or.inr hw)
  rename_i d₁ h₁
  obtain ⟨hne, hdir, -⟩ := Tree.write?_eq_some h₁
  split
  · rename_i f hf
    obtain ⟨d₂, h₂, hg⟩ := Tree.write?_again h₁ ⟨b.take f.progress, ε.mtime p⟩
    rw [h₂]
    exact .writeFailed f hcreate hdir hf hg
  rename_i hwrite
  obtain ⟨d₂, h₂, hg⟩ := Tree.write?_again h₁ ⟨b, ε.mtime p⟩
  simp only [h₂, Option.getD_some]
  split
  · rename_i f hf
    exact .renameFailed _ hcreate hdir hwrite (Or.inl (by rw [hf]; simp)) (get_of_cleaned hg hne)
  rename_i hren
  split
  · rename_i d₃ h₃
    obtain ⟨a, ha, hcase⟩ := Tree.rename?_eq_some h₃
    rw [hg, if_pos rfl] at ha
    cases ha
    rcases hcase with ⟨htp, rfl⟩ | ⟨htp, hqd, hr⟩
    · -- the destination is its own temp file
      refine .done hcreate hdir hwrite hren (by rw [← htp]; exact hdir) (fun r => ?_)
      rw [hg, htp]
      split
      · rfl
      · rfl
    · rw [hg, if_neg (Ne.symm htp)] at hqd
      refine .done hcreate hdir hwrite hren hqd (fun r => ?_)
      rw [hr, hg]
      by_cases hrp : r = p
      · rw [if_pos hrp, if_neg (by rw [hrp]; exact Ne.symm htp), if_pos hrp]
      · rw [if_neg hrp, if_neg hrp]
        split
        · rfl
        · rfl
  · rename_i hnone
    refine .renameFailed _ hcreate hdir hwrite (Or.inr ?_) (get_of_cleaned hg hne)
    by_contra hd
    obtain ⟨d₃, h₃⟩ := rename_tmp h₁ hg hd
    rw [hnone] at h₃
    cases h₃

/-- What storing a body can do, without what it takes. -/
lemma storeBody_cases {b : Blob} :
    ((storeBody ε p b d).1 ≠ .ok () ∧ (storeBody ε p b d).2 = d) ∨
    (d.get (tmpPath p) ≠ some Node.dir ∧
      (((storeBody ε p b d).1 ≠ .ok () ∧ ∃ o : Option LocalFile, ∀ r,
          (storeBody ε p b d).2.get r = if r = tmpPath p then o.map Node.file else d.get r) ∨
        ((storeBody ε p b d).1 = .ok () ∧ d.get p ≠ some Node.dir ∧ ∀ r,
          (storeBody ε p b d).2.get r = if r = p then some (Node.file ⟨b, ε.mtime p⟩)
            else if r = tmpPath p then none else d.get r))) := by
  generalize hres : storeBody ε p b d = res
  cases hres ▸ storeBody_stored ε p b d with
  | refused => exact Or.inl ⟨nofun, rfl⟩
  | writeFailed f _ ht _ hg => exact Or.inr ⟨ht, Or.inl ⟨nofun, some _, hg⟩⟩
  | renameFailed e _ ht _ _ hg =>
      refine Or.inr ⟨ht, Or.inl ⟨nofun, ?_⟩⟩
      by_cases hrm : ε.fails .removeTmp p = none
      · exact ⟨none, fun r => by rw [hg, if_pos hrm]; rfl⟩
      · exact ⟨some _, fun r => by rw [hg, if_neg hrm]; rfl⟩
  | done _ ht _ _ hd hg => exact Or.inr ⟨ht, Or.inr ⟨rfl, hd, hg⟩⟩

/-- Storing a body touches the destination and the temp file and nothing else.  On success the
destination holds the body and the temp file is gone; on failure the destination is as before,
unless it is its own temp file. -/
lemma storeBody_spec {b : Blob} :
    (∀ q, q ≠ p → q ≠ tmpPath p → (storeBody ε p b d).2.get q = d.get q) ∧
    ((storeBody ε p b d).1 = .ok () →
      (storeBody ε p b d).2.get p = some (Node.file ⟨b, ε.mtime p⟩) ∧
        (tmpPath p ≠ p → (storeBody ε p b d).2.get (tmpPath p) = none)) ∧
    ((storeBody ε p b d).1 ≠ .ok () → tmpPath p ≠ p →
      (storeBody ε p b d).2.get p = d.get p) := by
  rcases storeBody_cases (ε := ε) (p := p) (b := b) (d := d) with
    ⟨herr, hd⟩ | ⟨-, ⟨herr, o, hg⟩ | ⟨hok, -, hg⟩⟩
  · rw [hd]
    exact ⟨fun _ _ _ => rfl, fun h => absurd h herr, fun _ _ => rfl⟩
  · refine ⟨fun q _ hq => ?_, fun h => absurd h herr, fun _ hne => ?_⟩
    · rw [hg, if_neg hq]
    · rw [hg, if_neg (Ne.symm hne)]
  · refine ⟨fun q hqp hqt => ?_, fun _ => ⟨?_, fun hne => ?_⟩, fun h => absurd hok h⟩
    · rw [hg, if_neg hqp, if_neg hqt]
    · rw [hg, if_pos rfl]
    · rw [hg, if_neg hne, if_pos rfl]

/-- Without failures a body can be stored wherever no directory is in the way. -/
lemma storeBody_succeeds {n : Name} {r : Path} {b : Blob}
    (h₁ : ε.fails .createTmp (n :: r) = none) (h₂ : ε.fails .writeTmp (n :: r) = none)
    (h₃ : ε.fails .renameTmp (n :: r) = none) (hr : d.get r = some Node.dir)
    (ht : d.get (tmpPath (n :: r)) ≠ some Node.dir) (hd : d.get (n :: r) ≠ some Node.dir) :
    (storeBody ε (n :: r) b d).1 = .ok () := by
  obtain ⟨d₁, hw⟩ := Tree.write?_isSome (a := ⟨b.take 0, ε.mtime (n :: r)⟩) hr ht
  generalize hres : storeBody ε (n :: r) b d = res
  cases hres ▸ storeBody_stored ε (n :: r) b d with
  | refused e h =>
      rcases h with h | h
      · exact absurd h₁ h
      · rw [tmpPath, hw] at h; cases h
  | writeFailed f _ _ hf => rw [h₂] at hf; cases hf
  | renameFailed e _ _ _ hren =>
      rcases hren with h | h
      · exact absurd h₃ h
      · exact absurd h hd
  | done => rfl

/-- Storing a body puts a directory nowhere. -/
lemma storeBody_noDir {b : Blob} (h : d.get q ≠ some Node.dir) :
    (storeBody ε p b d).2.get q ≠ some Node.dir := by
  rcases storeBody_cases (ε := ε) (p := p) (b := b) (d := d) with
    ⟨-, hd⟩ | ⟨-, ⟨-, o, hg⟩ | ⟨-, -, hg⟩⟩
  · rw [hd]
    exact h
  · rw [hg]
    split
    · cases o <;> simp
    · exact h
  · rw [hg]
    split
    · simp
    · split
      · simp
      · exact h

/-- No step of it takes a directory. -/
lemma storeBody_dir {b : Blob} (h : d.get q = some Node.dir) :
    (storeBody ε p b d).2.get q = some Node.dir := by
  rcases storeBody_cases (ε := ε) (p := p) (b := b) (d := d) with
    ⟨-, hd⟩ | ⟨hdir, ⟨-, o, hg⟩ | ⟨-, hown, hg⟩⟩
  · rw [hd]
    exact h
  · have hne : q ≠ tmpPath p := fun heq => hdir (heq ▸ h)
    rw [hg, if_neg hne]
    exact h
  · have hne : q ≠ tmpPath p := fun heq => hdir (heq ▸ h)
    have hne' : q ≠ p := fun heq => hown (heq ▸ h)
    rw [hg, if_neg hne', if_neg hne]
    exact h

/-- When only the final rename fails, the clean-up takes the temp file away. -/
lemma storeBody_renameFails {b : Blob} {f : Failure} (h₁ : ε.fails .createTmp p = none)
    (h₂ : ε.fails .writeTmp p = none) (h₃ : ε.fails .renameTmp p = some f)
    (h₄ : ε.fails .removeTmp p = none)
    (hw : ∃ d₁, d.write? (tmpPath p) ⟨b.take 0, ε.mtime p⟩ = some d₁) :
    (storeBody ε p b d).2.get (tmpPath p) = none := by
  obtain ⟨d₁, hw⟩ := hw
  generalize hres : storeBody ε p b d = res
  cases hres ▸ storeBody_stored ε p b d with
  | refused e h =>
      rcases h with h | h
      · exact absurd h₁ h
      · rw [hw] at h; cases h
  | writeFailed f _ _ hf => rw [h₂] at hf; cases hf
  | renameFailed e _ _ _ _ hg => rw [hg, if_pos rfl, if_pos h₄]
  | done _ _ _ hr => rw [h₃] at hr; cases hr

/-- A download touches the destination, the temp file, and makes missing directories above the
destination.  Success means the destination holds what the server served. -/
lemma propagateDownload_spec :
    (∀ q, q ≠ p → q ≠ tmpPath p → d.get q ≠ none →
      (propagateDownload ε p s d).2.get q = d.get q) ∧
    (∀ q, q ≠ p → q ≠ tmpPath p → d.get q = none →
      (propagateDownload ε p s d).2.get q = none ∨
        (q <:+ p.tail ∧ (propagateDownload ε p s d).2.get q = some Node.dir)) ∧
    (∀ e, (propagateDownload ε p s d).1 = .ok e →
      ∃ r, s.get p = some (Node.file r) ∧ e = ε.getEtag p r ∧
        (propagateDownload ε p s d).2.get p = some (Node.file ⟨r.content, ε.mtime p⟩) ∧
        (tmpPath p ≠ p → (propagateDownload ε p s d).2.get (tmpPath p) = none)) := by
  unfold propagateDownload
  split
  · exact ⟨fun _ _ _ _ => rfl, fun _ _ _ h => Or.inl h, nofun⟩
  split
  · rename_i r hget
    have hr : s.get p = some (Node.file r) := by
      unfold httpGet at hget
      split at hget
      · rename_i f hf; cases hget; exact hf
      · cases hget
      · cases hget
    have hk := fun q => createDirAll_keep (φ := ε.fails .parentDirs p) (p := p.tail)
      (d := d) (q := q)
    have hn := fun q => createDirAll_none (φ := ε.fails .parentDirs p) (p := p.tail)
      (d := d) (q := q)
    split
    · rename_i hc
      rw [hc] at hk hn
      exact ⟨fun q _ _ => hk q, fun q _ _ => hn q, nofun⟩
    · rename_i d₁ hc
      rw [hc] at hk hn
      obtain ⟨hs1, hs2, -⟩ := storeBody_spec (ε := ε) (p := p) (d := d₁) (b := r.content)
      split
      · exact ⟨fun q _ _ => hk q, fun q _ _ => hn q, nofun⟩
      split
      · rename_i hst
        rw [hst] at hs1
        exact ⟨fun q h1 h2 h => (hs1 q h1 h2).trans (hk q h),
          fun q h1 h2 h => (hs1 q h1 h2).symm ▸ hn q h, nofun⟩
      · rename_i hst
        rw [hst] at hs1 hs2
        refine ⟨fun q h1 h2 h => (hs1 q h1 h2).trans (hk q h),
          fun q h1 h2 h => (hs1 q h1 h2).symm ▸ hn q h, fun e h => ?_⟩
        cases h
        obtain ⟨hp, ht⟩ := hs2 rfl
        exact ⟨r, hr, rfl, hp, ht⟩
  · exact ⟨fun _ _ _ _ => rfl, fun _ _ _ h => Or.inl h, nofun⟩

/-- A failed download leaves its destination alone, unless it is its own temp file. -/
lemma propagateDownload_error {e : SyncError} (hne : tmpPath p ≠ p) (hp : d.get p ≠ none)
    (h : (propagateDownload ε p s d).1 = .error e) :
    (propagateDownload ε p s d).2.get p = d.get p := by
  unfold propagateDownload at h ⊢
  split at h
  · rfl
  split at h
  · have hk := createDirAll_keep (φ := ε.fails .parentDirs p) (p := p.tail) hp
    split at h
    · rename_i hc
      rw [hc] at hk
      exact hk
    · rename_i r _ _ d₁ hc
      rw [hc] at hk
      obtain ⟨-, -, hs3⟩ := storeBody_spec (ε := ε) (p := p) (d := d₁) (b := r.content)
      split at h
      · exact hk
      split at h
      · rename_i hst
        rw [hst] at hs3
        exact (hs3 nofun hne).trans hk
      · cases h
  · rfl

/-- A download makes directories only above its destination, where there was nothing. -/
lemma propagateDownload_noDir (h : d.get q ≠ some Node.dir)
    (habove : d.get q = none → ¬ q <:+ p.tail) :
    (propagateDownload ε p s d).2.get q ≠ some Node.dir := by
  have hk : (createDirAll (ε.fails .parentDirs p) p.tail d).2.get q ≠ some Node.dir := by
    cases hq : d.get q with
    | some x => rw [createDirAll_keep (by rw [hq]; simp)]; exact h
    | none =>
        rcases createDirAll_none (φ := ε.fails .parentDirs p) (p := p.tail) hq with hn | hn
        · rw [hn]; simp
        · exact absurd hn.1 (habove hq)
  unfold propagateDownload
  split
  · exact h
  split
  · split
    · rename_i hc
      rw [hc] at hk
      exact hk
    · rename_i r _ _ d₁ hc
      rw [hc] at hk
      have hst := storeBody_noDir (ε := ε) (p := p) (b := r.content) hk
      split
      · exact hk
      split
      · rename_i hres; rw [hres] at hst; exact hst
      · rename_i hres; rw [hres] at hst; exact hst
  · exact h

lemma propagateDownload_dir (h : d.get q = some Node.dir) :
    (propagateDownload ε p s d).2.get q = some Node.dir := by
  have hk : (createDirAll (ε.fails .parentDirs p) p.tail d).2.get q = some Node.dir := by
    rw [createDirAll_keep (by rw [h]; simp)]
    exact h
  unfold propagateDownload
  split
  · exact h
  split
  · split
    · rename_i hc
      rw [hc] at hk
      exact hk
    · rename_i r _ _ d₁ hc
      rw [hc] at hk
      have hst := storeBody_dir (ε := ε) (p := p) (b := r.content) hk
      split
      · exact hk
      split
      · rename_i hres; rw [hres] at hst; exact hst
      · rename_i hres; rw [hres] at hst; exact hst
  · exact h

/-- Where the server has no file, a download does nothing. -/
lemma propagateDownload_unserved (h : ∀ r, s.get p ≠ some (Node.file r)) :
    (propagateDownload ε p s d).2 = d ∧ ∃ e, (propagateDownload ε p s d).1 = .error e := by
  unfold propagateDownload
  split
  · exact ⟨rfl, _, rfl⟩
  split
  · rename_i r hget
    unfold httpGet at hget
    split at hget
    · rename_i f hf; exact absurd hf (h f)
    · cases hget
    · cases hget
  · exact ⟨rfl, _, rfl⟩

/-- The only thing a download can make vanish is what stood at its temp name. -/
lemma propagateDownload_removed (hq : d.get q ≠ none)
    (h : (propagateDownload ε p s d).2.get q = none) :
    (∃ r, s.get p = some (Node.file r)) ∧ q = tmpPath p := by
  have hserved : ∃ r, s.get p = some (Node.file r) := by
    by_contra hno
    rw [(propagateDownload_unserved (fun r hr => hno ⟨r, hr⟩)).1] at h
    exact hq h
  refine ⟨hserved, ?_⟩
  by_contra ht
  by_cases hp : q = p
  · subst hp
    cases hres : (propagateDownload ε q s d).1 with
    | error e => exact hq ((propagateDownload_error (Ne.symm ht) hq hres).symm.trans h)
    | ok e =>
        obtain ⟨r, -, -, hf, -⟩ := propagateDownload_spec.2.2 e hres
        rw [hf] at h
        cases h
  · exact hq ((propagateDownload_spec.1 q hp ht hq).symm.trans h)

/-- Without failures a download of an existing file succeeds wherever no directory or file is
in the way. -/
lemma propagateDownload_succeeds {n : Name} {r : Path} {f : RemoteFile}
    (hf : ∀ op, ε.fails op (n :: r) = none) (hs : s.get (n :: r) = some (Node.file f))
    (hdirs : ∀ a, a <:+ r → d.get a = none ∨ d.get a = some Node.dir)
    (ht : d.get (tmpPath (n :: r)) ≠ some Node.dir) (hd : d.get (n :: r) ≠ some Node.dir) :
    (propagateDownload ε (n :: r) s d).1 = .ok (ε.getEtag (n :: r) f) := by
  have hok := createDirAll_succeeds hdirs
  have hdir := createDirAll_ok hok (List.suffix_refl r)
  have hcons : ∀ m : Name, d.get (m :: r) ≠ some Node.dir →
      (createDirAll none r d).2.get (m :: r) ≠ some Node.dir := by
    intro m hm
    cases hx : d.get (m :: r) with
    | some x => rw [createDirAll_keep (by rw [hx]; simp), hx, ← hx]; exact hm
    | none =>
        rcases createDirAll_none (φ := none) (p := r) hx with h | ⟨h, -⟩
        · rw [h]; simp
        · exact absurd h (cons_not_suffix m r)
  have hst := storeBody_succeeds (b := f.content) (hf .createTmp) (hf .writeTmp)
    (hf .renameTmp) hdir (hcons _ ht) (hcons _ hd)
  cases hc : createDirAll none r d with
  | mk res d₁ =>
    rw [hc] at hok hst
    cases hb : storeBody ε (n :: r) f.content d₁ with
    | mk res₂ d₂ =>
      simp only [hb] at hst
      simp only at hok
      subst hok hst
      simp only [propagateDownload, hf, httpGet, hs, List.tail_cons, hc, hb]

/-- When only the final rename fails, a file that stood at the temp name is gone. -/
lemma propagateDownload_renameFails {n : Name} {r : Path} {f : RemoteFile} {a : LocalFile}
    {e : Failure} (hf : ∀ op, op ≠ .renameTmp → ε.fails op (n :: r) = none)
    (hren : ε.fails .renameTmp (n :: r) = some e) (hs : s.get (n :: r) = some (Node.file f))
    (ht : d.get (tmpPath (n :: r)) = some (Node.file a)) :
    (propagateDownload ε (n :: r) s d).2.get (tmpPath (n :: r)) = none := by
  have hr : d.get r = some Node.dir := d.closed (tmpName n) r (by rw [← tmpPath, ht]; simp)
  have hok := createDirAll_succeeds (fun b hb => d.dir_above_dir hr hb)
  have hdir := createDirAll_ok hok (List.suffix_refl r)
  have htmp : (createDirAll none r d).2.get (tmpPath (n :: r)) ≠ some Node.dir := by
    rw [createDirAll_keep (by rw [ht]; simp), ht]
    simp
  have hw := Tree.write?_isSome (a := ⟨f.content.take 0, ε.mtime (n :: r)⟩) hdir htmp
  have hst := storeBody_renameFails (b := f.content) (hf .createTmp (by simp))
    (hf .writeTmp (by simp)) hren (hf .removeTmp (by simp)) hw
  cases hc : createDirAll none r d with
  | mk res d₁ =>
    rw [hc] at hok hst
    simp only at hok
    subst hok
    unfold propagateDownload
    simp only [hf .get (by simp), httpGet, hs, List.tail_cons, hf .parentDirs (by simp), hc,
      hf .body (by simp)]
    split
    · rename_i hb; rw [hb] at hst; exact hst
    · rename_i hb; rw [hb] at hst; exact hst

/-! ## Upload -/

lemma httpPut_keep {f : RemoteFile} (h : q ≠ p) : (httpPut s p f).2.get q = s.get q := by
  unfold httpPut
  split
  · rfl
  · split
    · rename_i s' hs
      obtain ⟨-, -, hg⟩ := Tree.write?_eq_some hs
      exact (hg q).trans (if_neg h)
    · rfl
  · split
    · rename_i s' hs
      obtain ⟨-, -, hg⟩ := Tree.write?_eq_some hs
      exact (hg q).trans (if_neg h)
    · rfl

/-- At its own path a PUT changes nothing or stores the file; it never replaces a
collection. -/
lemma httpPut_self {f : RemoteFile} :
    ((httpPut s p f).2 = s ∧ ((httpPut s p f).1 = 405 ∨ (httpPut s p f).1 = 409)) ∨
    (s.get p ≠ some Node.dir ∧ (httpPut s p f).2.get p = some (Node.file f)) := by
  have hwrite : ∀ {s' : Space}, s.write? p f = some s' →
      s.get p ≠ some Node.dir ∧ s'.get p = some (Node.file f) := by
    intro s' hs
    obtain ⟨-, hd, hg⟩ := Tree.write?_eq_some hs
    exact ⟨hd, (hg p).trans (if_pos rfl)⟩
  unfold httpPut
  split
  · exact Or.inl ⟨rfl, Or.inl rfl⟩
  · split
    · rename_i hs
      exact Or.inr (hwrite hs)
    · exact Or.inl ⟨rfl, Or.inr rfl⟩
  · split
    · rename_i hs
      exact Or.inr (hwrite hs)
    · exact Or.inl ⟨rfl, Or.inr rfl⟩

lemma putOnce_spec {m : String} {f : RemoteFile} :
    (∀ q, q ≠ p → (putOnce φ m p f s).2.get q = s.get q) ∧
    ((putOnce φ m p f s).2.get p = s.get p ∨
      (s.get p ≠ some Node.dir ∧ (putOnce φ m p f s).2.get p = some (Node.file f))) ∧
    ((putOnce φ m p f s).1 = .ok () → s.get p ≠ some Node.dir ∧
      (putOnce φ m p f s).2.get p = some (Node.file f)) := by
  unfold putOnce
  split
  · refine ⟨fun q hq => ?_, ?_, nofun⟩
    · split
      · exact httpPut_keep hq
      · rfl
    · split
      · rcases httpPut_self (s := s) (p := p) (f := f) with ⟨h, -⟩ | h
        · exact Or.inl (by rw [h])
        · exact Or.inr h
      · exact Or.inl rfl
  · refine ⟨fun q hq => httpPut_keep hq, ?_, fun h => ?_⟩
    · rcases httpPut_self (s := s) (p := p) (f := f) with ⟨h, -⟩ | h
      · exact Or.inl (by rw [h])
      · exact Or.inr h
    · rcases httpPut_self (s := s) (p := p) (f := f) with ⟨-, hbad | hbad⟩ | h'
      · simp [hbad] at h
      · simp [hbad] at h
      · exact h'

lemma patchOnce_spec {f : RemoteFile} :
    (∀ q, q ≠ p → (patchOnce φ p f s).2.get q = s.get q) ∧
    ((patchOnce φ p f s).2.get p = s.get p ∨
      (s.get p ≠ some Node.dir ∧ (patchOnce φ p f s).2.get p = some (Node.file f))) ∧
    ((patchOnce φ p f s).1 = .ok () → s.get p ≠ some Node.dir ∧
      (patchOnce φ p f s).2.get p = some (Node.file f)) := by
  have hkeep : ∀ q, q ≠ p → (httpPatch s p f).2.get q = s.get q := by
    intro q hq
    unfold httpPatch
    split
    · rename_i s' hs
      obtain ⟨-, -, hg⟩ := Tree.write?_eq_some hs
      exact (hg q).trans (if_neg hq)
    · rfl
  have hself : ((httpPatch s p f).2 = s ∧ (httpPatch s p f).1 = 409) ∨
      (s.get p ≠ some Node.dir ∧ (httpPatch s p f).2.get p = some (Node.file f)) := by
    unfold httpPatch
    split
    · rename_i s' hs
      obtain ⟨-, hd, hg⟩ := Tree.write?_eq_some hs
      exact Or.inr ⟨hd, (hg p).trans (if_pos rfl)⟩
    · exact Or.inl ⟨rfl, rfl⟩
  have hself' : (httpPatch s p f).2.get p = s.get p ∨
      (s.get p ≠ some Node.dir ∧ (httpPatch s p f).2.get p = some (Node.file f)) := by
    rcases hself with ⟨h, -⟩ | h
    · exact Or.inl (by rw [h])
    · exact Or.inr h
  unfold patchOnce
  split
  · refine ⟨fun q hq => ?_, ?_, nofun⟩
    · split
      · exact hkeep q hq
      · rfl
    · split
      · exact hself'
      · exact Or.inl rfl
  · refine ⟨hkeep, hself', fun h => ?_⟩
    rcases hself with ⟨-, hbad⟩ | h'
    · simp [hbad] at h
    · exact h'

/-- Making the ancestors changes nothing that exists and makes only ancestors. -/
lemma ensureParentCollections_spec : ∀ {q : Path} {s : Space},
    (∀ r, s.get r ≠ none → (ensureParentCollections ε p q s).2.get r = s.get r) ∧
    (∀ r, s.get r = none → (ensureParentCollections ε p q s).2.get r = none ∨
      (r <:+ q ∧ (ensureParentCollections ε p q s).2.get r = some Node.dir))
  | [], s => ⟨fun _ _ => rfl, fun _ h => Or.inl h⟩
  | n :: q, s => by
      obtain ⟨ihk, ihn⟩ := ensureParentCollections_spec (q := q) (s := s)
      have hsub : ∀ r, r <:+ q → r <:+ n :: q := fun r hr => hr.trans (List.suffix_cons n q)
      unfold ensureParentCollections
      split
      · rename_i s' he
        rw [he] at ihk ihn
        exact ⟨ihk, fun r hr => (ihn r hr).imp id (fun h => ⟨hsub r h.1, h.2⟩)⟩
      · rename_i s' he
        rw [he] at ihk ihn
        refine ⟨fun r hr => ?_, fun r hr => ?_⟩
        · rw [mkdirRemote_keep (by rw [ihk r hr]; exact hr), ihk r hr]
        · rcases ihn r hr with h | ⟨hrq, h⟩
          · rcases mkdirRemote_none (φ := ε.fails (.mkcolParent (n :: q)) p)
              (p := n :: q) h with h' | ⟨rfl, h'⟩
            · exact Or.inl h'
            · exact Or.inr ⟨List.suffix_refl _, h'⟩
          · exact Or.inr ⟨hsub r hrq, by rw [mkdirRemote_keep (by rw [h]; simp)]; exact h⟩

/-- The target itself is not among the ancestors that are made. -/
lemma ensureParentCollections_self :
    (ensureParentCollections ε p p.tail s).2.get p = s.get p := by
  obtain ⟨hkeep, hmade⟩ := ensureParentCollections_spec (ε := ε) (p := p) (q := p.tail) (s := s)
  cases hx : s.get p with
  | some x => rw [hkeep p (by rw [hx]; simp), hx]
  | none =>
      rcases hmade p hx with h | ⟨h, -⟩
      · exact h
      · cases p with
        | nil => rw [s.root] at hx; cases hx
        | cons n r => exact absurd h (cons_not_suffix n r)

/-- What an upload may leave in the space: other paths keep what they hold, ancestors of the
target may appear, the target keeps what it holds or holds the uploaded file, and on success it
holds the local content. -/
structure UploadLeaves (ε : Env) (p : Path) (z : UInt64) (d : Disk) (s : Space)
    (r : Except SyncError Str × Space) : Prop where
  keep : ∀ q, q ≠ p → s.get q ≠ none → r.2.get q = s.get q
  made : ∀ q, q ≠ p → s.get q = none →
    r.2.get q = none ∨ (q <:+ p.tail ∧ r.2.get q = some Node.dir)
  target : r.2.get p = s.get p ∨ (s.get p ≠ some Node.dir ∧ ∃ f, r.2.get p = some (Node.file f))
  ok : ∀ e, r.1 = .ok e → e = ε.putEtag p ∧ ∃ a, d.get p = some (Node.file a) ∧
    r.2.get p = some (Node.file ⟨a.content.take z.toNat, ε.storedEtag p⟩)

lemma UploadLeaves.unchanged {z : UInt64} {e : SyncError} :
    UploadLeaves ε p z d s (.error e, s) where
  keep _ _ _ := rfl
  made _ _ h := Or.inl h
  target := Or.inl rfl
  ok := nofun

/-- The last request of an upload, sent to a space in which at most ancestors are new. -/
lemma UploadLeaves.of_request {z : UInt64} {a : LocalFile} {s' : Space}
    {r : Except SyncError Unit × Space} (hfile : d.get p = some (Node.file a))
    (hkeep : ∀ q, s.get q ≠ none → s'.get q = s.get q)
    (hmade : ∀ q, s.get q = none → s'.get q = none ∨ (q <:+ p.tail ∧ s'.get q = some Node.dir))
    (hself : s'.get p = s.get p) :
    ((∀ q, q ≠ p → r.2.get q = s'.get q) ∧
      (r.2.get p = s'.get p ∨ (s'.get p ≠ some Node.dir ∧
        r.2.get p = some (Node.file ⟨a.content.take z.toNat, ε.storedEtag p⟩))) ∧
      (r.1 = .ok () → s'.get p ≠ some Node.dir ∧
        r.2.get p = some (Node.file ⟨a.content.take z.toNat, ε.storedEtag p⟩))) →
    UploadLeaves ε p z d s (match r with
      | (.error e, s'') => (.error e, s'')
      | (.ok (), s'') => (.ok (ε.putEtag p), s'')) := by
  rintro ⟨hother, htarget, hok⟩
  rw [hself] at htarget hok
  have hkept : ∀ q, q ≠ p → s.get q ≠ none → r.2.get q = s.get q :=
    fun q hq h => (hother q hq).trans (hkeep q h)
  have hnew : ∀ q, q ≠ p → s.get q = none →
      r.2.get q = none ∨ (q <:+ p.tail ∧ r.2.get q = some Node.dir) := by
    intro q hq h
    rw [hother q hq]
    exact hmade q h
  obtain ⟨x, s''⟩ := r
  cases x with
  | error e => exact ⟨hkept, hnew, htarget.imp id (fun h => ⟨h.1, _, h.2⟩), nofun⟩
  | ok u =>
      refine ⟨hkept, hnew, htarget.imp id (fun h => ⟨h.1, _, h.2⟩), fun e h => ?_⟩
      cases h
      exact ⟨rfl, a, hfile, (hok rfl).2⟩

lemma uploadPut_leaves {z : UInt64} : UploadLeaves ε p z d s (uploadPut ε p z d s) := by
  unfold uploadPut
  split
  · rename_i a hread hfile
    dsimp only
    split
    · -- 409: the ancestors are made first, then the PUT is sent again
      obtain ⟨hek, hen⟩ := ensureParentCollections_spec (ε := ε) (p := p) (q := p.tail) (s := s)
      have hself := ensureParentCollections_self (ε := ε) (p := p) (s := s)
      split
      · rename_i s' he
        rw [he] at hek hen hself
        exact ⟨fun q _ => hek q, fun q _ => hen q, Or.inl hself, nofun⟩
      · rename_i s' he
        rw [he] at hek hen hself
        exact UploadLeaves.of_request hfile hek hen hself putOnce_spec
    · exact UploadLeaves.of_request hfile (fun _ _ => rfl) (fun _ h => Or.inl h) rfl putOnce_spec
  · exact UploadLeaves.unchanged
  · exact UploadLeaves.unchanged
  · exact UploadLeaves.unchanged

lemma uploadTus_leaves {z : UInt64} : UploadLeaves ε p z d s (uploadTus ε p z d s) := by
  unfold uploadTus
  split
  · exact UploadLeaves.unchanged
  split
  · exact UploadLeaves.unchanged
  split
  · rename_i a hread hfile
    exact UploadLeaves.of_request hfile (fun _ _ => rfl) (fun _ h => Or.inl h) rfl patchOnce_spec
  · exact UploadLeaves.unchanged
  · exact UploadLeaves.unchanged
  · exact UploadLeaves.unchanged

lemma propagateUpload_leaves {κ : EngineConfig} {z : UInt64} :
    UploadLeaves ε p z d s (propagateUpload κ ε p z d s) := by
  unfold propagateUpload
  split
  · exact uploadTus_leaves
  · exact uploadPut_leaves

/-- Without failures an upload of an existing file below an existing collection succeeds,
through PUT and through TUS. -/
lemma propagateUpload_succeeds {κ : EngineConfig} {n : Name} {r : Path} {a : LocalFile}
    {z : UInt64} (hf : ∀ op, ε.fails op (n :: r) = none)
    (hd : d.get (n :: r) = some (Node.file a)) (hr : s.get r = some Node.dir)
    (hs : s.get (n :: r) ≠ some Node.dir) :
    (propagateUpload κ ε (n :: r) z d s).1 = .ok (ε.putEtag (n :: r)) := by
  obtain ⟨s', hw⟩ := Tree.write?_isSome
    (a := (⟨a.content.take z.toNat, ε.storedEtag (n :: r)⟩ : RemoteFile)) hr hs
  unfold propagateUpload
  split
  · have hc : httpTusCreate s (n :: r) = 201 := by
      unfold httpTusCreate
      split
      · rename_i h; exact absurd h hs
      · rfl
      · simp [Tree.isDir_iff.mpr hr]
    simp [uploadTus, hf, hc, hd, patchOnce, httpPatch, hw]
  · have hp : (httpPut s (n :: r) ⟨a.content.take z.toNat, ε.storedEtag (n :: r)⟩).1 = 204 ∨
        (httpPut s (n :: r) ⟨a.content.take z.toNat, ε.storedEtag (n :: r)⟩).1 = 201 := by
      unfold httpPut
      split
      · rename_i h; exact absurd h hs
      · exact Or.inl (by rw [hw])
      · exact Or.inr (by rw [hw])
    rcases hp with hp | hp <;> simp [uploadPut, hf, hd, putOnce, hp]

end OwncloudSync
