import OwncloudSync.Engine.Types
import Mathlib.Tactic.Common

/-!
# Local discovery

`discover_local` and `walk_dir` (`discovery/local.rs`).  A `Listing` is what the operating system
answers while a directory is walked: one entry after the other, with the answers for a
sub-directory inside its entry.  The walk takes all entries of a directory before it goes down, so
an error among them hides one in a sub-directory — but **no error is passed over**
(`walkDir_ok_iff`).
-/

namespace OwncloudSync

/-- The calls of the walk that can fail. -/
inductive WalkCall where
  | readDir
  | entry
  | metadata
  deriving DecidableEq

/-- The answers for one directory, entry by entry. -/
inductive Listing where
  | done
  | failed (call : WalkCall) (message : String)
  | file (name : Name) (mtime : ℕ) (size : UInt64) (rest : Listing)
  /-- neither a file nor a directory -/
  | special (name : Name) (rest : Listing)
  | dir (name : Name) (mtime : ℕ) (inside rest : Listing)

/-- No call fails, here or in a sub-directory. -/
def Listing.clean : Listing → Bool
  | .done => true
  | .failed _ _ => false
  | .file _ _ _ rest => rest.clean
  | .special _ rest => rest.clean
  | .dir _ _ inside rest => inside.clean && rest.clean

/-- The entries of the directory itself, then those of its sub-directories. -/
def collect (r : Except SyncError (List LocalEntry × Except SyncError (List LocalEntry))) :
    Except SyncError (List LocalEntry) :=
  match r with
  | .error e => .error e
  | .ok (_, .error e) => .error e
  | .ok (entries, .ok below) => .ok (entries ++ below)

/-- The first loop of `walk_dir`, with what its second loop will find in the sub-directories. -/
def walkEntries (p : Path) :
    Listing → Except SyncError (List LocalEntry × Except SyncError (List LocalEntry))
  | .done => .ok ([], .ok [])
  | .failed _ message => .error (.io message)
  | .file name mtime size rest =>
      match walkEntries p rest with
      | .error e => .error e
      | .ok (entries, below) =>
          .ok ({ path := pathStr (name :: p), mtime := mtime, size := size, isDir := false } ::
            entries, below)
  | .special _ rest => walkEntries p rest
  | .dir name mtime inside rest =>
      match walkEntries p rest with
      | .error e => .error e
      | .ok (entries, below) =>
          .ok ({ path := pathStr (name :: p), mtime := mtime, size := 0, isDir := true } :: entries,
            match collect (walkEntries (name :: p) inside), below with
            | .error e, _ => .error e
            | .ok _, .error e => .error e
            | .ok inner, .ok later => .ok (inner ++ later))

/-- `walk_dir`. -/
def walkDir (p : Path) (listing : Listing) : Except SyncError (List LocalEntry) :=
  collect (walkEntries p listing)

/-- `discover_local`: the walk runs on a blocking thread, which may panic. -/
def discoverLocal (panicked : Option String) (listing : Listing) :
    Except SyncError (List LocalEntry) :=
  match panicked with
  | some message => .error (.io message)
  | none => walkDir [] listing

lemma collect_ok_iff {r : Except SyncError (List LocalEntry × Except SyncError (List LocalEntry))} :
    (∃ es, collect r = .ok es) ↔ ∃ entries below, r = .ok (entries, .ok below) := by
  unfold collect
  split
  · simp
  · simp
  · simp

/-- **No error is passed over**: the walk succeeds exactly if no call of it fails, at whatever
depth. -/
theorem walkDir_ok_iff (p : Path) (l : Listing) :
    (∃ es, walkDir p l = .ok es) ↔ l.clean = true := by
  unfold walkDir
  rw [collect_ok_iff]
  induction l generalizing p with
  | done => simp [walkEntries, Listing.clean]
  | failed call message => simp [walkEntries, Listing.clean]
  | file name mtime size rest ih =>
      rw [Listing.clean, ← ih p, walkEntries]
      cases walkEntries p rest with
      | error e => simp
      | ok r => obtain ⟨entries, below⟩ := r; simp
  | special name rest ih => exact ih p
  | dir name mtime inside rest ihi ihr =>
      have hinside := collect_ok_iff (r := walkEntries (name :: p) inside)
      rw [Listing.clean, Bool.and_eq_true, ← ihi (name :: p), ← hinside, ← ihr p, walkEntries]
      cases walkEntries p rest with
      | error e => simp
      | ok r =>
          obtain ⟨entries, below⟩ := r
          cases collect (walkEntries (name :: p) inside) <;> cases below <;> simp

lemma discoverLocal_ok_iff {panicked : Option String} {l : Listing} :
    (∃ es, discoverLocal panicked l = .ok es) ↔ panicked = none ∧ l.clean = true := by
  cases panicked with
  | some message => simp [discoverLocal]
  | none => simpa [discoverLocal] using walkDir_ok_iff [] l

/-! ## Every directory of the disk -/

/-- The directory was read to its end: none of its own calls failed. -/
def Listing.complete : Listing → Bool
  | .done => true
  | .failed _ _ => false
  | .file _ _ _ rest => rest.complete
  | .special _ rest => rest.complete
  | .dir _ _ _ rest => rest.complete

/-- The answers for a sub-directory. -/
def Listing.sub (n : Name) : Listing → Option Listing
  | .done => none
  | .failed _ _ => none
  | .file _ _ _ rest => rest.sub n
  | .special _ rest => rest.sub n
  | .dir name _ inside rest => if name = n then some inside else rest.sub n

/-- The answers for a directory further down. -/
def Listing.find (l : Listing) : Path → Option Listing
  | [] => some l
  | n :: p => (l.find p).bind (Listing.sub n)

/-- The operating system's side: a directory that is read to its end shows all the directories in
it. -/
def Listing.Shows (l : Listing) (disk : Disk) : Prop :=
  ∀ p l' n, l.find p = some l' → l'.complete = true → disk.get (n :: p) = some PathTree.Node.dir →
    l'.sub n ≠ none

lemma Listing.complete_of_clean {l : Listing} (h : l.clean = true) : l.complete = true := by
  induction l with
  | done => rfl
  | failed call message => exact h
  | file name mtime size rest ih => exact ih h
  | special name rest ih => exact ih h
  | dir name mtime inside rest ihi ihr =>
      simp only [Listing.clean, Bool.and_eq_true] at h
      exact ihr h.2

lemma Listing.clean_sub {l l' : Listing} {n : Name} (h : l.clean = true)
    (hsub : l.sub n = some l') : l'.clean = true := by
  induction l with
  | done => cases hsub
  | failed call message => cases hsub
  | file name mtime size rest ih => exact ih h hsub
  | special name rest ih => exact ih h hsub
  | dir name mtime inside rest ihi ihr =>
      simp only [Listing.clean, Bool.and_eq_true] at h
      simp only [Listing.sub] at hsub
      split at hsub
      · obtain rfl := Option.some.inj hsub
        exact h.1
      · exact ihr h.2 hsub

/-- In a walk without errors every directory of the disk is listed. -/
lemma Listing.listed_of_clean {l : Listing} {disk : Disk} (hs : l.Shows disk)
    (h : l.clean = true) : ∀ {d : Path}, disk.get d = some PathTree.Node.dir →
      ∃ l', l.find d = some l' ∧ l'.clean = true
  | [], _ => ⟨l, rfl, h⟩
  | n :: p, hd => by
      have hp : disk.get p = some PathTree.Node.dir := disk.closed n p (by rw [hd]; simp)
      obtain ⟨l', hl', hc⟩ := Listing.listed_of_clean hs h hp
      obtain ⟨l'', hsub⟩ :=
        Option.ne_none_iff_exists'.mp (hs p l' n hl' (Listing.complete_of_clean hc) hd)
      refine ⟨l'', ?_, Listing.clean_sub hc hsub⟩
      rw [Listing.find, hl']
      exact hsub

end OwncloudSync
