import Mathlib.Data.List.Basic
import Mathlib.Tactic.Common

/-!
# A flat file system with inodes

Names point to inodes, inodes hold the data.  The level of detail is the one at which open
handles matter: `create` on a name that exists **truncates the inode that is there**, so whoever
has it open writes into the same data, and `rename` moves the name and leaves the inode.

Two names never share an inode (there are no hard links) and inodes are not reused, both as
fields of the structure.  A write behind the end of the data fills the gap, as a sparse write
does.
-/

/-- A file system whose names point to inodes. -/
structure InodeFs (ν β : Type) where
  ino : ν → Option ℕ
  data : ℕ → List β
  /-- the next inode to be handed out -/
  next : ℕ
  below : ∀ p k, ino p = some k → k < next
  inj : ∀ p q k, ino p = some k → ino q = some k → p = q

namespace InodeFs

variable {ν β : Type} {fs fs' : InodeFs ν β} {p q r : ν} {k pos : ℕ}

/-- The data a name points to. -/
def read (fs : InodeFs ν β) (p : ν) : Option (List β) := (fs.ino p).map fs.data

lemma read_eq_some (h : fs.ino p = some k) : fs.read p = some (fs.data k) := by
  rw [read, h]
  rfl

/-! ## Writing -/

/-- `bytes` written at an offset into a file that may be shorter or longer. -/
def overwrite [Inhabited β] (old : List β) (pos : ℕ) (bytes : List β) : List β :=
  old.take pos ++ List.replicate (pos - old.length) default ++ bytes ++
    old.drop (pos + bytes.length)

/-- A write through an open handle. -/
def write [Inhabited β] (fs : InodeFs ν β) (k pos : ℕ) (bytes : List β) : InodeFs ν β :=
  { fs with data := fun j => if j = k then overwrite (fs.data k) pos bytes else fs.data j }

lemma write_data_self [Inhabited β] {bytes : List β} :
    (fs.write k pos bytes).data k = overwrite (fs.data k) pos bytes := if_pos rfl

lemma write_data_ne [Inhabited β] {bytes : List β} {j : ℕ} (h : j ≠ k) :
    (fs.write k pos bytes).data j = fs.data j := if_neg h

/-- Writing on where the data ends appends. -/
lemma overwrite_end [Inhabited β] (old bytes : List β) :
    overwrite old old.length bytes = old ++ bytes := by
  simp [overwrite]

/-! ## Names -/

variable [DecidableEq ν]

/-- `O_CREAT | O_TRUNC`: the new file system and the inode that was opened. -/
def create (fs : InodeFs ν β) (p : ν) : InodeFs ν β × ℕ :=
  match h : fs.ino p with
  | some k => ({ fs with data := fun j => if j = k then [] else fs.data j }, k)
  | none =>
      ({ ino := fun q => if q = p then some fs.next else fs.ino q
         data := fun j => if j = fs.next then [] else fs.data j
         next := fs.next + 1
         below := by
           intro q k hq
           split at hq
           · cases hq; exact Nat.lt_succ_self _
           · exact Nat.lt_succ_of_lt (fs.below q k hq)
         inj := by
           intro q r k hq hr
           split at hq
           · rename_i hqp
             split at hr
             · rename_i hrp; exact hqp.trans hrp.symm
             · cases hq; exact absurd (fs.below r _ hr) (Nat.lt_irrefl _)
           · split at hr
             · cases hr; exact absurd (fs.below q _ hq) (Nat.lt_irrefl _)
             · exact fs.inj q r k hq hr },
       fs.next)

/-- The name goes; the inode stays for whoever has it open. -/
def unlink (fs : InodeFs ν β) (p : ν) : InodeFs ν β where
  ino q := if q = p then none else fs.ino q
  data := fs.data
  next := fs.next
  below := by
    intro q k hq
    split at hq
    · cases hq
    · exact fs.below q k hq
  inj := by
    intro q r k hq hr
    split at hq
    · cases hq
    · split at hr
      · cases hr
      · exact fs.inj q r k hq hr

/-- `rename`: the name `p` becomes `q`, replacing what `q` was. -/
def rename? (fs : InodeFs ν β) (p q : ν) : Option (InodeFs ν β) :=
  match h : fs.ino p with
  | none => none
  | some k =>
      if hpq : p = q then some fs
      else some {
        ino := fun r => if r = p then none else if r = q then some k else fs.ino r
        data := fs.data
        next := fs.next
        below := by
          intro r j hr
          split at hr
          · cases hr
          · split at hr
            · cases hr; exact fs.below p k h
            · exact fs.below r j hr
        inj := by
          intro r s j hr hs
          split at hr
          · cases hr
          · rename_i hrp
            split at hs
            · cases hs
            · rename_i hsp
              split at hr
              · rename_i hrq
                split at hs
                · rename_i hsq; exact hrq.trans hsq.symm
                · cases hr; exact absurd (fs.inj s p k hs h) hsp
              · split at hs
                · cases hs; exact absurd (fs.inj r p k hr h) hrp
                · exact fs.inj r s j hr hs }

lemma create_ino : (fs.create p).1.ino q = if q = p then some (fs.create p).2 else fs.ino q := by
  unfold create
  split
  · rename_i k h
    split
    · rename_i hqp; rw [hqp]; exact h
    · rfl
  · rfl

@[simp] lemma create_data_self : (fs.create p).1.data (fs.create p).2 = [] := by
  unfold create
  split
  · exact if_pos rfl
  · exact if_pos rfl

lemma create_data_ne (h : k ≠ (fs.create p).2) : (fs.create p).1.data k = fs.data k := by
  revert h
  unfold create
  split
  · exact fun h => if_neg h
  · exact fun h => if_neg h

/-- Another name's inode is not the one that is opened. -/
lemma create_ne (hq : fs.ino q = some k) (hqp : q ≠ p) : k ≠ (fs.create p).2 := by
  rintro rfl
  have hown : (fs.create p).1.ino p = some (fs.create p).2 := by rw [create_ino, if_pos rfl]
  have hother : (fs.create p).1.ino q = some (fs.create p).2 := by
    rw [create_ino, if_neg hqp]; exact hq
  exact hqp ((fs.create p).1.inj q p _ hother hown)

lemma unlink_ino : (fs.unlink p).ino q = if q = p then none else fs.ino q := rfl

/-- What a successful rename leaves. -/
lemma rename?_eq_some (h : fs.rename? p q = some fs') :
    fs'.data = fs.data ∧ ∃ k, fs.ino p = some k ∧ ((p = q ∧ fs' = fs) ∨
      (p ≠ q ∧ ∀ r, fs'.ino r = if r = p then none else if r = q then some k else fs.ino r)) := by
  unfold rename? at h
  split at h
  · cases h
  · rename_i k hk
    split at h
    · rename_i hpq
      cases h
      exact ⟨rfl, k, hk, Or.inl ⟨hpq, rfl⟩⟩
    · rename_i hpq
      cases h
      exact ⟨rfl, k, hk, Or.inr ⟨hpq, fun r => rfl⟩⟩

lemma rename?_isSome (h : fs.ino p = some k) : ∃ fs', fs.rename? p q = some fs' := by
  unfold rename?
  split
  · rename_i hn
    rw [h] at hn; cases hn
  · split
    · exact ⟨_, rfl⟩
    · exact ⟨_, rfl⟩

/-- The destination points to the inode that was moved. -/
lemma rename?_dest (h : fs.rename? p q = some fs') (hk : fs.ino p = some k) :
    fs'.ino q = some k := by
  obtain ⟨-, j, hj, ⟨hpq, rfl⟩ | ⟨hpq, hr⟩⟩ := rename?_eq_some h
  · rw [← hpq]; exact hk
  · rw [hr, if_neg (Ne.symm hpq), if_pos rfl, ← hj, hk]

/-- What could be read at the old name can be read at the new one. -/
lemma rename?_read (h : fs.rename? p q = some fs') : fs'.read q = fs.read p := by
  obtain ⟨hdata, k, hk, -⟩ := rename?_eq_some h
  rw [read_eq_some (rename?_dest h hk), hdata, ← read_eq_some hk]

/-- Names other than the two are left alone. -/
lemma rename?_other (h : fs.rename? p q = some fs') (hp : r ≠ p) (hq : r ≠ q) :
    fs'.ino r = fs.ino r := by
  obtain ⟨-, j, -, ⟨-, rfl⟩ | ⟨-, hr⟩⟩ := rename?_eq_some h
  · rfl
  · rw [hr, if_neg hp, if_neg hq]

end InodeFs
