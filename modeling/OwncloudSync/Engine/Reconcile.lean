import OwncloudSync.Engine.Types
import Mathlib.Tactic.Common

/-!
# Reconciliation

`reconcile` decides what to do with one path from what is known about it locally, remotely and
in the journal (`reconcile.rs`).  It is the only place where the three are compared, and the
comparison is made **only when both sides are present**: with one side gone, the mere existence
of a baseline decides between a new path and a deleted one.

The lemmas here say exactly when each instruction is returned; nothing downstream unfolds
`reconcile` again.
-/

namespace OwncloudSync

/-- `reconcile`: one path, three views, one instruction. -/
def reconcile (loc : Option LocalEntry) (rem : Option RemoteEntry)
    (journal : Option JournalBaseline) (strategy : ConflictStrategy) : SyncInstruction :=
  match loc, rem, journal with
  | none, none, _ => .ignore
  | some _, none, none => .upload
  | some _, none, some _ => .deleteLocal
  | none, some _, none => .download
  | none, some _, some _ => .deleteRemote
  | some _, some _, none => .conflict
  | some loc, some rem, some (jEtag, jSize) =>
      let remoteChanged := rem.etag != jEtag
      let localChanged := loc.size != jSize
      match localChanged, remoteChanged with
      | false, false => .ignore
      | true, false => .upload
      | false, true => .download
      | true, true =>
          match strategy with
          | .keepBoth => .conflict
          | .keepRemote => .download
          | .keepLocal => .upload

variable {loc : Option LocalEntry} {rem : Option RemoteEntry} {journal : Option JournalBaseline}
  {strategy : ConflictStrategy}

/-- The instruction for a path that is on both sides and has a baseline. -/
lemma reconcile_both (l : LocalEntry) (r : RemoteEntry) (e : Str) (n : UInt64) :
    reconcile (some l) (some r) (some (e, n)) strategy =
      if l.size = n then (if r.etag = e then .ignore else .download)
      else if r.etag = e then .upload
      else
        match strategy with
        | .keepBoth => .conflict
        | .keepRemote => .download
        | .keepLocal => .upload := by
  by_cases hl : l.size = n
  · by_cases hr : r.etag = e
    · simp [reconcile, hl, hr]
    · have hr' : (r.etag != e) = true := by simpa using hr
      simp [reconcile, hl, hr, hr']
  · have hl' : (l.size != n) = true := by simpa using hl
    by_cases hr : r.etag = e
    · simp [reconcile, hl, hr, hl']
    · have hr' : (r.etag != e) = true := by simpa using hr
      simp only [reconcile, hl', hr', if_neg hl, if_neg hr]

/-- Such a path is never deleted. -/
lemma reconcile_both_range (l : LocalEntry) (r : RemoteEntry) (b : JournalBaseline)
    (strategy : ConflictStrategy) : reconcile (some l) (some r) (some b) strategy ∈
      [SyncInstruction.upload, .download, .conflict, .ignore] := by
  obtain ⟨e, n⟩ := b
  rw [reconcile_both]
  by_cases hl : l.size = n
  · by_cases hr : r.etag = e
    · simp [hl, hr]
    · simp [hl, hr]
  · by_cases hr : r.etag = e
    · simp [hl, hr]
    · cases strategy <;> simp [hl, hr]

/-- `DeleteLocal` is returned exactly when only the local side is present and a baseline
exists. -/
lemma reconcile_deleteLocal_iff :
    reconcile loc rem journal strategy = .deleteLocal ↔
      loc ≠ none ∧ rem = none ∧ journal ≠ none := by
  rcases loc with _ | l <;> rcases rem with _ | r <;> rcases journal with _ | b
  case some.some.some =>
    have hrange := reconcile_both_range l r b strategy
    generalize reconcile (some l) (some r) (some b) strategy = i at hrange ⊢
    cases i <;> simp at hrange ⊢
  all_goals simp [reconcile]

/-- `DeleteRemote` is returned exactly when only the remote side is present and a baseline
exists. -/
lemma reconcile_deleteRemote_iff :
    reconcile loc rem journal strategy = .deleteRemote ↔
      loc = none ∧ rem ≠ none ∧ journal ≠ none := by
  rcases loc with _ | l <;> rcases rem with _ | r <;> rcases journal with _ | b
  case some.some.some =>
    have hrange := reconcile_both_range l r b strategy
    generalize reconcile (some l) (some r) (some b) strategy = i at hrange ⊢
    cases i <;> simp at hrange ⊢
  all_goals simp [reconcile]

/-- A path is deleted exactly when it is on one side only and has a baseline. -/
lemma reconcile_isDelete_iff :
    (reconcile loc rem journal strategy).isDelete = true ↔
      journal ≠ none ∧ ((loc ≠ none ∧ rem = none) ∨ (loc = none ∧ rem ≠ none)) := by
  constructor
  · intro h
    cases hi : reconcile loc rem journal strategy with
    | deleteLocal =>
        obtain ⟨hl, hr, hj⟩ := reconcile_deleteLocal_iff.mp hi
        exact ⟨hj, Or.inl ⟨hl, hr⟩⟩
    | deleteRemote =>
        obtain ⟨hl, hr, hj⟩ := reconcile_deleteRemote_iff.mp hi
        exact ⟨hj, Or.inr ⟨hl, hr⟩⟩
    | _ => rw [hi] at h; cases h
  · rintro ⟨hj, ⟨hl, hr⟩ | ⟨hl, hr⟩⟩
    · rw [reconcile_deleteLocal_iff.mpr ⟨hl, hr, hj⟩]; rfl
    · rw [reconcile_deleteRemote_iff.mpr ⟨hl, hr, hj⟩]; rfl

/-- An upload needs the local side. -/
lemma reconcile_upload (h : reconcile loc rem journal strategy = .upload) : loc ≠ none := by
  rcases loc with _ | l
  · rcases rem with _ | r <;> rcases journal with _ | ⟨e, n⟩ <;> simp [reconcile] at h
  · simp

/-- A download needs the remote side. -/
lemma reconcile_download (h : reconcile loc rem journal strategy = .download) : rem ≠ none := by
  rcases rem with _ | r
  · rcases loc with _ | l <;> rcases journal with _ | ⟨e, n⟩ <;> simp [reconcile] at h
  · simp

/-- A conflict needs both sides. -/
lemma reconcile_conflict (h : reconcile loc rem journal strategy = .conflict) :
    loc ≠ none ∧ rem ≠ none := by
  rcases loc with _ | l <;> rcases rem with _ | r <;> rcases journal with _ | ⟨e, n⟩ <;>
    simp [reconcile] at h ⊢

/-- A present path is ignored exactly when it is on both sides and neither differs from the
baseline. -/
lemma reconcile_ignore_iff (h : loc ≠ none ∨ rem ≠ none) :
    reconcile loc rem journal strategy = .ignore ↔
      ∃ l r, loc = some l ∧ rem = some r ∧ journal = some (r.etag, l.size) := by
  rcases loc with _ | l <;> rcases rem with _ | r <;> rcases journal with _ | ⟨e, n⟩
  case some.some.some =>
    rw [reconcile_both]
    cases strategy <;> by_cases hl : l.size = n <;> by_cases hr : r.etag = e <;>
      simp [hl, hr] <;> simp_all [eq_comm]
  all_goals simp_all [reconcile]

/-- Only five instructions are ever computed for a path that is not ignored. -/
lemma reconcile_range :
    reconcile loc rem journal strategy ∈
      [SyncInstruction.upload, .download, .deleteLocal, .deleteRemote, .conflict, .ignore] := by
  rcases loc with _ | l <;> rcases rem with _ | r <;> rcases journal with _ | b
  case some.some.some =>
    have hrange := reconcile_both_range l r b strategy
    generalize reconcile (some l) (some r) (some b) strategy = i at hrange ⊢
    cases i <;> simp at hrange ⊢
  all_goals simp [reconcile]

end OwncloudSync
