import OwncloudSync.Shell.Server
import Mathlib.Data.List.MinMax
import Mathlib.Tactic.Common

/-!
# The status of a folder

`resolve_folder` (`status_resolver.rs`) goes over the recorded statuses of a folder in the order of the
hash map and keeps the worse of two, the left one on ties.  What it keeps is a `List.argmax` of the
priority, over the tags at and below the path and the `OK` it starts with (`foldl_worseStatus`).

Priorities are different for the tags a status can have (`tagOf_of_priority`), so the order does not
matter; and a path further down has fewer statuses below it, so the folder shows what is worst in it
all the way up.
-/

namespace OwncloudSync

open LexicalPath

namespace Shell

open StatusResolver

/-- The tags of the statuses recorded at and below a path. -/
def tagsBelow (statuses : FileStatuses) (path : Str) : List Tag :=
  (statuses.filter (fun e => startsWith e.1 path)).map (fun e => tagOf e.2)

/-- The resolver with other statuses for a folder. -/
def StatusResolver.withStatuses (r : StatusResolver) (id : Uuid) (statuses : FileStatuses) :
    StatusResolver :=
  { r with syncStates := fun x => if x = id then some statuses else r.syncStates x }

/-- The worst of some tags, or `OK`. -/
structure Worst (tags : List Tag) (tag : Tag) : Prop where
  empty : tags = [] → tag = .ok
  mem : tags ≠ [] → tag ∈ tags
  highest : ∀ other ∈ tags, priority other ≤ priority tag

/-- What the status of a folder is to say, where the folder has the statuses. -/
structure ShowsWorst (r : StatusResolver) (id : Uuid) (statuses : FileStatuses) (path : Str) :
    Prop where
  worst : Worst (tagsBelow statuses path) (r.resolveFolder path)
  /-- in whatever order the hash map has them -/
  order : ∀ statuses', statuses'.Perm statuses →
    (r.withStatuses id statuses').resolveFolder path = r.resolveFolder path
  /-- no file or folder below it, in the same folder, is worse -/
  below : ∀ q, startsWith q path = true → r.findFolderForPath q = some id →
    priority (r.resolveFile q) ≤ priority (r.resolveFolder q) ∧
      priority (r.resolveFolder q) ≤ priority (r.resolveFolder path)

variable {r : StatusResolver} {id : Uuid} {statuses statuses' : FileStatuses} {path q : Str}
  {tags : List Tag} {tag other : Tag}

/-! ## The fold -/

lemma foldl_worseStatus (tag : Tag) (tags : List Tag) :
    tags.foldl worseStatus tag ∈ List.argmax priority (tag :: tags) := by
  induction tags using List.reverseRecOn with
  | nil => simp
  | append_singleton tags other ih =>
      rw [List.foldl_append, List.foldl_cons, List.foldl_nil, ← List.cons_append, List.argmax_concat,
        ih, worseStatus]
      dsimp only
      split
      · rfl
      · rfl

/-- The tags of statuses have priorities of their own. -/
lemma tagOf_of_priority {fs fs' : FileStatus} (h : priority (tagOf fs) = priority (tagOf fs')) :
    tagOf fs = tagOf fs' := by
  cases fs <;> cases fs' <;> first | rfl | cases h

lemma priority_pos_or_ok (fs : FileStatus) : tagOf fs = .ok ∨ 0 < priority (tagOf fs) := by
  cases fs <;> simp [tagOf, priority]

lemma exists_tagOf (h : tag ∈ tagsBelow statuses path) : ∃ fs, tagOf fs = tag := by
  obtain ⟨e, -, he⟩ := List.mem_map.mp h
  exact ⟨e.2, he⟩

/-- The fold from `OK` over the tags of statuses is the worst of them. -/
lemma worst_foldl : Worst (tagsBelow statuses path)
    ((tagsBelow statuses path).foldl worseStatus .ok) := by
  have hargmax := foldl_worseStatus .ok (tagsBelow statuses path)
  refine ⟨fun hnil => by rw [hnil]; rfl, fun hne => ?_,
    fun other hother => List.le_of_mem_argmax (List.mem_cons_of_mem _ hother) hargmax⟩
  rcases List.mem_cons.mp (List.argmax_mem hargmax) with hok | hmem
  · -- nothing is worse than `OK`, so all of them are
    obtain ⟨other, hother⟩ := List.exists_mem_of_ne_nil _ hne
    have hle := List.le_of_mem_argmax (List.mem_cons_of_mem _ hother) hargmax
    obtain ⟨fs, rfl⟩ := exists_tagOf hother
    rw [hok] at hle ⊢
    rcases priority_pos_or_ok fs with hfs | hpos
    · rw [← hfs]
      exact hother
    · exact absurd (Nat.lt_of_lt_of_le hpos hle) (by decide)
  · exact hmem

/-- There is one worst tag only. -/
lemma Worst.unique (h : Worst (tagsBelow statuses path) tag)
    (h' : Worst (tagsBelow statuses' path) other) (hperm : statuses'.Perm statuses) : other = tag := by
  have htags : (tagsBelow statuses' path).Perm (tagsBelow statuses path) := (hperm.filter _).map _
  have hiff : tagsBelow statuses' path = [] ↔ tagsBelow statuses path = [] := by
    rw [← List.length_eq_zero_iff, htags.length_eq, List.length_eq_zero_iff]
  by_cases hnil : tagsBelow statuses path = []
  · rw [h.empty hnil, h'.empty (hiff.mpr hnil)]
  · have hmem := h.mem hnil
    have hmem' := htags.mem_iff.mp (h'.mem (fun hnil' => hnil (hiff.mp hnil')))
    have hprio : priority other = priority tag :=
      Nat.le_antisymm (h.highest other hmem') (h'.highest tag (htags.mem_iff.mpr hmem))
    obtain ⟨fs, rfl⟩ := exists_tagOf hmem
    obtain ⟨fs', rfl⟩ := exists_tagOf hmem'
    exact tagOf_of_priority hprio

/-! ## What is resolved -/

lemma resolveFolder_eq (hfolder : r.findFolderForPath path = some id)
    (hstate : r.syncStates id = some statuses) :
    r.resolveFolder path = (tagsBelow statuses path).foldl worseStatus .ok := by
  rw [resolveFolder, hfolder]
  dsimp only
  rw [hstate, tagsBelow, List.foldl_map, List.foldl_filter]

/-- The status of a file is one of those recorded at its path, or `OK`. -/
lemma resolveFile_cases (hfolder : r.findFolderForPath path = some id)
    (hstate : r.syncStates id = some statuses) :
    r.resolveFile path = .ok ∨ r.resolveFile path ∈ tagsBelow statuses path := by
  rw [resolveFile, hfolder]
  dsimp only
  rw [hstate]
  dsimp only
  cases hfind : statuses.find? (fun e => components e.1 = components path) with
  | none => exact .inl rfl
  | some e =>
      have hkey : components e.1 = components path := by simpa using List.find?_some hfind
      refine .inr (List.mem_map.mpr ⟨e, List.mem_filter.mpr ⟨List.mem_of_find?_eq_some hfind, ?_⟩, rfl⟩)
      rw [startsWith_iff, hkey]

/-- Further down there is less. -/
lemma tagsBelow_subset (h : startsWith q path = true) :
    tagsBelow statuses q ⊆ tagsBelow statuses path := by
  intro tag htag
  obtain ⟨e, he, rfl⟩ := List.mem_map.mp htag
  obtain ⟨hmem, hbelow⟩ := List.mem_filter.mp he
  refine List.mem_map.mpr ⟨e, List.mem_filter.mpr ⟨hmem, ?_⟩, rfl⟩
  rw [startsWith_iff] at h hbelow ⊢
  exact h.trans hbelow

/-- **The status of a folder is the worst of its subtree**, whatever the order of the map, and no path
below it shows a worse one. -/
theorem showsWorst (r : StatusResolver) {id : Uuid} {statuses : FileStatuses} {path : Str}
    (hfolder : r.findFolderForPath path = some id) (hstate : r.syncStates id = some statuses) :
    ShowsWorst r id statuses path where
  worst := by
    rw [resolveFolder_eq hfolder hstate]
    exact worst_foldl
  order statuses' hperm := by
    have hfolder' : (r.withStatuses id statuses').findFolderForPath path = some id := hfolder
    have hresolve := resolveFolder_eq hfolder hstate
    rw [hresolve, resolveFolder_eq hfolder' (if_pos rfl)]
    exact worst_foldl.unique worst_foldl hperm
  below q hq hsame := by
    have hworst : ∀ {p : Str}, r.findFolderForPath p = some id →
        Worst (tagsBelow statuses p) (r.resolveFolder p) := by
      intro p hp
      rw [resolveFolder_eq hp hstate]
      exact worst_foldl
    constructor
    · rcases resolveFile_cases hsame hstate with hok | hmem
      · rw [hok]
        exact Nat.zero_le _
      · exact (hworst hsame).highest _ hmem
    · by_cases hnil : tagsBelow statuses q = []
      · rw [(hworst hsame).empty hnil]
        exact Nat.zero_le _
      · exact (hworst hfolder).highest _ (tagsBelow_subset hq ((hworst hsame).mem hnil))

/-- A folder with a failed and a running file below `/s/a`, and an excluded one beside it. -/
def sample : StatusResolver where
  syncStates _ := some [("/s/a/x".toList, .syncing), ("/s/a/y".toList, .error "no"),
    ("/s/ab".toList, .excluded)]
  folderRoots := [("/s".toList, 1)]

/-- The directory `/s/a` of the sample: the file in `/s/ab` is not below it. -/
theorem sample_showsWorst : ShowsWorst sample 1 [("/s/a/x".toList, .syncing),
    ("/s/a/y".toList, .error "no"), ("/s/ab".toList, .excluded)] "/s/a".toList :=
  showsWorst sample (by decide) rfl

example : sample.resolveFolder "/s/a".toList = .error := by decide

end Shell

end OwncloudSync
