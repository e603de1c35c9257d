import OwncloudSync.Lib.NormalPath
import OwncloudSync.Shell.Server
import Mathlib.Tactic.Common

/-!
# The root a path belongs to

`find_folder_for_path` (`status_resolver.rs`) decides by components which roots a path lies in, and by
the **number of bytes** of their texts which of these is the right one.  For roots in their one spelling
the two go together: of two roots above the same path the deeper one is the longer text
(`strLen_lt_of_deeper`).  So the folder found is the one of the deepest root, in whatever order the
roots are listed.
-/

namespace OwncloudSync

open LexicalPath

namespace Shell

/-- The root is the path itself or one of its ancestors, and no other root that is lies deeper. -/
structure Deepest (roots : List (Str × Uuid)) (path : Str) (root : Str × Uuid) : Prop where
  mem : root ∈ roots
  above : components root.1 <+: components path
  deepest : ∀ other ∈ roots, components other.1 <+: components path →
    (components other.1).length ≤ (components root.1).length

/-- What a resolver is for: it finds the deepest root of each path, and no root by its text alone. -/
structure FindsDeepest (r : StatusResolver) : Prop where
  found : ∀ path id, r.findFolderForPath path = some id ↔
    ∃ root, Deepest r.folderRoots path root ∧ root.2 = id
  missed : ∀ path, r.findFolderForPath path = none ↔
    ∀ root ∈ r.folderRoots, ¬ components root.1 <+: components path
  sibling : ∀ root ∈ r.folderRoots, root.1 ≠ ['/'] → ∀ c rest, c ≠ '/' →
    startsWith (root.1 ++ c :: rest) root.1 = false

variable {s t path : Str} {r : StatusResolver} {root other : Str × Uuid}

/-! ## Bytes and components -/

lemma strLen_append (s t : Str) : strLen (s ++ t) = strLen s + strLen t := by
  induction s with
  | nil => simp [strLen]
  | cons c s ih =>
      simp only [List.cons_append, strLen, ih]
      omega

/-- Every character has a byte. -/
lemma strLen_lt_of_prefix (h : s <+: t) (hne : s ≠ t) : strLen s < strLen t := by
  obtain ⟨rest, rfl⟩ := h
  cases rest with
  | nil => exact absurd (List.append_nil s).symm hne
  | cons c rest =>
      have hc := Char.utf8Size_pos c
      rw [strLen_append, strLen]
      omega

/-- Of two normal paths above the same path the deeper one is the longer text. -/
lemma strLen_lt_of_deeper (hs : Normal s) (ht : Normal t) (hspath : components s <+: components path)
    (htpath : components t <+: components path)
    (hdeep : (components s).length < (components t).length) : strLen s < strLen t := by
  have hpre : components s <+: components t :=
    List.prefix_of_prefix_length_le hspath htpath (Nat.le_of_lt hdeep)
  refine strLen_lt_of_prefix (prefix_of_components hs ht hpre) ?_
  rintro rfl
  omega

/-! ## What is found -/

/-- There is one deepest root only. -/
lemma Deepest.unique (hnormal : ∀ root ∈ r.folderRoots, Normal root.1)
    (hdistinct : (r.folderRoots.map Prod.fst).Nodup) (h : Deepest r.folderRoots path root)
    (h' : Deepest r.folderRoots path other) : root = other := by
  have hlen : (components root.1).length = (components other.1).length :=
    Nat.le_antisymm (h'.deepest root h.mem h.above) (h.deepest other h'.mem h'.above)
  have hcomponents : components root.1 = components other.1 :=
    (List.prefix_of_prefix_length_le h.above h'.above hlen.le).eq_of_length hlen
  have htext := eq_of_components (hnormal root h.mem) (hnormal other h'.mem) hcomponents
  exact List.inj_on_of_nodup_map hdistinct h.mem h'.mem htext

/-- The root with the longest text is the deepest one. -/
lemma deepest_of_lastMax (hnormal : ∀ root ∈ r.folderRoots, Normal root.1)
    (h : Keyed.lastMax (fun root => strLen root.1)
      (r.folderRoots.filter (fun root => startsWith path root.1)) = some root) :
    Deepest r.folderRoots path root := by
  obtain ⟨hmem, habove⟩ := List.mem_filter.mp (Keyed.lastMax_mem h)
  refine ⟨hmem, startsWith_iff.mp habove, fun other hother hcovers => ?_⟩
  by_contra hdeep
  have hlonger := strLen_lt_of_deeper (hnormal root hmem) (hnormal other hother)
    (startsWith_iff.mp habove) hcovers (by omega)
  have hle := Keyed.lastMax_le h other
    (List.mem_filter.mpr ⟨hother, startsWith_iff.mpr hcovers⟩)
  omega

/-- **The longest root wins, and it is the deepest**: for distinct normal roots, in any order. -/
theorem findsDeepest (r : StatusResolver) (hnormal : ∀ root ∈ r.folderRoots, Normal root.1)
    (hdistinct : (r.folderRoots.map Prod.fst).Nodup) : FindsDeepest r where
  found path id := by
    constructor
    · intro hfind
      obtain ⟨root, hroot, hid⟩ := Option.map_eq_some_iff.mp hfind
      exact ⟨root, deepest_of_lastMax hnormal hroot, hid⟩
    · rintro ⟨root, hdeepest, rfl⟩
      cases hmax : Keyed.lastMax (fun root : Str × Uuid => strLen root.1)
          (r.folderRoots.filter (fun root => startsWith path root.1)) with
      | none =>
          have hnone := Keyed.lastMax_eq_none.mp hmax
          rw [List.filter_eq_nil_iff] at hnone
          exact absurd (startsWith_iff.mpr hdeepest.above) (hnone root hdeepest.mem)
      | some other =>
          have hother := deepest_of_lastMax hnormal hmax
          rw [StatusResolver.findFolderForPath, hmax, hdeepest.unique hnormal hdistinct hother]
          rfl
  missed path := by
    rw [findFolderForPath_eq_none, StatusResolver.Covers]
    simp only [startsWith_iff, not_exists, not_and]
  sibling root hroot hne c rest hc := by
    rw [← Bool.not_eq_true, startsWith_iff]
    exact not_components_prefix (hnormal root hroot) hne hc rest

/-- Nested roots, the outer one with the longer name behind it. -/
def nestedRoots : StatusResolver where
  syncStates _ := none
  folderRoots := [("/home/ünï".toList, 1), ("/home/ünï/b".toList, 2), ("/home/ünïcorn".toList, 3)]

/-- A root inside another one. -/
theorem nestedRoots_findsDeepest : FindsDeepest nestedRoots :=
  findsDeepest nestedRoots (by decide) (by decide)

example : nestedRoots.findFolderForPath "/home/ünï/bcd".toList = some 1 := by decide

end Shell

end OwncloudSync
