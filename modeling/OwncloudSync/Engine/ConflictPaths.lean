import OwncloudSync.Engine.Names
import OwncloudSync.Lib.NormalPath
import Mathlib.Tactic.Common

/-!
# Conflict paths

`make_conflict_path` (`engine.rs`) on any path as text: stem and extension of the file name, the
current second between them, and the new name joined to the parent.  Paths are compared by their
components, so what it returns is a list of components.

The name that is made has just one component, and the stem and the extension can be read off it again
(`components_conflictName`, `rsplitFileAtDot_conflictName`); so different files get different paths in
the same second, also where a name holds the marker itself (`conflictsApart`).  `makeConflictPath_ofNames`
says that this is the `conflictPath` of the model in names.
-/

namespace OwncloudSync

open LexicalPath FileName

/-! ## The code -/

/-- `Path::parent`, on the components. -/
def parent (cs : List Component) : Option (List Component) :=
  match cs.getLast? with
  | none => none
  | some .rootDir => none
  | some _ => some cs.dropLast

/-- `Path::join`; behind an empty path the other one is as it is. -/
def joined (base rel : List Component) : List Component := if base = [] then rel else join base rel

/-- `make_conflict_path`.  A path without a file name has no stem, and its text is taken. -/
def makeConflictPath (original : Str) (ts : ℕ) : List Component :=
  let stem := ((fileName original).map fileStem).getD original
  let ext := (fileName original).bind extension
  let conflict_name :=
    match ext with
    | some e => stem ++ "_conflict_".toList ++ Nat.toDigits 10 ts ++ '.' :: e
    | none => stem ++ "_conflict_".toList ++ Nat.toDigits 10 ts
  match parent (components original) with
  | some p => joined p (components conflict_name)
  | none => components conflict_name

/-- The copy of a file stands beside it, is called after it, and is not the file itself. -/
structure BesideIt (original : Str) (copy : List Component) : Prop where
  differs : copy ≠ components original
  sameParent : parent copy = parent (components original)
  name : ∃ n m, fileName original = some n ∧ copy.getLast? = some (.normal m) ∧
    extension m = extension n ∧ fileStem n <+: fileStem m

/-- The conflict paths of one second keep apart what is apart. -/
structure ConflictsApart (ts : ℕ) : Prop where
  injective : ∀ p q n m, fileName p = some n → fileName q = some m → components p ≠ components q →
    makeConflictPath p ts ≠ makeConflictPath q ts
  beside : ∀ p n, fileName p = some n → BesideIt p (makeConflictPath p ts)

variable {s p q : Str} {n m : Name} {ts : ℕ}

/-! ## Names -/

/-- What is a component by itself. -/
def IsName (n : Name) : Prop := '/' ∉ n ∧ n ≠ [] ∧ n ≠ ['.'] ∧ n ≠ ['.', '.']

lemma inner_normal {part : Str} (h : LexicalPath.inner part = some (.normal n)) :
    part = n ∧ n ≠ [] ∧ n ≠ ['.'] ∧ n ≠ ['.', '.'] := by
  unfold LexicalPath.inner at h
  split at h
  · cases h
  · rename_i hpart
    split at h
    · cases h
    · rename_i hdots
      cases h
      rw [not_or] at hpart
      exact ⟨rfl, hpart.1, hpart.2, hdots⟩

lemma isName_of_mem_body (h : .normal n ∈ body s) : IsName n := by
  obtain ⟨part, hmem, hpart⟩ := List.mem_filterMap.mp h
  obtain ⟨rfl, hne⟩ := inner_normal hpart
  rw [splitSlash_eq_splitOn] at hmem
  exact ⟨Text.not_mem_of_mem_splitOn hmem, hne⟩

lemma getLast?_of_fileName (h : fileName s = some n) : (components s).getLast? = some (.normal n) := by
  unfold fileName at h
  split at h
  · rename_i m hm
    rw [hm, Option.some.inj h]
  · cases h

lemma isName_of_fileName (h : fileName s = some n) : IsName n := by
  have hmem := List.mem_of_getLast? (getLast?_of_fileName h)
  rw [components_eq, List.mem_append] at hmem
  rcases hmem with hfront | hbody
  · -- what stands in front is no name
    split at hfront
    · simp at hfront
    · split at hfront
      · simp at hfront
      · simp at hfront
  · exact isName_of_mem_body hbody

/-- A name is a path of one component. -/
lemma components_of_isName (h : IsName n) : components n = [.normal n] := by
  have hhead : n.head? ≠ some '/' := fun hslash => h.1 (List.mem_of_head? hslash)
  rw [components_eq, if_neg hhead, splitSlash_of_not_mem h.1, List.head?_cons,
    if_neg (by simpa using h.2.2.1), body, splitSlash_of_not_mem h.1, List.filterMap_cons, LexicalPath.inner,
    if_neg (by simp [h.2.1, h.2.2.1]), if_neg h.2.2.2]
  rfl

/-- The marker has an underscore, which no dots have. -/
lemma isName_conflictName (h : '/' ∉ n) : IsName (conflictName n ts) := by
  have hdigits : '/' ∉ Nat.toDigits 10 ts := by
    intro hmem
    have hdigit := Nat.isDigit_of_mem_toDigits (by decide) (by decide) hmem
    exact absurd hdigit (by decide)
  have hmarker : '_' ∈ conflictName n ts := by
    unfold conflictName
    split <;> simp
  refine ⟨fun hmem => ?_, ?_, ?_, ?_⟩
  · rcases mem_conflictName hmem with hn | hm | hd
    · exact h hn
    · exact absurd hm (by decide)
    · exact hdigits hd
  all_goals
    intro hname
    rw [hname] at hmarker
    revert hmarker
    decide

/-- **The name that is made has one component.** -/
lemma components_conflictName (h : '/' ∉ n) :
    components (conflictName n ts) = [.normal (conflictName n ts)] :=
  components_of_isName (isName_conflictName h)

/-! ## Paths -/

lemma components_of_fileName (h : fileName s = some n) :
    components s = (components s).dropLast ++ [.normal n] :=
  (List.dropLast_append_getLast? _ (getLast?_of_fileName h)).symm

lemma parent_concat (cs : List Component) (n : Name) : parent (cs ++ [.normal n]) = some cs := by
  rw [parent, List.getLast?_concat]
  simp

/-- The path is the parent, and the name that is made. -/
lemma makeConflictPath_eq (h : fileName s = some n) : makeConflictPath s ts =
    (components s).dropLast ++ [.normal (conflictName n ts)] := by
  have hparent : parent (components s) = some (components s).dropLast := by
    conv_lhs => rw [components_of_fileName h]
    exact parent_concat _ _
  have hname : makeConflictPath s ts =
      joined (components s).dropLast (components (conflictName n ts)) := by
    rw [makeConflictPath, hparent, h]
    rfl
  rw [hname, components_conflictName (isName_of_fileName h).1, joined]
  split
  · rename_i hnil
    rw [hnil, List.nil_append]
  · rw [join, if_neg (by simp)]
    rfl

/-- **Conflict paths of one second**: different files get different paths, each beside its file. -/
theorem conflictsApart (ts : ℕ) : ConflictsApart ts where
  injective p q n m hp hq hne h := by
    rw [makeConflictPath_eq hp, makeConflictPath_eq hq] at h
    obtain ⟨hparent, hlast⟩ := List.append_inj' h rfl
    have hname : conflictName n ts = conflictName m ts := by simpa using hlast
    obtain ⟨rfl, -⟩ := conflictName_inj (isName_of_fileName hp).2.2.2 (isName_of_fileName hq).2.2.2 hname
    apply hne
    rw [components_of_fileName hp, components_of_fileName hq, hparent]
  beside p n hp := by
    have hcut := rsplitFileAtDot_conflictName (n := n) ts (isName_of_fileName hp).2.2.2
    refine ⟨?_, ?_, n, conflictName n ts, hp, ?_, ?_, ?_⟩
    · rw [makeConflictPath_eq hp]
      conv_rhs => rw [components_of_fileName hp]
      intro h
      have hname : conflictName n ts = n := by simpa using (List.append_inj' h rfl).2
      exact conflictName_ne hname
    · rw [makeConflictPath_eq hp, parent_concat]
      conv_rhs => rw [components_of_fileName hp]
      rw [parent_concat]
    · rw [makeConflictPath_eq hp, List.getLast?_concat]
    · exact extension_conflictName (isName_of_fileName hp).2.2.2
    · have hstem : fileStem (conflictName n ts) =
          fileStem n ++ ("_conflict_".toList ++ Nat.toDigits 10 ts) := by
        rw [← List.append_assoc]
        exact congrArg Prod.fst hcut
      rw [hstem]
      exact List.prefix_append _ _

/-- On a path of names it is the `conflictPath` of the engine. -/
theorem makeConflictPath_ofNames {place : Path} (hs : components s = ofNames (n :: place)) :
    makeConflictPath s ts = ofNames (conflictPath (n :: place) ts) := by
  rw [ofNames_cons] at hs
  have hname : fileName s = some n := by rw [fileName, hs, List.getLast?_concat]
  rw [makeConflictPath_eq hname, hs, List.dropLast_concat, conflictPath, ofNames_cons]

example : makeConflictPath "/s/.profile".toList 7 =
    components "/s/.profile_conflict_7".toList := by decide

example : makeConflictPath "a_conflict_7.tar.gz".toList 7 =
    components "a_conflict_7.tar_conflict_7.gz".toList := by decide

end OwncloudSync
