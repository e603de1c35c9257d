import Mathlib.Data.List.Infix
import Mathlib.Tactic.Common

/-!
# Paths as text, and where they lead

A path as the user writes it is a list of components, among them `.` and `..`; where it leads,
lexically, is a list of names, innermost first.  `components` cuts the text as
`std::path::Path` does on Unix: empty components and inner `.` disappear, a leading `.` and
every `..` stay.  `join` puts a path behind another one, **unless it is absolute**.

`resolve` walks the components, and `trail` is the list of all directories the walk passes: the
ones that making the path with its parents would make.
-/

namespace LexicalPath

/-- `std::path::Component`. -/
inductive Component where
  | rootDir
  | curDir
  | parentDir
  | normal (name : List Char)
  deriving DecidableEq

/-- The text cut at its slashes. -/
def splitSlash : List Char → List (List Char)
  | [] => [[]]
  | c :: cs =>
      if c = '/' then [] :: splitSlash cs
      else
        match splitSlash cs with
        | [] => [[c]]
        | s :: rest => (c :: s) :: rest

/-- A component behind the first one. -/
def inner (s : List Char) : Option Component :=
  if s = [] ∨ s = ['.'] then none
  else if s = ['.', '.'] then some .parentDir
  else some (.normal s)

/-- `Path::components`. -/
def components (s : List Char) : List Component :=
  match s, splitSlash s with
  | '/' :: _, parts => .rootDir :: parts.filterMap inner
  | _, ['.'] :: parts => .curDir :: parts.filterMap inner
  | _, parts => parts.filterMap inner

/-- `Path::join`: an absolute path replaces the one it is joined to. -/
def join (base rel : List Component) : List Component :=
  if rel.head? = some .rootDir then rel else base ++ rel.filter (· ≠ .curDir)

/-- `Path::join` on the text. -/
def joinText (base rel : List Char) : List Char :=
  if rel.head? = some '/' then rel
  else if base = [] ∨ base.getLast? = some '/' then base ++ rel
  else base ++ '/' :: rel

/-- `Path::file_name`. -/
def fileName (s : List Char) : Option (List Char) :=
  match (components s).getLast? with
  | some (.normal n) => some n
  | _ => none

/-- The path that leads to the given place, innermost name first. -/
def ofNames (p : List (List Char)) : List Component := .rootDir :: p.reverse.map .normal

/-- The name, if it is one. -/
def Component.name? : Component → Option (List Char)
  | normal n => some n
  | _ => none

/-- The names of a path that has no other components, innermost first. -/
def names? (cs : List Component) : Option (List (List Char)) :=
  (cs.mapM Component.name?).map List.reverse

/-- One component of the walk.  Above the root there is the root. -/
def step (cur : List (List Char)) : Component → List (List Char)
  | .rootDir => []
  | .curDir => cur
  | .parentDir => cur.tail
  | .normal n => n :: cur

/-- Where the path leads, `..` being resolved lexically. -/
def resolve (cs : List Component) : List (List Char) := cs.foldl step []

/-- Where a path leads as text, from a place that relative paths start at. -/
def place (cwd : List (List Char)) (s : List Char) : List (List Char) :=
  resolve (join (ofNames cwd) (components s))

/-- All places the walk passes, the start and the end among them. -/
def trail (cs : List Component) : List (List (List Char)) := cs.inits.map resolve

/-- The path with another last name; a path that ends in no name is left alone. -/
def mapLast (f : List Char → List Char) (cs : List Component) : List Component :=
  match cs.getLast? with
  | some (.normal n) => cs.dropLast ++ [.normal (f n)]
  | _ => cs

/-- The place is below the root, and not the root itself. -/
def Inside (root p : List (List Char)) : Prop := root <:+ p ∧ p ≠ root

instance (root p : List (List Char)) : Decidable (Inside root p) :=
  inferInstanceAs (Decidable (_ ∧ _))

variable {root p q : List (List Char)} {cs : List Component} {n m : List Char}

lemma resolve_concat (cs : List Component) (c : Component) :
    resolve (cs ++ [c]) = step (resolve cs) c := by
  rw [resolve, List.foldl_append]
  rfl

lemma mem_trail : p ∈ trail cs ↔ ∃ pre, pre <+: cs ∧ resolve pre = p := by
  simp [trail, List.mem_inits]

lemma ofNames_cons (n : List Char) (p : List (List Char)) :
    ofNames (n :: p) = ofNames p ++ [.normal n] := by
  simp [ofNames]

@[simp] lemma resolve_ofNames (p : List (List Char)) : resolve (ofNames p) = p := by
  induction p with
  | nil => rfl
  | cons n p ih => rw [ofNames_cons, resolve_concat, ih]; rfl

lemma join_ofNames (p : List (List Char)) (q : List (List Char)) :
    join (ofNames q) (p.reverse.map .normal) = ofNames (p ++ q) := by
  have hhead : (p.reverse.map Component.normal).head? ≠ some .rootDir := by
    cases p.reverse <;> simp
  have hkeep : (p.reverse.map Component.normal).filter (· ≠ .curDir) =
      p.reverse.map Component.normal := by
    rw [List.filter_eq_self]
    intro c hc
    obtain ⟨n, -, rfl⟩ := List.mem_map.mp hc
    simp
  rw [join, if_neg hhead, hkeep]
  simp [ofNames]

lemma eq_of_names? (h : names? cs = some p) : cs = p.reverse.map .normal := by
  obtain ⟨ns, hns, rfl⟩ := Option.map_eq_some_iff.mp h
  clear h
  rw [List.reverse_reverse]
  induction cs generalizing ns with
  | nil =>
      cases hns
      rfl
  | cons c cs ih =>
      cases c with
      | normal m =>
          simp only [List.mapM_cons, Component.name?, Option.pure_def, Option.bind_eq_bind,
            Option.bind_some, Option.bind_eq_some_iff, Option.some.injEq] at hns
          obtain ⟨ms, hms, rfl⟩ := hns
          rw [ih ms hms, List.map_cons]
      | _ => simp [Component.name?] at hns

/-- The way to a place passes the places above it, and no other. -/
lemma suffix_of_mem_trail (h : q ∈ trail (ofNames p)) : q <:+ p := by
  obtain ⟨pre, hpre, rfl⟩ := mem_trail.mp h
  clear h
  induction p with
  | nil =>
      rcases List.prefix_cons_iff.mp hpre with rfl | ⟨t, rfl, ht⟩
      · exact List.suffix_refl _
      · rw [show t = [] from List.prefix_nil.mp ht]
        exact List.suffix_refl _
  | cons n p ih =>
      rw [ofNames_cons] at hpre
      rcases List.prefix_concat_iff.mp hpre with rfl | hpre
      · rw [← ofNames_cons, resolve_ofNames]
      · exact (ih hpre).trans (List.suffix_cons n p)

lemma inside_append (hp : p ≠ []) : Inside root (p ++ root) := by
  refine ⟨List.suffix_append p root, fun h => hp ?_⟩
  exact List.append_left_eq_self.mp h

/-- A place next to one inside is inside. -/
lemma Inside.sibling (h : Inside root (n :: p)) : Inside root (m :: p) := by
  obtain ⟨hsuf, hne⟩ := h
  rcases List.suffix_cons_iff.mp hsuf with hroot | hroot
  · exact absurd hroot.symm hne
  · refine ⟨hroot.trans (List.suffix_cons m p), ?_⟩
    rintro rfl
    exact absurd (hroot.length_le) (by simp)

/-- Changing the last name of a path that leads inside keeps it inside. -/
lemma inside_mapLast {f : List Char → List Char} (h : Inside root (resolve cs)) :
    Inside root (resolve (mapLast f cs)) := by
  unfold mapLast
  split
  · rename_i n hn
    obtain ⟨ys, rfl⟩ := List.getLast?_eq_some_iff.mp hn
    rw [resolve_concat] at h
    rw [List.dropLast_concat, resolve_concat]
    exact h.sibling
  · exact h

/-! ## Paths as text -/

/-- The components behind a leading root or dot. -/
def body (s : List Char) : List Component := (splitSlash s).filterMap inner

lemma splitSlash_ne_nil (s : List Char) : splitSlash s ≠ [] := by
  cases s with
  | nil => simp [splitSlash]
  | cons c s =>
      rw [splitSlash]
      split
      · simp
      · split
        · simp
        · simp

/-- A text cut at one of its slashes. -/
lemma splitSlash_append (s t : List Char) :
    splitSlash (s ++ '/' :: t) = splitSlash s ++ splitSlash t := by
  induction s with
  | nil => simp [splitSlash]
  | cons c s ih =>
      rw [List.cons_append, splitSlash, splitSlash]
      by_cases hc : c = '/'
      · rw [if_pos hc, if_pos hc, ih]
        rfl
      · rw [if_neg hc, if_neg hc, ih]
        obtain ⟨x, xs, hx⟩ := List.exists_cons_of_ne_nil (splitSlash_ne_nil s)
        rw [hx]
        rfl

lemma body_append (s t : List Char) : body (s ++ '/' :: t) = body s ++ body t := by
  rw [body, splitSlash_append, List.filterMap_append]
  rfl

lemma body_isInner {c : Component} {s : List Char} (h : c ∈ body s) :
    c ≠ .rootDir ∧ c ≠ .curDir := by
  obtain ⟨x, -, hx⟩ := List.mem_filterMap.mp h
  unfold inner at hx
  split at hx
  · cases hx
  · split at hx
    · cases hx
      simp
    · cases hx
      simp

/-- The components of a text: its body, behind a root or a dot if it begins with one. -/
lemma components_eq (s : List Char) : components s =
    (if s.head? = some '/' then [.rootDir]
      else if (splitSlash s).head? = some ['.'] then [.curDir] else []) ++ body s := by
  by_cases hhead : s.head? = some '/'
  · obtain ⟨rest, rfl⟩ := List.head?_eq_some_iff.mp hhead
    rw [if_pos hhead]
    rfl
  · have hnot : ∀ rest, s = '/' :: rest → False := fun rest h => hhead (by rw [h]; rfl)
    rw [if_neg hhead]
    by_cases hdot : (splitSlash s).head? = some ['.']
    · obtain ⟨parts, hparts⟩ := List.head?_eq_some_iff.mp hdot
      rw [if_pos hdot, components.eq_2 s parts hnot hparts, body, hparts, List.filterMap_cons]
      rfl
    · rw [if_neg hdot, List.nil_append]
      exact components.eq_3 s hnot (fun parts h => hdot (by rw [h]; rfl))

/-- A path begins with the components of what stands before one of its slashes. -/
lemma components_prefix_append (s t : List Char) : components s <+: components (s ++ '/' :: t) := by
  rw [components_eq, components_eq, body_append, splitSlash_append]
  cases s with
  | nil => exact List.nil_prefix
  | cons c s =>
      have hhead : (splitSlash (c :: s) ++ splitSlash t).head? = (splitSlash (c :: s)).head? := by
        obtain ⟨x, xs, hx⟩ := List.exists_cons_of_ne_nil (splitSlash_ne_nil (c :: s))
        rw [hx]
        rfl
      rw [List.cons_append, List.head?_cons, List.head?_cons, hhead, ← List.append_assoc]
      exact List.prefix_append _ _

/-- A path leads where its body leads, from the root if it is absolute. -/
lemma place_eq (cwd : List (List Char)) (s : List Char) :
    place cwd s = (body s).foldl step (if s.head? = some '/' then [] else cwd) := by
  have hkeep : (body s).filter (· ≠ .curDir) = body s :=
    List.filter_eq_self.mpr (fun c hc => decide_eq_true (body_isInner hc).2)
  have hroot : (body s).head? ≠ some .rootDir :=
    fun h => (body_isInner (List.mem_of_head? h)).1 rfl
  rw [place, components_eq]
  by_cases habs : s.head? = some '/'
  · rw [if_pos habs, if_pos habs, join, List.singleton_append, List.head?_cons, if_pos rfl]
    rfl
  · rw [if_neg habs, if_neg habs]
    have hjoin : join (ofNames cwd) ((if (splitSlash s).head? = some ['.'] then [.curDir] else []) ++
        body s) = ofNames cwd ++ body s := by
      split
      · rw [join, if_neg (by simp), List.filter_append, hkeep]
        rfl
      · rw [join, List.nil_append, if_neg hroot, hkeep]
    rw [hjoin, resolve, List.foldl_append]
    exact congrArg (fun x => (body s).foldl step x) (resolve_ofNames cwd)

/-- **A joined path leads where its second part leads from the first.** -/
theorem place_joinText (cwd : List (List Char)) (base rel : List Char) :
    place cwd (joinText base rel) = place (place cwd base) rel := by
  by_cases habs : rel.head? = some '/'
  · rw [joinText, if_pos habs, place_eq, place_eq, if_pos habs, if_pos habs]
  · -- the text up to the slash before the second part
    obtain rfl | ⟨b, hb, hbody, hhead⟩ : base = [] ∨ ∃ b, joinText base rel = b ++ '/' :: rel ∧
        body b = body base ∧ (b ++ '/' :: rel).head? = base.head? := by
      by_cases hbase : base = []
      · exact Or.inl hbase
      · refine Or.inr ?_
        by_cases hlast : base.getLast? = some '/'
        · obtain ⟨b, rfl⟩ := List.getLast?_eq_some_iff.mp hlast
          refine ⟨b, ?_, ?_, ?_⟩
          · rw [joinText, if_neg habs, if_pos (Or.inr hlast), List.append_assoc]
            rfl
          · rw [body_append]
            simp [body, splitSlash, inner]
          · cases b <;> rfl
        · refine ⟨base, ?_, rfl, ?_⟩
          · rw [joinText, if_neg habs, if_neg (by simp [hbase, hlast])]
          · obtain ⟨c, cs, rfl⟩ := List.exists_cons_of_ne_nil hbase
            rfl
    · have hstart : place cwd [] = cwd := place_eq cwd []
      rw [joinText, if_neg habs, if_pos (Or.inl rfl), List.nil_append, hstart]
    · rw [hb, place_eq, place_eq (place cwd base), place_eq cwd base, if_neg habs, hhead,
        body_append, hbody, List.foldl_append]

end LexicalPath
