import OwncloudSync.Discovery.Propfind
import OwncloudSync.Engine.Env
import OwncloudSync.Engine.Reconcile
import OwncloudSync.Lib.LexicalPath
import Mathlib.Tactic.Common

/-!
# Which places a run touches

`run_sync` once more, this time over the paths as the server spells them.  The keys of its maps
are `Utf8PathBuf`s, which compare by components, so a key is a list of components; `local_root`
is an absolute path without `.` and `..`.

`touches` lists the places that the operation of a key creates, writes, renames or deletes,
`..` resolved lexically.  Nothing between `parse_propfind` and `local_root.join` looks at the
components, and `relPath` decodes last: **`%2e%2e` and `%2F` come back as `..` and `/`**.
`contained_iff` says which listings keep a run below its root all the same.
-/

namespace OwncloudSync

open PathTree LexicalPath

/-- What a run meets on its own side: the listing of `discover_local`, the baselines, the clock,
and the directories `create_dir_all` finds.  `local_root` has been walked, so it is there. -/
structure Host (root : Path) where
  listing : Path → Option LocalEntry
  journal : List Component → Option JournalBaseline
  strategy : ConflictStrategy
  clock : ℕ
  isDirectory : Path → Bool
  root_isDirectory : ∀ n, n <:+ root → isDirectory n = true

/-- `local_map.get`.  The walk lists what is below the root, by names. -/
def localOf {root : Path} (host : Host root) (key : List Component) : Option LocalEntry :=
  match names? key with
  | some (n :: p) => host.listing (n :: p)
  | _ => none

/-- `remote_map.get`: of the entries with an equal path the last one. -/
def remoteOf (entries : List RemoteEntry) (key : List Component) : Option RemoteEntry :=
  entries.reverse.find? (fun e => components e.path = key)

/-- What `create_dir_all` makes on the way. -/
def created {root : Path} (host : Host root) (path : List Component) : List Path :=
  (trail path).filter (fun n => !host.isDirectory n)

/-- What `propagate_download` touches: the parents, the temp file and the destination. -/
def downloadTouches {root : Path} (host : Host root) (dest : List Component) : List Path :=
  created host dest.dropLast ++ [resolve (mapLast tmpName dest), resolve dest]

/-- What the operation of a key touches.  Uploads and remote deletes leave the disk alone, and
a directory has no conflict operation. -/
def touches {root : Path} (host : Host root) (entries : List RemoteEntry)
    (key : List Component) : List Path :=
  let loc := localOf host key
  let rem := remoteOf entries key
  let isDir := ((loc.map (·.isDir)).or (rem.map (·.isDir))).getD false
  let localPath := join (ofNames root) key
  match isDir, reconcile loc rem (host.journal key) host.strategy with
  | true, .download => created host localPath
  | false, .download => downloadTouches host localPath
  | false, .conflict =>
      resolve localPath :: resolve (mapLast (conflictName · host.clock) localPath) ::
        downloadTouches host localPath
  | _, .deleteLocal => [resolve localPath]
  | _, _ => []

/-- The same for a whole run, from the answers of the server.  A failed discovery ends it. -/
def runTouches {root : Path} (host : Host root) (enc : Str → Str) (spaceRoot : Str)
    (replies : List Reply) (key : List Component) : List Path :=
  match discoverRemote enc spaceRoot replies with
  | .ok entries => touches host entries key
  | .error _ => []

/-- Everything a run touches lies below its root, whatever it meets. -/
def Contained (root : Path) (enc : Str → Str) (spaceRoot : Str) (replies : List Reply) : Prop :=
  ∀ (host : Host root) (key : List Component),
    ∀ n ∈ runTouches host enc spaceRoot replies key, Inside root n

/-- A listed path that does no harm: on its way from the root it meets only what is above or
below the root, and a file also ends below it. -/
def Harmless (root : Path) (e : RemoteEntry) : Prop :=
  let localPath := join (ofNames root) (components e.path)
  if e.isDir then ∀ n ∈ trail localPath, n <:+ root ∨ root <:+ n
  else (∀ n ∈ trail localPath.dropLast, n <:+ root ∨ root <:+ n) ∧ Inside root (resolve localPath)

/-- The answers list no other path. -/
def HarmlessListing (root : Path) (enc : Str → Str) (spaceRoot : Str) (replies : List Reply) :
    Prop :=
  ∀ entries, discoverRemote enc spaceRoot replies = .ok entries →
    ∀ key e, remoteOf entries key = some e → Harmless root e

variable {root : Path} {host : Host root} {entries : List RemoteEntry} {key : List Component}
  {e : RemoteEntry} {l : LocalEntry} {p n : Path} {path : List Component}

/-! ## Keys -/

lemma key_of_remoteOf (h : remoteOf entries key = some e) : components e.path = key := by
  simpa using List.find?_some h

/-- A path that the local side has leads below the root, along its own names. -/
lemma path_of_localOf (h : localOf host key = some l) :
    ∃ p, p ≠ [] ∧ join (ofNames root) key = ofNames (p ++ root) := by
  unfold localOf at h
  split at h
  · rename_i m p hp
    refine ⟨m :: p, by simp, ?_⟩
    rw [eq_of_names? hp, join_ofNames]
  · cases h

/-! ## What is touched -/

/-- New directories on a harmless way are below the root: those above are there already. -/
lemma inside_of_created (hway : ∀ n ∈ trail path, n <:+ root ∨ root <:+ n)
    (h : n ∈ created host path) : Inside root n := by
  obtain ⟨hn, hnew⟩ := List.mem_filter.mp h
  have hnot : ¬ n <:+ root := by
    intro hup
    rw [host.root_isDirectory n hup] at hnew
    cases hnew
  refine ⟨(hway n hn).resolve_left hnot, ?_⟩
  rintro rfl
  exact hnot (List.suffix_refl n)

lemma inside_of_downloadTouches (hway : ∀ n ∈ trail path.dropLast, n <:+ root ∨ root <:+ n)
    (hend : Inside root (resolve path)) (h : n ∈ downloadTouches host path) : Inside root n := by
  rcases List.mem_append.mp h with hdir | hfile
  · exact inside_of_created hway hdir
  · simp only [List.mem_cons, List.not_mem_nil, or_false] at hfile
    rcases hfile with rfl | rfl
    · exact inside_mapLast hend
    · exact hend

/-- The way along names from the root meets nothing beside it. -/
lemma way_of_names (h : n ∈ trail (ofNames (p ++ root))) : n <:+ root ∨ root <:+ n :=
  List.suffix_or_suffix_of_suffix (suffix_of_mem_trail h) (List.suffix_append p root)

lemma way_of_parent (hway : ∀ n ∈ trail path, n <:+ root ∨ root <:+ n)
    (h : n ∈ trail path.dropLast) : n <:+ root ∨ root <:+ n := by
  obtain ⟨pre, hpre, rfl⟩ := mem_trail.mp h
  exact hway _ (mem_trail.mpr ⟨pre, hpre.trans (List.dropLast_prefix path), rfl⟩)

/-- Along a harmless way that ends below the root, every operation stays below the root. -/
lemma inside_of_touches (hway : ∀ n ∈ trail (join (ofNames root) key), n <:+ root ∨ root <:+ n)
    (hend : Inside root (resolve (join (ofNames root) key)))
    (h : n ∈ touches host entries key) : Inside root n := by
  have hdown : ∀ n ∈ downloadTouches host (join (ofNames root) key), Inside root n :=
    fun n hn => inside_of_downloadTouches (fun m hm => way_of_parent hway hm) hend hn
  simp only [touches] at h
  split at h
  · exact inside_of_created hway h
  · exact hdown n h
  · rcases List.mem_cons.mp h with rfl | h
    · exact hend
    · rcases List.mem_cons.mp h with rfl | h
      · exact inside_mapLast hend
      · exact hdown n h
  · rw [List.mem_singleton.mp h]
    exact hend
  · cases h

/-- A path that only the server has is downloaded, deleted there, or left alone. -/
lemma touches_of_remote (hloc : localOf host key = none) (hrem : remoteOf entries key = some e) :
    touches host entries key =
      if host.journal key = none then
        if e.isDir then created host (join (ofNames root) key)
        else downloadTouches host (join (ofNames root) key)
      else [] := by
  cases hj : host.journal key with
  | none =>
      cases hd : e.isDir <;> simp [touches, hloc, hrem, hj, hd, reconcile]
  | some b =>
      cases hd : e.isDir <;> simp [touches, hloc, hrem, hj, hd, reconcile]

lemma touches_of_neither (hloc : localOf host key = none) (hrem : remoteOf entries key = none) :
    touches host entries key = [] := by
  simp [touches, hloc, hrem, reconcile]

/-- The local side is empty, nothing was synced yet, and above the root there is nothing but
the way to it. -/
def freshHost (root : Path) : Host root where
  listing := fun _ => none
  journal := fun _ => none
  strategy := .keepBoth
  clock := 0
  isDirectory := fun n => decide (n <:+ root)
  root_isDirectory := fun n hn => by simpa using hn

lemma localOf_freshHost : localOf (freshHost root) key = none := by
  unfold localOf
  split <;> rfl

lemma mem_created_freshHost (h : n ∈ trail path) (hnew : ¬ n <:+ root) :
    n ∈ created (freshHost root) path :=
  List.mem_filter.mpr ⟨h, by simpa [freshHost] using hnew⟩

/-- Where a fresh host is safe, the listed path is harmless. -/
lemma harmless_of_freshHost (hrem : remoteOf entries key = some e)
    (h : ∀ n ∈ touches (freshHost root) entries key, Inside root n) : Harmless root e := by
  have hkey := key_of_remoteOf hrem
  have hnew : (freshHost root).journal key = none := rfl
  rw [touches_of_remote localOf_freshHost hrem, if_pos hnew] at h
  simp only [Harmless, hkey]
  cases hd : e.isDir with
  | true =>
      rw [hd, if_pos rfl] at h
      rw [if_pos rfl]
      intro n hn
      by_cases hup : n <:+ root
      · exact Or.inl hup
      · exact Or.inr (h n (mem_created_freshHost hn hup)).1
  | false =>
      rw [hd, if_neg Bool.false_ne_true] at h
      rw [if_neg Bool.false_ne_true]
      refine ⟨fun n hn => ?_, h _ (List.mem_append_right _ (by simp))⟩
      by_cases hup : n <:+ root
      · exact Or.inl hup
      · exact Or.inr (h n (List.mem_append_left _ (mem_created_freshHost hn hup))).1

/-- From a listing of harmless paths nothing outside is touched. -/
lemma inside_of_harmless (hsafe : ∀ e, remoteOf entries key = some e → Harmless root e)
    (h : n ∈ touches host entries key) : Inside root n := by
  cases hloc : localOf host key with
  | some l =>
      -- what the local side has is spelled with names, whatever the server lists
      obtain ⟨p, hp, hpath⟩ := path_of_localOf hloc
      refine inside_of_touches ?_ ?_ h
      · rw [hpath]
        exact fun n hn => way_of_names hn
      · rw [hpath, resolve_ofNames]
        exact inside_append hp
  | none =>
      cases hrem : remoteOf entries key with
      | none =>
          rw [touches_of_neither hloc hrem] at h
          cases h
      | some e =>
          have hgood := hsafe e hrem
          simp only [Harmless, key_of_remoteOf hrem] at hgood
          rw [touches_of_remote hloc hrem] at h
          split at h
          · split at h
            · rename_i hd
              rw [if_pos hd] at hgood
              exact inside_of_created hgood h
            · rename_i hd
              rw [if_neg hd] at hgood
              exact inside_of_downloadTouches hgood.1 hgood.2 h
          · cases h

/-- A run stays below its root exactly when the server lists harmless paths only. -/
theorem contained_iff (root : Path) (enc : Str → Str) (spaceRoot : Str) (replies : List Reply) :
    Contained root enc spaceRoot replies ↔ HarmlessListing root enc spaceRoot replies := by
  constructor
  · intro h entries hok key e hrem
    refine harmless_of_freshHost hrem fun n hn => h (freshHost root) key n ?_
    rw [runTouches, hok]
    exact hn
  · intro h host key n hn
    unfold runTouches at hn
    split at hn
    · rename_i entries hok
      exact inside_of_harmless (h entries hok key) hn
    · cases hn

/-- An answer that lists one file, whose `href` spells `..` with percent signs. -/
def climbingAnswer : List Reply :=
  [.answer 207
    [.start "multistatus".toList, .start "response".toList, .start "href".toList,
      .text "/dav/spaces/x/%2e%2e/evil.txt".toList, .close "href".toList,
      .close "response".toList, .close "multistatus".toList]]

/-- The file of that answer is written beside `local_root`. -/
theorem climbing_not_contained :
    ¬ Contained ["sync".toList, "home".toList] id "/dav/spaces/x/".toList climbingAnswer := by
  intro h
  have hevil := h (freshHost _) [.parentDir, .normal "evil.txt".toList]
    ["evil.txt".toList, "home".toList] (by decide +kernel)
  revert hevil
  decide

end OwncloudSync
