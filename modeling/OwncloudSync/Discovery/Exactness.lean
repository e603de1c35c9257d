import OwncloudSync.Discovery.HonestListing
import OwncloudSync.Discovery.RemoteWalk
import Mathlib.Data.List.Perm.Subperm
import Mathlib.Tactic.Common

/-!
# The discovery is exact

On an honest server the walk of the space finds every resource once.  Each collection is asked for
under the URL that its path makes, whatever its hrefs look like, so the listings of a run are those of
different collections (`collectionUrl_injective`); a collection that lists itself in another spelling
is taken for one of its members, but its path has been seen before.

`Explored` is what holds after each answer; `discovery_exact` is what is left when the queue is empty.
It needs texts without blanks around them: a name that ends in a blank comes back without it
(`padded_not_exact`).
-/

namespace OwncloudSync

namespace Dav

/-- The URL of a collection, by its path. -/
def collectionUrl (β : SegmentBytes) (segs : List Str) (p : List Str) : Str :=
  if p = [] then pathText segs
  else pathText (rootSegments segs ++ p.map (encodeSegment β)) ++ ['/']

/-- **A server that has a tree of resources and lists them honestly.** -/
structure Server (β : SegmentBytes) (segs : List Str) (tree : Tree) where
  serve : Str → PropfindExchange
  body : List Str → List Item
  answers : ∀ p, tree.IsCollection p → ∃ millis bytes, serve (collectionUrl β segs p) =
    .answered 207 millis (.ok (bytes, (body p).flatMap Item.events))
  lists : ∀ p, tree.IsCollection p → Lists (pathText segs) tree p (body p)

/-- The first `n` answers of a walk. -/
def answers (join : Str → Option Str) (spaceRoot : Str) (serve : Str → PropfindExchange) :
    ℕ → Walk → List PropfindExchange
  | 0, _ => []
  | n + 1, ω =>
      match ω.queue with
      | [] => []
      | url :: _ => serve url :: answers join spaceRoot serve n (ω.round join spaceRoot (serve url)).2

/-- The discovery returns one entry for each resource below the space, and no other, once the server
has answered for each of them. -/
def Exact {β : SegmentBytes} {segs : List Str} {tree : Tree} (root : ParsedUrl)
    (σ : Server β segs tree) : Prop :=
  ∀ n > tree.resources.length, ∀ httpEvents, ∃ entries ω,
    discoverWalk (root.joinPath β) root.path.text
        (answers (root.joinPath β) root.path.text σ.serve n (Walk.start root.path.text httpEvents))
        (Walk.start root.path.text httpEvents) = (some (.ok entries), ω) ∧
      entries.Perm (tree.resources.map entry)

/-- No text is padded with blanks. -/
def Server.Unpadded {β : SegmentBytes} {segs : List Str} {tree : Tree} (σ : Server β segs tree) :
    Prop :=
  ∀ p, tree.IsCollection p → Dav.Unpadded (σ.body p)

variable {β : SegmentBytes} {segs : List Str} {root : ParsedUrl} {tree : Tree} {p q : List Str}
  {x : List Str × Resource} {ω : Walk}

/-! ## Names and URLs -/

lemma Tree.names_of_isCollection (h : tree.IsCollection p) : ∀ c ∈ p, EntryName c ∧ TabFree c := by
  rcases h with rfl | ⟨ρ, hmem, -⟩
  · simp
  · exact tree.named _ hmem

/-- What holds a resource is a collection. -/
lemma Tree.parent_isCollection (hx : x ∈ tree.resources) : tree.IsCollection x.1.dropLast := by
  by_cases hnil : x.1.dropLast = []
  · exact .inl hnil
  · obtain ⟨y, hy, hpath, hdir⟩ := tree.parent x hx hnil
    exact .inr ⟨y.2, by rw [← hpath]; exact hy, hdir⟩

/-- A resource is known by its path. -/
lemma Tree.eq_of_pathOf {y : List Str × Resource} (hx : x ∈ tree.resources)
    (hy : y ∈ tree.resources) (h : pathOf x.1 = pathOf y.1) : x = y :=
  List.inj_on_of_nodup_map tree.nodup hx hy
    (pathOf_injective (fun c hc => (tree.named x hx c hc).1) (fun c hc => (tree.named y hy c hc).1) h)

lemma encoded_names (h : ∀ c ∈ p, EntryName c) :
    ∀ t ∈ p.map (encodeSegment β), t ≠ [] ∧ '/' ∉ t := by
  intro t ht
  obtain ⟨c, hc, rfl⟩ := List.mem_map.mp ht
  exact ⟨encodeSegment_ne_nil (h c hc).ne_nil, slash_not_mem_encodeSegment _⟩

/-- The URL of a path does not end with a slash. -/
lemma pathText_ends (β : SegmentBytes) (segs : List Str) (hne : p ≠ []) (h : ∀ c ∈ p, EntryName c) :
    pathText (rootSegments segs ++ p.map (encodeSegment β)) ≠ [] ∧
      (pathText (rootSegments segs ++ p.map (encodeSegment β))).getLast? ≠ some '/' := by
  obtain ⟨c, cs, rfl⟩ := List.exists_cons_of_ne_nil hne
  have hts := encoded_names (β := β) h
  have htext : pathText ((c :: cs).map (encodeSegment β)) =
      '/' :: List.intercalate ['/'] ((c :: cs).map (encodeSegment β)) := by
    rw [pathText, List.flatMap_map]
    exact flatMap_slash (encodeSegment β) c cs
  have hne' := intercalate_ne_nil (fun t ht => (hts t ht).1) (by simp)
  have hlast := (ends_intercalate hts).2
  rw [pathText_append, htext]
  refine ⟨List.append_ne_nil_of_right_ne_nil _ (List.cons_ne_nil _ _), ?_⟩
  obtain ⟨d, ds, hd⟩ := List.exists_cons_of_ne_nil hne'
  rw [hd] at hlast ⊢
  rwa [List.getLast?_append_of_ne_nil _ (List.cons_ne_nil _ _), List.getLast?_cons_cons]

lemma trimEndSlash_collectionUrl (hne : p ≠ []) (h : ∀ c ∈ p, EntryName c) :
    trimEndSlash (collectionUrl β segs p) =
      pathText (rootSegments segs ++ p.map (encodeSegment β)) := by
  obtain ⟨htext, hlast⟩ := pathText_ends β segs hne h
  have htrim := trimEndSlash_append [] htext hlast
  rw [List.nil_append] at htrim
  rw [collectionUrl, if_neg hne, trimEndSlash_concat, htrim]

/-- **The names are found again in the URL.** -/
lemma decode_collectionUrl (β : SegmentBytes) (segs : List Str) (h : ∀ c ∈ p, EntryName c) :
    decodeHrefPath (behind (pathText segs) (trimEndSlash (collectionUrl β segs p))) = pathOf p := by
  by_cases hne : p = []
  · subst hne
    have hstrip := stripPrefix_append (trimEndSlash (pathText segs)) []
    rw [List.append_nil] at hstrip
    rw [collectionUrl, if_pos rfl, behind, hstrip]
    exact decodeHrefPath_nil
  · rw [trimEndSlash_collectionUrl hne h]
    have hbelow : below segs (pathText (rootSegments segs ++ p.map (encodeSegment β))) =
        List.intercalate ['/'] (p.map (encodeSegment β)) :=
      below_pathText (encoded_names h) (by simpa using hne)
    rw [below] at hbelow
    rw [behind, hbelow, decodeHrefPath_encodeSegments]
    rfl

/-- Different collections have different URLs, up to slashes at their ends. -/
lemma collectionUrl_injective {β : SegmentBytes} {segs : List Str} (hp : ∀ c ∈ p, EntryName c)
    (hq : ∀ c ∈ q, EntryName c)
    (h : trimEndSlash (collectionUrl β segs p) = trimEndSlash (collectionUrl β segs q)) : p = q := by
  refine pathOf_injective hp hq ?_
  rw [← decode_collectionUrl β segs hp, h, decode_collectionUrl β segs hq]

/-- What `join_remote_path` makes of the path of a collection. -/
lemma joinPath_pathOf (hpath : root.path = .segments segs) (hne : p ≠ [])
    (h : ∀ c ∈ p, EntryName c ∧ TabFree c) :
    (root.joinPath β (pathOf p)).map withSlash = some (collectionUrl β segs p) := by
  have hnames : ∀ c ∈ p, EntryName c := fun c hc => (h c hc).1
  have hsolid : ∀ c ∈ p, Solid c := fun c hc => (hnames c hc).solid (h c hc).2
  have hcleaned : p.map (fun c => encodeSegment β (cleaned c)) = p.map (encodeSegment β) :=
    List.map_congr_left (fun c hc => by rw [cleaned_eq_self.mpr (h c hc).2])
  have hlast := (pathText_ends β segs hne hnames).2
  rw [ParsedUrl.joinPath, pathOf, joinRemotePath_intercalate hpath hnames hsolid hne, hcleaned]
  simp only [Option.map_some, UrlPath.text, withSlash]
  rw [if_neg hlast, collectionUrl, if_neg hne]

/-- The collections of a listing and their URLs. -/
lemma mem_collectionUrls {files : List RemoteEntry} (hpath : root.path = .segments segs)
    (hfiles : ∀ e ∈ files, ∃ x ∈ tree.resources, e = entry x) {u : Str} :
    u ∈ collectionUrls (root.joinPath β) files ↔
      ∃ x ∈ tree.resources, x.2.isDir = true ∧ entry x ∈ files ∧ u = collectionUrl β segs x.1 := by
  have hjoin : ∀ x ∈ tree.resources, ((root.joinPath β (entry x).path).map withSlash) =
      some (collectionUrl β segs x.1) := fun x hx =>
    joinPath_pathOf hpath (tree.ne_nil x hx) (tree.named x hx)
  rw [collectionUrls, List.mem_filterMap]
  constructor
  · rintro ⟨e, he, hu⟩
    obtain ⟨hmem, hdir⟩ := List.mem_filter.mp he
    obtain ⟨x, hx, rfl⟩ := hfiles e hmem
    rw [hjoin x hx] at hu
    exact ⟨x, hx, hdir, hmem, (Option.some.inj hu).symm⟩
  · rintro ⟨x, hx, hdir, hmem, rfl⟩
    exact ⟨entry x, List.mem_filter.mpr ⟨hmem, hdir⟩, hjoin x hx⟩

/-! ## What has been explored -/

/-- What holds after each answer: the URLs are those of collections, the entries are those of
resources, and what a collection holds that was asked for has been seen. -/
structure Explored (β : SegmentBytes) (segs : List Str) (tree : Tree) (ω : Walk) : Prop where
  once : ω.Once {k | ∃ p, tree.IsCollection p ∧ k = trimEndSlash (collectionUrl β segs p)}
  urls : ∀ u ∈ ω.urls, ∃ p, tree.IsCollection p ∧ u = collectionUrl β segs p
  root : collectionUrl β segs [] ∈ ω.urls
  visited : ∀ v ∈ ω.visited, ∃ u ∈ ω.urls, trimEndSlash u = v
  sound : ∀ e ∈ ω.result, ∃ x ∈ tree.resources, e = entry x
  seen : ∀ s ∈ ω.seen, ∃ e ∈ ω.result, e.path = s
  complete : ∀ p, tree.IsCollection p → collectionUrl β segs p ∈ ω.asked →
    ∀ x ∈ tree.resources, x.1.dropLast = p → pathOf x.1 ∈ ω.seen ∧
      (x.2.isDir = true → trimEndSlash (collectionUrl β segs x.1) ∈ ω.visited)

lemma explored_start (httpEvents : List PropfindEvent) :
    Explored β segs tree (Walk.start (pathText segs) httpEvents) where
  once := by
    refine Walk.once_start ?_ httpEvents
    exact ⟨[], .inl rfl, rfl⟩
  urls := by
    intro u hu
    obtain rfl := List.mem_singleton.mp hu
    exact ⟨[], .inl rfl, rfl⟩
  root := List.mem_singleton.mpr rfl
  visited := by
    intro v hv
    obtain rfl := List.mem_singleton.mp hv
    exact ⟨pathText segs, List.mem_singleton_self _, rfl⟩
  sound := fun e he => by cases he
  seen := fun s hs => by cases hs
  complete := fun p _ hp => by cases hp

/-- What is pushed: nothing is lost, and what is marked as seen is there. -/
lemma pushNew_mem (files : List RemoteEntry) (seen : List Str) (result : List RemoteEntry) :
    (∀ e ∈ files, e.path ∈ (pushNew files seen result).1) ∧
      (∀ s ∈ seen, s ∈ (pushNew files seen result).1) ∧
      (∀ e ∈ result, e ∈ (pushNew files seen result).2) ∧
      (∀ e ∈ (pushNew files seen result).2, e ∈ result ∨ e ∈ files) ∧
      ∀ s ∈ (pushNew files seen result).1,
        s ∈ seen ∨ ∃ e ∈ (pushNew files seen result).2, e.path = s := by
  induction files generalizing seen result with
  | nil => exact ⟨by simp, fun _ h => h, fun _ h => h, fun _ h => .inl h, fun _ h => .inl h⟩
  | cons e files ih =>
      rw [pushNew]
      split
      · rename_i hold
        obtain ⟨hfiles, hseen, hresult, hfrom, hmarked⟩ := ih seen result
        refine ⟨?_, hseen, hresult, fun e' he' => (hfrom e' he').imp_right (List.mem_cons_of_mem _),
          hmarked⟩
        rw [List.forall_mem_cons]
        exact ⟨hseen _ hold, hfiles⟩
      · obtain ⟨hfiles, hseen, hresult, hfrom, hmarked⟩ := ih (e.path :: seen) (result ++ [e])
        have hkept : e ∈ (pushNew files (e.path :: seen) (result ++ [e])).2 :=
          hresult e (List.mem_append_right _ (List.mem_singleton_self _))
        refine ⟨?_, fun s hs => hseen s (List.mem_cons_of_mem _ hs),
          fun e' he' => hresult e' (List.mem_append_left _ he'), fun e' he' => ?_, fun s hs => ?_⟩
        · rw [List.forall_mem_cons]
          exact ⟨hseen _ List.mem_cons_self, hfiles⟩
        · rcases hfrom e' he' with he' | he'
          · rcases List.mem_append.mp he' with he' | he'
            · exact .inl he'
            · exact .inr (List.mem_singleton.mp he' ▸ List.mem_cons_self)
          · exact .inr (List.mem_cons_of_mem _ he')
        · rcases hmarked s hs with hs | hs
          · rcases List.mem_cons.mp hs with rfl | hs
            · exact .inr ⟨e, hkept, rfl⟩
            · exact .inl hs
          · exact .inr hs

/-- The collection at the head of the queue has been asked for, and `files` is what it lists. -/
lemma Explored.taking {url : Str} {queue : List Str} {event : Option PropfindEvent}
    {files : List RemoteEntry} (hpath : root.path = .segments segs) (h : Explored β segs tree ω)
    (hqueue : ω.queue = url :: queue) (hp : tree.IsCollection p) (hurl : url = collectionUrl β segs p)
    (hsound : ∀ e ∈ files, ∃ x ∈ tree.resources, e = entry x)
    (hcomplete : ∀ x ∈ tree.resources, x.1.dropLast = p → entry x ∈ files) :
    Explored β segs tree (((ω.ask url queue).log event).take (root.joinPath β) files) := by
  have hcollections : ∀ u ∈ collectionUrls (root.joinPath β) files,
      ∃ q, tree.IsCollection q ∧ u = collectionUrl β segs q := by
    intro u hu
    obtain ⟨x, hx, hdir, -, rfl⟩ := (mem_collectionUrls hpath hsound).mp hu
    exact ⟨x.1, .inr ⟨x.2, hx, hdir⟩, rfl⟩
  obtain ⟨new, hnew, hfrom, -, -, -⟩ :=
    Walk.urls_take (root.joinPath β) files ((ω.ask url queue).log event)
  obtain ⟨hold, hlisted, hmark⟩ :=
    Walk.visited_take (root.joinPath β) files ((ω.ask url queue).log event)
  obtain ⟨hfiles, hseen, hresult, hentries, hmarked⟩ := pushNew_mem files ω.seen ω.result
  rw [Walk.urls_ask hqueue] at hnew
  refine ⟨?_, ?_, ?_, ?_, ?_, ?_, ?_⟩
  · refine (h.once.asking hqueue).taking (fun u hu => ?_)
    obtain ⟨q, hq, rfl⟩ := hcollections u hu
    exact ⟨q, hq, rfl⟩
  · intro u hu
    rw [hnew] at hu
    exact (List.mem_append.mp hu).elim (h.urls u) (fun hu => hcollections u (hfrom u hu))
  · rw [hnew]
    exact List.mem_append_left _ h.root
  · intro v hv
    refine (hmark v hv).elim (fun hv => ?_) id
    obtain ⟨u, hu, rfl⟩ := h.visited v hv
    refine ⟨u, ?_, rfl⟩
    rw [hnew]
    exact List.mem_append_left _ hu
  · intro e he
    exact (hentries e he).elim (h.sound e) (hsound e)
  · intro s hs
    rcases hmarked s hs with hs | hs
    · obtain ⟨e, he, rfl⟩ := h.seen s hs
      exact ⟨e, hresult e he, rfl⟩
    · exact hs
  · intro q hq hasked x hx hdrop
    rcases List.mem_append.mp hasked with hasked | hasked
    · obtain ⟨hpathseen, hdir⟩ := h.complete q hq hasked x hx hdrop
      exact ⟨hseen _ hpathseen, fun hd => hold _ (hdir hd)⟩
    · -- it is the collection that was asked for just now
      have hsame : q = p := by
        refine @collectionUrl_injective q p β segs
          (fun c hc => (Tree.names_of_isCollection hq c hc).1)
          (fun c hc => (Tree.names_of_isCollection hp c hc).1) ?_
        rw [List.mem_singleton.mp hasked, hurl]
      have hmem := hcomplete x hx (hsame ▸ hdrop)
      exact ⟨hfiles _ hmem, fun hd => hlisted _
        ((mem_collectionUrls hpath hsound).mpr ⟨x, hx, hd, hmem, rfl⟩)⟩

/-- **One round.** -/
lemma Explored.round {σ : Server β segs tree} {url : Str} {queue : List Str}
    (hpath : root.path = .segments segs) (hunpadded : σ.Unpadded) (h : Explored β segs tree ω)
    (hqueue : ω.queue = url :: queue) :
    (ω.round (root.joinPath β) (pathText segs) (σ.serve url)).1 = none ∧
      Explored β segs tree (ω.round (root.joinPath β) (pathText segs) (σ.serve url)).2 := by
  obtain ⟨p, hp, hurl⟩ := h.urls url (by rw [Walk.urls, hqueue]; simp)
  obtain ⟨millis, bytes, hserve⟩ := σ.answers p hp
  have hnames : ∀ c ∈ p, EntryName c := fun c hc => (Tree.names_of_isCollection hp c hc).1
  obtain ⟨files, dirs, hparse, hsound, hcomplete⟩ := parse_listing id (σ.lists p hp)
    (hunpadded p hp) (decode_collectionUrl β segs hnames) hnames
  rw [← hurl] at hserve hparse
  have hround : ω.round (root.joinPath β) (pathText segs) (σ.serve url) =
      (none, ((ω.ask url queue).log ((σ.serve url).event url)).take (root.joinPath β) files) := by
    rw [Walk.round, hqueue, hserve]
    dsimp only
    rw [if_neg (by simp), hparse]
  rw [hround]
  exact ⟨rfl, h.taking hpath hqueue hp hurl
    (fun e he => (hsound e he).imp (fun x hx => ⟨hx.1, hx.2.1⟩)) hcomplete⟩

/-! ## The end -/

lemma discoverWalk_answers {σ : Server β segs tree} (hpath : root.path = .segments segs)
    (hunpadded : σ.Unpadded) (n : ℕ) (h : Explored β segs tree ω) :
    let xs := answers (root.joinPath β) (pathText segs) σ.serve n ω
    let run := discoverWalk (root.joinPath β) (pathText segs) xs ω
    Explored β segs tree run.2 ∧ (run.1 = none ∧ xs.length = n ∨
      run.1 = some (.ok run.2.result) ∧ run.2.queue = []) := by
  induction n generalizing ω with
  | zero =>
      dsimp only [answers, discoverWalk]
      refine ⟨h, ?_⟩
      by_cases hempty : ω.queue = []
      · rw [if_pos hempty]
        exact .inr ⟨rfl, hempty⟩
      · rw [if_neg hempty]
        exact .inl ⟨rfl, rfl⟩
  | succ n ih =>
      dsimp only [answers]
      cases hqueue : ω.queue with
      | nil =>
          dsimp only [discoverWalk]
          rw [if_pos hqueue]
          exact ⟨h, .inr ⟨rfl, hqueue⟩⟩
      | cons url queue =>
          obtain ⟨hnone, hnext⟩ := h.round hpath hunpadded hqueue
          obtain ⟨hrun, hcases⟩ := ih hnext
          have hround : ω.round (root.joinPath β) (pathText segs) (σ.serve url) =
              (none, (ω.round (root.joinPath β) (pathText segs) (σ.serve url)).2) := by
            rw [← hnone]
          dsimp only
          rw [discoverWalk, if_neg (by rw [hqueue]; exact List.cons_ne_nil _ _), hround]
          refine ⟨hrun, hcases.imp_left (fun hc => ⟨hc.1, ?_⟩)⟩
          rw [List.length_cons, hc.2]

/-- There is one URL for the space and at most one for each resource. -/
lemma Explored.length_le (h : Explored β segs tree ω) :
    ω.urls.length ≤ tree.resources.length + 1 := by
  have hsub : ω.urls.map trimEndSlash ⊆
      ([] :: tree.resources.map Prod.fst).map (fun p => trimEndSlash (collectionUrl β segs p)) := by
    intro k hk
    obtain ⟨u, hu, rfl⟩ := List.mem_map.mp hk
    obtain ⟨p, hp, rfl⟩ := h.urls u hu
    refine List.mem_map.mpr ⟨p, ?_, rfl⟩
    rcases hp with rfl | ⟨ρ, hmem, -⟩
    · exact List.mem_cons_self
    · exact List.mem_cons_of_mem _ (List.mem_map_of_mem hmem)
  have hlength := (List.subperm_of_subset h.once.nodup hsub).length_le
  simpa using hlength

/-- When the queue is empty every collection has been asked for. -/
lemma Explored.all_asked (h : Explored β segs tree ω) (hqueue : ω.queue = [])
    (hp : tree.IsCollection p) : collectionUrl β segs p ∈ ω.asked := by
  -- a collection is listed by the one that holds it, whose path is shorter
  induction hlength : p.length generalizing p with
  | zero =>
      obtain rfl := List.length_eq_zero_iff.mp hlength
      have hroot := h.root
      rwa [Walk.urls, hqueue, List.append_nil] at hroot
  | succ n ih =>
      rcases hp with rfl | ⟨ρ, hmem, hdir⟩
      · cases hlength
      · have hparent : tree.IsCollection p.dropLast := Tree.parent_isCollection hmem
        have hshorter : p.dropLast.length = n := by
          rw [List.length_dropLast, hlength, Nat.add_sub_cancel]
        obtain ⟨-, hmarked⟩ := h.complete _ hparent (ih hparent hshorter) (p, ρ) hmem rfl
        obtain ⟨u, hu, hkey⟩ := h.visited _ (hmarked hdir)
        obtain ⟨q, hq, rfl⟩ := h.urls u hu
        have hsame : q = p := collectionUrl_injective
          (fun c hc => (Tree.names_of_isCollection hq c hc).1)
          (fun c hc => (tree.named _ hmem c hc).1) hkey
        rw [Walk.urls, hqueue, List.append_nil] at hu
        rwa [hsame] at hu

/-- **When the queue is empty** the entries are those of the resources. -/
lemma Explored.perm (h : Explored β segs tree ω) (hqueue : ω.queue = []) :
    ω.result.Perm (tree.resources.map entry) := by
  have hdistinct : (tree.resources.map entry).Nodup := by
    refine List.Nodup.map_on (fun x hx y hy heq => ?_) tree.nodup.of_map
    exact Tree.eq_of_pathOf hx hy (congrArg RemoteEntry.path heq)
  refine (List.perm_ext_iff_of_nodup h.once.paths.of_map hdistinct).mpr (fun e => ?_)
  constructor
  · intro he
    obtain ⟨x, hx, rfl⟩ := h.sound e he
    exact List.mem_map_of_mem hx
  · intro he
    obtain ⟨x, hx, rfl⟩ := List.mem_map.mp he
    have hparent := Tree.parent_isCollection hx
    obtain ⟨hseen, -⟩ := h.complete _ hparent (h.all_asked hqueue hparent) x hx rfl
    obtain ⟨e, he, hpath⟩ := h.seen _ hseen
    obtain ⟨y, hy, rfl⟩ := h.sound e he
    rwa [← Tree.eq_of_pathOf hy hx hpath]

/-- **The discovery is exact**, for every tree and every server that lists it honestly, without blanks
around its texts. -/
theorem discovery_exact (root : ParsedUrl) (hpath : root.path = .segments segs)
    (σ : Server β segs tree) (hunpadded : σ.Unpadded) : Exact root σ := by
  intro n hn httpEvents
  have htext : root.path.text = pathText segs := by rw [hpath]; rfl
  rw [htext]
  obtain ⟨hexplored, hcases⟩ :=
    discoverWalk_answers hpath hunpadded n (explored_start httpEvents)
  obtain ⟨urls, hasked, -, -, hrunning⟩ := discoverWalk_trace (root.joinPath β) (pathText segs)
    (answers (root.joinPath β) (pathText segs) σ.serve n (Walk.start (pathText segs) httpEvents))
    (Walk.start (pathText segs) httpEvents)
  rcases hcases with ⟨hnone, hlength⟩ | ⟨hok, hqueue⟩
  · -- more answers than there are URLs
    obtain ⟨hurls, hne⟩ := hrunning hnone
    have hmany := hexplored.length_le
    have hpos := List.length_pos_iff.mpr hne
    rw [Walk.urls, List.length_append, hasked, List.length_append, hurls, hlength] at hmany
    omega
  · exact ⟨_, _, Prod.ext hok rfl, hexplored.perm hqueue⟩

/-! ## A server for every tree -/

/-- A response with nothing besides. -/
def plainParts (href : Str) (length : Option Str) (ρ : Resource) : List Part :=
  [.withText .href href] ++ ρ.etag.toList.map (.withText .getetag) ++
    length.toList.map (.withText .getcontentlength) ++ ρ.fileId.toList.map (.withText .fileid) ++
    if ρ.isDir then [.collection true] else []

lemma textsOf_map (element element' : Element) (texts : List Str) :
    textsOf element (texts.map (.withText element')) = if element' = element then texts else [] := by
  rw [textsOf, List.filterMap_map]
  by_cases h : element' = element
  · have hsome : (fun part => Part.textOf element part) ∘ Part.withText element' = some :=
      funext (fun text => if_pos h)
    rw [hsome, List.filterMap_some, if_pos h]
  · have hnone : (fun part => Part.textOf element part) ∘ Part.withText element' = fun _ => none :=
      funext (fun text => if_neg h)
    rw [hnone, if_neg h, List.filterMap_eq_nil_iff.mpr (fun _ _ => rfl)]

lemma textsOf_plainParts (element : Element) (href : Str) (length : Option Str) (ρ : Resource) :
    textsOf element (plainParts href length ρ) = match element with
      | .href => [href]
      | .getetag => ρ.etag.toList
      | .getcontentlength => length.toList
      | .fileid => ρ.fileId.toList := by
  have happend : ∀ ps qs, textsOf element (ps ++ qs) = textsOf element ps ++ textsOf element qs :=
    fun ps qs => List.filterMap_append
  have hcollection : textsOf element (if ρ.isDir = true then [.collection true] else []) = [] := by
    split <;> rfl
  have hhref := textsOf_map element .href [href]
  rw [plainParts, happend, happend, happend, happend, hcollection, textsOf_map, textsOf_map,
    textsOf_map]
  rw [List.map_singleton] at hhref
  rw [hhref]
  cases element <;> simp

/-- Such a response describes its resource. -/
lemma describes_plainParts {spaceRoot href : Str} {length : Option Str}
    (hhref : IsHref spaceRoot x.1 x.2.isDir href) (hetag : ∀ text ∈ x.2.etag, text ≠ [])
    (hfileId : ∀ text ∈ x.2.fileId, text ≠ [])
    (hlength : List.Forall₂ (fun text size => IsNumeral text size.toNat) length.toList
      x.2.size.toList) :
    Describes spaceRoot x (plainParts href length x.2) where
  proper := by
    intro part hpart
    simp only [plainParts, List.mem_append, List.mem_map, Option.mem_toList, List.mem_singleton]
      at hpart
    rcases hpart with (((rfl | ⟨text, htext, rfl⟩) | ⟨text, htext, rfl⟩) | ⟨text, htext, rfl⟩) | hpart
    · exact hhref.ne_nil
    · exact hetag text htext
    · rw [htext] at hlength
      obtain ⟨n, rest, hnumeral, -, -⟩ := List.forall₂_cons_left_iff.mp hlength
      exact hnumeral.1
    · exact hfileId text htext
    · split at hpart
      · rw [List.mem_singleton.mp hpart]
        trivial
      · cases hpart
  href := ⟨href, hhref, textsOf_plainParts .href href length x.2⟩
  etag := textsOf_plainParts .getetag href length x.2
  size _ := by
    rw [textsOf_plainParts .getcontentlength href length x.2]
    exact hlength
  fileId := textsOf_plainParts .fileid href length x.2
  collection := by
    cases hdir : x.2.isDir <;> simp [plainParts, hdir, Part.isCollection]

/-- The listing of the collection `p`, with the given parts for each resource. -/
def respond (tree : Tree) (parts : List Str × Resource → List Part) (p : List Str) : List Item :=
  (tree.listed p).map (fun x => .response (parts x))

/-- The server that describes a resource in the same way wherever it is listed. -/
def Server.ofParts (β : SegmentBytes) (segs : List Str) (tree : Tree)
    (parts : List Str × Resource → List Part)
    (h : ∀ x ∈ ([], tree.root) :: tree.resources, Describes (pathText segs) x (parts x)) :
    Server β segs tree where
  serve url :=
    match (([], tree.root) :: tree.resources).find? (fun x => collectionUrl β segs x.1 = url) with
    | some x => .answered 207 0 (.ok (0, (respond tree parts x.1).flatMap Item.events))
    | none => .unanswered "not found"
  body := respond tree parts
  answers := by
    intro p hp
    obtain ⟨ρ, hmem⟩ : ∃ ρ, (p, ρ) ∈ ([], tree.root) :: tree.resources := by
      rcases hp with rfl | ⟨ρ, hmem, -⟩
      · exact ⟨tree.root, List.mem_cons_self⟩
      · exact ⟨ρ, List.mem_cons_of_mem _ hmem⟩
    have hnames : ∀ y ∈ ([], tree.root) :: tree.resources, ∀ c ∈ y.1, EntryName c := by
      rw [List.forall_mem_cons]
      exact ⟨by simp, fun y hy c hc => (tree.named y hy c hc).1⟩
    cases hfind : (([], tree.root) :: tree.resources).find?
        (fun x => collectionUrl β segs x.1 = collectionUrl β segs p) with
    | none => exact absurd (List.find?_eq_none.mp hfind _ hmem) (by simp)
    | some y =>
        have hurl : collectionUrl β segs y.1 = collectionUrl β segs p := by
          simpa using List.find?_some hfind
        have hsame : y.1 = p := @collectionUrl_injective y.1 p β segs
          (hnames y (List.mem_of_find?_eq_some hfind)) (hnames _ hmem) (by rw [hurl])
        subst hsame
        exact ⟨0, 0, rfl⟩
  lists p _ := {
    other := by simp [respond]
    responses := by
      refine ⟨tree.listed p, .rfl, ?_⟩
      have hparts : (respond tree parts p).filterMap Item.parts? = (tree.listed p).map parts := by
        rw [respond, List.filterMap_map]
        exact congrFun List.filterMap_eq_map (tree.listed p)
      rw [hparts, List.forall₂_map_right_iff, List.forall₂_same]
      exact fun x hx => h x (List.mem_filter.mp hx).1 }

/-! ## Two trees -/

/-- A root with no properties. -/
def plainRoot : Resource := ⟨true, none, none, none⟩

/-- A collection with a file in it. -/
def nestedTree : Tree where
  root := plainRoot
  resources :=
    [(["d".toList], ⟨true, some "\"e1\"".toList, none, some "1".toList⟩),
      (["d".toList, "ü".toList], ⟨false, some "\"e2\"".toList, some 5, some "2".toList⟩)]
  root_isDir := rfl
  nodup := by decide
  ne_nil := by decide
  named := by decide
  parent := by decide

/-- The collection is escaped where it need not be, so it does not know itself. -/
def nestedParts (x : List Str × Resource) : List Part :=
  plainParts (if x.1 = [] then "/dav/".toList else if x.1.length = 1 then "/dav/%64/".toList
    else "/dav/%64/%c3%BC".toList) (if x.1.length = 2 then some "05".toList else none) x.2

lemma encodes_d : Encodes "d".toList "%64".toList := by
  have hname : "d".toList.flatMap String.utf8EncodeChar = [16 * 6 + 4] := by decide
  have htext : "%64".toList.flatMap String.utf8EncodeChar = [0x25, 0x36, 0x34] := by decide
  rw [Encodes, hname, htext]
  exact .escaped rfl rfl .nil

lemma encodes_umlaut : Encodes "ü".toList "%c3%BC".toList := by
  have hname : "ü".toList.flatMap String.utf8EncodeChar = [16 * 12 + 3, 16 * 11 + 12] := by decide
  have htext : "%c3%BC".toList.flatMap String.utf8EncodeChar =
      [0x25, 0x63, 0x33, 0x25, 0x42, 0x43] := by decide
  rw [Encodes, hname, htext]
  exact .escaped rfl rfl (.escaped rfl rfl .nil)

/-- The server that lists `nestedTree` with `nestedParts`. -/
def nestedServer : Server specialPathSegment ["dav".toList, []] nestedTree :=
  Server.ofParts _ _ _ nestedParts (by
    rw [List.forall_mem_cons]
    refine ⟨?_, ?_⟩
    · exact describes_plainParts ⟨1, [], by decide, .nil, by decide⟩ (by decide) (by decide) .nil
    · rw [nestedTree, List.forall_mem_cons, List.forall_mem_singleton]
      refine ⟨?_, ?_⟩
      · exact describes_plainParts
          ⟨1, ["%64".toList], by decide, .cons encodes_d .nil, by decide⟩ (by decide) (by decide) .nil
      · exact describes_plainParts
          ⟨1, ["%64".toList, "%c3%BC".toList], by decide,
            .cons encodes_d (.cons encodes_umlaut .nil), by decide⟩ (by decide) (by decide)
          (.cons ⟨by decide, List.all_eq_true.mp (by decide), by decide⟩ .nil))

/-- The texts of a server that describes its resources in one way. -/
lemma unpadded_ofParts {parts : List Str × Resource → List Part}
    {h : ∀ x ∈ ([], tree.root) :: tree.resources, Describes (pathText segs) x (parts x)}
    (hparts : ∀ x ∈ ([], tree.root) :: tree.resources, ∀ part ∈ parts x, part.Unpadded) :
    (Server.ofParts β segs tree parts h).Unpadded := by
  intro p _ parts' hmem
  obtain ⟨x, hx, heq⟩ := List.mem_map.mp hmem
  obtain rfl := Item.response.inj heq
  exact hparts x (List.mem_filter.mp hx).1

instance (part : Part) : Decidable part.Unpadded := by
  cases part <;> unfold Part.Unpadded <;> infer_instance

/-- `discovery_exact` at that server. -/
theorem discovery_exact_nested : Exact spaceDav nestedServer :=
  discovery_exact spaceDav rfl nestedServer (unpadded_ofParts (by decide +kernel))

/-- A file whose name ends in a blank. -/
def paddedTree : Tree where
  root := plainRoot
  resources := [(["a ".toList], ⟨false, none, none, none⟩)]
  root_isDir := rfl
  nodup := by decide
  ne_nil := by decide
  named := by decide
  parent := by decide

/-- The blank is not escaped. -/
def paddedServer : Server specialPathSegment ["dav".toList, []] paddedTree :=
  Server.ofParts _ _ _
    (fun x => plainParts (if x.1 = [] then "/dav/".toList else "/dav/a ".toList) none x.2) (by
      have hencodes : Encodes "a ".toList "a ".toList := by
        have hbytes : "a ".toList.flatMap String.utf8EncodeChar = [0x61, 0x20] := by decide
        rw [Encodes, hbytes]
        exact .plain (by decide) (.plain (by decide) .nil)
      rw [List.forall_mem_cons]
      refine ⟨?_, ?_⟩
      · exact describes_plainParts ⟨1, [], by decide, .nil, by decide⟩ (by decide) (by decide) .nil
      · rw [paddedTree, List.forall_mem_singleton]
        exact describes_plainParts
          ⟨1, ["a ".toList], by decide, .cons hencodes .nil, by decide⟩ (by decide) (by decide) .nil)

/-- It comes back without the blank. -/
theorem padded_not_exact : ¬ Exact spaceDav paddedServer := by
  intro h
  obtain ⟨entries, ω, hrun, hperm⟩ := h 2 (by decide) []
  have hpaths : (discoverWalk (spaceDav.joinPath specialPathSegment) spaceDav.path.text
      (answers (spaceDav.joinPath specialPathSegment) spaceDav.path.text paddedServer.serve 2
        (Walk.start spaceDav.path.text [])) (Walk.start spaceDav.path.text [])).1.map
      (fun r => r.toOption.map (fun es => es.map RemoteEntry.path)) = some (some ["a".toList]) := by
    decide +kernel
  rw [hrun] at hpaths
  have hfound : entries.map RemoteEntry.path = ["a".toList] :=
    Option.some.inj (Option.some.inj hpaths)
  have hshould := hperm.map RemoteEntry.path
  rw [hfound] at hshould
  revert hshould
  decide

end Dav

end OwncloudSync
