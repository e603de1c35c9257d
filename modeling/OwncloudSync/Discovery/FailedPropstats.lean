import OwncloudSync.Discovery.PropfindResponse
import OwncloudSync.Lib.Runs
import Mathlib.Tactic.Common

/-!
# What a failed propstat contributes

In a multistatus document a propstat has its properties first and its status behind.  When
`parse_propfind_response` sees that it has failed, **its properties have been stored**, and nothing takes
them back but a later value of the same property.

`failedContributeNothing_iff` says of which documents no entry has anything of a failed propstat, and
all of it that a successful one reports.
-/

namespace OwncloudSync

namespace PropfindResponse

variable {δ : Type}

/-! ## Entries and where their values come from -/

/-- What an event adds to the entries. -/
def pushed (st : ReadState δ) (t : NsEvent) : List (DavEntry δ) :=
  if t.closes "response".toList then (st.current.bind CurrentEntry.entry).toList else []

/-- The parser gives an entry at the end of a response. -/
def Gives (parseDate : Str → Option δ) (pre : List NsEvent) (t : NsEvent) (e : DavEntry δ) : Prop :=
  e ∈ pushed (readTo parseDate pre) t

/-- The text is stored for the property. -/
def Stores (parseDate : Str → Option δ) (f : Property) (st : ReadState δ) (u : NsEvent) : Prop :=
  ∃ raw c, u = .text raw ∧ st.current = some c ∧ c.collecting = f.collecting ∧
    st.propstatOk = true ∧ trim raw ≠ [] ∧ (f.read parseDate (trim raw)).isSome = true

/-- **The text `s` is where the property of the entry comes from**: it is stored, and nothing is behind
it. -/
structure Supplies (parseDate : Str → Option δ) (f : Property) (p : List NsEvent) (s : NsEvent)
    (q : List NsEvent) : Prop where
  stores : Stores parseDate f (readTo parseDate p) s
  last : ∀ q₁ u q₂, q = q₁ ++ u :: q₂ → u.opens "response".toList = false ∧
    ¬ Stores parseDate f (readTo parseDate (p ++ s :: q₁)) u

/-- The value that the reader takes at an event. -/
def heardAt (parseDate : Str → Option δ) (f : Property) (back : List NsEvent) :
    NsEvent → Option (Value δ)
  | .text raw => heard parseDate f back raw
  | _ => none

/-- The text is heard: it directly follows a start tag of the property, and no failed status has ended
since the propstat began. -/
def Heard (parseDate : Str → Option δ) (f : Property) (back : List NsEvent) (u : NsEvent) : Prop :=
  withinResponse back = true ∧ (heardAt parseDate f back u).isSome = true

/-- At `s` the reader takes a value of the property, and at no later event of the response. -/
structure LastHeard (parseDate : Str → Option δ) (f : Property) (p : List NsEvent) (s : NsEvent)
    (q : List NsEvent) : Prop where
  heard : Heard parseDate f p.reverse s
  last : ∀ q₁ u q₂, q = q₁ ++ u :: q₂ → u.opens "response".toList = false ∧
    ¬ Heard parseDate f (p ++ s :: q₁).reverse u

/-! ## Propstats -/

/-- The character data of what stands in an element. -/
def characterData (ts : List NsEvent) : Str :=
  ts.flatMap fun t =>
    match t with
    | .text raw => raw
    | .data text => text
    | _ => []

/-- How many elements are open. -/
def openCount (ts : List NsEvent) : ℤ :=
  ts.foldl (fun n t =>
    match t with
    | .start _ _ => n + 1
    | .close _ => n - 1
    | _ => n) 0

/-- The line of a `status` that is a child of the propstat. -/
def HasStatus (inner : List NsEvent) (line : Str) : Prop :=
  ∃ a s b, inner = a ++ .start .dav "status".toList :: (s ++ .close "status".toList :: b) ∧
    openCount a = 0 ∧ (∀ u ∈ s, u.closes "status".toList = false) ∧ characterData s = line

/-- There is a status in the propstat, and it is no success. -/
def Failed (inner : List NsEvent) : Prop := ∃ line, HasStatus inner line ∧ isSuccess line = false

/-- There is a status in the propstat, and it is a success. -/
def Succeeded (inner : List NsEvent) : Prop := ∃ line, HasStatus inner line ∧ isSuccess line = true

/-- No element of the name is opened or closed. -/
def Without (name : Str) (ts : List NsEvent) : Prop :=
  ∀ u ∈ ts, u.opens name = false ∧ u.closes name = false

/-- The place between `p` and `rest` is in a failed propstat. -/
def InFailed (p : List NsEvent) (s : NsEvent) (rest : List NsEvent) : Prop :=
  ∃ p₁ i₁ i₂ q₂, p = p₁ ++ .start .dav "propstat".toList :: i₁ ∧
    rest = i₂ ++ .close "propstat".toList :: q₂ ∧ Without "propstat".toList (i₁ ++ i₂) ∧
    Failed (i₁ ++ s :: i₂)

/-- What stands in a successful propstat of the response of which `pre` has been read. -/
def InSucceeded (pre inner : List NsEvent) : Prop :=
  ∃ before after, pre = before ++ .start .dav "propstat".toList ::
      (inner ++ .close "propstat".toList :: after) ∧
    withinResponse before.reverse = true ∧ Without "response".toList (inner ++ after) ∧
    Without "propstat".toList inner ∧ Succeeded inner

/-- There is an element of the property with a text that is a value. -/
def HasProperty (parseDate : Str → Option δ) (f : Property) (inner : List NsEvent) : Prop :=
  ∃ a v b, inner = a ++ .start f.ns f.name :: (v ++ .close f.name :: b) ∧
    (∀ u ∈ v, u.closes f.name = false) ∧
    ∃ raw, .text raw ∈ v ∧ trim raw ≠ [] ∧ (f.read parseDate (trim raw)).isSome = true

/-- A `collection` of the response stands outside its failed propstats. -/
def SoundCollection (pre rest : List NsEvent) : Prop :=
  ∃ p s q, pre = p ++ s :: q ∧ s.isCollection = true ∧ withinResponse p.reverse = true ∧
    (∀ u ∈ q, u.opens "response".toList = false) ∧ ¬ InFailed p s (q ++ rest)

/-- **Failed propstats contribute nothing, and successful ones all they have**, to every entry. -/
def FailedContributeNothing (parseDate : Str → Option δ) (ts : List NsEvent) : Prop :=
  ∀ pre t post e, ts = pre ++ t :: post → Gives parseDate pre t e →
    (∀ f p s q, pre = p ++ s :: q → Supplies parseDate f p s q → ¬ InFailed p s (q ++ t :: post)) ∧
    (e.resourceType = .directory → SoundCollection pre (t :: post)) ∧
    ∀ inner, InSucceeded pre inner →
      (∀ f, HasProperty parseDate f inner → (e.value f).isSome = true) ∧
      ((∃ u ∈ inner, u.isCollection = true) → e.resourceType = .directory)

/-- In every response with an `href`, the last value that is heard of a property is none of a failed
propstat, a `collection` does not stand in failed ones only, and if a successful propstat has a value of
a property then one is heard. -/
def FailedOverruled (parseDate : Str → Option δ) (ts : List NsEvent) : Prop :=
  ∀ pre t post, ts = pre ++ t :: post → t.closes "response".toList = true →
    withinResponse pre.reverse = true → (heldHref pre.reverse).isSome = true →
      (∀ f p s q, pre = p ++ s :: q → LastHeard parseDate f p s q →
        ¬ InFailed p s (q ++ t :: post)) ∧
      (hasCollection pre.reverse = true → SoundCollection pre (t :: post)) ∧
      ∀ inner f, InSucceeded pre inner → HasProperty parseDate f inner →
        (held parseDate f pre.reverse).isSome = true

variable {parseDate : Str → Option δ} {st : ReadState δ} {e : DavEntry δ}
  {ts pre p q : List NsEvent} {s t : NsEvent} {f : Property} {raw : Str}

/-! ## Entries -/

lemma step_entries (st : ReadState δ) (t : NsEvent) :
    (st.step parseDate t).entries = st.entries ++ pushed st t := by
  cases t with
  | start ns name =>
      refine Eq.trans ?_ (List.append_nil _).symm
      show (st.opened ns name).entries = st.entries
      rw [ReadState.opened]
      split
      · rfl
      split
      · rfl
      split
      · rfl
      split
      · rfl
      · rfl
      split
      · rfl
      split <;> rfl
  | empty ns name =>
      refine Eq.trans ?_ (List.append_nil _).symm
      show (st.selfClosed ns name).entries = st.entries
      rw [ReadState.selfClosed]
      split <;> rfl
  | close name =>
      show (st.closed name).entries = _
      rw [ReadState.closed, pushed, NsEvent.closes]
      by_cases hname : name = "response".toList
      · rw [if_pos hname, decide_eq_true hname]
        rfl
      · rw [if_neg hname, decide_eq_false hname]
        refine Eq.trans ?_ (List.append_nil _).symm
        split <;> rfl
  | text raw =>
      refine Eq.trans ?_ (List.append_nil _).symm
      show (st.textRead parseDate raw).entries = st.entries
      rw [ReadState.textRead]
      split <;> rfl
  | data | other | malformed => exact (List.append_nil _).symm

lemma readEvents_eq {entries : List (DavEntry δ)} (h : readEvents parseDate ts st = .ok entries) :
    entries = (ts.foldl (ReadState.step parseDate) st).entries := by
  induction ts generalizing st with
  | nil => exact (Except.ok.inj h).symm
  | cons t ts ih =>
      cases t with
      | malformed message => cases h
      | _ => exact ih h

/-- **Every entry that is returned is given at the end of a response.** -/
lemma parsePropfindResponse_gives {entries : List (DavEntry δ)}
    (h : parsePropfindResponse parseDate ts = .ok entries) :
    e ∈ entries ↔ ∃ pre t post, ts = pre ++ t :: post ∧ Gives parseDate pre t e := by
  rw [readEvents_eq h, Runs.mem_foldl_iff step_entries]
  exact or_iff_right List.not_mem_nil

lemma entry_value {c : CurrentEntry δ} (h : c.entry = some e) :
    (∀ f, e.value f = c.value f) ∧ e.resourceType = c.resourceType := by
  obtain ⟨href, -, rfl⟩ := Option.map_eq_some_iff.mp h
  exact ⟨fun f => by cases f <;> rfl, rfl⟩

/-- What is known of an entry that is given. -/
lemma Gives.spec (h : Gives parseDate pre t e) :
    t.closes "response".toList = true ∧ withinResponse pre.reverse = true ∧
      (heldHref pre.reverse).isSome = true ∧ (∀ f, e.value f = held parseDate f pre.reverse) ∧
      (e.resourceType = .directory ↔ hasCollection pre.reverse = true) := by
  obtain ⟨-, hinside, houtside⟩ := readTo_tracks parseDate pre
  rw [Gives, pushed] at h
  split at h
  · rename_i hclose
    rw [Option.mem_toList] at h
    obtain ⟨c, hc, hentry⟩ := Option.bind_eq_some_iff.mp h
    have hin : withinResponse pre.reverse = true := by
      by_contra hout
      rw [houtside (Bool.eq_false_iff.mpr hout)] at hc
      cases hc
    obtain ⟨c', hc', hshows⟩ := hinside hin
    obtain rfl := Option.some.inj (hc.symm.trans hc')
    obtain ⟨hvalue, htype⟩ := entry_value hentry
    obtain ⟨href, hhref, -⟩ := Option.map_eq_some_iff.mp hentry
    refine ⟨hclose, hin, ?_, fun f => (hvalue f).trans (hshows.value f), ?_⟩
    · rw [← hshows.href, hhref]
      rfl
    · rw [htype]
      exact hshows.directory
  · cases h

lemma exists_gives (parseDate : Str → Option δ) (hclose : t.closes "response".toList = true)
    (hin : withinResponse pre.reverse = true) (hhref : (heldHref pre.reverse).isSome = true) :
    ∃ e, Gives parseDate pre t e := by
  obtain ⟨c, hc, hshows⟩ := (readTo_tracks parseDate pre).inside hin
  obtain ⟨e, he⟩ : ∃ e, c.entry = some e := by
    obtain ⟨href, hhref⟩ := Option.isSome_iff_exists.mp hhref
    rw [CurrentEntry.entry, hshows.href, hhref]
    exact ⟨_, rfl⟩
  refine ⟨e, ?_⟩
  rw [Gives, pushed, if_pos hclose, hc, Option.bind_some, he]
  exact List.mem_singleton_self e

/-! ## Texts that are stored -/

/-- A text is stored exactly if it is heard. -/
lemma stores_iff : Stores parseDate f (readTo parseDate p) s ↔ Heard parseDate f p.reverse s := by
  obtain ⟨-, hinside, houtside⟩ := readTo_tracks parseDate p
  constructor
  · rintro ⟨raw, c, rfl, hc, hcollecting, hok, htrim, hread⟩
    have hin : withinResponse p.reverse = true := by
      by_contra hout
      rw [houtside (Bool.eq_false_iff.mpr hout)] at hc
      cases hc
    obtain ⟨c', hc', hshows⟩ := hinside hin
    obtain rfl := Option.some.inj (hc.symm.trans hc')
    refine ⟨hin, ?_⟩
    rw [heardAt, heard, if_pos ⟨htrim, hshows.collecting.symm.trans hcollecting, hshows.ok.symm.trans hok⟩]
    exact hread
  · rintro ⟨hin, hheard⟩
    obtain ⟨c, hc, hshows⟩ := hinside hin
    cases s with
    | text raw =>
        rw [heardAt, heard] at hheard
        split at hheard
        · rename_i h
          exact ⟨raw, c, rfl, hc, hshows.collecting.trans h.2.1, hshows.ok.trans h.2.2, h.1, hheard⟩
        · cases hheard
    | _ => cases hheard

lemma supplies_iff {q : List NsEvent} :
    Supplies parseDate f p s q ↔ LastHeard parseDate f p s q := by
  constructor
  · rintro ⟨hstores, hlast⟩
    refine ⟨stores_iff.mp hstores, fun q₁ u q₂ hq => ?_⟩
    rw [← stores_iff]
    exact hlast q₁ u q₂ hq
  · rintro ⟨hheard, hlast⟩
    refine ⟨stores_iff.mpr hheard, fun q₁ u q₂ hq => ?_⟩
    rw [stores_iff]
    exact hlast q₁ u q₂ hq

/-- What is held stays, if nothing is heard. -/
lemma held_of_last
    (hlast : ∀ q₁ u q₂, q = q₁ ++ u :: q₂ → u.opens "response".toList = false ∧
      ¬ Heard parseDate f (p ++ s :: q₁).reverse u)
    (hin : withinResponse (p ++ s :: q).reverse = true) :
    held parseDate f (p ++ s :: q).reverse = held parseDate f (s :: p.reverse) := by
  induction q using List.reverseRecOn with
  | nil => rw [List.reverse_concat]
  | append_singleton q u ih =>
      obtain ⟨hopens, hquiet⟩ := hlast q u [] rfl
      rw [← List.cons_append, ← List.append_assoc, List.reverse_concat] at hin ⊢
      have hback : withinResponse (p ++ s :: q).reverse = true := by
        rw [withinResponse, hopens, Bool.false_or, Bool.and_eq_true] at hin
        exact hin.2
      have hheld := ih (fun q₁ v q₂ hq => hlast q₁ v (q₂ ++ [u]) (by rw [hq]; simp)) hback
      refine Eq.trans ?_ hheld
      cases u with
      | start ns name =>
          rw [NsEvent.opens, ← Bool.decide_and, decide_eq_false_iff_not] at hopens
          exact if_neg hopens
      | text raw =>
          have hnone : heard parseDate f (p ++ s :: q).reverse raw = none := by
            rw [← Option.not_isSome_iff_eq_none]
            exact fun hsome => hquiet ⟨hback, hsome⟩
          rw [held, hnone, Option.none_or]
      | empty | close | data | other | malformed => rfl

/-- **An entry has the value of the text that supplies it.** -/
lemma Supplies.value (h : Supplies parseDate f p (.text raw) q)
    (hgives : Gives parseDate (p ++ .text raw :: q) t e) :
    e.value f = f.read parseDate (trim raw) := by
  obtain ⟨⟨-, hheard⟩, hlast⟩ := supplies_iff.mp h
  rw [heardAt] at hheard
  obtain ⟨-, hin, -, hvalue, -⟩ := hgives.spec
  rw [hvalue, held_of_last hlast hin, held, Option.or_of_isSome hheard]
  rw [heard] at hheard ⊢
  split at hheard
  · rename_i hif
    exact if_pos hif
  · cases hheard

/-- A collection in what follows the start of a response is seen. -/
lemma hasCollection_append (before : List NsEvent) {rest : List NsEvent} {u : NsEvent}
    (hu : u ∈ rest) (hcollection : u.isCollection = true)
    (hrest : ∀ v ∈ rest, v.opens "response".toList = false) :
    hasCollection (before ++ rest).reverse = true := by
  induction rest using List.reverseRecOn with
  | nil => cases hu
  | append_singleton rest v ih =>
      rw [← List.append_assoc, List.reverse_concat, hasCollection,
        hrest v (List.mem_append_right _ (List.mem_singleton_self v))]
      rcases List.mem_append.mp hu with hu | hu
      · rw [ih hu (fun w hw => hrest w (List.mem_append_left _ hw)), Bool.or_true]
        rfl
      · obtain rfl := List.mem_singleton.mp hu
        rw [hcollection]
        rfl

/-- A collection of a successful propstat. -/
lemma InSucceeded.hasCollection {inner : List NsEvent} (h : InSucceeded pre inner)
    (hcollection : ∃ u ∈ inner, u.isCollection = true) : hasCollection pre.reverse = true := by
  obtain ⟨before, after, rfl, -, hresponse, -⟩ := h
  obtain ⟨u, hu, hcollection⟩ := hcollection
  refine hasCollection_append before (List.mem_cons_of_mem _ (List.mem_append_left _ hu)) hcollection ?_
  rw [List.forall_mem_cons, List.forall_mem_append, List.forall_mem_cons]
  exact ⟨by decide, fun v hv => (hresponse v (List.mem_append_left _ hv)).1, rfl,
    fun v hv => (hresponse v (List.mem_append_right _ hv)).1⟩

/-- **No entry has anything of a failed propstat, and every entry has what its successful ones report,
exactly if** later values overrule those of failed propstats: for every sequence of events. -/
theorem failedContributeNothing_iff (parseDate : Str → Option δ) (ts : List NsEvent) :
    FailedContributeNothing parseDate ts ↔ FailedOverruled parseDate ts := by
  constructor
  · intro h pre t post hts hclose hin hhref
    obtain ⟨e, hgives⟩ := exists_gives parseDate hclose hin hhref
    obtain ⟨-, -, -, hvalue, hdirectory⟩ := hgives.spec
    obtain ⟨hfailed, hcollection, hsucceeded⟩ := h pre t post e hts hgives
    refine ⟨fun f p s q hpre hlast => hfailed f p s q hpre (supplies_iff.mpr hlast),
      fun hhas => hcollection (hdirectory.mpr hhas), fun inner f hinner hproperty => ?_⟩
    rw [← hvalue]
    exact (hsucceeded inner hinner).1 f hproperty
  · intro h pre t post e hts hgives
    obtain ⟨hclose, hin, hhref, hvalue, hdirectory⟩ := hgives.spec
    obtain ⟨hfailed, hcollection, hsucceeded⟩ := h pre t post hts hclose hin hhref
    refine ⟨fun f p s q hpre hsupplies => hfailed f p s q hpre (supplies_iff.mp hsupplies),
      fun hdir => hcollection (hdirectory.mp hdir), fun inner hinner => ⟨fun f hproperty => ?_,
      fun hcoll => hdirectory.mpr (hinner.hasCollection hcoll)⟩⟩
    rw [hvalue]
    exact hsucceeded inner f hinner hproperty

/-! ## An etag that is refused -/

/-- Nothing is heard behind a place. -/
def silent (parseDate : Str → Option δ) (f : Property) : List NsEvent → List NsEvent → Bool
  | _, [] => true
  | back, u :: q =>
      !u.opens "response".toList && (heardAt parseDate f back u).isNone &&
        silent parseDate f (u :: back) q

lemma LastHeard.of_silent (hheard : Heard parseDate f p.reverse s)
    (hsilent : silent parseDate f (s :: p.reverse) q = true) : LastHeard parseDate f p s q where
  heard := hheard
  last := by
    clear hheard
    intro q₁ u q₂ hq
    subst hq
    induction q₁ generalizing p s with
    | nil =>
        rw [List.nil_append, silent, Bool.and_eq_true, Bool.and_eq_true, Bool.not_eq_true'] at hsilent
        refine ⟨hsilent.1.1, ?_⟩
        rw [List.reverse_concat]
        rintro ⟨-, hsome⟩
        rw [Option.isNone_iff_eq_none.mp hsilent.1.2] at hsome
        cases hsome
    | cons v q₁ ih =>
        rw [List.cons_append, silent, Bool.and_eq_true] at hsilent
        have hnext := @ih (p ++ [s]) v (by rw [List.reverse_concat]; exact hsilent.2)
        rwa [List.append_assoc] at hnext

/-- A file whose etag is refused. -/
def refusedEtag : List NsEvent :=
  [.start .dav "multistatus".toList, .start .dav "response".toList,
    .start .dav "href".toList, .text "/dav/x/a.txt".toList, .close "href".toList,
    .start .dav "propstat".toList,
      .start .dav "prop".toList,
        .start .dav "getetag".toList, .text "e1".toList, .close "getetag".toList,
      .close "prop".toList,
      .start .dav "status".toList, .text "HTTP/1.1 404 Not Found".toList, .close "status".toList,
    .close "propstat".toList,
  .close "response".toList, .close "multistatus".toList]

/-- The entry has the etag all the same. -/
theorem refusedEtag_contributes :
    ¬ FailedContributeNothing (fun _ => (none : Option ℤ)) refusedEtag := by
  intro h
  have hheard : Heard (fun _ => (none : Option ℤ)) .etag (refusedEtag.take 8).reverse
      (.text "e1".toList) := ⟨by decide, by decide⟩
  have hlast : LastHeard (fun _ => (none : Option ℤ)) .etag (refusedEtag.take 8) (.text "e1".toList)
      ((refusedEtag.take 15).drop 9) := .of_silent hheard (by decide)
  obtain ⟨e, hgives⟩ : ∃ e, Gives (fun _ => (none : Option ℤ)) (refusedEtag.take 15)
      (.close "response".toList) e :=
    exists_gives _ (by decide) (by decide) (by decide)
  refine (h _ _ [.close "multistatus".toList] e rfl hgives).1 .etag _ _ _ rfl
    (supplies_iff.mpr hlast) ?_
  refine ⟨refusedEtag.take 5, (refusedEtag.take 8).drop 6, (refusedEtag.take 14).drop 9,
    refusedEtag.drop 15, rfl, rfl, ?_, "HTTP/1.1 404 Not Found".toList, ?_, by decide⟩
  · unfold Without
    decide
  · exact ⟨(refusedEtag.take 11).drop 6, [.text "HTTP/1.1 404 Not Found".toList], [], rfl, by decide,
      by decide, rfl⟩

end PropfindResponse

end OwncloudSync
