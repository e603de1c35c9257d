import OwncloudSync.Discovery.AllOrNothing
import OwncloudSync.Discovery.Containment
import Mathlib.Tactic.Common

/-!
# Listings that end early

A multistatus document as a sequence of `Token`s, each with its source text, and what the XML
reader yields for the first `k` characters of it (`cutEvents`).  The reader reports markup that is
cut off as an error; **the end of the input between two tokens, or inside text, is just the end**,
however many elements are open.  `parse_propfind` stops there and keeps what it has
(`parsePropfind_error_iff`), so a prefix is rejected exactly if the cut falls inside markup
(`truncated_rejected_iff`).

Elements nest by construction (`Content`).  The reader itself is a parameter: `ReadsPrefixes` is
what it does with the prefixes of one document.
-/

namespace OwncloudSync

/-! ## Documents -/

/-- A piece of an XML document. -/
inductive Token where
  | start (name attributes : Str)
  | empty (name attributes : Str)
  | close (name blanks : Str)
  | comment (text : Str)
  | cdata (text : Str)
  /-- a processing instruction or the XML declaration -/
  | instruction (text : Str)
  | doctype (text : Str)
  | reference (name : Str)
  | chars (text : Str)

namespace Token

/-- Its text in the document. -/
def source : Token → Str
  | start name attributes => '<' :: name ++ attributes ++ ['>']
  | empty name attributes => '<' :: name ++ attributes ++ ['/', '>']
  | close name blanks => '<' :: '/' :: name ++ blanks ++ ['>']
  | comment text => "<!--".toList ++ text ++ "-->".toList
  | cdata text => "<![CDATA[".toList ++ text ++ "]]>".toList
  | instruction text => "<?".toList ++ text ++ "?>".toList
  | doctype text => "<!DOCTYPE".toList ++ text ++ ['>']
  | reference name => '&' :: name ++ [';']
  | chars text => text

/-- It is character data. -/
def isChars : Token → Bool
  | chars _ => true
  | _ => false

/-- What may stand before and after the root element. -/
def isMisc : Token → Bool
  | comment _ => true
  | instruction _ => true
  | doctype _ => true
  | chars text => text.all (fun c => c ∈ [' ', '\t', '\r', '\n'])
  | _ => false

end Token

/-- What stands inside an element. -/
inductive Content where
  | done
  | token (t : Token) (rest : Content)
  | element (name attributes : Str) (inside : Content) (blanks : Str) (rest : Content)

/-- The pieces of the content, in order. -/
def Content.tokens : Content → List Token
  | .done => []
  | .token t rest => t :: rest.tokens
  | .element name attributes inside blanks rest =>
      .start name attributes :: inside.tokens ++ .close name blanks :: rest.tokens

/-- `local_name`: what follows the first colon. -/
def localName (name : Str) : Str :=
  if ':' ∈ name then (name.dropWhile (· ≠ ':')).tail else name

/-- A name has at least one character and none that ends it. -/
def isXmlName (s : Str) : Bool :=
  s ≠ [] && s.all (fun c => c ∉ " \t\r\n<>&/\"'!?=".toList)

/-- The quotes of an attribute list are closed, and no `>` stands outside them. -/
def quotesClosed : Option Char → Str → Bool
  | none, [] => true
  | some _, [] => false
  | none, c :: s =>
      if c = '"' ∨ c = '\'' then quotesClosed (some c) s
      else c ≠ '>' && c ≠ '<' && quotesClosed none s
  | some quote, c :: s => if c = quote then quotesClosed none s else quotesClosed (some quote) s

/-- The word stands somewhere in `s`. -/
def isPart (word s : Str) : Bool := s.tails.any word.isPrefixOf

/-- Each token can be told from the next. -/
def Token.wellFormed : Token → Bool
  | .start name attributes =>
      isXmlName name && quotesClosed none attributes && attributes.getLast? ≠ some '/'
  | .empty name attributes => isXmlName name && quotesClosed none attributes
  | .close name blanks => isXmlName name && blanks.all (fun c => c ∈ [' ', '\t', '\r', '\n'])
  | .comment text => !isPart "--".toList text && text.getLast? ≠ some '-'
  | .cdata text => !isPart "]]>".toList text
  | .instruction text => !isPart "?>".toList text
  | .doctype _ => true
  | .reference name => name ≠ [] && name.all (fun c => c ∉ [';', '&', '<'])
  | .chars text => text ≠ [] && text.all (fun c => c ∉ ['<', '&'])

/-- No two pieces of text in a row: they would be one. -/
def separated : List Token → Bool
  | [] => true
  | [_] => true
  | t :: t' :: ts => !(t.isChars && t'.isChars) && separated (t' :: ts)

/-- Start and end tags are in `Content.element` only. -/
def Content.nested : Content → Bool
  | .done => true
  | .token (.start _ _) _ => false
  | .token (.close _ _) _ => false
  | .token _ rest => rest.nested
  | .element _ _ inside _ rest => inside.nested && rest.nested

/-- A well-formed document with a `multistatus` as its root. -/
structure Multistatus where
  prolog : List Token
  name : Str
  attributes : Str
  content : Content
  blanks : Str
  epilog : List Token
  root_name : localName name = "multistatus".toList
  misc : (prolog ++ epilog).all Token.isMisc = true
  nested : content.nested = true
  wellFormed : (prolog ++ (Content.element name attributes content blanks .done).tokens ++
    epilog).all Token.wellFormed = true
  separated : separated (prolog ++ (Content.element name attributes content blanks .done).tokens ++
    epilog) = true

/-- The pieces of the document. -/
def Multistatus.tokens (doc : Multistatus) : List Token :=
  doc.prolog ++ (Content.element doc.name doc.attributes doc.content doc.blanks .done).tokens ++
    doc.epilog

/-- The text of the pieces. -/
def sourceOf (ts : List Token) : Str := ts.flatMap Token.source

/-- The text of the document. -/
def Multistatus.source (doc : Multistatus) : Str := sourceOf doc.tokens

/-! ## The reader -/

/-- `trim_text(true)`: without the blanks of XML at the ends. -/
def trimBlanks (s : Str) : Str :=
  ((s.dropWhile (fun c => c ∈ [' ', '\t', '\r', '\n'])).reverse.dropWhile
    (fun c => c ∈ [' ', '\t', '\r', '\n'])).reverse

/-- `trim_text(true)`: blanks around a text go, and a blank text is no event. -/
def textEvents (s : Str) : List XmlEvent :=
  if trimBlanks s = [] then [] else [.text (trimBlanks s)]

/-- The events that quick-xml gives for a piece. -/
def Token.events : Token → List XmlEvent
  | .start name _ => [.start (localName name)]
  | .empty name _ => [.empty (localName name)]
  | .close name _ => [.close (localName name)]
  | .chars text => textEvents text
  | _ => [.other]

/-- The events for the first `k` characters of a sequence of tokens. -/
def cutEvents (message : String) : List Token → ℕ → List XmlEvent
  | [], _ => []
  | t :: ts, k =>
      if t.source.length ≤ k then t.events ++ cutEvents message ts (k - t.source.length)
      else if k = 0 then []
      else
        match t with
        | .chars text => textEvents (text.take k)
        | _ => [.malformed message]

/-- The cut falls inside a tag, a comment, a reference or other markup. -/
def cutInMarkup : List Token → ℕ → Bool
  | [], _ => false
  | t :: ts, k =>
      if t.source.length ≤ k then cutInMarkup ts (k - t.source.length)
      else k ≠ 0 && !t.isChars

/-- What the reader does with the prefixes of a document: complete tokens are events, markup that
is cut off is an error, and open elements at the end of the input are none. -/
def ReadsPrefixes (read : Str → List XmlEvent) (doc : Multistatus) : Prop :=
  ∀ k ≤ doc.source.length, ∃ message,
    read (doc.source.take k) = cutEvents message doc.tokens k

/-- A body is rejected: `parse_propfind` fails on it, and so does every run in which a collection
is answered with it, before anything is touched. -/
def Rejected (enc : Str → Str) (spaceRoot : Str) (body : List XmlEvent) : Prop :=
  (∀ url, ∃ e, parsePropfind enc spaceRoot url body = .error e) ∧
  ∀ (κ : EngineConfig) (ε : Env) (σ : State) (φ : Phase1 σ.disk) (π : Schedule σ) (url : Str),
    (url, some (.answer 207 body)) ∈ φ.asked enc spaceRoot →
    let r := runSync κ (φ.env enc spaceRoot ε) π
    (∃ e, discoverRemote enc spaceRoot φ.received = .error e) ∧ (∃ e, r.1 = .error e) ∧
      r.2.disk = σ.disk ∧ r.2.space = σ.space ∧ r.2.journal = σ.journal

variable {enc : Str → Str} {spaceRoot url : Str} {body : List XmlEvent} {st : ParseState}

/-! ## What the parser makes of it -/

/-- The reader has given up. -/
def XmlEvent.isMalformed : XmlEvent → Bool
  | .malformed _ => true
  | _ => false

/-- Only an error of the reader makes the parser fail. -/
lemma parseEvents_error_iff :
    (∃ e, parseEvents enc spaceRoot url body st = .error e) ↔
      body.any XmlEvent.isMalformed = true := by
  induction body generalizing st with
  | nil => simp [parseEvents]
  | cons event events ih =>
      cases event with
      | malformed message => simp [parseEvents, XmlEvent.isMalformed]
      | start name => rw [parseEvents]; exact ih
      | empty name => rw [parseEvents]; exact ih
      | text text => rw [parseEvents]; exact ih
      | close name => rw [parseEvents]; exact ih
      | other => rw [parseEvents]; exact ih

lemma parsePropfind_error_iff :
    (∃ e, parsePropfind enc spaceRoot url body = .error e) ↔
      body.any XmlEvent.isMalformed = true := by
  have hevents : (∃ e, parseEvents enc spaceRoot url body {} = .error e) ↔
      body.any XmlEvent.isMalformed = true := parseEvents_error_iff
  rw [← hevents, parsePropfind]
  cases parseEvents enc spaceRoot url body {} <;> simp

/-- A body is rejected exactly if the reader reports an error in it. -/
lemma rejected_iff : Rejected enc spaceRoot body ↔ body.any XmlEvent.isMalformed = true := by
  constructor
  · intro h
    exact parsePropfind_error_iff.mp (h.1 spaceRoot)
  · intro h
    have herr : ∀ url, ∃ e, parsePropfind enc spaceRoot url body = .error e :=
      fun url => parsePropfind_error_iff.mpr h
    refine ⟨herr, fun κ ε σ φ π url hasked => ?_⟩
    have hnot : ¬ Answered enc spaceRoot (url, some (.answer 207 body)) := by
      rintro ⟨reply, listed, hr, hp⟩
      obtain rfl := Option.some.inj hr
      obtain ⟨events, hreply, hok⟩ := Reply.parsed_eq_some hp
      obtain ⟨-, rfl⟩ := Reply.answer.inj hreply
      obtain ⟨e, he⟩ := herr url
      exact absurd (hok.symm.trans he) (by simp)
    have hwalk : ∃ e, discoverRemote enc spaceRoot φ.received = .error e := by
      cases hd : discoverRemote enc spaceRoot φ.received with
      | error e => exact ⟨e, rfl⟩
      | ok entries => exact absurd (discoverLoop_ok_iff.mp ⟨entries, hd⟩ _ hasked) hnot
    obtain ⟨e, he, hkept⟩ :=
      Phase1.run_of_fails (κ := κ) (ε := ε) (π := π) (Or.inr (Or.inr (Or.inr ⟨_, hasked, hnot⟩)))
    exact ⟨hwalk, ⟨e, he⟩, hkept⟩

/-! ## Where the cut falls -/

lemma textEvents_not_malformed (s : Str) :
    (textEvents s).any XmlEvent.isMalformed = false := by
  unfold textEvents
  split <;> rfl

lemma Token.events_not_malformed (t : Token) : t.events.any XmlEvent.isMalformed = false := by
  cases t with
  | chars text => exact textEvents_not_malformed text
  | _ => rfl

/-- The reader reports an error exactly if the cut falls inside markup. -/
lemma cutEvents_malformed (message : String) (ts : List Token) (k : ℕ) :
    (cutEvents message ts k).any XmlEvent.isMalformed = cutInMarkup ts k := by
  induction ts generalizing k with
  | nil => rfl
  | cons t ts ih =>
      unfold cutEvents cutInMarkup
      by_cases hk : t.source.length ≤ k
      · rw [if_pos hk, if_pos hk, List.any_append, t.events_not_malformed, Bool.false_or, ih]
      · rw [if_neg hk, if_neg hk]
        by_cases hzero : k = 0
        · simp [hzero]
        · rw [if_neg hzero]
          cases t with
          | chars text => simpa [Token.isChars] using textEvents_not_malformed (text.take k)
          | _ => simp [XmlEvent.isMalformed, Token.isChars, hzero]

/-- **A truncated listing is rejected exactly if the cut falls inside markup**, for every prefix
of every document. -/
theorem truncated_rejected_iff (doc : Multistatus) (read : Str → List XmlEvent)
    (hread : ReadsPrefixes read doc) (enc : Str → Str) (spaceRoot : Str) (k : ℕ)
    (hk : k ≤ doc.source.length) :
    Rejected enc spaceRoot (read (doc.source.take k)) ↔ cutInMarkup doc.tokens k = true := by
  obtain ⟨message, hm⟩ := hread k hk
  rw [rejected_iff, hm, cutEvents_malformed]

/-! ## A document with one file -/

/-- A reader for the prefixes of one document. -/
def prefixReader (doc : Multistatus) (s : Str) : List XmlEvent :=
  cutEvents "syntax error: tag not closed" doc.tokens s.length

lemma prefixReader_reads (doc : Multistatus) : ReadsPrefixes (prefixReader doc) doc := by
  intro k hk
  refine ⟨"syntax error: tag not closed", ?_⟩
  rw [prefixReader, List.length_take, min_eq_left hk]

/-- The listing of a root with one file. -/
def oneFile : Multistatus where
  prolog := [.instruction "xml version=\"1.0\"".toList]
  name := "d:multistatus".toList
  attributes := " xmlns:d=\"DAV:\"".toList
  content :=
    .element "d:response".toList []
      (.element "d:href".toList [] (.token (.chars "/dav/x/a.txt".toList) .done) []
        (.element "d:getetag".toList [] (.token (.chars "e1".toList) .done) [] .done))
      [] .done
  blanks := []
  epilog := []
  root_name := by decide
  misc := by decide
  nested := by decide
  wellFormed := by decide
  separated := by decide

/-- Cut inside the first tag of the root element, the document is rejected. -/
theorem oneFile_rejected : Rejected id "/dav/x/".toList
    (prefixReader oneFile (oneFile.source.take 30)) :=
  (truncated_rejected_iff oneFile _ (prefixReader_reads oneFile) id "/dav/x/".toList 30
    (by decide +kernel)).mpr (by decide +kernel)

/-- The file is on the disk and was synced before. -/
def syncedHost : Host ["sync".toList] :=
  { freshHost ["sync".toList] with
    listing := fun p =>
      if p = ["a.txt".toList] then
        some { path := "a.txt".toList, mtime := 0, size := 0, isDir := false }
      else none
    journal := fun key =>
      if key = [.normal "a.txt".toList] then some ("e1".toList, 0) else none }

/-- What the run does with the file when `body` answers the PROPFIND of the space. -/
def decided (body : List XmlEvent) : Option SyncInstruction :=
  match discoverRemote id "/dav/x/".toList [.answer 207 body] with
  | .error _ => none
  | .ok entries =>
      some (reconcile (localOf syncedHost [.normal "a.txt".toList])
        (remoteOf entries [.normal "a.txt".toList]) (syncedHost.journal [.normal "a.txt".toList])
        syncedHost.strategy)

/-- The whole document leaves the file alone.  The empty prefix of it is not rejected, and the file
is deleted; so it is when the cut falls after the root's opening tag. -/
theorem emptyBody_not_rejected :
    decided (prefixReader oneFile oneFile.source) = some .ignore ∧
    ¬ Rejected id "/dav/x/".toList (prefixReader oneFile (oneFile.source.take 0)) ∧
    decided (prefixReader oneFile (oneFile.source.take 0)) = some .deleteLocal ∧
    decided (prefixReader oneFile (oneFile.source.take 51)) = some .deleteLocal := by
  refine ⟨by decide +kernel, ?_, by decide +kernel, by decide +kernel⟩
  intro h
  exact absurd (rejected_iff.mp h) (by decide)

end OwncloudSync
