import OwncloudSync.Discovery.AllOrNothing
import OwncloudSync.Discovery.Containment
import Mathlib.Tactic.Common

/-!
# The requests of a run

Every request `run_sync` sends with the bearer token, with its URL.  The URLs are made in four
ways: `join_remote_path` pushes segments to the path of `space_root` (PROPFIND, GET, PUT, MKCOL,
DELETE and the POST of an upload), `ensure_parent_collections` calls `Url::join` on what is left of
the path of the file (MKCOL), and `upload_tus` takes the `Location` header of the server as the URL
of its PATCH, or puts it behind scheme, host and port.

The URL library is a parameter (`UrlCrate`).  It also decides what a scheme and an authority name;
`schemeOf` and `authorityOf` cut them out of the text of a web URL.  A client that is asked for
anything but `http` and `https` sends nothing.
-/

namespace OwncloudSync

open LexicalPath

/-! ## URLs -/

/-- `url::Origin`, of a URL that has a host. -/
structure Origin where
  scheme : Str
  host : Str
  /-- unless it is the default port of the scheme -/
  port : Option ℕ
  deriving DecidableEq

/-- A URL, as far as a request goes by it. -/
structure Url where
  origin : Origin
  path : Str
  deriving DecidableEq

/-- `set_path`. -/
def Url.setPath (u : Url) (path : Str) : Url := { u with path := path }

/-- reqwest sends to http and https only. -/
def Url.isWeb (u : Url) : Bool :=
  u.origin.scheme = "http".toList || u.origin.scheme = "https".toList

/-- What the engine uses of the URL library. -/
structure UrlCrate where
  /-- the encoding of a path segment -/
  encode : Str → Str
  parse : Str → Option Url
  join : Url → Str → Option Url
  /-- what a web scheme and an authority name -/
  authority : Str → Str → Option Origin

/-- The parser ignores tabs, line ends and the blanks around a text. -/
def tidy (text : Str) : Str :=
  ((text.dropWhile (· ≤ ' ')).reverse.dropWhile (· ≤ ' ')).reverse.filter
    (fun c => c ∉ ['\t', '\n', '\r'])

/-- The scheme that a text begins with. -/
def schemeOf (text : Str) : Str := ((tidy text).takeWhile (· ≠ ':')).map Char.toLower

/-- What stands between the slashes after the scheme and the path, the query or the fragment. -/
def authorityOf (text : Str) : Str :=
  ((((tidy text).dropWhile (· ≠ ':')).tail).dropWhile (fun c => c ∈ ['/', '\\'])).takeWhile
    (fun c => c ∉ ['/', '\\', '?', '#'])

/-- A text that begins with a web scheme. -/
def isWebText (text : Str) : Bool :=
  ':' ∈ tidy text && (schemeOf text = "http".toList || schemeOf text = "https".toList)

/-- `join_remote_path`. -/
def remoteUrl (crate : UrlCrate) (spaceRoot : Url) (rel : Str) : Url :=
  spaceRoot.setPath (joinRemotePath crate.encode spaceRoot.path rel)

/-- The URL of a collection ends with a slash. -/
def collectionUrl (u : Url) : Url :=
  if u.path.getLast? = some '/' then u else u.setPath (u.path ++ ['/'])

/-! ## Requests -/

/-- The methods of WebDAV and TUS that are used. -/
inductive Method where
  | propfind
  | get
  | put
  | mkcol
  | delete
  | post
  | patch
  deriving DecidableEq

/-- A request; all of them carry the token. -/
structure Request where
  method : Method
  url : Url
  deriving DecidableEq

/-- `send`. -/
def sent (method : Method) (u : Url) : List Request := if u.isWeb then [⟨method, u⟩] else []

/-- What the task of one path meets. -/
structure Answers where
  /-- the local file can be read -/
  readable : Bool
  size : UInt64
  /-- the local file could be renamed to its conflict copy -/
  setAside : Bool
  /-- the status that answers the first PUT -/
  put : Option ℕ
  /-- the status that answers the MKCOL of each ancestor -/
  mkcol : ℕ → Option ℕ
  /-- status and `Location` that answer the POST -/
  post : Option (ℕ × Option Str)

/-- The references `ensure_parent_collections` joins: all but the whole of the path below the
space, cut at its slashes. -/
def ancestorRefs (spaceRoot remote : Url) : List Str :=
  let rootPath := trimEndSlash spaceRoot.path
  let rel := trimStartSlash ((stripPrefix rootPath remote.path).getD remote.path)
  let parts := rel.splitOn '/'
  (List.range (parts.length - 1)).map (fun i => ['/'].intercalate (parts.take (i + 1)))

/-- The statuses that `mkcol` takes for success. -/
def mkcolSucceeds (status : Option ℕ) : Bool :=
  status = some 201 || status = some 200 || status = some 405

/-- The loop of `ensure_parent_collections`: its requests, and whether it succeeds. -/
def parentCollectionRequests (crate : UrlCrate) (spaceRoot : Url) (mkcol : ℕ → Option ℕ) :
    List Str → ℕ → List Request × Bool
  | [], _ => ([], true)
  | ref :: refs, i =>
      match crate.join spaceRoot ref with
      | none => ([], false)
      | some u =>
          let request := sent .mkcol (collectionUrl u)
          if u.isWeb && mkcolSucceeds (mkcol i) then
            let r := parentCollectionRequests crate spaceRoot mkcol refs (i + 1)
            (request ++ r.1, r.2)
          else (request, false)

/-- `upload_put`. -/
def uploadPutRequests (crate : UrlCrate) (spaceRoot remote : Url) (a : Answers) : List Request :=
  if a.readable then
    sent .put remote ++
      if a.put = some 409 then
        let r := parentCollectionRequests crate spaceRoot a.mkcol (ancestorRefs spaceRoot remote) 0
        r.1 ++ if r.2 then sent .put remote else []
      else []
  else []

/-- The text of the PATCH URL. -/
def patchText (remote : Url) (location : Str) : Str :=
  if "http://".toList <+: location ∨ "https://".toList <+: location then location
  else
    let host := remote.origin.scheme ++ "://".toList ++ remote.origin.host
    match remote.origin.port with
    | some port => host ++ ':' :: Nat.toDigits 10 port ++ location
    | none => host ++ location

/-- `upload_tus`. -/
def uploadTusRequests (crate : UrlCrate) (remote : Url) (a : Answers) : List Request :=
  sent .post remote ++
    match a.post with
    | some (201, some location) =>
        if a.readable then
          match crate.parse (patchText remote location) with
          | some u => sent .patch u
          | none => []
        else []
    | _ => []

/-- `propagate_upload`. -/
def uploadRequests (crate : UrlCrate) (spaceRoot remote : Url) (tusThreshold : UInt64)
    (a : Answers) : List Request :=
  if tusThreshold ≤ a.size then uploadTusRequests crate remote a
  else uploadPutRequests crate spaceRoot remote a

/-- The requests of one path: phase 3a for a directory, a task of phase 3b for a file. -/
def taskRequests (crate : UrlCrate) (spaceRoot remote : Url) (tusThreshold : UInt64)
    (a : Answers) : Bool → SyncInstruction → List Request
  | true, .upload => sent .mkcol remote
  | true, .deleteRemote => sent .delete remote
  | true, _ => []
  | false, .upload => uploadRequests crate spaceRoot remote tusThreshold a
  | false, .download => sent .get remote
  | false, .conflict => if a.setAside then sent .get remote else []
  | false, .deleteRemote => sent .delete remote
  | false, _ => []

/-! ## The run -/

/-- Its text. -/
def Component.text : Component → Str
  | .rootDir => []
  | .curDir => ['.']
  | .parentDir => ['.', '.']
  | .normal n => n

/-- The text of a key.  Two spellings of one key have one URL: `join_remote_path` leaves out empty
parts and dots. -/
def relText (key : List Component) : Str := ['/'].intercalate (key.map Component.text)

/-- A run of the engine as its server and its local side see it. -/
structure Exchange where
  crate : UrlCrate
  spaceRoot : Url
  tusThreshold : UInt64
  localRoot : Path
  host : Host localRoot
  replies : List Reply
  answers : List Component → Answers

namespace Exchange

variable (x : Exchange)

/-- The instruction of a path, with the type it is handled as. -/
def planned (entries : List RemoteEntry) (key : List Component) : Bool × SyncInstruction :=
  let loc := localOf x.host key
  let rem := remoteOf entries key
  (((loc.map (·.isDir)).or (rem.map (·.isDir))).getD false,
    reconcile loc rem (x.host.journal key) x.host.strategy)

/-- The PROPFINDs of the remote walk. -/
def propfinds : List Request :=
  (requests x.crate.encode x.spaceRoot.path x.replies [x.spaceRoot.path]
    [trimEndSlash x.spaceRoot.path]).flatMap
    (fun r => sent .propfind (x.spaceRoot.setPath r.1))

/-- `remote_url` of a path. -/
def remote (key : List Component) : Url := remoteUrl x.crate x.spaceRoot (relText key)

/-- The requests of the task of a path. -/
def ofKey (entries : List RemoteEntry) (key : List Component) : List Request :=
  taskRequests x.crate x.spaceRoot (x.remote key) x.tusThreshold (x.answers key)
    (x.planned entries key).1 (x.planned entries key).2

/-- The run sends the request. -/
def Sends (request : Request) : Prop :=
  request ∈ x.propfinds ∨
  ∃ entries key, discoverRemote x.crate.encode x.spaceRoot.path x.replies = .ok entries ∧
    request ∈ x.ofKey entries key

end Exchange

end OwncloudSync
