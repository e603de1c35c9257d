import OwncloudSync.Discovery.Propfind
import OwncloudSync.Engine.Env
import Mathlib.Logic.Relation
import Mathlib.Tactic.Common

/-!
# Resumable uploads

`TusClient` (`tus/mod.rs`) creates an upload, sends it piece by piece, and after a break asks the
server how far it got.  A call either gets an answer or an error, and an error does not tell whether
the server has got the request: its answer may be lost, half of its body may have arrived, and a
request that was given up may still come in later, twice even.

**Whatever is lost and whenever it comes in, the server has a beginning of the file, and a client
whose offset is the size has sent it all** (`tusUpload`).  What makes it so is that the server
compares `Upload-Offset` with what it has, and that the client takes its offset from the server.

The server is the one of TUS 1.0, as far as its answers matter: `Answers` and `Tells`.
-/

namespace OwncloudSync

namespace Tus

/-! ## The client -/

/-- The errors of `TusClient`. -/
inductive OcisError where
  | http
  | webDav (message : String)

/-- An answer as the client reads it: headers are there if they are visible ASCII. -/
structure Response where
  status : ℕ
  location : Option Str := none
  uploadOffset : Option Str := none
  uploadLength : Option Str := none

/-- What a call gets: an answer, or an error that says nothing about the server. -/
abbrev Reply := Option Response

section Client

variable {U : Type}

/-- `TusUpload`, over the URLs there are. -/
structure TusUpload (U : Type) where
  uploadUrl : U
  offset : UInt64
  totalSize : UInt64

/-- `TusClient::create`, from the answer on; `parse` is that of URLs. -/
def create (parse : Str → Except String U) (size : UInt64) (reply : Reply) :
    Except OcisError (TusUpload U) :=
  match reply with
  | none => .error .http
  | some resp =>
      if resp.status ≠ 201 then
        .error (.webDav ("TUS create failed: " ++ statusText resp.status))
      else
        match resp.location with
        | none => .error (.webDav "TUS create: missing Location header")
        | some location =>
            match parse location with
            | .error e => .error (.webDav e)
            | .ok url => .ok { uploadUrl := url, offset := 0, totalSize := size }

/-- A PATCH of `TusClient::upload_chunk`. -/
structure PatchRequest where
  uploadOffset : UInt64
  body : List UInt8

/-- `TusClient::upload_chunk`: the request, … -/
def chunkRequest (upload : TusUpload U) (data : List UInt8) : PatchRequest := ⟨upload.offset, data⟩

/-- … and what is made of its answer. -/
def uploadChunk (upload : TusUpload U) (data : List UInt8) (reply : Reply) :
    Except OcisError (TusUpload U) :=
  match reply with
  | none => .error .http
  | some resp =>
      if resp.status ≠ 204 then
        .error (.webDav ("TUS upload_chunk failed: " ++ statusText resp.status))
      else
        .ok { upload with
              offset := (resp.uploadOffset.bind parseU64).getD
                (upload.offset + UInt64.ofNat data.length) }

/-- `TusClient::resume`. -/
def resume (uploadUrl : U) (reply : Reply) : Except OcisError (TusUpload U) :=
  match reply with
  | none => .error .http
  | some resp =>
      -- `error_for_status` refuses client and server errors
      if 400 ≤ resp.status ∧ resp.status < 600 then .error .http
      else
        match resp.uploadOffset.bind parseU64 with
        | none => .error (.webDav "TUS resume: missing Upload-Offset header")
        | some offset =>
            .ok { uploadUrl := uploadUrl, offset := offset
                  totalSize := (resp.uploadLength.bind parseU64).getD 0 }

end Client

/-! ## The server -/

/-- An upload at the server: what has arrived, and how much is to come in all. -/
structure Resource where
  received : List UInt8
  length : UInt64

/-- What the server does with a PATCH.  It refuses what does not begin where it stands or does not fit;
of anything else it takes a part, for the connection may break; and only where it has taken
all may it leave out the offset. -/
inductive Answers (r : Resource) (req : PatchRequest) : Resource → Response → Prop
  | refuse (resp : Response) (h : resp.status ≠ 204) : Answers r req r resp
  | take (n : ℕ) (text : Option Str) (status : ℕ)
      (hoffset : req.uploadOffset.toNat = r.received.length)
      (hfits : r.received.length + req.body.length ≤ r.length.toNat)
      (htext : ∀ t, text = some t → parseU64 t =
        some (UInt64.ofNat (r.received ++ req.body.take n).length))
      (hall : status = 204 → text = none → req.body.length ≤ n) :
      Answers r req { r with received := r.received ++ req.body.take n }
        { status := status, uploadOffset := text }

/-- An answer to HEAD that tells where the upload stands. -/
def Tells (r : Resource) (resp : Response) : Prop :=
  (∃ t, resp.uploadOffset = some t ∧ parseU64 t = some (UInt64.ofNat r.received.length)) ∧
    ∃ t, resp.uploadLength = some t ∧ parseU64 t = some r.length

/-! ## An upload under way -/

/-- The server's side, the client's, and the requests nobody waits for. -/
structure Session (U : Type) where
  resource : Resource
  url : U
  upload : Option (TusUpload U)
  abandoned : List PatchRequest

variable {U : Type} {file : Blob} {s s' s'' : Session U} {u u' : TusUpload U}

/-- What the call of a piece leaves the client with: `&mut upload` keeps its value on an error. -/
def afterCall (before : TusUpload U) : Except OcisError (TusUpload U) → TusUpload U
  | .ok after => after
  | .error _ => before

/-- The piece a caller sends: what comes next in the file. -/
def nextPiece (file : Blob) (upload : TusUpload U) (n : ℕ) : List UInt8 :=
  (file.bytes.drop upload.offset.toNat).take n

/-- A piece is sent, and its answer arrives. -/
inductive Sent (file : Blob) (s : Session U) : Session U → Prop
  | piece {u : TusUpload U} {r : Resource} {resp : Response} (n : ℕ) (hu : s.upload = some u)
      (h : Answers s.resource (chunkRequest u (nextPiece file u n)) r resp) :
      Sent file s { s with
        resource := r
        upload := some (afterCall u (uploadChunk u (nextPiece file u n) (some resp))) }

/-- The client asks the server where it stands, and is told. -/
inductive Asked (s : Session U) : Session U → Prop
  | told {resp : Response} {u : TusUpload U} (h : Tells s.resource resp)
      (hu : resume s.url (some resp) = .ok u) : Asked s { s with upload := some u }

/-- What can happen to an upload. -/
inductive Step (file : Blob) : Session U → Session U → Prop
  /-- a piece whose answer arrives -/
  | chunk {s s' : Session U} (h : Sent file s s') : Step file s s'
  /-- a piece whose answer does not: whether the request arrives is open -/
  | giveUp {s : Session U} {u : TusUpload U} (n : ℕ) (hu : s.upload = some u) :
      Step file s { s with
        upload := some (afterCall u (uploadChunk u (nextPiece file u n) none))
        abandoned := chunkRequest u (nextPiece file u n) :: s.abandoned }
  /-- a request comes in that was given up, and may come in again -/
  | late {s : Session U} {req : PatchRequest} {r : Resource} {resp : Response}
      (hreq : req ∈ s.abandoned) (h : Answers s.resource req r resp) :
      Step file s { s with resource := r }
  /-- the client asks the server where it stands -/
  | ask {s s' : Session U} (h : Asked s s') : Step file s s'
  /-- the client forgets, as after a crash -/
  | forget {s : Session U} : Step file s { s with upload := none }

/-- An upload that `create` has made. -/
def Session.begin (file : Blob) (upload : TusUpload U) : Session U where
  resource := ⟨[], file.len⟩
  url := upload.uploadUrl
  upload := some upload
  abandoned := []

/-- The upload is at the size of the file, for the client. -/
def Session.done (s : Session U) : Prop := ∃ u, s.upload = some u ∧ u.offset = u.totalSize

/-! ## Safety -/

/-- A request carries a piece of the file from where it says. -/
def PatchRequest.Of (file : Blob) (req : PatchRequest) : Prop :=
  req.body <+: file.bytes.drop req.uploadOffset.toNat

/-- What holds at any time. -/
structure Sound (file : Blob) (s : Session U) : Prop where
  part : s.resource.received <+: file.bytes
  length : s.resource.length = file.len
  abandoned : ∀ req ∈ s.abandoned, req.Of file
  behind : ∀ u, s.upload = some u → u.offset.toNat ≤ s.resource.received.length
  size : ∀ u, s.upload = some u → u.totalSize = file.len

lemma received_fits (h : s.resource.received <+: file.bytes) :
    (UInt64.ofNat s.resource.received.length).toNat = s.resource.received.length := by
  have hle := h.length_le
  rw [UInt64.toNat_ofNat', Nat.mod_eq_of_lt (by have := file.fits; omega)]

/-- **The server takes nothing but what comes next.** -/
lemma Answers.part {r r' : Resource} {req : PatchRequest} {resp : Response}
    (h : Answers r req r' resp) (hr : r.received <+: file.bytes) (hreq : req.Of file) :
    r'.received <+: file.bytes ∧ r.received <+: r'.received ∧ r'.length = r.length := by
  cases h with
  | refuse => exact ⟨hr, List.prefix_refl _, rfl⟩
  | take n _ _ hoffset =>
      refine ⟨?_, List.prefix_append _ _, rfl⟩
      obtain ⟨rest, hrest⟩ := hr
      have hpiece : req.body.take n <+: rest := by
        refine (List.take_prefix n req.body).trans ?_
        rw [PatchRequest.Of, hoffset, ← hrest, List.drop_left] at hreq
        exact hreq
      rw [← hrest]
      exact (List.prefix_append_right_inj r.received).mpr hpiece

lemma afterCall_offset (data : List UInt8) (resp : Response) :
    (afterCall u (uploadChunk u data (some resp))).offset = if resp.status ≠ 204 then u.offset
      else (resp.uploadOffset.bind parseU64).getD (u.offset + UInt64.ofNat data.length) := by
  simp only [uploadChunk]
  split
  · rfl
  · rfl

/-- **The client does not get ahead of the server.** -/
lemma offset_after {r : Resource} {resp : Response} {data : List UInt8}
    (h : Answers s.resource (chunkRequest u data) r resp) (hof : (chunkRequest u data).Of file)
    (hs : Sound file s) (hu : s.upload = some u) :
    (afterCall u (uploadChunk u data (some resp))).offset.toNat ≤ r.received.length := by
  obtain ⟨hpart, hmore, -⟩ := h.part hs.part hof
  have hle := hpart.length_le
  have hlt := file.fits
  rw [afterCall_offset]
  split
  · exact (hs.behind u hu).trans hmore.length_le
  · rename_i hstatus
    cases h with
    | refuse _ hno => exact absurd hno hstatus
    | take n text status hoffset _ htext hall =>
        cases text with
        | none =>
            -- the server has taken all, so it stands where the client takes it to stand
            have hlen := hall (by simpa using hstatus) rfl
            simp only [chunkRequest] at hoffset hlen hle ⊢
            rw [List.take_of_length_le hlen, List.length_append] at hle ⊢
            rw [Option.bind_none, Option.getD_none, UInt64.toNat_add, UInt64.toNat_ofNat', hoffset,
              Nat.mod_eq_of_lt (show data.length < 2 ^ 64 by omega)]
            exact Nat.mod_le _ _
        | some t =>
            rw [Option.bind_some, htext t rfl, Option.getD_some, UInt64.toNat_ofNat',
              Nat.mod_eq_of_lt (hle.trans_lt hlt)]

lemma afterCall_size {data : List UInt8} {reply : Reply} :
    (afterCall u (uploadChunk u data reply)).totalSize = u.totalSize := by
  unfold uploadChunk
  split
  · rfl
  · split
    · rfl
    · rfl

lemma nextPiece_of (n : ℕ) : (chunkRequest u (nextPiece file u n)).Of file :=
  List.take_prefix n _

lemma resume_ok {resp : Response} {url : U} (h : resume url (some resp) = .ok u) :
    resp.uploadOffset.bind parseU64 = some u.offset ∧
      u.totalSize = (resp.uploadLength.bind parseU64).getD 0 := by
  simp only [resume] at h
  split at h
  · cases h
  · split at h
    · cases h
    · rename_i hc
      cases h
      exact ⟨hc, rfl⟩

lemma Tells.upload {r : Resource} {resp : Response} {url : U} (h : Tells r resp)
    (hu : resume url (some resp) = .ok u) :
    u.offset = UInt64.ofNat r.received.length ∧ u.totalSize = r.length := by
  obtain ⟨⟨t, ht, hoffset⟩, t', ht', hlength⟩ := h
  obtain ⟨ho, hl⟩ := resume_ok hu
  rw [ht, Option.bind_some, hoffset, Option.some.injEq] at ho
  rw [ht', Option.bind_some, hlength, Option.getD_some] at hl
  exact ⟨ho.symm, hl⟩

/-- **One step**, by what happens. -/
theorem Sound.step (hs : Sound file s) (h : Step file s s') : Sound file s' := by
  cases h with
  | chunk h =>
      obtain ⟨n, hu, h⟩ := h
      obtain ⟨hpart, -, hlength⟩ := h.part hs.part (nextPiece_of n)
      refine ⟨hpart, hlength.trans hs.length, hs.abandoned, fun v hv => ?_, fun v hv => ?_⟩
      · cases hv
        exact offset_after h (nextPiece_of n) hs hu
      · cases hv
        exact afterCall_size.trans (hs.size _ hu)
  | @giveUp u n hu =>
      refine ⟨hs.part, hs.length, fun req hreq => ?_, fun v hv => ?_, fun v hv => ?_⟩
      · rcases List.mem_cons.mp hreq with rfl | hreq
        · exact nextPiece_of n
        · exact hs.abandoned req hreq
      · cases hv
        exact hs.behind u hu
      · cases hv
        exact hs.size u hu
  | late hreq h =>
      obtain ⟨hpart, hmore, hlength⟩ := h.part hs.part (hs.abandoned _ hreq)
      exact ⟨hpart, hlength.trans hs.length, hs.abandoned,
        fun v hv => (hs.behind v hv).trans hmore.length_le, hs.size⟩
  | ask h =>
      obtain ⟨h, hu⟩ := h
      obtain ⟨hoffset, htotal⟩ := h.upload hu
      refine ⟨hs.part, hs.length, hs.abandoned, fun v hv => ?_, fun v hv => ?_⟩
      · cases hv
        rw [hoffset, received_fits hs.part]
      · cases hv
        rw [htotal, hs.length]
  | forget =>
      refine ⟨hs.part, hs.length, hs.abandoned, fun v hv => ?_, fun v hv => ?_⟩
      · cases hv
      · cases hv

/-- What `create` makes stands at the beginning. -/
lemma create_ok {parse : Str → Except String U} {size : UInt64} {reply : Reply}
    (h : create parse size reply = .ok u) : u.offset = 0 ∧ u.totalSize = size := by
  unfold create at h
  split at h
  · cases h
  · split at h
    · cases h
    · split at h
      · cases h
      · split at h
        · cases h
        · cases h
          exact ⟨rfl, rfl⟩

lemma sound_begin {parse : Str → Except String U} {reply : Reply}
    (h : create parse file.len reply = .ok u) : Sound file (Session.begin file u) where
  part := List.nil_prefix
  length := rfl
  abandoned req hreq := absurd hreq List.not_mem_nil
  behind v hv := by
    cases hv
    rw [(create_ok h).1]
    simp
  size v hv := by
    cases hv
    exact (create_ok h).2

lemma Sound.run (hs : Sound file s) (h : Relation.ReflTransGen (Step file) s s') :
    Sound file s' := by
  induction h with
  | refl => exact hs
  | tail _ hstep ih => exact ih.step hstep

/-- When the client's offset is the size, the server has the file. -/
lemma Sound.whole (hs : Sound file s) (h : s.done) : s.resource.received = file.bytes := by
  obtain ⟨u, hu, hdone⟩ := h
  refine hs.part.eq_of_length_le ?_
  rw [← Blob.len_toNat, ← hs.size u hu, ← hdone]
  exact hs.behind u hu

/-! ## Getting on -/

/-- The numerals a server writes are read back. -/
lemma parseU64_toDigits (n : UInt64) : parseU64 (Nat.toDigits 10 n.toNat) = some n := by
  have hdigit : ∀ c ∈ Nat.toDigits 10 n.toNat, c.isDigit = true := fun c hc =>
    Nat.isDigit_of_mem_toDigits (by decide) (by decide) hc
  have hplus : ∀ rest, Nat.toDigits 10 n.toNat ≠ '+' :: rest := by
    intro rest hc
    exact absurd (hdigit '+' (by rw [hc]; exact List.mem_cons_self)) (by decide)
  have hvalue := Nat.ofDigitChars_toDigits (b := 10) (n := n.toNat) (by decide) (by decide)
  rw [parseU64.eq_def]
  split
  · rename_i rest hc
    exact absurd hc (hplus rest)
  · rw [if_pos ⟨Nat.toDigits_ne_nil, List.all_eq_true.mpr hdigit⟩]
    rw [Nat.ofDigitChars] at hvalue
    simp only [hvalue, n.toNat_lt, if_true, UInt64.ofNat_toNat]

/-- **An answer of 204 brings the client to where the server stands**, wherever it took itself to be. -/
lemma Sound.caught_up {r : Resource} {resp : Response} {data : List UInt8} (hs : Sound file s)
    (hof : (chunkRequest u data).Of file) (h : Answers s.resource (chunkRequest u data) r resp)
    (hstatus : resp.status = 204) :
    (afterCall u (uploadChunk u data (some resp))).offset.toNat = r.received.length := by
  have hpart := (h.part hs.part hof).1
  have hlen := hpart.length_le.trans_lt file.fits
  rw [afterCall_offset, if_neg (not_not.mpr hstatus)]
  cases h with
  | refuse _ hno => exact absurd hstatus hno
  | take n text _ hoffset _ htext hall =>
      cases text with
      | none =>
          have hle := hall hstatus rfl
          simp only [chunkRequest] at hoffset hle hlen ⊢
          rw [List.take_of_length_le hle, List.length_append] at hlen ⊢
          rw [Option.bind_none, Option.getD_none, UInt64.toNat_add, UInt64.toNat_ofNat', hoffset,
            Nat.mod_eq_of_lt (show data.length < 2 ^ 64 by omega), Nat.mod_eq_of_lt hlen]
      | some t =>
          rw [Option.bind_some, htext t rfl, Option.getD_some, UInt64.toNat_ofNat',
            Nat.mod_eq_of_lt hlen]

/-- **Two calls that get their answers are enough**: one to ask, and one to send the rest. -/
lemma Sound.finish (hs : Sound file s) :
    ∃ s₁ s₂, Asked s s₁ ∧ Sent file s₁ s₂ ∧ s₂.done := by
  let offset := UInt64.ofNat s.resource.received.length
  have hoffset : offset.toNat = s.resource.received.length := received_fits hs.part
  let there : TusUpload U := ⟨s.url, offset, s.resource.length⟩
  let data := nextPiece file there file.bytes.length
  obtain ⟨rest, hrest⟩ := hs.part
  have hdata : data = rest := by
    show (file.bytes.drop offset.toNat).take file.bytes.length = rest
    rw [hoffset, ← hrest, List.drop_left, List.take_of_length_le]
    rw [List.length_append]
    omega
  let head : Response := ⟨200, none, some (Nat.toDigits 10 offset.toNat),
    some (Nat.toDigits 10 s.resource.length.toNat)⟩
  have hask : Asked s { s with upload := some there } := by
    have htells : Tells s.resource head :=
      ⟨⟨_, rfl, parseU64_toDigits offset⟩, _, rfl, parseU64_toDigits _⟩
    refine .told htells ?_
    simp [resume, head, there, parseU64_toDigits]
  -- the server takes the rest, and leaves out the offset
  have hanswer : Answers s.resource (chunkRequest there data)
      { s.resource with received := s.resource.received ++ data.take data.length }
      { status := 204, uploadOffset := none } := by
    refine .take data.length none 204 hoffset ?_ (fun t ht => by cases ht) (fun _ _ => le_refl _)
    rw [chunkRequest, hs.length, Blob.len_toNat, hdata, ← hrest, List.length_append]
  refine ⟨_, _, hask, .piece file.bytes.length rfl hanswer, _, rfl, ?_⟩
  have hup := (hs.step (.ask hask)).caught_up (nextPiece_of _) hanswer rfl
  rw [List.take_length, hdata, hrest] at hup
  rw [afterCall_size, ← UInt64.toNat_inj, show there.totalSize = file.len from hs.length,
    Blob.len_toNat]
  exact hup

/-- **What a resumable upload can rely on**, after any calls, answered or not.  The server has a
beginning of the file; a client that stands at the size has sent it all; an answer of 204 brings
a client to where the server is; and asking once and sending once, both answered, can finish. -/
theorem tusUpload (file : Blob) (parse : Str → Except String U) (reply : Reply) {upload : TusUpload U}
    (hcreate : create parse file.len reply = .ok upload) {s : Session U}
    (h : Relation.ReflTransGen (Step file) (Session.begin file upload) s) :
    s.resource.received <+: file.bytes ∧
    (s.done → s.resource.received = file.bytes) ∧
    (∀ u n r resp, s.upload = some u →
      Answers s.resource (chunkRequest u (nextPiece file u n)) r resp → resp.status = 204 →
        (afterCall u (uploadChunk u (nextPiece file u n) (some resp))).offset.toNat =
          r.received.length) ∧
    ∃ s₁ s₂, Asked s s₁ ∧ Sent file s₁ s₂ ∧ s₂.done := by
  have hs := (sound_begin hcreate).run h
  exact ⟨hs.part, hs.whole, fun u n r resp _ hanswer hstatus =>
    hs.caught_up (nextPiece_of n) hanswer hstatus, hs.finish⟩

/-- Three bytes. -/
def threeBytes : Blob := ⟨[50, 51, 52], by decide⟩

/-- The first two have been given up, and one of them has come in since. -/
def oneLate : Session Unit where
  resource := ⟨[50], 3⟩
  url := ()
  upload := some ⟨(), 0, 3⟩
  abandoned := [⟨0, [50, 51]⟩]

/-- The theorem there: the client takes itself to be at 0, and can still finish. -/
theorem tusUpload_oneLate : oneLate.resource.received <+: threeBytes.bytes ∧
    ∃ s₁ s₂, Asked oneLate s₁ ∧ Sent threeBytes s₁ s₂ ∧ s₂.done := by
  have hlate : Answers (⟨[], 3⟩ : Resource) ⟨0, [50, 51]⟩ ⟨[50], 3⟩ ⟨500, none, none, none⟩ :=
    .take 1 none 500 rfl (by decide) (fun t ht => by cases ht) (fun hc => by cases hc)
  have hcreate : create (fun _ => .ok ()) threeBytes.len
      (some { status := 201, location := some "/u".toList }) = .ok ⟨(), 0, 3⟩ := rfl
  obtain ⟨hpart, -, -, hfinish⟩ := tusUpload threeBytes _ _ hcreate (s := oneLate)
    ((Relation.ReflTransGen.single (.giveUp 2 rfl)).tail
      (.late (List.mem_singleton.mpr rfl) hlate))
  exact ⟨hpart, hfinish⟩

end Tus

end OwncloudSync
