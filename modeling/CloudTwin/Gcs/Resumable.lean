/-
**Resumable uploads** (`gcp/storage/handlers.rs`).

A session keeps what has been received. A chunk names the offset where it begins: what was received
from there on is dropped, and the chunk is appended. The session is complete once a request states the
total and that many bytes are there, or sends the whole object.

* `parseContentRange`, `startResumable`, `resumablePut`, `storeObject` — the requests.
* `Request` — what a client that uploads one content sends.
* `parse_header` — its headers are read; `put_session`, what a request does to a session that
  holds a part of the content from the start.
* `Reached`, `resumable_assembles` — over all requests, whatever else happens in between.
-/

import CloudTwin.Gcs.Service
import CloudTwin.Lib.ByteRange
import CloudTwin.Lib.Words

namespace CloudTwin.Gcs

open Lib Lib.Text

set_option linter.unusedSectionVars false

/-! ### Requests -/

/-- Parsed `Content-Range` of a resumable upload request. -/
structure ChunkRange where
  /-- Offset of the first byte in this request (none for `bytes */N`). -/
  start : Option Nat
  /-- Total object size, when the client knows it. -/
  total : Option Nat
  deriving DecidableEq

/-- The total, `*` if it is not known. -/
def readTotal (total : String) : Option (Option Nat) :=
  if total = "*" then some none else (parseU64 total).map some

/-- The offset where a range begins, `*` for none. -/
def readStart (range : String) : Option (Option Nat) :=
  if range = "*" then some none
  else (splitOnce '-' range).bind fun parts => (parseU64 (trim parts.1)).map some

def parseContentRange (text : String) : Option ChunkRange :=
  let value := trim text
  if startsWith value "bytes" = false then none
  else
    let rest := trim (String.ofList (value.toList.drop 5))
    (splitOnce '/' rest).bind fun parts =>
      (readTotal (trim parts.2)).bind fun total =>
        (readStart (trim parts.1)).bind fun start => some { start, total }

/-- An in-progress resumable upload session. -/
structure ResumableSession where
  bucket : String
  name : String
  contentType : String
  metadata : Json
  ifGenerationMatch : Option Int
  data : List UInt8

/-- The sessions, which are kept in memory, and the store. -/
structure UploadState where
  sessions : String → Option ResumableSession
  store : GcsStore

inductive PutReply where
  | badRequest (reason message : String)
  | notFound
  /-- `308`, with the `Range` header. -/
  | incomplete (range : Option String)
  | failed (error : GcsError)
  | stored (object : GcsObject)

section External

variable [External]

/-- Persist an uploaded object. -/
def storeObject (store : GcsStore) (bucket name : String) (data : List UInt8) (contentType : String)
    (metadata : Json) (ifGenerationMatch : Option Int) (now : Int) : PutReply × GcsStore :=
  if name.isEmpty then (.badRequest "required" "Required: object name", store)
  else
    match uploadObject store bucket name data contentType (mergeProps (.obj []) metadata)
      ifGenerationMatch now with
    | .ok (object, after) => (.stored object, after)
    | .error error => (.failed error, store)

/-- `start_resumable`, with the id of the session; the metadata of a body that is no JSON is `{}`. -/
def startResumable (state : UploadState) (bucket : String) (metadata : Json)
    (queryName uploadContentType : Option String) (ifGenerationMatch : Option Int) (id : String) :
    Except PutReply (ResumableSession × UploadState) := do
  let name := (((metadata.get "name").bind Json.asStr).or queryName).getD ""
  rejectIf name.isEmpty (PutReply.badRequest "required" "Required: object name")
  let _ ← (getBucket state.store bucket).mapError PutReply.failed
  let session : ResumableSession :=
    { bucket, name
      contentType := (((metadata.get "contentType").bind Json.asStr).or uploadContentType).getD
        "application/octet-stream"
      metadata, ifGenerationMatch, data := [] }
  return (session, { state with sessions := Function.update state.sessions id (some session) })

/-- What a request leaves in the session, and whether it is complete. -/
def receive (data : List UInt8) (range : Option ChunkRange) (body : List UInt8) :
    Option (List UInt8 × Bool) :=
  match range with
  | none => some (body, true)
  | some range =>
    match range.start with
    | some start =>
      if data.length < start then none
      else
        let data := data.take start ++ body
        some (data, range.total.any fun total => decide (total ≤ data.length))
    | none => some (data, range.total.any fun total => decide (total ≤ data.length))

/-- A request to a session, with its `Content-Range`. -/
def putSession (state : UploadState) (id : String) (range : Option ChunkRange) (body : List UInt8)
    (now : Int) : PutReply × UploadState :=
  match state.sessions id with
  | none => (.notFound, state)
  | some session =>
    match receive session.data range body with
    | none => (.badRequest "invalid" "Chunk starts beyond received data", state)
    | some (data, true) =>
      let stored := storeObject state.store session.bucket session.name data session.contentType
        session.metadata session.ifGenerationMatch now
      (stored.1, { sessions := Function.update state.sessions id none, store := stored.2 })
    | some (data, false) =>
      (.incomplete (if 0 < data.length then some ("bytes=0-" ++ toString (data.length - 1)) else none),
        { state with
          sessions := Function.update state.sessions id (some { session with data }) })

def resumablePut (state : UploadState) (uploadId contentRange : Option String) (body : List UInt8)
    (now : Int) : PutReply × UploadState :=
  match uploadId with
  | none => (.badRequest "required" "Required: upload_id", state)
  | some id =>
    match contentRange.filter fun text => !text.isEmpty with
    | none => putSession state id none body now
    | some text =>
      match parseContentRange text with
      | none => (.badRequest "invalid" "Invalid Content-Range", state)
      | some range => putSession state id (some range) body now

/-! ### A client -/

/-- What a client sends that uploads a content: bytes of it from `first` up to before `stop`, a query
for what was received, or the whole content; the total may be stated. -/
inductive Request where
  | chunk (first stop : Nat) (total : Bool)
  | status (total : Bool)
  | whole

namespace Request

variable (content : List UInt8)

def totalText (stated : Bool) : String :=
  if stated then toString content.length else "*"

/-- `Content-Range`. -/
def contentRange : Request → Option String
  | .chunk first stop total =>
    some ("bytes " ++ toString first ++ "-" ++ toString (stop - 1) ++ "/" ++ totalText content total)
  | .status total => some ("bytes */" ++ totalText content total)
  | .whole => none

def body : Request → List UInt8
  | .chunk first stop _ => (content.drop first).take (stop - first)
  | .status _ => []
  | .whole => content

/-- A chunk of the content that begins within what was received. -/
def Conforming (received : Nat) : Request → Prop
  | .chunk first stop _ => first ≤ received ∧ first < stop ∧ stop ≤ content.length
  | _ => True

/-- How many bytes are there after the request. -/
def leaves (received : Nat) : Request → Nat
  | .chunk _ stop _ => stop
  | .status _ => received
  | .whole => content.length

/-- The request states the total, or sends the whole content. -/
def states : Request → Bool
  | .chunk _ _ total => total
  | .status total => total
  | .whole => true

end Request

/-! ### The headers -/

/-- What begins and ends with no blank is trimmed. -/
theorem trim_solid {chars : List Char}
    (head : ∀ char, chars.head? = some char → isWhitespace char = false)
    (last : ∀ char, chars.getLast? = some char → isWhitespace char = false) :
    trim (String.ofList chars) = String.ofList chars := by
  unfold trim
  rw [String.toList_ofList]
  exact congrArg String.ofList (Words.trimBy_whole ⟨head, last⟩)

theorem splitOnce_at {char : Char} {before : List Char} (absent : char ∉ before) (after : List Char) :
    splitOnce char (String.ofList (before ++ char :: after)) =
      some (String.ofList before, String.ofList after) := by
  have stops : ∀ other ∈ before, (other != char) = true := fun other member =>
    bne_iff_ne.mpr fun same => absent (same ▸ member)
  have here : (char != char) ≠ true := by simp
  unfold splitOnce beforeFirst
  rw [String.toList_ofList, if_pos (List.mem_append_right _ List.mem_cons_self),
    List.takeWhile_append_of_pos stops, List.dropWhile_append_of_pos stops,
    List.takeWhile_cons_of_neg (p := (· != char)) here,
    List.dropWhile_cons_of_neg (p := (· != char)) here, List.append_nil]
  rfl

/-- What can stand in a range or a total. -/
def Plain (chars : List Char) : Prop :=
  ∀ char ∈ chars, isWhitespace char = false ∧ char ≠ '/'

theorem plain_toString (value : Nat) : Plain (toString value).toList := by
  intro char member
  have text : (toString value).toList = Nat.toDigits 10 value := by
    rw [Nat.toString_eq_ofList_toDigits, String.toList_ofList]
  rw [text] at member
  have isDigit := Nat.isDigit_of_mem_toDigits (by decide) (by decide) member
  refine ⟨(digit_plain isDigit).1, ?_⟩
  rintro rfl
  exact absurd isDigit (by decide)

theorem toString_ne_star (value : Nat) : toString value ≠ "*" := by
  intro same
  have member : '*' ∈ (toString value).toList := by
    rw [same]
    decide
  rw [Nat.toString_eq_ofList_toDigits, String.toList_ofList] at member
  exact absurd (Nat.isDigit_of_mem_toDigits (by decide) (by decide) member) (by decide)

theorem dash_notMem (value : Nat) : '-' ∉ (toString value).toList := by
  intro member
  rw [Nat.toString_eq_ofList_toDigits, String.toList_ofList] at member
  exact absurd (Nat.isDigit_of_mem_toDigits (by decide) (by decide) member) (by decide)

section Pieces

variable {range total : List Char} (plainRange : Plain range) (plainTotal : Plain total)

/-- A header of a range and a total. -/
def pieces (range total : List Char) : List Char :=
  range ++ '/' :: total

include plainRange plainTotal

theorem pieces_plain : ∀ char ∈ pieces range total, isWhitespace char = false := by
  intro char member
  rcases List.mem_append.mp member with inRange | later
  · exact (plainRange char inRange).1
  · rcases List.mem_cons.mp later with rfl | inTotal
    · decide
    · exact (plainTotal char inTotal).1

theorem trim_header :
    trim (String.ofList ("bytes ".toList ++ pieces range total)) =
      String.ofList ("bytes ".toList ++ pieces range total) := by
  refine trim_solid (fun char there => ?_) fun char there => ?_
  · obtain rfl : 'b' = char := Option.some.inj there
    decide
  · have some' : pieces range total ≠ [] := by simp [pieces]
    rw [List.getLast?_append_of_ne_nil _ some'] at there
    exact pieces_plain plainRange plainTotal char (List.mem_of_getLast? there)

theorem trim_rest :
    trim (String.ofList (("bytes ".toList ++ pieces range total).drop 5)) =
      String.ofList (pieces range total) := by
  have blank : ("bytes ".toList ++ pieces range total).drop 5 = ' ' :: pieces range total := rfl
  have plain := trim_plain (pieces_plain plainRange plainTotal)
  rw [blank]
  unfold trim at plain ⊢
  rw [String.toList_ofList] at plain ⊢
  rw [List.dropWhile_cons_of_pos (by decide)]
  exact plain

/-- **A header of a range and a total is read as these.** -/
theorem parse_pieces :
    parseContentRange (String.ofList ("bytes ".toList ++ pieces range total)) =
      (readTotal (String.ofList total)).bind fun total =>
        (readStart (String.ofList range)).bind fun start => some { start, total } := by
  have whole := String.toList_ofList (l := "bytes ".toList ++ pieces range total)
  have starts : startsWith (String.ofList ("bytes ".toList ++ pieces range total)) "bytes" = true := by
    unfold startsWith
    rw [List.isPrefixOf_iff_prefix, whole]
    exact ⟨' ' :: pieces range total, rfl⟩
  have apart := splitOnce_at (fun member => (plainRange _ member).2 rfl) total
  unfold parseContentRange
  dsimp only
  rw [trim_header plainRange plainTotal, starts, if_neg Bool.true_eq_false.mp, whole,
    trim_rest plainRange plainTotal, pieces, apart, Option.bind_some,
    trim_plain fun char member => (plainTotal char member).1,
    trim_plain fun char member => (plainRange char member).1]

end Pieces

/-! ### What a request does -/

namespace Request

variable (content : List UInt8)

/-- The total that is stated. -/
def total (stated : Bool) : Option Nat :=
  if stated then some content.length else none

/-- What the header says. -/
def range : Request → Option ChunkRange
  | .chunk first _ stated => some { start := some first, total := total content stated }
  | .status stated => some { start := none, total := total content stated }
  | .whole => none

variable {content} (small : content.length < 2 ^ 64)

include small

theorem totalText_plain (stated : Bool) : Plain (totalText content stated).toList := by
  cases stated with
  | true => exact plain_toString _
  | false =>
    intro char member
    obtain rfl : char = '*' := by simpa [totalText] using member
    decide

theorem readTotal_totalText (stated : Bool) :
    readTotal (totalText content stated) = some (total content stated) := by
  cases stated with
  | true =>
    show (if toString content.length = "*" then some none
      else (parseU64 (toString content.length)).map some) = _
    rw [if_neg (toString_ne_star _), parseU64_toString small]
    rfl
  | false => rfl

theorem parse_chunk {first : Nat} (inside : first < 2 ^ 64) (stop : Nat) (stated : Bool) :
    parseContentRange ("bytes " ++ toString first ++ "-" ++ toString (stop - 1) ++ "/" ++
      totalText content stated) = some { start := some first, total := total content stated } := by
  have plain : Plain ((toString first).toList ++ '-' :: (toString (stop - 1)).toList) := by
    intro char member
    rcases List.mem_append.mp member with before | later
    · exact plain_toString first char before
    · rcases List.mem_cons.mp later with rfl | after
      · decide
      · exact plain_toString (stop - 1) char after
  have text : "bytes " ++ toString first ++ "-" ++ toString (stop - 1) ++ "/" ++
      totalText content stated = String.ofList ("bytes ".toList ++
        pieces ((toString first).toList ++ '-' :: (toString (stop - 1)).toList)
          (totalText content stated).toList) := by
    rw [← String.toList_inj]
    simp [pieces, String.toList_append]
  have start : readStart (String.ofList ((toString first).toList ++
      '-' :: (toString (stop - 1)).toList)) = some (some first) := by
    have dash : '-' ∈ (String.ofList ((toString first).toList ++
        '-' :: (toString (stop - 1)).toList)).toList := by simp
    unfold readStart
    rw [if_neg fun star => absurd (star ▸ dash) (by decide), splitOnce_at (dash_notMem first),
      Option.bind_some, trim_plain fun char member => (plain_toString first char member).1,
      String.ofList_toList, parseU64_toString inside]
    rfl
  rw [text, parse_pieces plain (totalText_plain small stated), String.ofList_toList,
    readTotal_totalText small, Option.bind_some, start]
  rfl

theorem parse_status (stated : Bool) :
    parseContentRange ("bytes */" ++ totalText content stated) =
      some { start := none, total := total content stated } := by
  have plain : Plain ['*'] := by
    intro char member
    obtain rfl := List.mem_singleton.mp member
    decide
  have text : "bytes */" ++ totalText content stated = String.ofList ("bytes ".toList ++
      pieces ['*'] (totalText content stated).toList) := by
    rw [← String.toList_inj]
    simp [pieces, String.toList_append]
  rw [text, parse_pieces plain (totalText_plain small stated), String.ofList_toList,
    readTotal_totalText small]
  rfl

/-- **The headers of the client are read.** -/
theorem parse_header {received : Nat} (within : received ≤ content.length) {request : Request}
    (conforming : request.Conforming content received) :
    ((request.contentRange content).filter fun text => !text.isEmpty).map parseContentRange =
      (request.range content).map some := by
  have given : ∀ text : String, (!(("bytes " ++ text).isEmpty)) = true := by
    intro text
    rw [Bool.not_eq_true', Bool.eq_false_iff, Ne, String.isEmpty_iff, ← String.toList_inj]
    simp [String.toList_append]
  cases request with
  | chunk first stop stated =>
    have inside : first < 2 ^ 64 := lt_of_le_of_lt (conforming.1.trans within) small
    show (Option.filter _ (some _)).map parseContentRange = _
    have header := given (toString first ++ "-" ++ toString (stop - 1) ++ "/" ++ totalText content stated)
    rw [← String.append_assoc, ← String.append_assoc, ← String.append_assoc,
      ← String.append_assoc] at header
    rw [Option.filter_some, if_pos header, Option.map_some, parse_chunk small inside]
    rfl
  | status stated =>
    have header : (!(("bytes */" ++ totalText content stated).isEmpty)) = true := by
      have := given ("*/" ++ totalText content stated)
      rw [← String.append_assoc] at this
      exact this
    show (Option.filter _ (some _)).map parseContentRange = _
    rw [Option.filter_some, if_pos header, Option.map_some, parse_status small]
    rfl
  | whole => rfl

omit small in
/-- **What a request leaves of a content that is received from the start.** -/
theorem receive_request {received : Nat} (within : received ≤ content.length) {request : Request}
    (conforming : request.Conforming content received) :
    receive (content.take received) (request.range content) (request.body content) =
      some (content.take (request.leaves content received),
        request.states && decide (request.leaves content received = content.length)) ∧
    request.leaves content received ≤ content.length := by
  have complete : ∀ {left : Nat} (stated : Bool), left ≤ content.length →
      ((total content stated).any fun total => decide (total ≤ (content.take left).length)) =
        (stated && decide (left = content.length)) := by
    intro left stated le
    rw [List.length_take, Nat.min_eq_left le]
    cases stated with
    | true =>
      show decide (content.length ≤ left) = (true && _)
      rw [Bool.true_and]
      exact decide_eq_decide.mpr (by omega)
    | false => rfl
  cases request with
  | chunk first stop stated =>
    obtain ⟨overlaps, some', inside⟩ := conforming
    have joined : (content.take received).take first ++ (content.drop first).take (stop - first) =
        content.take stop := by
      rw [List.take_take, Nat.min_eq_left overlaps, ← List.take_add,
        show first + (stop - first) = stop by omega]
    have reached : ¬ (content.take received).length < first := by
      rw [List.length_take]
      omega
    refine ⟨?_, inside⟩
    show (if (content.take received).length < first then none else
      some ((content.take received).take first ++ (content.drop first).take (stop - first),
        (total content stated).any fun total => decide (total ≤
          ((content.take received).take first ++ (content.drop first).take (stop - first)).length))) = _
    rw [if_neg reached, joined, complete stated inside]
    rfl
  | status stated =>
    refine ⟨?_, within⟩
    show some (content.take received, _) = _
    rw [complete stated within]
    rfl
  | whole =>
    refine ⟨?_, le_refl _⟩
    show some (content, true) = some (content.take content.length, true && decide (content.length = content.length))
    rw [List.take_length, decide_eq_true rfl]
    rfl

end Request

/-- The session as it is with that many bytes of the content. -/
def holding (session : ResumableSession) (content : List UInt8) (received : Nat) : ResumableSession :=
  { session with data := content.take received }

/-- `Range: bytes=0-last` of what was received. -/
def receivedRange (received : Nat) : Option String :=
  if 0 < received then some ("bytes=0-" ++ toString (received - 1)) else none

/-- What a client sends. -/
def Request.put (request : Request) (content : List UInt8) (state : UploadState) (id : String)
    (now : Int) : PutReply × UploadState :=
  resumablePut state (some id) (request.contentRange content) (request.body content) now

section Put

variable {content : List UInt8} (small : content.length < 2 ^ 64) {session : ResumableSession}
  {state : UploadState} {id : String} {received : Nat} (within : received ≤ content.length)
  {request : Request} (conforming : request.Conforming content received) (now : Int)

include small within conforming

theorem put_eq : request.put content state id now =
    putSession state id (request.range content) (request.body content) now := by
  have header := Request.parse_header small within conforming
  unfold Request.put resumablePut
  dsimp only
  cases given : (request.contentRange content).filter fun text => !text.isEmpty with
  | none =>
    rw [given, Option.map_none] at header
    rw [Option.map_eq_none_iff.mp header.symm]
  | some text =>
    rw [given, Option.map_some] at header
    cases said : request.range content with
    | none =>
      rw [said] at header
      cases header
    | some range =>
      rw [said, Option.map_some] at header
      dsimp only
      rw [Option.some.inj header]

/-- **What a request does to a session** that holds the content from its start. -/
theorem put_session (open' : state.sessions id = some (holding session content received)) :
    request.put content state id now =
      if request.states = true ∧ request.leaves content received = content.length then
        let stored := storeObject state.store session.bucket session.name content session.contentType
          session.metadata session.ifGenerationMatch now
        (stored.1, { sessions := Function.update state.sessions id none, store := stored.2 })
      else
        (.incomplete (receivedRange (request.leaves content received)),
          { state with
            sessions := Function.update state.sessions id
              (some (holding session content (request.leaves content received))) }) := by
  obtain ⟨left, inside⟩ := Request.receive_request within conforming
  have length : (content.take (request.leaves content received)).length =
      request.leaves content received := by
    rw [List.length_take, Nat.min_eq_left inside]
  rw [put_eq small within conforming now]
  unfold putSession
  rw [open']
  show (match receive (content.take received) (request.range content) (request.body content) with
    | none => _
    | some (data, true) => _
    | some (data, false) => _) = _
  rw [left]
  by_cases complete : request.states = true ∧ request.leaves content received = content.length
  · have whole : (request.states && decide (request.leaves content received = content.length)) =
        true := by simpa using complete
    rw [if_pos complete, whole, complete.2, List.take_length]
    rfl
  · have partial' : (request.states && decide (request.leaves content received = content.length)) =
        false := Bool.eq_false_iff.mpr (by simpa using complete)
    rw [if_neg complete, partial']
    dsimp only
    rw [length]
    rfl

/-- A request to a session that is not there has no effect. -/
theorem put_closed (closed : state.sessions id = none) :
    request.put content state id now = (.notFound, state) := by
  rw [put_eq small within conforming now]
  unfold putSession
  rw [closed]

end Put

/-! ### Runs -/

theorem started_session {before state : UploadState} {bucket id : String} {metadata : Json}
    {queryName uploadContentType : Option String} {ifGenerationMatch : Option Int}
    {session : ResumableSession}
    (started : startResumable before bucket metadata queryName uploadContentType ifGenerationMatch id =
      .ok (session, state)) :
    session.data = [] ∧ session.name.isEmpty = false ∧ state.sessions id = some session := by
  obtain ⟨_, named, rest⟩ := bind_ok started
  obtain ⟨_, _, rest⟩ := bind_ok rest
  cases rest
  exact ⟨rfl, Bool.eq_false_iff.mpr (rejectIf_ok.mp named), Function.update_self ..⟩

/-- A chunk of the content. -/
def Request.OfContent (content : List UInt8) : Request → Prop
  | .chunk first stop _ => first < stop ∧ stop ≤ content.length
  | _ => True

/-- A request that a client sends: a chunk begins within what the session holds. -/
def Request.Sent (content : List UInt8) (state : UploadState) (id : String) (request : Request) : Prop :=
  request.OfContent content ∧
    ∀ held, state.sessions id = some held → request.Conforming content held.data.length

/-- **The states of a run**: the session is started, requests of the client come in, and in between
anything happens that is not about the session. -/
inductive Reached (content : List UInt8) (id : String) (session : ResumableSession) :
    UploadState → Prop
  | start {before state : UploadState} {bucket : String} {metadata : Json}
      {queryName uploadContentType : Option String} {ifGenerationMatch : Option Int}
      (started : startResumable before bucket metadata queryName uploadContentType ifGenerationMatch
        id = .ok (session, state)) : Reached content id session state
  | put {state : UploadState} {request : Request} (now : Int) (reached : Reached content id session state)
      (sent : request.Sent content state id) :
      Reached content id session (request.put content state id now).2
  | other {state after : UploadState} (reached : Reached content id session state)
      (same : after.sessions id = state.sessions id) : Reached content id session after

/-- The session holds the content from its start, or is gone. -/
def HoldsPrefix (content : List UInt8) (id : String) (session : ResumableSession)
    (state : UploadState) : Prop :=
  state.sessions id = none ∨
    ∃ received ≤ content.length, state.sessions id = some (holding session content received)

theorem Request.closed_conforming {content : List UInt8} {request : Request}
    (ofContent : request.OfContent content) : request.Conforming content content.length := by
  cases request with
  | chunk first stop total => exact ⟨(ofContent.1.trans_le ofContent.2).le, ofContent⟩
  | status total => exact True.intro
  | whole => exact True.intro

theorem Request.Sent.conforming {content : List UInt8} {state : UploadState} {id : String}
    {request : Request} (sent : request.Sent content state id) {session : ResumableSession}
    {received : Nat} (within : received ≤ content.length)
    (open' : state.sessions id = some (holding session content received)) :
    request.Conforming content received := by
  have conforming := sent.2 _ open'
  rw [show (holding session content received).data.length = received by
    rw [holding, List.length_take, Nat.min_eq_left within]] at conforming
  exact conforming

section Run

variable {content : List UInt8} (small : content.length < 2 ^ 64) {id : String}
  {session : ResumableSession} {state : UploadState} (reached : Reached content id session state)

include reached

theorem Reached.session_fresh : session.data = [] ∧ session.name.isEmpty = false := by
  induction reached with
  | start started => exact ⟨(started_session started).1, (started_session started).2.1⟩
  | put _ _ _ ih => exact ih
  | other _ _ ih => exact ih

include small

/-- **The session always holds the content from its start.** -/
theorem Reached.holdsPrefix : HoldsPrefix content id session state := by
  induction reached with
  | start started =>
    obtain ⟨fresh, _, opened⟩ := started_session started
    refine Or.inr ⟨0, Nat.zero_le _, opened.trans ?_⟩
    rw [holding, List.take_zero, ← fresh]
  | @put state request now reached sent ih =>
    rcases ih with closed | ⟨received, within, open'⟩
    · rw [put_closed small (le_refl _) (Request.closed_conforming sent.1) now closed]
      exact Or.inl closed
    · have conforming := sent.conforming within open'
      have inside := (Request.receive_request within conforming).2
      rw [put_session small within conforming now open']
      split
      · exact Or.inl (Function.update_self ..)
      · exact Or.inr ⟨_, inside, Function.update_self ..⟩
  | other reached same ih =>
    unfold HoldsPrefix
    rw [same]
    exact ih

end Run

/-- The object of a session, as it is stored. -/
def StoredFrom (session : ResumableSession) (content : List UInt8) (reply : PutReply)
    (after : GcsStore) : Prop :=
  ∃ object, reply = .stored object ∧
    loadObject after session.bucket session.name = some object ∧ object.content = content ∧
    object.contentType = session.contentType ∧
    object.props = mergeProps (.obj []) session.metadata

/-- The bucket of the session is there, and its generation precondition holds. -/
def Storable (session : ResumableSession) (store : GcsStore) : Prop :=
  bucketExists store session.bucket = true ∧
    checkGeneration (loadObject store session.bucket session.name) session.ifGenerationMatch
      session.name = .ok ()

theorem storeObject_session {session : ResumableSession} (named : session.name.isEmpty = false)
    (content : List UInt8) (store : GcsStore) (now : Int) :
    let stored := storeObject store session.bucket session.name content session.contentType
      session.metadata session.ifGenerationMatch now
    (Storable session store → StoredFrom session content stored.1 stored.2) ∧
      (¬ Storable session store → stored.2 = store ∧ ∃ error, stored.1 = .failed error) := by
  have named' : ¬ session.name.isEmpty = true := Bool.eq_false_iff.mp named
  unfold storeObject
  rw [if_neg named']
  cases uploaded : uploadObject store session.bucket session.name content session.contentType
      (mergeProps (.obj []) session.metadata) session.ifGenerationMatch now with
  | error error =>
    refine ⟨fun storable => ?_, fun _ => ⟨rfl, error, rfl⟩⟩
    rw [uploadObject_ok.mpr ⟨storable.1, storable.2, rfl⟩] at uploaded
    cases uploaded
  | ok result =>
    obtain ⟨there, checked, rfl⟩ := uploadObject_ok.mp uploaded
    refine ⟨fun _ => ⟨_, rfl, ?_, rfl, rfl, rfl⟩, fun other => absurd ⟨there, checked⟩ other⟩
    show loadObject (putRow store _) _ _ = _
    rw [loadObject_putRow]
    exact if_pos ⟨rfl, rfl⟩

/-- **A resumable upload assembles the content.** In every run the session holds the content from its
start. A request that states the total and leaves all of it there, or sends the whole content,
completes the session, and what is stored is the content with the metadata of the session; any other
is answered with the range of what is held. Once the session is gone no request has an effect. -/
theorem resumable_assembles {content : List UInt8} (small : content.length < 2 ^ 64) {id : String}
    {session : ResumableSession} {state : UploadState} (reached : Reached content id session state) :
    HoldsPrefix content id session state ∧
    ∀ (request : Request) (now : Int), request.Sent content state id →
      (state.sessions id = none → request.put content state id now = (.notFound, state)) ∧
      ∀ received ≤ content.length, state.sessions id = some (holding session content received) →
        let reply := (request.put content state id now).1
        let after := (request.put content state id now).2
        let left := request.leaves content received
        left ≤ content.length ∧
        (request.states = true ∧ left = content.length →
          after.sessions id = none ∧
          (Storable session state.store → StoredFrom session content reply after.store) ∧
          (¬ Storable session state.store → after.store = state.store ∧
            ∃ error, reply = .failed error)) ∧
        (¬ (request.states = true ∧ left = content.length) →
          reply = .incomplete (receivedRange left) ∧ after.store = state.store ∧
          after.sessions id = some (holding session content left)) := by
  refine ⟨reached.holdsPrefix small, fun request now sent => ⟨fun closed =>
    put_closed small (le_refl _) (Request.closed_conforming sent.1) now closed,
    fun received within open' => ?_⟩⟩
  have conforming := sent.conforming within open'
  have effect := put_session small within conforming now open'
  refine ⟨(Request.receive_request within conforming).2, fun complete => ?_, fun incomplete => ?_⟩
  · rw [if_pos complete] at effect
    rw [effect]
    exact ⟨Function.update_self .., storeObject_session reached.session_fresh.2 content state.store now⟩
  · rw [if_neg incomplete] at effect
    rw [effect]
    exact ⟨rfl, rfl, Function.update_self ..⟩

end External

section Sample

attribute [local instance] External.sample

def emptyBucket : UploadState where
  sessions := fun _ => none
  store := { project := "p", buckets := [⟨"b", "p", "US", 0⟩], objects := [] }

def sampleSession : ResumableSession where
  bucket := "b"
  name := "k"
  contentType := "application/octet-stream"
  metadata := .obj []
  ifGenerationMatch := none
  data := []

def sampleStarted : UploadState :=
  { emptyBucket with
    sessions := Function.update emptyBucket.sessions "id" (some sampleSession) }

/-- The state after the first of two chunks. -/
def sampleContinued : UploadState :=
  ((Request.chunk 0 2 false).put (utf8 "hello") sampleStarted "id" 0).2

/-- An upload in two chunks. -/
theorem resumable_assembles_chunks :
    ((Request.chunk 0 2 false).put (utf8 "hello") sampleStarted "id" 0).1 = .incomplete (receivedRange 2) ∧
    StoredFrom sampleSession (utf8 "hello")
      ((Request.chunk 2 5 true).put (utf8 "hello") sampleContinued "id" 0).1
      ((Request.chunk 2 5 true).put (utf8 "hello") sampleContinued "id" 0).2.store := by
  have length : (utf8 "hello").length = 5 := by decide
  have small : (utf8 "hello").length < 2 ^ 64 := by
    rw [length]
    decide
  have started : startResumable emptyBucket "b" (.obj []) (some "k") none none "id" =
      .ok (sampleSession, sampleStarted) := rfl
  have reached : Reached (utf8 "hello") "id" sampleSession sampleStarted := .start started
  have open' : sampleStarted.sessions "id" = some (holding sampleSession (utf8 "hello") 0) :=
    (started_session started).2.2
  have first : (Request.chunk 0 2 false).Sent (utf8 "hello") sampleStarted "id" :=
    ⟨⟨by decide, by rw [length]; decide⟩, fun _ _ => ⟨Nat.zero_le _, by decide, by rw [length]; decide⟩⟩
  obtain ⟨answered, kept, continued⟩ :=
    (((resumable_assembles small reached).2 _ 0 first).2 0 (Nat.zero_le _) open').2.2 fun complete =>
      Bool.false_ne_true complete.1
  have second : (Request.chunk 2 5 true).Sent (utf8 "hello") sampleContinued "id" := by
    refine ⟨⟨by decide, by rw [length]⟩, fun held same => ?_⟩
    obtain rfl := Option.some.inj (continued.symm.trans same)
    exact ⟨by decide, by decide, by rw [length]⟩
  have storable : Storable sampleSession sampleContinued.store := by
    rw [show sampleContinued.store = sampleStarted.store from kept]
    exact ⟨by decide, rfl⟩
  have effect := (resumable_assembles small (reached.put 0 first)).2 _ 0 second
  exact ⟨answered,
    ((effect.2 2 (by rw [length]; decide) continued).2.1 ⟨rfl, length.symm⟩).2.1 storable⟩

end Sample

end CloudTwin.Gcs
