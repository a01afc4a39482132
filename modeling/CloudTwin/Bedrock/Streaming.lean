/-
**Event streams.**

A streamed answer is a sequence of binary frames. A frame has its length, the length of its headers and
a check of both, then headers and payload, and a check of it all. The payload of a chunk is a JSON text
with a JSON text in base64 inside; a text is split into chunks by words, characters or bytes.

* `encodeEventStreamMessage`, `splitChunks`, `buildStreamingBody` — the code.
* `readFrame`, `decodeStream`, `readEvent` — a decoder of the documented layout.
* `readHeader_exact`, `readFrame_exact` — it reads just the frames that the code writes, when their
  lengths are within their fields.
* `decodeStream_iff`, `streams_decode` — streams of frames, and the body of a text.
-/

import CloudTwin.Bedrock.Config
import CloudTwin.JsonLaws
import CloudTwin.Lib.Boundaries
import CloudTwin.Lib.Crc
import CloudTwin.Lib.Framing
import CloudTwin.Lib.Words
import CloudTwin.Sqs.MessageAttributes

namespace CloudTwin.Bedrock

open Lib Lib.Text Lib.Framing Lib.Words Lib.Base64

/-! ### The code -/

abbrev Headers := List (String × String)

/-- `crc32fast::hash`. -/
class Crc32 where
  hash : List UInt8 → UInt32

def crc32 [Crc32] (bytes : List UInt8) : Nat :=
  (Crc32.hash bytes).toNat

def encodeHeader (header : String × String) : List UInt8 :=
  let n := utf8 header.1
  let v := utf8 header.2
  UInt8.ofNat n.length :: (n ++ 7 :: (be 2 v.length ++ v))

def encodeEventStreamMessage [Crc32] (headers : Headers) (payload : List UInt8) : List UInt8 :=
  let headersData := headers.flatMap encodeHeader
  let totalLength := 16 + headersData.length + payload.length
  let headersLength := headersData.length
  let prelude := be 4 totalLength ++ be 4 headersLength
  let preludeCrc := crc32 prelude
  let msg := prelude ++ be 4 preludeCrc ++ headersData ++ payload
  let messageCrc := crc32 msg
  msg ++ be 4 messageCrc

def splitChunks (text : String) (cfg : StreamingConfig) : List String :=
  match cfg.chunkMode with
  | "word" => (splitWhitespace text).map fun word => word ++ " "
  | "char" => text.toList.map fun char => String.ofList [char]
  | "fixed" =>
    let size := max cfg.fixedChunkSize 1
    (chunks size (utf8 text)).map fromUtf8Lossy
  | _ => [text]

section Events

variable [External] [Crc32]

/-- The JSON text of a value inside the JSON text of an event, in base64. -/
def eventPayload (value : Json) : List UInt8 :=
  let inner := standardEncode (utf8 (External.jsonToString value))
  utf8 (External.jsonToString (.obj [("bytes", .str inner)]))

def eventHeaders : Headers :=
  [(":event-type", "chunk"), (":content-type", "application/json"), (":message-type", "event")]

def deltaJson (text : String) : Json :=
  .obj [("delta", .obj [("text", .str text), ("type", .str "text_delta")]),
    ("type", .str "content_block_delta")]

def stopJson : Json :=
  .obj [("stop_reason", .str "end_turn"), ("type", .str "message_stop")]

def chunkEvent (text : String) : List UInt8 :=
  encodeEventStreamMessage eventHeaders (eventPayload (deltaJson text))

def stopEvent : List UInt8 :=
  encodeEventStreamMessage eventHeaders (eventPayload stopJson)

def errorHeaders (errorType : String) : Headers :=
  [(":event-type", "modelStreamErrorException"), (":content-type", "application/json"),
    (":message-type", "exception"), (":exception-type", errorType)]

def errorPayload (errorType errorMessage : String) : List UInt8 :=
  utf8 (External.jsonToString (.obj [("__type", .str errorType), ("message", .str errorMessage)]))

def errorEvent (errorType errorMessage : String) : List UInt8 :=
  encodeEventStreamMessage (errorHeaders errorType) (errorPayload errorType errorMessage)

/-- The loop over the chunks, at the chunk with an index. -/
def streamFrom (cfg : StreamingConfig) (index : Nat) : List String → List UInt8
  | [] => stopEvent
  | chunk :: rest =>
    if cfg.failAfterChunks.any fun failAfter => decide (failAfter ≤ index) then
      errorEvent "ModelStreamErrorException" "Forced stream error"
    else chunkEvent chunk ++ streamFrom cfg (index + 1) rest

def buildStreamingBody (content : String) (cfg : StreamingConfig) : List UInt8 :=
  streamFrom cfg 0 (splitChunks content cfg)

end Events

/-! ### A decoder -/

structure Frame where
  headers : Headers
  payload : List UInt8

def encodeFrame [Crc32] (frame : Frame) : List UInt8 :=
  encodeEventStreamMessage frame.headers frame.payload

/-- `String::from_utf8`. -/
def textOf (bytes : List UInt8) : Option String :=
  let text := fromUtf8Lossy bytes
  if utf8 text = bytes then some text else none

def readHeader : Reader (String × String) := fun bytes => do
  let (nameLength, rest) ← number 1 bytes
  let (name, rest) ← part nameLength rest
  let (valueType, rest) ← number 1 rest
  let (valueLength, rest) ← number 2 rest
  let (value, rest) ← part valueLength rest
  let name ← textOf name
  let value ← textOf value
  if valueType = 7 then some ((name, value), rest) else none

def readFrame [Crc32] : Reader Frame := fun bytes => do
  let (totalLength, rest) ← number 4 bytes
  let (headersLength, rest) ← number 4 rest
  let (preludeCrc, rest) ← number 4 rest
  let (headersData, rest) ← part headersLength rest
  let (payload, rest) ← part (totalLength - 16 - headersLength) rest
  let (messageCrc, rest) ← number 4 rest
  let headers ← many readHeader headersData
  if 16 + headersLength ≤ totalLength ∧ preludeCrc = crc32 (bytes.take 8) ∧
      messageCrc = crc32 (bytes.take (totalLength - 4)) then
    some (⟨headers, payload⟩, rest)
  else none

def decodeStream [Crc32] (bytes : List UInt8) : Option (List Frame) :=
  many readFrame bytes

/-- A header whose lengths are within their fields. -/
def Fits (header : String × String) : Prop :=
  (utf8 header.1).length ≤ 255 ∧ (utf8 header.2).length ≤ 65535

instance (header : String × String) : Decidable (Fits header) :=
  inferInstanceAs (Decidable (_ ∧ _))

/-- The length of a frame is within its field. -/
def Frame.Small (frame : Frame) : Prop :=
  16 + (frame.headers.flatMap encodeHeader).length + frame.payload.length < 2 ^ 32

def Frame.Valid (frame : Frame) : Prop :=
  (∀ header ∈ frame.headers, Fits header) ∧ frame.Small

/-! ### Frames -/

theorem textOf_iff {bytes : List UInt8} {text : String} : textOf bytes = some text ↔ bytes = utf8 text := by
  unfold textOf
  constructor
  · intro read
    dsimp only at read
    split at read
    · rename_i same
      rw [← Option.some.inj read, same]
    · cases read
  · rintro rfl
    dsimp only
    rw [fromUtf8Lossy_utf8, if_pos rfl]

theorem encodeHeader_eq (header : String × String) : encodeHeader header =
    be 1 (utf8 header.1).length ++ (utf8 header.1 ++ (be 1 7 ++ (be 2 (utf8 header.2).length ++
      utf8 header.2))) := rfl

/-- **Headers are read just as they are written.** -/
theorem readHeader_exact : Exact Fits encodeHeader readHeader := by
  intro bytes header rest
  obtain ⟨name, value⟩ := header
  unfold readHeader
  simp only [Option.bind_eq_bind, Option.bind_eq_some_iff, Prod.exists, number_iff, part_iff, textOf_iff]
  constructor
  · rintro ⟨_, _, ⟨nameSmall, rfl⟩, _, _, ⟨rfl, rfl⟩, _, _, ⟨-, rfl⟩, _, _, ⟨valueSmall, rfl⟩, _, _,
      ⟨rfl, rfl⟩, _, rfl, _, rfl, same⟩
    split at same
    · rename_i isText
      obtain ⟨names, rfl⟩ := Prod.mk.inj (Option.some.inj same)
      obtain ⟨rfl, rfl⟩ := Prod.mk.inj names
      refine ⟨⟨Nat.le_of_lt_succ nameSmall, Nat.le_of_lt_succ valueSmall⟩, ?_⟩
      rw [encodeHeader_eq, isText]
      simp only [List.append_assoc]
    · cases same
  · rintro ⟨⟨nameSmall, valueSmall⟩, rfl⟩
    rw [encodeHeader_eq]
    simp only [List.append_assoc]
    exact ⟨_, _, ⟨Nat.lt_succ_of_le nameSmall, rfl⟩, _, _, ⟨rfl, rfl⟩, 7, _, ⟨by decide, rfl⟩, _, _,
      ⟨Nat.lt_succ_of_le valueSmall, rfl⟩, _, _, ⟨rfl, rfl⟩, _, rfl, _, rfl, rfl⟩

theorem encodeHeader_filled (header : String × String) : encodeHeader header ≠ [] :=
  List.cons_ne_nil _ _

/-- The bytes of a frame before its last check. -/
def message (totalLength headersLength preludeCrc : Nat) (headersData payload : List UInt8) : List UInt8 :=
  be 4 totalLength ++ be 4 headersLength ++ be 4 preludeCrc ++ headersData ++ payload

theorem message_prelude (total headersLength check : Nat) (headersData payload tail : List UInt8) :
    (message total headersLength check headersData payload ++ tail).take 8 =
      be 4 total ++ be 4 headersLength := by
  have shape : message total headersLength check headersData payload ++ tail =
      (be 4 total ++ be 4 headersLength) ++ (be 4 check ++ headersData ++ payload ++ tail) := by
    unfold message
    simp only [List.append_assoc]
  rw [shape]
  exact List.take_left' (by rw [List.length_append, be_length, be_length])

theorem message_take {total : Nat} (headersLength check : Nat) {headersData payload : List UInt8}
    (counted : total = 16 + headersData.length + payload.length) (tail : List UInt8) :
    (message total headersLength check headersData payload ++ tail).take (total - 4) =
      message total headersLength check headersData payload := by
  refine List.take_left' ?_
  unfold message
  simp only [List.length_append, be_length]
  omega

theorem encodeFrame_eq [Crc32] (headers : Headers) (payload : List UInt8) :
    let headersData := headers.flatMap encodeHeader
    let total := 16 + headersData.length + payload.length
    let front := message total headersData.length (crc32 (be 4 total ++ be 4 headersData.length))
      headersData payload
    encodeFrame ⟨headers, payload⟩ = front ++ be 4 (crc32 front) := rfl

theorem crc32_lt [Crc32] (bytes : List UInt8) : crc32 bytes < 256 ^ 4 :=
  (Crc32.hash bytes).toNat_lt

/-- **Frames are read just as they are written**, when their lengths are within their fields. -/
theorem readFrame_exact [Crc32] : Exact Frame.Valid encodeFrame readFrame := by
  intro bytes frame rest
  obtain ⟨headers, payload⟩ := frame
  have headers_iff : ∀ (bytes : List UInt8) (headers : Headers), many readHeader bytes = some headers ↔
      (∀ header ∈ headers, Fits header) ∧ bytes = headers.flatMap encodeHeader :=
    fun _ _ => many_iff readHeader_exact encodeHeader_filled
  unfold readFrame
  simp only [Option.bind_eq_bind, Option.bind_eq_some_iff, Prod.exists, number_iff, part_iff, headers_iff]
  constructor
  · rintro ⟨total, _, ⟨totalSmall, rfl⟩, _, _, ⟨headersSmall, rfl⟩, check, _, ⟨-, rfl⟩, _, _,
      ⟨rfl, rfl⟩, _, _, ⟨counted, rfl⟩, last, _, ⟨-, rfl⟩, _, ⟨fits, rfl⟩, same⟩
    split at same
    · rename_i checks
      obtain ⟨long, prelude, whole⟩ := checks
      obtain ⟨frame, rfl⟩ := Prod.mk.inj (Option.some.inj same)
      obtain ⟨rfl, rfl⟩ := Frame.mk.inj frame
      rename_i payload left headers
      generalize data : headers.flatMap encodeHeader = headersData at *
      obtain rfl : total = 16 + headersData.length + payload.length := by omega
      have shape : be 4 (16 + headersData.length + payload.length) ++ (be 4 headersData.length ++
          (be 4 check ++ (headersData ++ (payload ++ (be 4 last ++ left))))) =
          message (16 + headersData.length + payload.length) headersData.length check headersData payload ++
            (be 4 last ++ left) := by
        unfold message
        simp only [List.append_assoc]
      rw [shape, message_prelude] at prelude
      rw [shape, message_take _ _ rfl] at whole
      refine ⟨⟨fits, by unfold Frame.Small; rw [data]; exact totalSmall⟩, ?_⟩
      rw [shape, encodeFrame_eq]
      rw [data, ← prelude, ← whole, List.append_assoc]
    · cases same
  · rintro ⟨⟨fits, small⟩, rfl⟩
    unfold Frame.Small at small
    dsimp only at fits small
    have whole := encodeFrame_eq headers payload
    dsimp only at whole
    generalize data : headers.flatMap encodeHeader = headersData at *
    generalize counted : 16 + headersData.length + payload.length = total at *
    generalize check : crc32 (be 4 total ++ be 4 headersData.length) = preludeCrc at *
    generalize last : crc32 (message total headersData.length preludeCrc headersData payload) =
      messageCrc at *
    rw [whole]
    refine ⟨total, _, ⟨small, by unfold message; simp only [List.append_assoc]; rfl⟩, headersData.length, _,
      ⟨by omega, rfl⟩, preludeCrc, _, ⟨check ▸ crc32_lt _, rfl⟩, headersData, _, ⟨rfl, rfl⟩, payload, _,
      ⟨by omega, rfl⟩, messageCrc, _, ⟨last ▸ crc32_lt _, rfl⟩, headers, ⟨fits, data.symm⟩, ?_⟩
    rw [List.append_assoc, message_prelude, message_take _ _ counted.symm]
    exact if_pos ⟨by omega, check.symm, last.symm⟩

theorem encodeFrame_filled [Crc32] (frame : Frame) : encodeFrame frame ≠ [] := by
  obtain ⟨headers, payload⟩ := frame
  intro empty
  have length := congrArg List.length empty
  have whole := encodeFrame_eq headers payload
  dsimp only at whole
  rw [whole, List.length_append, be_length, List.length_nil] at length
  omega

/-- **A stream of frames is split into them**, exactly when the length of each is within its field. -/
theorem decodeStream_iff [Crc32] {frames : List Frame}
    (fits : ∀ frame ∈ frames, ∀ header ∈ frame.headers, Fits header) :
    decodeStream (frames.flatMap encodeFrame) = some frames ↔ ∀ frame ∈ frames, frame.Small := by
  unfold decodeStream
  rw [many_iff readFrame_exact encodeFrame_filled]
  constructor
  · exact fun ⟨valid, _⟩ frame member => (valid frame member).2
  · exact fun small => ⟨fun frame member => ⟨fits frame member, small frame member⟩, rfl⟩

/-! ### Texts -/

/-- The chunks of a text are the text; of words, the same words. -/
def Recovered (text : String) (cfg : StreamingConfig) : Prop :=
  if cfg.chunkMode = "word" then
    splitWhitespace (String.join (splitChunks text cfg)) = splitWhitespace text
  else String.join (splitChunks text cfg) = text

/-- No chunk of bytes starts inside a character. -/
def CutBetween (text : String) (cfg : StreamingConfig) : Prop :=
  cfg.chunkMode = "fixed" → ∀ piece ∈ chunks (max cfg.fixedChunkSize 1) (utf8 text), Begins piece

theorem join_lossy (pieces : List (List UInt8)) :
    (String.join (pieces.map fromUtf8Lossy)).toList = pieces.flatMap (lossyGo none) := by
  rw [String.toList_join, List.flatMap_map]
  exact congrArg (fun read => pieces.flatMap read) (funext fun piece => String.toList_ofList)

/-- **The chunks of a text make it up again**, exactly when no character is cut. -/
theorem recovered_iff (text : String) (cfg : StreamingConfig) : Recovered text cfg ↔ CutBetween text cfg := by
  unfold Recovered CutBetween
  by_cases word : cfg.chunkMode = "word"
  · have split : splitChunks text cfg = (splitWhitespace text).map fun word => word ++ " " := by
      unfold splitChunks
      rw [word]
      rfl
    rw [if_pos word, split, splitWhitespace_spaced (splitWhitespace_words text)]
    exact ⟨fun _ fixed => absurd (word.symm.trans fixed) (by decide), fun _ => rfl⟩
  · rw [if_neg word]
    by_cases fixed : cfg.chunkMode = "fixed"
    · have whole : (chunks (max cfg.fixedChunkSize 1) (utf8 text)).flatten = utf8 text :=
        flatten_chunks (lt_max_of_lt_right Nat.one_pos) (utf8 text)
      have split : splitChunks text cfg =
          (chunks (max cfg.fixedChunkSize 1) (utf8 text)).map fromUtf8Lossy := by
        unfold splitChunks
        rw [fixed]
        rfl
      rw [split, ← String.toList_inj, join_lossy, pieces_iff whole]
      exact ⟨fun begins _ => begins, fun begins => begins fixed⟩
    · refine ⟨fun _ wrong => absurd wrong fixed, fun _ => ?_⟩
      unfold splitChunks
      split
      · exact absurd ‹_› word
      · rw [← String.toList_inj, String.toList_join, List.flatMap_map]
        calc text.toList.flatMap _ = text.toList.flatMap fun char => [char] :=
              congrArg (fun read => text.toList.flatMap read) (funext fun char => String.toList_ofList)
          _ = text.toList := List.flatMap_singleton' _
      · exact absurd ‹_› fixed
      · rw [String.join_cons, String.join_nil, String.append_empty]

/-! ### Events -/

/-- What a frame of a body stands for. -/
inductive Event where
  | delta (text : String)
  | messageStop
  | exception (errorType errorMessage : String)

/-- The events for some chunks: the chunks and a stop, or the first chunks and an exception. -/
def eventsFor (failAfter : Option Nat) (chunks : List String) : List Event :=
  match failAfter with
  | some count =>
    if count < chunks.length then
      (chunks.take count).map .delta ++ [.exception "ModelStreamErrorException" "Forced stream error"]
    else chunks.map .delta ++ [.messageStop]
  | none => chunks.map .delta ++ [.messageStop]

/-- **The events that the body of a text has to have.** -/
def eventsOf (text : String) (cfg : StreamingConfig) : List Event :=
  eventsFor cfg.failAfterChunks (splitChunks text cfg)

theorem eventsFor_next (count : Nat) (chunk : String) (rest : List String) :
    eventsFor (some (count + 1)) (chunk :: rest) = .delta chunk :: eventsFor (some count) rest := by
  unfold eventsFor
  dsimp only
  rw [List.length_cons]
  by_cases more : count < rest.length
  · rw [if_pos (Nat.succ_lt_succ more), if_pos more]
    rfl
  · rw [if_neg fun wrong => more (Nat.lt_of_succ_lt_succ wrong), if_neg more]
    rfl

/-- The text of a member of an object. -/
def textMember (value : Json) (name : String) : Option String :=
  (value.get name).bind Json.asStr

theorem ordered_texts {levels : Nat} {members : List (String × Json)}
    (keys : (members.map Prod.fst).Pairwise (· < ·))
    (texts : ∀ member ∈ members, ∃ text, member.2 = .str text) :
    Ordered (levels + 1) (.obj members) :=
  .obj members keys fun member inside => by
    obtain ⟨text, same⟩ := texts member inside
    rw [same]
    exact .str text

theorem ordered_pair {levels : Nat} {first second : String} (less : first < second)
    (one two : String) : Ordered (levels + 1) (.obj [(first, .str one), (second, .str two)]) := by
  refine ordered_texts (List.pairwise_pair.mpr less) fun member inside => ?_
  simp only [List.mem_cons, List.not_mem_nil, or_false] at inside
  rcases inside with rfl | rfl
  · exact ⟨one, rfl⟩
  · exact ⟨two, rfl⟩

theorem ordered_delta (text : String) : Parsed (deltaJson text) := by
  have keys : ("delta" : String) < "type" := by decide
  refine .obj _ (List.pairwise_pair.mpr keys) fun member inside => ?_
  simp only [List.mem_cons, List.not_mem_nil, or_false] at inside
  rcases inside with rfl | rfl
  · exact ordered_pair (by decide) text "text_delta"
  · exact .str _

section Bodies

variable [External]

def readJson (bytes : List UInt8) : Option Json :=
  (textOf bytes).bind External.jsonFromStr

/-- A frame as an event: the kind of message is in its headers. -/
def readEvent (frame : Frame) : Option Event := do
  let value ← readJson frame.payload
  match frame.headers.lookup ":message-type" with
  | some "event" =>
    let inner ← readJson (← standardDecode (← textMember value "bytes"))
    match textMember inner "type" with
    | some "content_block_delta" =>
      let delta ← inner.get "delta"
      return .delta (← textMember delta "text")
    | some "message_stop" => some .messageStop
    | _ => none
  | some "exception" =>
    return .exception (← frame.headers.lookup ":exception-type") (← textMember value "message")
  | _ => none

/-- The frame that the code writes for an event. -/
def frameOf : Event → Frame
  | .delta text => ⟨eventHeaders, eventPayload (deltaJson text)⟩
  | .messageStop => ⟨eventHeaders, eventPayload stopJson⟩
  | .exception errorType errorMessage => ⟨errorHeaders errorType, errorPayload errorType errorMessage⟩

/-- The loop writes the frames of the events. -/
theorem streamFrom_eq [Crc32] (cfg : StreamingConfig) (chunks : List String) : ∀ index,
    streamFrom cfg index chunks =
      ((eventsFor (cfg.failAfterChunks.map fun count => count - index) chunks).map frameOf).flatMap
        encodeFrame := by
  induction chunks with
  | nil =>
    intro index
    have stop : eventsFor (cfg.failAfterChunks.map fun count => count - index) [] = [.messageStop] := by
      cases cfg.failAfterChunks with
      | none => rfl
      | some count =>
        unfold eventsFor
        rw [Option.map_some, List.length_nil]
        exact if_neg (Nat.not_lt_zero _)
    rw [stop]
    exact (List.append_nil stopEvent).symm
  | cons chunk rest ih =>
    intro index
    unfold streamFrom
    rw [ih]
    cases cfg.failAfterChunks with
    | none => rfl
    | some count =>
      rw [Option.any_some, Option.map_some, Option.map_some]
      by_cases failed : count ≤ index
      · rw [if_pos (decide_eq_true failed), Nat.sub_eq_zero_of_le failed]
        exact (List.append_nil _).symm
      · have ahead : count - index = count - (index + 1) + 1 := by omega
        rw [if_neg (by rw [decide_eq_true_iff]; exact failed), ahead, eventsFor_next]
        rfl

theorem buildStreamingBody_eq [Crc32] (content : String) (cfg : StreamingConfig) :
    buildStreamingBody content cfg = ((eventsOf content cfg).map frameOf).flatMap encodeFrame := by
  unfold buildStreamingBody eventsOf
  rw [streamFrom_eq]
  cases cfg.failAfterChunks <;> rfl

theorem readJson_printed (laws : JsonLaws ‹External›) {value : Json}
    (ordered : Parsed value) : readJson (utf8 (External.jsonToString value)) = some value := by
  unfold readJson
  rw [textOf_iff.mpr rfl]
  exact laws.reads value ordered

theorem readEvent_inner (laws : JsonLaws ‹External›) {value : Json}
    (ordered : Parsed value) : readEvent ⟨eventHeaders, eventPayload value⟩ =
      match textMember value "type" with
      | some "content_block_delta" => do
        let delta ← value.get "delta"
        return .delta (← textMember delta "text")
      | some "message_stop" => some .messageStop
      | _ => none := by
  have single : Parsed
      (.obj [("bytes", .str (standardEncode (utf8 (External.jsonToString value))))]) :=
    ordered_texts (List.pairwise_singleton _ _) fun member inside =>
      ⟨_, congrArg Prod.snd (List.mem_singleton.mp inside)⟩
  have outer := readJson_printed laws single
  have bytes : textMember (.obj [("bytes", .str (standardEncode (utf8 (External.jsonToString value))))])
      "bytes" = some (standardEncode (utf8 (External.jsonToString value))) := rfl
  have kind : eventHeaders.lookup ":message-type" = some "event" := rfl
  unfold readEvent eventPayload
  dsimp only
  rw [outer, Option.bind_eq_bind, Option.bind_some, kind, bytes, Option.bind_eq_bind, Option.bind_some,
    Sqs.standard_decode_encode, Option.bind_eq_bind, Option.bind_some, readJson_printed laws ordered]
  rfl

/-- **Every event is read from its frame.** -/
theorem readEvent_frameOf (laws : JsonLaws ‹External›) (event : Event) :
    readEvent (frameOf event) = some event := by
  cases event with
  | delta text =>
    unfold frameOf
    dsimp only
    rw [readEvent_inner laws (ordered_delta text)]
    rfl
  | messageStop =>
    have ordered : Parsed stopJson := ordered_pair (by decide) _ _
    unfold frameOf
    dsimp only
    rw [readEvent_inner laws ordered]
    rfl
  | exception errorType errorMessage =>
    have kind : (errorHeaders errorType).lookup ":message-type" = some "exception" := rfl
    unfold frameOf readEvent errorPayload
    dsimp only
    rw [readJson_printed laws (ordered_pair (by decide) _ _), Option.bind_eq_bind, Option.bind_some, kind]
    rfl

theorem readEvents (laws : JsonLaws ‹External›) (events : List Event) :
    (events.map frameOf).mapM readEvent = some events := by
  induction events with
  | nil => rfl
  | cons event rest ih =>
    rw [List.map_cons, List.mapM_cons, readEvent_frameOf laws, ih]
    rfl

/-! ### Bodies -/

/-- No exception comes before the last chunk. -/
def Uncut (text : String) (cfg : StreamingConfig) : Prop :=
  ∀ count, cfg.failAfterChunks = some count → (splitChunks text cfg).length ≤ count

/-- **A body that is decoded to its events**, and to the text unless it is cut short. -/
structure Streams [Crc32] (text : String) (cfg : StreamingConfig) : Prop where
  frames : decodeStream (buildStreamingBody text cfg) = some ((eventsOf text cfg).map frameOf)
  events : ((eventsOf text cfg).map frameOf).mapM readEvent = some (eventsOf text cfg)
  text : Uncut text cfg → Recovered text cfg

theorem eventsOf_fit (text : String) (cfg : StreamingConfig) :
    ∀ frame ∈ (eventsOf text cfg).map frameOf, ∀ header ∈ frame.headers, Fits header := by
  have chunked : ∀ (chunks : List String) (last event : Event), event ∈ chunks.map .delta ++ [last] →
      (∃ chunk, event = .delta chunk) ∨ event = last := by
    intro chunks last event member
    rcases List.mem_append.mp member with first | final
    · obtain ⟨chunk, -, rfl⟩ := List.mem_map.mp first
      exact .inl ⟨chunk, rfl⟩
    · exact .inr (List.mem_singleton.mp final)
  have events : ∀ event ∈ eventsOf text cfg, (∃ chunk, event = .delta chunk) ∨
      event = .messageStop ∨ event = .exception "ModelStreamErrorException" "Forced stream error" := by
    intro event member
    unfold eventsOf eventsFor at member
    split at member
    · split at member
      · exact (chunked _ _ event member).imp_right .inr
      · exact (chunked _ _ event member).imp_right .inl
    · exact (chunked _ _ event member).imp_right .inl
  have standard : ∀ header ∈ eventHeaders, Fits header := by decide
  have failed : ∀ header ∈ errorHeaders "ModelStreamErrorException", Fits header := by decide
  intro frame member
  obtain ⟨event, inside, rfl⟩ := List.mem_map.mp member
  rcases events event inside with ⟨chunk, rfl⟩ | rfl | rfl
  · exact standard
  · exact standard
  · exact failed

/-- **Event streams are decoded to what was written.** Frames are split and read when the length of each
is within its field, and the body of a text gives the text when also no character is cut, or an
exception comes before the last chunk. -/
theorem streams_decode [Crc32] (laws : JsonLaws ‹External›) :
    (∀ frames : List Frame, (∀ frame ∈ frames, ∀ header ∈ frame.headers, Fits header) →
      (decodeStream (frames.flatMap encodeFrame) = some frames ↔ ∀ frame ∈ frames, frame.Small)) ∧
    ∀ (text : String) (cfg : StreamingConfig), Streams text cfg ↔
      (∀ event ∈ eventsOf text cfg, (frameOf event).Small) ∧
        (Uncut text cfg → CutBetween text cfg) := by
  refine ⟨fun frames fits => decodeStream_iff fits, fun text cfg => ?_⟩
  have frames := decodeStream_iff (eventsOf_fit text cfg)
  rw [← buildStreamingBody_eq, List.forall_mem_map] at frames
  constructor
  · exact fun streams =>
      ⟨frames.mp streams.frames, fun uncut => (recovered_iff text cfg).mp (streams.text uncut)⟩
  · exact fun ⟨small, between⟩ => ⟨frames.mpr small, readEvents laws _,
      fun uncut => (recovered_iff text cfg).mpr (between uncut)⟩

end Bodies

/-- The reference function. -/
@[reducible]
def Crc32.reference : Crc32 where
  hash bytes := .ofBitVec (Crc.reflected 0xEDB88320#32 bytes)

section Sample

attribute [local instance] Crc32.reference

/-- Frames and bodies with a serializer. -/
theorem streams_decode_printed :
    (∀ frames : List Frame, (∀ frame ∈ frames, ∀ header ∈ frame.headers, Fits header) →
      (decodeStream (frames.flatMap encodeFrame) = some frames ↔ ∀ frame ∈ frames, frame.Small)) ∧
    ∀ (text : String) (cfg : StreamingConfig), @Streams printedJson _ text cfg ↔
      (∀ event ∈ eventsOf text cfg, (@frameOf printedJson event).Small) ∧
        (Uncut text cfg → CutBetween text cfg) :=
  @streams_decode printedJson _ printed_laws

/-- Chunks of one byte of a character of two: the deltas are not the text. -/
theorem cut_character :
    splitChunks "é" { chunkMode := "fixed", fixedChunkSize := 1 } = ["\uFFFD", "\uFFFD"] ∧
      ¬@Streams printedJson _ "é" { chunkMode := "fixed", fixedChunkSize := 1 } := by
  have split : splitChunks "é" { chunkMode := "fixed", fixedChunkSize := 1 } = ["\uFFFD", "\uFFFD"] := by
    decide
  refine ⟨split, fun streams => ?_⟩
  have text := @Streams.text printedJson _ _ _ streams nofun
  unfold Recovered at text
  rw [if_neg (by decide), split] at text
  exact absurd text (by decide)

end Sample

end CloudTwin.Bedrock
