/-
**Headers of simple messages** (`aws/ses/sending.rs`, `aws/ses/events.rs`).

A simple message is written line by line, and the events read its headers back. The source writes the
fields as they are given: a line end in a field ends the header, and what follows it is read as one.

* `buildSimple`, `ensureHeader`, `wireMessage` — the message as recipients get it.
* `parseHeaders` — the reader.
* `requested` — the headers that a message asks for.
* `Clean` — no line end in a field, and header names that read as names.
* `clean_carries` — a clean message carries exactly the requested headers.
* `subject_injects` — one that is not does not.
-/

import CloudTwin.Lib.Lines
import CloudTwin.Lib.Utf8

namespace CloudTwin.Ses

open Lib Lib.Text
open Lib.Lines (lines linesGo joined)

/-! ### Messages -/

/-- What a simple message is built of. -/
structure SimpleMail where
  fromAddress : String
  toAddresses : List String
  ccAddresses : List String
  bccAddresses : List String
  replyTo : List String
  subject : String
  text : Option String
  html : Option String
  headers : List (String × String)

/-- What a send makes up: the id, the date and the boundary are texts without a line end. -/
structure Stamp where
  messageId : String
  date : String
  boundary : String
  plain : '\n' ∉ messageId.toList ∧ '\n' ∉ date.toList ∧ '\n' ∉ boundary.toList

def headerLine (field : String × String) : String := field.1 ++ ": " ++ field.2 ++ "\r\n"

def headerLines (fields : List (String × String)) : String :=
  (fields.map headerLine).foldr (· ++ ·) ""

/-- A list of addresses, if there are any. -/
def addressField (name : String) (addresses : List String) : List (String × String) :=
  if addresses = [] then [] else [(name, String.intercalate ", " addresses)]

/-- `build_simple`. -/
def buildSimple (mail : SimpleMail) (stamp : Stamp) (includeBcc : Bool) : String :=
  let h := headerLines
    ([("From", mail.fromAddress), ("To", String.intercalate ", " mail.toAddresses)] ++
      addressField "Cc" mail.ccAddresses ++
      (if includeBcc then addressField "Bcc" mail.bccAddresses else []) ++
      addressField "Reply-To" mail.replyTo ++
      [("Subject", mail.subject), ("Message-ID", "<" ++ stamp.messageId ++ ">"),
        ("Date", stamp.date), ("MIME-Version", "1.0")] ++
      mail.headers)
  match mail.text, mail.html with
  | some text, some html =>
    let b := stamp.boundary
    h ++ "Content-Type: multipart/alternative; boundary=\"" ++ b ++ "\"\r\n\r\n" ++
      "--" ++ b ++ "\r\nContent-Type: text/plain; charset=UTF-8\r\n\r\n" ++ text ++ "\r\n" ++
      "--" ++ b ++ "\r\nContent-Type: text/html; charset=UTF-8\r\n\r\n" ++ html ++ "\r\n--" ++ b ++
      "--\r\n"
  | none, some html => h ++ "Content-Type: text/html; charset=UTF-8\r\n\r\n" ++ html ++ "\r\n"
  | some text, none => h ++ "Content-Type: text/plain; charset=UTF-8\r\n\r\n" ++ text ++ "\r\n"
  | none, none => h ++ "\r\n"

/-! ### The reader -/

/-- `text.split(part).next()`. -/
def beforePart (part text : List Char) : List Char :=
  match findSub part text with
  | some index => text.take index
  | none => text

/-- A folded line goes on with the last header. -/
def foldLine (text : String) : List (String × String) → List (String × String)
  | [] => []
  | [last] => [(last.1, last.2 ++ " " ++ text)]
  | first :: rest => first :: foldLine text rest

def readLine (out : List (String × String)) (given : String) : List (String × String) :=
  let line := trimEndMatches '\r' given
  if line.toList.head? = some ' ' ∨ line.toList.head? = some '\t' then foldLine (trim line) out
  else
    match splitOnce ':' line with
    | some (name, value) => out ++ [(trim name, trim value)]
    | none => out

/-- Split a raw RFC 822 message into unfolded `(name, value)` headers. -/
def parseHeaders (raw : List UInt8) : List (String × String) :=
  let text := (fromUtf8Lossy raw).toList
  let head := beforePart "\n\n".toList (beforePart "\r\n\r\n".toList text)
  ((linesGo [] head).map String.ofList).foldl readLine []

/-- Insert a header at the top of a raw message unless it already exists. -/
def ensureHeader (raw : List UInt8) (name value : String) : List UInt8 :=
  if (parseHeaders raw).any fun header => eqIgnoreAsciiCase header.1 name then raw
  else utf8 (headerLine (name, value)) ++ raw

/-- The message as recipients get it. -/
def wireMessage (mail : SimpleMail) (stamp : Stamp) (returnPath : String) : List UInt8 :=
  ensureHeader (utf8 (buildSimple mail stamp false)) "Return-Path" ("<" ++ returnPath ++ ">")

/-! ### What is asked for -/

def contentTypeOf (mail : SimpleMail) (stamp : Stamp) : List (String × String) :=
  match mail.text, mail.html with
  | some _, some _ =>
    [("Content-Type", "multipart/alternative; boundary=\"" ++ stamp.boundary ++ "\"")]
  | none, some _ => [("Content-Type", "text/html; charset=UTF-8")]
  | some _, none => [("Content-Type", "text/plain; charset=UTF-8")]
  | none, none => []

def baseFields (mail : SimpleMail) (stamp : Stamp) : List (String × String) :=
  [("From", mail.fromAddress), ("To", String.intercalate ", " mail.toAddresses)] ++
    addressField "Cc" mail.ccAddresses ++ addressField "Reply-To" mail.replyTo ++
    [("Subject", mail.subject), ("Message-ID", "<" ++ stamp.messageId ++ ">"),
      ("Date", stamp.date), ("MIME-Version", "1.0")] ++
    mail.headers

/-- The headers of a message, but for the return path. -/
def fieldsOf (mail : SimpleMail) (stamp : Stamp) : List (String × String) :=
  baseFields mail stamp ++ contentTypeOf mail stamp

/-- A header, up to surrounding blanks. -/
def trimmed (field : String × String) : String × String := (trim field.1, trim field.2)

/-- The return path stands first, unless a header of the message has its name. -/
def requested (mail : SimpleMail) (stamp : Stamp) (returnPath : String) : List (String × String) :=
  if (fieldsOf mail stamp).any fun field => eqIgnoreAsciiCase (trim field.1) "Return-Path" then
    (fieldsOf mail stamp).map trimmed
  else (("Return-Path", "<" ++ returnPath ++ ">") :: fieldsOf mail stamp).map trimmed

/-- A name that reads as one: it holds no colon and no line end, and begins no folded line. -/
def CleanName (name : String) : Prop :=
  '\n' ∉ name.toList ∧ ':' ∉ name.toList ∧ name.toList.head? ≠ some ' ' ∧
    name.toList.head? ≠ some '\t'

instance : DecidablePred CleanName := fun _ => inferInstanceAs (Decidable (_ ∧ _))

/-- **No line end** in a field that the headers hold, header names that read as names, and a body. The
return path is written only if no header of the message has its name. -/
structure Clean (mail : SimpleMail) (returnPath : String) : Prop where
  fromAddress : '\n' ∉ mail.fromAddress.toList
  toAddresses : ∀ address ∈ mail.toAddresses, '\n' ∉ address.toList
  ccAddresses : ∀ address ∈ mail.ccAddresses, '\n' ∉ address.toList
  replyTo : ∀ address ∈ mail.replyTo, '\n' ∉ address.toList
  subject : '\n' ∉ mail.subject.toList
  headers : ∀ header ∈ mail.headers, CleanName header.1 ∧ '\n' ∉ header.2.toList
  returnPath : (∀ header ∈ mail.headers, eqIgnoreAsciiCase (trim header.1) "Return-Path" = false) →
    '\n' ∉ returnPath.toList
  body : mail.text.isSome = true ∨ mail.html.isSome = true

/-! ### Blanks -/

/-- Blanks at the end of a text are trimmed away. -/
theorem trim_append {chars blanks : List Char} (blank : ∀ char ∈ blanks, isWhitespace char = true) :
    trim (String.ofList (chars ++ blanks)) = trim (String.ofList chars) := by
  have none : blanks.dropWhile isWhitespace = [] := by
    rw [List.dropWhile_eq_nil_iff]
    exact blank
  have reversed : ∀ rest : List Char, (blanks.reverse ++ rest).dropWhile isWhitespace =
      rest.dropWhile isWhitespace := fun rest =>
    List.dropWhile_append_of_pos fun char member => blank char (List.mem_reverse.mp member)
  unfold trim
  rw [String.toList_ofList, String.toList_ofList, List.dropWhile_append]
  split
  · rename_i empty
    rw [List.isEmpty_iff.mp empty, none]
  · rw [List.reverse_append, reversed]

/-- A blank at the start of a text is trimmed away. -/
theorem trim_cons (chars : List Char) :
    trim (String.ofList (' ' :: chars)) = trim (String.ofList chars) := by
  unfold trim
  rw [String.toList_ofList, String.toList_ofList, List.dropWhile_cons_of_pos (by decide)]

/-- `trim_end_matches('\r')`, on characters. -/
def stripReturns (value : List Char) : List Char :=
  (value.reverse.dropWhile (· == '\r')).reverse

theorem trim_stripReturns (value : List Char) :
    trim (String.ofList (stripReturns value)) = trim (String.ofList value) := by
  have whole : value = stripReturns value ++ (value.reverse.takeWhile (· == '\r')).reverse := by
    rw [stripReturns, ← List.reverse_append, List.takeWhile_append_dropWhile, List.reverse_reverse]
  have blank : ∀ char ∈ (value.reverse.takeWhile (· == '\r')).reverse, isWhitespace char = true := by
    intro char member
    have isReturn := List.mem_takeWhile_imp (List.mem_reverse.mp member)
    rw [beq_iff_eq.mp isReturn]
    decide
  have trimmedAway : trim (String.ofList (stripReturns value ++
      (value.reverse.takeWhile (· == '\r')).reverse)) = trim (String.ofList (stripReturns value)) :=
    trim_append blank
  rw [← whole] at trimmedAway
  exact trimmedAway.symm

/-! ### One line -/

/-- The characters of a header line, without its end. -/
def lineChars (field : String × String) : List Char :=
  field.1.toList ++ ':' :: ' ' :: field.2.toList

theorem stripReturns_line (name value : List Char) :
    stripReturns (name ++ ':' :: ' ' :: value) = name ++ ':' :: ' ' :: stripReturns value := by
  have kept : (' ' :: ':' :: name.reverse).dropWhile (· == '\r') = ' ' :: ':' :: name.reverse := rfl
  have reversed : (name ++ ':' :: ' ' :: value).reverse =
      value.reverse ++ ' ' :: ':' :: name.reverse := by
    simp
  have dropped : (value.reverse ++ ' ' :: ':' :: name.reverse).dropWhile (· == '\r') =
      value.reverse.dropWhile (· == '\r') ++ ' ' :: ':' :: name.reverse := by
    rw [List.dropWhile_append]
    split
    · rename_i empty
      rw [List.isEmpty_iff.mp empty, kept]
      rfl
    · rfl
  unfold stripReturns
  rw [reversed, dropped]
  simp

/-- A field of a header: a name that reads as one, and a value without a line end. -/
def CleanField (field : String × String) : Prop := CleanName field.1 ∧ '\n' ∉ field.2.toList

/-- **A header line** is read as its field, up to blanks. -/
theorem readLine_field {field : String × String} (clean : CleanField field)
    (out : List (String × String)) :
    readLine out (String.ofList (lineChars field)) = out ++ [trimmed field] := by
  obtain ⟨name, value⟩ := field
  obtain ⟨⟨_, colon, blank, tab⟩, _⟩ := clean
  have line : trimEndMatches '\r' (String.ofList (lineChars (name, value))) =
      String.ofList (name.toList ++ ':' :: ' ' :: stripReturns value.toList) := by
    unfold trimEndMatches
    rw [String.toList_ofList]
    exact congrArg String.ofList (stripReturns_line name.toList value.toList)
  have opened : ¬ ((name.toList ++ ':' :: ' ' :: stripReturns value.toList).head? = some ' ' ∨
      (name.toList ++ ':' :: ' ' :: stripReturns value.toList).head? = some '\t') := by
    cases chars : name.toList with
    | nil =>
      show ¬ (some ':' = some ' ' ∨ some ':' = some '\t')
      decide
    | cons first rest =>
      rw [chars] at blank tab
      exact fun wrong => wrong.elim blank tab
  have named : ∀ char ∈ name.toList, (char != ':') = true := fun char member =>
    bne_iff_ne.mpr fun same => colon (same ▸ member)
  have split : splitOnce ':' (String.ofList (name.toList ++ ':' :: ' ' :: stripReturns value.toList)) =
      some (name, String.ofList (' ' :: stripReturns value.toList)) := by
    unfold splitOnce beforeFirst
    rw [String.toList_ofList, if_pos (List.mem_append_right _ List.mem_cons_self),
      List.takeWhile_append_of_pos named, List.dropWhile_append_of_pos named]
    have first : (':' :: ' ' :: stripReturns value.toList).takeWhile (· != ':') = [] := rfl
    have after : ((':' :: ' ' :: stripReturns value.toList).dropWhile (· != ':')).drop 1 =
        ' ' :: stripReturns value.toList := rfl
    rw [first, after, List.append_nil, String.ofList_toList]
  unfold readLine
  dsimp only
  rw [line, String.toList_ofList, if_neg opened, split]
  dsimp only
  rw [trim_cons, trim_stripReturns, String.ofList_toList]
  rfl

theorem readLine_fields (fields : List (String × String)) (clean : ∀ field ∈ fields, CleanField field)
    (out : List (String × String)) :
    ((fields.map lineChars).map String.ofList).foldl readLine out = out ++ fields.map trimmed := by
  induction fields generalizing out with
  | nil => exact (List.append_nil out).symm
  | cons field fields ih =>
    rw [List.map_cons, List.map_cons, List.foldl_cons,
      readLine_field (clean field List.mem_cons_self),
      ih fun given member => clean given (List.mem_cons_of_mem _ member), List.append_assoc]
    rfl

/-! ### A header section -/

theorem CleanField.full {field : String × String} (clean : CleanField field) :
    Lines.Full (lineChars field) := by
  constructor
  · rw [lineChars, List.length_append, List.length_cons, List.length_cons]
    omega
  · rw [lineChars, List.mem_append, List.mem_cons, List.mem_cons]
    rintro (inName | wrong | wrong | inValue)
    · exact clean.1.1 inName
    · exact absurd wrong (by decide)
    · exact absurd wrong (by decide)
    · exact clean.2 inValue

theorem headerLines_toList (fields : List (String × String)) :
    (headerLines fields).toList = (fields.map lineChars).flatMap fun line => line ++ Lines.crlf := by
  induction fields with
  | nil => rfl
  | cons field fields ih =>
    have this : (headerLine field).toList = lineChars field ++ Lines.crlf := by
      unfold headerLine lineChars
      rw [String.toList_append, String.toList_append, String.toList_append, List.append_assoc,
        List.append_assoc, List.append_assoc]
      rfl
    have head : headerLines (field :: fields) = headerLine field ++ headerLines fields := rfl
    rw [head, String.toList_append, this, ih, List.map_cons, List.flatMap_cons]

/-- The headers of a text. -/
theorem parseHeaders_utf8 (text : String) :
    parseHeaders (utf8 text) =
      ((linesGo [] (beforePart "\n\n".toList (beforePart "\r\n\r\n".toList text.toList))).map
        String.ofList).foldl readLine [] := by
  unfold parseHeaders
  rw [fromUtf8Lossy_utf8]

/-- **Clean fields are read back**, whatever stands behind the header. -/
theorem parseHeaders_fields {fields : List (String × String)} (some' : fields ≠ [])
    (clean : ∀ field ∈ fields, CleanField field) (body : String) :
    parseHeaders (utf8 (headerLines fields ++ "\r\n" ++ body)) = fields.map trimmed := by
  obtain ⟨first, rest, rfl⟩ := List.exists_cons_of_ne_nil some'
  have full : ∀ line ∈ lineChars first :: rest.map lineChars, Lines.Full line := by
    intro line member
    rw [← List.map_cons] at member
    obtain ⟨field, inside, rfl⟩ := List.mem_map.mp member
    exact (clean field inside).full
  have nonempty : ∀ line ∈ lineChars first :: rest.map lineChars, line ≠ [] ∧ '\n' ∉ line := by
    intro line member
    refine ⟨fun empty => ?_, (full line member).2⟩
    have long := (full line member).1
    rw [empty] at long
    exact absurd long (by decide)
  have text : (headerLines (first :: rest) ++ "\r\n" ++ body).toList =
      joined (lineChars first) (rest.map lineChars) ++ (Lines.crlf ++ (Lines.crlf ++ body.toList)) := by
    rw [String.toList_append, String.toList_append, headerLines_toList, List.map_cons,
      Lines.joined_append, List.append_assoc, List.append_assoc]
    rfl
  have blankLine := Lines.blankLine_joined _ _ full body.toList
  have feeds := Lines.feeds_joined _ _ full
  have read := Lines.linesGo_joined _ _ nonempty
  have fields := readLine_fields (first :: rest) clean []
  rw [parseHeaders_utf8, text]
  generalize joined (lineChars first) (rest.map lineChars) = head at blankLine feeds read ⊢
  have section' : beforePart "\r\n\r\n".toList (head ++ (Lines.crlf ++ (Lines.crlf ++ body.toList))) =
      head := by
    have found : findSub "\r\n\r\n".toList (head ++ (Lines.crlf ++ (Lines.crlf ++ body.toList))) =
      some head.length := blankLine
    rw [beforePart, found]
    exact List.take_left
  have whole : beforePart "\n\n".toList head = head := by
    have none : findSub "\n\n".toList head = none := feeds
    rw [beforePart, none]
  rw [section', whole, read, ← List.map_cons, fields, List.nil_append]

/-! ### The wire message -/

theorem headerLines_append (first second : List (String × String)) :
    headerLines (first ++ second) = headerLines first ++ headerLines second := by
  induction first with
  | nil => rw [List.nil_append, show headerLines [] = "" from rfl, String.empty_append]
  | cons field first ih =>
    have head : ∀ rest, headerLines (field :: rest) = headerLine field ++ headerLines rest :=
      fun _ => rfl
    rw [List.cons_append, head, head, ih, String.append_assoc]

/-- **The message** is its fields, an empty line and its body. -/
theorem buildSimple_eq (mail : SimpleMail) (stamp : Stamp) : ∃ body,
    buildSimple mail stamp false = headerLines (fieldsOf mail stamp) ++ "\r\n" ++ body := by
  have one : ∀ value : String, headerLines [("Content-Type", value)] =
      "Content-Type" ++ ": " ++ value ++ "\r\n" := fun value => String.append_empty
  have html : "Content-Type: text/html; charset=UTF-8\r\n\r\n" =
      "Content-Type" ++ ": " ++ "text/html; charset=UTF-8" ++ "\r\n" ++ "\r\n" := rfl
  have plain : "Content-Type: text/plain; charset=UTF-8\r\n\r\n" =
      "Content-Type" ++ ": " ++ "text/plain; charset=UTF-8" ++ "\r\n" ++ "\r\n" := rfl
  have both : "Content-Type: multipart/alternative; boundary=\"" =
      "Content-Type" ++ ": " ++ "multipart/alternative; boundary=\"" := rfl
  have quote : "\"\r\n\r\n" = "\"" ++ "\r\n" ++ "\r\n" := rfl
  have base : headerLines ([("From", mail.fromAddress),
      ("To", String.intercalate ", " mail.toAddresses)] ++ addressField "Cc" mail.ccAddresses ++
      addressField "Reply-To" mail.replyTo ++ [("Subject", mail.subject),
        ("Message-ID", "<" ++ stamp.messageId ++ ">"), ("Date", stamp.date), ("MIME-Version", "1.0")] ++
      mail.headers) = headerLines (baseFields mail stamp) := rfl
  unfold buildSimple fieldsOf contentTypeOf
  dsimp only
  rw [if_neg Bool.false_ne_true, List.append_nil, base, headerLines_append]
  generalize headerLines (baseFields mail stamp) = head
  cases mail.text with
  | none =>
    cases mail.html with
    | none => exact ⟨"", by simp [headerLines]⟩
    | some given =>
      refine ⟨given ++ "\r\n", ?_⟩
      dsimp only
      rw [one, html]
      simp only [String.append_assoc]
  | some text =>
    cases mail.html with
    | none =>
      refine ⟨text ++ "\r\n", ?_⟩
      dsimp only
      rw [one, plain]
      simp only [String.append_assoc]
    | some given =>
      refine ⟨"--" ++ stamp.boundary ++ "\r\nContent-Type: text/plain; charset=UTF-8\r\n\r\n" ++ text ++
        "\r\n" ++ "--" ++ stamp.boundary ++ "\r\nContent-Type: text/html; charset=UTF-8\r\n\r\n" ++
        given ++ "\r\n--" ++ stamp.boundary ++ "--\r\n", ?_⟩
      dsimp only
      rw [one, both, quote]
      simp only [String.append_assoc]

theorem intercalate_clean {addresses : List String} (clean : ∀ address ∈ addresses, '\n' ∉ address.toList) :
    '\n' ∉ (String.intercalate ", " addresses).toList := by
  induction addresses with
  | nil => decide
  | cons address rest ih =>
    have this := clean address List.mem_cons_self
    have later := ih fun given member => clean given (List.mem_cons_of_mem _ member)
    cases rest with
    | nil =>
      rw [String.intercalate_singleton]
      exact this
    | cons next rest =>
      rw [String.intercalate_cons_cons, String.toList_append, String.toList_append, List.mem_append,
        List.mem_append]
      rintro ((inAddress | inComma) | inRest)
      · exact this inAddress
      · exact absurd inComma (by decide)
      · exact later inRest

theorem bracketed_clean {text : String} (clean : '\n' ∉ text.toList) :
    '\n' ∉ ("<" ++ text ++ ">").toList := by
  rw [String.toList_append, String.toList_append, List.mem_append, List.mem_append]
  rintro ((inOpen | inText) | inClose)
  · exact absurd inOpen (by decide)
  · exact clean inText
  · exact absurd inClose (by decide)

theorem cleanField {name value : String} (named : CleanName name) (plain : '\n' ∉ value.toList) :
    CleanField (name, value) :=
  ⟨named, plain⟩

theorem fieldsOf_clean {mail : SimpleMail} {returnPath : String} (clean : Clean mail returnPath)
    (stamp : Stamp) : ∀ field ∈ fieldsOf mail stamp, CleanField field := by
  have addressList : ∀ name addresses, CleanName name → (∀ address ∈ addresses, '\n' ∉ address.toList) →
      ∀ field ∈ addressField name addresses, CleanField field := by
    intro name addresses named clean field member
    unfold addressField at member
    split at member
    · exact absurd member List.not_mem_nil
    · rw [List.mem_singleton.mp member]
      exact ⟨named, intercalate_clean clean⟩
  have type : ∀ field ∈ contentTypeOf mail stamp, CleanField field := by
    intro field member
    have boundary : '\n' ∉ ("multipart/alternative; boundary=\"" ++ stamp.boundary ++ "\"").toList := by
      rw [String.toList_append, String.toList_append, List.mem_append, List.mem_append]
      rintro ((inHead | inBoundary) | inQuote)
      · exact absurd inHead (by decide)
      · exact stamp.plain.2.2 inBoundary
      · exact absurd inQuote (by decide)
    unfold contentTypeOf at member
    split at member
    · rw [List.mem_singleton.mp member]
      exact cleanField (by decide) (boundary)
    · rw [List.mem_singleton.mp member]
      exact cleanField (by decide) (by decide)
    · rw [List.mem_singleton.mp member]
      exact cleanField (by decide) (by decide)
    · exact absurd member List.not_mem_nil
  have messageId : '\n' ∉ ("<" ++ stamp.messageId ++ ">").toList := bracketed_clean stamp.plain.1
  intro field member
  unfold fieldsOf baseFields at member
  simp only [List.mem_append, List.mem_cons, List.not_mem_nil, or_false] at member
  rcases member with (((((rfl | rfl) | inCc) | inReplyTo) | (rfl | rfl | rfl | rfl)) | inHeaders) | inType
  · exact cleanField (by decide) (clean.fromAddress)
  · exact cleanField (by decide) (intercalate_clean clean.toAddresses)
  · exact addressList _ _ (by decide) clean.ccAddresses _ inCc
  · exact addressList _ _ (by decide) clean.replyTo _ inReplyTo
  · exact cleanField (by decide) (clean.subject)
  · exact cleanField (by decide) (messageId)
  · exact cleanField (by decide) (stamp.plain.2.1)
  · exact cleanField (by decide) (by decide)
  · exact clean.headers field inHeaders
  · exact type field inType

theorem utf8_append (first second : String) : utf8 (first ++ second) = utf8 first ++ utf8 second := by
  rw [utf8, String.toList_append, List.flatMap_append]
  rfl

/-- The message carries what is asked for: the headers, with a content type, and no other. -/
def CarriesExactly (mail : SimpleMail) (stamp : Stamp) (returnPath : String) : Prop :=
  parseHeaders (wireMessage mail stamp returnPath) = requested mail stamp returnPath ∧
    (contentTypeOf mail stamp).length = 1

/-- **A clean message carries exactly the requested headers**, and says nothing of its Bcc addresses. -/
theorem clean_carries {mail : SimpleMail} {returnPath : String} (clean : Clean mail returnPath)
    (stamp : Stamp) :
    CarriesExactly mail stamp returnPath ∧
      ∀ bccAddresses,
        wireMessage { mail with bccAddresses } stamp returnPath = wireMessage mail stamp returnPath := by
  refine ⟨⟨?_, ?_⟩, fun _ => rfl⟩
  · obtain ⟨body, whole⟩ := buildSimple_eq mail stamp
    have fields := fieldsOf_clean clean stamp
    have some' : fieldsOf mail stamp ≠ [] := List.cons_ne_nil _ _
    have parsed := parseHeaders_fields some' fields body
    unfold wireMessage ensureHeader requested
    rw [whole, parsed, List.any_map]
    by_cases given : ((fieldsOf mail stamp).any fun field =>
        eqIgnoreAsciiCase (trim field.1) "Return-Path") = true
    · have given' : (fieldsOf mail stamp).any
          ((fun header => eqIgnoreAsciiCase header.1 "Return-Path") ∘ trimmed) = true := given
      rw [if_pos given, if_pos given', parsed]
    · have own : ∀ header ∈ mail.headers, eqIgnoreAsciiCase (trim header.1) "Return-Path" = false := by
        intro header member
        refine Bool.eq_false_iff.mpr fun named => given (List.any_eq_true.mpr ⟨header, ?_, named⟩)
        exact List.mem_append_left _ (List.mem_append_right _ member)
      have path : CleanField ("Return-Path", "<" ++ returnPath ++ ">") :=
        cleanField (by decide) (bracketed_clean (clean.returnPath own))
      have given' : ¬ (fieldsOf mail stamp).any
          ((fun header => eqIgnoreAsciiCase header.1 "Return-Path") ∘ trimmed) = true := given
      have all : ∀ field ∈ ("Return-Path", "<" ++ returnPath ++ ">") :: fieldsOf mail stamp,
          CleanField field := List.forall_mem_cons.mpr ⟨path, fields⟩
      have again := parseHeaders_fields (List.cons_ne_nil _ _) all body
      rw [if_neg given, if_neg given', ← utf8_append, ← again]
      have head : headerLines (("Return-Path", "<" ++ returnPath ++ ">") :: fieldsOf mail stamp) =
          headerLine ("Return-Path", "<" ++ returnPath ++ ">") ++ headerLines (fieldsOf mail stamp) :=
        rfl
      rw [head]
      simp only [String.append_assoc]
  · unfold contentTypeOf
    rcases clean.body with text | html
    · obtain ⟨text, given⟩ := Option.isSome_iff_exists.mp text
      cases html : mail.html with
      | none => rw [given]; rfl
      | some html => rw [given]; rfl
    · obtain ⟨html, given⟩ := Option.isSome_iff_exists.mp html
      cases text : mail.text with
      | none => rw [given]; rfl
      | some text => rw [given]; rfl

/-- A message with a header of its own, and one with a return path of its own. -/
theorem clean_carries_sample :
    CarriesExactly
        { fromAddress := "a", toAddresses := ["b", "c"], ccAddresses := [], bccAddresses := ["d"],
          replyTo := [], subject := "s: t", text := some "", html := none, headers := [("x", " y")] }
        { messageId := "i", date := "d", boundary := "b", plain := by decide } "r" ∧
      CarriesExactly
        { fromAddress := "a", toAddresses := ["b"], ccAddresses := [], bccAddresses := [], replyTo := [],
          subject := "s", text := some "", html := none, headers := [("Return-Path", "x")] }
        { messageId := "i", date := "d", boundary := "b", plain := by decide } "p\nq" := by
  constructor
  · exact (clean_carries
      { fromAddress := by decide, toAddresses := by decide, ccAddresses := by decide,
        replyTo := by decide, subject := by decide, headers := by decide,
        returnPath := fun _ => by decide, body := Or.inl rfl }
      { messageId := "i", date := "d", boundary := "b", plain := by decide }).1
  · exact (clean_carries
      { fromAddress := by decide, toAddresses := by decide, ccAddresses := by decide,
        replyTo := by decide, subject := by decide, headers := by decide,
        returnPath := fun own =>
          absurd (own ("Return-Path", "x") List.mem_cons_self) (by decide)
        body := Or.inl rfl }
      { messageId := "i", date := "d", boundary := "b", plain := by decide }).1

/-- **A line end in the subject** adds a header. -/
theorem subject_injects :
    ¬ CarriesExactly
      { fromAddress := "a", toAddresses := [], ccAddresses := [], bccAddresses := [], replyTo := [],
        subject := "s\r\nx: y", text := some "", html := none, headers := [] }
      { messageId := "i", date := "d", boundary := "b", plain := by decide } "r" := by
  intro carries
  have same := congrArg List.length carries.1
  unfold wireMessage ensureHeader at same
  rw [parseHeaders_utf8, if_neg (by decide +kernel), ← utf8_append, parseHeaders_utf8] at same
  revert same
  decide +kernel

end CloudTwin.Ses
