/-
**Keys in URLs** (`aws/s3/xmlutil.rs`, `aws/s3/handlers.rs`, `aws/s3/object.rs`, `aws/s3/post_object.rs`).

A bucket, a key and a version come percent-encoded in the copy source of a request, and go out so in
redirects, listings and the records of events.

* `urlEncode`, `urlDecode`, `parseQuery` — the code; `parseCopySource`, `redirectTarget`.
* `decodeForm_encode`, `parseQuery_append` — what is written is read, alone and behind other parameters.
* `copy_source_read` — the copy sources of an object, and what is taken for one.
* `redirect_read` — a redirect names the object that was stored.
-/

import CloudTwin.Lib.Percent
import CloudTwin.Lib.Segments
import CloudTwin.S3.Models

namespace CloudTwin.S3

open Lib Lib.Text Lib.Percent Lib.Segments Lib.Words

/-! ### The code -/

/-- Characters left as-is by S3 URL encoding (unreserved + `/`). -/
def keySet (byte : UInt8) : Bool :=
  let code := byte.toNat
  (48 ≤ code && code ≤ 57) || (65 ≤ code && code ≤ 90) || (97 ≤ code && code ≤ 122) ||
    code == 45 || code == 95 || code == 46 || code == 126 || code == 47

/-- `encoding-type=url` encoding of keys and prefixes. -/
def urlEncode (s : String) : String := percentEncode keySet s

def urlDecode (s : String) : String := percentDecode s

/-- Query parameters that carry presigned-URL auth and never select an operation. -/
def authParams : List String :=
  ["x-amz-algorithm", "x-amz-credential", "x-amz-signature", "x-amz-date", "x-amz-expires",
    "x-amz-signedheaders", "x-amz-security-token", "x-amz-user-agent", "x-id", "awsaccesskeyid",
    "signature", "expires"]

/-- `s.replace('+', " ")`. -/
def plusToSpace (char : Char) : Char := if char = '+' then ' ' else char

/-- `dec` of `parse_query`. -/
def decodeForm (s : String) : String := percentDecode (String.ofList (s.toList.map plusToSpace))

def queryPair (kv : String) : String × String :=
  match splitOnceAt '=' kv.toList with
  | some (k, v) => (decodeForm (String.ofList k), decodeForm (String.ofList v))
  | none => (decodeForm kv, decodeForm "")

def isAuth (pair : String × String) : Bool := authParams.contains (toAsciiLowercase pair.1)

def parseQuery (raw : Option String) : List (String × String) :=
  (((split '&' (raw.getD "")).filter fun s => s ≠ "").map queryPair).filter fun pair => !isAuth pair

/-- `split_once("?versionId=")`. -/
def splitVersion (src : String) : Option (String × String) :=
  (findSub "?versionId=".toList src.toList).map fun at' =>
    (String.ofList (src.toList.take at'), String.ofList (src.toList.drop (at' + "?versionId=".toList.length)))

/-- The path of a copy source, and the version. -/
def pathAndVersion (src : String) : String × Option String :=
  match splitVersion src with
  | some (p, v) => (p, some (urlDecode v))
  | none => (beforeFirst '?' src, none)

/-- Parse `x-amz-copy-source` (`[/]bucket/key[?versionId=..]`, URL-encoded). -/
def parseCopySource (src : String) : S3Result (String × String × Option String) :=
  let (path, vid) := pathAndVersion src
  let path := (urlDecode path).toList.dropWhile (· == '/')
  match splitOnceAt '/' path with
  | some (b, k) =>
    if b ≠ [] ∧ k ≠ [] then .ok (String.ofList b, String.ofList k, vid)
    else .error (((S3Error.invalidArgument "Invalid copy source object key").withField "ArgumentName"
      "x-amz-copy-source").withField "ArgumentValue" src)
  | none => .error (((S3Error.invalidArgument "Invalid copy source object key").withField "ArgumentName"
      "x-amz-copy-source").withField "ArgumentValue" src)

/-- Where a browser upload is redirected to. -/
def redirectTarget (url bucket key etag : String) : String :=
  let sep := if '?' ∈ url.toList then "&" else "?"
  url ++ sep ++ "bucket=" ++ urlEncode bucket ++ "&key=" ++ urlEncode key ++ "&etag=" ++ urlEncode etag

/-- A character that the value of a header may hold. -/
def headerChar (char : Char) : Bool :=
  (32 ≤ char.toNat && char.toNat < 127) || char == '\t'

/-- The location of a response, as `add_headers` sets it: `HeaderValue::from_str` refuses a text with
any other character, and then there is none. -/
def locationHeader (target : String) : Option String :=
  if target.toList.all headerChar then some target else none

/-! ### Texts -/

theorem keySet_keeps : Keeps keySet where
  ascii byte kept := by
    unfold keySet at kept
    dsimp only at kept
    simp only [Bool.or_eq_true, Bool.and_eq_true, decide_eq_true_iff, beq_iff_eq] at kept
    omega
  noPercent := by decide

theorem urlDecode_encode (s : String) : urlDecode (urlEncode s) = s := percentDecode_encode keySet_keeps s

/-- A character that the encoding of keys does not keep. -/
def Reserved (char : Char) : Prop :=
  (∀ code < 256, keySet (UInt8.ofNat code) = true → char ≠ Char.ofNat code) ∧ char ≠ '%' ∧
    ∀ digit < 16, char ≠ hexUpper digit

instance (char : Char) : Decidable (Reserved char) := by
  unfold Reserved
  infer_instance

theorem reserved_absent {char : Char} (reserved : Reserved char) (s : String) :
    char ∉ (urlEncode s).toList := by
  refine not_mem_percentEncode (fun byte kept => ?_) reserved.2 s
  refine reserved.1 byte.toNat byte.toNat_lt ?_
  rw [UInt8.ofNat_toNat]
  exact kept

theorem reserved_marks : Reserved '&' ∧ Reserved '=' ∧ Reserved '+' ∧ Reserved '?' := by decide +kernel

theorem reserved_hash : Reserved '#' := by decide +kernel

/-- The encoding keeps such characters only. -/
theorem reserved_hidden {char : Char} (hidden : headerChar char = false) : Reserved char := by
  have kept : ∀ code < 256, keySet (UInt8.ofNat code) = true → headerChar (Char.ofNat code) = true := by
    decide +kernel
  have digits : ∀ digit < 16, headerChar (hexUpper digit) = true := by decide
  refine ⟨fun code small keeps same => ?_, fun same => ?_, fun digit small same => ?_⟩
  · rw [same, kept code small keeps] at hidden
    cases hidden
  · rw [same] at hidden
    exact absurd hidden (by decide)
  · rw [same, digits digit small] at hidden
    cases hidden

/-- A text without a plus is decoded as it stands. -/
theorem decodeForm_encode (s : String) : decodeForm (urlEncode s) = s := by
  have same : (urlEncode s).toList.map plusToSpace = (urlEncode s).toList := by
    refine (List.map_congr_left fun char member => ?_).trans (List.map_id _)
    exact if_neg fun plus : char = '+' => reserved_absent reserved_marks.2.2.1 s (plus ▸ member)
  unfold decodeForm
  rw [same, String.ofList_toList]
  exact urlDecode_encode s

/-! ### Queries -/

/-- The parameters that a query names, but for those of a signature. -/
theorem parseQuery_append (first second : String) :
    parseQuery (some (first ++ "&" ++ second)) = parseQuery (some first) ++ parseQuery (some second) := by
  have parts : split '&' (first ++ "&" ++ second) = split '&' first ++ split '&' second := by
    unfold split
    rw [String.toList_append, String.toList_append, List.append_assoc, ← List.map_append]
    exact congrArg (List.map String.ofList) (splitGo_join '&' first.toList second.toList [])
  unfold parseQuery
  rw [Option.getD_some, Option.getD_some, Option.getD_some, parts, List.filter_append, List.map_append,
    List.filter_append]

/-- A parameter that was written is read. -/
theorem parseQuery_pair {name value : String} (plain : '&' ∉ name.toList ∧ '=' ∉ name.toList)
    (read : decodeForm name = name)
    (own : authParams.contains (toAsciiLowercase name) = false) :
    parseQuery (some (name ++ "=" ++ urlEncode value)) = [(name, value)] := by
  have chars : (name ++ "=" ++ urlEncode value).toList = name.toList ++ '=' :: (urlEncode value).toList := by
    rw [String.toList_append, String.toList_append, List.append_assoc]
    rfl
  have free : '&' ∉ name.toList ++ '=' :: (urlEncode value).toList := by
    intro member
    rcases List.mem_append.mp member with inside | inside
    · exact plain.1 inside
    · rcases List.mem_cons.mp inside with wrong | inside
      · exact absurd wrong (by decide)
      · exact reserved_absent reserved_marks.1 value inside
  have whole : split '&' (name ++ "=" ++ urlEncode value) = [name ++ "=" ++ urlEncode value] := by
    unfold split
    rw [chars, splitGo_last '&' _ free, List.reverse_nil, List.nil_append, ← chars, List.map_singleton,
      String.ofList_toList]
  have filled : name ++ "=" ++ urlEncode value ≠ "" := by
    intro empty
    have none' := congrArg String.toList empty
    rw [chars] at none'
    exact absurd none' (by simp)
  have pair : queryPair (name ++ "=" ++ urlEncode value) = (name, value) := by
    unfold queryPair
    rw [chars, splitOnceAt_append plain.2]
    dsimp only
    rw [String.ofList_toList, String.ofList_toList, read, decodeForm_encode]
  unfold parseQuery
  rw [Option.getD_some, whole, List.filter_cons_of_pos (by exact decide_eq_true filled), List.filter_nil,
    List.map_singleton, pair, List.filter_cons_of_pos (by rw [isAuth, own]; rfl), List.filter_nil]

/-- **The query of a URL**: what stands behind the first question mark, up to the fragment. -/
def queryOf (url : String) : Option String :=
  (splitOnceAt '?' (url.toList.takeWhile (· != '#'))).map fun parts => String.ofList parts.2

/-- A URL without a fragment. -/
theorem queryOf_whole {url : String} (whole : '#' ∉ url.toList) :
    queryOf url = (splitOnceAt '?' url.toList).map fun parts => String.ofList parts.2 := by
  have all : url.toList.takeWhile (· != '#') = url.toList := by
    refine List.takeWhile_eq_self_iff.mpr fun char member => bne_iff_ne.mpr fun same => whole ?_
    rw [← same]
    exact member
  rw [queryOf, all]

/-- The parameters that a redirect adds. -/
def addedQuery (bucket key etag : String) : String :=
  "bucket=" ++ urlEncode bucket ++ "&key=" ++ urlEncode key ++ "&etag=" ++ urlEncode etag

theorem redirectTarget_eq (url bucket key etag : String) : redirectTarget url bucket key etag =
    url ++ (if '?' ∈ url.toList then "&" else "?") ++ addedQuery bucket key etag := by
  unfold redirectTarget addedQuery
  refine String.toList_injective ?_
  simp only [String.toList_append, List.append_assoc]

theorem parseQuery_added (bucket key etag : String) :
    parseQuery (some (addedQuery bucket key etag)) = [("bucket", bucket), ("key", key), ("etag", etag)] := by
  have one := @parseQuery_pair "bucket" bucket (by decide) (by decide) (by decide)
  have two := @parseQuery_pair "key" key (by decide) (by decide) (by decide)
  have last := @parseQuery_pair "etag" etag (by decide) (by decide) (by decide)
  have shape : addedQuery bucket key etag = "bucket" ++ "=" ++ urlEncode bucket ++ "&" ++
      ("key" ++ "=" ++ urlEncode key ++ "&" ++ ("etag" ++ "=" ++ urlEncode etag)) := by
    refine String.toList_injective ?_
    unfold addedQuery
    simp only [String.toList_append, List.append_assoc]
    rfl
  rw [shape, parseQuery_append, parseQuery_append, one, two, last]
  rfl

/-- What a redirect adds is visible, and begins no fragment. -/
theorem added_visible (bucket key etag : String) : ∀ char ∈ (addedQuery bucket key etag).toList,
    headerChar char = true ∧ char ≠ '#' := by
  have encoded : ∀ text : String, ∀ char ∈ (urlEncode text).toList, headerChar char = true ∧ char ≠ '#' := by
    intro text char member
    constructor
    · by_contra hidden
      exact reserved_absent (reserved_hidden (Bool.not_eq_true _ ▸ hidden)) text member
    · rintro rfl
      exact reserved_absent reserved_hash text member
  intro char member
  unfold addedQuery at member
  simp only [String.toList_append, List.mem_append] at member
  have named : ∀ name ∈ ["bucket=", "&key=", "&etag="], char ∈ name.toList →
      headerChar char = true ∧ char ≠ '#' := by
    intro name listed inside
    have all : ∀ name ∈ ["bucket=", "&key=", "&etag="],
        name.toList.all fun char => headerChar char && char != '#' := by decide
    simpa using List.all_eq_true.mp (all name listed) char inside
  rcases member with ((((inName | inBucket) | inName) | inKey) | inName) | inEtag
  · exact named _ (by decide) inName
  · exact encoded _ char inBucket
  · exact named _ (by decide) inName
  · exact encoded _ char inKey
  · exact named _ (by decide) inName
  · exact encoded _ char inEtag

/-- **A redirect names the object that was stored**: for a URL of visible characters without a fragment
there is a location, whatever the query of the URL says is still said, and behind it stand the bucket,
the key and the etag. -/
theorem redirect_read {url : String} (shown : url.toList.all headerChar = true) (whole : '#' ∉ url.toList)
    (bucket key etag : String) :
    ∃ location, locationHeader (redirectTarget url bucket key etag) = some location ∧
      parseQuery (queryOf location) =
        parseQuery (queryOf url) ++ [("bucket", bucket), ("key", key), ("etag", etag)] := by
  have added := added_visible bucket key etag
  have chars : (redirectTarget url bucket key etag).toList =
      url.toList ++ ((if '?' ∈ url.toList then '&' else '?') :: (addedQuery bucket key etag).toList) := by
    rw [redirectTarget_eq, String.toList_append, String.toList_append, List.append_assoc]
    split
    · rfl
    · rfl
  have all : (redirectTarget url bucket key etag).toList.all headerChar = true := by
    rw [chars, List.all_append, shown, List.all_cons, Bool.true_and]
    refine Bool.and_eq_true_iff.mpr ⟨?_, List.all_eq_true.mpr fun char member => (added char member).1⟩
    split
    · decide
    · decide
  have unended : '#' ∉ (redirectTarget url bucket key etag).toList := by
    rw [chars]
    intro member
    rcases List.mem_append.mp member with inUrl | inRest
    · exact whole inUrl
    · rcases List.mem_cons.mp inRest with separator | inAdded
      · split at separator
        · exact absurd separator (by decide)
        · exact absurd separator (by decide)
      · exact (added '#' inAdded).2 rfl
  refine ⟨redirectTarget url bucket key etag, if_pos all, ?_⟩
  rw [queryOf_whole unended, queryOf_whole whole, chars]
  by_cases asked : '?' ∈ url.toList
  · obtain ⟨before, after, shape, free⟩ := List.eq_append_cons_of_mem asked
    rw [if_pos asked, shape, List.append_assoc, List.cons_append, splitOnceAt_append free,
      splitOnceAt_append free, Option.map_some, Option.map_some]
    have joined : String.ofList (after ++ '&' :: (addedQuery bucket key etag).toList) =
        String.ofList after ++ "&" ++ addedQuery bucket key etag := by
      refine String.toList_injective ?_
      simp only [String.toList_append, String.toList_ofList, List.append_assoc]
      rfl
    rw [joined, parseQuery_append, parseQuery_added]
  · have none : splitOnceAt '?' url.toList = none := by
      rw [splitOnceAt, if_neg asked]
    rw [if_neg asked, splitOnceAt_append asked, none, Option.map_some, String.ofList_toList,
      parseQuery_added]
    rfl

/-- A form whose URL has a query, and a key with blanks, a slash and an ampersand. -/
theorem redirect_read_sample :
    ∃ location, locationHeader (redirectTarget "https://a/done?x=1" "photos" "my cats/ü&#" "\"e\"") =
        some location ∧
      parseQuery (queryOf location) =
        [("x", "1"), ("bucket", "photos"), ("key", "my cats/ü&#"), ("etag", "\"e\"")] := by
  have own : parseQuery (queryOf "https://a/done?x=1") = [("x", "1")] := by decide
  obtain ⟨location, sent, query⟩ := @redirect_read "https://a/done?x=1" (by decide)
    (by decide) "photos" "my cats/ü&#" "\"e\""
  exact ⟨location, sent, query.trans (congrArg (· ++ _) own)⟩

/-! ### Copy sources -/

/-- How a client names an object: any number of slashes, and the version behind a question mark. -/
def copySource (slashes : Nat) (bucket key : String) (vid : Option String) : String :=
  String.ofList (List.replicate slashes '/') ++ urlEncode bucket ++ "/" ++ urlEncode key ++
    vid.elim "" fun v => "?versionId=" ++ urlEncode v

theorem urlEncode_append (first second : String) : urlEncode (first ++ second) = urlEncode first ++ urlEncode second := by
  refine String.toList_injective ?_
  unfold urlEncode percentEncode
  simp only [String.toList_append, String.toList_ofList, List.flatMap_append]

theorem urlEncode_slashes (count : Nat) :
    urlEncode (String.ofList (List.replicate count '/')) = String.ofList (List.replicate count '/') := by
  have slash : escapeChar keySet '/' = ['/'] := by decide
  refine congrArg String.ofList ?_
  rw [String.toList_ofList]
  induction count with
  | zero => rfl
  | succ count ih => rw [List.replicate_succ, List.flatMap_cons, ih, slash, List.singleton_append]

/-- A copy source is the encoding of its path, and a version behind it. -/
theorem copySource_path (slashes : Nat) (bucket key : String) (vid : Option String) :
    copySource slashes bucket key vid =
      urlEncode (String.ofList (List.replicate slashes '/') ++ bucket ++ "/" ++ key) ++
        vid.elim "" fun v => "?versionId=" ++ urlEncode v := by
  have slash : urlEncode "/" = "/" := by decide
  unfold copySource
  rw [urlEncode_append, urlEncode_append, urlEncode_append, slash, urlEncode_slashes]

/-- The object of a path. -/
theorem path_cut (slashes : Nat) {bucket : List Char} (key : List Char) (some' : bucket ≠ [])
    (free : '/' ∉ bucket) : splitOnceAt '/' ((List.replicate slashes '/' ++ bucket ++ '/' :: key).dropWhile
      (· == '/')) = some (bucket, key) := by
  have slash : ∀ char ∈ List.replicate slashes '/', (char == '/') = true := fun char member => by
    rw [List.eq_of_mem_replicate member]
    rfl
  obtain ⟨first, rest, rfl⟩ := List.exists_cons_of_ne_nil some'
  have stops : (first == '/') = false :=
    beq_eq_false_iff_ne.mpr fun same => free (same ▸ List.mem_cons_self)
  rw [List.append_assoc, List.dropWhile_append_of_pos slash, List.cons_append,
    List.dropWhile_cons_of_neg (by rw [stops]; exact Bool.false_ne_true), ← List.cons_append,
    splitOnceAt_append free]

theorem splitVersion_encoded (path : String) (vid : Option String) :
    pathAndVersion (urlEncode path ++ vid.elim "" fun v => "?versionId=" ++ urlEncode v) =
      (urlEncode path, vid) := by
  unfold pathAndVersion
  have free : '?' ∉ (urlEncode path).toList := reserved_absent reserved_marks.2.2.2 path
  have mark : "?versionId=".toList = '?' :: "versionId=".toList := rfl
  cases vid with
  | none =>
    have away : splitVersion (urlEncode path ++ "") = none := by
      unfold splitVersion
      rw [String.append_empty, findSub_none.mpr, Option.map_none]
      exact fun inside => free (inside.subset (mark ▸ List.mem_cons_self))
    rw [Option.elim_none, away, String.append_empty]
    dsimp only
    unfold beforeFirst
    rw [List.takeWhile_eq_self_iff.mpr, String.ofList_toList]
    exact fun char member => bne_iff_ne.mpr fun same => free (same ▸ member)
  | some v =>
    have once : '?' ∉ "versionId=".toList := by decide
    have found := findSub_marker free once (urlEncode v).toList
    have chars : (urlEncode path ++ ("?versionId=" ++ urlEncode v)).toList =
        (urlEncode path).toList ++ ('?' :: "versionId=".toList ++ (urlEncode v).toList) := by
      rw [String.toList_append, String.toList_append]
      rfl
    have cut : splitVersion (urlEncode path ++ ("?versionId=" ++ urlEncode v)) =
        some (urlEncode path, urlEncode v) := by
      unfold splitVersion
      rw [chars, mark, found, Option.map_some, List.take_left, ← List.drop_drop, List.drop_left, List.drop_left,
        String.ofList_toList, String.ofList_toList]
    rw [Option.elim_some, cut]
    dsimp only
    rw [urlDecode_encode]

/-- **The copy sources of an object.** However many slashes stand in front, the bucket, the key and the
version are read; and whatever is taken for a copy source names an object that can be named so. -/
theorem copy_source_read :
    (∀ slashes bucket key vid, bucket ≠ "" → '/' ∉ bucket.toList → key ≠ "" →
      parseCopySource (copySource slashes bucket key vid) = .ok (bucket, key, vid)) ∧
    ∀ src bucket key vid, parseCopySource src = .ok (bucket, key, vid) →
      bucket ≠ "" ∧ '/' ∉ bucket.toList ∧ key ≠ "" ∧
        ∀ slashes, parseCopySource (copySource slashes bucket key vid) = .ok (bucket, key, vid) := by
  have filled : ∀ {text : String}, text ≠ "" → text.toList ≠ [] := fun some' none' =>
    some' (String.toList_injective none')
  have named : ∀ slashes bucket key vid, bucket ≠ "" → '/' ∉ bucket.toList → key ≠ "" →
      parseCopySource (copySource slashes bucket key vid) = .ok (bucket, key, vid) := by
    intro slashes bucket key vid hasBucket free hasKey
    have chars : (String.ofList (List.replicate slashes '/') ++ bucket ++ "/" ++ key).toList =
        List.replicate slashes '/' ++ bucket.toList ++ '/' :: key.toList := by
      simp only [String.toList_append, String.toList_ofList, List.append_assoc]
      rfl
    unfold parseCopySource
    rw [copySource_path, splitVersion_encoded]
    dsimp only
    rw [urlDecode_encode, chars, path_cut slashes key.toList (filled hasBucket) free]
    dsimp only
    rw [if_pos ⟨filled hasBucket, filled hasKey⟩, String.ofList_toList, String.ofList_toList]
  refine ⟨named, fun src bucket key vid read => ?_⟩
  have shape : bucket ≠ "" ∧ '/' ∉ bucket.toList ∧ key ≠ "" := by
    unfold parseCopySource at read
    generalize pathAndVersion src = parts at read
    dsimp only at read
    split at read
    · rename_i b k cut
      split at read
      · rename_i both
        obtain ⟨rfl, rfl, rfl⟩ : String.ofList b = bucket ∧ String.ofList k = key ∧ parts.2 = vid := by
          have same := Except.ok.inj read
          exact ⟨congrArg Prod.fst same, congrArg (fun parts => parts.2.1) same,
            congrArg (fun parts => parts.2.2) same⟩
        refine ⟨fun empty => both.1 ?_, ?_, fun empty => both.2 ?_⟩
        · have chars := congrArg String.toList empty
          rwa [String.toList_ofList] at chars
        · rw [String.toList_ofList]
          exact (splitOnceAt_spec cut).2
        · have chars := congrArg String.toList empty
          rwa [String.toList_ofList] at chars
      · cases read
    · cases read
  exact ⟨shape.1, shape.2.1, shape.2.2, fun slashes => named slashes bucket key vid shape.1 shape.2.1 shape.2.2⟩

theorem copy_source_read_sample : parseCopySource "/photos/a%20b%3F/c?versionId=v%2B1" =
    .ok ("photos", "a b?/c", some "v+1") := by
  have read := copy_source_read.1 1 "photos" "a b?/c" (some "v+1") (by decide) (by decide) (by decide)
  have written : copySource 1 "photos" "a b?/c" (some "v+1") = "/photos/a%20b%3F/c?versionId=v%2B1" := by
    decide
  rwa [written] at read

end CloudTwin.S3
