/-
**The matcher of cross-origin rules** (`aws/s3/cors.rs`).

The rules of a bucket name origins and headers by patterns. The matcher here and the one of the SNS
filter policies are written apart; both split the pattern at its stars and commit to the first place
where a part occurs.

* `wildcardMatch` — the matcher of the origins and headers of a rule.
* `wildcardMatch_obtained`, `wildcard_obtained` — each matcher decides the glob language.
* `matchers_decide_glob` — they are the same matcher.
-/

import CloudTwin.Lib.Glob
import CloudTwin.Sns.Filter

namespace CloudTwin.S3

open Lib Lib.Text

/-- The parts of `wildcard_match` after the first. -/
def wildcardMatchGo : List String → String → Bool
  | [], _ => true
  | [last], rest => last.utf8ByteSize ≤ rest.utf8ByteSize && endsWith rest last
  | part :: parts, rest =>
    match findSub part.toList rest.toList with
    | some index => wildcardMatchGo parts (String.ofList (rest.toList.drop (index + part.length)))
    | none => false

/-- Match `value` against a pattern with at most a few `*` wildcards. -/
def wildcardMatch (pattern value : String) (caseInsensitive : Bool) : Bool :=
  let pattern := if caseInsensitive then toAsciiLowercase pattern else pattern
  let value := if caseInsensitive then toAsciiLowercase value else value
  match split '*' pattern with
  | [] => true
  | [_] => pattern == value
  | first :: parts =>
    startsWith value first &&
      wildcardMatchGo parts (String.ofList (value.toList.drop first.length))

/-- `CorsRule`. -/
structure CorsRule where
  id : Option String
  allowedOrigins : List String
  allowedMethods : List String
  allowedHeaders : List String
  exposeHeaders : List String
  maxAge : Option Int
  deriving DecidableEq

/-! ### The matchers and the glob language -/

/-- The length check of the last part decides nothing. -/
theorem wildcardMatchGo_search :
    ∀ (parts : List String) (rest : String),
      wildcardMatchGo parts rest = search (parts.map String.toList) rest.toList := by
  intro parts
  induction parts with
  | nil => exact fun _ => rfl
  | cons part parts ih =>
    intro rest
    cases parts with
    | nil =>
      show (decide _ && part.toList.isSuffixOf rest.toList) = part.toList.isSuffixOf rest.toList
      cases ends : part.toList.isSuffixOf rest.toList with
      | false => rw [Bool.and_false]
      | true =>
        obtain ⟨before, whole⟩ := List.isSuffixOf_iff_suffix.mp ends
        have joined : String.ofList before ++ part = rest := by
          rw [← String.toList_inj, String.toList_append, String.toList_ofList, whole]
        rw [Bool.and_true, decide_eq_true_eq, ← joined, String.utf8ByteSize_append]
        exact Nat.le_add_left _ _
    | cons next parts =>
      unfold wildcardMatchGo
      show _ = match findSub part.toList rest.toList with
        | some index => search ((next :: parts).map String.toList)
            (rest.toList.drop (index + part.toList.length))
        | none => false
      cases findSub part.toList rest.toList with
      | none => rfl
      | some index =>
        show wildcardMatchGo _ _ = _
        rw [ih, String.toList_ofList, String.length_toList]

theorem wildcardGo_search :
    ∀ (parts : List String) (rest : List Char),
      Sns.wildcardGo parts rest = search (parts.map String.toList) rest := by
  intro parts
  induction parts with
  | nil => exact fun _ => rfl
  | cons part parts ih =>
    intro rest
    cases parts with
    | nil => rfl
    | cons next parts =>
      unfold Sns.wildcardGo
      show _ = match findSub part.toList rest with
        | some index => search ((next :: parts).map String.toList)
            (rest.drop (index + part.toList.length))
        | none => false
      cases findSub part.toList rest with
      | none => rfl
      | some index => exact ih _

theorem split_toList (char : Char) (text : String) :
    (split char text).map String.toList = splitGo char [] text.toList := by
  unfold split
  rw [List.map_map]
  exact (List.map_congr_left fun part _ => String.toList_ofList).trans (List.map_id _)

/-- The parts of a pattern decide like the pattern. -/
theorem split_obtained (pattern text : String) :
    Joined ((split '*' pattern).map String.toList) text.toList ↔
      Obtained '*' pattern.toList text.toList := by
  rw [split_toList, joined_split]

theorem split_single {pattern only : String} (single : split '*' pattern = [only]) :
    pattern = only := by
  have parts := split_toList '*' pattern
  rw [single] at parts
  exact (String.toList_inj.mp (splitGo_single '*' pattern.toList parts.symm)).symm

/-- **The matcher of the filter policies decides the glob language.** -/
theorem wildcard_obtained (pattern text : String) :
    Sns.wildcard pattern text = true ↔ Obtained '*' pattern.toList text.toList := by
  rw [← split_obtained]
  unfold Sns.wildcard
  split
  · rename_i none
    exact absurd (split_toList '*' pattern ▸ none ▸ rfl) (splitGo_ne_nil '*' pattern.toList [])
  · rename_i only single
    rw [single, split_single single, beq_iff_eq]
    show only = text ↔ text.toList = only.toList
    rw [String.toList_inj, eq_comm]
  · rename_i first parts single several
    have more : parts.map String.toList ≠ [] := fun none => single (List.map_eq_nil_iff.mp none)
    rw [several, wildcardGo_search]
    exact search_joined more

/-- **The matcher of the rules decides the glob language**, of lower-cased texts where it ignores
case. -/
theorem wildcardMatch_obtained (pattern value : String) :
    wildcardMatch pattern value false = true ↔ Obtained '*' pattern.toList value.toList := by
  rw [← split_obtained]
  show (match split '*' pattern with
    | [] => true
    | [_] => pattern == value
    | first :: parts => startsWith value first &&
        wildcardMatchGo parts (String.ofList (value.toList.drop first.length))) = true ↔ _
  split
  · rename_i none
    exact absurd (split_toList '*' pattern ▸ none ▸ rfl) (splitGo_ne_nil '*' pattern.toList [])
  · rename_i only single
    rw [single, split_single single, beq_iff_eq]
    show only = value ↔ value.toList = only.toList
    rw [String.toList_inj, eq_comm]
  · rename_i first parts single several
    have more : parts.map String.toList ≠ [] := fun none => single (List.map_eq_nil_iff.mp none)
    rw [several, wildcardMatchGo_search, String.toList_ofList, ← String.length_toList]
    exact search_joined more

theorem wildcardMatch_ignoreCase (pattern value : String) :
    wildcardMatch pattern value true =
      wildcardMatch (toAsciiLowercase pattern) (toAsciiLowercase value) false :=
  rfl

/-- **Both matchers decide the glob language.** They give the same answer, true exactly when replacing
each star of the pattern by some text gives the value; ignoring case is the same of the lower-cased
texts. -/
theorem matchers_decide_glob (pattern value : String) :
    (Sns.wildcard pattern value = wildcardMatch pattern value false ∧
      (Sns.wildcard pattern value = true ↔ Obtained '*' pattern.toList value.toList)) ∧
    (Sns.wildcard (toAsciiLowercase pattern) (toAsciiLowercase value) =
        wildcardMatch pattern value true ∧
      (wildcardMatch pattern value true = true ↔
        Obtained '*' (toAsciiLowercase pattern).toList (toAsciiLowercase value).toList)) := by
  have agree : ∀ pattern value : String,
      Sns.wildcard pattern value = wildcardMatch pattern value false := fun pattern value =>
    Bool.eq_iff_iff.mpr ((wildcard_obtained pattern value).trans
      (wildcardMatch_obtained pattern value).symm)
  refine ⟨⟨agree pattern value, wildcard_obtained pattern value⟩, ?_, ?_⟩
  · rw [wildcardMatch_ignoreCase]
    exact agree _ _
  · rw [wildcardMatch_ignoreCase]
    exact wildcardMatch_obtained _ _

end CloudTwin.S3
