/-
**Generated answers.**

Texts and values are picked from fixed tables by a hash of the model, a path and the number of the
request.

* `generateText` — a text of so many words; `generateText_words` — their number is between the bounds
  of the configuration, when no subtraction or addition leaves the range of a `usize`.
* `generateFromSchema` — a value of a schema.
-/

import Mathlib.Data.List.Sort
import Mathlib.Data.String.Basic
import CloudTwin.Bedrock.Config
import CloudTwin.Lib.Words

namespace CloudTwin.Bedrock

open Lib.Text Lib.Words

def LIPSUM : List String :=
  ["lorem", "ipsum", "dolor", "sit", "amet", "consectetur", "adipiscing", "elit", "sed", "do", "eiusmod",
    "tempor", "incididunt", "ut", "labore", "et", "dolore", "magna", "aliqua", "enim", "ad", "minim",
    "veniam", "quis", "nostrud", "exercitation", "ullamco", "laboris", "nisi", "aliquip", "ex", "ea",
    "commodo", "consequat"]

def FLOATS : List String :=
  ["0.42", "0.73", "0.17", "0.85", "0.61", "0.33", "0.94", "0.28", "0.55", "0.79"]

def INTEGERS : List Int :=
  [1, 7, 42, 13, 99, 5, 28, 64, 3, 17]

/-- FNV-1a. -/
def computeSeed (modelId fieldPath : String) (requestCount : Nat) : UInt64 :=
  let input := modelId ++ ":" ++ fieldPath ++ ":" ++ toString requestCount
  (utf8 input).foldl (fun hash byte => (hash ^^^ byte.toUInt64) * 1099511628211) 14695981039346656037

/-- An element of a list; `fallback` stands for the panic at an empty one. -/
def pick {α : Type} (fallback : α) (slice : List α) (seed : UInt64) : α :=
  slice.getD (seed.toNat % slice.length) fallback

/-- A `usize`, `none` where the arithmetic that makes it overflows. -/
def checked (value : Nat) : Option Nat :=
  if value < 2 ^ 64 then some value else none

/-- The bounds of a text, `cfg.map_or(..)`. -/
def minOf (cfg : Option TextConfig) : Nat := cfg.elim 5 TextConfig.minWords

def maxOf (cfg : Option TextConfig) : Nat := cfg.elim 15 TextConfig.maxWords

def generateText (modelId : String) (requestCount : Nat) (cfg : Option TextConfig) : Option String :=
  let minWords := minOf cfg
  let maxWords := maxOf cfg
  let seed := computeSeed modelId "text" requestCount
  if maxWords < minWords then none
  else do
    let range := max (← checked (maxWords - minWords + 1)) 1
    let wordCount ← checked (minWords + seed.toNat % range)
    some (joinBlank ((List.range wordCount).map fun i =>
      pick "" LIPSUM (computeSeed modelId ("text.word." ++ toString i) requestCount)))

mutual

/-- `generate_from_schema`. The item of an array without `items` is a string. -/
def generateFromSchema (modelId : String) (requestCount : Nat) (path : String) : SchemaNodeConfig → Json
  | .node kind properties items itemsEnum =>
    let seed := computeSeed modelId path requestCount
    match itemsEnum.filter fun values => !values.isEmpty with
    | some values => pick .null values seed
    | none =>
      match kind with
      | "object" =>
        .obj ((generateProperties modelId requestCount path properties).insertionSort
          fun first second => first.1 ≤ second.1)
      | "array" =>
        let len := 1 + (computeSeed modelId (path ++ ".len") requestCount).toNat % 3
        .arr ((List.range len).map fun i =>
          let itemPath := path ++ "[" ++ toString i ++ "]"
          match items with
          | some item => generateFromSchema modelId requestCount itemPath item
          | none => .str (pick "" LIPSUM (computeSeed modelId itemPath requestCount)))
      | "number" => .float (pick "" FLOATS seed)
      | "integer" => .num (pick 0 INTEGERS seed)
      | "boolean" => .bool (seed.toNat % 2 == 0)
      | _ => .str (pick "" LIPSUM seed)

def generateProperties (modelId : String) (requestCount : Nat) (path : String) :
    List (String × SchemaNodeConfig) → List (String × Json)
  | [] => []
  | (key, child) :: rest =>
    let childPath := if path = "" then key else path ++ "." ++ key
    (key, generateFromSchema modelId requestCount childPath child) ::
      generateProperties modelId requestCount path rest

end

theorem LIPSUM_words : ∀ word ∈ LIPSUM, Word word := by
  have plain : (LIPSUM.all fun word => word != "" && word.toList.all fun char => !isWhitespace char) =
      true := by decide
  intro word member
  have here := List.all_eq_true.mp plain word member
  rw [Bool.and_eq_true, bne_iff_ne, List.all_eq_true] at here
  exact ⟨here.1, fun char among => by simpa using here.2 char among⟩

theorem pick_mem {α : Type} {fallback : α} {slice : List α} (filled : slice ≠ []) (seed : UInt64) :
    pick fallback slice seed ∈ slice := by
  have inside : seed.toNat % slice.length < slice.length :=
    Nat.mod_lt _ (List.length_pos_iff.mpr filled)
  unfold pick
  rw [List.getD_eq_getElem _ _ inside]
  exact List.getElem_mem inside

/-- Bounds with which the number of words can be computed in a `usize`. -/
def Bounded (cfg : Option TextConfig) : Prop :=
  minOf cfg ≤ maxOf cfg ∧ maxOf cfg < 2 ^ 64 ∧ maxOf cfg - minOf cfg + 1 < 2 ^ 64

/-- **A generated text has a number of words between the bounds.** -/
theorem generateText_words (modelId : String) (requestCount : Nat) {cfg : Option TextConfig}
    (bounded : Bounded cfg) : ∃ text, generateText modelId requestCount cfg = some text ∧
      minOf cfg ≤ (splitWhitespace text).length ∧ (splitWhitespace text).length ≤ maxOf cfg := by
  obtain ⟨ordered, small, range⟩ := bounded
  have least : max (maxOf cfg - minOf cfg + 1) 1 = maxOf cfg - minOf cfg + 1 := max_eq_left (by omega)
  generalize counted : minOf cfg +
    (computeSeed modelId "text" requestCount).toNat % (maxOf cfg - minOf cfg + 1) = wordCount
  have within : minOf cfg ≤ wordCount ∧ wordCount ≤ maxOf cfg := by
    have less : (computeSeed modelId "text" requestCount).toNat % (maxOf cfg - minOf cfg + 1) <
        maxOf cfg - minOf cfg + 1 := Nat.mod_lt _ (Nat.succ_pos _)
    omega
  have words : ∀ word ∈ (List.range wordCount).map fun i =>
      pick "" LIPSUM (computeSeed modelId ("text.word." ++ toString i) requestCount), Word word := by
    intro word member
    obtain ⟨i, -, rfl⟩ := List.mem_map.mp member
    exact LIPSUM_words _ (pick_mem (List.cons_ne_nil _ _) _)
  refine ⟨joinBlank ((List.range wordCount).map fun i =>
    pick "" LIPSUM (computeSeed modelId ("text.word." ++ toString i) requestCount)), ?_, ?_⟩
  · simp only [generateText, checked]
    rw [if_neg (by omega), if_pos range, Option.bind_eq_bind, Option.bind_some, least, counted,
      if_pos (by omega)]
    rfl
  · rw [splitWhitespace_joinBlank words, List.length_map, List.length_range]
    exact within

end CloudTwin.Bedrock
