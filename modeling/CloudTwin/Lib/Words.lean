/-
**Words between spaces.**

* `trimBy`, `trimChars` — trimming, on characters; `trimBy_solid`, `trimBy_spec`.
* `findSub_first` — a text is found at the first place where it stands.
* `Word`, `splitWhitespace_joinBlank` — words with blanks between them are split again.
* `NoWord` — a word that does not stand between two spaces, and how that is seen piece by piece.
-/

import CloudTwin.Lib.Delimiter
import CloudTwin.Lib.Utf8

namespace CloudTwin.Lib.Words

open Lib.Text (isWhitespace splitWhitespace joinBlank)

/-! ### Blanks -/

/-- `trim_matches` of the characters with a property. -/
def trimBy (p : Char → Bool) (chars : List Char) : List Char :=
  ((chars.dropWhile p).reverse.dropWhile p).reverse

/-- `str::trim`. -/
def trimChars (chars : List Char) : List Char :=
  trimBy isWhitespace chars

def Blank (chars : List Char) : Prop := ∀ char ∈ chars, isWhitespace char = true

/-- A text that neither begins nor ends with such a character. -/
def SolidBy (p : Char → Bool) (chars : List Char) : Prop :=
  (∀ char, chars.head? = some char → p char = false) ∧
    ∀ char, chars.getLast? = some char → p char = false

/-- A text that neither begins nor ends with a blank. -/
abbrev Solid (chars : List Char) : Prop := SolidBy isWhitespace chars

theorem Blank.append {first second : List Char} (one : Blank first) (two : Blank second) :
    Blank (first ++ second) := fun char member =>
  (List.mem_append.mp member).elim (one char) (two char)

theorem Blank.nil : Blank [] := fun _ wrong => absurd wrong List.not_mem_nil

theorem Blank.space : Blank [' '] := fun _ member => List.mem_singleton.mp member ▸ (by decide)

/-- A text without blanks. -/
def Word (text : String) : Prop :=
  text ≠ "" ∧ ∀ char ∈ text.toList, isWhitespace char = false

/-- **Words with blanks between them are split again.** -/
theorem splitWhitespace_joinBlank {words : List String} (plain : ∀ word ∈ words, Word word) :
    splitWhitespace (joinBlank words) = words := by
  have parts : ∀ {words : List String}, (∀ word ∈ words, Word word) →
      (((List.intercalate [' '] (words.map String.toList)).splitOnP isWhitespace).filter
        fun part => !part.isEmpty) = words.map String.toList := by
    intro words plain
    induction words with
    | nil => rfl
    | cons word rest ih =>
      have here := plain word List.mem_cons_self
      have filled : (!word.toList.isEmpty) = true := by
        rw [Bool.not_eq_true', List.isEmpty_eq_false_iff]
        exact fun empty => here.1 (String.toList_eq_nil_iff.mp empty)
      have later := ih fun other member => plain other (List.mem_cons_of_mem _ member)
      cases rest with
      | nil =>
        rw [List.map_singleton, List.intercalate_singleton, List.splitOnP_eq_singleton here.2]
        exact List.filter_cons_of_pos filled
      | cons next rest =>
        rw [List.map_cons, List.map_cons, List.intercalate_cons_cons, List.append_assoc,
          List.singleton_append, List.splitOnP_append_cons_of_forall_mem here.2 ' ' (by decide),
          List.filter_cons, if_pos filled]
        rw [List.map_cons] at later
        rw [later]
  unfold splitWhitespace joinBlank
  rw [String.toList_ofList, parts plain, List.map_map]
  calc words.map (String.ofList ∘ String.toList) = words.map id :=
        List.map_congr_left fun word _ => String.ofList_toList
    _ = words := List.map_id words

theorem splitOnP_free {p : Char → Bool} (chars : List Char) :
    ∀ part ∈ chars.splitOnP p, ∀ char ∈ part, p char = false := by
  induction chars with
  | nil =>
    intro part member char inside
    rw [List.splitOnP_nil, List.mem_singleton] at member
    exact absurd (member ▸ inside) List.not_mem_nil
  | cons first rest ih =>
    intro part member char inside
    rw [List.splitOnP_cons_eq_if_modifyHead] at member
    split at member
    · rcases List.mem_cons.mp member with rfl | later
      · exact absurd inside List.not_mem_nil
      · exact ih part later char inside
    · rename_i kept
      cases parts : rest.splitOnP p with
      | nil => exact absurd parts (List.splitOnP_ne_nil p rest)
      | cons head tail =>
        rw [parts] at member ih
        rcases List.mem_cons.mp member with rfl | later
        · rcases List.mem_cons.mp inside with rfl | deeper
          · exact Bool.eq_false_iff.mpr kept
          · exact ih head List.mem_cons_self char deeper
        · exact ih part (List.mem_cons_of_mem _ later) char inside

/-- What a text is split into are words. -/
theorem splitWhitespace_words (text : String) : ∀ word ∈ splitWhitespace text, Word word := by
  intro word member
  obtain ⟨part, kept, rfl⟩ := List.mem_map.mp member
  obtain ⟨split, filled⟩ := List.mem_filter.mp kept
  refine ⟨fun empty => ?_, fun char inside => ?_⟩
  · rw [String.ofList_eq_empty_iff.mp empty] at filled
    cases filled
  · rw [String.toList_ofList] at inside
    exact splitOnP_free text.toList part split char inside

/-- **Words with a blank after each are split again.** -/
theorem splitWhitespace_spaced {words : List String} (plain : ∀ word ∈ words, Word word) :
    splitWhitespace (String.join (words.map fun word => word ++ " ")) = words := by
  have parts : ∀ {words : List String}, (∀ word ∈ words, Word word) →
      (((String.join (words.map fun word => word ++ " ")).toList.splitOnP isWhitespace).filter
        fun part => !part.isEmpty) = words.map String.toList := by
    intro words plain
    induction words with
    | nil => rfl
    | cons word rest ih =>
      have here := plain word List.mem_cons_self
      have filled : (!word.toList.isEmpty) = true := by
        rw [Bool.not_eq_true', List.isEmpty_eq_false_iff]
        exact fun empty => here.1 (String.toList_eq_nil_iff.mp empty)
      have text : (String.join ((word :: rest).map fun word => word ++ " ")).toList =
          word.toList ++ ' ' :: (String.join (rest.map fun word => word ++ " ")).toList := by
        rw [List.map_cons, String.join_cons, String.toList_append, String.toList_append,
          List.append_assoc]
        rfl
      rw [text, List.splitOnP_append_cons_of_forall_mem here.2 ' ' (by decide), List.filter_cons,
        if_pos filled, ih fun other member => plain other (List.mem_cons_of_mem _ member)]
      rfl
  unfold splitWhitespace
  rw [parts plain, List.map_map]
  calc words.map (String.ofList ∘ String.toList) = words.map id :=
        List.map_congr_left fun word _ => String.ofList_toList
    _ = words := List.map_id words

section Trim

variable {p : Char → Bool}

theorem dropWhile_solid {chars : List Char}
    (solid : ∀ char, chars.head? = some char → p char = false) : chars.dropWhile p = chars := by
  cases chars with
  | nil => rfl
  | cons first rest =>
    rw [List.dropWhile_cons_of_neg]
    rw [solid first rfl]
    exact Bool.false_ne_true

/-- A text with nothing to trim is not changed. -/
theorem trimBy_whole {chars : List Char} (solid : SolidBy p chars) : trimBy p chars = chars := by
  have last : ∀ char, chars.reverse.head? = some char → p char = false := by
    intro char here
    rw [List.head?_reverse] at here
    exact solid.2 char here
  rw [trimBy, dropWhile_solid solid.1, dropWhile_solid last, List.reverse_reverse]

/-- What is to be trimmed around a text is trimmed away. -/
theorem trimBy_around {before after : List Char} (one : ∀ char ∈ before, p char = true)
    (two : ∀ char ∈ after, p char = true) (chars : List Char) :
    trimBy p (before ++ (chars ++ after)) = trimBy p chars := by
  have none : after.dropWhile p = [] := by
    rw [List.dropWhile_eq_nil_iff]
    exact two
  rw [trimBy, List.dropWhile_append_of_pos one, List.dropWhile_append]
  split
  · rename_i empty
    rw [none, trimBy, List.isEmpty_iff.mp empty]
  · rw [List.reverse_append, List.dropWhile_append_of_pos fun char member =>
      two char (List.mem_reverse.mp member), trimBy]

/-- A text is what is left of it between what is trimmed away. -/
theorem trimBy_spec (chars : List Char) : ∃ before after, (∀ char ∈ before, p char = true) ∧
    (∀ char ∈ after, p char = true) ∧ chars = before ++ (trimBy p chars ++ after) := by
  refine ⟨chars.takeWhile p, ((chars.dropWhile p).reverse.takeWhile p).reverse,
    fun char member => List.mem_takeWhile_imp member, fun char member =>
      List.mem_takeWhile_imp (List.mem_reverse.mp member), ?_⟩
  rw [trimBy, ← List.reverse_append, List.takeWhile_append_dropWhile, List.reverse_reverse,
    List.takeWhile_append_dropWhile]

/-- A text that is solid after its surroundings are trimmed. -/
theorem trimBy_solid {before chars after : List Char} (one : ∀ char ∈ before, p char = true)
    (two : ∀ char ∈ after, p char = true) (solid : SolidBy p chars) :
    trimBy p (before ++ (chars ++ after)) = chars := by
  rw [trimBy_around one two, trimBy_whole solid]

/-- A solid text begins with nothing to trim. -/
theorem solid_start {before rest : List Char} (one : ∀ char ∈ before, p char = true)
    (solid : SolidBy p (before ++ rest)) : before = [] := by
  cases before with
  | nil => rfl
  | cons first before =>
    have trimmed := one first List.mem_cons_self
    rw [solid.1 first rfl] at trimmed
    cases trimmed

theorem trimBy_isSolid (chars : List Char) : SolidBy p (trimBy p chars) := by
  have front : ∀ (chars : List Char) (char : Char), (chars.dropWhile p).head? = some char →
      p char = false := by
    intro chars char here
    have head := List.head?_dropWhile_not p chars
    rw [here] at head
    exact head
  unfold trimBy
  constructor
  · intro char here
    have inside : ((chars.dropWhile p).reverse.dropWhile p).reverse <+: chars.dropWhile p := by
      rw [← List.reverse_suffix, List.reverse_reverse]
      exact List.dropWhile_suffix _
    obtain ⟨rest, same⟩ := inside
    refine front chars char ?_
    rw [← same, List.head?_append, here]
    rfl
  · intro char here
    rw [List.getLast?_reverse] at here
    exact front _ char here

end Trim

/-! ### Searches -/

variable {α : Type} [DecidableEq α]

/-- **A text is found at the first place where it stands.** -/
theorem findSub_first {part before : List α} (some' : part ≠ [])
    (away : ¬ part <:+: before ++ part.dropLast) (after : List α) :
    findSub part (before ++ (part ++ after)) = some before.length := by
  obtain ⟨index, found, early⟩ := @findSub_least α _ part after before
  rw [found]
  refine congrArg some (le_antisymm early (Nat.le_of_not_lt fun less => away ?_))
  have split := findSub_split found
  have lengths : part.dropLast.length = part.length - 1 := List.length_dropLast
  have positive := List.length_pos_iff.mpr some'
  have taken : (before ++ (part ++ after)).take index ++ part <+: before ++ (part ++ after) := by
    refine ⟨(before ++ (part ++ after)).drop (index + part.length), ?_⟩
    rw [List.append_assoc, ← split]
  have given : before ++ part.dropLast <+: before ++ (part ++ after) := by
    rw [List.prefix_append_right_inj]
    exact (List.dropLast_prefix part).trans (List.prefix_append part after)
  have inside : (before ++ (part ++ after)).take index ++ part <+: before ++ part.dropLast := by
    refine List.prefix_of_prefix_length_le taken given ?_
    rw [List.length_append, List.length_append, List.length_take]
    omega
  obtain ⟨rest, whole⟩ := inside
  exact ⟨_, rest, whole⟩

/-- What stands before the place where a text is found does not hold the text. -/
theorem findSub_before {part text : List α} {index : Nat} (some' : part ≠ [])
    (found : findSub part text = some index) : ¬part <:+: text.take index := by
  rintro ⟨before, after, same⟩
  have whole : text = before ++ (part ++ (after ++ text.drop index)) := by
    calc text = text.take index ++ text.drop index := (List.take_append_drop index text).symm
      _ = before ++ (part ++ (after ++ text.drop index)) := by
        rw [← same]
        simp only [List.append_assoc]
  obtain ⟨least, first, early⟩ := @findSub_least α _ part (after ++ text.drop index) before
  rw [← whole, found] at first
  obtain rfl := Option.some.inj first
  have long := findSub_length found
  have size := congrArg List.length same
  have filled := List.length_pos_iff.mpr some'
  rw [List.length_append, List.length_append, List.length_take] at size
  omega

/-! ### Words -/

/-- A word between two spaces. -/
def gap (word : List Char) : List Char := ' ' :: (word ++ [' '])

/-- The word does not stand between two spaces. -/
def NoWord (word text : List Char) : Prop := ¬ gap word <:+: text

theorem dropLast_gap (word : List Char) : (gap word).dropLast = ' ' :: word := by
  have shape : gap word = (' ' :: word) ++ [' '] := rfl
  rw [shape, List.dropLast_concat]

/-- A text is taken apart at a character that neither a space nor the word holds. -/
theorem NoWord.break {word before after : List Char} {stop : Char} (absent : stop ∉ gap word)
    (first : NoWord word before) (second : NoWord word after) :
    NoWord word (before ++ stop :: after) := by
  refine findSub_none.mp ?_
  rw [findSub_behind absent (List.cons_ne_nil _ _) first, findSub_none.mpr second]
  rfl

/-- A token at the start stands behind no space. -/
theorem NoWord.token {word token rest : List Char} (solid : ' ' ∉ token) (more : NoWord word rest) :
    NoWord word (token ++ rest) := by
  refine findSub_none.mp ?_
  have skipped := @findSub_skip _ _ ' ' (word ++ [' ']) token solid rest
  have none : findSub (' ' :: (word ++ [' '])) rest = none := findSub_none.mpr more
  rw [none] at skipped
  exact skipped

/-- A word that ends at the same place as a token is the token. -/
theorem token_unique {word token after rest : List Char} (one : ' ' ∉ word) (two : ' ' ∉ token)
    (ends : rest.head?.all fun char => char = ' ')
    (same : word ++ ' ' :: after = token ++ rest) : word = token := by
  induction word generalizing token with
  | nil =>
    cases token with
    | nil => rfl
    | cons first token =>
      exact absurd (List.cons.inj same).1 fun equal => two (equal ▸ List.mem_cons_self)
  | cons first word ih =>
    cases token with
    | nil =>
      cases rest with
      | nil => cases same
      | cons next rest =>
        have isSpace : next = ' ' := by simpa using ends
        have equal : first = next := (List.cons.inj same).1
        exact absurd (equal.trans isSpace) fun wrong => one (wrong ▸ List.mem_cons_self)
    | cons next token =>
      obtain ⟨rfl, tail⟩ := List.cons.inj same
      rw [ih (fun member => one (List.mem_cons_of_mem _ member))
        (fun member => two (List.mem_cons_of_mem _ member)) tail]

/-- **A token that is another word** is passed over, with the spaces before it. -/
theorem NoWord.peel {word blanks token rest : List Char} (plain : ' ' ∉ word)
    (some' : word ≠ []) (spaces : ∀ char ∈ blanks, char = ' ') (solid : ' ' ∉ token)
    (different : word ≠ token) (ends : rest.head?.all fun char => char = ' ') (more : NoWord word rest) :
    NoWord word (blanks ++ (token ++ rest)) := by
  induction blanks with
  | nil =>
    rw [List.nil_append]
    exact NoWord.token solid more
  | cons first blanks ih =>
    have ih := ih fun char member => spaces char (List.mem_cons_of_mem _ member)
    intro inside
    rw [List.cons_append, List.infix_cons_iff] at inside
    rcases inside with starts | later
    · have body := (List.cons_prefix_cons.mp starts).2
      obtain ⟨after, whole⟩ := body
      rw [List.append_assoc, List.singleton_append] at whole
      cases blanks with
      | nil => exact different (token_unique plain solid ends whole)
      | cons second blanks =>
        have isSpace : second = ' ' := spaces second (List.mem_cons_of_mem _ List.mem_cons_self)
        cases word with
        | nil => exact some' rfl
        | cons letter word =>
          have equal : letter = second := (List.cons.inj whole).1
          exact plain ((equal.trans isSpace) ▸ List.mem_cons_self)
    · exact ih later

theorem NoWord.spaces {word blanks : List Char} (plain : ' ' ∉ word) (some' : word ≠ [])
    (spaces : ∀ char ∈ blanks, char = ' ') : NoWord word blanks := by
  rintro ⟨before, after, whole⟩
  cases word with
  | nil => exact some' rfl
  | cons letter word =>
    have member : letter ∈ blanks := by
      rw [← whole]
      simp [gap]
    exact plain (spaces letter member ▸ List.mem_cons_self)

/-- Spaces and the word itself, that ends the text. -/
theorem NoWord.last {word blanks : List Char} (plain : ' ' ∉ word) (some' : word ≠ [])
    (spaces : ∀ char ∈ blanks, char = ' ') : NoWord word (blanks ++ word) := by
  induction blanks with
  | nil =>
    have none : NoWord word [] := NoWord.spaces plain some' fun _ wrong => absurd wrong List.not_mem_nil
    have token := NoWord.token plain none
    rw [List.append_nil] at token
    exact token
  | cons first blanks ih =>
    have ih := ih fun char member => spaces char (List.mem_cons_of_mem _ member)
    intro inside
    rw [List.cons_append, List.infix_cons_iff] at inside
    rcases inside with starts | later
    · have body := (List.cons_prefix_cons.mp starts).2
      cases blanks with
      | nil =>
        have long := body.length_le
        rw [List.length_append, List.length_singleton, List.nil_append] at long
        omega
      | cons second blanks =>
        have isSpace : second = ' ' := spaces second (List.mem_cons_of_mem _ List.mem_cons_self)
        cases word with
        | nil => exact some' rfl
        | cons letter word =>
          have equal : letter = second := (List.cons_prefix_cons.mp body).1
          exact plain ((equal.trans isSpace) ▸ List.mem_cons_self)
    · exact ih later

/-- The word does not stand between two spaces in the text, nor does it if it follows itself. -/
def Free (word text : List Char) : Prop := NoWord word (text ++ ' ' :: word)

theorem Free.noWord {word text : List Char} (free : Free word text) : NoWord word text :=
  fun inside => free (inside.trans (List.prefix_append _ _).isInfix)

theorem Free.break {word before after : List Char} {stop : Char} (absent : stop ∉ gap word)
    (first : Free word before) (second : Free word after) : Free word (before ++ stop :: after) := by
  unfold Free
  rw [List.append_assoc, List.cons_append]
  exact NoWord.break absent first.noWord second

theorem Free.spaces {word blanks : List Char} (plain : ' ' ∉ word) (some' : word ≠ [])
    (spaces : ∀ char ∈ blanks, char = ' ') : Free word blanks := by
  have whole : blanks ++ ' ' :: word = (blanks ++ [' ']) ++ word := by
    rw [List.append_assoc, List.singleton_append]
  rw [Free, whole]
  refine NoWord.last plain some' fun char member => ?_
  rcases List.mem_append.mp member with inside | last
  · exact spaces char inside
  · exact List.mem_singleton.mp last

/-- A token that is another word, with spaces before it and a space or the end after it. -/
theorem Free.peel {word blanks token rest : List Char} (plain : ' ' ∉ word) (some' : word ≠ [])
    (spaces : ∀ char ∈ blanks, char = ' ') (solid : ' ' ∉ token) (different : word ≠ token)
    (ends : rest.head?.all fun char => char = ' ') (more : Free word rest) :
    Free word (blanks ++ (token ++ rest)) := by
  unfold Free
  rw [List.append_assoc, List.append_assoc]
  refine NoWord.peel plain some' spaces solid different ?_ more
  cases rest with
  | nil => rfl
  | cons first rest => exact ends

/-! ### Cuts -/

/-- `text.split_once(char)`. -/
def splitOnceAt (char : Char) (text : List Char) : Option (List Char × List Char) :=
  if char ∈ text then some (text.takeWhile (· != char), (text.dropWhile (· != char)).drop 1)
  else none

/-- `text.rsplit_once(char)`. -/
def rsplitOnceAt (char : Char) (text : List Char) : Option (List Char × List Char) :=
  (splitOnceAt char text.reverse).map fun parts => (parts.2.reverse, parts.1.reverse)

theorem splitOnceAt_append {char : Char} {before : List Char} (absent : char ∉ before)
    (after : List Char) : splitOnceAt char (before ++ char :: after) = some (before, after) := by
  have passes : ∀ other ∈ before, (other != char) = true := by
    intro other member
    rw [bne_iff_ne]
    exact fun same => absent (same ▸ member)
  have stops : (char != char) = false := bne_self_eq_false char
  rw [splitOnceAt, if_pos (List.mem_append_right _ List.mem_cons_self),
    List.takeWhile_append_of_pos passes, List.dropWhile_append_of_pos passes,
    List.takeWhile_cons_of_neg (by rw [stops]; exact Bool.false_ne_true),
    List.dropWhile_cons_of_neg (by rw [stops]; exact Bool.false_ne_true), List.append_nil]
  rfl

theorem splitOnceAt_spec {char : Char} {text before after : List Char}
    (cut : splitOnceAt char text = some (before, after)) :
    text = before ++ char :: after ∧ char ∉ before := by
  by_cases member : char ∈ text
  · obtain ⟨first, rest, rfl, absent⟩ := List.eq_append_cons_of_mem member
    rw [splitOnceAt_append absent] at cut
    cases cut
    exact ⟨rfl, absent⟩
  · rw [splitOnceAt, if_neg member] at cut
    cases cut

theorem rsplitOnceAt_append {char : Char} {after : List Char} (absent : char ∉ after)
    (before : List Char) : rsplitOnceAt char (before ++ char :: after) = some (before, after) := by
  have reversed : (before ++ char :: after).reverse = after.reverse ++ char :: before.reverse := by
    rw [List.reverse_append, List.reverse_cons, List.append_assoc, List.singleton_append]
  rw [rsplitOnceAt, reversed, splitOnceAt_append fun member => absent (List.mem_reverse.mp member),
    Option.map_some, List.reverse_reverse, List.reverse_reverse]

end CloudTwin.Lib.Words
