/-
**Segments of base64 between dots.**

A compact text is a row of segments with a character between them that stands in none. Where the
segments are unpadded base64, the text is determined by the bytes: a decoder that refuses left-over bits
reads no two texts as the same bytes.

* `split_three` — a text that falls into three segments; `splitGo_join`, a text with a separator in it.
* `findSub_marker` — a marker that begins with a character of its own is found where it stands.
* `encode_of_decode` — a segment that is decoded is the encoding of its bytes.
-/

import CloudTwin.Lib.Base64
import CloudTwin.Lib.Glob
import CloudTwin.Lib.Words

namespace CloudTwin.Lib.Segments

open Text Base64

/-! ### Splitting -/

/-- The parts of a text are free of the character, and with it between them they are the text. -/
theorem splitGo_spec (char : Char) (text : List Char) : ∀ current : List Char, char ∉ current →
    List.intercalate [char] (splitGo char current text) = current.reverse ++ text ∧
      ∀ part ∈ splitGo char current text, char ∉ part := by
  induction text with
  | nil =>
    intro current free
    unfold splitGo
    refine ⟨by simp [List.intercalate], fun part member => ?_⟩
    rw [List.mem_singleton.mp member, List.mem_reverse]
    exact free
  | cons next rest ih =>
    intro current free
    unfold splitGo
    by_cases same : next = char
    · subst same
      obtain ⟨whole, frees⟩ := ih [] List.not_mem_nil
      rw [if_pos (beq_self_eq_true next)]
      refine ⟨?_, fun part member => ?_⟩
      · cases parts : splitGo next [] rest with
        | nil => exact absurd parts (splitGo_ne_nil next rest [])
        | cons part more =>
          rw [parts] at whole
          rw [List.intercalate_cons_cons, whole]
          simp
      · rcases List.mem_cons.mp member with rfl | later
        · rw [List.mem_reverse]
          exact free
        · exact frees part later
    · have apart : (next == char) = false := beq_eq_false_iff_ne.mpr same
      obtain ⟨whole, frees⟩ := ih (next :: current) fun member =>
        (List.mem_cons.mp member).elim (fun here => same here.symm) free
      rw [apart, if_neg Bool.false_ne_true, whole]
      exact ⟨by simp, frees⟩

/-- **The parts around a separator** are the parts before it and the parts behind it. -/
theorem splitGo_join (char : Char) (first second : List Char) : ∀ current,
    splitGo char current (first ++ char :: second) =
      splitGo char current first ++ splitGo char [] second := by
  induction first with
  | nil =>
    intro current
    have cut : splitGo char current (char :: second) =
        if char == char then current.reverse :: splitGo char [] second
        else splitGo char (char :: current) second := rfl
    rw [List.nil_append, cut, if_pos (beq_self_eq_true char)]
    rfl
  | cons next rest ih =>
    intro current
    rw [List.cons_append, splitGo, splitGo]
    split
    · rw [ih, List.cons_append]
    · exact ih _

/-- A marker is found behind a text that does not have its first character. -/
theorem findSub_marker {char : Char} {before rest : List Char} (free : char ∉ before) (once : char ∉ rest)
    (after : List Char) : findSub (char :: rest) (before ++ (char :: rest ++ after)) = some before.length := by
  refine Words.findSub_first (List.cons_ne_nil _ _) ?_ after
  rintro ⟨left, right, whole⟩
  have shape : left ++ char :: (rest ++ right) = before ++ (char :: rest).dropLast := by
    rw [← whole]
    simp
  have inside : char ∈ (char :: rest).dropLast := by
    by_contra away
    have none' : char ∉ before ++ (char :: rest).dropLast := fun member =>
      (List.mem_append.mp member).elim free away
    exact none' (shape ▸ List.mem_append_right _ List.mem_cons_self)
  cases rest with
  | nil => exact absurd inside List.not_mem_nil
  | cons next more =>
    rw [List.dropLast_cons_cons] at shape
    have counts := congrArg (List.count char) shape
    have behind : char ∉ (next :: more).dropLast := fun member => once (List.mem_of_mem_dropLast member)
    rw [List.count_append, List.count_append, List.count_cons_self, List.count_cons_self,
      List.count_eq_zero.mpr free, List.count_eq_zero.mpr behind] at counts
    have leftFree : char ∉ left := List.count_eq_zero.mp (by omega)
    have cut := Words.splitOnceAt_append leftFree (next :: more ++ right)
    rw [shape, Words.splitOnceAt_append free] at cut
    have lengths := congrArg (fun parts => parts.2.length) (Option.some.inj cut)
    simp only [List.length_dropLast, List.length_append, List.length_cons] at lengths
    omega

/-- **A text falls into three segments.** -/
theorem split_three {char : Char} {text first second third : String} :
    split char text = [first, second, third] ↔
      text = first ++ String.singleton char ++ second ++ String.singleton char ++ third ∧
        char ∉ first.toList ∧ char ∉ second.toList ∧ char ∉ third.toList := by
  constructor
  · intro parts
    obtain ⟨whole, frees⟩ := splitGo_spec char text.toList [] List.not_mem_nil
    have chars : splitGo char [] text.toList = [first.toList, second.toList, third.toList] := by
      have mapped := congrArg (List.map String.toList) parts
      unfold split at mapped
      rw [List.map_map] at mapped
      have same : String.toList ∘ String.ofList = id := funext fun chars => String.toList_ofList
      rwa [same, List.map_id] at mapped
    rw [chars] at whole frees
    refine ⟨String.toList_injective ?_, frees _ (by simp), frees _ (by simp), frees _ (by simp)⟩
    rw [List.reverse_nil, List.nil_append] at whole
    rw [← whole]
    simp [List.intercalate]
  · rintro ⟨rfl, one, two, three⟩
    have chars : (first ++ String.singleton char ++ second ++ String.singleton char ++ third).toList =
        first.toList ++ char :: (second.toList ++ char :: third.toList) := by
      simp
    unfold split
    rw [chars, splitGo_append char _ one, splitGo_append char _ two, splitGo_last char _ three]
    simp

/-! ### Segments of bytes -/

theorem symbol_of_value {char : Char} {sextet : Nat} (found : urlSafeAlphabet.value char = some sextet) :
    sextet < 64 ∧ urlSafeAlphabet.symbol sextet = char := by
  have found : valueWith '-' '_' char = some sextet := found
  unfold valueWith at found
  have same := List.find?_some found
  exact ⟨List.mem_range.mp (List.mem_of_find?_eq_some found), beq_iff_eq.mp same⟩

/-- Sextets that give bytes are the sextets of the bytes. -/
theorem sextetsOf_bytesOf (sextets : List Nat) : ∀ bytes, (∀ sextet ∈ sextets, sextet < 64) →
    bytesOf sextets = some bytes → sextetsOf bytes = sextets := by
  have value : ∀ n : Nat, n < 256 → (UInt8.ofNat n).toNat = n := fun n small => by
    rw [UInt8.toNat_ofNat']
    omega
  fun_induction bytesOf sextets with
  | case1 =>
    intro bytes _ made
    obtain rfl := Option.some.inj made
    rfl
  | case2 => exact fun _ _ made => absurd made.symm (Option.some_ne_none _)
  | case3 first second unused =>
    intro bytes small made
    obtain rfl := Option.some.inj made
    have one := small first (by simp)
    have two := small second (by simp)
    rw [sextetsOf, value _ (by omega)]
    simp only [List.cons.injEq, and_true]
    omega
  | case4 first second _ => exact fun _ _ made => absurd made.symm (Option.some_ne_none _)
  | case5 first second third unused =>
    intro bytes small made
    obtain rfl := Option.some.inj made
    have one := small first (by simp)
    have two := small second (by simp)
    have three := small third (by simp)
    rw [sextetsOf, value _ (by omega), value _ (by omega)]
    simp only [List.cons.injEq, and_true]
    omega
  | case6 first second third _ => exact fun _ _ made => absurd made.symm (Option.some_ne_none _)
  | case7 first second third fourth rest ih =>
    intro bytes small made
    obtain ⟨more, decoded, rfl⟩ := Option.map_eq_some_iff.mp made
    have one := small first (by simp)
    have two := small second (by simp)
    have three := small third (by simp)
    have four := small fourth (by simp)
    rw [sextetsOf, ih more (fun sextet member => small sextet (by simp [member])) decoded,
      value _ (by omega), value _ (by omega), value _ (by omega)]
    simp only [List.cons.injEq, and_true]
    omega

/-- **A segment that is decoded is the encoding of its bytes.** -/
theorem encode_of_decode {text : String} {bytes : List UInt8}
    (decoded : urlSafeNoPadDecode text = some bytes) : urlSafeNoPadEncode bytes = text := by
  obtain ⟨sextets, read, made⟩ := Option.bind_eq_some_iff.mp decoded
  have pointwise : ∀ (chars : List Char) (sextets : List Nat), chars.mapM urlSafeAlphabet.value = some sextets →
      (∀ sextet ∈ sextets, sextet < 64) ∧ sextets.map urlSafeAlphabet.symbol = chars := by
    intro chars
    induction chars with
    | nil =>
      intro sextets read
      obtain rfl := Option.some.inj read
      exact ⟨fun _ member => absurd member List.not_mem_nil, rfl⟩
    | cons char rest ih =>
      intro sextets read
      rw [List.mapM_cons] at read
      obtain ⟨sextet, own, read⟩ := Option.bind_eq_some_iff.mp read
      obtain ⟨others, later, read⟩ := Option.bind_eq_some_iff.mp read
      obtain rfl := Option.some.inj read
      obtain ⟨small, same⟩ := symbol_of_value own
      obtain ⟨smalls, sames⟩ := ih others later
      exact ⟨fun s member => (List.mem_cons.mp member).elim (fun here => here ▸ small) (smalls s),
        by rw [List.map_cons, same, sames]⟩
  obtain ⟨small, same⟩ := pointwise text.toList sextets read
  refine String.toList_injective ?_
  unfold urlSafeNoPadEncode encode
  rw [String.toList_ofList, sextetsOf_bytesOf sextets bytes small made, same]

/-- A segment has no dot. -/
theorem encode_no_dot (bytes : List UInt8) : '.' ∉ (urlSafeNoPadEncode bytes).toList := by
  have symbols : ∀ sextet < 64, urlSafeAlphabet.symbol sextet ≠ '.' := by decide
  unfold urlSafeNoPadEncode encode
  rw [String.toList_ofList]
  intro member
  obtain ⟨sextet, inside, same⟩ := List.mem_map.mp member
  exact symbols sextet (sextetsOf_lt bytes sextet inside) same

end CloudTwin.Lib.Segments
