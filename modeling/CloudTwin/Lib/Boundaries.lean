/-
**Cutting the bytes of a text.**

The bytes of a text may be cut between characters or inside one. `isContinuation` tells which: a byte
that goes on with a character is never the first of one.

* `encoded_shape` — a character is one first byte and continuation bytes.
* `cut_between` — bytes cut before a first byte are cut between characters.
* `leads`, `leads_lossy` — a lossy reading has a character for each first byte, and one more for a
  continuation byte at the start.
* `pieces_iff` — pieces read on their own are the text exactly when none starts inside a character.
* `chunks` — pieces of a fixed size.
-/

import CloudTwin.Lib.Utf8

namespace CloudTwin.Lib.Text

/-! ### First bytes and continuation bytes -/

def isContinuation (byte : UInt8) : Bool :=
  decide (0x80 ≤ byte.toNat) && decide (byte.toNat < 0xC0)

theorem encoded_shape (char : Char) : ∃ lead rest, String.utf8EncodeChar char = lead :: rest ∧
    isContinuation lead = false ∧ ∀ byte ∈ rest, isContinuation byte = true := by
  have small : ∀ value < 256, (UInt8.ofNat value).toNat = value := fun value => Nat.mod_eq_of_lt
  have goes : ∀ value, 0x80 ≤ value → value < 0xC0 → isContinuation (UInt8.ofNat value) = true := by
    intro value low high
    unfold isContinuation
    rw [small value (by omega), decide_eq_true low, decide_eq_true high]
    rfl
  have begins : ∀ value, value < 256 → value < 0x80 ∨ 0xC0 ≤ value →
      isContinuation (UInt8.ofNat value) = false := by
    intro value byte outside
    unfold isContinuation
    rw [small value byte, Bool.and_eq_false_iff, decide_eq_false_iff_not, decide_eq_false_iff_not]
    omega
  rw [String.utf8EncodeChar]
  generalize char.val.toNat = code
  -- One case for each length of the encoding.
  split
  · exact ⟨_, _, rfl, begins _ (by omega) (by omega), fun _ member => absurd member List.not_mem_nil⟩
  · split
    · refine ⟨_, _, rfl, begins _ (by omega) (by omega), fun byte member => ?_⟩
      rw [List.mem_singleton.mp member]
      exact goes _ (by omega) (by omega)
    · split
      · refine ⟨_, _, rfl, begins _ (by omega) (by omega), fun byte member => ?_⟩
        simp only [List.mem_cons, List.not_mem_nil, or_false] at member
        rcases member with rfl | rfl
        · exact goes _ (by omega) (by omega)
        · exact goes _ (by omega) (by omega)
      · refine ⟨_, _, rfl, begins _ (by omega) (by omega), fun byte member => ?_⟩
        simp only [List.mem_cons, List.not_mem_nil, or_false] at member
        rcases member with rfl | rfl | rfl
        · exact goes _ (by omega) (by omega)
        · exact goes _ (by omega) (by omega)
        · exact goes _ (by omega) (by omega)

/-- Bytes that do not start inside a character. -/
def Begins (bytes : List UInt8) : Prop :=
  ∀ byte, bytes.head? = some byte → isContinuation byte = false

instance (bytes : List UInt8) : Decidable (Begins bytes) :=
  match bytes with
  | [] => .isTrue nofun
  | byte :: _ => decidable_of_iff (isContinuation byte = false)
      ⟨fun begins _ same => Option.some.inj same ▸ begins, fun begins => begins byte rfl⟩

def encodeChars (chars : List Char) : List UInt8 :=
  chars.flatMap String.utf8EncodeChar

theorem lossyGo_encoded (chars : List Char) : lossyGo none (encodeChars chars) = chars := by
  have read := fromUtf8Lossy_utf8 (String.ofList chars)
  unfold fromUtf8Lossy utf8 at read
  rw [String.toList_ofList] at read
  exact String.ofList_inj.mp read

/-- **Bytes cut before a first byte are cut between characters.** -/
theorem cut_between {chars : List Char} : ∀ {first second : List UInt8}, Begins second →
    encodeChars chars = first ++ second → ∃ before after, chars = before ++ after ∧
      first = encodeChars before ∧ second = encodeChars after := by
  induction chars with
  | nil =>
    intro first second _ same
    obtain ⟨rfl, rfl⟩ := List.append_eq_nil_iff.mp same.symm
    exact ⟨[], [], rfl, rfl, rfl⟩
  | cons char rest ih =>
    intro first second begins same
    have whole : encodeChars (char :: rest) = String.utf8EncodeChar char ++ encodeChars rest :=
      List.flatMap_cons
    rw [whole] at same
    rcases List.append_eq_append_iff.mp same with ⟨middle, rfl, left⟩ | ⟨middle, cut, right⟩
    · obtain ⟨before, after, rfl, rfl, rfl⟩ := ih begins left
      exact ⟨char :: before, after, rfl, by unfold encodeChars; rw [List.flatMap_cons], rfl⟩
    · -- The cut is inside the encoding of a character: only at its start is that before a first byte.
      obtain ⟨lead, goes, shape, -, continues⟩ := encoded_shape char
      cases first with
      | nil => exact ⟨[], char :: rest, rfl, rfl, by rw [whole]; exact same.symm⟩
      | cons byte first =>
        cases middle with
        | nil =>
          rw [List.append_nil] at cut
          exact ⟨[char], rest, rfl, by unfold encodeChars; rw [List.flatMap_singleton, cut], right⟩
        | cons inside middle =>
          rw [shape] at cut
          obtain ⟨-, rfl⟩ := List.cons.inj cut
          have wrong := begins inside (by rw [right]; rfl)
          rw [continues inside (List.mem_append_right _ List.mem_cons_self)] at wrong
          cases wrong

/-! ### Counting characters -/

/-- The number of first bytes. -/
def leads (bytes : List UInt8) : Nat :=
  bytes.countP fun byte => !isContinuation byte

theorem leads_append (first second : List UInt8) : leads (first ++ second) = leads first + leads second :=
  List.countP_append

theorem leads_cons (byte : UInt8) (rest : List UInt8) :
    leads (byte :: rest) = leads rest + if isContinuation byte then 0 else 1 := by
  unfold leads
  rw [List.countP_cons]
  cases isContinuation byte <;> rfl

theorem leads_encoded (chars : List Char) : leads (encodeChars chars) = chars.length := by
  induction chars with
  | nil => rfl
  | cons char rest ih =>
    obtain ⟨lead, goes, shape, begins, continues⟩ := encoded_shape char
    have none' : leads goes = 0 := List.countP_eq_zero.mpr fun byte member => by
      rw [continues byte member]
      decide
    have whole : encodeChars (char :: rest) = String.utf8EncodeChar char ++ encodeChars rest :=
      List.flatMap_cons
    rw [whole, leads_append, ih, shape, leads_cons, begins, none', List.length_cons]
    exact Nat.add_comm _ _

/-- A character that is being read goes on with continuation bytes only. -/
def Waits : Option Partial → Prop
  | none => True
  | some part => 0x80 ≤ part.low ∧ part.high < 0xC0

/-- The characters that a state has still to give. -/
def owed : Option Partial → Nat
  | none => 0
  | some _ => 1

theorem waits_any (needed value : Nat) : Waits (some ⟨needed, 0x80, 0xBF, value⟩) :=
  ⟨le_refl _, Nat.lt_succ_self _⟩

theorem beginChar_step (byte : Nat) : Waits (beginChar byte).2 ∧
    (beginChar byte).1.length + owed (beginChar byte).2 = 1 := by
  unfold beginChar
  split
  · exact ⟨trivial, rfl⟩
  · split
    · exact ⟨waits_any _ _, rfl⟩
    · split
      · exact ⟨⟨by decide, by decide⟩, rfl⟩
      · split
        · exact ⟨⟨by decide, by decide⟩, rfl⟩
        · split
          · exact ⟨waits_any _ _, rfl⟩
          · split
            · exact ⟨⟨by decide, by decide⟩, rfl⟩
            · split
              · exact ⟨waits_any _ _, rfl⟩
              · split
                · exact ⟨⟨by decide, by decide⟩, rfl⟩
                · exact ⟨trivial, rfl⟩

/-- A byte gives what was owed, and one more unless it goes on with the character. -/
theorem nextByte_step {reading : Option Partial} (waits : Waits reading) (byte : UInt8) :
    Waits (nextByte reading byte.toNat).2 ∧ owed reading + (if isContinuation byte then 0 else 1) ≤
      (nextByte reading byte.toNat).1.length + owed (nextByte reading byte.toNat).2 := by
  have atMost : (if isContinuation byte then 0 else 1) ≤ 1 := by split <;> decide
  cases reading with
  | none =>
    obtain ⟨waits', count⟩ := beginChar_step byte.toNat
    exact ⟨waits', by show 0 + _ ≤ (beginChar byte.toNat).1.length + owed (beginChar byte.toNat).2; omega⟩
  | some part =>
    unfold nextByte
    by_cases inside : part.low ≤ byte.toNat ∧ byte.toNat ≤ part.high
    · have continues : isContinuation byte = true := by
        unfold isContinuation
        rw [decide_eq_true (le_trans waits.1 inside.1), decide_eq_true (lt_of_le_of_lt inside.2 waits.2)]
        rfl
      dsimp only
      rw [if_pos inside, continues]
      split
      · exact ⟨trivial, le_refl _⟩
      · exact ⟨waits_any _ _, le_refl _⟩
    · obtain ⟨waits', count⟩ := beginChar_step byte.toNat
      dsimp only
      rw [if_neg inside]
      refine ⟨waits', ?_⟩
      show 1 + _ ≤ ((beginChar byte.toNat).1.length + 1) + owed (beginChar byte.toNat).2
      omega

/-- **A lossy reading has a character for each first byte.** -/
theorem leads_lossyGo (bytes : List UInt8) : ∀ reading, Waits reading →
    leads bytes + owed reading ≤ (lossyGo reading bytes).length := by
  induction bytes with
  | nil =>
    intro reading _
    cases reading with
    | none => exact le_refl _
    | some part => exact le_refl _
  | cons byte rest ih =>
    intro reading waits
    obtain ⟨waits', step⟩ := nextByte_step waits byte
    have later := ih _ waits'
    have here : lossyGo reading (byte :: rest) =
        (nextByte reading byte.toNat).1 ++ lossyGo (nextByte reading byte.toNat).2 rest := by
      cases reading <;> rfl
    rw [here, List.length_append, leads_cons]
    omega

theorem leads_lossy (bytes : List UInt8) : leads bytes ≤ (lossyGo none bytes).length :=
  leads_lossyGo bytes none trivial

/-- Bytes that start inside a character are read as one character too many. -/
theorem leads_lossy_lt {bytes : List UInt8} (inside : ¬Begins bytes) :
    leads bytes < (lossyGo none bytes).length := by
  cases bytes with
  | nil => exact absurd (fun byte wrong => by cases wrong) inside
  | cons byte rest =>
    have continues : isContinuation byte = true := by
      by_contra begins
      exact inside fun other same => Option.some.inj same ▸ Bool.eq_false_iff.mpr begins
    obtain ⟨waits, count⟩ := beginChar_step byte.toNat
    have later := leads_lossyGo rest _ waits
    show leads (byte :: rest) < ((beginChar byte.toNat).1 ++ lossyGo (beginChar byte.toNat).2 rest).length
    rw [leads_cons, continues, List.length_append]
    have replaced : (beginChar byte.toNat).2 = none := by
      unfold isContinuation at continues
      rw [Bool.and_eq_true, decide_eq_true_iff, decide_eq_true_iff] at continues
      unfold beginChar
      rw [if_neg (by omega), if_neg (by omega), if_neg (by omega), if_neg (by omega),
        if_neg (by omega), if_neg (by omega), if_neg (by omega), if_neg (by omega)]
    rw [replaced] at later count ⊢
    show leads rest + 0 < _
    have : owed none = 0 := rfl
    omega

/-! ### Pieces -/

theorem leads_pieces (pieces : List (List UInt8)) :
    leads pieces.flatten ≤ (pieces.flatMap (lossyGo none)).length := by
  induction pieces with
  | nil => exact le_refl _
  | cons piece rest ih =>
    have here := leads_lossy piece
    rw [List.flatten_cons, leads_append, List.flatMap_cons, List.length_append]
    omega

theorem leads_pieces_lt {pieces : List (List UInt8)} {piece : List UInt8} (member : piece ∈ pieces)
    (inside : ¬Begins piece) : leads pieces.flatten < (pieces.flatMap (lossyGo none)).length := by
  obtain ⟨before, after, rfl⟩ := List.append_of_mem member
  have first := leads_pieces before
  have here := leads_lossy_lt inside
  have last := leads_pieces after
  rw [List.flatten_append, List.flatten_cons, leads_append, leads_append, List.flatMap_append,
    List.flatMap_cons, List.length_append, List.length_append]
  omega

theorem begins_flatten {pieces : List (List UInt8)} (begins : ∀ piece ∈ pieces, Begins piece) :
    Begins pieces.flatten := by
  induction pieces with
  | nil => exact fun _ wrong => by cases wrong
  | cons piece rest ih =>
    cases piece with
    | nil => exact ih fun other member => begins other (List.mem_cons_of_mem _ member)
    | cons byte piece => exact begins (byte :: piece) List.mem_cons_self

/-- **Pieces read on their own are the text exactly when none starts inside a character.** -/
theorem pieces_iff {pieces : List (List UInt8)} {chars : List Char}
    (whole : pieces.flatten = encodeChars chars) :
    pieces.flatMap (lossyGo none) = chars ↔ ∀ piece ∈ pieces, Begins piece := by
  constructor
  · intro same piece member
    by_contra inside
    have more := leads_pieces_lt member inside
    rw [whole, leads_encoded, same] at more
    exact lt_irrefl _ more
  · intro begins
    induction pieces generalizing chars with
    | nil =>
      rw [← lossyGo_encoded chars, ← whole]
      rfl
    | cons piece rest ih =>
      obtain ⟨before, after, rfl, rfl, left⟩ := cut_between
        (begins_flatten fun other member => begins other (List.mem_cons_of_mem _ member)) whole.symm
      rw [List.flatMap_cons, lossyGo_encoded,
        ih left fun other member => begins other (List.mem_cons_of_mem _ member)]

/-- `bytes.chunks(size)`, `fuel` bounding the recursion. -/
def chunksFrom {α : Type} (size : Nat) : Nat → List α → List (List α)
  | _, [] => []
  | 0, _ :: _ => []
  | fuel + 1, list => list.take size :: chunksFrom size fuel (list.drop size)

def chunks {α : Type} (size : Nat) (list : List α) : List (List α) :=
  chunksFrom size list.length list

theorem flatten_chunks {α : Type} {size : Nat} (some' : 0 < size) (list : List α) :
    (chunks size list).flatten = list := by
  have every : ∀ (fuel : Nat) (list : List α), list.length ≤ fuel →
      (chunksFrom size fuel list).flatten = list := by
    intro fuel
    induction fuel with
    | zero =>
      intro list short
      obtain rfl := List.length_eq_zero_iff.mp (Nat.le_zero.mp short)
      rfl
    | succ fuel ih =>
      intro list short
      cases list with
      | nil => rfl
      | cons first rest =>
        unfold chunksFrom
        rw [List.flatten_cons, ih _ (by rw [List.length_drop]; omega), List.take_append_drop]
  exact every list.length list (le_refl _)

end CloudTwin.Lib.Text
