/-
**Ranges of bytes**, as RFC 7233 has them.

A header names one range, which selects some bytes of a representation. It is answered with these, or
with an error if there are none; a header that is no such range is ignored. A server may be more
lenient: blanks around the numbers, a sign in front of them; and it may know fewer numbers.

* `RangeSpec`, `RangeSpec.selected` — a range and the bytes that it selects.
* `readRange` — the grammar; `Follows` — what the answer has to be.
* `lenientRange` — what `trim` and `str::parse` make of a header; `AsWritten` — when it is the same.
* `follows_answer`, `follows_ignored` — answers that follow the header, and when a header is ignored.
-/

import CloudTwin.Lib.Utf8
import Mathlib

namespace CloudTwin.Lib

open Text

variable {α : Type}

/-! ### What a range selects -/

/-- `first-last`, `first-`, `-length`. -/
inductive RangeSpec where
  | closed (first last : Nat)
  | fromOn (first : Nat)
  | suffix (length : Nat)
  deriving DecidableEq

namespace RangeSpec

/-- A range that ends before it begins is none. -/
def ordered : RangeSpec → Bool
  | .closed first last => first ≤ last
  | _ => true

/-- Whether a position of a representation of this size is selected. -/
def selects (size : Nat) : RangeSpec → Nat → Bool
  | .closed first last, position => first ≤ position && position ≤ last
  | .fromOn first, position => first ≤ position
  | .suffix length, position => size ≤ position + length

/-- The bytes that the range selects. -/
def selected (spec : RangeSpec) (content : List α) : List α :=
  (content.zipIdx.filter fun entry => spec.selects content.length entry.2).map Prod.fst

/-- The first and the last selected position. -/
def clamp (size : Nat) : RangeSpec → Option (Nat × Nat)
  | .closed first last => if first < size then some (first, min last (size - 1)) else none
  | .fromOn first => if first < size then some (first, size - 1) else none
  | .suffix length => if 0 < length ∧ 0 < size then some (size - length, size - 1) else none

/-- Every number of the range is below the bound. -/
def below (bound : Nat) : RangeSpec → Bool
  | .closed first last => first < bound && last < bound
  | .fromOn first => first < bound
  | .suffix length => length < bound

theorem clamp_bounds {spec : RangeSpec} (ordered : spec.ordered = true) {size first last : Nat}
    (clamped : spec.clamp size = some (first, last)) : first ≤ last ∧ last < size := by
  cases spec with
  | closed start stop =>
    have order : start ≤ stop := of_decide_eq_true ordered
    obtain ⟨inside, same⟩ := Option.ite_none_right_eq_some.mp clamped
    cases same
    omega
  | fromOn start =>
    obtain ⟨inside, same⟩ := Option.ite_none_right_eq_some.mp clamped
    cases same
    omega
  | suffix length =>
    obtain ⟨some', same⟩ := Option.ite_none_right_eq_some.mp clamped
    cases same
    omega

theorem selects_iff {spec : RangeSpec} {size first last : Nat}
    (clamped : spec.clamp size = some (first, last)) {position : Nat} (inside : position < size) :
    spec.selects size position = true ↔ first ≤ position ∧ position ≤ last := by
  cases spec with
  | closed start stop =>
    obtain ⟨_, same⟩ := Option.ite_none_right_eq_some.mp clamped
    cases same
    simp only [selects, Bool.and_eq_true, decide_eq_true_eq]
    omega
  | fromOn start =>
    obtain ⟨_, same⟩ := Option.ite_none_right_eq_some.mp clamped
    cases same
    simp only [selects, decide_eq_true_eq]
    omega
  | suffix length =>
    obtain ⟨_, same⟩ := Option.ite_none_right_eq_some.mp clamped
    cases same
    simp only [selects, decide_eq_true_eq]
    omega

theorem selects_none {spec : RangeSpec} {size : Nat} (clamped : spec.clamp size = none)
    {position : Nat} (inside : position < size) : spec.selects size position = false := by
  cases spec with
  | closed start stop =>
    have outside : ¬ start < size := fun starts => by simp [clamp, starts] at clamped
    simp only [selects, Bool.and_eq_false_iff, decide_eq_false_iff_not]
    omega
  | fromOn start =>
    have outside : ¬ start < size := fun starts => by simp [clamp, starts] at clamped
    simp only [selects, decide_eq_false_iff_not]
    omega
  | suffix length =>
    have none : ¬ (0 < length ∧ 0 < size) := fun some' => by simp [clamp, some'] at clamped
    simp only [selects, decide_eq_false_iff_not]
    omega

end RangeSpec

/-- The entries of a list between two positions. -/
theorem filter_window (content : List α) :
    ∀ start first last, ((content.zipIdx start).filter fun entry =>
      decide (first ≤ entry.2 ∧ entry.2 ≤ last)).map Prod.fst =
        (content.drop (first - start)).take (last + 1 - max first start) := by
  induction content with
  | nil => intros; simp
  | cons byte content ih =>
    intro start first last
    rw [List.zipIdx_cons, List.filter_cons]
    by_cases before : start < first
    · rw [if_neg (by simp; omega), ih, show first - start = first - (start + 1) + 1 by omega,
        List.drop_succ_cons, show max first (start + 1) = max first start by omega]
    · rw [show first - start = 0 by omega, List.drop_zero]
      by_cases after : last < start
      · rw [if_neg (by simp; omega), ih, show last + 1 - max first (start + 1) = 0 by omega,
          show last + 1 - max first start = 0 by omega, List.take_zero, List.take_zero]
      · rw [if_pos (by simp; omega), List.map_cons, ih,
          show last + 1 - max first start = last + 1 - max first (start + 1) + 1 by omega,
          List.take_succ_cons, show first - (start + 1) = 0 by omega, List.drop_zero]

namespace RangeSpec

theorem mem_zipIdx_lt {content : List α} {entry : α × Nat} (member : entry ∈ content.zipIdx) :
    entry.2 < content.length := by
  have := List.snd_lt_add_of_mem_zipIdx member
  omega

/-- **The bytes that are selected stand together.** -/
theorem selected_of_clamp {spec : RangeSpec} {content : List α} {first last : Nat}
    (clamped : spec.clamp content.length = some (first, last)) :
    spec.selected content = (content.drop first).take (last + 1 - first) := by
  have window := filter_window content 0 first last
  rw [Nat.sub_zero, Nat.max_zero] at window
  rw [← window]
  unfold selected
  congr 1
  refine List.filter_congr fun entry member => Bool.eq_iff_iff.mpr ?_
  rw [selects_iff clamped (mem_zipIdx_lt member), decide_eq_true_eq]

theorem selected_of_none {spec : RangeSpec} {content : List α}
    (clamped : spec.clamp content.length = none) : spec.selected content = [] := by
  unfold selected
  rw [List.map_eq_nil_iff, List.filter_eq_nil_iff]
  intro entry member
  rw [selects_none clamped (mem_zipIdx_lt member)]
  exact Bool.false_ne_true

theorem selected_ne_nil {spec : RangeSpec} (ordered : spec.ordered = true) {content : List α}
    {first last : Nat} (clamped : spec.clamp content.length = some (first, last)) :
    spec.selected content ≠ [] := by
  have := clamp_bounds ordered clamped
  rw [selected_of_clamp clamped]
  refine List.ne_nil_of_length_pos ?_
  rw [List.length_take, List.length_drop]
  omega

end RangeSpec

/-! ### The grammar -/

/-- A header that names a range of bytes: the unit, and what stands before and after the dash. -/
structure RangeParts where
  unit : List Char
  first : List Char
  last : List Char

/-- The blanks around a header are not part of it, and a unit is read in any case. -/
def rangeParts (text : String) : Option RangeParts :=
  let value := (trim text).toList
  let spec := value.drop 6
  if (value.take 6).map Char.toLower = "bytes=".toList ∧ '-' ∈ spec then
    some { unit := value.take 6
           first := spec.takeWhile (· != '-')
           last := (spec.dropWhile (· != '-')).drop 1 }
  else none

def readNumbers (first last : List Char) : Option RangeSpec :=
  if first.isEmpty then (digits last).map .suffix
  else (digits first).bind fun start =>
    if last.isEmpty then some (.fromOn start) else (digits last).map (.closed start)

def readSpec (first last : List Char) : Option RangeSpec :=
  (readNumbers first last).filter RangeSpec.ordered

/-- **The range that a header names**; `none` if it is malformed or names several. -/
def readRange (text : String) : Option RangeSpec :=
  (rangeParts text).bind fun parts => readSpec parts.first parts.last

theorem readRange_ordered {text : String} {spec : RangeSpec} (read : readRange text = some spec) :
    spec.ordered = true := by
  obtain ⟨parts, _, numbers⟩ := Option.bind_eq_some_iff.mp read
  exact (Option.filter_eq_some_iff.mp numbers).2

/-! ### The answer -/

/-- An answer, as far as it depends on the range. -/
structure RangeReply (α : Type) where
  status : Nat
  /-- `Content-Range: bytes first-last/size`. -/
  contentRange : Option (Nat × Nat × Nat)
  body : List α

/-- **The answer that a header asks for.** -/
def Follows (header : Option RangeSpec) (content : List α) (reply : RangeReply α) : Prop :=
  (header = none → reply.status = 200 ∧ reply.contentRange = none ∧ reply.body = content) ∧
  ∀ spec, header = some spec →
    (spec.selected content = [] → reply.status = 416) ∧
    (spec.selected content ≠ [] → reply.status = 206 ∧ reply.body = spec.selected content ∧
      ∃ first last, reply.contentRange = some (first, last, content.length) ∧
        first ≤ last ∧ last < content.length ∧
        reply.body = (content.drop first).take (last + 1 - first) ∧
        reply.body.length = last - first + 1)

/-- The reply of a server that takes the header for this range. -/
def answer (content : List α) : Option RangeSpec → RangeReply α
  | none => { status := 200, contentRange := none, body := content }
  | some spec =>
    match spec.clamp content.length with
    | none => { status := 416, contentRange := none, body := [] }
    | some (first, last) =>
      { status := 206
        contentRange := some (first, last, content.length)
        body := (content.drop first).take (last - first + 1) }

theorem answer_unsatisfiable {content : List α} {spec : RangeSpec}
    (clamped : spec.clamp content.length = none) :
    answer content (some spec) = { status := 416, contentRange := none, body := [] } := by
  simp only [answer, clamped]

theorem answer_range {content : List α} {spec : RangeSpec} {first last : Nat}
    (clamped : spec.clamp content.length = some (first, last)) :
    answer content (some spec) =
      { status := 206
        contentRange := some (first, last, content.length)
        body := (content.drop first).take (last - first + 1) } := by
  simp only [answer, clamped]

theorem follows_answer {header : Option RangeSpec}
    (ordered : ∀ spec, header = some spec → spec.ordered = true) (content : List α) :
    Follows header content (answer content header) := by
  constructor
  · rintro rfl
    exact ⟨rfl, rfl, rfl⟩
  · rintro spec rfl
    have order := ordered spec rfl
    cases clamped : spec.clamp content.length with
    | none =>
      rw [answer_unsatisfiable clamped]
      exact ⟨fun _ => rfl, fun some' => absurd (RangeSpec.selected_of_none clamped) some'⟩
    | some range =>
      obtain ⟨first, last⟩ := range
      rw [answer_range clamped]
      have bounds := RangeSpec.clamp_bounds order clamped
      have count : last - first + 1 = last + 1 - first := by omega
      refine ⟨fun none => absurd none (RangeSpec.selected_ne_nil order clamped), fun _ =>
        ⟨rfl, ?_, first, last, rfl, bounds.1, bounds.2, ?_, ?_⟩⟩
      · show (content.drop first).take (last - first + 1) = _
        rw [RangeSpec.selected_of_clamp clamped, count]
      · show (content.drop first).take (last - first + 1) = _
        rw [count]
      · show ((content.drop first).take (last - first + 1)).length = _
        rw [List.length_take, List.length_drop]
        omega

/-- Whatever the range is, the header is ignored exactly if the status is 200. -/
theorem follows_ignored {header : Option RangeSpec} {content : List α} {reply : RangeReply α}
    (follows : Follows header content reply) : reply.status = 200 ↔ header = none := by
  refine ⟨fun status => ?_, fun none => (follows.1 none).1⟩
  cases header with
  | none => rfl
  | some spec =>
    obtain ⟨empty, full⟩ := follows.2 spec rfl
    by_cases none : spec.selected content = []
    · rw [empty none] at status
      exact absurd status (by decide)
    · rw [(full none).1] at status
      exact absurd status (by decide)

theorem answer_status (content : List α) (header : Option RangeSpec) :
    (answer content header).status = 200 ↔ header = none := by
  cases header with
  | none => exact ⟨fun _ => rfl, fun _ => rfl⟩
  | some spec =>
    have other : (answer content (some spec)).status ≠ 200 := by
      cases clamped : spec.clamp content.length with
      | none =>
        rw [answer_unsatisfiable clamped]
        show (416 : Nat) ≠ 200
        decide
      | some range =>
        rw [answer_range clamped]
        show (206 : Nat) ≠ 200
        decide
    exact ⟨fun status => absurd status other, nofun⟩

/-- A subtraction of unsigned numbers: `none` is the panic. -/
def checkedSub (first second : Nat) : Option Nat :=
  if second ≤ first then some (first - second) else none

theorem checkedSub_one {size : Nat} (some' : 0 < size) : checkedSub size 1 = some (size - 1) :=
  if_pos some'

/-- `content[first..=last]`: `none` is the panic. -/
def sliceInclusive (content : List α) (first last : Nat) : Option (List α) :=
  if first ≤ last + 1 ∧ last < content.length then
    some ((content.drop first).take (last + 1 - first))
  else none

/-! ### Lenient readers -/

/-- A number without the blanks around it and the plus sign in front of it. -/
def tidy (part : List Char) : List Char :=
  match (trim (String.ofList part)).toList with
  | '+' :: digit :: rest => digit :: rest
  | chars => chars

/-- The header as it is read with `trim` and `str::parse::<u64>`. -/
def lenientRange (text : String) : Option RangeSpec :=
  (rangeParts text).bind fun parts =>
    if parts.unit = "bytes=".toList then
      (readNumbers (tidy parts.first) (tidy parts.last)).filter (RangeSpec.below (2 ^ 64))
    else none

/-- A number as `str::parse::<u64>` reads it. -/
def lenientNumber (part : List Char) : Option Nat :=
  (digits (tidy part)).filter fun value => value < 2 ^ 64

/-- **The header is read as it is written**: a range has its unit in lower case and no number from
2^64 on, and what is no range does not become one without its blanks and plus signs. -/
def AsWritten (text : String) : Prop :=
  ∀ parts, rangeParts text = some parts →
    (∀ spec, readSpec parts.first parts.last = some spec →
      parts.unit = "bytes=".toList ∧ spec.below (2 ^ 64) = true) ∧
    (readSpec parts.first parts.last = none → parts.unit = "bytes=".toList →
      ∀ spec, readSpec (tidy parts.first) (tidy parts.last) = some spec →
        spec.below (2 ^ 64) = false)

theorem digits_isDigit {chars : List Char} {value : Nat} (read : digits chars = some value) :
    ∀ char ∈ chars, char.isDigit = true := by
  have each : ∀ (chars : List Char) (start value : Nat), digitsValue chars start = some value →
      ∀ char ∈ chars, char.isDigit = true := by
    intro chars
    induction chars with
    | nil => exact fun _ _ _ _ member => absurd member List.not_mem_nil
    | cons first rest ih =>
      intro start value read char member
      rw [digitsValue] at read
      split at read
      · rename_i range
        rcases List.mem_cons.mp member with rfl | member
        · simpa [Char.isDigit, Char.le_def] using range
        · exact ih _ _ read char member
      · cases read
  unfold digits at read
  split at read
  · cases read
  · exact each chars 0 value read

theorem digit_plain {char : Char} (isDigit : char.isDigit = true) :
    isWhitespace char = false ∧ char ≠ '+' := by
  have range : 48 ≤ char.toNat ∧ char.toNat ≤ 57 := by
    simp only [Char.isDigit, Bool.and_eq_true, decide_eq_true_eq, ge_iff_le,
      UInt32.le_iff_toNat_le] at isDigit
    exact isDigit
  constructor
  · unfold isWhitespace
    generalize char.toNat = code at range
    obtain ⟨low, high⟩ := range
    interval_cases code <;> rfl
  · rintro rfl
    exact absurd isDigit (by decide)

theorem tidy_eq {part : List Char} (plain : ∀ char ∈ part, char.isDigit = true) :
    tidy part = part := by
  unfold tidy
  rw [trim_plain fun char member => (digit_plain (plain char member)).1, String.toList_ofList]
  split
  · rename_i digit rest
    exact absurd rfl (digit_plain (plain '+' List.mem_cons_self)).2
  · rfl

/-- The number that `str::parse::<u64>` reads. -/
theorem parseU64_trim (part : List Char) :
    parseU64 (trim (String.ofList part)) = lenientNumber part := by
  unfold parseU64 lenientNumber tidy
  generalize (trim (String.ofList part)).toList = chars
  cases chars with
  | nil => rfl
  | cons first rest =>
    by_cases sign : first = '+'
    · subst sign
      cases rest with
      | nil => rfl
      | cons digit rest => rfl
    · have unsigned : ¬ (first :: rest).head? = some '+' := fun signed =>
        sign (Option.some.inj signed)
      rw [if_neg unsigned]
      split
      · rename_i digit rest signed
        exact absurd (List.cons.inj signed).1 sign
      · rfl

theorem trim_isEmpty (part : List Char) :
    (trim (String.ofList part)).isEmpty = (tidy part).isEmpty := by
  have empty : (trim (String.ofList part)).isEmpty = (trim (String.ofList part)).toList.isEmpty := by
    rw [Bool.eq_iff_iff, String.isEmpty_iff, List.isEmpty_iff, String.toList_eq_nil_iff]
  rw [empty]
  unfold tidy
  split
  · rename_i digit rest signed
    rw [signed]
    rfl
  · rfl

theorem mem_dropWhile {p : α → Bool} {entry : α} (kept : p entry = false) {list : List α}
    (member : entry ∈ list) : entry ∈ list.dropWhile p := by
  rw [← List.takeWhile_append_dropWhile (p := p) (l := list)] at member
  refine (List.mem_append.mp member).resolve_left fun dropped => ?_
  rw [List.mem_takeWhile_imp dropped] at kept
  cases kept

theorem mem_tidy {char : Char} (visible : isWhitespace char = false) (unsigned : char ≠ '+')
    {part : List Char} (member : char ∈ part) : char ∈ tidy part := by
  have trimmed : char ∈ (trim (String.ofList part)).toList := by
    unfold trim
    rw [String.toList_ofList, String.toList_ofList, List.mem_reverse]
    exact mem_dropWhile visible (List.mem_reverse.mpr (mem_dropWhile visible member))
  unfold tidy
  split
  · rename_i digit rest signed
    rw [signed] at trimmed
    exact (List.mem_cons.mp trimmed).resolve_left unsigned
  · exact trimmed

/-- The numbers are read one by one. -/
theorem readNumbers_below (first last : List Char) :
    (readNumbers (tidy first) (tidy last)).filter (RangeSpec.below (2 ^ 64)) =
      if (tidy first).isEmpty then (lenientNumber last).map .suffix
      else (lenientNumber first).bind fun start =>
        if (tidy last).isEmpty then some (.fromOn start)
        else (lenientNumber last).map (.closed start) := by
  unfold readNumbers lenientNumber
  split
  · cases digits (tidy last) with
    | none => rfl
    | some length =>
      rw [Option.map_some, Option.filter_some, Option.filter_some]
      show (if decide (length < 2 ^ 64) = true then _ else _) = _
      split <;> rfl
  · cases digits (tidy first) with
    | none => rfl
    | some start =>
      rw [Option.bind_some, Option.filter_some]
      by_cases small : start < 2 ^ 64
      · rw [if_pos (decide_eq_true small), Option.bind_some]
        split
        · exact (Option.filter_some ..).trans (if_pos (decide_eq_true small))
        · cases digits (tidy last) with
          | none => rfl
          | some stop =>
            rw [Option.map_some, Option.filter_some, Option.filter_some]
            show (if (decide (start < 2 ^ 64) && decide (stop < 2 ^ 64)) = true then _ else _) = _
            rw [decide_eq_true small, Bool.true_and]
            split <;> rfl
      · have large : ¬ decide (start < 2 ^ 64) = true := fun wrong => small (of_decide_eq_true wrong)
        rw [if_neg large, Option.bind_none, Option.filter_eq_none_iff]
        intro spec read below
        split at read
        · rw [← Option.some.inj read] at below
          exact small (of_decide_eq_true below)
        · obtain ⟨stop, _, rfl⟩ := Option.map_eq_some_iff.mp read
          exact small (of_decide_eq_true (Bool.and_eq_true_iff.mp below).1)

/-- A range has nothing to tidy. -/
theorem readNumbers_tidy {first last : List Char} {spec : RangeSpec}
    (read : readNumbers first last = some spec) : tidy first = first ∧ tidy last = last := by
  have empty : ∀ {chars : List Char}, chars.isEmpty = true → tidy chars = chars := by
    intro chars none
    rw [List.isEmpty_iff.mp none]
    rfl
  unfold readNumbers at read
  split at read
  · rename_i none
    obtain ⟨length, isLength, _⟩ := Option.map_eq_some_iff.mp read
    exact ⟨empty none, tidy_eq (digits_isDigit isLength)⟩
  · obtain ⟨start, isStart, rest⟩ := Option.bind_eq_some_iff.mp read
    refine ⟨tidy_eq (digits_isDigit isStart), ?_⟩
    split at rest
    · rename_i none
      exact empty none
    · obtain ⟨stop, isStop, _⟩ := Option.map_eq_some_iff.mp rest
      exact tidy_eq (digits_isDigit isStop)

/-- No comma stands in what is read. -/
theorem readNumbers_comma {first last : List Char} {spec : RangeSpec}
    (read : readNumbers (tidy first) (tidy last) = some spec) : ',' ∉ first ∧ ',' ∉ last := by
  have number : ∀ {part : List Char} {value : Nat}, digits (tidy part) = some value → ',' ∉ part :=
    fun isNumber member => absurd
      (digits_isDigit isNumber ',' (mem_tidy (by decide) (by decide) member)) (by decide)
  have empty : ∀ {part : List Char}, (tidy part).isEmpty = true → ',' ∉ part := by
    intro part none member
    have := mem_tidy (by decide) (by decide) member
    rw [List.isEmpty_iff.mp none] at this
    exact List.not_mem_nil this
  unfold readNumbers at read
  split at read
  · rename_i none
    obtain ⟨length, isLength, _⟩ := Option.map_eq_some_iff.mp read
    exact ⟨empty none, number isLength⟩
  · obtain ⟨start, isStart, rest⟩ := Option.bind_eq_some_iff.mp read
    refine ⟨number isStart, ?_⟩
    split at rest
    · rename_i none
      exact empty none
    · obtain ⟨stop, isStop, _⟩ := Option.map_eq_some_iff.mp rest
      exact number isStop

/-- A range that is read leniently is the one that the header names. -/
theorem lenient_eq {text : String} {spec other : RangeSpec} (read : readRange text = some spec)
    (taken : lenientRange text = some other) : other = spec := by
  obtain ⟨parts, split, numbers⟩ := Option.bind_eq_some_iff.mp read
  obtain ⟨numbers, _⟩ := Option.filter_eq_some_iff.mp numbers
  unfold lenientRange at taken
  rw [split, Option.bind_some] at taken
  obtain ⟨_, taken⟩ := Option.ite_none_right_eq_some.mp taken
  obtain ⟨taken, _⟩ := Option.filter_eq_some_iff.mp taken
  rw [(readNumbers_tidy numbers).1, (readNumbers_tidy numbers).2, numbers] at taken
  exact (Option.some.inj taken).symm

/-- **When the lenient reading is the strict one.** -/
theorem asWritten_iff (text : String) :
    AsWritten text ↔ readRange text = (lenientRange text).filter RangeSpec.ordered := by
  unfold AsWritten readRange lenientRange
  cases rangeParts text with
  | none => exact ⟨fun _ => rfl, nofun⟩
  | some parts =>
    simp only [Option.bind_some]
    have order : ∀ first last, ((readNumbers first last).filter (RangeSpec.below (2 ^ 64))).filter
        RangeSpec.ordered = (readSpec first last).filter (RangeSpec.below (2 ^ 64)) := by
      intro first last
      unfold readSpec
      rw [Option.filter_filter, Option.filter_filter]
      simp only [Bool.and_comm]
    constructor
    · intro written
      obtain ⟨proper, improper⟩ := written parts rfl
      cases read : readSpec parts.first parts.last with
      | some spec =>
        obtain ⟨unit, small⟩ := proper spec read
        have numbers := (Option.filter_eq_some_iff.mp read).1
        rw [if_pos unit, order, (readNumbers_tidy numbers).1, (readNumbers_tidy numbers).2, read,
          Option.filter_some, if_pos small]
      | none =>
        by_cases unit : parts.unit = "bytes=".toList
        · rw [if_pos unit, order]
          symm
          rw [Option.filter_eq_none_iff]
          intro spec tidied
          rw [improper read unit spec tidied]
          exact Bool.false_ne_true
        · rw [if_neg unit]
          rfl
    · rintro same _ ⟨⟩
      constructor
      · intro spec read
        rw [read] at same
        obtain ⟨taken, _⟩ := Option.filter_eq_some_iff.mp same.symm
        obtain ⟨unit, taken⟩ := Option.ite_none_right_eq_some.mp taken
        exact ⟨unit, (Option.filter_eq_some_iff.mp taken).2⟩
      · intro read unit spec tidied
        rw [read, if_pos unit, order, tidied, Option.filter_some] at same
        split at same
        · cases same
        · rename_i large
          exact Bool.eq_false_iff.mpr large

/-- An answer to the lenient reading that follows the header tells that they are the same. -/
theorem asWritten_of_follows {text : String} {content : List α}
    (follows : Follows (readRange text) content
      (answer content ((lenientRange text).filter RangeSpec.ordered))) : AsWritten text := by
  have ignored := (follows_ignored follows).symm.trans (answer_status _ _)
  rw [asWritten_iff]
  cases read : readRange text with
  | none => exact (ignored.mp read).symm
  | some spec =>
    cases taken : (lenientRange text).filter RangeSpec.ordered with
    | none =>
      rw [ignored.mpr taken] at read
      cases read
    | some other => rw [lenient_eq read (Option.filter_eq_some_iff.mp taken).1]

/-- **An answer to the lenient reading** follows the header exactly where that is read as it is
written. -/
theorem follows_iff (text : String) (content : List α) :
    Follows (readRange text) content
      (answer content ((lenientRange text).filter RangeSpec.ordered)) ↔ AsWritten text := by
  refine ⟨asWritten_of_follows, fun written => ?_⟩
  rw [← (asWritten_iff text).mp written]
  exact follows_answer (fun _ => readRange_ordered) content

/-- The header is read as a range that ends before it begins. -/
def Reversed (text : String) : Prop :=
  ∃ spec, lenientRange text = some spec ∧ spec.ordered = false

/-- The reply of a server to which a range that ends before it begins is one that selects nothing. -/
def strictAnswer (content : List α) : Option RangeSpec → RangeReply α
  | none => answer content none
  | some spec =>
    if spec.ordered then answer content (some spec)
    else { status := 416, contentRange := none, body := [] }

theorem strictAnswer_eq {header : Option RangeSpec}
    (ordered : ∀ spec, header = some spec → spec.ordered = true) (content : List α) :
    strictAnswer content header = answer content (header.filter RangeSpec.ordered) := by
  cases header with
  | none => rfl
  | some spec =>
    have order := ordered spec rfl
    rw [Option.filter_some, if_pos order]
    exact if_pos order

/-- **An answer with an error to reversed ranges** follows the header exactly where that is read as it
is written, and is not reversed. -/
theorem follows_strict_iff (text : String) (content : List α) :
    Follows (readRange text) content (strictAnswer content (lenientRange text)) ↔
      AsWritten text ∧ ¬ Reversed text := by
  by_cases reversed : Reversed text
  · refine ⟨fun follows => absurd follows ?_, fun both => absurd reversed both.2⟩
    obtain ⟨spec, taken, unordered⟩ := reversed
    have refused : (strictAnswer content (lenientRange text)).status ≠ 200 := by
      rw [taken, strictAnswer, if_neg (by rw [unordered]; exact Bool.false_ne_true)]
      show (416 : Nat) ≠ 200
      decide
    intro follows
    cases read : readRange text with
    | none => exact refused ((follows_ignored follows).mpr read)
    | some other =>
      have order := readRange_ordered read
      rw [← lenient_eq read taken, unordered] at order
      cases order
  · have ordered : ∀ spec, lenientRange text = some spec → spec.ordered = true := fun spec taken =>
      Bool.of_not_eq_false fun unordered => reversed ⟨spec, taken, unordered⟩
    rw [strictAnswer_eq ordered, follows_iff]
    exact (and_iff_left reversed).symm

theorem rangeParts_some {text : String} {parts : RangeParts} (named : rangeParts text = some parts) :
    parts.unit = (trim text).toList.take 6 ∧
      parts.first = ((trim text).toList.drop 6).takeWhile (· != '-') ∧
      parts.last = (((trim text).toList.drop 6).dropWhile (· != '-')).drop 1 := by
  unfold rangeParts at named
  generalize "bytes=".toList = name at named
  generalize (trim text).toList = value at named ⊢
  dsimp only at named
  rw [Option.ite_none_right_eq_some] at named
  obtain ⟨_, same⟩ := named
  cases same
  exact ⟨rfl, rfl, rfl⟩

/-- The texts before and after the dash, as `strip_prefix` and `split_once` give them. -/
def headerParts (text : String) : Option (String × String) :=
  if startsWith (trim text) "bytes=" then
    splitOnce '-' (String.ofList ((trim text).toList.drop 6))
  else none

theorem headerParts_eq (text : String) :
    headerParts text = (rangeParts text).bind fun parts =>
      if parts.unit = "bytes=".toList then some (String.ofList parts.first, String.ofList parts.last)
      else none := by
  have lower : "bytes=".toList.map Char.toLower = "bytes=".toList := by decide
  have six : "bytes=".toList.length = 6 := by decide
  unfold headerParts startsWith rangeParts splitOnce beforeFirst
  generalize "bytes=".toList = name at lower six ⊢
  generalize (trim text).toList = value
  rw [String.toList_ofList]
  by_cases unit : value.take 6 = name
  · have starts : name <+: value := unit ▸ List.take_prefix 6 _
    rw [if_pos (List.isPrefixOf_iff_prefix.mpr starts)]
    by_cases dash : '-' ∈ value.drop 6
    · have both : (value.take 6).map Char.toLower = name ∧ '-' ∈ value.drop 6 :=
        ⟨by rw [unit, lower], dash⟩
      simp only [if_pos dash, if_pos both, Option.bind_some, if_pos unit]
    · have neither : ¬ ((value.take 6).map Char.toLower = name ∧ '-' ∈ value.drop 6) :=
        fun both => dash both.2
      simp only [if_neg dash, if_neg neither, Option.bind_none]
  · have differs : ¬ name <+: value := fun starts =>
      unit (six ▸ (List.prefix_iff_eq_take.mp starts).symm)
    rw [if_neg fun starts => differs (List.isPrefixOf_iff_prefix.mp starts)]
    symm
    rw [Option.bind_eq_none_iff]
    intro parts named
    obtain ⟨_, same⟩ := Option.ite_none_right_eq_some.mp named
    rw [← Option.some.inj same]
    exact if_neg unit

theorem lenientRange_eq (text : String) :
    lenientRange text = (headerParts text).bind fun parts =>
      (readNumbers (tidy parts.1.toList) (tidy parts.2.toList)).filter
        (RangeSpec.below (2 ^ 64)) := by
  rw [headerParts_eq]
  unfold lenientRange
  cases rangeParts text with
  | none => rfl
  | some parts =>
    simp only [Option.bind_some]
    split
    · rw [Option.bind_some, String.toList_ofList, String.toList_ofList]
    · rfl

/-- A header that names several ranges is not read. -/
theorem lenientRange_comma {text : String} (comma : ',' ∈ (trim text).toList.drop 6) :
    lenientRange text = none := by
  refine Option.eq_none_iff_forall_ne_some.mpr fun spec taken => ?_
  obtain ⟨parts, split, taken⟩ := Option.bind_eq_some_iff.mp taken
  obtain ⟨_, taken⟩ := Option.ite_none_right_eq_some.mp taken
  have apart := readNumbers_comma (Option.filter_eq_some_iff.mp taken).1
  obtain ⟨_, first, last⟩ := rangeParts_some split
  rw [first, last] at apart
  generalize (trim text).toList.drop 6 = spec at comma apart
  rw [← List.takeWhile_append_dropWhile (p := (· != '-')) (l := spec)] at comma
  rcases List.mem_append.mp comma with before | after
  · exact apart.1 before
  · cases rest : spec.dropWhile (· != '-') with
    | nil =>
      rw [rest] at after
      exact List.not_mem_nil after
    | cons next others =>
      have more : spec.dropWhile (· != '-') ≠ [] := rest ▸ List.cons_ne_nil _ _
      have stops := List.head_dropWhile_not (· != '-') more
      simp only [rest, List.head_cons, bne_eq_false_iff_eq] at stops
      rw [rest, stops] at after
      refine apart.2 ?_
      rw [rest]
      exact (List.mem_cons.mp after).resolve_left (by decide)

end CloudTwin.Lib
