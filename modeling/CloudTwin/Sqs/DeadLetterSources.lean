/-
**The sources of a dead-letter queue** (`aws/sqs/service.rs`, `list_dead_letter_source_queues`).

The listing compares the target of a stored policy with the ARN of the queue as texts. A receive takes
the target for the name of a queue, and understands bare names, URLs and ARNs of any region.

* `listDeadLetterSourceQueues` and `paginate` — one page of the listing.
* `listAllSources` — the pages, each from the token that the one before it returned.
* `sources_redrive` — when the listing names just the queues whose receives move messages there.
-/

import CloudTwin.Sqs.Deduplication
import CloudTwin.Lib.Transaction
import CloudTwin.Lib.Utf8

namespace CloudTwin.Sqs

open Lib Lib.Text

set_option linter.unusedSectionVars false

/-! ### Pages -/

/-- A page of the names, and the token of the next one. -/
def paginate (names : List String) (max : Option Int) (nextToken : Option String) :
    Result (List String × Option String) := do
  let start ← (match nextToken.filter fun token => !token.isEmpty with
    | some token =>
      match Base64.urlSafeNoPadDecode token with
      | some bytes => .ok (names.findIdx fun name => decide (fromUtf8Lossy bytes < name))
      | none => .error (.invalidParameter "Invalid NextToken value.")
    | none => .ok 0 : Result Nat)
  let limit ← (match max with
    | some number =>
      if 1 ≤ number ∧ number ≤ 1000 then .ok number.toNat
      else .error (.invalidParameter ("Value " ++ toString number ++ " for parameter MaxResults " ++
        "is invalid. Reason: MaxResults must be an integer between 1 and 1000."))
    | none => .ok 1000 : Result Nat)
  let page := (names.drop start).take limit
  return (page,
    if start + page.length < names.length ∧ max.isSome = true then
      page.getLast?.map fun last => Base64.urlSafeNoPadEncode (utf8 last)
    else none)

/-- The token after the first names of a list. -/
def tokenAfter (names : List String) (count : Nat) : Option String :=
  if count = 0 then none
  else names[count - 1]?.map fun last => Base64.urlSafeNoPadEncode (utf8 last)

theorem urlSafe_nonempty {text : String} (some' : text ≠ "") :
    (Base64.urlSafeNoPadEncode (utf8 text)).isEmpty = false := by
  rw [Bool.eq_false_iff]
  intro empty
  have nothing : Base64.urlSafeNoPadEncode (utf8 text) = Base64.urlSafeNoPadEncode [] :=
    String.isEmpty_iff.mp empty
  have bytes : utf8 text = utf8 "" := Base64.encode_injective _ nothing
  exact some' (utf8_injective bytes)

/-- Where the page after a token starts. -/
def pageStart (names : List String) (nextToken : Option String) : Result Nat :=
  match nextToken.filter fun token => !token.isEmpty with
  | some token =>
    match Base64.urlSafeNoPadDecode token with
    | some bytes => .ok (names.findIdx fun name => decide (fromUtf8Lossy bytes < name))
    | none => .error (.invalidParameter "Invalid NextToken value.")
  | none => .ok 0

/-- **The token after some names starts the page behind them.** -/
theorem pageStart_tokenAfter {names : List String} (sorted : names.Pairwise (· < ·))
    (named : ∀ name ∈ names, name ≠ "") {count : Nat} (inside : count < names.length) :
    pageStart names (tokenAfter names count) = .ok count := by
  unfold pageStart tokenAfter
  by_cases first : count = 0
  · rw [if_pos first, first]
    rfl
  · have place : count - 1 < names.length := by omega
    have decoded : Base64.urlSafeNoPadDecode (Base64.urlSafeNoPadEncode (utf8 names[count - 1])) =
        some (utf8 names[count - 1]) := Base64.decode_encode _ _
    have token : (!(Base64.urlSafeNoPadEncode (utf8 names[count - 1])).isEmpty) = true := by
      rw [urlSafe_nonempty (named _ (List.getElem_mem place))]
      rfl
    rw [if_neg first, List.getElem?_eq_getElem place, Option.map_some, Option.filter_some,
      if_pos token]
    simp only [decoded, fromUtf8Lossy_utf8]
    refine congrArg Except.ok ((List.findIdx_eq inside).mpr ⟨?_, fun index before => ?_⟩)
    · exact decide_eq_true (List.pairwise_iff_getElem.mp sorted _ _ place inside (by omega))
    · refine decide_eq_false (not_lt.mpr ?_)
      rcases Nat.lt_or_ge index (count - 1) with less | more
      · exact le_of_lt (List.pairwise_iff_getElem.mp sorted _ _ _ place less)
      · have same : index = count - 1 := by omega
        subst same
        exact le_refl _

/-- **The token of a page continues where the page ended.** -/
theorem paginate_continues {names : List String} (sorted : names.Pairwise (· < ·))
    (named : ∀ name ∈ names, name ≠ "") {count : Nat} (inside : count < names.length) {number : Int}
    (least : 1 ≤ number) (most : number ≤ 1000) :
    paginate names (some number) (tokenAfter names count) =
      .ok ((names.drop count).take number.toNat,
        if count + number.toNat < names.length then tokenAfter names (count + number.toNat)
        else none) := by
  have start := pageStart_tokenAfter sorted named inside
  unfold pageStart at start
  unfold paginate
  rw [start]
  simp only [if_pos (And.intro least most), Option.isSome_some, and_true]
  change (Except.ok _ : Result _) = _
  have length : ((names.drop count).take number.toNat).length =
      min number.toNat (names.length - count) := by
    rw [List.length_take, List.length_drop]
  have positive : 0 < number.toNat := by omega
  rw [length]
  by_cases more : count + number.toNat < names.length
  · have short : min number.toNat (names.length - count) = number.toNat := by omega
    rw [if_pos more, short, if_pos more, tokenAfter, if_neg (by omega), List.getLast?_eq_getElem?,
      length, short, List.getElem?_take_of_lt (by omega), List.getElem?_drop]
    congr 4
    omega
  · rw [if_neg more, if_neg (by omega)]

/-! ### The listing -/

/-- `ORDER BY name`. -/
def nameOrder (first second : SqsQueue) : Prop :=
  first.name ≤ second.name

instance : DecidableRel nameOrder :=
  fun first second => inferInstanceAs (Decidable (first.name ≤ second.name))

def allQueues (store : Store) : List SqsQueue :=
  (store.queues.rows.map fun row => queueFromRow row.1 row.2).insertionSort nameOrder

/-- `queue_url`. -/
def queueUrl (baseUrl name : String) : String :=
  baseUrl ++ "/" ++ accountId ++ "/" ++ name

section External

variable [external : External]

/-- The names of the queues whose policies state the ARN. -/
def sourcesByArn (store : Store) (arn : String) : List String :=
  ((allQueues store).filter fun source =>
    source.redrive.any fun policy => policy.1 == arn).map SqsQueue.name

def listDeadLetterSourceQueues (store : Store) (baseUrl queue : String) (max : Option Int)
    (nextToken : Option String) : Result (List String × Option String) := do
  let target ← getQueue store queue
  let (page, token) ← paginate (sourcesByArn store target.arn) max nextToken
  return (page.map (queueUrl baseUrl), token)

/-- The URLs on at most `fuel` pages, each read with the token of the one before it; `none` if there
are more. -/
def listAllSources (store : Store) (baseUrl queue : String) (max : Option Int) :
    Nat → Option String → Result (Option (List String))
  | 0, _ => .ok none
  | fuel + 1, nextToken => do
    let (page, token) ← listDeadLetterSourceQueues store baseUrl queue max nextToken
    match token with
    | none => return some page
    | some token =>
      let rest ← listAllSources store baseUrl queue max fuel (some token)
      return rest.map fun rest => page ++ rest

/-- What a listing names: without `MaxResults` there is only one page. -/
def listedNames (names : List String) (max : Option Int) : List String :=
  if max.isSome then names else names.take 1000

theorem listAllSources_eq {store : Store} {baseUrl queue : String} {target : SqsQueue}
    (found : getQueue store queue = .ok target)
    (sorted : (sourcesByArn store target.arn).Pairwise (· < ·))
    (named : ∀ name ∈ sourcesByArn store target.arn, name ≠ "") {number : Int} (least : 1 ≤ number)
    (most : number ≤ 1000) :
    ∀ fuel count : Nat, count < (sourcesByArn store target.arn).length →
      (sourcesByArn store target.arn).length < count + fuel →
      listAllSources store baseUrl queue (some number) fuel
          (tokenAfter (sourcesByArn store target.arn) count) =
        .ok (some (((sourcesByArn store target.arn).drop count).map (queueUrl baseUrl))) := by
  intro fuel
  generalize names' : sourcesByArn store target.arn = names at *
  induction fuel with
  | zero =>
    intro count inside enough
    omega
  | succ fuel ih =>
    intro count inside enough
    have page : listDeadLetterSourceQueues store baseUrl queue (some number)
        (tokenAfter names count) = .ok (((names.drop count).take number.toNat).map (queueUrl baseUrl),
          if count + number.toNat < names.length then tokenAfter names (count + number.toNat)
          else none) := by
      unfold listDeadLetterSourceQueues
      rw [found]
      change (paginate (sourcesByArn store target.arn) _ _ >>= _) = _
      rw [names', paginate_continues sorted named inside least most]
      rfl
    rw [listAllSources, page]
    by_cases more : count + number.toNat < names.length
    · have token : ∃ token, tokenAfter names (count + number.toNat) = some token := by
        unfold tokenAfter
        rw [if_neg (by omega), List.getElem?_eq_getElem (by omega)]
        exact ⟨_, rfl⟩
      obtain ⟨token, given⟩ := token
      have rest := ih (count + number.toNat) more (by omega)
      rw [given] at rest
      rw [if_pos more, given]
      change (listAllSources store baseUrl queue (some number) fuel (some token) >>= _) = _
      rw [rest]
      change Except.ok (some (_ ++ _)) = _
      rw [← List.map_append, ← List.drop_drop, List.take_append_drop]
    · rw [if_neg more]
      change Except.ok (some _) = _
      rw [List.take_of_length_le (by rw [List.length_drop]; omega)]

/-! ### Names and ARNs -/

theorem validQueueName_plain {name : String} (valid : validQueueName name = true) :
    ∀ char ∈ name.toList, isWhitespace char = false ∧ char ≠ '/' ∧ char ≠ ':' := by
  intro char member
  have letters : (isAsciiAlphanumeric char || char == '-' || char == '_') = true ∨
      char ∈ ".fifo".toList := by
    unfold validQueueName at valid
    simp only [Bool.and_eq_true, List.all_eq_true] at valid
    obtain ⟨_, characters⟩ := valid
    unfold stripSuffix at characters
    split at characters
    · rename_i ends
      obtain ⟨base, whole⟩ := List.isSuffixOf_iff_suffix.mp ends
      rw [Option.getD_some, String.toList_ofList, ← whole, List.length_append,
        Nat.add_sub_cancel, List.take_left] at characters
      rw [← whole] at member
      rcases List.mem_append.mp member with inBase | inSuffix
      · exact Or.inl (characters char inBase)
      · exact Or.inr inSuffix
    · exact Or.inl (characters char member)
  rcases letters with letter | suffix
  · have code : 45 = char.toNat ∨ 95 = char.toNat ∨ (48 ≤ char.toNat ∧ char.toNat ≤ 57) ∨
        (65 ≤ char.toNat ∧ char.toNat ≤ 90) ∨ (97 ≤ char.toNat ∧ char.toNat ≤ 122) := by
      simp only [Bool.or_eq_true, beq_iff_eq, isAsciiAlphanumeric, Bool.and_eq_true,
        decide_eq_true_iff, Char.le_def] at letter
      rcases letter with (((digit | upper) | lower) | rfl) | rfl
      · exact Or.inr (Or.inr (Or.inl digit))
      · exact Or.inr (Or.inr (Or.inr (Or.inl upper)))
      · exact Or.inr (Or.inr (Or.inr (Or.inr lower)))
      · exact Or.inl rfl
      · exact Or.inr (Or.inl rfl)
    refine ⟨?_, ?_, ?_⟩
    · simp only [isWhitespace, Bool.or_eq_false_iff, Bool.and_eq_false_iff, decide_eq_false_iff_not,
        beq_eq_false_iff_ne, ne_eq]
      omega
    · rintro rfl
      have slash : '/'.toNat = 47 := rfl
      omega
    · rintro rfl
      have colon : ':'.toNat = 58 := rfl
      omega
  · have known : (".fifo".toList.all fun char =>
        !isWhitespace char && char != '/' && char != ':') = true := by decide
    have here := List.all_eq_true.mp known char suffix
    simp only [Bool.and_eq_true, Bool.not_eq_true', bne_iff_ne] at here
    exact ⟨here.1.1, here.1.2, here.2⟩

/-- **The ARN of a queue names it.** -/
theorem queueNameOf_queueArn {name : String} (valid : validQueueName name = true) :
    queueNameOf (queueArn name) = name := by
  have plain := validQueueName_plain valid
  have some' : name.toList ≠ [] := by
    intro empty
    have nothing : name = "" := String.toList_inj.mp empty
    subst nothing
    exact absurd valid (by decide)
  have shape : (queueArn name).toList = "arn:aws:sqs:us-east-1:000000000000:".toList ++ name.toList := by
    unfold queueArn
    simp only [String.toList_append]
    rfl
  have blankless : ∀ char ∈ (queueArn name).toList, isWhitespace char = false := by
    intro char member
    rw [shape] at member
    rcases List.mem_append.mp member with fixed | own
    · have known : ("arn:aws:sqs:us-east-1:000000000000:".toList.all fun char =>
          !isWhitespace char) = true := by decide
      simpa using List.all_eq_true.mp known char fixed
    · exact (plain char own).1
  have trimmed : trim (queueArn name) = queueArn name := by
    have kept := trim_plain blankless
    rwa [String.ofList_toList] at kept
  obtain ⟨start, last, chars⟩ : ∃ start last, name.toList = start ++ [last] :=
    ⟨name.toList.dropLast, name.toList.getLast some', (List.dropLast_append_getLast some').symm⟩
  have unslashed : trimEndMatches '/' (queueArn name) = queueArn name := by
    have other : (last == '/') = false := by
      simpa using (plain last (by rw [chars]; simp)).2.1
    unfold trimEndMatches
    rw [shape, chars, ← List.append_assoc, List.reverse_append, List.reverse_singleton,
      List.singleton_append, List.dropWhile_cons_of_neg (by rw [other]; exact Bool.false_ne_true),
      List.reverse_cons, List.reverse_reverse, List.append_assoc, ← chars, ← shape,
      String.ofList_toList]
  have arn : startsWith (queueArn name) "arn:" = true := by
    unfold startsWith
    rw [shape, List.isPrefixOf_iff_prefix]
    exact ⟨"aws:sqs:us-east-1:000000000000:".toList ++ name.toList, rfl⟩
  have uncoloned : ∀ char ∈ name.toList.reverse, (char != ':') = true := fun char member =>
    bne_iff_ne.mpr (plain char (List.mem_reverse.mp member)).2.2
  unfold queueNameOf
  simp only [trimmed, unslashed, arn, if_true]
  unfold afterLast
  rw [shape, List.reverse_append, List.takeWhile_append_of_pos uncoloned]
  change String.ofList (name.toList.reverse ++ []).reverse = name
  rw [List.append_nil, List.reverse_reverse, String.ofList_toList]

/-! ### The queues of a store -/

theorem mem_allQueues {store : Store} {source : SqsQueue} :
    source ∈ allQueues store ↔ ∃ row, store.queues.get source.id = some row ∧
      source = queueFromRow source.id row := by
  unfold allQueues
  rw [List.mem_insertionSort, List.mem_map]
  constructor
  · rintro ⟨row, member, rfl⟩
    exact ⟨row.2, (Table.get_eq_some _ _ _).mpr member, rfl⟩
  · rintro ⟨row, found, same⟩
    exact ⟨(source.id, row), (Table.get_eq_some _ _ _).mp found, same.symm⟩

theorem allQueues_names {store : Store} (tidy : Tidy store) :
    ((allQueues store).map SqsQueue.name).Nodup := by
  unfold allQueues
  refine (((List.perm_insertionSort nameOrder _).map _).nodup_iff).mpr ?_
  rw [List.map_map, List.Nodup, List.pairwise_map]
  refine store.queues.ordered.imp_of_mem fun {first second} memberFirst memberSecond less same => ?_
  have equal := tidy.unique first.1 second.1 first.2 second.2
    ((Table.get_eq_some _ _ _).mpr memberFirst) ((Table.get_eq_some _ _ _).mpr memberSecond) same
  omega

theorem allQueues_sorted {store : Store} (tidy : Tidy store) :
    (allQueues store).Pairwise fun first second => first.name < second.name := by
  have : IsTrans SqsQueue nameOrder := ⟨fun _ _ _ => le_trans⟩
  have : Std.Total nameOrder := ⟨fun first second => le_total first.name second.name⟩
  have sorted := List.pairwise_insertionSort nameOrder
    (store.queues.rows.map fun row => queueFromRow row.1 row.2)
  exact sorted.imp₂ (fun _ _ => lt_of_le_of_ne) (List.pairwise_map.mp (allQueues_names tidy))

theorem sourcesByArn_sorted {store : Store} (tidy : Tidy store) (arn : String) :
    (sourcesByArn store arn).Pairwise (· < ·) :=
  List.pairwise_map.mpr ((allQueues_sorted tidy).filter _)

theorem mem_sourcesByArn {store : Store} {arn name : String} :
    name ∈ sourcesByArn store arn ↔ ∃ source ∈ allQueues store, source.name = name ∧
      ∃ max, source.redrive = some (arn, max) := by
  unfold sourcesByArn
  simp only [List.mem_map, List.mem_filter, Option.any_eq_true, beq_iff_eq, Prod.exists]
  constructor
  · rintro ⟨source, ⟨member, _, max, policy, rfl⟩, rfl⟩
    exact ⟨source, member, rfl, max, policy⟩
  · rintro ⟨source, member, rfl, max, policy⟩
    exact ⟨source, ⟨member, arn, max, policy, rfl⟩, rfl⟩

/-! ### Listing and redrive -/

/-- **A receive from the queue moves messages that reached `maxReceiveCount` there.** -/
def RedrivesInto (store : Store) (source target : SqsQueue) : Prop :=
  ∃ max, deadLetterQueue store source = some (target, max)

theorem redrivesInto_iff {store : Store} {source target : SqsQueue}
    (own : findQueue store target.name = some target) :
    RedrivesInto store source target ↔
      ∃ text max, source.redrive = some (text, max) ∧ queueNameOf text = target.name := by
  unfold RedrivesInto deadLetterQueue
  constructor
  · rintro ⟨max, found⟩
    obtain ⟨⟨text, count⟩, policy, rest⟩ := Option.bind_eq_some_iff.mp found
    obtain ⟨dlq, here, same⟩ := Option.bind_eq_some_iff.mp rest
    obtain ⟨rfl, rfl⟩ := Prod.mk.inj (Option.some.inj same)
    obtain ⟨row, _, named, shape⟩ := findQueue_row here
    refine ⟨text, count, policy, ?_⟩
    rw [shape]
    exact named.symm
  · rintro ⟨text, max, policy, named⟩
    refine ⟨max, Option.bind_eq_some_iff.mpr ⟨(text, max), policy, ?_⟩⟩
    exact Option.bind_eq_some_iff.mpr ⟨target, named ▸ own, rfl⟩

/-- **Policies name the queue by its ARN**: of a policy that a receive follows to the queue, the target
is the text of the queue's ARN. -/
def NamedByArn (store : Store) (target : SqsQueue) : Prop :=
  ∀ source ∈ allQueues store, ∀ text max, source.redrive = some (text, max) →
    queueNameOf text = target.name → text = target.arn

theorem listed_iff {store : Store} (tidy : Tidy store) {target : SqsQueue}
    (valid : validQueueName target.name = true) (own : findQueue store target.name = some target)
    (max : Option Int) :
    (∀ name, name ∈ listedNames (sourcesByArn store target.arn) max ↔
      ∃ source ∈ allQueues store, source.name = name ∧ RedrivesInto store source target) ↔
      NamedByArn store target ∧ (max = none → (sourcesByArn store target.arn).length ≤ 1000) := by
  have follows : ∀ {source max}, source.redrive = some (target.arn, max) →
      RedrivesInto store source target := fun policy =>
    (redrivesInto_iff own).mpr ⟨target.arn, _, policy, queueNameOf_queueArn valid⟩
  have part : (listedNames (sourcesByArn store target.arn) max).Sublist
      (sourcesByArn store target.arn) := by
    unfold listedNames
    split
    · exact List.Sublist.refl _
    · exact List.take_sublist ..
  constructor
  · intro exact'
    refine ⟨fun source member text count policy named => ?_, fun one => ?_⟩
    · have listed := (exact' source.name).mpr ⟨source, member, rfl,
        (redrivesInto_iff own).mpr ⟨text, count, policy, named⟩⟩
      obtain ⟨other, memberOther, sameName, _, otherPolicy⟩ :=
        mem_sourcesByArn.mp (part.subset listed)
      have same := List.inj_on_of_nodup_map (allQueues_names tidy) memberOther member sameName
      rw [same, policy] at otherPolicy
      exact (Prod.mk.inj (Option.some.inj otherPolicy)).1
    · by_contra more
      have inside : 1000 < (sourcesByArn store target.arn).length := not_le.mp more
      obtain ⟨source, member, named, _, policy⟩ :=
        mem_sourcesByArn.mp (List.getElem_mem inside)
      have listed := (exact' _).mpr ⟨source, member, named, follows policy⟩
      rw [one, listedNames, if_neg (by simp)] at listed
      obtain ⟨index, place, same⟩ := List.getElem_of_mem listed
      rw [List.getElem_take] at same
      rw [List.length_take] at place
      have less := List.pairwise_iff_getElem.mp (sourcesByArn_sorted tidy target.arn) index 1000
        (by omega) inside (by omega)
      rw [same] at less
      exact lt_irrefl _ less
  · rintro ⟨byArn, few⟩ name
    have whole : listedNames (sourcesByArn store target.arn) max = sourcesByArn store target.arn := by
      unfold listedNames
      cases max with
      | some number => rfl
      | none => exact List.take_of_length_le (few rfl)
    rw [whole, mem_sourcesByArn]
    constructor
    · rintro ⟨source, member, named, _, policy⟩
      exact ⟨source, member, named, follows policy⟩
    · rintro ⟨source, member, named, redrives⟩
      obtain ⟨text, count, policy, resolves⟩ := (redrivesInto_iff own).mp redrives
      rw [byArn source member text count policy resolves] at policy
      exact ⟨source, member, named, count, policy⟩

/-- The names that the listing goes through are not empty. -/
theorem sourcesByArn_named {store : Store} (tidy : Tidy store) {arn : String} :
    ∀ name ∈ sourcesByArn store arn, name ≠ "" := by
  intro name member empty
  obtain ⟨source, memberSource, same, _⟩ := mem_sourcesByArn.mp member
  obtain ⟨sourceRow, stored, sourceShape⟩ := mem_allQueues.mp memberSource
  have checked := tidy.named _ sourceRow stored
  have sourceName : source.name = sourceRow.name := by rw [sourceShape]; rfl
  rw [← sourceName, same, empty] at checked
  exact absurd checked (by decide)

theorem sourcesByArn_length (store : Store) (arn : String) :
    (sourcesByArn store arn).length ≤ store.queues.rows.length := by
  unfold sourcesByArn
  rw [List.length_map]
  refine (List.length_filter_le _ _).trans ?_
  unfold allQueues
  rw [List.length_insertionSort, List.length_map]

/-- **The pages together**: all names, or the first thousand if no limit is asked for. -/
theorem listAllSources_listed {store : Store} (tidy : Tidy store) (baseUrl : String) {queue : String}
    {target : SqsQueue} (found : getQueue store queue = .ok target) {max : Option Int}
    (range : ∀ number, max = some number → 1 ≤ number ∧ number ≤ 1000) :
    listAllSources store baseUrl queue max (store.queues.rows.length + 1) none =
      .ok (some ((listedNames (sourcesByArn store target.arn) max).map (queueUrl baseUrl))) := by
  have sorted := sourcesByArn_sorted tidy target.arn
  have few := sourcesByArn_length store target.arn
  cases max with
  | some number =>
    obtain ⟨least, most⟩ := range number rfl
    by_cases empty : sourcesByArn store target.arn = []
    · have page : paginate [] (some number) none = .ok ([], none) := by
        unfold paginate
        simp only [if_pos (And.intro least most)]
        change (Except.ok ((([] : List String).drop 0).take number.toNat, _) : Result _) = _
        simp
      have listed : listDeadLetterSourceQueues store baseUrl queue (some number) none =
          .ok ([], none) := by
        refine ok_bind found ?_
        rw [empty]
        exact ok_bind page rfl
      rw [listAllSources, listed, empty]
      rfl
    · exact listAllSources_eq found sorted (sourcesByArn_named tidy) least most _ 0
        (List.length_pos_iff.mpr empty) (by omega)
  | none =>
    have page : paginate (sourcesByArn store target.arn) none none =
        .ok ((sourcesByArn store target.arn).take 1000, none) := by
      unfold paginate
      change (Except.ok (((sourcesByArn store target.arn).drop 0).take 1000, _) : Result _) = _
      simp
    have listed : listDeadLetterSourceQueues store baseUrl queue none none =
        .ok (((sourcesByArn store target.arn).take 1000).map (queueUrl baseUrl), none) :=
      ok_bind found (ok_bind page rfl)
    rw [listAllSources, listed]
    rfl

/-- **The sources of a dead-letter queue.** In every run, the pages of the listing come to an end, and
name just the queues whose receives move messages into the queue exactly when the policies that do
so name it by its ARN; without `MaxResults`, there may also be no more than a thousand. -/
theorem sources_redrive {history : List SqsEvent} {store : Store} (served : ServiceRun history store)
    (baseUrl : String) {queue : String} {target : SqsQueue}
    (found : getQueue store queue = .ok target) {max : Option Int}
    (range : ∀ number, max = some number → 1 ≤ number ∧ number ≤ 1000) :
    ∃ names : List String, listAllSources store baseUrl queue max (store.queues.rows.length + 1) none =
        .ok (some (names.map (queueUrl baseUrl))) ∧ names.Nodup ∧
      ((∀ name, name ∈ names ↔
          ∃ source ∈ allQueues store, source.name = name ∧ RedrivesInto store source target) ↔
        NamedByArn store target ∧ (max = none → (sourcesByArn store target.arn).length ≤ 1000)) := by
  have tidy := served.tidy
  obtain ⟨row, here, named, shape⟩ := getQueue_row found
  have name : target.name = row.name := by rw [shape]; rfl
  have valid : validQueueName target.name = true := name ▸ tidy.named _ row here
  have own : findQueue store target.name = some target := by
    rw [name, named]
    exact getQueue_found found
  have nodup : (sourcesByArn store target.arn).Nodup :=
    (sourcesByArn_sorted tidy target.arn).imp fun less => ne_of_lt less
  refine ⟨listedNames (sourcesByArn store target.arn) max,
    listAllSources_listed tidy baseUrl found range, ?_, listed_iff tidy valid own max⟩
  unfold listedNames
  split
  · exact nodup
  · exact nodup.sublist (List.take_sublist ..)

/-! ### Accepted policies -/

/-- The policy that is stored. -/
def policyOf (target : String) (max : Int) : Json :=
  .obj [("deadLetterTargetArn", .str target), ("maxReceiveCount", .num max)]

theorem redrive_policy {queue : SqsQueue} {text target : String} {max : Int}
    (stored : queue.attributes["RedrivePolicy"]? = some text)
    (read : external.jsonFromStr text = some (policyOf target max))
    (small : -(2 ^ 63) ≤ max ∧ max < 2 ^ 63) : queue.redrive = some (target, max) := by
  have targetOf : (policyOf target max).get "deadLetterTargetArn" = some (.str target) := rfl
  have countOf : (policyOf target max).get "maxReceiveCount" = some (.num max) := rfl
  have count : (Json.num max).asI64 = some max := if_pos small
  refine Option.bind_eq_some_iff.mpr ⟨text, stored, ?_⟩
  refine Option.bind_eq_some_iff.mpr ⟨_, read, ?_⟩
  refine Option.bind_eq_some_iff.mpr ⟨_, targetOf, ?_⟩
  refine Option.bind_eq_some_iff.mpr ⟨target, rfl, ?_⟩
  refine Option.bind_eq_some_iff.mpr ⟨_, countOf, ?_⟩
  exact Option.bind_eq_some_iff.mpr ⟨max, by rw [count]; rfl, rfl⟩

/-- **An accepted policy is stored with the target that it states**, which names a queue. -/
theorem normalizeRedrive_target
    (reads : ∀ target max, external.jsonFromStr (external.jsonToString (policyOf target max)) =
      some (policyOf target max)) {store : Store} {value text : String} {fifo : Bool}
    (accepted : normalizeRedrive store value fifo = .ok text) (some' : value.isEmpty = false)
    {queue : SqsQueue} (stored : queue.attributes["RedrivePolicy"]? = some text) :
    ∃ parsed target max, external.jsonFromStr value = some parsed ∧
      (parsed.get "deadLetterTargetArn").bind Json.asStr = some target ∧
      queue.redrive = some (target, max) ∧ (findQueue store (queueNameOf target)).isSome = true := by
  unfold normalizeRedrive at accepted
  rw [if_neg (by rw [some']; exact Bool.false_ne_true)] at accepted
  cases given : external.jsonFromStr value with
  | none =>
    rw [given] at accepted
    cases accepted
  | some parsed =>
    simp only [given] at accepted
    cases arn : (parsed.get "deadLetterTargetArn").bind Json.asStr with
    | none =>
      simp only [arn] at accepted
      cases accepted
    | some target =>
      simp only [arn] at accepted
      split at accepted
      · rename_i max _
        obtain ⟨_, bounded, accepted⟩ := bind_ok accepted
        have range := not_not.mp (rejectIf_ok.mp bounded)
        cases here : findQueue store (queueNameOf target) with
        | none =>
          simp only [here] at accepted
          cases accepted
        | some dlq =>
          simp only [here] at accepted
          obtain ⟨_, _, accepted⟩ := bind_ok accepted
          have same : external.jsonToString (policyOf target max) = text := Except.ok.inj accepted
          refine ⟨parsed, target, max, rfl, arn, ?_, by rw [here]; rfl⟩
          refine redrive_policy stored ?_ (by omega)
          rw [← same]
          exact reads target max
      · cases accepted

end External

section Sample

/-- The policy that names the queue `dlq` by its bare name. -/
def barePolicy : String :=
  "\x7b\"deadLetterTargetArn\":\"dlq\",\"maxReceiveCount\":1\x7d"

/-- Crates that know this policy. -/
@[reducible]
def policyCrates : External where
  jsonFromStr text := if text = barePolicy then some (policyOf "dlq" 1) else none
  jsonToString _ := barePolicy
  sha256Hex := External.sample.sha256Hex
  md5Hex := External.sample.md5Hex
  parsesF64 _ := false
  uuid := External.sample.uuid

attribute [local instance] policyCrates

/-- A queue, and another one whose policy names it by its bare name. -/
def bareInputs : List Input :=
  [{ now := 0, request := .createQueue "dlq" "http://localhost:4566/000000000000/dlq" ∅ ∅ },
    { now := 0
      request := .createQueue "source" "http://localhost:4566/000000000000/source"
        ((∅ : BTreeMap String).insert "RedrivePolicy" barePolicy) ∅ }]

def bareStore : Store :=
  Run.final perform Store.empty bareInputs

/-- A receive from the queue `source` moves messages into `dlq`, and the listing does not name it. -/
theorem bare_source_missing :
    (((allQueues bareStore).filter fun source =>
        ((deadLetterQueue bareStore source).any fun found => found.1.name == "dlq")).map
          SqsQueue.name = ["source"]) ∧
      (listAllSources bareStore "http://localhost:4566" "dlq" none 3 none).toOption =
        some (some []) := by
  decide +kernel

theorem sources_redrive_sample : ∃ target, getQueue bareStore "dlq" = .ok target ∧
    ∃ names : List String, listAllSources bareStore "http://localhost:4566" "dlq" (some 1)
        (bareStore.queues.rows.length + 1) none =
        .ok (some (names.map (queueUrl "http://localhost:4566"))) ∧ names.Nodup ∧
      ((∀ name, name ∈ names ↔ ∃ source ∈ allQueues bareStore, source.name = name ∧
          RedrivesInto bareStore source target) ↔
        NamedByArn bareStore target ∧
          ((some 1 : Option Int) = none → (sourcesByArn bareStore target.arn).length ≤ 1000)) := by
  have served : ServiceRun (Run.trace perform Store.empty bareInputs) bareStore :=
    ServiceRun.of_inputs bareInputs (by decide)
  obtain ⟨target, found⟩ : ∃ target, (getQueue bareStore "dlq").toOption = some target :=
    Option.isSome_iff_exists.mp (by decide)
  refine ⟨target, ok_of_toOption found, ?_⟩
  refine sources_redrive served "http://localhost:4566" (ok_of_toOption found) fun number same => ?_
  cases same
  decide

end Sample

end CloudTwin.Sqs
