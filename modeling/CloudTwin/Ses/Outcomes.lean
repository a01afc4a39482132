/-
**Outcomes of a send** (`aws/ses/sending.rs`).

Each recipient has one outcome. The events, the statuses of the recipients and the inbox copy are read
off the list of outcomes, each in its own way.

* `sendOutcome` — what `send_email` makes of its recipients and the suppression list.
* `Place` — the event that a recipient belongs in.
* `recordSend_outcome` — the rows of an accepted send are those of its outcome.
* `outcomes_partition` — every recipient is in the event of its place, and in no other.
-/

import CloudTwin.Lib.Buckets
import CloudTwin.Ses.Sending

namespace CloudTwin.Ses

open Lib Lib.Text Lib.Buckets

/-! ### Outcomes -/

/-- The second text of `Outcome::Bounce`. -/
def diagnosticOf (subType : String) : String :=
  if subType = "General" then "smtp; 550 5.1.1 user unknown"
  else if subType = "Suppressed" then
    "Amazon SES has suppressed sending to this address because it has a recent history of bouncing " ++
      "as an invalid address."
  else
    "Amazon SES did not send the message to this address because it is on the suppression list for " ++
      "your account."

/-- The row of the suppression list that an address has. -/
def isSuppressed (table : List String) (email : String) : Bool :=
  table.contains (toAsciiLowercase (bareAddress email))

/-- The recipients that are looked up, and found. -/
def suppressedOf (table recipients : List String) : List String :=
  recipients.filter fun recipient => !isSimulator recipient && isSuppressed table recipient

def recipientOutcome (suppressed : List String) (recipient : String) : Outcome :=
  match simulatorOutcome recipient with
  | some (outcome, _) => outcome
  | none =>
    if suppressed.contains recipient then .bounce "OnAccountSuppressionList" else .delivered

/-- An event, with what its detail says of the recipients. -/
inductive MailEvent where
  | send
  | reject (reason : String)
  | delivery (recipients : List String)
  | bounce (subType diagnostic : String) (recipients : List String)
  | complaint (recipients : List String)
  | deliveryDelay (recipients : List String)
deriving DecidableEq

def MailEvent.eventType : MailEvent → String
  | .send => "Send"
  | .reject _ => "Reject"
  | .delivery _ => "Delivery"
  | .bounce _ _ _ => "Bounce"
  | .complaint _ => "Complaint"
  | .deliveryDelay _ => "DeliveryDelay"

def Outcome.statusName : Outcome → String
  | .bounce _ => "bounced"
  | .delayed => "delayed"
  | .complaint => "complained"
  | _ => "delivered"

/-- `Delivered | OutOfOffice | Complaint`. -/
def Outcome.arrives : Outcome → Bool
  | .delivered => true
  | .outOfOffice => true
  | .complaint => true
  | _ => false

/-- The addresses of the recipients with an outcome of a kind. -/
def pick (outcomes : List (String × Outcome)) (kind : Outcome → Bool) : List String :=
  (outcomes.filter fun entry => kind entry.2).map fun entry => bareAddress entry.1

/-- The order of the keys of `bounced`. -/
def bounceOrder (one other : String × String) : Prop :=
  one.1 < other.1 ∨ one.1 = other.1 ∧ one.2 ≤ other.2

instance : DecidableRel bounceOrder := fun _ _ => inferInstanceAs (Decidable (_ ∨ _))

/-- The addresses that bounced, each under its subtype and its diagnostic. -/
def bouncedItems (outcomes : List (String × Outcome)) : List ((String × String) × String) :=
  outcomes.filterMap fun entry =>
    match entry.2 with
    | .bounce subType => some ((subType, diagnosticOf subType), bareAddress entry.1)
    | _ => none

/-- One event with the addresses, if there are any. -/
def oneEvent (make : List String → MailEvent) (recipients : List String) : List MailEvent :=
  if recipients = [] then [] else [make recipients]

def detailEvents (outcomes : List (String × Outcome)) : List MailEvent :=
  oneEvent .delivery (pick outcomes Outcome.arrives) ++
    ((collect bounceOrder (bouncedItems outcomes)).map fun bucket =>
      .bounce bucket.1.1 bucket.1.2 bucket.2) ++
    oneEvent .complaint (pick outcomes (· == .complaint)) ++
    oneEvent .deliveryDelay (pick outcomes (· == .delayed))

/-- What a send records of its recipients. -/
structure SendOutcome where
  status : String
  recipientStatus : List (String × String)
  captured : Bool
  events : List MailEvent

/-- `recipient_status`, a map: the last entry of a recipient is the one that stays. -/
def SendOutcome.statusOf (outcome : SendOutcome) (recipient : String) : Option String :=
  (outcome.recipientStatus.reverse.find? fun entry => entry.1 == recipient).map Prod.snd

/-- `send_email`, from the outcomes of the recipients on. -/
def sendOutcome (table recipients : List String) : SendOutcome :=
  let suppressed := suppressedOf table recipients
  let rejected := recipients.any fun recipient => (simulatorOutcome recipient).any Prod.snd
  let outcomes := recipients.map fun recipient => (recipient, recipientOutcome suppressed recipient)
  { status := if rejected then "rejected" else "sent"
    recipientStatus := outcomes.map fun entry =>
      (entry.1, if rejected then "rejected" else entry.2.statusName)
    captured := !rejected && outcomes.any fun entry => !entry.2.isBounce
    events := .send :: if rejected then [.reject "Bad content"] else detailEvents outcomes }

/-! ### Simulator addresses -/

theorem toLower_eq_at (char : Char) : char.toLower = '@' ↔ char = '@' := by
  unfold Char.toLower
  split
  · rename_i upper
    have low : 65 ≤ char.val.toNat := upper.1
    have high : char.val.toNat ≤ 90 := upper.2
    constructor
    · intro same
      have value := congrArg (fun char : Char => char.val.toNat) same
      have sum : (char.val + ('a'.val - 'A'.val)).toNat = 64 := value
      rw [UInt32.toNat_add, show ('a'.val - 'A'.val).toNat = 32 from rfl] at sum
      omega
    · rintro rfl
      exact absurd low (by decide)
  · exact Iff.rfl

theorem mem_toAsciiLowercase_at (text : String) :
    '@' ∈ (toAsciiLowercase text).toList ↔ '@' ∈ text.toList := by
  rw [toAsciiLowercase, String.toList_ofList, List.mem_map]
  constructor
  · rintro ⟨char, member, lower⟩
    exact (toLower_eq_at char).mp lower ▸ member
  · exact fun member => ⟨'@', member, rfl⟩

theorem afterLast_toAsciiLowercase (text : String) :
    afterLast '@' (toAsciiLowercase text) = toAsciiLowercase (afterLast '@' text) := by
  have same : (fun char : Char => char != '@') ∘ Char.toLower = fun char => char != '@' := by
    funext char
    rw [Function.comp_apply, Bool.eq_iff_iff, bne_iff_ne, bne_iff_ne, ne_eq, ne_eq, toLower_eq_at]
  unfold afterLast toAsciiLowercase
  rw [String.toList_ofList, String.toList_ofList, ← List.map_reverse, List.takeWhile_map, same,
    List.map_reverse]

theorem isSimulator_iff (recipient : String) :
    isSimulator recipient = true ↔ '@' ∈ (toAsciiLowercase (bareAddress recipient)).toList ∧
      afterLast '@' (toAsciiLowercase (bareAddress recipient)) = simulatorDomain := by
  rw [mem_toAsciiLowercase_at, afterLast_toAsciiLowercase]
  unfold isSimulator addressDomain
  by_cases addressed : '@' ∈ (bareAddress recipient).toList
  · simp [addressed]
  · simp [addressed]

/-- **One test for simulator addresses**: the domain decides, in both places. -/
theorem simulatorOutcome_isSome (recipient : String) :
    (simulatorOutcome recipient).isSome = isSimulator recipient := by
  rw [Bool.eq_iff_iff, isSimulator_iff]
  unfold simulatorOutcome
  dsimp only
  split
  · rename_i simulator
    refine ⟨fun _ => simulator, fun _ => ?_⟩
    split_ifs <;> rfl
  · rename_i other
    exact ⟨fun wrong => absurd wrong Bool.false_ne_true, fun simulator => absurd simulator other⟩

/-- The reject address of the simulator, with any label. -/
def IsRejectSimulator (recipient : String) : Prop :=
  isSimulator recipient = true ∧
    beforeFirst '+' (beforeLast '@' (toAsciiLowercase (bareAddress recipient))) = "reject"

instance : DecidablePred IsRejectSimulator := fun _ => inferInstanceAs (Decidable (_ ∧ _))

theorem simulatorOutcome_rejects (recipient : String) :
    (simulatorOutcome recipient).any Prod.snd = true ↔ IsRejectSimulator recipient := by
  rw [IsRejectSimulator, isSimulator_iff]
  unfold simulatorOutcome
  dsimp only
  generalize beforeFirst '+' (beforeLast '@' (toAsciiLowercase (bareAddress recipient))) = user
  split
  · rename_i simulator
    by_cases rejects : user = "reject"
    · rw [rejects]
      exact ⟨fun _ => ⟨simulator, rfl⟩, fun _ => by decide⟩
    · constructor
      · intro some'
        exfalso
        revert some'
        split_ifs <;> exact fun wrong => absurd wrong Bool.false_ne_true
      · exact fun both => absurd both.2 rejects
  · rename_i other
    exact ⟨fun wrong => absurd wrong Bool.false_ne_true, fun both => absurd both.1 other⟩

theorem recipientOutcome_simulator {recipient : String} (simulator : isSimulator recipient = true)
    (first second : List String) :
    recipientOutcome first recipient = recipientOutcome second recipient := by
  rw [← simulatorOutcome_isSome] at simulator
  obtain ⟨outcome, simulated⟩ := Option.isSome_iff_exists.mp simulator
  unfold recipientOutcome
  rw [simulated]

theorem simulatorOutcome_none {recipient : String} (real : isSimulator recipient = false) :
    simulatorOutcome recipient = none := by
  rw [← simulatorOutcome_isSome] at real
  cases simulated : simulatorOutcome recipient with
  | none => rfl
  | some found =>
    rw [simulated] at real
    cases real

theorem recipientOutcome_suppressed {table recipients : List String} {recipient : String}
    (member : recipient ∈ recipients) (real : isSimulator recipient = false)
    (listed : isSuppressed table recipient = true) :
    recipientOutcome (suppressedOf table recipients) recipient = .bounce "OnAccountSuppressionList" := by
  have found : (suppressedOf table recipients).contains recipient = true := by
    rw [List.contains_iff_mem, suppressedOf, List.mem_filter]
    exact ⟨member, by rw [real, listed]; rfl⟩
  unfold recipientOutcome
  rw [simulatorOutcome_none real]
  exact if_pos found

/-- The outcome of a recipient is the one that the tables alone give. -/
theorem recipientOutcome_eq (store : SendStore) {recipients : List String} {recipient : String}
    (member : recipient ∈ recipients) :
    recipientOutcome (suppressedOf store.suppressed recipients) recipient =
      outcomeOf store recipient := by
  cases real : isSimulator recipient with
  | true =>
    rw [← simulatorOutcome_isSome] at real
    obtain ⟨outcome, simulated⟩ := Option.isSome_iff_exists.mp real
    unfold recipientOutcome outcomeOf
    rw [simulated]
  | false =>
    have found : (suppressedOf store.suppressed recipients).contains recipient = true ↔
        toAsciiLowercase (bareAddress recipient) ∈ store.suppressed := by
      rw [List.contains_iff_mem, suppressedOf, List.mem_filter, real, isSuppressed, Bool.not_false,
        Bool.true_and, List.contains_iff_mem]
      exact ⟨fun both => both.2, fun listed => ⟨member, listed⟩⟩
    unfold recipientOutcome outcomeOf
    rw [simulatorOutcome_none real]
    exact if_congr found rfl rfl

/-! ### Places -/

/-- The event that a recipient belongs in. -/
inductive Place where
  | delivery
  | bounce (subType diagnostic : String)
  | deliveryDelay
deriving DecidableEq

def Outcome.place : Outcome → Place
  | .bounce subType => .bounce subType (diagnosticOf subType)
  | .delayed => .deliveryDelay
  | _ => .delivery

def MailEvent.place : MailEvent → Option Place
  | .delivery _ => some .delivery
  | .bounce subType diagnostic _ => some (.bounce subType diagnostic)
  | .deliveryDelay _ => some .deliveryDelay
  | _ => none

/-- The recipients that an event names. -/
def MailEvent.recipients : MailEvent → List String
  | .delivery recipients => recipients
  | .bounce _ _ recipients => recipients
  | .complaint recipients => recipients
  | .deliveryDelay recipients => recipients
  | _ => []

/-- The status of a recipient in an event. -/
def statusIn (complains : Bool) : Place → String
  | .bounce _ _ => "bounced"
  | .deliveryDelay => "delayed"
  | .delivery => if complains then "complained" else "delivered"

theorem statusName_eq (outcome : Outcome) :
    outcome.statusName = statusIn (outcome == .complaint) outcome.place := by
  cases outcome <;> rfl

theorem arrives_eq (outcome : Outcome) : outcome.arrives = (outcome.place == .delivery) := by
  cases outcome <;> rfl

theorem delayed_eq (outcome : Outcome) : (outcome == .delayed) = (outcome.place == .deliveryDelay) := by
  cases outcome <;> rfl

theorem isBounce_iff (outcome : Outcome) :
    outcome.isBounce = true ↔ ∃ subType diagnostic, outcome.place = .bounce subType diagnostic := by
  cases outcome with
  | bounce subType => exact ⟨fun _ => ⟨_, _, rfl⟩, fun _ => rfl⟩
  | _ => exact ⟨fun wrong => absurd wrong Bool.false_ne_true, fun ⟨_, _, wrong⟩ => by cases wrong⟩

theorem pick_congr {outcomes : List (String × Outcome)} {kind other : Outcome → Bool}
    (same : ∀ outcome, kind outcome = other outcome) : pick outcomes kind = pick outcomes other := by
  rw [funext same]

theorem pick_ne_nil {outcomes : List (String × Outcome)} {kind : Outcome → Bool}
    {entry : String × Outcome} (member : entry ∈ outcomes) (here : kind entry.2 = true) :
    pick outcomes kind ≠ [] := by
  intro empty
  have inside : bareAddress entry.1 ∈ pick outcomes kind :=
    List.mem_map_of_mem (List.mem_filter.mpr ⟨member, here⟩)
  rw [empty] at inside
  exact List.not_mem_nil inside

/-- What is collected under a bounce is what belongs there. -/
theorem under_bouncedItems (outcomes : List (String × Outcome)) (subType diagnostic : String) :
    under (bouncedItems outcomes) (subType, diagnostic) =
      pick outcomes (·.place == .bounce subType diagnostic) := by
  induction outcomes with
  | nil => rfl
  | cons entry outcomes ih =>
    obtain ⟨recipient, outcome⟩ := entry
    have other : ∀ items : List ((String × String) × String), outcome.isBounce = false →
        bouncedItems ((recipient, outcome) :: outcomes) = bouncedItems outcomes := by
      intro items lands
      cases outcome with
      | bounce _ => cases lands
      | _ => rfl
    have head : pick ((recipient, outcome) :: outcomes) (·.place == .bounce subType diagnostic) =
        (if outcome.place = .bounce subType diagnostic then [bareAddress recipient] else []) ++
          pick outcomes (·.place == .bounce subType diagnostic) := by
      unfold pick
      rw [List.filter_cons]
      by_cases here : outcome.place = .bounce subType diagnostic
      · simp [here]
      · simp [here]
    rw [head, ← ih]
    cases outcome with
    | bounce kind =>
      have items : bouncedItems ((recipient, .bounce kind) :: outcomes) =
          [((kind, diagnosticOf kind), bareAddress recipient)] ++ bouncedItems outcomes := rfl
      rw [items, under_append]
      refine congrArg (· ++ _) ?_
      by_cases here : (kind, diagnosticOf kind) = (subType, diagnostic)
      · have place : Outcome.place (.bounce kind) = .bounce subType diagnostic := by
          obtain ⟨rfl, rfl⟩ := Prod.mk.inj here
          rfl
        rw [here, under_same, if_pos place]
      · have place : ¬ Outcome.place (.bounce kind) = .bounce subType diagnostic := by
          intro same
          obtain ⟨rfl, rfl⟩ := Place.bounce.inj same
          exact here rfl
        rw [under_other here, if_neg place]
    | _ =>
      rw [if_neg (fun wrong => by cases wrong)]
      rfl

/-! ### Events -/

theorem mem_oneEvent {make : List String → MailEvent} {recipients : List String} {event : MailEvent} :
    event ∈ oneEvent make recipients ↔ event = make recipients ∧ recipients ≠ [] := by
  unfold oneEvent
  split
  · rename_i empty
    exact ⟨fun wrong => absurd wrong List.not_mem_nil, fun both => absurd empty both.2⟩
  · rename_i some'
    rw [List.mem_singleton]
    exact ⟨fun same => ⟨same, some'⟩, fun both => both.1⟩

/-- The events, one kind after the other. -/
theorem mem_detailEvents {outcomes : List (String × Outcome)} {event : MailEvent} :
    event ∈ detailEvents outcomes ↔
      (event = .delivery (pick outcomes (·.place == .delivery)) ∧
        pick outcomes (·.place == .delivery) ≠ []) ∨
      (∃ subType diagnostic,
        event = .bounce subType diagnostic (pick outcomes (·.place == .bounce subType diagnostic)) ∧
        pick outcomes (·.place == .bounce subType diagnostic) ≠ []) ∨
      (event = .complaint (pick outcomes (· == .complaint)) ∧ pick outcomes (· == .complaint) ≠ []) ∨
      event = .deliveryDelay (pick outcomes (·.place == .deliveryDelay)) ∧
        pick outcomes (·.place == .deliveryDelay) ≠ [] := by
  have bounces : event ∈ (collect bounceOrder (bouncedItems outcomes)).map (fun bucket =>
      MailEvent.bounce bucket.1.1 bucket.1.2 bucket.2) ↔ ∃ subType diagnostic,
        event = .bounce subType diagnostic (pick outcomes (·.place == .bounce subType diagnostic)) ∧
        pick outcomes (·.place == .bounce subType diagnostic) ≠ [] := by
    rw [List.mem_map]
    constructor
    · rintro ⟨⟨⟨subType, diagnostic⟩, values⟩, member, rfl⟩
      have held := ((collect_spec bounceOrder (bouncedItems outcomes)).values _ _).mp member
      rw [under_bouncedItems] at held
      exact ⟨subType, diagnostic, by rw [held.1], held.1 ▸ held.2⟩
    · rintro ⟨subType, diagnostic, rfl, some'⟩
      refine ⟨((subType, diagnostic), _), ?_, rfl⟩
      rw [(collect_spec bounceOrder (bouncedItems outcomes)).values, under_bouncedItems]
      exact ⟨rfl, some'⟩
  unfold detailEvents
  rw [List.mem_append, List.mem_append, List.mem_append, mem_oneEvent, mem_oneEvent, mem_oneEvent,
    bounces, pick_congr arrives_eq, pick_congr delayed_eq, or_assoc, or_assoc]

/-- **An event names the recipients of its place.** -/
theorem detailEvents_recipients {outcomes : List (String × Outcome)} {event : MailEvent}
    (member : event ∈ detailEvents outcomes) {place : Place} (placed : event.place = some place) :
    event.recipients = pick outcomes (·.place == place) := by
  rcases mem_detailEvents.mp member with ⟨rfl, _⟩ | ⟨subType, diagnostic, rfl, _⟩ | ⟨rfl, _⟩ | ⟨rfl, _⟩
  · cases placed
    rfl
  · cases placed
    rfl
  · cases placed
  · cases placed
    rfl

/-- **Every recipient is in an event.** -/
theorem detailEvents_exists {outcomes : List (String × Outcome)} {entry : String × Outcome}
    (member : entry ∈ outcomes) :
    ∃ event ∈ detailEvents outcomes, event.place = some entry.2.place := by
  have some' : pick outcomes (·.place == entry.2.place) ≠ [] :=
    pick_ne_nil member (beq_self_eq_true _)
  cases place : entry.2.place with
  | delivery =>
    rw [place] at some'
    exact ⟨_, mem_detailEvents.mpr (Or.inl ⟨rfl, some'⟩), rfl⟩
  | bounce subType diagnostic =>
    rw [place] at some'
    exact ⟨_, mem_detailEvents.mpr (Or.inr (Or.inl ⟨_, _, rfl, some'⟩)), rfl⟩
  | deliveryDelay =>
    rw [place] at some'
    exact ⟨_, mem_detailEvents.mpr (Or.inr (Or.inr (Or.inr ⟨rfl, some'⟩))), rfl⟩

theorem oneEvent_places (make : List String → MailEvent) (place : Option Place)
    (placed : ∀ recipients, (make recipients).place = place) (recipients : List String) :
    (oneEvent make recipients).filterMap MailEvent.place =
      if recipients = [] then [] else place.toList := by
  unfold oneEvent
  split
  · rfl
  · rw [List.filterMap_cons, placed]
    cases place <;> rfl

/-- **No place has two events.** -/
theorem detailEvents_nodup (outcomes : List (String × Outcome)) :
    ((detailEvents outcomes).filterMap MailEvent.place).Nodup := by
  have keys := (collect_spec bounceOrder (bouncedItems outcomes)).keys
  have bounces : ((collect bounceOrder (bouncedItems outcomes)).map (fun bucket =>
      MailEvent.bounce bucket.1.1 bucket.1.2 bucket.2)).filterMap MailEvent.place =
      ((collect bounceOrder (bouncedItems outcomes)).map Prod.fst).map fun key =>
        Place.bounce key.1 key.2 := by
    rw [List.filterMap_map, List.map_map, ← List.filterMap_eq_map]
    rfl
  have distinct : (((collect bounceOrder (bouncedItems outcomes)).map Prod.fst).map fun key =>
      Place.bounce key.1 key.2).Nodup := by
    refine keys.map ?_
    rintro ⟨one, two⟩ ⟨three, four⟩ same
    obtain ⟨rfl, rfl⟩ := Place.bounce.inj same
    rfl
  unfold detailEvents
  rw [List.filterMap_append, List.filterMap_append, List.filterMap_append, bounces,
    oneEvent_places .delivery (some .delivery) fun _ => rfl,
    oneEvent_places .complaint none fun _ => rfl,
    oneEvent_places .deliveryDelay (some .deliveryDelay) fun _ => rfl]
  generalize ((collect bounceOrder (bouncedItems outcomes)).map Prod.fst) = list at distinct
  have noDelivery : Place.delivery ∉ list.map fun key => Place.bounce key.1 key.2 := by
    rw [List.mem_map]
    rintro ⟨_, _, wrong⟩
    cases wrong
  have noDelay : ∀ place ∈ list.map fun key => Place.bounce key.1 key.2, ¬ place = .deliveryDelay := by
    intro place member same
    obtain ⟨_, _, bounce⟩ := List.mem_map.mp member
    rw [same] at bounce
    cases bounce
  generalize (list.map fun key => Place.bounce key.1 key.2) = places at distinct noDelivery noDelay
  clear bounces keys
  split_ifs <;> simp_all [List.nodup_append]

/-! ### The rows of a send -/

/-- The bounces there are. -/
def subTypes : List String := ["General", "OnAccountSuppressionList", "Suppressed"]

theorem recipientOutcome_bounce {suppressed : List String} {recipient subType : String}
    (bounced : recipientOutcome suppressed recipient = .bounce subType) : subType ∈ subTypes := by
  have simulated : ∀ outcome rejects, simulatorOutcome recipient = some (outcome, rejects) →
      outcome = .bounce subType → subType ∈ subTypes := by
    intro outcome rejects found bounced
    unfold simulatorOutcome at found
    dsimp only at found
    rw [bounced] at found
    split_ifs at found <;> cases found <;> decide
  unfold recipientOutcome at bounced
  split at bounced
  · rename_i outcome rejects found
    exact simulated outcome rejects found bounced
  · split at bounced
    · cases bounced
      decide
    · cases bounced

theorem oneEvent_types (make : List String → MailEvent) (name : String)
    (named : ∀ recipients, (make recipients).eventType = name) (outcomes : List (String × Outcome))
    (kind : Outcome → Bool) :
    (oneEvent make (pick outcomes kind)).map MailEvent.eventType =
      if (outcomes.map Prod.snd).any kind then [name] else [] := by
  by_cases empty : pick outcomes kind = []
  · have none : ¬ (outcomes.map Prod.snd).any kind = true := by
      rw [List.any_map, List.any_eq_true]
      rintro ⟨entry, member, here⟩
      exact pick_ne_nil member here empty
    rw [oneEvent, if_pos empty, if_neg none]
    rfl
  · have some' : (outcomes.map Prod.snd).any kind = true := by
      rw [List.any_map, List.any_eq_true]
      obtain ⟨address, member⟩ := List.exists_mem_of_ne_nil _ empty
      obtain ⟨entry, inside, _⟩ := List.mem_map.mp member
      exact ⟨entry, (List.mem_filter.mp inside).1, (List.mem_filter.mp inside).2⟩
    rw [oneEvent, if_neg empty, if_pos some', List.map_singleton, named]

/-- One bucket for each kind of bounce that occurs. -/
theorem collect_length (outcomes : List (String × Outcome))
    (known : ∀ entry ∈ outcomes, ∀ subType, entry.2 = .bounce subType → subType ∈ subTypes) :
    (collect bounceOrder (bouncedItems outcomes)).length =
      (subTypes.filter fun subType => (outcomes.map Prod.snd).contains (.bounce subType)).length := by
  have holds := collect_spec bounceOrder (bouncedItems outcomes)
  have distinct : ((subTypes.filter fun subType =>
      (outcomes.map Prod.snd).contains (.bounce subType)).map fun subType =>
        (subType, diagnosticOf subType)).Nodup := by
    refine (List.Nodup.filter _ (by decide)).map ?_
    exact fun one other same => (Prod.mk.inj same).1
  have same : ((collect bounceOrder (bouncedItems outcomes)).map Prod.fst).Perm
      ((subTypes.filter fun subType => (outcomes.map Prod.snd).contains (.bounce subType)).map
        fun subType => (subType, diagnosticOf subType)) := by
    rw [List.perm_ext_iff_of_nodup holds.keys distinct]
    rintro ⟨subType, diagnostic⟩
    rw [List.mem_map, List.mem_map]
    constructor
    · rintro ⟨⟨key, values⟩, member, rfl⟩
      have held := (holds.values _ _).mp member
      rw [under_bouncedItems] at held
      obtain ⟨address, inside⟩ := List.exists_mem_of_ne_nil _ held.2
      rw [held.1] at inside
      obtain ⟨entry, there, _⟩ := List.mem_map.mp inside
      obtain ⟨inOutcomes, here⟩ := List.mem_filter.mp there
      have place : entry.2.place = .bounce subType diagnostic := beq_iff_eq.mp here
      cases outcome : entry.2 with
      | bounce kind =>
        rw [outcome] at place
        obtain ⟨rfl, rfl⟩ := Place.bounce.inj place
        refine ⟨kind, List.mem_filter.mpr ⟨known entry inOutcomes kind outcome, ?_⟩, rfl⟩
        rw [List.contains_iff_mem]
        exact outcome ▸ List.mem_map_of_mem inOutcomes
      | _ =>
        rw [outcome] at place
        cases place
    · rintro ⟨kind, member, equal⟩
      obtain ⟨rfl, rfl⟩ := Prod.mk.inj equal
      have occurs := (List.mem_filter.mp member).2
      rw [List.contains_iff_mem] at occurs
      obtain ⟨entry, inOutcomes, outcome⟩ := List.mem_map.mp occurs
      have here : (entry.2.place == .bounce kind (diagnosticOf kind)) = true := by
        rw [outcome]
        exact beq_self_eq_true _
      refine ⟨((kind, diagnosticOf kind), _), (holds.values _ _).mpr ⟨rfl, ?_⟩, rfl⟩
      rw [under_bouncedItems]
      exact pick_ne_nil inOutcomes here
  have lengths := same.length_eq
  rw [List.length_map, List.length_map] at lengths
  exact lengths

/-- **The types of the events** are those of the rows. -/
theorem detailEvents_types (outcomes : List (String × Outcome))
    (known : ∀ entry ∈ outcomes, ∀ subType, entry.2 = .bounce subType → subType ∈ subTypes) :
    (detailEvents outcomes).map MailEvent.eventType = eventTypes (outcomes.map Prod.snd) := by
  have bounces : ((collect bounceOrder (bouncedItems outcomes)).map (fun bucket =>
      MailEvent.bounce bucket.1.1 bucket.1.2 bucket.2)).map MailEvent.eventType =
      (subTypes.filter fun subType => (outcomes.map Prod.snd).contains (.bounce subType)).map
        fun _ => "Bounce" := by
    rw [List.map_map]
    show (collect bounceOrder (bouncedItems outcomes)).map (fun _ => "Bounce") = _
    rw [List.map_const', List.map_const', collect_length outcomes known]
  unfold detailEvents eventTypes
  rw [List.map_append, List.map_append, List.map_append, bounces,
    oneEvent_types .delivery "Delivery" fun _ => rfl, oneEvent_types .complaint "Complaint" fun _ => rfl,
    oneEvent_types .deliveryDelay "DeliveryDelay" fun _ => rfl]
  generalize outcomes.map Prod.snd = list
  have several : (fun outcome => [Outcome.delivered, .outOfOffice, .complaint].contains outcome) =
      Outcome.arrives := by
    funext outcome
    cases outcome <;> rfl
  have single : ∀ other : Outcome, (fun outcome => [other].contains outcome) =
      fun outcome => outcome == other := by
    intro other
    funext outcome
    rw [List.contains_cons, List.contains_nil, Bool.or_false]
  have occurs : ∀ other : Outcome, list.contains other = list.any (· == other) := by
    intro other
    rw [List.contains_eq_any_beq]
    exact congrArg _ (funext fun outcome => BEq.comm)
  have kinds : (subTypes.filter fun subType => list.contains (.bounce subType)).map (fun _ => "Bounce") =
      (if list.any (· == .bounce "General") then ["Bounce"] else []) ++
        (if list.any (· == .bounce "OnAccountSuppressionList") then ["Bounce"] else []) ++
        if list.any (· == .bounce "Suppressed") then ["Bounce"] else [] := by
    unfold subTypes
    simp only [occurs, List.filter_cons, List.filter_nil]
    split_ifs <;> rfl
  simp only [several, single, kinds, List.append_assoc]

/-- What the rows of a send say of its outcome. -/
structure Recorded (store after : SendStore) (messageId : String) (req : SendRequest)
    (sent : SendOutcome) : Prop where
  messages : ∃ row, after.messages = store.messages ++ [row] ∧ row.messageId = messageId ∧
    row.destinations = req.recipients ∧ row.status = sent.status
  inbox : after.inbox = if sent.captured then store.inbox ++ [messageId] else store.inbox
  events : after.events =
    store.events ++ sent.events.map fun event => (messageId, event.eventType)

/-- **The rows of an accepted send** are those of its outcome. -/
theorem recordSend_outcome (store : SendStore) (messageId : String) (req : SendRequest)
    (subject : String) (configurationSet : Option String) :
    Recorded store (recordSend store messageId req subject configurationSet) messageId req
      (sendOutcome store.suppressed req.recipients) := by
  have agree : ∀ recipient ∈ req.recipients,
      recipientOutcome (suppressedOf store.suppressed req.recipients) recipient =
        outcomeOf store recipient := fun recipient member => recipientOutcome_eq store member
  have bounces : ∀ recipient subType,
      recipientOutcome (suppressedOf store.suppressed req.recipients) recipient = .bounce subType →
        subType ∈ subTypes := fun recipient subType bounced => recipientOutcome_bounce bounced
  unfold sendOutcome
  dsimp only
  generalize recipientOutcome (suppressedOf store.suppressed req.recipients) = outcome at agree bounces ⊢
  have outcomes : (req.recipients.map fun recipient => (recipient, outcome recipient)).map Prod.snd =
      req.recipients.map (outcomeOf store) := by
    rw [List.map_map]
    exact List.map_congr_left agree
  have known : ∀ entry ∈ req.recipients.map (fun recipient => (recipient, outcome recipient)),
      ∀ subType, entry.2 = .bounce subType → subType ∈ subTypes := by
    intro entry member subType bounced
    obtain ⟨recipient, _, rfl⟩ := List.mem_map.mp member
    exact bounces recipient subType bounced
  have types := detailEvents_types _ known
  rw [outcomes] at types
  unfold recordSend
  dsimp only
  generalize (req.recipients.any fun recipient => (simulatorOutcome recipient).any Prod.snd) = rejected
  refine ⟨⟨_, rfl, rfl, rfl, rfl⟩, ?_, ?_⟩
  · dsimp only
    rw [← outcomes, List.any_map]
    simp only [Function.comp_def]
  · dsimp only
    cases rejected with
    | true =>
      rw [if_pos rfl, if_pos rfl]
      rfl
    | false =>
      rw [if_neg Bool.false_ne_true, if_neg Bool.false_ne_true, ← types, List.map_cons, List.map_map]
      rfl

theorem withIdentity_accepted {store : SendStore} {messageId subject id : String} {req : SendRequest}
    {identity : Option SesIdentity}
    (accepted : (withIdentity store messageId req subject identity).1 = .ok id) :
    ∃ configurationSet, (withIdentity store messageId req subject identity).2 =
      recordSend store messageId req subject configurationSet := by
  unfold withIdentity at accepted ⊢
  simp only at accepted ⊢
  split
  · rename_i unknown
    rw [if_pos unknown] at accepted
    cases accepted
  · rename_i known
    rw [if_neg known] at accepted
    split
    · rename_i refused
      rw [if_pos refused] at accepted
      cases accepted
    · exact ⟨_, rfl⟩

theorem withAddresses_accepted {store : SendStore} {now : Int} {messageId subject id : String}
    {req : SendRequest} (accepted : (withAddresses store now messageId req subject).1 = .ok id) :
    ∃ seen configurationSet, MovedOn now store seen ∧
      (withAddresses store now messageId req subject).2 =
        recordSend seen messageId req subject configurationSet := by
  obtain ⟨_, moved⟩ := firstVerified_spec now (candidates (bareAddress req.fromAddress)) store
  rw [← sendingIdentity] at moved
  unfold withAddresses at accepted ⊢
  simp only at accepted ⊢
  split
  · rename_i strict
    rw [if_pos strict] at accepted
    cases accepted
  · rename_i passes
    rw [if_neg passes] at accepted
    by_cases production : store.productionAccessEnabled = true
    · simp only [if_pos production, ne_eq, not_true_eq_false, if_false] at accepted ⊢
      obtain ⟨configurationSet, after⟩ := withIdentity_accepted accepted
      exact ⟨_, configurationSet, moved, after⟩
    · simp only [if_neg production] at accepted ⊢
      obtain ⟨_, movedAll⟩ := unverifiedOf_spec now req.recipients
        (sendingIdentity store now (bareAddress req.fromAddress)).2
      split
      · rename_i some'
        rw [if_pos some'] at accepted
        cases accepted
      · rename_i all
        rw [if_neg all] at accepted
        obtain ⟨configurationSet, after⟩ := withIdentity_accepted accepted
        exact ⟨_, configurationSet, moved.trans movedAll, after⟩

section Parser

variable [MailParser]

theorem sendEmail_accepted {store : SendStore} {now : Int} {messageId id : String} {req : SendRequest}
    (accepted : (sendEmail store now messageId req).1 = .ok id) :
    sendEmail store now messageId req =
      withAddresses store now messageId req.withHeaders.1 req.withHeaders.2 := by
  unfold sendEmail at accepted ⊢
  simp only at accepted ⊢
  split
  · rename_i paused
    rw [if_pos paused] at accepted
    cases accepted
  rename_i enabled
  rw [if_neg enabled] at accepted
  split
  · rename_i long
    rw [if_pos long] at accepted
    cases accepted
  rename_i small
  rw [if_neg small] at accepted
  split
  · rename_i anonymous
    rw [if_pos anonymous] at accepted
    cases accepted
  rename_i sender
  rw [if_neg sender] at accepted
  split
  · rename_i unaddressed
    rw [if_pos unaddressed] at accepted
    cases accepted
  rename_i addressed
  rw [if_neg addressed] at accepted
  split
  · rename_i many
    rw [if_pos many] at accepted
    cases accepted
  · rfl

/-- **An accepted send** records the outcome of the message whose addresses it reads. -/
theorem sendEmail_outcome {store : SendStore} {now : Int} {messageId id : String} {req : SendRequest}
    (accepted : (sendEmail store now messageId req).1 = .ok id) :
    Recorded store (sendEmail store now messageId req).2 messageId req.withHeaders.1
      (sendOutcome store.suppressed req.withHeaders.1.recipients) := by
  have addresses := sendEmail_accepted accepted
  rw [addresses] at accepted ⊢
  obtain ⟨seen, configurationSet, moved, after⟩ := withAddresses_accepted accepted
  have recorded := recordSend_outcome seen messageId req.withHeaders.1 req.withHeaders.2
    configurationSet
  have suppressed : seen.suppressed = store.suppressed := by rw [moved.rest]
  have written := moved.written
  obtain ⟨messages, rest⟩ := Prod.mk.inj written
  obtain ⟨inbox, events⟩ := Prod.mk.inj rest
  rw [after]
  rw [suppressed] at recorded
  exact ⟨messages ▸ recorded.messages, inbox ▸ recorded.inbox, events ▸ recorded.events⟩

end Parser

/-! ### The partition -/

/-- What is said of the recipients of a rejected message. -/
structure Rejected (recipients : List String) (sent : SendOutcome) : Prop where
  events : sent.events = [.send, .reject "Bad content"]
  captured : sent.captured = false
  status : ∀ recipient ∈ recipients, sent.statusOf recipient = some "rejected"

/-- What is said of the recipients of another message. -/
structure Partitioned (table recipients : List String) (sent : SendOutcome)
    (outcome : String → Outcome) : Prop where
  send : ∃ details, sent.events = .send :: details ∧
    ∀ event ∈ details, event.eventType ≠ "Send" ∧ event.eventType ≠ "Reject"
  somewhere : ∀ recipient ∈ recipients, ∃ event ∈ sent.events,
    event.place = some (outcome recipient).place
  once : (sent.events.filterMap MailEvent.place).Nodup
  listed : ∀ event ∈ sent.events, ∀ place, event.place = some place →
    event.recipients =
      (recipients.filter fun recipient => (outcome recipient).place == place).map bareAddress
  complains : ∀ recipient ∈ recipients, outcome recipient = .complaint →
    ∃ complained, MailEvent.complaint complained ∈ sent.events
  complained : ∀ complained, MailEvent.complaint complained ∈ sent.events →
    complained =
      (recipients.filter fun recipient => outcome recipient == .complaint).map bareAddress ∧
    ∃ delivered, MailEvent.delivery delivered ∈ sent.events ∧ complained.Sublist delivered
  status : ∀ recipient ∈ recipients, sent.statusOf recipient =
    some (statusIn (outcome recipient == .complaint) (outcome recipient).place)
  suppressed : ∀ recipient ∈ recipients, isSimulator recipient = false →
    isSuppressed table recipient = true →
      ∃ subType diagnostic, (outcome recipient).place = .bounce subType diagnostic
  simulator : ∀ recipient, isSimulator recipient = true → ∀ other,
    recipientOutcome other recipient = outcome recipient
  captured : sent.captured = true ↔ ∃ recipient ∈ recipients,
    ¬ ∃ subType diagnostic, (outcome recipient).place = .bounce subType diagnostic

theorem pick_map (recipients : List String) (outcome : String → Outcome) (kind : Outcome → Bool) :
    pick (recipients.map fun recipient => (recipient, outcome recipient)) kind =
      (recipients.filter fun recipient => kind (outcome recipient)).map bareAddress := by
  unfold pick
  rw [List.filter_map, List.map_map]
  simp only [Function.comp_def]

/-- The status of a recipient is the one its outcome has: repeated recipients have one outcome. -/
theorem statusOf_eq (recipients : List String) (status : String → String) {recipient : String}
    (member : recipient ∈ recipients) (sent : SendOutcome)
    (kept : sent.recipientStatus = recipients.map fun recipient => (recipient, status recipient)) :
    sent.statusOf recipient = some (status recipient) := by
  unfold SendOutcome.statusOf
  rw [kept]
  cases found : ((recipients.map fun recipient => (recipient, status recipient)).reverse.find?
      fun entry => entry.1 == recipient) with
  | none =>
    have inside : (recipient, status recipient) ∈
        (recipients.map fun recipient => (recipient, status recipient)).reverse :=
      List.mem_reverse.mpr (List.mem_map_of_mem member)
    have absent := List.find?_eq_none.mp found _ inside
    exact absurd (beq_self_eq_true recipient) absent
  | some entry =>
    have inside := List.mem_of_find?_eq_some found
    obtain ⟨other, _, rfl⟩ := List.mem_map.mp (List.mem_reverse.mp inside)
    have found' := List.find?_some found
    have same : other = recipient := beq_iff_eq.mp found'
    rw [same]
    rfl

theorem detailEvents_types_ne {outcomes : List (String × Outcome)} {event : MailEvent}
    (member : event ∈ detailEvents outcomes) :
    event.eventType ≠ "Send" ∧ event.eventType ≠ "Reject" := by
  rcases mem_detailEvents.mp member with ⟨rfl, _⟩ | ⟨subType, diagnostic, rfl, _⟩ | ⟨rfl, _⟩ | ⟨rfl, _⟩
  · exact ⟨(by decide : "Delivery" ≠ "Send"), (by decide : "Delivery" ≠ "Reject")⟩
  · exact ⟨(by decide : "Bounce" ≠ "Send"), (by decide : "Bounce" ≠ "Reject")⟩
  · exact ⟨(by decide : "Complaint" ≠ "Send"), (by decide : "Complaint" ≠ "Reject")⟩
  · exact ⟨(by decide : "DeliveryDelay" ≠ "Send"), (by decide : "DeliveryDelay" ≠ "Reject")⟩

theorem complaint_mem {outcomes : List (String × Outcome)} {complained : List String} :
    MailEvent.complaint complained ∈ detailEvents outcomes ↔
      complained = pick outcomes (· == .complaint) ∧ pick outcomes (· == .complaint) ≠ [] := by
  rw [mem_detailEvents]
  constructor
  · rintro (⟨wrong, _⟩ | ⟨_, _, wrong, _⟩ | ⟨same, some'⟩ | ⟨wrong, _⟩)
    · cases wrong
    · cases wrong
    · exact ⟨MailEvent.complaint.inj same, some'⟩
    · cases wrong
  · rintro ⟨rfl, some'⟩
    exact Or.inr (Or.inr (Or.inl ⟨rfl, some'⟩))

/-- **Those who complain** are among those delivered to. -/
theorem complained_sublist {outcomes : List (String × Outcome)}
    (some' : pick outcomes (· == .complaint) ≠ []) :
    ∃ delivered, MailEvent.delivery delivered ∈ detailEvents outcomes ∧
      (pick outcomes (· == .complaint)).Sublist delivered := by
  have sub : (pick outcomes (· == .complaint)).Sublist (pick outcomes (·.place == .delivery)) := by
    refine (List.monotone_filter_right outcomes fun entry complains => ?_).map _
    rw [beq_iff_eq.mp complains]
    rfl
  refine ⟨_, mem_detailEvents.mpr (Or.inl ⟨rfl, fun empty => ?_⟩), sub⟩
  rw [empty] at sub
  exact some' (List.sublist_nil.mp sub)

theorem sendOutcome_rejected {table recipients : List String}
    (rejects : ∃ recipient ∈ recipients, IsRejectSimulator recipient) :
    Rejected recipients (sendOutcome table recipients) := by
  have rejected : (recipients.any fun recipient => (simulatorOutcome recipient).any Prod.snd) = true := by
    obtain ⟨recipient, member, reject⟩ := rejects
    exact List.any_eq_true.mpr ⟨recipient, member, (simulatorOutcome_rejects recipient).mpr reject⟩
  constructor
  · unfold sendOutcome
    dsimp only
    rw [rejected, if_pos rfl]
  · unfold sendOutcome
    dsimp only
    rw [rejected]
    rfl
  · intro recipient member
    refine statusOf_eq recipients (fun _ => "rejected") member _ ?_
    unfold sendOutcome
    dsimp only
    rw [rejected, List.map_map]
    simp only [Function.comp_def, if_true]

theorem sendOutcome_partitioned {table recipients : List String}
    (accepts : ¬ ∃ recipient ∈ recipients, IsRejectSimulator recipient) :
    Partitioned table recipients (sendOutcome table recipients)
      (recipientOutcome (suppressedOf table recipients)) := by
  have rejected : (recipients.any fun recipient => (simulatorOutcome recipient).any Prod.snd) = false := by
    rw [Bool.eq_false_iff]
    intro some'
    obtain ⟨recipient, member, reject⟩ := List.any_eq_true.mp some'
    exact accepts ⟨recipient, member, (simulatorOutcome_rejects recipient).mp reject⟩
  have bounces : ∀ recipient ∈ recipients, isSimulator recipient = false →
      isSuppressed table recipient = true →
        recipientOutcome (suppressedOf table recipients) recipient =
          .bounce "OnAccountSuppressionList" :=
    fun recipient member real listed => recipientOutcome_suppressed member real listed
  have simulators : ∀ recipient, isSimulator recipient = true → ∀ other,
      recipientOutcome other recipient = recipientOutcome (suppressedOf table recipients) recipient :=
    fun recipient simulator other => recipientOutcome_simulator simulator _ _
  unfold sendOutcome
  dsimp only
  rw [rejected]
  generalize recipientOutcome (suppressedOf table recipients) = outcome at bounces simulators ⊢
  rw [if_neg Bool.false_ne_true]
  have entries : ∀ recipient ∈ recipients,
      (recipient, outcome recipient) ∈ recipients.map fun recipient => (recipient, outcome recipient) :=
    fun recipient member => List.mem_map_of_mem member
  have picks := pick_map recipients outcome
  exact
    { send := ⟨_, rfl, fun event member => detailEvents_types_ne member⟩
      somewhere := by
        intro recipient member
        obtain ⟨event, inside, placed⟩ := detailEvents_exists (entries recipient member)
        exact ⟨event, List.mem_cons_of_mem _ inside, placed⟩
      once := detailEvents_nodup _
      listed := by
        intro event member place placed
        rcases List.mem_cons.mp member with rfl | inside
        · cases placed
        · rw [detailEvents_recipients inside placed, picks]
      complains := by
        intro recipient member complains
        have kind : (outcome recipient == .complaint) = true := beq_iff_eq.mpr complains
        have some' := @pick_ne_nil _ (· == .complaint) _ (entries recipient member) kind
        exact ⟨_, List.mem_cons_of_mem _ (complaint_mem.mpr ⟨rfl, some'⟩)⟩
      complained := by
        intro complained member
        rcases List.mem_cons.mp member with wrong | inside
        · cases wrong
        · obtain ⟨rfl, some'⟩ := complaint_mem.mp inside
          obtain ⟨delivered, there, sub⟩ := complained_sublist some'
          exact ⟨picks _, delivered, List.mem_cons_of_mem _ there, sub⟩
      status := by
        intro recipient member
        rw [← statusName_eq]
        refine statusOf_eq recipients (fun recipient => (outcome recipient).statusName) member _ ?_
        dsimp only
        rw [List.map_map]
        simp only [Function.comp_def, Bool.false_eq_true, if_false]
      suppressed := by
        intro recipient member real listed
        rw [bounces recipient member real listed]
        exact ⟨_, _, rfl⟩
      simulator := simulators
      captured := by
        dsimp only
        rw [Bool.not_false, Bool.true_and, List.any_map, List.any_eq_true]
        refine exists_congr fun recipient => and_congr_right fun _ => ?_
        rw [← isBounce_iff, Bool.not_eq_true, Function.comp_apply, Bool.not_eq_true'] }

section Parser

variable [MailParser]

/-- **Recipients are partitioned over the events** of an accepted send. -/
theorem outcomes_partition {store : SendStore} {now : Int} {messageId id : String} {req : SendRequest}
    (accepted : (sendEmail store now messageId req).1 = .ok id) :
    Recorded store (sendEmail store now messageId req).2 messageId req.withHeaders.1
      (sendOutcome store.suppressed req.withHeaders.1.recipients) ∧
    ((∃ recipient ∈ req.withHeaders.1.recipients, IsRejectSimulator recipient) →
      Rejected req.withHeaders.1.recipients
        (sendOutcome store.suppressed req.withHeaders.1.recipients)) ∧
    ((¬ ∃ recipient ∈ req.withHeaders.1.recipients, IsRejectSimulator recipient) →
      Partitioned store.suppressed req.withHeaders.1.recipients
        (sendOutcome store.suppressed req.withHeaders.1.recipients)
        (recipientOutcome (suppressedOf store.suppressed req.withHeaders.1.recipients))) :=
  ⟨sendEmail_outcome accepted, sendOutcome_rejected, sendOutcome_partitioned⟩

end Parser

section Sample

attribute [local instance] MailParser.sample

/-- One recipient is on the suppression list. -/
def suppressingStore : SendStore := { sendStore "example.com" with suppressed := ["b@example.org"] }

/-- To a suppressed address, to an address of the simulator, and to one that takes the message. -/
def severalSend : SendRequest :=
  { sampleSend "a@mail.example.com" with
    toAddresses := ["b@example.org", "bounce@simulator.amazonses.com"], ccAddresses := ["c@example.org"] }

def severalRecipients : List String :=
  ["b@example.org", "bounce@simulator.amazonses.com", "c@example.org"]

theorem outcomes_partition_sample :
    Recorded suppressingStore (sendEmail suppressingStore 0 "m" severalSend).2 "m" severalSend
      (sendOutcome ["b@example.org"] severalRecipients) ∧
    Partitioned ["b@example.org"] severalRecipients (sendOutcome ["b@example.org"] severalRecipients)
      (recipientOutcome (suppressedOf ["b@example.org"] severalRecipients)) := by
  have accepted : (sendEmail suppressingStore 0 "m" severalSend).1 = .ok "m" := by
    decide
  have all := outcomes_partition accepted
  exact ⟨all.1, all.2.2 (by decide)⟩

end Sample

end CloudTwin.Ses
