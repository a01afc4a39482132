/-
**Subscriptions under concurrent requests.**

Between the calls of a Subscribe another one can insert the same subscription, or its topic can be
deleted: the row goes in all the same.

* `Registered` — every subscription has its topic, and no endpoint is subscribed twice.
* `FreshInsert` — when a subscription is inserted, its topic is there and its endpoint is not.
* `subscriptions_registered` — in a run of fresh inserts the subscriptions are registered.
* `subscribed_twice` — two clients subscribe one endpoint, and the topic is deleted meanwhile.
-/

import CloudTwin.Sns.Topics

namespace CloudTwin.Sns

open Lib Lib.Text Sqs

set_option linter.unusedSectionVars false

section External

variable [External] [SnsFilter]

/-! ### What the calls leave -/

/-- **Every subscription has its topic, and no endpoint is subscribed twice.** -/
structure Registered (store : SnsStore) : Prop where
  housed : ∀ row ∈ store.subscriptions, ∃ topic ∈ store.topics, topic.arn = row.topicArn
  once : store.subscriptions.Pairwise fun first second =>
    ¬ (first.topicArn = second.topicArn ∧ first.protocol = second.protocol ∧
      first.endpoint = second.endpoint)

theorem registered_insertTopic {store : SnsStore} (registered : Registered store)
    (arn name : String) (attributes tags : BTreeMap String) :
    Registered (insertTopic store arn name attributes tags) := by
  unfold insertTopic
  split
  · exact registered
  · refine ⟨fun row member => ?_, registered.once⟩
    obtain ⟨topic, there, same⟩ := registered.housed row member
    exact ⟨topic, List.mem_append_left _ there, same⟩

theorem registered_deleteTopic {store : SnsStore} (registered : Registered store) (arn : String) :
    Registered (deleteTopic store arn) := by
  refine ⟨fun row member => ?_, registered.once.filter _⟩
  obtain ⟨stored, other⟩ := List.mem_filter.mp member
  obtain ⟨topic, there, same⟩ := registered.housed row stored
  refine ⟨topic, List.mem_filter.mpr ⟨there, ?_⟩, same⟩
  rwa [same]

theorem registered_unsubscribe {store : SnsStore} (registered : Registered store) (arn : String) :
    Registered (unsubscribe store arn) :=
  ⟨fun row member => registered.housed row (List.mem_filter.mp member).1,
    registered.once.filter _⟩

theorem registered_update {store : SnsStore} (registered : Registered store) (arn : String)
    (attributes : BTreeMap String) : Registered (updateSubscription store arn attributes) := by
  have keeps : ∀ row : SubscriptionRow,
      (if row.arn = arn then { row with attributes } else row).topicArn = row.topicArn ∧
      (if row.arn = arn then { row with attributes } else row).protocol = row.protocol ∧
      (if row.arn = arn then { row with attributes } else row).endpoint = row.endpoint := by
    intro row
    split
    · exact ⟨rfl, rfl, rfl⟩
    · exact ⟨rfl, rfl, rfl⟩
  refine ⟨fun row member => ?_, ?_⟩
  · obtain ⟨old, stored, rfl⟩ := List.mem_map.mp member
    rw [(keeps old).1]
    exact registered.housed old stored
  · refine List.pairwise_map.mpr (registered.once.imp fun {first second} differs => ?_)
    rw [(keeps first).1, (keeps second).1, (keeps first).2.1, (keeps second).2.1,
      (keeps first).2.2, (keeps second).2.2]
    exact differs

theorem isFor_iff {row : SubscriptionRow} {topicArn protocol endpoint : String} :
    row.isFor topicArn protocol endpoint = true ↔
      row.topicArn = topicArn ∧ row.protocol = protocol ∧ row.endpoint = endpoint := by
  rw [SubscriptionRow.isFor, Bool.and_eq_true, Bool.and_eq_true, beq_iff_eq, beq_iff_eq, beq_iff_eq,
    and_assoc]

/-- The topic of the row is there, and its endpoint is not subscribed. -/
def Admits (store : SnsStore) (row : SubscriptionRow) : Prop :=
  (findTopic store row.topicArn).isSome = true ∧
    findEndpoint store row.topicArn row.protocol row.endpoint = none

theorem registered_insertSubscription {store after : SnsStore} {row : SubscriptionRow}
    (registered : Registered store) (admits : Admits store row)
    (inserted : insertSubscription store row = some after) : Registered after := by
  unfold insertSubscription at inserted
  split at inserted
  · cases inserted
  cases inserted
  refine ⟨fun other member => ?_, List.pairwise_append.mpr
    ⟨registered.once, List.pairwise_singleton _ _, fun other member new memberNew => ?_⟩⟩
  · rcases List.mem_append.mp member with old | new
    · exact registered.housed other old
    · rw [List.mem_singleton.mp new]
      obtain ⟨topic, there, same⟩ := List.find?_isSome.mp admits.1
      exact ⟨topic, there, beq_iff_eq.mp same⟩
  · rw [List.mem_singleton.mp memberNew]
    exact fun same => List.find?_eq_none.mp admits.2 other member (isFor_iff.mpr same)

/-! ### Runs -/

/-- The call that a step makes. -/
def snsTaskOf (event : SnsEvent) : SnsTask :=
  taskOf SnsTask.begin event

/-- **The topic is still there and the endpoint is still free** when a subscription is inserted. -/
def FreshInsert (event : SnsEvent) : Prop :=
  match snsTaskOf event with
  | .insertSubscription row => Admits event.before.shared row
  | _ => True

theorem registered_run {task : SnsTask} {store : SnsStore} (registered : Registered store)
    (fresh : ∀ row, task = .insertSubscription row → Admits store row) :
    Registered (task.run store).2 := by
  cases task with
  | begin request =>
    cases request with
    | createTopic _ _ _ => exact registered
    | deleteTopic arn => exact registered_deleteTopic registered arn
    | subscribe _ _ _ _ => exact registered
    | setSubscriptionAttributes _ _ _ => exact registered
    | unsubscribe arn =>
      simp only [SnsTask.run]
      split
      · exact registered_unsubscribe registered arn
      · exact registered
  | insertTopic arn name attributes tags =>
    exact registered_insertTopic registered arn name attributes tags
  | findEndpoint topicArn protocol endpoint attributes =>
    simp only [SnsTask.run, afterEndpoint]
    split
    · split
      · exact registered
      · exact registered
    · exact ⟨registered.housed, registered.once⟩
  | insertSubscription row =>
    simp only [SnsTask.run]
    cases inserted : insertSubscription store row with
    | none => exact registered
    | some after => exact registered_insertSubscription registered (fresh row rfl) inserted
  | updateSubscription arn attributes => exact registered_update registered arn attributes

theorem registered_history {history : List SnsEvent} {final : SnsSystem} (run : SnsRun history final)
    (fresh : ∀ event ∈ history, FreshInsert event) : Registered final.shared := by
  have start : Registered SnsSystem.empty.shared := ⟨nofun, List.Pairwise.nil⟩
  refine @Run.invariant_along _ _ _ _ _ _ _ (fun system : SnsSystem => Registered system.shared) run
    start fun event member taken registered => ?_
  rw [(task_taken taken).1]
  refine registered_run registered fun row same => ?_
  have admits := fresh event member
  unfold FreshInsert at admits
  rw [snsTaskOf, same] at admits
  exact admits

/-- Only the insertion of a topic adds one, and it adds no subscription. -/
theorem run_topics (task : SnsTask) (store : SnsStore) :
    (∀ topic ∈ (task.run store).2.topics, topic ∈ store.topics) ∨
      (task.run store).2.subscriptions = store.subscriptions := by
  cases task with
  | begin request =>
    cases request with
    | createTopic _ _ _ => exact Or.inr rfl
    | deleteTopic arn => exact Or.inl fun topic member => (List.mem_filter.mp member).1
    | subscribe _ _ _ _ => exact Or.inr rfl
    | setSubscriptionAttributes _ _ _ => exact Or.inr rfl
    | unsubscribe arn =>
      simp only [SnsTask.run]
      split
      · exact Or.inl fun topic member => member
      · exact Or.inr rfl
  | insertTopic arn name attributes tags =>
    right
    simp only [SnsTask.run, insertTopic]
    split
    · rfl
    · rfl
  | findEndpoint topicArn protocol endpoint attributes =>
    right
    simp only [SnsTask.run, afterEndpoint]
    split
    · split
      · rfl
      · rfl
    · rfl
  | insertSubscription row =>
    left
    simp only [SnsTask.run]
    cases inserted : insertSubscription store row with
    | none => exact fun topic member => member
    | some after =>
      unfold insertSubscription at inserted
      split at inserted
      · cases inserted
      · cases inserted
        exact fun topic member => member
  | updateSubscription arn attributes => exact Or.inl fun topic member => member

/-- The step inserts the topic. -/
def CreatesTopic (event : SnsEvent) (arn : String) : Prop :=
  findTopic event.before.shared arn = none ∧ (findTopic event.after.shared arn).isSome = true

theorem listSubscriptions_once {store : SnsStore} (registered : Registered store) (arn : String) :
    (listSubscriptions store arn).Pairwise fun first second =>
      ¬ (first.protocol = second.protocol ∧ first.endpoint = second.endpoint) := by
  have listed : (store.subscriptions.filter fun row => row.topicArn == arn).Pairwise
      fun first second => ¬ (first.protocol = second.protocol ∧ first.endpoint = second.endpoint) := by
    refine List.Pairwise.imp_of_mem ?_ (registered.once.filter _)
    intro first second memberFirst memberSecond differs same
    have own := beq_iff_eq.mp (List.mem_filter.mp memberFirst).2
    have ownToo := beq_iff_eq.mp (List.mem_filter.mp memberSecond).2
    exact differs ⟨own.trans ownToo.symm, same⟩
  refine (List.Perm.pairwise_iff ?_ (List.mergeSort_perm _ _)).mpr listed
  exact fun differs same => differs ⟨same.1.symm, same.2.symm⟩

/-- **Subscriptions are registered.** In a run of fresh inserts every subscription has its topic and
no endpoint is subscribed twice; so the list that a publish goes through has every endpoint once, and
a topic that is created has no subscriptions. -/
theorem subscriptions_registered {history : List SnsEvent} {final : SnsSystem}
    (run : SnsRun history final) (fresh : ∀ event ∈ history, FreshInsert event) :
    (∀ row ∈ final.shared.subscriptions, ∃ topic ∈ final.shared.topics, topic.arn = row.topicArn) ∧
    (final.shared.subscriptions.Pairwise fun first second =>
      ¬ (first.topicArn = second.topicArn ∧ first.protocol = second.protocol ∧
        first.endpoint = second.endpoint)) ∧
    (∀ arn, (listSubscriptions final.shared arn).Pairwise fun first second =>
      ¬ (first.protocol = second.protocol ∧ first.endpoint = second.endpoint)) ∧
    ∀ event ∈ history, ∀ arn, CreatesTopic event arn →
      ∀ row ∈ event.after.shared.subscriptions, row.topicArn ≠ arn := by
  have registered := registered_history run fresh
  refine ⟨registered.housed, registered.once, listSubscriptions_once registered, ?_⟩
  rintro event member arn ⟨missing, created⟩ row stored rfl
  obtain ⟨past, rest, rfl⟩ := List.append_of_mem member
  have before := registered_history run.around.1 fun earlier there =>
    fresh earlier (List.mem_append_left _ there)
  have absent : ∀ topic ∈ event.before.shared.topics, topic.arn ≠ row.topicArn := by
    intro topic there same
    exact List.find?_eq_none.mp missing topic there (beq_iff_eq.mpr same)
  have shared := (task_taken run.around.2.1).1
  obtain ⟨topic, there, same⟩ := List.find?_isSome.mp created
  rcases run_topics (snsTaskOf event) event.before.shared with only | kept
  · refine absent topic (only topic ?_) (beq_iff_eq.mp same)
    rwa [shared] at there
  · rw [shared] at stored
    have old : row ∈ event.before.shared.subscriptions := kept ▸ stored
    obtain ⟨topic, there, own⟩ := before.housed row old
    exact absent topic there own

end External

/-! ### An endpoint that is subscribed twice -/

section Sample

attribute [local instance] External.sample SnsFilter.sample

def snsTurn (client : Nat) (request : SnsRequest) : Nat × Turn Unit SnsRequest :=
  (client, { call := (), request })

def createTurn (client : Nat) : Nat × Turn Unit SnsRequest :=
  snsTurn client (.createTopic "t" ∅ ∅)

def subscribeTo (client : Nat) (queue : String) : Nat × Turn Unit SnsRequest :=
  snsTurn client (.subscribe (topicArn "t") "sqs" (queueArn queue) ∅)

def subscribeTurn (client : Nat) : Nat × Turn Unit SnsRequest :=
  subscribeTo client "q"

def deleteTurn (client : Nat) : Nat × Turn Unit SnsRequest :=
  snsTurn client (.deleteTopic (topicArn "t"))

/-- One client creates a topic and subscribes a queue to it, and then another one a second queue. -/
def orderedTurns : List (Nat × Turn Unit SnsRequest) :=
  List.replicate 2 (createTurn 0) ++ List.replicate 3 (subscribeTurn 0) ++
    List.replicate 3 (subscribeTo 1 "p")

/-- Two clients have looked for the topic and the endpoint when the topic is deleted. -/
def crossedTurns : List (Nat × Turn Unit SnsRequest) :=
  List.replicate 2 (createTurn 0) ++ List.replicate 2 (subscribeTurn 0) ++
    List.replicate 2 (subscribeTurn 1) ++ [deleteTurn 2, subscribeTurn 0, subscribeTurn 1]

theorem subscriptions_registered_sample :
    (Run.final snsStep SnsSystem.empty orderedTurns).shared.subscriptions.length = 2 ∧
      (listSubscriptions (Run.final snsStep SnsSystem.empty orderedTurns).shared (topicArn "t")).Pairwise
        fun first second => ¬ (first.protocol = second.protocol ∧ first.endpoint = second.endpoint) := by
  have fresh : ∀ event ∈ Run.trace snsStep SnsSystem.empty orderedTurns, FreshInsert event := by
    have first : ∀ event ∈ (Run.trace snsStep SnsSystem.empty orderedTurns)[4]?, FreshInsert event := by
      rintro event ⟨⟩
      exact ⟨rfl, rfl⟩
    have second : ∀ event ∈ (Run.trace snsStep SnsSystem.empty orderedTurns)[7]?, FreshInsert event := by
      rintro event ⟨⟩
      exact ⟨rfl, rfl⟩
    intro event member
    simp only [orderedTurns, List.replicate, List.cons_append, List.nil_append, Run.trace,
      List.mem_cons, List.not_mem_nil, or_false] at member
    rcases member with rfl | rfl | rfl | rfl | rfl | rfl | rfl | rfl
    · trivial
    · trivial
    · trivial
    · trivial
    · exact first _ rfl
    · trivial
    · trivial
    · exact second _ rfl
  exact ⟨rfl,
    (subscriptions_registered (Run.of_trace snsStep orderedTurns SnsSystem.empty) fresh).2.2.1 _⟩

/-- **The endpoint is subscribed twice, to a topic that is not there.** -/
theorem subscribed_twice : ∃ history final first second, SnsRun history final ∧
    final.shared.topics.length = 0 ∧ final.shared.subscriptions = [first, second] ∧
    first.topicArn = second.topicArn ∧ first.protocol = second.protocol ∧
    first.endpoint = second.endpoint :=
  ⟨_, _, _, _, Run.of_trace snsStep crossedTurns SnsSystem.empty, rfl, rfl, rfl, rfl, rfl⟩

end Sample

end CloudTwin.Sns
