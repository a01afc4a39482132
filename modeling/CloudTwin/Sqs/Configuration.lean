/-
**Concurrent changes of a queue's configuration.**

SetQueueAttributes, TagQueue and UntagQueue read the whole map of attributes or tags in one call,
change it, and write the whole map back in a second call. Whatever another client wrote in between
is overwritten.

* `Operation.Fresh` — the names that a request does not set are still as it has read them.
* `configuration_serial` — if every write is fresh, the clients leave the store that the successful
  requests leave when they run one after the other, in the order of their writes.
* `update_lost` — two clients that read before either writes: one of the two settings is lost, in
  any order of the two requests.
-/

import CloudTwin.Sqs.Clients
import CloudTwin.Sqs.Attributes

namespace CloudTwin.Sqs

open Lib

set_option linter.unusedSectionVars false

section External

variable [External]

/-! ### What a map looks like after a change -/

theorem getElem_extendTags (current tags : BTreeMap String) (name : String) :
    (extendTags current tags)[name]? = tags[name]?.or current[name]? := by
  have entries : ∀ (entries : List (String × String)) (current : BTreeMap String),
      (entries.Pairwise fun first second => first.1 ≠ second.1) →
      (entries.foldl (fun merged (entry : String × String) =>
        merged.insert entry.1 entry.2) current)[name]? =
        (entries.lookup name).or current[name]? := by
    intro entries
    induction entries with
    | nil => exact fun _ _ => rfl
    | cons entry rest ih =>
      intro current distinct
      obtain ⟨other, value⟩ := entry
      obtain ⟨apart, distinctRest⟩ := List.pairwise_cons.mp distinct
      rw [List.foldl_cons, ih _ distinctRest, List.lookup_cons, getElem_insert]
      by_cases same : name = other
      · subst same
        have absent : rest.lookup name = none := by
          rw [List.lookup_eq_none_iff]
          exact fun found member => bne_iff_ne.mpr (apart _ member)
        simp [absent]
      · simp [beq_eq_false_iff_ne.mpr same, Ne.symm same]
  rw [← toList_lookup tags name]
  exact entries _ current (toList_distinct tags)

theorem getElem_removeTags (keys : List String) (name : String) : ∀ current : BTreeMap String,
    (removeTags current keys)[name]? = if name ∈ keys then none else current[name]? := by
  induction keys with
  | nil => exact fun current => by simp [removeTags]
  | cons key rest ih =>
    intro current
    show (removeTags (current.erase key) rest)[name]? = _
    rw [ih, getElem_erase]
    by_cases member : name ∈ rest
    · simp [member]
    · by_cases same : key = name
      · simp [same]
      · simp [member, same, Ne.symm same]

/-- Every attribute of a request has a value among the normalized ones. -/
theorem validateEach_covers {store : Store} {fifo : Bool} (entries : List (String × String)) :
    ∀ out result, validateEach store fifo entries out = .ok result → ∀ name,
      result[name]? = none → out[name]? = none ∧ ∀ raw, (name, raw) ∉ entries := by
  induction entries with
  | nil =>
    intro out result done name absent
    cases done
    exact ⟨absent, fun _ => nofun⟩
  | cons entry rest ih =>
    intro out result done name absent
    obtain ⟨other, raw⟩ := entry
    obtain ⟨normalized, _, done⟩ := bind_ok done
    obtain ⟨before, others⟩ := ih _ _ done name absent
    rw [getElem_insert] at before
    split at before
    · cases before
    · rename_i different
      refine ⟨before, fun value member => ?_⟩
      rcases List.mem_cons.mp member with same | member
      · exact different (Prod.mk.inj same).1.symm
      · exact others value member

theorem validateAttributes_covers {store : Store} {queueName name : String}
    {attributes normalized : BTreeMap String}
    (done : validateAttributes store queueName attributes false = .ok normalized)
    (absent : normalized[name]? = none) : attributes[name]? = none := by
  have missing := (validateEach_covers _ _ _ done name absent).2
  rw [Option.eq_none_iff_forall_ne_some]
  intro value found
  exact missing value (Std.ExtTreeMap.mem_toList_iff_getElem?_eq_some.mpr found)

/-! ### Requests that change a configuration -/

def Request.Configures : Request → Prop
  | .on _ (.setQueueAttributes _) => True
  | .on _ (.tagQueue _) => True
  | .on _ (.untagQueue _) => True
  | _ => False

/-- **What the client has read is still so**, for the names that its request does not set. -/
def Operation.Fresh (operation : Operation) (queue : SqsQueue) (row : QueueRow) : Prop :=
  match operation with
  | .setQueueAttributes attributes =>
    ∀ name : String, attributes[name]? = none → row.attributes[name]? = queue.attributes[name]?
  | .tagQueue tags => ∀ name : String, tags[name]? = none → row.tags[name]? = queue.tags[name]?
  | .untagQueue keys => ∀ name : String, name ∉ keys → row.tags[name]? = queue.tags[name]?
  | _ => True

/-- The write of the client whose turn it is works on what the client has read. -/
def FreshWrite (event : ClientEvent) : Prop :=
  ∀ name operation queue row, stageBefore event = .found name operation queue →
    event.before.shared.queues.get queue.id = some row → operation.Fresh queue row

/-- A fresh write does what it would do on the queue as it is now. -/
theorem call_fresh {store : Store} {name : String} {operation : Operation}
    {queue current : SqsQueue} {row : QueueRow} (now : Int)
    (configures : (Request.on name operation).Configures) (sameId : current.id = queue.id)
    (sameName : current.name = queue.name) (sameKind : current.isFifo = queue.isFifo)
    (attributes : current.attributes = row.attributes) (tags : current.tags = row.tags)
    (fresh : operation.Fresh queue row) :
    operation.call store current now = operation.call store queue now := by
  cases operation with
  | setQueueAttributes setting =>
    have same : setQueueAttributesTx store current setting now =
        setQueueAttributesTx store queue setting now := by
      unfold setQueueAttributesTx
      rw [sameName, sameKind, sameId]
      cases validated : validateAttributes store queue.name setting false with
      | error error => rfl
      | ok normalized =>
        have merged : mergeAttributes current.attributes normalized =
            mergeAttributes queue.attributes normalized := by
          apply Std.ExtTreeMap.ext_getElem?
          intro key
          rw [mergeAttributes_get, mergeAttributes_get]
          cases given : normalized[key]? with
          | some value => rfl
          | none =>
            simp only
            rw [attributes]
            exact fresh key (validateAttributes_covers validated given)
        simp only [bind, Except.bind, merged]
    simp only [Operation.call, same]
  | tagQueue more =>
    have merged : extendTags current.tags more = extendTags queue.tags more := by
      apply Std.ExtTreeMap.ext_getElem?
      intro key
      rw [getElem_extendTags, getElem_extendTags, tags]
      cases given : more[key]? with
      | some value => rfl
      | none => exact fresh key given
    simp only [Operation.call, tagQueueTx, merged, sameId]
  | untagQueue keys =>
    have merged : removeTags current.tags keys = removeTags queue.tags keys := by
      apply Std.ExtTreeMap.ext_getElem?
      intro key
      rw [getElem_removeTags, getElem_removeTags, tags]
      by_cases removed : key ∈ keys
      · rw [if_pos removed, if_pos removed]
      · rw [if_neg removed, if_neg removed]
        exact fresh key removed
    simp only [Operation.call, untagQueueTx, merged, sameId]
  | _ => cases configures

/-! ### What a client has read -/

/-- The queue that the client has read is still there, under its name, and of the same kind. -/
def Snapshot (store : Store) (name : String) (queue : SqsQueue) : Prop :=
  ∃ current, getQueue store name = .ok current ∧ current.id = queue.id ∧
    current.name = queue.name ∧ current.isFifo = queue.isFifo

theorem findQueue_modify {store : Store} {id : Nat} {change : QueueRow → QueueRow}
    (named : ∀ row, (change row).name = row.name) (name : String) :
    findQueue { store with queues := store.queues.modify id change } name =
      (store.queues.rows.find? fun row => row.2.name == name).map fun row =>
        queueFromRow row.1 (if row.1 == id then change row.2 else row.2) := by
  have same : ((fun row : Nat × QueueRow => row.2.name == name) ∘ fun row : Nat × QueueRow =>
      (row.1, if row.1 == id then change row.2 else row.2)) =
        fun row => row.2.name == name := by
    funext row
    simp only [Function.comp_apply]
    split
    · rw [named]
    · rfl
  show ((store.queues.rows.map _).find? _).map _ = _
  rw [List.find?_map, same, Option.map_map]
  rfl

/-- A sequence number that is drawn leaves what is read of the queues. -/
theorem getQueue_raiseSeq (store : Store) (id : Nat) (target : String) :
    getQueue (raiseSeq store id) target = getQueue store target := by
  have named : ∀ row : QueueRow, { row with fifoSeq := row.fifoSeq + 1 }.name = row.name :=
    fun _ => rfl
  have found : findQueue (raiseSeq store id) (queueNameOf target) =
      findQueue store (queueNameOf target) := by
    rw [raiseSeq, findQueue_modify named, findQueue]
    refine congrFun (congrArg Option.map (funext fun row => ?_)) _
    split
    · rfl
    · rfl
  unfold getQueue requireQueue
  simp only [found]

theorem Snapshot.kept {store : Store} {id : Nat} {change : QueueRow → QueueRow} {name : String}
    {queue : SqsQueue} (snapshot : Snapshot store name queue)
    (named : ∀ row, (change row).name = row.name)
    (kind : ∀ row, store.queues.get id = some row →
      (queueFromRow id (change row)).isFifo = (queueFromRow id row).isFifo) :
    Snapshot { store with queues := store.queues.modify id change } name queue := by
  obtain ⟨current, found, sameId, sameName, sameKind⟩ := snapshot
  have first := getQueue_found found
  have nonempty : (queueNameOf name).isEmpty = false := by
    unfold getQueue at found
    simp only at found
    split at found
    · cases found
    · rename_i nonempty
      simpa using nonempty
  obtain ⟨⟨rowId, row⟩, here, rfl⟩ := Option.map_eq_some_iff.mp first
  have read : store.queues.get rowId = some row :=
    (Table.get_eq_some _ _ _).mpr (List.mem_of_find?_eq_some here)
  refine ⟨queueFromRow rowId (if rowId == id then change row else row), ?_, sameId, ?_, ?_⟩
  · unfold getQueue
    simp only [nonempty, Bool.false_eq_true, if_false]
    rw [requireQueue, findQueue_modify named, here]
    rfl
  · rw [← sameName, queueFromRow_name, queueFromRow_name]
    split
    · exact named row
    · rfl
  · rw [← sameKind]
    split
    · rename_i same
      rw [beq_iff_eq] at same
      subst same
      exact kind row read
    · rfl

/-- What a client has read stays good when another client writes. -/
theorem Snapshot.written {before after : Store} {name other : String} {operation : Operation}
    {queue read : SqsQueue} {now : Int} {response : Response}
    (configures : (Request.on name operation).Configures) (snapshot : Snapshot before name queue)
    (called : operation.call before queue now = .ok (response, after))
    (held : Snapshot before other read) : Snapshot after other read := by
  obtain ⟨current, found, sameId, _, sameKind⟩ := snapshot
  obtain ⟨row, here, _, same⟩ := getQueue_row found
  -- The row of the queue is of the kind that the writer has read.
  have kind : ∀ old, before.queues.get queue.id = some old →
      (queueFromRow queue.id old).isFifo = queue.isFifo := by
    intro old was
    rw [← sameId] at was ⊢
    rw [here] at was
    cases was
    rw [← same, sameKind]
  obtain ⟨working, step, rfl | ⟨options, rfl, _⟩⟩ := call_step called
  · cases step with
    | setQueueAttributes attributes normalized validated allowed =>
      refine held.kept (fun _ => rfl) fun old was => ?_
      rw [kind old was]
      exact isFifo_merge rfl validated allowed
    | tagQueue => exact held.kept (fun _ => rfl) fun _ _ => rfl
    | untagQueue => exact held.kept (fun _ => rfl) fun _ _ => rfl
    | _ => cases configures
  · cases configures

/-! ### Runs of clients -/

/-- The request of the client whose turn it is has returned success. -/
def succeeded (event : ClientEvent) : Bool :=
  match event.output with
  | some (.ok _) => true
  | _ => false

/-- The requests that returned success, in the order of their last calls. -/
def servedRequest (requests : Nat → Request) (event : ClientEvent) : Option Input :=
  if succeeded event then some ⟨event.input.2.now, requests event.input.1⟩ else none

def served (requests : Nat → Request) (history : List ClientEvent) : List Input :=
  history.filterMap (servedRequest requests)

/-- The attributes and the tags of a queue. -/
def configuration (store : Store) (id : Nat) : Option (BTreeMap String × BTreeMap String) :=
  (store.queues.get id).map fun row => (row.attributes, row.tags)

/-- **The final configuration is that of a serial execution** of the requests that succeeded. -/
def Serializable (store : Store) (requests : Nat → Request) (history : List ClientEvent)
    (final : System Store Stage) : Prop :=
  ∃ order : List Input, order.Perm (served requests history) ∧
    ∀ id, configuration (Run.final perform store order) id = configuration final.shared id

/-- Where a client stands is where its request has come to. -/
def OwnStage (requests : Nat → Request) (client : Nat) (store : Store) (stage : Stage) : Prop :=
  match stage with
  | .asked request => request = requests client
  | .found name operation queue =>
    requests client = .on name operation ∧ Snapshot store name queue
  | .finished _ => True

/-- **What a turn does**: nothing to the store, or the write of a request. -/
theorem turn_cases {requests : Nat → Request} {event : ClientEvent}
    (configures : ∀ client, (requests client).Configures)
    (taken : event.Taken (System.step advance))
    (own : OwnStage requests event.input.1 event.before.shared (stageBefore event)) :
    (succeeded event = false ∧ event.after.shared = event.before.shared ∧
      OwnStage requests event.input.1 event.after.shared (event.after.client event.input.1)) ∨
    (succeeded event = true ∧ (∃ result, event.after.client event.input.1 = .finished result) ∧
      ∃ name operation queue response, stageBefore event = .found name operation queue ∧
        requests event.input.1 = .on name operation ∧
        Snapshot event.before.shared name queue ∧
        operation.call event.before.shared queue event.input.2.now =
          .ok (response, event.after.shared)) := by
  have moved := (System.taken_advance taken).1
  change advance event.before.shared (stageBefore event) event.input.2 = _ at moved
  cases stage : stageBefore event with
  | finished result =>
    rw [stage, advance_finished] at moved
    simp only [Prod.mk.injEq] at moved
    obtain ⟨output, after, next⟩ := moved
    refine Or.inl ⟨?_, after.symm, ?_⟩
    · rw [succeeded, ← output]
    · rw [← next]
      trivial
  | asked request =>
    rw [stage, advance_asked] at moved
    rw [stage] at own
    have asks : request = requests event.input.1 := own
    have changes := configures event.input.1
    rw [← asks] at changes
    cases request with
    | createQueue => cases changes
    | on name operation =>
      cases found : getQueue event.before.shared name with
      | error error =>
        rw [firstCall_on_error operation _ found] at moved
        simp only [finish, settle, Prod.mk.injEq] at moved
        obtain ⟨output, after, next⟩ := moved
        refine Or.inl ⟨?_, after.symm, ?_⟩
        · rw [succeeded, ← output]
        · rw [← next]
          trivial
      | ok queue =>
        rw [firstCall_on_ok operation _ found] at moved
        simp only [Prod.mk.injEq] at moved
        obtain ⟨output, after, next⟩ := moved
        refine Or.inl ⟨?_, after.symm, ?_⟩
        · rw [succeeded, ← output]
        · rw [← next, ← after]
          exact ⟨asks.symm, queue, found, rfl, rfl, rfl⟩
  | found name operation queue =>
    rw [stage, advance_found] at moved
    rw [stage] at own
    obtain ⟨asks, snapshot⟩ := own
    cases called : operation.call event.before.shared queue event.input.2.now with
    | error error =>
      rw [secondCall_error name called] at moved
      simp only [finish, settle, Prod.mk.injEq] at moved
      obtain ⟨output, after, next⟩ := moved
      refine Or.inl ⟨?_, after.symm, ?_⟩
      · rw [succeeded, ← output]
      · rw [← next]
        trivial
    | ok result =>
      obtain ⟨response, stored⟩ := result
      -- None of the three requests looks again.
      have answered : response.nothing = false := by
        obtain ⟨working, step, _⟩ := call_step called
        have changes := configures event.input.1
        rw [asks] at changes
        cases step with
        | receive => cases changes
        | _ => rfl
      rw [secondCall_ok name called, answered, Bool.and_false, if_neg Bool.false_ne_true] at moved
      simp only [finish, settle, Prod.mk.injEq] at moved
      obtain ⟨output, after, next⟩ := moved
      refine Or.inr ⟨?_, ⟨_, next.symm⟩, name, operation, queue, response, rfl, asks, snapshot, ?_⟩
      · rw [succeeded, ← output]
      · rw [called, after]

/-- **What every client has read stays good along a run.** -/
theorem own_along {store : Store} {requests : Nat → Request} {history : List ClientEvent}
    {final : System Store Stage} (configures : ∀ client, (requests client).Configures)
    (run : ClientRun store requests history final) :
    ∀ event ∈ history,
      OwnStage requests event.input.1 event.before.shared (stageBefore event) := by
  have along := run.interleaved (fun _ => True) (OwnStage requests)
    ⟨trivial, fun _ => rfl⟩ fun event _ taken _ owns => ?_
  · exact fun event member => (along.2.2 event member).2 event.input.1
  · rcases turn_cases configures taken (owns event.input.1) with
      ⟨_, still, own⟩ | ⟨_, ⟨result, done⟩, name, operation, queue, response, _, asks, snapshot, called⟩
    · refine ⟨trivial, own, fun client other held => ?_⟩
      rw [still]
      exact held
    · refine ⟨trivial, ?_, fun client other held => ?_⟩
      · rw [done]
        trivial
      · have changes := configures event.input.1
        rw [asks] at changes
        cases other with
        | asked request => exact held
        | found otherName otherOperation read =>
          exact ⟨held.1, Snapshot.written changes snapshot called held.2⟩
        | finished => trivial

/-- **A run of fresh writes is the serial execution of the requests that succeeded**, in the order
in which they wrote. -/
theorem configuration_run {store : Store} {requests : Nat → Request}
    {history : List ClientEvent} {final : System Store Stage}
    (configures : ∀ client, (requests client).Configures)
    (run : ClientRun store requests history final)
    (fresh : ∀ event ∈ history, FreshWrite event) :
    final.shared = Run.final perform store (served requests history) := by
  have owns := own_along configures run
  refine Run.linearized System.shared perform (servedRequest requests) run
    (fun event member silent => ?_) fun event member input acted => ?_
  · rcases turn_cases configures (run.taken_of_mem event member) (owns event member) with
      ⟨_, still, _⟩ | ⟨success, _⟩
    · exact still
    · rw [servedRequest, success] at silent
      cases silent
  · rcases turn_cases configures (run.taken_of_mem event member) (owns event member) with
      ⟨failed, _⟩ | ⟨success, _, name, operation, queue, response, stage, asks, snapshot, called⟩
    · rw [servedRequest, failed] at acted
      cases acted
    · rw [servedRequest, success] at acted
      cases acted
      obtain ⟨current, found, sameId, sameName, sameKind⟩ := snapshot
      obtain ⟨row, here, _, same⟩ := getQueue_row found
      have changes := configures event.input.1
      rw [asks] at changes
      have settled : operation.call event.before.shared current event.input.2.now =
          operation.call event.before.shared queue event.input.2.now :=
        call_fresh _ changes sameId sameName sameKind (by rw [same]; rfl) (by rw [same]; rfl)
          (fresh event member name operation queue row stage (sameId ▸ here))
      rw [asks, perform_on found, settled, called]
      rfl

/-- **No lost update of the configuration**, in a run in which every write is fresh. -/
theorem configuration_serial {store : Store} {requests : Nat → Request}
    {history : List ClientEvent} {final : System Store Stage}
    (configures : ∀ client, (requests client).Configures)
    (run : ClientRun store requests history final)
    (fresh : ∀ event ∈ history, FreshWrite event) :
    Serializable store requests history final := by
  refine ⟨served requests history, List.Perm.refl _, fun id => ?_⟩
  rw [configuration_run configures run fresh]

/-- The queue is, in every name, as the client has read it. -/
def unchangedSince (event : ClientEvent) : Bool :=
  match stageBefore event with
  | .found _ _ queue =>
    (event.before.shared.queues.get queue.id).all fun row =>
      row.attributes.toList = queue.attributes.toList && row.tags.toList = queue.tags.toList
  | _ => true

theorem freshWrite_of_unchanged {event : ClientEvent} (unchanged : unchangedSince event = true) :
    FreshWrite event := by
  intro name operation queue row stage here
  rw [unchangedSince, stage] at unchanged
  simp only [here, Option.all_some, Bool.and_eq_true, decide_eq_true_eq] at unchanged
  obtain ⟨attributes, tags⟩ := unchanged
  have sameAttributes : ∀ key : String, row.attributes[key]? = queue.attributes[key]? := fun key =>
    by rw [← toList_lookup, attributes, toList_lookup]
  have sameTags : ∀ key : String, row.tags[key]? = queue.tags[key]? := fun key =>
    by rw [← toList_lookup, tags, toList_lookup]
  cases operation with
  | setQueueAttributes setting => exact fun key _ => sameAttributes key
  | tagQueue more => exact fun key _ => sameTags key
  | untagQueue keys => exact fun key _ => sameTags key
  | _ => trivial

/-- The turns that have answered a request with success. -/
def servedTurns (history : List ClientEvent) : List (Nat × Move) :=
  (history.filter succeeded).map Event.input

theorem served_eq (requests : Nat → Request) (history : List ClientEvent) :
    served requests history =
      (servedTurns history).map fun turn => ⟨turn.2.now, requests turn.1⟩ := by
  rw [served, servedTurns, List.map_map]
  induction history with
  | nil => rfl
  | cons event rest ih =>
    rw [List.filterMap_cons, List.filter_cons, servedRequest]
    cases succeeded event with
    | false => exact ih
    | true => simp [ih]

end External

/-! ### Two clients -/

/-- One client sets the visibility timeout, the others the delay. -/
def sampleSettings : Nat → Request
  | 0 => .on "orders" (.setQueueAttributes ((∅ : BTreeMap String).insert "VisibilityTimeout" "60"))
  | _ => .on "orders" (.setQueueAttributes ((∅ : BTreeMap String).insert "DelaySeconds" "5"))

theorem sampleSettings_configures (client : Nat) : (sampleSettings client).Configures := by
  cases client <;> trivial

/-- The attribute of the queue with the id. -/
def settingOf (store : Store) (id : Nat) (name : String) : Option (Option String) :=
  (configuration store id).map fun pair => pair.1[name]?

theorem perm_pair {α : Type} {first second : α} {order : List α}
    (perm : order.Perm [first, second]) : order = [first, second] ∨ order = [second, first] := by
  cases order with
  | nil => exact absurd perm.length_eq (by simp)
  | cons head rest =>
    have member : head ∈ [first, second] := perm.subset List.mem_cons_self
    rcases List.mem_pair.mp member with rfl | rfl
    · exact Or.inl (congrArg _ (List.perm_singleton.mp ((List.perm_cons head).mp perm)))
    · have swapped := perm.trans (List.Perm.swap head first [])
      exact Or.inr (congrArg _ (List.perm_singleton.mp ((List.perm_cons head).mp swapped)))

section Sample

attribute [local instance] External.sample

/-- Both clients read before either writes: the first setting is lost. -/
theorem update_lost : ∃ history final,
    ClientRun (perform Store.empty (sampleCreate 0)).2 sampleSettings history final ∧
      ¬ Serializable (perform Store.empty (sampleCreate 0)).2 sampleSettings history final := by
  refine ⟨_, _, Run.of_trace (System.step advance) ([0, 1, 0, 1].map sampleTurn)
    (clients (perform Store.empty (sampleCreate 0)).2 sampleSettings), ?_⟩
  rintro ⟨order, perm, same⟩
  have turns : servedTurns (Run.trace (System.step advance)
      (clients (perform Store.empty (sampleCreate 0)).2 sampleSettings)
      ([0, 1, 0, 1].map sampleTurn)) =
        [sampleTurn 0, sampleTurn 1] := by decide
  rw [served_eq, turns] at perm
  have lost : settingOf (Run.final (System.step advance)
      (clients (perform Store.empty (sampleCreate 0)).2 sampleSettings)
      ([0, 1, 0, 1].map sampleTurn)).shared 1 "VisibilityTimeout" =
        some none := by decide
  have serial : settingOf (Run.final perform (perform Store.empty (sampleCreate 0)).2 order) 1
      "VisibilityTimeout" = some (some "60") := by
    rcases perm_pair perm with rfl | rfl
    · decide
    · decide
  rw [settingOf, same 1, ← settingOf, lost] at serial
  cases serial

/-- The second client reads after the first one has written. -/
theorem configuration_serial_sample : Serializable (perform Store.empty (sampleCreate 0)).2
    sampleSettings
    (Run.trace (System.step advance)
      (clients (perform Store.empty (sampleCreate 0)).2 sampleSettings)
      ([0, 0, 1, 1].map sampleTurn))
    (Run.final (System.step advance)
      (clients (perform Store.empty (sampleCreate 0)).2 sampleSettings)
      ([0, 0, 1, 1].map sampleTurn)) :=
  configuration_serial sampleSettings_configures (Run.of_trace _ _ _) fun _ member =>
    freshWrite_of_unchanged (List.all_eq_true.mp (by decide) _ member)

end Sample

end CloudTwin.Sqs
