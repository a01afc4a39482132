/-
**Which recipients an inbound message reaches.**

A recipient that a rule matches is handled by the rules, and by nothing else. But the evaluation ends
for all recipients when an action stops it, also when the rule of that action matched only some of
them: a recipient whose rules all come later is neither captured nor in any rule's evaluation.

* `runActions_ok`, `mem_runRules` — what the two loops do.
* `recipients_kept` — the recipients are all reached exactly when each that is matched is matched by
  a rule that no stopping rule precedes.
-/

import CloudTwin.Ses.Receiving

namespace CloudTwin.Ses

open Lib Lib.Text

/-! ### The loop over the actions -/

def isStop (action : Json) : Bool :=
  (kindOf action).any fun kind => kind.1 == "StopAction"

/-- The actions up to the first that stops. -/
def uptoStop : List Json → List Json
  | [] => []
  | action :: rest => if isStop action then [action] else action :: uptoStop rest

/-- **Each action saw the headers of those before it, and no others.** -/
def Seen (message : List UInt8) (executions : List Execution) : Prop :=
  ∀ before execution after, executions = before ++ execution :: after →
    execution.message = (before.map Execution.action).foldl addHeader message

theorem seen_nil (message : List UInt8) : Seen message [] := by
  intro before execution after same
  simp at same

theorem Seen.cons {message : List UInt8} {action : Json} {rest : List Execution}
    (seen : Seen (addHeader message action) rest) : Seen message (⟨action, message⟩ :: rest) := by
  intro before execution after same
  cases before with
  | nil =>
    obtain ⟨rfl, _⟩ := List.cons.inj same
    rfl
  | cons first before =>
    obtain ⟨rfl, later⟩ := List.cons.inj same
    exact seen before execution after later

theorem Seen.append {message : List UInt8} {first second : List Execution}
    (seenFirst : Seen message first)
    (seenSecond : Seen ((first.map Execution.action).foldl addHeader message) second) :
    Seen message (first ++ second) := by
  intro before execution after same
  rcases List.append_eq_append_iff.mp same with ⟨middle, rfl, rest⟩ | ⟨middle, whole, rest⟩
  · rw [seenSecond middle execution after rest, List.map_append, List.foldl_append]
  · cases middle with
    | nil =>
      rw [List.append_nil] at whole
      have here := seenSecond [] execution after rest.symm
      rwa [List.map_nil, List.foldl_nil, whole] at here
    | cons head tail =>
      obtain ⟨rfl, _⟩ := List.cons.inj rest
      exact seenFirst before execution tail whole

/-- **What the loop over the actions does.** -/
theorem runActions_ok (actions : List Json) : ∀ message,
    (runActions actions message).1.map Execution.action = uptoStop actions ∧
    (runActions actions message).2.1 = (uptoStop actions).foldl addHeader message ∧
    (runActions actions message).2.2 = actions.any isStop ∧
    Seen message (runActions actions message).1 := by
  induction actions with
  | nil => exact fun message => ⟨rfl, rfl, rfl, seen_nil message⟩
  | cons action rest ih =>
    intro message
    obtain ⟨executed, final, stopped, seen⟩ := ih (addHeader message action)
    by_cases stop : isStop action = true
    · have ends : runActions (action :: rest) message =
          ([⟨action, message⟩], addHeader message action, true) := by
        show (if isStop action then _ else _) = _
        rw [if_pos stop]
      rw [ends, uptoStop, if_pos stop, List.any_cons, stop]
      exact ⟨rfl, rfl, rfl, Seen.cons (seen_nil _)⟩
    · have continues : runActions (action :: rest) message =
          (⟨action, message⟩ :: (runActions rest (addHeader message action)).1,
            (runActions rest (addHeader message action)).2) := by
        show (if isStop action then _ else _) = _
        rw [if_neg stop]
      rw [continues, uptoStop, if_neg stop, List.any_cons, Bool.eq_false_iff.mpr stop]
      refine ⟨?_, final, ?_, Seen.cons seen⟩
      · rw [List.map_cons, executed]
      · rw [Bool.false_or]
        exact stopped

/-! ### The loop over the rules -/

/-- The rule stops the evaluation of a message to these recipients. -/
def Stops (rcpts : List String) (rule : Json) : Prop :=
  (∃ action ∈ actionsOf rule, isStop action = true) ∧ ∃ rcpt ∈ rcpts, ruleMatches rule rcpt = true

/-- The evaluation of a rule: its recipients, and its actions up to its own stop. -/
structure Evaluation.Complete (handled : List String) (evaluation : Evaluation) : Prop where
  matched : evaluation.matched = (handled.filter (ruleMatches evaluation.rule)).map bareAddress
  executed : evaluation.executions.map Execution.action = uptoStop (actionsOf evaluation.rule)

theorem matched_isEmpty {handled : List String} {rule : Json} :
    ((handled.filter (ruleMatches rule)).map bareAddress).isEmpty = true ↔
      ∀ rcpt ∈ handled, ruleMatches rule rcpt = false := by
  simp [List.filter_eq_nil_iff]

theorem runRules_skip {handled : List String} {rule : Json}
    (skipped : ∀ rcpt ∈ handled, ruleMatches rule rcpt = false) (rest : List Json)
    (message : List UInt8) : runRules handled (rule :: rest) message =
      runRules handled rest message := by
  show (if ((handled.filter (ruleMatches rule)).map bareAddress).isEmpty then _ else _) = _
  rw [if_pos (matched_isEmpty.mpr skipped)]

/-- The evaluation of the rule. -/
def evaluationOf (handled : List String) (rule : Json) (message : List UInt8) : Evaluation where
  rule := rule
  matched := (handled.filter (ruleMatches rule)).map bareAddress
  executions := (runActions (actionsOf rule) message).1

theorem runRules_cons {handled : List String} {rule : Json} {rcpt : String}
    (member : rcpt ∈ handled) (here : ruleMatches rule rcpt = true) (rest : List Json)
    (message : List UInt8) : runRules handled (rule :: rest) message =
      evaluationOf handled rule message ::
        if (actionsOf rule).any isStop then []
        else runRules handled rest ((uptoStop (actionsOf rule)).foldl addHeader message) := by
  obtain ⟨_, final, stopped, _⟩ := runActions_ok (actionsOf rule) message
  have some_matched : ¬ ((handled.filter (ruleMatches rule)).map bareAddress).isEmpty = true := by
    rw [matched_isEmpty]
    intro skipped
    rw [skipped rcpt member] at here
    cases here
  show (if ((handled.filter (ruleMatches rule)).map bareAddress).isEmpty then _ else
    (if (runActions (actionsOf rule) message).2.2 then _ else _)) = _
  rw [if_neg some_matched, stopped]
  by_cases stop : (actionsOf rule).any isStop = true
  · rw [if_pos stop, if_pos stop]
    rfl
  · rw [if_neg stop, if_neg stop, ← final]
    rfl

theorem evaluationOf_complete (handled : List String) (rule : Json) (message : List UInt8) :
    (evaluationOf handled rule message).Complete handled :=
  ⟨rfl, (runActions_ok (actionsOf rule) message).1⟩

/-- **The rules that are evaluated**: those that match a recipient and that no stopping rule
precedes. -/
theorem mem_runRules {handled : List String} (Holds : Json → Prop) (rules : List Json) :
    ∀ message, (∃ evaluation ∈ runRules handled rules message, Holds evaluation.rule) ↔
      ∃ before rule after, rules = before ++ rule :: after ∧
        (∃ rcpt ∈ handled, ruleMatches rule rcpt = true) ∧ Holds rule ∧
        ∀ earlier ∈ before, ¬ Stops handled earlier := by
  induction rules with
  | nil =>
    intro message
    simp [runRules]
  | cons rule rest ih =>
    intro message
    by_cases skipped : ∀ rcpt ∈ handled, ruleMatches rule rcpt = false
    · rw [runRules_skip skipped, ih]
      constructor
      · rintro ⟨before, reached, after, rfl, some_rcpt, holds, unstopped⟩
        refine ⟨rule :: before, reached, after, rfl, some_rcpt, holds, ?_⟩
        intro earlier member
        rcases List.mem_cons.mp member with rfl | old
        · rintro ⟨_, rcpt, memberRcpt, here⟩
          rw [skipped rcpt memberRcpt] at here
          cases here
        · exact unstopped earlier old
      · rintro ⟨before, reached, after, split, ⟨rcpt, memberRcpt, here⟩, holds, unstopped⟩
        cases before with
        | nil =>
          obtain ⟨rfl, _⟩ := List.cons.inj split
          rw [skipped rcpt memberRcpt] at here
          cases here
        | cons first before =>
          obtain ⟨rfl, later⟩ := List.cons.inj split
          exact ⟨before, reached, after, later, ⟨rcpt, memberRcpt, here⟩, holds, fun earlier member =>
            unstopped earlier (List.mem_cons_of_mem _ member)⟩
    · push Not at skipped
      obtain ⟨first, member, here⟩ := skipped
      rw [Ne, Bool.not_eq_false] at here
      rw [runRules_cons member here]
      constructor
      · rintro ⟨evaluation, memberEvaluation, holds⟩
        rcases List.mem_cons.mp memberEvaluation with rfl | later
        · exact ⟨[], rule, rest, rfl, ⟨first, member, here⟩, holds, nofun⟩
        · by_cases stop : (actionsOf rule).any isStop = true
          · rw [if_pos stop] at later
            exact absurd later List.not_mem_nil
          · rw [if_neg stop] at later
            obtain ⟨before, reached, after, rfl, some_rcpt, holds, unstopped⟩ :=
              (ih _).mp ⟨evaluation, later, holds⟩
            refine ⟨rule :: before, reached, after, rfl, some_rcpt, holds, ?_⟩
            intro earlier memberEarlier
            rcases List.mem_cons.mp memberEarlier with rfl | old
            · rintro ⟨stops, _⟩
              exact stop (List.any_eq_true.mpr stops)
            · exact unstopped earlier old
      · rintro ⟨before, reached, after, split, some_rcpt, holds, unstopped⟩
        cases before with
        | nil =>
          obtain ⟨rfl, _⟩ := List.cons.inj split
          exact ⟨_, List.mem_cons_self, holds⟩
        | cons earlier before =>
          obtain ⟨rfl, later⟩ := List.cons.inj split
          have stop : ¬ (actionsOf rule).any isStop = true := fun stops =>
            unstopped rule List.mem_cons_self ⟨List.any_eq_true.mp stops, first, member, here⟩
          rw [if_neg stop]
          obtain ⟨evaluation, memberEvaluation, found⟩ := (ih _).mpr ⟨before, reached, after, later,
            some_rcpt, holds, fun other memberOther =>
              unstopped other (List.mem_cons_of_mem _ memberOther)⟩
          exact ⟨evaluation, List.mem_cons_of_mem _ memberEvaluation, found⟩

/-- The rules are evaluated in their order, each in full, and each action sees the headers of those
before it. -/
theorem runRules_ok (handled : List String) (rules : List Json) : ∀ message,
    ((runRules handled rules message).map Evaluation.rule).Sublist rules ∧
    (∀ evaluation ∈ runRules handled rules message, evaluation.Complete handled) ∧
    Seen message ((runRules handled rules message).flatMap Evaluation.executions) := by
  induction rules with
  | nil => exact fun message => ⟨List.Sublist.slnil, nofun, seen_nil message⟩
  | cons rule rest ih =>
    intro message
    by_cases skipped : ∀ rcpt ∈ handled, ruleMatches rule rcpt = false
    · rw [runRules_skip skipped]
      obtain ⟨ordered, complete, seen⟩ := ih message
      exact ⟨ordered.cons _, complete, seen⟩
    · push Not at skipped
      obtain ⟨first, member, here⟩ := skipped
      rw [Ne, Bool.not_eq_false] at here
      rw [runRules_cons member here]
      have complete := evaluationOf_complete handled rule message
      have seen := (runActions_ok (actionsOf rule) message).2.2.2
      by_cases stop : (actionsOf rule).any isStop = true
      · rw [if_pos stop]
        refine ⟨(List.nil_sublist _).cons_cons _, fun evaluation memberEvaluation => ?_, ?_⟩
        · rw [List.mem_singleton.mp memberEvaluation]
          exact complete
        · rw [List.flatMap_singleton]
          exact seen
      · rw [if_neg stop]
        obtain ⟨ordered, completeRest, seenRest⟩ :=
          ih ((uptoStop (actionsOf rule)).foldl addHeader message)
        refine ⟨ordered.cons_cons _, fun evaluation memberEvaluation => ?_, ?_⟩
        · rcases List.mem_cons.mp memberEvaluation with rfl | old
          · exact complete
          · exact completeRest evaluation old
        · rw [List.flatMap_cons]
          refine Seen.append seen ?_
          rw [complete.executed]
          exact seenRest

/-! ### The recipients -/

/-- The recipient is captured in the inbox, or in the evaluation of a rule that matches it. -/
def Reached (inbound : Inbound) (delivered : Delivered) (rcpt : String) : Prop :=
  (rcpt ∈ delivered.result.unhandled ∧ delivered.captured = some inbound.raw) ∨
    ∃ evaluation ∈ delivered.evaluations, ruleMatches evaluation.rule rcpt = true ∧
      bareAddress rcpt ∈ evaluation.matched ∧
      evaluation.executions.map Execution.action = uptoStop (actionsOf evaluation.rule)

/-- **No recipient is lost, and the rules are evaluated in order.** -/
structure Kept (rules : List Json) (inbound : Inbound) (delivered : Delivered) : Prop where
  recipients : ∀ rcpt ∈ inbound.rcpts, Reached inbound delivered rcpt
  ordered : (delivered.evaluations.map Evaluation.rule).Sublist rules
  seen : Seen (receivedMessage inbound delivered.result.handled)
    (delivered.evaluations.flatMap Evaluation.executions)

/-- Each recipient that an enabled rule matches is matched by one that no stopping rule precedes. -/
def Unstopped (rules : List Json) (rcpts : List String) : Prop :=
  ∀ rcpt ∈ rcpts, (∃ rule ∈ rules, ruleMatches rule rcpt = true) →
    ∃ before rule after, rules = before ++ rule :: after ∧ ruleMatches rule rcpt = true ∧
      ∀ earlier ∈ before, ¬ Stops rcpts earlier

theorem mem_handledBy {rules : List Json} {rcpts : List String} {rcpt : String} :
    rcpt ∈ handledBy rules rcpts ↔
      rcpt ∈ rcpts ∧ ∃ rule ∈ rules, ruleMatches rule rcpt = true := by
  unfold handledBy
  rw [List.mem_filter, List.any_eq_true]

theorem mem_unhandledBy {rules : List Json} {rcpts : List String} {rcpt : String} :
    rcpt ∈ unhandledBy rules rcpts ↔
      rcpt ∈ rcpts ∧ ¬ ∃ rule ∈ rules, ruleMatches rule rcpt = true := by
  unfold unhandledBy
  rw [List.mem_filter, Bool.not_eq_true', Bool.eq_false_iff, Ne, List.any_eq_true]

/-- A stopping rule stops for a recipient that is handled. -/
theorem stops_handled {rules : List Json} {rcpts : List String} {rule : Json}
    (member : rule ∈ rules) : Stops (handledBy rules rcpts) rule ↔ Stops rcpts rule := by
  constructor
  · rintro ⟨stops, rcpt, handled, here⟩
    exact ⟨stops, rcpt, (mem_handledBy.mp handled).1, here⟩
  · rintro ⟨stops, rcpt, memberRcpt, here⟩
    exact ⟨stops, rcpt, mem_handledBy.mpr ⟨memberRcpt, rule, member, here⟩, here⟩

/-- What the listener does with a message that is not too long. -/
theorem deliver_ok (active : Option (List Json)) {inbound : Inbound}
    (small : inbound.raw.length ≤ maxInboundBytes) : ∃ delivered,
      deliver active inbound = .ok delivered ∧
      delivered.result.handled = handledBy (enabledRules active) inbound.rcpts ∧
      delivered.result.unhandled = unhandledBy (enabledRules active) inbound.rcpts ∧
      (delivered.captured = some inbound.raw ∨ delivered.result.unhandled = []) ∧
      delivered.evaluations = runRules (handledBy (enabledRules active) inbound.rcpts)
        (enabledRules active)
        (receivedMessage inbound (handledBy (enabledRules active) inbound.rcpts)) := by
  have accepted : ¬ maxInboundBytes < inbound.raw.length := Nat.not_lt.mpr small
  have captures : ∀ unhandled : List String,
      (if unhandled.isEmpty then none else some inbound.raw) = some inbound.raw ∨
        unhandled = [] := by
    intro unhandled
    cases unhandled with
    | nil => exact Or.inr rfl
    | cons first rest => exact Or.inl rfl
  unfold deliver receive
  rw [rejectIf, if_neg accepted]
  by_cases none_handled : (handledBy (enabledRules active) inbound.rcpts).isEmpty = true
  · rw [List.isEmpty_iff] at none_handled
    refine ⟨⟨⟨none, [], unhandledBy (enabledRules active) inbound.rcpts⟩, [], _⟩, ?_, ?_, rfl,
      captures _, ?_⟩
    · simp only [none_handled]
      rfl
    · exact none_handled.symm
    · rw [none_handled]
      have silent : ∀ rules message, runRules [] rules message = [] := by
        intro rules
        induction rules with
        | nil => exact fun _ => rfl
        | cons rule rest ih =>
          intro message
          rw [runRules_skip (fun _ member => absurd member List.not_mem_nil), ih]
      exact (silent _ _).symm
  · refine ⟨⟨⟨some inbound.messageId, handledBy (enabledRules active) inbound.rcpts,
      unhandledBy (enabledRules active) inbound.rcpts⟩, _, _⟩, ?_, rfl, rfl, captures _, rfl⟩
    simp only [none_handled]
    rfl

/-- **When no recipient is lost**: exactly when each that is matched is matched by a rule that no
stopping rule precedes. -/
theorem recipients_kept (active : Option (List Json)) (inbound : Inbound)
    (small : inbound.raw.length ≤ maxInboundBytes) : ∃ delivered,
      deliver active inbound = .ok delivered ∧
      (Kept (enabledRules active) inbound delivered ↔
        Unstopped (enabledRules active) inbound.rcpts) := by
  obtain ⟨delivered, done, handled, unhandled, captured, evaluations⟩ := deliver_ok active small
  obtain ⟨ordered, complete, seen⟩ := runRules_ok (handledBy (enabledRules active) inbound.rcpts)
    (enabledRules active) (receivedMessage inbound (handledBy (enabledRules active) inbound.rcpts))
  rw [← evaluations] at ordered complete seen
  refine ⟨delivered, done, ⟨fun kept rcpt member matching => ?_, fun unstopped => ?_⟩⟩
  · rcases kept.recipients rcpt member with ⟨lost, _⟩ | ⟨evaluation, reached, here, _⟩
    · rw [unhandled] at lost
      exact absurd matching (mem_unhandledBy.mp lost).2
    · rw [evaluations] at reached
      obtain ⟨before, rule, after, split, _, holds, unstopped⟩ :=
        (mem_runRules (fun rule => ruleMatches rule rcpt = true) _ _).mp ⟨evaluation, reached, here⟩
      refine ⟨before, rule, after, split, holds, fun earlier memberEarlier stops => ?_⟩
      refine unstopped earlier memberEarlier ((stops_handled ?_).mpr stops)
      rw [split]
      exact List.mem_append_left _ memberEarlier
  · refine ⟨fun rcpt member => ?_, ordered, by rwa [handled]⟩
    by_cases matching : ∃ rule ∈ enabledRules active, ruleMatches rule rcpt = true
    · obtain ⟨before, rule, after, split, here, clear⟩ := unstopped rcpt member matching
      have memberHandled := mem_handledBy.mpr ⟨member, matching⟩
      obtain ⟨evaluation, reached, holds⟩ :=
        (mem_runRules (fun rule => ruleMatches rule rcpt = true) _
          (receivedMessage inbound (handledBy (enabledRules active) inbound.rcpts))).mpr
          ⟨before, rule, after, split, ⟨rcpt, memberHandled, here⟩, here,
            fun earlier memberEarlier stops => by
              refine clear earlier memberEarlier ((stops_handled ?_).mp stops)
              rw [split]
              exact List.mem_append_left _ memberEarlier⟩
      rw [← evaluations] at reached
      have whole := complete evaluation reached
      refine Or.inr ⟨evaluation, reached, holds, ?_, whole.executed⟩
      rw [whole.matched]
      exact List.mem_map_of_mem (List.mem_filter.mpr ⟨memberHandled, holds⟩)
    · have lost : rcpt ∈ delivered.result.unhandled := by
        rw [unhandled]
        exact mem_unhandledBy.mpr ⟨member, matching⟩
      refine Or.inl ⟨lost, captured.resolve_right fun none_lost => ?_⟩
      rw [none_lost] at lost
      exact absurd lost List.not_mem_nil

/-- A rule for one recipient. -/
def sampleRule (recipient : String) (action : Json) : Json :=
  .obj [("Actions", .arr [action]), ("Enabled", .bool true), ("Recipients", .arr [.str recipient])]

/-- A rule that stops, and a rule for another recipient. -/
def sampleRules : List Json :=
  [sampleRule "a@x.test" (.obj [("StopAction", .obj [("Scope", .str "RuleSet")])]),
    sampleRule "b@x.test" (.obj [("S3Action", .obj [("BucketName", .str "mail")])])]

def sampleInbound : Inbound where
  mailFrom := "s@y.test"
  rcpts := ["a@x.test", "b@x.test"]
  raw := utf8 "Subject: hi\r\n\r\nhi\r\n"
  messageId := "id"
  date := "Thu, 01 Jan 1970 00:00:00 +0000"

theorem recipients_kept_sample : ∃ delivered,
    deliver (some sampleRules.reverse) sampleInbound = .ok delivered ∧
    (Kept (enabledRules (some sampleRules.reverse)) sampleInbound delivered ↔
      Unstopped (enabledRules (some sampleRules.reverse)) sampleInbound.rcpts) :=
  recipients_kept (some sampleRules.reverse) sampleInbound (by decide)

/-- A recipient whose rule comes after one that stops for another recipient is lost. -/
theorem recipient_lost : ∃ delivered, deliver (some sampleRules) sampleInbound = .ok delivered ∧
    "b@x.test" ∈ sampleInbound.rcpts ∧ ¬ Reached sampleInbound delivered "b@x.test" := by
  refine ⟨_, rfl, by decide, ?_⟩
  rintro (⟨lost, _⟩ | ⟨evaluation, member, here, _⟩)
  · revert lost
    decide
  · rw [List.mem_singleton.mp member] at here
    revert here
    decide

end CloudTwin.Ses
