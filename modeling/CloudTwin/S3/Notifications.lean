/-
**Event notifications of a bucket** (`aws/s3/notify.rs`).

A notification document is parsed and written anew, with the topics in front of the queues, and what was
written is parsed at every event. An event goes to the targets that name it and whose prefix and suffix
its key has; functions are kept in the document and never called.

* `Target`, `Target.matches`, `parseConfig`, `toXml`, `fire` — the code.
* `Target.Sound` — what a target that was parsed is like; `regroup`, the order in the stored document.
* `targetOf_node`, `collect_nodes` — a target that is written is read.
* `notifications_stored` — the stored document is stable, and events go to the targets that were put.
* `fromSeed`, `seeded_fire` — the document of a seed: one event name that does not begin with `s3:`
  silences all of its targets.
-/

import CloudTwin.S3.CorsRules

namespace CloudTwin.S3

open Lib Lib.Text Lib.Xml Proto

/-! ### The code -/

inductive DestKind where
  | queue
  | topic
  | lambda
deriving DecidableEq

/-- `DestKind::element`. -/
def DestKind.element : DestKind → String × String
  | queue => ("QueueConfiguration", "Queue")
  | topic => ("TopicConfiguration", "Topic")
  | lambda => ("CloudFunctionConfiguration", "CloudFunction")

structure Target where
  kind : DestKind
  id : String
  arn : String
  events : List String
  /-- Filter rules as (name as given, value); names are prefix/suffix. -/
  rules : List (String × String)
deriving DecidableEq

def Target.rule (target : Target) (name : String) : Option String :=
  (target.rules.find? fun rule => eqIgnoreAsciiCase rule.1 name).map Prod.snd

def Target.matches (target : Target) (eventName key : String) : Bool :=
  let full := "s3:" ++ eventName
  (target.events.any fun e => e == full || (stripSuffix e "*").any fun p => startsWith full p) &&
    (target.rule "prefix").all (fun p => startsWith key p) &&
      (target.rule "suffix").all fun s => endsWith key s

structure NotificationConfig where
  targets : List Target
  eventbridge : Bool
deriving DecidableEq

/-- What a child of the document configures, and where it names the destination. -/
def kindOf (name : String) : Option (DestKind × String) :=
  if name = "QueueConfiguration" then some (.queue, "Queue")
  else if name = "TopicConfiguration" then some (.topic, "Topic")
  else if name = "CloudFunctionConfiguration" ∨ name = "LambdaFunctionConfiguration" then
    some (.lambda, "CloudFunction")
  else none

def isFilterName (name : String) : Bool :=
  eqIgnoreAsciiCase name "prefix" || eqIgnoreAsciiCase name "suffix"

def filterRuleOf (r : Element) : S3Result (String × String) :=
  let name := (r.childText "Name").getD ""
  if !isFilterName name then
    .error (((S3Error.invalidArgument "filter rule name must be either prefix or suffix").withField
      "ArgumentName" "FilterRule.Name").withField "ArgumentValue" name)
  else .ok (name, ((r.child "Value").map Element.text).getD "")

def checkEvent (e : String) : S3Result Unit :=
  if !startsWith e "s3:" then
    .error ((S3Error.invalidArgument "The event is not supported for notifications").withField
      "ArgumentName" e)
  else .ok ()

/-- A target; `newId` is what `generated_id` gives if the document has no id. -/
def targetOf (newId : String) (kind : DestKind) (arnName : String) (c : Element) : S3Result Target := do
  let arn ← (((c.childText arnName).or (c.childText "LambdaFunctionArn")).filter (· ≠ "")).elim
    (.error S3Error.malformedXml) .ok
  let events := childTexts c "Event"
  if events.isEmpty then .error S3Error.malformedXml
  else
    events.forM checkEvent
    let rules ← (c.path ["Filter", "S3Key"]).elim (.ok []) fun key =>
      (key.childrenNamed "FilterRule").mapM filterRuleOf
    return { kind, id := ((c.childText "Id").filter (· ≠ "")).getD newId, arn, events, rules }

/-- The loop of `parse` over the children of the document. -/
def collect (newId : Nat → String) : Nat → List Element → NotificationConfig → S3Result NotificationConfig
  | _, [], cfg => .ok cfg
  | n, c :: rest, cfg =>
    match kindOf c.name with
    | some (kind, arnName) =>
      match targetOf (newId n) kind arnName c with
      | .error error => .error error
      | .ok target => collect newId (n + 1) rest { cfg with targets := cfg.targets ++ [target] }
    | none =>
      collect newId (n + 1) rest
        (if c.name = "EventBridgeConfiguration" then { cfg with eventbridge := true } else cfg)

/-- Parse and validate a `<NotificationConfiguration>` document. -/
def parseConfig [Reader] (newId : Nat → String) (xml : List UInt8) : S3Result NotificationConfig :=
  match parseRoot "NotificationConfiguration" xml with
  | .error error => .error error
  | .ok doc => collect newId 0 doc.children { targets := [], eventbridge := false }

def filterXml (rules : List (String × String)) : String :=
  if rules.isEmpty then ""
  else "<Filter><S3Key>" ++ concat (rules.map fun rule =>
    "<FilterRule>" ++ tag "Name" rule.1 ++ tag "Value" rule.2 ++ "</FilterRule>") ++ "</S3Key></Filter>"

def targetXml (t : Target) : String :=
  let (el, arnEl) := t.kind.element
  "<" ++ el ++ ">" ++ tag "Id" t.id ++ tag arnEl t.arn ++ concat (t.events.map (tag "Event")) ++
    filterXml t.rules ++ "</" ++ el ++ ">"

def ofKind (targets : List Target) (kind : DestKind) : List Target :=
  targets.filter fun t => t.kind = kind

/-- The targets in the order in which they are written. -/
def regroup (targets : List Target) : List Target :=
  ofKind targets .topic ++ (ofKind targets .queue ++ ofKind targets .lambda)

def toXml (cfg : NotificationConfig) : String :=
  rootXml "NotificationConfiguration" (concat ((regroup cfg.targets).map targetXml) ++
    if cfg.eventbridge then "<EventBridgeConfiguration/>" else "")

/-- `qualify`: a name becomes the address of a queue or a topic. -/
def qualify (kind : DestKind) (name : String) : String :=
  if startsWith name "arn:" then name
  else "arn:aws:" ++ (if kind = .queue then "sqs" else "sns") ++ ":us-east-1:000000000000:" ++ name

/-- One entry of a list of a seed; without a destination it is passed over. -/
def seedTarget (list : String) (kind : DestKind) (field : String) (i : Nat) (item : Json) : Option Target :=
  (((item.get field).or (item.get "arn")).bind Json.asStr).map fun dest =>
    { kind
      id := ((item.get "id").bind Json.asStr).getD ("seed-" ++ list ++ "-" ++ toString i)
      arn := qualify kind dest
      events := ((((item.get "events").bind itemsOf).map fun a => a.filterMap Json.asStr).filter
        fun events => !events.isEmpty).getD ["s3:ObjectCreated:*"]
      rules := ["prefix", "suffix"].filterMap fun r =>
        ((item.get r).bind Json.asStr).map fun val => (r, val) }

def seedTargets (v : Json) (list : String) (kind : DestKind) (field : String) : List Target :=
  ((((v.get list).bind itemsOf).getD []).mapIdx (seedTarget list kind field)).filterMap id

/-- `from_seed`. -/
def fromSeed (v : Json) : NotificationConfig where
  targets := seedTargets v "queues" .queue "queue" ++ seedTargets v "topics" .topic "topic"
  eventbridge := false

/-- `fire`: the targets that an event is delivered to, from the stored document. -/
def fire [Reader] (newId : Nat → String) (stored : Option String) (eventName key : String) : List Target :=
  match stored with
  | none => []
  | some body =>
    match parseConfig newId (utf8 body) with
    | .error _ => []
    | .ok cfg => cfg.targets.filter fun t => t.kind ≠ .lambda && t.matches eventName key

/-! ### What is written -/

def filterNode (rule : String × String) : Node :=
  .branch "FilterRule" [.leaf "Name" rule.1, .leaf "Value" rule.2]

def filterNodes (rules : List (String × String)) : List Node :=
  if rules.isEmpty then []
  else [.branch "Filter" [.branch "S3Key" (rules.map filterNode)]]

def targetNode (t : Target) : Node :=
  .branch t.kind.element.1 (.leaf "Id" t.id :: .leaf t.kind.element.2 t.arn ::
    (leaves "Event" t.events ++ filterNodes t.rules))

def bridgeNodes (eventbridge : Bool) : List Node :=
  if eventbridge then [.empty "EventBridgeConfiguration"] else []

def configNodes (cfg : NotificationConfig) : List Node :=
  (regroup cfg.targets).map targetNode ++ bridgeNodes cfg.eventbridge

theorem filterXml_print (rules : List (String × String)) :
    (filterXml rules).toList = printAll (filterNodes rules) := by
  have opens : "<Filter><S3Key>".toList = openTag "Filter".toList ++ openTag "S3Key".toList := rfl
  have closes : "</S3Key></Filter>".toList = closeTag "S3Key" ++ closeTag "Filter" := rfl
  have openRule : "<FilterRule>".toList = openTag "FilterRule".toList := rfl
  have closeRule : "</FilterRule>".toList = closeTag "FilterRule" := rfl
  have inner := concat_print (fun rule : String × String =>
    "<FilterRule>" ++ tag "Name" rule.1 ++ tag "Value" rule.2 ++ "</FilterRule>")
    filterNode rules fun rule _ => by
      unfold filterNode
      simp only [String.toList_append, tag_print, openRule, closeRule, Node.print, printAll, List.append_assoc,
        List.append_nil]
  unfold filterXml filterNodes
  by_cases empty : rules.isEmpty = true
  · rw [if_pos empty, if_pos empty]
    rfl
  · rw [if_neg empty, if_neg empty]
    simp only [String.toList_append, inner, opens, closes, Node.print, printAll, List.append_assoc,
      List.append_nil]

theorem targetXml_print (t : Target) : (targetXml t).toList = (targetNode t).print := by
  have openText : "<".toList = ['<'] := rfl
  have endText : ">".toList = ['>'] := rfl
  have closeText : "</".toList = ['<', '/'] := rfl
  have events : (concat (t.events.map (tag "Event"))).toList = printAll (leaves "Event" t.events) :=
    concat_print (tag "Event") (.leaf "Event") t.events fun event _ => tag_print "Event" event
  have children : printAll (.leaf "Id" t.id :: .leaf t.kind.element.2 t.arn ::
      (leaves "Event" t.events ++ filterNodes t.rules)) = (Node.leaf "Id" t.id).print ++
        ((Node.leaf t.kind.element.2 t.arn).print ++ (printAll (leaves "Event" t.events) ++
          printAll (filterNodes t.rules))) := by
    rw [← printAll_append]
    rfl
  unfold targetXml targetNode
  rw [Node.print, children]
  unfold openTag closeTag
  simp only [String.toList_append, tag_print, events, filterXml_print, openText, endText, closeText,
    List.append_assoc, List.cons_append, List.nil_append]

theorem configXml_print (cfg : NotificationConfig) : (concat ((regroup cfg.targets).map targetXml) ++
    if cfg.eventbridge then "<EventBridgeConfiguration/>" else "").toList = printAll (configNodes cfg) := by
  unfold configNodes
  rw [String.toList_append, printAll_append,
    concat_print targetXml targetNode _ fun target _ => targetXml_print target]
  cases cfg.eventbridge with
  | true => rfl
  | false => rfl

theorem DestKind.plain (kind : DestKind) : Plain kind.element.1 ∧ Plain kind.element.2 := by
  cases kind <;> exact ⟨plain_of_all (by decide), plain_of_all (by decide)⟩

theorem filterNodes_named (rules : List (String × String)) : AllNamed (filterNodes rules) := by
  unfold filterNodes
  split
  · trivial
  · refine ⟨⟨plain_of_all (by decide), ⟨plain_of_all (by decide), ?_⟩, trivial⟩, trivial⟩
    rw [allNamed_iff]
    intro node member
    obtain ⟨rule, _, rfl⟩ := List.mem_map.mp member
    exact ⟨plain_of_all (by decide), plain_of_all (by decide), plain_of_all (by decide),
      trivial⟩

theorem configNodes_named (cfg : NotificationConfig) : AllNamed (configNodes cfg) := by
  rw [allNamed_iff]
  intro node member
  rcases List.mem_append.mp member with target | bridge
  · obtain ⟨t, _, rfl⟩ := List.mem_map.mp target
    refine ⟨t.kind.plain.1, plain_of_all (by decide), t.kind.plain.2, ?_⟩
    rw [allNamed_iff]
    intro child inside
    rcases List.mem_append.mp inside with event | filter
    · exact allNamed_iff.mp (allNamed_leaves (plain_of_all (by decide)) _) child event
    · exact allNamed_iff.mp (filterNodes_named _) child filter
  · unfold bridgeNodes at bridge
    split at bridge
    · rw [List.mem_singleton.mp bridge]
      exact plain_of_all (by decide)
    · exact absurd bridge List.not_mem_nil

/-! ### What is read -/

/-- What can be read: a destination, events of S3, and filters of the two kinds. -/
structure Target.Readable (t : Target) : Prop where
  arn : trim t.arn ≠ ""
  some' : t.events ≠ []
  events : ∀ e ∈ t.events, startsWith (trim e) "s3:" = true
  rules : ∀ rule ∈ t.rules, isFilterName (trim rule.1) = true

/-- A target as it is read from a document. -/
def Target.trimmed (newId : String) (t : Target) : Target where
  kind := t.kind
  id := if trim t.id = "" then newId else trim t.id
  arn := trim t.arn
  events := t.events.map trim
  rules := t.rules.map fun rule => (trim rule.1, rule.2)

theorem Target.trimmed_kind (newId : String) (t : Target) : (t.trimmed newId).kind = t.kind := by
  simp only [Target.trimmed]

theorem target_kind (t : Target) : kindOf (element (targetNode t)).name = some (t.kind, t.kind.element.2) := by
  obtain ⟨kind, id, arn, events, rules⟩ := t
  cases kind <;> rfl

theorem target_id (t : Target) : (element (targetNode t)).childText "Id" = some (trim t.id) := rfl

theorem target_arn (t : Target) :
    (element (targetNode t)).childText t.kind.element.2 = some (trim t.arn) := by
  obtain ⟨kind, id, arn, events, rules⟩ := t
  cases kind <;> rfl

/-- The children of a name, behind the id and the destination. -/
theorem target_children (t : Target) {name : String} (notId : "Id" ≠ name)
    (notArn : t.kind.element.2 ≠ name) : (element (targetNode t)).childrenNamed name =
      ((leaves "Event" t.events).map element).filter (fun child => child.name == name) ++
        ((filterNodes t.rules).map element).filter (fun child => child.name == name) := by
  have first : ((element (.leaf "Id" t.id)).name == name) = false := beq_eq_false_iff_ne.mpr notId
  have second : ((element (.leaf t.kind.element.2 t.arn)).name == name) = false :=
    beq_eq_false_iff_ne.mpr notArn
  show (elements (.leaf "Id" t.id :: .leaf t.kind.element.2 t.arn ::
    (leaves "Event" t.events ++ filterNodes t.rules))).filter _ = _
  rw [elements_eq, List.map_cons, List.map_cons, List.filter_cons_of_neg (by rw [first]; exact Bool.false_ne_true),
    List.filter_cons_of_neg (by rw [second]; exact Bool.false_ne_true), List.map_append, List.filter_append]

theorem kind_apart (kind : DestKind) : kind.element.2 ≠ "Event" ∧ kind.element.2 ≠ "Filter" := by
  cases kind <;> decide

theorem target_events (t : Target) : childTexts (element (targetNode t)) "Event" = t.events.map trim := by
  have none' : ((filterNodes t.rules).map element).filter (fun child => child.name == "Event") = [] := by
    unfold filterNodes
    split <;> rfl
  rw [childTexts, target_children t (by decide) (kind_apart t.kind).1, none', filter_leaves, if_pos rfl,
    List.append_nil, List.map_map]
  rfl

theorem target_filter (t : Target) : (element (targetNode t)).path ["Filter", "S3Key"] =
    if t.rules.isEmpty then none
    else some (.mk "S3Key" [] (t.rules.map fun rule => element (filterNode rule)) "") := by
  have child := child_eq (element (targetNode t)) "Filter"
  rw [target_children t (by decide) (kind_apart t.kind).2, filter_leaves, if_neg (by decide),
    List.nil_append] at child
  show ((element (targetNode t)).child "Filter" >>= fun filter => [("S3Key" : String)].foldlM Element.child filter) = _
  rw [child]
  unfold filterNodes
  by_cases empty : t.rules.isEmpty = true
  · rw [if_pos empty, if_pos empty]
    rfl
  · rw [if_neg empty, if_neg empty]
    show some (Element.mk "S3Key" [] (elements _) "") = _
    rw [elements_eq, List.map_map]
    rfl

theorem filterRule_node (rule : String × String) :
    filterRuleOf (element (filterNode rule)) =
      if !isFilterName (trim rule.1) then
        .error (((S3Error.invalidArgument "filter rule name must be either prefix or suffix").withField
          "ArgumentName" "FilterRule.Name").withField "ArgumentValue" (trim rule.1))
      else .ok (trim rule.1, rule.2) := rfl

theorem filter_filled (text : String) :
    (some text).filter (fun text => decide (text ≠ "")) = if text = "" then none else some text := by
  by_cases empty : text = "" <;> simp [Option.filter, empty]

/-- **A target that is written is read, trimmed.** -/
theorem targetOf_node (newId : String) {t : Target} (readable : t.Readable) :
    targetOf newId t.kind t.kind.element.2 (element (targetNode t)) = .ok (t.trimmed newId) := by
  have filled : (t.events.map trim).isEmpty = false := by
    rw [List.isEmpty_eq_false_iff]
    exact fun none' => readable.some' (List.map_eq_nil_iff.mp none')
  have checked : (t.events.map trim).forM checkEvent = .ok () := by
    refine forM_ok.mpr fun e member => ?_
    obtain ⟨event, inside, rfl⟩ := List.mem_map.mp member
    unfold checkEvent
    rw [readable.events event inside]
    rfl
  have rules : ((element (targetNode t)).path ["Filter", "S3Key"]).elim (.ok []) (fun key =>
      (key.childrenNamed "FilterRule").mapM filterRuleOf) =
        (.ok (t.rules.map fun rule => (trim rule.1, rule.2)) : S3Result (List (String × String))) := by
    rw [target_filter]
    by_cases empty : t.rules.isEmpty = true
    · rw [if_pos empty, List.isEmpty_iff.mp empty]
      rfl
    · rw [if_neg empty, Option.elim_some]
      have children : (Element.mk "S3Key" [] (t.rules.map fun rule => element (filterNode rule))
          "").childrenNamed "FilterRule" = t.rules.map fun rule => element (filterNode rule) := by
        refine List.filter_eq_self.mpr fun child member => ?_
        obtain ⟨rule, _, rfl⟩ := List.mem_map.mp member
        rfl
      have each : ∀ rule ∈ t.rules, filterRuleOf (element (filterNode rule)) = .ok (trim rule.1, rule.2) := by
        intro rule member
        rw [filterRule_node, readable.rules rule member]
        rfl
      rw [children, mapM_ok filterRuleOf (fun rule => element (filterNode rule))
        (fun rule => (trim rule.1, rule.2)) t.rules each]
  have arn : (some (trim t.arn)).filter (fun arn => decide (arn ≠ "")) = some (trim t.arn) := by
    rw [filter_filled, if_neg readable.arn]
  have id : ((some (trim t.id)).filter fun id => decide (id ≠ "")).getD newId =
      if trim t.id = "" then newId else trim t.id := by
    rw [filter_filled]
    split
    · rfl
    · rfl
  unfold targetOf
  rw [target_arn, Option.some_or, arn, Option.elim_some, target_events, target_id, id, rules]
  show (if (t.events.map trim).isEmpty = true then _ else ((t.events.map trim).forM checkEvent >>= _)) = _
  rw [filled, if_neg Bool.false_ne_true, checked]
  rfl

/-- What was read can be read again, and there is nothing more to trim. -/
theorem targetOf_sound {newId arnName : String} {kind : DestKind} {c : Element} {target : Target}
    (given : newId ≠ "" ∧ trim newId = newId) (read : targetOf newId kind arnName c = .ok target) :
    target.Readable ∧ ∀ other, target.trimmed other = target := by
  unfold targetOf at read
  have texts : ∀ name text, c.childText name = some text → trim text = text := by
    intro name text found
    unfold Element.childText at found
    obtain ⟨child, _, rfl⟩ := Option.map_eq_some_iff.mp found
    exact trim_trim _
  cases destination : ((c.childText arnName).or (c.childText "LambdaFunctionArn")).filter fun arn =>
      decide (arn ≠ "") with
  | none =>
    rw [destination] at read
    cases read
  | some arn =>
    rw [destination] at read
    change (if (childTexts c "Event").isEmpty = true then .error S3Error.malformedXml else
      ((childTexts c "Event").forM checkEvent >>= fun _ => _ : S3Result Target)) = _ at read
    obtain ⟨found, filled⟩ := Option.filter_eq_some_iff.mp destination
    have arnTrimmed : trim arn = arn := by
      rcases Option.or_eq_some_iff.mp found with first | ⟨_, second⟩
      · exact texts _ _ first
      · exact texts _ _ second
    split at read
    · cases read
    · rename_i some'
      cases checked : (childTexts c "Event").forM checkEvent with
      | error error =>
        rw [checked] at read
        cases read
      | ok done =>
        rw [checked] at read
        cases ruled : ((c.path ["Filter", "S3Key"]).elim (.ok []) fun key =>
            (key.childrenNamed "FilterRule").mapM filterRuleOf : S3Result (List (String × String))) with
        | error error =>
          rw [ruled] at read
          cases read
        | ok rules =>
          rw [ruled] at read
          obtain rfl := Except.ok.inj read
          have events : (childTexts c "Event").map trim = childTexts c "Event" := by
            unfold childTexts
            rw [List.map_map]
            exact List.map_congr_left fun child _ => trim_trim child.text
          have named : ∀ rule ∈ rules, isFilterName rule.1 = true ∧ trim rule.1 = rule.1 := by
            intro rule member
            cases filter : c.path ["Filter", "S3Key"] with
            | none =>
              rw [filter] at ruled
              obtain rfl := Except.ok.inj ruled
              exact absurd member List.not_mem_nil
            | some key =>
              rw [filter] at ruled
              obtain ⟨r, _, isRule⟩ := mapM_each ruled rule member
              unfold filterRuleOf at isRule
              dsimp only at isRule
              split at isRule
              · cases isRule
              · rename_i name
                obtain rfl := Except.ok.inj isRule
                refine ⟨by simpa using name, ?_⟩
                unfold Element.childText
                cases r.child "Name" with
                | none =>
                  show trim "" = ""
                  decide
                | some child => exact trim_trim _
          have idSound : ((c.childText "Id").filter fun id => decide (id ≠ "")).getD newId ≠ "" ∧
              trim (((c.childText "Id").filter fun id => decide (id ≠ "")).getD newId) =
                ((c.childText "Id").filter fun id => decide (id ≠ "")).getD newId := by
            cases own : (c.childText "Id").filter fun id => decide (id ≠ "") with
            | none => exact given
            | some id =>
              obtain ⟨here, filled⟩ := Option.filter_eq_some_iff.mp own
              exact ⟨of_decide_eq_true filled, texts _ _ here⟩
          refine ⟨⟨?_, fun none' => some' (by rw [List.isEmpty_iff]; exact none'), fun e member => ?_,
            fun rule member => ?_⟩, fun other => ?_⟩
          · show trim arn ≠ ""
            rw [arnTrimmed]
            exact of_decide_eq_true filled
          · have isTrimmed : trim e = e := by
              obtain ⟨child, _, rfl⟩ := List.mem_map.mp member
              exact trim_trim _
            have here := forM_ok.mp checked e member
            unfold checkEvent at here
            split at here
            · cases here
            · rename_i starts
              rw [isTrimmed]
              simpa using starts
          · rw [(named rule member).2]
            exact (named rule member).1
          · have rulesTrimmed : rules.map (fun rule => (trim rule.1, rule.2)) = rules := by
              refine (List.map_congr_left fun rule member => ?_).trans (List.map_id rules)
              show (trim rule.1, rule.2) = rule
              rw [(named rule member).2]
            unfold Target.trimmed
            dsimp only
            rw [events, arnTrimmed, rulesTrimmed, idSound.2, if_neg idSound.1]

theorem targetOf_events {newId : String} {t target : Target}
    (read : targetOf newId t.kind t.kind.element.2 (element (targetNode t)) = .ok target) :
    ∀ e ∈ t.events, startsWith (trim e) "s3:" = true := by
  unfold targetOf at read
  rw [target_events] at read
  cases destination : (((element (targetNode t)).childText t.kind.element.2).or
      ((element (targetNode t)).childText "LambdaFunctionArn")).filter fun arn => decide (arn ≠ "") with
  | none =>
    rw [destination] at read
    cases read
  | some arn =>
    rw [destination] at read
    change (if (t.events.map trim).isEmpty = true then .error S3Error.malformedXml else
      ((t.events.map trim).forM checkEvent >>= fun _ => _ : S3Result Target)) = _ at read
    split at read
    · cases read
    · cases checked : (t.events.map trim).forM checkEvent with
      | error error =>
        rw [checked] at read
        cases read
      | ok done =>
        intro e member
        have here := forM_ok.mp checked (trim e) (List.mem_map_of_mem member)
        unfold checkEvent at here
        split at here
        · cases here
        · rename_i starts
          simpa using starts

theorem regroup_mem {targets : List Target} {t : Target} : t ∈ regroup targets ↔ t ∈ targets := by
  unfold regroup ofKind
  simp only [List.mem_append, List.mem_filter, decide_eq_true_iff]
  cases t.kind <;> simp

theorem ofKind_ofKind (targets : List Target) (kind other : DestKind) :
    ofKind (ofKind targets kind) other = if kind = other then ofKind targets kind else [] := by
  unfold ofKind
  rw [List.filter_filter]
  by_cases same : kind = other
  · subst same
    rw [if_pos rfl]
    simp
  · rw [if_neg same, List.filter_eq_nil_iff]
    intro t _ both
    rw [Bool.and_eq_true, decide_eq_true_iff, decide_eq_true_iff] at both
    exact same (both.2.symm.trans both.1)

/-- Targets that were regrouped are in order. -/
theorem regroup_regroup (targets : List Target) : regroup (regroup targets) = regroup targets := by
  have kinds : ∀ kind, ofKind (regroup targets) kind = ofKind targets kind := by
    intro kind
    have split : ∀ first second : List Target,
        ofKind (first ++ second) kind = ofKind first kind ++ ofKind second kind :=
      fun first second => List.filter_append first second
    unfold regroup
    rw [split, split, ofKind_ofKind, ofKind_ofKind, ofKind_ofKind]
    cases kind <;> simp
  unfold regroup at kinds ⊢
  rw [kinds, kinds, kinds]

theorem collect_nodes (newId : Nat → String) {targets : List Target} (rest : List Element) :
    ∀ (n : Nat) (cfg : NotificationConfig), (∀ t ∈ targets, t.Readable) →
      collect newId n ((targets.map fun t => element (targetNode t)) ++ rest) cfg =
        collect newId (n + targets.length) rest { cfg with
          targets := cfg.targets ++ targets.mapIdx fun i t => t.trimmed (newId (n + i)) } := by
  induction targets with
  | nil =>
    intro n cfg _
    show collect newId n rest cfg = collect newId (n + 0) rest { cfg with targets := cfg.targets ++ [] }
    rw [List.append_nil, Nat.add_zero]
  | cons t targets ih =>
    intro n cfg readable
    rw [List.map_cons, List.cons_append, collect, target_kind]
    dsimp only
    rw [targetOf_node (newId n) (readable t List.mem_cons_self)]
    dsimp only
    rw [ih (n + 1) _ fun other member => readable other (List.mem_cons_of_mem _ member), List.mapIdx_cons,
      List.append_assoc, List.length_cons]
    have index : ∀ i, n + 1 + i = n + (i + 1) := fun i => by omega
    simp only [index, Nat.add_zero, List.singleton_append]

theorem collect_bridge (newId : Nat → String) (n : Nat) (b : Bool) (cfg : NotificationConfig) :
    collect newId n ((bridgeNodes b).map element) cfg =
      .ok { cfg with eventbridge := cfg.eventbridge || b } := by
  obtain ⟨targets, eventbridge⟩ := cfg
  cases b with
  | true =>
    rw [Bool.or_true]
    rfl
  | false =>
    rw [Bool.or_false]
    rfl

/-- A document is refused unless all its events are events of S3. -/
theorem collect_events {newId : Nat → String} {targets : List Target} {rest : List Element} :
    ∀ {n : Nat} {cfg result : NotificationConfig},
      collect newId n ((targets.map fun t => element (targetNode t)) ++ rest) cfg = .ok result →
        ∀ t ∈ targets, ∀ e ∈ t.events, startsWith (trim e) "s3:" = true := by
  induction targets with
  | nil => exact fun _ _ member => absurd member List.not_mem_nil
  | cons t targets ih =>
    intro n cfg result collected
    rw [List.map_cons, List.cons_append, collect, target_kind] at collected
    dsimp only at collected
    cases read : targetOf (newId n) t.kind t.kind.element.2 (element (targetNode t)) with
    | error error =>
      rw [read] at collected
      cases collected
    | ok target =>
      rw [read] at collected
      intro other member e inside
      rcases List.mem_cons.mp member with rfl | later
      · exact targetOf_events read e inside
      · exact ih collected other later e inside

section Stored

variable {reader : Reader} (reads : Reads reader)

include reads

theorem parseConfig_children (newId : Nat → String) (cfg : NotificationConfig) :
    parseConfig newId (utf8 (toXml cfg)) = collect newId 0
      (((regroup cfg.targets).map fun t => element (targetNode t)) ++ (bridgeNodes cfg.eventbridge).map element)
      { targets := [], eventbridge := false } := by
  have plainRoot : Plain "NotificationConfiguration" := plain_of_all (by decide)
  have parsed := parseRoot_rootXml reads plainRoot (configNodes_named cfg) (configXml_print cfg)
  have children : (configNodes cfg).map element = ((regroup cfg.targets).map fun t => element (targetNode t)) ++
      (bridgeNodes cfg.eventbridge).map element := by
    unfold configNodes
    rw [List.map_append, List.map_map]
    rfl
  unfold parseConfig toXml
  rw [parsed, ← children]
  rfl

/-- **What is written is read**, trimmed. -/
theorem parseConfig_xml (newId : Nat → String) {cfg : NotificationConfig}
    (readable : ∀ t ∈ cfg.targets, t.Readable) : parseConfig newId (utf8 (toXml cfg)) =
      .ok { targets := (regroup cfg.targets).mapIdx fun i t => t.trimmed (newId i)
            eventbridge := cfg.eventbridge } := by
  have nodes := collect_nodes newId ((bridgeNodes cfg.eventbridge).map element) 0
    { targets := [], eventbridge := false } fun t member => readable t (regroup_mem.mp member)
  rw [parseConfig_children reads, nodes, collect_bridge]
  simp only [Nat.zero_add, List.nil_append, Bool.false_or]

/-- **One event that is no event of S3 silences the document**: nothing is delivered to any target. -/
theorem one_bad_event (newId : Nat → String) {cfg : NotificationConfig} {t : Target} {e : String}
    (member : t ∈ cfg.targets) (event : e ∈ t.events) (bad : startsWith (trim e) "s3:" = false)
    (eventName key : String) : fire newId (some (toXml cfg)) eventName key = [] := by
  unfold fire
  dsimp only
  cases parsed : parseConfig newId (utf8 (toXml cfg)) with
  | error error => rfl
  | ok found =>
    rw [parseConfig_children reads] at parsed
    have good := collect_events parsed t (regroup_mem.mpr member) e event
    rw [bad] at good
    cases good

end Stored

theorem collect_sound {newId : Nat → String} (given : ∀ n, newId n ≠ "" ∧ trim (newId n) = newId n)
    {children : List Element} : ∀ {n : Nat} {cfg result : NotificationConfig},
      collect newId n children cfg = .ok result →
        (∀ t ∈ cfg.targets, t.Readable ∧ ∀ other, t.trimmed other = t) →
          ∀ t ∈ result.targets, t.Readable ∧ ∀ other, t.trimmed other = t := by
  induction children with
  | nil =>
    intro n cfg result collected sound
    obtain rfl := Except.ok.inj collected
    exact sound
  | cons c rest ih =>
    intro n cfg result collected sound
    unfold collect at collected
    split at collected
    · rename_i kind arnName _
      cases read : targetOf (newId n) kind arnName c with
      | error error =>
        rw [read] at collected
        cases collected
      | ok target =>
        rw [read] at collected
        refine ih collected fun t member => ?_
        rcases List.mem_append.mp member with old | new
        · exact sound t old
        · rw [List.mem_singleton.mp new]
          exact targetOf_sound (given n) read
    · refine ih collected fun t member => ?_
      split at member
      · exact sound t member
      · exact sound t member

section Put

variable {reader : Reader} (reads : Reads reader) {newId : Nat → String}
  (given : ∀ n, newId n ≠ "" ∧ trim (newId n) = newId n)

include reads given

/-- **The document that is stored** says what was put, with the topics first; storing what it says
changes nothing; and an event goes to the topics and queues that were put for it, each once. -/
theorem notifications_stored {body : List UInt8} {cfg : NotificationConfig}
    (put : parseConfig newId body = .ok cfg) :
    parseConfig newId (utf8 (toXml cfg)) = .ok ⟨regroup cfg.targets, cfg.eventbridge⟩ ∧
      toXml ⟨regroup cfg.targets, cfg.eventbridge⟩ = toXml cfg ∧
      ∀ eventName key, fire newId (some (toXml cfg)) eventName key =
        (ofKind cfg.targets .topic ++ ofKind cfg.targets .queue).filter fun t => t.matches eventName key := by
  have sound : ∀ t ∈ cfg.targets, t.Readable ∧ ∀ other, t.trimmed other = t := by
    unfold parseConfig at put
    cases root : parseRoot "NotificationConfiguration" body with
    | error error =>
      rw [root] at put
      cases put
    | ok doc =>
      rw [root] at put
      exact collect_sound given put fun t member => absurd member List.not_mem_nil
  have same : ((regroup cfg.targets).mapIdx fun i t => t.trimmed (newId i)) = regroup cfg.targets := by
    refine List.ext_getElem (by simp) fun i _ inside => ?_
    rw [List.getElem_mapIdx]
    exact (sound _ (regroup_mem.mp (List.getElem_mem inside))).2 (newId i)
  have parsed := parseConfig_xml reads newId fun t member => (sound t member).1
  rw [same] at parsed
  refine ⟨parsed, ?_, fun eventName key => ?_⟩
  · unfold toXml
    rw [regroup_regroup]
  · have kinds : ∀ kind : DestKind, (ofKind cfg.targets kind).filter (fun t =>
        decide (t.kind ≠ .lambda) && t.matches eventName key) =
          if kind = .lambda then [] else (ofKind cfg.targets kind).filter fun t => t.matches eventName key := by
      intro kind
      have own : ∀ t ∈ ofKind cfg.targets kind, t.kind = kind := fun t member =>
        of_decide_eq_true (List.mem_filter.mp member).2
      by_cases function : kind = .lambda
      · rw [if_pos function, List.filter_eq_nil_iff]
        intro t member called
        rw [own t member, function] at called
        cases called
      · rw [if_neg function]
        refine List.filter_congr fun t member => ?_
        rw [own t member, decide_eq_true function, Bool.true_and]
    unfold fire
    dsimp only
    rw [parsed]
    dsimp only
    unfold regroup
    rw [List.filter_append, List.filter_append, kinds, kinds, kinds, if_neg (by decide), if_neg (by decide),
      if_pos rfl, List.append_nil, List.filter_append]

end Put

def sampleTarget : Target where
  kind := .queue
  id := "orders"
  arn := "arn:aws:sqs:us-east-1:000000000000:orders"
  events := ["s3:ObjectCreated:*"]
  rules := [("suffix", ".csv")]

def sampleConfig : NotificationConfig where
  targets := [sampleTarget]
  eventbridge := true

theorem sampleTarget_readable : sampleTarget.Readable where
  arn := by decide
  some' := List.cons_ne_nil _ _
  events := by decide
  rules := by decide

theorem notifications_stored_lexer :
    @fire lexer (fun _ => "id") (some (toXml sampleConfig)) "ObjectCreated:Put" "may.csv" = [sampleTarget] := by
  have put : @parseConfig lexer (fun _ => "id") (utf8 (toXml sampleConfig)) = .ok sampleConfig :=
    parseConfig_xml lexer_reads (fun _ => "id") fun t member => by
      rw [List.mem_singleton.mp member]
      exact sampleTarget_readable
  have given : ∀ n, (fun _ : Nat => "id") n ≠ "" ∧ trim ((fun _ : Nat => "id") n) = (fun _ : Nat => "id") n :=
    fun _ => ⟨show "id" ≠ "" by decide, show trim "id" = "id" by decide⟩
  rw [(notifications_stored lexer_reads given put).2.2]
  decide

/-! ### Seeds -/

/-- The events of a target are read again. -/
def Target.named (t : Target) : Bool := t.events.all fun e => startsWith (trim e) "s3:"

theorem qualify_filled (kind : DestKind) (name : String) : trim (qualify kind name) ≠ "" := by
  have filled : ∀ rest : List Char, trim (String.ofList ('a' :: rest)) ≠ "" := by
    intro rest empty
    obtain ⟨before, after, one, two, whole⟩ := Words.trimBy_spec (p := isWhitespace) ('a' :: rest)
    have none' : Words.trimBy isWhitespace ('a' :: rest) = [] := by
      have chars := congrArg String.toList empty
      unfold trim at chars
      rwa [String.toList_ofList, String.toList_ofList] at chars
    rw [none', List.nil_append] at whole
    have here : 'a' ∈ before ++ after := whole ▸ List.mem_cons_self
    rcases List.mem_append.mp here with inside | inside
    · exact absurd (one _ inside) (by decide)
    · exact absurd (two _ inside) (by decide)
  have begins : ∃ rest, qualify kind name = String.ofList ('a' :: rest) := by
    unfold qualify
    split
    · rename_i starts
      obtain ⟨rest, whole⟩ := List.isPrefixOf_iff_prefix.mp starts
      exact ⟨_, String.toList_injective (by rw [String.toList_ofList, ← whole]; rfl)⟩
    · exact ⟨_, String.toList_injective (by
        rw [String.toList_ofList, String.toList_append, String.toList_append, String.toList_append]; rfl)⟩
  obtain ⟨rest, same⟩ := begins
  rw [same]
  exact filled rest

/-- What a seed configures, but for the names of its events. -/
theorem seeded_target {v : Json} {list field : String} {kind : DestKind} {t : Target}
    (member : t ∈ seedTargets v list kind field) :
    t.kind = kind ∧ trim t.arn ≠ "" ∧ t.events ≠ [] ∧ ∀ rule ∈ t.rules, isFilterName (trim rule.1) = true := by
  obtain ⟨found, listed, rfl⟩ := List.mem_filterMap.mp member
  obtain ⟨i, inside, made⟩ := List.mem_mapIdx.mp listed
  unfold seedTarget at made
  obtain ⟨dest, _, rfl⟩ := Option.map_eq_some_iff.mp made
  refine ⟨rfl, qualify_filled kind dest, ?_, fun rule member => ?_⟩
  · dsimp only
    intro empty
    cases given : ((((v.get list).bind itemsOf).getD [])[i].get "events" |>.bind itemsOf |>.map
      fun a => a.filterMap Json.asStr).filter fun events => !events.isEmpty with
    | none =>
      rw [given] at empty
      cases empty
    | some events =>
      rw [given, Option.getD_some] at empty
      have filled := (Option.filter_eq_some_iff.mp given).2
      rw [empty] at filled
      cases filled
  · obtain ⟨name, isName, found⟩ := List.mem_filterMap.mp member
    obtain ⟨value, _, rfl⟩ := Option.map_eq_some_iff.mp found
    have both : ∀ name ∈ ["prefix", "suffix"], isFilterName (trim name) = true := by decide
    exact both name isName

theorem fromSeed_readable {v : Json} {t : Target} (member : t ∈ (fromSeed v).targets)
    (named : t.named = true) : t.Readable := by
  rcases List.mem_append.mp member with queue | topic
  · obtain ⟨_, arn, some', rules⟩ := seeded_target queue
    exact ⟨arn, some', fun e inside => List.all_eq_true.mp named e inside, rules⟩
  · obtain ⟨_, arn, some', rules⟩ := seeded_target topic
    exact ⟨arn, some', fun e inside => List.all_eq_true.mp named e inside, rules⟩

theorem fromSeed_regroup (v : Json) : regroup (fromSeed v).targets =
    seedTargets v "topics" .topic "topic" ++ seedTargets v "queues" .queue "queue" := by
  have own : ∀ (list field : String) (kind other : DestKind), ofKind (seedTargets v list kind field) other =
      if kind = other then seedTargets v list kind field else [] := by
    intro list field kind other
    by_cases same : kind = other
    · rw [if_pos same]
      refine List.filter_eq_self.mpr fun t member => decide_eq_true ?_
      rw [(seeded_target member).1, same]
    · rw [if_neg same]
      refine List.filter_eq_nil_iff.mpr fun t member here => same ?_
      rw [← (seeded_target member).1]
      exact of_decide_eq_true here
  have split : ∀ kind : DestKind, ofKind (fromSeed v).targets kind =
      ofKind (seedTargets v "queues" .queue "queue") kind ++ ofKind (seedTargets v "topics" .topic "topic") kind :=
    fun kind => List.filter_append _ _
  unfold regroup
  rw [split, split, split, own, own, own, own, own, own]
  simp

section Seeded

variable {reader : Reader} (reads : Reads reader)

include reads

/-- **The events of a seeded bucket** go to the topics of the seed and then to its queues, as long as
each event in the whole seed begins with `s3:`; one that does not silences all targets. -/
theorem seeded_fire (newId : Nat → String) (v : Json) (eventName key : String) :
    fire newId (some (toXml (fromSeed v))) eventName key =
      if (fromSeed v).targets.all Target.named then
        ((seedTargets v "topics" .topic "topic" ++ seedTargets v "queues" .queue "queue").mapIdx
          fun i t => t.trimmed (newId i)).filter fun t => t.matches eventName key
      else [] := by
  split
  · rename_i named
    have readable : ∀ t ∈ (fromSeed v).targets, t.Readable := fun t member =>
      fromSeed_readable member (List.all_eq_true.mp named t member)
    have called : ∀ t ∈ seedTargets v "topics" .topic "topic" ++ seedTargets v "queues" .queue "queue",
        t.kind ≠ .lambda := by
      intro t member
      rcases List.mem_append.mp member with topic | queue
      · rw [(seeded_target topic).1]
        decide
      · rw [(seeded_target queue).1]
        decide
    unfold fire
    dsimp only
    rw [parseConfig_xml reads newId readable, fromSeed_regroup]
    generalize seedTargets v "topics" .topic "topic" ++ seedTargets v "queues" .queue "queue" = targets at called
    refine List.filter_congr fun t member => ?_
    obtain ⟨i, inside, rfl⟩ := List.mem_mapIdx.mp member
    have kind : targets[i].kind ≠ .lambda := called _ (List.getElem_mem inside)
    have same : (targets[i].trimmed (newId i)).kind ≠ .lambda := by
      rw [Target.trimmed_kind]
      exact kind
    rw [decide_eq_true same, Bool.true_and]
  · rename_i silent
    obtain ⟨t, member, unnamed⟩ : ∃ t ∈ (fromSeed v).targets, ¬t.named = true := by
      by_contra all
      refine silent (List.all_eq_true.mpr fun t member => ?_)
      by_contra unnamed
      exact all ⟨t, member, unnamed⟩
    obtain ⟨e, event, bad⟩ : ∃ e ∈ t.events, ¬startsWith (trim e) "s3:" = true := by
      by_contra all
      refine unnamed (List.all_eq_true.mpr fun e event => ?_)
      by_contra bad
      exact all ⟨e, event, bad⟩
    exact one_bad_event reads newId member event (Bool.eq_false_of_not_eq_true bad) eventName key

end Seeded

/-- Two queues, one of which has an event without its `s3:`. -/
def sampleTargets : Json :=
  .obj [("queues", .arr [.obj [("queue", .str "orders")],
    .obj [("queue", .str "audit"), ("events", .arr [.str "ObjectRemoved:*"])]])]

theorem seeded_fire_lexer :
    @fire lexer (fun _ => "id") (some (toXml (fromSeed sampleTargets))) "ObjectCreated:Put" "a.txt" = [] := by
  have silent : ¬(fromSeed sampleTargets).targets.all Target.named = true := by decide
  have fired := seeded_fire lexer_reads (fun _ => "id") sampleTargets "ObjectCreated:Put" "a.txt"
  rwa [if_neg silent] at fired

end CloudTwin.S3
