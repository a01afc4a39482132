/-
**SES email receiving** (`aws/ses/receiving.rs`, and `deliver` of `mailbox/smtp.rs`).

An inbound message is matched against the enabled rules of the active rule set. A recipient that no
rule matches goes to the capture inbox; the rules that match any of the others are evaluated in
order, until an action stops the evaluation.

What an action does with other services is left out: an action is recorded with the recipients its
rule matched and the message it saw. The random message id and the date are arguments.

* `receive` — the evaluation, with its trace.
* `deliver` — what the SMTP listener does with a message.
-/

import CloudTwin.External
import CloudTwin.Lib.Transaction
import CloudTwin.Lib.Utf8

namespace CloudTwin.Ses

open Lib Lib.Text

/-! ### Text and values -/

def bareAddress (addr : String) : String :=
  let chars := (trim addr).toList
  match rfind '<' chars, rfind '>' chars with
  | some start, some stop =>
    if start < stop then trim (String.ofList ((chars.take stop).drop (start + 1)))
    else String.ofList chars
  | _, _ => String.ofList chars

/-- `value.as_array()`. -/
def asArray : Json → Option (List Json)
  | .arr items => some items
  | _ => none

def asBool (value : Option Json) (default : Bool) : Bool :=
  match value with
  | some (.bool value) => value
  | some (.str text) => eqIgnoreAsciiCase text "true"
  | _ => default

/-! ### Rules -/

/-- Does a receipt-rule recipient condition match `rcpt`?
`user@example.com` exact, `example.com` whole domain, `.example.com` subdomains. -/
def recipientMatches (pattern rcpt : String) : Bool :=
  let p := toAsciiLowercase (trim pattern)
  let r := toAsciiLowercase (bareAddress rcpt)
  let domain := if r.toList.contains '@' then afterLast '@' r else ""
  if p.toList.contains '@' then p == r
  else if startsWith p "." then endsWith domain p
  else domain == p

def ruleMatches (rule : Json) (rcpt : String) : Bool :=
  match (rule.get "Recipients").bind asArray with
  | some (first :: rest) =>
    ((first :: rest).filterMap Json.asStr).any fun pattern => recipientMatches pattern rcpt
  | _ => true

def isEnabled (rule : Json) : Bool :=
  asBool (rule.get "Enabled") false

/-- `rule["Actions"].as_array().into_iter().flatten()`. -/
def actionsOf (rule : Json) : List Json :=
  ((rule.get "Actions").bind asArray).getD []

/-! ### Actions -/

/-- The keys of the actions, in the order in which they are looked for. -/
def actionKinds : List String :=
  ["AddHeaderAction", "S3Action", "SNSAction", "BounceAction", "LambdaAction", "WorkmailAction",
    "StopAction"]

/-- The key that decides what the action is, and its value. -/
def kindOf (action : Json) : Option (String × Json) :=
  actionKinds.findSome? fun kind => (action.get kind).map fun value => (kind, value)

/-- `value.get(key).and_then(|v| v.as_str()).unwrap_or("")`. -/
def textOf (value : Json) (key : String) : String :=
  ((value.get key).bind Json.asStr).getD ""

/-- The message after the action: `AddHeaderAction` puts a header before it. -/
def addHeader (message : List UInt8) (action : Json) : List UInt8 :=
  match kindOf action with
  | some ("AddHeaderAction", value) =>
    let name := textOf value "HeaderName"
    if name.isEmpty then message
    else utf8 (name ++ ": " ++ textOf value "HeaderValue" ++ "\r\n") ++ message
  | _ => message

/-- Execute one receipt action. Returns `true` for a StopAction. -/
def runAction (action : Json) (message : List UInt8) : List UInt8 × Bool :=
  (addHeader message action, (kindOf action).any fun kind => kind.1 == "StopAction")

/-! ### Evaluation -/

/-- An action that was executed, with the message it saw. -/
structure Execution where
  action : Json
  message : List UInt8

/-- A rule that was evaluated, with the recipients it matched and the actions executed. -/
structure Evaluation where
  rule : Json
  matched : List String
  executions : List Execution

/-- The loop over the actions of a rule: the actions executed, the message, and whether to stop. -/
def runActions : List Json → List UInt8 → List Execution × List UInt8 × Bool
  | [], message => ([], message, false)
  | action :: rest, message =>
    let (after, stop) := runAction action message
    if stop then ([⟨action, message⟩], after, true)
    else
      let (executions, final, stopped) := runActions rest after
      (⟨action, message⟩ :: executions, final, stopped)

/-- The loop over the rules. -/
def runRules (handled : List String) : List Json → List UInt8 → List Evaluation
  | [], _ => []
  | rule :: rest, message =>
    let matched := (handled.filter (ruleMatches rule)).map bareAddress
    if matched.isEmpty then runRules handled rest message
    else
      let (executions, after, stopped) := runActions (actionsOf rule) message
      if stopped then [⟨rule, matched, executions⟩]
      else ⟨rule, matched, executions⟩ :: runRules handled rest after

/-- Result of processing one inbound message. -/
structure InboundResult where
  messageId : Option String
  handled : List String
  unhandled : List String

/-- SES rejects inbound messages over 40 MB (headers included). -/
def maxInboundBytes : Nat := 40 * 1024 * 1024

/-- The headers that SES puts before the message. -/
def receivedHeaders (mailFrom messageId first date : String) : String :=
  "Return-Path: <" ++ mailFrom ++ ">\r\n" ++
  "Received: from cloudtwin.local (localhost [127.0.0.1]) by inbound-smtp.us-east-1.amazonaws.com" ++
  " with SMTP id " ++ messageId ++ " for " ++ first ++ "; " ++ date ++ "\r\n" ++
  "X-SES-Spam-Verdict: PASS\r\n" ++
  "X-SES-Virus-Verdict: PASS\r\n" ++
  "Received-SPF: none (spfCheck: cloudtwin.local) client-ip=127.0.0.1;\r\n" ++
  "Authentication-Results: amazonses.com; spf=none; dkim=none; dmarc=none\r\n" ++
  "X-SES-RECEIPT: cloudtwin\r\n"

/-- An inbound message, with the random message id and the date. -/
structure Inbound where
  mailFrom : String
  rcpts : List String
  raw : List UInt8
  messageId : String
  date : String

/-- The enabled rules of the active rule set. -/
def enabledRules (active : Option (List Json)) : List Json :=
  (active.getD []).filter isEnabled

def handledBy (rules : List Json) (rcpts : List String) : List String :=
  rcpts.filter fun rcpt => rules.any fun rule => ruleMatches rule rcpt

def unhandledBy (rules : List Json) (rcpts : List String) : List String :=
  rcpts.filter fun rcpt => !rules.any fun rule => ruleMatches rule rcpt

def messageRejected : String := "Message exceeds the 40 MB SES receiving limit."

/-- The message as the first action sees it. -/
def receivedMessage (inbound : Inbound) (handled : List String) : List UInt8 :=
  utf8 (receivedHeaders inbound.mailFrom inbound.messageId (handled.headD "") inbound.date) ++
    inbound.raw

/-- Run the active receipt rule set over an inbound message. -/
def receive (active : Option (List Json)) (inbound : Inbound) :
    Except String (InboundResult × List Evaluation) := do
  rejectIf (maxInboundBytes < inbound.raw.length) messageRejected
  let rules := enabledRules active
  let handled := handledBy rules inbound.rcpts
  let unhandled := unhandledBy rules inbound.rcpts
  if handled.isEmpty then
    return ({ messageId := none, handled := handled, unhandled := unhandled }, [])
  else
    return ({ messageId := some inbound.messageId, handled := handled, unhandled := unhandled },
      runRules handled rules (receivedMessage inbound handled))

/-- What a delivery of the SMTP listener leaves: the rules evaluated, and the message in the inbox
for the recipients that no rule handled. -/
structure Delivered where
  result : InboundResult
  evaluations : List Evaluation
  captured : Option (List UInt8)

/-- Run SES receipt rules, then capture recipients no rule handled in the inbox. -/
def deliver (active : Option (List Json)) (inbound : Inbound) : Except String Delivered := do
  let (result, evaluations) ← receive active inbound
  let captured := if result.unhandled.isEmpty then none else some inbound.raw
  return { result := result, evaluations := evaluations, captured := captured }

end CloudTwin.Ses
