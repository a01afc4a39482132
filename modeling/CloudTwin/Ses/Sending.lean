/-
**SES sending** (`aws/ses/sending.rs`).

A send looks up the identity that its sender is covered by, in the sandbox those of its recipients too,
and refuses before it writes. The lookups move the verification of the identities on, at the time of
the send. The documents are left out, and so is what the send has forwarded to others: a row stands for
the message, the inbox copy and each event.

* `sendingIdentity` — the lookup; `sendEmail` — the send.
* `identitiesOf`, `Accepts` — the identities that cover an address, and the rule for a send.
* `Missed` — an address that is covered by the last label of its domain only.
* `Unharmed`, `send_accepted` — the sends that are accepted by the rule, though addresses may be missed;
  a refused one leaves no trace.
* `single_label_refused` — a send that a domain of one label covers.
-/

import CloudTwin.Ses.Identities

namespace CloudTwin.Ses

open Lib Lib.Text

set_option linter.unusedSectionVars false

/-! ### Requests and tables -/

def maxMessageBytes : Nat := 40 * 1024 * 1024

def maxRecipients : Nat := 50

def simulatorDomain : String := "simulator.amazonses.com"

inductive SendContent where
  | simple (subject : String)
  | raw (message : List UInt8)

structure SendRequest where
  fromAddress : String
  toAddresses : List String
  ccAddresses : List String
  bccAddresses : List String
  content : SendContent
  configurationSet : Option String

/-- What the headers of a raw message say. -/
structure ParsedMail where
  fromAddresses : List String
  toAddresses : List String
  ccAddresses : List String
  bccAddresses : List String
  subject : Option String

/-- **The parser of the crate `mail_parser`.** -/
class MailParser where
  parse : List UInt8 → Option ParsedMail

inductive SendErrorKind where
  | sendingPaused
  | messageRejected
  | badRequest
  | configurationSetDoesNotExist
  | mailFromDomainNotVerified
deriving DecidableEq

structure SendError where
  kind : SendErrorKind
  message : String
deriving DecidableEq

/-- A row of `ses_messages`. -/
structure StoredMessage where
  messageId : String
  source : String
  destinations : List String
  subject : String
  configurationSet : Option String
  status : String
deriving DecidableEq

/-- The settings of the account and the configuration, and the tables; of the inbox the ids of the
messages, of the event log the types of the events. -/
structure SendStore where
  sendingEnabled : Bool
  productionAccessEnabled : Bool
  strictVerification : Bool
  identities : List SesIdentity
  configurationSets : List String
  suppressed : List String
  messages : List StoredMessage
  inbox : List String
  events : List (String × String)
deriving DecidableEq

/-! ### Identities -/

/-- `load_identity`. -/
def loadIdentity (store : SendStore) (identity : String) : Option SesIdentity :=
  store.identities.find? fun row => row.identity == normalizeIdentity identity

/-- `save_identity`. -/
def saveIdentity (store : SendStore) (row : SesIdentity) : SendStore :=
  { store with
    identities := store.identities.map fun other => if other.identity = row.identity then row else other }

/-- `get_identity`, with a read that does not count. -/
def getIdentity (store : SendStore) (now : Int) (identity : String) : Option SesIdentity × SendStore :=
  match loadIdentity store identity with
  | none => (none, store)
  | some row =>
    (some (row.refresh false now),
      if row.refreshSaves false now then saveIdentity store (row.refresh false now) else store)

/-- The first of the identities that is verified. -/
def firstVerified (now : Int) : List String → SendStore → Option SesIdentity × SendStore
  | [], store => (none, store)
  | name :: rest, store =>
    match getIdentity store now name with
    | (some row, after) => if row.verified then (some row, after) else firstVerified now rest after
    | (none, after) => firstVerified now rest after

/-- **`sending_identity`**: the verified identity that covers an address. -/
def sendingIdentity (store : SendStore) (now : Int) (address : String) :
    Option SesIdentity × SendStore :=
  firstVerified now (candidates address) store

/-! ### Recipients -/

def isSimulator (addr : String) : Bool :=
  addressDomain addr == some simulatorDomain

/-- The recipients that the sandbox refuses. -/
def unverifiedOf (now : Int) : List String → SendStore → List String × SendStore
  | [], store => ([], store)
  | recipient :: rest, store =>
    if isSimulator recipient then unverifiedOf now rest store
    else
      let (identity, after) := sendingIdentity store now recipient
      let (others, last) := unverifiedOf now rest after
      (if identity.isNone then bareAddress recipient :: others else others, last)

inductive Outcome where
  | delivered
  | outOfOffice
  | complaint
  | bounce (subType : String)
  | delayed
deriving DecidableEq

/-- `simulator_outcome`: the outcome, and whether it rejects the whole message. -/
def simulatorOutcome (recipient : String) : Option (Outcome × Bool) :=
  let addr := toAsciiLowercase (bareAddress recipient)
  if '@' ∈ addr.toList ∧ afterLast '@' addr = simulatorDomain then
    let user := beforeFirst '+' (beforeLast '@' addr)
    if user = "bounce" then some (.bounce "General", false)
    else if user = "suppressionlist" then some (.bounce "Suppressed", false)
    else if user = "complaint" then some (.complaint, false)
    else if user = "ooto" then some (.outOfOffice, false)
    else if user = "delay" then some (.delayed, false)
    else if user = "reject" then some (.delivered, true)
    else some (.delivered, false)
  else none

def outcomeOf (store : SendStore) (recipient : String) : Outcome :=
  match simulatorOutcome recipient with
  | some (outcome, _) => outcome
  | none =>
    if toAsciiLowercase (bareAddress recipient) ∈ store.suppressed then
      .bounce "OnAccountSuppressionList"
    else .delivered

def Outcome.isBounce : Outcome → Bool
  | .bounce _ => true
  | _ => false

/-- The events of a message that is not rejected, after `Send`: bounces are grouped. -/
def eventTypes (outcomes : List Outcome) : List String :=
  let has (types : List Outcome) (event : String) :=
    if outcomes.any (types.contains ·) then [event] else []
  has [.delivered, .outOfOffice, .complaint] "Delivery" ++ has [.bounce "General"] "Bounce" ++
    has [.bounce "OnAccountSuppressionList"] "Bounce" ++ has [.bounce "Suppressed"] "Bounce" ++
    has [.complaint] "Complaint" ++ has [.delayed] "DeliveryDelay"

/-! ### Sending -/

def refusal (kind : SendErrorKind) (message : String) : SendError :=
  ⟨kind, message⟩

def notVerified (addresses : String) : SendError :=
  refusal .messageRejected ("Email address is not verified. The following identities failed the " ++
    "check in region US-EAST-1: " ++ addresses)

/-- The identity has a MAIL FROM domain that is not verified, and rejects messages then. -/
def SesIdentity.rejectsMailFrom (identity : SesIdentity) : Bool :=
  identity.mailFromDomain.isSome && identity.mailFrom.status != SUCCESS &&
    identity.mailFromBehavior == "REJECT_MESSAGE"

def SendRequest.recipients (req : SendRequest) : List String :=
  req.toAddresses ++ req.ccAddresses ++ req.bccAddresses

/-- What an accepted send writes. -/
def recordSend (store : SendStore) (messageId : String) (req : SendRequest) (subject : String)
    (configurationSet : Option String) : SendStore :=
  let outcomes := req.recipients.map (outcomeOf store)
  let rejected := req.recipients.any fun recipient => (simulatorOutcome recipient).any Prod.snd
  { store with
    messages := store.messages ++
      [{ messageId, source := req.fromAddress, destinations := req.recipients, subject,
         configurationSet, status := if rejected then "rejected" else "sent" }]
    inbox :=
      if !rejected && outcomes.any fun outcome => !outcome.isBounce then store.inbox ++ [messageId]
      else store.inbox
    events := store.events ++ (messageId, "Send") ::
      if rejected then [(messageId, "Reject")]
      else (eventTypes outcomes).map fun event => (messageId, event) }

section Parser

variable [MailParser]

/-- The subject, and the sender and the recipients that only the headers of a raw message give. -/
def SendRequest.withHeaders (req : SendRequest) : SendRequest × String :=
  match req.content with
  | .simple subject => (req, subject)
  | .raw message =>
    match MailParser.parse message with
    | none => (req, "")
    | some mail =>
      let named := { req with
        fromAddress :=
          if req.fromAddress = "" then mail.fromAddresses.headD "" else req.fromAddress }
      (if req.recipients = [] then
          { named with
            toAddresses := mail.toAddresses
            ccAddresses := mail.ccAddresses
            bccAddresses := mail.bccAddresses }
        else named,
        mail.subject.getD "")

/-- The checks of the sender's identity, once it is known. -/
def withIdentity (store : SendStore) (messageId : String) (req : SendRequest) (subject : String)
    (identity : Option SesIdentity) : Except SendError String × SendStore :=
  let configurationSet := req.configurationSet.or (identity.bind SesIdentity.configurationSet)
  if configurationSet.any fun name => !store.configurationSets.contains name then
    (.error (refusal .configurationSetDoesNotExist
      ("Configuration set <" ++ configurationSet.getD "" ++ "> does not exist.")), store)
  else if identity.any SesIdentity.rejectsMailFrom then
    (.error (refusal .mailFromDomainNotVerified
      ("The message could not be sent because Amazon SES could not read the MX record required to " ++
        "use the specified MAIL FROM domain " ++
        (identity.bind SesIdentity.mailFromDomain).getD "" ++ ".")), store)
  else (.ok messageId, recordSend store messageId req subject configurationSet)

/-- The checks of the sender and of the recipients in the sandbox. -/
def withAddresses (store : SendStore) (now : Int) (messageId : String) (req : SendRequest)
    (subject : String) : Except SendError String × SendStore :=
  let sender := bareAddress req.fromAddress
  let (identity, known) := sendingIdentity store now sender
  if identity.isNone && store.strictVerification then (.error (notVerified sender), known)
  else
    let (unverified, seen) :=
      if store.productionAccessEnabled then ([], known) else unverifiedOf now req.recipients known
    if unverified ≠ [] then
      (.error (notVerified (String.intercalate ", " unverified)), seen)
    else withIdentity seen messageId req subject identity

def tooLarge : SendContent → Bool
  | .simple _ => false
  | .raw message => decide (maxMessageBytes < message.length)

/-- **`send_email`**, at a reading of the clock and with a fresh message id. -/
def sendEmail (store : SendStore) (now : Int) (messageId : String) (req : SendRequest) :
    Except SendError String × SendStore :=
  let (headed, subject) := req.withHeaders
  if store.sendingEnabled = false then
    (.error (refusal .sendingPaused "Sending is paused for this account."), store)
  else if tooLarge req.content then
    (.error (refusal .messageRejected "Message length is more than 40 megabytes."), store)
  else if trim headed.fromAddress = "" then
    (.error (refusal .badRequest "Missing required parameter: FromEmailAddress."), store)
  else if headed.recipients = [] then
    (.error (refusal .badRequest "Missing required parameter: Destination."), store)
  else if maxRecipients < headed.recipients.length then
    (.error (refusal .messageRejected "Recipient count exceeds 50."), store)
  else withAddresses store now messageId headed subject

end Parser

/-! ### Lookups -/

/-- The tables differ by what the lookups at one time have moved on. -/
structure MovedOn (now : Int) (store after : SendStore) : Prop where
  rest : after = { store with identities := after.identities }
  rows : ∀ name, (loadIdentity after name).map (SesIdentity.refresh false now) =
    (loadIdentity store name).map (SesIdentity.refresh false now)

theorem MovedOn.refl (now : Int) (store : SendStore) : MovedOn now store store :=
  ⟨rfl, fun _ => rfl⟩

theorem MovedOn.trans {now : Int} {first second third : SendStore} (one : MovedOn now first second)
    (two : MovedOn now second third) : MovedOn now first third where
  rest := by
    rw [two.rest, one.rest]
  rows := fun name => (two.rows name).trans (one.rows name)

theorem loadIdentity_saveIdentity {store : SendStore} {row : SesIdentity} (identity : String) :
    loadIdentity (saveIdentity store row) identity =
      (loadIdentity store identity).map fun other =>
        if other.identity = row.identity then row else other := by
  show (store.identities.map _).find? _ = _
  rw [List.find?_map]
  refine congrArg (Option.map _) (congrArg (fun condition => store.identities.find? condition) ?_)
  funext other
  by_cases same : other.identity = row.identity
  · simp [same]
  · simp [same]

theorem loadIdentity_identity {store : SendStore} {name : String} {row : SesIdentity}
    (loaded : loadIdentity store name = some row) : row.identity = normalizeIdentity name := by
  have same := List.find?_some loaded
  exact beq_iff_eq.mp same

/-- **A read finds the row as it is at that time**, and moves it on. -/
theorem getIdentity_spec (store : SendStore) (now : Int) (name : String) :
    (getIdentity store now name).1 =
      (loadIdentity store name).map (SesIdentity.refresh false now) ∧
    MovedOn now store (getIdentity store now name).2 := by
  unfold getIdentity
  cases loaded : loadIdentity store name with
  | none => exact ⟨rfl, MovedOn.refl now store⟩
  | some row =>
    refine ⟨rfl, ?_⟩
    show MovedOn now store
      (if row.refreshSaves false now = true then saveIdentity store (row.refresh false now) else store)
    by_cases saves : row.refreshSaves false now = true
    · rw [if_pos saves]
      refine ⟨rfl, fun other => ?_⟩
      rw [loadIdentity_saveIdentity]
      cases loadedOther : loadIdentity store other with
      | none => rfl
      | some found =>
        simp only [Option.map_some, Option.some.injEq]
        split
        · rename_i same
          -- one identity has one row
          have own := loadIdentity_identity loaded
          have names : normalizeIdentity other = normalizeIdentity name :=
            (loadIdentity_identity loadedOther).symm.trans (same.trans own)
          have rows : loadIdentity store other = loadIdentity store name := by
            unfold loadIdentity
            rw [names]
          rw [loadedOther, loaded] at rows
          cases rows
          exact refresh_refresh now row
        · rfl
    · rw [if_neg saves]
      exact MovedOn.refl now store

/-- The identity as it is at a time, if it is verified then. -/
def verifiedAt (store : SendStore) (now : Int) (name : String) : Option SesIdentity :=
  ((loadIdentity store name).map (SesIdentity.refresh false now)).filter SesIdentity.verified

theorem MovedOn.verifiedAt {now : Int} {store after : SendStore} (moved : MovedOn now store after)
    (name : String) : verifiedAt after now name = verifiedAt store now name := by
  unfold Ses.verifiedAt
  rw [moved.rows]

/-- **The first identity that is verified**, whatever the lookups write. -/
theorem firstVerified_spec (now : Int) (names : List String) : ∀ store,
    (firstVerified now names store).1 = names.findSome? (verifiedAt store now) ∧
    MovedOn now store (firstVerified now names store).2 := by
  induction names with
  | nil => exact fun store => ⟨rfl, MovedOn.refl now store⟩
  | cons name rest ih =>
    intro store
    obtain ⟨found, moved⟩ := getIdentity_spec store now name
    have later : rest.findSome? (verifiedAt (getIdentity store now name).2 now) =
        rest.findSome? (verifiedAt store now) :=
      congrArg (fun f => rest.findSome? f) (funext moved.verifiedAt)
    unfold firstVerified
    rw [List.findSome?_cons]
    cases got : getIdentity store now name with
    | mk result after =>
      rw [got] at found moved later
      obtain ⟨others, movedOthers⟩ := ih after
      simp only at found moved later
      cases result with
      | none =>
        have absent : verifiedAt store now name = none := by
          unfold verifiedAt
          rw [← found]
          rfl
        simp only [absent]
        exact ⟨others.trans later, moved.trans movedOthers⟩
      | some row =>
        by_cases verified : row.verified = true
        · have present : verifiedAt store now name = some row := by
            unfold verifiedAt
            rw [← found]
            simp [verified]
          simp only [if_pos verified, present]
          exact ⟨trivial, moved⟩
        · have absent : verifiedAt store now name = none := by
            unfold verifiedAt
            rw [← found]
            simp [verified]
          simp only [if_neg verified, absent]
          exact ⟨others.trans later, moved.trans movedOthers⟩

/-- The recipients that no verified identity covers, and that are no simulators. -/
theorem unverifiedOf_spec (now : Int) (recipients : List String) : ∀ store,
    ((unverifiedOf now recipients store).1 = [] ↔ ∀ recipient ∈ recipients,
      isSimulator recipient = true ∨
        ((candidates recipient).findSome? (verifiedAt store now)).isSome = true) ∧
    MovedOn now store (unverifiedOf now recipients store).2 := by
  induction recipients with
  | nil => exact fun store => ⟨by simp [unverifiedOf], MovedOn.refl now store⟩
  | cons recipient rest ih =>
    intro store
    unfold unverifiedOf
    by_cases simulator : isSimulator recipient = true
    · rw [if_pos simulator]
      obtain ⟨others, moved⟩ := ih store
      refine ⟨?_, moved⟩
      rw [others, List.forall_mem_cons]
      simp [simulator]
    · rw [if_neg simulator]
      obtain ⟨found, moved⟩ := firstVerified_spec now (candidates recipient) store
      rw [← sendingIdentity] at found moved
      obtain ⟨others, movedOthers⟩ := ih (sendingIdentity store now recipient).2
      refine ⟨?_, moved.trans movedOthers⟩
      simp only
      have still : ∀ name, verifiedAt (sendingIdentity store now recipient).2 now name =
          verifiedAt store now name := moved.verifiedAt
      rw [funext still] at others
      rw [List.forall_mem_cons, ← others, ← found]
      cases (sendingIdentity store now recipient).1 with
      | none => simp [simulator]
      | some row => simp

/-! ### The rule for a send -/

/-- **The identities that cover an address**: itself, its domain and every parent domain. -/
def identitiesOf (address : String) : List String :=
  let addr := normalizeIdentity (bareAddress address)
  addr :: domainsFrom (domainLabels addr) (domainLabels addr).length

/-- The identity is stored, and verified at the time. -/
def Verified (store : SendStore) (now : Int) (name : String) : Prop :=
  ∃ row, loadIdentity store name = some row ∧ (row.refresh false now).verified = true

/-- One of the identities that cover the address is verified. -/
def Authorised (store : SendStore) (now : Int) (address : String) : Prop :=
  ∃ name ∈ identitiesOf address, Verified store now name

/-- The verified identity that covers the address. -/
def identityOf (store : SendStore) (now : Int) (address : String) : Option SesIdentity :=
  (identitiesOf address).findSome? (verifiedAt store now)

/-- The labels of the domain that an address is looked up by. -/
def labelsOf (address : String) : List String :=
  domainLabels (normalizeIdentity (bareAddress address))

/-- **An address that is covered by the last label of its domain only**: neither the address nor a
domain of two labels or more that it is in is verified, and the last label is. -/
structure Missed (store : SendStore) (now : Int) (address : String) : Prop where
  itself : ¬ Verified store now (normalizeIdentity (bareAddress address))
  domains : ∀ start, start + 1 < (labelsOf address).length →
    ¬ Verified store now (joinLabels ((labelsOf address).drop start))
  label : ∃ label, (labelsOf address).getLast? = some label ∧ Verified store now label

section Parser

variable [MailParser]

/-- **The rule for a send.** -/
structure Accepts (store : SendStore) (now : Int) (req : SendRequest) : Prop where
  enabled : store.sendingEnabled = true
  small : ∀ message, req.content = .raw message → message.length ≤ maxMessageBytes
  sender : trim req.withHeaders.1.fromAddress ≠ ""
  addressed : 1 ≤ req.withHeaders.1.recipients.length
  few : req.withHeaders.1.recipients.length ≤ maxRecipients
  authorised : Authorised store now (bareAddress req.withHeaders.1.fromAddress) ∨
    store.strictVerification = false
  sandbox : store.productionAccessEnabled = true ∨ ∀ recipient ∈ req.withHeaders.1.recipients,
    isSimulator recipient = true ∨ Authorised store now recipient
  configured : ∀ name, req.withHeaders.1.configurationSet.or
      ((identityOf store now (bareAddress req.withHeaders.1.fromAddress)).bind
        SesIdentity.configurationSet) = some name → name ∈ store.configurationSets
  mailFrom : ∀ identity, identityOf store now (bareAddress req.withHeaders.1.fromAddress) =
    some identity → identity.rejectsMailFrom = false

/-- The part of the rule that is checked before any address is looked up. -/
structure Checked (store : SendStore) (req : SendRequest) : Prop where
  enabled : store.sendingEnabled = true
  small : ∀ message, req.content = .raw message → message.length ≤ maxMessageBytes
  sender : trim req.withHeaders.1.fromAddress ≠ ""
  addressed : 1 ≤ req.withHeaders.1.recipients.length
  few : req.withHeaders.1.recipients.length ≤ maxRecipients

/-- What the identity of a sender asks of a send: that the configuration set exists, and that the MAIL
FROM domain does not reject it. -/
structure Demands (store : SendStore) (requested : Option String) (identity : Option SesIdentity) :
    Prop where
  configured : ∀ name, requested.or (identity.bind SesIdentity.configurationSet) = some name →
    name ∈ store.configurationSets
  mailFrom : ∀ row, identity = some row → row.rejectsMailFrom = false

/-- **A send that missed addresses do not harm.** Where the rule accepts it, no address is missed that
has to be covered; and where the sender is missed and need not be covered, and nothing else refuses the
send, it meets the demands of the identity that is not found. -/
structure Unharmed (store : SendStore) (now : Int) (req : SendRequest) : Prop where
  accepted : Accepts store now req →
    (store.strictVerification = true →
      ¬ Missed store now (bareAddress req.withHeaders.1.fromAddress)) ∧
    (store.productionAccessEnabled = false → ∀ recipient ∈ req.withHeaders.1.recipients,
      isSimulator recipient = false → ¬ Missed store now recipient)
  demands : Checked store req → store.strictVerification = false →
    Missed store now (bareAddress req.withHeaders.1.fromAddress) →
    (store.productionAccessEnabled = true ∨ ∀ recipient ∈ req.withHeaders.1.recipients,
      isSimulator recipient = true ∨ Authorised store now recipient ∧ ¬ Missed store now recipient) →
    (∀ name, req.withHeaders.1.configurationSet = some name → name ∈ store.configurationSets) →
    Demands store req.withHeaders.1.configurationSet
      (identityOf store now (bareAddress req.withHeaders.1.fromAddress))

end Parser

theorem verifiedAt_isSome {store : SendStore} {now : Int} {name : String} :
    (verifiedAt store now name).isSome = true ↔ Verified store now name := by
  unfold verifiedAt Verified
  cases loadIdentity store name with
  | none => simp
  | some row => simp [Option.isSome_filter]

theorem authorised_iff {store : SendStore} {now : Int} {address : String} :
    Authorised store now address ↔ (identityOf store now address).isSome = true := by
  rw [identityOf, List.findSome?_isSome_iff]
  exact exists_congr fun name => and_congr_right fun _ => verifiedAt_isSome.symm

/-- The lookup leaves out the last label. -/
theorem identitiesOf_split (address : String) :
    identitiesOf address = candidates address ++ (labelsOf address).getLast?.toList := by
  change _ :: domainsFrom (labelsOf address) (labelsOf address).length =
    _ :: domainsFrom (labelsOf address) ((labelsOf address).length - 1) ++ _
  generalize labelsOf address = labels
  rcases List.eq_nil_or_concat labels with rfl | ⟨front, label, rfl⟩
  · simp [domainsFrom]
  · have last : joinLabels [label] = label := by
      simp [joinLabels]
    simp [domainsFrom, List.range_succ, last]

/-- The verified identity that the lookup finds for an address. -/
def foundFor (store : SendStore) (now : Int) (address : String) : Option SesIdentity :=
  (candidates address).findSome? (verifiedAt store now)

theorem foundFor_none {store : SendStore} {now : Int} {address : String} :
    foundFor store now address = none ↔ ∀ name ∈ candidates address, ¬ Verified store now name := by
  rw [foundFor, List.findSome?_eq_none_iff]
  refine forall_congr' fun name => forall_congr' fun _ => ?_
  rw [← verifiedAt_isSome, Bool.not_eq_true, Option.isSome_eq_false_iff, Option.isNone_iff_eq_none]

theorem mem_candidates {address name : String} :
    name ∈ candidates address ↔ name = normalizeIdentity (bareAddress address) ∨
      ∃ start, start + 1 < (labelsOf address).length ∧
        joinLabels ((labelsOf address).drop start) = name := by
  unfold candidates domainsFrom labelsOf
  simp only [List.mem_cons, List.mem_map, List.mem_range]
  refine or_congr_right (exists_congr fun start => and_congr_left fun _ => ?_)
  omega

/-- **A missed address** is one that is covered, and for which the lookup finds nothing. -/
theorem missed_iff {store : SendStore} {now : Int} {address : String} :
    Missed store now address ↔ foundFor store now address = none ∧ Authorised store now address := by
  rw [foundFor_none]
  constructor
  · rintro ⟨itself, domains, label, last, verified⟩
    refine ⟨fun name member => ?_, label, ?_, verified⟩
    · rcases mem_candidates.mp member with same | ⟨start, before, same⟩
      · rw [same]
        exact itself
      · rw [← same]
        exact domains start before
    · rw [identitiesOf_split, last, Option.toList_some, List.mem_append]
      exact Or.inr (List.mem_singleton_self label)
  · rintro ⟨none, name, member, verified⟩
    refine ⟨none _ (mem_candidates.mpr (Or.inl rfl)),
      fun start before => none _ (mem_candidates.mpr (Or.inr ⟨start, before, rfl⟩)), ?_⟩
    rw [identitiesOf_split] at member
    rcases List.mem_append.mp member with early | last
    · exact absurd verified (none name early)
    · exact ⟨name, Option.mem_toList.mp last, verified⟩

/-- **An address that is not missed** has the identity that covers it. -/
theorem lookup_eq {store : SendStore} {now : Int} {address : String}
    (found : ¬ Missed store now address) :
    foundFor store now address = identityOf store now address := by
  cases first : foundFor store now address with
  | some row =>
    rw [identityOf, identitiesOf_split, List.findSome?_append, ← foundFor, first]
    rfl
  | none =>
    refine (Option.not_isSome_iff_eq_none.mp fun covered => ?_).symm
    exact found (missed_iff.mpr ⟨first, authorised_iff.mpr covered⟩)

/-- The lookup finds an identity exactly for the covered addresses that are not missed. -/
theorem foundFor_isSome {store : SendStore} {now : Int} {address : String} :
    (foundFor store now address).isSome = true ↔
      Authorised store now address ∧ ¬ Missed store now address := by
  constructor
  · intro found
    have missed : ¬ Missed store now address := by
      intro missed
      rw [(missed_iff.mp missed).1] at found
      cases found
    rw [lookup_eq missed] at found
    exact ⟨authorised_iff.mpr found, missed⟩
  · rintro ⟨covered, found⟩
    rw [lookup_eq found]
    exact authorised_iff.mp covered

/-- The lookup is right exactly at the addresses that are not missed. -/
theorem lookup_iff (store : SendStore) (now : Int) (address : String) :
    ((foundFor store now address).isSome = true ↔ Authorised store now address) ↔
      ¬ Missed store now address := by
  rw [foundFor_isSome]
  constructor
  · intro right missed
    exact (right.mpr (missed_iff.mp missed).2).2 missed
  · exact fun found => ⟨And.left, fun covered => ⟨covered, found⟩⟩

/-! ### Sends -/

theorem withIdentity_iff {store : SendStore} {messageId subject : String} {req : SendRequest}
    {identity : Option SesIdentity} :
    (∃ id, (withIdentity store messageId req subject identity).1 = .ok id) ↔
      Demands store req.configurationSet identity := by
  unfold withIdentity
  simp only
  have known : ∀ configurationSet : Option String,
      (configurationSet.any fun name => !store.configurationSets.contains name) = true ↔
        ¬ ∀ name, configurationSet = some name → name ∈ store.configurationSets := by
    intro configurationSet
    cases configurationSet with
    | none => simp
    | some name => simp
  have rejects : identity.any SesIdentity.rejectsMailFrom = true ↔
      ¬ ∀ row, identity = some row → row.rejectsMailFrom = false := by
    cases identity with
    | none => simp
    | some row => simp
  by_cases unknown : ((req.configurationSet.or (identity.bind SesIdentity.configurationSet)).any
      fun name => !store.configurationSets.contains name) = true
  · rw [if_pos unknown]
    exact ⟨fun done => (nomatch done.choose_spec), fun demands => absurd demands.configured ((known _).mp unknown)⟩
  · rw [if_neg unknown]
    by_cases refused : identity.any SesIdentity.rejectsMailFrom = true
    · rw [if_pos refused]
      exact ⟨fun done => (nomatch done.choose_spec), fun demands => absurd demands.mailFrom (rejects.mp refused)⟩
    · rw [if_neg refused]
      exact ⟨fun _ => ⟨not_not.mp (mt (known _).mpr unknown), not_not.mp (mt rejects.mpr refused)⟩,
        fun _ => ⟨messageId, rfl⟩⟩

/-- The rows that a send adds. -/
def SendStore.written (store : SendStore) : List StoredMessage × List String × List (String × String) :=
  (store.messages, store.inbox, store.events)

theorem MovedOn.written {now : Int} {store after : SendStore} (moved : MovedOn now store after) :
    after.written = store.written := by
  rw [moved.rest]
  rfl

theorem withIdentity_refused {store : SendStore} {messageId subject : String} {req : SendRequest}
    {identity : Option SesIdentity} {error : SendError}
    (refused : (withIdentity store messageId req subject identity).1 = .error error) :
    (withIdentity store messageId req subject identity).2 = store := by
  unfold withIdentity at refused ⊢
  simp only at refused ⊢
  split
  · rfl
  · rename_i known
    rw [if_neg known] at refused
    split
    · rfl
    · rename_i passes
      rw [if_neg passes] at refused
      cases refused

/-- The demands do not depend on what the lookups move on. -/
theorem MovedOn.demands {now : Int} {store after : SendStore} (moved : MovedOn now store after)
    {requested : Option String} {identity : Option SesIdentity} :
    Demands after requested identity ↔ Demands store requested identity := by
  have sets : after.configurationSets = store.configurationSets := by rw [moved.rest]
  exact ⟨fun ⟨configured, mailFrom⟩ => ⟨sets ▸ configured, mailFrom⟩,
    fun ⟨configured, mailFrom⟩ => ⟨sets.symm ▸ configured, mailFrom⟩⟩

/-- **What a send looks up**: the sender's identity, and in the sandbox one for each recipient. -/
theorem withAddresses_iff {store : SendStore} {now : Int} {req : SendRequest}
    (messageId subject : String) :
    (∃ id, (withAddresses store now messageId req subject).1 = .ok id) ↔
      ((foundFor store now (bareAddress req.fromAddress)).isSome = true ∨
        store.strictVerification = false) ∧
      (store.productionAccessEnabled = true ∨ ∀ recipient ∈ req.recipients,
        isSimulator recipient = true ∨ (foundFor store now recipient).isSome = true) ∧
      Demands store req.configurationSet (foundFor store now (bareAddress req.fromAddress)) := by
  obtain ⟨found, moved⟩ := firstVerified_spec now (candidates (bareAddress req.fromAddress)) store
  rw [← sendingIdentity, ← foundFor] at found
  rw [← sendingIdentity] at moved
  unfold withAddresses
  simp only [found]
  by_cases strict : ((foundFor store now (bareAddress req.fromAddress)).isNone &&
      store.strictVerification) = true
  · rw [if_pos strict]
    obtain ⟨none, must⟩ := Bool.and_eq_true_iff.mp strict
    refine ⟨fun done => (nomatch done.choose_spec), fun ⟨known, _⟩ => ?_⟩
    rcases known with known | off
    · rw [Option.isNone_iff_eq_none.mp none] at known
      cases known
    · rw [must] at off
      cases off
  · rw [if_neg strict]
    have known : (foundFor store now (bareAddress req.fromAddress)).isSome = true ∨
        store.strictVerification = false := by
      cases covered : foundFor store now (bareAddress req.fromAddress) with
      | some row => exact Or.inl rfl
      | none =>
        rw [covered] at strict
        exact Or.inr (by simpa using strict)
    by_cases production : store.productionAccessEnabled = true
    · simp only [if_pos production, ne_eq, not_true_eq_false, if_false]
      rw [withIdentity_iff, moved.demands]
      exact ⟨fun demands => ⟨known, Or.inl production, demands⟩, fun all => all.2.2⟩
    · rw [Bool.not_eq_true] at production
      simp only [production, Bool.false_eq_true, if_false, false_or]
      obtain ⟨verified, movedAll⟩ := unverifiedOf_spec now req.recipients
        (sendingIdentity store now (bareAddress req.fromAddress)).2
      rw [funext moved.verifiedAt] at verified
      by_cases all : (unverifiedOf now req.recipients
          (sendingIdentity store now (bareAddress req.fromAddress)).2).1 = []
      · rw [if_neg (not_not.mpr all), withIdentity_iff, (moved.trans movedAll).demands]
        exact ⟨fun demands => ⟨known, verified.mp all, demands⟩, fun every => every.2.2⟩
      · rw [if_pos all]
        exact ⟨fun done => (nomatch done.choose_spec), fun every => absurd (verified.mpr every.2.1) all⟩

theorem withAddresses_refused {store : SendStore} {now : Int} {messageId subject : String}
    {req : SendRequest} {error : SendError}
    (refused : (withAddresses store now messageId req subject).1 = .error error) :
    (withAddresses store now messageId req subject).2.written = store.written := by
  obtain ⟨_, moved⟩ := firstVerified_spec now (candidates (bareAddress req.fromAddress)) store
  rw [← sendingIdentity] at moved
  unfold withAddresses at refused ⊢
  simp only at refused ⊢
  split
  · exact moved.written
  · rename_i passes
    rw [if_neg passes] at refused
    by_cases production : store.productionAccessEnabled = true
    · simp only [if_pos production, ne_eq, not_true_eq_false, if_false] at refused ⊢
      rw [withIdentity_refused refused]
      exact moved.written
    · simp only [if_neg production] at refused ⊢
      obtain ⟨_, movedAll⟩ := unverifiedOf_spec now req.recipients
        (sendingIdentity store now (bareAddress req.fromAddress)).2
      split
      · exact (moved.trans movedAll).written
      · rename_i all
        rw [if_neg all] at refused
        rw [withIdentity_refused refused]
        exact (moved.trans movedAll).written

section Parser

variable [MailParser]

theorem tooLarge_iff {content : SendContent} : tooLarge content = true ↔
    ¬ ∀ message, content = .raw message → message.length ≤ maxMessageBytes := by
  cases content with
  | simple subject => simp [tooLarge]
  | raw message => simp [tooLarge]

/-- **What a send asks for**: its checks before the lookups, and what these find. -/
theorem sendEmail_iff {store : SendStore} {now : Int} {messageId : String} {req : SendRequest} :
    (∃ id, (sendEmail store now messageId req).1 = .ok id) ↔
      Checked store req ∧
      ((foundFor store now (bareAddress req.withHeaders.1.fromAddress)).isSome = true ∨
        store.strictVerification = false) ∧
      (store.productionAccessEnabled = true ∨ ∀ recipient ∈ req.withHeaders.1.recipients,
        isSimulator recipient = true ∨ (foundFor store now recipient).isSome = true) ∧
      Demands store req.withHeaders.1.configurationSet
        (foundFor store now (bareAddress req.withHeaders.1.fromAddress)) := by
  unfold sendEmail
  simp only
  by_cases paused : store.sendingEnabled = false
  · rw [if_pos paused]
    refine ⟨fun done => (nomatch done.choose_spec), fun ⟨checked, _⟩ => ?_⟩
    exact absurd (paused.symm.trans checked.enabled) Bool.false_ne_true
  rw [if_neg paused]
  by_cases long : tooLarge req.content = true
  · rw [if_pos long]
    exact ⟨fun done => (nomatch done.choose_spec),
      fun ⟨checked, _⟩ => absurd checked.small (tooLarge_iff.mp long)⟩
  rw [if_neg long]
  by_cases anonymous : trim req.withHeaders.1.fromAddress = ""
  · rw [if_pos anonymous]
    exact ⟨fun done => (nomatch done.choose_spec), fun ⟨checked, _⟩ => absurd anonymous checked.sender⟩
  rw [if_neg anonymous]
  by_cases unaddressed : req.withHeaders.1.recipients = []
  · rw [if_pos unaddressed]
    refine ⟨fun done => (nomatch done.choose_spec), fun ⟨checked, _⟩ => ?_⟩
    have addressed := checked.addressed
    rw [unaddressed] at addressed
    cases addressed
  rw [if_neg unaddressed]
  by_cases many : maxRecipients < req.withHeaders.1.recipients.length
  · rw [if_pos many]
    exact ⟨fun done => (nomatch done.choose_spec),
      fun ⟨checked, _⟩ => absurd checked.few (not_le.mpr many)⟩
  rw [if_neg many, withAddresses_iff messageId req.withHeaders.2]
  have checked : Checked store req :=
    { enabled := by simpa using paused
      small := not_not.mp (mt tooLarge_iff.mpr long)
      sender := anonymous
      addressed := List.length_pos_iff.mpr unaddressed
      few := not_lt.mp many }
  exact ⟨fun found => ⟨checked, found⟩, And.right⟩

/-- The rule, in the parts of what a send asks for. -/
theorem accepts_iff {store : SendStore} {now : Int} {req : SendRequest} :
    Accepts store now req ↔ Checked store req ∧
      (Authorised store now (bareAddress req.withHeaders.1.fromAddress) ∨
        store.strictVerification = false) ∧
      (store.productionAccessEnabled = true ∨ ∀ recipient ∈ req.withHeaders.1.recipients,
        isSimulator recipient = true ∨ Authorised store now recipient) ∧
      Demands store req.withHeaders.1.configurationSet
        (identityOf store now (bareAddress req.withHeaders.1.fromAddress)) := by
  constructor
  · rintro ⟨enabled, small, sender, addressed, few, authorised, sandbox, configured, mailFrom⟩
    exact ⟨⟨enabled, small, sender, addressed, few⟩, authorised, sandbox, configured, mailFrom⟩
  · rintro ⟨⟨enabled, small, sender, addressed, few⟩, authorised, sandbox, configured, mailFrom⟩
    exact ⟨enabled, small, sender, addressed, few, authorised, sandbox, configured, mailFrom⟩

/-- A send that is not harmed, and accepted by the rule, finds what it asks for. -/
theorem Unharmed.sends {store : SendStore} {now : Int} {messageId : String} {req : SendRequest}
    (unharmed : Unharmed store now req) (accepts : Accepts store now req) :
    ∃ id, (sendEmail store now messageId req).1 = .ok id := by
  obtain ⟨sender, recipients⟩ := unharmed.accepted accepts
  obtain ⟨checked, authorised, sandbox, demands⟩ := accepts_iff.mp accepts
  refine sendEmail_iff.mpr ⟨checked, ?_, ?_, ?_⟩
  · cases strict : store.strictVerification with
    | false => exact Or.inr rfl
    | true =>
      refine Or.inl (foundFor_isSome.mpr ⟨authorised.resolve_right ?_, sender strict⟩)
      rw [strict]
      decide
  · cases production : store.productionAccessEnabled with
    | true => exact Or.inl rfl
    | false =>
      rw [production] at sandbox
      refine Or.inr fun recipient member => ?_
      cases real : isSimulator recipient with
      | true => exact Or.inl rfl
      | false =>
        have covered := (sandbox.resolve_left nofun recipient member).resolve_left (by rw [real]; decide)
        exact Or.inr (foundFor_isSome.mpr ⟨covered, recipients production recipient member real⟩)
  · by_cases missed : Missed store now (bareAddress req.withHeaders.1.fromAddress)
    · -- the identity is not found, and asks for nothing
      rw [(missed_iff.mp missed).1]
      refine ⟨fun name requested => demands.configured name ?_,
        fun _ missing => absurd missing.symm (Option.some_ne_none _)⟩
      rw [Option.bind_none, Option.or_none] at requested
      rw [requested, Option.some_or]
    · rw [lookup_eq missed]
      exact demands

/-- A send that is not harmed, and finds what it asks for, is accepted by the rule. -/
theorem Unharmed.accepts {store : SendStore} {now : Int} {messageId : String} {req : SendRequest}
    (unharmed : Unharmed store now req)
    (done : ∃ id, (sendEmail store now messageId req).1 = .ok id) : Accepts store now req := by
  obtain ⟨checked, known, sandbox, demands⟩ := sendEmail_iff.mp done
  have covered : store.productionAccessEnabled = true ∨ ∀ recipient ∈ req.withHeaders.1.recipients,
      isSimulator recipient = true ∨
        Authorised store now recipient ∧ ¬ Missed store now recipient :=
    sandbox.imp_right fun found recipient member =>
      (found recipient member).imp_right foundFor_isSome.mp
  refine accepts_iff.mpr ⟨checked, known.imp_left fun found => (foundFor_isSome.mp found).1,
    covered.imp_right fun found recipient member => (found recipient member).imp_right And.left, ?_⟩
  by_cases missed : Missed store now (bareAddress req.withHeaders.1.fromAddress)
  · have nothing := (missed_iff.mp missed).1
    rw [nothing] at known demands
    refine unharmed.demands checked (known.resolve_left nofun) missed covered fun name requested =>
      demands.configured name ?_
    rw [requested, Option.some_or]
  · rw [← lookup_eq missed]
    exact demands

/-- **A send is accepted by the rule** exactly if missed addresses do not harm it. The lookup of an
address is right exactly if it is not missed. A refused send adds no row. -/
theorem send_accepted (store : SendStore) (now : Int) (messageId : String) (req : SendRequest) :
    (((∃ id, (sendEmail store now messageId req).1 = .ok id) ↔ Accepts store now req) ↔
      Unharmed store now req) ∧
    (∀ address, ((foundFor store now address).isSome = true ↔ Authorised store now address) ↔
      ¬ Missed store now address) ∧
    ∀ error, (sendEmail store now messageId req).1 = .error error →
      (sendEmail store now messageId req).2.written = store.written := by
  refine ⟨⟨fun right => ⟨fun accepts => ?_, fun checked lax missed covered requested => ?_⟩,
    fun unharmed => ⟨unharmed.accepts, unharmed.sends⟩⟩, lookup_iff store now, fun error refused => ?_⟩
  · obtain ⟨_, known, sandbox, _⟩ := sendEmail_iff.mp (right.mpr accepts)
    refine ⟨fun strict => ?_, fun production recipient member real => ?_⟩
    · rw [strict] at known
      exact (foundFor_isSome.mp (known.resolve_right nofun)).2
    · rw [production] at sandbox
      have found := sandbox.resolve_left nofun recipient member
      rw [real] at found
      exact (foundFor_isSome.mp (found.resolve_left nofun)).2
  · have nothing := (missed_iff.mp missed).1
    have sends : ∃ id, (sendEmail store now messageId req).1 = .ok id := by
      refine sendEmail_iff.mpr ⟨checked, Or.inr lax, covered.imp_right fun found recipient member =>
        (found recipient member).imp_right foundFor_isSome.mpr, ?_⟩
      rw [nothing]
      refine ⟨fun name named => requested name ?_,
        fun _ missing => absurd missing.symm (Option.some_ne_none _)⟩
      rwa [Option.bind_none, Option.or_none] at named
    exact (accepts_iff.mp (right.mp sends)).2.2.2
  · unfold sendEmail at refused ⊢
    simp only at refused ⊢
    split
    · rfl
    rename_i enabled
    rw [if_neg enabled] at refused
    split
    · rfl
    rename_i small
    rw [if_neg small] at refused
    split
    · rfl
    rename_i sender
    rw [if_neg sender] at refused
    split
    · rfl
    rename_i addressed
    rw [if_neg addressed] at refused
    split
    · rfl
    rename_i few
    rw [if_neg few] at refused
    exact withAddresses_refused refused

end Parser

/-! ### A domain of one label -/

section Sample

/-- A parser that finds nothing. -/
@[reducible]
def MailParser.sample : MailParser where
  parse _ := none

attribute [local instance] MailParser.sample

def verifiedRow (identity : String) : SesIdentity where
  identity := identity
  verification := { status := SUCCESS, mode := "auto", outcome := SUCCESS, checksLeft := 0,
                    verifyAt := none }
  dkimSigningEnabled := true
  mailFromDomain := none
  mailFromBehavior := "USE_DEFAULT_VALUE"
  mailFrom := .none
  feedbackForwarding := true
  configurationSet := none
  lastCheckedAt := none
  lastSuccessAt := some 0

/-- One verified identity, and verification is strict. -/
def sendStore (identity : String) : SendStore where
  sendingEnabled := true
  productionAccessEnabled := true
  strictVerification := true
  identities := [verifiedRow identity]
  configurationSets := []
  suppressed := []
  messages := []
  inbox := []
  events := []

def sampleSend (source : String) : SendRequest where
  fromAddress := source
  toAddresses := ["b@example.org"]
  ccAddresses := []
  bccAddresses := []
  content := .simple "hello"
  configurationSet := none

theorem send_accepted_sample :
    Accepts (sendStore "example.com") 0 (sampleSend "a@mail.example.com") := by
  have found : ¬ Missed (sendStore "example.com") 0 (bareAddress "a@mail.example.com") := by
    intro missed
    exact absurd (missed_iff.mp missed).1 (by decide)
  have unharmed : Unharmed (sendStore "example.com") 0 (sampleSend "a@mail.example.com") :=
    ⟨fun _ => ⟨fun _ => found, nofun⟩, fun _ => nofun⟩
  have accepted : (sendEmail (sendStore "example.com") 0 "m" (sampleSend "a@mail.example.com")).1 =
      .ok "m" := by decide
  exact ((send_accepted _ _ _ _).1.mpr unharmed).mp ⟨"m", accepted⟩

/-- **A send that is refused**: the domain of the sender has one label, and is verified. -/
theorem single_label_refused :
    Accepts (sendStore "localhost") 0 (sampleSend "a@localhost") ∧
    ¬ ∃ id, (sendEmail (sendStore "localhost") 0 "m" (sampleSend "a@localhost")).1 = .ok id := by
  have refused : (sendEmail (sendStore "localhost") 0 "m" (sampleSend "a@localhost")).1 =
      .error (notVerified "a@localhost") := by decide
  refine ⟨?_, fun ⟨id, done⟩ => by rw [refused] at done; cases done⟩
  have identity : identityOf (sendStore "localhost") 0 (bareAddress "a@localhost") =
      some (verifiedRow "localhost") := by decide
  exact
    { enabled := rfl
      small := fun _ => nofun
      sender := by decide
      addressed := by decide
      few := by decide
      authorised := Or.inl (authorised_iff.mpr (by
        show (identityOf (sendStore "localhost") 0 (bareAddress "a@localhost")).isSome = true
        rw [identity]
        rfl))
      sandbox := Or.inl rfl
      configured := by
        show ∀ name, (none : Option String).or ((identityOf (sendStore "localhost") 0
          (bareAddress "a@localhost")).bind SesIdentity.configurationSet) = some name → _
        rw [identity]
        exact fun _ => nofun
      mailFrom := by
        show ∀ row, identityOf (sendStore "localhost") 0 (bareAddress "a@localhost") = some row → _
        rw [identity]
        rintro row ⟨⟩
        rfl }

end Sample

end CloudTwin.Ses
