/-
**Conditional PutObject requests.**

A PutObject checks its conditions in calls of their own, and writes in a later call. Two requests
can both check before either writes; then both succeed, though each of them rules the other out.

* `putStep` — a PutObject request as a sequence of database calls.
* `Alone` — no other request of the same kind is between its check and its write.
* `conditional_put` — where every write of the kind is alone, at most one request of it succeeds.
* `conditional_put_race` — runs in which two of them succeed.
-/

import CloudTwin.S3.Rows

namespace CloudTwin.S3

open Lib Lib.Text

set_option linter.unusedSectionVars false

/-! ### The request -/

/-- `trim_start_matches("W/")`. -/
def dropWeak : List Char → List Char
  | 'W' :: '/' :: rest => dropWeak rest
  | chars => chars

def etagListMatches (list etag : String) : Bool :=
  (split ',' list).any fun entry =>
    let entry := trimQuotes (String.ofList (dropWeak (trim entry).toList))
    entry == "*" || entry == trimQuotes etag

structure PutRequest where
  bucket : String
  key : String
  content : List UInt8
  contentType : Option String
  objMeta : ObjMeta
  tags : Option Tags
  ifNoneMatch : Option String
  ifMatch : Option String

/-- The call that a PutObject request makes next. -/
inductive PutPhase where
  | checkNoneMatch
  | checkMatch
  | write
  | done (result : S3Result WriteResult)

structure PutClient where
  request : PutRequest
  phase : PutPhase

section External

variable [External] [S3External]

/-- **The next call of a PutObject request.** A check that the request does not ask for is no
call. -/
def putStep (store : Store) (client : PutClient) (now : Int) : Unit × Store × PutClient :=
  let request := client.request
  match client.phase with
  | .checkNoneMatch =>
    if request.ifNoneMatch.any (fun header => trim header == "*") ∧
        (resolveVersion store request.bucket request.key none).isOk then
      ((), store, { client with
        phase := .done (.error (S3Error.preconditionFailed "If-None-Match")) })
    else ((), store, { client with phase := .checkMatch })
  | .checkMatch =>
    match request.ifMatch with
    | none => ((), store, { client with phase := .write })
    | some header =>
      match resolveVersion store request.bucket request.key none with
      | .error error => ((), store, { client with phase := .done (.error error) })
      | .ok current =>
        if etagListMatches header current.etag then ((), store, { client with phase := .write })
        else ((), store, { client with
          phase := .done (.error (S3Error.preconditionFailed "If-Match")) })
  | .write =>
    match putObject store request.bucket request.key request.content
        (request.contentType.getD "binary/octet-stream") request.objMeta (request.tags.getD []) now
      with
    | .ok (result, after) => ((), after, { client with phase := .done (.ok result) })
    | .error error => ((), store, { client with phase := .done (.error error) })
  | .done _ => ((), store, client)

abbrev PutSystem := System Store PutClient

abbrev PutEvent := Event PutSystem (Nat × Int) Unit

/-- **A run of PutObject requests**, none of which has made a call before. -/
structure PutRun (start : PutSystem) (history : List PutEvent) (final : PutSystem) : Prop where
  run : Run (System.step putStep) start history final
  fresh : ∀ client, (start.client client).phase = .checkNoneMatch

/-- The request has succeeded. -/
def Succeeds (system : PutSystem) (client : Nat) : Prop :=
  ∃ result, (system.client client).phase = .done (.ok result)

/-! ### Kinds of requests -/

/-- The request creates the key only if nobody sees an object there. -/
def Creates (bucket key : String) (request : PutRequest) : Prop :=
  request.bucket = bucket ∧ request.key = key ∧ ∃ header, request.ifNoneMatch = some header ∧
    trim header = "*"

/-- The request replaces the object only if its ETag is the given one. -/
def Replaces (bucket key etag : String) (request : PutRequest) : Prop :=
  request.bucket = bucket ∧ request.key = key ∧ ∃ header, request.ifMatch = some header ∧
    ∀ other, etagListMatches header other = true → trimQuotes other = trimQuotes etag

/-- The request has passed its check of `If-None-Match`, and has not written. -/
def PutPhase.mayCreate (phase : PutPhase) : Prop :=
  phase = .checkMatch ∨ phase = .write

/-- **A write is alone**: when a request of the kind writes, no other one of the kind has passed its
check. -/
def Alone (kind : PutRequest → Prop) (passed : PutPhase → Prop) (event : PutEvent) : Prop :=
  kind (event.before.client event.input.1).request →
  (event.before.client event.input.1).phase = .write →
  ∀ other, other ≠ event.input.1 → kind (event.before.client other).request →
    ¬ passed (event.before.client other).phase

/-! ### One step -/

/-- What a step of a client can be. -/
inductive PutStep (store : Store) (client : PutClient) : Store → PutPhase → Prop
  | rejected (error : S3Error) : PutStep store client store (.done (.error error))
  | mayCreate (phase : client.phase = .checkNoneMatch)
      (unseen : client.request.ifNoneMatch.any (fun header => trim header == "*") = true →
        visible store client.request.bucket client.request.key = none) :
      PutStep store client store .checkMatch
  | mayReplace (phase : client.phase = .checkMatch)
      (seen : ∀ header, client.request.ifMatch = some header → ∃ info,
        visible store client.request.bucket client.request.key = some info ∧
          etagListMatches header info.etag = true) : PutStep store client store .write
  | wrote {after : Store} {contentType : String} {objMeta : ObjMeta} {tags : Tags} {now : Int}
      {result : WriteResult} (phase : client.phase = .write)
      (done : putObject store client.request.bucket client.request.key client.request.content
        contentType objMeta tags now = .ok (result, after)) :
      PutStep store client after (.done (.ok result))
  | idle (result : S3Result WriteResult) (phase : client.phase = .done result) :
      PutStep store client store (.done result)

theorem putStep_spec {store after : Store} {client next : PutClient} {now : Int} {output : Unit}
    (step : putStep store client now = (output, after, next)) :
    next.request = client.request ∧ PutStep store client after next.phase := by
  unfold putStep at step
  cases phase : client.phase with
  | checkNoneMatch =>
    simp only [phase] at step
    split at step
    · cases step
      exact ⟨rfl, .rejected _⟩
    · rename_i passed
      cases step
      refine ⟨rfl, .mayCreate phase fun asked => ?_⟩
      cases seen : visible store client.request.bucket client.request.key with
      | none => rfl
      | some info =>
        refine absurd ⟨asked, ?_⟩ passed
        rw [resolveVersion_visible.mpr seen]
        rfl
  | checkMatch =>
    simp only [phase] at step
    split at step
    · rename_i absent
      cases step
      exact ⟨rfl, .mayReplace phase fun header asked => by rw [absent] at asked; cases asked⟩
    · rename_i header asked
      split at step
      · cases step
        exact ⟨rfl, .rejected _⟩
      · rename_i current found
        split at step
        · rename_i same
          cases step
          refine ⟨rfl, .mayReplace phase fun other given => ⟨current, resolveVersion_visible.mp found,
            ?_⟩⟩
          rw [asked] at given
          cases given
          exact same
        · cases step
          exact ⟨rfl, .rejected _⟩
  | write =>
    simp only [phase] at step
    split at step
    · rename_i result stored done
      cases step
      exact ⟨rfl, .wrote phase done⟩
    · cases step
      exact ⟨rfl, .rejected _⟩
  | done result =>
    simp only [phase] at step
    cases step
    rw [phase]
    exact ⟨rfl, .idle result phase⟩

/-- A request that has succeeded had succeeded before, or was about to write. -/
theorem PutStep.won {store after : Store} {client : PutClient} {result : WriteResult}
    (step : PutStep store client after (.done (.ok result))) :
    client.phase = .write ∨ client.phase = .done (.ok result) := by
  cases step with
  | wrote phase _ => exact Or.inl phase
  | idle _ phase => exact Or.inr phase

/-! ### Every run -/

/-- The requests are as they were at the start. -/
def SameRequests (start system : PutSystem) : Prop :=
  ∀ client, (system.client client).request = (start.client client).request

theorem SameRequests.kept {start : PutSystem} {event : PutEvent}
    (taken : event.Taken (System.step putStep)) (same : SameRequests start event.before) :
    SameRequests start event.after := by
  obtain ⟨own, others⟩ := System.taken_advance taken
  intro client
  by_cases turn : client = event.input.1
  · rw [turn, (putStep_spec own).1]
    exact same _
  · rw [others client turn]
    exact same client

/-- **What holds of a kind of requests** with a condition on what is stored: once one of them has
succeeded, the condition is gone, and none of the others has passed its check. -/
structure AtMostOne (kind : PutRequest → Prop) (passed : PutPhase → Prop) (Free : Store → Prop)
    (system : PutSystem) : Prop where
  unique : ∀ first second, kind (system.client first).request →
    kind (system.client second).request → Succeeds system first → Succeeds system second →
      first = second
  closed : ∀ winner, kind (system.client winner).request → Succeeds system winner →
    ¬ Free system.shared ∧ ∀ other, kind (system.client other).request →
      ¬ passed (system.client other).phase

section Kind

variable {kind : PutRequest → Prop} {passed : PutPhase → Prop} {Free : Store → Prop}

theorem AtMostOne.fresh {system : PutSystem}
    (fresh : ∀ client, (system.client client).phase = .checkNoneMatch) :
    AtMostOne kind passed Free system := by
  refine ⟨fun first _ _ _ ⟨_, done⟩ => ?_, fun winner _ ⟨_, done⟩ => ?_⟩
  · rw [fresh first] at done
    cases done
  · rw [fresh winner] at done
    cases done

/-- **One step**, if a check passes only where the condition holds, no write brings the condition
back, and a write of the kind ends it. -/
theorem AtMostOne.kept {event : PutEvent} (taken : event.Taken (System.step putStep))
    (alone : Alone kind passed event) (ready : passed .write)
    (unpassed : ∀ result, ¬ passed (.done result))
    (checked : ∀ {after : Store} {phase : PutPhase},
      PutStep event.before.shared (event.before.client event.input.1) after phase →
      kind (event.before.client event.input.1).request → passed phase →
      ¬ passed (event.before.client event.input.1).phase → Free event.before.shared)
    (stays : ∀ {after : Store} {phase : PutPhase},
      PutStep event.before.shared (event.before.client event.input.1) after phase →
      ¬ Free event.before.shared → ¬ Free after)
    (closes : ∀ {after : Store} {result : WriteResult},
      PutStep event.before.shared (event.before.client event.input.1) after (.done (.ok result)) →
      (event.before.client event.input.1).phase = .write →
      kind (event.before.client event.input.1).request → ¬ Free after)
    (before : AtMostOne kind passed Free event.before) :
    AtMostOne kind passed Free event.after := by
  obtain ⟨own, others⟩ := System.taken_advance taken
  obtain ⟨request, step⟩ := putStep_spec own
  -- who has succeeded now had succeeded before, or has just written
  have earlier : ∀ {client : Nat}, Succeeds event.after client → Succeeds event.before client ∨
      (client = event.input.1 ∧ (event.before.client event.input.1).phase = .write) := by
    rintro client ⟨result, done⟩
    by_cases same : client = event.input.1
    · subst same
      rw [done] at step
      rcases step.won with writing | was
      · exact Or.inr ⟨rfl, writing⟩
      · exact Or.inl ⟨result, was⟩
    · rw [others client same] at done
      exact Or.inl ⟨result, done⟩
  have sameKind : ∀ {client : Nat}, kind (event.after.client client).request →
      kind (event.before.client client).request := by
    intro client here
    by_cases same : client = event.input.1
    · rw [same, request] at here
      rwa [same]
    · rwa [others client same] at here
  refine ⟨fun first second kindFirst kindSecond wonFirst wonSecond => ?_,
    fun winner kindWinner won => ?_⟩
  · have kindFirst := sameKind kindFirst
    have kindSecond := sameKind kindSecond
    rcases earlier wonFirst with was | ⟨rfl, writing⟩
    · rcases earlier wonSecond with wasToo | ⟨rfl, writing⟩
      · exact before.unique first second kindFirst kindSecond was wasToo
      · have blocked := (before.closed first kindFirst was).2 _ kindSecond
        rw [writing] at blocked
        exact absurd ready blocked
    · rcases earlier wonSecond with was | ⟨rfl, _⟩
      · have blocked := (before.closed second kindSecond was).2 _ kindFirst
        rw [writing] at blocked
        exact absurd ready blocked
      · rfl
  · have kindWinner := sameKind kindWinner
    rcases earlier won with was | ⟨rfl, writing⟩
    · obtain ⟨gone, blocked⟩ := before.closed winner kindWinner was
      refine ⟨stays step gone, fun other kindOther => ?_⟩
      have kindOther := sameKind kindOther
      by_cases same : other = event.input.1
      · subst same
        exact fun passes => gone (checked step kindOther passes (blocked _ kindOther))
      · rw [others other same]
        exact blocked other kindOther
    · obtain ⟨result, done⟩ := won
      rw [done] at step
      refine ⟨closes step writing kindWinner, fun other kindOther => ?_⟩
      have kindOther := sameKind kindOther
      by_cases same : other = event.input.1
      · rw [same, done]
        exact unpassed _
      · rw [others other same]
        exact alone kindWinner writing other same kindOther

/-- **Every run.** -/
theorem AtMostOne.of_run {start final : PutSystem} {history : List PutEvent}
    (served : PutRun start history final) (alone : ∀ event ∈ history, Alone kind passed event)
    (ready : passed .write) (unpassed : ∀ result, ¬ passed (.done result))
    (checked : ∀ {store after : Store} {client : PutClient} {phase : PutPhase},
      PutStep store client after phase → kind client.request → passed phase →
      ¬ passed client.phase → Free store)
    (stays : ∀ {store after : Store} {client : PutClient} {phase : PutPhase},
      (∃ index, client.request = (start.client index).request) → PutStep store client after phase →
      ¬ Free store → ¬ Free after)
    (closes : ∀ {store after : Store} {client : PutClient} {result : WriteResult},
      (∃ index, client.request = (start.client index).request) →
      PutStep store client after (.done (.ok result)) → client.phase = .write →
      kind client.request → ¬ Free after) :
    SameRequests start final ∧ AtMostOne kind passed Free final := by
  have initial : SameRequests start start ∧ AtMostOne kind passed Free start :=
    ⟨fun _ => rfl, AtMostOne.fresh served.fresh⟩
  refine @Run.invariant_along _ _ _ _ _ _ _
    (fun system => SameRequests start system ∧ AtMostOne kind passed Free system) served.run initial
    fun event member taken ⟨same, holds⟩ => ⟨same.kept taken, ?_⟩
  have known : ∃ index, (event.before.client event.input.1).request =
      (start.client index).request := ⟨_, same _⟩
  exact holds.kept taken (alone event member) ready unpassed checked (stays known) (closes known)

end Kind

/-- An object that is visible stays so. -/
theorem visible_kept {store after : Store} {client : PutClient} {phase : PutPhase}
    {bucket key : String} (step : PutStep store client after phase)
    (seen : visible store bucket key ≠ none) : visible after bucket key ≠ none := by
  cases step with
  | wrote _ done =>
    obtain ⟨info, _, visibleAfter⟩ := visible_putObject done
    rw [visibleAfter]
    split
    · exact Option.some_ne_none info
    · exact seen
  | rejected => exact seen
  | mayCreate => exact seen
  | mayReplace => exact seen
  | idle => exact seen

/-- The key has an object with the ETag. -/
def HasEtag (bucket key etag : String) (store : Store) : Prop :=
  ∃ info, visible store bucket key = some info ∧ trimQuotes info.etag = trimQuotes etag

/-- A write of other contents does not bring the ETag back. -/
theorem hasEtag_kept {store after : Store} {client : PutClient} {phase : PutPhase}
    {bucket key etag : String} (step : PutStep store client after phase)
    (other : client.request.bucket = bucket → client.request.key = key →
      trimQuotes (md5Etag client.request.content) ≠ trimQuotes etag)
    (gone : ¬ HasEtag bucket key etag store) : ¬ HasEtag bucket key etag after := by
  cases step with
  | wrote _ done =>
    obtain ⟨info, tag, visibleAfter⟩ := visible_putObject done
    rintro ⟨found, seen, same⟩
    rw [visibleAfter] at seen
    split at seen
    · rename_i here
      cases seen
      rw [tag] at same
      exact other here.1 here.2 same
    · exact gone ⟨found, seen, same⟩
  | rejected => exact gone
  | mayCreate => exact gone
  | mayReplace => exact gone
  | idle => exact gone

/-- **Conditional writes, one at a time.** In every run of PutObject requests in which each write of
a kind is alone: of the requests with `If-None-Match: *` on a key at most one succeeds; and of those
with `If-Match` on a key for one ETag, at most one succeeds if all requests on the key write
contents with other ETags. -/
theorem conditional_put {start final : PutSystem} {history : List PutEvent}
    (served : PutRun start history final) (bucket key : String) :
    ((∀ event ∈ history, Alone (Creates bucket key) PutPhase.mayCreate event) →
      ∀ first second, Creates bucket key (start.client first).request →
        Creates bucket key (start.client second).request → Succeeds final first →
        Succeeds final second → first = second) ∧
    ∀ etag, (∀ client, (start.client client).request.bucket = bucket →
        (start.client client).request.key = key →
        trimQuotes (md5Etag (start.client client).request.content) ≠ trimQuotes etag) →
      (∀ event ∈ history, Alone (Replaces bucket key etag) (· = .write) event) →
      ∀ first second, Replaces bucket key etag (start.client first).request →
        Replaces bucket key etag (start.client second).request → Succeeds final first →
        Succeeds final second → first = second := by
  constructor
  · intro alone first second creates createsToo wonFirst wonSecond
    have ⟨same, holds⟩ : SameRequests start final ∧ AtMostOne (Creates bucket key)
        PutPhase.mayCreate (fun store => visible store bucket key = none) final := by
      refine AtMostOne.of_run served alone (Or.inr rfl) ?_ ?_ ?_ ?_
      · rintro result (here | here) <;> cases here
      · rintro store after client phase step ⟨rfl, rfl, header, asked, star⟩ passes notYet
        cases step with
        | mayCreate before unseen =>
          refine unseen ?_
          rw [asked]
          simpa using star
        | mayReplace before _ => exact absurd (Or.inl before) notYet
        | rejected | wrote | idle => rcases passes with here | here <;> cases here
      · exact fun _ step seen => visible_kept step seen
      · rintro store after client result _ step writing ⟨rfl, rfl, _⟩
        cases step with
        | wrote _ done =>
          obtain ⟨info, _, visibleAfter⟩ := visible_putObject done
          rw [visibleAfter, if_pos ⟨rfl, rfl⟩]
          exact Option.some_ne_none info
        | idle _ phase =>
          rw [writing] at phase
          cases phase
    rw [← same] at creates createsToo
    exact holds.unique first second creates createsToo wonFirst wonSecond
  · intro etag others alone first second replaces replacesToo wonFirst wonSecond
    have ⟨same, holds⟩ : SameRequests start final ∧ AtMostOne (Replaces bucket key etag)
        (· = .write) (HasEtag bucket key etag) final := by
      refine AtMostOne.of_run served alone rfl (fun _ => nofun) ?_ ?_ ?_
      · rintro store after client phase step ⟨rfl, rfl, header, asked, names⟩ rfl notYet
        cases step with
        | mayReplace before seen =>
          obtain ⟨info, found, same⟩ := seen header asked
          exact ⟨info, found, names _ same⟩
      · rintro store after client phase ⟨index, same⟩ step
        refine hasEtag_kept step ?_
        rw [same]
        exact others index
      · rintro store after client result ⟨index, same⟩ step writing ⟨inBucket, named, _⟩
        cases step with
        | wrote _ done =>
          obtain ⟨info, tag, visibleAfter⟩ := visible_putObject done
          rintro ⟨found, seen, equal⟩
          rw [visibleAfter, if_pos ⟨inBucket, named⟩] at seen
          cases seen
          rw [tag, same] at equal
          rw [same] at inBucket named
          exact others index inBucket named equal
        | idle _ phase =>
          rw [writing] at phase
          cases phase
    rw [← same] at replaces replacesToo
    exact holds.unique first second replaces replacesToo wonFirst wonSecond

end External

/-! ### Two requests at once -/

section Sample

attribute [local instance] External.sample S3External.sample

/-- A request that creates a key of the bucket. -/
def sampleCreate : PutRequest where
  bucket := "bucket"
  key := "key"
  content := []
  contentType := none
  objMeta := ObjMeta.default
  tags := none
  ifNoneMatch := some "*"
  ifMatch := none

/-- The ETag of the text `hello`. -/
def sampleEtag : String := "\"5d41402abc4b2a76b9719d911017c592\""

/-- A request that replaces the text `hello`. -/
def sampleReplace : PutRequest :=
  { sampleCreate with ifNoneMatch := none, ifMatch := some sampleEtag }

/-- Clients that all make the same request. -/
def sampleStart (calls : List Call) (request : PutRequest) : PutSystem where
  shared := sampleStore calls
  client _ := { request, phase := .checkNoneMatch }

/-- Two clients take turns. -/
def sampleTurns : List (Nat × Int) :=
  [(0, 0), (1, 0), (0, 0), (1, 0), (0, 0), (1, 0)]

def sampleHello : Call :=
  .writeObject "bucket" "key" (sampleObject sampleEtag)

theorem sampleEtag_names (other : String) (matched : etagListMatches sampleEtag other = true) :
    trimQuotes other = trimQuotes sampleEtag := by
  have parts : split ',' sampleEtag = [sampleEtag] := by decide
  have entry : trimQuotes (String.ofList (dropWeak (trim sampleEtag).toList)) =
      trimQuotes sampleEtag := by decide
  have notStar : (trimQuotes sampleEtag == "*") = false := by decide
  unfold etagListMatches at matched
  rw [parts] at matched
  simp only [List.any_cons, List.any_nil, Bool.or_false, entry, notStar, Bool.false_or] at matched
  exact (beq_iff_eq.mp matched).symm

/-- **Two requests that rule each other out both succeed**, because both check before either
writes. -/
theorem conditional_put_race :
    (∃ start history final, PutRun start history final ∧
      visible start.shared "bucket" "key" = none ∧
      (∀ client, Creates "bucket" "key" (start.client client).request) ∧
      Succeeds final 0 ∧ Succeeds final 1) ∧
    ∃ start history final info, PutRun start history final ∧
      visible start.shared "bucket" "key" = some info ∧ info.etag = sampleEtag ∧
      (∀ client, Replaces "bucket" "key" sampleEtag (start.client client).request ∧
        trimQuotes (md5Etag (start.client client).request.content) ≠ trimQuotes sampleEtag) ∧
      Succeeds final 0 ∧ Succeeds final 1 := by
  refine ⟨⟨sampleStart [.createBucket "bucket"] sampleCreate, _, _,
    ⟨Run.of_trace (System.step putStep) sampleTurns _, fun _ => rfl⟩, by decide,
    fun _ => ⟨rfl, rfl, "*", rfl, by decide⟩, ⟨_, rfl⟩, ⟨_, rfl⟩⟩, ?_⟩
  have different : trimQuotes (md5Etag sampleReplace.content) ≠ trimQuotes sampleEtag := by
    decide
  exact ⟨sampleStart [.createBucket "bucket", sampleHello] sampleReplace, _, _, _,
    ⟨Run.of_trace (System.step putStep) sampleTurns _, fun _ => rfl⟩, rfl, rfl,
    fun _ => ⟨⟨rfl, rfl, sampleEtag, rfl, sampleEtag_names⟩, different⟩, ⟨_, rfl⟩, ⟨_, rfl⟩⟩

/-- The first client makes its three calls before the second one begins. -/
def sampleSerial : List (Nat × Int) :=
  [(0, 0), (0, 0), (0, 0), (1, 0)]

/-- A request that is served before another one begins is the only one to succeed. -/
theorem conditional_put_sample :
    let start := sampleStart [.createBucket "bucket"] sampleCreate
    let final := Run.final (System.step putStep) start sampleSerial
    Succeeds final 0 ∧ ¬ Succeeds final 1 := by
  intro start final
  have created : Succeeds final 0 := ⟨_, rfl⟩
  have creates : ∀ client, Creates "bucket" "key" (start.client client).request :=
    fun _ => ⟨rfl, rfl, "*", rfl, by decide⟩
  have alone : ∀ event ∈ Run.trace (System.step putStep) start sampleSerial,
      Alone (Creates "bucket" "key") PutPhase.mayCreate event := by
    intro event member _ writing other different _
    simp only [sampleSerial, Run.trace, List.mem_cons, List.not_mem_nil, or_false] at member
    rcases member with rfl | rfl | rfl | rfl
    · cases writing
    · cases writing
    · have different : other ≠ 0 := different
      have waits : ∀ first second, Function.update (Function.update start.client 0 first) 0 second
          other = start.client other := fun first second => by
        rw [Function.update_of_ne different, Function.update_of_ne different]
      show ¬ (Function.update (Function.update start.client 0 _) 0 _ other).phase.mayCreate
      rw [waits]
      rintro (here | here) <;> cases here
    · cases writing
  refine ⟨created, fun createdToo => absurd ?_ Nat.zero_ne_one⟩
  exact (conditional_put ⟨Run.of_trace (System.step putStep) sampleSerial start, fun _ => rfl⟩
    "bucket" "key").1 alone 0 1 (creates 0) (creates 1) created createdToo

end Sample

end CloudTwin.S3
