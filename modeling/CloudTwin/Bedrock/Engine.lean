/-
**The scenario engine.**

A request for a model is numbered by the model's counter and answered by the first of four stages that
has an answer: a periodic error, a rule whose text occurs in the prompt, the entries listed in a
sequence, and the mode of the model.

* `resolve`, `outcomes` — the code, and a run of requests for any models.
* `Decided`, `Answers` — the documented order, and what each decision is answered with.
* `Folded`, `Meets` — the code lowers the prompt and not the texts of the rules, and subtracts the
  bounds of a text whichever way round they stand: what a request has to meet.
* `resolved_decided` — one request; `outcomes_asked` — the counters over a run.
* `resolves_in_order` — every request of a run is answered in the documented order.
-/

import CloudTwin.Bedrock.Generator

namespace CloudTwin.Bedrock

open Lib.Text

/-! ### The code -/

structure ResolvedResponse where
  kind : String
  jsonBody : Option Json
  textBody : Option String
  modelId : String
  requestCount : Nat
  source : String
  streaming : Bool
  streamingConfig : Option StreamingConfig
  latencyConfig : Option LatencyConfig
  errorType : Option String
  errorMessage : Option String

/-- The counters of `BedrockState`, by model. -/
abbrev Counters := List (String × Nat)

def getCount (counters : Counters) (modelId : String) : Nat :=
  (counters.lookup modelId).getD 0

/-- `BedrockState::increment`; `none` where the `u64` overflows. -/
def increment (counters : Counters) (modelId : String) : Option (Nat × Counters) :=
  let slot := getCount counters modelId + 1
  if slot < 2 ^ 64 then
    some (slot, (modelId, slot) :: counters.filter fun counter => counter.1 != modelId)
  else none

section Responses

variable (cfg : ModelSimConfigRef) (modelId : String) (requestCount : Nat)

def errorResponse (errorType errorMessage source : String) : ResolvedResponse where
  kind := "error"
  jsonBody := none
  textBody := none
  modelId := modelId
  requestCount := requestCount
  source := source
  streaming := cfg.streaming.any StreamingConfig.enabled
  streamingConfig := cfg.streaming
  latencyConfig := cfg.latency
  errorType := some errorType
  errorMessage := some errorMessage

/-- The record of a success. -/
def successResponse (source : String) (jsonBody : Option Json) (textBody : Option String) :
    ResolvedResponse where
  kind := "success"
  jsonBody := jsonBody
  textBody := textBody
  modelId := modelId
  requestCount := requestCount
  source := source
  streaming := cfg.streaming.any StreamingConfig.enabled
  streamingConfig := cfg.streaming
  latencyConfig := cfg.latency
  errorType := none
  errorMessage := none

def resolveResponseEntry (entry : ResponseEntry) (source : String) : Option ResolvedResponse :=
  match entry.error with
  | some err => some (errorResponse cfg modelId requestCount err.kind err.message source)
  | none =>
    match entry.staticPayload with
    | some payload => some (successResponse cfg modelId requestCount source (some payload) none)
    | none => do
      let text ← generateText modelId requestCount entry.text
      some (successResponse cfg modelId requestCount source none (some text))

/-- The fourth stage. -/
def fallbackResponse : Option ResolvedResponse :=
  match cfg.mode with
  | "schema" =>
    let schema := cfg.schema.getD SchemaNodeConfig.default
    let value := generateFromSchema modelId requestCount "" schema
    some (successResponse cfg modelId requestCount "schema" (some value) none)
  | "static" =>
    let payload := cfg.staticPayload.getD .null
    some (successResponse cfg modelId requestCount "static" (some payload) none)
  | _ => do
    let text ← generateText modelId requestCount cfg.textConfig
    some (successResponse cfg modelId requestCount "text" none (some text))

end Responses

/-- `text.contains(part)`. -/
def contains (text part : String) : Bool :=
  decide (part.toList <:+: text.toList)

/-- The entry of a sequence that a request gets. -/
def SequenceConfig.index (seq : SequenceConfig) (requestCount : Nat) : Nat :=
  if seq.mode = "cycle" then (requestCount - 1) % seq.responses.length
  else min (requestCount - 1) (seq.responses.length - 1)

section Resolve

variable (toLowercase : String → String)

/-- The stages, for a request with its number. `none` stands for arithmetic that overflows. -/
def resolved (cfg : ModelSimConfigRef) (modelId : String) (requestCount : Nat) (promptText : String) :
    Option ResolvedResponse :=
  match cfg.errorInjections.find? fun inject =>
      decide (0 < inject.every) && requestCount % inject.every == 0 with
  | some inject =>
    some (errorResponse cfg modelId requestCount inject.kind inject.message "error_injection")
  | none =>
    let promptLower := toLowercase promptText
    match cfg.rules.findSome? fun rule =>
        if rule.contains.any fun needle => contains promptLower needle then
          match rule.error with
          | some err =>
            some (some (errorResponse cfg modelId requestCount err.kind err.message "rule_error"))
          | none => rule.response.map fun resp => resolveResponseEntry cfg modelId requestCount resp "rule"
        else none with
    | some answer => answer
    | none =>
      match cfg.sequence.filter fun seq => !seq.responses.isEmpty with
      | some seq =>
        let idx := seq.index requestCount
        seq.responses[idx]?.bind fun entry =>
          resolveResponseEntry cfg modelId requestCount entry ("sequence[" ++ toString idx ++ "]")
      | none => fallbackResponse cfg modelId requestCount

def resolve (config : BedrockSimConfig) (counters : Counters) (modelId promptText : String) :
    Option ResolvedResponse × Counters :=
  let cfgRef := config.getModelConfig modelId
  match increment counters modelId with
  | none => (none, counters)
  | some (requestCount, counters) =>
    (resolved toLowercase cfgRef modelId requestCount promptText, counters)

structure Request where
  modelId : String
  promptText : String

/-- A run: requests for any models, in the order in which they take the counters. -/
def outcomes (config : BedrockSimConfig) : Counters → List Request → List (Option ResolvedResponse)
  | _, [] => []
  | counters, request :: rest =>
    let (answer, counters) := resolve toLowercase config counters request.modelId request.promptText
    answer :: outcomes config counters rest

/-! ### The documented order -/

/-- What a request gets. -/
inductive Decision where
  | failed (source : String) (error : ErrorEntry)
  | entry (source : String) (entry : ResponseEntry)
  | fallback

def Fires (number : Nat) (inject : ErrorInjectConfig) : Prop :=
  0 < inject.every ∧ inject.every ∣ number

/-- The text of the rule occurs in the prompt, letter case apart. -/
def Matches (promptText : String) (rule : RuleConfig) : Prop :=
  ∃ needle, rule.contains = some needle ∧
    (toLowercase needle).toList <:+: (toLowercase promptText).toList

/-- The error of a rule, else its response. -/
def RuleConfig.outcome (rule : RuleConfig) : Option Decision :=
  match rule.error with
  | some err => some (.failed "rule_error" err)
  | none => rule.response.map (.entry "rule")

/-- **What is documented for the request with a number.** -/
inductive Decided (cfg : ModelSimConfigRef) (promptText : String) (number : Nat) : Decision → Prop where
  | injection {before after : List ErrorInjectConfig} {inject : ErrorInjectConfig}
      (listed : cfg.errorInjections = before ++ inject :: after) (fires : Fires number inject)
      (first : ∀ earlier ∈ before, ¬Fires number earlier) :
      Decided cfg promptText number (.failed "error_injection" ⟨inject.kind, inject.message⟩)
  | rule {before after : List RuleConfig} {rule : RuleConfig} {decision : Decision}
      (quiet : ∀ inject ∈ cfg.errorInjections, ¬Fires number inject)
      (listed : cfg.rules = before ++ rule :: after) (occurs : Matches toLowercase promptText rule)
      (outcome : rule.outcome = some decision)
      (first : ∀ earlier ∈ before, Matches toLowercase promptText earlier → earlier.outcome = none) :
      Decided cfg promptText number decision
  | listed {seq : SequenceConfig} {entry : ResponseEntry}
      (quiet : ∀ inject ∈ cfg.errorInjections, ¬Fires number inject)
      (unmatched : ∀ rule ∈ cfg.rules, Matches toLowercase promptText rule → rule.outcome = none)
      (sequence : cfg.sequence = some seq)
      (held : seq.responses[if seq.mode = "cycle" then (number - 1) % seq.responses.length
        else min (number - 1) (seq.responses.length - 1)]? = some entry) :
      Decided cfg promptText number (.entry ("sequence[" ++ toString (seq.index number) ++ "]") entry)
  | fallback (quiet : ∀ inject ∈ cfg.errorInjections, ¬Fires number inject)
      (unmatched : ∀ rule ∈ cfg.rules, Matches toLowercase promptText rule → rule.outcome = none)
      (empty : ∀ seq, cfg.sequence = some seq → seq.responses = []) :
      Decided cfg promptText number .fallback

end Resolve

/-- A text with a number of words between the bounds. -/
def Worded (cfg : ModelSimConfigRef) (modelId : String) (number : Nat) (source : String)
    (bounds : Option TextConfig) (answer : ResolvedResponse) : Prop :=
  ∃ text, answer = successResponse cfg modelId number source none (some text) ∧
    minOf bounds ≤ (splitWhitespace text).length ∧ (splitWhitespace text).length ≤ maxOf bounds

/-- **What a decision is answered with.** -/
def Answers (cfg : ModelSimConfigRef) (modelId : String) (number : Nat) :
    Decision → ResolvedResponse → Prop
  | .failed source err, answer => answer = errorResponse cfg modelId number err.kind err.message source
  | .entry source entry, answer =>
    match entry.error, entry.staticPayload with
    | some err, _ => answer = errorResponse cfg modelId number err.kind err.message source
    | none, some payload => answer = successResponse cfg modelId number source (some payload) none
    | none, none => Worded cfg modelId number source entry.text answer
  | .fallback, answer =>
    match cfg.mode with
    | "schema" => answer = successResponse cfg modelId number "schema"
        (some (generateFromSchema modelId number "" (cfg.schema.getD SchemaNodeConfig.default))) none
    | "static" => answer = successResponse cfg modelId number "static"
        (some (cfg.staticPayload.getD .null)) none
    | _ => Worded cfg modelId number "text" cfg.textConfig answer

/-! ### Decisions and their answers -/

/-- The bounds of the text that a decision generates. -/
def Decision.bounds (cfg : ModelSimConfigRef) : Decision → Option (Option TextConfig)
  | .failed _ _ => none
  | .entry _ row => if row.error.isSome ∨ row.staticPayload.isSome then none else some row.text
  | .fallback => if cfg.mode = "schema" ∨ cfg.mode = "static" then none else some cfg.textConfig

/-- The answer of the code to a decision. -/
def Decision.answer (cfg : ModelSimConfigRef) (modelId : String) (number : Nat) :
    Decision → Option ResolvedResponse
  | .failed source err => some (errorResponse cfg modelId number err.kind err.message source)
  | .entry source row => resolveResponseEntry cfg modelId number row source
  | .fallback => fallbackResponse cfg modelId number

theorem generateText_worded (cfg : ModelSimConfigRef) (modelId : String) (number : Nat)
    (source : String) {bounds : Option TextConfig} (bounded : Bounded bounds) :
    ∃ answer, (do
      let text ← generateText modelId number bounds
      some (successResponse cfg modelId number source none (some text))) = some answer ∧
        Worded cfg modelId number source bounds answer := by
  obtain ⟨text, generated, words⟩ := generateText_words modelId number bounded
  rw [generated]
  exact ⟨_, rfl, text, rfl, words⟩

/-- **A decision is answered as it has to be**, when the bounds of its text are in order. -/
theorem answer_answers (cfg : ModelSimConfigRef) (modelId : String) (number : Nat) (decision : Decision)
    (bounded : ∀ bounds, decision.bounds cfg = some bounds → Bounded bounds) :
    ∃ answer, decision.answer cfg modelId number = some answer ∧
      Answers cfg modelId number decision answer := by
  cases decision with
  | failed source err => exact ⟨_, rfl, rfl⟩
  | entry source entry =>
    obtain ⟨payload, mode, text, error⟩ := entry
    cases error with
    | some err => exact ⟨_, rfl, rfl⟩
    | none =>
      cases payload with
      | some payload => exact ⟨_, rfl, rfl⟩
      | none => exact generateText_worded cfg modelId number source (bounded text (by simp [Decision.bounds]))
  | fallback =>
    by_cases schema : cfg.mode = "schema"
    · unfold Decision.answer fallbackResponse Answers
      rw [schema]
      exact ⟨_, rfl, rfl⟩
    · by_cases static : cfg.mode = "static"
      · unfold Decision.answer fallbackResponse Answers
        rw [static]
        exact ⟨_, rfl, rfl⟩
      · have words := generateText_worded cfg modelId number "text"
          (bounded cfg.textConfig (if_neg fun known => known.elim schema static))
        unfold Decision.answer fallbackResponse Answers
        dsimp only
        split
        · exact absurd ‹_› schema
        · exact absurd ‹_› static
        · exact words

section Order

variable (toLowercase : String → String)

/-- The outcome of a rule whose text passes a test. -/
def RuleConfig.decision (occurs : String → Bool) (rule : RuleConfig) : Option Decision :=
  if rule.contains.any occurs then rule.outcome else none

/-- **The rules decide the same with their texts as they are written and in lower case.** -/
def Folded (cfg : ModelSimConfigRef) (promptText : String) : Prop :=
  cfg.rules.findSome? (RuleConfig.decision fun needle => contains (toLowercase promptText) needle) =
    cfg.rules.findSome? (RuleConfig.decision fun needle =>
      contains (toLowercase promptText) (toLowercase needle))

/-- **What a request has to meet.** -/
structure Meets (cfg : ModelSimConfigRef) (promptText : String) (number : Nat) : Prop where
  counted : number < 2 ^ 64
  folded : (∀ inject ∈ cfg.errorInjections, ¬Fires number inject) → Folded toLowercase cfg promptText
  bounded : ∀ decision, Decided toLowercase cfg promptText number decision →
    ∀ bounds, decision.bounds cfg = some bounds → Bounded bounds

theorem fires_iff (number : Nat) (inject : ErrorInjectConfig) :
    (decide (0 < inject.every) && number % inject.every == 0) = true ↔ Fires number inject := by
  rw [Bool.and_eq_true, decide_eq_true_iff, beq_iff_eq]
  exact and_congr_right' (Nat.dvd_iff_mod_eq_zero).symm

theorem matches_iff (promptText : String) (rule : RuleConfig) :
    (rule.contains.any fun needle => contains (toLowercase promptText) (toLowercase needle)) = true ↔
      Matches toLowercase promptText rule := by
  unfold Matches contains
  cases rule.contains with
  | none => simp
  | some needle => simp

/-- The answer that the code has for a rule is that of the rule's decision. -/
theorem ruleAnswer_eq (cfg : ModelSimConfigRef) (modelId : String) (number : Nat) (promptLower : String)
    (rule : RuleConfig) :
    (if rule.contains.any fun needle => contains promptLower needle then
      match rule.error with
      | some err => some (some (errorResponse cfg modelId number err.kind err.message "rule_error"))
      | none => rule.response.map fun resp => resolveResponseEntry cfg modelId number resp "rule"
    else none) = (rule.decision fun needle => contains promptLower needle).map
      (Decision.answer cfg modelId number) := by
  unfold RuleConfig.decision RuleConfig.outcome
  split
  · cases rule.error with
    | some err => rfl
    | none =>
      cases rule.response with
      | none => rfl
      | some resp => rfl
  · rfl

/-- **One request.** The code takes the documented decision, whose answer it gives. -/
theorem resolved_decided (cfg : ModelSimConfigRef) (modelId promptText : String) (number : Nat)
    (folded : (∀ inject ∈ cfg.errorInjections, ¬Fires number inject) →
      Folded toLowercase cfg promptText) :
    ∃ decision, Decided toLowercase cfg promptText number decision ∧
      resolved toLowercase cfg modelId number promptText = decision.answer cfg modelId number := by
  unfold resolved
  cases injected : cfg.errorInjections.find? fun inject =>
      decide (0 < inject.every) && number % inject.every == 0 with
  | some inject =>
    obtain ⟨fires, before, after, listed, first⟩ := List.find?_eq_some_iff_append.mp injected
    refine ⟨_, .injection listed ((fires_iff number inject).mp fires) fun earlier member wrong => ?_, rfl⟩
    have quiet := first earlier member
    rw [(fires_iff number earlier).mpr wrong] at quiet
    cases quiet
  | none =>
    have quiet : ∀ inject ∈ cfg.errorInjections, ¬Fires number inject := fun inject member fires =>
      List.find?_eq_none.mp injected inject member ((fires_iff number inject).mpr fires)
    have folded := folded quiet
    have answers : cfg.rules.findSome? (fun rule =>
        if rule.contains.any fun needle => contains (toLowercase promptText) needle then
          match rule.error with
          | some err => some (some (errorResponse cfg modelId number err.kind err.message "rule_error"))
          | none => rule.response.map fun resp => resolveResponseEntry cfg modelId number resp "rule"
        else none) = (cfg.rules.findSome? (RuleConfig.decision fun needle =>
          contains (toLowercase promptText) (toLowercase needle))).map
            (Decision.answer cfg modelId number) := by
      rw [← folded, List.map_findSome?]
      exact congrArg (fun test => cfg.rules.findSome? test) (funext fun rule => ruleAnswer_eq ..)
    dsimp only
    rw [answers]
    cases ruled : cfg.rules.findSome? (RuleConfig.decision fun needle =>
        contains (toLowercase promptText) (toLowercase needle)) with
    | some decision =>
      obtain ⟨before, rule, after, listed, here, first⟩ := List.findSome?_eq_some_iff.mp ruled
      unfold RuleConfig.decision at here first
      split at here
      · rename_i occurs
        refine ⟨decision, .rule quiet listed ((matches_iff ..).mp occurs) here
          fun earlier member also => ?_, rfl⟩
        have passed := first earlier member
        rw [if_pos ((matches_iff ..).mpr also)] at passed
        exact passed
      · cases here
    | none =>
      have unmatched : ∀ rule ∈ cfg.rules, Matches toLowercase promptText rule → rule.outcome = none := by
        intro rule member occurs
        have passed := List.findSome?_eq_none_iff.mp ruled rule member
        unfold RuleConfig.decision at passed
        rw [if_pos ((matches_iff ..).mpr occurs)] at passed
        exact passed
      show ∃ decision, _ ∧ (match cfg.sequence.filter fun seq => !seq.responses.isEmpty with
        | some seq => seq.responses[seq.index number]?.bind fun entry => resolveResponseEntry cfg modelId
            number entry ("sequence[" ++ toString (seq.index number) ++ "]")
        | none => fallbackResponse cfg modelId number) = _
      cases sequence : cfg.sequence with
      | none => exact ⟨.fallback, .fallback quiet unmatched (by rw [sequence]; nofun), rfl⟩
      | some seq =>
        cases empty : seq.responses.isEmpty with
        | true =>
          rw [Option.filter_some, empty]
          refine ⟨.fallback, .fallback quiet unmatched fun other same => ?_, rfl⟩
          rw [sequence] at same
          rw [← Option.some.inj same]
          exact List.isEmpty_iff.mp empty
        | false =>
          have some' : 0 < seq.responses.length :=
            List.length_pos_iff.mpr (List.isEmpty_eq_false_iff.mp empty)
          have inside : seq.index number < seq.responses.length := by
            unfold SequenceConfig.index
            split
            · exact Nat.mod_lt _ some'
            · omega
          rw [Option.filter_some, empty]
          have held : seq.responses[seq.index number]? = some (seq.responses[seq.index number]) :=
            List.getElem?_eq_getElem inside
          refine ⟨_, .listed quiet unmatched sequence held, ?_⟩
          show (seq.responses[seq.index number]?).bind _ = _
          rw [held]
          rfl


/-! ### Runs -/

/-- How often a model was asked. -/
def asked (requests : List Request) (modelId : String) : Nat :=
  requests.countP fun request => request.modelId == modelId

theorem lookup_filter_ne {modelId other : String} (different : other ≠ modelId) (counters : Counters) :
    (counters.filter fun counter => counter.1 != modelId).lookup other = counters.lookup other := by
  induction counters with
  | nil => rfl
  | cons counter rest ih =>
    obtain ⟨name, count⟩ := counter
    rw [List.filter_cons]
    by_cases same : name = modelId
    · rw [if_neg (by simp [same]), ih, List.lookup_cons, same, beq_false_of_ne different]
    · rw [if_pos (by simp [same]), List.lookup_cons, List.lookup_cons, ih]

/-- The counter of the model goes up by one, and no other. -/
theorem getCount_increment {counters next : Counters} {modelId : String} {count : Nat}
    (incremented : increment counters modelId = some (count, next)) :
    count = getCount counters modelId + 1 ∧ ∀ other, getCount next other =
      getCount counters other + if modelId = other then 1 else 0 := by
  unfold increment at incremented
  dsimp only at incremented
  split at incremented
  · obtain ⟨rfl, rfl⟩ := Prod.mk.inj (Option.some.inj incremented)
    refine ⟨rfl, fun other => ?_⟩
    by_cases same : modelId = other
    · rw [if_pos same, ← same]
      unfold getCount
      rw [List.lookup_cons, beq_self_eq_true]
      rfl
    · have different : other ≠ modelId := fun equal => same equal.symm
      rw [if_neg same, Nat.add_zero]
      unfold getCount
      rw [List.lookup_cons, beq_false_of_ne different]
      exact congrArg (fun count => Option.getD count 0) (lookup_filter_ne different counters)
  · cases incremented

theorem asked_append (past : List Request) (request : Request) (modelId : String) :
    asked (past ++ [request]) modelId = asked past modelId + if request.modelId = modelId then 1 else 0 := by
  unfold asked
  rw [List.countP_append, List.countP_singleton]
  by_cases same : request.modelId = modelId
  · rw [if_pos same, if_pos (beq_iff_eq.mpr same)]
  · rw [if_neg same, if_neg fun equal => same (beq_iff_eq.mp equal)]

/-- **The counters over a run.** Each request is resolved with one more than the number of requests for
its model before it. -/
theorem outcomes_asked (config : BedrockSimConfig) (requests : List Request) :
    ∀ (past : List Request) (counters : Counters),
      (∀ modelId, getCount counters modelId = asked past modelId) →
      (∀ (before : List Request) (request : Request) (after : List Request),
        requests = before ++ request :: after →
          asked (past ++ before) request.modelId + 1 < 2 ^ 64) →
      ∀ (before : List Request) (request : Request) (after : List Request),
        requests = before ++ request :: after →
        (outcomes toLowercase config counters requests)[before.length]? =
          some (resolved toLowercase (config.getModelConfig request.modelId) request.modelId
            (asked (past ++ before) request.modelId + 1) request.promptText) := by
  induction requests with
  | nil => exact fun _ _ _ _ before _ _ same => by cases before <;> cases same
  | cons first rest ih =>
    intro past counters counts small before request after same
    have here := small [] first rest rfl
    rw [List.append_nil, ← counts] at here
    have incremented : increment counters first.modelId = some (getCount counters first.modelId + 1,
        (first.modelId, getCount counters first.modelId + 1) ::
          counters.filter fun counter => counter.1 != first.modelId) := if_pos here
    have counts' := (getCount_increment incremented).2
    unfold outcomes resolve
    rw [incremented]
    dsimp only
    cases before with
    | nil =>
      obtain ⟨rfl, rfl⟩ := List.cons.inj same
      rw [List.append_nil, ← counts]
      rfl
    | cons earlier before =>
      obtain ⟨rfl, rfl⟩ := List.cons.inj same
      have later := ih (past ++ [first]) _
        (fun modelId => by rw [counts', counts, asked_append])
        (fun before' request' after' same' => by
          have bound := small (first :: before') request' after' (by rw [same']; rfl)
          rw [List.append_assoc]
          exact bound)
        before request after rfl
      rw [List.append_assoc] at later
      exact later

omit toLowercase in
theorem findSome?_agree {α β : Type} {first second : α → Option β} {list : List α}
    (same : ∀ value ∈ list, first value = second value) :
    list.findSome? first = list.findSome? second := by
  induction list with
  | nil => rfl
  | cons value rest ih =>
    rw [List.findSome?_cons, List.findSome?_cons, same value List.mem_cons_self,
      ih fun other member => same other (List.mem_cons_of_mem _ member)]

/-- The entries of a model. -/
def ModelSimConfigRef.entries (cfg : ModelSimConfigRef) : List ResponseEntry :=
  cfg.rules.filterMap RuleConfig.response ++ cfg.sequence.elim [] SequenceConfig.responses

/-- **A model meets the condition at every request** when the texts of its rules are in lower case and all
its bounds are in order. -/
theorem meets_of_lower {cfg : ModelSimConfigRef} {promptText : String} {number : Nat}
    (counted : number < 2 ^ 64)
    (lower : ∀ rule ∈ cfg.rules, ∀ needle, rule.contains = some needle → toLowercase needle = needle)
    (entries : ∀ entry ∈ cfg.entries, Bounded entry.text) (text : Bounded cfg.textConfig) :
    Meets toLowercase cfg promptText number := by
  have listed : ∀ source, ∀ entry ∈ cfg.entries, ∀ bounds,
      (Decision.entry source entry).bounds cfg = some bounds → Bounded bounds := by
    intro source entry member bounds same
    unfold Decision.bounds at same
    dsimp only at same
    split at same
    · cases same
    · exact Option.some.inj same ▸ entries entry member
  refine ⟨counted, fun _ => ?_, fun decision decided bounds same => ?_⟩
  · refine findSome?_agree fun rule member => ?_
    unfold RuleConfig.decision
    cases needle : rule.contains with
    | none => rfl
    | some needle' => rw [Option.any_some, Option.any_some, lower rule member needle' needle]
  · cases decided with
    | injection => cases same
    | @rule before after rule _ _ rules _ outcome _ =>
      unfold RuleConfig.outcome at outcome
      split at outcome
      · rw [← Option.some.inj outcome] at same
        cases same
      · obtain ⟨entry, response, rfl⟩ := Option.map_eq_some_iff.mp outcome
        refine listed "rule" entry (List.mem_append_left _ (List.mem_filterMap.mpr
          ⟨rule, ?_, response⟩)) bounds same
        rw [rules]
        exact List.mem_append_right _ List.mem_cons_self
    | listed _ _ sequence held =>
      refine listed _ _ (List.mem_append_right _ ?_) bounds same
      rw [sequence]
      exact List.mem_of_getElem? held
    | fallback =>
      unfold Decision.bounds at same
      dsimp only at same
      split at same
      · cases same
      · exact Option.some.inj same ▸ text

/-- **Every request of a run is answered in the documented order.** The requests are for any models; each
is the first, second, .. of its model, and meets the condition as that. -/
theorem resolves_in_order (config : BedrockSimConfig) (requests : List Request)
    (meets : ∀ (before : List Request) (request : Request) (after : List Request),
      requests = before ++ request :: after →
      Meets toLowercase (config.getModelConfig request.modelId) request.promptText
        (asked before request.modelId + 1)) :
    ∀ (before : List Request) (request : Request) (after : List Request),
      requests = before ++ request :: after → ∃ decision answer,
      (outcomes toLowercase config [] requests)[before.length]? = some (some answer) ∧
      Decided toLowercase (config.getModelConfig request.modelId) request.promptText
        (asked before request.modelId + 1) decision ∧
      Answers (config.getModelConfig request.modelId) request.modelId
        (asked before request.modelId + 1) decision answer := by
  intro before request after same
  have step := outcomes_asked toLowercase config requests [] [] (fun _ => rfl)
    (fun before request after same => (meets before request after same).counted)
    before request after same
  have here := meets before request after same
  obtain ⟨decision, decided, answered⟩ := resolved_decided toLowercase
    (config.getModelConfig request.modelId) request.modelId request.promptText
    (asked before request.modelId + 1) here.folded
  obtain ⟨answer, given, answers⟩ := answer_answers (config.getModelConfig request.modelId)
    request.modelId (asked before request.modelId + 1) decision (here.bounded decision decided)
  refine ⟨decision, answer, ?_, decided, answers⟩
  rw [step, List.nil_append, answered, given]

end Order

/-- A model with a sequence of one text. -/
def sequenceModel : ModelSimConfig where
  sequence := some { mode := "cycle", responses := [{ text := some {} }] }

/-- The second request for a model with a sequence, after one for another model. -/
theorem resolves_in_order_sample :
    ∃ decision answer,
      (outcomes toAsciiLowercase { models := [("m", sequenceModel)] } []
        [⟨"m", "a"⟩, ⟨"n", "b"⟩, ⟨"m", "c"⟩])[2]? = some (some answer) ∧
      Decided toAsciiLowercase (.owned sequenceModel) "c" 2 decision ∧
      Answers (.owned sequenceModel) "m" 2 decision answer := by
  refine resolves_in_order toAsciiLowercase { models := [("m", sequenceModel)] }
    [⟨"m", "a"⟩, ⟨"n", "b"⟩, ⟨"m", "c"⟩] (fun before request after same => ?_)
    [⟨"m", "a"⟩, ⟨"n", "b"⟩] ⟨"m", "c"⟩ [] rfl
  have short := congrArg List.length same
  rw [List.length_append, List.length_cons, List.length_cons, List.length_cons, List.length_cons] at short
  have few : asked before request.modelId + 1 < 2 ^ 64 := by
    have := List.countP_le_length (p := fun other : Request => other.modelId == request.modelId)
      (l := before)
    unfold asked
    rw [List.length_nil] at short
    omega
  have standard : Bounded (some {}) := ⟨by decide, by decide, by decide⟩
  unfold BedrockSimConfig.getModelConfig
  rw [List.lookup_cons]
  split
  · rename_i found
    split at found
    · obtain rfl := Option.some.inj found
      refine meets_of_lower _ few (by rintro rule ⟨⟩) ?_ ⟨by decide, by decide, by decide⟩
      intro entry member
      rw [List.mem_singleton.mp member]
      exact standard
    · cases found
  · exact meets_of_lower _ few (by rintro rule ⟨⟩) (by rintro entry ⟨⟩) ⟨by decide, by decide, by decide⟩

/-- A text of at most three words has the default of five as its least number: no answer. A rule for
`Quota` is not found by a prompt with `Quota` in it: the model answers as if it had no rule. -/
theorem bounds_and_needle :
    outcomes toAsciiLowercase { models := [("m", { text := some { maxWords := 3 } })] } []
        [⟨"m", "hello"⟩] = [none] ∧
      Decided toAsciiLowercase (.owned { mode := some "static", rules :=
        [{ contains := some "Quota", error := some {} }] }) "Quota!" 1 (.failed "rule_error" {}) ∧
      outcomes toAsciiLowercase { models := [("m", { mode := some "static", rules :=
        [{ contains := some "Quota", error := some {} }] })] } [] [⟨"m", "Quota!"⟩] =
          [some (successResponse (.owned { mode := some "static", rules :=
            [{ contains := some "Quota", error := some {} }] }) "m" 1 "static" (some .null) none)] := by
  refine ⟨rfl, ?_, ?_⟩
  · exact .rule (by nofun) (show _ = [] ++ _ :: [] from rfl) ⟨"Quota", rfl, by decide⟩ rfl (by nofun)
  · rfl

end CloudTwin.Bedrock
