/-
**The configuration of the model simulation.**

The `bedrock:` section of the configuration file, each structure with the defaults that its fields are
read with. A model without an entry has the global defaults.
-/

import CloudTwin.External

namespace CloudTwin.Bedrock

structure LatencyConfig where
  minMs : Nat
  maxMs : Nat

structure DefaultsConfig where
  mode : String := "text"
  latency : Option LatencyConfig := none

structure StreamingConfig where
  enabled : Bool := false
  chunkMode : String := "word"
  fixedChunkSize : Nat := 10
  firstChunkDelayMs : Nat := 0
  chunkDelayMs : Nat := 0
  failAfterChunks : Option Nat := none

structure TextConfig where
  template : String := "lipsum"
  minWords : Nat := 5
  maxWords : Nat := 15

/-- A node of a schema; `properties` is a map, `itemsEnum` the member `enum`. -/
inductive SchemaNodeConfig where
  | node (kind : String) (properties : List (String × SchemaNodeConfig)) (items : Option SchemaNodeConfig)
    (itemsEnum : Option (List Json))

/-- `SchemaNodeConfig::default()`, which is not what an empty node is read as: its kind is empty. -/
def SchemaNodeConfig.default : SchemaNodeConfig :=
  .node "" [] none none

structure ErrorEntry where
  kind : String := "ThrottlingException"
  message : String := "Synthetic error"

structure ResponseEntry where
  staticPayload : Option Json := none
  mode : Option String := none
  text : Option TextConfig := none
  error : Option ErrorEntry := none

structure SequenceConfig where
  mode : String := "sequence"
  responses : List ResponseEntry := []

structure RuleConfig where
  contains : Option String := none
  response : Option ResponseEntry := none
  error : Option ErrorEntry := none

structure ErrorInjectConfig where
  every : Nat := 5
  kind : String := "ThrottlingException"
  message : String := "Synthetic error"

/-- The entry of a model. -/
structure ModelSimConfig where
  mode : Option String := none
  staticPayload : Option Json := none
  schema : Option SchemaNodeConfig := none
  text : Option TextConfig := none
  sequence : Option SequenceConfig := none
  rules : List RuleConfig := []
  errors : List ErrorInjectConfig := []
  streaming : Option StreamingConfig := none
  latency : Option LatencyConfig := none

structure BedrockSimConfig where
  defaults : DefaultsConfig := {}
  models : List (String × ModelSimConfig) := []

/-! ### The configuration of one model -/

inductive ModelSimConfigRef where
  | owned (model : ModelSimConfig)
  | default (defaults : DefaultsConfig)

def BedrockSimConfig.getModelConfig (config : BedrockSimConfig) (modelId : String) : ModelSimConfigRef :=
  match config.models.lookup modelId with
  | some model => .owned model
  | none => .default config.defaults

namespace ModelSimConfigRef

def mode : ModelSimConfigRef → String
  | owned model => model.mode.getD "text"
  | default defaults => defaults.mode

def staticPayload : ModelSimConfigRef → Option Json
  | owned model => model.staticPayload
  | default _ => none

def schema : ModelSimConfigRef → Option SchemaNodeConfig
  | owned model => model.schema
  | default _ => none

def textConfig : ModelSimConfigRef → Option TextConfig
  | owned model => model.text
  | default _ => none

def sequence : ModelSimConfigRef → Option SequenceConfig
  | owned model => model.sequence
  | default _ => none

def rules : ModelSimConfigRef → List RuleConfig
  | owned model => model.rules
  | default _ => []

def errorInjections : ModelSimConfigRef → List ErrorInjectConfig
  | owned model => model.errors
  | default _ => []

def streaming : ModelSimConfigRef → Option StreamingConfig
  | owned model => model.streaming
  | default _ => none

def latency : ModelSimConfigRef → Option LatencyConfig
  | owned model => model.latency
  | default defaults => defaults.latency

end ModelSimConfigRef

end CloudTwin.Bedrock
