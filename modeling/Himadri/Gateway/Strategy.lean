import Himadri.Core.Config

/-!
# The routing strategy a configuration selects

`Strategy` and its construction from the strategy section. Compiling a regular expression is the
`regex` crate's business: `regexNew` is `Regex::new(..).ok()`, and a compiled expression is known by
its pattern.
-/

namespace Himadri

/-- A compiled regular expression. -/
structure Regex where
  pattern : String
  deriving DecidableEq

/-- `LatencyEntry`. -/
structure LatencyEntry where
  sum : ℕ
  count : ℕ
  deriving DecidableEq

/-- `InMemoryLatencyStore`. -/
structure LatencyStore where
  stats : KeyMap String LatencyEntry

/-- `InMemoryLatencyStore::new`. -/
def LatencyStore.new : LatencyStore := ⟨.empty⟩

/-- `ConditionRule`. -/
structure ConditionRule where
  key : ConditionKeyConfig
  value : String
  target : Target
  deriving DecidableEq

/-- `ContentRule`. -/
structure ContentRule where
  conditionType : ContentConditionTypeConfig
  value : String
  target : Target
  compiledRegex : Option Regex
  deriving DecidableEq

/-- `ABTestVariant`. -/
structure ABTestVariant where
  target : Target
  weight : ℚ
  deriving DecidableEq

/-- `Strategy`. -/
inductive Strategy
  | single
  | fallback
  | loadBalance
  | leastLatency (store : LatencyStore)
  | costOptimized
  | conditional (rules : List ConditionRule) (fallback : Option Target)
  | contentBased (rules : List ContentRule) (fallback : Option Target)
  | abTest (variants : List ABTestVariant)

namespace Strategy

/-- `Strategy::from_mode`. -/
def fromMode : StrategyMode → Strategy
  | .single => .single
  | .fallback => .fallback
  | .loadBalance => .loadBalance
  | .leastLatency => .leastLatency .new
  | .costOptimized => .costOptimized
  | .conditional => .conditional [] none
  | .contentBased => .contentBased [] none
  | .abTest => .abTest []

/-- `Strategy::from_strategy_config`. -/
def fromStrategyConfig (regexNew : String → Option Regex) (config : StrategyConfig) : Strategy :=
  match config.mode with
  | .conditional =>
    .conditional (config.conditionalRules.map fun r ↦ ⟨r.key, r.value, r.target⟩)
      config.strategyFallback
  | .contentBased =>
    .contentBased
      (config.contentRules.map fun r ↦
        { conditionType := r.conditionType
          value := r.value
          target := r.target
          compiledRegex :=
            match r.conditionType with
            | .promptRegex => regexNew r.value
            | _ => none })
      config.strategyFallback
  | .abTest => .abTest (config.abVariants.map fun v ↦ ⟨v.target, v.weight⟩)
  | other => fromMode other

end Strategy

end Himadri
