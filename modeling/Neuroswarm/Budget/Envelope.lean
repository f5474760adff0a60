import Neuroswarm.Lib.Overlay
import Neuroswarm.Budget.Tracker

/-!
# Budget envelope — templates and envelopes

`armora/budget/envelope.py`, with the configuration it reads
(`armora/budget/config.py`) and the template and preference schemas of
`armora/budget/schemas.py`. The fields of an envelope that only reports read
(its service level, policies and host constraints) are left out.
-/

namespace Neuroswarm.Budget

/-- The configured ceilings, hardness switches and degrade ladder. -/
structure BudgetRuntimeConfig where
  defaultCostUsd : ℚ := 5 / 100
  defaultLatencyMs : ℚ := 4000
  defaultMemoryBytes : ℤ := 8 * 1024 * 1024 * 1024
  defaultEnergyJoules : ℚ := 50
  defaultPromptTokens : ℤ := 8192
  defaultCompletionTokens : ℤ := 2048
  defaultReasoningTokens : ℤ := 512
  defaultKvBytes : ℤ := 2 * 1024 * 1024 * 1024
  defaultToolCalls : ℤ := 8
  defaultCpuSeconds : ℚ := 120
  defaultStreamingMs : ℚ := 60000
  defaultRetries : ℤ := 2
  defaultConcurrency : ℤ := 4
  costHard : Bool := true
  latencyHard : Bool := true
  memoryHard : Bool := true
  energyHard : Bool := false
  tokenHard : Bool := true
  kvHard : Bool := true
  toolHard : Bool := true
  computeHard : Bool := false
  streamingHard : Bool := false
  retryHard : Bool := true
  degradeLadder : List String :=
    ["lower_tier", "lower_quant", "cut_reasoning", "trim_context", "disable_speculation",
     "drop_tools", "cut_retries", "abort"]
  reservePercentile : String := "p90"

/-- What the policy engine compiles for a role and a tenant. -/
structure EnvelopeTemplate where
  agentRole : String := "default"
  costUsd : Option ℚ := none
  latencyMs : Option ℚ := none
  memoryBytes : Option ℤ := none
  energyJoules : Option ℚ := none
  promptTokens : Option ℤ := none
  completionTokens : Option ℤ := none
  reasoningTokens : Option ℤ := none
  kvBytes : Option ℤ := none
  toolCalls : Option ℤ := none
  cpuSeconds : Option ℚ := none
  streamingMs : Option ℚ := none
  retries : Option ℤ := none
  concurrency : Option ℤ := none
  preferredQuantization : Option String := none
  preferredModelTier : Option ℤ := none

structure BackendPreferences where
  preferredQuantization : String := ""
  preferredModelTier : ℤ := 1
  allowSpeculation : Bool := true
  deriving DecidableEq

structure BudgetEnvelope where
  preferences : BackendPreferences := {}
  categories : Dict String BudgetCategory := Dict.empty
  frozen : Bool := false
  deriving DecidableEq

/-- `BudgetEnvelope.freeze()`: the categories keep their limits only. -/
def BudgetEnvelope.freeze (envelope : BudgetEnvelope) : BudgetEnvelope :=
  if envelope.frozen then
    envelope
  else
    { envelope with
      frozen := true
      categories := envelope.categories.mapValues fun _ cat =>
        { cat with consumed := 0, reserved := 0, estimated := 0, projected := 0 } }

/-- `_hardness(cfg, dim)`. -/
def hardnessOf (cfg : BudgetRuntimeConfig) (dim : String) : Hardness :=
  let mapping : List (String × Bool) :=
    [("cost_usd", cfg.costHard), ("latency_ms", cfg.latencyHard),
     ("memory_bytes", cfg.memoryHard), ("energy_joules", cfg.energyHard),
     ("prompt_tokens", cfg.tokenHard), ("completion_tokens", cfg.tokenHard),
     ("reasoning_tokens", cfg.tokenHard), ("tokens_total", cfg.tokenHard),
     ("kv_bytes", cfg.kvHard), ("tool_calls", cfg.toolHard), ("cpu_seconds", cfg.computeHard),
     ("streaming_ms", cfg.streamingHard), ("retries", cfg.retryHard),
     ("concurrency", cfg.retryHard)]
  if (mapping.lookup dim).getD true then .hard else .soft

def templateLimits (template : EnvelopeTemplate) (cfg : BudgetRuntimeConfig) : Amounts :=
  let prompt := template.promptTokens.getD cfg.defaultPromptTokens
  let completion := template.completionTokens.getD cfg.defaultCompletionTokens
  let reasoning := template.reasoningTokens.getD cfg.defaultReasoningTokens
  ⟨[("cost_usd", template.costUsd.getD cfg.defaultCostUsd),
    ("latency_ms", template.latencyMs.getD cfg.defaultLatencyMs),
    ("memory_bytes", template.memoryBytes.getD cfg.defaultMemoryBytes),
    ("energy_joules", template.energyJoules.getD cfg.defaultEnergyJoules),
    ("prompt_tokens", prompt),
    ("completion_tokens", completion),
    ("reasoning_tokens", reasoning),
    ("tokens_total", prompt + completion + reasoning),
    ("kv_bytes", template.kvBytes.getD cfg.defaultKvBytes),
    ("tool_calls", template.toolCalls.getD cfg.defaultToolCalls),
    ("cpu_seconds", template.cpuSeconds.getD cfg.defaultCpuSeconds),
    ("streaming_ms", template.streamingMs.getD cfg.defaultStreamingMs),
    ("retries", template.retries.getD cfg.defaultRetries),
    ("concurrency", template.concurrency.getD cfg.defaultConcurrency)], by
      simp only [List.map_cons, List.map_nil]
      decide⟩

def buildEnvelopeFromTemplate (template : EnvelopeTemplate) (cfg : BudgetRuntimeConfig)
    (extraCategories : Dict String BudgetCategory) : BudgetEnvelope :=
  { preferences :=
      { preferredQuantization := template.preferredQuantization.getD ""
        preferredModelTier := template.preferredModelTier.getD 1 }
    categories :=
      ((templateLimits template cfg).mapValues fun name limit =>
        buildCategory name limit (hardnessOf cfg name)).update extraCategories }

/-- The dimensions every envelope built from a template has a category for. -/
def templateDimensions : List String :=
  ["cost_usd", "latency_ms", "memory_bytes", "energy_joules", "prompt_tokens",
   "completion_tokens", "reasoning_tokens", "tokens_total", "kv_bytes", "tool_calls",
   "cpu_seconds", "streaming_ms", "retries", "concurrency"]

theorem keys_templateLimits (template : EnvelopeTemplate) (cfg : BudgetRuntimeConfig) :
    (templateLimits template cfg).keys = templateDimensions := rfl

theorem exists_category (template : EnvelopeTemplate) (cfg : BudgetRuntimeConfig)
    (extraCategories : Dict String BudgetCategory) {name : String}
    (hName : name ∈ templateDimensions) :
    ∃ cat, (buildEnvelopeFromTemplate template cfg extraCategories).categories.get? name =
      some cat := by
  rw [← keys_templateLimits template cfg, Dict.mem_keys_iff, Option.isSome_iff_exists] at hName
  obtain ⟨limit, hLimit⟩ := hName
  rw [buildEnvelopeFromTemplate, Dict.get?_update, Dict.get?_mapValues, hLimit, Option.map_some]
  cases extraCategories.get? name with
  | none => exact ⟨_, rfl⟩
  | some cat => exact ⟨cat, rfl⟩

theorem get?_freeze (envelope : BudgetEnvelope) (name : String) :
    ∃ f : BudgetCategory → BudgetCategory,
      (∀ cat, (f cat).limit = cat.limit ∧ (f cat).hardness = cat.hardness) ∧
      envelope.freeze.categories.get? name = (envelope.categories.get? name).map f := by
  unfold BudgetEnvelope.freeze
  split
  · exact ⟨id, fun _ => ⟨rfl, rfl⟩, by rw [Option.map_id]; rfl⟩
  · exact ⟨fun cat => { cat with consumed := 0, reserved := 0, estimated := 0, projected := 0 },
      fun _ => ⟨rfl, rfl⟩, Dict.get?_mapValues _ _ name⟩

end Neuroswarm.Budget
