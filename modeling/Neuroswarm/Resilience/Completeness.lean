import Neuroswarm.Resilience.Engine

/-!
# When the engine degrades

The generator changes one dimension of a base candidate at a time, and never turns tools on.
The engine therefore gives up where an acceptable configuration is two changes away.

* `OneStep` — the configurations that the generator reaches for a profile.
* `Combination` — the configurations that the dimensions of a policy span.
* `degradesOnlyIfMust_iff` — when the engine finds an alternative if there is one.
-/

namespace Neuroswarm.Resilience

section

variable (plan : ExecutionSnapshot) (signals : RuntimeSignals) (policy : ResiliencePolicy)

def baseConfig (profile : ModelProfile) : Config := (baseCandidate plan policy profile).config

inductive OneStep (profile : ModelProfile) : Config → Prop where
  | base : OneStep profile (baseConfig plan policy profile)
  | backend (b : String) (h : b ∈ otherBackends plan policy profile) :
      OneStep profile { baseConfig plan policy profile with backend := b }
  | quant (q : String) (h : q ∈ otherQuants plan policy profile) :
      OneStep profile { baseConfig plan policy profile with quant := q }
  | context (n : Int) (h : suggestedContext signals policy profile = .ok n) :
      OneStep profile { baseConfig plan policy profile with contextLength := n }
  | threads (n : Int) (h : suggestedThreads plan signals policy = .ok n) :
      OneStep profile { baseConfig plan policy profile with threadCount := n }
  | reasoning (n : Int) (h : suggestedReasoning plan signals policy = .ok n) :
      OneStep profile { baseConfig plan policy profile with reasoningBudget := n }
  | tools (hAllowed : policy.allowToolDisable = true) (hOn : plan.toolsEnabled = true)
      (hFree : signals.toolsRequired = false) :
      OneStep profile { baseConfig plan policy profile with toolsEnabled := false }
  | cascade (s : CascadeStrategy)
      (h : (CascadeStrategy.all.filter (· ≠ policy.cascadeStrategy)).head? = some s) :
      OneStep profile { baseConfig plan policy profile with cascadeStrategy := s }

/-- A number among the preferences is one that `int` refuses. -/
def Unreadable (profile : ModelProfile) : Prop :=
  (suggestedContext signals policy profile).isOk = false ∨
    (suggestedThreads plan signals policy).isOk = false ∨
    (suggestedReasoning plan signals policy).isOk = false

variable {plan signals policy} {profile : ModelProfile}

theorem suggested_eq (hAll : ∀ d, d ∈ enabledDimensions policy.dimensions)
    (d : FallbackDimension) (suggestion : Except ResilienceError Int) (present : Int) :
    suggested policy d suggestion present =
      suggestion.map fun value => if value ≠ present then [value] else [] := by
  rw [suggested, if_pos (hAll d)]

theorem expandDimensions_isOk (hAll : ∀ d, d ∈ enabledDimensions policy.dimensions) :
    (expandDimensions plan signals policy profile).isOk = false ↔
      Unreadable plan signals policy profile := by
  unfold expandDimensions Unreadable
  rw [suggested_eq hAll, suggested_eq hAll, suggested_eq hAll]
  cases suggestedContext signals policy profile with
  | error e => exact iff_of_true rfl (.inl rfl)
  | ok context =>
    cases suggestedThreads plan signals policy with
    | error e => exact iff_of_true rfl (.inr (.inl rfl))
    | ok threads =>
      cases suggestedReasoning plan signals policy with
      | error e => exact iff_of_true rfl (.inr (.inr rfl))
      | ok reasoning =>
        refine iff_of_false (fun h => nomatch h) ?_
        rintro (h | h | h)
        all_goals exact nomatch h

theorem mem_suggested {n n' present : Int} :
    n' ∈ (if n ≠ present then [n] else []) ↔ n' = n ∧ n ≠ present := by
  split
  · next h => simp [h]
  · next h => simp [h]

theorem variants_config (hAll : ∀ d, d ∈ enabledDimensions policy.dimensions)
    (contexts threads reasonings : List Int) (config : Config) :
    (∃ c ∈ variants plan signals policy profile contexts threads reasonings, c.config = config) ↔
      baseConfig plan policy profile = config ∨
      (∃ b ∈ otherBackends plan policy profile,
        { baseConfig plan policy profile with backend := b } = config) ∨
      (∃ q ∈ otherQuants plan policy profile,
        { baseConfig plan policy profile with quant := q } = config) ∨
      (∃ n ∈ contexts, { baseConfig plan policy profile with contextLength := n } = config) ∨
      (∃ n ∈ threads, { baseConfig plan policy profile with threadCount := n } = config) ∨
      (∃ n ∈ reasonings, { baseConfig plan policy profile with reasoningBudget := n } = config) ∨
      ((policy.allowToolDisable = true ∧ plan.toolsEnabled = true ∧ signals.toolsRequired = false) ∧
        { baseConfig plan policy profile with toolsEnabled := false } = config) ∨
      ∃ s, (CascadeStrategy.all.filter (· ≠ policy.cascadeStrategy)).head? = some s ∧
        { baseConfig plan policy profile with cascadeStrategy := s } = config := by
  have hTools : (∃ c ∈ (if policy.allowToolDisable = true ∧ plan.toolsEnabled = true ∧
        ¬ signals.toolsRequired = true then [withoutTools (baseCandidate plan policy profile)]
        else []), c.config = config) ↔
      (policy.allowToolDisable = true ∧ plan.toolsEnabled = true ∧ signals.toolsRequired = false) ∧
        { baseConfig plan policy profile with toolsEnabled := false } = config := by
    split
    · next h =>
      rw [Bool.not_eq_true] at h
      rw [and_iff_right h]
      simp only [List.mem_singleton, exists_eq_left]
      exact Iff.rfl
    · next h =>
      rw [Bool.not_eq_true] at h
      simp [h]
  unfold variants
  simp only [hAll, if_true, true_and, List.mem_append, or_and_right, exists_or, hTools, or_assoc,
    List.mem_singleton, exists_eq_left, List.mem_map, exists_exists_and_eq_and, List.take_one,
    Option.mem_toList]
  exact Iff.rfl

/-- **One dimension at a time**: the configurations that the generator reaches. -/
theorem expandDimensions_config (hAll : ∀ d, d ∈ enabledDimensions policy.dimensions)
    {candidates : List FallbackCandidate}
    (h : expandDimensions plan signals policy profile = .ok candidates) (config : Config) :
    (∃ c ∈ candidates, c.config = config) ↔ OneStep plan signals policy profile config := by
  unfold expandDimensions at h
  rw [suggested_eq hAll, suggested_eq hAll, suggested_eq hAll] at h
  obtain ⟨contexts, hContexts, h⟩ := Except.bind_eq_ok.mp h
  obtain ⟨threads, hThreads, h⟩ := Except.bind_eq_ok.mp h
  obtain ⟨reasonings, hReasonings, h⟩ := Except.bind_eq_ok.mp h
  obtain ⟨context, hContext, rfl⟩ := Except.map_eq_ok.mp hContexts
  obtain ⟨thread, hThread, rfl⟩ := Except.map_eq_ok.mp hThreads
  obtain ⟨reasoning, hReasoning, rfl⟩ := Except.map_eq_ok.mp hReasonings
  cases h
  rw [variants_config hAll]
  constructor
  · rintro (rfl | ⟨b, hb, rfl⟩ | ⟨q, hq, rfl⟩ | ⟨n, hn, rfl⟩ | ⟨n, hn, rfl⟩ | ⟨n, hn, rfl⟩ |
      ⟨⟨hAllowed, hOn, hFree⟩, rfl⟩ | ⟨s, hs, rfl⟩)
    · exact .base
    · exact .backend b hb
    · exact .quant q hq
    · obtain ⟨rfl, -⟩ := mem_suggested.mp hn
      exact .context n hContext
    · obtain ⟨rfl, -⟩ := mem_suggested.mp hn
      exact .threads n hThread
    · obtain ⟨rfl, -⟩ := mem_suggested.mp hn
      exact .reasoning n hReasoning
    · exact .tools hAllowed hOn hFree
    · exact .cascade s hs
  · intro hStep
    cases hStep with
    | base => exact .inl rfl
    | backend b hb => exact .inr (.inl ⟨b, hb, rfl⟩)
    | quant q hq => exact .inr (.inr (.inl ⟨q, hq, rfl⟩))
    | context n hn =>
      cases hn.symm.trans hContext
      by_cases hSame : context = (baseCandidate plan policy profile).contextLength
      · rw [hSame]
        exact .inl rfl
      · exact .inr (.inr (.inr (.inl ⟨context, mem_suggested.mpr ⟨rfl, hSame⟩, rfl⟩)))
    | threads n hn =>
      cases hn.symm.trans hThread
      by_cases hSame : thread = (baseCandidate plan policy profile).threadCount
      · rw [hSame]
        exact .inl rfl
      · exact .inr (.inr (.inr (.inr (.inl ⟨thread, mem_suggested.mpr ⟨rfl, hSame⟩, rfl⟩))))
    | reasoning n hn =>
      cases hn.symm.trans hReasoning
      by_cases hSame : reasoning = (baseCandidate plan policy profile).reasoningBudget
      · rw [hSame]
        exact .inl rfl
      · exact .inr (.inr (.inr (.inr (.inr (.inl ⟨reasoning, mem_suggested.mpr ⟨rfl, hSame⟩, rfl⟩)))))
    | tools hAllowed hOn hFree =>
      exact .inr (.inr (.inr (.inr (.inr (.inr (.inl ⟨⟨hAllowed, hOn, hFree⟩, rfl⟩))))))
    | cascade s hs => exact .inr (.inr (.inr (.inr (.inr (.inr (.inr ⟨s, hs, rfl⟩))))))

-- ------ All candidates

theorem deduplicate_config (candidates : List FallbackCandidate) (config : Config) :
    (∃ c ∈ deduplicate candidates, c.config = config) ↔ ∃ c ∈ candidates, c.config = config := by
  suffices h : ∀ unique : List FallbackCandidate, (∃ c ∈ candidates.foldl
      (fun unique c => if unique.any (·.config = c.config) then unique else unique ++ [c]) unique,
        c.config = config) ↔
      (∃ c ∈ unique, c.config = config) ∨ ∃ c ∈ candidates, c.config = config by
    simpa [deduplicate] using h []
  induction candidates with
  | nil => simp
  | cons c candidates ih =>
    intro unique
    rw [List.foldl_cons, ih]
    split
    · next hAny =>
      -- the configuration of the dropped candidate is there already
      obtain ⟨u, hu, hSame⟩ := List.any_eq_true.mp hAny
      rw [decide_eq_true_eq] at hSame
      constructor
      · rintro (h | ⟨c', hc', h⟩)
        · exact .inl h
        · exact .inr ⟨c', List.mem_cons_of_mem c hc', h⟩
      · rintro (h | ⟨c', hc', h⟩)
        · exact .inl h
        · rcases List.mem_cons.mp hc' with rfl | hMem
          · exact .inl ⟨u, hu, hSame.trans h⟩
          · exact .inr ⟨c', hMem, h⟩
    · simp [or_and_right, exists_or, or_assoc]

def chainProfiles (plan : ExecutionSnapshot) (policy : ResiliencePolicy)
    (catalog : Dict String ModelProfile) : List ModelProfile :=
  (modelChain plan policy catalog).filterMap catalog.get?

variable {catalog : Dict String ModelProfile}

theorem generate_config (hAll : ∀ d, d ∈ enabledDimensions policy.dimensions)
    {generated : List FallbackCandidate}
    (h : generate plan signals policy catalog = .ok generated) (config : Config) :
    (∃ c ∈ generated, c.config = config) ↔
      ∃ profile ∈ chainProfiles plan policy catalog,
        OneStep plan signals policy profile config := by
  obtain ⟨expanded, hExpanded, h⟩ := Except.bind_eq_ok.mp h
  cases h
  rw [deduplicate_config]
  constructor
  · rintro ⟨c, hc, hConfig⟩
    obtain ⟨candidates, hMem, hc⟩ := List.mem_flatten.mp hc
    obtain ⟨profile, hProfile, hExpand⟩ := (Except.mem_of_mapM hExpanded).mp hMem
    exact ⟨profile, hProfile, (expandDimensions_config hAll hExpand config).mp ⟨c, hc, hConfig⟩⟩
  · rintro ⟨profile, hProfile, hStep⟩
    obtain ⟨candidates, hExpand⟩ := Except.isOk_iff.mp
      (Except.mapM_isOk.mp (Except.isOk_iff.mpr ⟨expanded, hExpanded⟩) profile hProfile)
    obtain ⟨c, hc, hConfig⟩ := (expandDimensions_config hAll hExpand config).mpr hStep
    have hMem := (Except.mem_of_mapM hExpanded).mpr ⟨profile, hProfile, hExpand⟩
    exact ⟨c, List.mem_flatten.mpr ⟨candidates, hMem, hc⟩, hConfig⟩

theorem generate_isOk (hAll : ∀ d, d ∈ enabledDimensions policy.dimensions) :
    (generate plan signals policy catalog).isOk = true ↔
      ∀ profile ∈ chainProfiles plan policy catalog, ¬ Unreadable plan signals policy profile := by
  have hMap : (generate plan signals policy catalog).isOk =
      ((chainProfiles plan policy catalog).mapM (expandDimensions plan signals policy)).isOk := by
    unfold generate chainProfiles
    dsimp only
    cases ((modelChain plan policy catalog).filterMap catalog.get?).mapM
        (expandDimensions plan signals policy) with
    | error e => rfl
    | ok expanded => rfl
  rw [hMap, Except.mapM_isOk]
  refine forall₂_congr fun profile _ => ?_
  rw [← expandDimensions_isOk hAll, Bool.not_eq_false]

end

-- ------ Degrading

def AllowedContext (plan : ExecutionSnapshot) (signals : RuntimeSignals) (policy : ResiliencePolicy)
    (profile : ModelProfile) (n : Int) : Prop :=
  n = min profile.contextLength plan.contextLength ∨
    suggestedContext signals policy profile = .ok n ∨
    ∃ prefs, numberPreferences isDigits
      (preferencesFor policy.dimensions .contextLength policy.contextPreferences) = .ok prefs ∧
      n ∈ prefs ∧ n ≤ profile.contextLength

def AllowedThreads (plan : ExecutionSnapshot) (signals : RuntimeSignals) (policy : ResiliencePolicy)
    (n : Int) : Prop :=
  n = plan.threadCount ∨ suggestedThreads plan signals policy = .ok n ∨
    ∃ prefs, numberPreferences isSignedDigits
      (preferencesFor policy.dimensions .threadCount policy.threadPreferences) = .ok prefs ∧
      n ∈ prefs ∧ 1 ≤ n

/-- A combination of a model of the chain, a backend and a quantization compatible with it, a context
length and a thread count that are allowed, and tools on or, where that is allowed, off. -/
structure Combination (plan : ExecutionSnapshot) (signals : RuntimeSignals)
    (policy : ResiliencePolicy) (catalog : Dict String ModelProfile) (profile : ModelProfile)
    (config : Config) : Prop where
  model : config.model ∈ modelChain plan policy catalog
  known : catalog.get? config.model = some profile
  backend : backendCompatible profile config.backend = true
  quant : quantSupported profile config.quant = true
  context : AllowedContext plan signals policy profile config.contextLength
  threads : AllowedThreads plan signals policy config.threadCount
  tools : config.toolsEnabled = true ∨
    (policy.allowToolDisable = true ∧ signals.toolsRequired = false)
  reasoning : config.reasoningBudget = plan.reasoningBudget
  cascade : config.cascadeStrategy = plan.cascadeStrategy

def Repairable (plan : ExecutionSnapshot) (signals : RuntimeSignals) (policy : ResiliencePolicy)
    (catalog : Dict String ModelProfile) : Prop :=
  ∃ profile config, Combination plan signals policy catalog profile config ∧
    config.Acceptable plan signals policy catalog

/-- For some model of the chain, the base configuration or one that differs from it in a single
dimension is acceptable (or a preference cannot be read, and the generator raises). -/
def RepairableInOneStep (plan : ExecutionSnapshot) (signals : RuntimeSignals)
    (policy : ResiliencePolicy) (catalog : Dict String ModelProfile) : Prop :=
  ∃ profile ∈ chainProfiles plan policy catalog,
    Unreadable plan signals policy profile ∨
      ∃ config, OneStep plan signals policy profile config ∧
        config.Acceptable plan signals policy catalog

namespace ResilienceEngine

variable {e : ResilienceEngine} {plan : ExecutionSnapshot} {signals : RuntimeSignals}
  {policy : ResiliencePolicy}

structure Leaves (e : ResilienceEngine) (plan : ExecutionSnapshot) (signals : RuntimeSignals)
    (policy : ResiliencePolicy) : Prop where
  valid : validateSnapshot plan = .ok ()
  matched : e.matchedPolicy plan signals = .ok policy
  reasons : transitionReasons plan signals (healthScore plan signals e.catalog) policy ≠ []

theorem evaluate_of_leaves (h : e.Leaves plan signals policy) :
    e.evaluate plan signals = e.fallback plan signals policy (healthScore plan signals e.catalog)
      (transitionReasons plan signals (healthScore plan signals e.catalog) policy) := by
  unfold evaluate
  rw [h.valid, h.matched]
  show (if (transitionReasons plan signals (healthScore plan signals e.catalog) policy).isEmpty
    then _ else _) = _
  rw [if_neg (by simpa using h.reasons)]

theorem degrades_iff (h : e.Leaves plan signals policy)
    (hAll : ∀ d, d ∈ enabledDimensions policy.dimensions) :
    (∃ d, e.evaluate plan signals = .ok d ∧ d.kind = .degradeNotify) ↔
      ¬ RepairableInOneStep plan signals policy e.catalog := by
  rw [evaluate_of_leaves h]
  constructor
  · rintro ⟨d, hFallback, hKind⟩ ⟨profile, hProfile, hRepair⟩
    obtain ⟨generated, hGenerated, ⟨-, hNone⟩ | ⟨hTransition, -⟩⟩ := fallback_cases hFallback
    · rcases hRepair with hUnreadable | ⟨config, hStep, hAcceptable⟩
      · exact (generate_isOk hAll).mp (Except.isOk_iff.mpr ⟨generated, hGenerated⟩) profile hProfile
          hUnreadable
      · obtain ⟨c, hc, rfl⟩ := (generate_config hAll hGenerated config).mpr ⟨profile, hProfile, hStep⟩
        exact hNone c hc hAcceptable
    · rw [hTransition] at hKind
      cases hKind
  · intro hNot
    have hReadable : ∀ profile ∈ chainProfiles plan policy e.catalog,
        ¬ Unreadable plan signals policy profile :=
      fun profile hProfile hUnreadable => hNot ⟨profile, hProfile, .inl hUnreadable⟩
    obtain ⟨generated, hGenerated⟩ := Except.isOk_iff.mp ((generate_isOk hAll).mpr hReadable)
    have hEmpty : filterCandidates signals policy e.catalog (usable plan signals generated) = [] := by
      refine List.eq_nil_iff_forall_not_mem.mpr fun c hc => ?_
      obtain ⟨hMem, hAcceptable⟩ := mem_filtered.mp hc
      obtain ⟨profile, hProfile, hStep⟩ := (generate_config hAll hGenerated c.config).mp ⟨c, hMem, rfl⟩
      exact hNot ⟨profile, hProfile, .inr ⟨c.config, hStep, hAcceptable⟩⟩
    exact ⟨_, fallback_of_empty hGenerated hEmpty, rfl⟩

/-- **When the engine degrades only if it must**: once it leaves the plan, it does not degrade where
some combination is acceptable iff there is none, or one that a single step reaches. -/
theorem degradesOnlyIfMust_iff (h : e.Leaves plan signals policy)
    (hAll : ∀ d, d ∈ enabledDimensions policy.dimensions) :
    (Repairable plan signals policy e.catalog →
        ¬ ∃ d, e.evaluate plan signals = .ok d ∧ d.kind = .degradeNotify) ↔
      ¬ Repairable plan signals policy e.catalog ∨
        RepairableInOneStep plan signals policy e.catalog := by
  rw [degrades_iff h hAll, not_not, imp_iff_not_or]

def oneModel : ResilienceEngine where
  defaultPolicy := { policyId := "default", preferredModels := ["a"] }
  catalog := Dict.empty.set "a" { modelId := "a" }

def shortPlan : ExecutionSnapshot := { model := "a", contextLength := 4096 }

def twoShortages : RuntimeSignals := { contextTokensNeeded := 6000, threadAvailable := 4 }

theorem leaves_twoShortages : oneModel.Leaves shortPlan twoShortages oneModel.defaultPolicy :=
  ⟨by decide +kernel, rfl, by decide +kernel⟩

theorem all_enabled (d : FallbackDimension) :
    d ∈ enabledDimensions oneModel.defaultPolicy.dimensions := by
  cases d <;> decide

/-- The statement at the two shortages. -/
theorem degradesOnlyIfMust_iff_twoShortages :
    (Repairable shortPlan twoShortages oneModel.defaultPolicy oneModel.catalog →
        ¬ ∃ d, oneModel.evaluate shortPlan twoShortages = .ok d ∧ d.kind = .degradeNotify) ↔
      ¬ Repairable shortPlan twoShortages oneModel.defaultPolicy oneModel.catalog ∨
        RepairableInOneStep shortPlan twoShortages oneModel.defaultPolicy oneModel.catalog :=
  degradesOnlyIfMust_iff leaves_twoShortages all_enabled

/-- With 6000 tokens and four threads the model would do, and both values are suggested; the engine
degrades, since no candidate has both. -/
theorem not_degradesOnlyIfMust_twoShortages :
    Repairable shortPlan twoShortages oneModel.defaultPolicy oneModel.catalog ∧
      ∃ d, oneModel.evaluate shortPlan twoShortages = .ok d ∧ d.kind = .degradeNotify := by
  constructor
  · refine ⟨{ modelId := "a" }, { shortPlan.config with contextLength := 6000, threadCount := 4 },
      ?_, ?_⟩
    · exact ⟨by decide, rfl, by decide, by decide, .inr (.inl (by decide)), .inr (.inl (by decide)),
        .inl rfl, rfl, rfl⟩
    · refine ⟨⟨{ modelId := "a" }, rfl, ⟨by decide +kernel, by decide +kernel, ?_, ?_⟩,
        ⟨by decide, by decide, by decide, by decide, ?_, by decide⟩⟩, by decide, ?_, ?_⟩
      · rintro budget ⟨⟩
      · rintro remaining ⟨⟩
      · rintro ⟨⟩
      · rintro ⟨⟩
      · rintro ⟨⟩
  · have hKind : ((oneModel.evaluate shortPlan twoShortages).map (·.kind)) = .ok .degradeNotify := by
      decide +kernel
    exact Except.map_eq_ok.mp hKind

end ResilienceEngine

end Neuroswarm.Resilience
