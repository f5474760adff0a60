import Neuroswarm.Checkpoints.Manager
import Neuroswarm.Lib.Run

/-!
# Checkpoint manager — recovery plans, cached

`plan_recovery` keeps every plan under a key of the execution id, the reason and the two
preferences. A `PlanHistory` remembers what each cached plan was made from: its failure
and the checkpoint that was the latest then.

* `planKey_inj` — what the key tells about a failure.
* `Grounded` — every cached plan is the planner's outcome of its basis.
* `plansTruly_every_iff` — every answer is what the planner would say now iff every
  plan that is found in the cache has a basis that agrees with the call.
-/

namespace Neuroswarm.Checkpoints

variable {V : Type}

-- ------ The key

namespace CheckpointManager

def flagsText (preferNode preferSubgraph : Bool) : String :=
  ":" ++ flagText preferNode ++ ":" ++ flagText preferSubgraph

theorem planKey_eq (f : FailureContext) (preferNode preferSubgraph : Bool) :
    planKey f preferNode preferSubgraph =
      f.executionId ++ ":" ++ f.reason ++ flagsText preferNode preferSubgraph := by
  simp only [planKey, flagsText, String.append_assoc]

theorem flags_of_suffix : ∀ a b a' b' : Bool,
    (flagsText a b).toList <:+ (flagsText a' b').toList → a = a' ∧ b = b' := by
  decide

theorem planKey_inj {f g : FailureContext} {a b a' b' : Bool}
    (h : planKey f a b = planKey g a' b') :
    a = a' ∧ b = b' ∧ (f.executionId = g.executionId → f.reason = g.reason) := by
  rw [planKey_eq, planKey_eq] at h
  have hFlags : a = a' ∧ b = b' := by
    have hLeft : (flagsText a b).toList <:+ (planKey f a b).toList := by
      rw [planKey_eq, String.toList_append]
      exact List.suffix_append _ _
    have hRight : (flagsText a' b').toList <:+ (planKey f a b).toList := by
      rw [planKey_eq, h, String.toList_append]
      exact List.suffix_append _ _
    rcases List.suffix_or_suffix_of_suffix hLeft hRight with hSuffix | hSuffix
    · exact flags_of_suffix a b a' b' hSuffix
    · obtain ⟨hNode, hSubgraph⟩ := flags_of_suffix a' b' a b hSuffix
      exact ⟨hNode.symm, hSubgraph.symm⟩
  obtain ⟨rfl, rfl⟩ := hFlags
  refine ⟨rfl, rfl, fun hExecution => ?_⟩
  rw [String.append_left_inj, hExecution, String.append_right_inj] at h
  exact h

end CheckpointManager

-- ------ What plans were made from

/-- The failure a plan was made for, and the latest checkpoint it was made from. -/
structure PlanBasis (V : Type) where
  failure : FailureContext
  preferNode : Bool
  preferSubgraph : Bool
  checkpoint : Option (Checkpoint V)

structure PlanHistory (V : Type) where
  manager : CheckpointManager V := {}
  bases : Dict String (PlanBasis V) := .empty

namespace PlanHistory

open CheckpointManager RecoveryPlanner

def latestFor (h : PlanHistory V) (f : FailureContext) : Option (Checkpoint V) :=
  RecoveryPlanner.latestFor f (h.manager.repository.listByExecution f.executionId false)

/-- The basis of the plan that a call makes and keeps. -/
def made (h : PlanHistory V) : ManagerOp V → Option (String × PlanBasis V)
  | .planRecovery f preferNode preferSubgraph planId now =>
    match h.manager.cache.getRecoveryPlan (planKey f preferNode preferSubgraph) with
    | some _ => none
    | none =>
      match plan f (h.manager.repository.listByExecution f.executionId false) preferNode
          preferSubgraph planId now with
      | .error _ => none
      | .ok _ => some (planKey f preferNode preferSubgraph,
          { failure := f, preferNode, preferSubgraph, checkpoint := h.latestFor f })
  | _ => none

def step (hashes : Hashes V) (h : PlanHistory V) (op : ManagerOp V) : PlanHistory V :=
  { manager := h.manager.step hashes op
    bases :=
      match h.made op with
      | some (key, basis) => h.bases.set key basis
      | none => h.bases }

/-- The answer of `plan_recovery` is what the planner says now of the active checkpoints, but
for the generated id and time. -/
def PlansTruly (h : PlanHistory V) : ManagerOp V → Prop
  | .planRecovery f preferNode preferSubgraph planId now =>
    (h.manager.planRecovery f preferNode preferSubgraph planId now).1.map
        RecoveryPlan.toRecoveryDecision =
      (plan f (h.manager.repository.listByExecution f.executionId false) preferNode
        preferSubgraph planId now).map RecoveryPlan.toRecoveryDecision
  | _ => True

/-- A plan that is found in the cache was made for a failure of the same workflow and
execution, from the checkpoint that is the latest now, and the two failures agree in what
the planner reads of them there. -/
def Current (h : PlanHistory V) : ManagerOp V → Prop
  | .planRecovery f preferNode preferSubgraph _ _ =>
    (h.manager.cache.getRecoveryPlan (planKey f preferNode preferSubgraph)).isSome →
      ∀ basis, h.bases.get? (planKey f preferNode preferSubgraph) = some basis →
        f.workflowId = basis.failure.workflowId ∧ f.executionId = basis.failure.executionId ∧
        h.latestFor f = basis.checkpoint ∧
        SameReading basis.checkpoint preferNode preferSubgraph f basis.failure
  | _ => True

/-- The plan stands under its key and is the outcome of its basis, whose checkpoint is still
stored. -/
structure Grounds (h : PlanHistory V) (key : String) (plan : RecoveryPlan) (basis : PlanBasis V) :
    Prop where
  based : h.bases.get? key = some basis
  keyed : key = planKey basis.failure basis.preferNode basis.preferSubgraph
  made : outcome basis.failure basis.checkpoint basis.preferNode basis.preferSubgraph =
    .ok plan.toRecoveryDecision
  stored : ∀ c, basis.checkpoint = some c →
    h.manager.repository.lookup c.checkpointId = some c

def Grounded (h : PlanHistory V) : Prop :=
  ∀ key plan, h.manager.cache.getRecoveryPlan key = some plan → ∃ basis, h.Grounds key plan basis

variable {hashes : Hashes V} {h : PlanHistory V}

theorem lookup_latestFor {f : FailureContext} {c : Checkpoint V} (hc : h.latestFor f = some c) :
    h.manager.repository.lookup c.checkpointId = some c := by
  have hCandidate := (List.mem_filter.mp (List.argmax_mem hc)).1
  exact InMemoryRepository.lookup_of_mem (List.mem_filter.mp hCandidate).1

/-- **When a cached plan is the plan of now.** -/
theorem plansTruly_iff (hGrounded : h.Grounded) (op : ManagerOp V) :
    h.PlansTruly op ↔ h.Current op := by
  cases op with
  | planRecovery f preferNode preferSubgraph planId now =>
    dsimp only [PlansTruly, Current]
    cases hCached : h.manager.cache.getRecoveryPlan (planKey f preferNode preferSubgraph) with
    | none =>
      -- the plan is made now
      refine iff_of_true ?_ fun hSome => nomatch hSome
      simp only [planRecovery, hCached]
      cases plan f (h.manager.repository.listByExecution f.executionId false) preferNode
          preferSubgraph planId now with
      | ok p => rfl
      | error e => rfl
    | some p =>
      obtain ⟨basis, hBased, hKeyed, hMade, hStored⟩ := hGrounded _ p hCached
      obtain ⟨hNode, hSubgraph, hReason⟩ := planKey_inj hKeyed
      simp only [planRecovery, hCached, Option.isSome_some, forall_const, hBased,
        Option.some.injEq, forall_eq']
      rw [← hNode, ← hSubgraph] at hMade
      rw [plan_toRecoveryDecision]
      show Except.ok p.toRecoveryDecision = outcome f (h.latestFor f) preferNode preferSubgraph ↔ _
      constructor
      · intro hNow
        obtain ⟨hWorkflow, hExecution, hId⟩ := outcome_ids hNow.symm
        obtain ⟨hWorkflow', hExecution', hId'⟩ := outcome_ids hMade
        -- one id, hence one checkpoint: the store is append-only
        have hLatest : h.latestFor f = basis.checkpoint := by
          have hSame := hId.symm.trans hId'
          cases hNew : h.latestFor f with
          | none =>
            cases hOld : basis.checkpoint with
            | none => rfl
            | some c' => simp [hNew, hOld] at hSame
          | some c =>
            cases hOld : basis.checkpoint with
            | none => simp [hNew, hOld] at hSame
            | some c' =>
              simp only [hNew, hOld, Option.map_some, Option.some.injEq] at hSame
              have hLookup := hStored c' hOld
              rw [← hSame, lookup_latestFor hNew] at hLookup
              exact hLookup
        have hSameExecution := hExecution.symm.trans hExecution'
        have hSameWorkflow := hWorkflow.symm.trans hWorkflow'
        rw [hLatest] at hNow
        exact ⟨hSameWorkflow, hSameExecution, hLatest,
          (outcome_eq_iff hSameWorkflow hSameExecution (hReason hSameExecution) hMade).mp hNow.symm⟩
      · rintro ⟨hWorkflow, hExecution, hLatest, hReading⟩
        rw [hLatest]
        exact ((outcome_eq_iff hWorkflow hExecution (hReason hExecution) hMade).mpr hReading).symm
  | _ => exact Iff.rfl

-- ------ Steps and runs

theorem cached_step {op : ManagerOp V} {key : String} {p : RecoveryPlan}
    (hCached : (h.manager.step hashes op).cache.getRecoveryPlan key = some p) :
    (h.manager.cache.getRecoveryPlan key = some p ∧ ∀ basis, h.made op ≠ some (key, basis)) ∨
    ∃ f preferNode preferSubgraph, key = planKey f preferNode preferSubgraph ∧
      h.made op =
        some (key, { failure := f, preferNode, preferSubgraph, checkpoint := h.latestFor f }) ∧
      outcome f (h.latestFor f) preferNode preferSubgraph = .ok p.toRecoveryDecision := by
  cases op with
  | planRecovery f preferNode preferSubgraph planId now =>
    cases hHit : h.manager.cache.getRecoveryPlan (planKey f preferNode preferSubgraph) with
    | some q =>
      simp only [CheckpointManager.step, planRecovery, hHit] at hCached
      exact .inl ⟨hCached, fun basis hMade => by simp [made, hHit] at hMade⟩
    | none =>
      cases hPlan : plan f (h.manager.repository.listByExecution f.executionId false) preferNode
          preferSubgraph planId now with
      | error e =>
        simp only [CheckpointManager.step, planRecovery, hHit, hPlan] at hCached
        exact .inl ⟨hCached, fun basis hMade => by simp [made, hHit, hPlan] at hMade⟩
      | ok q =>
        simp only [CheckpointManager.step, planRecovery, hHit, hPlan] at hCached
        have hSet := Dict.get?_trim_of_some hCached
        rw [Dict.get?_set] at hSet
        by_cases hKey : key = planKey f preferNode preferSubgraph
        · rw [if_pos hKey] at hSet
          cases hSet
          refine .inr ⟨f, preferNode, preferSubgraph, hKey, ?_, ?_⟩
          · simp only [made, hHit, hPlan, hKey]
          · have hDecision := plan_toRecoveryDecision f
              (h.manager.repository.listByExecution f.executionId false) preferNode
              preferSubgraph planId now
            rw [hPlan] at hDecision
            exact hDecision.symm
        · rw [if_neg hKey] at hSet
          refine .inl ⟨hSet, fun basis hMade => hKey ?_⟩
          simp only [made, hHit, hPlan, Option.some.injEq, Prod.mk.injEq] at hMade
          exact hMade.1.symm
  | _ =>
    refine .inl ⟨?_, fun basis hMade => by cases hMade⟩
    unfold CheckpointCache.getRecoveryPlan at *
    rw [recoveryPlans_step] at hCached
    · exact hCached
    · intro _ _ _ _ _ hOp
      cases hOp

theorem grounded_step (hGrounded : h.Grounded) (op : ManagerOp V) :
    (h.step hashes op).Grounded := by
  intro key p hCached
  rcases cached_step hCached with
    ⟨hBefore, hNotMade⟩ | ⟨f, preferNode, preferSubgraph, hKey, hMade, hOutcome⟩
  · obtain ⟨basis, hBased, hKeyed, hOutcome, hStored⟩ := hGrounded key p hBefore
    refine ⟨basis, ?_, hKeyed, hOutcome, fun c hc => lookup_step (hStored c hc) op⟩
    cases hMade : h.made op with
    | none =>
      simp only [step, hMade]
      exact hBased
    | some made =>
      obtain ⟨key', basis'⟩ := made
      have hNe : key ≠ key' := by
        rintro rfl
        exact hNotMade basis' hMade
      simp only [step, hMade]
      rw [Dict.get?_set_ne _ _ hNe]
      exact hBased
  · refine ⟨{ failure := f, preferNode, preferSubgraph, checkpoint := h.latestFor f }, ?_, hKey,
      hOutcome, fun c hc => lookup_step (lookup_latestFor hc) op⟩
    simp only [step, hMade, Dict.get?_set_self]

/-- **Cached plans are the plans of now** iff every plan that is found in the cache was made
from the checkpoint of now for a failure that agrees with that of the call. -/
theorem plansTruly_every_iff (hashes : Hashes V) (repository : InMemoryRepository V)
    (maxEntries : Nat) (ops : List (ManagerOp V)) :
    Run.Every (step hashes) PlansTruly
        { manager := { repository, cache := { maxEntries } } } ops ↔
      Run.Every (step hashes) Current
        { manager := { repository, cache := { maxEntries } } } ops := by
  have h0 : Grounded (V := V) { manager := { repository, cache := { maxEntries } } } :=
    fun _ _ hCached => nomatch hCached
  constructor
  · exact Run.every_of_every (fun h op hGrounded _ => grounded_step hGrounded op)
      (fun h op hGrounded hTruly => (plansTruly_iff hGrounded op).mp hTruly) h0
  · exact Run.every_of_every (fun h op hGrounded _ => grounded_step hGrounded op)
      (fun h op hGrounded hCurrent => (plansTruly_iff hGrounded op).mpr hCurrent) h0

/-- The same execution fails a second time, at another node. -/
theorem not_plansTruly_secondFailure :
    ¬ Run.Every (step (V := Unit) { checkpoint := fun _ => "h", execution := fun _ => "h" })
      PlansTruly {}
      [.planRecovery { workflowId := "w", executionId := "e", failedNodes := ["a"] } false false
          "p1" 1,
        .planRecovery { workflowId := "w", executionId := "e", failedNodes := ["b"] } false false
          "p2" 2] := by
  intro h
  have hTruly := h.2.1
  revert hTruly
  unfold PlansTruly
  decide

end PlanHistory

end Neuroswarm.Checkpoints
