import Neuroswarm.Acr.Kernel

/-!
# Context assembly — the engine

`AssemblyEngine.assemble` for any plan; the kernel's `assemble` is the one for the default
plan. Citations and provenance are not in the prompt.

* `link_spec` — what the loop appends, and that it stays within the budget.
* `assembled_within_budget` — the size, the order and the texts of the sections.
-/

namespace Neuroswarm.Acr

open Armcascade (Text isSpace split unwords isBlank)

/-- The fields that the engine reads. -/
structure AssemblyPlan where
  sectionOrder : List String :=
    ["instructions", "policies", "knowledge", "memories", "reflections", "reasoning", "tools",
      "examples", "workflows"]
  tokenBudget : ℤ := 2000
  stablePrefix : Bool := true

namespace AssemblyPlan

def preferred : List String := ["instructions", "policies", "knowledge"]

def order (plan : AssemblyPlan) : List String :=
  if plan.stablePrefix then preferred ++ plan.sectionOrder.filter (· ∉ preferred)
  else plan.sectionOrder

end AssemblyPlan

variable (memory : List MemoryItem) (knowledge : List KnowledgeItem)
  (intent agentRole toolPromptBlock : Text)

/-- `builders.get(name)`, called where there is one: the text of the section. -/
def build (name : String) : Option Text :=
  match name with
  | "policies" => fromKnow knowledge [.policy] "Institutional Policies"
  | "knowledge" => fromKnow knowledge [.knowledge, .policy] "Institutional Knowledge (OKF)"
  | "memories" => fromMem memory none "Recent Facts (Mem0)"
  | "reflections" => fromMem memory (some "reflection") "Reflections"
  | "reasoning" => fromMem memory (some "reasoning") "Reasoning Traces"
  | "tools" => toolsSection knowledge toolPromptBlock
  | "examples" => fromMem memory (some "examples") "Examples"
  | "workflows" => fromMem memory (some "workflow") "Workflows"
  | "instructions" =>
    some ("## Task Intent\nIntent: ".toList ++ intent ++ "\nRole: ".toList ++ agentRole)
  | _ => none

def planned (plan : AssemblyPlan) : List Text :=
  plan.order.filterMap (build memory knowledge intent agentRole toolPromptBlock)

/-- `sections`, their texts. -/
def sections (plan : AssemblyPlan) : List Text :=
  link plan.tokenBudget (planned memory knowledge intent agentRole toolPromptBlock plan) 0 []

def promptOf (sections : List Text) : Text := joined "\n\n" (sections.filter (· ≠ []))

/-- The kernel's assembly is the one of the default plan. -/
theorem assemble_eq (budget : ℤ) :
    assemble memory knowledge budget intent agentRole toolPromptBlock =
      promptOf (sections memory knowledge intent agentRole toolPromptBlock
        { tokenBudget := budget }) := by
  have hPlanned : planned memory knowledge intent agentRole toolPromptBlock
      { tokenBudget := budget } =
      sectionTexts memory knowledge intent agentRole toolPromptBlock := by
    unfold planned sectionTexts
    rw [show AssemblyPlan.order { tokenBudget := budget } = _ from rfl]
    rfl
  unfold assemble promptOf sections
  rw [hPlanned]

-- ------ The loop

/-- A section as it is, or the first words of it. -/
def Trimmed (whole text : Text) : Prop :=
  text = whole ∨ ∃ n, text = unwords ((split whole).take n)

def used (texts : List Text) : ℤ := (texts.map fun text => (tokens text : ℤ)).sum

theorem used_concat (texts : List Text) (text : Text) :
    used (texts ++ [text]) = used texts + tokens text := by
  simp [used]

theorem split_take (text : Text) (n : ℕ) :
    split (unwords ((split text).take n)) = (split text).take n :=
  Armcascade.split_unwords fun _ hw => Words.isWord_of_mem_split (List.mem_of_mem_take hw)

theorem tokens_take_le (text : Text) {n : ℕ} (hn : 0 < n) :
    tokens (unwords ((split text).take n)) ≤ n := by
  have hLength : ((split text).take n).length ≤ n := List.length_take_le n _
  unfold tokens
  rw [split_take]
  omega

/-- Where the first section fits, all of them do. -/
def Within (budget : ℤ) (texts : List Text) : Prop :=
  ∀ first ∈ texts.head?, tokens first ≤ budget → used texts ≤ budget

theorem Within.concat {budget : ℤ} {linked : List Text} {text : Text}
    (h : linked ≠ [] → used linked + tokens text ≤ budget) : Within budget (linked ++ [text]) := by
  intro first hFirst hFits
  rw [used_concat]
  by_cases hNil : linked = []
  · subst hNil
    obtain rfl : text = first := by simpa using hFirst
    show (0 : ℤ) + tokens text ≤ budget
    omega
  · exact h hNil

/-- What the loop adds to the sections so far. -/
theorem link_spec {budget : ℤ} (texts linked : List Text) (hWithin : Within budget linked) :
    ∃ kept added, link budget texts (used linked) linked = linked ++ added ∧
      kept.Sublist texts ∧ List.Forall₂ Trimmed kept added ∧ Within budget (linked ++ added) := by
  induction texts generalizing linked with
  | nil => exact ⟨[], [], by simp [link], .slnil, .nil, by simpa using hWithin⟩
  | cons text rest ih =>
    -- the section that is appended, with what it is cut from
    have hAppend : ∀ new, Trimmed text new → Within budget (linked ++ [new]) →
        ∃ kept added, link budget rest (used linked + tokens new) (linked ++ [new]) =
            linked ++ added ∧ kept.Sublist (text :: rest) ∧ List.Forall₂ Trimmed kept added ∧
          Within budget (linked ++ added) := by
      intro new hTrimmed hNew
      obtain ⟨kept, added, hLink, hKept, hAdded, hWithin⟩ := ih (linked ++ [new]) hNew
      rw [used_concat, List.append_assoc] at hLink
      rw [List.append_assoc] at hWithin
      exact ⟨text :: kept, new :: added, hLink, hKept.cons_cons text, .cons hTrimmed hAdded,
        hWithin⟩
    rw [link]
    split
    · obtain ⟨kept, added, hLink, hKept, hRest⟩ := ih linked hWithin
      exact ⟨kept, added, hLink, hKept.cons text, hRest⟩
    split
    · split
      · exact ⟨[], [], by simp, List.nil_sublist _, .nil, by simpa using hWithin⟩
      · refine hAppend _ (.inr ⟨_, rfl⟩) (Within.concat fun _ => ?_)
        have hCut := tokens_take_le text (n := (budget - used linked).toNat) (by omega)
        omega
    · next hFits =>
      refine hAppend _ (.inl rfl) (Within.concat fun hNe => ?_)
      by_contra hOver
      exact hFits ⟨by omega, hNe⟩

-- ------ The prompt

theorem split_promptOf (texts : List Text) : split (promptOf texts) = texts.flatMap split := by
  have hSep : "\n\n".toList.all isSpace = true := by decide
  have hJoin : split (promptOf texts) = (texts.filter (· ≠ [])).flatMap split :=
    Words.split_intercalate (by decide) (List.all_eq_true.mp hSep) _
  rw [hJoin]
  clear hJoin
  induction texts with
  | nil => rfl
  | cons text texts ih =>
    by_cases hNil : text = []
    · subst hNil
      exact ih
    · rw [List.filter_cons_of_pos (by simpa using hNil), List.flatMap_cons, List.flatMap_cons, ih]

theorem length_split_promptOf_le (texts : List Text) :
    ((split (promptOf texts)).length : ℤ) ≤ used texts := by
  rw [split_promptOf]
  induction texts with
  | nil => rfl
  | cons text texts ih =>
    have hText : (split text).length ≤ tokens text := le_max_right 1 _
    simp only [used, List.map_cons, List.sum_cons, List.flatMap_cons, List.length_append] at ih ⊢
    omega

/-- **The prompt is within the budget**, and its sections are the planned ones, in their order
and as they are or cut after some word. -/
theorem assembled_within_budget (plan : AssemblyPlan)
    (hFits : ((sections memory knowledge intent agentRole toolPromptBlock plan).head?.elim 0
      fun first => (tokens first : ℤ)) ≤ plan.tokenBudget) :
    ((split (promptOf (sections memory knowledge intent agentRole toolPromptBlock plan))).length :
        ℤ) ≤ plan.tokenBudget ∧
      ∃ kept : List Text,
        kept.Sublist (planned memory knowledge intent agentRole toolPromptBlock plan) ∧
        List.Forall₂ Trimmed kept
          (sections memory knowledge intent agentRole toolPromptBlock plan) := by
  obtain ⟨kept, added, hLink, hKept, hAdded, hWithin⟩ := link_spec
    (planned memory knowledge intent agentRole toolPromptBlock plan) []
    (show Within plan.tokenBudget [] from nofun)
  rw [List.nil_append] at hLink hWithin
  have hSections : sections memory knowledge intent agentRole toolPromptBlock plan = added := hLink
  rw [hSections] at hFits ⊢
  refine ⟨(length_split_promptOf_le added).trans ?_, kept, hKept, hAdded⟩
  rcases added with _ | ⟨first, added⟩
  · exact hFits
  · exact hWithin first rfl hFits

/-- Two sections, of seven and eight words. -/
theorem assembled_within_sixteen :
    ((split (promptOf (sections [⟨"a b c".toList, [], []⟩] [] "x".toList "y".toList []
        ⟨["memories"], 16, true⟩))).length : ℤ) ≤ 16 ∧
      ∃ kept : List Text,
        kept.Sublist (planned [⟨"a b c".toList, [], []⟩] [] "x".toList "y".toList []
          ⟨["memories"], 16, true⟩) ∧
        List.Forall₂ Trimmed kept (sections [⟨"a b c".toList, [], []⟩] [] "x".toList "y".toList []
          ⟨["memories"], 16, true⟩) :=
  assembled_within_budget _ _ _ _ _ ⟨["memories"], 16, true⟩ (by decide +kernel)

end Neuroswarm.Acr
