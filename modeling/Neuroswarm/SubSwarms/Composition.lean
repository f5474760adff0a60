import Mathlib.Data.List.Nodup
import Neuroswarm.Lib.Fallible
import Neuroswarm.Lib.Run

/-!
# Sub-swarm templates — composition

`SwarmComposer`, as far as `composition_of` goes: no other field of a template decides about a
cycle. What else raises makes no template. A composition comes with the id of its result.

* `detectCycle_eq_ok` — the check accepts the lists without a repetition.
* `accepted_iff` — when no composition of a family is refused.
-/

namespace Neuroswarm.SubSwarms

structure SwarmTemplate where
  id : String
  compositionOf : List String := []
  deriving DecidableEq

/-- `CircularCompositionError(chain)`. -/
structure CircularCompositionError where
  chain : List String

/-- `_detect_cycle_in_list(chain)`; `seen` has the nodes of `path`. -/
def detectCycle (path : List String) : List String → Except CircularCompositionError Unit
  | [] => .ok ()
  | node :: chain =>
    if node ∈ path then .error ⟨path ++ [node]⟩ else detectCycle (path ++ [node]) chain

/-- `_assert_no_cycle(template, visiting)`. -/
def SwarmTemplate.assertNoCycle (t : SwarmTemplate) (visiting : List String) :
    Except CircularCompositionError Unit :=
  detectCycle [] (visiting ++ t.compositionOf)

namespace SwarmComposer

def clone (base : SwarmTemplate) (newId : String) : SwarmTemplate := { base with id := newId }

/-- `dict.fromkeys([*composition_of, id])`. -/
def withBase (base : SwarmTemplate) (newId : String) : SwarmTemplate where
  id := newId
  compositionOf := (base.compositionOf ++ [base.id]).eraseDups

def extend (base : SwarmTemplate) (newId : String) :
    Except CircularCompositionError SwarmTemplate := do
  base.assertNoCycle [base.id]
  .ok (withBase base newId)

/-- `metadata` is the `composition_of` of a metadata argument. -/
def override (base : SwarmTemplate) (newId : String) (metadata : Option (List String)) :
    Except CircularCompositionError SwarmTemplate := do
  base.assertNoCycle [base.id]
  match metadata with
  | none => .ok (withBase base newId)
  | some compositionOf => .ok { id := newId, compositionOf }

def parameterize (template : SwarmTemplate) (newId : String) : SwarmTemplate :=
  withBase template newId

def merge (primary secondary : SwarmTemplate) (newId : String) :
    Except CircularCompositionError SwarmTemplate := do
  primary.assertNoCycle [primary.id, secondary.id]
  secondary.assertNoCycle [primary.id, secondary.id]
  if primary.id = secondary.id then .error ⟨[primary.id, secondary.id]⟩
  else do
    let compositionOf := (primary.compositionOf ++ secondary.compositionOf ++
      [primary.id, secondary.id]).eraseDups
    detectCycle [] compositionOf
    .ok { id := newId, compositionOf }

end SwarmComposer

-- ------ Families

inductive Composition where
  | clone (base : SwarmTemplate)
  | extend (base : SwarmTemplate)
  | override (base : SwarmTemplate) (metadata : Option (List String))
  | parameterize (template : SwarmTemplate)
  | merge (primary secondary : SwarmTemplate)

def Composition.operands : Composition → List SwarmTemplate
  | .clone t | .extend t | .override t _ | .parameterize t => [t]
  | .merge p s => [p, s]

def Composition.result (newId : String) :
    Composition → Except CircularCompositionError SwarmTemplate
  | .clone t => .ok (SwarmComposer.clone t newId)
  | .extend t => SwarmComposer.extend t newId
  | .override t metadata => SwarmComposer.override t newId metadata
  | .parameterize t => .ok (SwarmComposer.parameterize t newId)
  | .merge p s => SwarmComposer.merge p s newId

/-- The templates made so far, and the next one: a root, or what comes of a composition. -/
def compose (family : List SwarmTemplate) (op : String × Option Composition) :
    List SwarmTemplate :=
  match op.2 with
  | none => family ++ [{ id := op.1 }]
  | some c =>
    match c.result op.1 with
    | .error _ => family
    | .ok t => family ++ [t]

/-- The id occurs nowhere yet, and distinct templates of the family are composed. -/
def Posed (family : List SwarmTemplate) (op : String × Option Composition) : Prop :=
  (∀ t ∈ family, op.1 ≠ t.id ∧ op.1 ∉ t.compositionOf) ∧
    ∀ c ∈ op.2, (∀ t ∈ c.operands, t ∈ family) ∧ (c.operands.map SwarmTemplate.id).Nodup

instance (family : List SwarmTemplate) : DecidablePred (Posed family) :=
  fun op => inferInstanceAs (Decidable ((∀ t ∈ family, op.1 ≠ t.id ∧ op.1 ∉ t.compositionOf) ∧
    ∀ c ∈ op.2, _ ∧ _))

/-- `composition_of` is without repetitions and without the template itself. -/
def SwarmTemplate.Acyclic (t : SwarmTemplate) : Prop :=
  (t.id :: t.compositionOf).Nodup

/-- A composition is accepted. -/
def Accepted (_ : List SwarmTemplate) (op : String × Option Composition) : Prop :=
  ∀ c ∈ op.2, ∃ t, c.result op.1 = .ok t ∧ t.Acyclic

/-- Neither of two merged templates is a part of the other, and a metadata argument has no
repetition and not the new id. -/
def Unrelated (_ : List SwarmTemplate) (op : String × Option Composition) : Prop :=
  match op.2 with
  | some (.merge p s) => s.id ∉ p.compositionOf ∧ p.id ∉ s.compositionOf
  | some (.override _ (some compositionOf)) => (op.1 :: compositionOf).Nodup
  | _ => True

instance (family : List SwarmTemplate) : DecidablePred (Unrelated family)
  | (_, some (.merge _ _)) => inferInstanceAs (Decidable (_ ∧ _))
  | (newId, some (.override _ (some compositionOf))) =>
    inferInstanceAs (Decidable (newId :: compositionOf).Nodup)
  | (_, some (.override _ none)) | (_, some (.clone _)) | (_, some (.extend _))
  | (_, some (.parameterize _)) | (_, none) => inferInstanceAs (Decidable True)

-- ------ The check

theorem detectCycle_eq_ok {path chain : List String} (h : path.Nodup) :
    detectCycle path chain = .ok () ↔ (path ++ chain).Nodup := by
  induction chain generalizing path with
  | nil => simpa [detectCycle] using h
  | cons node chain ih =>
    rw [detectCycle]
    split
    · next hSeen =>
      refine iff_of_false nofun fun hNodup => ?_
      exact (List.nodup_append.mp hNodup).2.2 node hSeen node List.mem_cons_self rfl
    · next hNew =>
      have hPath : (path ++ [node]).Nodup := by
        refine List.nodup_append.mpr ⟨h, List.nodup_singleton node, fun m hm m' hm' => ?_⟩
        rintro rfl
        exact hNew (List.mem_singleton.mp hm' ▸ hm)
      rw [ih hPath, List.append_assoc]
      rfl

theorem nodup_eraseDups (l : List String) : l.eraseDups.Nodup := by
  induction hn : l.length using Nat.strongRecOn generalizing l with
  | ind n ih =>
    rcases l with _ | ⟨a, l⟩
    · exact List.nodup_nil
    · rw [List.eraseDups_cons, List.nodup_cons, List.mem_eraseDups]
      have hShort := List.length_filter_le (fun b => !b == a) l
      rw [List.length_cons] at hn
      exact ⟨by simp, ih _ (by omega) _ rfl⟩

theorem acyclic_withBase {t : SwarmTemplate} {newId : String}
    (hNew : newId ≠ t.id ∧ newId ∉ t.compositionOf) :
    (SwarmComposer.withBase t newId).Acyclic := by
  refine List.nodup_cons.mpr ⟨?_, nodup_eraseDups _⟩
  show newId ∉ (t.compositionOf ++ [t.id]).eraseDups
  rw [List.mem_eraseDups, List.mem_append, List.mem_singleton]
  exact fun h => h.elim hNew.2 hNew.1

theorem assertNoCycle_eq_ok {t : SwarmTemplate} (h : t.Acyclic) {visiting : List String}
    (hVisiting : visiting.Nodup) :
    t.assertNoCycle visiting = .ok () ↔ ∀ id ∈ visiting, id ∉ t.compositionOf := by
  unfold SwarmTemplate.assertNoCycle
  rw [detectCycle_eq_ok List.nodup_nil, List.nil_append, List.nodup_append,
    and_iff_right hVisiting, and_iff_right (List.nodup_cons.mp h).2]
  constructor
  · intro hApart id hid hMem
    exact hApart id hid id hMem rfl
  · rintro hApart id hid id' hid' rfl
    exact hApart id hid hid'

variable {p s t : SwarmTemplate} {newId : String}

theorem extend_eq (h : t.Acyclic) (newId : String) :
    SwarmComposer.extend t newId = .ok (SwarmComposer.withBase t newId) := by
  have hOk := (assertNoCycle_eq_ok h (List.nodup_singleton t.id)).mpr (by
    simpa using (List.nodup_cons.mp h).1)
  unfold SwarmComposer.extend
  rw [hOk]
  rfl

theorem override_eq (h : t.Acyclic) (newId : String) (metadata : Option (List String)) :
    SwarmComposer.override t newId metadata = .ok (match metadata with
      | none => SwarmComposer.withBase t newId
      | some compositionOf => { id := newId, compositionOf }) := by
  have hOk := (assertNoCycle_eq_ok h (List.nodup_singleton t.id)).mpr (by
    simpa using (List.nodup_cons.mp h).1)
  unfold SwarmComposer.override
  rw [hOk]
  cases metadata <;> rfl

theorem merge_eq_ok (hp : p.Acyclic) (hs : s.Acyclic) (hNe : p.id ≠ s.id) :
    SwarmComposer.merge p s newId = .ok t ↔
      (s.id ∉ p.compositionOf ∧ p.id ∉ s.compositionOf) ∧
        t = ⟨newId, (p.compositionOf ++ s.compositionOf ++ [p.id, s.id]).eraseDups⟩ := by
  have hIds : [p.id, s.id].Nodup := by simpa using hNe
  have hLast : detectCycle [] (p.compositionOf ++ s.compositionOf ++ [p.id, s.id]).eraseDups =
      .ok () := (detectCycle_eq_ok List.nodup_nil).mpr (nodup_eraseDups _)
  unfold SwarmComposer.merge
  rw [Except.bind_eq_ok]
  simp only [exists_const, assertNoCycle_eq_ok hp hIds, Except.bind_eq_ok,
    assertNoCycle_eq_ok hs hIds, if_neg hNe, hLast]
  have hp := (List.nodup_cons.mp hp).1
  have hs := (List.nodup_cons.mp hs).1
  simp [hp, hs, and_assoc, eq_comm]

-- ------ Runs

theorem accepted_iff_unrelated {family : List SwarmTemplate} {op : String × Option Composition}
    (hFamily : ∀ t ∈ family, t.Acyclic) (hPosed : Posed family op) :
    Accepted family op ↔ Unrelated family op := by
  obtain ⟨hFresh, hOperands⟩ := hPosed
  obtain ⟨newId, _ | c⟩ := op
  · exact iff_of_true nofun trivial
  obtain ⟨hMem, hDistinct⟩ := hOperands c rfl
  have hNew : ∀ t ∈ c.operands, newId ≠ t.id ∧ newId ∉ t.compositionOf :=
    fun t ht => hFresh t (hMem t ht)
  have hOld : ∀ t ∈ c.operands, t.Acyclic := fun t ht => hFamily t (hMem t ht)
  show (∀ c' ∈ some c, _) ↔ _
  simp only [Option.mem_some_iff, forall_eq']
  cases c with
  | clone t =>
    refine iff_of_true ⟨_, rfl, List.nodup_cons.mpr ⟨?_, ?_⟩⟩ trivial
    · exact (hNew t (List.mem_singleton_self t)).2
    · exact (List.nodup_cons.mp (hOld t (List.mem_singleton_self t))).2
  | extend t =>
    have hResult := extend_eq (hOld t (List.mem_singleton_self t)) newId
    exact iff_of_true ⟨_, hResult, acyclic_withBase (hNew t (List.mem_singleton_self t))⟩ trivial
  | parameterize t =>
    exact iff_of_true ⟨_, rfl, acyclic_withBase (hNew t (List.mem_singleton_self t))⟩ trivial
  | override t metadata =>
    have hResult := override_eq (hOld t (List.mem_singleton_self t)) newId metadata
    cases metadata with
    | none =>
      exact iff_of_true ⟨_, hResult, acyclic_withBase (hNew t (List.mem_singleton_self t))⟩ trivial
    | some compositionOf =>
      constructor
      · rintro ⟨r, hr, hAcyclic⟩
        obtain rfl := Except.ok.inj (hResult.symm.trans hr)
        exact hAcyclic
      · exact fun hAcyclic => ⟨_, hResult, hAcyclic⟩
  | merge p s =>
    have hp := hNew p List.mem_cons_self
    have hs := hNew s (List.mem_cons_of_mem p List.mem_cons_self)
    have hNe : p.id ≠ s.id := by simpa [Composition.operands] using hDistinct
    have hMerge := fun t => @merge_eq_ok p s t newId (hOld p List.mem_cons_self)
      (hOld s (List.mem_cons_of_mem p List.mem_cons_self)) hNe
    constructor
    · rintro ⟨r, hr, -⟩
      exact ((hMerge r).mp hr).1
    · intro hApart
      refine ⟨_, (hMerge _).mpr ⟨hApart, rfl⟩, List.nodup_cons.mpr ⟨?_, nodup_eraseDups _⟩⟩
      simp [List.mem_eraseDups, hp, hs]

theorem acyclic_compose {family : List SwarmTemplate} {op : String × Option Composition}
    (hFamily : ∀ t ∈ family, t.Acyclic) (h : Accepted family op) :
    ∀ t ∈ compose family op, t.Acyclic := by
  have hAdd : ∀ new : SwarmTemplate, new.Acyclic → ∀ t ∈ family ++ [new], t.Acyclic := by
    intro new hNew t ht
    rcases List.mem_append.mp ht with ht | ht
    · exact hFamily t ht
    · rw [List.mem_singleton.mp ht]
      exact hNew
  obtain ⟨newId, _ | c⟩ := op
  · exact hAdd _ (List.nodup_singleton newId)
  · obtain ⟨new, hResult, hNew⟩ := h c rfl
    show ∀ t ∈ (match c.result newId with
      | .error _ => family
      | .ok t => family ++ [t]), _
    rw [hResult]
    exact hAdd new hNew

/-- **When every composition of a family is accepted.** -/
theorem accepted_iff (ops : List (String × Option Composition))
    (hPosed : Run.Every compose Posed [] ops) :
    Run.Every compose Accepted [] ops ↔ Run.Every compose Unrelated [] ops := by
  have hIff : ∀ family op, (∀ t ∈ family, t.Acyclic) → Posed family op →
      (Accepted family op ↔ Unrelated family op) := fun _ _ => accepted_iff_unrelated
  have hEmpty : ∀ t ∈ ([] : List SwarmTemplate), t.Acyclic := nofun
  constructor
  · intro hAccepted
    refine Run.every_of_every (I := fun family => ∀ t ∈ family, t.Acyclic)
      (fun family op hFamily h => acyclic_compose hFamily h.2)
      (fun family op hFamily h => ?_) hEmpty (hPosed.and hAccepted)
    exact (hIff family op hFamily h.1).mp h.2
  · intro hUnrelated
    refine Run.every_of_every (I := fun family => ∀ t ∈ family, t.Acyclic)
      (fun family op hFamily h => ?_) (fun family op hFamily h => ?_) hEmpty
      (hPosed.and hUnrelated)
    · exact acyclic_compose hFamily ((hIff family op hFamily h.1).mpr h.2)
    · exact (hIff family op hFamily h.1).mpr h.2

theorem accepted_twoRoots :
    Run.Every compose Accepted [] [("a", none), ("b", none), ("c", some (.extend ⟨"a", []⟩)),
      ("d", some (.merge ⟨"c", ["a"]⟩ ⟨"b", []⟩))] :=
  (accepted_iff _ (by decide +kernel)).mpr (by decide +kernel)

theorem extension_refused :
    ¬ ∀ ops, Run.Every compose Posed [] ops → Run.Every compose Accepted [] ops := by
  intro h
  obtain ⟨-, -, hMerge, -⟩ := h [("a", none), ("c", some (.extend ⟨"a", []⟩)),
    ("d", some (.merge ⟨"c", ["a"]⟩ ⟨"a", []⟩))] (by decide +kernel)
  obtain ⟨t, hResult, -⟩ := hMerge _ rfl
  have hRefused : ((Composition.merge ⟨"c", ["a"]⟩ ⟨"a", []⟩).result "d").isOk = false := by
    decide +kernel
  rw [hResult] at hRefused
  cases hRefused

end Neuroswarm.SubSwarms
