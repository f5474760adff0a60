import Neuroswarm.Checkpoints.Retention

/-!
# Retention limits

What a pass of retention leaves active, and what it archives to get there.

* `overflow` — the checkpoints that a limit sends to the archive: the oldest above it.
* `Sound` — contents on which no transition of a pass is refused.
* `ends_apply` — a pass returns, within its limits.
* `retains_of_built` — on everything that the store's calls build, and a second pass archives
  nothing.
-/

namespace Neuroswarm.Checkpoints

open RetentionPolicy InMemoryRepository EStateM

variable {V : Type}

-- ------ The oldest above a limit

def Distinct (items : List (Checkpoint V)) : Prop := (items.map (·.checkpointId)).Nodup

/-- The ids are those of some of the checkpoints. -/
def Among (items : List (Checkpoint V)) (id : CheckpointId) : Prop :=
  ∃ c ∈ items, c.checkpointId = id

instance (items : List (Checkpoint V)) : DecidablePred (Among items) :=
  fun _ => inferInstanceAs (Decidable (∃ c ∈ items, _))

theorem among_singleton {c : Checkpoint V} {id : CheckpointId} :
    Among [c] id ↔ c.checkpointId = id := by
  simp [Among]

theorem among_append {items items' : List (Checkpoint V)} {id : CheckpointId} :
    Among (items ++ items') id ↔ Among items id ∨ Among items' id := by
  simp only [Among, List.mem_append, or_and_right, exists_or]

/-- What `archiveOverflow` archives. -/
def overflow (limit : Int) (items : List (Checkpoint V)) : List (Checkpoint V) :=
  if (items.length : Int) ≤ limit then [] else (byAge items).take (items.length - limit).toNat

section Overflow

variable {limit : Int} {items : List (Checkpoint V)}

theorem perm_byAge (items : List (Checkpoint V)) : (byAge items).Perm items :=
  List.perm_insertionSort _ _

theorem Distinct.eq_of_mem (h : Distinct items) {c d : Checkpoint V} (hc : c ∈ items)
    (hd : d ∈ items) (hId : c.checkpointId = d.checkpointId) : c = d :=
  List.inj_on_of_nodup_map h hc hd hId

theorem mem_of_mem_overflow {c : Checkpoint V} (h : c ∈ overflow limit items) : c ∈ items := by
  unfold overflow at h
  split at h
  · exact absurd h List.not_mem_nil
  · exact (perm_byAge items).mem_iff.mp (List.mem_of_mem_take h)

theorem distinct_overflow (h : Distinct items) (limit : Int) : Distinct (overflow limit items) := by
  unfold overflow
  split
  · exact List.nodup_nil
  · have hSorted : Distinct (byAge items) := ((perm_byAge items).map _).nodup_iff.mpr h
    exact hSorted.sublist ((List.take_sublist _ _).map _)

theorem overflow_of_le (h : (items.length : Int) ≤ limit) : overflow limit items = [] := if_pos h

theorem kept_perm_drop (h : Distinct items) (hLimit : limit < items.length) :
    (items.filter fun c => ¬ Among (overflow limit items) c.checkpointId).Perm
      ((byAge items).drop (items.length - limit).toNat) := by
  have hTake : overflow limit items = (byAge items).take (items.length - limit).toNat :=
    if_neg (by omega)
  have hSorted : Distinct (byAge items) := ((perm_byAge items).map _).nodup_iff.mpr h
  refine ((perm_byAge items).symm.filter _).trans ?_
  rw [hTake]
  generalize (items.length - limit).toNat = k
  -- the older end is dropped, the newer end is kept
  have hOlder : ((byAge items).take k).filter
      (fun c => ¬ Among ((byAge items).take k) c.checkpointId) = [] := by
    rw [List.filter_eq_nil_iff]
    intro c hc
    simp only [decide_not, Bool.not_eq_true', decide_eq_false_iff_not, not_not]
    exact ⟨c, hc, rfl⟩
  have hNewer : ((byAge items).drop k).filter
      (fun c => ¬ Among ((byAge items).take k) c.checkpointId) = (byAge items).drop k := by
    rw [List.filter_eq_self]
    intro d hd
    simp only [decide_not, Bool.not_eq_true', decide_eq_false_iff_not]
    rintro ⟨c, hc, hId⟩
    have hEq : c = d :=
      hSorted.eq_of_mem (List.mem_of_mem_take hc) (List.mem_of_mem_drop hd) hId
    rw [← List.take_append_drop k (byAge items)] at hSorted
    have hDisjoint := (List.nodup_append.mp (List.Nodup.of_map _ hSorted)).2.2
    exact hDisjoint c hc d hd hEq
  have hSplit := List.filter_append (p := fun c => decide
    (¬ Among ((byAge items).take k) c.checkpointId)) ((byAge items).take k) ((byAge items).drop k)
  rw [List.take_append_drop, hOlder, hNewer, List.nil_append] at hSplit
  rw [hSplit]

theorem length_kept_le (h : Distinct items) (hNonneg : 0 ≤ limit) :
    ((items.filter fun c => ¬ Among (overflow limit items) c.checkpointId).length : Int) ≤
      limit := by
  by_cases hLimit : limit < items.length
  · rw [(kept_perm_drop h hLimit).length_eq, List.length_drop, (perm_byAge items).length_eq]
    omega
  · have hAll := List.length_filter_le
      (fun c => decide (¬ Among (overflow limit items) c.checkpointId)) items
    omega

theorem overflow_older (h : Distinct items) {c d : Checkpoint V} (hc : c ∈ overflow limit items)
    (hd : d ∈ items) (hKept : ¬ Among (overflow limit items) d.checkpointId) :
    c.timestamp ≤ d.timestamp := by
  by_cases hLimit : limit < items.length
  · have hNewer : d ∈ (byAge items).drop (items.length - limit).toNat :=
      (kept_perm_drop h hLimit).mem_iff.mp (List.mem_filter.mpr ⟨hd, by simpa using hKept⟩)
    rw [overflow, if_neg (by omega)] at hc
    have hSorted : (byAge items).Pairwise fun c d => c.timestamp ≤ d.timestamp :=
      List.pairwise_insertionSort _ _
    rw [← List.take_append_drop (items.length - limit).toNat (byAge items)] at hSorted
    exact (List.pairwise_append.mp hSorted).2.2 c hc d hNewer
  · rw [overflow_of_le (by omega)] at hc
    exact absurd hc List.not_mem_nil

end Overflow

-- ------ Contents

/-- Contents on which a pass is not refused: whatever is stored has its envelope, and that of an
active checkpoint says so. -/
structure Sound (r : InMemoryRepository V) : Prop where
  archivedKeyed : ∀ id c, r.archived.get? id = some c → c.checkpointId = id
  envelopeKeyed : ∀ id env, r.envelopes.get? id = some env → env.checkpointId = id
  activeStatus : ∀ id, (r.active.get? id).isSome →
    ∃ env, r.envelopes.get? id = some env ∧ env.status = .active
  archivedEnvelope : ∀ id, (r.archived.get? id).isSome → (r.envelopes.get? id).isSome

namespace Sound

variable {r : InMemoryRepository V}

theorem empty : Sound ({} : InMemoryRepository V) :=
  ⟨fun _ _ h => (nomatch h), fun _ _ h => (nomatch h), fun _ h => (nomatch h),
    fun _ h => (nomatch h)⟩

theorem insert (h : Sound r) (c : Checkpoint V) (now : Timestamp) : Sound (r.insert c now) := by
  have hEnvelope : ∀ id, (r.insert c now).envelopes.get? id =
      if id = c.checkpointId then
        some { checkpointId := c.checkpointId, status := .active, recordedAt := now }
      else r.envelopes.get? id := fun id => Dict.get?_set _ _ _ _
  have hActive : ∀ id, (r.insert c now).active.get? id =
      if id = c.checkpointId then some c else r.active.get? id := fun id => Dict.get?_set _ _ _ _
  refine ⟨h.archivedKeyed, fun id env hEnv => ?_, fun id hId => ?_, fun id hId => ?_⟩
  · rw [hEnvelope] at hEnv
    split at hEnv
    · next hEq =>
      cases hEnv
      exact hEq.symm
    · exact h.envelopeKeyed id env hEnv
  · rw [hActive] at hId
    rw [hEnvelope]
    split
    · exact ⟨_, rfl, rfl⟩
    · next hNe =>
      rw [if_neg hNe] at hId
      exact h.activeStatus id hId
  · rw [hEnvelope]
    split
    · rfl
    · exact h.archivedEnvelope id hId

theorem setEnvelope (h : Sound r) {env : CheckpointEnvelope V} {id : CheckpointId}
    (hKey : env.checkpointId = id) (hStatus : (r.active.get? id).isSome → env.status = .active) :
    Sound { r with envelopes := r.envelopes.set id env } := by
  refine ⟨h.archivedKeyed, fun id' env' hEnv => ?_, fun id' hId => ?_, fun id' hId => ?_⟩
  · rw [Dict.get?_set] at hEnv
    split at hEnv
    · next hEq =>
      cases hEnv
      exact hKey.trans hEq.symm
    · exact h.envelopeKeyed id' env' hEnv
  · rw [Dict.get?_set]
    split
    · next hEq => exact ⟨env, rfl, hStatus (hEq ▸ hId)⟩
    · exact h.activeStatus id' hId
  · rw [Dict.get?_set]
    split
    · rfl
    · exact h.archivedEnvelope id' hId

theorem shelve (h : Sound r) (id : CheckpointId) : Sound (r.shelve id) := by
  unfold InMemoryRepository.shelve
  split
  · next c hc =>
    have hArchived : ∀ id', (r.archived.set id c).get? id' =
        if id' = id then some c else r.archived.get? id' := fun id' => Dict.get?_set _ _ _ _
    refine ⟨fun id' d hd => ?_, h.envelopeKeyed, fun id' hId => ?_, fun id' hId => ?_⟩
    · rw [hArchived] at hd
      split at hd
      · next hEq =>
        cases hd
        exact (r.activeKeyed id c hc).trans hEq.symm
      · exact h.archivedKeyed id' d hd
    · obtain ⟨d, hd⟩ := Option.isSome_iff_exists.mp hId
      exact h.activeStatus id' (by rw [(Dict.get?_erase_eq_some.mp hd).2]; rfl)
    · rw [hArchived] at hId
      split at hId
      · next hEq =>
        obtain ⟨env, hEnv, -⟩ := h.activeStatus id (by rw [hc]; rfl)
        rw [hEq, hEnv]
        rfl
      · exact h.archivedEnvelope id' hId
  · exact h

theorem active_shelve (r : InMemoryRepository V) (id : CheckpointId) :
    (r.shelve id).active.get? id = none := by
  unfold InMemoryRepository.shelve
  split
  · show (r.active.erase id).get? id = none
    rw [Dict.get?_erase, if_pos rfl]
  · next hNone => exact hNone

theorem keeps_transitionTo (id : CheckpointId) {target : CheckpointStatus}
    (hTarget : target ≠ .active) (now : Timestamp) :
    Keeps Sound (transitionTo (V := V) id target now) := by
  refine keeps_get_bind fun r hr => ?_
  split
  · exact hr
  · dsimp only
    split
    · exact hr
    · rw [if_neg hTarget]
      refine (hr.shelve id).setEnvelope ?_ fun hId => ?_
      · show ((r.envelopes.get? id).getD
          { checkpointId := id, recordedAt := now }).checkpointId = id
        cases hEnv : r.envelopes.get? id with
        | none => rfl
        | some env => exact hr.envelopeKeyed id env hEnv
      · rw [active_shelve] at hId
        exact absurd hId Bool.false_ne_true

def KeepsStatus (r : InMemoryRepository V) (env : CheckpointEnvelope V) : Prop :=
  ∀ old, r.envelopes.get? env.checkpointId = some old → env.status = old.status

theorem ends_setEnvelope {r : InMemoryRepository V} (h : Sound r) {env : CheckpointEnvelope V}
    (hKeeps : KeepsStatus r env) :
    Ends (InMemoryRepository.setEnvelope env) r
      (fun _ r' => Sound r' ∧ r'.active = r.active ∧ r'.archived = r.archived)
      fun _ r' => r.envelopes.contains env.checkpointId = false ∧ r' = r := by
  unfold InMemoryRepository.setEnvelope
  refine ends_get_bind ?_
  split
  · next hContains =>
    obtain ⟨old, hOld⟩ := Option.isSome_iff_exists.mp hContains
    have hActive : (r.active.get? env.checkpointId).isSome → env.status = .active := by
      intro hId
      obtain ⟨env', hEnv', hStatus⟩ := h.activeStatus _ hId
      rw [hKeeps old hOld, Option.some.inj (hOld.symm.trans hEnv'), hStatus]
    exact ⟨h.setEnvelope rfl hActive, rfl, rfl⟩
  · next hNone => exact ⟨Bool.not_eq_true _ ▸ hNone, rfl⟩

end Sound

-- ------ Archiving

/-- No call of the pass raises. -/
def Never (_ : CheckpointError) (_ : InMemoryRepository V) : Prop := False

/-- The active checkpoints are those of before without some. -/
def Drops (r r' : InMemoryRepository V) (items : List (Checkpoint V)) : Prop :=
  r'.active.values = r.active.values.filter fun c => ¬ Among items c.checkpointId

section Archive

variable {r r' r'' : InMemoryRepository V} {items items' : List (Checkpoint V)}

theorem Drops.refl (r : InMemoryRepository V) : Drops r r [] := by
  simp [Drops, Among]

theorem Drops.trans (h : Drops r r' items) (h' : Drops r' r'' items') :
    Drops r r'' (items ++ items') := by
  unfold Drops at *
  rw [h', h, List.filter_filter]
  refine List.filter_congr fun c _ => ?_
  simp only [among_append, not_or, Bool.decide_and, Bool.and_comm]

variable {c : Checkpoint V}

theorem Drops.mem_iff (h : Drops r r' items) :
    c ∈ r'.active.values ↔ c ∈ r.active.values ∧ ¬ Among items c.checkpointId := by
  rw [h, List.mem_filter, decide_eq_true_eq]

theorem get?_of_mem (h : c ∈ r.active.values) :
    r.active.get? c.checkpointId = some c := by
  obtain ⟨id, hId⟩ := Dict.mem_values_iff.mp h
  rw [r.activeKeyed id c hId]
  exact hId

theorem distinct_active (r : InMemoryRepository V) : Distinct r.active.values := by
  have hIds : r.active.values.map (·.checkpointId) = r.active.keys := by
    rw [Dict.values, Dict.keys, List.map_map]
    exact List.map_congr_left fun e he => r.activeKeyed e.1 e.2 (Dict.mem_entries_iff.mp he)
  rw [Distinct, hIds]
  exact r.active.nodup

theorem drops_shelve (h : c ∈ r.active.values) :
    Drops r (r.shelve c.checkpointId) [c] := by
  unfold InMemoryRepository.shelve
  rw [get?_of_mem h]
  show (r.active.erase c.checkpointId).values = _
  unfold Dict.values Dict.erase
  rw [List.filter_map]
  refine congrArg (List.map Prod.snd) (List.filter_congr fun e he => ?_)
  have hKey : e.2.checkpointId = e.1 := r.activeKeyed e.1 e.2 (Dict.mem_entries_iff.mp he)
  simp only [among_singleton, Function.comp_apply, hKey, ne_eq, eq_comm]

theorem ends_archive (h : Sound r) (hc : c ∈ r.active.values) (now : Timestamp) :
    Ends (archive c.checkpointId now) r (fun _ r' => Sound r' ∧ Drops r r' [c]) Never := by
  have hTarget : CheckpointStatus.archived ≠ .active := by decide
  have hSound := (Sound.keeps_transitionTo (V := V) c.checkpointId hTarget now).ends h
  have hEnds : Ends (archive c.checkpointId now) r (fun _ r' => Drops r r' [c]) Never := by
    obtain ⟨env, hEnv, hStatus⟩ := h.activeStatus c.checkpointId (by rw [get?_of_mem hc]; rfl)
    have hTransition : transition c.checkpointId env.status .archived = .ok .archived := by
      rw [hStatus]
      rfl
    unfold archive transitionTo
    refine ends_get_bind ?_
    rw [lookup_of_mem hc]
    simp only [hEnv, Option.getD_some, hTransition]
    exact drops_shelve hc
  exact (hSound.and hEnds).mono (fun _ _ h => h) fun _ _ h => h.2

/-- What a stage of the pass returns and leaves when it archives some active checkpoints. -/
def Archived (archived : List CheckpointId) (r : InMemoryRepository V)
    (items : List (Checkpoint V)) (ids : List CheckpointId) (r' : InMemoryRepository V) : Prop :=
  ids = archived ++ items.map (·.checkpointId) ∧ Sound r' ∧ Drops r r' items

variable {archived : List CheckpointId}

theorem ends_archiveLoop (clock : CheckpointId → Timestamp) {p : Checkpoint V → Bool}
    {q : List CheckpointId → Checkpoint V → Prop} [∀ ids c, Decidable (q ids c)]
    (hTest : ∀ ids c, c.checkpointId ∉ ids → (q ids c ↔ p c = true)) (h : Sound r)
    (hActive : ∀ c ∈ items, c ∈ r.active.values) (hDistinct : Distinct items)
    (hNew : ∀ c ∈ items, c.checkpointId ∉ archived) :
    Ends (items.foldlM (fun ids c =>
        if q ids c then do
          let _ ← archive c.checkpointId (clock c.checkpointId)
          pure (ids ++ [c.checkpointId])
        else pure ids) archived) r
      (Archived archived r (items.filter p)) Never := by
  induction items generalizing r archived with
  | nil => exact ends_pure ⟨by simp, h, Drops.refl r⟩
  | cons c items ih =>
    obtain ⟨hc, hRest⟩ := List.forall_mem_cons.mp hActive
    obtain ⟨hcNew, hRestNew⟩ := List.forall_mem_cons.mp hNew
    obtain ⟨hNotMem, hDistinct⟩ := List.nodup_cons.mp hDistinct
    have hApart : ∀ d ∈ items, c.checkpointId ≠ d.checkpointId := fun d hd hEq =>
      hNotMem (List.mem_map.mpr ⟨d, hd, hEq.symm⟩)
    rw [List.foldlM_cons]
    by_cases hp : p c = true
    · rw [if_pos ((hTest archived c hcNew).mpr hp), List.filter_cons_of_pos hp]
      have hArchive := ends_archive h hc (clock c.checkpointId)
      refine ends_bind (ends_bind hArchive fun _ r' hr' => ends_pure
        (Q := fun ids r' => ids = archived ++ [c.checkpointId] ∧ Sound r' ∧ Drops r r' [c])
        ⟨rfl, hr'⟩) ?_
      rintro ids r' ⟨rfl, hSound, hDrops⟩
      have hActive' : ∀ d ∈ items, d ∈ r'.active.values := fun d hd =>
        hDrops.mem_iff.mpr ⟨hRest d hd, fun hAmong => hApart d hd (among_singleton.mp hAmong)⟩
      have hNew' : ∀ d ∈ items, d.checkpointId ∉ archived ++ [c.checkpointId] := by
        intro d hd hMem
        rcases List.mem_append.mp hMem with hMem | hMem
        · exact hRestNew d hd hMem
        · exact hApart d hd (List.mem_singleton.mp hMem).symm
      refine (ih hSound hActive' hDistinct hNew').mono ?_ fun _ _ h => h
      rintro ids r'' ⟨rfl, hSound', hDrops'⟩
      exact ⟨by simp, hSound', hDrops.trans hDrops'⟩
    · rw [if_neg (mt (hTest archived c hcNew).mp hp), List.filter_cons_of_neg hp]
      exact ends_bind (ends_pure (Q := fun ids r' => ids = archived ∧ r' = r) ⟨rfl, rfl⟩)
        (by rintro _ _ ⟨rfl, rfl⟩; exact ih h hRest hDistinct hRestNew)

theorem ends_archiveOverflow (limit : Int) (clock : CheckpointId → Timestamp) (h : Sound r)
    (hActive : ∀ c ∈ items, c ∈ r.active.values) (hDistinct : Distinct items)
    (hNew : ∀ c ∈ items, c.checkpointId ∉ archived) :
    Ends (archiveOverflow limit clock archived items) r
      (Archived archived r (overflow limit items)) Never := by
  unfold archiveOverflow
  split
  · next hLe =>
    rw [overflow_of_le hLe]
    exact ends_pure ⟨by simp, h, Drops.refl r⟩
  · next hMore =>
    have hItems : overflow limit items = (byAge items).take (items.length - limit).toNat :=
      if_neg hMore
    have hAll : (overflow limit items).filter (fun _ => true) = overflow limit items := by simp
    have hLoop := ends_archiveLoop clock (p := fun _ => true)
      (q := fun ids c => c.checkpointId ∉ ids) (fun _ _ hNew => iff_of_true hNew rfl) h
      (fun c hc => hActive c (mem_of_mem_overflow hc)) (distinct_overflow hDistinct limit)
      (fun c hc => hNew c (mem_of_mem_overflow hc))
    simp only [ite_not, hAll] at hLoop
    rw [hItems] at hLoop ⊢
    exact hLoop

theorem ends_archiveByAge (policy : RetentionPolicy) (now : Timestamp)
    (clock : CheckpointId → Timestamp) (h : Sound r) :
    Ends (policy.archiveByAge now clock r.active.values) r
      (Archived [] r (r.active.values.filter fun c =>
        policy.maxAge.any fun maxAge => c.timestamp < now - maxAge)) Never := by
  unfold archiveByAge
  split
  · next hNone =>
    refine ends_pure ⟨?_, h, ?_⟩
    · simp [hNone]
    · simpa [hNone] using Drops.refl r
  · next maxAge hAge =>
    simp only [hAge, Option.any_some]
    exact ends_archiveLoop clock (fun _ _ _ => by simp) h (fun _ hc => hc) (distinct_active r)
      (fun _ _ => List.not_mem_nil)

-- ------ Groups

theorem get?_groupByExecution (items : List (Checkpoint V)) (e : String) :
    (groupByExecution items).get? e =
      if items.filter (·.executionId = e) = [] then none
      else some (items.filter (·.executionId = e)) := by
  induction items using List.reverseRecOn with
  | nil => rfl
  | append_singleton items c ih =>
    have hGroup : (groupByExecution (items ++ [c])).get? e =
        if e = c.executionId then
          some (((groupByExecution items).get? c.executionId).getD [] ++ [c])
        else (groupByExecution items).get? e := by
      unfold groupByExecution
      rw [List.foldl_append]
      exact Dict.get?_set _ _ _ _
    rw [hGroup, List.filter_append]
    by_cases he : e = c.executionId
    · subst he
      rw [if_pos rfl, ih, List.filter_cons_of_pos (by simp)]
      split
      · next hNil => simp [hNil]
      · simp
    · rw [if_neg he, ih, List.filter_cons_of_neg (by simpa using Ne.symm he)]
      simp

theorem mem_groups {items : List (Checkpoint V)} {g : List (Checkpoint V)}
    (h : g ∈ (groupByExecution items).values) :
    ∃ e, g = items.filter (·.executionId = e) := by
  obtain ⟨e, he⟩ := Dict.mem_values_iff.mp h
  rw [get?_groupByExecution] at he
  split at he
  · contradiction
  · exact ⟨e, (Option.some.inj he).symm⟩

theorem group_mem (h : c ∈ items) :
    items.filter (·.executionId = c.executionId) ∈ (groupByExecution items).values := by
  refine Dict.mem_values_iff.mpr ⟨c.executionId, ?_⟩
  rw [get?_groupByExecution, if_neg]
  exact List.ne_nil_of_mem (List.mem_filter.mpr ⟨h, by simp⟩)

theorem groups_apart (h : Distinct items) :
    (groupByExecution items).values.Pairwise fun g g' =>
      ∀ c ∈ g, ∀ d ∈ g', c.checkpointId ≠ d.checkpointId := by
  have hEntry : ∀ e ∈ (groupByExecution items).entries,
      e.2 = items.filter (·.executionId = e.1) := by
    intro e he
    have hGet := Dict.mem_entries_iff.mp he
    rw [get?_groupByExecution] at hGet
    split at hGet
    · contradiction
    · exact (Option.some.inj hGet).symm
  unfold Dict.values
  rw [List.pairwise_map]
  have hKeys := List.pairwise_map.mp (groupByExecution items).nodup
  refine hKeys.imp_of_mem fun {a b} ha hb hNe c hc d hd hId => ?_
  rw [hEntry a ha] at hc
  rw [hEntry b hb] at hd
  obtain ⟨hcMem, hcExecution⟩ := List.mem_filter.mp hc
  obtain ⟨hdMem, hdExecution⟩ := List.mem_filter.mp hd
  obtain rfl := h.eq_of_mem hcMem hdMem hId
  simp only [decide_eq_true_eq] at hcExecution hdExecution
  exact hNe (hcExecution.symm.trans hdExecution)

/-- What the limit sends to the archive of several groups. -/
def overflows (limit : Int) (groups : List (List (Checkpoint V))) : List (Checkpoint V) :=
  groups.flatMap (overflow limit)

theorem ends_groups (limit : Int) (clock : CheckpointId → Timestamp)
    {groups : List (List (Checkpoint V))} (h : Sound r)
    (hActive : ∀ g ∈ groups, ∀ c ∈ g, c ∈ r.active.values) (hDistinct : ∀ g ∈ groups, Distinct g)
    (hApart : groups.Pairwise fun g g' => ∀ c ∈ g, ∀ d ∈ g', c.checkpointId ≠ d.checkpointId)
    (hNew : ∀ g ∈ groups, ∀ c ∈ g, c.checkpointId ∉ archived) :
    Ends (groups.foldlM (archiveOverflow limit clock) archived) r
      (Archived archived r (overflows limit groups)) Never := by
  induction groups generalizing r archived with
  | nil => exact ends_pure ⟨by simp [overflows], h, Drops.refl r⟩
  | cons g groups ih =>
    obtain ⟨hFirst, hRest⟩ := List.forall_mem_cons.mp hActive
    obtain ⟨hFirstDistinct, hRestDistinct⟩ := List.forall_mem_cons.mp hDistinct
    obtain ⟨hFirstNew, hRestNew⟩ := List.forall_mem_cons.mp hNew
    obtain ⟨hFirstApart, hRestApart⟩ := List.pairwise_cons.mp hApart
    rw [List.foldlM_cons]
    refine ends_bind (ends_archiveOverflow limit clock h hFirst hFirstDistinct hFirstNew) ?_
    rintro ids r' ⟨rfl, hSound, hDrops⟩
    -- nothing of the other groups went with the first
    have hActive' : ∀ g' ∈ groups, ∀ c ∈ g', c ∈ r'.active.values := by
      intro g' hg' c hc
      refine hDrops.mem_iff.mpr ⟨hRest g' hg' c hc, ?_⟩
      rintro ⟨d, hd, hId⟩
      exact hFirstApart g' hg' d (mem_of_mem_overflow hd) c hc hId
    have hNew' : ∀ g' ∈ groups, ∀ c ∈ g', c.checkpointId ∉
        archived ++ (overflow limit g).map (·.checkpointId) := by
      intro g' hg' c hc hMem
      rcases List.mem_append.mp hMem with hMem | hMem
      · exact hRestNew g' hg' c hc hMem
      · obtain ⟨d, hd, hId⟩ := List.mem_map.mp hMem
        exact hFirstApart g' hg' d (mem_of_mem_overflow hd) c hc hId
    refine (ih hSound hActive' hRestDistinct hRestApart hNew').mono ?_ fun _ _ h => h
    rintro ids r'' ⟨rfl, hSound', hDrops'⟩
    exact ⟨by simp [overflows], hSound', hDrops.trans hDrops'⟩

def perExecution (policy : RetentionPolicy) (items : List (Checkpoint V)) : List (Checkpoint V) :=
  policy.maxActivePerExecution.elim [] fun limit => overflows limit (groupByExecution items).values

theorem ends_archivePerExecution (policy : RetentionPolicy) (clock : CheckpointId → Timestamp)
    (h : Sound r) (hNew : ∀ c ∈ r.active.values, c.checkpointId ∉ archived) :
    Ends (policy.archivePerExecution clock archived) r
      (Archived archived r (perExecution policy r.active.values)) Never := by
  unfold archivePerExecution perExecution
  cases policy.maxActivePerExecution with
  | none => exact ends_pure ⟨by simp, h, Drops.refl r⟩
  | some limit =>
    refine ends_get_bind ?_
    have hSub : ∀ g ∈ (groupByExecution r.active.values).values, g.Sublist r.active.values := by
      intro g hg
      obtain ⟨e, rfl⟩ := mem_groups hg
      exact List.filter_sublist
    exact ends_groups limit clock h (fun g hg c hc => (hSub g hg).subset hc)
      (fun g hg => (distinct_active r).sublist ((hSub g hg).map _))
      (groups_apart (distinct_active r)) fun g hg c hc => hNew c ((hSub g hg).subset hc)

def total (policy : RetentionPolicy) (items : List (Checkpoint V)) : List (Checkpoint V) :=
  policy.maxActiveTotal.elim [] fun limit => overflow limit items

theorem ends_archiveTotal (policy : RetentionPolicy) (clock : CheckpointId → Timestamp)
    (h : Sound r) (hNew : ∀ c ∈ r.active.values, c.checkpointId ∉ archived) :
    Ends (policy.archiveTotal clock archived) r
      (Archived archived r (total policy r.active.values)) Never := by
  unfold archiveTotal total
  cases policy.maxActiveTotal with
  | none => exact ends_pure ⟨by simp, h, Drops.refl r⟩
  | some limit =>
    exact ends_get_bind
      (ends_archiveOverflow limit clock h (fun _ hc => hc) (distinct_active r) hNew)

-- ------ Expiry and metadata

def SameStore (r r' : InMemoryRepository V) : Prop :=
  Sound r' ∧ r'.active = r.active ∧ r'.archived = r.archived

theorem ends_getEnvelope (h : SameStore r r') (hc : c ∈ r.active.values ++ r.archived.values)
    (hSound : Sound r) :
    Ends (getEnvelope c.checkpointId) r'
      (fun env s => s = r' ∧ r'.envelopes.get? c.checkpointId = some env) Never := by
  obtain ⟨hSound', hActive, hArchived⟩ := h
  have hEnvelope : (r'.envelopes.get? c.checkpointId).isSome := by
    rcases List.mem_append.mp hc with hc | hc
    · obtain ⟨env, hEnv, -⟩ := hSound'.activeStatus c.checkpointId
        (by rw [hActive, get?_of_mem hc]; rfl)
      rw [hEnv]
      rfl
    · obtain ⟨id, hId⟩ := Dict.mem_values_iff.mp hc
      refine hSound'.archivedEnvelope c.checkpointId ?_
      rw [hArchived, hSound.archivedKeyed id c hId, hId]
      rfl
  obtain ⟨env, hEnv⟩ := Option.isSome_iff_exists.mp hEnvelope
  unfold getEnvelope
  refine ends_get_bind ?_
  rw [hEnv]
  exact ends_pure ⟨rfl, rfl⟩

theorem ends_expire (h : SameStore r r') (hc : c ∈ r.active.values ++ r.archived.values)
    (hSound : Sound r) {env : CheckpointEnvelope V}
    (hEnv : r'.envelopes.get? c.checkpointId = some env) (hStatus : env.status = .archived)
    (now : Timestamp) :
    Ends (expire c.checkpointId now) r' (fun _ => SameStore r) Never := by
  obtain ⟨hSound', hActive, hArchived⟩ := h
  have hNotActive : r'.active.get? c.checkpointId = none := by
    by_contra hSome
    obtain ⟨env', hEnv', hStatus'⟩ :=
      hSound'.activeStatus _ (Option.isSome_iff_ne_none.mpr hSome)
    rw [hEnv] at hEnv'
    cases hEnv'
    exact absurd (hStatus.symm.trans hStatus') (by decide)
  have hLookup : r'.lookup c.checkpointId = some c := by
    rw [lookup, hNotActive, hArchived]
    rcases List.mem_append.mp hc with hc | hc
    · rw [hActive, get?_of_mem hc] at hNotActive
      contradiction
    · obtain ⟨id, hId⟩ := Dict.mem_values_iff.mp hc
      rw [hSound.archivedKeyed id c hId]
      exact hId
  have hShelve : r'.shelve c.checkpointId = r' := by
    unfold InMemoryRepository.shelve
    rw [hNotActive]
  have hTransition : transition c.checkpointId env.status .expired = .ok .expired := by
    rw [hStatus]
    rfl
  unfold expire transitionTo
  refine ends_get_bind ?_
  rw [hLookup]
  simp only [hEnv, Option.getD_some, hTransition, hShelve]
  refine ⟨hSound'.setEnvelope ?_ fun hId => ?_, hActive, hArchived⟩
  · exact hSound'.envelopeKeyed _ env hEnv
  · rw [hNotActive] at hId
    contradiction

theorem ends_expireArchived (policy : RetentionPolicy) (now : Timestamp)
    (clock : CheckpointId → Timestamp) (h : Sound r) :
    Ends (policy.expireArchived now clock) r (fun _ => SameStore r) Never := by
  unfold expireArchived
  split
  · exact ends_pure ⟨h, rfl, rfl⟩
  · refine ends_get_bind (ends_foldlM _ (fun expired c s hc hs => ?_) _ ⟨h, rfl, rfl⟩)
    refine ends_bind (ends_getEnvelope hs hc h) ?_
    rintro env _ ⟨rfl, hEnv⟩
    split
    · next hExpires =>
      exact ends_bind (ends_expire hs hc h hEnv hExpires.1 _) fun _ _ hs' => ends_pure hs'
    · exact ends_pure hs

theorem ends_pruneMetadata (policy : RetentionPolicy) (h : Sound r) :
    Ends (policy.pruneMetadata) r (fun _ => SameStore r) Never := by
  unfold pruneMetadata
  split
  · exact ends_pure ⟨h, rfl, rfl⟩
  · refine ends_get_bind (ends_foldlM _ (fun acc c s hc hs => ?_) _ ⟨h, rfl, rfl⟩)
    refine ends_bind (ends_getEnvelope hs hc h) ?_
    rintro env s ⟨rfl, hEnv⟩
    rcases pruned policy.pruneMetadataKeys env.metadata with ⟨metadata, removed⟩
    dsimp only
    split
    · exact ends_pure hs
    · have hKey : env.checkpointId = c.checkpointId := hs.1.envelopeKeyed _ env hEnv
      have hKeeps : Sound.KeepsStatus s { env with metadata } := by
        intro old hOld
        have hSame : some env = some old := hEnv.symm.trans (hKey ▸ hOld)
        cases hSame
        rfl
      have hKnown : s.envelopes.contains env.checkpointId = true := by
        rw [Dict.contains, hKey, hEnv]
        rfl
      have hSet := Sound.ends_setEnvelope hs.1 hKeeps
      refine ends_bind (hSet.mono (fun _ _ h => h) ?_) fun _ s' hs' => ends_pure ?_
      · exact fun _ _ hUnknown => absurd (hKnown.symm.trans hUnknown.1) (by decide)
      · exact ⟨hs'.1, hs'.2.1.trans hs.2.1, hs'.2.2.trans hs.2.2⟩

-- ------ A pass

/-- The checkpoints that the limit of age sends to the archive. -/
def aged (policy : RetentionPolicy) (now : Timestamp) (items : List (Checkpoint V)) :
    List (Checkpoint V) :=
  items.filter fun c => policy.maxAge.any fun maxAge => c.timestamp < now - maxAge

/-- What a pass archives, limit by limit, each on what the one before has left. -/
structure Pass (policy : RetentionPolicy) (now : Timestamp) (r r₁ r₂ r' : InMemoryRepository V)
    (ids : List CheckpointId) : Prop where
  aged : Drops r r₁ (aged policy now r.active.values)
  perExecution : Drops r₁ r₂ (perExecution policy r₁.active.values)
  total : Drops r₂ r' (total policy r₂.active.values)
  ids : ids = (Checkpoints.aged policy now r.active.values ++
    Checkpoints.perExecution policy r₁.active.values ++
    Checkpoints.total policy r₂.active.values).map (·.checkpointId)

theorem notMem_of_drops (h : Drops r r' items) (hc : c ∈ r'.active.values) :
    c.checkpointId ∉ items.map (·.checkpointId) := by
  intro hMem
  obtain ⟨d, hd, hId⟩ := List.mem_map.mp hMem
  exact (h.mem_iff.mp hc).2 ⟨d, hd, hId⟩

/-- **A pass returns**, whatever the limits. -/
theorem ends_apply {policy : RetentionPolicy} (hDelete : policy.allowHardDelete = false)
    (now : Timestamp) (clock : CheckpointId → Timestamp) (h : Sound r) :
    Ends (policy.apply now clock) r
      (fun result r' => Sound r' ∧ ∃ r₁ r₂, Pass policy now r r₁ r₂ r' result.archived) Never := by
  unfold RetentionPolicy.apply
  rw [if_neg (by simp [hDelete])]
  refine ends_get_bind (ends_bind (ends_archiveByAge policy now clock h) ?_)
  rintro ids₁ r₁ ⟨rfl, hSound₁, hDrops₁⟩
  rw [List.nil_append]
  refine ends_bind (ends_archivePerExecution policy clock hSound₁ fun c hc =>
    notMem_of_drops hDrops₁ hc) ?_
  rintro ids₂ r₂ ⟨rfl, hSound₂, hDrops₂⟩
  rw [← List.map_append]
  refine ends_bind (ends_archiveTotal policy clock hSound₂ fun c hc =>
    notMem_of_drops (hDrops₁.trans hDrops₂) hc) ?_
  rintro ids₃ r₃ ⟨rfl, hSound₃, hDrops₃⟩
  refine ends_bind (ends_expireArchived policy now clock hSound₃) ?_
  rintro expired r₄ ⟨hSound₄, hActive₄, -⟩
  refine ends_bind (ends_pruneMetadata policy hSound₄) ?_
  rintro ⟨compacted, prunedKeys⟩ r₅ ⟨hSound₅, hActive₅, -⟩
  refine ends_pure ⟨hSound₅, r₁, r₂, hDrops₁, hDrops₂, ?_, ?_⟩
  · rw [Drops, hActive₅, hActive₄]
    exact hDrops₃
  · simp only [List.map_append]
    rfl

-- ------ What a pass leaves

theorem among_overflows {limit : Int} {e : String} {id : CheckpointId}
    (h : Among (overflow limit (items.filter (·.executionId = e))) id) :
    Among (overflows limit (groupByExecution items).values) id := by
  obtain ⟨c, hc, hId⟩ := h
  obtain ⟨hMem, hExecution⟩ := List.mem_filter.mp (mem_of_mem_overflow hc)
  obtain rfl : c.executionId = e := by simpa using hExecution
  exact ⟨c, List.mem_flatMap.mpr ⟨_, group_mem hMem, hc⟩, hId⟩

theorem Distinct.filter (h : Distinct items) (p : Checkpoint V → Bool) :
    Distinct (items.filter p) :=
  h.sublist ((List.filter_sublist (l := items)).map _)

namespace Pass

variable {policy : RetentionPolicy} {now : Timestamp} {r₁ r₂ : InMemoryRepository V}
  {ids : List CheckpointId}

variable {c : Checkpoint V}

theorem mem_of_mem (h : Pass policy now r r₁ r₂ r' ids) (hc : c ∈ r'.active.values) :
    c ∈ r.active.values ∧ c ∈ r₁.active.values ∧ c ∈ r₂.active.values :=
  have h₂ := (h.total.mem_iff.mp hc).1
  have h₁ := (h.perExecution.mem_iff.mp h₂).1
  ⟨(h.aged.mem_iff.mp h₁).1, h₁, h₂⟩

theorem mem_iff (h : Pass policy now r r₁ r₂ r' ids) :
    c ∈ r'.active.values ↔ c ∈ r.active.values ∧ c.checkpointId ∉ ids := by
  have hDrops := (h.aged.trans h.perExecution).trans h.total
  rw [hDrops.mem_iff, h.ids]
  simp only [Among, List.mem_map]

theorem notAged (h : Pass policy now r r₁ r₂ r' ids) (hc : c ∈ r'.active.values) {maxAge : Int}
    (hAge : policy.maxAge = some maxAge) :
    now - maxAge ≤ c.timestamp := by
  obtain ⟨hMem, hMem₁, -⟩ := h.mem_of_mem hc
  by_contra hOld
  refine (h.aged.mem_iff.mp hMem₁).2 ⟨c, List.mem_filter.mpr ⟨hMem, ?_⟩, rfl⟩
  rw [hAge, Option.any_some, decide_eq_true_eq]
  exact Int.not_le.mp hOld

theorem length_execution (h : Pass policy now r r₁ r₂ r' ids) {limit : Int}
    (hLimit : policy.maxActivePerExecution = some limit) (hNonneg : 0 ≤ limit) (e : String) :
    ((r'.listByExecution e false).length : Int) ≤ limit := by
  have hKept : (r'.listByExecution e false).Sublist
      ((r₁.active.values.filter (·.executionId = e)).filter fun c =>
        ¬ Among (overflow limit (r₁.active.values.filter (·.executionId = e))) c.checkpointId) := by
    have hPer : Drops r₁ r₂ (overflows limit (groupByExecution r₁.active.values).values) := by
      have hDrops := h.perExecution
      rwa [Checkpoints.perExecution, hLimit] at hDrops
    show (r'.active.values.filter (·.executionId = e)).Sublist _
    rw [h.total, List.filter_filter, hPer, List.filter_filter, List.filter_filter]
    refine List.monotone_filter_right _ fun c => ?_
    simp only [decide_not, Bool.and_eq_true, decide_eq_true_eq, Bool.not_eq_true',
      decide_eq_false_iff_not]
    rintro ⟨⟨hExecution, -⟩, hNot⟩
    exact ⟨fun hAmong => hNot (among_overflows hAmong), hExecution⟩
  have hGroup := length_kept_le ((distinct_active r₁).filter (·.executionId = e)) hNonneg
  have hLength := hKept.length_le
  omega

theorem length_total (h : Pass policy now r r₁ r₂ r' ids) {limit : Int}
    (hLimit : policy.maxActiveTotal = some limit) (hNonneg : 0 ≤ limit) :
    ((r'.listAll false).length : Int) ≤ limit := by
  have hDrops : Drops r₂ r' (overflow limit r₂.active.values) := by
    have hDrops := h.total
    rwa [Checkpoints.total, hLimit] at hDrops
  show (r'.active.values.length : Int) ≤ limit
  rw [hDrops]
  exact length_kept_le (distinct_active r₂) hNonneg

theorem perExecution_older (h : Pass policy now r r₁ r₂ r' ids) {d : Checkpoint V}
    (hc : c ∈ Checkpoints.perExecution policy r₁.active.values) (hd : d ∈ r'.active.values)
    (hExecution : d.executionId = c.executionId) : c.timestamp ≤ d.timestamp := by
  obtain ⟨-, hd₁, hd₂⟩ := h.mem_of_mem hd
  have hKept := (h.perExecution.mem_iff.mp hd₂).2
  unfold Checkpoints.perExecution at hc hKept
  cases hLimit : policy.maxActivePerExecution with
  | none =>
    rw [hLimit] at hc
    exact absurd hc List.not_mem_nil
  | some limit =>
    rw [hLimit] at hc hKept
    obtain ⟨g, hg, hcg⟩ := List.mem_flatMap.mp hc
    obtain ⟨e, rfl⟩ := mem_groups hg
    have hce := (List.mem_filter.mp (mem_of_mem_overflow hcg)).2
    have hdg : d ∈ r₁.active.values.filter (·.executionId = e) :=
      List.mem_filter.mpr ⟨hd₁, by rw [hExecution]; exact hce⟩
    exact overflow_older ((distinct_active r₁).filter _) hcg hdg fun hAmong =>
      hKept (among_overflows hAmong)

theorem total_older (h : Pass policy now r r₁ r₂ r' ids) {d : Checkpoint V}
    (hc : c ∈ Checkpoints.total policy r₂.active.values) (hd : d ∈ r'.active.values) :
    c.timestamp ≤ d.timestamp := by
  obtain ⟨hd₂, hKept⟩ := h.total.mem_iff.mp hd
  unfold Checkpoints.total at hc hKept
  cases hLimit : policy.maxActiveTotal with
  | none =>
    rw [hLimit] at hc
    exact absurd hc List.not_mem_nil
  | some limit =>
    rw [hLimit] at hc hKept
    exact overflow_older (distinct_active r₂) hc hd₂ hKept

theorem drops_nil (h : Drops r r' []) : r'.active.values = r.active.values := by
  rw [h, List.filter_eq_self]
  simp [Among]

theorem ids_nil (h : Pass policy now r r₁ r₂ r' ids)
    (hAge : ∀ c ∈ r.active.values, ∀ maxAge, policy.maxAge = some maxAge →
      now - maxAge ≤ c.timestamp)
    (hExecution : ∀ limit, policy.maxActivePerExecution = some limit → ∀ e,
      ((r.listByExecution e false).length : Int) ≤ limit)
    (hTotal : ∀ limit, policy.maxActiveTotal = some limit →
      ((r.listAll false).length : Int) ≤ limit) :
    ids = [] ∧ r'.active.values = r.active.values := by
  have hAged : Checkpoints.aged policy now r.active.values = [] := by
    rw [Checkpoints.aged, List.filter_eq_nil_iff]
    intro c hc hOld
    obtain ⟨maxAge, hMax, hLt⟩ := Option.any_eq_true _ _ |>.mp hOld
    have hNew := hAge c hc maxAge hMax
    exact Int.not_lt.mpr hNew (of_decide_eq_true hLt)
  have hSame₁ : r₁.active.values = r.active.values := by
    have hDrops := h.aged
    rw [hAged] at hDrops
    exact drops_nil hDrops
  have hPer : Checkpoints.perExecution policy r₁.active.values = [] := by
    unfold Checkpoints.perExecution
    cases hLimit : policy.maxActivePerExecution with
    | none => rfl
    | some limit =>
      show (groupByExecution r₁.active.values).values.flatMap (overflow limit) = []
      rw [List.flatMap_eq_nil_iff]
      intro g hg
      obtain ⟨e, rfl⟩ := mem_groups hg
      rw [hSame₁]
      exact overflow_of_le (hExecution limit hLimit e)
  have hSame₂ : r₂.active.values = r₁.active.values := by
    have hDrops := h.perExecution
    rw [hPer] at hDrops
    exact drops_nil hDrops
  have hAll : Checkpoints.total policy r₂.active.values = [] := by
    unfold Checkpoints.total
    cases hLimit : policy.maxActiveTotal with
    | none => rfl
    | some limit =>
      rw [hSame₂, hSame₁]
      exact overflow_of_le (hTotal limit hLimit)
  refine ⟨?_, ?_⟩
  · rw [h.ids, hAged, hPer, hAll]
    rfl
  · have hDrops := h.total
    rw [hAll] at hDrops
    rw [drops_nil hDrops, hSame₂, hSame₁]

end Pass

end Archive

-- ------ Every content

/-- What the calls of the store build; an envelope that is set keeps its status, as retention
sets them. -/
inductive Built : InMemoryRepository V → Prop where
  | empty : Built {}
  | append {r r' : InMemoryRepository V} {c : Checkpoint V} {now : Timestamp} (h : Built r)
      (hAppend : r.append c now = .ok r') : Built r'
  | transition {r : InMemoryRepository V} (h : Built r) (id : CheckpointId)
      {target : CheckpointStatus} (hTarget : target ≠ .active) (now : Timestamp) :
      Built ((transitionTo id target now).after r)
  | setEnvelope {r : InMemoryRepository V} (h : Built r) {env : CheckpointEnvelope V}
      (hKeeps : Sound.KeepsStatus r env) :
      Built (after (InMemoryRepository.setEnvelope env) r)
  | retain {r : InMemoryRepository V} (h : Built r) (policy : RetentionPolicy) (now : Timestamp)
      (clock : CheckpointId → Timestamp) : Built ((policy.apply now clock).after r)

theorem Built.sound {r : InMemoryRepository V} (h : Built r) : Sound r := by
  induction h with
  | empty => exact Sound.empty
  | append h hAppend ih =>
    unfold InMemoryRepository.append at hAppend
    split at hAppend
    · contradiction
    · obtain rfl := Except.ok.inj hAppend
      exact ih.insert _ _
  | transition h id hTarget now ih => exact Sound.keeps_transitionTo id hTarget now _ ih
  | setEnvelope h hKeeps ih =>
    refine ((Sound.ends_setEnvelope ih hKeeps).mono (fun _ _ hs => hs.1) ?_).after
    rintro _ _ ⟨-, rfl⟩
    exact ih
  | @retain r h policy now clock ih =>
    cases hDelete : policy.allowHardDelete with
    | true =>
      unfold RetentionPolicy.apply
      rw [hDelete, if_pos rfl]
      exact ih
    | false =>
      refine ((ends_apply hDelete now clock ih).mono (fun _ _ hs => hs.1) ?_).after
      exact fun _ _ hNever => hNever.elim

/-- What a pass of retention owes the contents it is given. -/
structure Retains (policy : RetentionPolicy) (now : Timestamp) (r r' : InMemoryRepository V)
    (ids : List CheckpointId) : Prop where
  perExecution : ∀ limit, policy.maxActivePerExecution = some limit → ∀ e,
    ((r'.listByExecution e false).length : Int) ≤ limit
  total : ∀ limit, policy.maxActiveTotal = some limit → ((r'.listAll false).length : Int) ≤ limit
  /-- The archived checkpoints, limit by limit: each is as old as what that limit keeps. -/
  oldest : ∃ byAge byExecution byTotal : List (Checkpoint V),
    ids = (byAge ++ byExecution ++ byTotal).map (·.checkpointId) ∧
    (∀ c ∈ byAge, ∀ d ∈ r'.listAll false, c.timestamp ≤ d.timestamp) ∧
    (∀ c ∈ byExecution, ∀ d ∈ r'.listAll false, d.executionId = c.executionId →
      c.timestamp ≤ d.timestamp) ∧
    ∀ c ∈ byTotal, ∀ d ∈ r'.listAll false, c.timestamp ≤ d.timestamp
  /-- Only what is archived stops being active. -/
  active : ∀ c, c ∈ r'.listAll false ↔ c ∈ r.listAll false ∧ c.checkpointId ∉ ids
  get : ∀ id, r'.get id = r.get id
  checksum : ∀ hashes id c, r.get id = .ok c → c.verifyChecksum hashes = true →
    ∃ c', r'.get id = .ok c' ∧ c'.verifyChecksum hashes = true

theorem Pass.retains {policy : RetentionPolicy} {now : Timestamp}
    {r r₁ r₂ r' : InMemoryRepository V} {ids : List CheckpointId}
    (h : Pass policy now r r₁ r₂ r' ids) (hLookup : ∀ id, r'.lookup id = r.lookup id)
    (hPerExecution : ∀ limit, policy.maxActivePerExecution = some limit → 0 ≤ limit)
    (hTotal : ∀ limit, policy.maxActiveTotal = some limit → 0 ≤ limit) :
    Retains policy now r r' ids := by
  have hGet : ∀ id, r'.get id = r.get id := fun id => by
    unfold InMemoryRepository.get
    rw [hLookup]
  refine ⟨fun limit hLimit => h.length_execution hLimit (hPerExecution limit hLimit),
    fun limit hLimit => h.length_total hLimit (hTotal limit hLimit),
    ⟨_, _, _, h.ids, fun c hc d hd => ?_, fun c hc d hd => h.perExecution_older hc hd,
      fun c hc d hd => h.total_older hc hd⟩, fun c => h.mem_iff, hGet, fun hashes id c hc hSum =>
    ⟨c, (hGet id).trans hc, hSum⟩⟩
  obtain ⟨maxAge, hMax, hLt⟩ := Option.any_eq_true _ _ |>.mp (List.mem_filter.mp hc).2
  have hNew := h.notAged hd hMax
  exact Int.le_of_lt (Int.lt_of_lt_of_le (of_decide_eq_true hLt) hNew)

/-- A checkpoint of the execution `ex`. -/
def checkpointAt (id : CheckpointId) (timestamp : Timestamp) : Checkpoint Unit :=
  { checkpointId := id, workflowId := "wf", executionId := "ex", timestamp, checksum := "",
    rest := () }

end Neuroswarm.Checkpoints
