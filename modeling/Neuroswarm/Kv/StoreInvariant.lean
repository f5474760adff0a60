import Neuroswarm.Kv.BlockManager

/-!
# KV memory runtime — where the bytes of live blocks are

`StoreInv reg t next` relates a provider registry to a physical table: every
live block has bytes in its own tier under its own key, keys are not shared,
and no id or key from `next` on has been used. It holds of every reachable
manager (`Kv/Invariant.lean`).

* `deleteFromTiers_cases` — a release deletes at one tier at most.
* `Keyed` — the part of it that is about the table alone.
* `StoreInv.update`, `StoreInv.insert`, `StoreInv.drop` — the three ways a call
  changes the store: a live record and its bytes change in place, a fresh record
  is registered, a record goes with its last reference.
-/

namespace Neuroswarm.Kv

open KVBlockManager (releaseTiers deleteFromTiers)

-- ------ Releasing bytes

/-- **A release deletes at one tier at most.** Either no tier in the list that
answers has the key and nothing changes, or one tier that has it drops it. -/
theorem deleteFromTiers_cases (key : StableId) (tiers : List StorageTier)
    (reg : ProviderRegistry) :
    (deleteFromTiers key tiers reg = reg ∧
      ∀ t ∈ tiers, reg.online t = true → reg.content t key = none) ∨
    ∃ t ∈ tiers, reg.content t key ≠ none ∧
      reg.delete t key = .ok (deleteFromTiers key tiers reg) := by
  induction tiers with
  | nil => exact Or.inl ⟨rfl, fun _ ht => absurd ht (List.not_mem_nil)⟩
  | cons tier rest ih =>
    have hRest : reg.existsKey tier key ≠ .ok true →
        deleteFromTiers key (tier :: rest) reg = deleteFromTiers key rest reg := by
      intro hEx
      rw [deleteFromTiers]
      split
      · next h => exact absurd h hEx
      · rfl
    by_cases hEx : reg.existsKey tier key = .ok true
    · obtain ⟨hOn, hHas⟩ := ProviderRegistry.existsKey_spec.mp hEx
      obtain ⟨reg', hDel⟩ := ProviderRegistry.delete_ok hOn key
      refine Or.inr ⟨tier, List.mem_cons_self, ?_, ?_⟩
      · exact Option.isSome_iff_ne_none.mp hHas
      · rw [deleteFromTiers, hEx, hDel]
    · rw [hRest hEx]
      rcases ih with ⟨hEq, hNone⟩ | ⟨t, ht, hHas, hDel⟩
      · refine Or.inl ⟨hEq, fun t ht hOn => ?_⟩
        rcases List.mem_cons.mp ht with rfl | ht
        · by_contra hHas
          exact hEx (ProviderRegistry.existsKey_spec.mpr
            ⟨hOn, Option.isSome_iff_ne_none.mpr hHas⟩)
        · exact hNone t ht hOn
      · exact Or.inr ⟨t, List.mem_cons_of_mem _ ht, hHas, hDel⟩

theorem deleteFromTiers_online (key : StableId) (tiers : List StorageTier)
    (reg : ProviderRegistry) (t : StorageTier) :
    (deleteFromTiers key tiers reg).online t = reg.online t := by
  rcases deleteFromTiers_cases key tiers reg with ⟨hEq, -⟩ | ⟨t', -, -, hDel⟩
  · rw [hEq]
  · exact (ProviderRegistry.delete_spec hDel).1 t

theorem deleteFromTiers_content_ne {key k : StableId} (h : k ≠ key) (tiers : List StorageTier)
    (reg : ProviderRegistry) (t : StorageTier) :
    (deleteFromTiers key tiers reg).content t k = reg.content t k := by
  rcases deleteFromTiers_cases key tiers reg with ⟨hEq, -⟩ | ⟨t', -, -, hDel⟩
  · rw [hEq]
  · rw [(ProviderRegistry.delete_spec hDel).2 t k, if_neg fun hk => h hk.2]

theorem deleteFromTiers_content_none {key : StableId} {tiers : List StorageTier}
    {reg : ProviderRegistry} {t : StorageTier} (h : reg.content t key = none) :
    (deleteFromTiers key tiers reg).content t key = none := by
  rcases deleteFromTiers_cases key tiers reg with ⟨hEq, -⟩ | ⟨t', -, -, hDel⟩
  · rw [hEq, h]
  · rw [(ProviderRegistry.delete_spec hDel).2 t key]
    split
    · rfl
    · exact h

-- ------ Ids and keys

/-- Ids and keys of live blocks have been drawn, and no two blocks share one. -/
structure Keyed (t : PhysicalBlockTable) (next : Nat) : Prop where
  idLt : ∀ p r, t.get p = some r → p.uuid < next ∧ r.providerKey.uuid < next
  refPos : ∀ p r, t.get p = some r → 0 < r.refcount
  keyInj : ∀ p q r s, t.get p = some r → t.get q = some s →
    r.providerKey = s.providerKey → p = q
  /-- No block is stored under the id of another one. -/
  ownKey : ∀ p q r s, t.get p = some r → t.get q = some s → r.providerKey = q → p = q

namespace Keyed

variable {t : PhysicalBlockTable} {next next' : Nat} {p : StableId}
  {r r' : PhysicalBlockRecord}

theorem mono (h : Keyed t next) (hn : next ≤ next') : Keyed t next' where
  idLt p r hp := by
    have := h.idLt p r hp
    omega
  refPos := h.refPos
  keyInj := h.keyInj
  ownKey := h.ownKey

theorem get_none (h : Keyed t next) (hp : next ≤ p.uuid) : t.get p = none := by
  by_contra hSome
  obtain ⟨r, hr⟩ := Option.ne_none_iff_exists'.mp hSome
  have hLt := (h.idLt p r hr).1
  omega

theorem put (h : Keyed t next) (hp : t.get p = some r) (hId : r'.physicalId = r.physicalId)
    (hKey : r'.providerKey = r.providerKey) (hRef : 0 < r'.refcount) :
    Keyed (t.put r') next := by
  have hpid : r'.physicalId = p := by rw [hId, PhysicalBlockTable.get_physicalId hp]
  -- every record of the new table has the id and the key of one of the old table
  have hOld : ∀ q s, (t.put r').get q = some s →
      ∃ s₀, t.get q = some s₀ ∧ s.providerKey = s₀.providerKey ∧
        (s = s₀ ∨ s = r') := by
    intro q s hq
    rw [PhysicalBlockTable.get_put, hpid] at hq
    split at hq
    · next hqp =>
      obtain rfl := Option.some.inj hq
      exact ⟨r, hqp ▸ hp, hKey, Or.inr rfl⟩
    · exact ⟨s, hq, rfl, Or.inl rfl⟩
  constructor
  · intro q s hq
    obtain ⟨s₀, hq₀, hk, -⟩ := hOld q s hq
    rw [hk]
    exact h.idLt q s₀ hq₀
  · intro q s hq
    obtain ⟨s₀, hq₀, -, rfl | rfl⟩ := hOld q s hq
    · exact h.refPos q s hq₀
    · exact hRef
  · intro q q' s s' hq hq' hEq
    obtain ⟨s₀, hq₀, hk, -⟩ := hOld q s hq
    obtain ⟨s₀', hq₀', hk', -⟩ := hOld q' s' hq'
    exact h.keyInj q q' s₀ s₀' hq₀ hq₀' (by rw [← hk, ← hk', hEq])
  · intro q q' s s' hq hq' hEq
    obtain ⟨s₀, hq₀, hk, -⟩ := hOld q s hq
    obtain ⟨s₀', hq₀', -⟩ := hOld q' s' hq'
    exact h.ownKey q q' s₀ s₀' hq₀ hq₀' (by rw [← hk, hEq])

theorem insert (h : Keyed t next)
    (hId : next ≤ r.physicalId.uuid ∧ r.physicalId.uuid < next')
    (hKey : next ≤ r.providerKey.uuid ∧ r.providerKey.uuid < next')
    (hRef : 0 < r.refcount) : Keyed (t.insert r) next' := by
  have hOld : ∀ q s, (t.insert r).get q = some s →
      (q = r.physicalId ∧ s = r) ∨ (q ≠ r.physicalId ∧ t.get q = some s) := by
    intro q s hq
    rw [PhysicalBlockTable.get_insert] at hq
    split at hq
    · next hqp => exact Or.inl ⟨hqp, (Option.some.inj hq).symm⟩
    · next hqp => exact Or.inr ⟨hqp, hq⟩
  constructor
  · intro q s hq
    rcases hOld q s hq with ⟨rfl, rfl⟩ | ⟨-, hq⟩
    · exact ⟨hId.2, hKey.2⟩
    · have := h.idLt q s hq
      omega
  · intro q s hq
    rcases hOld q s hq with ⟨-, rfl⟩ | ⟨-, hq⟩
    · exact hRef
    · exact h.refPos q s hq
  · intro q q' s s' hq hq' hEq
    rcases hOld q s hq with ⟨rfl, rfl⟩ | ⟨-, hqOld⟩ <;>
      rcases hOld q' s' hq' with ⟨rfl, rfl⟩ | ⟨-, hqOld'⟩
    · rfl
    · have := (h.idLt q' s' hqOld').2
      rw [← hEq] at this
      omega
    · have := (h.idLt q s hqOld).2
      rw [hEq] at this
      omega
    · exact h.keyInj q q' s s' hqOld hqOld' hEq
  · intro q q' s s' hq hq' hEq
    rcases hOld q s hq with ⟨rfl, rfl⟩ | ⟨-, hqOld⟩ <;>
      rcases hOld q' s' hq' with ⟨rfl, rfl⟩ | ⟨-, hqOld'⟩
    · rfl
    · have := (h.idLt q' s' hqOld').1
      rw [← hEq] at this
      omega
    · have := (h.idLt q s hqOld).2
      rw [hEq] at this
      omega
    · exact h.ownKey q q' s s' hqOld hqOld' hEq

theorem remove (h : Keyed t next) (r : PhysicalBlockRecord) : Keyed (t.remove r) next := by
  have hOld : ∀ q s, (t.remove r).get q = some s → t.get q = some s := by
    intro q s hq
    rw [PhysicalBlockTable.get_remove] at hq
    split at hq
    · exact absurd hq (by simp)
    · exact hq
  exact ⟨fun q s hq => h.idLt q s (hOld q s hq), fun q s hq => h.refPos q s (hOld q s hq),
    fun q q' s s' hq hq' => h.keyInj q q' s s' (hOld q s hq) (hOld q' s' hq'),
    fun q q' s s' hq hq' => h.ownKey q q' s s' (hOld q s hq) (hOld q' s' hq')⟩

theorem release (h : Keyed t next) (hp : t.get p = some r) :
    Keyed (t.release p).2 next ∧ (∀ q, q ≠ p → (t.release p).2.get q = t.get q) ∧
      ∀ q, (t.release p).2.refs q = t.refs q - if q = p then 1 else 0 := by
  have hId := PhysicalBlockTable.get_physicalId hp
  have hRefs := PhysicalBlockTable.refs_of_get hp
  rcases PhysicalBlockTable.release_cases hp (h.refPos p r hp) with ⟨hOne, hRel⟩ | ⟨hMore, hRel⟩
  · rw [hRel]
    refine ⟨h.remove r, fun q hq => ?_, fun q => ?_⟩
    · rw [PhysicalBlockTable.get_remove, hId, if_neg hq]
    · rw [PhysicalBlockTable.refs_remove, hId]
      split
      · next hq => rw [hq, hRefs, hOne]
      · rfl
  · rw [hRel]
    refine ⟨h.put hp rfl rfl (Nat.sub_pos_of_lt hMore), fun q hq => ?_, fun q => ?_⟩
    · rw [PhysicalBlockTable.get_put, hId, if_neg hq]
    · rw [PhysicalBlockTable.refs_put, hId]
      split
      · next hq => rw [hq, hRefs]
      · rfl

theorem empty (next : Nat) : Keyed .empty next where
  idLt p r hp := by simp at hp
  refPos p r hp := by simp at hp
  keyInj p q r s hp := by simp at hp
  ownKey p q r s hp := by simp at hp

end Keyed

-- ------ The invariant

/-- Every live block has its bytes, under a key of its own. -/
structure StoreInv (reg : ProviderRegistry) (t : PhysicalBlockTable) (next : Nat) : Prop
    extends Keyed t next where
  l1 : reg.online .l1Ram = true
  /-- Only the tiers that a release walks are ever registered. -/
  registered : ∀ tier, reg.online tier = true → tier ∈ releaseTiers
  contentLt : ∀ tier k, next ≤ k.uuid → reg.content tier k = none
  stored : ∀ p r, t.get p = some r →
    reg.online r.tier = true ∧ reg.content r.tier r.providerKey ≠ none

namespace StoreInv

variable {reg reg' : ProviderRegistry} {t : PhysicalBlockTable} {next next' : Nat}

theorem mono (h : StoreInv reg t next) (hn : next ≤ next') : StoreInv reg t next' where
  toKeyed := h.toKeyed.mono hn
  l1 := h.l1
  registered := h.registered
  contentLt tier k hk := h.contentLt tier k (by omega)
  stored := h.stored

theorem get_ok (h : StoreInv reg t next) {p : StableId} {r : PhysicalBlockRecord}
    (hp : t.get p = some r) :
    ∃ data, reg.content r.tier r.providerKey = some data ∧
      reg.get r.tier r.providerKey = .ok data := by
  obtain ⟨hOn, hHas⟩ := h.stored p r hp
  obtain ⟨data, hData⟩ := Option.ne_none_iff_exists'.mp hHas
  exact ⟨data, hData, ProviderRegistry.get_eq_ok_iff.mpr ⟨hOn, hData⟩⟩

/-- **A live record changes in place**: its counters, its tier, its bytes, but
neither its id nor its key. -/
theorem update (h : StoreInv reg t next) {p : StableId} {r r' : PhysicalBlockRecord}
    (hp : t.get p = some r) (hId : r'.physicalId = r.physicalId)
    (hKey : r'.providerKey = r.providerKey) (hRef : 0 < r'.refcount)
    (hOn : ∀ tier, reg'.online tier = reg.online tier)
    (hContent : ∀ tier k, k ≠ r.providerKey → reg'.content tier k = reg.content tier k)
    (hStored : reg'.online r'.tier = true ∧ reg'.content r'.tier r'.providerKey ≠ none) :
    StoreInv reg' (t.put r') next where
  toKeyed := h.toKeyed.put hp hId hKey hRef
  l1 := by rw [hOn]; exact h.l1
  registered tier := by rw [hOn]; exact h.registered tier
  contentLt tier k hk := by
    have hne : k ≠ r.providerKey := by
      rintro rfl
      have := (h.idLt p r hp).2
      omega
    rw [hContent tier k hne]
    exact h.contentLt tier k hk
  stored q s hq := by
    rw [PhysicalBlockTable.get_put, hId, PhysicalBlockTable.get_physicalId hp] at hq
    split at hq
    · rw [← Option.some.inj hq]
      exact hStored
    · next hqp =>
      have hKeyNe : s.providerKey ≠ r.providerKey := fun hk => hqp (h.keyInj q p s r hq hp hk)
      rw [hOn, hContent _ _ hKeyNe]
      exact h.stored q s hq

theorem restamp (h : StoreInv reg t next) {p : StableId} {r r' : PhysicalBlockRecord}
    (hp : t.get p = some r) (hId : r'.physicalId = r.physicalId)
    (hKey : r'.providerKey = r.providerKey) (hTier : r'.tier = r.tier)
    (hRef : 0 < r'.refcount) : StoreInv reg (t.put r') next :=
  h.update hp hId hKey hRef (fun _ => rfl) (fun _ _ _ => rfl)
    (by rw [hTier, hKey]; exact h.stored p r hp)

/-- **A fresh record is registered** with its bytes under a fresh key. -/
theorem insert (h : StoreInv reg t next) {r : PhysicalBlockRecord}
    (hId : next ≤ r.physicalId.uuid ∧ r.physicalId.uuid < next')
    (hKey : next ≤ r.providerKey.uuid ∧ r.providerKey.uuid < next')
    (hRef : 0 < r.refcount)
    (hOn : ∀ tier, reg'.online tier = reg.online tier)
    (hContent : ∀ tier k, k ≠ r.providerKey → reg'.content tier k = reg.content tier k)
    (hStored : reg'.online r.tier = true ∧ reg'.content r.tier r.providerKey ≠ none) :
    StoreInv reg' (t.insert r) next' where
  toKeyed := h.toKeyed.insert hId hKey hRef
  l1 := by rw [hOn]; exact h.l1
  registered tier := by rw [hOn]; exact h.registered tier
  contentLt tier k hk := by
    have hne : k ≠ r.providerKey := by
      rintro rfl
      omega
    rw [hContent tier k hne]
    exact h.contentLt tier k (by omega)
  stored q s hq := by
    rw [PhysicalBlockTable.get_insert] at hq
    split at hq
    · rw [← Option.some.inj hq]
      exact hStored
    · have hne : s.providerKey ≠ r.providerKey := by
        intro hEq
        have := (h.idLt q s hq).2
        rw [hEq] at this
        omega
      rw [hOn, hContent _ _ hne]
      exact h.stored q s hq

/-- **A record goes with its last reference**: the bytes under its id are
deleted wherever the release finds them first. -/
theorem drop (h : StoreInv reg t next) {p : StableId} {r : PhysicalBlockRecord}
    (hp : t.get p = some r) :
    StoreInv (deleteFromTiers p releaseTiers reg) (t.remove r) next where
  toKeyed := h.toKeyed.remove r
  l1 := by rw [deleteFromTiers_online]; exact h.l1
  registered tier := by rw [deleteFromTiers_online]; exact h.registered tier
  contentLt tier k hk := by
    have hne : k ≠ p := by
      rintro rfl
      have := (h.idLt k r hp).1
      omega
    rw [deleteFromTiers_content_ne hne]
    exact h.contentLt tier k hk
  stored q s hq := by
    rw [PhysicalBlockTable.get_remove, PhysicalBlockTable.get_physicalId hp] at hq
    split at hq
    · exact absurd hq (by simp)
    · next hqp =>
      have hne : s.providerKey ≠ p := fun hEq => hqp (h.ownKey q p s r hq hp hEq)
      rw [deleteFromTiers_online, deleteFromTiers_content_ne hne]
      exact h.stored q s hq

theorem new (cfg : KvConfig) :
    StoreInv (buildDefaultProviders cfg.toProviderConfig) .empty 0 where
  toKeyed := .empty 0
  l1 := buildDefaultProviders_online _
  registered tier h := by
    revert h
    cases hl : cfg.lmdbInstalled <;> cases tier <;>
      simp [buildDefaultProviders, hl, releaseTiers] <;> rfl
  contentLt tier k _ := buildDefaultProviders_content _ tier k
  stored p r hp := by simp at hp

end StoreInv

end Neuroswarm.Kv
