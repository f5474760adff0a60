import Mathlib.Data.List.Induction
import Neuroswarm.Lib.Dict

/-!
# Dictionaries replayed from a journal

A journal is a list of entries that is only ever appended to; replayed, it gives a
dictionary in which the last entry of a key counts and a key keeps the place of its
first one.

* `replay_concat` — an entry that is appended is a write.
* `get?_foldl_set_replay` — a journal replayed over a dictionary.
* `replay_entries` — a dictionary is the replay of its entries.
* `replay_of_forall₂` — a journal that follows a dictionary entry by entry.
* `Consistent` — no key is written with two values; `replay_faithful_iff`.
* `mapM_concat` — reading a journal with one more line.
-/

namespace Dict

variable {K V : Type*} [DecidableEq K]

/-- The dictionary that a journal gives. -/
def replay (l : List (K × V)) : Dict K V := l.foldl (fun d e => d.set e.1 e.2) empty

@[simp] theorem replay_nil : replay ([] : List (K × V)) = empty := rfl

theorem replay_concat (l : List (K × V)) (e : K × V) :
    replay (l ++ [e]) = (replay l).set e.1 e.2 := by
  simp [replay]

theorem get?_foldl_set_replay (l : List (K × V)) (d : Dict K V) (k : K) :
    (l.foldl (fun d e => d.set e.1 e.2) d).get? k = ((replay l).get? k).or (d.get? k) := by
  induction l using List.reverseRecOn with
  | nil => simp
  | append_singleton l e ih =>
    rw [List.foldl_append, replay_concat, get?_set]
    show (Dict.set _ e.1 e.2).get? k = _
    rw [get?_set, ih]
    split
    · rfl
    · rfl

theorem mem_of_get?_replay {l : List (K × V)} {k : K} {v : V} (h : (replay l).get? k = some v) :
    (k, v) ∈ l := by
  induction l using List.reverseRecOn with
  | nil => simp at h
  | append_singleton l e ih =>
    rw [replay_concat, get?_set] at h
    split at h
    · next hKey =>
      cases h
      simp [hKey]
    · exact List.mem_append_left _ (ih h)

theorem isSome_get?_replay {l : List (K × V)} {k : K} :
    ((replay l).get? k).isSome ↔ k ∈ l.map Prod.fst := by
  induction l using List.reverseRecOn with
  | nil => simp
  | append_singleton l e ih =>
    rw [replay_concat, get?_set, List.map_append, List.mem_append, ← ih]
    split
    · next hKey => simp [hKey]
    · next hKey => simp [hKey]

theorem entries_foldl_set (after : List (K × V)) (d : Dict K V)
    (h : ((d.entries ++ after).map Prod.fst).Nodup) :
    (after.foldl (fun d e => d.set e.1 e.2) d).entries = d.entries ++ after := by
  induction after generalizing d with
  | nil => simp
  | cons e after ih =>
    have hNew : e.1 ∉ d.entries.map Prod.fst := by
      rw [List.map_append, List.nodup_append] at h
      exact fun hMem => h.2.2 e.1 hMem e.1 (by simp) rfl
    have hSet : (d.set e.1 e.2).entries = d.entries ++ [e] := setEntry_of_notMem e.2 hNew
    have hAppend : d.entries ++ e :: after = (d.set e.1 e.2).entries ++ after := by simp [hSet]
    rw [List.foldl_cons, ih (d.set e.1 e.2) (hAppend ▸ h), hAppend]

theorem replay_entries (d : Dict K V) : replay d.entries = d := by
  have hEntries : (replay d.entries).entries = d.entries :=
    entries_foldl_set d.entries empty d.nodup
  cases hReplay : replay d.entries with
  | mk entries nodup =>
    rw [hReplay] at hEntries
    cases d
    cases hEntries
    rfl

theorem exists_of_forall₂ {α β : Type*} {R : α → β → Prop} {l : List α} {l' : List β}
    (h : List.Forall₂ R l l') : ∀ a ∈ l, ∃ b ∈ l', R a b := by
  induction h with
  | nil => exact fun a ha => absurd ha List.not_mem_nil
  | cons hHead _ ih =>
    intro a ha
    rcases List.mem_cons.mp ha with rfl | ha
    · exact ⟨_, List.mem_cons_self, hHead⟩
    · obtain ⟨b, hb, hRel⟩ := ih a ha
      exact ⟨b, List.mem_cons_of_mem _ hb, hRel⟩

theorem replay_of_forall₂ {W : Type*} {d : Dict K V} {l : List (K × W)} {R : V → W → Prop}
    (h : List.Forall₂ (fun e p => p.1 = e.1 ∧ R e.2 p.2) d.entries l) :
    (replay l).keys = d.keys ∧
      ∀ k v, d.get? k = some v → ∃ w, (replay l).get? k = some w ∧ R v w := by
  have hKeys : l.map Prod.fst = d.keys := by
    unfold keys
    refine (List.forall₂_eq_eq_eq ▸ ?_ : d.entries.map Prod.fst = l.map Prod.fst).symm
    rw [List.forall₂_map_left_iff, List.forall₂_map_right_iff]
    exact h.imp fun e p hEntry => hEntry.1.symm
  have hNodup : (l.map Prod.fst).Nodup := hKeys ▸ d.nodup
  have hEntries : (replay l).entries = l := entries_foldl_set l empty hNodup
  constructor
  · rw [← hKeys]
    unfold keys
    rw [hEntries]
  · intro k v hGet
    have hMem : (k, v) ∈ d.entries := mem_entries_iff.mpr hGet
    obtain ⟨p, hp, hKey, hRel⟩ := exists_of_forall₂ h (k, v) hMem
    refine ⟨p.2, mem_entries_iff.mp ?_, hRel⟩
    rw [hEntries, ← show p.1 = k from hKey]
    exact hp

/-- Nobody writes a key with another value. -/
def Consistent (l : List (K × V)) : Prop := ∀ e ∈ l, ∀ e' ∈ l, e.1 = e'.1 → e.2 = e'.2

theorem replay_faithful_iff {l : List (K × V)} :
    (∀ e ∈ l, (replay l).get? e.1 = some e.2) ↔ Consistent l := by
  constructor
  · intro hFound e he e' he' hKey
    have hBoth := (hFound e he).symm.trans (hKey ▸ hFound e' he')
    exact Option.some.inj hBoth
  · intro hConsistent e he
    obtain ⟨v, hv⟩ := Option.isSome_iff_exists.mp
      (isSome_get?_replay.mpr (List.mem_map_of_mem he))
    rw [hv, hConsistent e he (e.1, v) (mem_of_get?_replay hv) rfl]

theorem consistent_concat {l : List (K × V)} (h : Consistent l) (k : K) (v : V) :
    Consistent (l ++ [(k, v)]) ↔ ∀ w, (replay l).get? k = some w → w = v := by
  constructor
  · intro hAll w hw
    exact hAll (k, w) (List.mem_append_left _ (mem_of_get?_replay hw)) (k, v) (by simp) rfl
  · intro hNew
    have hOld : ∀ e ∈ l, e.1 = k → e.2 = v := fun e he hKey =>
      hNew e.2 (hKey ▸ replay_faithful_iff.mpr h e he)
    intro e he e' he' hKey
    rcases List.mem_append.mp he with he | he
    · rcases List.mem_append.mp he' with he' | he'
      · exact h e he e' he' hKey
      · rw [List.mem_singleton.mp he'] at hKey ⊢
        exact hOld e he hKey
    · rw [List.mem_singleton.mp he] at hKey ⊢
      rcases List.mem_append.mp he' with he' | he'
      · exact (hOld e' he' hKey.symm).symm
      · rw [List.mem_singleton.mp he']

theorem set_of_get? {d : Dict K V} {k : K} {v : V} (h : d.get? k = some v) : d.set k v = d := by
  obtain ⟨before, after, hEntries⟩ := List.append_of_mem (mem_entries_iff.mpr h)
  have hSame : (d.set k v).entries = d.entries := (entries_set_of_entries hEntries v).trans hEntries.symm
  cases hSet : d.set k v with
  | mk entries nodup =>
    rw [hSet] at hSame
    cases d
    cases hSame
    rfl

theorem values_set_eq_iff {d : Dict K V} {k : K} {v : V} (h : d.get? k = some v) (w : V) :
    (d.set k w).values = d.values ↔ w = v := by
  obtain ⟨before, after, hEntries⟩ := List.append_of_mem (mem_entries_iff.mpr h)
  unfold values
  rw [entries_set_of_entries hEntries, hEntries]
  simp

end Dict

namespace Option

variable {α β γ : Type*} {f : α → Option β} {l : List α} {a : α} {bs bs' : List β}

theorem mapM_concat :
    (l ++ [a]).mapM f = some bs ↔
      ∃ bs' b, l.mapM f = some bs' ∧ f a = some b ∧ bs = bs' ++ [b] := by
  rw [List.mapM_append]
  simp only [List.mapM_cons, List.mapM_nil, Option.pure_def, Option.bind_eq_bind,
    Option.bind_eq_some_iff, Option.some.injEq]
  constructor
  · rintro ⟨bs', hLoad, _, ⟨b, hb, _, rfl, rfl⟩, rfl⟩
    exact ⟨bs', b, hLoad, hb, rfl⟩
  · rintro ⟨bs', b, hLoad, hb, rfl⟩
    exact ⟨bs', hLoad, [b], ⟨b, hb, [], rfl, rfl⟩, rfl⟩

theorem mapM_concat_iff (h : l.mapM f = some bs) :
    (l ++ [a]).mapM f = some bs' ↔ ∃ b, f a = some b ∧ bs' = bs ++ [b] := by
  rw [mapM_concat]
  constructor
  · rintro ⟨_, b, hLoad, hb, rfl⟩
    cases h.symm.trans hLoad
    exact ⟨b, hb, rfl⟩
  · rintro ⟨b, hb, rfl⟩
    exact ⟨bs, b, h, hb, rfl⟩

theorem map_of_mapM {g : α → γ} {g' : β → γ} (hf : ∀ a b, f a = some b → g' b = g a)
    (h : l.mapM f = some bs) : bs.map g' = l.map g := by
  induction l using List.reverseRecOn generalizing bs with
  | nil =>
    cases h
    rfl
  | append_singleton l a ih =>
    obtain ⟨bs', b, hLoad, hb, rfl⟩ := mapM_concat.mp h
    rw [List.map_append, List.map_append, ih hLoad, List.map_singleton, List.map_singleton, hf a b hb]

end Option
