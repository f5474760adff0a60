import Mathlib.Data.List.DropRight
import Neuroswarm.Armcascade.Types

/-!
# Case mappings and stripping

The string methods that the MCP modules compare hosts, tenants and variables with. The tables
behind `str.lower` and `str.upper` are a parameter, `Casing`, with what the two do to ASCII
text and where they treat a text letter by letter.
-/

namespace Neuroswarm.Mcp

open Armcascade (Text isSpace)

/-- A text of the source. It is compared letter by letter where it is evaluated only. -/
@[irreducible] def text (s : String) : Text := s.toList

def IsAscii (s : Text) : Prop := ∀ c ∈ s, c.toNat < 128

/-- `str.lower` and `str.upper`. -/
structure Casing where
  lower : Text → Text
  upper : Text → Text
  lower_ascii : ∀ s, IsAscii s → lower s = s.map Char.toLower
  -- a percent sign is neither a cased letter nor ignored next to one, so that the letters on its
  -- two sides do not matter to each other
  lower_percent : ∀ s t, lower (s ++ '%' :: t) = lower s ++ '%' :: lower t
  -- no other letter has one of these marks in its small form
  mem_lower : ∀ s, ∀ c ∈ ['%', '/'], c ∈ lower s → c ∈ s
  lower_dots : ∀ s, (∀ c ∈ lower s, c = '.') ↔ ∀ c ∈ s, c = '.'
  upper_append : ∀ s t, upper (s ++ t) = upper s ++ upper t

def strip (s : Text) : Text := (s.dropWhile isSpace).rdropWhile isSpace

/-- `s.rstrip(".")`. -/
def rstripDots (s : Text) : Text := s.rdropWhile (· == '.')

theorem toNat_toLower (c : Char) :
    c.toLower.toNat = if 65 ≤ c.toNat ∧ c.toNat ≤ 90 then c.toNat + 32 else c.toNat := by
  unfold Char.toLower
  have h65 : 'A'.val.toNat = 65 := rfl
  have h90 : 'Z'.val.toNat = 90 := rfl
  have h32 : ('a'.val - 'A'.val).toNat = 32 := rfl
  have hc : c.toNat = c.val.toNat := rfl
  split
  · next h =>
    have h1 : 65 ≤ c.toNat := UInt32.le_iff_toNat_le.mp h.1
    have h2 : c.toNat ≤ 90 := UInt32.le_iff_toNat_le.mp h.2
    rw [if_pos ⟨h1, h2⟩]
    show (c.val + ('a'.val - 'A'.val)).toNat = _
    rw [UInt32.toNat_add, h32]
    omega
  · next h =>
    rw [if_neg]
    rintro ⟨h1, h2⟩
    exact h ⟨UInt32.le_iff_toNat_le.mpr h1, UInt32.le_iff_toNat_le.mpr h2⟩

theorem eq_of_toLower {c x : Char} (hx : x.toNat < 65) : c.toLower = x ↔ c = x := by
  have hNat : ∀ d : Char, d = x ↔ d.toNat = x.toNat := fun d =>
    ⟨fun h => h ▸ rfl, fun h => Char.toNat_inj.mp h⟩
  rw [hNat, hNat, toNat_toLower]
  split
  · omega
  · rfl

/-- `(hostname or "").strip().lower().rstrip(".")`. -/
def Casing.normalise (casing : Casing) (hostname : Text) : Text :=
  rstripDots (casing.lower (strip hostname))

/-- The mapping of the ASCII letters alone. -/
def Casing.ascii : Casing where
  lower := List.map Char.toLower
  upper := List.map Char.toUpper
  lower_ascii := fun _ _ => rfl
  lower_percent := fun s t => List.map_append
  mem_lower := by
    intro s c hc hMem
    obtain ⟨d, hd, hLower⟩ := List.mem_map.mp hMem
    have hMark : c.toNat < 65 := by
      rcases List.mem_cons.mp hc with rfl | hc
      · decide
      · rw [List.mem_singleton.mp hc]
        decide
    rwa [← (eq_of_toLower hMark).mp hLower]
  lower_dots := by
    intro s
    have hDot : ∀ c : Char, c.toLower = '.' ↔ c = '.' := fun c => eq_of_toLower (by decide)
    simp only [List.mem_map, forall_exists_index, and_imp, forall_apply_eq_imp_iff₂, hDot]
  upper_append := fun s t => List.map_append

end Neuroswarm.Mcp
