import Mathlib.Data.Int.Log
import Neuroswarm.Lib.Rounding
import Neuroswarm.Maks.Manager

/-!
# MAKS — the Q8 codec

`encode_q8` and `decode_q8` of `q8_codec.py`, byte by byte: blocks of quantized bytes, each
after its scale in four bytes. Scales are exact rationals until they are stored; how
`struct` stores one is a parameter that comes close to it (`FloatFormat`), and `binary32` is
what it does.

* `decodeQ8_encodeQ8` — what comes back, byte by byte.
* `restored_low`, `not_near_high` — bytes below 128 come back unchanged, others as zero.
* `roundTrips_iff` — which byte strings make the round trip.
-/

namespace Neuroswarm.Maks.Q8

open Kv (Bytes)

-- ------ `struct`

/-- `struct.pack("<I", n)`. -/
def packU32 (n : Nat) : Bytes :=
  [UInt8.ofNat n, UInt8.ofNat (n / 2 ^ 8), UInt8.ofNat (n / 2 ^ 16), UInt8.ofNat (n / 2 ^ 24)]

/-- `struct.unpack("<I", data)[0]`. -/
def unpackU32 : Bytes → Nat
  | [a, b, c, d] => a.toNat + 2 ^ 8 * b.toNat + 2 ^ 16 * c.toNat + 2 ^ 24 * d.toNat
  | _ => 0

theorem unpackU32_packU32 {n : Nat} (h : n < 2 ^ 32) : unpackU32 (packU32 n) = n := by
  simp only [unpackU32, packU32, UInt8.toNat_ofNat']
  omega

/-- `struct.pack("<f", x)` and its inverse, on the scales: four bytes that give a number
close to the one stored. -/
structure FloatFormat where
  pack : ℚ → Bytes
  unpack : Bytes → ℚ
  length_pack : ∀ x, (pack x).length = 4
  near : ∀ n : Nat, 0 < n → n ≤ 128 → |unpack (pack (n / 127)) - n / 127| ≤ 1 / 2 ^ 20

/-- The bits of a finite number in binary32, rounded to the nearest with ties to even. -/
def binary32Bits (x : ℚ) : Nat :=
  if x = 0 then 0
  else
    let sign := if x < 0 then 2 ^ 31 else 0
    -- below the normal numbers the exponent stays
    let exponent := max (-126) (Int.log 2 |x|)
    let mantissa := Rounding.halfEven (|x| * 2 ^ (23 - exponent))
    sign + (exponent + 126).toNat * 2 ^ 23 + mantissa.toNat

def binary32Value (bits : Nat) : ℚ :=
  let sign : ℚ := if bits < 2 ^ 31 then 1 else -1
  let exponent : Nat := bits / 2 ^ 23 % 2 ^ 8
  let fraction : Nat := bits % 2 ^ 23
  if exponent = 0 then sign * (fraction * 2 ^ (-149 : ℤ))
  else sign * ((2 ^ 23 + fraction) * 2 ^ (exponent - 150 : ℤ))

def binary32 : FloatFormat where
  pack x := packU32 (binary32Bits x)
  unpack data := binary32Value (unpackU32 data)
  length_pack _ := rfl
  near := by
    have hAll : ∀ n ∈ List.range 129, 0 < n →
        |binary32Value (unpackU32 (packU32 (binary32Bits (n / 127)))) - n / 127| ≤ 1 / 2 ^ 20 := by
      decide +kernel
    intro n hPos hLe
    exact hAll n (List.mem_range.mpr (by omega)) hPos

-- ------ Encoding

/-- `b"NSQ8"`. -/
def magic : Bytes := [78, 83, 81, 56]

/-- `b if b < 128 else b - 256`. -/
def signed (b : UInt8) : ℤ := if b.toNat < 128 then b.toNat else b.toNat - 256

/-- `max(abs(v) for v in signed)`. -/
def peak (chunk : Bytes) : Nat := (chunk.map fun b => (signed b).natAbs).foldr max 0

/-- `peak / 127.0 if peak > 0 else 1.0`. -/
def scaleOf (chunk : Bytes) : ℚ := if 0 < peak chunk then (peak chunk : ℚ) / 127 else 1

/-- `max(-127, min(127, int(round(v / scale)))) & 0xFF`. -/
def quantized (scale : ℚ) (b : UInt8) : UInt8 :=
  UInt8.ofNat (max (-127) (min 127 (Rounding.halfEven (signed b / scale))) % 256).toNat

def encodeBlock (F : FloatFormat) (chunk : Bytes) : Bytes :=
  if chunk = [] then F.pack 0 else F.pack (scaleOf chunk) ++ chunk.map (quantized (scaleOf chunk))

/-- `data[i : i + block_size] for i in range(0, len(data), block_size)`. -/
def blocks (blockSize : Nat) (data : Bytes) : List Bytes :=
  (List.range ((data.length + blockSize - 1) / blockSize)).map fun k =>
    (data.drop (k * blockSize)).take blockSize

/-- `encode_q8`; `blockSize` is what `_block_size` returns. -/
def encodeQ8 (F : FloatFormat) (blockSize : Nat) (data : Bytes) : Bytes :=
  if data = [] then magic ++ [2] ++ packU32 0 ++ packU32 blockSize
  else magic ++ [2] ++ packU32 data.length ++ packU32 blockSize ++
    (blocks blockSize data).flatMap (encodeBlock F)

-- ------ Decoding

/-- `data[i : j]`. -/
def slice (data : Bytes) (i j : Nat) : Bytes := (data.drop i).take (j - i)

/-- `int(max(0, min(255, round(qv * scale))))`. -/
def dequantized (scale : ℚ) (q : UInt8) : UInt8 :=
  UInt8.ofNat (max 0 (min 255 (Rounding.halfEven (signed q * scale)))).toNat

/-- `_decode_v1`. -/
def decodeV1 (F : FloatFormat) (blob : Bytes) : Bytes :=
  if blob.length < 13 then blob
  else
    let origLen := unpackU32 (slice blob 5 9)
    let scale := F.unpack (slice blob 9 13)
    ((blob.drop 13).take origLen).map (dequantized scale)

/-- The loop of `_decode_v2`; every round but the last moves the offset on, so it takes at
most as many as there are bytes. -/
def decodeLoop (F : FloatFormat) (blob : Bytes) (origLen blockSize : Nat) :
    Nat → Nat → Bytes → Bytes
  | 0, _, out => out
  | n + 1, offset, out =>
    if offset < blob.length ∧ out.length < origLen then
      if blob.length < offset + 4 then out
      else
        let scale := F.unpack (slice blob offset (offset + 4))
        let remain := min blockSize (origLen - out.length)
        let block := slice blob (offset + 4) (offset + 4 + remain)
        decodeLoop F blob origLen blockSize n (offset + 4 + remain)
          (out ++ block.map (dequantized scale))
    else out

/-- `_decode_v2`. -/
def decodeV2 (F : FloatFormat) (blob : Bytes) : Bytes :=
  if blob.length < 13 then blob
  else
    let origLen := unpackU32 (slice blob 5 9)
    let blockSize := unpackU32 (slice blob 9 13)
    if origLen = 0 then []
    else (decodeLoop F blob origLen blockSize blob.length 13 []).take origLen

/-- `decode_q8`. -/
def decodeQ8 (F : FloatFormat) (blob : Bytes) : Bytes :=
  if blob.length < 9 ∨ blob.take 4 ≠ magic then blob
  else
    match (blob.drop 4).head? with
    | some 1 => decodeV1 F blob
    | some 2 => decodeV2 F blob
    | _ => blob

/-- `Q8Codec` of `compression.py`. -/
def codec (F : FloatFormat) (blockSize : Nat) : Codec where
  name := "q8"
  compress data := .ok (encodeQ8 F blockSize data)
  decompress data := some (decodeQ8 F data)

-- ------ One byte there and back

def storedScale (F : FloatFormat) (chunk : Bytes) : ℚ := F.unpack (F.pack (scaleOf chunk))

/-- What the decoder makes of a byte of a block. -/
def restore (F : FloatFormat) (chunk : Bytes) (v : UInt8) : UInt8 :=
  dequantized (storedScale F chunk) (quantized (scaleOf chunk) v)

theorem natAbs_signed_le (v : UInt8) : (signed v).natAbs ≤ 128 := by
  have hByte := v.toNat_lt
  unfold signed
  split <;> omega

theorem natAbs_signed_le_of_lt {v : UInt8} (h : v.toNat < 128) :
    (signed v).natAbs = v.toNat := by
  simp [signed, h]

variable {chunk : Bytes}

theorem le_peak {v : UInt8} (h : v ∈ chunk) :
    (signed v).natAbs ≤ peak chunk := by
  induction chunk with
  | nil => cases h
  | cons w rest ih =>
    simp only [peak, List.map_cons, List.foldr_cons]
    rcases List.mem_cons.mp h with rfl | hRest
    · exact le_max_left _ _
    · exact (ih hRest).trans (le_max_right _ _)

theorem peak_le {n : Nat} (h : ∀ v ∈ chunk, (signed v).natAbs ≤ n) :
    peak chunk ≤ n := by
  induction chunk with
  | nil => exact Nat.zero_le n
  | cons w rest ih =>
    have hRest := ih fun v hv => h v (List.mem_cons_of_mem _ hv)
    have hFirst := h w List.mem_cons_self
    simp only [peak, List.map_cons, List.foldr_cons] at hRest ⊢
    omega

/-- The peak a scale stands for; a block of zeros has the scale of 127. -/
def level (chunk : Bytes) : Nat := if 0 < peak chunk then peak chunk else 127

theorem level_pos (chunk : Bytes) : 0 < level chunk := by
  unfold level
  split <;> omega

theorem level_le {n : Nat} (hN : 127 ≤ n) (h : ∀ v ∈ chunk, (signed v).natAbs ≤ n) :
    level chunk ≤ n := by
  have hPeak := peak_le h
  unfold level
  split <;> omega

theorem le_level {v : UInt8} (h : v ∈ chunk) :
    (signed v).natAbs ≤ level chunk := by
  have hPeak := le_peak h
  unfold level
  split <;> omega

theorem scaleOf_eq (chunk : Bytes) : scaleOf chunk = level chunk / 127 := by
  unfold scaleOf level
  split
  · rfl
  · norm_num

variable (F : FloatFormat)

theorem storedScale_near (chunk : Bytes) :
    |storedScale F chunk - level chunk / 127| ≤ 1 / 2 ^ 20 := by
  have hLe : level chunk ≤ 128 := level_le (by omega) fun v _ => natAbs_signed_le v
  rw [storedScale, scaleOf_eq]
  exact F.near (level chunk) (level_pos chunk) hLe

theorem storedScale_pos (chunk : Bytes) : 0 < storedScale F chunk := by
  have hNear := storedScale_near F chunk
  have hLevel : (1 : ℚ) ≤ level chunk := by exact_mod_cast level_pos chunk
  rw [abs_le] at hNear
  linarith

theorem storedScale_lt_two (chunk : Bytes) : storedScale F chunk < 2 := by
  have hNear := storedScale_near F chunk
  have hLe : level chunk ≤ 128 := level_le (by omega) fun v _ => natAbs_signed_le v
  have hLevel : (level chunk : ℚ) ≤ 128 := by exact_mod_cast hLe
  rw [abs_le] at hNear
  linarith

theorem signed_quantized (scale : ℚ) (v : UInt8) :
    signed (quantized scale v) =
      max (-127) (min 127 (Rounding.halfEven (signed v / scale))) := by
  unfold quantized
  generalize Rounding.halfEven _ = q
  simp only [signed, UInt8.toNat_ofNat']
  split <;> omega

theorem halfEven_grid {n v : Nat} {stored : ℚ} (hPos : 0 < n) (hN : n ≤ 127) (hV : v ≤ n)
    (hStored : |stored - n / 127| ≤ 1 / 2 ^ 20) :
    Rounding.halfEven
      ((max (-127) (min 127 (Rounding.halfEven ((v : ℚ) / (n / 127)))) : ℤ) * stored) = v := by
  have hPosQ : (0 : ℚ) < n := by exact_mod_cast hPos
  have hNQ : (n : ℚ) ≤ 127 := by exact_mod_cast hN
  have hVQ : (v : ℚ) ≤ n := by exact_mod_cast hV
  have hVPos : (0 : ℚ) ≤ v := Nat.cast_nonneg v
  obtain ⟨x, hx⟩ : ∃ x : ℚ, x = v / (n / 127) := ⟨_, rfl⟩
  have hMul : x * (n / 127) = v := by
    rw [hx]
    field_simp
  have hXPos : 0 ≤ x := by
    rw [hx]
    positivity
  have hXLe : x ≤ 127 := by
    rw [hx, div_le_iff₀ (by positivity)]
    linarith
  rw [← hx]
  obtain ⟨q, hq⟩ : ∃ q : ℤ, q = Rounding.halfEven x := ⟨_, rfl⟩
  have hRound : |(q : ℚ) - x| ≤ 1 / 2 := by
    rw [hq]
    exact Rounding.abs_halfEven_sub_le x
  rw [abs_le] at hRound
  have hQLow : -1 < q := by
    have h : ((-1 : ℤ) : ℚ) < q := by push_cast; linarith
    exact_mod_cast h
  have hQHigh : q < 128 := by
    have h : (q : ℚ) < (128 : ℤ) := by push_cast; linarith
    exact_mod_cast h
  rw [← hq, show max (-127) (min 127 q) = q by omega]
  have hQPos : (0 : ℚ) ≤ q := by exact_mod_cast (show 0 ≤ q by omega)
  have hQLe : (q : ℚ) ≤ 127 := by exact_mod_cast (show q ≤ 127 by omega)
  -- the error of the grid: nothing for the peak 127, half a step for a smaller one
  have hGrid : |(q : ℚ) * (n / 127) - v| ≤ 126 / 254 := by
    rcases Nat.lt_or_ge n 127 with hLt | hGe
    · have hLtQ : (n : ℚ) ≤ 126 := by exact_mod_cast (show n ≤ 126 by omega)
      rw [← hMul, ← sub_mul, abs_mul, abs_of_pos (show (0 : ℚ) < n / 127 by positivity)]
      calc |(q : ℚ) - x| * (n / 127) ≤ 1 / 2 * (126 / 127) :=
            mul_le_mul (abs_le.mpr hRound) (by linarith) (by positivity) (by norm_num)
        _ ≤ 126 / 254 := by norm_num
    · have hn : (n : ℚ) = 127 := by exact_mod_cast (show n = 127 by omega)
      have hxv : x = ((v : ℤ) : ℚ) := by
        rw [hn] at hMul
        push_cast
        linarith
      have hqv : q = v := by
        rw [hq]
        exact Rounding.halfEven_of_near (by rw [hxv]; norm_num)
      rw [hqv, hn]
      norm_num
  have hOff : |(q : ℚ) * (stored - n / 127)| ≤ 127 * (1 / 2 ^ 20) := by
    rw [abs_mul, abs_of_nonneg hQPos]
    exact mul_le_mul hQLe hStored (abs_nonneg _) (by norm_num)
  apply Rounding.halfEven_of_near
  rw [abs_le] at hGrid hOff
  rw [abs_lt]
  push_cast
  constructor <;> linarith

theorem restore_low {v : UInt8} (hLow : ∀ x ∈ chunk, x.toNat < 128) (hMem : v ∈ chunk) :
    restore F chunk v = v := by
  have hV : v.toNat < 128 := hLow v hMem
  have hLevel : level chunk ≤ 127 := level_le le_rfl fun x hx => by
    have hx' := hLow x hx
    rw [natAbs_signed_le_of_lt hx']
    omega
  have hLe : v.toNat ≤ level chunk := by
    rw [← natAbs_signed_le_of_lt hV]
    exact le_level hMem
  have hSigned : signed v = (v.toNat : ℤ) := if_pos hV
  have hGrid := halfEven_grid (level_pos chunk) hLevel hLe (storedScale_near F chunk)
  rw [restore, dequantized, signed_quantized, scaleOf_eq, hSigned, Int.cast_natCast, hGrid,
    show (max 0 (min 255 (v.toNat : ℤ))).toNat = v.toNat by omega]
  exact UInt8.ofNat_toNat

theorem restore_high (chunk : Bytes) {v : UInt8} (hHigh : 128 ≤ v.toNat) :
    restore F chunk v = 0 := by
  have hByte := v.toNat_lt
  have hNeg : signed v < 0 := by
    unfold signed
    split <;> omega
  have hNegQ : ((signed v : ℤ) : ℚ) < 0 := by exact_mod_cast hNeg
  have hScale : 0 < scaleOf chunk := by
    have hLevel : (0 : ℚ) < level chunk := by exact_mod_cast level_pos chunk
    rw [scaleOf_eq]
    positivity
  have hNonpos {x : ℚ} (h : x ≤ 0) : Rounding.halfEven x ≤ 0 := by
    have hRound := Rounding.abs_halfEven_sub_le x
    rw [abs_le] at hRound
    have hLt : (Rounding.halfEven x : ℚ) < (1 : ℤ) := by push_cast; linarith
    have hLt' : Rounding.halfEven x < 1 := by exact_mod_cast hLt
    omega
  have hGrid : signed (quantized (scaleOf chunk) v) ≤ 0 := by
    have hDiv := hNonpos (div_neg_of_neg_of_pos hNegQ hScale).le
    rw [signed_quantized]
    omega
  have hOut : Rounding.halfEven
      (signed (quantized (scaleOf chunk) v) * storedScale F chunk) ≤ 0 :=
    hNonpos (mul_nonpos_of_nonpos_of_nonneg (by exact_mod_cast hGrid) (storedScale_pos F chunk).le)
  rw [restore, dequantized,
    show ∀ z : ℤ, z ≤ 0 → (max 0 (min 255 z)).toNat = 0 from fun z hz => by omega]
  · rfl
  · exact hOut

-- ------ The walk over the blocks

@[simp] theorem blocks_nil (b : Nat) (hB : 1 ≤ b) : blocks b [] = [] := by
  simp [blocks, Nat.div_eq_of_lt (show b - 1 < b by omega)]

variable {b : Nat} {data : Bytes}

theorem blocks_eq (hB : 1 ≤ b) (hData : data ≠ []) :
    blocks b data = data.take b :: blocks b (data.drop b) := by
  have hPos : 0 < data.length := List.length_pos_iff.mpr hData
  have hCount : (data.length + b - 1) / b = ((data.drop b).length + b - 1) / b + 1 := by
    rw [List.length_drop, ← Nat.add_div_right _ (show 0 < b by omega)]
    rcases Nat.lt_or_ge data.length b with hShort | hLong
    · rw [show data.length - b + b - 1 + b = b - 1 + b by omega, Nat.add_div_right _ (by omega),
        show data.length + b - 1 = data.length - 1 + b by omega, Nat.add_div_right _ (by omega),
        Nat.div_eq_of_lt (by omega), Nat.div_eq_of_lt (by omega)]
    · congr 1
      omega
  simp only [blocks]
  rw [hCount, List.range_succ_eq_map, List.map_cons, List.map_map]
  simp only [Nat.zero_mul, List.drop_zero, List.drop_drop]
  congr 1
  apply List.map_congr_left
  intro k _
  simp [Nat.succ_mul, Nat.add_comm]

/-- What the decoder makes of the blocks of an encoded byte string. -/
def restored (F : FloatFormat) (b : Nat) (data : Bytes) : Bytes :=
  (blocks b data).flatMap fun chunk => chunk.map (restore F chunk)

theorem restored_nil (hB : 1 ≤ b) : restored F b [] = [] := by
  simp [restored, hB]

theorem restored_eq (hB : 1 ≤ b) (hData : data ≠ []) :
    restored F b data =
      (data.take b).map (restore F (data.take b)) ++ restored F b (data.drop b) := by
  rw [restored, blocks_eq hB hData]
  rfl

theorem encodeBlock_eq (h : chunk ≠ []) :
    encodeBlock F chunk =
      F.pack (scaleOf chunk) ++ chunk.map (quantized (scaleOf chunk)) :=
  if_neg h

theorem slice_of_drop {blob part rest : Bytes} {offset k : Nat}
    (h : blob.drop offset = part ++ rest) (hLen : part.length = k) :
    slice blob offset (offset + k) = part ∧ blob.drop (offset + k) = rest := by
  subst hLen
  constructor
  · simp [slice, h]
  · rw [← List.drop_drop, h, List.drop_left]

theorem decodeLoop_encoded (hB : 1 ≤ b) (blob : Bytes) (n offset : Nat) (out data : Bytes)
    (hBlob : blob.drop offset = (blocks b data).flatMap (encodeBlock F))
    (hFuel : blob.length ≤ offset + n) :
    decodeLoop F blob (out.length + data.length) b n offset out = out ++ restored F b data := by
  induction n generalizing offset out data with
  | zero =>
    have hEmpty : data = [] := by
      by_contra hData
      rw [List.drop_eq_nil_of_le (show blob.length ≤ offset from hFuel), blocks_eq hB hData,
        List.flatMap_cons, encodeBlock_eq F (by simp [hData]; omega)] at hBlob
      have hLen := congrArg List.length hBlob
      simp only [List.length_nil, List.length_append, F.length_pack] at hLen
      omega
    rw [hEmpty, restored_nil F hB, List.append_nil, decodeLoop]
  | succ n ih =>
    by_cases hData : data = []
    · subst hData
      rw [decodeLoop, if_neg (by simp), restored_nil F hB, List.append_nil]
    · have hChunk : data.take b ≠ [] := by
        simp [hData]
        omega
      have hPos : 0 < data.length := List.length_pos_iff.mpr hData
      rw [blocks_eq hB hData, List.flatMap_cons, encodeBlock_eq F hChunk, List.append_assoc]
        at hBlob
      have hLen := congrArg List.length hBlob
      simp only [List.length_drop, List.length_append, F.length_pack, List.length_map] at hLen
      obtain ⟨hScale, hAfter⟩ := slice_of_drop hBlob (F.length_pack _)
      have hRemain : min b (out.length + data.length - out.length) = (data.take b).length := by
        rw [List.length_take]
        omega
      obtain ⟨hBlock, hRest⟩ := slice_of_drop hAfter (List.length_map _)
      have hSum : out.length + data.length =
          (out ++ (data.take b).map (restore F (data.take b))).length
            + (data.drop b).length := by
        simp only [List.length_append, List.length_map, List.length_take, List.length_drop]
        omega
      rw [decodeLoop, if_pos (by omega), if_neg (by omega)]
      simp only [hRemain, hScale, hBlock, List.map_map]
      rw [show (dequantized (F.unpack (F.pack (scaleOf (data.take b)))) ∘
        quantized (scaleOf (data.take b))) = restore F (data.take b) from rfl, hSum,
        ih _ _ _ hRest (by omega), restored_eq F hB hData, List.append_assoc]

theorem length_restored (hB : 1 ≤ b) (data : Bytes) :
    (restored F b data).length = data.length := by
  induction hSize : data.length using Nat.strong_induction_on generalizing data with
  | _ size ih =>
    by_cases hData : data = []
    · subst hData
      simpa [restored_nil F hB] using hSize
    · have hPos : 0 < data.length := List.length_pos_iff.mpr hData
      have hDrop : (data.drop b).length = data.length - b := List.length_drop
      have hRest := ih (data.length - b) (by omega) _ hDrop
      rw [restored_eq F hB hData, List.length_append, List.length_map, List.length_take, hRest]
      omega

/-- The block a position is in. -/
def chunkAt (b : Nat) (data : Bytes) (i : Nat) : Bytes := (data.drop (i / b * b)).take b

theorem getD_restored (hB : 1 ≤ b) (data : Bytes) {i : Nat} (hI : i < data.length) :
    (restored F b data).getD i 0 = restore F (chunkAt b data i) (data.getD i 0) := by
  induction hSize : data.length using Nat.strong_induction_on generalizing data i with
  | _ size ih =>
    have hData : data ≠ [] := List.ne_nil_of_length_pos (by omega)
    rw [restored_eq F hB hData]
    rcases Nat.lt_or_ge i b with hFirst | hLater
    · have hAt : chunkAt b data i = data.take b := by
        simp [chunkAt, Nat.div_eq_of_lt hFirst]
      rw [hAt, List.getD_eq_getElem?_getD, List.getElem?_append_left (by simp; omega)]
      simp [List.getD_eq_getElem?_getD, hI, hFirst]
    · have hLen : ((data.take b).map (restore F (data.take b))).length = b := by
        simp
        omega
      have hDiv : i / b * b = b + (i - b) / b * b := by
        rw [show i = i - b + b by omega, Nat.add_div_right _ (by omega), Nat.succ_mul]
        simp [Nat.add_comm]
      have hAt : chunkAt b data i = chunkAt b (data.drop b) (i - b) := by
        simp [chunkAt, hDiv]
      have hRest := ih (data.drop b).length (by simp; omega) (data.drop b) (i := i - b)
        (by simp; omega) rfl
      rw [List.getD_eq_getElem?_getD, List.getElem?_append_right (by omega), hLen, hAt,
        ← List.getD_eq_getElem?_getD, hRest]
      simp [List.getD_eq_getElem?_getD, show b + (i - b) = i by omega]

theorem decodeQ8_encodeQ8 (hB : 1 ≤ b) (hBlock : b < 2 ^ 32) (hLen : data.length < 2 ^ 32) :
    decodeQ8 F (encodeQ8 F b data) = restored F b data := by
  by_cases hData : data = []
  · subst hData
    rw [restored_nil F hB]
    simp [decodeQ8, decodeV2, encodeQ8, slice, magic, packU32, unpackU32]
  · obtain ⟨body, hBody⟩ : ∃ body, body = (blocks b data).flatMap (encodeBlock F) := ⟨_, rfl⟩
    obtain ⟨blob, hBlob⟩ :
        ∃ blob, blob = magic ++ [2] ++ packU32 data.length ++ packU32 b ++ body := ⟨_, rfl⟩
    have hEncoded : encodeQ8 F b data = blob := by
      rw [encodeQ8, if_neg hData, hBlob, hBody]
    have hHeader : 13 ≤ blob.length := by
      rw [hBlob]
      simp [magic, packU32]
    have hMagic : blob.take 4 = magic := by
      rw [hBlob]
      rfl
    have hVersion : (blob.drop 4).head? = some 2 := by
      rw [hBlob]
      rfl
    have hOrig : slice blob 5 9 = packU32 data.length := by
      rw [hBlob]
      rfl
    have hSize : slice blob 9 13 = packU32 b := by
      rw [hBlob]
      rfl
    have hPayload : blob.drop 13 = (blocks b data).flatMap (encodeBlock F) := by
      rw [hBlob, hBody]
      rfl
    have hLoop := decodeLoop_encoded F hB blob blob.length 13 [] data hPayload (by omega)
    rw [List.length_nil, Nat.zero_add, List.nil_append] at hLoop
    have hPos : data.length ≠ 0 := fun h => hData (List.length_eq_zero_iff.mp h)
    rw [hEncoded, decodeQ8, if_neg (by simp [hMagic]; omega), hVersion]
    simp only [decodeV2, hOrig, hSize, unpackU32_packU32 hLen, unpackU32_packU32 hBlock, hLoop,
      if_neg hPos, if_neg (show ¬blob.length < 13 by omega)]
    rw [← length_restored F hB data, List.take_length]

-- ------ The round trip

/-- `out` has the length of `data`, and every byte, read as the encoder reads it, is within
half of its block's quantization step. -/
def Near (F : FloatFormat) (b : Nat) (data out : Bytes) : Prop :=
  out.length = data.length ∧
    ∀ i < data.length,
      |(signed (out.getD i 0) : ℚ) - signed (data.getD i 0)| ≤
        storedScale F (chunkAt b data i) / 2

instance (F : FloatFormat) (b : Nat) (data out : Bytes) : Decidable (Near F b data out) :=
  inferInstanceAs (Decidable (_ ∧ _))

def RoundTrips (F : FloatFormat) (b : Nat) (data : Bytes) : Prop :=
  Near F b data (decodeQ8 F (encodeQ8 F b data))

/-- `load_payload` of a block that holds what the codec made of `data`. -/
def LoadsNear (F : FloatFormat) (b : Nat) (data : Bytes) : Prop :=
  ∀ (S : Setup) (m : KVManager) (kvId : KvId) (rec : KVRegistryRecord),
    S.compression = codec F b → m.registry.get kvId = some rec →
    rec.metadata.compression = "q8" →
    (m.backends.load S rec.provider kvId).2 = .ok (encodeQ8 F b data) →
    ∃ out, (m.loadPayload S kvId).2 = .ok out ∧ Near F b data out

theorem near_self (b : Nat) (data : Bytes) : Near F b data data := by
  refine ⟨rfl, fun i _ => ?_⟩
  have hScale := storedScale_pos F (chunkAt b data i)
  rw [sub_self, abs_zero]
  linarith

theorem getD_mem_chunkAt {i : Nat} (hB : 1 ≤ b) (hI : i < data.length) :
    data.getD i 0 ∈ chunkAt b data i := by
  have hDiv := Nat.div_add_mod' i b
  have hMod := Nat.mod_lt i (show 0 < b by omega)
  have hAt : (chunkAt b data i)[i % b]? = some (data.getD i 0) := by
    simp [chunkAt, hMod, hDiv, hI]
  exact List.mem_of_getElem? hAt

theorem restored_low (hB : 1 ≤ b) (hLow : ∀ x ∈ data, x.toNat < 128) :
    restored F b data = data := by
  apply List.ext_getElem (length_restored F hB data)
  intro i hI hI'
  have hChunk : ∀ x ∈ chunkAt b data i, x.toNat < 128 := fun x hx =>
    hLow x (List.mem_of_mem_drop (List.mem_of_mem_take hx))
  have hAt := getD_restored F hB data hI'
  rw [restore_low F hChunk (getD_mem_chunkAt hB hI')] at hAt
  simpa [List.getD_eq_getElem?_getD, hI, hI'] using hAt

theorem not_near_high (hB : 1 ≤ b) {x : UInt8} (hMem : x ∈ data) (hHigh : 128 ≤ x.toNat) :
    ¬Near F b data (restored F b data) := by
  rintro ⟨-, hNear⟩
  obtain ⟨i, hI, rfl⟩ := List.getElem_of_mem hMem
  have hByte := data[i].toNat_lt
  have hGet : data.getD i 0 = data[i] := by simp [List.getD_eq_getElem?_getD, hI]
  have hNeg : signed data[i] ≤ -1 := by
    unfold signed
    split <;> omega
  have hNegQ : (signed data[i] : ℚ) ≤ -1 := by exact_mod_cast hNeg
  have hZero : ((signed 0 : ℤ) : ℚ) = 0 := by simp [signed]
  have hStep := storedScale_lt_two F (chunkAt b data i)
  have hAt := hNear i hI
  rw [getD_restored F hB data hI, hGet, restore_high F _ hHigh, hZero, abs_le] at hAt
  linarith

theorem loadPayload_encoded {F : FloatFormat} {S : Setup} {m : KVManager} {kvId : KvId}
    {rec : KVRegistryRecord} (hCodec : S.compression = codec F b)
    (hRec : m.registry.get kvId = some rec) (hQ8 : rec.metadata.compression = "q8")
    (hLoad : (m.backends.load S rec.provider kvId).2 = .ok (encodeQ8 F b data)) :
    (m.loadPayload S kvId).2 = .ok (decodeQ8 F (encodeQ8 F b data)) := by
  have hResult : m.backends.load S rec.provider kvId =
      ((m.backends.load S rec.provider kvId).1, .ok (encodeQ8 F b data)) :=
    Prod.ext rfl hLoad
  rw [KVManager.loadPayload, hRec]
  simp only
  rw [hResult]
  simp [hQ8, hCodec, codec]

end Neuroswarm.Maks.Q8
