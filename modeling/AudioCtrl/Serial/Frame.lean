import Mathlib.Data.List.Basic
import Mathlib.Data.Nat.Bitwise
import Mathlib.Tactic

/-!
# The slider frame `0ccc dddd 10dd dddd`

The device packs a slider index and a 10 bit value into two bytes, the host
unpacks two bytes it has checked by their top bits only. Both sides are written
with the shifts and masks of their own program; the lemmas restate them in
arithmetic and prove that the host undoes what the device does.
-/

namespace AudioCtrl.Serial

/-- One slider reading as the device sends it. -/
structure Frame where
  slider : ℕ
  value : ℕ
  slider_lt : slider < 6
  value_lt : value < 1024
  deriving DecidableEq, Repr

namespace Frame

def pair (f : Frame) : ℕ × ℕ := (f.slider, f.value)

/-- `buffer[0] = ((i & 0b111) << 4) | ((value >> 6) & 0b1111)`, stored in a byte. -/
def byte0 (f : Frame) : UInt8 :=
  UInt8.ofNat (((f.slider &&& 0b111) <<< 4) ||| ((f.value >>> 6) &&& 0b1111))

/-- `buffer[1] = 0b10000000 | (value & 0b111111)`, stored in a byte. -/
def byte1 (f : Frame) : UInt8 :=
  UInt8.ofNat (0b10000000 ||| (f.value &&& 0b111111))

def bytes (f : Frame) : List UInt8 := [f.byte0, f.byte1]

end Frame

def frameBytes (fs : List Frame) : List UInt8 := fs.flatMap Frame.bytes

/-- The host's check `(buffer[0] >> 7) != 0 || buffer[1] >> 7 != 1`. -/
def rejects (b0 b1 : UInt8) : Bool := (b0.toNat >>> 7 != 0) || (b1.toNat >>> 7 != 1)

/-- `slider = (buffer[0] >> 4) & 0b111`. -/
def sliderOf (b0 : UInt8) : ℕ := (b0.toNat >>> 4) &&& 0b111

/-- `value = ((buffer[0] & 0b1111) << 6) | (buffer[1] & 0b111111)`. -/
def valueOf (b0 b1 : UInt8) : ℕ := ((b0.toNat &&& 0b1111) <<< 6) ||| (b1.toNat &&& 0b111111)

/-! ## The packing in arithmetic -/

theorem and_three_bits (n : ℕ) : n &&& 0b111 = n % 8 := Nat.and_two_pow_sub_one_eq_mod n 3

theorem and_four_bits (n : ℕ) : n &&& 0b1111 = n % 16 := Nat.and_two_pow_sub_one_eq_mod n 4

theorem and_six_bits (n : ℕ) : n &&& 0b111111 = n % 64 := Nat.and_two_pow_sub_one_eq_mod n 6

theorem rejects_eq_false_iff (b0 b1 : UInt8) :
    rejects b0 b1 = false ↔ b0.toNat < 128 ∧ 128 ≤ b1.toNat := by
  have h0 := b0.toNat_lt
  have h1 := b1.toNat_lt
  simp only [rejects, Bool.or_eq_false_iff, bne_eq_false_iff_eq, Nat.shiftRight_eq_div_pow]
  omega

theorem sliderOf_eq (b0 : UInt8) : sliderOf b0 = b0.toNat / 16 % 8 := by
  rw [sliderOf, and_three_bits, Nat.shiftRight_eq_div_pow]

theorem valueOf_eq (b0 b1 : UInt8) : valueOf b0 b1 = b0.toNat % 16 * 64 + b1.toNat % 64 := by
  have hlow : b1.toNat % 64 < 2 ^ 6 := Nat.mod_lt _ (by decide)
  rw [valueOf, and_four_bits, and_six_bits, ← Nat.shiftLeft_add_eq_or_of_lt hlow,
    Nat.shiftLeft_eq]

namespace Frame

variable (f : Frame)

theorem byte0_toNat : f.byte0.toNat = f.slider * 16 + f.value / 64 := by
  have hs := f.slider_lt
  have hv := f.value_lt
  have hlow : f.value / 2 ^ 6 % 16 < 2 ^ 4 := Nat.mod_lt _ (by decide)
  rw [byte0, and_three_bits, and_four_bits, Nat.shiftRight_eq_div_pow,
    ← Nat.shiftLeft_add_eq_or_of_lt hlow, Nat.shiftLeft_eq, UInt8.toNat_ofNat']
  omega

theorem byte1_toNat : f.byte1.toNat = 128 + f.value % 64 := by
  have hlow : f.value % 64 < 2 ^ 7 := (Nat.mod_lt _ (by decide)).trans (by decide)
  have hor : 2 ^ 7 * 1 + f.value % 64 = 128 ||| f.value % 64 :=
    Nat.two_pow_add_eq_or_of_lt hlow 1
  rw [byte1, and_six_bits, UInt8.toNat_ofNat']
  omega

theorem byte0_lt : f.byte0.toNat < 128 := by
  have hs := f.slider_lt
  have hv := f.value_lt
  rw [byte0_toNat]
  omega

theorem byte1_ge : 128 ≤ f.byte1.toNat := by
  rw [byte1_toNat]
  omega

theorem accepted : rejects f.byte0 f.byte1 = false :=
  (rejects_eq_false_iff _ _).mpr ⟨f.byte0_lt, f.byte1_ge⟩

@[simp] theorem sliderOf_byte0 : sliderOf f.byte0 = f.slider := by
  have hs := f.slider_lt
  have hv := f.value_lt
  rw [sliderOf_eq, byte0_toNat]
  omega

@[simp] theorem valueOf_bytes : valueOf f.byte0 f.byte1 = f.value := by
  have hs := f.slider_lt
  have hv := f.value_lt
  rw [valueOf_eq, byte0_toNat, byte1_toNat]
  omega

end Frame

/-! ## Where the bytes of a frame sequence lie -/

@[simp] theorem frameBytes_nil : frameBytes [] = [] := rfl

@[simp] theorem frameBytes_cons (f : Frame) (fs : List Frame) :
    frameBytes (f :: fs) = f.byte0 :: f.byte1 :: frameBytes fs := rfl

@[simp] theorem frameBytes_append (fs gs : List Frame) :
    frameBytes (fs ++ gs) = frameBytes fs ++ frameBytes gs := List.flatMap_append

@[simp] theorem length_frameBytes (fs : List Frame) : (frameBytes fs).length = 2 * fs.length := by
  induction fs with
  | nil => rfl
  | cons f fs ih =>
    simp only [frameBytes_cons, List.length_cons, ih]
    omega

theorem frameBytes_even (fs : List Frame) (j : ℕ) :
    (frameBytes fs)[2 * j]? = fs[j]?.map Frame.byte0 := by
  induction fs generalizing j with
  | nil => simp
  | cons f fs ih =>
    cases j with
    | zero => rfl
    | succ j => simpa [Nat.mul_succ] using ih j

theorem frameBytes_odd (fs : List Frame) (j : ℕ) :
    (frameBytes fs)[2 * j + 1]? = fs[j]?.map Frame.byte1 := by
  induction fs generalizing j with
  | nil => simp
  | cons f fs ih =>
    cases j with
    | zero => rfl
    | succ j => simpa [Nat.mul_succ] using ih j

theorem exists_frame_of_low {fs : List Frame} {o : ℕ} {b0 : UInt8}
    (h : (frameBytes fs)[o]? = some b0) (hlow : b0.toNat < 128) :
    ∃ j f, o = 2 * j ∧ fs[j]? = some f ∧ b0 = f.byte0 := by
  rcases Nat.even_or_odd' o with ⟨j, rfl | rfl⟩
  · rw [frameBytes_even, Option.map_eq_some_iff] at h
    obtain ⟨f, hf, rfl⟩ := h
    exact ⟨j, f, rfl, hf, rfl⟩
  · rw [frameBytes_odd, Option.map_eq_some_iff] at h
    obtain ⟨f, -, rfl⟩ := h
    have hge := f.byte1_ge
    omega

theorem exists_frame_of_accepted {fs : List Frame} {o : ℕ} {b0 b1 : UInt8}
    (h0 : (frameBytes fs)[o]? = some b0) (h1 : (frameBytes fs)[o + 1]? = some b1)
    (hok : rejects b0 b1 = false) :
    ∃ j f, o = 2 * j ∧ fs[j]? = some f ∧ b0 = f.byte0 ∧ b1 = f.byte1 := by
  obtain ⟨j, f, rfl, hf, rfl⟩ := exists_frame_of_low h0 ((rejects_eq_false_iff _ _).mp hok).1
  refine ⟨j, f, rfl, hf, rfl, ?_⟩
  rw [frameBytes_odd, hf] at h1
  exact (Option.some.inj h1).symm

end AudioCtrl.Serial
