import DgProto.Library.SlidingWindow
import DgProto.Library.WordRegister
import DgProto.Wire.Errors

/-!
# The replay window

A window is the highest committed sequence, a bitmap of 32 words of 64 bits in
which bit `d` stands for the sequence `highest - d`, and a generation counter
that invalidates tokens.  `check` validates a sequence and hands out a token;
`commit` consumes one.

The first part is the code: the functions of the internal package on a bitmap
and the wrapper type around them.  The second part gives each bitmap function
its meaning as an operation on the bits.
-/

namespace DgProto
namespace Replay

open Library

/-- `WindowSize`. -/
def windowSize : Nat := 2048
/-- `WordCount`. -/
def wordCount : Nat := 32

/-- `[WordCount]uint64`. -/
abbrev Bitmap := Vector (BitVec 64) 32

/-- The zero bitmap. -/
def Bitmap.zero : Bitmap := Vector.replicate 32 0#64

/-- The failures of the internal package. -/
inductive Failure where
  | zero
  | duplicate
  | tooOld
  | stale
  deriving DecidableEq, Repr

/-- `Marked`. -/
def marked (bitmap : Bitmap) (distance : UInt64) : Bool :=
  wordAt bitmap (distance / 64).toNat &&& (1#64 <<< (distance % 64).toNat) != 0#64

/-- `Set`. -/
def set (bitmap : Bitmap) (distance : UInt64) : Bitmap :=
  let i := (distance / 64).toNat
  bitmap.setIfInBounds i (wordAt bitmap i ||| (1#64 <<< (distance % 64).toNat))

/-- `Advance`: clear the bitmap on a long jump, else shift it in place. -/
def advance (bitmap : Bitmap) (shift : UInt64) : Bitmap :=
  if windowSize ≤ shift.toNat then
    Bitmap.zero
  else
    let wordShift := (shift / 64).toNat
    let bitShift := (shift % 64).toNat
    shiftLoop wordShift bitShift wordCount bitmap

/-- `replay.Check`. -/
def checkSequence (highest : UInt64) (bitmap : Bitmap) (sequence : UInt64) :
    Except Failure Unit :=
  if sequence = 0 then
    .error .zero
  else if sequence ≤ highest then
    let distance := highest - sequence
    if windowSize ≤ distance.toNat then .error .tooOld
    else if marked bitmap distance then .error .duplicate
    else .ok ()
  else
    .ok ()

/-- `ReplayWindow`. -/
structure ReplayWindow where
  highest : UInt64
  bitmap : Bitmap
  generation : UInt64
  deriving DecidableEq

/-- `ReplayWindow{}`. -/
def ReplayWindow.zero : ReplayWindow := ⟨0, Bitmap.zero, 0⟩

/-- `ReplayToken`. -/
structure ReplayToken where
  sequence : UInt64
  generation : UInt64
  deriving DecidableEq, Repr

/-- `ReplayToken{}`. -/
def ReplayToken.zero : ReplayToken := ⟨0, 0⟩

/-- `replay.Commit` on the three fields of one window. -/
def commitSequence (w : ReplayWindow) (sequence tokenGeneration : UInt64) :
    ReplayWindow × Except Failure Unit :=
  if sequence = 0 ∨ tokenGeneration ≠ w.generation then
    (w, .error .stale)
  else if sequence ≤ w.highest then
    let distance := w.highest - sequence
    if windowSize ≤ distance.toNat ∨ marked w.bitmap distance then
      (w, .error .stale)
    else
      ({ w with bitmap := set w.bitmap distance, generation := w.generation + 1 }, .ok ())
  else
    ({ highest := sequence
       bitmap := set (advance w.bitmap (sequence - w.highest)) 0
       generation := w.generation + 1 }, .ok ())

/-- `replayError`. -/
def replayError : Failure → Error
  | .zero => Sentinel.replayZero.bare
  | .duplicate => Sentinel.replayDuplicate.bare
  | .tooOld => Sentinel.replayTooOld.bare
  | .stale => Sentinel.replayStale.bare

namespace ReplayWindow

/-- `ReplayWindow.Check`. -/
def check (w : ReplayWindow) (sequence : UInt64) : Except Error ReplayToken :=
  if sequence = 0 then
    .error Sentinel.replayZero.bare
  else
    match checkSequence w.highest w.bitmap sequence with
    | .error failure => .error (replayError failure)
    | .ok () => .ok ⟨sequence, w.generation⟩

/-- `ReplayWindow.Commit`: the window after the call and its result. -/
def commit (w : ReplayWindow) (token : ReplayToken) : ReplayWindow × Except Error Unit :=
  if token.sequence = 0 then
    (w, .error Sentinel.replayStale.bare)
  else
    match commitSequence w token.sequence token.generation with
    | (w', .error failure) => (w', .error (replayError failure))
    | (w', .ok ()) => (w', .ok ())

end ReplayWindow

/-! ## The bitmap functions on bits -/

/-- A one-bit mask. -/
theorem getLsbD_mask {i j : Nat} (hj : j < 64) :
    (1#64 <<< i).getLsbD j = decide (j = i) := by
  rw [BitVec.getLsbD_shiftLeft, BitVec.getLsbD_one]
  by_cases hlt : j < i
  · simp [hlt, show j ≠ i by omega]
  · by_cases heq : j = i
    · simp [heq, show i < 64 by omega]
    · simp [heq, show j - i ≠ 0 by omega]

theorem and_mask_ne_zero (word : BitVec 64) {i : Nat} (hi : i < 64) :
    (word &&& (1#64 <<< i) != 0#64) = word.getLsbD i := by
  rw [Bool.eq_iff_iff, bne_iff_ne]
  constructor
  · intro hne
    by_contra hbit
    apply hne
    apply BitVec.eq_of_getLsbD_eq
    intro j hj
    rw [BitVec.getLsbD_and, getLsbD_mask hj]
    by_cases hij : j = i
    · subst hij
      simp [hbit]
    · simp [hij]
  · intro hbit hzero
    have hread : (word &&& 1#64 <<< i).getLsbD i = false := by
      rw [hzero, BitVec.getLsbD_zero]
    rw [BitVec.getLsbD_and, getLsbD_mask hi, hbit] at hread
    simp at hread

theorem toNat_div_64 (distance : UInt64) : (distance / 64).toNat = distance.toNat / 64 := by
  rw [UInt64.toNat_div]
  rfl

theorem toNat_mod_64 (distance : UInt64) : (distance % 64).toNat = distance.toNat % 64 := by
  rw [UInt64.toNat_mod]
  rfl

/-- `Marked` reads the bit of a distance. -/
theorem marked_eq_bitAt (bitmap : Bitmap) (distance : UInt64) :
    marked bitmap distance = bitAt bitmap distance.toNat := by
  unfold marked bitAt
  rw [toNat_div_64, toNat_mod_64]
  exact and_mask_ne_zero _ (Nat.mod_lt _ (by decide))

/-- `Set` sets the bit of a distance inside the window and no other. -/
theorem bitAt_set (bitmap : Bitmap) {distance : UInt64}
    (hdistance : distance.toNat < windowSize) (d : Nat) :
    bitAt (set bitmap distance) d = true ↔
      d = distance.toNat ∨ bitAt bitmap d = true := by
  have hbound : distance.toNat < 2048 := hdistance
  unfold set bitAt
  rw [toNat_div_64, toNat_mod_64, wordAt_setIfInBounds]
  by_cases hword : distance.toNat / 64 = d / 64
  · rw [if_pos ⟨hword, by omega⟩, hword, BitVec.getLsbD_or,
      getLsbD_mask (Nat.mod_lt _ (by decide)), Bool.or_eq_true, decide_eq_true_eq]
    have hsame : d % 64 = distance.toNat % 64 ↔ d = distance.toNat := by
      constructor
      · intro hmod
        omega
      · rintro rfl
        rfl
    rw [hsame, or_comm]
  · rw [if_neg (fun h => hword h.1)]
    constructor
    · exact Or.inr
    · rintro (rfl | hold)
      · exact absurd rfl hword
      · exact hold

@[simp] theorem bitAt_zero (d : Nat) : bitAt Bitmap.zero d = false := by
  unfold bitAt wordAt Bitmap.zero
  by_cases h : d / 64 < 32
  · simp [h]
  · simp [h]

/-- `Advance` moves every bit up by the shift, for every shift. -/
theorem bitAt_advance (bitmap : Bitmap) (shift : UInt64) {d : Nat} (hd : d < windowSize) :
    bitAt (advance bitmap shift) d = true ↔
      shift.toNat ≤ d ∧ bitAt bitmap (d - shift.toNat) = true := by
  unfold advance
  by_cases hlong : windowSize ≤ shift.toNat
  · -- everything leaves the window
    rw [if_pos hlong, bitAt_zero]
    constructor
    · intro h
      cases h
    · rintro ⟨hle, -⟩
      omega
  · have hsplit : shift.toNat / 64 * 64 + shift.toNat % 64 = shift.toNat :=
      Nat.div_add_mod' _ _
    rw [if_neg hlong]
    simp only [toNat_div_64, toNat_mod_64, wordCount]
    rw [bitAt_shiftLoop bitmap (Nat.mod_lt _ (by decide)) hd, hsplit, Bool.and_eq_true,
      decide_eq_true_eq]

/-- **`Advance` is a logical left shift.**  For every bitmap and every shift, a distance
inside the window is marked afterwards if and only if it is not below the shift and the
distance that lies the shift below it was marked before.  Read as a 2048-bit number, the
bitmap is shifted to the left, and the bits that leave the window are lost. -/
theorem advance_shifts_left (bitmap : Bitmap) (shift : UInt64) :
    (∀ distance : UInt64, distance.toNat < windowSize →
      (marked (advance bitmap shift) distance = true ↔
        shift ≤ distance ∧ marked bitmap (distance - shift) = true)) ∧
    registerValue (advance bitmap shift) =
      registerValue bitmap <<< shift.toNat % 2 ^ windowSize := by
  constructor
  · intro distance hdistance
    rw [marked_eq_bitAt, marked_eq_bitAt, bitAt_advance bitmap shift hdistance,
      ← UInt64.le_iff_toNat_le]
    apply and_congr_right
    intro hle
    rw [UInt64.toNat_sub_of_le _ _ hle]
  · have hsize : windowSize = 32 * 64 := rfl
    rw [hsize]
    apply registerValue_eq_of_bitAt (by decide)
    intro d hd
    rw [Bool.eq_iff_iff, bitAt_advance bitmap shift hd, Nat.testBit_shiftLeft,
      testBit_registerValue (by decide), Bool.and_eq_true, decide_eq_true_eq]

/-- A shift by 65 carries the lowest bit into the second word. -/
theorem advance_shifts_left_carry :
    marked (advance (set Bitmap.zero 0) 65) 65 = true := by
  have hshift := (advance_shifts_left (set Bitmap.zero 0) 65).1 65 (by decide)
  exact hshift.mpr (by decide)

end Replay
end DgProto
