import Mathlib.Data.Nat.Basic
import Mathlib.Tactic.Common
import Mathlib.Tactic.Ring

/-!
# Shift registers made of machine words

A register of `n` words of `w` bits is read as one `n * w`-bit number whose bit
`d` is bit `d % w` of word `d / w`.  `shiftLoop` is the usual in-place left
shift: it walks over the words from the highest to the lowest, and combines
the two source words that overlap each destination word.  Because a source
word never lies above its destination, the descending order reads only words
that have not been overwritten yet; `wordAt_shiftLoop` is that invariant, and
`bitAt_shiftLoop` reads the result as a shift of the whole number.

`registerValue` is that number; its binary digits are the bits of the register
(`testBit_registerValue`).
-/

namespace DgProto
namespace Library

section WordRegister

variable {w n : Nat}

/-- The word at an index, zero beyond the register. -/
def wordAt (words : Vector (BitVec w) n) (i : Nat) : BitVec w :=
  words[i]?.getD 0#w

/-- Bit `d` of the whole register. -/
def bitAt (words : Vector (BitVec w) n) (d : Nat) : Bool :=
  (wordAt words (d / w)).getLsbD (d % w)

/-- The word that a left shift by `wordShift * w + bitShift` places at `dst`. -/
def shiftedWord (words : Vector (BitVec w) n) (wordShift bitShift dst : Nat) :
    BitVec w :=
  if wordShift ≤ dst then
    let src := dst - wordShift
    let value := wordAt words src <<< bitShift
    if bitShift ≠ 0 ∧ 0 < src then
      value ||| (wordAt words (src - 1) >>> (w - bitShift))
    else
      value
  else
    0#w

/-- Overwrite the words `count - 1, ..., 0`, in this order. -/
def shiftLoop (wordShift bitShift : Nat) :
    Nat → Vector (BitVec w) n → Vector (BitVec w) n
  | 0, words => words
  | dst + 1, words =>
      shiftLoop wordShift bitShift dst
        (words.setIfInBounds dst (shiftedWord words wordShift bitShift dst))

theorem wordAt_setIfInBounds (words : Vector (BitVec w) n) (i j : Nat)
    (value : BitVec w) :
    wordAt (words.setIfInBounds i value) j =
      if i = j ∧ j < n then value else wordAt words j := by
  unfold wordAt
  rw [Vector.getElem?_setIfInBounds]
  by_cases hij : i = j
  · subst hij
    by_cases hi : i < n
    · simp [hi]
    · simp [hi]
  · simp [hij]

/-- A destination word depends only on words that are not above it. -/
theorem shiftedWord_congr {words words' : Vector (BitVec w) n}
    {wordShift bitShift dst : Nat}
    (h : ∀ i, i ≤ dst → wordAt words i = wordAt words' i) :
    shiftedWord words wordShift bitShift dst =
      shiftedWord words' wordShift bitShift dst := by
  unfold shiftedWord
  dsimp only
  rw [h (dst - wordShift) (by omega), h (dst - wordShift - 1) (by omega)]

/-- Loop invariant of the descending walk: the words from `count` on are
untouched and those below hold the shifted value of the original register. -/
theorem wordAt_shiftLoop (wordShift bitShift count : Nat)
    (words : Vector (BitVec w) n) (hcount : count ≤ n) (i : Nat) :
    wordAt (shiftLoop wordShift bitShift count words) i =
      if i < count then shiftedWord words wordShift bitShift i
      else wordAt words i := by
  induction count generalizing words with
  | zero => simp [shiftLoop]
  | succ dst ih =>
      rw [shiftLoop, ih _ (by omega)]
      by_cases hlt : i < dst
      · -- lower destinations never read the word written at `dst`
        rw [if_pos hlt, if_pos (by omega)]
        apply shiftedWord_congr
        intro k hk
        rw [wordAt_setIfInBounds, if_neg (by omega)]
      · rw [if_neg hlt, wordAt_setIfInBounds]
        by_cases heq : i = dst
        · subst heq
          rw [if_pos ⟨rfl, by omega⟩, if_pos (by omega)]
        · rw [if_neg (by omega), if_neg (by omega)]

theorem bitAt_mul_add (words : Vector (BitVec w) n) (q r : Nat) (hr : r < w) :
    bitAt words (q * w + r) = (wordAt words q).getLsbD r := by
  have hdiv : (q * w + r) / w = q := by
    rw [Nat.mul_comm, Nat.mul_add_div (by omega), Nat.div_eq_of_lt hr]
    omega
  have hmod : (q * w + r) % w = r := by
    rw [Nat.mul_comm, Nat.mul_add_mod, Nat.mod_eq_of_lt hr]
  rw [bitAt, hdiv, hmod]

/-- Bit `r` of a shifted word is the register bit that lies the whole shift
distance below it. -/
theorem getLsbD_shiftedWord (words : Vector (BitVec w) n)
    {wordShift bitShift : Nat} (hbit : bitShift < w) (dst r : Nat) (hr : r < w) :
    (shiftedWord words wordShift bitShift dst).getLsbD r =
      (decide (wordShift * w + bitShift ≤ dst * w + r) &&
        bitAt words (dst * w + r - (wordShift * w + bitShift))) := by
  unfold shiftedWord
  by_cases hword : wordShift ≤ dst
  · obtain ⟨src, rfl⟩ := Nat.exists_eq_add_of_le hword
    rw [if_pos hword]
    simp only [Nat.add_sub_cancel_left]
    have hexpand : (wordShift + src) * w + r = wordShift * w + (src * w + r) := by
      ring
    rw [hexpand, Nat.add_sub_add_left]
    by_cases hlow : bitShift ≤ r
    · -- the bit comes from the source word itself
      have hpos : src * w + r - bitShift = src * w + (r - bitShift) := by omega
      have hle : wordShift * w + bitShift ≤ wordShift * w + (src * w + r) := by
        omega
      have hhigh : (wordAt words (src - 1) >>> (w - bitShift)).getLsbD r = false := by
        rw [BitVec.getLsbD_ushiftRight]
        exact BitVec.getLsbD_of_ge _ _ (by omega)
      have hown : (wordAt words src <<< bitShift).getLsbD r =
          (wordAt words src).getLsbD (r - bitShift) := by
        rw [BitVec.getLsbD_shiftLeft]
        simp [hr, hlow]
      rw [hpos, bitAt_mul_add words src (r - bitShift) (by omega)]
      split
      · rw [BitVec.getLsbD_or, hhigh, hown]
        simp [hle]
      · rw [hown]
        simp [hle]
    · -- the bit is carried over from the word below the source word
      have hown : (wordAt words src <<< bitShift).getLsbD r = false := by
        rw [BitVec.getLsbD_shiftLeft]
        simp only [Bool.and_eq_false_iff]
        left
        right
        simp only [Bool.not_eq_false', decide_eq_true_eq]
        omega
      cases src with
      | zero =>
          have hnot : ¬ wordShift * w + bitShift ≤ wordShift * w + (0 * w + r) := by
            omega
          rw [if_neg (by simp), hown]
          simp only [hnot, decide_false, Bool.false_and]
      | succ src =>
          have hle : wordShift * w + bitShift ≤
              wordShift * w + ((src + 1) * w + r) := by
            have : w ≤ (src + 1) * w := Nat.le_mul_of_pos_left w (by omega)
            omega
          have hpos : (src + 1) * w + r - bitShift =
              src * w + (w - bitShift + r) := by
            have : (src + 1) * w = src * w + w := by ring
            omega
          rw [if_pos ⟨by omega, by omega⟩, BitVec.getLsbD_or, hown,
            BitVec.getLsbD_ushiftRight, hpos,
            bitAt_mul_add words src (w - bitShift + r) (by omega)]
          simp [hle]
  · have hnot : ¬ wordShift * w + bitShift ≤ dst * w + r := by
      have : (dst + 1) * w ≤ wordShift * w :=
        Nat.mul_le_mul_right w (by omega)
      have : (dst + 1) * w = dst * w + w := by ring
      omega
    rw [if_neg hword]
    simp [hnot]

/-- The full in-place loop is the logical left shift of the whole number. -/
theorem bitAt_shiftLoop (words : Vector (BitVec w) n)
    {wordShift bitShift : Nat} (hbit : bitShift < w) {d : Nat}
    (hd : d < n * w) :
    bitAt (shiftLoop wordShift bitShift n words) d =
      (decide (wordShift * w + bitShift ≤ d) &&
        bitAt words (d - (wordShift * w + bitShift))) := by
  have hw : 0 < w := by omega
  have hword : d / w < n := (Nat.div_lt_iff_lt_mul hw).mpr hd
  have hsplit : d / w * w + d % w = d := Nat.div_add_mod' d w
  have hr : d % w < w := Nat.mod_lt d hw
  rw [bitAt, wordAt_shiftLoop wordShift bitShift n words le_rfl, if_pos hword,
    getLsbD_shiftedWord words hbit (d / w) (d % w) hr, hsplit]

/-! ## The register as one number -/

/-- The number whose digits are the words, the lowest first. -/
def registerValue (words : Vector (BitVec w) n) : Nat :=
  words.toList.foldr (fun (word : BitVec w) value => 2 ^ w * value + word.toNat) 0

/-- Bit `d` of a number given by its words lies in word `d / w`. -/
theorem testBit_foldr (hw : 0 < w) (words : List (BitVec w)) (d : Nat) :
    (words.foldr (fun (word : BitVec w) value => 2 ^ w * value + word.toNat) 0).testBit d =
      (words[d / w]?.getD 0#w).getLsbD (d % w) := by
  induction words generalizing d with
  | nil => simp
  | cons word words ih =>
      rw [List.foldr_cons, Nat.testBit_two_pow_mul_add _ word.isLt]
      by_cases hlow : d < w
      · rw [if_pos hlow, Nat.div_eq_of_lt hlow, Nat.mod_eq_of_lt hlow]
        rfl
      · -- the other words make up the number of the higher bits
        have hdiv : d / w = (d - w) / w + 1 := by
          rw [Nat.div_eq_sub_div hw (by omega)]
        have hmod : d % w = (d - w) % w := Nat.mod_eq_sub_mod (by omega)
        rw [if_neg hlow, ih, hdiv, hmod, List.getElem?_cons_succ]

theorem testBit_registerValue (hw : 0 < w) (words : Vector (BitVec w) n) (d : Nat) :
    (registerValue words).testBit d = bitAt words d := by
  rw [registerValue, testBit_foldr hw, bitAt, wordAt, Vector.getElem?_toList]

theorem bitAt_eq_false (hw : 0 < w) (words : Vector (BitVec w) n) {d : Nat} (hd : n * w ≤ d) :
    bitAt words d = false := by
  have hword : n ≤ d / w := (Nat.le_div_iff_mul_le hw).mpr hd
  have hnone : words[d / w]? = none := Vector.getElem?_eq_none hword
  rw [bitAt, wordAt, hnone]
  simp

/-- Registers of one size are the same number if they have the same bits. -/
theorem registerValue_eq_of_bitAt (hw : 0 < w) {words : Vector (BitVec w) n} {value : Nat}
    (h : ∀ d < n * w, bitAt words d = value.testBit d) :
    registerValue words = value % 2 ^ (n * w) := by
  apply Nat.eq_of_testBit_eq
  intro d
  rw [testBit_registerValue hw, Nat.testBit_mod_two_pow]
  by_cases hd : d < n * w
  · rw [h d hd, decide_eq_true hd, Bool.true_and]
  · rw [bitAt_eq_false hw words (by omega), decide_eq_false hd, Bool.false_and]

end WordRegister

end Library
end DgProto
