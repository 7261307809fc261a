import Mathlib.Data.Finset.Lattice.Fold
import Mathlib.Order.Lattice.Nat
import Mathlib.Tactic.Common

/-!
# Sliding windows over a set of numbers

The abstract object behind a replay window is the set of numbers recorded so
far; the window of size `size` hangs below its maximum.  `classify` says what
such a window answers about a number, in terms of the set alone.

A concrete window stores the maximum and one bit for each distance below it.
`Represents` relates the two, and the lemmas after it say how the bits have to
change when a number is recorded inside the window or above it.
-/

namespace DgProto
namespace Library

/-- The answers of a sliding window about a number. -/
inductive Verdict where
  | fresh
  | zero
  | tooOld
  | duplicate
  deriving DecidableEq, Repr

/-- The largest recorded number, zero if there is none. -/
def highestOf (seen : Finset Nat) : Nat := seen.sup id

/-- What a window of the given size answers once `seen` has been recorded. -/
def classify (size : Nat) (seen : Finset Nat) (number : Nat) : Verdict :=
  if number = 0 then .zero
  else if number ≤ highestOf seen ∧ size ≤ highestOf seen - number then .tooOld
  else if number ∈ seen then .duplicate
  else .fresh

/-- `bit d` records the number at distance `d` below `highest`. -/
structure Represents (size : Nat) (bit : Nat → Bool) (highest : Nat)
    (seen : Finset Nat) : Prop where
  highest_eq : highest = highestOf seen
  bit_iff : ∀ d, d < size → (bit d = true ↔ d < highest ∧ highest - d ∈ seen)

section Representation

variable {size highest number : Nat} {bit bit' : Nat → Bool} {seen : Finset Nat}

theorem le_highestOf (h : number ∈ seen) : number ≤ highestOf seen :=
  Finset.le_sup h (f := id)

theorem highestOf_insert (number : Nat) (seen : Finset Nat) :
    highestOf (insert number seen) = max number (highestOf seen) := by
  simp [highestOf]

/-- The empty window. -/
theorem represents_empty (size : Nat) : Represents size (fun _ => false) 0 ∅ where
  highest_eq := by simp [highestOf]
  bit_iff := by simp

theorem Represents.le_highest (h : Represents size bit highest seen)
    (hmem : number ∈ seen) : number ≤ highest :=
  h.highest_eq ▸ le_highestOf hmem

/-- Inside the window the bit of a number is its membership. -/
theorem Represents.bit_sub_iff (h : Represents size bit highest seen)
    (hpos : 0 < number) (hle : number ≤ highest) (hwindow : highest - number < size) :
    bit (highest - number) = true ↔ number ∈ seen := by
  rw [h.bit_iff _ hwindow, show highest - (highest - number) = number by omega]
  constructor
  · exact fun hboth => hboth.2
  · exact fun hmem => ⟨by omega, hmem⟩

/-- Recording a number inside the window sets the bit of its distance. -/
theorem Represents.insert_within (h : Represents size bit highest seen)
    (hpos : 0 < number) (hle : number ≤ highest)
    (hbit : ∀ d, d < size → (bit' d = true ↔ d = highest - number ∨ bit d = true)) :
    Represents size bit' highest (insert number seen) where
  highest_eq := by
    rw [highestOf_insert, ← h.highest_eq, Nat.max_eq_right hle]
  bit_iff := by
    intro d hd
    rw [hbit d hd, h.bit_iff d hd, Finset.mem_insert]
    constructor
    · rintro (rfl | ⟨hlt, hmem⟩)
      · exact ⟨by omega, Or.inl (by omega)⟩
      · exact ⟨hlt, Or.inr hmem⟩
    · rintro ⟨hlt, heq | hmem⟩
      · exact Or.inl (by omega)
      · exact Or.inr ⟨hlt, hmem⟩

/-- Recording a number above the window shifts the bits by the difference and
sets the lowest one. -/
theorem Represents.insert_above (h : Represents size bit highest seen)
    (hgt : highest < number)
    (hbit : ∀ d, d < size → (bit' d = true ↔
      d = 0 ∨ number - highest ≤ d ∧ bit (d - (number - highest)) = true)) :
    Represents size bit' number (insert number seen) where
  highest_eq := by
    rw [highestOf_insert, ← h.highest_eq, Nat.max_eq_left hgt.le]
  bit_iff := by
    intro d hd
    rw [hbit d hd, Finset.mem_insert]
    constructor
    · rintro (rfl | ⟨hshift, hold⟩)
      · exact ⟨by omega, Or.inl rfl⟩
      · rw [h.bit_iff _ (by omega)] at hold
        have hsame : highest - (d - (number - highest)) = number - d := by omega
        rw [hsame] at hold
        exact ⟨by omega, Or.inr hold.2⟩
    · rintro ⟨hlt, heq | hmem⟩
      · exact Or.inl (by omega)
      · -- a recorded number is at most the old maximum, so it lies past the shift
        have hold := h.le_highest hmem
        refine Or.inr ⟨by omega, ?_⟩
        rw [h.bit_iff _ (by omega)]
        have hsame : highest - (d - (number - highest)) = number - d := by omega
        exact ⟨by omega, hsame ▸ hmem⟩

end Representation

end Library
end DgProto
