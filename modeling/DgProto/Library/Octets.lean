import Mathlib.Data.List.TakeDrop
import Mathlib.Tactic.Common
import DgProto.Library.LittleEndian

/-!
# Fixed-size octet arrays and buffer writes

`Octets n` is an octet string that carries the proof of its own length, the
value type of an array `[n]byte`.  `Octets.copy` is the zeroed array after a
`copy` from a slice, and `copyAt` is `copy(buffer[offset:], source)` on a
slice: it never changes the buffer's length.  Reads of a slice come in two forms: total
ones for reasoning about values, and checked ones that show where Go would panic.
-/

namespace DgProto
namespace Library

/-- Octet strings of length exactly `n`. -/
abbrev Octets (n : Nat) := { octets : List UInt8 // octets.length = n }

namespace Octets

/-- The all-zero array. -/
def zero (n : Nat) : Octets n :=
  ⟨List.replicate n 0, List.length_replicate⟩

/-- A zeroed array after copying as much of `source` as fits. -/
def copy (n : Nat) (source : List UInt8) : Octets n :=
  ⟨source.takeD n 0, List.takeD_length n source 0⟩

theorem copy_val {n : Nat} {source : List UInt8} (h : source.length = n) :
    (copy n source).val = source := by
  subst h
  simp [copy, List.takeD_eq_take]

@[simp] theorem copy_self {n : Nat} (array : Octets n) :
    copy n array.val = array :=
  Subtype.ext (copy_val array.property)

end Octets

section Slice

variable {α : Type*}

/-- `source[low:high]`. -/
def slice (source : List α) (low high : Nat) : List α :=
  (source.take high).drop low

theorem slice_length {source : List α} {low high : Nat}
    (h : high ≤ source.length) : (slice source low high).length = high - low := by
  simp [slice, h]

theorem slice_all {source : List α} {high : Nat} (h : source.length ≤ high) :
    slice source 0 high = source := by
  simp [slice, List.take_of_length_le h]

/-- Adjacent slices concatenate. -/
theorem slice_append_slice (source : List α) {low mid high : Nat}
    (hlow : low ≤ mid) (hhigh : mid ≤ high) :
    slice source low mid ++ slice source mid high = slice source low high := by
  have hmid : source.take mid = (source.take high).take mid := by
    rw [List.take_take, Nat.min_eq_left hhigh]
  unfold slice
  rw [hmid, ← List.drop_take_append_drop (source.take high) low (mid - low),
    List.drop_take]
  rw [show low + (mid - low) = mid by omega]

theorem slice_append_drop (source : List α) {low high : Nat} (h : low ≤ high) :
    slice source low high ++ source.drop high = source.drop low := by
  have hsplit : source.drop low = (source.take high ++ source.drop high).drop low := by
    rw [List.take_append_drop]
  by_cases hlow : low ≤ (source.take high).length
  · rw [hsplit, List.drop_append_of_le_length hlow, slice]
  · have hshort : source.length ≤ low := by
      rw [List.length_take] at hlow
      omega
    simp [slice, List.drop_of_length_le hshort,
      List.drop_of_length_le (hshort.trans h),
      List.drop_of_length_le (Nat.le_of_not_le hlow)]

/-- The part of a concatenation that lies between two boundaries. -/
theorem slice_of_eq_append {source inside after : List α} (before : List α)
    {low high : Nat} (h : source = before ++ (inside ++ after)) (hlow : before.length = low)
    (hhigh : before.length + inside.length = high) :
    slice source low high = inside := by
  subst h hlow hhigh
  simp [slice, List.take_append]

theorem drop_of_eq_append {source after : List α} (before : List α) {low : Nat}
    (h : source = before ++ after) (hlow : before.length = low) :
    source.drop low = after := by
  subst h hlow
  simp

/-- The element of a concatenation right behind a known prefix. -/
theorem getD_of_eq_append {source after : List α} (before : List α)
    {value fallback : α} {i : Nat} (h : source = before ++ value :: after)
    (hlow : before.length = i) :
    source.getD i fallback = value := by
  subst h hlow
  simp

/-! ## Accesses that panic

Go panics on an index or a slice bound out of range.  The checked accesses return
`none` there, so a function written with them shows where it could panic. -/

/-- `source[i]`. -/
def checkedGet (source : List α) (i : Nat) : Option α := source[i]?

/-- `source[low:high]`. -/
def checkedSlice (source : List α) (low high : Nat) : Option (List α) :=
  if low ≤ high ∧ high ≤ source.length then some (slice source low high) else none

theorem checkedGet_of_lt {source : List α} {i : Nat} (fallback : α) (h : i < source.length) :
    checkedGet source i = some (source.getD i fallback) := by
  rw [checkedGet, List.getD_eq_getElem?_getD, List.getElem?_eq_getElem h, Option.getD_some]

theorem checkedSlice_of_le {source : List α} {low high : Nat} (hlow : low ≤ high)
    (hhigh : high ≤ source.length) : checkedSlice source low high = some (slice source low high) :=
  if_pos ⟨hlow, hhigh⟩

/-- `source[low:]`. -/
theorem checkedSlice_length {source : List α} {low : Nat} (h : low ≤ source.length) :
    checkedSlice source low source.length = some (source.drop low) := by
  rw [checkedSlice_of_le h (Nat.le_refl _), slice, List.take_length]

end Slice

/-- `copy(buffer[offset:], source)`: the octets that fit are overwritten. -/
def copyAt (buffer : List UInt8) (offset : Nat) (source : List UInt8) :
    List UInt8 :=
  buffer.take offset ++
    (source.take (buffer.length - offset) ++ buffer.drop (offset + source.length))

/-- Writing right behind an already written part into zeroed room keeps the
written part and consumes exactly the room of the source. -/
theorem copyAt_zeroed (done : List UInt8) {buffer source : List UInt8} {offset room : Nat}
    (hbuffer : buffer = done ++ List.replicate room 0) (hoffset : done.length = offset)
    (h : source.length ≤ room) :
    copyAt buffer offset source =
      (done ++ source) ++ List.replicate (room - source.length) 0 := by
  subst hbuffer hoffset
  have htake : source.take room = source := List.take_of_length_le h
  have hdrop : (done ++ List.replicate room (0 : UInt8)).drop
      (done.length + source.length) = List.replicate (room - source.length) 0 := by
    rw [List.drop_append, List.drop_of_length_le (by omega)]
    simp
  unfold copyAt
  rw [hdrop]
  simp [htake]

end Library
end DgProto
