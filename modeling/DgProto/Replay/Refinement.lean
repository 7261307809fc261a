import Mathlib.Data.List.Nodup
import DgProto.Replay.Window

/-!
# The replay window refines its set specification

`Refines w seen` says that a concrete window stands for the set `seen` of the
sequences committed to it.  Under it `check` answers exactly what the abstract
window of `Library.SlidingWindow` answers (`check_eq_verdict`), and a commit
either leaves the window alone or records one fresh sequence
(`commit_cases`).  A run of arbitrary `Check` and `Commit` calls on a zero
window keeps the relation, which gives the window's contract over whole runs.
-/

namespace DgProto
namespace Replay

open Library

/-- The window stands for the set of committed sequences. -/
structure Refines (w : ReplayWindow) (seen : Finset Nat) : Prop where
  represents : Represents windowSize (bitAt w.bitmap) w.highest.toNat seen
  zero_notMem : 0 ∉ seen

theorem refines_zero : Refines ReplayWindow.zero ∅ where
  represents := by
    have hbits : bitAt ReplayWindow.zero.bitmap = fun _ => false := by
      funext d
      exact bitAt_zero d
    rw [hbits]
    exact represents_empty windowSize
  zero_notMem := by simp

theorem toNat_ne_zero {n : UInt64} (h : n ≠ 0) : n.toNat ≠ 0 := by
  intro hzero
  exact h (UInt64.toNat_inj.mp hzero)

section Classification

variable {seen : Finset Nat} {number : Nat}

theorem classify_eq_zero_iff :
    classify windowSize seen number = .zero ↔ number = 0 := by
  unfold classify
  split
  · simp_all
  · split
    · simp_all
    · split <;> simp_all

theorem classify_eq_tooOld_iff :
    classify windowSize seen number = .tooOld ↔
      0 < number ∧ number ≤ highestOf seen ∧ windowSize ≤ highestOf seen - number := by
  unfold classify
  split
  · simp_all
  · rename_i hne
    have hpos : 0 < number := Nat.pos_of_ne_zero hne
    split
    · simp_all
    · split <;> simp_all

theorem classify_eq_duplicate_iff (hzero : 0 ∉ seen) :
    classify windowSize seen number = .duplicate ↔
      number ∈ seen ∧ highestOf seen - number < windowSize := by
  unfold classify
  split
  · rename_i heq
    subst heq
    simp [hzero]
  · split
    · rename_i hold
      simp only [reduceCtorEq, false_iff, not_and]
      intro _
      omega
    · rename_i hold
      split
      · rename_i hmem
        have hle := le_highestOf hmem
        simp only [hmem, true_and, true_iff]
        omega
      · simp_all

theorem classify_eq_fresh_iff :
    classify windowSize seen number = .fresh ↔
      number ≠ 0 ∧ number ∉ seen ∧
        (highestOf seen < number ∨ highestOf seen - number < windowSize) := by
  unfold classify
  split
  · simp_all
  · rename_i hne
    split
    · rename_i hold
      simp only [reduceCtorEq, false_iff, not_and]
      intro _ _
      omega
    · rename_i hold
      split
      · simp_all
      · rename_i hmem
        simp only [true_iff]
        exact ⟨hne, hmem, by omega⟩

end Classification

/-! ## What `Check` and `Commit` do -/

/-- The public error of each verdict. -/
def verdictResult (sequence generation : UInt64) : Verdict → Except Error ReplayToken
  | .fresh => .ok ⟨sequence, generation⟩
  | .zero => .error Sentinel.replayZero.bare
  | .tooOld => .error Sentinel.replayTooOld.bare
  | .duplicate => .error Sentinel.replayDuplicate.bare

theorem verdictResult_eq_ok_iff (sequence generation : UInt64) (verdict : Verdict) :
    (∃ token, verdictResult sequence generation verdict = .ok token) ↔ verdict = .fresh := by
  cases verdict <;> simp [verdictResult]

theorem verdictResult_eq_error_iff (sequence generation : UInt64) (verdict : Verdict) :
    (verdictResult sequence generation verdict = .error Sentinel.replayZero.bare ↔
      verdict = .zero) ∧
    (verdictResult sequence generation verdict = .error Sentinel.replayTooOld.bare ↔
      verdict = .tooOld) ∧
    (verdictResult sequence generation verdict = .error Sentinel.replayDuplicate.bare ↔
      verdict = .duplicate) := by
  cases verdict <;> simp [verdictResult]

theorem toNat_sub {highest sequence : UInt64} (h : sequence ≤ highest) :
    (highest - sequence).toNat = highest.toNat - sequence.toNat :=
  UInt64.toNat_sub_of_le highest sequence h

/-- Being above the window or inside it, in machine words and in numbers. -/
theorem within_iff (highest n : UInt64) :
    (highest < n ∨ (highest - n).toNat < windowSize) ↔
      (highest.toNat < n.toNat ∨ highest.toNat - n.toNat < windowSize) := by
  by_cases hle : n ≤ highest
  · rw [toNat_sub hle, UInt64.lt_iff_toNat_lt]
  · have hlt : highest.toNat < n.toNat := by
      by_contra hcontra
      exact hle (UInt64.le_iff_toNat_le.mpr (Nat.le_of_not_lt hcontra))
    simp [UInt64.lt_iff_toNat_lt, hlt]

/-- `Check` answers the abstract verdict about the sequence. -/
theorem check_eq_verdict {w : ReplayWindow} {seen : Finset Nat} (h : Refines w seen)
    (sequence : UInt64) :
    w.check sequence = verdictResult sequence w.generation
      (classify windowSize seen sequence.toNat) := by
  have hhigh := h.represents.highest_eq
  unfold ReplayWindow.check checkSequence
  by_cases hzero : sequence = 0
  · subst hzero
    simp [classify, verdictResult]
  · have hne := toNat_ne_zero hzero
    rw [if_neg hzero, if_neg hzero]
    unfold classify
    rw [if_neg hne, ← hhigh]
    by_cases hle : sequence ≤ w.highest
    · have hleNat : sequence.toNat ≤ w.highest.toNat := UInt64.le_iff_toNat_le.mp hle
      have hsub := toNat_sub hle
      by_cases hold : windowSize ≤ w.highest.toNat - sequence.toNat
      · simp [hle, hsub, hold, hleNat, replayError, verdictResult]
      · have hbit := h.represents.bit_sub_iff (Nat.pos_of_ne_zero hne) hleNat (by omega)
        rw [← hsub, ← marked_eq_bitAt] at hbit
        by_cases hmem : sequence.toNat ∈ seen
        · have hmarked := hbit.mpr hmem
          simp [hle, hsub, hold, hmem, hmarked, replayError, verdictResult]
        · have hmarked : marked w.bitmap (w.highest - sequence) = false := by
            by_contra hset
            exact hmem (hbit.mp (by simpa using hset))
          simp [hle, hsub, hold, hmem, hmarked, verdictResult]
    · have hgt : ¬ sequence.toNat ≤ w.highest.toNat := by
        intro hcontra
        exact hle (UInt64.le_iff_toNat_le.mpr hcontra)
      have hmem : sequence.toNat ∉ seen := fun hmem => hgt (h.represents.le_highest hmem)
      simp [hle, hgt, hmem, verdictResult]

/-- A token just handed out commits, whatever the window holds. -/
theorem commit_of_check {w : ReplayWindow} {sequence : UInt64} {token : ReplayToken}
    (h : w.check sequence = .ok token) :
    token = ⟨sequence, w.generation⟩ ∧ (w.commit token).2 = .ok () := by
  unfold ReplayWindow.check at h
  by_cases hzero : sequence = 0
  · simp [hzero] at h
  · rw [if_neg hzero] at h
    cases hcheck : checkSequence w.highest w.bitmap sequence with
    | error failure => simp [hcheck] at h
    | ok _ =>
        simp only [hcheck, Except.ok.injEq] at h
        subst h
        refine ⟨rfl, ?_⟩
        unfold checkSequence at hcheck
        rw [if_neg hzero] at hcheck
        unfold ReplayWindow.commit commitSequence
        by_cases hle : sequence ≤ w.highest
        · simp only [hle, if_true] at hcheck ⊢
          by_cases hold : windowSize ≤ (w.highest - sequence).toNat
          · simp [hold] at hcheck
          · by_cases hmarked : marked w.bitmap (w.highest - sequence) = true
            · simp [hold, hmarked] at hcheck
            · simp [hzero, hold, hmarked]
        · simp [hzero, hle]

/-- The window `w'` is `w` after an accepted check of the sequence and its commit. -/
def Records (w : ReplayWindow) (sequence : UInt64) (w' : ReplayWindow) : Prop :=
  ∃ token, w.check sequence = .ok token ∧ w.commit token = (w', .ok ())

theorem records_of_check {w : ReplayWindow} {sequence : UInt64} {token : ReplayToken}
    (h : w.check sequence = .ok token) : Records w sequence (w.commit token).1 :=
  ⟨token, h, Prod.ext rfl (commit_of_check h).2⟩

/-- A commit either fails as stale and changes nothing, or records the fresh
sequence of a token of the current generation. -/
theorem commit_cases {w : ReplayWindow} {seen : Finset Nat} (h : Refines w seen)
    (token : ReplayToken) :
    (w.commit token = (w, .error Sentinel.replayStale.bare) ∧
      ¬ (token.generation = w.generation ∧
        classify windowSize seen token.sequence.toNat = .fresh)) ∨
    (∃ w', w.commit token = (w', .ok ()) ∧
      w'.generation = w.generation + 1 ∧
      token.generation = w.generation ∧
      classify windowSize seen token.sequence.toNat = .fresh ∧
      Refines w' (insert token.sequence.toNat seen)) := by
  have hhigh := h.represents.highest_eq
  unfold ReplayWindow.commit commitSequence
  by_cases hzero : token.sequence = 0
  · left
    rw [hzero]
    simp [classify]
  · have hne := toNat_ne_zero hzero
    have hinsert : 0 ∉ insert token.sequence.toNat seen := by
      rw [Finset.mem_insert]
      rintro (heq | hmem)
      · exact hne heq.symm
      · exact h.zero_notMem hmem
    by_cases hgen : token.generation = w.generation
    · by_cases hle : token.sequence ≤ w.highest
      · have hleNat := UInt64.le_iff_toNat_le.mp hle
        have hsub := toNat_sub hle
        by_cases hold : windowSize ≤ w.highest.toNat - token.sequence.toNat
        · left
          have hverdict : classify windowSize seen token.sequence.toNat = .tooOld :=
            classify_eq_tooOld_iff.mpr ⟨by omega, hhigh ▸ hleNat, hhigh ▸ hold⟩
          simp [hzero, hgen, hle, hsub, hold, hverdict, replayError]
        · have hbit := h.represents.bit_sub_iff (Nat.pos_of_ne_zero hne) hleNat (by omega)
          rw [← hsub, ← marked_eq_bitAt] at hbit
          by_cases hmem : token.sequence.toNat ∈ seen
          · left
            have hmarked := hbit.mpr hmem
            have hverdict : classify windowSize seen token.sequence.toNat = .duplicate :=
              (classify_eq_duplicate_iff h.zero_notMem).mpr ⟨hmem, by omega⟩
            simp [hzero, hgen, hle, hmarked, hverdict, replayError]
          · right
            have hmarked : ¬ marked w.bitmap (w.highest - token.sequence) = true :=
              fun hset => hmem (hbit.mp hset)
            refine ⟨⟨w.highest, set w.bitmap (w.highest - token.sequence), w.generation + 1⟩,
              ?_, rfl, hgen, ?_, ?_, hinsert⟩
            · simp [hzero, hgen, hle, hsub, hold, hmarked]
            · exact classify_eq_fresh_iff.mpr ⟨hne, hmem, by omega⟩
            · apply h.represents.insert_within (Nat.pos_of_ne_zero hne) hleNat
              intro d _
              rw [← hsub]
              exact bitAt_set w.bitmap (by omega) d
      · -- a sequence above the window is always fresh
        right
        have hgt : w.highest.toNat < token.sequence.toNat := by
          by_contra hcontra
          exact hle (UInt64.le_iff_toNat_le.mpr (Nat.le_of_not_lt hcontra))
        have hsub : (token.sequence - w.highest).toNat =
            token.sequence.toNat - w.highest.toNat :=
          toNat_sub (UInt64.le_iff_toNat_le.mpr hgt.le)
        have hmem : token.sequence.toNat ∉ seen := fun hmem =>
          absurd (h.represents.le_highest hmem) (by omega)
        refine ⟨⟨token.sequence, set (advance w.bitmap (token.sequence - w.highest)) 0,
          w.generation + 1⟩, ?_, rfl, hgen, ?_, ?_, hinsert⟩
        · simp [hzero, hgen, hle]
        · exact classify_eq_fresh_iff.mpr ⟨hne, hmem, Or.inl (hhigh ▸ hgt)⟩
        · apply h.represents.insert_above hgt
          intro d hd
          rw [bitAt_set _ (by decide), bitAt_advance _ _ hd, hsub]
          rfl
    · left
      simp [hzero, hgen, replayError]

/-- Recording a sequence adds it to the represented set, where it was not before. -/
theorem Records.refines {w w' : ReplayWindow} {sequence : UInt64} {seen : Finset Nat}
    (hrecords : Records w sequence w') (h : Refines w seen) :
    sequence.toNat ∉ seen ∧ Refines w' (insert sequence.toNat seen) := by
  obtain ⟨token, hcheck, hcommit⟩ := hrecords
  obtain ⟨rfl, -⟩ := commit_of_check hcheck
  rcases commit_cases h ⟨sequence, w.generation⟩ with
    ⟨hstale, -⟩ | ⟨window, hok, -, -, hfresh, hrefines⟩
  · simp [hstale] at hcommit
  · obtain ⟨rfl, -⟩ := Prod.mk.inj (hok.symm.trans hcommit)
    exact ⟨(classify_eq_fresh_iff.mp hfresh).2.1, hrefines⟩

/-- A sequence above every recorded one is accepted. -/
theorem check_of_lt {w : ReplayWindow} {seen : Finset Nat} (h : Refines w seen)
    {sequence : UInt64} (hlt : highestOf seen < sequence.toNat) :
    ∃ token, w.check sequence = .ok token := by
  rw [check_eq_verdict h, verdictResult_eq_ok_iff, classify_eq_fresh_iff]
  exact ⟨by omega, fun hmem => absurd (le_highestOf hmem) (by omega), .inl hlt⟩

/-! ## Runs of calls on a zero window -/

/-- One call on a window; a commit may present any token at all. -/
inductive Call where
  | check (sequence : UInt64)
  | commit (token : ReplayToken)

/-- A window together with the sequences whose commit succeeded, in order. -/
structure History where
  window : ReplayWindow
  committed : List UInt64

namespace History

/-- The window before any call. -/
def start : History := ⟨ReplayWindow.zero, []⟩

/-- `Check` writes nothing; `Commit` leaves the window it returns. -/
def step (h : History) : Call → History
  | .check _ => h
  | .commit token =>
      match h.window.commit token with
      | (window, .ok ()) => ⟨window, h.committed ++ [token.sequence]⟩
      | (window, .error _) => ⟨window, h.committed⟩

/-- The history after a sequence of calls on a zero window. -/
def run (calls : List Call) : History := calls.foldl step start

/-- The set of committed sequences. -/
def seen (h : History) : Finset Nat := (h.committed.map UInt64.toNat).toFinset

/-- The invariant of every run. -/
structure Valid (h : History) : Prop where
  refines : Refines h.window h.seen
  nodup : h.committed.Nodup

theorem valid_start : start.Valid where
  refines := refines_zero
  nodup := List.nodup_nil

theorem mem_seen {h : History} {n : UInt64} : n.toNat ∈ h.seen ↔ n ∈ h.committed := by
  simp [seen, UInt64.toNat_inj]

/-- Every call keeps the invariant. -/
theorem valid_step {h : History} (hvalid : h.Valid) (call : Call) : (h.step call).Valid := by
  cases call with
  | check sequence => exact hvalid
  | commit token =>
      rcases commit_cases hvalid.refines token with
        ⟨hstale, -⟩ | ⟨w', hcommit, -, -, hfresh, hrefines⟩
      · have hstep : h.step (.commit token) = h := by
          simp [step, hstale]
        rw [hstep]
        exact hvalid
      · have hnew : token.sequence ∉ h.committed := by
          rw [← mem_seen]
          exact (classify_eq_fresh_iff.mp hfresh).2.1
        have hstep : h.step (.commit token) = ⟨w', h.committed ++ [token.sequence]⟩ := by
          simp [step, hcommit]
        rw [hstep]
        refine ⟨?_, ?_⟩
        · have hseen : seen ⟨w', h.committed ++ [token.sequence]⟩ =
              insert token.sequence.toNat h.seen := by
            ext n
            simp [seen]
          rw [hseen]
          exact hrefines
        · exact List.nodup_append.mpr ⟨hvalid.nodup, List.nodup_singleton _,
            fun a ha b hb hab => by
              rw [List.mem_singleton] at hb
              exact hnew (hb ▸ hab ▸ ha)⟩

/-- The invariant holds after every sequence of calls. -/
theorem valid_run (calls : List Call) : (run calls).Valid := by
  have hfold : ∀ (calls : List Call) (h : History), h.Valid → (calls.foldl step h).Valid := by
    intro calls
    induction calls with
    | nil => exact fun h hvalid => hvalid
    | cons call calls ih => exact fun h hvalid => ih _ (valid_step hvalid call)
  exact hfold calls start valid_start

end History

/-- **The replay window refines its set specification.**  After any calls on a
zero window, the bitmap and the highest sequence are those of the set of
committed sequences, `Check` answers about every sequence what the set says,
no sequence was committed twice, and a fresh sequence in the window (or above
it) passes `Check` and then `Commit`. -/
theorem replayWindow_refines_committed_set (calls : List Call) :
    let w := (History.run calls).window
    let committed := (History.run calls).committed
    let seen := (History.run calls).seen
    w.highest.toNat = seen.sup id ∧
    (∀ d : UInt64, d.toNat < windowSize → d < w.highest →
      (marked w.bitmap d = true ↔ w.highest - d ∈ committed)) ∧
    (∀ d : UInt64, d.toNat < windowSize → w.highest ≤ d → marked w.bitmap d = false) ∧
    (∀ n : UInt64,
      ((∃ token, w.check n = .ok token) ↔
        n ≠ 0 ∧ n ∉ committed ∧ (w.highest < n ∨ (w.highest - n).toNat < windowSize)) ∧
      (w.check n = .error Sentinel.replayZero.bare ↔ n = 0) ∧
      (w.check n = .error Sentinel.replayTooOld.bare ↔
        0 < n ∧ n ≤ w.highest ∧ windowSize ≤ (w.highest - n).toNat) ∧
      (w.check n = .error Sentinel.replayDuplicate.bare ↔
        n ∈ committed ∧ (w.highest - n).toNat < windowSize)) ∧
    committed.Nodup ∧
    (∀ n token, w.check n = .ok token → (w.commit token).2 = .ok ()) := by
  intro w committed seen
  have hvalid := History.valid_run calls
  have hrep : Represents windowSize (bitAt w.bitmap) w.highest.toNat seen :=
    hvalid.refines.represents
  have hmem : ∀ n : UInt64, n.toNat ∈ seen ↔ n ∈ committed := fun n => History.mem_seen
  have hhigh : highestOf seen = w.highest.toNat := hrep.highest_eq.symm
  refine ⟨hrep.highest_eq, ?_, ?_, ?_, hvalid.nodup, ?_⟩
  · intro d hd hlt
    have hltNat := UInt64.lt_iff_toNat_lt.mp hlt
    rw [marked_eq_bitAt, hrep.bit_iff _ hd, ← hmem, toNat_sub (UInt64.le_of_lt hlt)]
    simp [hltNat]
  · intro d hd hle
    have hleNat := UInt64.le_iff_toNat_le.mp hle
    rw [marked_eq_bitAt, Bool.eq_false_iff, ne_eq, hrep.bit_iff _ hd]
    omega
  · intro n
    have hcheck := check_eq_verdict hvalid.refines n
    change w.check n = verdictResult n w.generation (classify windowSize seen n.toNat) at hcheck
    have hzero : n = 0 ↔ n.toNat = 0 := UInt64.toNat_inj.symm
    obtain ⟨herrZero, herrOld, herrDup⟩ :=
      verdictResult_eq_error_iff n w.generation (classify windowSize seen n.toNat)
    rw [hcheck]
    refine ⟨?_, ?_, ?_, ?_⟩
    · rw [verdictResult_eq_ok_iff, classify_eq_fresh_iff, hmem, hhigh, ne_eq, ne_eq, hzero,
        within_iff]
    · rw [herrZero, classify_eq_zero_iff, hzero]
    · rw [herrOld, classify_eq_tooOld_iff, hhigh, UInt64.lt_iff_toNat_lt,
        UInt64.le_iff_toNat_le]
      refine and_congr_right fun _ => and_congr_right fun hle => ?_
      rw [toNat_sub (UInt64.le_iff_toNat_le.mpr hle)]
    · rw [herrDup, classify_eq_duplicate_iff hvalid.refines.zero_notMem]
      change n.toNat ∈ seen ∧ highestOf seen - n.toNat < windowSize ↔ _
      rw [hmem, hhigh]
      refine and_congr_right fun hin => ?_
      have hle : n ≤ w.highest :=
        UInt64.le_iff_toNat_le.mpr (hrep.le_highest ((hmem n).mpr hin))
      rw [toNat_sub hle]
  · intro n token hcheck
    exact (commit_of_check hcheck).2

end Replay
end DgProto
