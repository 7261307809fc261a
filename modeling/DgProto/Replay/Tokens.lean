import Mathlib.Order.Interval.Finset.Nat
import DgProto.Replay.Refinement

/-!
# Replay tokens

A token carries the generation of the window at its `Check`, and every successful
`Commit` starts a new generation.  A token is therefore good for exactly as long as no
commit succeeds.  The generation is a machine word, so this needs that it never comes
round: every commit uses up one nonzero sequence for good, and there are fewer of them
than generations.
-/

namespace DgProto
namespace Replay

open Library

namespace History

/-- A commit among the calls succeeded, when they were made after the calls in front. -/
def Committed (front calls : List Call) : Prop :=
  ∃ early token later, calls = early ++ .commit token :: later ∧
    ((run (front ++ early)).window.commit token).2 = .ok ()

theorem run_append (front calls : List Call) :
    run (front ++ calls) = calls.foldl step (run front) :=
  List.foldl_append

theorem run_concat (front : List Call) (call : Call) :
    run (front ++ [call]) = (run front).step call := by
  rw [run_append]
  rfl

/-- A commit that fails changes nothing. -/
theorem commit_error {h : History} (hvalid : h.Valid) {token : ReplayToken} {err : Error}
    (herr : (h.window.commit token).2 = .error err) : (h.window.commit token).1 = h.window := by
  rcases commit_cases hvalid.refines token with ⟨hstale, -⟩ | ⟨w', hok, -⟩
  · rw [hstale]
  · rw [hok] at herr
    cases herr

theorem step_of_error {h : History} (hvalid : h.Valid) {token : ReplayToken} {err : Error}
    (herr : (h.window.commit token).2 = .error err) : h.step (.commit token) = h := by
  have hcommit : h.window.commit token = (h.window, .error err) :=
    Prod.ext (commit_error hvalid herr) herr
  simp only [step, hcommit]

theorem step_of_ok {h : History} {token : ReplayToken}
    (hok : (h.window.commit token).2 = .ok ()) :
    (h.step (.commit token)).committed = h.committed ++ [token.sequence] := by
  have hcommit : h.window.commit token = ((h.window.commit token).1, .ok ()) :=
    Prod.ext rfl hok
  simp only [step]
  rw [hcommit]

/-! ## The generation counts the commits -/

/-- The committed sequences are distinct nonzero words, so there are fewer than `2 ^ 64`. -/
theorem committed_length_lt {h : History} (hvalid : h.Valid) : h.committed.length < 2 ^ 64 := by
  have hcard : h.seen.card = h.committed.length := by
    have hnodup := hvalid.nodup.map (f := UInt64.toNat) fun a b => UInt64.toNat_inj.mp
    rw [seen, List.toFinset_card_of_nodup hnodup, List.length_map]
  have hsubset : h.seen ⊆ Finset.Ico 1 (2 ^ 64) := by
    intro n hn
    have hpos : n ≠ 0 := by
      rintro rfl
      exact hvalid.refines.zero_notMem hn
    simp only [seen, List.mem_toFinset, List.mem_map] at hn
    obtain ⟨sequence, -, rfl⟩ := hn
    exact Finset.mem_Ico.mpr ⟨Nat.one_le_iff_ne_zero.mpr hpos, sequence.toNat_lt⟩
  have hle := Finset.card_le_card hsubset
  rw [hcard, Nat.card_Ico] at hle
  omega

theorem generation_step {h : History} (hvalid : h.Valid) (call : Call)
    (hcount : h.window.generation.toNat = h.committed.length) :
    (h.step call).window.generation.toNat = (h.step call).committed.length := by
  cases call with
  | check sequence => exact hcount
  | commit token =>
      rcases commit_cases hvalid.refines token with ⟨hstale, -⟩ | ⟨w', hok, hgeneration, -⟩
      · rw [step_of_error hvalid (congrArg Prod.snd hstale)]
        exact hcount
      · have hlength := committed_length_lt (valid_step hvalid (.commit token))
        rw [step_of_ok (congrArg Prod.snd hok), List.length_append, List.length_singleton]
          at hlength ⊢
        have hwindow : (h.step (.commit token)).window = w' := by
          simp [step, hok]
        rw [hwindow, hgeneration, UInt64.toNat_add, hcount]
        exact Nat.mod_eq_of_lt hlength

/-- After every sequence of calls the generation is the number of successful commits. -/
theorem generation_run (calls : List Call) :
    (run calls).window.generation.toNat = (run calls).committed.length := by
  induction calls using List.reverseRecOn with
  | nil => rfl
  | append_singleton calls call ih =>
      rw [run_concat]
      exact generation_step (valid_run calls) call ih

/-! ## What later calls do to a window -/

/-- Calls without a successful commit leave the history alone; any other calls lengthen
the list of commits. -/
theorem run_append_cases (front calls : List Call) :
    (¬ Committed front calls ∧ run (front ++ calls) = run front) ∨
      (Committed front calls ∧
        (run front).committed.length < (run (front ++ calls)).committed.length) := by
  induction calls using List.reverseRecOn with
  | nil =>
      left
      constructor
      · rintro ⟨early, token, later, hsplit, -⟩
        simp at hsplit
      · rw [List.append_nil]
  | append_singleton calls call ih =>
      have hrun : run (front ++ (calls ++ [call])) = (run (front ++ calls)).step call := by
        rw [← List.append_assoc, run_concat]
      have hvalid := valid_run (front ++ calls)
      -- a successful commit of the longer list is one of the shorter list or the last call
      have hlast : Committed front (calls ++ [call]) ↔ Committed front calls ∨
          ∃ token, call = .commit token ∧
            ((run (front ++ calls)).window.commit token).2 = .ok () := by
        constructor
        · rintro ⟨early, token, later, hsplit, hok⟩
          rcases List.eq_nil_or_concat later with rfl | ⟨later, last, rfl⟩
          · obtain ⟨rfl, hcall⟩ := List.append_inj' hsplit rfl
            exact .inr ⟨token, by simpa using hcall, hok⟩
          · rw [List.concat_eq_append, ← List.cons_append, ← List.append_assoc] at hsplit
            obtain ⟨rfl, -⟩ := List.append_inj' hsplit rfl
            exact .inl ⟨early, token, later, rfl, hok⟩
        · rintro (⟨early, token, later, rfl, hok⟩ | ⟨token, rfl, hok⟩)
          · exact ⟨early, token, later ++ [call], by simp, hok⟩
          · exact ⟨calls, token, [], rfl, hok⟩
      have hmono : (run (front ++ calls)).committed.length ≤
          ((run (front ++ calls)).step call).committed.length := by
        cases call with
        | check sequence => exact Nat.le_refl _
        | commit token =>
            cases hresult : ((run (front ++ calls)).window.commit token).2 with
            | error err => rw [step_of_error hvalid hresult]
            | ok _ => simp [step_of_ok hresult]
      rcases ih with ⟨hnone, hsame⟩ | ⟨hsome, hlonger⟩
      · by_cases hok : ∃ token, call = .commit token ∧
            ((run (front ++ calls)).window.commit token).2 = .ok ()
        · right
          obtain ⟨token, rfl, hok⟩ := hok
          refine ⟨hlast.mpr (.inr ⟨token, rfl, hok⟩), ?_⟩
          rw [hrun, step_of_ok hok, hsame]
          simp
        · left
          refine ⟨fun hcommitted => (hlast.mp hcommitted).elim hnone hok, ?_⟩
          rw [hrun, ← hsame]
          cases call with
          | check sequence => rfl
          | commit token =>
              cases hresult : ((run (front ++ calls)).window.commit token).2 with
              | error err => exact step_of_error hvalid hresult
              | ok _ => exact absurd ⟨token, rfl, hresult⟩ hok
      · right
        refine ⟨hlast.mpr (.inl hsome), ?_⟩
        rw [hrun]
        exact Nat.lt_of_lt_of_le hlonger hmono

end History

open History

/-- A token of an earlier generation does not commit. -/
theorem commit_of_generation_ne {w : ReplayWindow} {token : ReplayToken}
    (h : token.generation ≠ w.generation) :
    w.commit token = (w, .error Sentinel.replayStale.bare) := by
  unfold ReplayWindow.commit commitSequence
  by_cases hzero : token.sequence = 0
  · rw [if_pos hzero]
  · rw [if_neg hzero, if_pos (.inr h)]
    rfl

/-- A token commits exactly while no commit has succeeded since its check. -/
theorem commit_issued_iff {before between : List Call} {n : UInt64} {token : ReplayToken}
    (hissued : (run before).window.check n = .ok token) :
    ((run (before ++ .check n :: between)).window.commit token).2 = .ok () ↔
      ¬ Committed (before ++ [.check n]) between := by
  have hsplit : before ++ .check n :: between = (before ++ [.check n]) ++ between := by simp
  have hcheck : run (before ++ [.check n]) = run before := by
    rw [run_concat]
    rfl
  obtain ⟨rfl, hcommits⟩ := commit_of_check hissued
  rw [hsplit]
  rcases run_append_cases (before ++ [.check n]) between with
    ⟨hnone, hsame⟩ | ⟨hsome, hlonger⟩
  · rw [hsame, hcheck]
    exact ⟨fun _ => hnone, fun _ => hcommits⟩
  · have hstale : (run before).window.generation ≠
        (run ((before ++ [.check n]) ++ between)).window.generation := by
      intro heq
      rw [hcheck, ← generation_run, ← generation_run, heq] at hlonger
      exact Nat.lt_irrefl _ hlonger
    rw [commit_of_generation_ne hstale]
    constructor
    · intro hok
      cases hok
    · intro hnone
      exact absurd hsome hnone

/-- **Tokens are valid exactly until the next commit.**  After any calls on a zero window,
in which tokens may be presented in any order and any number of times: a commit that fails
changes nothing; the generation is the number of successful commits and has not wrapped,
because every commit recorded a nonzero sequence of its own; and the token of an earlier
successful `Check` commits iff no commit has succeeded since, so that a token that has
become stale stays stale whatever is called afterwards. -/
theorem replayToken_valid_until_commit (calls : List Call) :
    let h := run calls
    (∀ token err, (h.window.commit token).2 = .error err →
      (h.window.commit token).1 = h.window) ∧
    h.window.generation.toNat = h.committed.length ∧
    h.committed.length < 2 ^ 64 ∧ h.committed.Nodup ∧ 0 ∉ h.committed ∧
    ∀ before n between token, calls = before ++ .check n :: between →
      (run before).window.check n = .ok token →
      ((h.window.commit token).2 = .ok () ↔ ¬ Committed (before ++ [.check n]) between) ∧
      (Committed (before ++ [.check n]) between → ∀ later,
        ((run (calls ++ later)).window.commit token).2 = .error Sentinel.replayStale.bare) := by
  intro h
  have hvalid := valid_run calls
  refine ⟨fun token err => commit_error hvalid, generation_run calls,
    committed_length_lt hvalid, hvalid.nodup, ?_, ?_⟩
  · intro hzero
    exact hvalid.refines.zero_notMem (mem_seen.mpr hzero)
  · intro before n between token hcalls hissued
    constructor
    · show ((run calls).window.commit token).2 = .ok () ↔ _
      rw [hcalls]
      exact commit_issued_iff hissued
    · rintro ⟨early, used, rest, rfl, hok⟩ later
      have hlater : calls ++ later =
          before ++ .check n :: (early ++ .commit used :: (rest ++ later)) := by
        rw [hcalls]
        simp
      have hcommitted : Committed (before ++ [.check n])
          (early ++ .commit used :: (rest ++ later)) := ⟨early, used, rest ++ later, rfl, hok⟩
      rw [hlater]
      rcases commit_cases (valid_run _).refines token with ⟨hstale, -⟩ | ⟨w', hsucceeds, -⟩
      · rw [hstale]
      · exact absurd hcommitted ((commit_issued_iff hissued).mp (congrArg Prod.snd hsucceeds))

/-- Of two tokens for one sequence, the second one is stale once the first has committed. -/
theorem replayToken_valid_until_commit_twice :
    ((run [.check 1, .commit ⟨1, 0⟩]).window.commit ⟨1, 0⟩).2 ≠ .ok () := by
  have hissued : (run []).window.check 1 = .ok ⟨1, 0⟩ := by decide
  have hfirst : Committed [.check 1] [.commit ⟨1, 0⟩] :=
    ⟨[], ⟨1, 0⟩, [], rfl, (commit_of_check hissued).2⟩
  have htokens := (replayToken_valid_until_commit [.check 1, .commit ⟨1, 0⟩]).2.2.2.2.2
    [] 1 [.commit ⟨1, 0⟩] ⟨1, 0⟩ rfl hissued
  exact fun hok => htokens.1.mp hok hfirst

end Replay
end DgProto
