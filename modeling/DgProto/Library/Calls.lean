import DgProto.Library.ThreadPool

/-!
# Calls that a pool is asked to make

A call runs in a thread of its own.  It has returned when its thread has nothing left.
What a call is for is done by its last instruction: as long as every such instruction
either does it or pushes another one behind everything else, a thread without
instructions has done it (`Machine.Serves`).
-/

namespace DgProto
namespace Library

section Calls

variable {σ ι : Type} {p : ι → Bool} {threads spawned : List (List ι)} {k m : Nat} {i : ι}
  {t rest pushed : List ι}

/-- The last instruction of the thread is of this kind. -/
def endsWith (p : ι → Bool) (t : List ι) : Bool :=
  t.getLast?.any p

/-- What is pushed in front of other instructions does not change the last one. -/
theorem endsWith_append (hrest : rest ≠ []) : endsWith p (t ++ rest) = endsWith p rest := by
  simp [endsWith, List.getLast?_append, List.getLast?_eq_some_getLast hrest]

/-- The thread was started for a call, which it still has to serve or has served. -/
def Machine.Serves (p : ι → Bool) (served : σ → Prop) (k : Nat) (pool : Pool σ ι) : Prop :=
  (∃ t, pool.threads[k]? = some t ∧ endsWith p t = true) ∨ served pool.state

variable {M : Machine σ ι} {served : σ → Prop}

theorem getElem?_step_of_ne (h : threads[k]? = some t) (hne : m ≠ k) (t' : List ι) :
    (threads.set m t' ++ spawned)[k]? = some t := by
  have hset : (threads.set m t')[k]? = some t := (List.getElem?_set_ne hne).trans h
  obtain ⟨hlt, -⟩ := List.getElem?_eq_some_iff.mp hset
  rw [List.getElem?_append_left hlt, hset]

theorem getElem?_step_self (h : threads[k]? = some t) (t' : List ι) :
    (threads.set k t' ++ spawned)[k]? = some t' := by
  obtain ⟨hlt, -⟩ := List.getElem?_eq_some_iff.mp h
  have hset : (threads.set k t')[k]? = some t' := List.getElem?_set_self hlt
  rw [List.getElem?_append_left (by simpa using hlt), hset]

/-- A step of the machine keeps the call going. -/
theorem Machine.Serves.step {before after : Pool σ ι} (h : Serves p served k before)
    (hstep : M.Step before after)
    (hexec : ∀ {s i effect}, M.exec s i effect → p i = true →
      endsWith p effect.pushed = true ∨ served effect.state)
    (hkeep : ∀ {s i effect}, M.exec s i effect → served s → served effect.state)
    (hambient : ∀ {s s' new}, M.ambient s s' new → served s → served s') :
    Serves p served k after := by
  cases hstep with
  | @thread s threads m i rest effect hm hinstr =>
      rcases h with ⟨t, hk, hends⟩ | hserved
      · by_cases hmk : m = k
        · subst hmk
          obtain rfl : i :: rest = t := Option.some.inj (hm.symm.trans hk)
          have hnext : (threads.set m (effect.pushed ++ rest) ++ effect.spawned)[m]? = _ :=
            getElem?_step_self hk (effect.pushed ++ rest)
          -- the last instruction is the executed one, or it stays
          cases rest with
          | nil =>
              rcases hexec hinstr (by simpa [endsWith] using hends) with hpushed | hserved
              · exact .inl ⟨_, hnext, by rwa [List.append_nil]⟩
              · exact .inr hserved
          | cons j rest =>
              refine .inl ⟨_, hnext, ?_⟩
              rw [endsWith_append (List.cons_ne_nil j rest)]
              rwa [← List.singleton_append, endsWith_append (List.cons_ne_nil j rest)] at hends
        · exact .inl ⟨t, getElem?_step_of_ne hk hmk _, hends⟩
      · exact .inr (hkeep hinstr hserved)
  | @ambient s s' threads new henv =>
      rcases h with ⟨t, hk, hends⟩ | hserved
      · obtain ⟨hlt, -⟩ := List.getElem?_eq_some_iff.mp hk
        exact .inl ⟨t, by rw [List.getElem?_append_left hlt, hk], hends⟩
      · exact .inr (hambient henv hserved)

/-- A call that has returned was served. -/
theorem Machine.Serves.of_returned {pool : Pool σ ι} (h : Serves p served k pool)
    (hreturned : pool.threads[k]? = some []) : served pool.state := by
  rcases h with ⟨t, hk, hends⟩ | hserved
  · obtain rfl : [] = t := Option.some.inj (hreturned.symm.trans hk)
    cases hends
  · exact hserved

end Calls

end Library
end DgProto
