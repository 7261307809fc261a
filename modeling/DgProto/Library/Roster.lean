import DgProto.Library.ThreadPool
import Mathlib.Algebra.Order.Group.Multiset
import Mathlib.Tactic.Abel

/-!
# The instructions of one kind

The roster of a pool is the multiset of the instructions of one kind that its threads have
left.  A step takes the instruction that it executes off the roster and puts the ones
that it pushes and starts on it; nothing else moves.

Where the instructions of a kind are passed on from one to the next, at most one of them
is left at any time, and what it may assume is a property of that one instruction
(`Sole`).
-/

namespace DgProto
namespace Library

section Roster

variable {ι : Type} (p : ι → Bool)

/-- The instructions of the kind that the threads have left. -/
def roster (threads : List (List ι)) : Multiset ι :=
  (threads.flatten.filter p : List ι)

@[simp] theorem roster_nil : roster p [] = 0 := rfl

@[simp] theorem roster_cons (t : List ι) (threads : List (List ι)) :
    roster p (t :: threads) = (t.filter p : List ι) + roster p threads := by
  simp [roster]

@[simp] theorem roster_append (threads threads' : List (List ι)) :
    roster p (threads ++ threads') = roster p threads + roster p threads' := by
  simp [roster]

variable {p} {threads : List (List ι)} {k : Nat} {i : ι} {rest : List ι}

theorem mem_roster {j : ι} : j ∈ roster p threads ↔ (∃ t ∈ threads, j ∈ t) ∧ p j = true := by
  rw [roster, Multiset.mem_coe, List.mem_filter, List.mem_flatten]

theorem roster_eq_zero (h : ∀ t ∈ threads, ∀ j ∈ t, p j = false) : roster p threads = 0 := by
  rw [Multiset.eq_zero_iff_forall_notMem]
  intro j hj
  obtain ⟨⟨t, ht, hjt⟩, hp⟩ := mem_roster.mp hj
  rw [h t ht j hjt] at hp
  cases hp

theorem notMem_of_roster {j : ι} (h : roster p threads = 0) (hj : p j = true) {t : List ι}
    (ht : t ∈ threads) : j ∉ t := by
  intro hjt
  have hmem : j ∈ roster p threads := mem_roster.mpr ⟨⟨t, ht, hjt⟩, hj⟩
  rw [h] at hmem
  exact Multiset.notMem_zero j hmem

/-- The only instruction of the kind is left to one thread. -/
theorem eq_of_roster_singleton {j : ι} (h : roster p threads = {j}) {t t' : List ι}
    (ht : t ∈ threads) (ht' : t' ∈ threads) (hjt : j ∈ t) (hjt' : j ∈ t') : t = t' := by
  have hp : p j = true := (mem_roster.mp (h ▸ Multiset.mem_singleton_self j)).2
  by_contra hne
  obtain ⟨before, after, rfl⟩ := List.append_of_mem ht
  -- the second thread is one of the others, so the instruction would be left twice
  have hother : t' ∈ before ++ after := by
    simpa [Ne.symm hne] using ht'
  have hsplit : roster p (before ++ t :: after) =
      (t.filter p : List ι) + roster p (before ++ after) := by
    simp only [roster_append, roster_cons]
    abel
  have hfirst : 0 < Multiset.card (t.filter p : Multiset ι) :=
    Multiset.card_pos_iff_exists_mem.mpr ⟨j, Multiset.mem_coe.mpr (List.mem_filter.mpr ⟨hjt, hp⟩)⟩
  have hsecond : 0 < Multiset.card (roster p (before ++ after)) :=
    Multiset.card_pos_iff_exists_mem.mpr ⟨j, mem_roster.mpr ⟨⟨t', hother, hjt'⟩, hp⟩⟩
  have hcard := congrArg Multiset.card (hsplit.symm.trans h)
  rw [Multiset.card_add, Multiset.card_singleton] at hcard
  omega

/-- The roster of a narrower kind. -/
theorem roster_filter {q : ι → Bool} (h : ∀ j, q j = true → p j = true) :
    roster q threads = (roster p threads).filter (q · = true) := by
  simp only [roster, Multiset.filter_coe, List.filter_filter, Bool.decide_eq_true]
  congr 1
  apply List.filter_congr
  intro j _
  cases hq : q j with
  | false => rfl
  | true => rw [h j hq]; rfl

theorem roster_set (pushed : List ι) (hk : threads[k]? = some (i :: rest)) :
    roster p (threads.set k (pushed ++ rest)) + ([i].filter p : List ι) =
      roster p threads + (pushed.filter p : List ι) := by
  induction threads generalizing k with
  | nil => simp at hk
  | cons head tail ih =>
      cases k with
      | zero =>
          obtain rfl : head = i :: rest := by simpa using hk
          have hsplit : (((i :: rest).filter p : List ι) : Multiset ι) =
              ([i].filter p : List ι) + (rest.filter p : List ι) := by
            rw [Multiset.coe_add, ← List.filter_append, List.singleton_append]
          simp only [List.set_cons_zero, roster_cons, hsplit, List.filter_append,
            ← Multiset.coe_add]
          abel
      | succ k =>
          have htail := ih (k := k) (by simpa using hk)
          simp only [List.set_cons_succ, roster_cons]
          rw [add_assoc, htail, add_assoc]

/-- A step exchanges the instruction that it executes for those it leaves. -/
theorem roster_step (pushed : List ι) (spawned : List (List ι))
    (hk : threads[k]? = some (i :: rest)) :
    roster p (threads.set k (pushed ++ rest) ++ spawned) + ([i].filter p : List ι) =
      roster p threads + roster p (pushed :: spawned) := by
  have hset := roster_set (p := p) pushed hk
  rw [roster_append, roster_cons, add_right_comm, hset, add_assoc]

theorem roster_step_other (pushed : List ι) (spawned : List (List ι))
    (hk : threads[k]? = some (i :: rest)) (hi : p i = false) :
    roster p (threads.set k (pushed ++ rest) ++ spawned) =
      roster p threads + roster p (pushed :: spawned) := by
  have hstep := roster_step (p := p) pushed spawned hk
  simpa [hi] using hstep

theorem roster_step_own (pushed : List ι) (spawned : List (List ι))
    (hk : threads[k]? = some (i :: rest)) (hi : p i = true) :
    ∃ others, roster p threads = i ::ₘ others ∧
      roster p (threads.set k (pushed ++ rest) ++ spawned) =
        others + roster p (pushed :: spawned) := by
  have hmem : i ∈ roster p threads :=
    mem_roster.mpr ⟨⟨_, List.mem_of_getElem? hk, List.mem_cons_self⟩, hi⟩
  obtain ⟨others, hothers⟩ := Multiset.exists_cons_of_mem hmem
  have hstep := roster_step (p := p) pushed spawned hk
  refine ⟨others, hothers, ?_⟩
  have hone : ([i].filter p : List ι) = [i] := by simp [hi]
  rw [hone, Multiset.coe_singleton, hothers, ← Multiset.singleton_add, add_assoc, add_comm]
    at hstep
  exact add_left_cancel hstep

end Roster

/-! ## At most one instruction of a kind -/

section Sole

variable {ι : Type} {p : ι → Bool} {A A' : ι → Prop} {threads spawned : List (List ι)} {k : Nat}
  {i : ι} {rest pushed : List ι}

/-- At most one instruction of the kind is left, and it may assume `A`. -/
def Sole (p : ι → Bool) (A : ι → Prop) (threads : List (List ι)) : Prop :=
  roster p threads = 0 ∨ ∃ j, roster p threads = {j} ∧ A j

theorem Sole.none (h : roster p threads = 0) : Sole p A threads := .inl h

theorem Sole.one {j : ι} (h : roster p threads = {j}) (hj : A j) : Sole p A threads :=
  .inr ⟨j, h, hj⟩

/-- The instruction that is left may assume `A`. -/
theorem Sole.of_mem (h : Sole p A threads) {t : List ι} (ht : t ∈ threads) {j : ι} (hj : j ∈ t)
    (hp : p j = true) : roster p threads = {j} ∧ A j := by
  have hmem : j ∈ roster p threads := mem_roster.mpr ⟨⟨t, ht, hj⟩, hp⟩
  rcases h with hnone | ⟨only, honly, hA⟩
  · rw [hnone] at hmem
    cases Multiset.notMem_zero j hmem
  · rw [honly, Multiset.mem_singleton] at hmem
    subst hmem
    exact ⟨honly, hA⟩

theorem Sole.imp (h : Sole p A threads) (himp : ∀ j, roster p threads = {j} → A j → A' j) :
    Sole p A' threads := by
  rcases h with hnone | ⟨j, hj, hA⟩
  · exact .none hnone
  · exact .one hj (himp j hj hA)

/-- The one instruction is executed: it decides what may be assumed next. -/
theorem Sole.own (h : Sole p A threads) (hk : threads[k]? = some (i :: rest))
    (hi : p i = true) (hnext : Sole p A' (pushed :: spawned)) :
    Sole p A' (threads.set k (pushed ++ rest) ++ spawned) := by
  obtain ⟨others, hothers, hstep⟩ :=
    roster_step_own pushed spawned hk hi
  have hsole := (h.of_mem (List.mem_of_getElem? hk) List.mem_cons_self hi).1
  have hzero : others = 0 := by
    rw [hothers, ← Multiset.cons_zero] at hsole
    exact (Multiset.cons_inj_right i).mp hsole
  rw [hzero, zero_add] at hstep
  unfold Sole
  rw [hstep]
  exact hnext

/-- Another instruction is executed and leaves none of the kind. -/
theorem Sole.other (h : Sole p A threads) (hk : threads[k]? = some (i :: rest))
    (hi : p i = false) (hfree : roster p (pushed :: spawned) = 0)
    (hkeep : ∀ j, roster p threads = {j} → A j → A' j) :
    Sole p A' (threads.set k (pushed ++ rest) ++ spawned) := by
  have hstep := roster_step_other pushed spawned hk hi
  rw [hfree, add_zero] at hstep
  have hnext := h.imp hkeep
  unfold Sole at hnext ⊢
  rwa [hstep]

/-- Another instruction is executed while none of the kind is left. -/
theorem Sole.enter (hnone : roster p threads = 0) (hk : threads[k]? = some (i :: rest))
    (hi : p i = false) (hnext : Sole p A' (pushed :: spawned)) :
    Sole p A' (threads.set k (pushed ++ rest) ++ spawned) := by
  have hstep := roster_step_other pushed spawned hk hi
  rw [hnone, zero_add] at hstep
  unfold Sole
  rw [hstep]
  exact hnext

/-- The environment starts threads without instructions of the kind. -/
theorem Sole.spawn (h : Sole p A threads) (hfree : roster p spawned = 0)
    (hkeep : ∀ j, roster p threads = {j} → A j → A' j) : Sole p A' (threads ++ spawned) := by
  have hnext := h.imp hkeep
  unfold Sole at hnext ⊢
  rwa [roster_append, hfree, add_zero]

end Sole

end Library
end DgProto
