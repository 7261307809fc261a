import DgProto.Library.ThreadPool

/-!
# Pools that come to an end

A thread may have to wait for what another one holds: a lock, the end of a function that runs
once, a place in a wait group.  What a thread holds is carried by the instructions it has left,
the one that gives it back among them.

Three rules lead from local facts to the end of all threads.

* Totals of a balance and a weight stay at their limits, if every step keeps them that is
  possible within the limits (`Rations`).
* If every thread waits only for what comes lower in some order than what it carries further
  down (`nested`), not all threads wait (`exists_free`).
* If some steps always make a measure smaller, they lead to the end (`leads_of_progress`).
-/

namespace DgProto
namespace Library

/-! ## Totals that stay at their limit -/

section Rations

variable {σ ι κ : Type} {M : Machine σ ι} {weight : κ → ι → Nat} {balance : κ → σ → Int}
  {limit : κ → Int}

/-- Every step that the limits leave room for keeps the totals. -/
structure Machine.Rations (M : Machine σ ι) (weight : κ → ι → Nat) (balance : κ → σ → Int)
    (limit : κ → Int) : Prop where
  exec : ∀ {s i effect}, M.exec s i effect → (∀ k, balance k s + weight k i ≤ limit k) →
    ∀ k, balance k effect.state + effect.leaves (weight k) = balance k s + weight k i
  ambient : ∀ {s s' new}, M.ambient s s' new →
    ∀ k, balance k s' + load (weight k) new = balance k s

theorem Machine.Rations.step (h : M.Rations weight balance limit) {before after : Pool σ ι}
    (hstep : M.Step before after) (hbefore : ∀ k, before.total (weight k) (balance k) = limit k)
    (k : κ) : after.total (weight k) (balance k) = limit k := by
  cases hstep with
  | @thread s threads n i rest effect hn hexec =>
      have hroom : ∀ k, balance k s + weight k i ≤ limit k := by
        intro k
        have hheld : weight k i ≤ load (weight k) threads :=
          weight_le_load (List.mem_of_getElem? hn) List.mem_cons_self
        have htotal : balance k s + load (weight k) threads = limit k := hbefore k
        omega
      have hload : load (weight k) (threads.set n (effect.pushed ++ rest) ++ effect.spawned) +
          weight k i = load (weight k) threads + effect.leaves (weight k) := load_step hn
      have htotal : balance k s + load (weight k) threads = limit k := hbefore k
      have hlocal := h.exec hexec hroom k
      show balance k effect.state +
        load (weight k) (threads.set n (effect.pushed ++ rest) ++ effect.spawned) = limit k
      omega
  | @ambient s s' threads new hambient =>
      have hlocal := h.ambient hambient k
      have htotal : balance k s + load (weight k) threads = limit k := hbefore k
      show balance k s' + load (weight k) (threads ++ new) = limit k
      rw [load_append]
      push_cast
      omega

end Rations

/-! ## The order of what is held -/

/-- What instructions wait for and carry, with an order on it.  The level of an instruction
bounds the rank of everything that it, or what it pushes, ever waits for. -/
structure LockOrder (ι ρ : Type) where
  rank : ρ → Nat
  waits : ι → Option ρ
  carries : ι → List ρ
  level : ι → Nat
  waits_le : ∀ {i r}, waits i = some r → rank r ≤ level i
  own : ∀ {i r r'}, waits i = some r → r' ∈ carries i → rank r < rank r'

namespace LockOrder

variable {ι ρ : Type} (O : LockOrder ι ρ)

/-- Behind every instruction only that is carried which comes after its level. -/
def nested : List ι → Bool
  | [] => true
  | i :: rest => (rest.all fun j => (O.carries j).all fun r => O.level i < O.rank r) && nested rest

/-- The instructions may take the place of one of this level. -/
def fits (level : Nat) (pushed : List ι) : Bool :=
  O.nested pushed && pushed.all fun p => O.level p ≤ level

variable {O} {t rest pushed : List ι} {i : ι}

theorem nested_cons :
    O.nested (i :: rest) = true ↔
      (∀ j ∈ rest, ∀ r ∈ O.carries j, O.level i < O.rank r) ∧ O.nested rest = true := by
  simp [nested]

/-- Instructions that carry nothing are in order. -/
theorem nested_of_free (h : ∀ j ∈ t, O.carries j = []) : O.nested t = true := by
  induction t with
  | nil => rfl
  | cons i rest ih =>
      rw [nested_cons]
      refine ⟨fun j hj r hr => ?_, ih fun j hj => h j (List.mem_cons_of_mem _ hj)⟩
      rw [h j (List.mem_cons_of_mem _ hj)] at hr
      cases hr

theorem nested_append (h : O.nested pushed = true) (hrest : O.nested rest = true)
    (hbelow : ∀ p ∈ pushed, ∀ j ∈ rest, ∀ r ∈ O.carries j, O.level p < O.rank r) :
    O.nested (pushed ++ rest) = true := by
  induction pushed with
  | nil => exact hrest
  | cons p pushed ih =>
      obtain ⟨hp, hpushed⟩ := nested_cons.mp h
      rw [List.cons_append, nested_cons]
      refine ⟨?_, ih hpushed fun q hq => hbelow q (List.mem_cons_of_mem _ hq)⟩
      intro j hj r hr
      rcases List.mem_append.mp hj with hnew | hlast
      · exact hp j hnew r hr
      · exact hbelow p List.mem_cons_self j hlast r hr

/-- What fits takes the place of an instruction. -/
theorem nested_exec (h : O.nested (i :: rest) = true) (hfits : O.fits (O.level i) pushed = true) :
    O.nested (pushed ++ rest) = true := by
  obtain ⟨hi, hrest⟩ := nested_cons.mp h
  simp only [fits, Bool.and_eq_true, List.all_eq_true, decide_eq_true_eq] at hfits
  refine nested_append hfits.1 hrest ?_
  intro p hp j hj r hr
  exact lt_of_le_of_lt (hfits.2 p hp) (hi j hj r hr)

theorem nested_step {threads spawned : List (List ι)} {k : Nat}
    (h : ∀ t ∈ threads, O.nested t = true) (hk : threads[k]? = some (i :: rest))
    (hfits : O.fits (O.level i) pushed = true) (hspawned : ∀ t ∈ spawned, O.nested t = true) :
    ∀ t ∈ threads.set k (pushed ++ rest) ++ spawned, O.nested t = true := by
  intro t ht
  rcases mem_set_append ht with rfl | hold | hnew
  · exact nested_exec (h _ (List.mem_of_getElem? hk)) hfits
  · exact h t hold
  · exact hspawned t hnew

/-- A thread that carries something waits only for what comes before it. -/
theorem waits_lt (h : O.nested (i :: rest) = true) {r r' : ρ} (hwaits : O.waits i = some r)
    {j : ι} (hj : j ∈ i :: rest) (hcarries : r' ∈ O.carries j) : O.rank r < O.rank r' := by
  rcases List.mem_cons.mp hj with rfl | hrest
  · exact O.own hwaits hcarries
  · exact lt_of_le_of_lt (O.waits_le hwaits) ((nested_cons.mp h).1 j hrest r' hcarries)

/-- Whoever carries something is free, or waits for someone who carries something held and is
free. -/
theorem exists_free_of_carries {threads : List (List ι)} (held : ρ → Prop)
    (hnested : ∀ t ∈ threads, O.nested t = true)
    (hheld : ∀ r, held r → ∃ t ∈ threads, ∃ j ∈ t, r ∈ O.carries j) {r : ρ} {t : List ι}
    (ht : t ∈ threads) {j : ι} (hj : j ∈ t) (hcarries : r ∈ O.carries j) :
    ∃ i rest, i :: rest ∈ threads ∧ (∀ r', O.waits i = some r' → ¬ held r') ∧
      ∃ r', (r' = r ∨ held r') ∧ ∃ j ∈ i :: rest, r' ∈ O.carries j := by
  -- the ranks go down along the chain of those who wait
  induction hn : O.rank r using Nat.strong_induction_on generalizing r t j with
  | _ n ih =>
      cases t with
      | nil => cases hj
      | cons i rest =>
          by_cases hfree : ∀ r', O.waits i = some r' → ¬ held r'
          · exact ⟨i, rest, ht, hfree, r, .inl rfl, j, hj, hcarries⟩
          · push Not at hfree
            obtain ⟨r', hwaits, hr'⟩ := hfree
            have hlt := waits_lt (hnested _ ht) hwaits hj hcarries
            obtain ⟨t', ht', j', hj', hcarries'⟩ := hheld r' hr'
            obtain ⟨i', rest', hmem, hfree', r'', hheld'', hlast⟩ :=
              ih (O.rank r') (hn ▸ hlt) ht' hj' hcarries' rfl
            refine ⟨i', rest', hmem, hfree', r'', .inr ?_, hlast⟩
            rcases hheld'' with rfl | hheld''
            · exact hr'
            · exact hheld''

/-- If whatever is held is carried by a thread, not all threads wait. -/
theorem exists_free {threads : List (List ι)} {held : ρ → Prop}
    (hnested : ∀ t ∈ threads, O.nested t = true)
    (hheld : ∀ r, held r → ∃ t ∈ threads, ∃ j ∈ t, r ∈ O.carries j)
    (hne : ∃ t ∈ threads, t ≠ []) :
    ∃ i rest, i :: rest ∈ threads ∧ ∀ r, O.waits i = some r → ¬ held r := by
  obtain ⟨t, ht, hnonempty⟩ := hne
  obtain ⟨i, rest, rfl⟩ := List.exists_cons_of_ne_nil hnonempty
  by_cases hfree : ∀ r, O.waits i = some r → ¬ held r
  · exact ⟨i, rest, ht, hfree⟩
  · push Not at hfree
    obtain ⟨r, -, hr⟩ := hfree
    obtain ⟨t', ht', j, hj, hcarries⟩ := hheld r hr
    obtain ⟨i', rest', hmem, hfree', -⟩ := exists_free_of_carries held hnested hheld ht' hj hcarries
    exact ⟨i', rest', hmem, hfree'⟩

end LockOrder

/-! ## Facts of instructions further down -/

/-- What an instruction needs is known, or an instruction of its thread gives it. -/
theorem Backed.known_or_given {ι φ : Type} {needs gives : ι → List φ} {known : φ → Prop}
    {t : List ι} (h : Backed needs gives known t) {i : ι} (hi : i ∈ t) {f : φ} (hf : f ∈ needs i) :
    known f ∨ ∃ j ∈ t, f ∈ gives j := by
  induction t generalizing known with
  | nil => cases hi
  | cons j rest ih =>
      rcases List.mem_cons.mp hi with rfl | hrest
      · exact .inl (h.1 f hf)
      · rcases ih h.2 hrest with (hknown | hgiven) | ⟨j', hj', hgiven⟩
        · exact .inl hknown
        · exact .inr ⟨j, List.mem_cons_self, hgiven⟩
        · exact .inr ⟨j', List.mem_cons_of_mem _ hj', hgiven⟩

/-! ## Duties -/

section Duties

variable {ι : Type} {q : ι → Prop} {threads spawned : List (List ι)} {k : Nat} {i : ι}
  {rest pushed : List ι}

/-- What some thread has to do is done by its first instruction, which may leave it to others, or
it is still to be done. -/
theorem exists_duty_step (h : ∃ t ∈ threads, ∃ j ∈ t, q j) (hk : threads[k]? = some (i :: rest))
    (hown : q i → ∃ t ∈ pushed :: spawned, ∃ j ∈ t, q j) :
    ∃ t ∈ threads.set k (pushed ++ rest) ++ spawned, ∃ j ∈ t, q j := by
  obtain ⟨t, ht, j, hj, hq⟩ := h
  by_cases hi : q i
  · obtain ⟨t', ht', j', hj', hq'⟩ := hown hi
    rcases List.mem_cons.mp ht' with rfl | hspawned
    · exact ⟨_, mem_set_append_self hk, j', List.mem_append_left _ hj', hq'⟩
    · exact ⟨t', List.mem_append_right _ hspawned, j', hj', hq'⟩
  · have hne : j ≠ i := by
      rintro rfl
      exact hi hq
    obtain ⟨t', ht', hj'⟩ := exists_mem_step hk ht hj hne
    exact ⟨t', ht', j, hj', hq⟩

end Duties

/-! ## Measures -/

section Progress

variable {σ ι : Type} {M : Machine σ ι}

/-- Every step of the first machine is one of the second. -/
structure Machine.Within (M M' : Machine σ ι) : Prop where
  exec : ∀ {s i effect}, M.exec s i effect → M'.exec s i effect
  ambient : ∀ {s s' new}, M.ambient s s' new → M'.ambient s s' new

theorem Machine.Within.step {M' : Machine σ ι} (h : M.Within M') {before after : Pool σ ι}
    (hstep : M.Step before after) : M'.Step before after := by
  cases hstep with
  | thread k hk hexec => exact .thread k hk (h.exec hexec)
  | ambient hambient => exact .ambient (h.ambient hambient)

theorem Machine.Within.reaches {M' : Machine σ ι} (h : M.Within M') {start reached : Pool σ ι}
    (hreach : M.Reaches start reached) : M'.Reaches start reached := by
  induction hreach with
  | refl => exact .refl
  | tail _ hstep ih => exact ih.tail (h.step hstep)

/-- The threads without the environment. -/
def Machine.alone (M : Machine σ ι) : Machine σ ι :=
  ⟨M.exec, fun _ _ _ => False⟩

theorem Machine.alone_within : M.alone.Within M where
  exec h := h
  ambient h := h.elim

theorem Machine.step_of_alone {before after : Pool σ ι} (h : M.alone.Step before after) :
    M.Step before after :=
  alone_within.step h

theorem Machine.reaches_of_alone {start reached : Pool σ ι} (h : M.alone.Reaches start reached) :
    M.Reaches start reached :=
  alone_within.reaches h

/-- Where the measure can always be made smaller, the goal is reached. -/
theorem Machine.leads_of_progress {I Q : Pool σ ι → Prop} (measure : Pool σ ι → Nat)
    (hprogress : ∀ pool, I pool → Q pool ∨
      ∃ next, M.Reaches pool next ∧ I next ∧ measure next < measure pool)
    {pool : Pool σ ι} (h : I pool) : M.Leads (fun reached => I reached ∧ Q reached) pool := by
  induction hn : measure pool using Nat.strong_induction_on generalizing pool with
  | _ n ih =>
      rcases hprogress pool h with hdone | ⟨next, hreach, hnext, hlt⟩
      · exact .here ⟨h, hdone⟩
      · obtain ⟨reached, hreached, hend⟩ := ih (measure next) (hn ▸ hlt) hnext rfl
        exact ⟨reached, hreach.trans hreached, hend⟩

/-- Every run from here is finite and comes to a pool with the property, whatever its steps are. -/
inductive Machine.Inevitably (M : Machine σ ι) (Q : Pool σ ι → Prop) : Pool σ ι → Prop where
  | here {pool : Pool σ ι} (h : Q pool) : Inevitably M Q pool
  | later {pool : Pool σ ι} (hcan : ∃ next, M.Step pool next)
      (hmust : ∀ next, M.Step pool next → Inevitably M Q next) : Inevitably M Q pool

/-- A thread that is alone goes on with whatever its first instruction does. -/
theorem Machine.Inevitably.only {Q : Pool σ ι → Prop} {s : σ} {i : ι} {rest : List ι}
    (hcan : ∃ effect, M.exec s i effect)
    (hmust : ∀ effect, M.exec s i effect → effect.spawned = [] ∧
      M.alone.Inevitably Q ⟨effect.state, [effect.pushed ++ rest]⟩) :
    M.alone.Inevitably Q ⟨s, [i :: rest]⟩ := by
  obtain ⟨effect, hexec⟩ := hcan
  refine .later ⟨_, .thread 0 rfl hexec⟩ fun next hstep => ?_
  cases hstep with
  | thread k hk hexec =>
      cases k with
      | zero =>
          obtain ⟨rfl, rfl⟩ := List.cons.inj (Option.some.inj hk)
          obtain ⟨hspawned, hgoes⟩ := hmust _ hexec
          rw [hspawned, List.append_nil]
          exact hgoes
      | succ k => cases hk
  | ambient hfalse => exact hfalse.elim

end Progress

end Library
end DgProto
