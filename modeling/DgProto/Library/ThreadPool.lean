import Mathlib.Algebra.Order.Group.Int
import Mathlib.Logic.Relation
import Mathlib.Tactic.Common

/-!
# Pools of threads over a shared state

A thread is the stack of the instructions it has left.  One step of a pool executes
the first instruction of any thread: it changes the shared state, pushes instructions
in front of what the thread has left and may start new threads.  The environment may
change the state and start threads on its own.

Five rules carry invariants over all interleavings:

* a balance of the state and a weight of the instructions left (`Conserves`, `Spends`);
* facts that stay true once they hold, which an instruction needs and gives (`Backed`);
* instructions that are always followed by another one in their thread (`Followed`), or
  that stand right in front of it (`adjacent`);
* an assertion about the one thread that owns a token (`owned_step`).
-/

namespace DgProto
namespace Library

/-- What one instruction does. -/
structure Effect (σ ι : Type) where
  state : σ
  /-- Put in front of what the thread has left. -/
  pushed : List ι
  /-- The threads it starts. -/
  spawned : List (List ι)

/-- The instructions of a thread, and what happens outside of all threads. -/
structure Machine (σ ι : Type) where
  exec : σ → ι → Effect σ ι → Prop
  ambient : σ → σ → List (List ι) → Prop

/-- A shared state and the threads over it. -/
structure Pool (σ ι : Type) where
  state : σ
  threads : List (List ι)

namespace Machine

variable {σ ι : Type}

/-- One thread executes its first instruction, or the environment acts. -/
inductive Step (M : Machine σ ι) : Pool σ ι → Pool σ ι → Prop where
  | thread {s : σ} {threads : List (List ι)} (k : Nat) {i : ι} {rest : List ι}
      {effect : Effect σ ι} (hk : threads[k]? = some (i :: rest))
      (hexec : M.exec s i effect) :
      Step M ⟨s, threads⟩
        ⟨effect.state, threads.set k (effect.pushed ++ rest) ++ effect.spawned⟩
  | ambient {s s' : σ} {threads new : List (List ι)} (h : M.ambient s s' new) :
      Step M ⟨s, threads⟩ ⟨s', threads ++ new⟩

/-- Some interleaving leads from the first pool to the second. -/
def Reaches (M : Machine σ ι) : Pool σ ι → Pool σ ι → Prop :=
  Relation.ReflTransGen M.Step

/-- What holds at the start and is kept by every step holds in every reached pool. -/
theorem invariant_of_step {M : Machine σ ι} {I : Pool σ ι → Prop}
    (hstep : ∀ {before after}, I before → M.Step before after → I after)
    {start reached : Pool σ ι} (hstart : I start) (h : M.Reaches start reached) :
    I reached := by
  induction h with
  | refl => exact hstart
  | tail _ hlast ih => exact hstep ih hlast

/-- Some interleaving leads to a pool with the property. -/
def Leads (M : Machine σ ι) (Q : Pool σ ι → Prop) (pool : Pool σ ι) : Prop :=
  ∃ reached, M.Reaches pool reached ∧ Q reached

theorem Leads.here {M : Machine σ ι} {Q : Pool σ ι → Prop} {pool : Pool σ ι} (h : Q pool) :
    M.Leads Q pool :=
  ⟨pool, .refl, h⟩

theorem Leads.step {M : Machine σ ι} {Q : Pool σ ι → Prop} {before after : Pool σ ι}
    (hstep : M.Step before after) (h : M.Leads Q after) : M.Leads Q before := by
  obtain ⟨reached, hreach, hQ⟩ := h
  exact ⟨reached, hreach.head hstep, hQ⟩

/-- A step of the thread after these. -/
theorem Leads.after (before : List (List ι)) {M : Machine σ ι} {Q : Pool σ ι → Prop} {s : σ}
    {i : ι} {rest : List ι} {threads : List (List ι)} {effect : Effect σ ι}
    (hexec : M.exec s i effect)
    (h : M.Leads Q
      ⟨effect.state, before ++ (effect.pushed ++ rest) :: (threads ++ effect.spawned)⟩) :
    M.Leads Q ⟨s, before ++ (i :: rest) :: threads⟩ := by
  have hget : (before ++ (i :: rest) :: threads)[before.length]? = some (i :: rest) := by
    rw [List.getElem?_append_right (Nat.le_refl _), Nat.sub_self, List.getElem?_cons_zero]
  have hstep := Step.thread before.length hget hexec
  rw [List.set_append_right _ _ (Nat.le_refl _), Nat.sub_self, List.set_cons_zero,
    List.append_assoc, List.cons_append] at hstep
  exact Leads.step hstep h

/-- A step of the first thread. -/
theorem Leads.first {M : Machine σ ι} {Q : Pool σ ι → Prop} {s : σ} {i : ι} {rest : List ι}
    {threads : List (List ι)} {effect : Effect σ ι} (hexec : M.exec s i effect)
    (h : M.Leads Q ⟨effect.state, (effect.pushed ++ rest) :: (threads ++ effect.spawned)⟩) :
    M.Leads Q ⟨s, (i :: rest) :: threads⟩ :=
  Leads.after [] hexec h

/-- A step of the second thread. -/
theorem Leads.second {M : Machine σ ι} {Q : Pool σ ι → Prop} {s : σ} {i : ι} {t rest : List ι}
    {threads : List (List ι)} {effect : Effect σ ι} (hexec : M.exec s i effect)
    (h : M.Leads Q ⟨effect.state, t :: (effect.pushed ++ rest) :: (threads ++ effect.spawned)⟩) :
    M.Leads Q ⟨s, t :: (i :: rest) :: threads⟩ :=
  Leads.after [t] hexec h

end Machine

section Threads

variable {σ ι : Type} {threads : List (List ι)} {k : Nat} {t t' : List ι}

/-- A thread of the next pool is the changed one, an old one or a new one. -/
theorem mem_set_append {spawned : List (List ι)} (h : t ∈ threads.set k t' ++ spawned) :
    t = t' ∨ t ∈ threads ∨ t ∈ spawned := by
  rcases List.mem_append.mp h with hset | hnew
  · rcases List.mem_or_eq_of_mem_set hset with hold | rfl
    · exact .inr (.inl hold)
    · exact .inl rfl
  · exact .inr (.inr hnew)

/-- Another thread stays. -/
theorem mem_set_append_of_ne {u : List ι} {spawned : List (List ι)} (ht : t ∈ threads)
    (hk : threads[k]? = some u) (hne : t ≠ u) : t ∈ threads.set k t' ++ spawned := by
  obtain ⟨m, hm⟩ := List.mem_iff_getElem?.mp ht
  have hmk : k ≠ m := by
    rintro rfl
    exact hne (Option.some.inj (hm.symm.trans hk))
  have hstay : (threads.set k t')[m]? = some t := by rw [List.getElem?_set_ne hmk, hm]
  exact List.mem_append_left _ (List.mem_of_getElem? hstay)

theorem mem_set_append_self {u : List ι} {spawned : List (List ι)}
    (hk : threads[k]? = some u) : t' ∈ threads.set k t' ++ spawned := by
  obtain ⟨hlt, -⟩ := List.getElem?_eq_some_iff.mp hk
  exact List.mem_append_left _ (List.mem_set hlt t')

/-- An instruction that is not executed stays in some thread. -/
theorem exists_mem_step {i j : ι} {rest pushed : List ι} {spawned : List (List ι)}
    (hk : threads[k]? = some (i :: rest)) (ht : t ∈ threads) (hj : j ∈ t) (hne : j ≠ i) :
    ∃ t' ∈ threads.set k (pushed ++ rest) ++ spawned, j ∈ t' := by
  by_cases hsame : t = i :: rest
  · subst hsame
    have hrest : j ∈ rest := (List.mem_cons.mp hj).resolve_left hne
    exact ⟨_, mem_set_append_self hk, List.mem_append_right _ hrest⟩
  · exact ⟨t, mem_set_append_of_ne ht hk hsame, hj⟩

end Threads

/-! ## Weights -/

section Weights

variable {σ ι : Type} (weight : ι → Nat)

/-- The weight of the instructions a thread has left. -/
def weigh : List ι → Nat
  | [] => 0
  | i :: t => weight i + weigh t

/-- The weight of all threads. -/
def load : List (List ι) → Nat
  | [] => 0
  | t :: threads => weigh weight t + load threads

@[simp] theorem weigh_nil : weigh weight [] = 0 := rfl

@[simp] theorem weigh_cons (i : ι) (t : List ι) :
    weigh weight (i :: t) = weight i + weigh weight t :=
  rfl

@[simp] theorem weigh_append (t t' : List ι) :
    weigh weight (t ++ t') = weigh weight t + weigh weight t' := by
  induction t with
  | nil => simp
  | cons i t ih =>
      rw [List.cons_append, weigh_cons, weigh_cons, ih]
      omega

@[simp] theorem load_nil : load weight [] = 0 := rfl

@[simp] theorem load_cons (t : List ι) (threads : List (List ι)) :
    load weight (t :: threads) = weigh weight t + load weight threads :=
  rfl

@[simp] theorem load_append (threads threads' : List (List ι)) :
    load weight (threads ++ threads') = load weight threads + load weight threads' := by
  induction threads with
  | nil => simp
  | cons t threads ih =>
      rw [List.cons_append, load_cons, load_cons, ih]
      omega

variable {weight} {threads : List (List ι)} {k : Nat} {t t' : List ι} {i : ι}

/-- Replacing a thread exchanges its weight. -/
theorem load_set (hk : threads[k]? = some t) :
    load weight (threads.set k t') + weigh weight t = load weight threads + weigh weight t' := by
  induction threads generalizing k with
  | nil => simp at hk
  | cons head tail ih =>
      cases k with
      | zero =>
          obtain rfl : head = t := by simpa using hk
          simp only [List.set_cons_zero, load_cons]
          omega
      | succ k =>
          have htail := ih (k := k) (by simpa using hk)
          simp only [List.set_cons_succ, load_cons]
          omega

/-- A step exchanges the weight of the executed instruction for that of what it leaves. -/
theorem load_step {rest pushed : List ι} {spawned : List (List ι)}
    (hk : threads[k]? = some (i :: rest)) :
    load weight (threads.set k (pushed ++ rest) ++ spawned) + weight i =
      load weight threads + (weigh weight pushed + load weight spawned) := by
  have hset : load weight (threads.set k (pushed ++ rest)) + weigh weight (i :: rest) =
      load weight threads + weigh weight (pushed ++ rest) := load_set hk
  simp only [weigh_cons, weigh_append] at hset
  rw [load_append]
  omega

theorem weight_le_weigh (h : i ∈ t) : weight i ≤ weigh weight t := by
  obtain ⟨before, after, rfl⟩ := List.append_of_mem h
  rw [weigh_append, weigh_cons]
  omega

theorem weigh_le_load (h : t ∈ threads) : weigh weight t ≤ load weight threads := by
  obtain ⟨before, after, rfl⟩ := List.append_of_mem h
  rw [load_append, load_cons]
  omega

theorem weight_le_load (ht : t ∈ threads) (hi : i ∈ t) : weight i ≤ load weight threads :=
  (weight_le_weigh hi).trans (weigh_le_load ht)

/-- A weight that no thread carries is carried by no instruction. -/
theorem weight_eq_zero_of_load (hload : load weight threads = 0) (ht : t ∈ threads)
    (hi : i ∈ t) : weight i = 0 := by
  have hle : weight i ≤ load weight threads := weight_le_load ht hi
  omega

theorem weigh_eq_zero (h : ∀ i ∈ t, weight i = 0) : weigh weight t = 0 := by
  induction t with
  | nil => rfl
  | cons i t ih =>
      rw [weigh_cons, h i List.mem_cons_self, ih fun j hj => h j (List.mem_cons_of_mem _ hj)]

/-- A weight that no instruction carries is carried by no thread. -/
theorem load_eq_zero (h : ∀ t ∈ threads, ∀ i ∈ t, weight i = 0) : load weight threads = 0 := by
  induction threads with
  | nil => rfl
  | cons t threads ih =>
      rw [load_cons, weigh_eq_zero (h t List.mem_cons_self),
        ih fun t' ht' => h t' (List.mem_cons_of_mem _ ht')]

/-- A weight that the pool carries is carried by an instruction. -/
theorem exists_of_load_pos (h : 0 < load weight threads) :
    ∃ t ∈ threads, ∃ i ∈ t, weight i ≠ 0 := by
  by_contra hnone
  push Not at hnone
  rw [load_eq_zero hnone] at h
  exact absurd h (Nat.lt_irrefl 0)

/-- A weight bounded by another one on every instruction is bounded by it on a pool. -/
theorem load_le_load {weight' : ι → Nat} (h : ∀ i, weight i ≤ weight' i)
    (threads : List (List ι)) : load weight threads ≤ load weight' threads := by
  have hthread : ∀ t : List ι, weigh weight t ≤ weigh weight' t := by
    intro t
    induction t with
    | nil => exact Nat.le_refl _
    | cons i t ih =>
        have hi := h i
        simp only [weigh_cons]
        omega
  induction threads with
  | nil => exact Nat.le_refl _
  | cons t threads ih =>
      have ht := hthread t
      simp only [load_cons]
      omega

theorem load_add (weight weight' : ι → Nat) (threads : List (List ι)) :
    load (fun i => weight i + weight' i) threads = load weight threads + load weight' threads := by
  have hthread : ∀ t : List ι,
      weigh (fun i => weight i + weight' i) t = weigh weight t + weigh weight' t := by
    intro t
    induction t with
    | nil => rfl
    | cons i t ih =>
        simp only [weigh_cons, ih]
        omega
  induction threads with
  | nil => rfl
  | cons t threads ih =>
      simp only [load_cons, hthread, ih]
      omega

/-- Where the weights of the pool add up to at most one, one instruction has it all. -/
theorem eq_of_load_le_one (hload : load weight threads ≤ 1) {u : List ι} {j : ι}
    (ht : t ∈ threads) (hi : i ∈ t) (hu : u ∈ threads) (hj : j ∈ u)
    (hwi : weight i ≠ 0) (hwj : weight j ≠ 0) : i = j := by
  classical
  by_contra hne
  -- split the weight into that of `i` and that of all others, which `j` has a part in
  let own : ι → Nat := fun x => if x = i then weight x else 0
  let others : ι → Nat := fun x => if x = i then 0 else weight x
  have hsplit : load weight threads = load own threads + load others threads := by
    rw [← load_add]
    congr 1
    funext x
    by_cases hx : x = i <;> simp [own, others, hx]
  have hown : own i ≤ load own threads := weight_le_load ht hi
  have hothers : others j ≤ load others threads := weight_le_load hu hj
  have howni : own i = weight i := if_pos rfl
  have hothersj : others j = weight j := if_neg (Ne.symm hne)
  omega

end Weights

/-! ## Balances -/

section Balances

variable {σ ι : Type} {M : Machine σ ι} {weight : ι → Nat} {balance : σ → Int}

/-- The weight of what an instruction leaves to do. -/
def Effect.leaves (weight : ι → Nat) (effect : Effect σ ι) : Nat :=
  weigh weight effect.pushed + load weight effect.spawned

/-- The balance of the state and the weight of what the threads have left. -/
def Pool.total (weight : ι → Nat) (balance : σ → Int) (pool : Pool σ ι) : Int :=
  balance pool.state + load weight pool.threads

/-- No instruction and nothing in the environment raises the total. -/
structure Machine.Spends (M : Machine σ ι) (weight : ι → Nat) (balance : σ → Int) : Prop where
  exec : ∀ {s i effect}, M.exec s i effect →
    balance effect.state + effect.leaves weight ≤ balance s + weight i
  ambient : ∀ {s s' new}, M.ambient s s' new → balance s' + load weight new ≤ balance s

/-- Every instruction and everything in the environment keeps the total. -/
structure Machine.Conserves (M : Machine σ ι) (weight : ι → Nat) (balance : σ → Int) :
    Prop where
  exec : ∀ {s i effect}, M.exec s i effect →
    balance effect.state + effect.leaves weight = balance s + weight i
  ambient : ∀ {s s' new}, M.ambient s s' new → balance s' + load weight new = balance s

theorem Machine.Spends.step (h : M.Spends weight balance) {before after : Pool σ ι}
    (hstep : M.Step before after) : after.total weight balance ≤ before.total weight balance := by
  cases hstep with
  | @thread s threads k i rest effect hk hexec =>
      have hlocal := h.exec hexec
      have hload : load weight (threads.set k (effect.pushed ++ rest) ++ effect.spawned) +
          weight i = load weight threads + effect.leaves weight := load_step hk
      simp only [Pool.total]
      omega
  | ambient hambient =>
      have hlocal := h.ambient hambient
      simp only [Pool.total, load_append]
      push_cast
      omega

theorem Machine.Conserves.step (h : M.Conserves weight balance) {before after : Pool σ ι}
    (hstep : M.Step before after) : after.total weight balance = before.total weight balance := by
  cases hstep with
  | @thread s threads k i rest effect hk hexec =>
      have hlocal := h.exec hexec
      have hload : load weight (threads.set k (effect.pushed ++ rest) ++ effect.spawned) +
          weight i = load weight threads + effect.leaves weight := load_step hk
      simp only [Pool.total]
      omega
  | ambient hambient =>
      have hlocal := h.ambient hambient
      simp only [Pool.total, load_append]
      push_cast
      omega

theorem Machine.Spends.reaches (h : M.Spends weight balance) {start reached : Pool σ ι}
    (hreach : M.Reaches start reached) :
    reached.total weight balance ≤ start.total weight balance :=
  Machine.invariant_of_step (I := fun pool => pool.total weight balance ≤ _)
    (fun hle hstep => (h.step hstep).trans hle) (le_refl _) hreach

theorem Machine.Conserves.reaches (h : M.Conserves weight balance) {start reached : Pool σ ι}
    (hreach : M.Reaches start reached) :
    reached.total weight balance = start.total weight balance :=
  Machine.invariant_of_step (I := fun pool => pool.total weight balance = _)
    (fun heq hstep => (h.step hstep).trans heq) rfl hreach

end Balances

/-! ## Facts that stay true -/

section Facts

variable {σ ι φ : Type} {needs gives : ι → List φ} {known known' : φ → Prop}

/-- Every instruction of a thread finds what it needs among the known facts and those
given by the instructions in front of it. -/
def Backed (needs gives : ι → List φ) : (φ → Prop) → List ι → Prop
  | _, [] => True
  | known, i :: rest =>
      (∀ f ∈ needs i, known f) ∧ Backed needs gives (fun f => known f ∨ f ∈ gives i) rest

theorem Backed.mono {t : List ι} (h : Backed needs gives known t)
    (hle : ∀ f, known f → known' f) : Backed needs gives known' t := by
  induction t generalizing known known' with
  | nil => exact trivial
  | cons i rest ih =>
      refine ⟨fun f hf => hle f (h.1 f hf), ih h.2 fun f hf => ?_⟩
      exact hf.imp_left (hle f)

/-- Instructions that need nothing are backed. -/
theorem Backed.of_needless {t : List ι} (h : ∀ i ∈ t, needs i = []) :
    Backed needs gives known t := by
  induction t generalizing known with
  | nil => exact trivial
  | cons i rest ih =>
      refine ⟨fun f hf => ?_, ih fun j hj => h j (List.mem_cons_of_mem _ hj)⟩
      rw [h i List.mem_cons_self] at hf
      exact absurd hf List.not_mem_nil

theorem Backed.append {t t' : List ι} (h : Backed needs gives known t)
    (h' : Backed needs gives (fun f => known f ∨ ∃ i ∈ t, f ∈ gives i) t') :
    Backed needs gives known (t ++ t') := by
  induction t generalizing known with
  | nil => simpa using h'
  | cons i rest ih =>
      refine ⟨h.1, ih h.2 (h'.mono fun f hf => ?_)⟩
      simpa [or_assoc] using hf

/-- Executing the first instruction of a backed thread leaves a backed thread, if what
it pushes is backed and gives what the instruction was to give. -/
theorem Backed.exec {i : ι} {rest pushed : List ι} (h : Backed needs gives known (i :: rest))
    (hmono : ∀ f, known f → known' f) (hpushed : Backed needs gives known' pushed)
    (hgives : ∀ f ∈ gives i, known' f ∨ ∃ j ∈ pushed, f ∈ gives j) :
    Backed needs gives known' (pushed ++ rest) := by
  refine hpushed.append (h.2.mono fun f hf => ?_)
  rcases hf with hknown | hgiven
  · exact .inl (hmono f hknown)
  · exact hgives f hgiven

/-- The instructions find what they need among the known facts and what those in front of
them give.  Unlike `Backed` this can be evaluated. -/
def backs [DecidableEq φ] (needs gives : ι → List φ) : List φ → List ι → Bool
  | _, [] => true
  | known, i :: rest => (needs i).all known.contains && backs needs gives (known ++ gives i) rest

theorem Backed.of_backs [DecidableEq φ] (facts : List φ) {t : List ι}
    (h : backs needs gives facts t = true) (hfacts : ∀ f ∈ facts, known f) :
    Backed needs gives known t := by
  induction t generalizing facts known with
  | nil => exact trivial
  | cons i rest ih =>
      simp only [backs, Bool.and_eq_true, List.all_eq_true, List.contains_iff_mem] at h
      refine ⟨fun f hf => hfacts f (h.1 f hf), ih _ h.2 fun f hf => ?_⟩
      exact (List.mem_append.mp hf).imp_left (hfacts f)

/-- What an executed instruction leaves: threads that find what they need, and what it was to
give is known or still to be given. -/
structure Effect.Backs (needs gives : ι → List φ) (known : φ → Prop) (i : ι)
    (effect : Effect σ ι) : Prop where
  threads : ∀ t ∈ effect.pushed :: effect.spawned, Backed needs gives known t
  gives : ∀ f ∈ gives i, known f ∨ ∃ j ∈ effect.pushed, f ∈ gives j

namespace Effect.Backs

variable {i : ι} {effect : Effect σ ι}

/-- What is pushed and started finds what it needs among these facts. -/
theorem of_known [DecidableEq φ] (facts : List φ)
    (h : (effect.pushed :: effect.spawned).all (backs needs gives facts) = true)
    (hfacts : ∀ f ∈ facts, known f)
    (hgives : ∀ f ∈ gives i, known f ∨ ∃ j ∈ effect.pushed, f ∈ gives j) :
    effect.Backs needs gives known i := by
  refine ⟨fun t ht => ?_, hgives⟩
  exact .of_backs facts (List.all_eq_true.mp h t ht) hfacts

/-- What is pushed and started needs no fact, and none was to be given. -/
theorem of_free [DecidableEq φ]
    (h : (effect.pushed :: effect.spawned).all (backs needs gives []) = true)
    (hgives : gives i = []) : effect.Backs needs gives known i := by
  refine of_known [] h (fun _ hf => absurd hf List.not_mem_nil) ?_
  rw [hgives]
  exact fun _ hf => absurd hf List.not_mem_nil

/-- The instruction gives by itself what it was to give. -/
theorem of_given (hgives : ∀ f ∈ gives i, known f) (hpushed : effect.pushed = [])
    (hspawned : effect.spawned = []) : effect.Backs needs gives known i := by
  refine ⟨?_, fun f hf => .inl (hgives f hf)⟩
  rw [hpushed, hspawned]
  exact List.forall_mem_singleton.mpr trivial

/-- A step keeps all threads backed. -/
theorem step {threads : List (List ι)} {k : Nat} {rest : List ι}
    (heffect : effect.Backs needs gives known' i)
    (h : ∀ t ∈ threads, Backed needs gives known t) (hk : threads[k]? = some (i :: rest))
    (hmono : ∀ f, known f → known' f) :
    ∀ t ∈ threads.set k (effect.pushed ++ rest) ++ effect.spawned,
      Backed needs gives known' t := by
  intro t ht
  rcases mem_set_append ht with rfl | hold | hspawned
  · have hthread := h _ (List.mem_of_getElem? hk)
    exact hthread.exec hmono (heffect.threads _ List.mem_cons_self) heffect.gives
  · exact (h t hold).mono hmono
  · exact heffect.threads t (List.mem_cons_of_mem _ hspawned)

end Effect.Backs

end Facts

/-! ## Instructions that are followed by another -/

section Followed

variable {ι : Type} {p q : ι → Prop}

/-- After every `p` the thread has a `q` left. -/
def Followed (p q : ι → Prop) : List ι → Prop
  | [] => True
  | i :: rest => (p i → ∃ j ∈ rest, q j) ∧ Followed p q rest

theorem Followed.append_of_exists {t t' : List ι} (h' : Followed p q t')
    (hq : ∃ j ∈ t', q j) : Followed p q (t ++ t') := by
  induction t with
  | nil => exact h'
  | cons i rest ih =>
      obtain ⟨j, hj, hqj⟩ := hq
      exact ⟨fun _ => ⟨j, List.mem_append_right _ hj, hqj⟩, ih⟩

theorem Followed.append {t t' : List ι} (h : Followed p q t) (h' : Followed p q t') :
    Followed p q (t ++ t') := by
  induction t with
  | nil => exact h'
  | cons i rest ih =>
      refine ⟨fun hp => ?_, ih h.2⟩
      obtain ⟨j, hj, hq⟩ := h.1 hp
      exact ⟨j, List.mem_append_left _ hj, hq⟩

theorem Followed.of_free {t : List ι} (h : ∀ i ∈ t, ¬ p i) : Followed p q t := by
  induction t with
  | nil => exact trivial
  | cons i rest ih =>
      refine ⟨fun hp => absurd hp (h i List.mem_cons_self), ih fun j hj => ?_⟩
      exact h j (List.mem_cons_of_mem _ hj)

theorem Followed.mono {p' : ι → Prop} {t : List ι} (h : Followed p q t)
    (hle : ∀ i, p' i → p i) : Followed p' q t := by
  induction t with
  | nil => exact trivial
  | cons i rest ih => exact ⟨fun hp => h.1 (hle i hp), ih h.2⟩

/-- A `p` may push anything; any other instruction pushes what is followed by itself. -/
theorem Followed.exec {i : ι} {rest pushed : List ι} (h : Followed p q (i :: rest))
    (hpushed : p i ∨ Followed p q pushed) : Followed p q (pushed ++ rest) := by
  rcases hpushed with hp | hpushed
  · exact h.2.append_of_exists (h.1 hp)
  · exact hpushed.append h.2

/-- A step keeps the order in all threads. -/
theorem followed_step {threads spawned : List (List ι)} {k : Nat} {i : ι} {rest pushed : List ι}
    (h : ∀ t ∈ threads, Followed p q t) (hk : threads[k]? = some (i :: rest))
    (hpushed : p i ∨ Followed p q pushed) (hspawned : ∀ t ∈ spawned, Followed p q t) :
    ∀ t ∈ threads.set k (pushed ++ rest) ++ spawned, Followed p q t := by
  intro t ht
  rcases mem_set_append ht with rfl | hold | hnew
  · exact (h _ (List.mem_of_getElem? hk)).exec hpushed
  · exact h t hold
  · exact hspawned t hnew

/-- Where no `q` is left, no `p` is left. -/
theorem Followed.not_mem {t : List ι} (h : Followed p q t) (hq : ∀ j ∈ t, ¬ q j) {i : ι}
    (hi : i ∈ t) : ¬ p i := by
  induction t with
  | nil => cases hi
  | cons j rest ih =>
      rcases List.mem_cons.mp hi with rfl | hrest
      · intro hp
        obtain ⟨j, hj, hqj⟩ := h.1 hp
        exact hq j (List.mem_cons_of_mem _ hj) hqj
      · exact ih h.2 (fun j hj => hq j (List.mem_cons_of_mem _ hj)) hrest

/-- A thread that has a `p` left has a `q` left. -/
theorem Followed.exists_mem {t : List ι} (h : Followed p q t) {i : ι} (hi : i ∈ t) (hp : p i) :
    ∃ j ∈ t, q j := by
  by_contra hnone
  push Not at hnone
  exact h.not_mem hnone hi hp

end Followed

/-! ## Instructions that stand right in front of another -/

section Adjacent

variable {ι : Type} {p : ι → Bool} {q : ι → ι → Bool}

/-- Every `p` of the thread stands right in front of a partner. -/
def adjacent (p : ι → Bool) (q : ι → ι → Bool) : List ι → Bool
  | [] => true
  | i :: rest => (!p i || rest.head?.any (q i)) && adjacent p q rest

theorem adjacent_next {i : ι} {rest : List ι} (h : adjacent p q (i :: rest) = true)
    (hp : p i = true) : ∃ j rest', rest = j :: rest' ∧ q i j = true := by
  cases rest with
  | nil => simp [adjacent, hp] at h
  | cons j rest' =>
      have hj : q i j = true := by
        simp only [adjacent, hp, List.head?_cons, Option.any_some, Bool.not_true,
          Bool.false_or, Bool.and_eq_true] at h
        exact h.1
      exact ⟨j, rest', rfl, hj⟩

theorem adjacent_append {t t' : List ι} (h : adjacent p q t = true)
    (h' : adjacent p q t' = true) : adjacent p q (t ++ t') = true := by
  induction t with
  | nil => exact h'
  | cons i rest ih =>
      rw [adjacent, Bool.and_eq_true] at h
      rw [List.cons_append, adjacent, ih h.2, Bool.and_true]
      cases rest with
      | nil =>
          have hi : p i = false := by simpa using h.1
          rw [hi]
          rfl
      | cons j rest => exact h.1

/-- What an instruction pushes and starts is checked on its own. -/
theorem adjacent_step {threads spawned : List (List ι)} {k : Nat} {i : ι} {rest pushed : List ι}
    (h : ∀ t ∈ threads, adjacent p q t = true) (hk : threads[k]? = some (i :: rest))
    (hnew : ∀ t ∈ pushed :: spawned, adjacent p q t = true) :
    ∀ t ∈ threads.set k (pushed ++ rest) ++ spawned, adjacent p q t = true := by
  intro t ht
  have hrest : adjacent p q rest = true := by
    have hthread := h _ (List.mem_of_getElem? hk)
    rw [adjacent, Bool.and_eq_true] at hthread
    exact hthread.2
  rcases mem_set_append ht with rfl | hold | hspawned
  · exact adjacent_append (hnew _ List.mem_cons_self) hrest
  · exact h t hold
  · exact hnew t (List.mem_cons_of_mem _ hspawned)

end Adjacent

/-! ## The owner of a token -/

section Owner

variable {σ ι : Type} {weight : ι → Nat} {threads : List (List ι)} {k : Nat}

/-- Where the tokens of the pool add up to at most one, the owner is alone: no other
instruction has a token. -/
theorem weight_eq_zero_of_owner {i : ι} {rest : List ι} (hload : load weight threads ≤ 1)
    (hk : threads[k]? = some (i :: rest)) (hi : weight i ≠ 0) :
    weigh weight rest = 0 ∧ ∀ t ∈ threads.set k [], weigh weight t = 0 := by
  have hset : load weight (threads.set k []) + weigh weight (i :: rest) =
      load weight threads + weigh weight [] := load_set hk
  simp only [weigh_cons, weigh_nil] at hset
  refine ⟨by omega, fun t ht => ?_⟩
  have hle : weigh weight t ≤ load weight (threads.set k []) := weigh_le_load ht
  omega

/-- An assertion about the instruction that owns the token is kept by a step, if the
owner establishes it for what it pushes and every other instruction leaves it alone. -/
theorem owned_step {A A' : ι → Prop} {i : ι} {rest pushed : List ι} {spawned : List (List ι)}
    (hload : load weight threads ≤ 1) (hk : threads[k]? = some (i :: rest))
    (hall : ∀ t ∈ threads, ∀ j ∈ t, weight j ≠ 0 → A j)
    (hother : weight i = 0 → ∀ j, weight j ≠ 0 → A j → A' j)
    (hpushed : ∀ j ∈ pushed, weight j ≠ 0 → A' j)
    (hspawned : ∀ t ∈ spawned, ∀ j ∈ t, weight j ≠ 0 → A' j) :
    ∀ t ∈ threads.set k (pushed ++ rest) ++ spawned, ∀ j ∈ t, weight j ≠ 0 → A' j := by
  intro t ht j hj hweight
  by_cases hi : weight i = 0
  · rcases mem_set_append ht with rfl | hold | hnew
    · rcases List.mem_append.mp hj with hnew | hrest
      · exact hpushed j hnew hweight
      · have hmem := List.mem_of_getElem? hk
        exact hother hi j hweight (hall _ hmem j (List.mem_cons_of_mem _ hrest) hweight)
    · exact hother hi j hweight (hall t hold j hj hweight)
    · exact hspawned t hnew j hj hweight
  · -- the owner moved: whatever else holds a token was pushed or started by it
    obtain ⟨hrest, hothers⟩ := weight_eq_zero_of_owner hload hk hi
    rcases List.mem_append.mp ht with hset | hnew
    · obtain ⟨n, hn, hget⟩ := List.getElem_of_mem hset
      rw [List.getElem_set] at hget
      split_ifs at hget with hnk
      · subst hget
        rcases List.mem_append.mp hj with hnew | hjrest
        · exact hpushed j hnew hweight
        · have hle : weight j ≤ weigh weight rest := weight_le_weigh hjrest
          omega
      · have hmem : t ∈ threads.set k [] := by
          rw [← hget]
          refine List.mem_of_getElem? (i := n) ?_
          rw [List.getElem?_set, if_neg hnk, List.getElem?_eq_getElem]
        have hle : weight j ≤ weigh weight t := weight_le_weigh hj
        have hzero := hothers t hmem
        omega
    · exact hspawned t hnew j hj hweight

end Owner

end Library
end DgProto
