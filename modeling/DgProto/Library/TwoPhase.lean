import Mathlib.Data.List.Nodup
import Mathlib.Logic.Function.Basic
import Mathlib.Logic.Relation
import Mathlib.Tactic.Common

/-!
# Methods that lock what they touch

An object keeps its state in cells and its cells under locks.  A method takes its locks, reads and
writes cells one at a time, gives the locks back and returns.  It reads a cell only with one of the
locks of the cell, and writes it only with all of them.

Any number of calls run beside each other, one access at a time.

* `linearizes_of_reaches`: whatever happened is what one call after the other would have done, in an
  order that keeps every result and never puts a call before one that had returned when it began.
* `completes_of_reaches`: if the locks of every method are taken along one order, the calls that
  have begun can all return.
-/

namespace DgProto
namespace Library

/-! ## Bodies -/

/-- What a method does while it has its locks: one access after the other. -/
inductive Body {Cell : Type} (V : Cell → Type) (α : Type) where
  | ret (result : α)
  | read (c : Cell) (next : V c → Body V α)
  | write (c : Cell) (value : V c) (next : Body V α)

namespace Body

variable {Cell Lock α β : Type} {V : Cell → Type}

def bind : Body V α → (α → Body V β) → Body V β
  | .ret result, f => f result
  | .read c next, f => .read c fun value => (next value).bind f
  | .write c value next, f => .write c value (next.bind f)

instance : Monad (Body V) where
  pure := .ret
  bind := Body.bind

/-- Read a cell. -/
def load (c : Cell) : Body V (V c) := .read c .ret

/-- Write a cell. -/
def store (c : Cell) (value : V c) : Body V Unit := .write c value (.ret ())

section Run

variable [DecidableEq Cell]

/-- The whole body at once. -/
def run : Body V α → (∀ c, V c) → (∀ c, V c) × α
  | .ret result, σ => (σ, result)
  | .read c next, σ => (next (σ c)).run σ
  | .write c value next, σ => next.run (Function.update σ c value)

@[simp] theorem run_pure (result : α) (σ : ∀ c, V c) :
    (pure result : Body V α).run σ = (σ, result) := rfl

@[simp] theorem run_bind (body : Body V α) (f : α → Body V β) (σ : ∀ c, V c) :
    (body >>= f).run σ = (f (body.run σ).2).run (body.run σ).1 := by
  show (body.bind f).run σ = _
  induction body generalizing σ with
  | ret result => rfl
  | read c next ih => exact ih (σ c) σ
  | write c value next ih => exact ih (Function.update σ c value)

end Run

/-! ## What the locks allow -/

/-- One of the locks of the cell is held. -/
def MayRead (guards : Cell → List Lock) (held : List Lock) (c : Cell) : Prop :=
  ∃ l ∈ guards c, l ∈ held

/-- All locks of the cell are held. -/
def MayWrite (guards : Cell → List Lock) (held : List Lock) (c : Cell) : Prop :=
  ∀ l ∈ guards c, l ∈ held

instance [DecidableEq Lock] (guards : Cell → List Lock) (held : List Lock) (c : Cell) :
    Decidable (MayRead guards held c) :=
  inferInstanceAs (Decidable (∃ l ∈ guards c, l ∈ held))

instance [DecidableEq Lock] (guards : Cell → List Lock) (held : List Lock) (c : Cell) :
    Decidable (MayWrite guards held c) :=
  inferInstanceAs (Decidable (∀ l ∈ guards c, l ∈ held))

/-- The body touches only what the held locks allow. -/
def Obeys (guards : Cell → List Lock) (held : List Lock) : Body V α → Prop
  | .ret _ => True
  | .read c next => MayRead guards held c ∧ ∀ value, (next value).Obeys guards held
  | .write c _ next => MayWrite guards held c ∧ next.Obeys guards held

section Obeys

variable {guards : Cell → List Lock} {held : List Lock}

theorem Obeys.bind {body : Body V α} {f : α → Body V β} (h : body.Obeys guards held)
    (hf : ∀ result, (f result).Obeys guards held) : (body >>= f).Obeys guards held := by
  show (body.bind f).Obeys guards held
  induction body with
  | ret result => exact hf result
  | read c next ih => exact ⟨h.1, fun value => ih value (h.2 value)⟩
  | write c value next ih => exact ⟨h.1, ih h.2⟩

theorem obeys_load {c : Cell} (h : MayRead guards held c) :
    (load c : Body V _).Obeys guards held :=
  ⟨h, fun _ => trivial⟩

theorem obeys_store {c : Cell} {value : V c} (h : MayWrite guards held c) :
    (store c value : Body V _).Obeys guards held :=
  ⟨h, trivial⟩

variable [DecidableEq Cell]

/-- A body leaves alone what it may not write. -/
theorem Obeys.run_frame {body : Body V α} (h : body.Obeys guards held) (σ : ∀ c, V c) {c : Cell}
    (hc : ¬ MayWrite guards held c) : (body.run σ).1 c = σ c := by
  induction body generalizing σ with
  | ret result => rfl
  | read c' next ih => exact ih (σ c') (h.2 _) σ
  | write c' value next ih =>
      have hne : c ≠ c' := by
        rintro rfl
        exact hc h.1
      exact (ih h.2 _).trans (Function.update_of_ne hne _ _)

/-- Stores that agree on a cell still do after the same write. -/
theorem update_congr {σ τ : ∀ c, V c} {c' : Cell} (c : Cell) (value : V c) (h : σ c' = τ c') :
    Function.update σ c value c' = Function.update τ c value c' := by
  by_cases hc : c' = c
  · subst hc
    rw [Function.update_self, Function.update_self]
  · rw [Function.update_of_ne hc, Function.update_of_ne hc, h]

/-- A body depends only on what it may read. -/
theorem Obeys.run_congr {body : Body V α} (h : body.Obeys guards held) {σ τ : ∀ c, V c}
    (hread : ∀ c, MayRead guards held c → σ c = τ c)
    (hwrite : ∀ c, MayWrite guards held c → σ c = τ c) :
    (body.run σ).2 = (body.run τ).2 ∧
      ∀ c, MayWrite guards held c → (body.run σ).1 c = (body.run τ).1 c := by
  induction body generalizing σ τ with
  | ret result => exact ⟨rfl, hwrite⟩
  | read c next ih =>
      show ((next (σ c)).run σ).2 = ((next (τ c)).run τ).2 ∧
        ∀ c', MayWrite guards held c' → ((next (σ c)).run σ).1 c' = ((next (τ c)).run τ).1 c'
      rw [hread c h.1]
      exact ih (τ c) (h.2 _) hread hwrite
  | write c value next ih =>
      exact ih h.2 (fun c' hc' => update_congr c value (hread c' hc'))
        fun c' hc' => update_congr c value (hwrite c' hc')

end Obeys

end Body

/-! ## Objects and calls -/

/-- An object with its methods. -/
structure LockedObject (Lock Cell Op : Type) (V : Cell → Type) (α : Type) where
  guards : Cell → List Lock
  guarded : ∀ c, guards c ≠ []
  locks : Op → List Lock
  nodup : ∀ op, (locks op).Nodup
  body : Op → Body V α
  obeys : ∀ op, (body op).Obeys guards (locks op)

/-- How far a call has come. -/
inductive Phase {Cell : Type} (Lock Op : Type) (V : Cell → Type) (α : Type) where
  | idle
  | locking (op : Op) (todo : List Lock)
  | inside (op : Op) (rest : Body V α)
  | unlocking (op : Op) (result : α) (todo : List Lock)
  | returned (op : Op) (result : α)

/-- What can be seen from outside. -/
inductive CallEvent (Op α : Type) where
  | invoked (k : Nat) (op : Op)
  | returned (k : Nat) (result : α)

/-- The cells, the locks with the calls that have them, the calls and what was seen so far. -/
structure Concurrent {Cell : Type} (Lock Op : Type) (V : Cell → Type) (α : Type) where
  store : ∀ c, V c
  owner : Lock → Option Nat
  calls : Nat → Phase Lock Op V α
  history : List (CallEvent Op α)

namespace LockedObject

variable {Lock Cell Op α : Type} {V : Cell → Type} (G : LockedObject Lock Cell Op V α)

/-- The object before any call. -/
def start (σ : ∀ c, V c) : Concurrent Lock Op V α :=
  ⟨σ, fun _ => none, fun _ => .idle, []⟩

/-! ## Who has which lock -/

/-- The locks that a call has. -/
def Holds (phase : Phase Lock Op V α) (l : Lock) : Prop :=
  match phase with
  | .locking op todo => l ∈ G.locks op ∧ l ∉ todo
  | .inside op _ => l ∈ G.locks op
  | .unlocking _ _ todo => l ∈ todo
  | _ => False

/-- The locks that a call has yet to take or to give back come once each. -/
def Orderly (phase : Phase Lock Op V α) : Prop :=
  match phase with
  | .locking op todo => todo <:+ G.locks op
  | .unlocking _ _ todo => todo.Nodup
  | _ => True

/-- A lock is with the one call that has it. -/
structure Exclusive (s : Concurrent Lock Op V α) : Prop where
  orderly : ∀ k, G.Orderly (s.calls k)
  owned : ∀ k l, G.Holds (s.calls k) l ↔ s.owner l = some k

section Exclusive

variable {G} {s s' : Concurrent Lock Op V α} {k : Nat} {phase : Phase Lock Op V α}

theorem exclusive_start (σ : ∀ c, V c) : G.Exclusive (start σ) := by
  constructor
  · exact fun _ => trivial
  · intro k l
    show False ↔ none = some k
    simp

theorem Exclusive.unique (h : G.Exclusive s) {i j : Nat} {l : Lock} (hi : G.Holds (s.calls i) l)
    (hj : G.Holds (s.calls j) l) : i = j := by
  rw [h.owned] at hi hj
  exact Option.some.inj (hi.symm.trans hj)

/-- Every cell has a lock, so what may be written may be read. -/
theorem mayRead_of_mayWrite {held : List Lock} {c : Cell} (h : Body.MayWrite G.guards held c) :
    Body.MayRead G.guards held c := by
  obtain ⟨l, hl⟩ := List.exists_mem_of_ne_nil _ (G.guarded c)
  exact ⟨l, hl, h l hl⟩

/-- What a call may write, no other call that is inside may touch. -/
theorem Exclusive.apart (h : G.Exclusive s) {i j : Nat} (hne : i ≠ j) {op op' : Op}
    {rest rest' : Body V α} (hi : s.calls i = .inside op rest) (hj : s.calls j = .inside op' rest')
    {c : Cell} (hwrite : Body.MayWrite G.guards (G.locks op) c) :
    ¬ Body.MayRead G.guards (G.locks op') c ∧ ¬ Body.MayWrite G.guards (G.locks op') c := by
  have hread : ¬ Body.MayRead G.guards (G.locks op') c := by
    rintro ⟨l, hl, hheld⟩
    apply hne
    apply h.unique (l := l)
    · rw [hi]
      exact hwrite l hl
    · rw [hj]
      exact hheld
  exact ⟨hread, fun hwrite' => hread (mayRead_of_mayWrite hwrite')⟩

theorem Exclusive.orderly_update (h : G.Exclusive s)
    (hcalls : s'.calls = Function.update s.calls k phase) (horderly : G.Orderly phase) (j : Nat) :
    G.Orderly (s'.calls j) := by
  rw [hcalls]
  exact (Function.forall_update_iff _ fun _ => G.Orderly).mpr ⟨horderly, fun j _ => h.orderly j⟩ j

/-- A call goes on with the locks it has. -/
theorem Exclusive.keep (h : G.Exclusive s) (hcalls : s'.calls = Function.update s.calls k phase)
    (howner : s'.owner = s.owner) (horderly : G.Orderly phase)
    (hholds : ∀ l, G.Holds phase l ↔ G.Holds (s.calls k) l) : G.Exclusive s' := by
  constructor
  · exact h.orderly_update hcalls horderly
  · intro j l
    rw [hcalls, howner]
    by_cases hj : j = k
    · subst hj
      rw [Function.update_self, hholds]
      exact h.owned j l
    · rw [Function.update_of_ne hj]
      exact h.owned j l

variable [DecidableEq Lock]

theorem Exclusive.lock (h : G.Exclusive s) {op : Op} {l : Lock} {todo : List Lock}
    (hk : s.calls k = .locking op (l :: todo)) (hfree : s.owner l = none)
    (hcalls : s'.calls = Function.update s.calls k (.locking op todo))
    (howner : s'.owner = Function.update s.owner l (some k)) : G.Exclusive s' := by
  have hsuffix : l :: todo <:+ G.locks op := by
    have := h.orderly k
    rwa [hk] at this
  have hnodup : (l :: todo).Nodup := (G.nodup op).sublist hsuffix.sublist
  constructor
  · exact h.orderly_update hcalls ((List.suffix_cons l todo).trans hsuffix)
  · intro j l'
    rw [hcalls, howner]
    have hold := h.owned j l'
    by_cases hj : j = k
    · subst hj
      rw [hk] at hold
      rw [Function.update_self]
      by_cases hl : l' = l
      · subst hl
        rw [Function.update_self]
        have hmem : l' ∈ G.locks op := hsuffix.subset List.mem_cons_self
        exact ⟨fun _ => rfl, fun _ => ⟨hmem, (List.nodup_cons.mp hnodup).1⟩⟩
      · rw [Function.update_of_ne hl, ← hold]
        show l' ∈ G.locks op ∧ l' ∉ todo ↔ l' ∈ G.locks op ∧ l' ∉ l :: todo
        rw [List.mem_cons]
        simp only [hl, false_or]
    · rw [Function.update_of_ne hj, hold]
      by_cases hl : l' = l
      · subst hl
        rw [Function.update_self, hfree]
        simp only [reduceCtorEq, Option.some.injEq, false_iff]
        exact fun heq => hj heq.symm
      · rw [Function.update_of_ne hl]

theorem Exclusive.unlock (h : G.Exclusive s) {op : Op} {result : α} {l : Lock} {todo : List Lock}
    (hk : s.calls k = .unlocking op result (l :: todo))
    (hcalls : s'.calls = Function.update s.calls k (.unlocking op result todo))
    (howner : s'.owner = Function.update s.owner l none) : G.Exclusive s' := by
  have hnodup : (l :: todo).Nodup := by
    have := h.orderly k
    rwa [hk] at this
  have hl : s.owner l = some k := by
    rw [← h.owned, hk]
    exact List.mem_cons_self
  constructor
  · exact h.orderly_update hcalls (List.nodup_cons.mp hnodup).2
  · intro j l'
    rw [hcalls, howner]
    have hold := h.owned j l'
    by_cases hl' : l' = l
    · subst hl'
      rw [Function.update_self]
      simp only [reduceCtorEq, iff_false]
      by_cases hj : j = k
      · subst hj
        rw [Function.update_self]
        exact (List.nodup_cons.mp hnodup).1
      · rw [Function.update_of_ne hj, hold, hl]
        exact fun heq => hj (Option.some.inj heq).symm
    · rw [Function.update_of_ne hl', ← hold]
      by_cases hj : j = k
      · subst hj
        rw [Function.update_self, hk]
        show l' ∈ todo ↔ l' ∈ l :: todo
        rw [List.mem_cons]
        simp only [hl', false_or]
      · rw [Function.update_of_ne hj]

end Exclusive

/-! ## One call after the other -/

section Serial

variable [DecidableEq Cell]

/-- The calls, run one after the other, give these results and end in the second store. -/
def Replays (σ : ∀ c, V c) : List (Nat × Op × α) → (∀ c, V c) → Prop
  | [], σ' => σ' = σ
  | (_, op, result) :: order, σ' =>
      ((G.body op).run σ).2 = result ∧ Replays ((G.body op).run σ).1 order σ'

variable {G}

theorem Replays.concat {σ σ' : ∀ c, V c} {order : List (Nat × Op × α)} (h : G.Replays σ order σ')
    (k : Nat) (op : Op) :
    G.Replays σ (order ++ [(k, op, ((G.body op).run σ').2)]) ((G.body op).run σ').1 := by
  induction order generalizing σ with
  | nil =>
      obtain rfl : σ' = σ := h
      exact ⟨rfl, rfl⟩
  | cons call order ih => exact ⟨h.1, ih h.2⟩

/-- A call that is inside has done so far what it would have done alone: seen from its own side,
with its writes over the store of those that are done, it has the rest of its body to go. -/
def OnItsWay (G : LockedObject Lock Cell Op V α) (store σ : ∀ c, V c) (op : Op) (rest : Body V α) :
    Prop :=
  rest.Obeys G.guards (G.locks op) ∧ ∃ view : ∀ c, V c,
    (G.body op).run σ = rest.run view ∧
    (∀ c, Body.MayRead G.guards (G.locks op) c → view c = store c) ∧
    (∀ c, Body.MayWrite G.guards (G.locks op) c → view c = store c) ∧
    ∀ c, ¬ Body.MayWrite G.guards (G.locks op) c → view c = σ c

/-- The store holds what the calls that are done have left, but for what the ones inside may have
written. -/
structure Overlaid (G : LockedObject Lock Cell Op V α) (σ : ∀ c, V c) (s : Concurrent Lock Op V α) :
    Prop where
  inside : ∀ {k op rest}, s.calls k = .inside op rest → G.OnItsWay s.store σ op rest
  untouched : ∀ c, (∀ k op rest, s.calls k = .inside op rest →
    ¬ Body.MayWrite G.guards (G.locks op) c) → s.store c = σ c

variable {s s' : Concurrent Lock Op V α} {k : Nat} {σ : ∀ c, V c} {op : Op}

omit [DecidableEq Cell] in
/-- A call that is inside after one call went on: this one, or one that was inside before. -/
theorem inside_cases {phase : Phase Lock Op V α}
    (hcalls : s'.calls = Function.update s.calls k phase) {j : Nat} {op' : Op} {rest : Body V α}
    (hj : s'.calls j = .inside op' rest) :
    j = k ∧ phase = .inside op' rest ∨ j ≠ k ∧ s.calls j = .inside op' rest := by
  rw [hcalls] at hj
  by_cases hjk : j = k
  · rw [hjk, Function.update_self] at hj
    exact .inl ⟨hjk, hj⟩
  · rw [Function.update_of_ne hjk] at hj
    exact .inr ⟨hjk, hj⟩

/-- A call that is not inside before goes on, and is not inside after. -/
theorem Overlaid.outside (h : G.Overlaid σ s) {phase : Phase Lock Op V α}
    (hk : ∀ op rest, s.calls k ≠ .inside op rest) (hphase : ∀ op rest, phase ≠ .inside op rest)
    (hcalls : s'.calls = Function.update s.calls k phase) (hstore : s'.store = s.store) :
    G.Overlaid σ s' := by
  have hsame : ∀ j op rest, s'.calls j = .inside op rest ↔ s.calls j = .inside op rest := by
    intro j op rest
    rw [hcalls]
    by_cases hj : j = k
    · subst hj
      rw [Function.update_self]
      exact ⟨fun heq => absurd heq (hphase op rest), fun heq => absurd heq (hk op rest)⟩
    · rw [Function.update_of_ne hj]
  constructor
  · intro j op rest hj
    rw [hstore]
    exact h.inside ((hsame j op rest).mp hj)
  · intro c hc
    rw [hstore]
    exact h.untouched c fun j op rest hj => hc j op rest ((hsame j op rest).mpr hj)

/-- A call with its locks finds in its cells what those that are done have left. -/
theorem Overlaid.enter (h : G.Overlaid σ s) (hexclusive : G.Exclusive s)
    (hk : s.calls k = .locking op [])
    (hcalls : s'.calls = Function.update s.calls k (.inside op (G.body op)))
    (hstore : s'.store = s.store) : G.Overlaid σ s' := by
  have hfind : ∀ c, Body.MayRead G.guards (G.locks op) c → s.store c = σ c := by
    rintro c ⟨l, hl, hheld⟩
    refine h.untouched c fun j op' rest hj hwrite => ?_
    have hsame : j = k := by
      apply hexclusive.unique (l := l)
      · rw [hj]
        exact hwrite l hl
      · rw [hk]
        exact ⟨hheld, List.not_mem_nil⟩
    rw [hsame, hk] at hj
    cases hj
  constructor
  · intro j op' rest hj
    rw [hstore]
    rcases inside_cases hcalls hj with ⟨-, hj⟩ | ⟨-, hj⟩
    · cases hj
      exact ⟨G.obeys op, σ, rfl, fun c hc => (hfind c hc).symm,
        fun c hc => (hfind c (mayRead_of_mayWrite hc)).symm, fun c _ => rfl⟩
    · exact h.inside hj
  · intro c hc
    rw [hstore]
    refine h.untouched c fun j op' rest hj => ?_
    have hjk : j ≠ k := by
      rintro rfl
      rw [hk] at hj
      cases hj
    apply hc j op' rest
    rw [hcalls, Function.update_of_ne hjk]
    exact hj

/-- A cell that neither this call nor, after its step, any call inside may write. -/
theorem Overlaid.untouched_step (h : G.Overlaid σ s) {rest : Body V α} {phase : Phase Lock Op V α}
    (hk : s.calls k = .inside op rest) (hcalls : s'.calls = Function.update s.calls k phase)
    {c : Cell} (hown : ¬ Body.MayWrite G.guards (G.locks op) c)
    (hc : ∀ j op rest, s'.calls j = .inside op rest → ¬ Body.MayWrite G.guards (G.locks op) c) :
    s.store c = σ c := by
  refine h.untouched c fun j op' rest' hj => ?_
  by_cases hjk : j = k
  · rw [hjk, hk] at hj
    cases hj
    exact hown
  · apply hc j op' rest'
    rw [hcalls, Function.update_of_ne hjk]
    exact hj

theorem Overlaid.read (h : G.Overlaid σ s) {c : Cell} {next : V c → Body V α}
    (hk : s.calls k = .inside op (.read c next))
    (hcalls : s'.calls = Function.update s.calls k (.inside op (next (s.store c))))
    (hstore : s'.store = s.store) : G.Overlaid σ s' := by
  constructor
  · intro j op' rest hj
    rw [hstore]
    rcases inside_cases hcalls hj with ⟨-, hj⟩ | ⟨-, hj⟩
    · cases hj
      obtain ⟨hobeys, view, hrun, hread, hwrite, hframe⟩ := h.inside hk
      refine ⟨hobeys.2 _, view, ?_, hread, hwrite, hframe⟩
      rw [hrun, ← hread c hobeys.1]
      rfl
    · exact h.inside hj
  · intro c' hc'
    rw [hstore]
    exact h.untouched_step hk hcalls (hc' k op _ (by rw [hcalls, Function.update_self])) hc'

theorem Overlaid.write (h : G.Overlaid σ s) (hexclusive : G.Exclusive s) {c : Cell} {value : V c}
    {next : Body V α} (hk : s.calls k = .inside op (.write c value next))
    (hcalls : s'.calls = Function.update s.calls k (.inside op next))
    (hstore : s'.store = Function.update s.store c value) : G.Overlaid σ s' := by
  obtain ⟨hobeys, view, hrun, hread, hwrite, hframe⟩ := h.inside hk
  constructor
  · intro j op' rest hj
    rw [hstore]
    rcases inside_cases hcalls hj with ⟨-, hj⟩ | ⟨hjk, hj⟩
    · cases hj
      refine ⟨hobeys.2, Function.update view c value, hrun,
        fun c' hc' => Body.update_congr c value (hread c' hc'),
        fun c' hc' => Body.update_congr c value (hwrite c' hc'), fun c' hc' => ?_⟩
      have hne : c' ≠ c := fun heq => hc' (heq ▸ hobeys.1)
      rw [Function.update_of_ne hne]
      exact hframe c' hc'
    · -- the cell is out of reach for the others
      obtain ⟨hobeys', view', hrun', hread', hwrite', hframe'⟩ := h.inside hj
      obtain ⟨hnoread, hnowrite⟩ := hexclusive.apart (fun heq => hjk heq.symm) hk hj hobeys.1
      refine ⟨hobeys', view', hrun', fun c' hc' => ?_, fun c' hc' => ?_, hframe'⟩
      · have hne : c' ≠ c := fun heq => hnoread (heq ▸ hc')
        rw [Function.update_of_ne hne]
        exact hread' c' hc'
      · have hne : c' ≠ c := fun heq => hnowrite (heq ▸ hc')
        rw [Function.update_of_ne hne]
        exact hwrite' c' hc'
  · intro c' hc'
    have hnot : ¬ Body.MayWrite G.guards (G.locks op) c' :=
      hc' k op next (by rw [hcalls, Function.update_self])
    have hne : c' ≠ c := fun heq => hnot (heq ▸ hobeys.1)
    rw [hstore, Function.update_of_ne hne]
    exact h.untouched_step hk hcalls hnot hc'

/-- What another call has left is nothing that this one looks at. -/
theorem OnItsWay.rebase {store σ' : ∀ c, V c} {rest : Body V α} (h : G.OnItsWay store σ op rest)
    (hread : ∀ c, Body.MayRead G.guards (G.locks op) c → σ' c = σ c)
    (hwrite : ∀ c, Body.MayWrite G.guards (G.locks op) c → σ' c = σ c) :
    G.OnItsWay store σ' op rest := by
  classical
  obtain ⟨hobeys, view, hrun, hview, hown, hframe⟩ := h
  let view' : ∀ c, V c := fun c =>
    if Body.MayWrite G.guards (G.locks op) c then view c else σ' c
  have hin : ∀ c, Body.MayWrite G.guards (G.locks op) c → view' c = view c :=
    fun c hc => if_pos hc
  have hout : ∀ c, ¬ Body.MayWrite G.guards (G.locks op) c → view' c = σ' c :=
    fun c hc => if_neg hc
  have hseen : ∀ c, Body.MayRead G.guards (G.locks op) c → view' c = view c := by
    intro c hc
    by_cases hw : Body.MayWrite G.guards (G.locks op) c
    · exact hin c hw
    · rw [hout c hw, hread c hc, hframe c hw]
  refine ⟨hobeys, view', ?_, fun c hc => (hseen c hc).trans (hview c hc),
    fun c hc => (hin c hc).trans (hown c hc), hout⟩
  -- the two runs agree where the call writes, and elsewhere both leave what was there
  obtain ⟨hresult, hwritten⟩ := (G.obeys op).run_congr hread hwrite
  obtain ⟨hresult', hwritten'⟩ := hobeys.run_congr hseen hin
  refine Prod.ext (funext fun c => ?_) ?_
  · by_cases hc : Body.MayWrite G.guards (G.locks op) c
    · rw [hwritten c hc, hwritten' c hc, hrun]
    · rw [(G.obeys op).run_frame σ' hc, hobeys.run_frame view' hc, hout c hc]
  · rw [hresult, hresult', hrun]

/-- A call that is done returns what it would have returned alone. -/
theorem Overlaid.result (h : G.Overlaid σ s) {result : α}
    (hk : s.calls k = .inside op (.ret result)) : ((G.body op).run σ).2 = result := by
  obtain ⟨-, view, hrun, -⟩ := h.inside hk
  rw [hrun]
  rfl

/-- A call that is done joins those before it. -/
theorem Overlaid.finish (h : G.Overlaid σ s) (hexclusive : G.Exclusive s) {result : α}
    (hk : s.calls k = .inside op (.ret result)) {phase : Phase Lock Op V α}
    (hcalls : s'.calls = Function.update s.calls k phase) (hstore : s'.store = s.store)
    (hphase : ∀ op rest, phase ≠ .inside op rest) : G.Overlaid ((G.body op).run σ).1 s' := by
  obtain ⟨hobeys, view, hrun, hread, hwrite, hframe⟩ := h.inside hk
  rw [hrun]
  constructor
  · intro j op' rest hj
    rw [hstore]
    show G.OnItsWay s.store view op' rest
    obtain ⟨hjk, hj⟩ := (inside_cases hcalls hj).resolve_left fun h => hphase op' rest h.2
    have hapart := fun c => hexclusive.apart (c := c) (fun heq => hjk heq.symm) hk hj
    exact (h.inside hj).rebase (fun c hc => hframe c fun hown => (hapart c hown).1 hc)
      fun c hc => hframe c fun hown => (hapart c hown).2 hc
  · intro c hc
    rw [hstore]
    show s.store c = view c
    by_cases hown : Body.MayWrite G.guards (G.locks op) c
    · exact (hwrite c hown).symm
    · rw [hframe c hown]
      exact h.untouched_step hk hcalls hown hc

/-- With nobody inside, the store is the one that those that are done have left. -/
theorem Overlaid.settled (h : G.Overlaid σ s)
    (houtside : ∀ k op rest, s.calls k ≠ .inside op rest) : s.store = σ :=
  funext fun c => h.untouched c fun k op rest hk => absurd hk (houtside k op rest)

end Serial

/-! ## The order of the calls -/

/-- What the history and the order of those that are done say of a call. -/
def Told (history : List (CallEvent Op α)) (order : List (Nat × Op × α)) (k : Nat)
    (phase : Phase Lock Op V α) : Prop :=
  match phase with
  | .idle => (∀ op, .invoked k op ∉ history) ∧ k ∉ order.map Prod.fst
  | .locking op _ => .invoked k op ∈ history ∧ k ∉ order.map Prod.fst
  | .inside op _ => .invoked k op ∈ history ∧ k ∉ order.map Prod.fst
  | .unlocking op result _ => .invoked k op ∈ history ∧ (k, op, result) ∈ order
  | .returned op result => .invoked k op ∈ history ∧ (k, op, result) ∈ order

/-- The order of those that are done fits the history. -/
structure Traced (s : Concurrent Lock Op V α) (order : List (Nat × Op × α)) : Prop where
  told : ∀ k, Told s.history order k (s.calls k)
  nodup : (order.map Prod.fst).Nodup
  invoked : ∀ {k op result}, (k, op, result) ∈ order → .invoked k op ∈ s.history
  answered : ∀ {k result}, .returned k result ∈ s.history → ∃ op, (k, op, result) ∈ order
  realTime : ∀ {i j result op}, [.returned i result, .invoked j op].Sublist s.history →
    j ∈ order.map Prod.fst → [i, j].Sublist (order.map Prod.fst)

section Traced

variable {order : List (Nat × Op × α)} {s s' : Concurrent Lock Op V α} {k : Nat} {op : Op}

theorem traced_start (σ : ∀ c, V c) : Traced (start σ : Concurrent Lock Op V α) [] := by
  refine ⟨fun k => ⟨fun op => List.not_mem_nil, List.not_mem_nil⟩, List.nodup_nil, ?_, ?_, ?_⟩
  · exact fun h => absurd h List.not_mem_nil
  · exact fun h => absurd h List.not_mem_nil
  · exact fun _ h => absurd h List.not_mem_nil

/-- Two elements, the second of which may be the last one. -/
theorem pair_sublist_concat {β : Type} {a b c : β} {l : List β} (h : [a, b].Sublist (l ++ [c])) :
    [a, b].Sublist l ∨ b = c := by
  obtain ⟨front, back, heq, hfront, hback⟩ := List.sublist_append_iff.mp h
  rcases List.sublist_singleton.mp hback with rfl | rfl
  · rw [List.append_nil] at heq
    exact .inl (heq ▸ hfront)
  · right
    have hlast := congrArg List.getLast? heq
    simpa using hlast

theorem Traced.told_eq (h : Traced s order) {phase : Phase Lock Op V α}
    (hk : s.calls k = phase) : Told s.history order k phase :=
  hk ▸ h.told k

theorem told_update {calls : Nat → Phase Lock Op V α} {history : List (CallEvent Op α)}
    {phase : Phase Lock Op V α} (hphase : Told history order k phase)
    (hothers : ∀ j, j ≠ k → Told history order j (calls j)) (j : Nat) :
    Told history order j (Function.update calls k phase j) :=
  (Function.forall_update_iff _ (Told history order)).mpr ⟨hphase, hothers⟩ j

theorem Traced.keep (h : Traced s order) {old phase : Phase Lock Op V α} (hk : s.calls k = old)
    (hcalls : s'.calls = Function.update s.calls k phase) (hhistory : s'.history = s.history)
    (hphase : Told s.history order k old → Told s.history order k phase) : Traced s' order := by
  refine ⟨fun j => ?_, h.nodup, hhistory ▸ h.invoked, hhistory ▸ h.answered, hhistory ▸ h.realTime⟩
  rw [hhistory, hcalls]
  exact told_update (hphase (h.told_eq hk)) (fun j _ => h.told j) j

/-- What is told of a call stays true when others go on. -/
theorem Told.mono {history : List (CallEvent Op α)} {j : Nat} {phase : Phase Lock Op V α}
    (h : Told history order j phase) {event : CallEvent Op α}
    (hevent : ∀ op, event = .invoked j op → False) : Told (history ++ [event]) order j phase := by
  cases phase with
  | idle =>
      refine ⟨fun op hmem => ?_, h.2⟩
      rcases List.mem_append.mp hmem with hold | hnew
      · exact h.1 op hold
      · exact hevent op (List.mem_singleton.mp hnew).symm
  | locking | inside | unlocking | returned => exact ⟨List.mem_append_left _ h.1, h.2⟩

theorem Traced.invoke (h : Traced s order) (hk : s.calls k = .idle) {todo : List Lock}
    (hcalls : s'.calls = Function.update s.calls k (.locking op todo))
    (hhistory : s'.history = s.history ++ [.invoked k op]) : Traced s' order := by
  have hidle := h.told_eq hk
  refine ⟨fun j => ?_, h.nodup, ?_, ?_, ?_⟩
  · rw [hhistory, hcalls]
    refine told_update ?_ (fun j hj => ?_) j
    · exact ⟨List.mem_append_right _ List.mem_cons_self, hidle.2⟩
    · apply (h.told j).mono
      intro op' heq
      cases heq
      exact hj rfl
  · rw [hhistory]
    exact fun hmem => List.mem_append_left _ (h.invoked hmem)
  · intro j result hmem
    rw [hhistory] at hmem
    rcases List.mem_append.mp hmem with hold | hnew
    · exact h.answered hold
    · cases List.mem_singleton.mp hnew
  · intro i j result op' hpair hj
    rw [hhistory] at hpair
    rcases pair_sublist_concat hpair with hold | hnew
    · exact h.realTime hold hj
    · -- a call that has just begun is not done
      cases hnew
      exact absurd hj hidle.2

theorem Traced.finish (h : Traced s order) {rest : Body V α} (hk : s.calls k = .inside op rest)
    {result : α} {todo : List Lock}
    (hcalls : s'.calls = Function.update s.calls k (.unlocking op result todo))
    (hhistory : s'.history = s.history) : Traced s' (order ++ [(k, op, result)]) := by
  have hinside := h.told_eq hk
  have hids : (order ++ [(k, op, result)]).map Prod.fst = order.map Prod.fst ++ [k] := by simp
  refine ⟨fun j => ?_, ?_, ?_, ?_, ?_⟩
  · rw [hhistory, hcalls]
    refine told_update ?_ (fun j hj => ?_) j
    · exact ⟨hinside.1, List.mem_append_right _ List.mem_cons_self⟩
    have hold := h.told j
    have hnot : j ∉ order.map Prod.fst → j ∉ (order ++ [(k, op, result)]).map Prod.fst := by
      intro hmem
      rw [hids, List.mem_append, List.mem_singleton]
      exact fun hor => hor.elim hmem hj
    revert hold
    cases s.calls j with
    | idle | locking | inside => exact fun hold => ⟨hold.1, hnot hold.2⟩
    | unlocking | returned => exact fun hold => ⟨hold.1, List.mem_append_left _ hold.2⟩
  · rw [hids]
    exact List.nodup_append.mpr ⟨h.nodup, List.nodup_singleton k, by
      rintro a ha b hb rfl
      exact hinside.2 (List.mem_singleton.mp hb ▸ ha)⟩
  · intro j op' result' hmem
    rw [hhistory]
    rcases List.mem_append.mp hmem with hold | hnew
    · exact h.invoked hold
    · cases List.mem_singleton.mp hnew
      exact hinside.1
  · intro j result' hmem
    rw [hhistory] at hmem
    obtain ⟨op', hold⟩ := h.answered hmem
    exact ⟨op', List.mem_append_left _ hold⟩
  · intro i j result' op' hpair hj
    rw [hhistory] at hpair
    rw [hids] at hj ⊢
    rcases List.mem_append.mp hj with hold | hnew
    · exact (h.realTime hpair hold).trans (List.sublist_append_left _ _)
    · -- those that had returned before it began are done
      obtain rfl := List.mem_singleton.mp hnew
      obtain ⟨op'', hdone⟩ := h.answered (hpair.subset List.mem_cons_self)
      have hi : i ∈ order.map Prod.fst := List.mem_map_of_mem hdone
      exact (List.singleton_sublist.mpr hi).append (List.Sublist.refl [j])

theorem Traced.respond (h : Traced s order) {result : α} {todo : List Lock}
    (hk : s.calls k = .unlocking op result todo)
    (hcalls : s'.calls = Function.update s.calls k (.returned op result))
    (hhistory : s'.history = s.history ++ [.returned k result]) : Traced s' order := by
  have hdone := h.told_eq hk
  refine ⟨fun j => ?_, h.nodup, ?_, ?_, ?_⟩
  · rw [hhistory, hcalls]
    refine told_update ?_ (fun j _ => ?_) j
    · exact ⟨List.mem_append_left _ hdone.1, hdone.2⟩
    · apply (h.told j).mono
      intro op' heq
      cases heq
  · rw [hhistory]
    exact fun hmem => List.mem_append_left _ (h.invoked hmem)
  · intro j result' hmem
    rw [hhistory] at hmem
    rcases List.mem_append.mp hmem with hold | hnew
    · exact h.answered hold
    · cases List.mem_singleton.mp hnew
      exact ⟨op, hdone.2⟩
  · intro i j result' op' hpair hj
    rw [hhistory] at hpair
    rcases pair_sublist_concat hpair with hold | hnew
    · exact h.realTime hold hj
    · cases hnew

end Traced

/-! ## Steps -/

variable [DecidableEq Lock] [DecidableEq Cell]

/-- One access of a call that has begun. -/
inductive Move (s : Concurrent Lock Op V α) : Concurrent Lock Op V α → Prop where
  | lock {k : Nat} {op : Op} {l : Lock} {todo : List Lock}
      (h : s.calls k = .locking op (l :: todo)) (hfree : s.owner l = none) :
      Move s { s with owner := Function.update s.owner l (some k)
                      calls := Function.update s.calls k (.locking op todo) }
  | enter {k : Nat} {op : Op} (h : s.calls k = .locking op []) :
      Move s { s with calls := Function.update s.calls k (.inside op (G.body op)) }
  | read {k : Nat} {op : Op} {c : Cell} {next : V c → Body V α}
      (h : s.calls k = .inside op (.read c next)) :
      Move s { s with calls := Function.update s.calls k (.inside op (next (s.store c))) }
  | write {k : Nat} {op : Op} {c : Cell} {value : V c} {next : Body V α}
      (h : s.calls k = .inside op (.write c value next)) :
      Move s { s with store := Function.update s.store c value
                      calls := Function.update s.calls k (.inside op next) }
  | finish {k : Nat} {op : Op} {result : α} (h : s.calls k = .inside op (.ret result)) :
      Move s { s with
        calls := Function.update s.calls k (.unlocking op result (G.locks op).reverse) }
  | unlock {k : Nat} {op : Op} {result : α} {l : Lock} {todo : List Lock}
      (h : s.calls k = .unlocking op result (l :: todo)) :
      Move s { s with owner := Function.update s.owner l none
                      calls := Function.update s.calls k (.unlocking op result todo) }
  | respond {k : Nat} {op : Op} {result : α} (h : s.calls k = .unlocking op result []) :
      Move s { s with calls := Function.update s.calls k (.returned op result)
                      history := s.history ++ [.returned k result] }

/-- A call begins, or one that has begun goes on. -/
inductive Step (s : Concurrent Lock Op V α) : Concurrent Lock Op V α → Prop where
  | invoke {k : Nat} (op : Op) (h : s.calls k = .idle) :
      Step s { s with calls := Function.update s.calls k (.locking op (G.locks op))
                      history := s.history ++ [.invoked k op] }
  | move {s' : Concurrent Lock Op V α} (h : G.Move s s') : Step s s'

/-- Some interleaving leads from the first state to the second. -/
def Reaches : Concurrent Lock Op V α → Concurrent Lock Op V α → Prop :=
  Relation.ReflTransGen G.Step

variable {G} {s₀ s s' : Concurrent Lock Op V α} {k : Nat}

theorem Reaches.step (h : G.Reaches s₀ s) (hstep : G.Step s s') : G.Reaches s₀ s' :=
  h.tail hstep

theorem Reaches.move (h : G.Reaches s₀ s) (hmove : G.Move s s') : G.Reaches s₀ s' :=
  h.step (.move hmove)

theorem Exclusive.move (h : G.Exclusive s) (hmove : G.Move s s') : G.Exclusive s' := by
  cases hmove with
  | lock hk hfree => exact h.lock hk hfree rfl rfl
  | unlock hk => exact h.unlock hk rfl rfl
  | enter hk =>
      refine h.keep rfl rfl trivial fun l => ?_
      rw [hk]
      show l ∈ G.locks _ ↔ l ∈ G.locks _ ∧ l ∉ []
      simp
  | read hk | write hk =>
      refine h.keep rfl rfl trivial fun l => ?_
      rw [hk]
      exact Iff.rfl
  | @finish k op result hk =>
      refine h.keep rfl rfl (List.nodup_reverse.mpr (G.nodup op)) fun l => ?_
      rw [hk]
      exact List.mem_reverse
  | respond hk =>
      refine h.keep rfl rfl trivial fun l => ?_
      rw [hk]
      show False ↔ l ∈ []
      simp

theorem Exclusive.step (h : G.Exclusive s) (hstep : G.Step s s') : G.Exclusive s' := by
  cases hstep with
  | move hmove => exact h.move hmove
  | invoke op hk =>
      refine h.keep rfl rfl List.suffix_rfl fun l => ?_
      rw [hk]
      show l ∈ G.locks op ∧ l ∉ G.locks op ↔ False
      simp

/-! ## Linearizability -/

/-- The calls that are done, one after the other in this order, explain everything that was seen.
`σ₀` is the store before all calls, and `σ` the one after those that are done. -/
structure Linearizes (G : LockedObject Lock Cell Op V α) (σ₀ : ∀ c, V c)
    (s : Concurrent Lock Op V α) (order : List (Nat × Op × α)) (σ : ∀ c, V c) : Prop where
  replays : G.Replays σ₀ order σ
  traced : Traced s order
  overlaid : G.Overlaid σ s

variable {σ₀ σ : ∀ c, V c} {order : List (Nat × Op × α)}

theorem Linearizes.step (h : G.Linearizes σ₀ s order σ) (hexclusive : G.Exclusive s)
    (hstep : G.Step s s') : ∃ order' σ', G.Linearizes σ₀ s' order' σ' := by
  cases hstep with
  | invoke op hk =>
      refine ⟨order, σ, h.replays, h.traced.invoke hk rfl rfl, ?_⟩
      exact h.overlaid.outside (by simp [hk]) (by simp) rfl rfl
  | move hmove =>
  cases hmove with
  | lock hk =>
      refine ⟨order, σ, h.replays, h.traced.keep hk rfl rfl id, ?_⟩
      exact h.overlaid.outside (by simp [hk]) (by simp) rfl rfl
  | enter hk =>
      refine ⟨order, σ, h.replays, h.traced.keep hk rfl rfl id, ?_⟩
      exact h.overlaid.enter hexclusive hk rfl rfl
  | read hk =>
      refine ⟨order, σ, h.replays, h.traced.keep hk rfl rfl id, ?_⟩
      exact h.overlaid.read hk rfl rfl
  | write hk =>
      refine ⟨order, σ, h.replays, h.traced.keep hk rfl rfl id, ?_⟩
      exact h.overlaid.write hexclusive hk rfl rfl
  | @finish k op result hk =>
      refine ⟨order ++ [(k, op, result)], _, ?_, h.traced.finish hk rfl rfl,
        h.overlaid.finish hexclusive hk rfl rfl (by simp)⟩
      rw [← h.overlaid.result hk]
      exact h.replays.concat k op
  | unlock hk =>
      refine ⟨order, σ, h.replays, h.traced.keep hk rfl rfl id, ?_⟩
      exact h.overlaid.outside (by simp [hk]) (by simp) rfl rfl
  | respond hk =>
      refine ⟨order, σ, h.replays, h.traced.respond hk rfl rfl, ?_⟩
      exact h.overlaid.outside (by simp [hk]) (by simp) rfl rfl

/-- Every interleaving of calls is explained by one after the other. -/
theorem linearizes_of_reaches (h : G.Reaches (start σ₀) s) :
    G.Exclusive s ∧ ∃ order σ, G.Linearizes σ₀ s order σ := by
  induction h with
  | refl =>
      refine ⟨exclusive_start σ₀, [], σ₀, rfl, traced_start σ₀, ?_, fun c _ => rfl⟩
      intro k op rest hk
      cases hk
  | tail _ hstep ih =>
      obtain ⟨hexclusive, order, σ, hlinear⟩ := ih
      exact ⟨hexclusive.step hstep, hlinear.step hexclusive hstep⟩

/-! ## The end of the calls -/

section Completion

/-- The calls that have begun go on, and no other begins. -/
def Goes (G : LockedObject Lock Cell Op V α) :
    Concurrent Lock Op V α → Concurrent Lock Op V α → Prop :=
  Relation.ReflTransGen G.Move

/-- The call has begun and has not returned. -/
def Active (s : Concurrent Lock Op V α) (k : Nat) : Prop :=
  s.calls k ≠ .idle ∧ ∀ op result, s.calls k ≠ .returned op result

/-- The call waits for no lock that another call has. -/
def Unblocked (s : Concurrent Lock Op V α) (k : Nat) : Prop :=
  Active s k ∧ ∀ op todo, s.calls k = .locking op todo → ∀ l ∈ todo, s.owner l = none

theorem Exclusive.goes (h : G.Exclusive s) (hgoes : G.Goes s s') : G.Exclusive s' := by
  induction hgoes with
  | refl => exact h
  | tail _ hmove ih => exact ih.move hmove

/-- The call can go on to its return, whatever the others do later. -/
def Ends (G : LockedObject Lock Cell Op V α) (s : Concurrent Lock Op V α) (k : Nat) : Prop :=
  ∃ s' op result, G.Goes s s' ∧ s'.calls = Function.update s.calls k (.returned op result)

theorem Ends.head (hmove : G.Move s s') {phase : Phase Lock Op V α}
    (hcalls : s'.calls = Function.update s.calls k phase) (h : G.Ends s' k) : G.Ends s k := by
  obtain ⟨last, op, result, hgoes, hlast⟩ := h
  refine ⟨last, op, result, .head hmove hgoes, ?_⟩
  rw [hlast, hcalls]
  exact Function.update_idem ..

/-- A call that gives its locks back returns. -/
theorem ends_of_unlocking {op : Op} {result : α} {todo : List Lock}
    (hk : s.calls k = .unlocking op result todo) : G.Ends s k := by
  induction todo generalizing s with
  | nil => exact ⟨_, op, result, .single (.respond hk), rfl⟩
  | cons l todo ih => exact .head (.unlock hk) rfl (ih (Function.update_self ..))

/-- A call that is inside returns. -/
theorem ends_of_inside {op : Op} {rest : Body V α} (hk : s.calls k = .inside op rest) :
    G.Ends s k := by
  induction rest generalizing s with
  | ret result => exact .head (.finish hk) rfl (ends_of_unlocking (Function.update_self ..))
  | read c next ih => exact .head (.read hk) rfl (ih _ (Function.update_self ..))
  | write c value next ih => exact .head (.write hk) rfl (ih (Function.update_self ..))

/-- A call that finds its locks free returns. -/
theorem ends_of_locking {op : Op} {todo : List Lock} (hk : s.calls k = .locking op todo)
    (hnodup : todo.Nodup) (hfree : ∀ l ∈ todo, s.owner l = none) : G.Ends s k := by
  induction todo generalizing s with
  | nil => exact .head (.enter hk) rfl (ends_of_inside (Function.update_self ..))
  | cons l todo ih =>
      obtain ⟨hl, hrest⟩ := List.nodup_cons.mp hnodup
      refine .head (.lock hk (hfree l List.mem_cons_self)) rfl
        (ih (Function.update_self ..) hrest fun l' hl' => ?_)
      have hne : l' ≠ l := by
        rintro rfl
        exact hl hl'
      show Function.update s.owner l (some k) l' = none
      rw [Function.update_of_ne hne]
      exact hfree l' (List.mem_cons_of_mem _ hl')

theorem Unblocked.ends (h : Unblocked s k) (hexclusive : G.Exclusive s) : G.Ends s k := by
  obtain ⟨⟨hidle, hreturned⟩, hfree⟩ := h
  cases hk : s.calls k with
  | idle => exact absurd hk hidle
  | returned op result => exact absurd hk (hreturned op result)
  | locking op todo =>
      have hsuffix : G.Orderly (s.calls k) := hexclusive.orderly k
      rw [hk] at hsuffix
      exact ends_of_locking hk ((G.nodup op).sublist hsuffix.sublist) (hfree op todo hk)
  | inside op rest => exact ends_of_inside hk
  | unlocking op result todo => exact ends_of_unlocking hk

variable {rank : Lock → Nat} {bound : Nat}

omit [DecidableEq Lock] [DecidableEq Cell] in
/-- Along the waiting calls the ranks go up, so that some call does not wait. -/
theorem exists_unblocked_of_owner (hexclusive : G.Exclusive s)
    (hsorted : ∀ op, (G.locks op).Pairwise fun l l' => rank l < rank l')
    (hbound : ∀ l, rank l ≤ bound) {l : Lock} (hl : s.owner l = some k) :
    ∃ j, Unblocked s j := by
  induction hn : bound - rank l using Nat.strongRecOn generalizing l k with
  | _ n ih =>
      have hholds : G.Holds (s.calls k) l := (hexclusive.owned k l).mpr hl
      by_cases hfree : Unblocked s k
      · exact ⟨k, hfree⟩
      -- it holds a lock, so that it waits for another one, of a higher rank
      cases hk : s.calls k with
      | idle =>
          rw [hk] at hholds
          exact hholds.elim
      | returned op result =>
          rw [hk] at hholds
          exact hholds.elim
      | inside op rest => exact absurd ⟨by simp [Active, hk], by simp [hk]⟩ hfree
      | unlocking op result todo => exact absurd ⟨by simp [Active, hk], by simp [hk]⟩ hfree
      | locking op todo =>
          have hsuffix : G.Orderly (s.calls k) := hexclusive.orderly k
          rw [hk] at hholds hsuffix
          obtain ⟨taken, htaken⟩ : todo <:+ G.locks op := hsuffix
          have hblocked : ∃ l' ∈ todo, s.owner l' ≠ none := by
            by_contra hnone
            push Not at hnone
            refine hfree ⟨by simp [Active, hk], ?_⟩
            intro op' todo' hk'
            rw [hk] at hk'
            cases hk'
            exact hnone
          obtain ⟨l', hl', howned⟩ := hblocked
          obtain ⟨j, hj⟩ := Option.ne_none_iff_exists'.mp howned
          have hmem : l ∈ taken := by
            have hor : l ∈ taken ++ todo := htaken ▸ hholds.1
            exact (List.mem_append.mp hor).resolve_right hholds.2
          have hpairs := hsorted op
          rw [← htaken, List.pairwise_append] at hpairs
          have hlt := hpairs.2.2 l hmem l' hl'
          have hle := hbound l'
          exact ih (bound - rank l') (by omega) hj rfl

omit [DecidableEq Lock] [DecidableEq Cell] in
/-- If calls have begun and not returned, one of them does not wait. -/
theorem exists_unblocked (hexclusive : G.Exclusive s)
    (hsorted : ∀ op, (G.locks op).Pairwise fun l l' => rank l < rank l')
    (hbound : ∀ l, rank l ≤ bound) (hactive : Active s k) : ∃ j, Unblocked s j := by
  by_cases hfree : ∃ l j, s.owner l = some j
  · obtain ⟨l, j, hl⟩ := hfree
    exact exists_unblocked_of_owner hexclusive hsorted hbound hl
  · push Not at hfree
    refine ⟨k, hactive, fun op todo _ l _ => ?_⟩
    cases howner : s.owner l with
    | none => rfl
    | some j => exact absurd howner (hfree l j)

/-- If the calls that have begun are among these, they can all return. -/
theorem goes_of_active (ids : List Nat) (hexclusive : G.Exclusive s)
    (hsorted : ∀ op, (G.locks op).Pairwise fun l l' => rank l < rank l')
    (hbound : ∀ l, rank l ≤ bound) (hids : ∀ k, Active s k → k ∈ ids) :
    ∃ s', G.Goes s s' ∧ ∀ k, ¬ Active s' k := by
  induction hn : ids.length generalizing ids s with
  | zero =>
      obtain rfl := List.length_eq_zero_iff.mp hn
      exact ⟨s, .refl, fun k hk => absurd (hids k hk) List.not_mem_nil⟩
  | succ n ih =>
      by_cases hnone : ∀ k, ¬ Active s k
      · exact ⟨s, .refl, hnone⟩
      push Not at hnone
      obtain ⟨k, hk⟩ := hnone
      obtain ⟨j, hj⟩ := exists_unblocked hexclusive hsorted hbound hk
      obtain ⟨s', op, result, hgoes, hcalls⟩ := hj.ends hexclusive
      have hmem := hids j hj.1
      have hlength : (ids.erase j).length = n := by
        rw [List.length_erase_of_mem hmem]
        omega
      obtain ⟨last, hlast, hdone⟩ := ih (ids.erase j) (hexclusive.goes hgoes) (by
        intro i hi
        have hne : i ≠ j := by
          rintro rfl
          refine hi.2 op result ?_
          rw [hcalls, Function.update_self]
        have hold : Active s i := by
          unfold Active at hi ⊢
          rwa [hcalls, Function.update_of_ne hne] at hi
        exact (List.mem_erase_of_ne hne).mpr (hids i hold)) hlength
      exact ⟨last, hgoes.trans hlast, hdone⟩

/-- The calls of an invocation event. -/
def CallEvent.begun : CallEvent Op α → Option Nat
  | .invoked k _ => some k
  | .returned _ _ => none

/-- If the locks of every method go up in rank, all calls that have begun can return. -/
theorem completes_of_reaches (hsorted : ∀ op, (G.locks op).Pairwise fun l l' => rank l < rank l')
    (hbound : ∀ l, rank l ≤ bound) (h : G.Reaches (start σ₀) s) :
    ∃ s', G.Goes s s' ∧ ∀ k, ¬ Active s' k := by
  obtain ⟨hexclusive, order, σ, hlinear⟩ := linearizes_of_reaches h
  refine goes_of_active (s.history.filterMap CallEvent.begun) hexclusive hsorted hbound ?_
  intro k hk
  have htold := hlinear.traced.told k
  rw [List.mem_filterMap]
  cases hphase : s.calls k with
  | idle => exact absurd hphase hk.1
  | returned op result => exact absurd hphase (hk.2 op result)
  | locking op todo | inside op rest | unlocking op result todo =>
      rw [hphase] at htold
      exact ⟨_, htold.1, rfl⟩

end Completion

end LockedObject

end Library
end DgProto
