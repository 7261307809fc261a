import DgProto.Library.ThreadPool
import Mathlib.Data.List.DropRight

/-!
# Runs of a pool with what was executed

`Reaches` forgets how a pool was reached.  A trace keeps the instructions that were
executed on the way, in their order, each with the state in which it was executed and with
what it did.  Statements about what has happened since some event are about traces.
-/

namespace DgProto
namespace Library

/-- An instruction that was executed. -/
structure Executed (σ ι : Type) where
  before : σ
  instr : ι
  effect : Effect σ ι

namespace Machine

variable {σ ι : Type} {M : Machine σ ι} {start : Pool σ ι}

/-- The pool is reached by executing these instructions, the last one last. -/
inductive Traces (M : Machine σ ι) (start : Pool σ ι) :
    List (Executed σ ι) → Pool σ ι → Prop where
  | start : Traces M start [] start
  | thread {events : List (Executed σ ι)} {s : σ} {threads : List (List ι)} (k : Nat) {i : ι}
      {rest : List ι} {effect : Effect σ ι} (h : Traces M start events ⟨s, threads⟩)
      (hk : threads[k]? = some (i :: rest)) (hexec : M.exec s i effect) :
      Traces M start (events ++ [⟨s, i, effect⟩])
        ⟨effect.state, threads.set k (effect.pushed ++ rest) ++ effect.spawned⟩
  | ambient {events : List (Executed σ ι)} {s s' : σ} {threads new : List (List ι)}
      (h : Traces M start events ⟨s, threads⟩) (hambient : M.ambient s s' new) :
      Traces M start events ⟨s', threads ++ new⟩

theorem Traces.reaches {events : List (Executed σ ι)} {pool : Pool σ ι}
    (h : M.Traces start events pool) : M.Reaches start pool := by
  induction h with
  | start => exact .refl
  | thread k _ hk hexec ih => exact ih.tail (.thread k hk hexec)
  | ambient _ hambient ih => exact ih.tail (.ambient hambient)

/-- Every event of a trace was a step of the machine. -/
theorem Traces.exec {events : List (Executed σ ι)} {pool : Pool σ ι}
    (h : M.Traces start events pool) :
    ∀ event ∈ events, M.exec event.before event.instr event.effect := by
  induction h with
  | start => exact List.forall_mem_nil _
  | thread k _ _ hexec ih =>
      exact List.forall_mem_append.mpr ⟨ih, List.forall_mem_singleton.mpr hexec⟩
  | ambient _ _ ih => exact ih

/-- Every reached pool has a trace. -/
theorem Reaches.traces {pool : Pool σ ι} (h : M.Reaches start pool) :
    ∃ events, M.Traces start events pool := by
  induction h with
  | refl => exact ⟨[], .start⟩
  | tail _ hstep ih =>
      obtain ⟨events, htrace⟩ := ih
      cases hstep with
      | thread k hk hexec => exact ⟨_, htrace.thread k hk hexec⟩
      | ambient hambient => exact ⟨events, htrace.ambient hambient⟩

end Machine

/-! ## What has happened since an event -/

section Latest

variable {α β : Type} {f : α → Option β}

/-- The value of the last event that has one. -/
def latest (f : α → Option β) (events : List α) : Option β :=
  (events.filterMap f).getLast?

/-- The events after the last one that has a value. -/
def since (f : α → Option β) (events : List α) : List α :=
  events.rtakeWhile fun event => (f event).isNone

variable (events : List α) {event : α} {value : β}

theorem latest_concat_of_none (h : f event = none) :
    latest f (events ++ [event]) = latest f events := by
  simp [latest, h]

theorem latest_concat_of_some (h : f event = some value) :
    latest f (events ++ [event]) = some value := by
  simp [latest, h]

theorem since_concat_of_none (h : f event = none) :
    since f (events ++ [event]) = since f events ++ [event] := by
  simp [since, h]

theorem since_concat_of_some (h : f event = some value) : since f (events ++ [event]) = [] := by
  simp [since, h]

end Latest

end Library
end DgProto
