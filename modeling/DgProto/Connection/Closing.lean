import DgProto.Library.Calls
import DgProto.Connection.Lifecycle

/-!
# What a returned `Close` has done

`Close` returns once the function under `closeOnce` has ended, in its own goroutine or in
another one.  At that point the terminal cause is recorded and the context of the
connection is canceled: the last instruction of the function needs both.
-/

namespace DgProto

open Library Wire Crypto Connection

section Runs

variable {P : Primitives} {pool before after : Pool Connection Instr}

/-- The last instruction of `Close`, however far it has got. -/
def Instr.closesOnce : Instr → Bool
  | .closeOnce _ _ | .loadStarted _ _ | .leaseClose _ | .checkClose _ | .requestClose _
  | .awaitClose _ | .preferResult _ | .endClose _ => true
  | _ => false

/-- The thread was started for a call of `Close`, which goes on or has had its effect. -/
abbrev CloseCalled (k : Nat) (pool : Pool Connection Instr) : Prop :=
  Machine.Serves Instr.closesOnce (fun s : Connection => s.closeOnce = .finished) k pool

theorem Exec.serves_close {s : Connection} {i : Instr} {effect : Effect Connection Instr}
    (h : Exec P s i effect) (hi : i.closesOnce = true) :
    endsWith Instr.closesOnce effect.pushed = true ∨ effect.state.closeOnce = .finished := by
  cases h with
  | lifecycle h =>
      cases h with
      | closeAgain h => exact .inr h
      | endClose => exact .inr rfl
      | closeFirst | neverStarted | wasStarted | leaseClose | checkCloseCanceled
      | checkCloseLive | requestAccepted | requestCanceled | requestExpired | closeAnswered
      | closeCanceled | closeExpired | preferAnswered | preferCanceled => exact .inl rfl
      | _ => cases hi
  | queue h | write h | receive h | keepalive h => cases h <;> cases hi

theorem Exec.closed_stays {s : Connection} {i : Instr} {effect : Effect Connection Instr}
    (h : Exec P s i effect) (hclosed : s.closeOnce = .finished) :
    effect.state.closeOnce = .finished := by
  cases h with
  | lifecycle h =>
      cases h with
      | closeFirst hidle => exact absurd (hidle.symm.trans hclosed) (by decide)
      | endClose => rfl
      | _ => exact hclosed
  | queue h | write h | receive h | keepalive h => exact h.frame ▸ hclosed

theorem CloseCalled.start (s : Connection) (threads : List (List Instr)) (channel : Nat) :
    CloseCalled threads.length ⟨s, threads ++ [ApiCall.close.program channel]⟩ := by
  have hlast : (threads ++ [ApiCall.close.program channel])[threads.length]? =
      some (ApiCall.close.program channel) := List.getElem?_concat_length
  exact .inl ⟨_, hlast, rfl⟩

theorem CloseCalled.step {k : Nat} (h : CloseCalled k before)
    (hstep : (connectionMachine P).Step before after) : CloseCalled k after := by
  refine Machine.Serves.step h hstep (fun hexec hi => ?_) (fun hexec hclosed => ?_) ?_
  · exact Exec.serves_close hexec hi
  · exact Exec.closed_stays hexec hclosed
  · intro s s' new hambient hclosed
    cases hambient <;> exact hclosed

/-- A call of `Close` that has returned leaves a terminal cause and a canceled context. -/
theorem CloseCalled.returned {session : Session} {config : ConnectionConfig} {k : Nat}
    (h : CloseCalled k pool)
    (hreach : (connectionMachine P).Reaches (connectionStart session config) pool)
    (hreturned : pool.threads[k]? = some []) :
    pool.state.terminal ≠ none ∧ pool.state.cancelCause ≠ none := by
  have hclosed := (sound_of_reaches hreach).closed (h.of_returned hreturned)
  exact ⟨hclosed .terminal (by simp), hclosed .canceled (by simp)⟩

end Runs

end DgProto
