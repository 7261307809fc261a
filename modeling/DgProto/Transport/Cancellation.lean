import DgProto.Transport.Lanes

/-!
# Cancellation of transport calls

Any number of goroutines call `ReadFrame` and `WriteFrame` on one `TCPTransport`.  A call
that has taken the lane of its direction starts a watcher, a goroutine that waits for the
end of the call's context or of the call.  In the first case it sets the deadline of the
connection for that direction, so that a blocked read or write returns.

A watcher may choose the end of the context after its call has finished the transfer.
What keeps its deadline away from the next call is the order of the deferred steps: close
`done`, wait for `exited`, clear the deadline, release the lane.  The machine below runs
callers and watchers in any interleaving; a context may end at any moment.  `Guarded` is
its invariant: a live watcher has a call that waits for it, and a deadline that is set has
a call that clears it, both before the lane is free again.

Nobody closes the connection here, so setting and clearing a deadline do not fail.
-/

namespace DgProto

open Library Wire Crypto

/-! ## Calls -/

/-- The directions of a connection, each with its lane and its deadline. -/
inductive IoDirection where
  | read
  | write
  deriving DecidableEq

/-- `ReadFrame`, or `WriteFrame` with its frame. -/
inductive FrameOp where
  | read
  | write (frame : Frame)
  deriving DecidableEq

def FrameOp.direction : FrameOp → IoDirection
  | .read => .read
  | .write _ => .write

/-- A call.  Its number also names the channels `done` and `exited` of its watcher.  Calls
may share a context. -/
structure FrameCall where
  id : Nat
  context : Nat
  op : FrameOp
  deriving DecidableEq

def FrameCall.direction (c : FrameCall) : IoDirection := c.op.direction

/-- How far the transfer of a frame has got. -/
inductive Progress where
  /-- `ReadFrame` has read this much of the header. -/
  | header (got : List UInt8)
  /-- `ReadFrame` has read this much of a frame of the given size. -/
  | body (size : Nat) (got : List UInt8)
  /-- `WriteFrame` has this much left to write. -/
  | wire (left : List UInt8)
  deriving DecidableEq

/-- What a call returns. -/
abbrev FrameResult := Except Error (Option Frame)

/-- What happens before the lane is asked for: `WriteFrame` marshals. -/
def FrameOp.start : FrameOp → Except Error Progress
  | .read => .ok (.header [])
  | .write frame =>
      match frameWire frame with
      | .error err => .error err
      | .ok wire => .ok (.wire wire)

/-- The error of `io.ReadFull` when `Read` fails after this many octets. -/
def readFullError (got : Nat) (err : Error) : Error :=
  if 0 < got ∧ err = Sentinel.ioEOF.bare then Sentinel.ioUnexpectedEOF.bare else err

/-- The connection gives or takes some octets, or the header is complete. -/
inductive Progress.Moves : Progress → Progress → Prop where
  | readHeader {got chunk : List UInt8} (hroom : got.length < headerSize)
      (hfits : got.length + chunk.length ≤ headerSize) :
      Moves (.header got) (.header (got ++ chunk))
  | parseHeader {got : List UInt8} {size : Nat} (hfull : got.length = headerSize)
      (hsize : announcedSize got = .ok size) : Moves (.header got) (.body size got)
  | readBody {size : Nat} {got chunk : List UInt8} (hroom : got.length < size)
      (hfits : got.length + chunk.length ≤ size) :
      Moves (.body size got) (.body size (got ++ chunk))
  | write {left : List UInt8} {n : Nat} (hpos : 0 < n) (hfits : n ≤ left.length) :
      Moves (.wire left) (.wire (left.drop n))

/-- The transfer ends.  The connection may fail at any time; `closed` says that it did so with
`net.ErrClosed`. -/
inductive Progress.Returns (ctxErr : Option Error) : Progress → FrameResult → Prop where
  | headerFailed {got : List UInt8} (closed : Bool) (err : Error)
      (hroom : got.length < headerSize) :
      Returns ctxErr (.header got)
        (.error (transportError ctxErr closed (readFullError got.length err)))
  | headerInvalid {got : List UInt8} {err : Error} (hfull : got.length = headerSize)
      (hsize : announcedSize got = .error err) : Returns ctxErr (.header got) (.error err)
  | bodyFailed {size : Nat} {got : List UInt8} (closed : Bool) (err : Error)
      (hroom : got.length < size) :
      Returns ctxErr (.body size got)
        (.error (transportError ctxErr closed (readFullError (got.length - headerSize) err)))
  | frameInvalid {size : Nat} {got : List UInt8} {err : Error} (hfull : got.length = size)
      (hframe : Frame.unmarshalBinary got = .error err) :
      Returns ctxErr (.body size got) (.error err)
  | frameRead {size : Nat} {got : List UInt8} {frame : Frame} (hfull : got.length = size)
      (hframe : Frame.unmarshalBinary got = .ok frame) :
      Returns ctxErr (.body size got) (.ok (some frame))
  | writeFailed {left : List UInt8} (closed : Bool) (err : Error) (hleft : left ≠ []) :
      Returns ctxErr (.wire left) (.error (transportError ctxErr closed err))
  | shortWrite {left : List UInt8} (hleft : left ≠ []) :
      Returns ctxErr (.wire left) (.error Sentinel.ioShortWrite.bare)
  | written : Returns ctxErr (.wire []) (.ok none)

/-! ## The steps of a read -/

namespace Progress

/-- What a read has got from the connection. -/
def got : Progress → List UInt8
  | .header got | .body _ got => got
  | .wire _ => []

/-- The connection has given all that the call asked it for. -/
def Full : Progress → Prop
  | .header got => got.length = headerSize
  | .body size got => got.length = size
  | .wire _ => False

/-- Where a read can stand. -/
def Reading : Progress → Prop
  | .header got => got.length ≤ headerSize
  | .body size got =>
      headerSize ≤ got.length ∧ got.length ≤ size ∧ announcedSize (got.take headerSize) = .ok size
  | .wire _ => False

variable {p q : Progress}

theorem Moves.reading (h : p.Moves q) (hp : p.Reading) : q.Reading := by
  cases h with
  | readHeader hroom hfits =>
      simp only [Reading, List.length_append]
      exact hfits
  | @parseHeader got size hfull hsize =>
      have hbounds := announcedSize_eq_ok hsize
      refine ⟨by omega, by omega, ?_⟩
      rw [List.take_of_length_le (by omega)]
      exact hsize
  | readBody hroom hfits =>
      obtain ⟨hheader, -, hsize⟩ := hp
      simp only [Reading, List.length_append]
      refine ⟨by omega, hfits, ?_⟩
      rw [List.take_append_of_le_length hheader]
      exact hsize
  | write => exact hp

theorem reading_of_moves (h : Relation.ReflTransGen Moves (.header []) p) : p.Reading := by
  induction h with
  | refl => exact Nat.zero_le _
  | tail _ hmove ih => exact hmove.reading ih

/-- A whole frame is decoded from all its octets. -/
theorem readFrame_of_full {size : Nat} {got : List UInt8} (hp : (Progress.body size got).Reading)
    (hfull : got.length = size) (failure : Option String) :
    readFrame ⟨got, failure⟩ =
      (Frame.unmarshalBinary got).map fun frame => (frame, ⟨[], failure⟩) := by
  obtain ⟨hheader, -, hsize⟩ := hp
  have hbody : Reader.advance (Reader.skip ⟨got, failure⟩ headerSize) (size - headerSize) =
      .ok (got.drop headerSize, ⟨[], failure⟩) := by
    have hrest : (got.drop headerSize).length = size - headerSize := by
      rw [List.length_drop, hfull]
    rw [advance_of_le (by simp only [Reader.skip]; omega)]
    simp only [Reader.skip]
    rw [List.take_of_length_le (Nat.le_of_eq hrest), List.drop_of_length_le (Nat.le_of_eq hrest)]
  unfold readFrame readFrameWith
  rw [advance_of_le hheader]
  simp only [hsize]
  unfold readBodyWith
  rw [hbody]
  simp only [List.take_append_drop]
  cases Frame.unmarshalBinary got with
  | error err | ok frame => rfl

/-- A read that got all it asked for returns what `ReadFrame` makes of these octets. -/
theorem Returns.eq_readFrame {ctxErr : Option Error} {result : FrameResult}
    (h : p.Returns ctxErr result) (hmoves : Relation.ReflTransGen Moves (.header []) p)
    (hfull : p.Full) (failure : Option String) :
    (readFrame ⟨p.got, failure⟩).map (fun read => some read.1) = result := by
  have hp := reading_of_moves hmoves
  cases h with
  | headerFailed closed err hroom => exact absurd hfull (Nat.ne_of_lt hroom)
  | @headerInvalid got err hfull hsize =>
      unfold readFrame readFrameWith
      rw [advance_of_le (Nat.le_of_eq hfull.symm)]
      simp only [Progress.got, List.take_of_length_le (Nat.le_of_eq hfull), hsize]
      rfl
  | bodyFailed closed err hroom => exact absurd hfull (Nat.ne_of_lt hroom)
  | frameInvalid hfull hframe =>
      simp only [got, readFrame_of_full hp hfull, hframe]
      rfl
  | frameRead hfull hframe =>
      simp only [got, readFrame_of_full hp hfull, hframe]
      rfl
  | writeFailed | shortWrite | written => exact hp.elim

end Progress

/-! ## The machine -/

/-- What is left to do of a call or of a watcher. -/
inductive TransportInstr where
  /-- The call, up to `acquireLane`. -/
  | call (c : FrameCall)
  /-- `acquireLane`: the look at the context. -/
  | acquireLane (c : FrameCall) (progress : Progress)
  /-- `acquireLane`: the wait for the lane or the end of the context. -/
  | awaitLane (c : FrameCall) (progress : Progress)
  | watchContext (c : FrameCall) (progress : Progress)
  | transfer (c : FrameCall) (progress : Progress)
  /-- The function that `watchContext` returned, in its three steps. -/
  | closeDone (c : FrameCall)
  | awaitExited (c : FrameCall)
  | clearDeadline (c : FrameCall)
  /-- The deferred release of the lane. -/
  | releaseLane (c : FrameCall)
  /-- The watcher's wait. -/
  | watch (c : FrameCall)
  | setDeadline (c : FrameCall)
  /-- The deferred close of `exited`. -/
  | closeExited (c : FrameCall)
  deriving DecidableEq

/-- A transport with the contexts and channels of its calls, and their history. -/
structure TcpTransport where
  /-- The lane holds its token. -/
  lane : IoDirection → Bool
  /-- The call whose watcher has set the deadline. -/
  deadline : IoDirection → Option Nat
  /-- The errors of the contexts that have ended. -/
  contexts : Nat → Option Error
  done : Nat → Bool
  exited : Nat → Bool
  nextCall : Nat
  /-- The steps of all transfers, each with the deadline that it ran under. -/
  ran : List (FrameCall × Option Nat)
  results : List (FrameCall × FrameResult)

namespace TcpTransport

/-- `NewTCPTransport`. -/
def fresh : TcpTransport where
  lane := fun _ => false
  deadline := fun _ => none
  contexts := fun _ => none
  done := fun _ => false
  exited := fun _ => false
  nextCall := 0
  ran := []
  results := []

/-- The call has its result. -/
def returned (s : TcpTransport) (c : FrameCall) (result : FrameResult) : TcpTransport :=
  { s with results := s.results ++ [(c, result)] }

/-- A step of the transfer has run under the deadline in force. -/
def running (s : TcpTransport) (c : FrameCall) : TcpTransport :=
  { s with ran := s.ran ++ [(c, s.deadline c.direction)] }

/-- One step of a call or of a watcher. -/
inductive Exec (s : TcpTransport) : TransportInstr → Effect TcpTransport TransportInstr → Prop where
  | started {c : FrameCall} {progress : Progress} (h : c.op.start = .ok progress) :
      Exec s (.call c) ⟨s, [.acquireLane c progress], []⟩
  | unsendable {c : FrameCall} {err : Error} (h : c.op.start = .error err) :
      Exec s (.call c) ⟨s.returned c (.error err), [], []⟩
  -- acquireLane
  | expired {c : FrameCall} {progress : Progress} {err : Error}
      (h : s.contexts c.context = some err) :
      Exec s (.acquireLane c progress) ⟨s.returned c (.error err), [], []⟩
  | waiting {c : FrameCall} {progress : Progress} (h : s.contexts c.context = none) :
      Exec s (.acquireLane c progress) ⟨s, [.awaitLane c progress], []⟩
  | acquired {c : FrameCall} {progress : Progress} (h : s.lane c.direction = false) :
      Exec s (.awaitLane c progress)
        ⟨{ s with lane := Function.update s.lane c.direction true },
          [.watchContext c progress, .releaseLane c], []⟩
  | canceledWaiting {c : FrameCall} {progress : Progress} {err : Error}
      (h : s.contexts c.context = some err) :
      Exec s (.awaitLane c progress) ⟨s.returned c (.error err), [], []⟩
  -- watchContext
  | unwatched {c : FrameCall} {progress : Progress} {err : Error}
      (h : s.contexts c.context = some err) :
      Exec s (.watchContext c progress) ⟨s.returned c (.error err), [], []⟩
  | watched {c : FrameCall} {progress : Progress} (h : s.contexts c.context = none) :
      Exec s (.watchContext c progress)
        ⟨s, [.transfer c progress, .closeDone c, .awaitExited c, .clearDeadline c],
          [[.watch c, .closeExited c]]⟩
  | moved {c : FrameCall} {progress next : Progress} (h : progress.Moves next) :
      Exec s (.transfer c progress) ⟨s.running c, [.transfer c next], []⟩
  | finished {c : FrameCall} {progress : Progress} {result : FrameResult}
      (h : progress.Returns (s.contexts c.context) result) :
      Exec s (.transfer c progress) ⟨(s.running c).returned c result, [], []⟩
  -- the deferred steps, the last deferred one first
  | closeDone {c : FrameCall} :
      Exec s (.closeDone c) ⟨{ s with done := Function.update s.done c.id true }, [], []⟩
  | awaitExited {c : FrameCall} (h : s.exited c.id = true) : Exec s (.awaitExited c) ⟨s, [], []⟩
  | clearDeadline {c : FrameCall} :
      Exec s (.clearDeadline c)
        ⟨{ s with deadline := Function.update s.deadline c.direction none }, [], []⟩
  | releaseLane {c : FrameCall} (h : s.lane c.direction = true) :
      Exec s (.releaseLane c)
        ⟨{ s with lane := Function.update s.lane c.direction false }, [], []⟩
  -- the watcher
  | watchCanceled {c : FrameCall} (h : s.contexts c.context ≠ none) :
      Exec s (.watch c) ⟨s, [.setDeadline c], []⟩
  | watchDone {c : FrameCall} (h : s.done c.id = true) : Exec s (.watch c) ⟨s, [], []⟩
  | setDeadline {c : FrameCall} :
      Exec s (.setDeadline c)
        ⟨{ s with deadline := Function.update s.deadline c.direction (some c.id) }, [], []⟩
  | closeExited {c : FrameCall} :
      Exec s (.closeExited c) ⟨{ s with exited := Function.update s.exited c.id true }, [], []⟩

/-- Another goroutine calls, or a context ends. -/
inductive Ambient (s : TcpTransport) : TcpTransport → List (List TransportInstr) → Prop where
  | call (context : Nat) (op : FrameOp) :
      Ambient s { s with nextCall := s.nextCall + 1 } [[.call ⟨s.nextCall, context, op⟩]]
  | cancel (context : Nat) (err : Error) (h : s.contexts context = none) :
      Ambient s { s with contexts := Function.update s.contexts context (some err) } []

end TcpTransport

/-- The calls on one transport and their watchers. -/
def tcpTransport : Machine TcpTransport TransportInstr :=
  ⟨TcpTransport.Exec, TcpTransport.Ambient⟩

/-- A transport on which nobody has called yet. -/
def transportStart : Pool TcpTransport TransportInstr := ⟨.fresh, []⟩

/-! ## Lanes -/

namespace TransportInstr

/-- The instructions that hold the token of a lane. -/
def holdsLane (d : IoDirection) : TransportInstr → Nat
  | .releaseLane c => if c.direction = d then 1 else 0
  | _ => 0

/-- A call that can still start a watcher, or a watcher that can still close `exited`. -/
def closesExited (n : Nat) : TransportInstr → Nat
  | .call c | .acquireLane c _ | .awaitLane c _ | .watchContext c _ | .closeExited c =>
      if c.id = n then 1 else 0
  | _ => 0

/-- The watcher of the call. -/
def closes (c : FrameCall) : TransportInstr → Nat
  | .closeExited c' => if c' = c then 1 else 0
  | _ => 0

/-- The wait of the call for its watcher. -/
def awaits (c : FrameCall) : TransportInstr → Nat
  | .awaitExited c' => if c' = c then 1 else 0
  | _ => 0

end TransportInstr

namespace TcpTransport

open TransportInstr

/-- The token of a lane, when it is free. -/
def freeLane (d : IoDirection) (s : TcpTransport) : Int := if s.lane d then 0 else 1

/-- The use of a call number that is still to come, and the closed channel `exited`. -/
def exitBalance (n : Nat) (s : TcpTransport) : Int :=
  (if n < s.nextCall then 0 else 1) + if s.exited n then 1 else 0

section Frame

variable (d : IoDirection) (n : Nat) (s : TcpTransport) (c : FrameCall) (result : FrameResult)

@[simp] theorem freeLane_returned : (s.returned c result).freeLane d = s.freeLane d := rfl

@[simp] theorem freeLane_running : (s.running c).freeLane d = s.freeLane d := rfl

@[simp] theorem exitBalance_returned : (s.returned c result).exitBalance n = s.exitBalance n := rfl

@[simp] theorem exitBalance_running : (s.running c).exitBalance n = s.exitBalance n := rfl

end Frame

theorem conserves_lane (d : IoDirection) : tcpTransport.Conserves (holdsLane d) (freeLane d) where
  exec := by
    intro s i effect hexec
    cases hexec with
    | @acquired c progress hfree =>
        by_cases hd : c.direction = d
        · subst hd
          simp [Effect.leaves, holdsLane, freeLane, hfree]
        · simp [Effect.leaves, holdsLane, freeLane, hd, Function.update_of_ne (Ne.symm hd)]
    | @releaseLane c hheld =>
        by_cases hd : c.direction = d
        · subst hd
          simp [Effect.leaves, holdsLane, freeLane, hheld]
        · simp [Effect.leaves, holdsLane, freeLane, hd, Function.update_of_ne (Ne.symm hd)]
    | closeDone | clearDeadline | setDeadline | closeExited =>
        simp [Effect.leaves, holdsLane, freeLane]
    | _ => simp [Effect.leaves, holdsLane]
  ambient := by
    intro s s' new hambient
    cases hambient with
    | call => simp [holdsLane, freeLane]
    | cancel => simp [freeLane]

theorem spends_exit (n : Nat) : tcpTransport.Spends (closesExited n) (exitBalance n) where
  exec := by
    intro s i effect hexec
    cases hexec with
    | @closeExited c =>
        by_cases hn : c.id = n
        · subst hn
          simp only [Effect.leaves, closesExited, exitBalance, Function.update_self, weigh_nil,
            load_nil, if_true]
          split_ifs <;> omega
        · simp [Effect.leaves, closesExited, exitBalance, hn, Function.update_of_ne (Ne.symm hn)]
    | closeDone | clearDeadline | releaseLane | setDeadline =>
        simp [Effect.leaves, closesExited, exitBalance]
    | acquired => simp [Effect.leaves, closesExited, exitBalance]
    | watched =>
        simp [Effect.leaves, closesExited]
    | _ =>
        simp only [Effect.leaves, closesExited, exitBalance_returned, exitBalance_running,
          weigh_nil, weigh_cons, load_nil]
        omega
  ambient := by
    intro s s' new hambient
    cases hambient with
    | call context op =>
        simp only [closesExited, exitBalance, load_cons, weigh_cons, weigh_nil, load_nil]
        split_ifs <;> omega
    | cancel => simp [exitBalance]

/-! ## Deferred steps -/

end TcpTransport

/-- The steps that are deferred: a call's release of the lane and its clearing of the deadline
after the wait for the watcher, and a watcher's close of `exited`. -/
inductive Deferred where
  | release
  | clear
  | exit

namespace Deferred

/-- The instructions after which the step is still to come. -/
def front (c : FrameCall) : Deferred → TransportInstr → Bool
  | .release, .watchContext c' _ | .release, .transfer c' _ | .release, .closeDone c'
  | .release, .awaitExited c' | .release, .clearDeadline c' => c' = c
  | .clear, .awaitExited c' => c' = c
  | .exit, .watch c' | .exit, .setDeadline c' => c' = c
  | _, _ => false

def step (c : FrameCall) : Deferred → TransportInstr
  | .release => .releaseLane c
  | .clear => .clearDeadline c
  | .exit => .closeExited c

/-- Every such instruction of the thread is followed by the deferred step. -/
abbrev Kept (which : Deferred) (c : FrameCall) : List TransportInstr → Prop :=
  Followed (fun i => which.front c i = true) (fun i => i = which.step c)

end Deferred

namespace TcpTransport

open TransportInstr

section Steps

variable {s : TcpTransport} {i : TransportInstr} {effect : Effect TcpTransport TransportInstr}

theorem Exec.kept (h : Exec s i effect) (which : Deferred) (c : FrameCall) :
    (which.front c i = true ∨ which.Kept c effect.pushed) ∧
      ∀ t ∈ effect.spawned, which.Kept c t := by
  cases which <;> cases h <;>
    simp [Deferred.Kept, Followed, Deferred.front, Deferred.step, em]

/-- The environment leaves deadlines alone, and no context comes back. -/
theorem Ambient.frame {s s' : TcpTransport} {new : List (List TransportInstr)}
    (h : Ambient s s' new) :
    s'.deadline = s.deadline ∧ s'.ran = s.ran ∧
      (∀ context, s.contexts context ≠ none → s'.contexts context ≠ none) ∧
      ∀ t ∈ new, ∃ c, t = [.call c] := by
  cases h with
  | call context op =>
      exact ⟨rfl, rfl, fun _ h => h, by simp⟩
  | cancel context err hnone =>
      refine ⟨rfl, rfl, fun other hother => ?_, by simp⟩
      by_cases heq : other = context
      · subst heq
        exact absurd hnone hother
      · show Function.update s.contexts context (some err) other ≠ none
        rwa [Function.update_of_ne heq]

/-- Only the wait for a watcher gives up a call that waits for it. -/
theorem Exec.closes_le (h : Exec s i effect) {c : FrameCall} (hi : awaits c i = 0) :
    effect.leaves (closes c) ≤ effect.leaves (awaits c) + closes c i := by
  cases h with
  | awaitExited hexited => simp [Effect.leaves, closes]
  | _ => simp [Effect.leaves, closes, awaits]

theorem Exec.contexts_eq (h : Exec s i effect) : effect.state.contexts = s.contexts := by
  cases h <;> rfl

/-- A deadline is cleared by its call or set by a watcher. -/
theorem Exec.deadline_cases (h : Exec s i effect) :
    (effect.state.deadline = s.deadline ∧ ∀ c, i ≠ .clearDeadline c) ∨
    (∃ c, i = .clearDeadline c ∧
      effect.state.deadline = Function.update s.deadline c.direction none) ∨
    ∃ c, i = .setDeadline c ∧
      effect.state.deadline = Function.update s.deadline c.direction (some c.id) := by
  cases h with
  | @clearDeadline c => exact .inr (.inl ⟨c, rfl, rfl⟩)
  | @setDeadline c => exact .inr (.inr ⟨c, rfl, rfl⟩)
  | _ => exact .inl ⟨rfl, by simp⟩

/-- A watcher sets the deadline after the end of its context. -/
theorem Exec.canceled (h : Exec s i effect) (c : FrameCall) :
    (∃ t ∈ effect.pushed :: effect.spawned, .setDeadline c ∈ t) → s.contexts c.context ≠ none := by
  cases h with
  | watchCanceled hcanceled =>
      simp only [List.mem_singleton, exists_eq_left, TransportInstr.setDeadline.injEq]
      rintro rfl
      exact hcanceled
  | _ => simp

theorem Exec.ran_cases (h : Exec s i effect) :
    effect.state.ran = s.ran ∨
    ∃ c progress, i = .transfer c progress ∧
      effect.state.ran = s.ran ++ [(c, s.deadline c.direction)] := by
  cases h with
  | @moved c progress | @finished c progress => exact .inr ⟨c, progress, rfl, rfl⟩
  | _ => exact .inl rfl

end Steps

/-! ## The invariant -/

/-- The release of the lane by the call is still to come. -/
def HoldsLane (pool : Pool TcpTransport TransportInstr) (c : FrameCall) : Prop :=
  ∃ t ∈ pool.threads, .releaseLane c ∈ t

/-- The watcher of the call has not ended. -/
def Watched (pool : Pool TcpTransport TransportInstr) (c : FrameCall) : Prop :=
  ∃ t ∈ pool.threads, .watch c ∈ t ∨ .setDeadline c ∈ t ∨ .closeExited c ∈ t

/-- Only a watcher sets a deadline. -/
theorem deadline_of_step {pool next : Pool TcpTransport TransportInstr}
    (hstep : tcpTransport.Step pool next) {d : IoDirection} {n : Nat}
    (hnext : next.state.deadline d = some n) :
    pool.state.deadline d = some n ∨
    ∃ c : FrameCall, c.id = n ∧ c.direction = d ∧ Watched pool c := by
  cases hstep with
  | @thread s threads k i rest effect hk hexec =>
      have hmem : i :: rest ∈ threads := List.mem_of_getElem? hk
      dsimp only at hnext ⊢
      rcases Exec.deadline_cases hexec with ⟨hsame, -⟩ | ⟨c, rfl, hclear⟩ | ⟨c, rfl, hset⟩
      · rw [hsame] at hnext
        exact .inl hnext
      · rw [hclear, Function.update_apply] at hnext
        split_ifs at hnext
        exact .inl hnext
      · rw [hset, Function.update_apply] at hnext
        split_ifs at hnext with hd
        · refine .inr ⟨c, Option.some.inj hnext, hd.symm, _, hmem, ?_⟩
          exact .inr (.inl List.mem_cons_self)
        · exact .inl hnext
  | ambient hambient =>
      rw [(Ambient.frame hambient).1] at hnext
      exact .inl hnext

/-- What holds in every interleaving. -/
structure Guarded (pool : Pool TcpTransport TransportInstr) : Prop where
  /-- A lane has one token. -/
  lane : ∀ d, pool.total (holdsLane d) (freeLane d) = 1
  /-- A call has one watcher. -/
  watcher : ∀ n, pool.total (closesExited n) (exitBalance n) ≤ 1
  kept : ∀ which c, ∀ t ∈ pool.threads, Deferred.Kept which c t
  /-- A live watcher has a call that waits for it. -/
  awaited : ∀ c, load (closes c) pool.threads ≤ load (awaits c) pool.threads
  canceled : ∀ c, ∀ t ∈ pool.threads, .setDeadline c ∈ t → pool.state.contexts c.context ≠ none
  /-- A deadline that is set has a call that clears it. -/
  deadline : ∀ d n, pool.state.deadline d = some n →
    ∃ c : FrameCall, c.id = n ∧ c.direction = d ∧ pool.state.contexts c.context ≠ none ∧
      ∃ t ∈ pool.threads, .clearDeadline c ∈ t
  ran : ∀ c n, (c, some n) ∈ pool.state.ran → n = c.id ∧ pool.state.contexts c.context ≠ none

namespace Guarded

variable {pool : Pool TcpTransport TransportInstr} {c c' : FrameCall}

theorem load_holdsLane (h : Guarded pool) (d : IoDirection) :
    load (holdsLane d) pool.threads = if pool.state.lane d then 1 else 0 := by
  have hlane := h.lane d
  unfold Pool.total freeLane at hlane
  split_ifs at hlane ⊢ <;> omega

theorem load_holdsLane_le (h : Guarded pool) (d : IoDirection) :
    load (holdsLane d) pool.threads ≤ 1 := by
  rw [h.load_holdsLane d]
  split_ifs <;> omega

/-- At most one call holds the lane of a direction. -/
theorem holder_unique (h : Guarded pool) (hc : HoldsLane pool c) (hc' : HoldsLane pool c')
    (hd : c.direction = c'.direction) : c = c' := by
  obtain ⟨t, ht, hmem⟩ := hc
  obtain ⟨t', ht', hmem'⟩ := hc'
  have heq := eq_of_load_le_one (h.load_holdsLane_le c'.direction) ht hmem ht' hmem'
    (by simp [holdsLane, hd]) (by simp [holdsLane])
  exact TransportInstr.releaseLane.inj heq

/-- A call that is in the lane holds it. -/
theorem holds_of_front (h : Guarded pool) {t : List TransportInstr} (ht : t ∈ pool.threads)
    {i : TransportInstr} (hi : i ∈ t) (hfront : Deferred.front c .release i = true) :
    HoldsLane pool c := by
  obtain ⟨j, hj, rfl⟩ := (h.kept .release c t ht).exists_mem hi hfront
  exact ⟨t, ht, hj⟩

/-- A live watcher has a call that waits for it and then clears the deadline. -/
theorem clearDeadline_of_watched (h : Guarded pool) (hc : Watched pool c) :
    ∃ t ∈ pool.threads, .clearDeadline c ∈ t := by
  obtain ⟨t, ht, hmem⟩ := hc
  have hexit : .closeExited c ∈ t := by
    rcases hmem with hwatch | hset | hexit
    · obtain ⟨j, hj, rfl⟩ := (h.kept .exit c t ht).exists_mem hwatch (by simp [Deferred.front])
      exact hj
    · obtain ⟨j, hj, rfl⟩ := (h.kept .exit c t ht).exists_mem hset (by simp [Deferred.front])
      exact hj
    · exact hexit
  have hclose : closes c (.closeExited c) ≤ load (closes c) pool.threads :=
    weight_le_load ht hexit
  simp only [closes, if_true] at hclose
  have hawaited := h.awaited c
  obtain ⟨t', ht', i, hi, hweight⟩ := exists_of_load_pos (lt_of_lt_of_le hclose hawaited)
  obtain rfl : i = .awaitExited c := by
    cases i <;> simp_all [awaits]
  obtain ⟨j, hj, rfl⟩ := (h.kept .clear c t' ht').exists_mem hi (by simp [Deferred.front])
  exact ⟨t', ht', hj⟩

theorem holds_of_watched (h : Guarded pool) (hc : Watched pool c) : HoldsLane pool c := by
  obtain ⟨t, ht, hmem⟩ := h.clearDeadline_of_watched hc
  exact h.holds_of_front ht hmem (by simp [Deferred.front])

/-- A deadline is that of the holder of the lane, whose context has ended. -/
theorem holder_of_deadline (h : Guarded pool) {d : IoDirection} {n : Nat}
    (hd : pool.state.deadline d = some n) :
    ∃ c : FrameCall, c.id = n ∧ c.direction = d ∧ pool.state.contexts c.context ≠ none ∧
      HoldsLane pool c := by
  obtain ⟨c, hid, hdirection, hcanceled, t, ht, hmem⟩ := h.deadline d n hd
  exact ⟨c, hid, hdirection, hcanceled, h.holds_of_front ht hmem (by simp [Deferred.front])⟩

/-- The holder of a lane runs under its own deadline or none. -/
theorem own_deadline (h : Guarded pool) (hc : HoldsLane pool c) {n : Nat}
    (hd : pool.state.deadline c.direction = some n) :
    n = c.id ∧ pool.state.contexts c.context ≠ none := by
  obtain ⟨c', hid, hdirection, hcanceled, hholds⟩ := h.holder_of_deadline hd
  obtain rfl := h.holder_unique hholds hc hdirection
  exact ⟨hid.symm, hcanceled⟩

/-- A watcher that has closed `exited` is gone. -/
theorem closes_of_exited (h : Guarded pool) (hexited : pool.state.exited c.id = true) :
    load (closes c) pool.threads = 0 := by
  have hwatcher := h.watcher c.id
  have hle : load (closes c) pool.threads ≤ load (closesExited c.id) pool.threads := by
    apply load_le_load
    intro i
    cases i <;> simp only [closes, closesExited] <;> grind
  unfold Pool.total exitBalance at hwatcher
  rw [if_pos hexited] at hwatcher
  split at hwatcher <;> omega

/-- One step of a call or of a watcher. -/
theorem thread {s : TcpTransport} {threads : List (List TransportInstr)} {k : Nat}
    {i : TransportInstr} {rest : List TransportInstr}
    {effect : Effect TcpTransport TransportInstr} (h : Guarded ⟨s, threads⟩)
    (hk : threads[k]? = some (i :: rest)) (hexec : Exec s i effect) :
    Guarded ⟨effect.state, threads.set k (effect.pushed ++ rest) ++ effect.spawned⟩ := by
  have hstep : tcpTransport.Step ⟨s, threads⟩
      ⟨effect.state, threads.set k (effect.pushed ++ rest) ++ effect.spawned⟩ :=
    .thread k hk hexec
  have hmem : i :: rest ∈ threads := List.mem_of_getElem? hk
  have hcontexts := hexec.contexts_eq
  constructor
  case lane =>
    intro d
    exact ((conserves_lane d).step hstep).trans (h.lane d)
  case watcher =>
    intro n
    exact ((spends_exit n).step hstep).trans (h.watcher n)
  case kept =>
    intro which c
    obtain ⟨hpushed, hspawned⟩ := hexec.kept which c
    exact followed_step (h.kept which c) hk hpushed hspawned
  case awaited =>
    intro c
    have hawaited : load (closes c) threads ≤ load (awaits c) threads := h.awaited c
    have hcloses : load (closes c) (threads.set k (effect.pushed ++ rest) ++ effect.spawned) +
        closes c i = load (closes c) threads + effect.leaves (closes c) := load_step hk
    have hawaits : load (awaits c) (threads.set k (effect.pushed ++ rest) ++ effect.spawned) +
        awaits c i = load (awaits c) threads + effect.leaves (awaits c) := load_step hk
    by_cases hi : awaits c i = 0
    · have hle := hexec.closes_le hi
      show load (closes c) (_ ++ _) ≤ load (awaits c) (_ ++ _)
      omega
    · -- the call waits for a watcher that has closed `exited`
      cases hexec with
      | @awaitExited c' hexited =>
          obtain rfl : c' = c := by simpa [awaits] using hi
          have hgone : load (closes c') threads = 0 := h.closes_of_exited hexited
          have hleaves : Effect.leaves (closes c') (⟨s, [], []⟩ : Effect TcpTransport _) = 0 := rfl
          have hown : closes c' (.awaitExited c') = 0 := rfl
          show load (closes c') (_ ++ _) ≤ load (awaits c') (_ ++ _)
          omega
      | _ => exact absurd rfl hi
  case canceled =>
    intro c t ht hset
    rw [hcontexts]
    rcases mem_set_append ht with rfl | hold | hnew
    · rcases List.mem_append.mp hset with hpushed | hrest
      · exact hexec.canceled c ⟨_, List.mem_cons_self, hpushed⟩
      · exact h.canceled c _ hmem (List.mem_cons_of_mem _ hrest)
    · exact h.canceled c t hold hset
    · exact hexec.canceled c ⟨t, List.mem_cons_of_mem _ hnew, hset⟩
  case deadline =>
    intro d n hdeadline
    rw [hcontexts]
    -- the call that clears the deadline of this direction is still to do so
    have hstays : ∀ c : FrameCall, (∃ t ∈ threads, .clearDeadline c ∈ t) →
        i ≠ .clearDeadline c → ∃ t ∈ threads.set k (effect.pushed ++ rest) ++ effect.spawned,
          .clearDeadline c ∈ t := by
      rintro c ⟨t, ht, hclear⟩ hne
      exact exists_mem_step hk ht hclear (Ne.symm hne)
    rcases hexec.deadline_cases with ⟨hsame, hne⟩ | ⟨c', rfl, hclear⟩ | ⟨c', rfl, hset⟩
    · rw [hsame] at hdeadline
      obtain ⟨c, hid, hdirection, hcanceled, hcall⟩ := h.deadline d n hdeadline
      exact ⟨c, hid, hdirection, hcanceled, hstays c hcall (hne c)⟩
    · rw [hclear] at hdeadline
      by_cases hd : c'.direction = d
      · rw [hd, Function.update_self] at hdeadline
        cases hdeadline
      · rw [Function.update_of_ne (Ne.symm hd)] at hdeadline
        obtain ⟨c, hid, hdirection, hcanceled, hcall⟩ := h.deadline d n hdeadline
        refine ⟨c, hid, hdirection, hcanceled, hstays c hcall ?_⟩
        rintro heq
        obtain rfl := TransportInstr.clearDeadline.inj heq
        exact hd hdirection
    · rw [hset] at hdeadline
      by_cases hd : c'.direction = d
      · rw [hd, Function.update_self] at hdeadline
        have hwatched : Watched ⟨s, threads⟩ c' := ⟨_, hmem, .inr (.inl List.mem_cons_self)⟩
        refine ⟨c', Option.some.inj hdeadline, hd, h.canceled c' _ hmem List.mem_cons_self, ?_⟩
        exact hstays c' (h.clearDeadline_of_watched hwatched) (by simp)
      · rw [Function.update_of_ne (Ne.symm hd)] at hdeadline
        obtain ⟨c, hid, hdirection, hcanceled, hcall⟩ := h.deadline d n hdeadline
        exact ⟨c, hid, hdirection, hcanceled, hstays c hcall (by simp)⟩
  case ran =>
    intro c n hran
    rw [hcontexts]
    rcases hexec.ran_cases with hsame | ⟨c', progress, rfl, hran'⟩
    · rw [hsame] at hran
      exact h.ran c n hran
    · rw [hran', List.mem_append, List.mem_singleton] at hran
      rcases hran with hold | hnew
      · exact h.ran c n hold
      · obtain ⟨rfl, hdeadline⟩ := Prod.mk.inj hnew
        have hholds : HoldsLane ⟨s, threads⟩ c :=
          h.holds_of_front hmem List.mem_cons_self (by simp [Deferred.front])
        exact h.own_deadline hholds hdeadline.symm

/-- Another call, or the end of a context. -/
theorem ambient {s s' : TcpTransport} {threads new : List (List TransportInstr)}
    (h : Guarded ⟨s, threads⟩) (hambient : Ambient s s' new) : Guarded ⟨s', threads ++ new⟩ := by
  have hstep : tcpTransport.Step ⟨s, threads⟩ ⟨s', threads ++ new⟩ := .ambient hambient
  obtain ⟨hdeadline, hran, hmono, hnew⟩ := hambient.frame
  constructor
  case lane =>
    intro d
    exact ((conserves_lane d).step hstep).trans (h.lane d)
  case watcher =>
    intro n
    exact ((spends_exit n).step hstep).trans (h.watcher n)
  case kept =>
    intro which c t ht
    rcases List.mem_append.mp ht with hold | hcall
    · exact h.kept which c t hold
    · obtain ⟨c', rfl⟩ := hnew t hcall
      cases which <;> simp [Deferred.Kept, Followed, Deferred.front]
  case awaited =>
    intro c
    have hnone : load (closes c) new = 0 := by
      apply load_eq_zero
      intro t ht i hi
      obtain ⟨c', rfl⟩ := hnew t ht
      obtain rfl := List.mem_singleton.mp hi
      rfl
    have hawaited : load (closes c) threads ≤ load (awaits c) threads := h.awaited c
    show load (closes c) (threads ++ new) ≤ load (awaits c) (threads ++ new)
    rw [load_append, load_append]
    omega
  case canceled =>
    intro c t ht hset
    rcases List.mem_append.mp ht with hold | hcall
    · exact hmono _ (h.canceled c t hold hset)
    · obtain ⟨c', rfl⟩ := hnew t hcall
      cases List.mem_singleton.mp hset
  case deadline =>
    intro d n hd
    rw [hdeadline] at hd
    obtain ⟨c, hid, hdirection, hcanceled, t, ht, hclear⟩ := h.deadline d n hd
    exact ⟨c, hid, hdirection, hmono _ hcanceled, t, List.mem_append_left _ ht, hclear⟩
  case ran =>
    intro c n hmem
    rw [hran] at hmem
    exact ⟨(h.ran c n hmem).1, hmono _ (h.ran c n hmem).2⟩

theorem of_reaches (h : tcpTransport.Reaches transportStart pool) : Guarded pool := by
  refine Machine.invariant_of_step (I := Guarded) ?_ ?_ h
  · intro before after hbefore hstep
    cases hstep with
    | thread k hk hexec => exact hbefore.thread hk hexec
    | ambient hambient => exact hbefore.ambient hambient
  · constructor <;> simp [transportStart, Pool.total, fresh, freeLane, exitBalance]

end Guarded

end TcpTransport

open TcpTransport

/-- Cancellation never poisons the next operation.  In every interleaving of any number of calls
and their watchers, with contexts that end at any moment: a lane has at most one holder, a step
sets a deadline only for the watcher of the holder, a deadline that is set is that of the holder,
and a free lane has neither a watcher nor a deadline.  So a call whose context has not ended runs
without a deadline, and no step of a transfer has ever run under the deadline of another call. -/
theorem cancellation_never_poisons {pool : Pool TcpTransport TransportInstr}
    (h : tcpTransport.Reaches transportStart pool) (d : IoDirection) :
    (load (TransportInstr.holdsLane d) pool.threads = if pool.state.lane d then 1 else 0) ∧
    (∀ c c', c.direction = d → c'.direction = d → HoldsLane pool c → HoldsLane pool c' → c = c') ∧
    (∀ next n, tcpTransport.Step pool next → next.state.deadline d = some n →
      pool.state.deadline d = some n ∨
      ∃ c : FrameCall, c.id = n ∧ c.direction = d ∧ Watched pool c ∧ HoldsLane pool c) ∧
    (∀ n, pool.state.deadline d = some n →
      ∃ c : FrameCall, c.id = n ∧ c.direction = d ∧ pool.state.contexts c.context ≠ none ∧
        HoldsLane pool c) ∧
    (pool.state.lane d = false →
      pool.state.deadline d = none ∧ ∀ c, c.direction = d → ¬ Watched pool c) ∧
    (∀ c, c.direction = d → HoldsLane pool c → pool.state.contexts c.context = none →
      pool.state.deadline d = none) ∧
    ∀ c n, (c, some n) ∈ pool.state.ran → n = c.id ∧ pool.state.contexts c.context ≠ none := by
  have hguarded := Guarded.of_reaches h
  refine ⟨hguarded.load_holdsLane d, ?_, ?_, ?_, ?_, ?_, hguarded.ran⟩
  · intro c c' hc hc' hholds hholds'
    exact hguarded.holder_unique hholds hholds' (hc.trans hc'.symm)
  · intro next n hstep hnext
    rcases deadline_of_step hstep hnext with hold | ⟨c, hid, hd, hwatched⟩
    · exact .inl hold
    · exact .inr ⟨c, hid, hd, hwatched, hguarded.holds_of_watched hwatched⟩
  · intro n hn
    exact hguarded.holder_of_deadline hn
  · intro hfree
    have hnobody : ∀ c, c.direction = d → ¬ HoldsLane pool c := by
      rintro c hc ⟨t, ht, hmem⟩
      have hload := hguarded.load_holdsLane d
      have hle : TransportInstr.holdsLane d (.releaseLane c) ≤ _ := weight_le_load ht hmem
      simp [TransportInstr.holdsLane, hc, hload, hfree] at hle
    constructor
    · by_contra hset
      obtain ⟨n, hn⟩ := Option.ne_none_iff_exists'.mp hset
      obtain ⟨c, -, hc, -, hholds⟩ := hguarded.holder_of_deadline hn
      exact hnobody c hc hholds
    · intro c hc hwatched
      exact hnobody c hc (hguarded.holds_of_watched hwatched)
  · intro c hc hholds hlive
    by_contra hset
    obtain ⟨n, hn⟩ := Option.ne_none_iff_exists'.mp hset
    rw [← hc] at hn
    exact (hguarded.own_deadline hholds hn).2 hlive

/-- The first call is canceled in the middle of its header; its watcher sets the deadline after
the transfer has failed.  The second call, with a context of its own, runs without one. -/
theorem cancellation_never_poisons_next :
    let second : FrameCall := ⟨1, 1, .read⟩
    ∃ pool, tcpTransport.Reaches transportStart pool ∧ HoldsLane pool second ∧
      (⟨0, 0, .read⟩, .error Sentinel.contextCanceled.bare) ∈ pool.state.results ∧
      pool.state.deadline .read = none := by
  have hleads : tcpTransport.Leads
      (fun pool => HoldsLane pool ⟨1, 1, .read⟩ ∧ pool.state.contexts 1 = none ∧
        (⟨0, 0, .read⟩, .error Sentinel.contextCanceled.bare) ∈ pool.state.results)
      transportStart := by
    refine .step (.ambient (.call 0 .read)) (.first (.started rfl) (.first (.waiting rfl) ?_))
    refine .first (.acquired rfl) (.first (.watched rfl) ?_)
    have hthree : Progress.Moves (.header []) (.header ([] ++ [1, 2, 3])) :=
      .readHeader (by decide) (by decide)
    refine .first (.moved hthree) ?_
    refine .step (.ambient (.cancel 0 Sentinel.contextCanceled.bare rfl)) ?_
    refine .second (.watchCanceled (by simp)) ?_
    refine .first (.finished (.headerFailed false (Error.foreign "i/o timeout") (by decide))) ?_
    refine .first .closeDone (.second .setDeadline (.second .closeExited ?_))
    refine .first (.awaitExited rfl) (.first .clearDeadline (.first (.releaseLane rfl) ?_))
    refine .step (.ambient (.call 1 .read)) ?_
    refine .after [_, _] (.started rfl) (.after [_, _] (.waiting rfl) ?_)
    refine .after [_, _] (.acquired rfl) (.after [_, _] (.watched rfl) ?_)
    refine .here ⟨⟨_, List.mem_of_getElem? (i := 2) rfl, ?_⟩, rfl, List.mem_cons_self⟩
    exact List.mem_of_getElem? (i := 4) rfl
  obtain ⟨pool, hreach, hholds, hlive, hresult⟩ := hleads
  have hfacts := cancellation_never_poisons hreach .read
  exact ⟨pool, hreach, hholds, hresult, hfacts.2.2.2.2.2.1 _ rfl hholds hlive⟩

end DgProto
