import DgProto.Handshake.Noise
import DgProto.Wire.Handshake

/-!
# The handshake state machine

`Handshake` drives one side of the three flights: the initiator writes, reads and
writes, the responder reads, writes and reads.  `Called` says everything that one call
of `WriteFlight` or `ReadFlight` can do, and `Stands` where a handshake can stand after
the flights that succeeded so far; the safety of the machine follows for every sequence
of calls.
-/

namespace DgProto

open Library Wire Crypto

/-- `handshakeRole`. -/
inductive HandshakeRole where
  | initiator
  | responder
  deriving DecidableEq, Repr

/-- `handshakeStep`. -/
inductive HandshakeStep where
  | initiatorWrite1
  | initiatorRead2
  | initiatorWrite3
  | responderRead1
  | responderWrite2
  | responderRead3
  | complete
  | failed
  deriving DecidableEq, Repr

/-- `HandshakeResult`. -/
structure HandshakeResult where
  sessionID : Octets 16
  sendKey : Key
  receiveKey : Key
  peerStatic : Octets 32
  deriving DecidableEq

/-- `Handshake`. -/
structure Handshake (N : HandshakePrimitives) where
  state : Option N.State
  role : HandshakeRole
  step : HandshakeStep
  expectedPeer : List UInt8
  result : Option HandshakeResult

/-- The prologue of every handshake. -/
def handshakePrologue : List UInt8 := label "DGPv1"

/-- `newHandshake`. -/
def newHandshake (N : HandshakePrimitives) (role : HandshakeRole) (static : StaticKey)
    (expectedPeer : List UInt8) (random : Reader) (prologue : List UInt8) :
    Except Error (Handshake N) :=
  match static.validate N with
  | .error err => .error err
  | .ok () =>
      if expectedPeer.length ≠ 0 ∧ expectedPeer.length ≠ noiseKeySize then
        .error Sentinel.handshake.bare
      else
        match N.newHandshakeState random (role = .initiator) prologue static with
        | none => .error Sentinel.handshake.bare
        | some state =>
            .ok
              { state := some state
                role := role
                step := if role = .initiator then .initiatorWrite1 else .responderRead1
                expectedPeer := expectedPeer
                result := none }

/-- `NewInitiatorHandshake`. -/
def newInitiatorHandshake (N : HandshakePrimitives) (static : StaticKey)
    (expectedResponderStatic : List UInt8) (random : Reader) : Except Error (Handshake N) :=
  newHandshake N .initiator static expectedResponderStatic random handshakePrologue

/-- `NewResponderHandshake`. -/
def newResponderHandshake (N : HandshakePrimitives) (static : StaticKey)
    (expectedInitiatorStatic : List UInt8) (random : Reader) : Except Error (Handshake N) :=
  newHandshake N .responder static expectedInitiatorStatic random handshakePrologue

/-- `transcriptSessionID`. -/
def transcriptSessionID (N : HandshakePrimitives) (binding : List UInt8) : Octets 16 :=
  Octets.copy 16 ((N.sha256 (label "DGPv1 SessionID" ++ binding)).val.take 16)

namespace Handshake

variable {N : HandshakePrimitives}

/-- The handshake that `fail` leaves. -/
def toFailed (h : Handshake N) : Handshake N :=
  { h with step := .failed, state := none, result := none }

/-- `fail`. -/
def fail {α : Type} (h : Handshake N) : Handshake N × Except Error α :=
  (h.toFailed, .error Sentinel.handshake.bare)

/-- `complete`, with the Noise state after the last message. -/
def complete (h : Handshake N) (state : N.State) (first second : Key) :
    Except Error (Handshake N) :=
  let peer := N.peerStatic state
  if peer.length ≠ noiseKeySize ∨ (h.expectedPeer.length ≠ 0 ∧ peer ≠ h.expectedPeer) then
    .error Sentinel.handshake.bare
  else
    let binding := N.channelBinding state
    if binding.length = 0 then
      .error Sentinel.handshake.bare
    else
      let sessionID := transcriptSessionID N binding
      let peerStatic := Octets.copy 32 peer
      let result : HandshakeResult :=
        match h.role with
        | .initiator => ⟨sessionID, first, second, peerStatic⟩
        | .responder => ⟨sessionID, second, first, peerStatic⟩
      .ok { h with result := some result, step := .complete, state := none }

/-- `WriteFlight`. -/
def writeFlight (h : Handshake N) : Handshake N × Except Error (List UInt8) :=
  match h.state with
  | none => (h, .error Sentinel.handshake.bare)
  | some state =>
      match h.step with
      | .initiatorWrite1 =>
          match N.writeMessage state with
          | none => h.fail
          | some out =>
              if out.message.length ≠ 32 then h.fail
              else
                match HandshakeInit.marshalBinary
                    ⟨noisePatternXX, Octets.copy 32 out.message, []⟩ with
                | .error _ => h.fail
                | .ok wire =>
                    ({ h with state := some out.state, step := .initiatorRead2 }, .ok wire)
      | .responderWrite2 =>
          match N.writeMessage state with
          | none => h.fail
          | some out =>
              if out.message.length ≠ 96 then h.fail
              else
                match HandshakeResponse.marshalBinary
                    ⟨Octets.copy 32 (out.message.take 32), out.message.drop 32⟩ with
                | .error _ => h.fail
                | .ok wire =>
                    ({ h with state := some out.state, step := .responderRead3 }, .ok wire)
      | .initiatorWrite3 =>
          match N.writeMessage state with
          | none => h.fail
          | some out =>
              if out.message.length ≠ 64 then h.fail
              else
                match out.first, out.second with
                | some send, some receive =>
                    match HandshakeFinish.marshalBinary ⟨out.message⟩ with
                    | .error _ => h.fail
                    | .ok wire =>
                        -- the pin is checked before the flight is released
                        match h.complete out.state send receive with
                        | .error _ => h.fail
                        | .ok completed => (completed, .ok wire)
                | _, _ => h.fail
      | _ => (h, .error Sentinel.handshake.bare)

/-- The first switch of `ReadFlight`: the Noise message in the wrapper of a step. -/
def unwrapFlight (step : HandshakeStep) (wire : List UInt8) : Option (List UInt8) :=
  match step with
  | .responderRead1 =>
      match HandshakeInit.unmarshalBinary wire with
      | .error _ => none
      | .ok flight =>
          if flight.pattern ≠ noisePatternXX then none
          else some flight.clientEphemeral.val
  | .initiatorRead2 =>
      match HandshakeResponse.unmarshalBinary wire with
      | .error _ => none
      | .ok flight =>
          if flight.noisePayload.length ≠ 64 then none
          else some (flight.serverEphemeral.val ++ flight.noisePayload)
  | .responderRead3 =>
      match HandshakeFinish.unmarshalBinary wire with
      | .error _ => none
      | .ok flight =>
          if flight.noisePayload.length ≠ 64 then none
          else some flight.noisePayload
  | _ => none

/-- The rest of `ReadFlight` after its first switch found a step that reads. -/
def readMessage (h : Handshake N) (state : N.State) (wire : List UInt8) :
    Handshake N × Except Error Unit :=
  match unwrapFlight h.step wire with
  | none => h.fail
  | some message =>
      match N.readMessage state message with
      | none => h.fail
      | some out =>
          match h.step with
          | .responderRead1 =>
              ({ h with state := some out.state, step := .responderWrite2 }, .ok ())
          | .initiatorRead2 =>
              ({ h with state := some out.state, step := .initiatorWrite3 }, .ok ())
          | .responderRead3 =>
              match out.first, out.second with
              | some send, some receive =>
                  match h.complete out.state send receive with
                  | .error _ => h.fail
                  | .ok completed => (completed, .ok ())
              | _, _ => h.fail
          | _ => ({ h with state := some out.state }, .ok ())

/-- `ReadFlight`. -/
def readFlight (h : Handshake N) (wire : List UInt8) : Handshake N × Except Error Unit :=
  match h.state with
  | none => (h, .error Sentinel.handshake.bare)
  | some state =>
      match h.step with
      | .responderRead1 => h.readMessage state wire
      | .initiatorRead2 => h.readMessage state wire
      | .responderRead3 => h.readMessage state wire
      | _ => (h, .error Sentinel.handshake.bare)

/-- `Complete`. -/
def isComplete (h : Handshake N) : Bool :=
  h.step = .complete

/-- `Result`. -/
def finalResult (h : Handshake N) : Except Error HandshakeResult :=
  match h.isComplete, h.result with
  | true, some result => .ok result
  | _, _ => .error Sentinel.handshake.bare

end Handshake

/-! ## Calls and turns -/

/-- The kinds of flight. -/
inductive Direction where
  | write
  | read
  deriving DecidableEq, Repr

/-- A call on a handshake. -/
inductive FlightCall where
  | writeFlight
  | readFlight (wire : List UInt8)
  deriving DecidableEq

def FlightCall.direction : FlightCall → Direction
  | .writeFlight => .write
  | .readFlight _ => .read

/-- The flights of a role, in order. -/
def HandshakeRole.flights : HandshakeRole → List Direction
  | .initiator => [.write, .read, .write]
  | .responder => [.read, .write, .read]

/-- The flight that a step waits for. -/
def HandshakeStep.turn : HandshakeStep → Option Direction
  | .initiatorWrite1 | .responderWrite2 | .initiatorWrite3 => some .write
  | .responderRead1 | .initiatorRead2 | .responderRead3 => some .read
  | .complete | .failed => none

/-- The step after a flight that is not the last one. -/
def HandshakeStep.next : HandshakeStep → Option HandshakeStep
  | .initiatorWrite1 => some .initiatorRead2
  | .initiatorRead2 => some .initiatorWrite3
  | .responderRead1 => some .responderWrite2
  | .responderWrite2 => some .responderRead3
  | .initiatorWrite3 | .responderRead3 | .complete | .failed => none

/-- The Noise call inside a call at a step. -/
def FlightCall.noise (N : HandshakePrimitives) (step : HandshakeStep) (state : N.State) :
    FlightCall → Option (NoiseStep N.State)
  | .writeFlight => N.writeMessage state
  | .readFlight wire =>
      match Handshake.unwrapFlight step wire with
      | none => none
      | some message => N.readMessage state message

namespace Handshake

variable {N : HandshakePrimitives} {h h' : Handshake N} {call : FlightCall}
  {outcome : Except Error (List UInt8)}

/-- The flight that the handshake waits for; there is none once it has ended. -/
def turn (h : Handshake N) : Option Direction :=
  match h.state with
  | none => none
  | some _ => h.step.turn

/-- One call.  A read has no octets to return. -/
def perform (h : Handshake N) : FlightCall → Handshake N × Except Error (List UInt8)
  | .writeFlight => h.writeFlight
  | .readFlight wire =>
      match h.readFlight wire with
      | (after, .ok ()) => (after, .ok [])
      | (after, .error err) => (after, .error err)

/-- A sequence of calls, each with what it returned. -/
def run (h : Handshake N) :
    List FlightCall → Handshake N × List (FlightCall × Except Error (List UInt8))
  | [] => (h, [])
  | call :: calls =>
      let after := (h.perform call).1.run calls
      (after.1, (call, (h.perform call).2) :: after.2)

/-- The flights that succeeded. -/
def succeeded (trace : List (FlightCall × Except Error (List UInt8))) : List Direction :=
  trace.filterMap fun entry =>
    match entry.2 with
    | .ok _ => some entry.1.direction
    | .error _ => none

/-- What `complete` demands of the peer's static key. -/
def Admits (h : Handshake N) (peer : List UInt8) : Prop :=
  peer.length = noiseKeySize ∧ (h.expectedPeer ≠ [] → peer = h.expectedPeer)

/-- Everything that one call can do. -/
inductive Called (h : Handshake N) (call : FlightCall) :
    Handshake N → Except Error (List UInt8) → Prop where
  /-- Out of turn. -/
  | refused (hturn : h.turn ≠ some call.direction) :
      Called h call h (.error Sentinel.handshake.bare)
  /-- In turn, but a wrapper, the Noise library or the pin refuses. -/
  | failed (hturn : h.turn = some call.direction) :
      Called h call h.toFailed (.error Sentinel.handshake.bare)
  /-- A flight before the last. -/
  | advanced (hturn : h.turn = some call.direction) (state : N.State) (out : NoiseStep N.State)
      (hstate : h.state = some state) (hnoise : call.noise N h.step state = some out)
      (step : HandshakeStep) (hnext : h.step.next = some step) (flight : List UInt8) :
      Called h call { h with state := some out.state, step := step } (.ok flight)
  /-- The last flight. -/
  | completed (hturn : h.turn = some call.direction) (state : N.State) (out : NoiseStep N.State)
      (hstate : h.state = some state) (hnoise : call.noise N h.step state = some out)
      (hlast : h.step.next = none) (hpeer : h.Admits (N.peerStatic out.state))
      (result : HandshakeResult) (hresult : result.peerStatic.val = N.peerStatic out.state)
      (flight : List UInt8) :
      Called h call { h with result := some result, step := .complete, state := none } (.ok flight)

/-- `complete` succeeds only with an admitted peer, whose key it records. -/
theorem complete_eq_ok {state : N.State} {first second : Key}
    (hok : h.complete state first second = .ok h') :
    h.Admits (N.peerStatic state) ∧ ∃ result : HandshakeResult,
      result.peerStatic.val = N.peerStatic state ∧
      h' = { h with result := some result, step := .complete, state := none } := by
  simp only [complete] at hok
  split_ifs at hok with hpeer hbinding
  have hadmits : h.Admits (N.peerStatic state) := by
    constructor
    · exact not_not.mp fun hlength => hpeer (Or.inl hlength)
    · intro hset
      by_contra hdiffers
      exact hpeer (Or.inr ⟨by simpa using hset, hdiffers⟩)
  refine ⟨hadmits, _, ?_, (Except.ok.inj hok).symm⟩
  have hcopy : (Octets.copy 32 (N.peerStatic state)).val = N.peerStatic state :=
    Octets.copy_val hadmits.1
  cases h.role with
  | initiator | responder => exact hcopy

private theorem turn_of_state {state : N.State} (hstate : h.state = some state) :
    h.turn = h.step.turn := by
  simp only [turn, hstate]

theorem writeFlight_cases (h : Handshake N) :
    Called h .writeFlight h.writeFlight.1 h.writeFlight.2 := by
  cases hstate : h.state with
  | none =>
      have hturn : h.turn ≠ some (FlightCall.direction .writeFlight) := by simp [turn, hstate]
      simpa [writeFlight, hstate] using Called.refused hturn
  | some state =>
      have hturn := turn_of_state hstate
      -- the noise call is the same for all three flights
      have hnoise : FlightCall.noise N h.step state .writeFlight = N.writeMessage state := rfl
      unfold writeFlight
      simp only [hstate]
      cases hstep : h.step with
      | initiatorWrite1 | responderWrite2 =>
          rw [hstep] at hturn hnoise
          dsimp only
          split
          · exact .failed hturn
          · rename_i out hwrite
            split_ifs
            · exact .failed hturn
            · split
              · exact .failed hturn
              · exact .advanced hturn state out hstate (by rw [hstep, hnoise, hwrite]) _
                  (by rw [hstep]; rfl) _
      | initiatorWrite3 =>
          rw [hstep] at hturn hnoise
          dsimp only
          split
          · exact .failed hturn
          · rename_i out hwrite
            split_ifs
            · exact .failed hturn
            · split
              · split
                · exact .failed hturn
                · split
                  · exact .failed hturn
                  · rename_i completed hcomplete
                    obtain ⟨hadmits, result, hresult, rfl⟩ := complete_eq_ok hcomplete
                    exact .completed hturn state out hstate (by rw [hstep, hnoise, hwrite])
                      (by rw [hstep]; rfl) hadmits result hresult _
              · exact .failed hturn
      | _ =>
          apply Called.refused
          rw [hturn, hstep]
          exact nofun

/-- At a step that reads, `ReadFlight` is the rest after its first switch. -/
theorem readFlight_of_turn {state : N.State} (hstate : h.state = some state)
    (hturn : h.step.turn = some .read) (wire : List UInt8) :
    h.readFlight wire = h.readMessage state wire := by
  unfold readFlight
  simp only [hstate]
  cases hstep : h.step with
  | responderRead1 | initiatorRead2 | responderRead3 => rfl
  | _ =>
      rw [hstep] at hturn
      cases hturn

theorem readFlight_of_not_turn (hturn : h.step.turn ≠ some .read) (wire : List UInt8) :
    h.readFlight wire = (h, .error Sentinel.handshake.bare) := by
  unfold readFlight
  cases hstate : h.state with
  | none => rfl
  | some state =>
      cases hstep : h.step with
      | responderRead1 | initiatorRead2 | responderRead3 =>
          rw [hstep] at hturn
          exact absurd rfl hturn
      | _ => rfl

theorem readFlight_cases (h : Handshake N) (wire : List UInt8) :
    Called h (.readFlight wire) (h.perform (.readFlight wire)).1
      (h.perform (.readFlight wire)).2 := by
  cases hstate : h.state with
  | none =>
      have hturn : h.turn ≠ some (FlightCall.direction (.readFlight wire)) := by
        simp [turn, hstate]
      simpa [perform, readFlight, hstate] using Called.refused hturn
  | some state =>
      have hsame := turn_of_state hstate
      unfold perform
      dsimp only
      by_cases hturn : h.step.turn = some .read
      swap
      · rw [readFlight_of_not_turn hturn]
        exact .refused (by rw [hsame]; exact hturn)
      have hin : h.turn = some (FlightCall.direction (.readFlight wire)) := by
        rw [hsame, hturn]
        rfl
      rw [readFlight_of_turn hstate hturn]
      unfold readMessage
      cases hunwrap : unwrapFlight h.step wire with
      | none => exact .failed hin
      | some message =>
          dsimp only
          cases hread : N.readMessage state message with
          | none => exact .failed hin
          | some out =>
              have hnoise : FlightCall.noise N h.step state (.readFlight wire) = some out := by
                simp only [FlightCall.noise, hunwrap, hread]
              cases hstep : h.step with
              | responderRead1 | initiatorRead2 =>
                  exact .advanced hin state out hstate hnoise _ (by rw [hstep]; rfl) _
              | responderRead3 =>
                  dsimp only
                  cases hfirst : out.first with
                  | none => exact .failed hin
                  | some first =>
                      cases hsecond : out.second with
                      | none => exact .failed hin
                      | some second =>
                          dsimp only
                          cases hcomplete : h.complete out.state first second with
                          | error err => exact .failed hin
                          | ok completed =>
                              obtain ⟨hadmits, result, hresult, rfl⟩ := complete_eq_ok hcomplete
                              exact .completed hin state out hstate hnoise
                                (by rw [hstep]; rfl) hadmits result hresult _
              | _ =>
                  rw [hstep] at hturn
                  cases hturn

theorem perform_cases (h : Handshake N) (call : FlightCall) :
    Called h call (h.perform call).1 (h.perform call).2 := by
  cases call with
  | writeFlight => exact writeFlight_cases h
  | readFlight wire => exact readFlight_cases h wire

/-- A call out of turn is refused and changes nothing. -/
theorem perform_of_turn_ne (hout : h.turn ≠ some call.direction) :
    h.perform call = (h, .error Sentinel.handshake.bare) := by
  have hcase := perform_cases h call
  generalize h.perform call = after at hcase ⊢
  obtain ⟨h', outcome⟩ := after
  cases hcase with
  | refused _ => rfl
  | failed hin | advanced hin | completed hin => exact absurd hin hout

/-- An in-turn failure ends the handshake. -/
theorem perform_error {err : Error} (hin : h.turn = some call.direction)
    (herr : (h.perform call).2 = .error err) :
    err = Sentinel.handshake.bare ∧ (h.perform call).1 = h.toFailed := by
  have hcase := perform_cases h call
  generalize h.perform call = after at hcase herr ⊢
  obtain ⟨h', outcome⟩ := after
  cases hcase with
  | refused hout => exact absurd hin hout
  | failed _ =>
      cases herr
      exact ⟨rfl, rfl⟩
  | advanced | completed => cases herr

end Handshake

/-! ## Where a handshake stands -/

/-- The step of a role after the first flights. -/
def HandshakeRole.stepAfter : HandshakeRole → List Direction → Option HandshakeStep
  | .initiator, [] => some .initiatorWrite1
  | .initiator, [.write] => some .initiatorRead2
  | .initiator, [.write, .read] => some .initiatorWrite3
  | .responder, [] => some .responderRead1
  | .responder, [.read] => some .responderWrite2
  | .responder, [.read, .write] => some .responderRead3
  | _, _ => none

/-- A step waits for the flight that its role has at this place, and is followed by the
step after that flight; after the last flight there is none. -/
theorem stepAfter_spec {role : HandshakeRole} {flights : List Direction} {step : HandshakeStep}
    (h : role.stepAfter flights = some step) :
    role.flights[flights.length]? = step.turn ∧ flights <+: role.flights ∧
      flights.length < 3 ∧
      ∀ direction, step.turn = some direction →
        role.stepAfter (flights ++ [direction]) = step.next ∧
          (step.next = none ↔ flights ++ [direction] = role.flights) := by
  -- six places in the table, each with one flight to come
  unfold HandshakeRole.stepAfter at h
  split at h <;> cases h
  all_goals
    refine ⟨rfl, by decide, by decide, ?_⟩
    intro direction hturn
    obtain rfl := Option.some.inj hturn
    exact ⟨rfl, by decide⟩

namespace Handshake

variable {N : HandshakePrimitives} {role : HandshakeRole} {expectedPeer : List UInt8}
  {h h' : Handshake N} {done : List Direction} {call : FlightCall}
  {outcome : Except Error (List UInt8)}

/-- Where a handshake of a role can stand after the flights `done` have succeeded. -/
inductive Stands (role : HandshakeRole) (expectedPeer : List UInt8) (h : Handshake N)
    (done : List Direction) : Prop where
  | running (state : N.State) (hstate : h.state = some state)
      (hstep : role.stepAfter done = some h.step) (hpeer : h.expectedPeer = expectedPeer)
  | complete (hstate : h.state = none) (hstep : h.step = .complete) (hdone : done = role.flights)
      (result : HandshakeResult) (hresult : h.result = some result)
      (hpinned : expectedPeer ≠ [] → result.peerStatic.val = expectedPeer)
  | failed (hstate : h.state = none) (hstep : h.step = .failed) (hdone : done <+: role.flights)
      (hshort : done.length < 3)

theorem stands_of_new {static : StaticKey} {random : Reader} {prologue : List UInt8}
    (hnew : newHandshake N role static expectedPeer random prologue = .ok h) :
    Stands role expectedPeer h [] := by
  unfold newHandshake at hnew
  split at hnew
  · cases hnew
  · split at hnew
    · cases hnew
    · split at hnew
      · cases hnew
      · rename_i state _
        cases hnew
        refine .running state rfl ?_ rfl
        cases role with
        | initiator | responder => rfl

theorem turn_of_ended (hstate : h.state = none) : h.turn = none := by
  simp only [turn, hstate]

/-- A handshake that has ended refuses every call. -/
theorem perform_of_ended (hstate : h.state = none) (call : FlightCall) :
    h.perform call = (h, .error Sentinel.handshake.bare) := by
  apply perform_of_turn_ne
  rw [turn_of_ended hstate]
  exact nofun

/-- A call adds its flight to those that succeeded, or adds nothing. -/
theorem Stands.perform (hstands : Stands role expectedPeer h done) (call : FlightCall) :
    Stands role expectedPeer (h.perform call).1
      (done ++ succeeded [(call, (h.perform call).2)]) := by
  cases hstands with
  | running state hstate hstep hpeer =>
      obtain ⟨-, hfront, hshort, hnext⟩ := stepAfter_spec hstep
      have hturn : h.turn = h.step.turn := turn_of_state hstate
      have hcase := perform_cases h call
      generalize h.perform call = after at hcase ⊢
      obtain ⟨h', outcome⟩ := after
      cases hcase with
      | refused _ => simpa [succeeded] using Stands.running state hstate hstep hpeer
      | failed _ => simpa [succeeded] using Stands.failed rfl rfl hfront hshort
      | advanced hin _ out _ _ step hstep' flight =>
          obtain ⟨hafter, -⟩ := hnext call.direction (by rw [← hturn, hin])
          refine .running out.state rfl ?_ hpeer
          show role.stepAfter (done ++ [call.direction]) = some step
          rw [hafter, hstep']
      | completed hin _ out _ _ hlast hadmits result hresult flight =>
          obtain ⟨-, hlast'⟩ := hnext call.direction (by rw [← hturn, hin])
          refine .complete rfl rfl (hlast'.mp hlast) result rfl ?_
          -- the recorded key is the one that was admitted
          intro hset
          rw [hresult]
          rw [← hpeer] at hset ⊢
          exact hadmits.2 hset
  | complete hstate hstep hdone result hresult hpinned =>
      rw [perform_of_ended hstate]
      simpa [succeeded] using Stands.complete hstate hstep hdone result hresult hpinned
  | failed hstate hstep hdone hshort =>
      rw [perform_of_ended hstate]
      simpa [succeeded] using Stands.failed hstate hstep hdone hshort

theorem succeeded_cons (entry : FlightCall × Except Error (List UInt8))
    (trace : List (FlightCall × Except Error (List UInt8))) :
    succeeded (entry :: trace) = succeeded [entry] ++ succeeded trace := by
  unfold succeeded
  rw [← List.filterMap_append, List.singleton_append]

/-- A sequence of calls adds the flights that succeeded in it. -/
theorem Stands.run (hstands : Stands role expectedPeer h done) (calls : List FlightCall) :
    Stands role expectedPeer (h.run calls).1 (done ++ succeeded (h.run calls).2) := by
  induction calls generalizing h done with
  | nil => simpa [Handshake.run, succeeded] using hstands
  | cons call calls ih =>
      have hafter := ih (hstands.perform call)
      rw [List.append_assoc, ← succeeded_cons] at hafter
      exact hafter

/-- A handshake that has ended stays as it is, and every call on it fails. -/
theorem run_of_ended (hstate : h.state = none) (calls : List FlightCall) :
    (h.run calls).1 = h ∧
      ∀ entry ∈ (h.run calls).2, entry.2 = .error Sentinel.handshake.bare := by
  induction calls with
  | nil => exact ⟨rfl, by simp [Handshake.run]⟩
  | cons call calls ih =>
      simp only [Handshake.run, perform_of_ended hstate]
      refine ⟨ih.1, ?_⟩
      intro entry hentry
      rcases List.mem_cons.mp hentry with rfl | hlater
      · rfl
      · exact ih.2 entry hlater

/-! ## Safety over every sequence of calls -/

theorem finalResult_of_step_ne (hstep : h.step ≠ .complete) :
    h.finalResult = .error Sentinel.handshake.bare := by
  simp [finalResult, isComplete, hstep]

theorem Stands.prefix_flights (hstands : Stands role expectedPeer h done) :
    done <+: role.flights := by
  cases hstands with
  | running _ _ hstep _ => exact (stepAfter_spec hstep).2.1
  | complete _ _ hdone => exact hdone ▸ List.prefix_rfl
  | failed _ _ hdone _ => exact hdone

/-- `Complete` reports exactly that all flights have succeeded. -/
theorem Stands.isComplete_iff (hstands : Stands role expectedPeer h done) :
    h.isComplete = true ↔ done = role.flights := by
  have hlength : role.flights.length = 3 := by cases role <;> rfl
  unfold isComplete
  rw [decide_eq_true_iff]
  cases hstands with
  | running _ _ hstep _ =>
      have hspec := stepAfter_spec hstep
      constructor
      · intro hcomplete
        rw [hcomplete] at hspec
        have hbound := List.getElem?_eq_none_iff.mp hspec.1
        omega
      · rintro rfl
        omega
  | complete _ hstep hdone => exact iff_of_true hstep hdone
  | failed _ hstep _ hshort =>
      apply iff_of_false
      · rw [hstep]
        exact nofun
      · rintro rfl
        omega

/-- `Result` succeeds exactly when `Complete` holds, with the expected peer. -/
theorem Stands.finalResult_iff (hstands : Stands role expectedPeer h done) :
    ((∃ result, h.finalResult = .ok result) ↔ h.isComplete = true) ∧
      ∀ result, h.finalResult = .ok result → expectedPeer ≠ [] →
        result.peerStatic.val = expectedPeer := by
  by_cases hcomplete : h.step = .complete
  · cases hstands with
    | running _ _ hstep _ =>
        have hspec := stepAfter_spec hstep
        rw [hcomplete] at hspec
        have hbound := List.getElem?_eq_none_iff.mp hspec.1
        have hlength : role.flights.length = 3 := by cases role <;> rfl
        omega
    | complete _ hstep _ result hresult hpinned =>
        have hfinal : h.finalResult = .ok result := by
          simp [finalResult, isComplete, hstep, hresult]
        refine ⟨iff_of_true ⟨result, hfinal⟩ (by simp [isComplete, hstep]), ?_⟩
        intro result' hresult' hset
        rw [hfinal] at hresult'
        rw [← Except.ok.inj hresult']
        exact hpinned hset
    | failed _ hstep => rw [hcomplete] at hstep; cases hstep
  · have hfinal := finalResult_of_step_ne hcomplete
    constructor
    · apply iff_of_false
      · rintro ⟨result, hresult⟩
        rw [hfinal] at hresult
        cases hresult
      · simpa [isComplete] using hcomplete
    · intro result hresult
      rw [hfinal] at hresult
      cases hresult

/-- A handshake waits for the next flight of its role, or it has ended. -/
theorem Stands.turn_or_ended (hstands : Stands role expectedPeer h done) :
    h.turn = role.flights[done.length]? ∨ h.state = none := by
  cases hstands with
  | running _ hstate hstep _ =>
      left
      rw [turn_of_state hstate, (stepAfter_spec hstep).1]
  | complete hstate | failed hstate => exact Or.inr hstate

/-- A failure of the next flight leaves a failed handshake. -/
theorem Stands.perform_failed (hstands : Stands role expectedPeer h done) {err : Error}
    (hin : role.flights[done.length]? = some call.direction)
    (herr : (h.perform call).2 = .error err) :
    err = Sentinel.handshake.bare ∧ (h.perform call).1.state = none ∧
      (h.perform call).1.step = .failed := by
  cases hstands with
  | running _ hstate hstep _ =>
      have hturn : h.turn = some call.direction := by
        rw [turn_of_state hstate, ← (stepAfter_spec hstep).1, hin]
      obtain ⟨rfl, hfailed⟩ := perform_error hturn herr
      rw [hfailed]
      exact ⟨rfl, rfl, rfl⟩
  | complete _ _ hdone =>
      -- no flight is left
      rw [hdone, List.getElem?_eq_none le_rfl] at hin
      cases hin
  | failed hstate hstep _ _ =>
      rw [perform_of_ended hstate] at herr ⊢
      exact ⟨(Except.error.inj herr).symm, hstate, hstep⟩

/-- The third flight succeeds only with an admitted peer. -/
theorem Stands.perform_last (hstands : Stands role expectedPeer h done) {flight : List UInt8}
    (hset : expectedPeer ≠ []) (hlast : done.length = 2)
    (hok : (h.perform call).2 = .ok flight) :
    ∃ state out, h.state = some state ∧ call.noise N h.step state = some out ∧
      N.peerStatic out.state = expectedPeer := by
  have hended : h.state = none → False := by
    intro hstate
    rw [perform_of_ended hstate] at hok
    cases hok
  cases hstands with
  | running state hstate hstep hpeer =>
      obtain ⟨-, -, -, hnext⟩ := stepAfter_spec hstep
      have hturn : h.turn = h.step.turn := turn_of_state hstate
      have hcase := perform_cases h call
      generalize h.perform call = after at hcase hok
      obtain ⟨h', outcome⟩ := after
      cases hcase with
      | refused _ | failed _ => cases hok
      | advanced hin _ out _ _ step hstep' flight =>
          -- a fourth flight would follow
          obtain ⟨hafter, -⟩ := hnext call.direction (by rw [← hturn, hin])
          rw [hstep'] at hafter
          have hshort := (stepAfter_spec hafter).2.2.1
          rw [List.length_append, hlast, List.length_singleton] at hshort
          omega
      | completed _ state out hstate hnoise _ hadmits =>
          rw [← hpeer] at hset ⊢
          exact ⟨state, out, hstate, hnoise, hadmits.2 hset⟩
  | complete hstate | failed hstate => exact (hended hstate).elim

end Handshake

/-- Over every sequence of calls on a fresh handshake: the successful ones are a prefix
of the role's flights; `Complete` and `Result` succeed exactly after all of them; a call
out of turn is refused without a change; a failure in turn is final; and with a pin the
last flight succeeds, and a result is given, only if the peer's authenticated static key
is the pinned one. -/
theorem handshake_state_machine {N : HandshakePrimitives} {role : HandshakeRole}
    {static : StaticKey} {expectedPeer prologue : List UInt8} {random : Reader}
    {h after : Handshake N} {calls : List FlightCall}
    {trace : List (FlightCall × Except Error (List UInt8))}
    (hnew : newHandshake N role static expectedPeer random prologue = .ok h)
    (hrun : h.run calls = (after, trace)) :
    Handshake.succeeded trace <+: role.flights ∧
    (after.isComplete = true ↔ Handshake.succeeded trace = role.flights) ∧
    ((∃ result, after.finalResult = .ok result) ↔ Handshake.succeeded trace = role.flights) ∧
    (∀ call, role.flights[(Handshake.succeeded trace).length]? ≠ some call.direction →
      after.perform call = (after, .error Sentinel.handshake.bare)) ∧
    (∀ call err, role.flights[(Handshake.succeeded trace).length]? = some call.direction →
      (after.perform call).2 = .error err →
      err = Sentinel.handshake.bare ∧ ∀ later,
        (∀ entry ∈ ((after.perform call).1.run later).2,
          entry.2 = .error Sentinel.handshake.bare) ∧
        ((after.perform call).1.run later).1.finalResult = .error Sentinel.handshake.bare) ∧
    (expectedPeer ≠ [] →
      (∀ result, after.finalResult = .ok result → result.peerStatic.val = expectedPeer) ∧
      ∀ call flight, (Handshake.succeeded trace).length = 2 →
        (after.perform call).2 = .ok flight →
        ∃ state out, after.state = some state ∧ call.noise N after.step state = some out ∧
          N.peerStatic out.state = expectedPeer) := by
  have hstands : Handshake.Stands role expectedPeer after (Handshake.succeeded trace) := by
    have := (Handshake.stands_of_new hnew).run calls
    rw [hrun] at this
    exact this
  obtain ⟨hresult, hpinned⟩ := hstands.finalResult_iff
  refine ⟨hstands.prefix_flights, hstands.isComplete_iff, hresult.trans hstands.isComplete_iff,
    ?_, ?_, ?_⟩
  · intro call hout
    rcases hstands.turn_or_ended with hturn | hended
    · exact Handshake.perform_of_turn_ne (by rwa [hturn])
    · exact Handshake.perform_of_ended hended call
  · intro call err hin herr
    obtain ⟨hsentinel, hended, hfailed⟩ := hstands.perform_failed hin herr
    refine ⟨hsentinel, fun later => ?_⟩
    obtain ⟨hsame, hrefused⟩ := Handshake.run_of_ended hended later
    refine ⟨hrefused, ?_⟩
    rw [hsame]
    apply Handshake.finalResult_of_step_ne
    rw [hfailed]
    exact nofun
  · intro hset
    exact ⟨fun result hok => hpinned result hok hset,
      fun call flight hlast hok => hstands.perform_last hset hlast hok⟩

/-- A fresh initiator of the plain exchange, with a pin. -/
def plainInitiator : Handshake plainExchange where
  state := some (true, ⟨List.replicate 32 7, (plainKey 1).publicKey, []⟩)
  role := .initiator
  step := .initiatorWrite1
  expectedPeer := (plainKey 2).publicKey.val
  result := none

theorem newHandshake_plain :
    newHandshake plainExchange .initiator (plainKey 1) (plainKey 2).publicKey.val
      ⟨List.replicate 32 7, none⟩ handshakePrologue = .ok plainInitiator :=
  rfl

/-- The responder's flight of the plain exchange, from the holder of the key `value`. -/
def plainResponse (value : UInt8) : List UInt8 :=
  List.replicate 32 8 ++ ((plainKey value).publicKey.val ++ List.replicate 32 0)

/-- An initiator that first tries to read completes with the responder it pins.  With another
responder its last flight fails, and for good. -/
theorem handshake_state_machine_plain :
    let completed := plainInitiator.run
      [.readFlight [], .writeFlight, .readFlight (plainResponse 2), .writeFlight]
    let deceived := plainInitiator.run [.writeFlight, .readFlight (plainResponse 3)]
    Handshake.succeeded completed.2 = HandshakeRole.initiator.flights ∧
      completed.1.isComplete = true ∧
      (∃ result, completed.1.finalResult = .ok result ∧
        result.peerStatic.val = (plainKey 2).publicKey.val) ∧
      Handshake.succeeded deceived.2 = [.write, .read] ∧
      (deceived.1.perform .writeFlight).2 = .error Sentinel.handshake.bare ∧
      ∀ later, ((deceived.1.perform .writeFlight).1.run later).1.finalResult =
        .error Sentinel.handshake.bare := by
  have hcompleted : plainInitiator.run
      [.readFlight [], .writeFlight, .readFlight (plainResponse 2), .writeFlight] = (_, _) := rfl
  have hdeceived : plainInitiator.run [.writeFlight, .readFlight (plainResponse 3)] = (_, _) :=
    rfl
  obtain ⟨-, hcomplete, hresult, -, -, hpinned⟩ :=
    handshake_state_machine newHandshake_plain hcompleted
  obtain ⟨-, -, -, -, hfailed, -⟩ := handshake_state_machine newHandshake_plain hdeceived
  obtain ⟨result, hok⟩ := hresult.mpr rfl
  refine ⟨rfl, hcomplete.mpr rfl, ⟨result, hok, (hpinned (by decide)).1 result hok⟩, rfl, rfl,
    fun later => ?_⟩
  exact ((hfailed .writeFlight _ rfl rfl).2 later).2

end DgProto
