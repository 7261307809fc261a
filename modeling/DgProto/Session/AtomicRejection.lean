import DgProto.Session.Receive

/-!
# Rejection is atomic

A receive that returns an error leaves the whole session as it was: every
rejection is decided before the first field is written, and the one step in
between that could still fail, the commit on a copy of the replay window, cannot.

`Receive` decodes after the transition.  For a `RekeyInit` the decoding was part of
accepting the frame, so it cannot fail any more; for every other type a decoding
error leaves the state of the successful `ReceivePayload`.
-/

namespace DgProto

open Library Wire Crypto Replay

namespace Session

variable (P : Primitives) (clock : ReceiveClock) (s : Session) (frame : Frame)

theorem receivePayload_error_unchanged {err : Error}
    (h : (s.receivePayload P clock frame).2 = .error err) :
    (s.receivePayload P clock frame).1 = s := by
  have hcase := receivePayload_cases P clock s frame
  generalize s.receivePayload P clock frame = outcome at hcase h ⊢
  cases hcase with
  | rejected => rfl
  | rekey | current | previous => cases h

/-- The commit that follows a candidate succeeds. -/
theorem decryptEpochLocked_commit {candidate : ReceiveCandidate}
    (h : s.decryptEpochLocked P clock frame = .ok candidate) :
    (candidate.current = true → (s.replay.commit candidate.token).2 = .ok ()) ∧
      (candidate.current = false → frame.header.messageType ≠ MessageType.rekeyInit →
        (s.previousReplay.commit candidate.token).2 = .ok ()) := by
  obtain ⟨-, ⟨hcurrent, -, hcheck⟩ | ⟨hprevious, -, -, -, hcheck⟩⟩ :=
    decryptEpochLocked_eq_ok P clock h
  · exact ⟨fun _ => (commit_of_check hcheck).2, fun hfalse => by simp [hcurrent] at hfalse⟩
  · exact ⟨fun htrue => by simp [hprevious] at htrue,
      fun _ htype => (commit_of_check (hcheck htype)).2⟩

/-- An accepted `RekeyInit` was decoded, and moved key, epoch, windows and grace
together. -/
theorem receivePayload_rekey {plaintext : List UInt8}
    (htype : frame.header.messageType = MessageType.rekeyInit)
    (h : (s.receivePayload P clock frame).2 = .ok plaintext) :
    ∃ init nextKey nextCodec window, RekeyInit.unmarshalBinary plaintext = .ok init ∧
      s.prepareRekeyLocked P init = .ok (nextKey, nextCodec) ∧
      Records s.replay frame.header.sequence window ∧
      (s.receivePayload P clock frame).1 =
        s.commitRekey clock window nextKey nextCodec init.epoch := by
  have hcase := receivePayload_cases P clock s frame
  generalize s.receivePayload P clock frame = outcome at hcase h ⊢
  cases hcase with
  | rejected => cases h
  | rekey text init nextKey nextCodec window _ _ _ hrecords hinit hprepare =>
      obtain rfl := Except.ok.inj h
      exact ⟨init, nextKey, nextCodec, window, hinit, hprepare, hrecords, rfl⟩
  | current _ _ _ hother | previous _ _ _ _ hother => exact absurd htype hother

theorem receiveMessage_state :
    (s.receiveMessage P clock frame).1 = (s.receivePayload P clock frame).1 := by
  unfold receiveMessage
  rcases s.receivePayload P clock frame with ⟨after, err | plaintext⟩
  · rfl
  · cases newInboundMessage frame.header.messageType with
    | error err => rfl
    | ok kind =>
        cases hdecode : kind.unmarshalBinary plaintext <;> simp only [hdecode]

/-- Once a `RekeyInit` is accepted, `Receive` returns it. -/
theorem receiveMessage_rekey {plaintext : List UInt8}
    (htype : frame.header.messageType = MessageType.rekeyInit)
    (h : (s.receivePayload P clock frame).2 = .ok plaintext) :
    ∃ init, (s.receiveMessage P clock frame).2 = .ok (.rekeyInit init) := by
  obtain ⟨init, -, -, -, hinit, -⟩ := receivePayload_rekey P clock s frame htype h
  refine ⟨init, ?_⟩
  have hkind : newInboundMessage frame.header.messageType = .ok .rekeyInit := by
    rw [htype]
    rfl
  unfold receiveMessage
  rcases hpayload : s.receivePayload P clock frame with ⟨after, result⟩
  rw [hpayload] at h
  simp only at h
  subst h
  simp only [hkind, MessageKind.unmarshalBinary, hinit, Except.map]

end Session

open Session

/-- **Atomic rejection.** In every state, for every clock and frame: an error of
`ReceivePayload` leaves the state unchanged; the commit behind a candidate never
fails; an accepted `RekeyInit` performs its whole transition, after which `Receive`
cannot fail; and for other types `Receive` leaves the state of a successful
`ReceivePayload`, whether or not the payload decodes. -/
theorem receive_rejection_atomic (P : Primitives) (clock : ReceiveClock) (s : Session)
    (frame : Frame) :
    (∀ err, (s.receivePayload P clock frame).2 = .error err →
        (s.receivePayload P clock frame).1 = s) ∧
      (∀ candidate, s.decryptEpochLocked P clock frame = .ok candidate →
        (candidate.current = true → (s.replay.commit candidate.token).2 = .ok ()) ∧
          (candidate.current = false → frame.header.messageType ≠ MessageType.rekeyInit →
            (s.previousReplay.commit candidate.token).2 = .ok ())) ∧
      (frame.header.messageType = MessageType.rekeyInit →
        (∀ plaintext, (s.receivePayload P clock frame).2 = .ok plaintext →
          (∃ init nextKey nextCodec window, RekeyInit.unmarshalBinary plaintext = .ok init ∧
            s.prepareRekeyLocked P init = .ok (nextKey, nextCodec) ∧
            Records s.replay frame.header.sequence window ∧
            (s.receivePayload P clock frame).1 =
              s.commitRekey clock window nextKey nextCodec init.epoch) ∧
          ∃ init, (s.receiveMessage P clock frame).2 = .ok (.rekeyInit init)) ∧
        ∀ err, (s.receiveMessage P clock frame).2 = .error err →
          (s.receiveMessage P clock frame).1 = s) ∧
      (frame.header.messageType ≠ MessageType.rekeyInit →
        ∀ plaintext, (s.receivePayload P clock frame).2 = .ok plaintext →
          (s.receiveMessage P clock frame).1 = (s.receivePayload P clock frame).1) := by
  refine ⟨fun err => receivePayload_error_unchanged P clock s frame,
    fun candidate => decryptEpochLocked_commit P clock s frame, fun htype => ⟨?_, ?_⟩,
    fun _ _ _ => receiveMessage_state P clock s frame⟩
  · intro plaintext hok
    exact ⟨receivePayload_rekey P clock s frame htype hok,
      receiveMessage_rekey P clock s frame htype hok⟩
  · intro err herr
    rw [receiveMessage_state]
    cases hpayload : (s.receivePayload P clock frame).2 with
    | error _ => exact receivePayload_error_unchanged P clock s frame hpayload
    | ok plaintext =>
        obtain ⟨init, hinit⟩ := receiveMessage_rekey P clock s frame htype hpayload
        rw [hinit] at herr
        cases herr

end DgProto
