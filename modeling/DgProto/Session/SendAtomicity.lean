import DgProto.Session.Run

/-!
# Failed sends leave no trace

A send that returns an error leaves the whole session as it was.  Starting a rekey
seals a frame, which consumes a sequence number, before it makes the codec of the next
key; only a failure of that last step could leave a consumed number behind, and on a
session of the one supported suite it cannot fail once `chacha20poly1305.New` accepts
every key of 32 octets.

A send that returns a `RekeyInit` changes the two counters and the pending transition
and nothing else.  The transition stays pending, with the key, the codec and the epoch
it was made with, until `MarkRekeySent` installs them (`pending_kept`).
-/

namespace DgProto

open Library Wire Crypto Replay

namespace Session

/-- The outcomes of the exported send methods. -/
inductive Sends (P : Primitives) (s : Session) : SendOutcome → Prop where
  | message (env : SendEnv) (message : AnyValue) (padLength : UInt8) :
      Sends P s (s.sendMessage P env message padLength)
  | payload (env : SendEnv) (messageType : MessageType) (plaintext : List UInt8)
      (padLength : UInt8) :
      Sends P s (s.sendPayloadChecked P env messageType plaintext padLength)

variable {P : Primitives} {s : Session}

/-- An outcome of an exported method is a rejection, or that of sending a payload of the
caller, which is never a `RekeyInit`. -/
theorem Sends.cases {outcome : SendOutcome} (h : Sends P s outcome) :
    (∃ err, outcome = ⟨s, [], .error err⟩) ∨
      ∃ messageType plaintext, messageType ≠ MessageType.rekeyInit ∧
        SendCase P s messageType plaintext outcome := by
  cases h with
  | message env message padLength =>
      rcases sendMessage_cases P env (s := s) message padLength with
        ⟨err, -, heq⟩ | ⟨m, plaintext, -, hkind, -, heq⟩
      · exact .inl ⟨err, heq⟩
      · rw [heq]
        exact .inr ⟨m.kind.type, plaintext, kind_type_ne_rekeyInit hkind,
          sendPayload_cases P env m.kind.type plaintext padLength⟩
  | payload env messageType plaintext padLength =>
      rcases sendPayloadChecked_cases P env (s := s) messageType plaintext padLength with
        ⟨err, -, heq⟩ | ⟨htype, heq⟩
      · exact .inl ⟨err, heq⟩
      · rw [heq]
        exact .inr ⟨messageType, plaintext, htype,
          sendPayload_cases P env messageType plaintext padLength⟩

/-- The codec of the next key can be made, so no announcement is lost. -/
theorem newCodec_next (hnew : P.NewSucceeds) (hsuite : s.suite = cipherChaCha20Poly1305) :
    newCodec P s.suite (deriveNextTrafficKey P s.sendKey).val =
      .ok ⟨deriveNextTrafficKey P s.sendKey⟩ := by
  rw [hsuite]
  exact newCodec_of_new hnew _

theorem Sends.error_unchanged {outcome : SendOutcome} (h : Sends P s outcome)
    (hnew : P.NewSucceeds) (hsuite : s.suite = cipherChaCha20Poly1305) {err : Error}
    (herr : outcome.result = .error err) : outcome.session = s := by
  rcases h.cases with ⟨_, rfl⟩ | ⟨messageType, plaintext, -, hcase⟩
  · rfl
  · cases hcase with
    | rejected => rfl
    | data | rekey => cases herr
    | rekeyLost p hemits lost htype hcodec =>
        rw [newCodec_next hnew hsuite] at hcodec
        cases hcodec

/-- What a send that returns a `RekeyInit` leaves behind. -/
theorem Sends.rekey {outcome : SendOutcome} (h : Sends P s outcome) {frame : Frame}
    (hok : outcome.result = .ok frame)
    (htype : frame.header.messageType = MessageType.rekeyInit) :
    s.closed = false ∧ outcome.session =
      { s with
        nextSequence := succSequence s.nextSequence
        sentInEpoch := s.sentInEpoch + 1
        pendingRekey := some ⟨frame, deriveNextTrafficKey P s.sendKey,
          ⟨deriveNextTrafficKey P s.sendKey⟩, s.sendEpoch + 1⟩ } := by
  rcases h.cases with ⟨_, rfl⟩ | ⟨messageType, plaintext, hother, hcase⟩
  · cases hok
  · cases hcase with
    | rejected | rekeyLost => cases hok
    | data p _ _ hp _ =>
        obtain rfl := Except.ok.inj hok
        rw [Packet.frame_header, Packet.header_messageType, hp] at htype
        exact absurd htype hother
    | rekey p hemits =>
        obtain rfl := Except.ok.inj hok
        exact ⟨hemits.isOpen, rfl⟩

theorem markRekeySent_error_unchanged {now : Time} {frame : Frame} {err : Error}
    (herr : (s.markRekeySent now frame).2 = .error err) :
    (s.markRekeySent now frame).1 = s := by
  rcases markRekeySent_cases (s := s) now frame with ⟨_, -, heq⟩ | ⟨pending, -, -, -, heq⟩
  · rw [heq]
  · rw [heq] at herr
    cases herr

/-- A pending transition stays as it is until it is marked. -/
theorem step_pending {pending : PendingSendRekey} (h : s.pendingRekey = some pending)
    (call : SessionCall) (hmarks : ¬ (s.step P call).Marks) :
    (s.step P call).after.pendingRekey = some pending := by
  have hcase := step_cases P s call
  generalize s.step P call = event at hcase hmarks ⊢
  cases hcase with
  | rejected => exact h
  | received _ _ _ _ _ _ hside => exact (congrArg SendSide.pendingRekey hside).trans h
  | closed => exact h
  | data _ hemits | rekey _ hemits | rekeyLost _ hemits =>
      rw [hemits.notPending] at h
      cases h
  | marked _ now hcall => exact absurd ⟨⟨_, now, hcall⟩, rfl⟩ hmarks

theorem pending_kept {pending : PendingSendRekey} {calls : List SessionCall}
    (h : s.pendingRekey = some pending) (hmarks : ∀ event ∈ s.events P calls, ¬ event.Marks) :
    (s.run P calls).pendingRekey = some pending := by
  induction calls generalizing s with
  | nil => exact h
  | cons call calls ih =>
      exact ih (step_pending h call (hmarks _ List.mem_cons_self))
        fun event hevent => hmarks event (List.mem_cons_of_mem _ hevent)

/-- What marks a pending transition, and what it installs. -/
theorem markRekeySent_of_pending {pending : PendingSendRekey}
    (h : s.pendingRekey = some pending) (now : Time) :
    (s.closed = false → (s.markRekeySent now pending.frame).2 = .ok ()) ∧
      ∀ frame, (s.markRekeySent now frame).2 = .ok () →
        frame = pending.frame ∧ (s.markRekeySent now frame).1 =
          { s with
            sendKey := pending.key
            send := pending.codec
            sendEpoch := pending.epoch
            nextSequence := 1
            sentInEpoch := 0
            epochStarted := now
            pendingRekey := none } := by
  constructor
  · intro hopen
    simp [markRekeySent, hopen, h]
  · intro frame hok
    rcases markRekeySent_cases (s := s) now frame with
      ⟨_, -, heq⟩ | ⟨marked, -, hpending, hframe, heq⟩
    · rw [heq] at hok
      cases hok
    · obtain rfl := Option.some.inj (hpending.symm.trans h)
      exact ⟨hframe.symm, congrArg Prod.fst heq⟩

end Session

open Session

/-- **Send-side errors leave no trace.**  In every state that any calls reach from a new
session, for every clock, randomness, message, payload, padding and frame: an error of
`Send`, `SendPayload` or `MarkRekeySent` leaves every field unchanged.  If a send returns
a `RekeyInit`, only the sequence number, the frame count and the pending transition have
changed; whatever is called next, the transition stays pending until it is marked, its own
frame marks it on an open session, no other frame does, and the mark installs its key,
codec and epoch. -/
theorem send_error_leaves_no_trace {P : Primitives} (hnew : P.NewSucceeds)
    {suite : CipherSuite} {secrets : HandshakeSecrets} {start : Time} {fresh : Session}
    (hfresh : newSession P suite secrets start = .ok fresh) (limits : Limits)
    (calls : List SessionCall) :
    let s := (fresh.withLimits limits).run P calls
    (∀ outcome, Sends P s outcome →
      (∀ err, outcome.result = .error err → outcome.session = s) ∧
      ∀ frame, outcome.result = .ok frame →
        frame.header.messageType = MessageType.rekeyInit →
        ∃ pending : PendingSendRekey,
          pending.frame = frame ∧
          pending.key = deriveNextTrafficKey P s.sendKey ∧
          pending.codec = ⟨pending.key⟩ ∧
          pending.epoch = s.sendEpoch + 1 ∧
          outcome.session =
            { s with
              nextSequence := succSequence s.nextSequence
              sentInEpoch := s.sentInEpoch + 1
              pendingRekey := some pending } ∧
          ∀ later, (∀ event ∈ outcome.session.events P later, ¬ event.Marks) →
            ∀ now, let t := outcome.session.run P later
              (t.closed = false → (t.markRekeySent now frame).2 = .ok ()) ∧
              ∀ other, (t.markRekeySent now other).2 = .ok () →
                other = frame ∧ (t.markRekeySent now other).1 =
                  { t with
                    sendKey := pending.key
                    send := pending.codec
                    sendEpoch := pending.epoch
                    nextSequence := 1
                    sentInEpoch := 0
                    epochStarted := now
                    pendingRekey := none }) ∧
    ∀ now frame err, (s.markRekeySent now frame).2 = .error err →
      (s.markRekeySent now frame).1 = s := by
  intro s
  have hkeys : SendKeys P secrets.sendKey s :=
    run_induction (fun _ call h => h.step call) _ calls (sendKeys_newSession hfresh limits)
  refine ⟨fun outcome hsends => ⟨fun err herr => hsends.error_unchanged hnew hkeys.suite herr,
    fun frame hok htype => ?_⟩, fun now frame err => markRekeySent_error_unchanged⟩
  obtain ⟨-, hstate⟩ := hsends.rekey hok htype
  refine ⟨_, rfl, rfl, rfl, rfl, hstate, fun later hmarks now => ?_⟩
  have hpending : outcome.session.pendingRekey = some ⟨frame, deriveNextTrafficKey P s.sendKey,
      ⟨deriveNextTrafficKey P s.sendKey⟩, s.sendEpoch + 1⟩ := by
    rw [hstate]
  exact markRekeySent_of_pending (pending_kept hpending hmarks) now

/-- With a limit of one frame the second send announces a rekey.  While it is pending a third
send is refused and leaves no trace, and the frame of the announcement marks it. -/
theorem send_error_leaves_no_trace_pending :
    let fresh := initialSession cipherChaCha20Poly1305 sampleSecrets ⟨sampleSecrets.sendKey⟩
      ⟨sampleSecrets.receiveKey⟩ 0
    let s := (fresh.withLimits ⟨1, 0, 0, 0⟩).run transparent [samplePing 1]
    let t := (fresh.withLimits ⟨1, 0, 0, 0⟩).run transparent [samplePing 1, samplePing 2]
    let env : SendEnv := ⟨0, ⟨[], none⟩⟩
    (t.sendPayloadChecked transparent env MessageType.pingPong [3] 0).session = t ∧
      ∃ frame, (s.sendPayloadChecked transparent env MessageType.pingPong [2] 0).result =
          .ok frame ∧ (t.markRekeySent 5 frame).2 = .ok () := by
  have hbefore := send_error_leaves_no_trace transparent_newSucceeds newSession_sample
    ⟨1, 0, 0, 0⟩ [samplePing 1]
  have hafter := send_error_leaves_no_trace transparent_newSucceeds newSession_sample
    ⟨1, 0, 0, 0⟩ [samplePing 1, samplePing 2]
  refine ⟨(hafter.1 _ (.payload ⟨0, ⟨[], none⟩⟩ MessageType.pingPong [3] 0)).1 _ rfl, _, rfl, ?_⟩
  obtain ⟨pending, -, -, -, -, -, hmark⟩ :=
    (hbefore.1 _ (.payload ⟨0, ⟨[], none⟩⟩ MessageType.pingPong [2] 0)).2 _ rfl rfl
  exact (hmark [] (by simp [Session.events]) 5).1 rfl

end DgProto
