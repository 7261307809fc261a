import DgProto.Crypto.Sealing
import DgProto.Session.SendAtomicity

/-!
# The rekey cycle of one sender

A sender that is alone on its session calls `Send`, hands the frame on, and marks it if it
was a `RekeyInit`.  With nothing pending, `Send` returns the frame of the message and leaves
nothing pending, or it returns the announcement of the next epoch and leaves exactly that
pending.  Neither call then answers `ErrRekeyPending`, and each cycle moves the epoch up by
one.
-/

namespace DgProto

open Library Wire Crypto

/-- The emission is the announcement of this epoch. -/
def Emission.Announces (e : Emission) (epoch : Nat) : Prop :=
  e.isRekey = true ∧
    ∃ init : RekeyInit, init.marshalBinary = .ok e.plaintext ∧ init.epoch.toNat = epoch

/-- The call neither sends nor marks. -/
def SessionCall.receives : SessionCall → Bool
  | .receivePayload _ _ | .close => true
  | _ => false

namespace Session

variable {P : Primitives} {s : Session}

/-- What a sender holds between `Send` and the end of the write. -/
inductive Holds (s : Session) (e : Emission) : Prop where
  | message (hkind : e.isRekey = false) (hnone : s.pendingRekey = none)
  | rekey (pending : PendingSendRekey) (hpending : s.pendingRekey = some pending)
      (hframe : pending.frame = e.frame) (hepoch : pending.epoch.toNat = s.sendEpoch.toNat + 1)
      (hannounces : e.Announces pending.epoch.toNat)

theorem Holds.congr {e : Emission} {s' : Session} (h : s.Holds e)
    (hpending : s'.pendingRekey = s.pendingRekey) (hepoch : s'.sendEpoch = s.sendEpoch) :
    s'.Holds e := by
  cases h with
  | message hkind hnone => exact .message hkind (hpending.trans hnone)
  | rekey pending hsome hframe hnext hannounces =>
      exact .rekey pending (hpending.trans hsome) hframe (hepoch ▸ hnext) hannounces

theorem isRekey_frame (epoch : UInt32) (p : Packet) (key : Key) (plaintext : List UInt8) :
    (Emission.mk epoch (p.frame P key) plaintext).isRekey =
      (p.messageType == MessageType.rekeyInit) := by
  rw [Emission.isRekey, Packet.frame_header, Packet.header_messageType]

/-- What a successful `Send` leaves in the hands of the sender. -/
theorem send_emission {message : AnyValue} {padLength : UInt8} {env : SendEnv} {e : Emission}
    (h : (s.step P (.send message padLength env)).emission = some e) :
    (s.step P (.send message padLength env)).after.Holds e ∧
      (s.step P (.send message padLength env)).after.sendEpoch = s.sendEpoch ∧
      e.frame.marshalBinary = .ok e.frame.octets := by
  have hcase := step_cases P s (.send message padLength env)
  generalize s.step P (.send message padLength env) = event at hcase h ⊢
  cases hcase with
  | rejected | closed | rekeyLost | marked => cases h
  | received _ _ _ result hcall => cases hcall
  | data p hemits _ htype =>
      obtain rfl := Option.some.inj h
      refine ⟨.message ?_ hemits.notPending, rfl, (p.frame_marshalBinary P _ hemits.sendable).1⟩
      rw [isRekey_frame]
      exact beq_false_of_ne htype
  | rekey p hemits hfirst hlast htype hplaintext =>
      obtain rfl := Option.some.inj h
      have hepoch : (s.sendEpoch + 1).toNat = s.sendEpoch.toNat + 1 := toNat_epoch_succ hlast
      refine ⟨.rekey (s.pendingAfter P p) rfl rfl hepoch ⟨?_, s.rekeyInit P, ?_, rfl⟩, rfl,
        (p.frame_marshalBinary P _ hemits.sendable).1⟩
      · rw [isRekey_frame]
        exact beq_iff_eq.mpr htype
      · rw [hplaintext]
        exact congrArg _ (List.append_nil _).symm

section Errors

variable {env : SendEnv} {messageType : MessageType} {plaintext : List UInt8} {padLength : UInt8}
  {err : Error}

theorem encryptLocked_error
    (h : (s.encryptLocked P env messageType plaintext padLength).result = .error err) :
    ¬ err.is .rekeyPending := by
  unfold encryptLocked at h
  by_cases hzero : s.nextSequence = 0
  · rw [if_pos hzero] at h
    obtain rfl := Except.error.inj h
    decide
  · rw [if_neg hzero] at h
    rcases Codec.encrypt_cases P env.random s.send messageType s.sessionID s.nextSequence
        plaintext padLength with ⟨err', hencrypt, hkinds⟩ | ⟨p, -, -, -, -, -, -, hencrypt⟩
    · rw [hencrypt] at h
      obtain rfl := Except.error.inj h
      exact Error.not_is_of_subset hkinds (by decide)
    · rw [hencrypt] at h
      cases h

theorem newCodec_error {suite : CipherSuite} {key : List UInt8}
    (h : newCodec P suite key = .error err) : ¬ err.is .rekeyPending := by
  unfold newCodec at h
  split_ifs at h with hsuite hlength
  · obtain rfl := Except.error.inj h
    exact Error.not_is_of_subset (List.Subset.refl _) (by simp [Sentinel.wrap])
  · obtain rfl := Except.error.inj h
    exact Error.not_is_of_subset (List.Subset.refl _) (by simp [Sentinel.wrap])
  · split at h
    · obtain rfl := Except.error.inj h
      exact Error.not_is_of_subset (List.Subset.refl _) (by simp [Error.foreign])
    · cases h

theorem startRekeyLocked_error (h : (s.startRekeyLocked P env padLength).result = .error err) :
    ¬ err.is .rekeyPending := by
  unfold startRekeyLocked at h
  by_cases hlast : s.sendEpoch = 0xFFFFFFFF
  · rw [if_pos hlast] at h
    obtain rfl := Except.error.inj h
    decide
  rw [if_neg hlast] at h
  by_cases hfirst : s.sendEpoch = 0
  · have hconfirm : RekeyState.computeKeyConfirm P ⟨s.sendEpoch⟩ s.sendKey.val
        (s.sendEpoch + 1) = .error (Sentinel.invalidEpoch.wrap "current epoch is zero") := by
      simp [RekeyState.computeKeyConfirm, hfirst]
    simp only [hconfirm] at h
    obtain rfl := Except.error.inj h
    exact Error.not_is_of_subset (List.Subset.refl _) (by simp [Sentinel.wrap])
  simp only [RekeyState.computeKeyConfirm_succ P hfirst hlast] at h
  cases hmarshal : (s.rekeyInit P).marshalBinary with
  | error err' =>
      have hepoch : err' = Sentinel.invalidEpoch.bare := by
        unfold RekeyInit.marshalBinary at hmarshal
        split_ifs at hmarshal
        exact (Except.error.inj hmarshal).symm
      simp only [rekeyInit] at hmarshal
      simp only [hmarshal] at h
      obtain rfl := Except.error.inj h
      rw [hepoch]
      decide
  | ok payload =>
      simp only [rekeyInit] at hmarshal
      simp only [hmarshal] at h
      cases hsent : (s.encryptLocked P env MessageType.rekeyInit payload padLength).result with
      | error err' =>
          simp only [hsent] at h
          obtain rfl := Except.error.inj h
          exact encryptLocked_error hsent
      | ok frame =>
          simp only [hsent] at h
          cases hcodec : newCodec P s.suite (deriveNextTrafficKey P s.sendKey).val with
          | error err' =>
              simp only [hcodec] at h
              obtain rfl := Except.error.inj h
              exact newCodec_error hcodec
          | ok codec =>
              simp only [hcodec] at h
              cases h

theorem sendPayload_error (hnone : s.pendingRekey = none)
    (h : (s.sendPayload P env messageType plaintext padLength).result = .error err) :
    ¬ err.is .rekeyPending := by
  unfold sendPayload at h
  by_cases hvalid : validSessionMessageType messageType = true
  swap
  · rw [if_pos hvalid] at h
    obtain rfl := Except.error.inj h
    exact Error.not_is_of_subset (List.Subset.refl _) (by simp [Sentinel.wrap])
  rw [if_neg (not_not.mpr hvalid)] at h
  by_cases hclosed : s.closed = true
  · rw [if_pos hclosed] at h
    obtain rfl := Except.error.inj h
    decide
  rw [if_neg hclosed, if_neg (by simp [hnone])] at h
  by_cases hdue : s.rekeyDueLocked env.now = true
  · rw [if_pos hdue] at h
    exact startRekeyLocked_error h
  · rw [if_neg hdue] at h
    exact encryptLocked_error h

theorem sendMessage_error {message : AnyValue} (hnone : s.pendingRekey = none)
    (h : (s.sendMessage P env message padLength).result = .error err) :
    ¬ err.is .rekeyPending := by
  unfold sendMessage at h
  cases houtbound : outboundMessage message with
  | error err' =>
      simp only [houtbound] at h
      obtain rfl := Except.error.inj h
      simp [Error.is, outboundMessage_error houtbound]
  | ok typed =>
      obtain ⟨messageType, m⟩ := typed
      simp only [houtbound] at h
      cases hmarshal : m.marshalBinary with
      | error err' =>
          simp only [hmarshal] at h
          obtain rfl := Except.error.inj h
          exact Error.not_is_of_subset (Message.marshalBinary_error hmarshal) (by decide)
      | ok plaintext =>
          simp only [hmarshal] at h
          exact sendPayload_error hnone h

theorem error_of_map_error {α β : Type} {result : Except Error α} {f : α → β}
    (h : result.map f = .error err) : result = .error err := by
  cases result with
  | error err' => exact congrArg _ (Except.error.inj h)
  | ok value => cases h

/-- `Send` asks for a mark only while a transition is pending. -/
theorem send_error {message : AnyValue} (hnone : s.pendingRekey = none)
    (h : (s.step P (.send message padLength env)).result = .error err) :
    ¬ err.is .rekeyPending :=
  sendMessage_error hnone (error_of_map_error h)

/-- A mark of the pending frame fails on a closed session only. -/
theorem mark_error {pending : PendingSendRekey} {now : Time}
    (hpending : s.pendingRekey = some pending)
    (h : (s.step P (.markRekeySent pending.frame now)).result = .error err) :
    ¬ err.is .rekeyPending := by
  have hresult : (s.markRekeySent now pending.frame).2 = .error err := error_of_map_error h
  by_cases hclosed : s.closed = true
  · rw [markRekeySent, if_pos hclosed] at hresult
    obtain rfl := Except.error.inj hresult
    decide
  · rw [Bool.not_eq_true] at hclosed
    rw [(markRekeySent_of_pending hpending now).1 hclosed] at hresult
    cases hresult

end Errors

/-- A mark of the pending frame opens the next epoch. -/
theorem mark_ok {pending : PendingSendRekey} {now : Time} {reply : Reply}
    (hpending : s.pendingRekey = some pending)
    (h : (s.step P (.markRekeySent pending.frame now)).result = .ok reply) :
    (s.step P (.markRekeySent pending.frame now)).after.pendingRekey = none ∧
      (s.step P (.markRekeySent pending.frame now)).after.sendEpoch = pending.epoch ∧
      (s.step P (.markRekeySent pending.frame now)).after.sentInEpoch = 0 := by
  have hresult : (s.markRekeySent now pending.frame).2 = .ok () := by
    cases hmark : (s.markRekeySent now pending.frame).2 with
    | ok => rfl
    | error err =>
        simp only [step, hmark] at h
        cases h
  have hafter : (s.step P (.markRekeySent pending.frame now)).after =
      (s.markRekeySent now pending.frame).1 := rfl
  rw [hafter, ((markRekeySent_of_pending hpending now).2 _ hresult).2]
  exact ⟨rfl, rfl, rfl⟩

theorem encryptLocked_pendingRekey (env : SendEnv) (messageType : MessageType)
    (plaintext : List UInt8) (padLength : UInt8) :
    (s.encryptLocked P env messageType plaintext padLength).session.pendingRekey =
      s.pendingRekey := by
  unfold encryptLocked
  by_cases hzero : s.nextSequence = 0
  · rw [if_pos hzero]
  · rw [if_neg hzero]
    generalize s.send.encrypt P env.random messageType s.sessionID s.nextSequence plaintext
      padLength = sealed
    obtain ⟨calls, result⟩ := sealed
    cases result <;> rfl

/-- No rekey is due on the first frame of an epoch before its interval is over. -/
theorem send_prompt {message : AnyValue} {padLength : UInt8} {env : SendEnv}
    (hfresh : s.sentInEpoch = 0)
    (hnow : 0 < s.rekeyInterval → env.now < s.epochStarted + s.rekeyInterval) :
    (s.step P (.send message padLength env)).after.pendingRekey = s.pendingRekey := by
  have hdue : s.rekeyDueLocked env.now = false := by
    rw [← Bool.not_eq_true]
    intro hdue
    simp only [rekeyDueLocked, hfresh, Bool.or_eq_true, Bool.and_eq_true, decide_eq_true_eq]
      at hdue
    rcases hdue with ⟨hne, hle⟩ | ⟨hpos, hlate⟩
    · exact hne (UInt64.le_zero_iff.mp hle)
    · exact hlate (hnow hpos)
  show (s.sendMessage P env message padLength).session.pendingRekey = s.pendingRekey
  unfold sendMessage
  cases outboundMessage message with
  | error err => rfl
  | ok typed =>
      obtain ⟨messageType, m⟩ := typed
      cases hmarshal : m.marshalBinary with
      | error err => simp only [hmarshal]
      | ok plaintext =>
          simp only [hmarshal]
          unfold sendPayload
          rw [hdue]
          split_ifs with hvalid hclosed hpending hnever
          · rfl
          · rfl
          · cases hnever
          · exact encryptLocked_pendingRekey env messageType plaintext padLength
          · rfl

/-- A session that has only received has nothing pending. -/
theorem pendingRekey_of_receives {calls : List SessionCall}
    (h : ∀ call ∈ calls, call.receives = true) :
    (s.run P calls).pendingRekey = s.pendingRekey := by
  induction calls generalizing s with
  | nil => rfl
  | cons call calls ih =>
      obtain ⟨hcall, hcalls⟩ := List.forall_mem_cons.mp h
      refine (ih hcalls).trans ?_
      cases call with
      | receivePayload frame clock =>
          exact congrArg SendSide.pendingRekey (receivePayload_sendSide P clock s frame)
      | close => rfl
      | send | sendPayload | markRekeySent => cases hcall

/-- Whatever the clock and the randomness, `Send` returns a frame or an error. -/
theorem send_total (s : Session) (message : AnyValue) (padLength : UInt8) (env : SendEnv) :
    (∃ e, (s.step P (.send message padLength env)).emission = some e) ∨
      ∃ err, (s.step P (.send message padLength env)).result = .error err := by
  cases hresult : (s.sendMessage P env message padLength).result with
  | ok frame =>
      refine .inl ⟨⟨s.sendEpoch, frame,
        (s.sendMessage P env message padLength).calls.flatMap SealCall.plaintext⟩, ?_⟩
      simp only [step, Event.emission, hresult, Except.map]
  | error err => exact .inr ⟨err, by simp only [step, hresult, Except.map]⟩

end Session

end DgProto
