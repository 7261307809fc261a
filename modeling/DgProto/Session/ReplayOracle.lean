import DgProto.Crypto.Sealing
import DgProto.Session.Receive

/-!
# No replay oracle

What a sender without the keys can learn about the replay windows: nothing.  Two
sessions that differ in their windows only answer an unauthenticated frame with the
same error, a frame of the current key by the current window alone, and a frame of
the previous key by the previous window alone.

The order of the checks carries this.  No window is looked at before a key has
authenticated the frame, and then only the window of that key; a `RekeyInit` under
the previous key is refused before its window is looked at.
-/

namespace DgProto

open Library Wire Crypto Replay

/-- The codec's key authenticates the frame. -/
def Crypto.Codec.Authenticates (P : Primitives) (codec : Codec) (frame : Frame) : Prop :=
  ∃ plaintext, codec.decrypt P frame = .ok plaintext

/-- A well-formed frame fails in `Open` or not at all. -/
theorem Crypto.Codec.decrypt_of_not_authenticates {P : Primitives} {codec : Codec}
    {frame : Frame} (hreceivable : Receivable frame) (h : ¬ codec.Authenticates P frame) :
    codec.decrypt P frame = .error Sentinel.authentication.bare := by
  cases hdecrypt : codec.decrypt P frame with
  | ok plaintext => exact absurd ⟨plaintext, hdecrypt⟩ h
  | error err =>
      rw [Codec.decrypt_eq_openInput, hreceivable.openInput_eq] at hdecrypt
      simp only [OpenInput.opened] at hdecrypt
      split at hdecrypt
      · rw [← Except.error.inj hdecrypt]
      · cases hdecrypt

namespace Session

variable (P : Primitives) (clock : ReceiveClock) (s : Session) (frame : Frame)

/-- The session with other contents of its windows.  Two sessions agree on everything
but the windows when both are of this form over one session. -/
def withWindows (s : Session) (current previous : ReplayWindow) : Session :=
  { s with replay := current, previousReplay := previous }

/-- Neither the current key nor the previous one within its grace authenticates the
frame. -/
def Unauthenticated : Prop :=
  ¬ s.receive.Authenticates P frame ∧
    ∀ codec, s.previousAvailable clock.available = some codec →
      ¬ codec.Authenticates P frame

/-- The previous key within its grace authenticates the frame and the current one does
not. -/
def AuthenticatedByPrevious : Prop :=
  ¬ s.receive.Authenticates P frame ∧
    ∃ codec, s.previousAvailable clock.available = some codec ∧ codec.Authenticates P frame

variable {s frame}

@[simp] theorem withWindows_admits_iff (w v : ReplayWindow) :
    (s.withWindows w v).Admits frame ↔ s.Admits frame :=
  ⟨fun ⟨h₁, h₂, h₃, h₄, h₅⟩ => ⟨h₁, h₂, h₃, h₄, h₅⟩,
    fun ⟨h₁, h₂, h₃, h₄, h₅⟩ => ⟨h₁, h₂, h₃, h₄, h₅⟩⟩

/-! ## The three kinds of frames -/

/-- No window takes part in refusing an unauthenticated frame. -/
theorem decryptEpochLocked_of_unauthenticated (hsequence : frame.header.sequence ≠ 0)
    (h : s.Unauthenticated P clock frame) :
    ∃ err, (∀ w v, (s.withWindows w v).decryptEpochLocked P clock frame = .error err) ∧
      (Receivable frame → err = Sentinel.authentication.bare) := by
  obtain ⟨hcurrent, hprevious⟩ := h
  cases hdecrypt : s.receive.decrypt P frame with
  | ok plaintext => exact absurd ⟨plaintext, hdecrypt⟩ hcurrent
  | error err =>
      by_cases hauth : err.is .authentication
      swap
      · -- a malformed frame fails before any key is used
        refine ⟨err, fun w v => ?_, fun hreceivable => ?_⟩
        · simp only [decryptEpochLocked, withWindows, hsequence, hdecrypt, hauth, if_false,
            not_false_eq_true, if_true]
        · rw [Codec.decrypt_of_not_authenticates hreceivable hcurrent] at hdecrypt
          exact (Except.error.inj hdecrypt).symm
      have havailable (w v : ReplayWindow) :
          (s.withWindows w v).previousAvailable clock.available =
            s.previousAvailable clock.available := rfl
      cases hcodec : s.previousAvailable clock.available with
      | none =>
          refine ⟨Sentinel.authentication.bare, fun w v => ?_, fun _ => rfl⟩
          simp only [decryptEpochLocked, havailable, hcodec]
          simp only [withWindows, hsequence, hdecrypt, hauth, if_false, not_true_eq_false]
      | some codec =>
          have hother := hprevious codec hcodec
          cases hopen : codec.decrypt P frame with
          | ok plaintext => exact absurd ⟨plaintext, hopen⟩ hother
          | error err' =>
              by_cases hauth' : err'.is .authentication
              · refine ⟨Sentinel.authentication.bare, fun w v => ?_, fun _ => rfl⟩
                simp only [decryptEpochLocked, havailable, hcodec, hopen]
                simp only [withWindows, hsequence, hdecrypt, hauth, hauth', if_false,
                  not_true_eq_false]
              · refine ⟨err', fun w v => ?_, fun hreceivable => ?_⟩
                · simp only [decryptEpochLocked, havailable, hcodec, hopen]
                  simp only [withWindows, hsequence, hdecrypt, hauth, hauth', if_false,
                    not_true_eq_false, not_false_eq_true, if_true]
                · rw [Codec.decrypt_of_not_authenticates hreceivable hother] at hopen
                  exact (Except.error.inj hopen).symm

/-- The two sessions differ in the contents of the previous window at most. -/
def AgreeButPrevious (a b : Session) : Prop :=
  ∃ t w v v', a = withWindows t w v ∧ b = withWindows t w v'

/-- The two sessions differ in the contents of the current window at most. -/
def AgreeButCurrent (a b : Session) : Prop :=
  ∃ t w w' v, a = withWindows t w v ∧ b = withWindows t w' v

/-- Expiry looks at the grace, not at the window it clears. -/
theorem expireGraceLocked_agreeButPrevious (now : Time) (w v v' : ReplayWindow) :
    AgreeButPrevious ((s.withWindows w v).expireGraceLocked now)
      ((s.withWindows w v').expireGraceLocked now) := by
  by_cases hnone : s.previousReceive = none
  · have hkeep (u : ReplayWindow) :
        (s.withWindows w u).expireGraceLocked now = s.withWindows w u := if_pos hnone
    rw [hkeep, hkeep]
    exact ⟨s, w, v, v', rfl, rfl⟩
  by_cases hover : s.graceRemaining = 0 ∨ s.gracePeriod ≤ 0 ∨ ¬ now < s.graceUntil
  · have hclear (u : ReplayWindow) : (s.withWindows w u).expireGraceLocked now =
        withWindows { s with previousReceive := none, graceRemaining := 0, graceUntil := zeroTime }
          w ReplayWindow.zero := (if_neg hnone).trans (if_pos hover)
    rw [hclear, hclear]
    exact ⟨_, w, _, _, rfl, rfl⟩
  · have hkeep (u : ReplayWindow) : (s.withWindows w u).expireGraceLocked now =
        s.withWindows w u := (if_neg hnone).trans (if_neg hover)
    rw [hkeep, hkeep]
    exact ⟨s, w, v, v', rfl, rfl⟩

theorem commitCurrent_agreeButPrevious (w v v' committed : ReplayWindow) :
    AgreeButPrevious ((s.withWindows w v).commitCurrent clock committed)
      ((s.withWindows w v').commitCurrent clock committed) := by
  by_cases hnone : s.previousReceive = none
  · have hmove (u : ReplayWindow) : (s.withWindows w u).commitCurrent clock committed =
        s.withWindows committed u := if_pos hnone
    rw [hmove, hmove]
    exact ⟨s, committed, v, v', rfl, rfl⟩
  · have hmove (u : ReplayWindow) : (s.withWindows w u).commitCurrent clock committed =
        (withWindows { s with
            graceRemaining := if 0 < s.graceRemaining then s.graceRemaining - 1
              else s.graceRemaining } committed u).expireGraceLocked clock.expire :=
      if_neg hnone
    rw [hmove, hmove]
    exact expireGraceLocked_agreeButPrevious clock.expire committed v v'

/-- A malformed or unconfirmed announcement of the next epoch is refused. -/
theorem receivePayload_of_rekey_error {plaintext : List UInt8} {token : ReplayToken}
    {err : Error} (hadmits : s.Admits frame)
    (hopen : s.receive.decrypt P frame = .ok plaintext)
    (hcheck : s.replay.check frame.header.sequence = .ok token)
    (htype : frame.header.messageType = MessageType.rekeyInit)
    (herr : RekeyInit.unmarshalBinary plaintext = .error err ∨
      ∃ init, RekeyInit.unmarshalBinary plaintext = .ok init ∧
        s.prepareRekeyLocked P init = .error err) :
    s.receivePayload P clock frame = (s, .error err) := by
  rw [receivePayload_of_candidate hadmits
    (decryptEpochLocked_of_current P clock hadmits.sequence hopen hcheck)]
  rcases herr with hinit | ⟨init, hinit, hprepare⟩
  · simp only [settle, htype, hinit, not_true_eq_false, false_and, true_and, if_false, if_true]
  · simp only [settle, htype, hinit, hprepare, not_true_eq_false, false_and, true_and, if_false,
      if_true]

/-- Under the current key only its own window decides. -/
theorem receivePayload_agreeButPrevious {plaintext : List UInt8} (hadmits : s.Admits frame)
    (hopen : s.receive.decrypt P frame = .ok plaintext) (w v v' : ReplayWindow) :
    ((s.withWindows w v).receivePayload P clock frame).2 =
        ((s.withWindows w v').receivePayload P clock frame).2 ∧
      AgreeButPrevious ((s.withWindows w v).receivePayload P clock frame).1
        ((s.withWindows w v').receivePayload P clock frame).1 := by
  have hadmits' (u : ReplayWindow) : (s.withWindows w u).Admits frame :=
    (withWindows_admits_iff w u).mpr hadmits
  have hopen' (u : ReplayWindow) :
      (s.withWindows w u).receive.decrypt P frame = .ok plaintext := hopen
  -- whatever refuses the frame refuses it in both states
  have hrefused (err : Error)
      (h : ∀ u, (s.withWindows w u).receivePayload P clock frame =
        (s.withWindows w u, .error err)) :
      ((s.withWindows w v).receivePayload P clock frame).2 =
          ((s.withWindows w v').receivePayload P clock frame).2 ∧
        AgreeButPrevious ((s.withWindows w v).receivePayload P clock frame).1
          ((s.withWindows w v').receivePayload P clock frame).1 := by
    rw [h v, h v']
    exact ⟨rfl, s, w, v, v', rfl, rfl⟩
  cases hcheck : w.check frame.header.sequence with
  | error err =>
      apply hrefused err
      intro u
      apply receivePayload_of_decrypt_error (hadmits' u)
      simp only [decryptEpochLocked, withWindows, hadmits.sequence, if_false, hopen, hcheck]
  | ok token =>
      by_cases htype : frame.header.messageType = MessageType.rekeyInit
      swap
      · rw [receivePayload_of_current P clock _ (hadmits' v) (hopen' v) hcheck htype,
          receivePayload_of_current P clock _ (hadmits' v') (hopen' v') hcheck htype]
        exact ⟨rfl, commitCurrent_agreeButPrevious clock w v v' _⟩
      cases hinit : RekeyInit.unmarshalBinary plaintext with
      | error err =>
          apply hrefused err
          intro u
          exact receivePayload_of_rekey_error P clock (hadmits' u) (hopen' u) hcheck htype
            (.inl hinit)
      | ok init =>
          cases hprepare : s.prepareRekeyLocked P init with
          | error err =>
              apply hrefused err
              intro u
              exact receivePayload_of_rekey_error P clock (hadmits' u) (hopen' u) hcheck htype
                (.inr ⟨init, hinit, hprepare⟩)
          | ok next =>
              obtain ⟨nextKey, nextCodec⟩ := next
              rw [receivePayload_of_rekey P clock _ (hadmits' v) (hopen' v) hcheck htype hinit
                  hprepare,
                receivePayload_of_rekey P clock _ (hadmits' v') (hopen' v') hcheck htype hinit
                  hprepare]
              -- the transition replaces the previous window
              exact ⟨rfl, _, _, _, _, rfl, rfl⟩

/-- A frame that some key authenticates is well formed. -/
theorem receivable_of_authenticates {codec : Codec} (h : codec.Authenticates P frame) :
    Receivable frame := by
  obtain ⟨plaintext, hopen⟩ := h
  rw [Codec.decrypt_eq_openInput] at hopen
  cases hinput : openInput frame with
  | error err => simp [hinput] at hopen
  | ok input => exact Receivable.of_openInput hinput

/-- What `decryptEpochLocked` does once only the previous key has authenticated the
frame. -/
theorem decryptEpochLocked_of_previous {codec : Codec} {plaintext : List UInt8}
    (hsequence : frame.header.sequence ≠ 0)
    (hcurrent : s.receive.decrypt P frame = .error Sentinel.authentication.bare)
    (havailable : s.previousAvailable clock.available = some codec)
    (hopen : codec.decrypt P frame = .ok plaintext) :
    s.decryptEpochLocked P clock frame =
      if frame.header.messageType = MessageType.rekeyInit then
        .ok ⟨plaintext, false, ReplayToken.zero⟩
      else
        (s.previousReplay.check frame.header.sequence).map fun token =>
          ⟨plaintext, false, token⟩ := by
  have hauth : Sentinel.authentication.bare.is .authentication := by simp
  cases hcheck : s.previousReplay.check frame.header.sequence with
  | error err =>
      simp only [decryptEpochLocked, hsequence, hcurrent, hauth, havailable, hopen, hcheck,
        if_false, not_true_eq_false, Except.map]
  | ok token =>
      simp only [decryptEpochLocked, hsequence, hcurrent, hauth, havailable, hopen, hcheck,
        if_false, not_true_eq_false, Except.map]

/-- A rollback announcement is refused whatever the windows hold. -/
theorem receivePayload_of_rollback {candidate : ReceiveCandidate} (hadmits : s.Admits frame)
    (htype : frame.header.messageType = MessageType.rekeyInit)
    (hcandidate : s.decryptEpochLocked P clock frame = .ok candidate)
    (hprevious : candidate.current = false) :
    s.receivePayload P clock frame =
      (s, .error (Sentinel.invalidEpoch.wrap "rekey from previous epoch")) := by
  rw [receivePayload_of_candidate hadmits hcandidate]
  simp only [settle, htype, hprevious, not_false_eq_true, true_and, if_true, Bool.false_eq_true]

/-- A fresh frame under the previous key is accepted. -/
theorem receivePayload_of_previous {plaintext : List UInt8} {token : ReplayToken}
    (hadmits : s.Admits frame)
    (htype : frame.header.messageType ≠ MessageType.rekeyInit)
    (hcandidate : s.decryptEpochLocked P clock frame = .ok ⟨plaintext, false, token⟩)
    (hcheck : s.previousReplay.check frame.header.sequence = .ok token) :
    s.receivePayload P clock frame =
      ({ s with previousReplay := (s.previousReplay.commit token).1 }, .ok plaintext) := by
  rw [receivePayload_of_candidate hadmits hcandidate]
  simp only [settle, htype, and_false, if_false, Bool.false_eq_true]
  rw [commit_eq_of_check hcheck]

/-- Under the previous key only its own window decides. -/
theorem receivePayload_agreeButCurrent (hadmits : s.Admits frame)
    (h : s.AuthenticatedByPrevious P clock frame) (w w' v : ReplayWindow) :
    ((s.withWindows w v).receivePayload P clock frame).2 =
        ((s.withWindows w' v).receivePayload P clock frame).2 ∧
      AgreeButCurrent ((s.withWindows w v).receivePayload P clock frame).1
        ((s.withWindows w' v).receivePayload P clock frame).1 := by
  obtain ⟨hcurrent, codec, havailable, plaintext, hopen⟩ := h
  have hreceivable : Receivable frame := receivable_of_authenticates P ⟨plaintext, hopen⟩
  have hdecrypt := Codec.decrypt_of_not_authenticates hreceivable hcurrent
  have hadmits' (u : ReplayWindow) : (s.withWindows u v).Admits frame :=
    (withWindows_admits_iff u v).mpr hadmits
  have hcandidate (u : ReplayWindow) := decryptEpochLocked_of_previous P clock
    (s := s.withWindows u v) hadmits.sequence hdecrypt havailable hopen
  by_cases htype : frame.header.messageType = MessageType.rekeyInit
  · simp only [htype, if_true] at hcandidate
    rw [receivePayload_of_rollback P clock (hadmits' w) htype (hcandidate w) rfl,
      receivePayload_of_rollback P clock (hadmits' w') htype (hcandidate w') rfl]
    exact ⟨rfl, s, w, w', v, rfl, rfl⟩
  · simp only [htype, if_false] at hcandidate
    have hsame (u : ReplayWindow) : (s.withWindows u v).previousReplay = v := rfl
    cases hcheck : v.check frame.header.sequence with
    | error err =>
        simp only [hsame, hcheck, Except.map] at hcandidate
        rw [receivePayload_of_decrypt_error (hadmits' w) (hcandidate w),
          receivePayload_of_decrypt_error (hadmits' w') (hcandidate w')]
        exact ⟨rfl, s, w, w', v, rfl, rfl⟩
    | ok token =>
        simp only [hsame, hcheck, Except.map] at hcandidate
        rw [receivePayload_of_previous P clock (hadmits' w) htype (hcandidate w) hcheck,
          receivePayload_of_previous P clock (hadmits' w') htype (hcandidate w') hcheck]
        exact ⟨rfl, s, w, w', _, rfl, rfl⟩

/-- A `RekeyInit` under the previous key is a rollback, whatever the windows hold. -/
theorem receivePayload_previous_rekey (hadmits : s.Admits frame)
    (h : s.AuthenticatedByPrevious P clock frame)
    (htype : frame.header.messageType = MessageType.rekeyInit) (w v : ReplayWindow) :
    (s.withWindows w v).receivePayload P clock frame =
      (s.withWindows w v,
        .error (Sentinel.invalidEpoch.wrap "rekey from previous epoch")) := by
  obtain ⟨hcurrent, codec, havailable, plaintext, hopen⟩ := h
  have hreceivable : Receivable frame := receivable_of_authenticates P ⟨plaintext, hopen⟩
  have hcandidate := decryptEpochLocked_of_previous P clock (s := s.withWindows w v)
    hadmits.sequence (Codec.decrypt_of_not_authenticates hreceivable hcurrent) havailable hopen
  rw [if_pos htype] at hcandidate
  exact receivePayload_of_rollback P clock ((withWindows_admits_iff w v).mpr hadmits) htype
    hcandidate rfl

/-! ## The two-run statement -/

/-- No replay oracle.  Of two sessions that agree on everything but the windows, an
unauthenticated frame gets the same error from both, `ErrAuthentication` if it is well
formed and the session admits it; the answer to a frame of the current key does not
depend on the previous window; and the answer to a frame of the previous key alone does
not depend on the current window, and to a `RekeyInit` on neither. -/
theorem receive_no_replay_oracle (s : Session) (frame : Frame)
    (hsequence : frame.header.sequence ≠ 0) :
    (s.Unauthenticated P clock frame →
      ∃ err, (∀ w v, (s.withWindows w v).receivePayload P clock frame =
          (s.withWindows w v, .error err)) ∧
        (s.Admits frame → Receivable frame → err = Sentinel.authentication.bare)) ∧
    (s.receive.Authenticates P frame → ∀ w v v',
      ((s.withWindows w v).receivePayload P clock frame).2 =
          ((s.withWindows w v').receivePayload P clock frame).2 ∧
        AgreeButPrevious ((s.withWindows w v).receivePayload P clock frame).1
          ((s.withWindows w v').receivePayload P clock frame).1) ∧
    (s.AuthenticatedByPrevious P clock frame →
      (∀ w w' v,
        ((s.withWindows w v).receivePayload P clock frame).2 =
            ((s.withWindows w' v).receivePayload P clock frame).2 ∧
          AgreeButCurrent ((s.withWindows w v).receivePayload P clock frame).1
            ((s.withWindows w' v).receivePayload P clock frame).1) ∧
      (frame.header.messageType = MessageType.rekeyInit → s.Admits frame → ∀ w v,
        (s.withWindows w v).receivePayload P clock frame =
          (s.withWindows w v,
            .error (Sentinel.invalidEpoch.wrap "rekey from previous epoch")))) := by
  by_cases hadmits : s.Admits frame
  · refine ⟨fun h => ?_, fun ⟨plaintext, hopen⟩ => ?_, fun h => ⟨?_, fun htype _ => ?_⟩⟩
    · obtain ⟨err, herr, hvalid⟩ := decryptEpochLocked_of_unauthenticated P clock hsequence h
      refine ⟨err, fun w v => ?_, fun _ => hvalid⟩
      exact receivePayload_of_decrypt_error ((withWindows_admits_iff w v).mpr hadmits)
        (herr w v)
    · exact receivePayload_agreeButPrevious P clock hadmits hopen
    · exact receivePayload_agreeButCurrent P clock hadmits h
    · exact receivePayload_previous_rekey P clock hadmits h htype
  · -- the header and the closed flag decide
    obtain ⟨err, hrefused⟩ := receivePayload_of_not_admits hadmits
    have herr (w v : ReplayWindow) : (s.withWindows w v).receivePayload P clock frame =
        (s.withWindows w v, .error err) := hrefused (s.withWindows w v) rfl rfl
    refine ⟨fun _ => ⟨err, herr, fun h => absurd h hadmits⟩, fun _ w v v' => ?_,
      fun _ => ⟨fun w w' v => ?_, fun _ h => absurd h hadmits⟩⟩
    · rw [herr w v, herr w v']
      exact ⟨rfl, s, w, v, v', rfl, rfl⟩
    · rw [herr w v, herr w' v]
      exact ⟨rfl, s, w, w', v, rfl, rfl⟩

/-- A session within the grace of its previous key. -/
def graceSession : Session :=
  { initialSession cipherChaCha20Poly1305 sampleSecrets ⟨sampleSecrets.sendKey⟩
      ⟨sampleSecrets.receiveKey⟩ 0 with
    receiveEpoch := 2
    previousReceive := some ⟨counterKey 7⟩
    graceRemaining := 1
    graceUntil := 10 }

/-- A frame to that session, sealed under a given key. -/
def graceFrame (messageType : MessageType) (key : Key) : Frame :=
  Packet.frame transparent ⟨messageType, sampleSecrets.sessionID, 1, [1], []⟩ key

/-- A frame of an unknown key fails its authentication, and a `RekeyInit` of the previous
key is a rollback, for all contents of the windows. -/
theorem receive_no_replay_oracle_grace :
    (∀ w v, (graceSession.withWindows w v).receivePayload transparent ⟨0, 0, 0⟩
        (graceFrame MessageType.pingPong (counterKey 8)) =
      (graceSession.withWindows w v, .error Sentinel.authentication.bare)) ∧
    ∀ w v, (graceSession.withWindows w v).receivePayload transparent ⟨0, 0, 0⟩
        (graceFrame MessageType.rekeyInit (counterKey 7)) =
      (graceSession.withWindows w v,
        .error (Sentinel.invalidEpoch.wrap "rekey from previous epoch")) := by
  have hrefused (key key' : Key) (messageType : MessageType) (err : Error)
      (h : Codec.decrypt transparent ⟨key⟩ (graceFrame messageType key') = .error err) :
      ¬ Codec.Authenticates transparent ⟨key⟩ (graceFrame messageType key') := by
    rintro ⟨plaintext, hopen⟩
    rw [h] at hopen
    cases hopen
  constructor
  · obtain ⟨hunknown, _, _⟩ := receive_no_replay_oracle transparent ⟨0, 0, 0⟩ graceSession
      (graceFrame MessageType.pingPong (counterKey 8)) (by decide)
    obtain ⟨err, herr, hauth⟩ := hunknown (by
      constructor
      · exact hrefused _ _ _ Sentinel.authentication.bare rfl
      · intro codec hcodec
        obtain rfl := Option.some.inj hcodec
        exact hrefused _ _ _ Sentinel.authentication.bare rfl)
    rw [hauth ⟨rfl, rfl, by decide, rfl, by decide⟩ ⟨rfl, rfl⟩] at herr
    exact herr
  · obtain ⟨_, _, hprevious⟩ := receive_no_replay_oracle transparent ⟨0, 0, 0⟩ graceSession
      (graceFrame MessageType.rekeyInit (counterKey 7)) (by decide)
    apply (hprevious _).2 rfl ⟨rfl, rfl, by decide, rfl, by decide⟩
    constructor
    · exact hrefused _ _ _ Sentinel.authentication.bare rfl
    · exact ⟨⟨counterKey 7⟩, rfl, [1], rfl⟩

end Session

end DgProto
