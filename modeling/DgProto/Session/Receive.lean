import DgProto.Session.State

/-!
# Receiving

`ReceivePayload` authenticates a frame under the current key, or under the
previous key while its grace lasts, checks the sequence number against the window
of the key that authenticated it, and only then changes the state: the replay
window moves, and for a `RekeyInit` the key, epoch, windows and grace move with it.

`receivePayload_cases` lists everything the method can do.  In particular the
state changes only when the call succeeds, and the commit of a window that was
just checked never fails (`decryptEpochLocked_commit`).
-/

namespace DgProto

open Library Wire Crypto Replay

/-- The clock readings that one receive call can take, by the place that takes
them. -/
structure ReceiveClock where
  /-- Read by `decryptEpochLocked` to decide whether the previous key is usable. -/
  available : Time
  /-- Read when a grace period starts. -/
  graceStart : Time
  /-- Read by `expireGraceLocked`. -/
  expire : Time
  deriving DecidableEq

/-- `receiveCandidate`: an authenticated plaintext that is not yet committed. -/
structure ReceiveCandidate where
  plaintext : List UInt8
  current : Bool
  token : ReplayToken
  deriving DecidableEq

namespace Session

/-- The previous codec while both of its grace budgets last. -/
def previousAvailable (s : Session) (now : Time) : Option Codec :=
  if 0 < s.graceRemaining ∧ 0 < s.gracePeriod ∧ now < s.graceUntil then s.previousReceive
  else none

/-- `decryptEpochLocked`. -/
def decryptEpochLocked (P : Primitives) (clock : ReceiveClock) (s : Session) (frame : Frame) :
    Except Error ReceiveCandidate :=
  if frame.header.sequence = 0 then
    .error Sentinel.replayZero.bare
  else
    match s.receive.decrypt P frame with
    | .ok plaintext =>
        match s.replay.check frame.header.sequence with
        | .error err => .error err
        | .ok token => .ok ⟨plaintext, true, token⟩
    | .error err =>
        if ¬ err.is .authentication then
          .error err
        else
          match s.previousAvailable clock.available with
          | none => .error Sentinel.authentication.bare
          | some previous =>
              match previous.decrypt P frame with
              | .ok plaintext =>
                  if frame.header.messageType = MessageType.rekeyInit then
                    .ok ⟨plaintext, false, ReplayToken.zero⟩
                  else
                    match s.previousReplay.check frame.header.sequence with
                    | .error err => .error err
                    | .ok token => .ok ⟨plaintext, false, token⟩
              | .error err =>
                  if ¬ err.is .authentication then .error err
                  else .error Sentinel.authentication.bare

/-- `prepareRekeyLocked`; `hmac.Equal` compares the two values. -/
def prepareRekeyLocked (P : Primitives) (s : Session) (init : RekeyInit) :
    Except Error (Key × Codec) :=
  if s.receiveEpoch = 0xFFFFFFFF then
    .error Sentinel.epochExhausted.bare
  else if init.epoch ≠ s.receiveEpoch + 1 then
    .error (Sentinel.invalidEpoch.wrap s!"got {init.epoch}, want {s.receiveEpoch + 1}")
  else
    match RekeyState.computeKeyConfirm P ⟨s.receiveEpoch⟩ s.receiveKey.val init.epoch with
    | .error err => .error err
    | .ok expected =>
        if expected ≠ init.keyConfirm then
          .error Sentinel.keyConfirmFailed.bare
        else
          let nextKey := deriveNextTrafficKey P s.receiveKey
          match newCodec P s.suite nextKey.val with
          | .error err => .error err
          | .ok nextCodec => .ok (nextKey, nextCodec)

/-- `expireGraceLocked`. -/
def expireGraceLocked (s : Session) (now : Time) : Session :=
  if s.previousReceive = none then
    s
  else if s.graceRemaining = 0 ∨ s.gracePeriod ≤ 0 ∨ ¬ now < s.graceUntil then
    { s with
      previousReceive := none
      previousReplay := ReplayWindow.zero
      graceRemaining := 0
      graceUntil := zeroTime }
  else
    s

/-- The receive state after an accepted `RekeyInit`. -/
def commitRekey (s : Session) (clock : ReceiveClock) (committedReplay : ReplayWindow)
    (nextKey : Key) (nextCodec : Codec) (epoch : UInt32) : Session :=
  expireGraceLocked
    { s with
      previousReceive := some s.receive
      previousReplay := committedReplay
      receive := nextCodec
      receiveKey := nextKey
      receiveEpoch := epoch
      replay := ReplayWindow.zero
      graceRemaining := s.graceFrames
      graceUntil := clock.graceStart + s.gracePeriod } clock.expire

/-- The receive state after another accepted frame of the current epoch. -/
def commitCurrent (s : Session) (clock : ReceiveClock) (committedReplay : ReplayWindow) :
    Session :=
  if s.previousReceive = none then
    { s with replay := committedReplay }
  else
    expireGraceLocked
      { s with
        replay := committedReplay
        graceRemaining := if 0 < s.graceRemaining then s.graceRemaining - 1
          else s.graceRemaining } clock.expire

/-- What `ReceivePayload` does with an authenticated candidate. -/
def settle (P : Primitives) (clock : ReceiveClock) (s : Session) (frame : Frame)
    (candidate : ReceiveCandidate) : Session × Except Error (List UInt8) :=
  if ¬ candidate.current ∧ frame.header.messageType = MessageType.rekeyInit then
    (s, .error (Sentinel.invalidEpoch.wrap "rekey from previous epoch"))
  else if candidate.current ∧ frame.header.messageType = MessageType.rekeyInit then
    match RekeyInit.unmarshalBinary candidate.plaintext with
    | .error err => (s, .error err)
    | .ok init =>
        match s.prepareRekeyLocked P init with
        | .error err => (s, .error err)
        | .ok (nextKey, nextCodec) =>
            match s.replay.commit candidate.token with
            | (_, .error err) => (s, .error err)
            | (committedReplay, .ok ()) =>
                (s.commitRekey clock committedReplay nextKey nextCodec init.epoch,
                  .ok candidate.plaintext)
  else if candidate.current then
    match s.replay.commit candidate.token with
    | (_, .error err) => (s, .error err)
    | (committedReplay, .ok ()) =>
        (s.commitCurrent clock committedReplay, .ok candidate.plaintext)
  else
    match s.previousReplay.commit candidate.token with
    | (_, .error err) => (s, .error err)
    | (committedReplay, .ok ()) =>
        ({ s with previousReplay := committedReplay }, .ok candidate.plaintext)

/-- `ReceivePayload`. -/
def receivePayload (P : Primitives) (clock : ReceiveClock) (s : Session) (frame : Frame) :
    Session × Except Error (List UInt8) :=
  if frame.header.messageType = MessageType.resumptionTicket then
    (s, .error (Sentinel.messageType.wrap
      ("0x" ++ hex02 frame.header.messageType.toNat ++ " is post-MVP")))
  else if frame.header.sessionID ≠ s.sessionID then
    (s, .error Sentinel.wrongSession.bare)
  else if ¬ validSessionMessageType frame.header.messageType then
    (s, .error (Sentinel.messageType.wrap ("0x" ++ hex02 frame.header.messageType.toNat)))
  else if s.closed then
    (s, .error Sentinel.sessionClosed.bare)
  else
    match s.decryptEpochLocked P clock frame with
    | .error err => (s, .error err)
    | .ok candidate => s.settle P clock frame candidate

/-- `Receive`. -/
def receiveMessage (P : Primitives) (clock : ReceiveClock) (s : Session) (frame : Frame) :
    Session × Except Error Message :=
  match s.receivePayload P clock frame with
  | (s, .error err) => (s, .error err)
  | (s, .ok plaintext) =>
      match newInboundMessage frame.header.messageType with
      | .error err => (s, .error err)
      | .ok kind =>
          match kind.unmarshalBinary plaintext with
          | .error err => (s, .error err)
          | .ok message => (s, .ok message)

/-- Expiring the grace of the previous key touches nothing else. -/
theorem expireGraceLocked_cases (s : Session) (now : Time) :
    s.expireGraceLocked now = s ∨
      s.expireGraceLocked now =
        { s with
          previousReceive := none
          previousReplay := ReplayWindow.zero
          graceRemaining := 0
          graceUntil := zeroTime } := by
  unfold expireGraceLocked
  split_ifs
  · exact .inl rfl
  · exact .inr rfl
  · exact .inl rfl

/-- The current key after another frame of its epoch: only its window moved. -/
theorem commitCurrent_current (s : Session) (clock : ReceiveClock) (window : ReplayWindow) :
    (s.commitCurrent clock window).closed = s.closed ∧
      (s.commitCurrent clock window).suite = s.suite ∧
      (s.commitCurrent clock window).sessionID = s.sessionID ∧
      (s.commitCurrent clock window).receiveEpoch = s.receiveEpoch ∧
      (s.commitCurrent clock window).receiveKey = s.receiveKey ∧
      (s.commitCurrent clock window).receive = s.receive ∧
      (s.commitCurrent clock window).replay = window := by
  unfold commitCurrent
  by_cases hnone : s.previousReceive = none
  · rw [if_pos hnone]
    exact ⟨rfl, rfl, rfl, rfl, rfl, rfl, rfl⟩
  · rw [if_neg hnone]
    rcases expireGraceLocked_cases _ clock.expire with heq | heq <;> rw [heq] <;>
      exact ⟨rfl, rfl, rfl, rfl, rfl, rfl, rfl⟩

/-- The current key after a `RekeyInit`: the next one, with an empty window. -/
theorem commitRekey_current (s : Session) (clock : ReceiveClock) (window : ReplayWindow)
    (nextKey : Key) (nextCodec : Codec) (epoch : UInt32) :
    (s.commitRekey clock window nextKey nextCodec epoch).closed = s.closed ∧
      (s.commitRekey clock window nextKey nextCodec epoch).suite = s.suite ∧
      (s.commitRekey clock window nextKey nextCodec epoch).sessionID = s.sessionID ∧
      (s.commitRekey clock window nextKey nextCodec epoch).receiveEpoch = epoch ∧
      (s.commitRekey clock window nextKey nextCodec epoch).receiveKey = nextKey ∧
      (s.commitRekey clock window nextKey nextCodec epoch).receive = nextCodec ∧
      (s.commitRekey clock window nextKey nextCodec epoch).replay = ReplayWindow.zero := by
  unfold commitRekey
  rcases expireGraceLocked_cases _ clock.expire with heq | heq <;> rw [heq] <;>
    exact ⟨rfl, rfl, rfl, rfl, rfl, rfl, rfl⟩

/-! ## What a receive can do -/

/-- The checks in front of decryption. -/
structure Admits (s : Session) (frame : Frame) : Prop where
  isOpen : s.closed = false
  sessionID : frame.header.sessionID = s.sessionID
  notTicket : frame.header.messageType ≠ MessageType.resumptionTicket
  validType : validSessionMessageType frame.header.messageType = true
  sequence : frame.header.sequence ≠ 0

section Admitted

variable {P : Primitives} {clock : ReceiveClock} {s : Session} {frame : Frame}

/-- A frame that the session does not admit is refused by its header, the session ID and
the closed flag; nothing else of the state takes part. -/
theorem receivePayload_of_not_admits (h : ¬ s.Admits frame) :
    ∃ err, ∀ t : Session, t.sessionID = s.sessionID → t.closed = s.closed →
      t.receivePayload P clock frame = (t, .error err) := by
  by_cases hticket : frame.header.messageType = MessageType.resumptionTicket
  · exact ⟨_, fun t _ _ => if_pos hticket⟩
  by_cases hsession : frame.header.sessionID = s.sessionID
  swap
  · refine ⟨Sentinel.wrongSession.bare, fun t hid _ => ?_⟩
    rw [receivePayload, if_neg hticket, if_pos (by rwa [hid])]
  by_cases hvalid : validSessionMessageType frame.header.messageType = true
  swap
  · refine ⟨Sentinel.messageType.wrap ("0x" ++ hex02 frame.header.messageType.toNat),
      fun t hid _ => ?_⟩
    rw [receivePayload, if_neg hticket, if_neg (by rwa [hid, not_not]), if_pos hvalid]
  by_cases hclosed : s.closed = true
  · refine ⟨Sentinel.sessionClosed.bare, fun t hid hsame => ?_⟩
    rw [receivePayload, if_neg hticket, if_neg (by rwa [hid, not_not]),
      if_neg (not_not.mpr hvalid), if_pos (by rwa [hsame])]
  by_cases hsequence : frame.header.sequence = 0
  · refine ⟨Sentinel.replayZero.bare, fun t hid hsame => ?_⟩
    have hzero : t.decryptEpochLocked P clock frame = .error Sentinel.replayZero.bare :=
      if_pos hsequence
    rw [receivePayload, if_neg hticket, if_neg (by rwa [hid, not_not]),
      if_neg (not_not.mpr hvalid), if_neg (by rwa [hsame]), hzero]
  · exact absurd ⟨Bool.eq_false_iff.mpr hclosed, hsession, hticket, hvalid, hsequence⟩ h

/-- An error of the decryption is the error of the call. -/
theorem receivePayload_of_decrypt_error {err : Error} (hadmits : s.Admits frame)
    (h : s.decryptEpochLocked P clock frame = .error err) :
    s.receivePayload P clock frame = (s, .error err) := by
  unfold receivePayload
  simp only [hadmits.notTicket, hadmits.sessionID, hadmits.validType, hadmits.isOpen, h,
    ne_eq, not_true_eq_false, if_false, Bool.false_eq_true]

/-- Behind the checks and the decryption, the candidate decides. -/
theorem receivePayload_of_candidate {candidate : ReceiveCandidate} (hadmits : s.Admits frame)
    (h : s.decryptEpochLocked P clock frame = .ok candidate) :
    s.receivePayload P clock frame = s.settle P clock frame candidate := by
  unfold receivePayload
  rw [if_neg hadmits.notTicket, if_neg (not_not.mpr hadmits.sessionID),
    if_neg (not_not.mpr hadmits.validType), if_neg (by simp [hadmits.isOpen]), h]

/-- The commit of a window that was just checked. -/
theorem commit_eq_of_check {window : ReplayWindow} {sequence : UInt64} {token : ReplayToken}
    (h : window.check sequence = .ok token) :
    window.commit token = ((window.commit token).1, .ok ()) :=
  Prod.ext rfl (commit_of_check h).2

end Admitted

end Session

open Session

/-- The possible outcomes of receiving `frame`. -/
inductive ReceiveCase (P : Primitives) (clock : ReceiveClock) (s : Session) (frame : Frame) :
    Session × Except Error (List UInt8) → Prop where
  /-- Nothing changed. -/
  | rejected (err : Error) : ReceiveCase P clock s frame (s, .error err)
  /-- A valid announcement of the next epoch under the current key. -/
  | rekey (plaintext : List UInt8) (init : RekeyInit) (nextKey : Key) (nextCodec : Codec)
      (window : ReplayWindow) (hadmits : s.Admits frame)
      (htype : frame.header.messageType = MessageType.rekeyInit)
      (hopen : s.receive.decrypt P frame = .ok plaintext)
      (hrecords : Records s.replay frame.header.sequence window)
      (hinit : RekeyInit.unmarshalBinary plaintext = .ok init)
      (hprepare : s.prepareRekeyLocked P init = .ok (nextKey, nextCodec)) :
      ReceiveCase P clock s frame
        (s.commitRekey clock window nextKey nextCodec init.epoch, .ok plaintext)
  /-- Any other frame under the current key. -/
  | current (plaintext : List UInt8) (window : ReplayWindow) (hadmits : s.Admits frame)
      (htype : frame.header.messageType ≠ MessageType.rekeyInit)
      (hopen : s.receive.decrypt P frame = .ok plaintext)
      (hrecords : Records s.replay frame.header.sequence window) :
      ReceiveCase P clock s frame (s.commitCurrent clock window, .ok plaintext)
  /-- A frame under the previous key, within its grace. -/
  | previous (plaintext : List UInt8) (codec : Codec) (window : ReplayWindow)
      (hadmits : s.Admits frame)
      (htype : frame.header.messageType ≠ MessageType.rekeyInit)
      (hprevious : s.previousAvailable clock.available = some codec)
      (hopen : codec.decrypt P frame = .ok plaintext)
      (hrecords : Records s.previousReplay frame.header.sequence window) :
      ReceiveCase P clock s frame ({ s with previousReplay := window }, .ok plaintext)

namespace Session

variable (P : Primitives) (clock : ReceiveClock) {s : Session} {frame : Frame}

/-- A candidate was authenticated by the key it names, and its token comes from a
check of that key's window. -/
theorem decryptEpochLocked_eq_ok {candidate : ReceiveCandidate}
    (h : s.decryptEpochLocked P clock frame = .ok candidate) :
    frame.header.sequence ≠ 0 ∧
      ((candidate.current = true ∧ s.receive.decrypt P frame = .ok candidate.plaintext ∧
          s.replay.check frame.header.sequence = .ok candidate.token) ∨
        (candidate.current = false ∧
          ∃ codec, s.previousAvailable clock.available = some codec ∧
            codec.decrypt P frame = .ok candidate.plaintext ∧
            (frame.header.messageType ≠ MessageType.rekeyInit →
              s.previousReplay.check frame.header.sequence = .ok candidate.token))) := by
  unfold decryptEpochLocked at h
  by_cases hzero : frame.header.sequence = 0
  · simp [hzero] at h
  refine ⟨hzero, ?_⟩
  rw [if_neg hzero] at h
  cases hcurrent : s.receive.decrypt P frame with
  | ok plaintext =>
      cases hcheck : s.replay.check frame.header.sequence with
      | error err => simp [hcurrent, hcheck] at h
      | ok token =>
          simp only [hcurrent, hcheck, Except.ok.injEq] at h
          subst h
          exact .inl ⟨rfl, rfl, rfl⟩
  | error err =>
      by_cases hauth : err.is .authentication
      swap
      · simp [hcurrent, hauth] at h
      simp only [hcurrent, hauth, not_true_eq_false, if_false] at h
      cases hprevious : s.previousAvailable clock.available with
      | none => simp [hprevious] at h
      | some codec =>
          cases hopen : codec.decrypt P frame with
          | error err =>
              simp only [hprevious, hopen] at h
              split_ifs at h
          | ok plaintext =>
              simp only [hprevious, hopen] at h
              by_cases htype : frame.header.messageType = MessageType.rekeyInit
              · simp only [htype, if_true, Except.ok.injEq] at h
                subst h
                exact .inr ⟨rfl, codec, rfl, hopen, fun hne => absurd htype hne⟩
              · rw [if_neg htype] at h
                cases hcheck : s.previousReplay.check frame.header.sequence with
                | error err => simp [hcheck] at h
                | ok token =>
                    simp only [hcheck, Except.ok.injEq] at h
                    subst h
                    exact .inr ⟨rfl, codec, rfl, hopen, fun _ => rfl⟩

theorem decryptEpochLocked_of_current {plaintext : List UInt8} {token : ReplayToken}
    (hsequence : frame.header.sequence ≠ 0)
    (hopen : s.receive.decrypt P frame = .ok plaintext)
    (hcheck : s.replay.check frame.header.sequence = .ok token) :
    s.decryptEpochLocked P clock frame = .ok ⟨plaintext, true, token⟩ := by
  simp only [decryptEpochLocked, hsequence, if_false, hopen, hcheck]

/-- A fresh frame under the current key is accepted. -/
theorem receivePayload_of_current (s : Session) {frame : Frame} {plaintext : List UInt8}
    {token : ReplayToken} (hadmits : s.Admits frame)
    (hopen : s.receive.decrypt P frame = .ok plaintext)
    (hcheck : s.replay.check frame.header.sequence = .ok token)
    (htype : frame.header.messageType ≠ MessageType.rekeyInit) :
    s.receivePayload P clock frame =
      (s.commitCurrent clock (s.replay.commit token).1, .ok plaintext) := by
  rw [receivePayload_of_candidate hadmits
    (decryptEpochLocked_of_current P clock hadmits.sequence hopen hcheck)]
  simp only [settle, htype, and_false, if_false, if_true]
  rw [commit_eq_of_check hcheck]

/-- The sender's own announcement of the next epoch is prepared. -/
theorem prepareRekeyLocked_of_confirmation {s : Session} (hfirst : s.receiveEpoch ≠ 0)
    (hlast : s.receiveEpoch ≠ 0xFFFFFFFF) {nextCodec : Codec}
    (hcodec : newCodec P s.suite (deriveNextTrafficKey P s.receiveKey).val = .ok nextCodec) :
    s.prepareRekeyLocked P
        ⟨s.receiveEpoch + 1, confirmation P s.receiveKey.val (s.receiveEpoch + 1)⟩ =
      .ok (deriveNextTrafficKey P s.receiveKey, nextCodec) := by
  simp [prepareRekeyLocked, hlast, RekeyState.computeKeyConfirm_succ P hfirst hlast, hcodec]

/-- A fresh and confirmed announcement of the next epoch is accepted. -/
theorem receivePayload_of_rekey (s : Session) {frame : Frame} {plaintext : List UInt8}
    {token : ReplayToken} {init : RekeyInit} {nextKey : Key} {nextCodec : Codec}
    (hadmits : s.Admits frame) (hopen : s.receive.decrypt P frame = .ok plaintext)
    (hcheck : s.replay.check frame.header.sequence = .ok token)
    (htype : frame.header.messageType = MessageType.rekeyInit)
    (hinit : RekeyInit.unmarshalBinary plaintext = .ok init)
    (hprepare : s.prepareRekeyLocked P init = .ok (nextKey, nextCodec)) :
    s.receivePayload P clock frame =
      (s.commitRekey clock (s.replay.commit token).1 nextKey nextCodec init.epoch,
        .ok plaintext) := by
  rw [receivePayload_of_candidate hadmits
    (decryptEpochLocked_of_current P clock hadmits.sequence hopen hcheck)]
  simp only [settle, htype, hinit, hprepare, not_true_eq_false, false_and, true_and, if_false,
    if_true]
  rw [commit_eq_of_check hcheck]

/-- What becomes of an authenticated candidate is one of the listed cases. -/
theorem settle_cases {candidate : ReceiveCandidate} (hadmits : s.Admits frame)
    (h : s.decryptEpochLocked P clock frame = .ok candidate) :
    ReceiveCase P clock s frame (s.settle P clock frame candidate) := by
  obtain ⟨_, hcandidate⟩ := decryptEpochLocked_eq_ok P clock h
  unfold settle
  by_cases htype : frame.header.messageType = MessageType.rekeyInit
  · rcases hcandidate with ⟨hcurrent, hopen, hcheck⟩ | ⟨hprevious, -⟩
    · simp only [hcurrent, htype, not_true_eq_false, false_and, true_and, if_false, if_true]
      cases hinit : RekeyInit.unmarshalBinary candidate.plaintext with
      | error err => exact .rejected err
      | ok init =>
          cases hprepare : s.prepareRekeyLocked P init with
          | error err =>
              simp only [hprepare]
              exact .rejected err
          | ok next =>
              obtain ⟨nextKey, nextCodec⟩ := next
              have hrecords := commit_eq_of_check hcheck
              simp only [hprepare]
              rw [hrecords]
              exact .rekey candidate.plaintext init nextKey nextCodec _ hadmits htype
                hopen ⟨_, hcheck, hrecords⟩ hinit hprepare
    · simp only [hprevious, htype, Bool.false_eq_true, not_false_eq_true, true_and, if_true]
      exact .rejected _
  · simp only [htype, and_false, if_false]
    rcases hcandidate with ⟨hcurrent, hopen, hcheck⟩ | ⟨hprevious, codec, havailable, hopen,
      hcheck⟩
    · have hrecords := commit_eq_of_check hcheck
      simp only [hcurrent, if_true]
      rw [hrecords]
      exact .current candidate.plaintext _ hadmits htype hopen ⟨_, hcheck, hrecords⟩
    · have hrecords := commit_eq_of_check (hcheck htype)
      simp only [hprevious, Bool.false_eq_true, if_false]
      rw [hrecords]
      exact .previous candidate.plaintext codec _ hadmits htype havailable hopen
        ⟨_, hcheck htype, hrecords⟩

/-- The outcome of a receive is one of the listed cases. -/
theorem receivePayload_cases (s : Session) (frame : Frame) :
    ReceiveCase P clock s frame (s.receivePayload P clock frame) := by
  by_cases hadmits : s.Admits frame
  · cases hdecrypt : s.decryptEpochLocked P clock frame with
    | error err =>
        rw [receivePayload_of_decrypt_error hadmits hdecrypt]
        exact .rejected err
    | ok candidate =>
        rw [receivePayload_of_candidate hadmits hdecrypt]
        exact settle_cases P clock hadmits hdecrypt
  · obtain ⟨err, herr⟩ := receivePayload_of_not_admits hadmits
    rw [herr s rfl rfl]
    exact .rejected err

end Session

end DgProto
