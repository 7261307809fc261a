import DgProto.Session.Run

/-!
# Frames in flight

What a receiver has to read, one frame after the other, to catch up with a sender.
A flight starts at a receive epoch, a receive key and the highest sequence number
accepted so far, and follows the frames: a message raises the number, a `RekeyInit`
moves to the next epoch and key.  Where it ends is a parameter.

A sender extends the flight at its end with every call (`Flight.step`), and a
receiver that stands at its start accepts its first frame and then stands at the
start of the rest (`Flight.deliver`).
-/

namespace DgProto

open Library Wire Crypto Replay

/-- The frames `sent` lead from an epoch, a key and a highest number to a point
where `End` holds. -/
inductive Flight (P : Primitives) (sessionID : Octets 16)
    (End : UInt32 → Key → Nat → Prop) : UInt32 → Key → Nat → List Emission → Prop where
  | arrived {epoch : UInt32} {key : Key} {floor : Nat} (h : End epoch key floor) :
      Flight P sessionID End epoch key floor []
  | message {epoch : UInt32} {key : Key} {floor : Nat} {e : Emission} {rest : List Emission}
      (p : Packet) (hsend : p.Sendable) (hsession : p.sessionID = sessionID)
      (htype : p.messageType ≠ MessageType.rekeyInit) (hfloor : floor < p.sequence.toNat)
      (hframe : e.frame = p.frame P key) (hplaintext : e.plaintext = p.plaintext)
      (hrest : Flight P sessionID End epoch key p.sequence.toNat rest) :
      Flight P sessionID End epoch key floor (e :: rest)
  | rekey {epoch : UInt32} {key : Key} {floor : Nat} {e : Emission} {rest : List Emission}
      (p : Packet) (hsend : p.Sendable) (hsession : p.sessionID = sessionID)
      (htype : p.messageType = MessageType.rekeyInit) (hfloor : floor < p.sequence.toNat)
      (hframe : e.frame = p.frame P key) (hplaintext : e.plaintext = p.plaintext)
      (hfirst : epoch ≠ 0) (hlast : epoch ≠ 0xFFFFFFFF)
      (hinit : RekeyInit.marshalBinary ⟨epoch + 1, confirmation P key.val (epoch + 1)⟩ =
        .ok p.plaintext)
      (hcodec : newCodec P cipherChaCha20Poly1305 (deriveNextTrafficKey P key).val =
        .ok ⟨deriveNextTrafficKey P key⟩)
      (hrest : Flight P sessionID End (epoch + 1) (deriveNextTrafficKey P key) 0 rest) :
      Flight P sessionID End epoch key floor (e :: rest)

/-! ## The sender's end -/

/-- The point at which a receiver has read everything that `a` sent. -/
def CaughtUp (a : Session) (epoch : UInt32) (key : Key) (floor : Nat) : Prop :=
  match a.pendingRekey with
  | none => epoch = a.sendEpoch ∧ key = a.sendKey ∧
      (a.nextSequence = 0 ∨ floor < a.nextSequence.toNat)
  | some pending => epoch = pending.epoch ∧ key = pending.key ∧ floor = 0

namespace Flight

variable {P : Primitives} {sessionID : Octets 16} {End End' : UInt32 → Key → Nat → Prop}
  {epoch : UInt32} {key : Key} {floor : Nat} {sent extra : List Emission}

/-- A flight whose every end continues is extended at its end. -/
theorem extend (h : Flight P sessionID End epoch key floor sent)
    (hend : ∀ epoch key floor, End epoch key floor →
      Flight P sessionID End' epoch key floor extra) :
    Flight P sessionID End' epoch key floor (sent ++ extra) := by
  induction h with
  | arrived h => exact hend _ _ _ h
  | message p hsend hsession htype hfloor hframe hplaintext _ ih =>
      exact .message p hsend hsession htype hfloor hframe hplaintext ih
  | rekey p hsend hsession htype hfloor hframe hplaintext hfirst hlast hinit hcodec _ ih =>
      exact .rekey p hsend hsession htype hfloor hframe hplaintext hfirst hlast hinit hcodec ih

theorem of_nil (h : Flight P sessionID End epoch key floor []) : End epoch key floor := by
  cases h with
  | arrived h => exact h

end Flight

/-- This epoch, this key and this number. -/
def At (epoch : UInt32) (key : Key) (floor : Nat) : UInt32 → Key → Nat → Prop :=
  fun epoch' key' floor' => epoch' = epoch ∧ key' = key ∧ floor' = floor

namespace Flight

variable {P : Primitives} {sessionID : Octets 16} {End : UInt32 → Key → Nat → Prop}
  {epoch epoch' : UInt32} {key key' : Key} {floor floor' : Nat} {sent rest : List Emission}
  {e : Emission}

/-- The first frame of a flight leads to where the others start. -/
theorem first (h : Flight P sessionID End epoch key floor (e :: rest)) :
    ∃ epoch' key' floor', Flight P sessionID (At epoch' key' floor') epoch key floor [e] ∧
      Flight P sessionID End epoch' key' floor' rest := by
  cases h with
  | message p hsend hsession htype hfloor hframe hplaintext hrest =>
      exact ⟨epoch, key, p.sequence.toNat, .message p hsend hsession htype hfloor hframe hplaintext
        (.arrived ⟨rfl, rfl, rfl⟩), hrest⟩
  | rekey p hsend hsession htype hfloor hframe hplaintext hfirst hlast hinit hcodec hrest =>
      exact ⟨epoch + 1, deriveNextTrafficKey P key, 0, .rekey p hsend hsession htype hfloor hframe
        hplaintext hfirst hlast hinit hcodec (.arrived ⟨rfl, rfl, rfl⟩), hrest⟩

/-- The frames alone decide where a part of a flight ends. -/
theorem split (h : Flight P sessionID (At epoch' key' floor') epoch key floor sent)
    (hall : Flight P sessionID End epoch key floor (sent ++ rest)) :
    Flight P sessionID End epoch' key' floor' rest := by
  induction h with
  | arrived hat =>
      obtain ⟨rfl, rfl, rfl⟩ := hat
      exact hall
  | message p _ _ htype _ hframe _ _ ih =>
      cases hall with
      | message p' _ _ _ _ hframe' _ hrest =>
          have hsequence : p'.sequence = p.sequence :=
            congrArg (fun frame => frame.header.sequence) (hframe'.symm.trans hframe)
          rw [hsequence] at hrest
          exact ih hrest
      | rekey p' _ _ htype' _ hframe' =>
          have hkind : p'.messageType = p.messageType :=
            congrArg (fun frame => frame.header.messageType) (hframe'.symm.trans hframe)
          exact absurd (hkind.symm.trans htype') htype
  | rekey p _ _ htype _ hframe _ _ _ _ _ _ ih =>
      cases hall with
      | message p' _ _ htype' _ hframe' =>
          have hkind : p'.messageType = p.messageType :=
            congrArg (fun frame => frame.header.messageType) (hframe'.symm.trans hframe)
          exact absurd (hkind.trans htype) htype'
      | rekey _ _ _ _ _ _ _ _ _ _ _ hrest => exact ih hrest

/-- The rest of a flight is a flight. -/
theorem drop (h : Flight P sessionID End epoch key floor (sent ++ rest)) :
    ∃ epoch' key' floor', Flight P sessionID End epoch' key' floor' rest := by
  induction sent generalizing epoch key floor with
  | nil => exact ⟨epoch, key, floor, h⟩
  | cons e sent ih =>
      obtain ⟨_, _, _, -, hrest⟩ := h.first
      exact ih hrest

end Flight

section Sender

variable {P : Primitives} {a : Session} {epoch : UInt32} {key chainKey : Key} {floor : Nat}

theorem caughtUp_of_none (hnone : a.pendingRekey = none) :
    CaughtUp a epoch key floor ↔ epoch = a.sendEpoch ∧ key = a.sendKey ∧
      (a.nextSequence = 0 ∨ floor < a.nextSequence.toNat) := by
  simp [CaughtUp, hnone]

theorem caughtUp_of_some {pending : PendingSendRekey} (hsome : a.pendingRekey = some pending) :
    CaughtUp a epoch key floor ↔ epoch = pending.epoch ∧ key = pending.key ∧ floor = 0 := by
  simp [CaughtUp, hsome]

/-- A receiver that has read everything before a call has, after it, only the
emission of that call left to read. -/
theorem CaughtUp.step (hkeys : a.SendKeys P chainKey) (h : CaughtUp a epoch key floor)
    (call : SessionCall) :
    Flight P a.sessionID (CaughtUp (a.step P call).after) epoch key floor
      (a.step P call).emission.toList := by
  have hcase := Session.step_cases P a call
  generalize a.step P call = event at hcase ⊢
  cases hcase with
  | rejected => exact .arrived h
  | received frame clock after result _ _ hside =>
      simp only [Session.sendSide, Session.SendSide.mk.injEq] at hside
      obtain ⟨-, -, -, hsendKey, hepoch, hnext, -, -, hpending, -⟩ := hside
      have hemission : Event.emission ⟨a, call, after, [], result.map .payload⟩ = none := by
        cases result <;> rfl
      rw [hemission]
      refine .arrived ?_
      unfold CaughtUp at h ⊢
      rw [hpending, hepoch, hsendKey, hnext]
      exact h
  | closed => exact .arrived h
  | data p hemits hcount htype hasks =>
      obtain ⟨rfl, rfl, hfloor⟩ := (caughtUp_of_none hemits.notPending).mp h
      have hlt : floor < p.sequence.toNat := by
        rw [hemits.sequence]
        exact hfloor.resolve_left hemits.nextSequence_ne_zero
      refine .message p hemits.sendable hemits.sessionID htype hlt ?_ ?_ (.arrived ?_)
      · simp only [hkeys.codec]
      · simp [Packet.sealCall]
      · rw [caughtUp_of_none (a := a.advance) hemits.notPending]
        refine ⟨rfl, rfl, ?_⟩
        rw [Session.advance_nextSequence, hemits.sequence]
        rcases succSequence_eq_zero_or (n := a.nextSequence) with hzero | hsucc
        · exact .inl hzero
        · exact .inr (by omega)
  | rekey p hemits hfirst hlast htype hplaintext hcodec =>
      obtain ⟨rfl, rfl, hfloor⟩ := (caughtUp_of_none hemits.notPending).mp h
      have hlt : floor < p.sequence.toNat := by
        rw [hemits.sequence]
        exact hfloor.resolve_left hemits.nextSequence_ne_zero
      rw [hkeys.suite] at hcodec
      refine .rekey p hemits.sendable hemits.sessionID htype hlt ?_ ?_ hfirst hlast hplaintext
        hcodec (.arrived ?_)
      · simp only [hkeys.codec]
      · simp [Packet.sealCall]
      · exact (caughtUp_of_some rfl).mpr ⟨rfl, rfl, rfl⟩
  | rekeyLost p hemits err _ hcodec =>
      obtain ⟨rfl, rfl, hfloor⟩ := (caughtUp_of_none hemits.notPending).mp h
      have hlt := hfloor.resolve_left hemits.nextSequence_ne_zero
      refine .arrived ((caughtUp_of_none (a := a.advance) hemits.notPending).mpr
        ⟨rfl, rfl, ?_⟩)
      rw [Session.advance_nextSequence]
      rcases succSequence_eq_zero_or (n := a.nextSequence) with hzero | hsucc
      · exact .inl hzero
      · exact .inr (by omega)
  | marked pending now hcall hopen hpending =>
      obtain ⟨rfl, rfl, rfl⟩ := (caughtUp_of_some hpending).mp h
      exact .arrived ((caughtUp_of_none rfl).mpr ⟨rfl, rfl, .inr Nat.one_pos⟩)

/-- Every call of the sender extends the flight by what it emitted. -/
theorem Flight.step {sent : List Emission} (hkeys : a.SendKeys P chainKey)
    (h : Flight P a.sessionID (CaughtUp a) epoch key floor sent) (call : SessionCall) :
    Flight P a.sessionID (CaughtUp (a.step P call).after) epoch key floor
      (sent ++ (a.step P call).emission.toList) :=
  h.extend fun _ _ _ hend => hend.step hkeys call

end Sender

/-! ## The receiver's start -/

/-- The receiver stands at an epoch and a key, with no number above `floor` accepted. -/
structure Listening (b : Session) (sessionID : Octets 16) (epoch : UInt32) (key : Key)
    (floor : Nat) : Prop where
  isOpen : b.closed = false
  suite : b.suite = cipherChaCha20Poly1305
  session : b.sessionID = sessionID
  epoch_eq : b.receiveEpoch = epoch
  key_eq : b.receiveKey = key
  codec : b.receive = ⟨key⟩
  window : ∃ seen, Refines b.replay seen ∧ highestOf seen ≤ floor

section Receiver

variable {P : Primitives} {b : Session} {sessionID : Octets 16} {epoch : UInt32} {key : Key}
  {floor : Nat} {p : Packet}

/-- A sendable packet passes the checks in front of decryption. -/
theorem Listening.admits (h : Listening b sessionID epoch key floor) (hsend : p.Sendable)
    (hsession : p.sessionID = sessionID) : b.Admits (p.frame P key) := by
  obtain ⟨htype, hsequence, -⟩ := validateEncryptedHeader_eq_ok_iff.mp hsend.header
  simp only [not_or, UInt8.not_lt] at htype
  refine ⟨h.isOpen, hsession.trans h.session.symm, htype.2.2, ?_, hsequence⟩
  simp only [validSessionMessageType, Bool.and_eq_true, decide_eq_true_eq]
  exact ⟨htype.1, htype.2.1⟩

/-- A number above the floor is fresh, and becomes the floor. -/
theorem Listening.records (h : Listening b sessionID epoch key floor)
    (hfloor : floor < p.sequence.toNat) :
    ∃ token, b.replay.check p.sequence = .ok token ∧
      ∃ seen, Refines (b.replay.commit token).1 seen ∧ highestOf seen ≤ p.sequence.toNat := by
  obtain ⟨seen, hrefines, hhigh⟩ := h.window
  have hlt : highestOf seen < p.sequence.toNat := by omega
  obtain ⟨token, hcheck⟩ := check_of_lt hrefines hlt
  refine ⟨token, hcheck, insert p.sequence.toNat seen, ?_, ?_⟩
  · exact ((records_of_check hcheck).refines hrefines).2
  · rw [highestOf_insert]
    omega

/-- The receiver accepts the first frame of a flight, returns what was sent, and
then stands at the start of the rest. -/
theorem Flight.deliver {End : UInt32 → Key → Nat → Prop} {e : Emission} {rest : List Emission}
    (hopen : P.OpenInvertsSeal) (hb : Listening b sessionID epoch key floor)
    (h : Flight P sessionID End epoch key floor (e :: rest)) (clock : ReceiveClock) :
    (b.receivePayload P clock e.frame).2 = .ok e.plaintext ∧
      ∃ epoch' key' floor', Listening (b.receivePayload P clock e.frame).1 sessionID epoch' key'
          floor' ∧ Flight P sessionID End epoch' key' floor' rest := by
  cases h with
  | message p hsend hsession htype hfloor hframe hplaintext hrest =>
      obtain ⟨token, hcheck, hwindow⟩ := hb.records hfloor
      have hdecrypt : b.receive.decrypt P (p.frame P key) = .ok p.plaintext := by
        rw [hb.codec]
        exact Codec.decrypt_frame hopen hsend
      have hreceive := Session.receivePayload_of_current P clock b (hb.admits hsend hsession)
        hdecrypt hcheck htype
      obtain ⟨hclosed, hsuite, hid, hepoch, hkey, hcodec, hreplay⟩ :=
        b.commitCurrent_current clock (b.replay.commit token).1
      rw [hframe, hplaintext, hreceive]
      refine ⟨rfl, epoch, key, p.sequence.toNat, ?_, hrest⟩
      exact ⟨hclosed.trans hb.isOpen, hsuite.trans hb.suite, hid.trans hb.session,
        hepoch.trans hb.epoch_eq, hkey.trans hb.key_eq, hcodec.trans hb.codec,
        by rw [hreplay]; exact hwindow⟩
  | rekey p hsend hsession htype hfloor hframe hplaintext hfirst hlast hinit hnext hrest =>
      obtain ⟨token, hcheck, -⟩ := hb.records hfloor
      have hdecrypt : b.receive.decrypt P (p.frame P key) = .ok p.plaintext := by
        rw [hb.codec]
        exact Codec.decrypt_frame hopen hsend
      have hprepare : b.prepareRekeyLocked P ⟨epoch + 1, confirmation P key.val (epoch + 1)⟩ =
          .ok (deriveNextTrafficKey P key, ⟨deriveNextTrafficKey P key⟩) := by
        have hbEpoch := hb.epoch_eq
        have hbKey := hb.key_eq
        subst hbEpoch hbKey
        exact Session.prepareRekeyLocked_of_confirmation P hfirst hlast (hb.suite ▸ hnext)
      have hreceive := Session.receivePayload_of_rekey P clock b (hb.admits hsend hsession)
        hdecrypt hcheck htype (RekeyInit.unmarshalBinary_marshalBinary hinit) hprepare
      obtain ⟨hclosed, hsuite, hid, hepoch, hkey, hcodec, hreplay⟩ :=
        b.commitRekey_current clock (b.replay.commit token).1 (deriveNextTrafficKey P key)
          ⟨deriveNextTrafficKey P key⟩ (epoch + 1)
      rw [hframe, hplaintext, hreceive]
      refine ⟨rfl, epoch + 1, deriveNextTrafficKey P key, 0, ?_, hrest⟩
      exact ⟨hclosed.trans hb.isOpen, hsuite.trans hb.suite, hid.trans hb.session,
        hepoch, hkey, hcodec, ∅, by rw [hreplay]; exact refines_zero, by simp [highestOf]⟩

end Receiver

end DgProto
