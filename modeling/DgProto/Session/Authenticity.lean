import DgProto.Session.EpochAgreement

/-!
# Injective authenticity

Two sessions with crossed keys and an adversary between them who delivers to the
second whatever it likes: frames of the first in any order and any number of times,
the second's own frames, and forgeries.  Under an ideal AEAD every frame that the
second accepts is one that the first emitted, and no two acceptances match the same
epoch and sequence number.

The two replay windows carry the argument.  The current window holds the numbers
accepted in the current epoch, the retained one those of the epoch before, and no
other key can authenticate a frame; what falls out of both can never come back.
-/

namespace DgProto

open Library Wire Crypto Replay

/-! ## The network -/

/-- The frame and plaintext of a successful receive. -/
def Event.acceptance (event : Event) : Option (Frame × List UInt8) :=
  match event.call, event.result with
  | .receivePayload frame _, .ok (.payload plaintext) => some (frame, plaintext)
  | _, _ => none

/-- Two sessions, every call to `Seal` so far, the emissions of the first and the
acceptances of the second. -/
structure Network where
  a : Session
  b : Session
  log : List SealCall
  emitted : List Emission
  accepted : List (Frame × List UInt8)

/-- One call of either session.  A receive of the second is a delivery by the
adversary, of any frame at all. -/
inductive NetworkStep where
  | callA (call : SessionCall)
  | callB (call : SessionCall)

namespace Network

def start (a b : Session) : Network := ⟨a, b, [], [], []⟩

def step (P : Primitives) (net : Network) : NetworkStep → Network
  | .callA call =>
      let event := net.a.step P call
      { net with
        a := event.after
        log := net.log ++ event.calls
        emitted := net.emitted ++ event.emission.toList }
  | .callB call =>
      let event := net.b.step P call
      { net with
        b := event.after
        log := net.log ++ event.calls
        accepted := net.accepted ++ event.acceptance.toList }

def run (P : Primitives) (net : Network) (steps : List NetworkStep) : Network :=
  steps.foldl (step P) net

end Network

/-- Opening `frame` under the codec succeeds only on the output of an earlier `Seal`
with the same key, nonce and associated data. -/
def OpensOnlySealed (P : Primitives) (log : List SealCall) (codec : Codec) (frame : Frame) :
    Prop :=
  (P.openText codec.key (nonce frame.header.sequence) (frame.payload ++ frame.tag.val)
      (frame.header.octets ++ frame.padding)).isSome →
    ∃ call ∈ log, call.key = codec.key ∧ nonce call.sequence = nonce frame.header.sequence ∧
      call.aad = frame.header.octets ++ frame.padding ∧
      call.output P = frame.payload ++ frame.tag.val

/-- The AEAD is ideal along a run: it holds of every `Open` that a delivery to the
second session can make at that point. -/
def IdealAEAD (P : Primitives) : Network → List NetworkStep → Prop
  | _, [] => True
  | net, step :: steps =>
      (match step with
        | .callB (.receivePayload frame _) =>
            ∀ codec ∈ net.b.receive :: net.b.previousReceive.toList,
              OpensOnlySealed P net.log codec frame
        | _ => True) ∧
      IdealAEAD P (net.step P step) steps

/-! ## The receive side -/

namespace Session

/-- The fields that decide what is accepted. -/
structure ReceiveSide where
  suite : CipherSuite
  receive : Codec
  receiveKey : Key
  receiveEpoch : UInt32
  replay : ReplayWindow
  previousReceive : Option Codec
  previousReplay : ReplayWindow

def receiveSide (s : Session) : ReceiveSide :=
  ⟨s.suite, s.receive, s.receiveKey, s.receiveEpoch, s.replay, s.previousReceive,
    s.previousReplay⟩

/-- The receive keys of a session: the current key is the entry of its epoch, a
retained key the entry before it. -/
structure ReceiveKeys (P : Primitives) (key : Key) (s : ReceiveSide) : Prop where
  suite : s.suite = cipherChaCha20Poly1305
  epoch_pos : 1 ≤ s.receiveEpoch.toNat
  receiveKey : s.receiveKey = keyChain P key (s.receiveEpoch.toNat - 1)
  codec : s.receive = ⟨s.receiveKey⟩
  previous : ∀ codec, s.previousReceive = some codec →
    2 ≤ s.receiveEpoch.toNat ∧ codec = ⟨keyChain P key (s.receiveEpoch.toNat - 2)⟩

/-- Dropping the previous key keeps the keys on the chain. -/
theorem ReceiveKeys.forget {P : Primitives} {key : Key} {s : ReceiveSide}
    (h : ReceiveKeys P key s) (replay previousReplay : ReplayWindow) :
    ReceiveKeys P key
      { s with
        replay := replay
        previousReceive := none
        previousReplay := previousReplay } where
  suite := h.suite
  epoch_pos := h.epoch_pos
  receiveKey := h.receiveKey
  codec := h.codec
  previous := fun _ hnone => by cases hnone

/-- The windows say nothing about the keys. -/
theorem ReceiveKeys.withWindows {P : Primitives} {key : Key} {s : ReceiveSide}
    (h : ReceiveKeys P key s) (replay previousReplay : ReplayWindow) :
    ReceiveKeys P key { s with replay := replay, previousReplay := previousReplay } where
  suite := h.suite
  epoch_pos := h.epoch_pos
  receiveKey := h.receiveKey
  codec := h.codec
  previous := h.previous

/-- A transition retains the current key and moves to the next entry of the chain. -/
theorem ReceiveKeys.next {P : Primitives} {key : Key} {s : ReceiveSide}
    (h : ReceiveKeys P key s) (hlast : s.receiveEpoch ≠ 0xFFFFFFFF) (window : ReplayWindow) :
    ReceiveKeys P key
      ⟨s.suite, ⟨deriveNextTrafficKey P s.receiveKey⟩, deriveNextTrafficKey P s.receiveKey,
        s.receiveEpoch + 1, ReplayWindow.zero, some s.receive, window⟩ := by
  have hpos := h.epoch_pos
  have hsucc := toNat_epoch_succ hlast
  refine ⟨h.suite, ?_, ?_, rfl, fun codec hcodec => ⟨?_, ?_⟩⟩
  · simp only [hsucc]
    omega
  · simp only [hsucc, Nat.add_sub_cancel]
    rw [show s.receiveEpoch.toNat = (s.receiveEpoch.toNat - 1) + 1 by omega, keyChain,
      ← h.receiveKey]
  · simp only [hsucc]
    omega
  · obtain rfl := Option.some.inj hcodec
    simp only [hsucc]
    rw [show s.receiveEpoch.toNat + 1 - 2 = s.receiveEpoch.toNat - 1 by omega, ← h.receiveKey]
    exact h.codec

/-- What an accepted announcement changes: the next epoch and key of the chain. -/
theorem prepareRekeyLocked_eq_ok {P : Primitives} {s : Session} {init : RekeyInit}
    {nextKey : Key} {nextCodec : Codec}
    (h : s.prepareRekeyLocked P init = .ok (nextKey, nextCodec)) :
    s.receiveEpoch ≠ 0xFFFFFFFF ∧ init.epoch = s.receiveEpoch + 1 ∧
      nextKey = deriveNextTrafficKey P s.receiveKey ∧ nextCodec = ⟨nextKey⟩ ∧
      newCodec P s.suite nextKey.val = .ok nextCodec := by
  unfold prepareRekeyLocked at h
  split_ifs at h with hlast hepoch
  split at h
  · cases h
  · split_ifs at h
    cases hcodec : newCodec P s.suite (deriveNextTrafficKey P s.receiveKey).val with
    | error err => simp [hcodec] at h
    | ok codec =>
        simp only [hcodec, Except.ok.injEq, Prod.mk.injEq] at h
        obtain ⟨rfl, rfl⟩ := h
        exact ⟨hlast, not_not.mp hepoch, rfl, (newCodec_eq_ok hcodec).2, hcodec⟩

/-- Only a receive changes the receive side. -/
theorem step_receiveSide (P : Primitives) (s : Session) {call : SessionCall}
    (h : ∀ frame clock, call ≠ .receivePayload frame clock) :
    (s.step P call).after.receiveSide = s.receiveSide := by
  have hcase := step_cases P s call
  generalize s.step P call = event at hcase ⊢
  cases hcase with
  | received frame clock _ _ hcall => exact absurd hcall (h frame clock)
  | rejected | closed | data | rekey | rekeyLost | marked => rfl

theorem commitRekey_receiveSide (s : Session) (clock : ReceiveClock) (window : ReplayWindow)
    (nextKey : Key) (nextCodec : Codec) (epoch : UInt32) :
    (s.commitRekey clock window nextKey nextCodec epoch).receiveSide =
        ⟨s.suite, nextCodec, nextKey, epoch, ReplayWindow.zero, some s.receive, window⟩ ∨
      (s.commitRekey clock window nextKey nextCodec epoch).receiveSide =
        ⟨s.suite, nextCodec, nextKey, epoch, ReplayWindow.zero, none, ReplayWindow.zero⟩ := by
  unfold commitRekey
  rcases expireGraceLocked_cases _ clock.expire with heq | heq
  · exact .inl (by rw [heq]; rfl)
  · exact .inr (by rw [heq]; rfl)

theorem commitCurrent_receiveSide (s : Session) (clock : ReceiveClock) (window : ReplayWindow) :
    (s.commitCurrent clock window).receiveSide = { s.receiveSide with replay := window } ∨
      (s.commitCurrent clock window).receiveSide =
        { s.receiveSide with
          replay := window
          previousReceive := none
          previousReplay := ReplayWindow.zero } := by
  unfold commitCurrent
  by_cases hnone : s.previousReceive = none
  · exact .inl (by rw [if_pos hnone]; rfl)
  · rw [if_neg hnone]
    rcases expireGraceLocked_cases _ clock.expire with heq | heq
    · exact .inl (by rw [heq]; rfl)
    · exact .inr (by rw [heq]; rfl)

theorem previousReceive_of_available {s : Session} {now : Time} {codec : Codec}
    (h : s.previousAvailable now = some codec) : s.previousReceive = some codec := by
  unfold previousAvailable at h
  split_ifs at h
  exact h

end Session

/-! ## Matched acceptances -/

/-- The sequence numbers of the emissions of one epoch. -/
def numbersIn (matched : List Emission) (epoch : Nat) : Finset Nat :=
  ((matched.filter fun e => e.epoch.toNat = epoch).map
    fun e => e.frame.header.sequence.toNat).toFinset

section NumbersIn

variable {matched : List Emission} {e : Emission} {epoch : Nat}

theorem numbersIn_append_same (h : e.epoch.toNat = epoch) :
    numbersIn (matched ++ [e]) epoch =
      insert e.frame.header.sequence.toNat (numbersIn matched epoch) := by
  ext n
  simp [numbersIn, List.filter_append, h]

theorem numbersIn_append_other (h : e.epoch.toNat ≠ epoch) :
    numbersIn (matched ++ [e]) epoch = numbersIn matched epoch := by
  simp [numbersIn, List.filter_append, h]

theorem numbersIn_eq_empty (h : ∀ e ∈ matched, e.epoch.toNat ≠ epoch) :
    numbersIn matched epoch = ∅ := by
  have hnone : matched.filter (fun e => e.epoch.toNat = epoch) = [] :=
    List.filter_eq_nil_iff.mpr fun e he => by simpa using h e he
  simp [numbersIn, hnone]

/-- A number that is new in its epoch is a new pair. -/
theorem nodup_append_of_notMem
    (hnodup : (matched.map fun e => (e.epoch, e.frame.header.sequence)).Nodup)
    (hnew : e.frame.header.sequence.toNat ∉ numbersIn matched e.epoch.toNat) :
    ((matched ++ [e]).map fun e => (e.epoch, e.frame.header.sequence)).Nodup := by
  rw [List.map_append, List.nodup_append]
  refine ⟨hnodup, List.nodup_singleton _, ?_⟩
  intro pair hpair other hother heq
  obtain rfl := List.mem_singleton.mp hother
  obtain ⟨old, hold, rfl⟩ := List.mem_map.mp hpair
  obtain ⟨hepoch, hsequence⟩ := Prod.mk.inj heq
  apply hnew
  simp only [numbersIn, List.mem_toFinset, List.mem_map, List.mem_filter, decide_eq_true_eq]
  exact ⟨old, ⟨hold, by rw [hepoch]⟩, by rw [hsequence]⟩

end NumbersIn

/-- The windows hold the numbers of the emissions matched so far. -/
structure Accepts (P : Primitives) (key : Key) (matched : List Emission)
    (s : Session.ReceiveSide) : Prop where
  keys : Session.ReceiveKeys P key s
  current : Refines s.replay (numbersIn matched s.receiveEpoch.toNat)
  previous : ∀ codec, s.previousReceive = some codec →
    Refines s.previousReplay (numbersIn matched (s.receiveEpoch.toNat - 1))
  bounded : ∀ e ∈ matched, e.epoch.toNat ≤ s.receiveEpoch.toNat
  nodup : (matched.map fun e => (e.epoch, e.frame.header.sequence)).Nodup

namespace Accepts

variable {P : Primitives} {key : Key} {matched : List Emission} {s : Session.ReceiveSide}
  {e : Emission} {window : ReplayWindow}

/-- Dropping the previous key loses nothing that has to be remembered. -/
theorem forget (h : Accepts P key matched s) :
    Accepts P key matched
      { s with previousReceive := none, previousReplay := ReplayWindow.zero } := by
  refine ⟨h.keys.forget _ _, h.current, fun _ hnone => ?_, h.bounded, h.nodup⟩
  cases hnone

/-- A frame of the current epoch is recorded in the current window. -/
theorem acceptCurrent (h : Accepts P key matched s) (hepoch : e.epoch = s.receiveEpoch)
    (hrecords : Records s.replay e.frame.header.sequence window) :
    Accepts P key (matched ++ [e]) { s with replay := window } := by
  have hpos := h.keys.epoch_pos
  obtain ⟨hnew, hrefines⟩ := hrecords.refines h.current
  refine ⟨h.keys.withWindows _ _, ?_, fun codec hcodec => ?_, fun other hmem => ?_, ?_⟩
  · rw [numbersIn_append_same (by rw [hepoch])]
    exact hrefines
  · rw [numbersIn_append_other (by simp only [hepoch]; omega)]
    exact h.previous codec hcodec
  · rcases List.mem_append.mp hmem with hold | hlast
    · exact h.bounded other hold
    · rw [List.mem_singleton.mp hlast, hepoch]
  · exact nodup_append_of_notMem h.nodup (hepoch ▸ hnew)

/-- A frame of the previous epoch is recorded in the retained window. -/
theorem acceptPrevious {codec : Codec} (h : Accepts P key matched s)
    (hcodec : s.previousReceive = some codec) (hepoch : e.epoch.toNat + 1 = s.receiveEpoch.toNat)
    (hrecords : Records s.previousReplay e.frame.header.sequence window) :
    Accepts P key (matched ++ [e]) { s with previousReplay := window } := by
  have hindex : e.epoch.toNat = s.receiveEpoch.toNat - 1 := by omega
  obtain ⟨hnew, hrefines⟩ := hrecords.refines (h.previous codec hcodec)
  refine ⟨h.keys.withWindows _ _, ?_, fun _ _ => ?_, fun other hmem => ?_, ?_⟩
  · rw [numbersIn_append_other (by simp only; omega)]
    exact h.current
  · rw [numbersIn_append_same hindex]
    exact hrefines
  · rcases List.mem_append.mp hmem with hold | hlast
    · exact h.bounded other hold
    · rw [List.mem_singleton.mp hlast]
      simp only
      omega
  · exact nodup_append_of_notMem h.nodup (hindex ▸ hnew)

/-- A `RekeyInit` retires the current window and starts the next one empty. -/
theorem acceptRekey (h : Accepts P key matched s) (hepoch : e.epoch = s.receiveEpoch)
    (hlast : s.receiveEpoch ≠ 0xFFFFFFFF)
    (hrecords : Records s.replay e.frame.header.sequence window) :
    Accepts P key (matched ++ [e])
      ⟨s.suite, ⟨deriveNextTrafficKey P s.receiveKey⟩, deriveNextTrafficKey P s.receiveKey,
        s.receiveEpoch + 1, ReplayWindow.zero, some s.receive, window⟩ := by
  have hsucc := Session.toNat_epoch_succ hlast
  obtain ⟨hnew, hrefines⟩ := hrecords.refines h.current
  have hbounded : ∀ other ∈ matched ++ [e], other.epoch.toNat ≤ s.receiveEpoch.toNat := by
    intro other hmem
    rcases List.mem_append.mp hmem with hold | hnew
    · exact h.bounded other hold
    · rw [List.mem_singleton.mp hnew, hepoch]
  refine ⟨h.keys.next hlast window, ?_, fun _ _ => ?_, fun other hmem => ?_, ?_⟩
  · simp only [hsucc]
    rw [numbersIn_eq_empty fun other hmem => by have := hbounded other hmem; omega]
    exact refines_zero
  · simp only [hsucc, Nat.add_sub_cancel]
    rw [numbersIn_append_same (by rw [hepoch])]
    exact hrefines
  · have := hbounded other hmem
    simp only [hsucc]
    omega
  · exact nodup_append_of_notMem h.nodup (hepoch ▸ hnew)

end Accepts

/-! ## Where a sealed text comes from -/

/-- The origin of a call to `Seal`: an emission of the first session, an announcement
that it could not follow up, or the second session. -/
inductive Origin (P : Primitives) (keyA keyB : Key) (emitted : List Emission)
    (call : SealCall) : Prop where
  | emitted (e : Emission) (p : Packet) (j : Nat) (hmem : e ∈ emitted) (hj : j < epochCount)
      (hepoch : e.epoch.toNat = j + 1) (hcall : call = p.sealCall (keyChain P keyA j))
      (hframe : e.frame = p.frame P (keyChain P keyA j)) (hplaintext : e.plaintext = p.plaintext)
  | lost (p : Packet) (j : Nat) (err : Error) (hj : j < epochCount)
      (hcall : call = p.sealCall (keyChain P keyA j))
      (htype : p.messageType = MessageType.rekeyInit)
      (hcodec : newCodec P cipherChaCha20Poly1305 (keyChain P keyA (j + 1)).val = .error err)
  | peer (j : Nat) (hj : j < epochCount) (hkey : call.key = keyChain P keyB j)

theorem Origin.mono {P : Primitives} {keyA keyB : Key} {emitted extra : List Emission}
    {call : SealCall} (h : Origin P keyA keyB emitted call) :
    Origin P keyA keyB (emitted ++ extra) call := by
  cases h with
  | emitted e p j hmem hj hepoch hcall hframe hplaintext =>
      exact .emitted e p j (List.mem_append_left _ hmem) hj hepoch hcall hframe hplaintext
  | lost p j err hj hcall htype hcodec => exact .lost p j err hj hcall htype hcodec
  | peer j hj hkey => exact .peer j hj hkey

section Sealing

variable {P : Primitives} {keyA keyB : Key} {s : Session}

/-- The index of the current send key lies in the chain. -/
theorem Session.sendIndex_lt (s : Session) : s.sendEpoch.toNat - 1 < epochCount := by
  have hlt := s.sendEpoch.toNat_lt
  simp only [epochCount]
  omega

theorem Session.SendKeys.send_key (h : s.SendKeys P keyA) :
    s.send.key = keyChain P keyA (s.sendEpoch.toNat - 1) := by
  rw [h.codec]
  exact h.sendKey

/-- The calls of the first session have an origin once its emission is recorded. -/
theorem Session.SendKeys.origin (h : s.SendKeys P keyA) (emitted : List Emission)
    (call : SessionCall) :
    ∀ sealCall ∈ (s.step P call).calls,
      Origin P keyA keyB (emitted ++ (s.step P call).emission.toList) sealCall := by
  have hpos := h.epoch_pos
  have hcase := Session.step_cases P s call
  generalize s.step P call = event at hcase ⊢
  cases hcase with
  | rejected | received | closed | marked => exact fun _ hmem => absurd hmem List.not_mem_nil
  | data p hemits | rekey p hemits =>
      intro sealCall hmem
      obtain rfl := List.mem_singleton.mp hmem
      refine .emitted _ p (s.sendEpoch.toNat - 1)
        (List.mem_append_right _ (List.mem_singleton.mpr rfl)) s.sendIndex_lt ?_
        (by rw [h.send_key]) (by rw [← h.send_key]) (by simp [Packet.sealCall])
      simp only
      omega
  | rekeyLost p hemits err htype hcodec =>
      intro sealCall hmem
      obtain rfl := List.mem_singleton.mp hmem
      refine .lost p (s.sendEpoch.toNat - 1) err s.sendIndex_lt (by rw [h.send_key]) htype ?_
      rw [h.suite] at hcodec
      rw [keyChain, ← h.sendKey]
      exact hcodec

/-- The calls of the second session use its own chain. -/
theorem Session.SendKeys.peer (h : s.SendKeys P keyB) (emitted : List Emission)
    (call : SessionCall) :
    ∀ sealCall ∈ (s.step P call).calls, Origin P keyA keyB emitted sealCall := by
  have hcase := Session.step_cases P s call
  generalize s.step P call = event at hcase ⊢
  cases hcase with
  | rejected | received | closed | marked => exact fun _ hmem => absurd hmem List.not_mem_nil
  | data p hemits | rekey p hemits | rekeyLost p hemits =>
      intro sealCall hmem
      obtain rfl := List.mem_singleton.mp hmem
      exact .peer (s.sendEpoch.toNat - 1) s.sendIndex_lt h.send_key

end Sealing

/-- Under an ideal AEAD, a frame that decrypts under entry `j` of the first session's
chain is an emission of that epoch, unless it is an announcement that no session could
follow up. -/
theorem emission_of_decrypt {P : Primitives} {keyA keyB : Key} {log : List SealCall}
    {emitted : List Emission} {frame : Frame} {plaintext : List UInt8} {j : Nat}
    (hopen : P.OpenInvertsSeal) (hfresh : ChainFresh P keyA)
    (hdisjoint : ChainsDisjoint P keyA keyB)
    (horigin : ∀ call ∈ log, Origin P keyA keyB emitted call) (hj : j < epochCount)
    (hideal : OpensOnlySealed P log ⟨keyChain P keyA j⟩ frame)
    (hdecrypt : Codec.decrypt P ⟨keyChain P keyA j⟩ frame = .ok plaintext) :
    (∃ e ∈ emitted, e.frame = frame ∧ e.plaintext = plaintext ∧ e.epoch.toNat = j + 1) ∨
      frame.header.messageType = MessageType.rekeyInit ∧
        ∃ err, newCodec P cipherChaCha20Poly1305 (keyChain P keyA (j + 1)).val = .error err := by
  obtain ⟨-, htext⟩ := Codec.decrypt_eq_ok hdecrypt
  obtain ⟨call, hmem, hkey, hnonce, haad, houtput⟩ := hideal (by rw [htext]; rfl)
  have hplaintext : call.plaintext = plaintext := by
    have hinverse := hopen call.key (nonce call.sequence) call.plaintext call.aad
    rw [show P.sealText call.key (nonce call.sequence) call.plaintext call.aad = call.output P
      from rfl, hkey, hnonce, haad, houtput, htext] at hinverse
    exact (Option.some.inj hinverse).symm
  cases horigin call hmem with
  | emitted e p i hemitted hi hepoch hcall hframe hp =>
      subst hcall
      obtain rfl := hfresh i j hi hj hkey
      exact .inl ⟨e, hemitted, hframe.trans (Packet.eq_frame_of_sealed haad houtput).symm,
        hp.trans hplaintext, hepoch⟩
  | lost p i err hi hcall htype hcodec =>
      subst hcall
      obtain rfl := hfresh i j hi hj hkey
      refine .inr ⟨?_, err, hcodec⟩
      rw [Packet.eq_frame_of_sealed haad houtput]
      exact htype
  | peer i hi hpeer => exact absurd (hkey.symm.trans hpeer) (hdisjoint j i hj hi)

/-! ## The invariant of a run -/

/-- The receiver of an open network accepts only matched frames. -/
theorem Accepts.receive {P : Primitives} {keyA keyB : Key} {log : List SealCall}
    {emitted matched : List Emission} {b : Session} {frame : Frame} (clock : ReceiveClock)
    (hopen : P.OpenInvertsSeal) (hfresh : ChainFresh P keyA)
    (hdisjoint : ChainsDisjoint P keyA keyB)
    (horigin : ∀ call ∈ log, Origin P keyA keyB emitted call)
    (hideal : ∀ codec ∈ b.receive :: b.previousReceive.toList, OpensOnlySealed P log codec frame)
    (h : Accepts P keyA matched b.receiveSide) :
    ((b.receivePayload P clock frame).1 = b ∧
        ∃ err, (b.receivePayload P clock frame).2 = .error err) ∨
      ∃ e ∈ emitted, (b.receivePayload P clock frame).2 = .ok e.plaintext ∧ e.frame = frame ∧
        Accepts P keyA (matched ++ [e]) (b.receivePayload P clock frame).1.receiveSide := by
  have hpos : 1 ≤ b.receiveEpoch.toNat := h.keys.epoch_pos
  have hlt := b.receiveEpoch.toNat_lt
  have hsuite : b.suite = cipherChaCha20Poly1305 := h.keys.suite
  have hreceiveKey : b.receiveKey = keyChain P keyA (b.receiveEpoch.toNat - 1) :=
    h.keys.receiveKey
  have hreceive : b.receive = ⟨keyChain P keyA (b.receiveEpoch.toNat - 1)⟩ := by
    rw [← hreceiveKey]
    exact h.keys.codec
  have hindex : b.receiveEpoch.toNat - 1 < epochCount := by
    simp only [epochCount]
    omega
  have hcurrent := hideal b.receive List.mem_cons_self
  have hcase := Session.receivePayload_cases P clock b frame
  generalize b.receivePayload P clock frame = outcome at hcase ⊢
  cases hcase with
  | rejected err => exact .inl ⟨rfl, err, rfl⟩
  | rekey plaintext init nextKey nextCodec window hadmits htype hdecrypt hrecords hinit hprepare =>
      obtain ⟨hlast, hepoch, hkey, hcodec, hnew⟩ := Session.prepareRekeyLocked_eq_ok hprepare
      rw [hreceive] at hcurrent hdecrypt
      rcases emission_of_decrypt hopen hfresh hdisjoint horigin hindex hcurrent hdecrypt with
        ⟨e, hmem, hframe, hplaintext, hmatch⟩ | ⟨-, err, hfails⟩
      · refine .inr ⟨e, hmem, by rw [hplaintext], hframe, ?_⟩
        have hsame : e.epoch = b.receiveEpoch := UInt32.toNat_inj.mp (by omega)
        have hnext := h.acceptRekey hsame hlast (hframe ▸ hrecords)
        have hcodec' : nextCodec = ⟨deriveNextTrafficKey P b.receiveKey⟩ := hkey ▸ hcodec
        rcases b.commitRekey_receiveSide clock window nextKey nextCodec init.epoch with
          heq | heq
        · rw [heq, hkey, hcodec', hepoch]
          exact hnext
        · rw [heq, hkey, hcodec', hepoch]
          exact hnext.forget
      · -- the receiver would have needed the codec that the sender could not make
        rw [keyChain, ← hreceiveKey, ← hkey, ← hsuite, hnew] at hfails
        cases hfails
  | current plaintext window hadmits htype hdecrypt hrecords =>
      rw [hreceive] at hcurrent hdecrypt
      rcases emission_of_decrypt hopen hfresh hdisjoint horigin hindex hcurrent hdecrypt with
        ⟨e, hmem, hframe, hplaintext, hmatch⟩ | ⟨hrekey, -⟩
      · refine .inr ⟨e, hmem, by rw [hplaintext], hframe, ?_⟩
        have hsame : e.epoch = b.receiveEpoch := UInt32.toNat_inj.mp (by omega)
        have hnext := h.acceptCurrent hsame (hframe ▸ hrecords)
        rcases b.commitCurrent_receiveSide clock window with heq | heq
        · rw [heq]
          exact hnext
        · rw [heq]
          exact hnext.forget
      · exact absurd hrekey htype
  | previous plaintext codec window hadmits htype havailable hdecrypt hrecords =>
      have hretained : b.previousReceive = some codec :=
        Session.previousReceive_of_available havailable
      obtain ⟨htwo, rfl⟩ := h.keys.previous codec hretained
      have htwo : 2 ≤ b.receiveEpoch.toNat := htwo
      have hprevious := hideal _ (List.mem_cons_of_mem _ (Option.mem_toList.mpr hretained))
      rcases emission_of_decrypt hopen hfresh hdisjoint horigin
          (show b.receiveEpoch.toNat - 2 < epochCount by simp only [epochCount]; omega)
          hprevious hdecrypt with ⟨e, hmem, hframe, hplaintext, hmatch⟩ | ⟨hrekey, -⟩
      · refine .inr ⟨e, hmem, by rw [hplaintext], hframe, ?_⟩
        exact h.acceptPrevious hretained
          (show e.epoch.toNat + 1 = b.receiveEpoch.toNat by omega) (hframe ▸ hrecords)
      · exact absurd hrekey htype

/-- An acceptance and the emission it matches. -/
def Matches (acceptance : Frame × List UInt8) (e : Emission) : Prop :=
  e.frame = acceptance.1 ∧ e.plaintext = acceptance.2

namespace Network

/-- Every sealed text has an origin, and the acceptances so far match emissions of
pairwise distinct epochs and numbers. -/
structure Inv (P : Primitives) (keyA keyB : Key) (net : Network) : Prop where
  keysA : net.a.SendKeys P keyA
  keysB : net.b.SendKeys P keyB
  origin : ∀ call ∈ net.log, Origin P keyA keyB net.emitted call
  matched : ∃ matched, List.Forall₂ Matches net.accepted matched ∧
    (∀ e ∈ matched, e ∈ net.emitted) ∧ Accepts P keyA matched net.b.receiveSide

variable {P : Primitives} {keyA keyB : Key} {net : Network}

theorem Inv.callA (h : net.Inv P keyA keyB) (call : SessionCall) :
    (net.step P (.callA call)).Inv P keyA keyB := by
  obtain ⟨matched, hmatches, hemitted, haccepts⟩ := h.matched
  refine ⟨h.keysA.step call, h.keysB, fun sealCall hmem => ?_, matched, hmatches,
    fun e he => List.mem_append_left _ (hemitted e he), haccepts⟩
  rcases List.mem_append.mp hmem with hold | hnew
  · exact (h.origin sealCall hold).mono
  · exact h.keysA.origin net.emitted call sealCall hnew

theorem Inv.callB (hopen : P.OpenInvertsSeal) (hfresh : ChainFresh P keyA)
    (hdisjoint : ChainsDisjoint P keyA keyB) (h : net.Inv P keyA keyB) (call : SessionCall)
    (hideal : ∀ frame clock, call = .receivePayload frame clock →
      ∀ codec ∈ net.b.receive :: net.b.previousReceive.toList,
        OpensOnlySealed P net.log codec frame) :
    (net.step P (.callB call)).Inv P keyA keyB := by
  obtain ⟨matched, hmatches, hemitted, haccepts⟩ := h.matched
  have horigin : ∀ sealCall ∈ (net.step P (.callB call)).log,
      Origin P keyA keyB net.emitted sealCall := by
    intro sealCall hmem
    rcases List.mem_append.mp hmem with hold | hnew
    · exact h.origin sealCall hold
    · exact h.keysB.peer net.emitted call sealCall hnew
  refine ⟨h.keysA, h.keysB.step call, horigin, ?_⟩
  by_cases hreceive : ∃ frame clock, call = .receivePayload frame clock
  · obtain ⟨frame, clock, rfl⟩ := hreceive
    rcases haccepts.receive clock hopen hfresh hdisjoint h.origin (hideal frame clock rfl) with
      ⟨hsame, err, herr⟩ | ⟨e, hmem, hresult, hframe, hnext⟩
    · refine ⟨matched, ?_, hemitted, ?_⟩
      · simpa [Network.step, Session.step, Event.acceptance, herr, Except.map] using hmatches
      · simp only [Network.step, Session.step, hsame]
        exact haccepts
    · refine ⟨matched ++ [e], ?_, ?_, hnext⟩
      · simp only [Network.step, Session.step, Event.acceptance, hresult, Except.map,
          Option.toList_some]
        exact List.rel_append hmatches (.cons ⟨hframe, rfl⟩ .nil)
      · intro other hother
        rcases List.mem_append.mp hother with hold | hnew
        · exact hemitted other hold
        · rw [List.mem_singleton.mp hnew]
          exact hmem
  · have hother : ∀ frame clock, call ≠ .receivePayload frame clock :=
      fun frame clock heq => hreceive ⟨frame, clock, heq⟩
    have hnone : (net.b.step P call).acceptance = none := by
      cases call with
      | receivePayload frame clock => exact absurd rfl (hother frame clock)
      | send | sendPayload | markRekeySent | close => rfl
    refine ⟨matched, ?_, hemitted, ?_⟩
    · simpa [Network.step, hnone] using hmatches
    · simp only [Network.step, Session.step_receiveSide P net.b hother]
      exact haccepts

theorem Inv.run (hopen : P.OpenInvertsSeal) (hfresh : ChainFresh P keyA)
    (hdisjoint : ChainsDisjoint P keyA keyB) {steps : List NetworkStep}
    (hideal : IdealAEAD P net steps) (h : net.Inv P keyA keyB) :
    (net.run P steps).Inv P keyA keyB := by
  induction steps generalizing net with
  | nil => exact h
  | cons step steps ih =>
      obtain ⟨hhere, hlater⟩ := hideal
      cases step with
      | callA call => exact ih hlater (h.callA call)
      | callB call =>
          refine ih hlater (h.callB hopen hfresh hdisjoint call ?_)
          rintro frame clock rfl
          exact hhere

theorem Inv.start {suite : CipherSuite} {secrets : HandshakeSecrets} {now now' : Time}
    {a b : Session} (ha : newSession P suite secrets now = .ok a)
    (hb : newSession P suite secrets.crossed now' = .ok b) (limitsA limitsB : Session.Limits) :
    (Network.start (a.withLimits limitsA) (b.withLimits limitsB)).Inv P secrets.sendKey
      secrets.receiveKey := by
  have hkeysA := Session.sendKeys_newSession ha limitsA
  have hkeysB := Session.sendKeys_newSession hb limitsB
  obtain ⟨rfl, -, rfl⟩ := newSession_eq_ok ha
  obtain ⟨-, -, rfl⟩ := newSession_eq_ok hb
  refine ⟨hkeysA, hkeysB, fun _ hmem => absurd hmem List.not_mem_nil, [], .nil,
    fun _ hmem => absurd hmem List.not_mem_nil, ?_⟩
  refine ⟨⟨rfl, Nat.le_refl 1, rfl, rfl, fun _ hnone => ?_⟩, refines_zero,
    fun _ hnone => ?_, fun _ hmem => absurd hmem List.not_mem_nil, List.nodup_nil⟩
  · cases hnone
  · cases hnone

end Network

/-- **Injective authenticity.** For crossed sessions under any limits and clocks, any
calls of either side and any frames delivered to the second: every acceptance returns
the frame, type and plaintext of an emission of the first session, and the matched
emissions have pairwise distinct epochs and sequence numbers. -/
theorem acceptances_match_emissions (P : Primitives) (hopen : P.OpenInvertsSeal)
    {suite : CipherSuite} {secrets : HandshakeSecrets}
    (hfresh : ChainFresh P secrets.sendKey)
    (hdisjoint : ChainsDisjoint P secrets.sendKey secrets.receiveKey) {now now' : Time}
    {a b : Session} (ha : newSession P suite secrets now = .ok a)
    (hb : newSession P suite secrets.crossed now' = .ok b) (limitsA limitsB : Session.Limits)
    (steps : List NetworkStep)
    (hideal : IdealAEAD P
      (Network.start (a.withLimits limitsA) (b.withLimits limitsB)) steps) {net : Network}
    (hnet : (Network.start (a.withLimits limitsA) (b.withLimits limitsB)).run P steps = net) :
    ∃ matched : List Emission,
      List.Forall₂ (fun acceptance e => e.frame = acceptance.1 ∧ e.plaintext = acceptance.2)
        net.accepted matched ∧
      (∀ e ∈ matched, e ∈ net.emitted) ∧
      (matched.map fun e => (e.epoch, e.frame.header.sequence)).Nodup := by
  subst hnet
  have hinv := (Network.Inv.start ha hb limitsA limitsB).run hopen hfresh hdisjoint hideal
  obtain ⟨matched, hmatches, hemitted, haccepts⟩ := hinv.matched
  exact ⟨matched, hmatches, hemitted, haccepts.nodup⟩

/-- A frame opens legitimately once its packet was sealed. -/
theorem opensOnlySealed_frame {P : Primitives} {log : List SealCall} {p : Packet} {key : Key}
    (h : p.sealCall key ∈ log) : OpensOnlySealed P log ⟨key⟩ (p.frame P key) :=
  fun _ => ⟨p.sealCall key, h, rfl, rfl, rfl, Packet.frame_payload_append_tag.symm⟩

/-- A packet for runs over the transparent primitives. -/
def samplePacket : Packet := ⟨MessageType.pingPong, sampleSecrets.sessionID, 1, [1], []⟩

/-- The assumptions are met by the transparent primitives on a run in which the
adversary delivers the first session's frame twice. -/
theorem acceptances_match_emissions_transparent :
    let delivery := NetworkStep.callB (.receivePayload
      (samplePacket.frame transparent sampleSecrets.sendKey) ⟨0, 0, 0⟩)
    ∃ a b, newSession transparent cipherChaCha20Poly1305 sampleSecrets 0 = .ok a ∧
      newSession transparent cipherChaCha20Poly1305 sampleSecrets.crossed 0 = .ok b ∧
      ∃ matched : List Emission, List.Forall₂ Matches
        ((Network.start (a.withLimits ⟨0, 0, 1, 1⟩) (b.withLimits ⟨0, 0, 1, 1⟩)).run transparent
          [.callA (.sendPayload MessageType.pingPong [1] 0 ⟨0, ⟨[], none⟩⟩), delivery,
            delivery]).accepted matched := by
  intro delivery
  refine ⟨_, _, newSession_sample, newSession_sample_crossed, ?_⟩
  have hsealed : ∀ codec ∈ [(⟨sampleSecrets.sendKey⟩ : Codec)],
      OpensOnlySealed transparent [samplePacket.sealCall sampleSecrets.sendKey] codec
        (samplePacket.frame transparent sampleSecrets.sendKey) := by
    intro codec hmem
    obtain rfl := List.mem_singleton.mp hmem
    exact opensOnlySealed_frame (List.mem_singleton.mpr rfl)
  obtain ⟨matched, hmatches, -⟩ := acceptances_match_emissions transparent
    transparent_openInvertsSeal (chainFresh_counterKey (n := 0) (by decide))
    (chainsDisjoint_counterKey (n := 0) (m := 2 ^ 32) (by decide) (by decide))
    newSession_sample newSession_sample_crossed ⟨0, 0, 1, 1⟩ ⟨0, 0, 1, 1⟩
    [.callA (.sendPayload MessageType.pingPong [1] 0 ⟨0, ⟨[], none⟩⟩), delivery, delivery]
    ⟨trivial, hsealed, hsealed, trivial⟩ rfl
  exact ⟨matched, hmatches⟩

end DgProto
