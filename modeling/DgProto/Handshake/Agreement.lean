import DgProto.Handshake.Establish

/-!
# Agreement of an honest handshake

An honest client and an honest server, connected by an unmodified stream.  Each frame
of one driver passes the checks of the other, which recovers the exact Noise message
from it; with the right pin both sides complete with one session ID, crossed keys and
each other's static key, and the server admits the client unless its allowlist excludes
it.

The two scripts `establishClient_honest` and `performHandshake_honest` say what each
driver does in an honest run; the agreement follows when they run against each other.
-/

namespace DgProto

open Library Wire Crypto

/-! ## Wrappers and frames of the flights -/

/-- The wrapper of Noise message 1. -/
def initFlight (message : List UInt8) : List UInt8 :=
  [noisePatternXX, 0, 0, 0] ++ message

section Flights

variable {message flight : List UInt8} {messageType : MessageType}

theorem unwrapFlight_init (h : message.length = 32) :
    Handshake.unwrapFlight .responderRead1 (initFlight message) = some message := by
  have hwrapper := HandshakeInit.unmarshalBinary_ephemeral (Octets.copy 32 message)
  rw [Octets.copy_val h] at hwrapper
  simp only [Handshake.unwrapFlight, initFlight, hwrapper, ne_eq, not_true_eq_false, if_false,
    Octets.copy_val h]

theorem unwrapFlight_response (h : message.length = 96) :
    Handshake.unwrapFlight .initiatorRead2 message = some message := by
  have htake : (message.take 32).length = 32 := by simp [h]
  have hdrop : (message.drop 32).length = 64 := by simp [h]
  have hwrapper := HandshakeResponse.unmarshalBinary_append
    (m := ⟨Octets.copy 32 (message.take 32), message.drop 32⟩) hdrop
  simp only [Octets.copy_val htake, List.take_append_drop] at hwrapper
  simp only [Handshake.unwrapFlight, hwrapper, hdrop, ne_eq, not_true_eq_false, if_false,
    Octets.copy_val htake, List.take_append_drop]

theorem unwrapFlight_finish (h : message.length = 64) :
    Handshake.unwrapFlight .responderRead3 message = some message := by
  simp only [Handshake.unwrapFlight, HandshakeFinish.unmarshalBinary_of_length h, h, ne_eq,
    not_true_eq_false, if_false]

/-- The two types that carry flights. -/
def IsHandshakeType (messageType : MessageType) : Prop :=
  messageType = MessageType.handshakeInit ∨ messageType = MessageType.handshakeResponse

theorem IsHandshakeType.hasAEADTag (h : IsHandshakeType messageType) (flight : List UInt8) :
    (handshakeFrame messageType flight).header.hasAEADTag = false := by
  rcases h with rfl | rfl
  · rfl
  · rfl

/-- A handshake frame is sender-valid, if its flight fits. -/
theorem handshakeFrame_validate (h : IsHandshakeType messageType)
    (hfits : flight.length ≤ maxHandshakePayloadSize) :
    (handshakeFrame messageType flight).validate = .ok () := by
  have hlimit : maxHandshakePayloadSize = 65495 := rfl
  have hlength : (UInt32.ofNat flight.length).toNat = flight.length :=
    UInt32.toNat_ofNat_of_lt' (by unfold UInt32.size; omega)
  have hsize : (handshakeFrame messageType flight).header.frameSize ≤ maxFrameSize := by
    have hfields : (handshakeFrame messageType flight).header.frameSize =
        headerSize + (UInt32.ofNat flight.length).toNat + 0 +
          (if (handshakeFrame messageType flight).header.hasAEADTag then aeadTagSize else 0) := rfl
    rw [hfields, hlength, h.hasAEADTag]
    simp only [headerSize, maxFrameSize, Bool.false_eq_true, if_false]
    omega
  rw [Frame.validate_eq_ok_iff, Frame.validateLengths_eq_ok_iff, Header.validate_eq_ok_iff]
  have hflags : (handshakeFrame messageType flight).header.flags = 0 := by
    simp [handshakeFrame, newHeader]
  rw [hflags]
  exact ⟨⟨⟨rfl, by rw [hflags]; rfl, hsize⟩, rfl, rfl⟩, hlength.symm, rfl⟩

theorem handshakeFrame_validateReceive (h : IsHandshakeType messageType)
    (hfits : flight.length ≤ maxHandshakePayloadSize) :
    (handshakeFrame messageType flight).validateReceive = .ok () :=
  Frame.validateReceive_of_validate (handshakeFrame_validate h hfits)

theorem handshakeFrame_tagCanonical : (handshakeFrame messageType flight).TagCanonical :=
  fun _ => rfl

/-- The other side's checks accept it. -/
theorem validateHandshakeFrame_handshakeFrame (h : IsHandshakeType messageType)
    (hfits : flight.length ≤ maxHandshakePayloadSize) :
    validateHandshakeFrame (handshakeFrame messageType flight) messageType = .ok () := by
  have hreceive := handshakeFrame_validateReceive h hfits
  unfold validateHandshakeFrame
  rw [hreceive]
  simp [handshakeFrame, newHeader]

/-- `NewFrame` drops the legacy zero tag: the server builds the same frame. -/
theorem newFrame_handshake (h : IsHandshakeType messageType)
    (hfits : flight.length ≤ maxHandshakePayloadSize) :
    newFrame messageType (Octets.zero 16) 0 flight (List.replicate aeadTagSize 0) [] =
      .ok (handshakeFrame messageType flight) := by
  have hlimit : maxHandshakePayloadSize = 65495 := rfl
  have hreceive := handshakeFrame_validateReceive h hfits
  have hsize := (frameSize_bounds hreceive).2
  have htag : (newHeader messageType (Octets.zero 16) 0 (UInt32.ofNat flight.length)
      (UInt8.ofNat 0)).hasAEADTag = false := h.hasAEADTag flight
  have hzero : allZero (List.replicate aeadTagSize 0) = true := by decide
  unfold newFrame
  rw [if_neg (by simp), if_neg (by omega)]
  simp only [List.length_nil, htag, hzero, List.length_replicate]
  rw [if_neg (by simp), if_neg (by simp), if_neg (by simpa [handshakeFrame] using hsize)]
  rfl

end Flights

/-! ## The allowlist -/

theorem foldl_or_eq_zero (octets : List UInt8) (start : UInt8) :
    octets.foldl (· ||| ·) start = 0 ↔ start = 0 ∧ ∀ octet ∈ octets, octet = 0 := by
  induction octets generalizing start with
  | nil => simp
  | cons octet octets ih =>
      rw [List.foldl_cons, ih, UInt8.or_eq_zero_iff, List.forall_mem_cons, and_assoc]

/-- The constant-time comparison compares. -/
theorem hmacEqual_iff (a b : List UInt8) : hmacEqual a b = true ↔ a = b := by
  unfold hmacEqual
  split_ifs with hlength
  · simp only [false_iff]
    rintro rfl
    exact hlength rfl
  · rw [beq_iff_eq, foldl_or_eq_zero]
    simp only [true_and]
    replace hlength := not_not.mp hlength
    induction a generalizing b with
    | nil => simp [List.length_eq_zero_iff.mp hlength.symm]
    | cons x a ih =>
        cases b with
        | nil => cases hlength
        | cons y b =>
            rw [List.zipWith_cons_cons, List.forall_mem_cons, UInt8.xor_eq_zero_iff,
              List.cons.injEq]
            exact and_congr_right fun _ => ih b (Nat.succ.inj hlength)

/-- A client is allowed exactly if its key is on the list. -/
theorem isClientAllowed_iff (clientStatic : Octets 32) (allowedList : List (List UInt8)) :
    isClientAllowed clientStatic allowedList = true ↔ clientStatic.val ∈ allowedList := by
  unfold isClientAllowed
  rw [List.any_eq_true]
  constructor
  · rintro ⟨allowed, hmem, hequal⟩
    rw [Bool.and_eq_true, hmacEqual_iff] at hequal
    rw [hequal.2]
    exact hmem
  · intro hmem
    refine ⟨clientStatic.val, hmem, ?_⟩
    rw [Bool.and_eq_true, hmacEqual_iff, beq_iff_eq]
    exact ⟨clientStatic.property, rfl⟩

/-! ## The flights of an honest run -/

namespace Handshake

variable {N : HandshakePrimitives} {h : Handshake N} {state : N.State} {out : NoiseStep N.State}

theorem writeFlight_write1 (hstate : h.state = some state) (hstep : h.step = .initiatorWrite1)
    (hout : N.writeMessage state = some out) (hlength : out.message.length = 32) :
    h.writeFlight = ({ h with state := some out.state, step := .initiatorRead2 },
      .ok (initFlight out.message)) := by
  simp only [writeFlight, hstate, hstep, hout, hlength, ne_eq, not_true_eq_false, if_false,
    HandshakeInit.marshalBinary_ephemeral, Octets.copy_val hlength, initFlight]

theorem writeFlight_write2 (hstate : h.state = some state) (hstep : h.step = .responderWrite2)
    (hout : N.writeMessage state = some out) (hlength : out.message.length = 96) :
    h.writeFlight = ({ h with state := some out.state, step := .responderRead3 },
      .ok out.message) := by
  have htake : (out.message.take 32).length = 32 := by simp [hlength]
  have hmarshal : HandshakeResponse.marshalBinary
      ⟨Octets.copy 32 (out.message.take 32), out.message.drop 32⟩ = .ok out.message := by
    rw [HandshakeResponse.marshalBinary_of_length (by simp [hlength]), Octets.copy_val htake,
      List.take_append_drop]
  simp only [writeFlight, hstate, hstep, hout, hlength, ne_eq, not_true_eq_false, if_false,
    hmarshal]

/-- The third flight is released exactly if `complete` succeeds. -/
theorem writeFlight_write3 {first second : Key} (hstate : h.state = some state)
    (hstep : h.step = .initiatorWrite3) (hout : N.writeMessage state = some out)
    (hlength : out.message.length = 64)
    (hsplit : out.first = some first ∧ out.second = some second) :
    h.writeFlight =
      match h.complete out.state first second with
      | .error _ => h.fail
      | .ok completed => (completed, .ok out.message) := by
  have hmarshal : HandshakeFinish.marshalBinary ⟨out.message⟩ = .ok out.message :=
    HandshakeFinish.marshalBinary_of_length hlength
  cases hcomplete : h.complete out.state first second with
  | error err =>
      simp only [writeFlight, hstate, hstep, hout, hlength, ne_eq, not_true_eq_false, if_false,
        hsplit.1, hsplit.2, hmarshal, hcomplete]
  | ok completed =>
      simp only [writeFlight, hstate, hstep, hout, hlength, ne_eq, not_true_eq_false, if_false,
        hsplit.1, hsplit.2, hmarshal, hcomplete]

theorem readFlight_read1 {message : List UInt8} (hstate : h.state = some state)
    (hstep : h.step = .responderRead1) (hlength : message.length = 32)
    (hout : N.readMessage state message = some out) :
    h.readFlight (initFlight message) =
      ({ h with state := some out.state, step := .responderWrite2 }, .ok ()) := by
  simp only [readFlight, readMessage, hstate, hstep, unwrapFlight_init hlength, hout]

theorem readFlight_read2 {message : List UInt8} (hstate : h.state = some state)
    (hstep : h.step = .initiatorRead2) (hlength : message.length = 96)
    (hout : N.readMessage state message = some out) :
    h.readFlight message =
      ({ h with state := some out.state, step := .initiatorWrite3 }, .ok ()) := by
  simp only [readFlight, readMessage, hstate, hstep, unwrapFlight_response hlength, hout]

theorem readFlight_read3 {message : List UInt8} {first second : Key} {completed : Handshake N}
    (hstate : h.state = some state) (hstep : h.step = .responderRead3)
    (hlength : message.length = 64) (hout : N.readMessage state message = some out)
    (hsplit : out.first = some first ∧ out.second = some second)
    (hcomplete : h.complete out.state first second = .ok completed) :
    h.readFlight message = (completed, .ok ()) := by
  simp only [readFlight, readMessage, hstate, hstep, unwrapFlight_finish hlength, hout, hsplit.1,
    hsplit.2, hcomplete]

/-- The result that `complete` records for a role. -/
def resultFor (N : HandshakePrimitives) (role : HandshakeRole) (state : N.State)
    (first second : Key) : HandshakeResult where
  sessionID := transcriptSessionID N (N.channelBinding state)
  sendKey := match role with | .initiator => first | .responder => second
  receiveKey := match role with | .initiator => second | .responder => first
  peerStatic := Octets.copy 32 (N.peerStatic state)

/-- `complete` with an admitted peer. -/
theorem complete_of_admits (first second : Key) (hadmits : h.Admits (N.peerStatic state))
    (hbinding : (N.channelBinding state).length = 32) :
    h.complete state first second =
      .ok { h with
        result := some (resultFor N h.role state first second)
        step := .complete
        state := none } := by
  have hpinned : ¬ ((N.peerStatic state).length ≠ noiseKeySize ∨
      (h.expectedPeer.length ≠ 0 ∧ N.peerStatic state ≠ h.expectedPeer)) := by
    rintro (hlength | ⟨hset, hdiffers⟩)
    · exact hlength hadmits.1
    · exact hdiffers (hadmits.2 (by simpa using hset))
  simp only [complete]
  rw [if_neg hpinned, if_neg (by omega)]
  cases hrole : h.role with
  | initiator | responder => rfl

/-- `complete` with another peer than the pinned one. -/
theorem complete_of_not_admits (first second : Key)
    (hother : ¬ h.Admits (N.peerStatic state)) :
    ∃ err, h.complete state first second = .error err := by
  cases hcomplete : h.complete state first second with
  | error err => exact ⟨err, rfl⟩
  | ok completed => exact absurd (complete_eq_ok hcomplete).1 hother

end Handshake

/-! ## The drivers in an honest run -/

section Scripts

variable {N : HandshakePrimitives} {client : ClientConfig} {server : ServerConfig}
  {clientRandom serverRandom : Reader}

namespace HonestRun

variable (run : HonestRun N client.staticKey server.staticKey clientRandom serverRandom
  handshakePrologue)

/-- The frames of the three flights. -/
def frame1 : Frame := handshakeFrame MessageType.handshakeInit (initFlight run.write1.message)

def frame2 : Frame := handshakeFrame MessageType.handshakeResponse run.write2.message

def frame3 : Frame := handshakeFrame MessageType.handshakeResponse run.write3.message

/-- What the two sides agree on, as each of them stores it. -/
def initiatorResult : HandshakeResult :=
  Handshake.resultFor N .initiator run.write3.state run.first run.second

def responderResult : HandshakeResult :=
  Handshake.resultFor N .responder run.read3.state run.first run.second

theorem results_agree :
    run.initiatorResult.sessionID = run.responderResult.sessionID ∧
      run.initiatorResult.sendKey = run.responderResult.receiveKey ∧
      run.initiatorResult.receiveKey = run.responderResult.sendKey ∧
      run.initiatorResult.peerStatic = server.staticKey.publicKey ∧
      run.responderResult.peerStatic = client.staticKey.publicKey := by
  refine ⟨?_, rfl, rfl, ?_, ?_⟩
  · show transcriptSessionID N _ = transcriptSessionID N _
    rw [run.binding_eq]
  · show Octets.copy 32 _ = _
    rw [run.initiator_peer, Octets.copy_self]
  · show Octets.copy 32 _ = _
    rw [run.responder_peer, Octets.copy_self]

theorem fits1 : (initFlight run.write1.message).length ≤ maxHandshakePayloadSize := by
  rw [initFlight, List.length_append, run.length1]
  decide

theorem fits2 : run.write2.message.length ≤ maxHandshakePayloadSize := by
  rw [run.length2]
  decide

theorem fits3 : run.write3.message.length ≤ maxHandshakePayloadSize := by
  rw [run.length3]
  decide

end HonestRun

/-- The client's side of a handshake, at a step. -/
def initiatorAt (pin : List UInt8) (state : N.State) (step : HandshakeStep) : Handshake N :=
  ⟨some state, .initiator, step, pin, none⟩

/-- The server's side of a handshake, at a step. -/
def responderAt (state : N.State) (step : HandshakeStep) : Handshake N :=
  ⟨some state, .responder, step, [], none⟩

/-- The pin of the client admits the server. -/
def Pinned (client : ClientConfig) (server : ServerConfig) : Prop :=
  client.serverStatic ≠ [] → server.staticKey.publicKey.val = client.serverStatic

variable (run : HonestRun N client.staticKey server.staticKey clientRandom serverRandom
  handshakePrologue)

theorem initiator_admits_iff (state : N.State) (step : HandshakeStep) :
    (initiatorAt client.serverStatic state step).Admits (N.peerStatic run.write3.state) ↔
      Pinned client server := by
  rw [run.initiator_peer]
  exact and_iff_right server.staticKey.publicKey.property

theorem responder_admits (state : N.State) (step : HandshakeStep) :
    (responderAt state step).Admits (N.peerStatic run.read3.state) := by
  rw [run.responder_peer]
  exact ⟨client.staticKey.publicKey.property, fun hset => absurd rfl hset⟩

/-- The client in an honest run: it writes its first flight, reads the server's, and
writes its last one if the pin admits the server. -/
theorem establishClient_honest (hkey : client.staticKey.validate N = .ok ())
    (hpin : client.serverStatic.length = 0 ∨ client.serverStatic.length = noiseKeySize) :
    ∃ afterWrite afterRead,
      establishClient N client clientRandom = .writeFrame run.frame1 afterWrite ∧
      afterWrite (.ok ()) = .readFrame afterRead ∧
      (Pinned client server → ∃ afterFinish,
        afterRead (.ok run.frame2) = .writeFrame run.frame3 afterFinish ∧
        afterFinish (.ok ()) = .done (.ok run.initiatorResult)) ∧
      (¬ Pinned client server → ∃ err, afterRead (.ok run.frame2) = .done (.error err)) := by
  let pin := client.serverStatic
  have hnew : newInitiatorHandshake N client.staticKey client.serverStatic clientRandom =
      .ok (initiatorAt pin run.initiator .initiatorWrite1) := by
    simp only [newInitiatorHandshake, newHandshake, hkey]
    rw [if_neg (by omega)]
    simp only [decide_true, run.initiator_new, if_true]
    rfl
  have hwrite1 : (initiatorAt pin run.initiator .initiatorWrite1).writeFlight =
      (initiatorAt pin run.write1.state .initiatorRead2, .ok (initFlight run.write1.message)) :=
    Handshake.writeFlight_write1 rfl rfl run.write1_eq run.length1
  have hcheck : validateHandshakeFrame run.frame2 MessageType.handshakeResponse = .ok () :=
    validateHandshakeFrame_handshakeFrame (Or.inr rfl) run.fits2
  have hread2 : (initiatorAt pin run.write1.state .initiatorRead2).readFlight run.frame2.payload =
      (initiatorAt pin run.read2.state .initiatorWrite3, .ok ()) :=
    Handshake.readFlight_read2 rfl rfl run.length2 run.read2_eq
  have hwrite3 := Handshake.writeFlight_write3
    (h := initiatorAt pin run.read2.state .initiatorWrite3) rfl rfl run.write3_eq run.length3
    run.initiator_split
  unfold establishClient
  rw [hnew]
  simp only [hwrite1]
  refine ⟨_, _, rfl, rfl, ?_, ?_⟩
  · intro hpinned
    have hcomplete := Handshake.complete_of_admits run.first run.second
      ((initiator_admits_iff run run.read2.state .initiatorWrite3).mpr hpinned)
      (by rw [run.binding_eq, run.binding_length])
    rw [hcomplete] at hwrite3
    simp only [hcheck, hread2, hwrite3]
    exact ⟨_, rfl, rfl⟩
  · intro hother
    obtain ⟨err, hcomplete⟩ := Handshake.complete_of_not_admits run.first run.second
      (mt (initiator_admits_iff run run.read2.state .initiatorWrite3).mp hother)
    rw [hcomplete] at hwrite3
    simp only [hcheck, hread2, hwrite3]
    exact ⟨_, rfl⟩

/-- What the server returns after an honest run. -/
def serverOutcome (P : Primitives) (now : Time) : HandshakeOutcome :=
  if 0 < server.allowedClients.length ∧
      isClientAllowed client.staticKey.publicKey server.allowedClients = false then
    (.error Sentinel.clientNotPermitted.bare, HandshakeResult.zero)
  else
    (newSessionFromHandshake P server.cipherSuite run.responderResult now, run.responderResult)

theorem serverOutcome_allowed (P : Primitives) (now : Time)
    (h : server.allowedClients = [] ∨
      client.staticKey.publicKey.val ∈ server.allowedClients) :
    serverOutcome run P now =
      (newSessionFromHandshake P server.cipherSuite run.responderResult now,
        run.responderResult) := by
  apply if_neg
  rintro ⟨hlist, hdenied⟩
  rcases h with hempty | hmem
  · rw [hempty] at hlist
    exact Nat.lt_irrefl 0 hlist
  · rw [(isClientAllowed_iff _ _).mpr hmem] at hdenied
    cases hdenied

theorem serverOutcome_denied (P : Primitives) (now : Time) (hlist : server.allowedClients ≠ [])
    (hmem : client.staticKey.publicKey.val ∉ server.allowedClients) :
    serverOutcome run P now =
      (.error Sentinel.clientNotPermitted.bare, HandshakeResult.zero) := by
  apply if_pos
  refine ⟨List.length_pos_iff.mpr hlist, ?_⟩
  rw [← Bool.not_eq_true, isClientAllowed_iff]
  exact hmem

/-- The server in an honest run: it reads, writes and reads, and looks at its allowlist. -/
theorem performHandshake_honest (P : Primitives) (now : Time)
    (hkey : server.staticKey.validate N = .ok ()) :
    ∃ afterInit, performHandshake N P server serverRandom now = .readFrame afterInit ∧
      ∃ afterWrite, afterInit (.ok run.frame1) = .writeFrame run.frame2 afterWrite ∧
        ∃ afterFinish, afterWrite (.ok ()) = .readFrame afterFinish ∧
          afterFinish (.ok run.frame3) = .done (serverOutcome run P now) := by
  have hnew : newResponderHandshake N server.staticKey [] serverRandom =
      .ok (responderAt run.responder .responderRead1) := by
    simp only [newResponderHandshake, newHandshake, hkey]
    rw [if_neg (by simp)]
    simp only [reduceCtorEq, decide_false, run.responder_new, if_false]
    rfl
  have hcheck1 : validateHandshakeFrame run.frame1 MessageType.handshakeInit = .ok () :=
    validateHandshakeFrame_handshakeFrame (Or.inl rfl) run.fits1
  have hread1 : (responderAt run.responder .responderRead1).readFlight run.frame1.payload =
      (responderAt run.read1.state .responderWrite2, .ok ()) :=
    Handshake.readFlight_read1 rfl rfl run.length1 run.read1_eq
  have hwrite2 : (responderAt run.read1.state .responderWrite2).writeFlight =
      (responderAt run.write2.state .responderRead3, .ok run.write2.message) :=
    Handshake.writeFlight_write2 rfl rfl run.write2_eq run.length2
  have hframe2 := newFrame_handshake (Or.inr rfl) run.fits2
  have hcheck3 : validateHandshakeFrame run.frame3 MessageType.handshakeResponse = .ok () :=
    validateHandshakeFrame_handshakeFrame (Or.inr rfl) run.fits3
  have hcomplete := Handshake.complete_of_admits run.first run.second
    (responder_admits run run.write2.state .responderRead3) run.binding_length
  have hread3 : (responderAt run.write2.state .responderRead3).readFlight run.frame3.payload =
      (⟨none, .responder, .complete, [], some run.responderResult⟩, .ok ()) :=
    Handshake.readFlight_read3 rfl rfl run.length3 run.read3_eq run.responder_split hcomplete
  have hpeer : run.responderResult.peerStatic = client.staticKey.publicKey :=
    run.results_agree.2.2.2.2
  unfold performHandshake
  rw [hnew]
  refine ⟨_, rfl, ?_⟩
  simp only [hcheck1, hread1, hwrite2, hframe2]
  refine ⟨_, rfl, _, rfl, ?_⟩
  simp only [performHandshake.finish, hcheck3, hread3, Handshake.isComplete, Handshake.finalResult,
    decide_true, Bool.true_eq_false, if_false, hpeer, serverOutcome]
  split_ifs
  · rfl
  · rfl

/-! ## Agreement -/

/-- The type of frame that a step reads. -/
def HandshakeStep.frameType : HandshakeStep → MessageType
  | .responderRead1 => MessageType.handshakeInit
  | _ => MessageType.handshakeResponse

/-- The Noise message that a driver recovers from a frame at a step, if it accepts it. -/
def acceptedMessage (step : HandshakeStep) (frame : Frame) : Option (List UInt8) :=
  match validateHandshakeFrame frame step.frameType with
  | .error _ => none
  | .ok () => Handshake.unwrapFlight step frame.payload

theorem acceptedMessage_handshakeFrame {step : HandshakeStep} (h : IsHandshakeType step.frameType)
    (hfits : flight.length ≤ maxHandshakePayloadSize)
    (hunwrap : Handshake.unwrapFlight step flight = some message) :
    acceptedMessage step (handshakeFrame step.frameType flight) = some message := by
  simp only [acceptedMessage, validateHandshakeFrame_handshakeFrame h hfits]
  exact hunwrap

theorem acceptedMessage_frame1 :
    acceptedMessage .responderRead1 run.frame1 = some run.write1.message :=
  acceptedMessage_handshakeFrame (Or.inl rfl) run.fits1 (unwrapFlight_init run.length1)

theorem acceptedMessage_frame2 :
    acceptedMessage .initiatorRead2 run.frame2 = some run.write2.message :=
  acceptedMessage_handshakeFrame (Or.inr rfl) run.fits2 (unwrapFlight_response run.length2)

theorem acceptedMessage_frame3 :
    acceptedMessage .responderRead3 run.frame3 = some run.write3.message :=
  acceptedMessage_handshakeFrame (Or.inr rfl) run.fits3 (unwrapFlight_finish run.length3)

/-- The frames that were received are these flights, in order. -/
def Recovered (received : List Frame) (flights : List (HandshakeStep × List UInt8)) : Prop :=
  List.Forall₂ (fun frame flight => acceptedMessage flight.1 frame = some flight.2) received
    (flights.take received.length)

open Establishment

/-- The honest run of the two drivers, up to the client's second flight. -/
theorem settles_of_second (P : Primitives) (now : Time)
    {afterWrite : Except Error Unit → Exchange (Except Error HandshakeResult)}
    {afterRead : Except Error Frame → Exchange (Except Error HandshakeResult)}
    {afterInit afterFinish : Except Error Frame → Exchange HandshakeOutcome}
    {afterResponse : Except Error Unit → Exchange HandshakeOutcome} {final : Establishment}
    (hclient1 : establishClient N client clientRandom = .writeFrame run.frame1 afterWrite)
    (hclient2 : afterWrite (.ok ()) = .readFrame afterRead)
    (hserver1 : performHandshake N P server serverRandom now = .readFrame afterInit)
    (hserver2 : afterInit (.ok run.frame1) = .writeFrame run.frame2 afterResponse)
    (hserver3 : afterResponse (.ok ()) = .readFrame afterFinish)
    (h : Settles ⟨⟨afterRead (.ok run.frame2), [run.frame1], [run.frame2]⟩,
      ⟨.readFrame afterFinish, [run.frame2], [run.frame1]⟩, [], []⟩ final) :
    Settles (start (establishClient N client clientRandom)
      (performHandshake N P server serverRandom now)) final := by
  have hframe1 := handshakeFrame_validate (Or.inl rfl) run.fits1
  have hframe2 := handshakeFrame_validate (Or.inr rfl) run.fits2
  rw [start, hclient1, hserver1]
  refine Settles.client (advance_writeFrame rfl hframe1 _) (advance_readFrame_nil rfl) ?_
  refine Settles.server (advance_readFrame rfl (Frame.validateReceive_of_validate hframe1)
    handshakeFrame_tagCanonical) (advance_readFrame_nil hclient2) ?_
  refine Settles.server (advance_writeFrame hserver2 hframe2 _) (advance_readFrame_nil hclient2) ?_
  refine Settles.client (advance_readFrame hclient2 (Frame.validateReceive_of_validate hframe2)
    handshakeFrame_tagCanonical) (advance_readFrame_nil hserver3) ?_
  rw [← hserver3] at h
  exact h

/-- With a pin that admits the server both drivers return. -/
theorem settles_of_pinned (P : Primitives) (now : Time)
    (hclient : client.staticKey.validate N = .ok ())
    (hserver : server.staticKey.validate N = .ok ())
    (hpin : client.serverStatic.length = 0 ∨ client.serverStatic.length = noiseKeySize)
    (hadmits : Pinned client server) :
    Settles (start (establishClient N client clientRandom)
        (performHandshake N P server serverRandom now))
      ⟨⟨.done (.ok run.initiatorResult), [run.frame1, run.frame3], [run.frame2]⟩,
        ⟨.done (serverOutcome run P now), [run.frame2], [run.frame1, run.frame3]⟩, [], []⟩ := by
  obtain ⟨afterInit, hserver1, afterResponse, hserver2, afterFinish, hserver3, hserver4⟩ :=
    performHandshake_honest run P now hserver
  obtain ⟨afterWrite, afterRead, hclient1, hclient2, hpinned, -⟩ :=
    establishClient_honest run hclient hpin
  obtain ⟨afterLast, hclient3, hclient4⟩ := hpinned hadmits
  have hframe3 := handshakeFrame_validate (Or.inr rfl) run.fits3
  apply settles_of_second run P now hclient1 hclient2 hserver1 hserver2 hserver3
  refine Settles.client (advance_writeFrame hclient3 hframe3 _) (advance_readFrame_nil rfl) ?_
  refine Settles.server (advance_readFrame rfl (Frame.validateReceive_of_validate hframe3)
    handshakeFrame_tagCanonical) (advance_done hclient4 _) ?_
  rw [← hclient4, ← hserver4]
  exact Settles.stuck (advance_done hclient4 _) (advance_done hserver4 _)

/-- With another pin the client stops after the server's flight. -/
theorem settles_of_not_pinned (P : Primitives) (now : Time)
    (hclient : client.staticKey.validate N = .ok ())
    (hserver : server.staticKey.validate N = .ok ())
    (hpin : client.serverStatic.length = 0 ∨ client.serverStatic.length = noiseKeySize)
    (hother : ¬ Pinned client server) :
    ∃ clientEnd serverEnd, Settles (start (establishClient N client clientRandom)
        (performHandshake N P server serverRandom now))
      ⟨⟨clientEnd, [run.frame1], [run.frame2]⟩, ⟨serverEnd, [run.frame2], [run.frame1]⟩,
        [], []⟩ := by
  obtain ⟨afterInit, hserver1, afterResponse, hserver2, afterFinish, hserver3, -⟩ :=
    performHandshake_honest run P now hserver
  obtain ⟨afterWrite, afterRead, hclient1, hclient2, -, hstops⟩ :=
    establishClient_honest run hclient hpin
  obtain ⟨err, hclient3⟩ := hstops hother
  refine ⟨afterRead (.ok run.frame2), .readFrame afterFinish, ?_⟩
  apply settles_of_second run P now hclient1 hclient2 hserver1 hserver2 hserver3
  exact Settles.stuck (advance_done hclient3 _) (advance_readFrame_nil rfl)

include run in
/-- With a pin of another size than a key the client does not start. -/
theorem settles_of_bad_pin (P : Primitives) (now : Time)
    (hserver : server.staticKey.validate N = .ok ())
    (hpin : ¬ (client.serverStatic.length = 0 ∨ client.serverStatic.length = noiseKeySize)) :
    Settles
      (start (establishClient N client clientRandom)
        (performHandshake N P server serverRandom now))
      (start (establishClient N client clientRandom)
        (performHandshake N P server serverRandom now)) := by
  obtain ⟨afterInit, hserver1, -⟩ := performHandshake_honest run P now hserver
  have hrefused : ∃ err, newInitiatorHandshake N client.staticKey client.serverStatic
      clientRandom = .error err := by
    unfold newInitiatorHandshake newHandshake
    split
    · exact ⟨_, rfl⟩
    · rw [if_pos (not_or.mp hpin)]
      exact ⟨_, rfl⟩
  obtain ⟨err, hnew⟩ := hrefused
  have hclient1 : establishClient N client clientRandom = establishFail err := by
    rw [establishClient, hnew]
  exact Settles.stuck (advance_done hclient1 _) (advance_readFrame_nil hserver1)

end Scripts

/-- An honest client and an honest server on one connection, for all key pairs and all
ephemeral randomness.  The exchange comes to one end.  Each side has received exactly
the frames of the other, accepted them and recovered the exact Noise messages.  If the
client's pin is the server's key, both complete with one session ID, crossed keys and
each other's key: the server returns the session of its result, unless its allowlist
excludes the client.  With ChaCha20-Poly1305 and a nonzero identifier that session exists. -/
theorem handshake_agreement {N : HandshakePrimitives} (hnoise : N.HonestRuns) (P : Primitives)
    (client : ClientConfig) (server : ServerConfig) (clientRandom serverRandom : Reader)
    (now : Time) (hclient : client.staticKey.validate N = .ok ())
    (hserver : server.staticKey.validate N = .ok ())
    (hclientRandom : 32 ≤ clientRandom.octets.length)
    (hserverRandom : 32 ≤ serverRandom.octets.length) :
    ∃ (run : HonestRun N client.staticKey server.staticKey clientRandom serverRandom
        handshakePrologue) (final : Establishment),
      Establishment.Settles (Establishment.start (establishClient N client clientRandom)
        (performHandshake N P server serverRandom now)) final ∧
      final.server.received = final.client.sent ∧ final.client.received = final.server.sent ∧
      Recovered final.server.received
        [(.responderRead1, run.write1.message), (.responderRead3, run.write3.message)] ∧
      Recovered final.client.received [(.initiatorRead2, run.write2.message)] ∧
      (client.serverStatic = server.staticKey.publicKey.val →
        final.client.sent.length = 2 ∧ final.server.sent.length = 1 ∧
        ∃ initiator responder : HandshakeResult,
          final.client.exchange = .done (.ok initiator) ∧
          initiator.sessionID = responder.sessionID ∧
          responder.sessionID = transcriptSessionID N (N.channelBinding run.read3.state) ∧
          initiator.sendKey = responder.receiveKey ∧
          initiator.receiveKey = responder.sendKey ∧
          initiator.peerStatic = server.staticKey.publicKey ∧
          responder.peerStatic = client.staticKey.publicKey ∧
          (server.allowedClients = [] ∨ client.staticKey.publicKey.val ∈ server.allowedClients →
            final.server.exchange =
              .done (newSessionFromHandshake P server.cipherSuite responder now, responder)) ∧
          (server.allowedClients ≠ [] → client.staticKey.publicKey.val ∉ server.allowedClients →
            final.server.exchange =
              .done (.error Sentinel.clientNotPermitted.bare, HandshakeResult.zero)) ∧
          (P.NewSucceeds → server.cipherSuite = cipherChaCha20Poly1305 →
            responder.sessionID ≠ Octets.zero 16 →
            newSessionFromHandshake P server.cipherSuite responder now =
              .ok (initialSession cipherChaCha20Poly1305 responder.secrets ⟨responder.sendKey⟩
                ⟨responder.receiveKey⟩ now))) := by
  obtain ⟨run⟩ := hnoise client.staticKey server.staticKey clientRandom serverRandom
    handshakePrologue hclient hserver hclientRandom hserverRandom
  have hfirst := acceptedMessage_frame1 run
  have hsecond := acceptedMessage_frame2 run
  refine ⟨run, ?_⟩
  by_cases hpin : client.serverStatic.length = 0 ∨ client.serverStatic.length = noiseKeySize
  · by_cases hadmits : Pinned client server
    · refine ⟨_, settles_of_pinned run P now hclient hserver hpin hadmits, rfl, rfl,
        .cons hfirst (.cons (acceptedMessage_frame3 run) .nil), .cons hsecond .nil, ?_⟩
      intro _
      obtain ⟨hsession, hsend, hreceive, hinitiator, hresponder⟩ := run.results_agree
      refine ⟨rfl, rfl, run.initiatorResult, run.responderResult, rfl, hsession, rfl, hsend,
        hreceive, hinitiator, hresponder, ?_, ?_, ?_⟩
      · intro hallowed
        exact congrArg Exchange.done (serverOutcome_allowed run P now hallowed)
      · intro hlist hmem
        exact congrArg Exchange.done (serverOutcome_denied run P now hlist hmem)
      · intro hnew hsuite hid
        rw [hsuite]
        exact newSession_of_new hnew hid now
    · obtain ⟨clientEnd, serverEnd, hsettles⟩ :=
        settles_of_not_pinned run P now hclient hserver hpin hadmits
      refine ⟨_, hsettles, rfl, rfl, .cons hfirst .nil, .cons hsecond .nil, ?_⟩
      intro hequal
      exact absurd (fun _ => hequal.symm) hadmits
  · refine ⟨_, settles_of_bad_pin run P now hserver hpin, rfl, rfl, .nil, .nil, ?_⟩
    intro hequal
    apply absurd _ hpin
    rw [hequal]
    exact Or.inr server.staticKey.publicKey.property

/-- A client of the plain exchange that pins the server's key. -/
def plainClient : ClientConfig :=
  ⟨plainKey 1, (plainKey 2).publicKey.val⟩

/-- A server of the plain exchange that allows that client. -/
def plainServer : ServerConfig :=
  ⟨plainKey 2, [(plainKey 1).publicKey.val], cipherChaCha20Poly1305⟩

/-- They agree, and the server has a session. -/
theorem handshake_agreement_plain :
    ∃ final initiator responder session,
      Establishment.Settles
        (Establishment.start (establishClient plainExchange plainClient ⟨List.replicate 32 7, none⟩)
          (performHandshake plainExchange transparent plainServer ⟨List.replicate 32 8, none⟩ 0))
        final ∧
      final.client.exchange = .done (.ok initiator) ∧
      initiator.sendKey = responder.receiveKey ∧
      final.server.exchange = .done (.ok session, responder) := by
  obtain ⟨run, final, hsettles, -, -, -, -, hresults⟩ :=
    handshake_agreement plainExchange_honestRuns transparent plainClient plainServer
      ⟨List.replicate 32 7, none⟩ ⟨List.replicate 32 8, none⟩ 0 rfl rfl (by decide) (by decide)
  obtain ⟨-, -, initiator, responder, hinitiator, -, hid, hsend, -, -, -, hallowed, -, hok⟩ :=
    hresults rfl
  have hnonzero : responder.sessionID ≠ Octets.zero 16 := by
    rw [hid]
    show transcriptSessionID plainExchange (List.replicate 32 0) ≠ Octets.zero 16
    decide
  have hserver := hallowed (.inr List.mem_cons_self)
  rw [hok transparent_newSucceeds rfl hnonzero] at hserver
  exact ⟨final, initiator, responder, _, hsettles, hinitiator, hsend, hserver⟩

end DgProto
