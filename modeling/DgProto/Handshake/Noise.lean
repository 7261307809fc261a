import DgProto.Crypto.Codec

/-!
# Static keys and the Noise library

The handshake rests on `github.com/flynn/noise` and on SHA-256.  Both come from
outside the repository and are a parameter of the development: a Noise state
machine that can fail at any call.

What an honest exchange needs of it is `HonestRuns`: for all key pairs and all
ephemeral randomness the three messages of pattern XX pass between a fresh initiator
and a fresh responder, with the sizes of the pattern, and leave both sides with one
channel binding, one ordered pair of split keys and the other side's static key.
-/

namespace DgProto

open Library Crypto

/-- `noiseKeySize`. -/
def noiseKeySize : Nat := 32

/-- `StaticKey`, a Noise X25519 static identity. -/
structure StaticKey where
  privateKey : Octets 32
  publicKey : Octets 32
  deriving DecidableEq

/-- What a successful `WriteMessage` or `ReadMessage` leaves: the state, the octets it
returns and the keys of its two cipher states, which are nil before the last message. -/
structure NoiseStep (State : Type) where
  state : State
  message : List UInt8
  first : Option Key
  second : Option Key

/-- The packages the handshake rests on.  The source does not look at their errors. -/
structure HandshakePrimitives where
  /-- `noise.HandshakeState` for the fixed suite and pattern XX. -/
  State : Type
  /-- `noise.DH25519.GenerateKeypair`: a private and a public key. -/
  generateKeypair : Reader → Option (List UInt8 × List UInt8)
  /-- `noise.NewHandshakeState`: random source, initiator, prologue, static key pair. -/
  newHandshakeState : Reader → Bool → List UInt8 → StaticKey → Option State
  /-- `WriteMessage(nil, nil)`. -/
  writeMessage : State → Option (NoiseStep State)
  /-- `ReadMessage(nil, message)`. -/
  readMessage : State → List UInt8 → Option (NoiseStep State)
  /-- `PeerStatic`. -/
  peerStatic : State → List UInt8
  /-- `ChannelBinding`. -/
  channelBinding : State → List UInt8
  /-- `sha256.Sum256`. -/
  sha256 : List UInt8 → Octets 32

/-! ## Static keys -/

/-- `staticKeyFromPair`. -/
def staticKeyFromPair (pair : List UInt8 × List UInt8) : Except Error StaticKey :=
  if pair.1.length ≠ noiseKeySize ∨ pair.2.length ≠ noiseKeySize then
    .error Sentinel.handshake.bare
  else
    .ok ⟨Octets.copy 32 pair.1, Octets.copy 32 pair.2⟩

/-- `LoadStaticKey`. -/
def loadStaticKey (N : HandshakePrimitives) (secret : List UInt8) : Except Error StaticKey :=
  if secret.length ≠ noiseKeySize then
    .error Sentinel.handshake.bare
  else
    match N.generateKeypair ⟨secret, none⟩ with
    | none => .error Sentinel.handshake.bare
    | some pair => staticKeyFromPair pair

/-- `StaticKey.validate`. -/
def StaticKey.validate (N : HandshakePrimitives) (k : StaticKey) : Except Error Unit :=
  if k.privateKey = Octets.zero 32 ∨ k.publicKey = Octets.zero 32 then
    .error Sentinel.invalidStaticKey.bare
  else
    match loadStaticKey N k.privateKey.val with
    | .error _ => .error Sentinel.invalidStaticKey.bare
    | .ok derived =>
        if derived.publicKey ≠ k.publicKey then .error Sentinel.invalidStaticKey.bare
        else .ok ()

/-! ## Honest runs -/

/-- The three messages of one run, and what the two sides hold at its end. -/
structure HonestRun (N : HandshakePrimitives) (initiatorKey responderKey : StaticKey)
    (initiatorRandom responderRandom : Reader) (prologue : List UInt8) where
  initiator : N.State
  responder : N.State
  write1 : NoiseStep N.State
  read1 : NoiseStep N.State
  write2 : NoiseStep N.State
  read2 : NoiseStep N.State
  write3 : NoiseStep N.State
  read3 : NoiseStep N.State
  first : Key
  second : Key
  initiator_new : N.newHandshakeState initiatorRandom true prologue initiatorKey = some initiator
  responder_new : N.newHandshakeState responderRandom false prologue responderKey = some responder
  write1_eq : N.writeMessage initiator = some write1
  read1_eq : N.readMessage responder write1.message = some read1
  write2_eq : N.writeMessage read1.state = some write2
  read2_eq : N.readMessage write1.state write2.message = some read2
  write3_eq : N.writeMessage read2.state = some write3
  read3_eq : N.readMessage write2.state write3.message = some read3
  length1 : write1.message.length = 32
  length2 : write2.message.length = 96
  length3 : write3.message.length = 64
  initiator_split : write3.first = some first ∧ write3.second = some second
  responder_split : read3.first = some first ∧ read3.second = some second
  binding_eq : N.channelBinding write3.state = N.channelBinding read3.state
  /-- The binding is a SHA-256 hash. -/
  binding_length : (N.channelBinding read3.state).length = 32
  initiator_peer : N.peerStatic write3.state = responderKey.publicKey.val
  responder_peer : N.peerStatic read3.state = initiatorKey.publicKey.val

/-- All key pairs and all ephemeral randomness give an honest run.  An ephemeral key
takes 32 random octets. -/
def HandshakePrimitives.HonestRuns (N : HandshakePrimitives) : Prop :=
  ∀ (initiatorKey responderKey : StaticKey) (initiatorRandom responderRandom : Reader)
    (prologue : List UInt8),
    initiatorKey.validate N = .ok () → responderKey.validate N = .ok () →
    32 ≤ initiatorRandom.octets.length → 32 ≤ responderRandom.octets.length →
    Nonempty (HonestRun N initiatorKey responderKey initiatorRandom responderRandom prologue)

/-! ## A model of the assumption

A plain exchange of the keys has honest runs: the ephemeral keys are the random
octets, a static key is sent in clear with room for the tags, a public key is the
private one, and the binding is a hash that counts octets. -/

/-- One side of the plain exchange. -/
structure PlainState where
  random : List UInt8
  own : Octets 32
  peer : List UInt8
  deriving DecidableEq

/-- The plain exchange.  A first message has 32 octets, a second one 96 and a third 64,
so a side can tell which one it reads; a side that knows its peer, or that holds random
octets it has not sent, can tell which one it writes. -/
def plainExchange : HandshakePrimitives where
  State := Bool × PlainState
  generateKeypair random := some (random.octets.take 32, random.octets.take 32)
  newHandshakeState random initiator _ key :=
    some (initiator, ⟨random.octets.take 32, key.publicKey, []⟩)
  writeMessage
    | (true, s) =>
        if s.peer = [] then some ⟨(true, s), s.random, none, none⟩
        else
          some ⟨(true, s), s.own.val ++ List.replicate 32 0, some (counterKey 1),
            some (counterKey 2)⟩
    | (false, s) =>
        some ⟨(false, s), s.random ++ (s.own.val ++ List.replicate 32 0), none, none⟩
  readMessage
    | (true, s), message =>
        some ⟨(true, { s with peer := slice message 32 64 }), [], none, none⟩
    | (false, s), message =>
        if message.length = 32 then some ⟨(false, s), [], none, none⟩
        else
          some ⟨(false, { s with peer := message.take 32 }), [], some (counterKey 1),
            some (counterKey 2)⟩
  peerStatic s := s.2.peer
  channelBinding _ := List.replicate 32 0
  sha256 octets := ⟨putNat 32 octets.length, putNat_length 32 _⟩

theorem plainExchange_honestRuns : plainExchange.HonestRuns := by
  intro initiatorKey responderKey initiatorRandom responderRandom prologue _ _ hinitiator hresponder
  have hinitiatorRandom : (initiatorRandom.octets.take 32).length = 32 := by simp [hinitiator]
  have hresponderRandom : (responderRandom.octets.take 32).length = 32 := by simp [hresponder]
  have hinitiatorOwn := initiatorKey.publicKey.property
  have hresponderOwn := responderKey.publicKey.property
  have hstatic : slice (responderRandom.octets.take 32 ++
      (responderKey.publicKey.val ++ List.replicate 32 0)) 32 64 = responderKey.publicKey.val :=
    slice_of_eq_append _ rfl hresponderRandom (by rw [hresponderRandom, hresponderOwn])
  have hpeer : (responderKey.publicKey.val : List UInt8) ≠ [] := by
    intro hempty
    rw [hempty] at hresponderOwn
    cases hresponderOwn
  let initiator : PlainState := ⟨initiatorRandom.octets.take 32, initiatorKey.publicKey, []⟩
  let responder : PlainState := ⟨responderRandom.octets.take 32, responderKey.publicKey, []⟩
  let message2 := responder.random ++ (responder.own.val ++ List.replicate 32 0)
  let message3 := initiator.own.val ++ List.replicate 32 0
  constructor
  exact
    { initiator := (true, initiator)
      responder := (false, responder)
      write1 := ⟨(true, initiator), initiator.random, none, none⟩
      read1 := ⟨(false, responder), [], none, none⟩
      write2 := ⟨(false, responder), message2, none, none⟩
      read2 := ⟨(true, { initiator with peer := responderKey.publicKey.val }), [], none, none⟩
      write3 := ⟨(true, { initiator with peer := responderKey.publicKey.val }), message3,
        some (counterKey 1), some (counterKey 2)⟩
      read3 := ⟨(false, { responder with peer := initiatorKey.publicKey.val }), [],
        some (counterKey 1), some (counterKey 2)⟩
      first := counterKey 1
      second := counterKey 2
      initiator_new := rfl
      responder_new := rfl
      write1_eq := rfl
      read1_eq := by simp [plainExchange, initiator, hinitiatorRandom]
      write2_eq := rfl
      read2_eq := by simp only [plainExchange, message2, responder, hstatic]
      write3_eq := by simp [plainExchange, hpeer, message3]
      read3_eq := by simp [plainExchange, message3, initiator, hinitiatorOwn]
      length1 := hinitiatorRandom
      length2 := by simp [message2, responder, hresponder, hresponderOwn]
      length3 := by simp [message3, initiator, hinitiatorOwn]
      initiator_split := ⟨rfl, rfl⟩
      responder_split := ⟨rfl, rfl⟩
      binding_eq := rfl
      binding_length := rfl
      initiator_peer := rfl
      responder_peer := rfl }

/-- A key pair of the plain exchange. -/
def plainKey (value : UInt8) : StaticKey :=
  ⟨⟨List.replicate 32 value, rfl⟩, ⟨List.replicate 32 value, rfl⟩⟩

end DgProto
