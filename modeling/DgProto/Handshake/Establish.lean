import DgProto.Handshake.StateMachine
import DgProto.Session.State
import DgProto.Transport.Lanes

/-!
# Establishing a connection

`establishClient` and `performHandshake` drive the two sides of a handshake over a
transport.  A driver is an `Exchange`: a program whose only effects are calls of
`WriteFrame` and `ReadFrame`.

An `Establishment` runs a client and a server against each other.  What one side writes
arrives at the other unmodified, and a read waits until the octets it asks for have
arrived.  `Settles` says that every run comes to an end, and to which.
-/

namespace DgProto

open Library Wire Crypto

/-! ## Drivers -/

/-- A program over a transport. -/
inductive Exchange (α : Type) where
  | done (result : α)
  | writeFrame (frame : Frame) (next : Except Error Unit → Exchange α)
  | readFrame (next : Except Error Frame → Exchange α)

/-- Whatever the transport answers, the driver returns a result of this kind. -/
def Exchange.Ensures {α : Type} (Q : α → Prop) : Exchange α → Prop
  | .done result => Q result
  | .writeFrame _ next => ∀ answer, (next answer).Ensures Q
  | .readFrame next => ∀ answer, (next answer).Ensures Q

/-- The same, for a kind that speaks of the frames that were read, after `reads`. -/
def Exchange.EnsuresReading {α : Type} (Q : List Frame → α → Prop) (reads : List Frame) :
    Exchange α → Prop
  | .done result => Q reads result
  | .writeFrame _ next => ∀ answer, (next answer).EnsuresReading Q reads
  | .readFrame next => (∀ frame, (next (.ok frame)).EnsuresReading Q (reads ++ [frame])) ∧
      ∀ err, (next (.error err)).EnsuresReading Q reads

/-- `validateHandshakeFrame`. -/
def validateHandshakeFrame (frame : Frame) (expected : MessageType) : Except Error Unit :=
  if frame.header.messageType ≠ expected then
    let want := hex02 expected.toNat
    let got := hex02 frame.header.messageType.toNat
    .error (Sentinel.handshakeFailed.wrap s!"expected handshake type 0x{want}, got 0x{got}")
  else if frame.header.sessionID ≠ Octets.zero 16 then
    .error (Sentinel.handshakeFailed.wrap "handshake session ID must be zero")
  else if frame.header.sequence ≠ 0 then
    .error (Sentinel.handshakeFailed.wrap "handshake sequence must be zero")
  else
    match frame.validateReceive with
    | .error err => .error (Sentinel.handshakeFailed.wrap err.text)
    | .ok () => .ok ()

/-- `HandshakeResult.Secrets`. -/
def HandshakeResult.secrets (r : HandshakeResult) : HandshakeSecrets :=
  ⟨r.sessionID, r.sendKey, r.receiveKey⟩

/-- `HandshakeResult{}`. -/
def HandshakeResult.zero : HandshakeResult :=
  ⟨Octets.zero 16, Octets.zero 32, Octets.zero 32, Octets.zero 32⟩

/-- `NewSessionFromHandshake`. -/
def newSessionFromHandshake (P : Primitives) (suite : CipherSuite) (result : HandshakeResult)
    (now : Time) : Except Error Session :=
  newSession P suite result.secrets now

/-- `ClientConfig`, as far as establishment reads it. -/
structure ClientConfig where
  staticKey : StaticKey
  serverStatic : List UInt8

/-- `ServerConfig`, as far as the handshake reads it. -/
structure ServerConfig where
  staticKey : StaticKey
  allowedClients : List (List UInt8)
  cipherSuite : CipherSuite

/-- The frame literal of `establishClient`. -/
def handshakeFrame (messageType : MessageType) (flight : List UInt8) : Frame where
  header := newHeader messageType (Octets.zero 16) 0 (UInt32.ofNat flight.length) 0
  payload := flight
  tag := Octets.zero 16
  padding := []

/-- The `fail` closure of `establishClient`, with a context that does not end. -/
def establishFail (err : Error) : Exchange (Except Error HandshakeResult) :=
  .done (.error (Sentinel.handshakeFailed.wrapBoth err))

/-- `establishClient`. -/
def establishClient (N : HandshakePrimitives) (config : ClientConfig) (random : Reader) :
    Exchange (Except Error HandshakeResult) :=
  match newInitiatorHandshake N config.staticKey config.serverStatic random with
  | .error err => establishFail err
  | .ok h =>
      match h.writeFlight with
      | (_, .error err) => establishFail err
      | (h, .ok flight) =>
          .writeFrame (handshakeFrame MessageType.handshakeInit flight) fun
            | .error err => establishFail err
            | .ok () =>
                .readFrame fun
                  | .error err => establishFail err
                  | .ok response =>
                      match validateHandshakeFrame response MessageType.handshakeResponse with
                      | .error err => establishFail err
                      | .ok () =>
                          match h.readFlight response.payload with
                          | (_, .error err) => establishFail err
                          | (h, .ok ()) =>
                              match h.writeFlight with
                              | (_, .error err) => establishFail err
                              | (h, .ok flight) =>
                                  .writeFrame
                                    (handshakeFrame MessageType.handshakeResponse flight) fun
                                    | .error err => establishFail err
                                    | .ok () =>
                                        match h.finalResult with
                                        | .error err => establishFail err
                                        | .ok result => .done (.ok result)

/-- `hmacEqual`. -/
def hmacEqual (a b : List UInt8) : Bool :=
  if a.length ≠ b.length then false
  else (List.zipWith (· ^^^ ·) a b).foldl (· ||| ·) 0 == 0

/-- `isClientAllowed`. -/
def isClientAllowed (clientStatic : Octets 32) (allowedList : List (List UInt8)) : Bool :=
  allowedList.any fun allowed => allowed.length == 32 && hmacEqual clientStatic.val allowed

/-- What `performHandshake` returns: a session or an error, and a result. -/
abbrev HandshakeOutcome := Except Error Session × HandshakeResult

/-- An error without a result. -/
def performFail (err : Error) : Exchange HandshakeOutcome :=
  .done (.error err, HandshakeResult.zero)

/-- `performHandshake`. -/
def performHandshake (N : HandshakePrimitives) (P : Primitives) (config : ServerConfig)
    (random : Reader) (now : Time) : Exchange HandshakeOutcome :=
  match newResponderHandshake N config.staticKey [] random with
  | .error err => performFail err
  | .ok responder =>
      .readFrame fun
        | .error err => performFail err
        | .ok frame1 =>
            match validateHandshakeFrame frame1 MessageType.handshakeInit with
            | .error err => performFail err
            | .ok () =>
                match responder.readFlight frame1.payload with
                | (_, .error err) => performFail err
                | (responder, .ok ()) =>
                    match responder.writeFlight with
                    | (_, .error err) => performFail err
                    | (responder, .ok flight2Payload) =>
                        match newFrame MessageType.handshakeResponse (Octets.zero 16) 0
                            flight2Payload (List.replicate aeadTagSize 0) [] with
                        | .error err => performFail err
                        | .ok frame2 =>
                            .writeFrame frame2 fun
                              | .error err => performFail err
                              | .ok () => .readFrame (finish responder)
where
  /-- The rest after the second flight was written. -/
  finish (responder : Handshake N) : Except Error Frame → Exchange HandshakeOutcome
    | .error err => performFail err
    | .ok frame3 =>
        match validateHandshakeFrame frame3 MessageType.handshakeResponse with
        | .error err => performFail err
        | .ok () =>
            match responder.readFlight frame3.payload with
            | (_, .error err) => performFail err
            | (responder, .ok ()) =>
                if responder.isComplete = false then
                  performFail Sentinel.handshakeFailed.bare
                else
                  match responder.finalResult with
                  | .error err => performFail err
                  | .ok result =>
                      if 0 < config.allowedClients.length ∧
                          isClientAllowed result.peerStatic config.allowedClients = false then
                        performFail Sentinel.clientNotPermitted.bare
                      else
                        .done (newSessionFromHandshake P config.cipherSuite result now, result)

/-! ## Two drivers on one connection -/

/-- One side: what its driver does next, and the frames it has sent and received. -/
structure Party (α : Type) where
  exchange : Exchange α
  sent : List Frame
  received : List Frame

/-- The octets that `ReadFrame` asks for have arrived. -/
def arrived (octets : List UInt8) : Bool :=
  decide (headerSize ≤ octets.length) &&
    match Header.unmarshalBinary (octets.take headerSize) with
    | .error _ => true
    | .ok header => decide (header.frameSize ≤ octets.length)

/-- The next step of a side, with the octets it leaves unread and those it writes; it has
none if its driver has returned or waits for octets. -/
def Party.advance {α : Type} (p : Party α) (incoming : List UInt8) :
    Option (Party α × List UInt8 × List UInt8) :=
  match p.exchange with
  | .done _ => none
  | .writeFrame frame next =>
      match frameWire frame with
      | .error err => some ({ p with exchange := next (.error err) }, incoming, [])
      | .ok wire =>
          some ({ p with exchange := next (.ok ()), sent := p.sent ++ [frame] }, incoming, wire)
  | .readFrame next =>
      if arrived incoming then
        match readFrame ⟨incoming, none⟩ with
        | .error err => some ({ p with exchange := next (.error err) }, incoming, [])
        | .ok (frame, rest) =>
            some ({ p with exchange := next (.ok frame), received := p.received ++ [frame] },
              rest.octets, [])
      else none

/-- A client and a server, and the octets that are on the way. -/
structure Establishment where
  client : Party (Except Error HandshakeResult)
  server : Party HandshakeOutcome
  toServer : List UInt8
  toClient : List UInt8

/-- Both drivers at their start. -/
def Establishment.start (client : Exchange (Except Error HandshakeResult))
    (server : Exchange HandshakeOutcome) : Establishment :=
  ⟨⟨client, [], []⟩, ⟨server, [], []⟩, [], []⟩

namespace Establishment

/-- The step of the client, if it has one. -/
def clientMove (s : Establishment) : List Establishment :=
  match s.client.advance s.toClient with
  | none => []
  | some (client, rest, out) =>
      [{ s with client := client, toClient := rest, toServer := s.toServer ++ out }]

/-- The step of the server, if it has one. -/
def serverMove (s : Establishment) : List Establishment :=
  match s.server.advance s.toServer with
  | none => []
  | some (server, rest, out) =>
      [{ s with server := server, toServer := rest, toClient := s.toClient ++ out }]

/-- Either side may move next. -/
def moves (s : Establishment) : List Establishment := s.clientMove ++ s.serverMove

/-- Every run from here ends, and it ends in `t`. -/
inductive Settles : Establishment → Establishment → Prop where
  | here {s : Establishment} (h : s.moves = []) : Settles s s
  | next {s t : Establishment} (hsome : s.moves ≠ []) (h : ∀ u ∈ s.moves, Settles u t) :
      Settles s t

/-! ## Runs -/

variable {s t : Establishment}

theorem arrived_nil : arrived [] = false := rfl

theorem arrived_octets {f : Frame} (h : f.validateReceive = .ok ()) : arrived f.octets = true := by
  obtain ⟨hcommon, -, -⟩ := (Frame.validateReceive_eq_ok_iff f).mp h
  have hheader : Header.unmarshalBinary (f.octets.take headerSize) = .ok f.header := by
    rw [Frame.take_headerSize_octets]
    simpa using Header.unmarshalBinary_octets_append []
      ((Header.validateReceive_eq_ok_iff f.header).mpr hcommon)
  have hsize := octets_length_of_validateReceive h
  have hlow := (frameSize_bounds h).1
  simp only [arrived, hheader, Bool.and_eq_true, decide_eq_true_eq]
  omega

section Advance

variable {α : Type} {p : Party α} {f : Frame}

theorem advance_done {result : α} (h : p.exchange = .done result) (incoming : List UInt8) :
    p.advance incoming = none := by
  simp only [Party.advance, h]

/-- A side that reads waits for the first octets. -/
theorem advance_readFrame_nil {next : Except Error Frame → Exchange α}
    (h : p.exchange = .readFrame next) : p.advance [] = none := by
  simp [Party.advance, h, arrived_nil]

theorem advance_writeFrame {next : Except Error Unit → Exchange α}
    (h : p.exchange = .writeFrame f next) (hvalid : f.validate = .ok ())
    (incoming : List UInt8) :
    p.advance incoming = some (⟨next (.ok ()), p.sent ++ [f], p.received⟩, incoming, f.octets) := by
  simp only [Party.advance, h, frameWire_of_validate hvalid]

theorem advance_readFrame {next : Except Error Frame → Exchange α}
    (h : p.exchange = .readFrame next) (hvalid : f.validateReceive = .ok ())
    (htag : f.TagCanonical) :
    p.advance f.octets = some (⟨next (.ok f), p.sent, p.received ++ [f]⟩, [], []) := by
  have hread := readFrame_octets_append hvalid htag [] none
  rw [List.append_nil] at hread
  simp only [Party.advance, h, arrived_octets hvalid, if_true, hread]

end Advance

/-- There is one move. -/
theorem Settles.only {u : Establishment} (hmoves : s.moves = [u]) (h : Settles u t) :
    Settles s t := by
  refine .next (by rw [hmoves]; exact List.cons_ne_nil _ _) fun v hv => ?_
  rw [hmoves] at hv
  rwa [List.mem_singleton.mp hv]

/-- Only the client can move. -/
theorem Settles.client {client : Party (Except Error HandshakeResult)} {rest out : List UInt8}
    (hclient : s.client.advance s.toClient = some (client, rest, out))
    (hserver : s.server.advance s.toServer = none)
    (h : Settles { s with client := client, toClient := rest, toServer := s.toServer ++ out } t) :
    Settles s t := by
  refine .only ?_ h
  simp only [moves, clientMove, serverMove, hclient, hserver, List.append_nil]

/-- Only the server can move. -/
theorem Settles.server {server : Party HandshakeOutcome} {rest out : List UInt8}
    (hserver : s.server.advance s.toServer = some (server, rest, out))
    (hclient : s.client.advance s.toClient = none)
    (h : Settles { s with server := server, toServer := rest, toClient := s.toClient ++ out } t) :
    Settles s t := by
  refine .only ?_ h
  simp only [moves, clientMove, serverMove, hclient, hserver, List.nil_append]

/-- Nobody can move. -/
theorem Settles.stuck (hclient : s.client.advance s.toClient = none)
    (hserver : s.server.advance s.toServer = none) : Settles s s := by
  apply Settles.here
  simp only [moves, clientMove, serverMove, hclient, hserver, List.append_nil]

end Establishment

end DgProto
