import DgProto.Client.Stages
import DgProto.Handshake.Agreement
import DgProto.Peers.InOrder
import DgProto.Server.Identity

/-!
# From two configurations to the handlers

A client and a server are configured, the client dials and a worker of the server takes the socket.
Over a network that carries octets unmodified and in order, their drivers agree
(`settles_of_pinned`), each side makes its session of its own result, and the connections of these
sessions deliver in order (`Peers.invoked_front`, `Peers.invoked_all`).  What is left to say here is
that the results of the two drivers are the two sides of one secret, under the one cipher suite
that both configurations allow.
-/

namespace DgProto

open Library Wire Crypto

/-- One value for each side. -/
def Side.of {α : Type} (client server : α) : Side → α
  | .client => client
  | .server => server

section Stack

variable {N : HandshakePrimitives} {P : Primitives} {client : ClientConfig} {server : ServerConfig}
  {clientRandom serverRandom : Reader}

/-- The results of an honest run are the two sides of one secret. -/
theorem HonestRun.secrets_crossed
    (run : HonestRun N client.staticKey server.staticKey clientRandom serverRandom
      handshakePrologue) :
    run.responderResult.secrets = run.initiatorResult.secrets.crossed := by
  obtain ⟨hid, hsend, hreceive, -, -⟩ := run.results_agree
  unfold HandshakeResult.secrets HandshakeSecrets.crossed
  rw [hid, hsend, hreceive]

/-- Both sessions come from the secrets of the client. -/
theorem HonestRun.sessions
    (run : HonestRun N client.staticKey server.staticKey clientRandom serverRandom
      handshakePrologue) {clientNow serverNow : Time} {clientSession serverSession : Session}
    (hclient : newSessionFromHandshake P cipherChaCha20Poly1305 run.initiatorResult clientNow =
      .ok clientSession)
    (hserver : newSessionFromHandshake P cipherChaCha20Poly1305 run.responderResult serverNow =
      .ok serverSession) (side : Side) :
    newSession P cipherChaCha20Poly1305 (side.secrets run.initiatorResult.secrets)
      (Side.of clientNow serverNow side) = .ok (Side.of clientSession serverSession side) := by
  cases side with
  | client => exact hclient
  | server =>
      show newSession P _ run.initiatorResult.secrets.crossed serverNow = _
      rw [← run.secrets_crossed]
      exact hserver

/-- Both drivers return, the one of the server with what `NewSessionFromHandshake` makes of its
result. -/
theorem HonestRun.settles (client : ClientConfig) (server : ServerConfig)
    (run : HonestRun N client.staticKey server.staticKey clientRandom serverRandom
      handshakePrologue) (P : Primitives) (now : Time)
    (hclient : client.staticKey.validate N = .ok ())
    (hserver : server.staticKey.validate N = .ok ())
    (hlength : client.serverStatic.length = noiseKeySize) (hpinned : Pinned client server)
    (hallowed : server.allowedClients = [] ∨
      client.staticKey.publicKey.val ∈ server.allowedClients) :
    ∃ final : Establishment,
      Establishment.Settles
        (Establishment.start (establishClient N client clientRandom)
          (performHandshake N P server serverRandom now)) final ∧
      final.client.exchange = .done (.ok run.initiatorResult) ∧
      final.server.exchange = .done
        (newSessionFromHandshake P server.cipherSuite run.responderResult now,
          run.responderResult) := by
  refine ⟨_, settles_of_pinned run P now hclient hserver (.inr hlength) hpinned, rfl, ?_⟩
  rw [serverOutcome_allowed run P now hallowed]

end Stack

/-- **From two configurations to the handlers.** A configuration that `NewServer` accepts and one
that `DialContext` accepts, whose pin is the key of the server and whose own key the server allows.
However the two drivers interleave over an honest run, both return with a session, unless the
transcript hashes to the zero identifier, which `NewSession` refuses.  Of these sessions,
connections with the accepted settings are made: over a network that delivers in order, however
everything interleaves, the handler of each side has been called for a front of the messages that
the other side accepted from its users, and for all of them once nothing is on its way. -/
theorem configured_dispatch {N : HandshakePrimitives} {P : Primitives} (hnew : P.NewSucceeds)
    (hopen : P.OpenInvertsSeal) {client clientConfig : ClientSetup}
    {server serverConfig : ServerSetup}
    (hclient : normalizeClientConfig N client = .ok clientConfig)
    (hserver : newServerConfig N server = .ok serverConfig)
    (hpin : client.serverStatic = server.staticKey.publicKey.val)
    (hallowed : server.allowedClients = [] ∨
      client.staticKey.publicKey.val ∈ server.allowedClients) {clientRandom serverRandom : Reader}
    (run : HonestRun N client.staticKey server.staticKey clientRandom serverRandom
      handshakePrologue) (hid : run.initiatorResult.sessionID ≠ Octets.zero 16)
    (clientNow serverNow : Time) :
    ∃ (final : Establishment) (clientSession serverSession : Session),
      Establishment.Settles
        (Establishment.start (establishClient N clientConfig.toClientConfig clientRandom)
          (performHandshake N P serverConfig.toServerConfig serverRandom serverNow)) final ∧
      final.client.exchange = .done (.ok run.initiatorResult) ∧
      newSessionFromHandshake P cipherChaCha20Poly1305 run.initiatorResult clientNow =
        .ok clientSession ∧
      final.server.exchange = .done (.ok serverSession, run.responderResult) ∧
      ∀ limits peers,
        Peers.Reaches P Peers.inOrder
          (Peers.established (Side.of clientSession serverSession) limits
            (Side.of clientConfig.connConfig serverConfig.connConfig)) peers →
        ∀ side,
          (peers.ends side).state.invoked <+: (peers.ends side.peer).state.posted ∧
          (peers.Quiet side →
            (peers.ends side).state.invoked = (peers.ends side.peer).state.posted) := by
  obtain ⟨hprovisioned, hclientKeys⟩ := normalizeClientConfig_keeps hclient
  obtain ⟨hkey, hserverKeys⟩ := newServerConfig_keeps hserver
  obtain ⟨clientSession, hclientSession⟩ : ∃ session, newSessionFromHandshake P
      cipherChaCha20Poly1305 run.initiatorResult clientNow = .ok session :=
    ⟨_, newSession_of_new hnew hid clientNow⟩
  obtain ⟨serverSession, hserverSession⟩ : ∃ session, newSessionFromHandshake P
      cipherChaCha20Poly1305 run.responderResult serverNow = .ok session :=
    ⟨_, newSession_of_new hnew (fun h => hid (run.results_agree.1.trans h)) serverNow⟩
  -- the checks leave the keys, the pin and the allowlist as they are
  rw [hclientKeys, hserverKeys]
  obtain ⟨final, hsettles, hclientDone, hserverDone⟩ :=
    HonestRun.settles client.toClientConfig
      { server.toServerConfig with cipherSuite := cipherChaCha20Poly1305 } run P serverNow
      hprovisioned.key hkey hprovisioned.pin.1 (fun _ => hpin.symm) hallowed
  change final.server.exchange = .done
    (newSessionFromHandshake P cipherChaCha20Poly1305 run.responderResult serverNow, _)
    at hserverDone
  rw [hserverSession] at hserverDone
  refine ⟨final, clientSession, serverSession, hsettles, hclientDone, hclientSession,
    hserverDone, ?_⟩
  intro limits peers hreach side
  have hsessions := HonestRun.sessions run hclientSession hserverSession
  exact ⟨Peers.invoked_front hopen hsessions hreach side,
    fun hquiet => Peers.invoked_all hopen hsessions hreach hquiet⟩

theorem configured_dispatch_sample :
    ∃ (final : Establishment) (clientSession serverSession : Session) (result : HandshakeResult),
      Establishment.Settles
        (Establishment.start
          (establishClient plainExchange sampleClientSetup.normalized.toClientConfig
            ⟨List.replicate 32 7, none⟩)
          (performHandshake plainExchange transparent sampleServerSetup.normalized.toServerConfig
            ⟨List.replicate 32 8, none⟩ 0)) final ∧
      final.server.exchange = .done (.ok serverSession, result) ∧
      ∀ limits peers,
        Peers.Reaches transparent Peers.inOrder
          (Peers.established (Side.of clientSession serverSession) limits
            (Side.of sampleClientSetup.normalized.connConfig
              sampleServerSetup.normalized.connConfig)) peers →
        (peers.ends .server).state.invoked <+: (peers.ends .client).state.posted := by
  have hclient : normalizeClientConfig plainExchange sampleClientSetup =
      .ok sampleClientSetup.normalized := rfl
  have hserver : newServerConfig plainExchange sampleServerSetup =
      .ok sampleServerSetup.normalized := rfl
  obtain ⟨run⟩ : Nonempty (HonestRun plainExchange sampleClientSetup.staticKey
      sampleServerSetup.staticKey ⟨List.replicate 32 7, none⟩ ⟨List.replicate 32 8, none⟩
      handshakePrologue) :=
    plainExchange_honestRuns _ _ _ _ _ rfl rfl (by decide) (by decide)
  have hid : run.initiatorResult.sessionID ≠ Octets.zero 16 := by
    show transcriptSessionID plainExchange (List.replicate 32 0) ≠ Octets.zero 16
    decide
  obtain ⟨final, clientSession, serverSession, hsettles, -, -, hserverDone, hdispatch⟩ :=
    configured_dispatch transparent_newSucceeds transparent_openInvertsSeal hclient hserver rfl
      (.inl rfl) run hid 0 0
  refine ⟨final, clientSession, serverSession, run.responderResult, hsettles, hserverDone, ?_⟩
  intro limits peers hreach
  exact (hdispatch limits peers hreach .server).1

end DgProto
