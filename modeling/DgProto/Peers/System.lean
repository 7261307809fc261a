import DgProto.Connection.Delivery
import DgProto.Connection.Dispatch
import DgProto.Session.Authenticity

/-!
# Two connections and the network between them

The client and the server of one handshake each run a `Connection`.  The two share nothing
but the network: what one writes, the other may read.  A step of the system is one
instruction of one goroutine at either side, a call of a user of either side, or the end of
the context of a user.

What the network does is not part of the step.  It is a law about the steps of a side, and
there are two of them: a stream that is delivered in order, and an adversary who hands over any
frame.

Users have the exported methods only.  `enqueueControl` is not among them, so an item of the
control queue is always a ping or a pong of the connection itself (`controlled_of_reaches`).
-/

namespace DgProto

open Library Wire Crypto Connection

/-! ## The users of a connection -/

/-- The call of an exported method: none of them reaches the control queue. -/
def ApiCall.exported : ApiCall → Bool
  | .enqueueChannel _ queue _ _ _ _ => queue == .outbound
  | .start _ | .close | .abort _ | .sendPaddedAndWait _ _ _ => true

/-- What the users of a connection do. -/
inductive Uses (s : Connection) : Connection → List (List Instr) → Prop where
  | call (api : ApiCall) (h : api.exported = true) :
      Uses s { s with nextChannel := s.nextChannel + 1 } [api.program s.nextChannel]
  | cancelCaller (id : Nat) (err : Error) (h : s.callers id = none) :
      Uses s { s with callers := Function.update s.callers id (some err) } []

/-- A connection whose users have the exported methods. -/
def userMachine (P : Primitives) : Machine Connection Instr :=
  ⟨Exec P, Uses⟩

theorem Uses.ambient {s s' : Connection} {new : List (List Instr)} (h : Uses s s' new) :
    Ambient s s' new := by
  cases h with
  | call api => exact .call api
  | cancelCaller id err hnone => exact .cancelCaller id err hnone

/-- What holds about a connection with any callers holds with these. -/
theorem reaches_of_user {P : Primitives} {start pool : Pool Connection Instr}
    (h : (userMachine P).Reaches start pool) : (connectionMachine P).Reaches start pool := by
  induction h with
  | refl => exact .refl
  | tail _ hstep ih =>
      cases hstep with
      | thread k hk hexec => exact ih.tail (.thread k hk hexec)
      | ambient huses => exact ih.tail (.ambient (Uses.ambient huses))

/-! ## The control queue -/

/-- The item holds a `PingPong`. -/
def QueuedMessage.isPing (item : QueuedMessage) : Bool :=
  match item.message with
  | .value (.pingPong _) => true
  | _ => false

/-- An item for the control queue is a ping or a pong. -/
def EnqueueCall.controlled (call : EnqueueCall) : Bool :=
  call.queue == .outbound || call.item.isPing

def WriteJob.controlled : WriteJob → Bool
  | .queued .control item => item.isPing
  | .queued .outbound _ | .close _ => true

@[simp] def Instr.controlled : Instr → Bool
  | .enqueue call | .checkContext call | .checkClosing call | .offer call => call.controlled
  | .sendFrame job | .marshalFrame job _ | .checkLane job _ _ | .takeLane job _ _
  | .watchContext job _ _ | .writeWire job _ _ | .frameWritten job _ | .markRekey job _ =>
      job.controlled
  | _ => true

/-- Only pings and pongs go through the control queue. -/
structure Controlled (pool : Pool Connection Instr) : Prop where
  queue : ∀ item ∈ pool.state.control, item.isPing = true
  sent : ∀ frame ∈ pool.state.sent, frame.job.controlled = true
  threads : ∀ t ∈ pool.threads, ∀ j ∈ t, j.controlled = true

section Control

variable {P : Primitives} {s : Connection} {i : Instr} {effect : Effect Connection Instr}

/-- The queue and the frames after a step of a goroutine. -/
theorem Exec.control_state (h : Exec P s i effect) (hi : i.controlled = true)
    (hqueue : ∀ item ∈ s.control, item.isPing = true)
    (hsent : ∀ frame ∈ s.sent, frame.job.controlled = true) :
    (∀ item ∈ effect.state.control, item.isPing = true) ∧
      ∀ frame ∈ effect.state.sent, frame.job.controlled = true := by
  cases h with
  | lifecycle h => exact h.frame ▸ ⟨hqueue, hsent⟩
  | queue h =>
      cases h with
      | @accepted call =>
          refine ⟨?_, hsent⟩
          intro item hitem
          simp only [Connection.push] at hitem
          split_ifs at hitem with hcontrol
          · rcases List.mem_append.mp hitem with hold | hnew
            · exact hqueue item hold
            · obtain rfl := List.mem_singleton.mp hnew
              simpa [EnqueueCall.controlled, hcontrol] using hi
          · exact hqueue item hitem
      | drainControl hcontrol =>
          exact ⟨fun item hitem => hqueue item (by rw [hcontrol]; exact .tail _ hitem), hsent⟩
      | _ => exact ⟨hqueue, hsent⟩
  | write h =>
      cases h with
      | selectControl hcontrol =>
          exact ⟨fun item hitem => hqueue item (by rw [hcontrol]; exact .tail _ hitem), hsent⟩
      | watchLive =>
          refine ⟨hqueue, ?_⟩
          intro frame hframe
          rcases List.mem_append.mp hframe with hold | hnew
          · exact hsent frame hold
          · obtain rfl := List.mem_singleton.mp hnew
            exact hi
      | _ => exact ⟨hqueue, hsent⟩
  | receive h | keepalive h => exact h.frame ▸ ⟨hqueue, hsent⟩

/-- A thread whose instructions can be checked one by one. -/
theorem controlled_of_all {threads : List (List Instr)}
    (h : threads.all (·.all Instr.controlled) = true) :
    ∀ t ∈ threads, ∀ j ∈ t, j.controlled = true :=
  fun t ht j hj => List.all_eq_true.mp (List.all_eq_true.mp h t ht) j hj

/-- What a step of a goroutine leaves to do. -/
theorem Exec.control_threads (h : Exec P s i effect) (hi : i.controlled = true)
    (hqueue : ∀ item ∈ s.control, item.isPing = true) :
    ∀ t ∈ effect.pushed :: effect.spawned, ∀ j ∈ t, j.controlled = true := by
  apply controlled_of_all
  cases h with
  | lifecycle h =>
      cases h with
      | @launchLoop loop => cases loop <;> rfl
      | _ => rfl
  | queue h =>
      cases h with
      | lease | contextLive | admitted => simpa using hi
      | @returnEnqueue call result =>
          obtain ⟨_, _, ⟨_, _, completion⟩, _, after⟩ := call
          cases after <;> cases result <;> cases completion <;> rfl
      | _ => rfl
  | write h =>
      cases h with
      | selectControl hcontrol =>
          have hitem := hqueue _ (by rw [hcontrol]; exact List.mem_cons_self)
          simpa [WriteJob.controlled] using hitem
      | sendOk | marshalOk | laneLive | laneFree | watchLive | wireDone | wireWrote
      | rekeyWritten | marked => simpa using hi
      | @finishWrite job err => cases job <;> cases err <;> rfl
      | _ => rfl
  | receive h =>
      cases h with
      | inlineReturned _ result | @handlerReturned _ result | @handlerLate _ result =>
          cases result <;> rfl
      | _ => rfl
  | keepalive h => cases h <;> rfl

theorem Uses.control_threads {s' : Connection} {new : List (List Instr)} (h : Uses s s' new) :
    ∀ t ∈ new, ∀ j ∈ t, j.controlled = true := by
  apply controlled_of_all
  cases h with
  | call api hexported =>
      cases api with
      | enqueueChannel ctx queue =>
          obtain rfl : queue = .outbound := by simpa [ApiCall.exported] using hexported
          rfl
      | _ => rfl
  | cancelCaller => rfl

theorem Controlled.step {before after : Pool Connection Instr} (h : Controlled before)
    (hstep : (userMachine P).Step before after) : Controlled after := by
  cases hstep with
  | @thread s threads k i rest effect hk hexec =>
      have hexec : Exec P s i effect := hexec
      have hthread := h.threads _ (List.mem_of_getElem? hk)
      have hi := hthread i List.mem_cons_self
      have hnew := hexec.control_threads hi h.queue
      obtain ⟨hqueue, hsent⟩ := hexec.control_state hi h.queue h.sent
      refine ⟨hqueue, hsent, ?_⟩
      intro t ht j hj
      rcases mem_set_append ht with rfl | hold | hspawned
      · rcases List.mem_append.mp hj with hpushed | hrest
        · exact hnew _ List.mem_cons_self j hpushed
        · exact hthread j (List.mem_cons_of_mem _ hrest)
      · exact h.threads t hold j hj
      · exact hnew t (List.mem_cons_of_mem _ hspawned) j hj
  | @ambient s s' threads new huses =>
      have huses : Uses s s' new := huses
      have hsame : s'.control = s.control ∧ s'.sent = s.sent := by
        cases huses <;> exact ⟨rfl, rfl⟩
      refine ⟨?_, ?_, ?_⟩
      · show ∀ item ∈ s'.control, item.isPing = true
        rw [hsame.1]
        exact h.queue
      · show ∀ frame ∈ s'.sent, frame.job.controlled = true
        rw [hsame.2]
        exact h.sent
      · intro t ht
        rcases List.mem_append.mp ht with hold | hnew
        · exact h.threads t hold
        · exact huses.control_threads t hnew

theorem controlled_of_reaches {session : Session} {config : ConnectionConfig}
    {pool : Pool Connection Instr}
    (h : (userMachine P).Reaches (connectionStart session config) pool) : Controlled pool := by
  refine Machine.invariant_of_step Controlled.step ⟨?_, ?_, ?_⟩ h
  · exact fun _ hitem => absurd hitem List.not_mem_nil
  · exact fun _ hframe => absurd hframe List.not_mem_nil
  · exact fun _ ht => absurd ht List.not_mem_nil

end Control

/-! ## What a step says to the outside -/

/-- The frame that `ReadFrame` has returned. -/
def readBy : Instr → List Instr → Option Frame
  | .readFrame, [.receive frame] => some frame
  | _, _ => none

/-- The frame that `Session.Send` has returned. -/
def madeBy : Instr → List Instr → Option SentFrame
  | .sendFrame _, [.marshalFrame job e] => some ⟨job, e⟩
  | _, _ => none

theorem madeBy_eq_none {i : Instr} (hi : ∀ job, i ≠ .sendFrame job) (pushed : List Instr) :
    madeBy i pushed = none := by
  cases i with
  | sendFrame job => exact absurd rfl (hi job)
  | _ => rfl

/-- The instruction calls the session. -/
def Instr.callsSession : Instr → Bool
  | .sendFrame _ | .markRekey _ _ | .receive _ | .closeSession => true
  | _ => false

/-- The call of the session that a step makes, with the clock and the randomness it had. -/
inductive Calls (P : Primitives) (s : Connection) :
    Instr → Effect Connection Instr → Option SessionCall → Prop where
  | send {job : WriteJob} {effect : Effect Connection Instr} (env : SendEnv)
      (hsession : effect.state.session =
        (s.session.step P (.send job.message job.padLength env)).after)
      (hmade : (madeBy (.sendFrame job) effect.pushed).map SentFrame.emission =
        (s.session.step P (.send job.message job.padLength env)).emission) :
      Calls P s (.sendFrame job) effect (some (.send job.message job.padLength env))
  | mark {job : WriteJob} {emission : Emission} {effect : Effect Connection Instr} (now : Time)
      (hsession : effect.state.session =
        (s.session.step P (.markRekeySent emission.frame now)).after) :
      Calls P s (.markRekey job emission) effect (some (.markRekeySent emission.frame now))
  | receive {frame : Frame} {effect : Effect Connection Instr} (clock : ReceiveClock)
      (hsession : effect.state.session =
        (s.session.step P (.receivePayload frame clock)).after)
      (hreceived : effect.state.received =
        s.received ++ (s.session.receiveMessage P clock frame).2.toOption.toList) :
      Calls P s (.receive frame) effect (some (.receivePayload frame clock))
  | close {effect : Effect Connection Instr}
      (hsession : effect.state.session = (s.session.step P .close).after) :
      Calls P s .closeSession effect (some .close)
  | none {i : Instr} {effect : Effect Connection Instr} (hi : i.callsSession = false)
      (hsession : effect.state.session = s.session) : Calls P s i effect none

section CallsOf

variable {P : Primitives} {s : Connection} {i : Instr} {effect : Effect Connection Instr}

theorem emission_of_error {session : Session} {call : SessionCall} {err : Error}
    (h : (session.step P call).result = .error err) : (session.step P call).emission = none := by
  unfold Event.emission
  rw [h]

/-- Every step of a goroutine makes such a call. -/
theorem Exec.calls (h : Exec P s i effect) : ∃ call, Calls P s i effect call := by
  cases h with
  | lifecycle h =>
      cases h with
      | closeSession => exact ⟨_, .close rfl⟩
      | _ => exact ⟨_, .none rfl rfl⟩
  | queue h => cases h <;> exact ⟨_, .none rfl rfl⟩
  | write h =>
      cases h with
      | sendOk env hok => exact ⟨_, .send env rfl hok.symm⟩
      | sendFailed env hfailed => exact ⟨_, .send env rfl (emission_of_error hfailed).symm⟩
      | marked now | markFailed now => exact ⟨_, .mark now rfl⟩
      | _ => exact ⟨_, .none rfl rfl⟩
  | receive h =>
      cases h with
      | @rejected frame clock err herr =>
          refine ⟨_, .receive clock (Session.receiveMessage_state P clock s.session frame) ?_⟩
          rw [herr]
          exact (List.append_nil _).symm
      | @accepted frame clock message hok =>
          refine ⟨_, .receive clock (Session.receiveMessage_state P clock s.session frame) ?_⟩
          rw [hok]
          rfl
      | _ => exact ⟨_, .none rfl rfl⟩
  | keepalive h => cases h <;> exact ⟨_, .none rfl rfl⟩

end CallsOf

/-- The calls to `Seal` of a step. -/
def sealsBy (P : Primitives) (s : Connection) (call : Option SessionCall) : List SealCall :=
  (call.map fun c => (s.session.step P c).calls).getD []

/-! ## The system -/

/-- The two sides of a handshake. -/
inductive Side where
  | client
  | server
  deriving DecidableEq

namespace Side

def peer : Side → Side
  | client => server
  | server => client

@[simp] theorem peer_peer (side : Side) : side.peer.peer = side := by
  cases side <;> rfl

theorem peer_ne (side : Side) : side.peer ≠ side := by
  cases side <;> decide

theorem eq_or_peer (side other : Side) : other = side ∨ other = side.peer := by
  cases side <;> cases other <;> decide

/-- The secrets with which a side makes its session. -/
def secrets (client : HandshakeSecrets) : Side → HandshakeSecrets
  | .client => client
  | .server => client.crossed

theorem secrets_peer (client : HandshakeSecrets) (side : Side) :
    side.peer.secrets client = (side.secrets client).crossed := by
  cases side <;> rfl

end Side

/-- The layouts of frames, one after the other. -/
def frameOctets (frames : List Frame) : List UInt8 := frames.flatMap Frame.octets

/-- The connections of both sides, with what has happened at each of them. -/
structure Peers where
  ends : Side → Pool Connection Instr
  -- history
  /-- The frames that `ReadFrame` has returned. -/
  reads : Side → List Frame
  /-- The frames that `Session.Send` has returned. -/
  made : Side → List SentFrame
  /-- The calls to `Seal`, of both sides. -/
  sealed : List SealCall

namespace Peers

/-- Two new connections. -/
def start (sessions : Side → Session) (config : Side → ConnectionConfig) : Peers where
  ends side := connectionStart (sessions side) (config side)
  reads _ := []
  made _ := []
  sealed := []

/-- A law about the instructions of a side. -/
abbrev Law := Peers → Side → Instr → Effect Connection Instr → Prop

/-- One goroutine of one side executes an instruction that the law allows, or a user of one
side acts. -/
inductive Step (P : Primitives) (law : Law) : Peers → Peers → Prop where
  | thread {peers : Peers} (side : Side) {s : Connection} {threads : List (List Instr)} (k : Nat)
      {i : Instr} {rest : List Instr} {effect : Effect Connection Instr}
      {call : Option SessionCall} (hends : peers.ends side = ⟨s, threads⟩)
      (hk : threads[k]? = some (i :: rest)) (hexec : Exec P s i effect)
      (hcall : Calls P s i effect call) (hlaw : law peers side i effect) :
      Step P law peers
        { ends := Function.update peers.ends side
            ⟨effect.state, threads.set k (effect.pushed ++ rest) ++ effect.spawned⟩
          reads := Function.update peers.reads side
            (peers.reads side ++ (readBy i effect.pushed).toList)
          made := Function.update peers.made side
            (peers.made side ++ (madeBy i effect.pushed).toList)
          sealed := peers.sealed ++ sealsBy P s call }
  | uses {peers : Peers} (side : Side) {s s' : Connection} {threads new : List (List Instr)}
      (hends : peers.ends side = ⟨s, threads⟩) (huses : Uses s s' new) :
      Step P law peers
        { peers with ends := Function.update peers.ends side ⟨s', threads ++ new⟩ }

/-! ### The two networks -/

/-- What a stream still has for a side: the octets of the peer after those of the frames
that were read. -/
def unread (peers : Peers) (side : Side) : Reader :=
  ⟨(peers.ends side.peer).state.wire.drop (frameOctets (peers.reads side)).length, none⟩

/-- `ReadFrame` returns the next frame of the stream. -/
def inOrder : Law := fun peers side i effect =>
  ∀ frame ∈ readBy i effect.pushed, ∃ rest, readFrame (peers.unread side) = .ok (frame, rest)

/-- `ReadFrame` returns what the adversary hands over; opening succeeds only on what was
sealed. -/
def idealAEAD (P : Primitives) : Law := fun peers side i _ =>
  ∀ frame, i = .receive frame →
    ∀ codec ∈ (peers.ends side).state.session.receive ::
      (peers.ends side).state.session.previousReceive.toList,
      OpensOnlySealed P peers.sealed codec frame

/-! ### Runs -/

/-- Any number of steps. -/
def Reaches (P : Primitives) (law : Law) : Peers → Peers → Prop :=
  Relation.ReflTransGen (Step P law)

variable {P : Primitives} {law : Law}

/-- A run under one law is a run under every weaker one. -/
theorem Reaches.mono {law' : Law} {start peers : Peers} (h : Reaches P law start peers)
    (hlaw : ∀ peers side i effect, law peers side i effect → law' peers side i effect) :
    Reaches P law' start peers := by
  refine Relation.ReflTransGen.mono ?_ _ _ h
  intro before after hstep
  cases hstep with
  | thread side k hends hk hexec hcall hallowed =>
      exact .thread side k hends hk hexec hcall (hlaw _ _ _ _ hallowed)
  | uses side hends huses => exact .uses side hends huses

/-- A step of the system is a step of one side, and none of the other. -/
theorem Step.side {before after : Peers} (h : Step P law before after) (side : Side) :
    after.ends side = before.ends side ∨
      (userMachine P).Step (before.ends side) (after.ends side) := by
  cases h with
  | @thread moved s threads k i rest effect call hends hk hexec =>
      by_cases hside : side = moved
      · subst hside
        right
        simp only [hends, Function.update_self]
        exact .thread k hk hexec
      · exact .inl (Function.update_of_ne hside ..)
  | @uses moved s s' threads new hends huses =>
      by_cases hside : side = moved
      · subst hside
        right
        simp only [hends, Function.update_self]
        exact .ambient huses
      · exact .inl (Function.update_of_ne hside ..)

/-- Each side runs as a connection of its own. -/
theorem Reaches.side {start peers : Peers} (h : Reaches P law start peers) (side : Side) :
    (userMachine P).Reaches (start.ends side) (peers.ends side) := by
  induction h with
  | refl => exact .refl
  | tail _ hstep ih =>
      rcases hstep.side side with hsame | hmoved
      · rw [hsame]
        exact ih
      · exact ih.tail hmoved

end Peers

/-! ## Messages for the handler -/

/-- The message of an argument of `Send`, if it holds one. -/
def Wire.AnyValue.message? : AnyValue → Option Message
  | .value m | .pointer m => some m
  | .nilPointer _ | .other _ => none

/-- The messages for the handler of the peer that the items hold. -/
def handlerMessages (items : List QueuedMessage) : List Message :=
  (items.filterMap fun item => item.message.message?).filter Message.toHandler

/-- The messages for the handler of the peer that the queue has accepted, in order. -/
def Connection.posted (s : Connection) : List Message :=
  handlerMessages (acceptedItems s.accepted)

@[simp] theorem handlerMessages_append (items items' : List QueuedMessage) :
    handlerMessages (items ++ items') = handlerMessages items ++ handlerMessages items' := by
  simp [handlerMessages]

theorem handlerMessages_front {items items' : List QueuedMessage} (h : items <+: items') :
    handlerMessages items <+: handlerMessages items' := by
  obtain ⟨rest, rfl⟩ := h
  rw [handlerMessages_append]
  exact List.prefix_append _ _

/-- Whoever decodes the frame of a job gets the message of an outbound item, or one that is
not for the handler. -/
theorem SentFrame.handlerMessages_eq {frame : SentFrame} {m : Message}
    (hcontrolled : frame.job.controlled = true) (hasked : frame.job.Asked frame.emission)
    (hrekey : frame.emission.isRekey = true → m.toHandler = false)
    (hcarried : ∀ m', frame.emission.isRekey = false → frame.emission.Carries m' → m = m') :
    [m].filter Message.toHandler = handlerMessages frame.outbound := by
  obtain ⟨job, e⟩ := frame
  cases hkind : e.isRekey with
  | true =>
      rw [List.filter_cons_of_neg (by simp [hrekey hkind]), List.filter_nil]
      simp [SentFrame.outbound, handlerMessages, hkind]
  | false =>
      obtain ⟨m', hmessage, hm'⟩ := hasked.resolve_left (by simp [hkind])
      obtain rfl := hcarried m' hkind hm'
      cases job with
      | close request =>
          have hm : m = .sessionClose request.message := by
            simpa [WriteJob.message, eq_comm] using hmessage
          subst hm
          simp [SentFrame.outbound, WriteJob.outbound, handlerMessages, hkind, Message.toHandler,
            Message.kind]
      | queued queue item =>
          obtain ⟨message, padLength, completion⟩ := item
          cases queue with
          | outbound =>
              have hvalue : message.message? = some m := by
                rcases hmessage with hm | hm <;>
                  exact (show message = _ from hm) ▸ rfl
              simp [SentFrame.outbound, WriteJob.outbound, handlerMessages, hkind, hvalue]
          | control =>
              -- the control queue holds pings only
              have hping : m.toHandler = false := by
                rcases hmessage with hm | hm
                · obtain rfl : message = .value m := hm
                  cases m <;> first | rfl | cases hcontrolled
                · obtain rfl : message = .pointer m := hm
                  cases hcontrolled
              rw [List.filter_cons_of_neg (by simp [hping]), List.filter_nil]
              simp [SentFrame.outbound, WriteJob.outbound, handlerMessages, hkind]

end DgProto
