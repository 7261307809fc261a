import DgProto.Connection.Writer
import DgProto.Session.EpochAgreement
import DgProto.Transport.Stream

/-!
# Delivery of the outbound queue

The writer takes an item out of the outbound queue, makes frames of it and writes them;
a `RekeyInit` may go in front of its message.  Two facts carry the delivery.

* The frames that were begun, with the one in the hands of the writer, are the flight
  from the point where the peer starts to the session of the writer.
* As long as the contexts of the operations live, the outbound items whose frames were
  begun, the one in the hands of the writer and the queue make up all accepted items.
  A frame is begun only while they live, so nothing that the shutdown takes out of the
  queue comes before it.

Both are known to the holder of the token of the writer (`Instr.Knows`).
-/

namespace DgProto

open Library Wire Crypto Connection

/-- The outbound item of a job. -/
def WriteJob.outbound : WriteJob → List QueuedMessage
  | .queued .outbound item => [item]
  | _ => []

/-- The outbound item whose message the frame carries. -/
def SentFrame.outbound (frame : SentFrame) : List QueuedMessage :=
  if frame.emission.isRekey then [] else frame.job.outbound

/-- The outbound items whose messages the frames carry. -/
def sentItems (frames : List SentFrame) : List QueuedMessage :=
  frames.flatMap SentFrame.outbound

/-- The items of the outbound queue among the accepted ones. -/
def acceptedItems (accepted : List (QueueName × QueuedMessage)) : List QueuedMessage :=
  (accepted.filter (·.1 == .outbound)).map Prod.snd

@[simp] theorem sentItems_append (frames frames' : List SentFrame) :
    sentItems (frames ++ frames') = sentItems frames ++ sentItems frames' := by
  simp [sentItems]

@[simp] theorem sentItems_singleton (frame : SentFrame) : sentItems [frame] = frame.outbound := by
  simp [sentItems]

theorem sentItems_front {frames frames' : List SentFrame} (h : frames <+: frames') :
    sentItems frames <+: sentItems frames' := by
  obtain ⟨rest, rfl⟩ := h
  rw [sentItems_append]
  exact List.prefix_append _ _

@[simp] theorem acceptedItems_append (accepted accepted' : List (QueueName × QueuedMessage)) :
    acceptedItems (accepted ++ accepted') = acceptedItems accepted ++ acceptedItems accepted' := by
  simp [acceptedItems]

/-- The emission is a `RekeyInit`, or carries the message of the job. -/
def WriteJob.Asked (job : WriteJob) (e : Emission) : Prop :=
  e.isRekey = true ∨ ∃ m, (job.message = .value m ∨ job.message = .pointer m) ∧ e.Carries m

/-- The peer, at the first epoch with this key, has to read the frames that were begun and
`unsent` to catch up with the session; the accepted items are those of the frames, `hand`
and the queue. -/
structure Connection.Ready (P : Primitives) (sessionID : Octets 16) (key : Key) (s : Connection)
    (unsent : List Emission) (hand : List QueuedMessage) : Prop where
  flight : Flight P sessionID (CaughtUp s.session) 1 key 0
    (s.sent.map SentFrame.emission ++ unsent)
  queue : s.operationsCanceled = false →
    sentItems s.sent ++ hand ++ s.outbound = acceptedItems s.accepted

/-- What the holder of the token of the writer knows at an instruction. -/
def Instr.Knows (P : Primitives) (sessionID : Octets 16) (key : Key) (s : Connection) :
    Instr → Prop
  | .sendFrame job | .markRekey job _ => s.Ready P sessionID key [] job.outbound
  | .marshalFrame job e | .checkLane job e _ | .takeLane job e _ | .watchContext job e _ =>
      s.Ready P sessionID key [e] job.outbound ∧ job.Asked e
  | .writeWire job e _ | .frameWritten job e =>
      s.Ready P sessionID key [] (if e.isRekey then job.outbound else [])
  | .finishWrite job err => job.proceeds err = true → s.Ready P sessionID key [] []
  | .failPending _ | .drain _ _ => True
  | _ => s.Ready P sessionID key [] []

/-- What is delivered. -/
structure Connection.Delivers (P : Primitives) (sessionID : Octets 16) (key : Key)
    (s : Connection) : Prop where
  keys : s.session.SendKeys P key
  session : s.session.sessionID = sessionID
  flight : Flight P sessionID (fun _ _ _ => True) 1 key 0 (s.sent.map SentFrame.emission)
  asked : ∀ frame ∈ s.sent, frame.job.Asked frame.emission
  items : sentItems s.sent <+: acceptedItems s.accepted

section Rules

variable {P : Primitives} {sessionID : Octets 16} {key : Key} {s : Connection} {i : Instr}
  {effect : Effect Connection Instr}

/-- A flight, wherever it ends. -/
theorem Flight.unended {End : UInt32 → Key → Nat → Prop} {epoch : UInt32} {floor : Nat}
    {sent : List Emission} (h : Flight P sessionID End epoch key floor sent) :
    Flight P sessionID (fun _ _ _ => True) epoch key floor sent := by
  have hextend : Flight P sessionID (fun _ _ _ => True) epoch key floor (sent ++ []) :=
    h.extend fun _ _ _ _ => .arrived trivial
  rwa [List.append_nil] at hextend

/-- The session changes by calls; those of the writer alone emit frames. -/
theorem Exec.session_step (h : Exec P s i effect) :
    effect.state.session = s.session ∨
      ∃ call, effect.state.session = (s.session.step P call).after ∧
        (Token.writer.weight i = 0 → (s.session.step P call).emission = none) := by
  cases h with
  | lifecycle h =>
      cases h with
      | closeSession => exact .inr ⟨.close, rfl, fun _ => rfl⟩
      | _ => exact .inl rfl
  | queue h => exact .inl (by rw [h.frame])
  | write h =>
      cases h with
      | sendOk | sendFailed | marked | markFailed =>
          exact .inr ⟨_, rfl, fun hi => absurd hi (by simp)⟩
      | _ => exact .inl rfl
  | @receive h =>
      cases h with
      | @rejected frame clock | @accepted frame clock =>
          refine .inr ⟨.receivePayload frame clock, ?_, fun _ => ?_⟩
          · exact Session.receiveMessage_state P clock s.session frame
          · show Event.emission ⟨_, _, _, [], (s.session.receivePayload P clock frame).2.map
              .payload⟩ = none
            cases (s.session.receivePayload P clock frame).2 <;> rfl
      | _ => exact .inl rfl
  | keepalive h => exact .inl (by rw [h.frame])

/-- A call that emits nothing leaves the peer caught up. -/
theorem flight_of_silent {unsent : List Emission} {sent : List Emission} {a : Session}
    (hkeys : a.SendKeys P key) (hid : a.sessionID = sessionID) {call : SessionCall}
    (hsilent : (a.step P call).emission = none)
    (h : Flight P sessionID (CaughtUp a) 1 key 0 (sent ++ unsent)) :
    Flight P sessionID (CaughtUp (a.step P call).after) 1 key 0 (sent ++ unsent) := by
  subst hid
  have hstep := h.step hkeys call
  rw [hsilent, Option.toList_none, List.append_nil] at hstep
  exact hstep

/-- Whoever is not the writer leaves the accepted items accounted for. -/
theorem Exec.queue_other (h : Exec P s i effect) (hi : Token.writer.weight i = 0)
    (hdrain : ∀ err, i = .drain .shutdown err → s.operationsCanceled = true)
    {taken : List QueuedMessage}
    (hs : s.operationsCanceled = false → taken ++ s.outbound = acceptedItems s.accepted) :
    effect.state.operationsCanceled = false →
      taken ++ effect.state.outbound = acceptedItems effect.state.accepted := by
  cases h with
  | lifecycle h =>
      cases h with
      | cancelOperations =>
          intro hlive
          cases hlive
      | _ => exact hs
  | queue h =>
      cases h with
      | @accepted call =>
          intro hlive
          have hall := hs hlive
          cases hqueue : call.queue with
          | outbound =>
              simp only [Connection.push, if_true, acceptedItems_append, ← hall,
                List.append_assoc]
              rfl
          | control =>
              simp only [Connection.push, acceptedItems_append, ← hall]
              simp [acceptedItems]
      | @drainOutbound who err =>
          cases who with
          | writer => exact absurd hi (by simp)
          | shutdown =>
              intro hlive
              have hcanceled := hdrain err rfl
              rw [show s.operationsCanceled = false from hlive] at hcanceled
              cases hcanceled
      | _ => exact hs
  | write h =>
      cases h with
      | releaseLane => exact hs
      | _ => exact absurd hi (by simp)
  | receive h | keepalive h => exact h.frame ▸ hs

/-- Whoever is not the writer leaves it ready. -/
theorem Exec.ready_other (h : Exec P s i effect) (hi : Token.writer.weight i = 0)
    (hdrain : ∀ err, i = .drain .shutdown err → s.operationsCanceled = true)
    (hs : s.Delivers P sessionID key) {unsent : List Emission} {hand : List QueuedMessage}
    (hready : s.Ready P sessionID key unsent hand) :
    effect.state.Ready P sessionID key unsent hand := by
  obtain ⟨hsent, -, -⟩ := h.wire_eq hi
  constructor
  · rw [hsent]
    rcases h.session_step with hsame | ⟨call, hcall, hsilent⟩
    · rw [hsame]
      exact hready.flight
    · rw [hcall]
      exact flight_of_silent hs.keys hs.session (hsilent hi) hready.flight
  · rw [hsent]
    exact h.queue_other hi hdrain hready.queue

/-- What is known stays known wherever the writer stays ready. -/
theorem Instr.knows_of_ready {s' : Connection} {j : Instr}
    (hready : ∀ {unsent hand}, s.Ready P sessionID key unsent hand →
      s'.Ready P sessionID key unsent hand) (hj : j.Knows P sessionID key s) :
    j.Knows P sessionID key s' := by
  cases j with
  | marshalFrame | checkLane | takeLane | watchContext => exact ⟨hready hj.1, hj.2⟩
  | finishWrite => exact fun hproceeds => hready (hj hproceeds)
  | failPending | drain => trivial
  | _ => exact hready hj

theorem Exec.knows_other (h : Exec P s i effect) (hi : Token.writer.weight i = 0)
    (hdrain : ∀ err, i = .drain .shutdown err → s.operationsCanceled = true)
    (hs : s.Delivers P sessionID key) {j : Instr} (hj : j.Knows P sessionID key s) :
    j.Knows P sessionID key effect.state :=
  Instr.knows_of_ready (fun hready => h.ready_other hi hdrain hs hready) hj

theorem knows_finish_error (s : Connection) (job : WriteJob) (err : Error) :
    (Instr.finishWrite job (some err)).Knows P sessionID key s := by
  intro hproceeds
  rw [job.proceeds_error] at hproceeds
  cases hproceeds

/-- A call for a job emits a `RekeyInit` or a frame with the message of the job. -/
theorem asked_of_emission {session : Session} {job : WriteJob} {env : SendEnv} {e : Emission}
    (h : (session.step P (.send job.message job.padLength env)).emission = some e) :
    job.Asked e := by
  rcases Link.step_asked session (.send job.message job.padLength env) h with hrekey | hasks
  · exact .inl hrekey
  · obtain ⟨m, hmessage, htype, hmarshal⟩ := hasks
    exact .inr ⟨m, hmessage, htype, hmarshal⟩

/-- The frame in the hands of the writer is begun. -/
theorem Connection.Ready.begin {job : WriteJob} {e : Emission}
    (h : s.Ready P sessionID key [e] job.outbound) (hlive : s.operationsCanceled = false) :
    { s with sent := s.sent ++ [SentFrame.mk job e] }.Ready P sessionID key []
      (if e.isRekey then job.outbound else []) := by
  constructor
  · show Flight P sessionID (CaughtUp s.session) 1 key 0
      ((s.sent ++ [SentFrame.mk job e]).map SentFrame.emission ++ [])
    have hflight := h.flight
    rwa [List.map_append, List.append_nil]
  · intro _
    show sentItems (s.sent ++ [SentFrame.mk job e]) ++ (if e.isRekey then job.outbound else []) ++
      s.outbound = acceptedItems s.accepted
    rw [← h.queue hlive, sentItems_append, sentItems_singleton, SentFrame.outbound]
    cases e.isRekey <;> simp

theorem LifecycleExec.knows (h : LifecycleExec s i effect) (hs : s.Delivers P sessionID key)
    (hi : Token.writer.weight i ≠ 0 → i.Knows P sessionID key s)
    (hidle : s.startOnce = .idle → s.Ready P sessionID key [] []) :
    Informed (fun s j => j.Knows P sessionID key s) effect := by
  have hready : s.Ready P sessionID key [] [] → effect.state.Ready P sessionID key [] [] := by
    by_cases hfree : Token.writer.weight i = 0
    · refine (Exec.lifecycle h).ready_other hfree ?_ hs
      rintro err rfl
      cases h
    · cases h with
      | startCanceled | startLive | launchLoop | launchHelpers => exact fun h' => ⟨h'.1, h'.2⟩
      | _ => exact absurd rfl hfree
  have hheld : Token.writer.weight i ≠ 0 → s.Ready P sessionID key [] [] := by
    intro hne
    cases i with
    | checkStart | launch => exact hi hne
    | _ => first | exact absurd rfl hne | cases h
  exact h.informed hheld hidle (fun h' _ => hready h') (fun h' _ _ => hready h') hready

theorem WriteExec.knows (h : WriteExec P s i effect) (hs : s.Delivers P sessionID key)
    (hi : Token.writer.weight i ≠ 0 → i.Knows P sessionID key s) :
    Informed (fun s j => j.Knows P sessionID key s) effect := by
  cases h with
  | closeFirst | noClose | selectClose | selectControl =>
      have hready : s.Ready P sessionID key [] [] := hi (by simp)
      exact informed_of_single
        (show Connection.Ready P sessionID key _ [] [] from ⟨hready.flight, hready.queue⟩)
  | @selectOutbound item rest h =>
      have hready : s.Ready P sessionID key [] [] := hi (by simp)
      refine informed_of_single
        (show Connection.Ready P sessionID key _ [] [item] from ⟨hready.flight, fun hlive => ?_⟩)
      have hall := hready.queue hlive
      rw [h] at hall
      simpa using hall
  | @sendOk job emission env h =>
      have hready : s.Ready P sessionID key [] job.outbound := hi (by simp)
      refine informed_of_single ⟨⟨?_, hready.queue⟩, asked_of_emission h⟩
      have hid := hs.session
      subst hid
      have hflight := hready.flight.step hs.keys (.send job.message job.padLength env)
      rwa [h, Option.toList_some, List.append_nil] at hflight
  | @marked job emission now reply h =>
      have hready : s.Ready P sessionID key [] job.outbound := hi (by simp)
      refine informed_of_single
        (show Connection.Ready P sessionID key _ [] job.outbound from ⟨?_, hready.queue⟩)
      refine flight_of_silent hs.keys hs.session ?_ hready.flight
      show Event.emission ⟨_, _, _, [], (s.session.markRekeySent now emission.frame).2.map
        fun _ => .done⟩ = none
      cases (s.session.markRekeySent now emission.frame).2 <;> rfl
  | marshalOk | laneLive | laneFree =>
      obtain ⟨hready, hasked⟩ := hi (by simp)
      exact informed_of_single ⟨⟨hready.flight, hready.queue⟩, hasked⟩
  | watchLive h =>
      obtain ⟨hready, -⟩ := hi (by simp)
      cases h with
      | live hlive => exact informed_of_single (hready.begin hlive)
  | @wireDone job emission =>
      have hready : s.Ready P sessionID key [] (if emission.isRekey then job.outbound else []) :=
        hi (by simp)
      exact informed_of_release hready
  | @wireWrote job emission =>
      have hready : s.Ready P sessionID key [] (if emission.isRekey then job.outbound else []) :=
        hi (by simp)
      exact informed_of_single
        (show Connection.Ready P sessionID key _ [] _ from ⟨hready.flight, hready.queue⟩)
  | @messageWritten job emission hkind =>
      have hready : s.Ready P sessionID key [] (if emission.isRekey then job.outbound else []) :=
        hi (by simp)
      rw [hkind] at hready
      exact informed_of_single fun _ => ⟨hready.flight, hready.queue⟩
  | @rekeyWritten job emission hkind =>
      have hready : s.Ready P sessionID key [] (if emission.isRekey then job.outbound else []) :=
        hi (by simp)
      rw [hkind] at hready
      exact informed_of_single
        (show Connection.Ready P sessionID key _ [] job.outbound from
          ⟨hready.flight, hready.queue⟩)
  | sendFailed | marshalFailed | frameTooShort | frameTooLarge | laneEnded | laneCanceled
  | markFailed => exact informed_of_single (knows_finish_error _ _ _)
  | watchEnded | wireStalled | wireFailed =>
      exact informed_of_release (knows_finish_error _ _ _)
  | selectDone => exact informed_of_single trivial
  | releaseLane => exact informed_of_free rfl rfl
  | finishWrite => exact informed_of_finish trivial (hi (by simp))

theorem Exec.knows (h : Exec P s i effect) (hs : s.Delivers P sessionID key)
    (hi : Token.writer.weight i ≠ 0 → i.Knows P sessionID key s)
    (hidle : s.startOnce = .idle → s.Ready P sessionID key [] []) :
    Informed (fun s j => j.Knows P sessionID key s) effect := by
  cases h with
  | lifecycle h => exact h.knows hs hi hidle
  | queue h => exact h.informed fun _ _ => trivial
  | write h => exact h.knows hs hi
  | receive h | keepalive h => exact h.informed

/-- The accepted items grow at their end. -/
theorem Exec.accepted_prefix (h : Exec P s i effect) :
    acceptedItems s.accepted <+: acceptedItems effect.state.accepted := by
  cases h with
  | lifecycle h => rw [h.frame]
  | queue h =>
      cases h with
      | accepted =>
          simp only [Connection.push, acceptedItems_append]
          exact List.prefix_append _ _
      | _ => exact List.prefix_rfl
  | write h | receive h | keepalive h => rw [h.frame]

/-- The frames that are begun change only when the writer begins the one in its hands. -/
theorem Exec.sent_cases (h : Exec P s i effect)
    (hi : Token.writer.weight i ≠ 0 → i.Knows P sessionID key s) :
    effect.state.sent = s.sent ∨
      ∃ job e, s.Ready P sessionID key [e] job.outbound ∧ job.Asked e ∧
        s.operationsCanceled = false ∧ effect.state.sent = s.sent ++ [⟨job, e⟩] ∧
        effect.state.accepted = s.accepted := by
  cases h with
  | lifecycle h | queue h => exact .inl (by rw [h.frame])
  | write h =>
      cases h with
      | watchLive h =>
          obtain ⟨hready, hasked⟩ := hi (by simp)
          cases h with
          | live hlive => exact .inr ⟨_, _, hready, hasked, hlive, rfl, rfl⟩
      | _ => exact .inl rfl
  | receive h | keepalive h => exact .inl (by rw [h.frame])

theorem Exec.delivers (h : Exec P s i effect) (hs : s.Delivers P sessionID key)
    (hi : Token.writer.weight i ≠ 0 → i.Knows P sessionID key s) :
    effect.state.Delivers P sessionID key := by
  have hsession : effect.state.session.SendKeys P key ∧
      effect.state.session.sessionID = sessionID := by
    rcases h.session_step with hsame | ⟨call, hcall, -⟩
    · rw [hsame]
      exact ⟨hs.keys, hs.session⟩
    · rw [hcall, Session.step_sessionID]
      exact ⟨hs.keys.step call, hs.session⟩
  refine ⟨hsession.1, hsession.2, ?_, ?_, ?_⟩
  all_goals rcases h.sent_cases hi with hsent | ⟨job, e, hready, hasked, hlive, hsent, haccepted⟩
  · rw [hsent]
    exact hs.flight
  · rw [hsent, List.map_append]
    exact hready.flight.unended
  · rw [hsent]
    exact hs.asked
  · rw [hsent]
    intro frame hframe
    rcases List.mem_append.mp hframe with hold | hnew
    · exact hs.asked frame hold
    · obtain rfl := List.mem_singleton.mp hnew
      exact hasked
  · rw [hsent]
    exact hs.items.trans h.accepted_prefix
  · -- the queue holds what was accepted after the items of the frames
    rw [hsent, haccepted, ← hready.queue hlive, sentItems_append, sentItems_singleton,
      List.append_assoc]
    refine (List.prefix_append_right_inj _).mpr ?_
    unfold SentFrame.outbound
    split
    · exact List.nil_prefix
    · exact List.prefix_append _ _

end Rules

/-! ## Whole runs -/

section Runs

variable {P : Primitives} {sessionID : Octets 16} {key : Key}

/-- What holds about delivery in every pool that a new connection reaches. -/
structure Delivering (P : Primitives) (sessionID : Octets 16) (key : Key)
    (pool : Pool Connection Instr) : Prop where
  sound : Sound pool
  delivers : pool.state.Delivers P sessionID key
  idle : pool.state.startOnce = .idle → pool.state.Ready P sessionID key [] []
  owner : ∀ t ∈ pool.threads, ∀ i ∈ t, Token.writer.weight i ≠ 0 →
    i.Knows P sessionID key pool.state

/-- The shutdown drains the queues only after the operations have been canceled. -/
theorem Sound.drain_canceled {s : Connection} {threads : List (List Instr)} {k : Nat} {i : Instr}
    {rest : List Instr} (h : Sound ⟨s, threads⟩) (hk : threads[k]? = some (i :: rest)) (err : Error)
    (hi : i = .drain .shutdown err) : s.operationsCanceled = true := by
  subst hi
  have hthread := h.supported _ (List.mem_of_getElem? hk)
  have hleased : Holds s .leased := hthread.1 .leased (by simp)
  exact h.leased hleased .operationsCanceled (by simp)

theorem Delivering.step {before after : Pool Connection Instr}
    (h : Delivering P sessionID key before) (hstep : (connectionMachine P).Step before after) :
    Delivering P sessionID key after := by
  have hsound := h.sound.step hstep
  cases hstep with
  | @thread s threads k i rest effect hk hexec =>
      have hexec : Exec P s i effect := hexec
      have hmem := List.mem_of_getElem? hk
      have hi := h.owner _ hmem i List.mem_cons_self
      have hdrain := h.sound.drain_canceled hk
      obtain ⟨hpushed, hspawned⟩ := hexec.knows h.delivers hi h.idle
      refine ⟨hsound, hexec.delivers h.delivers hi, fun hidle => ?_, ?_⟩
      · have hidle := hexec.idle_of_idle hidle
        have hfree := h.sound.writer_idle hidle hmem List.mem_cons_self
        exact hexec.ready_other hfree hdrain h.delivers (h.idle hidle)
      · have hload : load Token.writer.weight threads ≤ 1 :=
          (Nat.le_add_left _ _).trans h.sound.writer_load
        refine owned_step hload hk h.owner ?_ hpushed hspawned
        exact fun hfree j _ hj => hexec.knows_other hfree hdrain h.delivers hj
  | @ambient s s' threads new hambient =>
      cases hambient with
      | call api =>
          refine ⟨hsound, ⟨h.delivers.1, h.delivers.2, h.delivers.3, h.delivers.4, h.delivers.5⟩,
            fun hidle => ⟨(h.idle hidle).flight, (h.idle hidle).queue⟩, fun t ht j hj hne => ?_⟩
          rcases List.mem_append.mp ht with hold | hnew
          · exact Instr.knows_of_ready (s := s) (fun hready => ⟨hready.flight, hready.queue⟩)
              (h.owner t hold j hj hne)
          · obtain rfl := List.mem_singleton.mp hnew
            exact absurd (api.program_writer _ j hj) hne
      | cancelCaller =>
          refine ⟨hsound, ⟨h.delivers.1, h.delivers.2, h.delivers.3, h.delivers.4, h.delivers.5⟩,
            fun hidle => ⟨(h.idle hidle).flight, (h.idle hidle).queue⟩, fun t ht j hj hne => ?_⟩
          exact Instr.knows_of_ready (s := s) (fun hready => ⟨hready.flight, hready.queue⟩)
            (h.owner t (by simpa using ht) j hj hne)

variable {suite : CipherSuite} {secrets : HandshakeSecrets} {now now' : Time} {a b : Session}

theorem delivering_start (ha : newSession P suite secrets now = .ok a) (limits : Session.Limits)
    (config : ConnectionConfig) :
    Delivering P secrets.sessionID secrets.sendKey
      (connectionStart (a.withLimits limits) config) := by
  have hkeys := Session.sendKeys_newSession ha limits
  obtain ⟨rfl, -, rfl⟩ := newSession_eq_ok ha
  refine ⟨sound_start _ config, ⟨hkeys, rfl, .arrived trivial, ?_, List.prefix_rfl⟩,
    fun _ => ⟨.arrived ?_, fun _ => rfl⟩, fun _ ht => absurd ht List.not_mem_nil⟩
  · exact fun _ hframe => absurd hframe List.not_mem_nil
  · exact ⟨rfl, rfl, .inr Nat.one_pos⟩

theorem delivering_of_reaches (ha : newSession P suite secrets now = .ok a)
    {limits : Session.Limits} {config : ConnectionConfig} {pool : Pool Connection Instr}
    (h : (connectionMachine P).Reaches (connectionStart (a.withLimits limits) config) pool) :
    Delivering P secrets.sessionID secrets.sendKey pool :=
  Machine.invariant_of_step Delivering.step (delivering_start ha limits config) h

/-- The session of the peer stands where the flight starts. -/
theorem listening_newSession (hb : newSession P suite secrets.crossed now' = .ok b)
    (limits : Session.Limits) :
    Listening (b.withLimits limits) secrets.sessionID 1 secrets.sendKey 0 := by
  obtain ⟨rfl, -, rfl⟩ := newSession_eq_ok hb
  exact ⟨rfl, rfl, rfl, rfl, rfl, rfl, ∅, Replay.refines_zero, by simp [highestOf]⟩

end Runs

/-- The outbound items among what has arrived, with the messages that were received for
them. -/
def outboundMessages (arrived : List (SentFrame × Message)) : List (QueuedMessage × Message) :=
  arrived.flatMap fun a => a.1.outbound.map fun item => (item, a.2)

theorem outboundMessages_items (arrived : List (SentFrame × Message)) :
    (outboundMessages arrived).map Prod.fst = sentItems (arrived.map Prod.fst) := by
  induction arrived with
  | nil => rfl
  | cons a arrived ih =>
      simp only [outboundMessages, sentItems, List.flatMap_cons, List.map_cons, List.map_append,
        List.map_map] at ih ⊢
      rw [ih]
      simp [Function.comp_def]

/-- The item of a frame is that of its job. -/
theorem SentFrame.mem_outbound {frame : SentFrame} {item : QueuedMessage}
    (h : item ∈ frame.outbound) :
    frame.emission.isRekey = false ∧ frame.job = .queued .outbound item := by
  obtain ⟨job, emission⟩ := frame
  unfold SentFrame.outbound at h
  split at h
  · cases h
  · rename_i hkind
    refine ⟨by simpa using hkind, ?_⟩
    match job, h with
    | .queued .outbound queued, h => rw [List.mem_singleton.mp h]

/-- **Prefix delivery.** In every interleaving of the goroutines of a connection with any
number of calls, whatever part of the octets it wrote has reached a peer with crossed
keys: the peer reads frames that the connection began to write, in their order, and
accepts all of them; and the messages that it receives for the items of the outbound
queue are those of the items first accepted into the queue, in the order in which they
were accepted. -/
theorem outbound_prefix_delivery (P : Primitives) (hopen : P.OpenInvertsSeal)
    {suite : CipherSuite} {secrets : HandshakeSecrets} {now now' : Time} {a b : Session}
    (ha : newSession P suite secrets now = .ok a)
    (hb : newSession P suite secrets.crossed now' = .ok b) (limitsA limitsB : Session.Limits)
    (config : ConnectionConfig) {pool : Pool Connection Instr}
    (hreach : (connectionMachine P).Reaches (connectionStart (a.withLimits limitsA) config) pool)
    {stream : Reader} (hstream : stream.octets <+: pool.state.wire)
    (clocks : List ReceiveClock) :
    ∃ arrived : List (SentFrame × Message),
      (b.withLimits limitsB).receiveStream P stream clocks =
        arrived.map (fun a => (a.1.emission.frame, .ok a.2)) ∧
      arrived.map Prod.fst <+: pool.state.sent ∧
      (outboundMessages arrived).map Prod.fst <+: acceptedItems pool.state.accepted ∧
      ∀ d ∈ outboundMessages arrived, d.1.message = .value d.2 ∨ d.1.message = .pointer d.2 := by
  have hdelivers := (delivering_of_reaches ha hreach).delivers
  have hcarries : ∀ frame ∈ pool.state.sent,
      frame.emission.isRekey = true ∨ ∃ m, frame.emission.Carries m := by
    intro frame hframe
    rcases hdelivers.asked frame hframe with hrekey | ⟨m, -, hm⟩
    · exact .inl hrekey
    · exact .inr ⟨m, hm⟩
  have hbytes : stream.octets <+:
      pool.state.sent.flatMap fun frame => frame.emission.frame.octets :=
    hstream.trans (streaming_of_reaches hreach).streams.begun
  obtain ⟨arrived, hsent, hreceived, hmessages⟩ := receiveStream_flight SentFrame.emission hopen
    clocks (listening_newSession hb limitsB) hdelivers.flight hcarries hbytes
  refine ⟨arrived, hreceived, hsent, ?_, ?_⟩
  · rw [outboundMessages_items]
    exact (sentItems_front hsent).trans hdelivers.items
  · intro d hd
    obtain ⟨arrival, harrival, hpair⟩ := List.mem_flatMap.mp hd
    obtain ⟨item, hitem, rfl⟩ := List.mem_map.mp hpair
    obtain ⟨hkind, hjob⟩ := SentFrame.mem_outbound hitem
    have hframe : arrival.1 ∈ pool.state.sent :=
      hsent.subset (List.mem_map_of_mem harrival)
    -- the frame was made for this item, and the peer decodes the message it carries
    obtain ⟨m, hmessage, hm⟩ := (hdelivers.asked arrival.1 hframe).resolve_left (by simp [hkind])
    rw [hmessages arrival harrival m hkind hm]
    rw [hjob] at hmessage
    exact hmessage

/-- Limits under which the first frames need no rekey. -/
def sampleLimits : Session.Limits := ⟨5, 0, 1, 1⟩

/-- A connection that has accepted one item, was started and has written its frame. -/
theorem write_started :
    (connectionMachine transparent).Leads
      (fun pool => pool.state.accepted = [(.outbound, sampleItem)] ∧
        ∃ frame, pool.state.sent = [frame] ∧ pool.state.wire = frame.emission.frame.octets)
      (connectionStart (sampleSession.withLimits sampleLimits) plainConfig) := by
  refine .step (.ambient (.call (.sendAndWait .background sampleItem.message))) ?_
  refine .first (.queue (.lease rfl)) ?_
  refine .first (.queue (.contextLive rfl)) ?_
  refine .first (.queue (.admitted rfl)) ?_
  refine .first (.queue (.accepted (show 0 < 16 by decide))) ?_
  refine .step (.ambient (.call (.start .background))) ?_
  refine .second (.lifecycle (.startFirst rfl)) ?_
  refine .second (.lifecycle (.startLive rfl)) ?_
  refine .second (.lifecycle .storeStarted) ?_
  refine .second (.lifecycle .launchLoop) ?_
  refine .second (.lifecycle .launchLoop) ?_
  -- the write loop is the fourth goroutine
  refine .after [_, _, _] (.write (.noClose rfl)) ?_
  refine .after [_, _, _] (.write (.selectOutbound rfl)) ?_
  refine .after [_, _, _] (.write (.sendOk ⟨0, ⟨[], none⟩⟩ rfl)) ?_
  refine .after [_, _, _] (.write (.marshalOk rfl (by decide) (by decide))) ?_
  refine .after [_, _, _] (.write (.laneLive (.live rfl))) ?_
  refine .after [_, _, _] (.write (.laneFree rfl)) ?_
  refine .after [_, _, _] (.write (.watchLive (.live rfl))) ?_
  refine .after [_, _, _] (.write (.wireWrote _ (by decide) (Nat.le_refl _) rfl)) ?_
  exact .here ⟨rfl, _, rfl, rfl⟩

theorem outbound_prefix_delivery_transparent :
    ∃ pool b, (connectionMachine transparent).Reaches
        (connectionStart (sampleSession.withLimits sampleLimits) plainConfig) pool ∧
      newSession transparent cipherChaCha20Poly1305 sampleSecrets.crossed 0 = .ok b ∧
      pool.state.accepted = [(.outbound, sampleItem)] ∧
      (∃ frame, pool.state.sent = [frame] ∧ pool.state.wire = frame.emission.frame.octets) ∧
      ∃ arrived : List (SentFrame × Message),
        (b.withLimits sampleLimits).receiveStream transparent ⟨pool.state.wire, none⟩ [⟨0, 0, 0⟩] =
          arrived.map (fun a => (a.1.emission.frame, .ok a.2)) ∧
        (outboundMessages arrived).map Prod.fst <+: acceptedItems pool.state.accepted := by
  obtain ⟨pool, hreach, haccepted, hwire⟩ := write_started
  obtain ⟨arrived, hreceived, -, hitems, -⟩ :=
    outbound_prefix_delivery transparent transparent_openInvertsSeal newSession_sample
      newSession_sample_crossed sampleLimits sampleLimits plainConfig hreach
      (show (⟨pool.state.wire, none⟩ : Reader).octets <+: pool.state.wire from List.prefix_rfl)
      [⟨0, 0, 0⟩]
  exact ⟨pool, _, hreach, newSession_sample_crossed, haccepted, hwire, arrived, hreceived, hitems⟩

end DgProto
