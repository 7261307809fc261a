import DgProto.Peers.System
import DgProto.Wire.Canonical

/-!
# Delivery over a stream

The network is a TCP connection: what one side has written arrives at the other in order, and
`ReadFrame` returns the next frame once all of its octets are there.  It may fail at any
moment.  Under this law the handler of each side is called for a front of the messages that
the other side has accepted from its users, in the order in which it accepted them.

The invariant follows the frames from one side to the other.

* The frames that `ReadFrame` has returned are a front of those that the peer began to write.
* The reader holds the last of them, or has passed all of them to `Session.Receive`
  (`ReaderAt`).
* The received messages are those of a front of the frames, and the session stands where this
  front of the peer's flight ends, unless it was closed (`Arrived`).
-/

namespace DgProto

open Library Wire Crypto Connection Replay

/-! ## Frames of a stream -/

theorem sentOctets_eq (frames : List SentFrame) :
    sentOctets frames = frameOctets (frames.map fun frame => frame.emission.frame) := by
  simp [sentOctets, frameOctets, List.flatMap_map]

section Stream

variable {P : Primitives} {sessionID : Octets 16} {epoch : UInt32} {key : Key} {floor : Nat}
  {End : UInt32 → Key → Nat → Prop}

/-- From a part of the octets of a flight only its first frame is read. -/
theorem readFrame_flight {frames : List SentFrame} {stream rest : Reader} {frame : Frame}
    (hflight : Flight P sessionID End epoch key floor (frames.map SentFrame.emission))
    (hfront : stream.octets <+: sentOctets frames) (hread : readFrame stream = .ok (frame, rest)) :
    ∃ sent frames', frames = sent :: frames' ∧ sent.emission.frame = frame := by
  cases frames with
  | nil =>
      obtain ⟨err, herr⟩ := readFrame_nil (List.prefix_nil.mp hfront)
      rw [herr] at hread
      cases hread
  | cons sent frames =>
      refine ⟨sent, frames, rfl, ?_⟩
      obtain ⟨hvalid, htag⟩ := hflight.head_valid
      have hfront : stream.octets <+: sent.emission.frame.octets ++ sentOctets frames := hfront
      by_cases hwhole : sent.emission.frame.octets.length ≤ stream.octets.length
      · obtain ⟨tail, htail⟩ :=
          List.prefix_of_prefix_length_le (List.prefix_append _ _) hfront hwhole
        obtain ⟨octets, failure⟩ := stream
        simp only at htail
        subst htail
        rw [readFrame_octets_append hvalid htag] at hread
        exact congrArg Prod.fst (Except.ok.inj hread)
      · -- the frame is not there as a whole
        have hcut := List.prefix_of_prefix_length_le hfront (List.prefix_append _ _) (by omega)
        obtain ⟨err, herr⟩ := readFrame_cut hvalid hcut (by omega)
        rw [herr] at hread
        cases hread

end Stream

/-! ## The reader -/

/-- What the reader has passed to `Session.Receive` of the frames that were read. -/
def ReaderAt (reads : List Frame) (s : Connection) : Instr → Prop
  | .receive frame => ∃ before, reads = before ++ [frame] ∧ before.length = s.received.length
  | _ => reads.length = s.received.length

theorem ReaderAt.congr {reads : List Frame} {s s' : Connection} {j : Instr}
    (h : ReaderAt reads s j) (hreceived : s'.received = s.received) : ReaderAt reads s' j := by
  cases j <;> simp only [ReaderAt, hreceived] at h ⊢ <;> exact h

/-- The instruction holds a frame. -/
def Instr.holdsFrame : Instr → Bool
  | .receive _ => true
  | _ => false

/-- What the reader does with frames. -/
inductive ReaderMoves (P : Primitives) (s : Connection) : Instr → Effect Connection Instr → Prop
    where
  | frameRead (frame : Frame) : ReaderMoves P s .readFrame ⟨s, [.receive frame], []⟩
  | accepted {frame : Frame} (clock : ReceiveClock) {message : Message}
      (h : (s.session.receiveMessage P clock frame).2 = .ok message) :
      ReaderMoves P s (.receive frame)
        ⟨{ s with
            session := (s.session.receiveMessage P clock frame).1
            received := s.received ++ [message] },
          [.noteActivity, .dispatch message], []⟩
  | rejected {frame : Frame} (clock : ReceiveClock) {err : Error}
      (h : (s.session.receiveMessage P clock frame).2 = .error err) :
      ReaderMoves P s (.receive frame)
        ⟨{ s with session := (s.session.receiveMessage P clock frame).1 }, shutdown err, []⟩
  | other {i : Instr} {effect : Effect Connection Instr} (hi : i.holdsFrame = false)
      (hread : readBy i effect.pushed = none) (hreceived : effect.state.received = s.received)
      (hnone : ∀ t ∈ effect.pushed :: effect.spawned, ∀ j ∈ t, j.holdsFrame = false) :
      ReaderMoves P s i effect

section Reader

variable {P : Primitives} {s : Connection} {i : Instr} {effect : Effect Connection Instr}

theorem readerAt_iff {reads : List Frame} {j : Instr} (hj : j.holdsFrame = false) :
    ReaderAt reads s j ↔ reads.length = s.received.length := by
  cases j <;> first | exact Iff.rfl | cases hj

theorem ReaderMoves.of_free (hi : i.holdsFrame = false) (hread : readBy i effect.pushed = none)
    (hreceived : effect.state.received = s.received)
    (hfree : (effect.pushed :: effect.spawned).all (·.all (!·.holdsFrame)) = true) :
    ReaderMoves P s i effect := by
  refine .other hi hread hreceived fun t ht j hj => ?_
  have hj := List.all_eq_true.mp (List.all_eq_true.mp hfree t ht) j hj
  simpa using hj

theorem readBy_of_ne (hi : i ≠ .readFrame) (pushed : List Instr) : readBy i pushed = none := by
  unfold readBy
  split
  · exact absurd rfl hi
  · rfl

theorem Exec.readerMoves (h : Exec P s i effect) : ReaderMoves P s i effect := by
  cases h with
  | lifecycle h =>
      cases h with
      | @launchLoop loop => exact .of_free rfl rfl rfl (by cases loop <;> rfl)
      | _ => exact .of_free rfl rfl rfl rfl
  | queue h =>
      cases h with
      | @returnEnqueue call result =>
          refine .of_free rfl rfl rfl ?_
          obtain ⟨_, _, ⟨_, _, completion⟩, _, after⟩ := call
          cases after <;> cases result <;> cases completion <;> rfl
      | _ => exact .of_free rfl rfl rfl rfl
  | write h =>
      cases h with
      | @finishWrite job err =>
          exact .of_free rfl rfl rfl (by cases job <;> cases err <;> rfl)
      | _ => exact .of_free rfl rfl rfl rfl
  | receive h =>
      cases h with
      | frameRead frame => exact .frameRead frame
      | accepted clock hok => exact .accepted clock hok
      | rejected clock herr => exact .rejected clock herr
      | inlineReturned _ result | @handlerReturned _ result | @handlerLate _ result =>
          exact .of_free rfl rfl rfl (by cases result <;> rfl)
      | _ => exact .of_free rfl rfl rfl rfl
  | keepalive h => cases h <;> exact .of_free rfl rfl rfl rfl

/-- A step moves the reader, or leaves it where it is. -/
theorem readerAt_step {threads : List (List Instr)} {k : Nat} {rest : List Instr}
    {queued : List Message} {reads : List Frame} (hdispatching : Dispatching queued ⟨s, threads⟩)
    (hk : threads[k]? = some (i :: rest)) (hexec : Exec P s i effect)
    (hidle : s.startOnce = .idle → reads.length = s.received.length)
    (h : Sole Loop.read.side (ReaderAt reads s) threads) :
    Sole Loop.read.side (ReaderAt (reads ++ (readBy i effect.pushed).toList) effect.state)
      (threads.set k (effect.pushed ++ rest) ++ effect.spawned) := by
  -- there is one reader; it remains to see what it may assume
  refine (hdispatching.reader_step hk hexec).1.imp fun j hj _ => ?_
  cases hi : Loop.read.side i with
  | false =>
      have hreceived := (hexec.reader_frame hi).1
      have hne : i ≠ .readFrame := by
        rintro rfl
        cases hi
      rw [readBy_of_ne hne, Option.toList_none, List.append_nil]
      rw [roster_step_other _ _ hk hi] at hj
      rcases hexec.roster_other hi with ⟨ctx, honce, -, hroster⟩ | hfree
      · obtain ⟨hnone, -⟩ := hdispatching.idle honce
        rw [hnone, zero_add, hroster] at hj
        obtain rfl := Multiset.singleton_inj.mp hj
        exact (hidle honce).trans (by rw [hreceived])
      · rw [hfree, add_zero] at hj
        rcases h with hnone | ⟨j', hj', hat⟩
        · rw [hnone] at hj
          cases Multiset.singleton_ne_zero j hj.symm
        · obtain rfl := Multiset.singleton_inj.mp (hj'.symm.trans hj)
          exact hat.congr hreceived
  | true =>
      obtain ⟨hsole, hat⟩ := h.of_mem (List.mem_of_getElem? hk) List.mem_cons_self hi
      obtain ⟨others, hothers, hstep⟩ := roster_step_own effect.pushed effect.spawned hk hi
      have hzero : others = 0 := by
        rw [hothers, ← Multiset.cons_zero] at hsole
        exact (Multiset.cons_inj_right i).mp hsole
      rw [hstep, hzero, zero_add] at hj
      cases hexec.readerMoves with
      | frameRead frame =>
          obtain rfl : .receive frame = j := Multiset.singleton_inj.mp hj
          exact ⟨reads, rfl, hat⟩
      | @accepted frame clock message =>
          obtain rfl : .dispatch message = j := Multiset.singleton_inj.mp hj
          obtain ⟨before, hreads, hlength⟩ := hat
          show (reads ++ []).length = (s.received ++ [message]).length
          simp [hreads, hlength]
      | rejected => cases Multiset.singleton_ne_zero j hj.symm
      | other hfree hread hreceived hnone =>
          obtain ⟨t, ht, hmem⟩ := (mem_roster.mp (hj ▸ Multiset.mem_singleton_self j)).1
          rw [hread, Option.toList_none, List.append_nil, readerAt_iff (hnone t ht j hmem),
            hreceived]
          exact (readerAt_iff hfree).mp hat

end Reader

/-! ## What has arrived -/

/-- The frames of the sender that have arrived, with the messages that were received for
them. -/
structure Arrived (P : Primitives) (sessionID : Octets 16) (key : Key)
    (sender receiver : Connection) (arrived : List (SentFrame × Message)) : Prop where
  sent : arrived.map Prod.fst <+: sender.sent
  received : receiver.received = arrived.map Prod.snd
  rekey : ∀ a ∈ arrived, a.1.emission.isRekey = true → a.2.toHandler = false
  carried : ∀ a ∈ arrived, ∀ m, a.1.emission.isRekey = false → a.1.emission.Carries m → a.2 = m
  position : receiver.session.closed = true ∨ ∃ epoch key' floor,
    Flight P sessionID (At epoch key' floor) 1 key 0
      (arrived.map fun a => a.1.emission) ∧
      Listening receiver.session sessionID epoch key' floor

section Arrivals

variable {P : Primitives} {sessionID : Octets 16} {epoch : UInt32} {key : Key} {floor : Nat}
  {sender receiver : Connection} {arrived : List (SentFrame × Message)}

/-- A call that is not a receive closes the session or leaves it where it listens. -/
theorem Listening.step {b : Session} (h : Listening b sessionID epoch key floor)
    {call : SessionCall} (hcall : ∀ frame clock, call ≠ .receivePayload frame clock) :
    (b.step P call).after.closed = true ∨
      Listening (b.step P call).after sessionID epoch key floor := by
  have hside := Session.step_receiveSide P b hcall
  simp only [Session.receiveSide, Session.ReceiveSide.mk.injEq] at hside
  obtain ⟨hsuite, hcodec, hkey, hepoch, hreplay, -, -⟩ := hside
  cases hclosed : (b.step P call).after.closed with
  | true => exact .inl rfl
  | false =>
      refine .inr ⟨hclosed, hsuite.trans h.suite, ?_, hepoch.trans h.epoch_eq,
        hkey.trans h.key_eq, hcodec.trans h.codec, ?_⟩
      · rw [Session.step_sessionID]
        exact h.session
      · rw [hreplay]
        exact h.window

/-- What `Session.Receive` returns is the decoded payload. -/
theorem receiveMessage_eq_ok {b : Session} {clock : ReceiveClock} {frame : Frame} {m : Message}
    (h : (b.receiveMessage P clock frame).2 = .ok m) :
    ∃ plaintext, (b.receivePayload P clock frame).2 = .ok plaintext ∧
      newInboundMessage frame.header.messageType = .ok m.kind ∧
      m.kind.unmarshalBinary plaintext = .ok m := by
  unfold Session.receiveMessage at h
  rcases houtcome : b.receivePayload P clock frame with ⟨after, result⟩
  rw [houtcome] at h
  cases result with
  | error err => cases h
  | ok plaintext =>
      cases hinbound : newInboundMessage frame.header.messageType with
      | error err =>
          simp only [hinbound] at h
          cases h
      | ok kind =>
          cases hdecode : kind.unmarshalBinary plaintext with
          | error err =>
              simp only [hinbound, hdecode] at h
              cases h
          | ok message =>
              simp only [hinbound, hdecode, Except.ok.injEq] at h
              subst h
              have hkind := (MessageKind.unmarshalBinary_canonicalises hdecode).1
              rw [hkind]
              exact ⟨plaintext, rfl, rfl, hdecode⟩

/-- A closed session accepts nothing. -/
theorem open_of_receivePayload {b : Session} {clock : ReceiveClock} {frame : Frame}
    {plaintext : List UInt8} (h : (b.receivePayload P clock frame).2 = .ok plaintext) :
    b.closed = false := by
  have hcase := Session.receivePayload_cases P clock b frame
  generalize b.receivePayload P clock frame = outcome at hcase h
  cases hcase with
  | rejected => cases h
  | rekey _ _ _ _ _ hadmits | current _ _ hadmits | previous _ _ _ hadmits => exact hadmits.isOpen

/-- The message of a `RekeyInit` frame is not for the handler. -/
theorem toHandler_of_rekey {e : Emission} {m : Message}
    (hinbound : newInboundMessage e.frame.header.messageType = .ok m.kind)
    (hrekey : e.isRekey = true) : m.toHandler = false := by
  have htype : e.frame.header.messageType = MessageType.rekeyInit := by
    simpa [Emission.isRekey] using hrekey
  have hkind : MessageKind.rekeyInit = m.kind := by
    rw [htype] at hinbound
    exact Except.ok.inj hinbound
  simp [Message.toHandler, ← hkind]

/-- The sender begins more frames. -/
theorem Arrived.sends {sender' : Connection} (h : Arrived P sessionID key sender receiver arrived)
    (hsent : sender.sent <+: sender'.sent) : Arrived P sessionID key sender' receiver arrived :=
  ⟨h.sent.trans hsent, h.received, h.rekey, h.carried, h.position⟩

/-- The receiver does something else. -/
theorem Arrived.stays {receiver' : Connection}
    (h : Arrived P sessionID key sender receiver arrived)
    (hreceived : receiver'.received = receiver.received)
    (hsession : receiver'.session = receiver.session ∨
      receiver'.session.closed = true ∨
      ∃ call, (∀ frame clock, call ≠ .receivePayload frame clock) ∧
        receiver'.session = (receiver.session.step P call).after) :
    Arrived P sessionID key sender receiver' arrived := by
  refine ⟨h.sent, hreceived.trans h.received, h.rekey, h.carried, ?_⟩
  rcases hsession with hsame | hclosed | ⟨call, hcall, hstep⟩
  · rw [hsame]
    exact h.position
  · exact .inl hclosed
  · rw [hstep]
    rcases h.position with hclosed | ⟨epoch, key', floor, hflight, hlistening⟩
    · exact .inl (Session.step_closed call hclosed)
    · exact (hlistening.step hcall).imp_right fun hstays => ⟨epoch, key', floor, hflight, hstays⟩

/-- An open session accepts the next frame of the sender. -/
theorem Arrived.accepts (hopen : P.OpenInvertsSeal)
    (h : Arrived P sessionID key sender receiver arrived)
    (hsender : sender.Delivers P sessionID key) {next : SentFrame}
    (hnext : arrived.map Prod.fst ++ [next] <+: sender.sent) (clock : ReceiveClock) :
    receiver.session.closed = true ∨ ∃ message epoch key' floor,
      (receiver.session.receiveMessage P clock next.emission.frame).2 = .ok message ∧
      (∀ m, next.emission.isRekey = false → next.emission.Carries m → message = m) ∧
      Flight P sessionID (At epoch key' floor) 1 key 0
        ((arrived ++ [(next, message)]).map fun a => a.1.emission) ∧
      Listening (receiver.session.receiveMessage P clock next.emission.frame).1 sessionID epoch
        key' floor := by
  rcases h.position with hclosed | ⟨epoch, key', floor, hflight, hlistening⟩
  · exact .inl hclosed
  right
  have hmem : next ∈ sender.sent := hnext.subset (List.mem_append_right _ List.mem_cons_self)
  -- the flight of the sender goes on from where the session listens
  obtain ⟨rest, hrest⟩ := hnext
  have hall := hsender.flight
  rw [← hrest, List.map_append, List.map_append, List.map_map, List.append_assoc] at hall
  obtain ⟨epoch₂, key₂, floor₂, hfirst, -⟩ := (hflight.split hall).first
  obtain ⟨⟨message, hok, hunique⟩, epoch₃, key₃, floor₃, hlistens, harrived⟩ :=
    hfirst.receive hopen hlistening
      ((hsender.asked next hmem).imp_right fun ⟨m, _, hm⟩ => ⟨m, hm⟩) clock
  obtain ⟨rfl, rfl, rfl⟩ := harrived.of_nil
  refine ⟨message, epoch₃, key₃, floor₃, hok, hunique, ?_, hlistens⟩
  rw [List.map_append]
  refine hflight.extend fun _ _ _ hat => ?_
  obtain ⟨rfl, rfl, rfl⟩ := hat
  exact hfirst

/-- The session is handed the next frame and accepts it. -/
theorem Arrived.receives (hopen : P.OpenInvertsSeal)
    (h : Arrived P sessionID key sender receiver arrived)
    (hsender : sender.Delivers P sessionID key) {next : SentFrame}
    (hnext : arrived.map Prod.fst ++ [next] <+: sender.sent) {clock : ReceiveClock}
    {message : Message}
    (hok : (receiver.session.receiveMessage P clock next.emission.frame).2 = .ok message)
    {receiver' : Connection}
    (hsession : receiver'.session =
      (receiver.session.receiveMessage P clock next.emission.frame).1)
    (hreceived : receiver'.received = receiver.received ++ [message]) :
    Arrived P sessionID key sender receiver' (arrived ++ [(next, message)]) := by
  have hlive : receiver.session.closed ≠ true := by
    obtain ⟨plaintext, hpayload, -⟩ := receiveMessage_eq_ok hok
    simp [open_of_receivePayload hpayload]
  obtain ⟨m, epoch, key', floor, hm, hunique, hflight, hlistens⟩ :=
    (h.accepts hopen hsender hnext clock).resolve_left hlive
  obtain rfl : m = message := Except.ok.inj (hm.symm.trans hok)
  refine ⟨?_, ?_, ?_, ?_, .inr ⟨epoch, key', floor, hflight, ?_⟩⟩
  · rw [List.map_append]
    exact hnext
  · rw [hreceived, h.received, List.map_append]
    rfl
  · intro a ha
    rcases List.mem_append.mp ha with hold | hnew
    · exact h.rekey a hold
    · obtain rfl := List.mem_singleton.mp hnew
      obtain ⟨-, -, hinbound, -⟩ := receiveMessage_eq_ok hok
      exact toHandler_of_rekey hinbound
  · intro a ha
    rcases List.mem_append.mp ha with hold | hnew
    · exact h.carried a hold
    · obtain rfl := List.mem_singleton.mp hnew
      exact hunique
  · rw [hsession]
    exact hlistens

/-- The messages for the handler that have arrived are those of the items whose frames
have arrived. -/
theorem Arrived.toHandler_eq (h : Arrived P sessionID key sender receiver arrived)
    (hsender : sender.Delivers P sessionID key)
    (hcontrolled : ∀ frame ∈ sender.sent, frame.job.controlled = true) :
    receiver.toHandler = handlerMessages (sentItems (arrived.map Prod.fst)) := by
  have hframes : ∀ a ∈ arrived, [a.2].filter Message.toHandler = handlerMessages a.1.outbound := by
    intro a ha
    have hmem : a.1 ∈ sender.sent := h.sent.subset (List.mem_map_of_mem ha)
    exact SentFrame.handlerMessages_eq (hcontrolled a.1 hmem) (hsender.asked a.1 hmem)
      (h.rekey a ha) (h.carried a ha)
  rw [toHandler, h.received]
  clear h
  induction arrived with
  | nil => rfl
  | cons a arrived ih =>
      have htail := ih fun b hb => hframes b (List.mem_cons_of_mem _ hb)
      have hhead := hframes a List.mem_cons_self
      show ([a.2] ++ arrived.map Prod.snd).filter Message.toHandler =
        handlerMessages (sentItems ([a.1] ++ arrived.map Prod.fst))
      rw [List.filter_append, htail, hhead, sentItems_append, handlerMessages_append,
        sentItems_singleton]

end Arrivals

/-! ## Whole runs -/

/-- A reader of the frames of a sender. -/
structure Following (P : Primitives) (sessionID : Octets 16) (key : Key) (reads : List Frame)
    (sender : Connection) (pool : Pool Connection Instr) : Prop where
  front : reads <+: sender.sent.map fun frame => frame.emission.frame
  reader : Sole Loop.read.side (ReaderAt reads pool.state) pool.threads
  idle : pool.state.startOnce = .idle → reads.length = pool.state.received.length
  arrived : ∃ arrived, Arrived P sessionID key sender pool.state arrived

section Runs

variable {P : Primitives} {sessionID : Octets 16} {key : Key} {reads : List Frame}
  {sender : Connection}

/-- The sender begins more frames. -/
theorem Following.sends {pool : Pool Connection Instr} {sender' : Connection}
    (h : Following P sessionID key reads sender pool) (hsent : sender.sent <+: sender'.sent) :
    Following P sessionID key reads sender' pool := by
  obtain ⟨arrived, harrived⟩ := h.arrived
  refine ⟨h.front.trans ?_, h.reader, h.idle, arrived, harrived.sends hsent⟩
  exact hsent.map _

/-- The next frame of the stream follows those that were read. -/
theorem reads_next {stream : Reader} {frame : Frame} {rest : Reader}
    (hsender : sender.Delivers P sessionID key) (hwire : sender.wire <+: sentOctets sender.sent)
    (hreads : reads <+: sender.sent.map fun frame => frame.emission.frame)
    (hstream : stream.octets = sender.wire.drop (frameOctets reads).length)
    (hread : readFrame stream = .ok (frame, rest)) :
    reads ++ [frame] <+: sender.sent.map fun frame => frame.emission.frame := by
  obtain ⟨before, after, hsplit, hbefore⟩ : ∃ before after, sender.sent = before ++ after ∧
      reads = before.map fun frame => frame.emission.frame := by
    refine ⟨sender.sent.take reads.length, sender.sent.drop reads.length,
      (List.take_append_drop _ _).symm, ?_⟩
    rw [List.map_take]
    exact List.prefix_iff_eq_take.mp hreads
  have hflight := hsender.flight
  rw [hsplit, List.map_append] at hflight
  obtain ⟨epoch', key', floor', hafter⟩ := hflight.drop
  have hfront : stream.octets <+: sentOctets after := by
    have hdrop := hwire.drop (frameOctets reads).length
    rw [hsplit, sentOctets_append, sentOctets_eq before, ← hbefore, List.drop_left] at hdrop
    rw [hstream]
    exact hdrop
  obtain ⟨sent, after', rfl, rfl⟩ := readFrame_flight hafter hfront hread
  rw [hsplit, hbefore, List.map_append, List.map_cons]
  exact ⟨after'.map fun frame => frame.emission.frame, by simp⟩

/-- The frame in the hands of the reader follows those that have arrived. -/
theorem Arrived.next {s : Connection} {arrived : List (SentFrame × Message)} {frame : Frame}
    (h : Arrived P sessionID key sender s arrived)
    (hfront : reads <+: sender.sent.map fun frame => frame.emission.frame)
    (hat : ReaderAt reads s (.receive frame)) :
    ∃ next, arrived.map Prod.fst ++ [next] <+: sender.sent ∧ next.emission.frame = frame := by
  obtain ⟨before, rfl, hlength⟩ := hat
  obtain ⟨after, hafter⟩ := h.sent
  rw [h.received, List.length_map] at hlength
  obtain ⟨tail, htail⟩ := hfront
  rw [← hafter, List.map_append, List.append_assoc] at htail
  -- as many frames were received as were read before this one
  obtain ⟨-, hrest⟩ := List.append_inj htail (by simpa using hlength)
  cases after with
  | nil => cases hrest
  | cons next after =>
      rw [List.map_cons, List.singleton_append, List.cons.injEq] at hrest
      refine ⟨next, ⟨after, ?_⟩, hrest.1.symm⟩
      rw [← hafter, List.append_assoc]
      rfl

/-- A goroutine of the reading side executes an instruction. -/
theorem Following.exec (hopen : P.OpenInvertsSeal) {s : Connection} {threads : List (List Instr)}
    {k : Nat} {i : Instr} {rest : List Instr} {effect : Effect Connection Instr}
    {queued : List Message} (h : Following P sessionID key reads sender ⟨s, threads⟩)
    (hsender : sender.Delivers P sessionID key) (hwire : sender.wire <+: sentOctets sender.sent)
    (hdispatching : Dispatching queued ⟨s, threads⟩) (hk : threads[k]? = some (i :: rest))
    (hexec : Exec P s i effect)
    (hread : ∀ frame ∈ readBy i effect.pushed, ∃ after,
      readFrame ⟨sender.wire.drop (frameOctets reads).length, none⟩ = .ok (frame, after)) :
    Following P sessionID key (reads ++ (readBy i effect.pushed).toList) sender
      ⟨effect.state, threads.set k (effect.pushed ++ rest) ++ effect.spawned⟩ := by
  obtain ⟨arrived, harrived⟩ := h.arrived
  have hat (hi : Loop.read.side i = true) : ReaderAt reads s i :=
    (h.reader.of_mem (List.mem_of_getElem? hk) List.mem_cons_self hi).2
  refine ⟨?_, readerAt_step hdispatching hk hexec h.idle h.reader, ?_, ?_⟩
  · cases hframe : readBy i effect.pushed with
    | none =>
        rw [Option.toList_none, List.append_nil]
        exact h.front
    | some frame =>
        obtain ⟨after, hafter⟩ := hread frame hframe
        exact reads_next hsender hwire h.front rfl hafter
  · intro hidle
    have honce := hexec.idle_of_idle hidle
    obtain ⟨hnone, -⟩ := hdispatching.idle honce
    have hside := (hexec.roster_idle hk hnone hidle).1
    have hne : i ≠ .readFrame := by
      rintro rfl
      cases hside
    rw [readBy_of_ne hne, Option.toList_none, List.append_nil]
    exact (h.idle honce).trans (by rw [(hexec.reader_frame hside).1])
  · cases hexec.readerMoves with
    | frameRead frame => exact ⟨arrived, harrived⟩
    | accepted clock hok =>
        obtain ⟨next, hnext, rfl⟩ := harrived.next h.front (hat rfl)
        exact ⟨_, harrived.receives hopen hsender hnext hok rfl rfl⟩
    | rejected clock herr =>
        obtain ⟨next, hnext, rfl⟩ := harrived.next h.front (hat rfl)
        -- an open session would have accepted the frame
        rcases harrived.accepts hopen hsender hnext clock with hclosed | ⟨m, _, _, _, hok, -⟩
        · exact ⟨arrived,
            harrived.stays rfl (.inr (.inl (Session.receiveMessage_closed _ _ hclosed)))⟩
        · rw [hok] at herr
          cases herr
    | other hfree _ hreceived _ =>
        refine ⟨arrived, harrived.stays hreceived ?_⟩
        obtain ⟨call, hcall⟩ := hexec.calls
        cases hcall with
        | none _ hsession => exact .inl hsession
        | send _ hsession | mark _ hsession | close hsession =>
            exact .inr (.inr ⟨_, fun _ _ => by simp, hsession⟩)
        | receive => cases hfree

/-- A user of the reading side acts. -/
theorem Following.uses {s s' : Connection} {threads new : List (List Instr)}
    (h : Following P sessionID key reads sender ⟨s, threads⟩) (huses : Uses s s' new) :
    Following P sessionID key reads sender ⟨s', threads ++ new⟩ := by
  have hsame : s'.received = s.received ∧ s'.session = s.session ∧ s'.startOnce = s.startOnce := by
    cases huses <;> exact ⟨rfl, rfl, rfl⟩
  obtain ⟨hreceived, hsession, honce⟩ := hsame
  have hfree : roster Loop.read.side new = 0 := by
    cases huses with
    | call api => exact api.roster_program _ _
    | cancelCaller => rfl
  obtain ⟨arrived, harrived⟩ := h.arrived
  refine ⟨h.front, h.reader.spawn hfree fun j _ hj => hj.congr hreceived, fun hidle => ?_,
    arrived, harrived.stays hreceived (.inl hsession)⟩
  exact (h.idle (honce.symm.trans hidle)).trans (by rw [hreceived])

/-- The sending side does not touch what the reader knows. -/
theorem Following.of_step {before after : Pool Connection Instr} {pool : Pool Connection Instr}
    (h : Following P sessionID key reads before.state pool)
    (hstep : (userMachine P).Step before after) :
    Following P sessionID key reads after.state pool := by
  apply h.sends
  cases hstep with
  | thread k hk hexec => exact Exec.sent_prefix hexec
  | ambient huses =>
      cases huses <;> exact List.prefix_rfl

variable {suite : CipherSuite} {secrets : HandshakeSecrets} {now : Side → Time}
  {sessions : Side → Session} {limits : Side → Session.Limits} {config : Side → ConnectionConfig}

/-- The peers of one handshake, with any limits and configurations. -/
abbrev Peers.established (sessions : Side → Session) (limits : Side → Session.Limits)
    (config : Side → ConnectionConfig) : Peers :=
  Peers.start (fun side => (sessions side).withLimits (limits side)) config

/-- Each side of a run is ordered. -/
def Peers.Ordered (P : Primitives) (secrets : HandshakeSecrets) (peers : Peers) (side : Side) :
    Prop :=
  Following P (side.peer.secrets secrets).sessionID (side.peer.secrets secrets).sendKey
    (peers.reads side) (peers.ends side.peer).state (peers.ends side)

/-- What is known about each side on its own. -/
structure Peers.Sided (P : Primitives) (secrets : HandshakeSecrets) (peers : Peers) (side : Side) :
    Prop where
  delivering : Delivering P (side.secrets secrets).sessionID (side.secrets secrets).sendKey
    (peers.ends side)
  streaming : Streaming (peers.ends side)
  dispatching : ∃ queued, Dispatching queued (peers.ends side)
  controlled : Controlled (peers.ends side)

theorem Peers.sided_of_reaches {law : Peers.Law} {peers : Peers}
    (hsessions : ∀ side, newSession P suite (side.secrets secrets) (now side) = .ok (sessions side))
    (h : Peers.Reaches P law (Peers.established sessions limits config) peers) (side : Side) :
    peers.Sided P secrets side := by
  have hreach := h.side side
  have hany := reaches_of_user hreach
  exact ⟨delivering_of_reaches (hsessions side) hany, streaming_of_reaches hany,
    dispatching_of_reaches hany, controlled_of_reaches hreach⟩

theorem Peers.Ordered.step (hopen : P.OpenInvertsSeal) {before after : Peers}
    (hsided : ∀ side, before.Sided P secrets side) (h : ∀ side, before.Ordered P secrets side)
    (hstep : Peers.Step P Peers.inOrder before after) (side : Side) :
    after.Ordered P secrets side := by
  have hwhole := hstep
  cases hstep with
  | @thread moved s threads k i rest effect call hends hk hexec hcall hlaw =>
      rcases side.eq_or_peer moved with rfl | rfl
      · -- the reading side moves
        obtain ⟨queued, hdispatching⟩ := (hsided moved).dispatching
        have hread := h moved
        unfold Peers.Ordered at hread ⊢
        simp only [Function.update_self, Function.update_of_ne moved.peer_ne]
        rw [hends] at hread hdispatching
        exact hread.exec hopen (hsided moved.peer).delivering.delivers
          (hsided moved.peer).streaming.streams.begun hdispatching hk hexec hlaw
      · -- the sending side moves
        have hread := h side
        have hmoved : (userMachine P).Step (before.ends side.peer)
            ⟨effect.state, threads.set k (effect.pushed ++ rest) ++ effect.spawned⟩ := by
          rw [hends]
          exact .thread k hk hexec
        unfold Peers.Ordered at hread ⊢
        simp only [Function.update_self, Function.update_of_ne side.peer_ne.symm]
        exact hread.of_step hmoved
  | @uses moved s s' threads new hends huses =>
      rcases side.eq_or_peer moved with rfl | rfl
      · have hread := h moved
        unfold Peers.Ordered at hread ⊢
        simp only [Function.update_self, Function.update_of_ne moved.peer_ne]
        rw [hends] at hread
        exact hread.uses huses
      · have hread := h side
        have hmoved : (userMachine P).Step (before.ends side.peer) ⟨s', threads ++ new⟩ := by
          rw [hends]
          exact .ambient huses
        unfold Peers.Ordered at hread ⊢
        simp only [Function.update_self, Function.update_of_ne side.peer_ne.symm]
        exact hread.of_step hmoved

theorem Peers.ordered_start
    (hsessions : ∀ side, newSession P suite (side.secrets secrets) (now side) = .ok (sessions side))
    (side : Side) : (Peers.established sessions limits config).Ordered P secrets side := by
  have hcrossed : newSession P suite (side.peer.secrets secrets).crossed (now side) =
      .ok (sessions side) := by
    rw [← Side.secrets_peer, Side.peer_peer]
    exact hsessions side
  refine ⟨List.prefix_rfl, .none rfl, fun _ => rfl, [], List.prefix_rfl, rfl, ?_, ?_, ?_⟩
  · exact fun _ ha => absurd ha List.not_mem_nil
  · exact fun _ ha => absurd ha List.not_mem_nil
  · exact .inr ⟨1, _, 0, .arrived ⟨rfl, rfl, rfl⟩, listening_newSession hcrossed (limits side)⟩

theorem Peers.ordered_of_reaches (hopen : P.OpenInvertsSeal) {peers : Peers}
    (hsessions : ∀ side, newSession P suite (side.secrets secrets) (now side) = .ok (sessions side))
    (h : Peers.Reaches P Peers.inOrder (Peers.established sessions limits config) peers) :
    ∀ side, peers.Ordered P secrets side := by
  induction h with
  | refl => exact Peers.ordered_start hsessions
  | tail hreach hstep ih =>
      exact Peers.Ordered.step hopen (Peers.sided_of_reaches hsessions hreach) ih hstep

end Runs

/-! ## The order of the handler calls -/

section Order

variable {P : Primitives} {suite : CipherSuite} {secrets : HandshakeSecrets} {now : Side → Time}
  {sessions : Side → Session} {limits : Side → Session.Limits} {config : Side → ConnectionConfig}
  {peers : Peers}

/-- The handler of a side has been called for a front of what the other side accepted. -/
theorem Peers.invoked_front (hopen : P.OpenInvertsSeal)
    (hsessions : ∀ side, newSession P suite (side.secrets secrets) (now side) = .ok (sessions side))
    (hreach : Peers.Reaches P Peers.inOrder (Peers.established sessions limits config) peers)
    (side : Side) :
    (peers.ends side).state.invoked <+: (peers.ends side.peer).state.posted := by
  obtain ⟨arrived, harrived⟩ := (Peers.ordered_of_reaches hopen hsessions hreach side).arrived
  have hpeer := Peers.sided_of_reaches hsessions hreach side.peer
  obtain ⟨queued, hdispatching⟩ := (Peers.sided_of_reaches hsessions hreach side).dispatching
  have hitems : sentItems (arrived.map Prod.fst) <+:
      acceptedItems (peers.ends side.peer).state.accepted :=
    (sentItems_front harrived.sent).trans hpeer.delivering.delivers.items
  calc (peers.ends side).state.invoked
      <+: (peers.ends side).state.toHandler := hdispatching.begun.trans hdispatching.front
    _ = handlerMessages (sentItems (arrived.map Prod.fst)) :=
        harrived.toHandler_eq hpeer.delivering.delivers hpeer.controlled.sent
    _ <+: (peers.ends side.peer).state.posted := handlerMessages_front hitems

end Order

/-- **Ordered dispatch.** Two connections with the secrets of one handshake, under any limits
and configurations, any interleaving of their goroutines and any calls of their users, over a
network that delivers in order: the handler of each side has been called for a front of the
messages that the other side accepted from its users, in the order of their acceptance. -/
theorem dispatch_in_order (P : Primitives) (hopen : P.OpenInvertsSeal) {suite : CipherSuite}
    {secrets : HandshakeSecrets} {now : Side → Time} {sessions : Side → Session}
    (hsessions : ∀ side, newSession P suite (side.secrets secrets) (now side) = .ok (sessions side))
    (limits : Side → Session.Limits) (config : Side → ConnectionConfig) {peers : Peers}
    (hreach : Peers.Reaches P Peers.inOrder (Peers.established sessions limits config) peers)
    (side : Side) :
    (peers.ends side).state.invoked <+: (peers.ends side.peer).state.posted :=
  Peers.invoked_front hopen hsessions hreach side

/-! ## Nothing is lost -/

/-- Nothing is on its way to the handler of a side: the writer of the peer waits for work with
an empty queue, the network has been read, and the reader and the handler loop of the side wait
for more. -/
structure Peers.Quiet (peers : Peers) (side : Side) : Prop where
  writer : ∃ t ∈ (peers.ends side.peer).threads, Instr.selectWork ∈ t
  outbound : (peers.ends side.peer).state.outbound = []
  live : (peers.ends side.peer).state.operationsCanceled = false
  network : (peers.unread side).octets = []
  reader : ∃ t ∈ (peers.ends side).threads, Instr.readFrame ∈ t
  handles : (peers.ends side).state.config.handler = true
  handler : ∃ t ∈ (peers.ends side).threads, Instr.selectHandler ∈ t
  handlerQueue : (peers.ends side).state.handlerQueue = []
  uncanceled : (peers.ends side).state.cancelCause = none

/-- Every frame of a flight has octets. -/
theorem Flight.octets_pos {P : Primitives} {sessionID : Octets 16} {epoch : UInt32} {key : Key}
    {floor : Nat} {End : UInt32 → Key → Nat → Prop} {e : Emission} {rest : List Emission}
    (h : Flight P sessionID End epoch key floor (e :: rest)) : 0 < e.frame.octets.length := by
  obtain ⟨hvalid, -⟩ := h.head_valid
  rw [octets_length_of_validateReceive hvalid]
  exact lt_of_lt_of_le (by decide) (frameSize_bounds hvalid).1

/-- Where all octets were read, all frames were read. -/
theorem reads_all {P : Primitives} {sessionID : Octets 16} {key : Key} {reads : List Frame}
    {sender : Connection} (hsender : sender.Delivers P sessionID key)
    (hwire : sender.wire = sentOctets sender.sent)
    (hfront : reads <+: sender.sent.map fun frame => frame.emission.frame)
    (hread : sender.wire.drop (frameOctets reads).length = []) :
    reads.length = sender.sent.length := by
  have hle := hfront.length_le
  rw [List.length_map] at hle
  by_contra hne
  have hlt : reads.length < sender.sent.length := lt_of_le_of_ne hle hne
  have hreads : reads = (sender.sent.take reads.length).map fun frame => frame.emission.frame := by
    rw [List.map_take]
    exact List.prefix_iff_eq_take.mp hfront
  -- the next frame is on the wire and has octets
  have hsplit : sender.sent =
      sender.sent.take reads.length ++ sender.sent[reads.length] ::
        sender.sent.drop (reads.length + 1) := by
    rw [← List.drop_eq_getElem_cons hlt, List.take_append_drop]
  have hflight := hsender.flight
  rw [hsplit, List.map_append, List.map_cons] at hflight
  obtain ⟨_, _, _, hrest⟩ := hflight.drop
  have hpos := hrest.octets_pos
  have hlength := List.drop_eq_nil_iff.mp hread
  rw [hwire, hsplit, sentOctets_append, sentOctets_eq, ← hreads, List.length_append] at hlength
  have hnext : sentOctets (sender.sent[reads.length] :: sender.sent.drop (reads.length + 1)) =
      sender.sent[reads.length].emission.frame.octets ++
        sentOctets (sender.sent.drop (reads.length + 1)) := rfl
  rw [hnext, List.length_append] at hlength
  omega

/-- A handler loop that waits for a message has called the handler for all others. -/
theorem Dispatching.invoked_of_waiting {queued : List Message} {pool : Pool Connection Instr}
    (h : Dispatching queued pool) (hwaits : ∃ t ∈ pool.threads, Instr.selectHandler ∈ t)
    (hempty : pool.state.handlerQueue = []) (hlive : pool.state.cancelCause = none) :
    pool.state.invoked = queued := by
  have hmem : Instr.selectHandler ∈ roster Loop.handler.side pool.threads :=
    mem_roster.mpr ⟨hwaits, rfl⟩
  have howes : pool.state.Owes queued [] := by
    have hturn := h.turn
    generalize roster Loop.handler.side pool.threads = left at hmem hturn
    cases hturn with
    | rest => cases Multiset.notMem_zero _ hmem
    | ready _ _ howes | inside _ howes | bounded _ _ _ howes | returned _ _ howes => exact howes
    | taken | calling => cases Multiset.mem_singleton.mp hmem
    | invoking hw =>
        rcases Multiset.mem_cons.mp hmem with rfl | hlast
        · cases hw
        · cases Multiset.mem_singleton.mp hlast
    | leftInvoking _ hcanceled | leftRunning _ hcanceled => exact absurd hlive hcanceled
  have hall := howes hlive
  rw [hempty, List.append_nil, List.append_nil] at hall
  exact hall.symm

section Complete

variable {P : Primitives} {suite : CipherSuite} {secrets : HandshakeSecrets} {now : Side → Time}
  {sessions : Side → Session} {limits : Side → Session.Limits} {config : Side → ConnectionConfig}
  {peers : Peers}

/-- With nothing on its way, the handler has been called for all that the other side accepted. -/
theorem Peers.invoked_all (hopen : P.OpenInvertsSeal)
    (hsessions : ∀ side, newSession P suite (side.secrets secrets) (now side) = .ok (sessions side))
    (hreach : Peers.Reaches P Peers.inOrder (Peers.established sessions limits config) peers)
    {side : Side} (hquiet : peers.Quiet side) :
    (peers.ends side).state.invoked = (peers.ends side.peer).state.posted := by
  have hordered := Peers.ordered_of_reaches hopen hsessions hreach side
  have hpeer := Peers.sided_of_reaches hsessions hreach side.peer
  obtain ⟨arrived, harrived⟩ := hordered.arrived
  obtain ⟨queued, hdispatching⟩ := (Peers.sided_of_reaches hsessions hreach side).dispatching
  obtain ⟨w, hw, hselect⟩ := hquiet.writer
  obtain ⟨r, hr, hreadFrame⟩ := hquiet.reader
  have hready : (peers.ends side.peer).state.Ready P _ _ [] [] :=
    hpeer.delivering.owner w hw _ hselect (by simp)
  have hbetween : (peers.ends side.peer).state.Between :=
    hpeer.streaming.owner w hw _ hselect (by simp)
  -- every frame that the peer began has been received
  have hreads := reads_all hpeer.delivering.delivers hbetween.wire hordered.front hquiet.network
  have hreader : (peers.reads side).length = (peers.ends side).state.received.length :=
    (hordered.reader.of_mem hr hreadFrame rfl).2
  have hsent : arrived.map Prod.fst = (peers.ends side.peer).state.sent := by
    refine harrived.sent.eq_of_length ?_
    rw [List.length_map, ← hreads, hreader, harrived.received, List.length_map]
  have hitems := hready.queue hquiet.live
  rw [List.append_nil, hquiet.outbound, List.append_nil] at hitems
  calc (peers.ends side).state.invoked
      = queued :=
        hdispatching.invoked_of_waiting hquiet.handler hquiet.handlerQueue hquiet.uncanceled
    _ = (peers.ends side).state.toHandler :=
        ((hdispatching.reader.of_mem hr hreadFrame rfl).2 hquiet.handles).symm
    _ = handlerMessages (sentItems (arrived.map Prod.fst)) :=
        harrived.toHandler_eq hpeer.delivering.delivers hpeer.controlled.sent
    _ = (peers.ends side.peer).state.posted := by rw [hsent, hitems, Connection.posted]

end Complete

/-- **Complete dispatch.** As above, and nothing is on its way to the handler of a side: the
handler has been called for every message that the other side accepted from its users, once
and in order. -/
theorem dispatch_complete (P : Primitives) (hopen : P.OpenInvertsSeal) {suite : CipherSuite}
    {secrets : HandshakeSecrets} {now : Side → Time} {sessions : Side → Session}
    (hsessions : ∀ side, newSession P suite (side.secrets secrets) (now side) = .ok (sessions side))
    (limits : Side → Session.Limits) (config : Side → ConnectionConfig) {peers : Peers}
    (hreach : Peers.Reaches P Peers.inOrder (Peers.established sessions limits config) peers)
    (side : Side) (hquiet : peers.Quiet side) :
    (peers.ends side).state.invoked = (peers.ends side.peer).state.posted :=
  Peers.invoked_all hopen hsessions hreach hquiet

/-! ## A run in which a message is posted and handled -/

/-- The instruction needs the session's randomness or the network. -/
@[simp] def Instr.online : Instr → Bool
  | .sendFrame _ | .readFrame | .receive _ => true
  | _ => false

/-- A connection that neither makes nor reads a frame. -/
def offlineMachine (P : Primitives) : Machine Connection Instr :=
  ⟨fun s i effect => Exec P s i effect ∧ i.online = false, Uses⟩

/-- The item of a sample run. -/
def samplePost : QueuedMessage := ⟨.value (.ack ⟨[5]⟩), 0, none⟩

def samplePostPacket : Packet :=
  ⟨MessageType.ack, sampleSecrets.sessionID, 1, 1 :: putUint64 5, []⟩

def samplePostEmission : Emission :=
  ⟨1, samplePostPacket.frame transparent sampleSecrets.sendKey, 1 :: putUint64 5⟩

def clientReady : Connection :=
  { newConnection (sampleSession.withLimits sampleLimits) plainConfig with
    nextChannel := 2
    accepted := [(.outbound, samplePost)]
    returned := [(samplePost, none)]
    startOnce := .running
    startOwner := some .starting
    started := true
    wg := 2
    launched := [.read, .write] }

theorem client_ready :
    (offlineMachine transparent).Leads
      (fun pool => pool = ⟨clientReady, [[], [.launch [.maintenance] .background],
        [.readFrame, .exit .read], [.sendFrame (.queued .outbound samplePost), .exit .write]]⟩)
      (connectionStart (sampleSession.withLimits sampleLimits) plainConfig) := by
  refine .step (.ambient (.call (.sendPadded samplePost.message 0) rfl)) ?_
  refine .first ⟨.queue (.lease rfl), rfl⟩ ?_
  refine .first ⟨.queue (.contextLive rfl), rfl⟩ ?_
  refine .first ⟨.queue (.admitted rfl), rfl⟩ ?_
  refine .first ⟨.queue (.accepted (show 0 < 16 by decide)), rfl⟩ ?_
  refine .first ⟨.queue (.releaseLease (n := 0) rfl), rfl⟩ ?_
  refine .first ⟨.queue .returnEnqueue, rfl⟩ ?_
  refine .step (.ambient (.call (.start .background) rfl)) ?_
  refine .second ⟨.lifecycle (.startFirst rfl), rfl⟩ ?_
  refine .second ⟨.lifecycle (.startLive rfl), rfl⟩ ?_
  refine .second ⟨.lifecycle .storeStarted, rfl⟩ ?_
  refine .second ⟨.lifecycle .launchLoop, rfl⟩ ?_
  refine .second ⟨.lifecycle .launchLoop, rfl⟩ ?_
  refine .after [_, _, _] ⟨.write (.noClose rfl), rfl⟩ ?_
  refine .after [_, _, _] ⟨.write (.selectOutbound rfl), rfl⟩ ?_
  exact .here rfl

def clientDone : Connection :=
  { clientReady with
    session := (clientReady.session.step transparent
      (.send samplePost.message 0 ⟨0, ⟨[], none⟩⟩)).after
    sent := [⟨.queued .outbound samplePost, samplePostEmission⟩]
    written := [⟨.queued .outbound samplePost, samplePostEmission⟩]
    wire := samplePostEmission.frame.octets }

theorem client_done :
    (offlineMachine transparent).Leads
      (fun pool => pool = ⟨clientDone, [[], [.launch [.maintenance] .background],
        [.readFrame, .exit .read], [.selectWork, .exit .write]]⟩)
      ⟨{ clientReady with session := (clientReady.session.step transparent
          (.send samplePost.message 0 ⟨0, ⟨[], none⟩⟩)).after },
        [[], [.launch [.maintenance] .background], [.readFrame, .exit .read],
          [.marshalFrame (.queued .outbound samplePost) samplePostEmission, .exit .write]]⟩ := by
  refine .after [_, _, _] ⟨.write (.marshalOk rfl (by decide) (by decide)), rfl⟩ ?_
  refine .after [_, _, _] ⟨.write (.laneLive (.live rfl)), rfl⟩ ?_
  refine .after [_, _, _] ⟨.write (.laneFree rfl), rfl⟩ ?_
  refine .after [_, _, _] ⟨.write (.watchLive (.live rfl)), rfl⟩ ?_
  refine .after [_, _, _]
    ⟨.write (.wireWrote _ (by decide) (Nat.le_refl _) rfl), rfl⟩ ?_
  refine .after [_, _, _] ⟨.write .wireDone, rfl⟩ ?_
  refine .after [_, _, _] ⟨.write .releaseLane, rfl⟩ ?_
  refine .after [_, _, _] ⟨.write (.messageWritten rfl), rfl⟩ ?_
  refine .after [_, _, _] ⟨.write .finishWrite, rfl⟩ ?_
  refine .after [_, _, _] ⟨.queue .complete, rfl⟩ ?_
  refine .after [_, _, _] ⟨.write (.noClose rfl), rfl⟩ ?_
  exact .here rfl

/-- A configuration whose handler is called by the loop itself. -/
def inlineConfig : ConnectionConfig := { plainConfig with handler := true }

def serverSession : Session :=
  initialSession cipherChaCha20Poly1305 sampleSecrets.crossed ⟨sampleSecrets.receiveKey⟩
    ⟨sampleSecrets.sendKey⟩ 0

def serverReady : Connection :=
  { newConnection (serverSession.withLimits sampleLimits) inlineConfig with
    nextChannel := 1
    startOnce := .running
    startOwner := some .starting
    started := true
    wg := 4
    launched := [.read, .write, .maintenance, .handler] }

theorem server_ready :
    (offlineMachine transparent).Leads
      (fun pool => pool = ⟨serverReady, [[.launch [] .background], [.readFrame, .exit .read],
        [.writeLoop, .exit .write], [.maintenance ⟨0, false, false⟩, .exit .maintenance],
        [.handlerLoop, .exit .handler]]⟩)
      (connectionStart (serverSession.withLimits sampleLimits) inlineConfig) := by
  refine .step (.ambient (.call (.start .background) rfl)) ?_
  refine .first ⟨.lifecycle (.startFirst rfl), rfl⟩ ?_
  refine .first ⟨.lifecycle (.startLive rfl), rfl⟩ ?_
  refine .first ⟨.lifecycle .storeStarted, rfl⟩ ?_
  refine .first ⟨.lifecycle .launchLoop, rfl⟩ ?_
  refine .first ⟨.lifecycle .launchLoop, rfl⟩ ?_
  refine .first ⟨.lifecycle .launchLoop, rfl⟩ ?_
  refine .first ⟨.lifecycle .launchLoop, rfl⟩ ?_
  exact .here rfl

theorem server_done :
    (offlineMachine transparent).Leads
      (fun pool => pool.state.handlerQueue = [] ∧ pool.state.cancelCause = none ∧
        pool.state.config.handler = true ∧ [.readFrame, .exit .read] ∈ pool.threads ∧
        [.selectHandler, .exit .handler] ∈ pool.threads)
      ⟨{ serverReady with
          session := (serverReady.session.receiveMessage transparent ⟨0, 0, 0⟩
            samplePostEmission.frame).1
          received := [.ack ⟨[5]⟩] },
        [[.launch [] .background], [.noteActivity, .dispatch (.ack ⟨[5]⟩), .exit .read],
        [.writeLoop, .exit .write], [.maintenance ⟨0, false, false⟩, .exit .maintenance],
        [.handlerLoop, .exit .handler]]⟩ := by
  refine .second ⟨.receive .noteActivity, rfl⟩ ?_
  refine .second ⟨.receive (.handled rfl (.inr (.inl rfl))), rfl⟩ ?_
  refine .second ⟨.receive (.leaseHandler rfl), rfl⟩ ?_
  refine .second ⟨.receive (.handlerLive rfl), rfl⟩ ?_
  refine .second ⟨.receive (.handlerQueued (show 0 < 16 by decide)), rfl⟩ ?_
  refine .second ⟨.queue (.releaseLease (n := 0) rfl), rfl⟩ ?_
  refine .after [_, _, _, _] ⟨.receive (.loopLive rfl), rfl⟩ ?_
  refine .after [_, _, _, _] ⟨.receive (.selectMessage rfl), rfl⟩ ?_
  refine .after [_, _, _, _] ⟨.receive (.recheckLive rfl), rfl⟩ ?_
  refine .after [_, _, _, _] ⟨.receive (.callInline (by decide)), rfl⟩ ?_
  refine .after [_, _, _, _] ⟨.receive (.inlineReturned (n := 0) rfl none), rfl⟩ ?_
  refine .after [_, _, _, _] ⟨.receive (.loopLive rfl), rfl⟩ ?_
  exact .here ⟨rfl, rfl, rfl, by simp, by simp⟩

namespace Peers

/-- Both laws at once. -/
def bothLaws (P : Primitives) : Law := fun peers side i effect =>
  inOrder peers side i effect ∧ idealAEAD P peers side i effect

theorem bothLaws_of_offline {P : Primitives} {peers : Peers} {side : Side} {i : Instr}
    {effect : Effect Connection Instr} (hi : i.online = false) :
    bothLaws P peers side i effect := by
  refine ⟨fun frame hframe => ?_, fun frame hframe => ?_⟩
  · have hne : i ≠ .readFrame := by
      rintro rfl
      cases hi
    rw [readBy_of_ne hne] at hframe
    cases hframe
  · subst hframe
    cases hi

/-- One side has moved to a pool, has read these frames and made these calls to `Seal`. -/
structure Moved (before after : Peers) (side : Side) (pool : Pool Connection Instr)
    (reads : List Frame) (sealed : List SealCall) : Prop where
  ends : after.ends side = pool
  peer : after.ends side.peer = before.ends side.peer
  reads : after.reads side = before.reads side ++ reads
  peerReads : after.reads side.peer = before.reads side.peer
  sealed : ∀ call ∈ before.sealed ++ sealed, call ∈ after.sealed

/-- One instruction of one side. -/
theorem moved_step (P : Primitives) (law : Law) {peers : Peers} {side : Side} {s : Connection}
    {threads : List (List Instr)} (k : Nat) {i : Instr} {rest : List Instr}
    {effect : Effect Connection Instr} {call : Option SessionCall}
    (hends : peers.ends side = ⟨s, threads⟩) (hk : threads[k]? = some (i :: rest))
    (hexec : Exec P s i effect) (hcall : Calls P s i effect call)
    (hlaw : law peers side i effect) :
    ∃ peers', Step P law peers peers' ∧ peers.Moved peers' side
      ⟨effect.state, threads.set k (effect.pushed ++ rest) ++ effect.spawned⟩
      (readBy i effect.pushed).toList (sealsBy P s call) := by
  refine ⟨_, .thread side k hends hk hexec hcall hlaw, ?_, ?_, ?_, ?_, fun _ hmem => hmem⟩
  · exact Function.update_self ..
  · exact Function.update_of_ne side.peer_ne ..
  · exact Function.update_self ..
  · exact Function.update_of_ne side.peer_ne ..

/-- What one side does offline is a run of the system. -/
theorem reaches_offline {P : Primitives} (peers : Peers) (side : Side)
    {pool pool' : Pool Connection Instr} (hends : peers.ends side = pool)
    (h : (offlineMachine P).Reaches pool pool') :
    ∃ peers', Reaches P (bothLaws P) peers peers' ∧ peers.Moved peers' side pool' [] [] := by
  induction h with
  | refl =>
      refine ⟨peers, .refl, hends, rfl, (List.append_nil _).symm, rfl, ?_⟩
      intro call hcall
      rwa [List.append_nil] at hcall
  | tail _ hstep ih =>
      obtain ⟨reached, hreach, hmoved⟩ := ih
      cases hstep with
      | @thread s threads k i rest effect hk hexec =>
          obtain ⟨hexec, hi⟩ := hexec
          obtain ⟨call, hcall⟩ := hexec.calls
          have hne : i ≠ .readFrame := by
            rintro rfl
            cases hi
          obtain ⟨peers', hnext, hmoved'⟩ :=
            moved_step P _ k hmoved.ends hk hexec hcall (bothLaws_of_offline hi)
          refine ⟨peers', hreach.tail hnext, hmoved'.ends, hmoved'.peer.trans hmoved.peer, ?_,
            hmoved'.peerReads.trans hmoved.peerReads, ?_⟩
          · rw [hmoved'.reads, readBy_of_ne hne, hmoved.reads, Option.toList_none,
              List.append_nil]
          · exact fun c hc => hmoved'.sealed c (List.mem_append_left _ (hmoved.sealed c hc))
      | ambient huses =>
          refine ⟨_, hreach.tail (.uses side hmoved.ends huses), ?_, ?_, hmoved.reads,
            hmoved.peerReads, hmoved.sealed⟩
          · exact Function.update_self ..
          · exact (Function.update_of_ne side.peer_ne ..).trans hmoved.peer

def sampleSessions : Side → Session
  | .client => sampleSession
  | .server => serverSession

def sampleConfig : Side → ConnectionConfig
  | .client => plainConfig
  | .server => inlineConfig

theorem newSession_samples (side : Side) :
    newSession transparent cipherChaCha20Poly1305 (side.secrets sampleSecrets) 0 =
      .ok (sampleSessions side) := by
  cases side with
  | client => exact newSession_sample
  | server => exact newSession_sample_crossed

/-- A user of the client posts an acknowledgement, the client writes it, and the server reads it
and calls its handler. -/
theorem post_handled :
    ∃ peers, Reaches transparent (bothLaws transparent)
        (established sampleSessions (fun _ => sampleLimits) sampleConfig) peers ∧
      peers.Quiet .server ∧ (peers.ends .client).state.posted = [.ack ⟨[5]⟩] := by
  -- the client gets ready to make the frame, makes it and writes it
  obtain ⟨_, hready, rfl⟩ := client_ready
  obtain ⟨p₁, h₁, m₁⟩ := reaches_offline
    (established sampleSessions (fun _ => sampleLimits) sampleConfig) .client rfl hready
  obtain ⟨p₂, h₂, m₂⟩ := moved_step transparent (bothLaws transparent) 3 m₁.ends rfl
    (.write (.sendOk ⟨0, ⟨[], none⟩⟩ (show _ = some samplePostEmission from rfl)))
    (.send ⟨0, ⟨[], none⟩⟩ rfl rfl) ⟨by simp [inOrder, readBy], by simp [idealAEAD]⟩
  obtain ⟨_, hdone, rfl⟩ := client_done
  obtain ⟨p₃, h₃, m₃⟩ := reaches_offline p₂ .client m₂.ends hdone
  -- the server starts, reads the frame and receives it
  obtain ⟨_, hstarted, rfl⟩ := server_ready
  obtain ⟨p₄, h₄, m₄⟩ := reaches_offline p₃ .server
    (m₃.peer.trans (m₂.peer.trans m₁.peer)) hstarted
  have hreads₄ : p₄.reads .server = [] :=
    m₄.reads.trans (congrArg (· ++ []) (m₃.peerReads.trans (m₂.peerReads.trans m₁.peerReads)))
  have hunread : p₄.unread .server = ⟨samplePostEmission.frame.octets, none⟩ := by
    rw [unread, hreads₄, show p₄.ends Side.server.peer = _ from m₄.peer.trans m₃.ends]
    rfl
  obtain ⟨p₅, h₅, m₅⟩ := moved_step transparent (bothLaws transparent) 1 m₄.ends rfl
    (.receive (.frameRead samplePostEmission.frame)) (.none rfl rfl)
    ⟨fun frame hframe => ⟨⟨[], none⟩, by
      obtain rfl := Option.mem_some_iff.mp hframe
      rw [hunread]
      rfl⟩, by simp [idealAEAD]⟩
  have hsealed : samplePostPacket.sealCall sampleSecrets.sendKey ∈ p₅.sealed := by
    refine m₅.sealed _ (List.mem_append_left _ (m₄.sealed _ (List.mem_append_left _
      (m₃.sealed _ (List.mem_append_left _ (m₂.sealed _ (List.mem_append_right _ ?_)))))))
    decide
  obtain ⟨p₆, h₆, m₆⟩ := moved_step transparent (bothLaws transparent) 1 m₅.ends rfl
    (.receive (.accepted ⟨0, 0, 0⟩ (show _ = Except.ok (.ack ⟨[5]⟩) from rfl)))
    (.receive ⟨0, 0, 0⟩ rfl rfl)
    ⟨by simp [inOrder, readBy], by
      rintro frame hframe codec hcodec
      cases hframe
      rw [m₅.ends] at hcodec
      obtain rfl := List.mem_singleton.mp hcodec
      exact opensOnlySealed_frame hsealed⟩
  obtain ⟨pool, hhandled, hqueue, hlive, hhandles, hreader, hhandler⟩ := server_done
  obtain ⟨p₇, h₇, m₇⟩ := reaches_offline p₆ .server m₆.ends hhandled
  have hclient : p₇.ends .client = ⟨clientDone, _⟩ :=
    m₇.peer.trans (m₆.peer.trans (m₅.peer.trans (m₄.peer.trans m₃.ends)))
  have hreads₇ : p₇.reads .server = [samplePostEmission.frame] := by
    rw [m₇.reads, m₆.reads, m₅.reads, hreads₄]
    rfl
  refine ⟨p₇, (((((h₁.tail h₂).trans h₃).trans h₄).tail h₅).tail h₆).trans h₇, ?_, ?_⟩
  · have hserver : p₇.ends .server = pool := m₇.ends
    constructor
    · refine ⟨[.selectWork, .exit .write], ?_, List.mem_cons_self⟩
      rw [show p₇.ends Side.server.peer = _ from hclient]
      simp
    · rw [show p₇.ends Side.server.peer = _ from hclient]
      rfl
    · rw [show p₇.ends Side.server.peer = _ from hclient]
      rfl
    · rw [unread, hreads₇, show p₇.ends Side.server.peer = _ from hclient]
      rfl
    · exact ⟨_, hserver ▸ hreader, List.mem_cons_self⟩
    · exact hserver ▸ hhandles
    · exact ⟨_, hserver ▸ hhandler, List.mem_cons_self⟩
    · exact hserver ▸ hqueue
    · exact hserver ▸ hlive
  · rw [hclient]
    rfl

end Peers

theorem dispatch_in_order_post :
    ∃ peers, Peers.Reaches transparent Peers.inOrder
        (Peers.established Peers.sampleSessions (fun _ => sampleLimits) Peers.sampleConfig) peers ∧
      (peers.ends .client).state.posted = [.ack ⟨[5]⟩] ∧
      (peers.ends .server).state.invoked <+: [.ack ⟨[5]⟩] := by
  obtain ⟨peers, hreach, -, hposted⟩ := Peers.post_handled
  have hordered := hreach.mono fun _ _ _ _ hlaw => hlaw.1
  have hfront := dispatch_in_order transparent transparent_openInvertsSeal
    Peers.newSession_samples (fun _ => sampleLimits) Peers.sampleConfig hordered .server
  exact ⟨peers, hordered, hposted, hposted ▸ hfront⟩

theorem dispatch_complete_post :
    ∃ peers, Peers.Reaches transparent Peers.inOrder
        (Peers.established Peers.sampleSessions (fun _ => sampleLimits) Peers.sampleConfig) peers ∧
      peers.Quiet .server ∧ (peers.ends .server).state.invoked = [.ack ⟨[5]⟩] := by
  obtain ⟨peers, hreach, hquiet, hposted⟩ := Peers.post_handled
  have hordered := hreach.mono fun _ _ _ _ hlaw => hlaw.1
  have hall := dispatch_complete transparent transparent_openInvertsSeal
    Peers.newSession_samples (fun _ => sampleLimits) Peers.sampleConfig hordered .server hquiet
  exact ⟨peers, hordered, hquiet, hall.trans hposted⟩

end DgProto
