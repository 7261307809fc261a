import DgProto.Peers.InOrder
import Mathlib.Data.List.Perm.Basic

/-!
# Delivery through an adversary

The network belongs to an adversary who may hand any frame to any side at any time: one that
was written, one that was changed, one that was read before, one that was sealed and never
written.  The law is that of an ideal AEAD: opening succeeds only on the output of an earlier
`Seal` of either side.

Order is lost, and the adversary may drop what it likes.  What remains is that the handler of a
side is called at most as often for a message as the other side has accepted it from its users.

* Every message that a side received was decoded from an emission of the other session, and
  from one that no other message was decoded from (`Guarded`, by the invariant of the two
  sessions).
* The writer takes an item out of the queue once and makes at most one frame of it, besides the
  `RekeyInit` frames in front (`Making`).
-/

namespace DgProto

open Library Wire Crypto Connection
open scoped List

/-! ## Items and the frames made of them -/

/-- The items of the frames that were made, and those in the hands of the writer, are
different places of the accepted items in front of the queue. -/
def Spare (made : List SentFrame) (s : Connection) (hand : List QueuedMessage) : Prop :=
  ∃ gone, gone ++ s.outbound = acceptedItems s.accepted ∧ sentItems made ++ hand <+ gone

/-- What the holder of the token of the writer knows at an instruction. -/
def Instr.Spares (made : List SentFrame) (s : Connection) : Instr → Prop
  | .sendFrame job | .markRekey job _ => Spare made s job.outbound
  | .marshalFrame job e | .checkLane job e _ | .takeLane job e _ | .watchContext job e _
  | .writeWire job e _ | .frameWritten job e =>
      Spare made s (if e.isRekey then job.outbound else [])
  | _ => Spare made s []

section Items

variable {P : Primitives} {s s' : Connection} {i : Instr} {effect : Effect Connection Instr}
  {made : List SentFrame} {hand : List QueuedMessage}

theorem Spare.congr (h : Spare made s hand) (houtbound : s'.outbound = s.outbound)
    (haccepted : s'.accepted = s.accepted) : Spare made s' hand := by
  obtain ⟨gone, hgone, hsub⟩ := h
  exact ⟨gone, by rw [houtbound, haccepted, hgone], hsub⟩

/-- An item in the hands of the writer may be given up. -/
theorem Spare.drop (h : Spare made s hand) : Spare made s [] := by
  obtain ⟨gone, hgone, hsub⟩ := h
  refine ⟨gone, hgone, ?_⟩
  rw [List.append_nil]
  exact (List.sublist_append_left _ _).trans hsub

/-- An item is taken out of the queue. -/
theorem Spare.take {item : QueuedMessage} {rest : List QueuedMessage} (h : Spare made s [])
    (hqueue : s.outbound = item :: rest) :
    Spare made { s with outbound := rest } [item] := by
  obtain ⟨gone, hgone, hsub⟩ := h
  refine ⟨gone ++ [item], ?_, ?_⟩
  · rw [← hgone, hqueue, List.append_assoc]
    rfl
  · rw [List.append_nil] at hsub
    exact hsub.append (List.Sublist.refl _)

/-- An item is taken out of the queue and dropped. -/
theorem Spare.discard {item : QueuedMessage} {rest : List QueuedMessage} (h : Spare made s hand)
    (hqueue : s.outbound = item :: rest) : Spare made { s with outbound := rest } hand := by
  obtain ⟨gone, hgone, hsub⟩ := h
  refine ⟨gone ++ [item], ?_, hsub.trans (List.sublist_append_left _ _)⟩
  rw [← hgone, hqueue, List.append_assoc]
  rfl

theorem Spare.push {queue : QueueName} {item : QueuedMessage} (h : Spare made s hand) :
    Spare made (s.push queue item) hand := by
  obtain ⟨gone, hgone, hsub⟩ := h
  refine ⟨gone, ?_, hsub⟩
  cases queue with
  | outbound =>
      simp only [Connection.push, if_true, acceptedItems_append, ← hgone, List.append_assoc]
      rfl
  | control =>
      simp only [Connection.push, acceptedItems_append, ← hgone]
      simp [acceptedItems]

/-- A frame is made for the job in the hands of the writer. -/
theorem Spare.make {job : WriteJob} {e : Emission} (h : Spare made s job.outbound) :
    Spare (made ++ [⟨job, e⟩]) s (if e.isRekey then job.outbound else []) := by
  obtain ⟨gone, hgone, hsub⟩ := h
  refine ⟨gone, hgone, ?_⟩
  rw [sentItems_append, sentItems_singleton, SentFrame.outbound]
  cases e.isRekey <;> simpa using hsub

/-- No step takes back what has left the queue. -/
theorem Exec.spare (h : Exec P s i effect) (hs : Spare made s hand) :
    Spare made effect.state hand := by
  cases h with
  | lifecycle h => exact hs.congr (by rw [h.frame]) (by rw [h.frame])
  | queue h =>
      cases h with
      | accepted => exact hs.push
      | drainOutbound hqueue => exact hs.discard hqueue
      | _ => exact hs.congr rfl rfl
  | write h =>
      cases h with
      | selectOutbound hqueue => exact hs.discard hqueue
      | _ => exact hs.congr rfl rfl
  | receive h | keepalive h => exact hs.congr (by rw [h.frame]) (by rw [h.frame])

/-- What is known stays known wherever nothing is taken back. -/
theorem Instr.Spares.mono {j : Instr} (h : j.Spares made s)
    (hspare : ∀ {hand}, Spare made s hand → Spare made s' hand) : j.Spares made s' := by
  cases j <;> exact hspare h

theorem madeBy_of_free (hi : Token.writer.weight i = 0) (pushed : List Instr) :
    madeBy i pushed = none := by
  unfold madeBy
  split
  · cases hi
  · rfl

/-- The writer takes an item, makes frames of it and goes on to the next. -/
theorem WriteExec.spares (h : WriteExec P s i effect) (hs : Spare made s [])
    (hi : Token.writer.weight i ≠ 0 → i.Spares made s) :
    Informed (fun s j => j.Spares (made ++ (madeBy i effect.pushed).toList) s) effect ∧
      Spare (made ++ (madeBy i effect.pushed).toList) effect.state [] := by
  have hkept : madeBy i effect.pushed = none →
      made ++ (madeBy i effect.pushed).toList = made := by
    intro hnone
    rw [hnone, Option.toList_none, List.append_nil]
  have hnext : Spare made effect.state [] := (Exec.write h).spare hs
  cases h with
  | @sendOk job emission =>
      have hhand : Spare made s job.outbound := hi (by simp)
      have hmade := hhand.make (e := emission)
      exact ⟨informed_of_single (hmade.congr rfl rfl), hmade.drop.congr rfl rfl⟩
  | selectOutbound hqueue =>
      rw [hkept rfl]
      exact ⟨informed_of_single (hs.take hqueue), hnext⟩
  | marshalOk | laneLive | laneFree | watchLive | wireWrote =>
      rw [hkept rfl]
      have hhand := hi (by simp)
      exact ⟨informed_of_single (Spare.congr hhand rfl rfl), hnext⟩
  | @wireDone job emission =>
      rw [hkept rfl]
      have hhand := hi (by simp)
      exact ⟨informed_of_release (Spare.congr hhand rfl rfl), hnext⟩
  | @rekeyWritten job emission hkind =>
      rw [hkept rfl]
      have hhand : Spare made s (if emission.isRekey then job.outbound else []) :=
        hi (by simp)
      rw [hkind] at hhand
      exact ⟨informed_of_single (Spare.congr hhand rfl rfl), hnext⟩
  | marked =>
      rw [hkept rfl]
      have hhand := hi (by simp)
      exact ⟨informed_of_single (Spare.congr hhand rfl rfl), hnext⟩
  | closeFirst | noClose | selectDone | selectClose | selectControl | sendFailed | marshalFailed
  | frameTooShort | frameTooLarge | laneEnded | laneCanceled | messageWritten | markFailed =>
      rw [hkept rfl]
      exact ⟨informed_of_single hnext, hnext⟩
  | watchEnded | wireStalled | wireFailed =>
      rw [hkept rfl]
      exact ⟨informed_of_release hnext, hnext⟩
  | releaseLane =>
      rw [hkept rfl]
      exact ⟨informed_of_free rfl rfl, hnext⟩
  | finishWrite =>
      rw [hkept rfl]
      exact ⟨informed_of_finish hnext fun _ => hnext, hnext⟩

theorem Exec.spares (h : Exec P s i effect) (hs : Spare made s [])
    (hi : Token.writer.weight i ≠ 0 → i.Spares made s) :
    Informed (fun s j => j.Spares (made ++ (madeBy i effect.pushed).toList) s) effect ∧
      Spare (made ++ (madeBy i effect.pushed).toList) effect.state [] := by
  have hnext : Spare made effect.state [] := h.spare hs
  cases h with
  | write h => exact h.spares hs hi
  | lifecycle h =>
      rw [madeBy_eq_none (by rintro job rfl; cases h), Option.toList_none, List.append_nil]
      refine ⟨h.informed (B := True) (fun _ => trivial) (fun _ => trivial) ?_ ?_ ?_, hnext⟩
      · exact fun _ _ => hnext
      · exact fun _ _ _ => hnext
      · exact fun _ => hnext
  | queue h =>
      rw [madeBy_eq_none (by rintro job rfl; cases h), Option.toList_none, List.append_nil]
      exact ⟨h.informed fun _ _ => hnext, hnext⟩
  | receive h | keepalive h =>
      rw [madeBy_eq_none (by rintro job rfl; cases h), Option.toList_none, List.append_nil]
      exact ⟨h.informed, hnext⟩

end Items

/-- What holds about the frames that a side has made. -/
structure Making (made : List SentFrame) (pool : Pool Connection Instr) : Prop where
  spare : Spare made pool.state []
  owner : ∀ t ∈ pool.threads, ∀ i ∈ t, Token.writer.weight i ≠ 0 → i.Spares made pool.state
  asked : ∀ frame ∈ made, frame.job.Asked frame.emission
  controlled : ∀ frame ∈ made, frame.job.controlled = true

section Makes

variable {P : Primitives} {made : List SentFrame} {s : Connection} {threads : List (List Instr)}

/-- The frame that a step has made is for the job it was asked for. -/
theorem Exec.made_asked {i : Instr} {effect : Effect Connection Instr} (h : Exec P s i effect)
    (hi : i.controlled = true) :
    ∀ frame ∈ madeBy i effect.pushed, frame.job.Asked frame.emission ∧
      frame.job.controlled = true := by
  cases h with
  | lifecycle h | queue h | receive h | keepalive h =>
      rw [madeBy_eq_none (by rintro job rfl; cases h)]
      exact fun _ hmade => by cases hmade
  | write h =>
      cases h with
      | sendOk env hemission =>
          intro frame hmade
          obtain rfl := Option.mem_some_iff.mp hmade
          exact ⟨asked_of_emission hemission, hi⟩
      | _ => exact fun _ hmade => by cases hmade

theorem Making.exec {k : Nat} {i : Instr} {rest : List Instr} {effect : Effect Connection Instr}
    (h : Making made ⟨s, threads⟩) (hsound : Sound ⟨s, threads⟩)
    (hcontrolled : Controlled ⟨s, threads⟩) (hk : threads[k]? = some (i :: rest))
    (hexec : Exec P s i effect) :
    Making (made ++ (madeBy i effect.pushed).toList)
      ⟨effect.state, threads.set k (effect.pushed ++ rest) ++ effect.spawned⟩ := by
  have hmem := List.mem_of_getElem? hk
  have hi := h.owner _ hmem i List.mem_cons_self
  obtain ⟨⟨hpushed, hspawned⟩, hspare⟩ := hexec.spares h.spare hi
  have hmade := hexec.made_asked (hcontrolled.threads _ hmem i List.mem_cons_self)
  refine ⟨hspare, ?_, ?_, ?_⟩
  · have hload : load Token.writer.weight threads ≤ 1 :=
      (Nat.le_add_left _ _).trans hsound.writer_load
    refine owned_step hload hk h.owner ?_ hpushed hspawned
    intro hfree j _ hj
    rw [madeBy_of_free hfree, Option.toList_none, List.append_nil]
    exact hj.mono hexec.spare
  · intro frame hframe
    rcases List.mem_append.mp hframe with hold | hnew
    · exact h.asked frame hold
    · exact (hmade frame (Option.mem_toList.mp hnew)).1
  · intro frame hframe
    rcases List.mem_append.mp hframe with hold | hnew
    · exact h.controlled frame hold
    · exact (hmade frame (Option.mem_toList.mp hnew)).2

theorem Making.uses {s' : Connection} {new : List (List Instr)} (h : Making made ⟨s, threads⟩)
    (huses : Uses s s' new) : Making made ⟨s', threads ++ new⟩ := by
  have hspare : ∀ {hand}, Spare made s hand → Spare made s' hand := by
    intro hand hs
    cases huses <;> exact hs.congr rfl rfl
  refine ⟨hspare h.spare, ?_, h.asked, h.controlled⟩
  intro t ht j hj hne
  rcases List.mem_append.mp ht with hold | hnew
  · exact (h.owner t hold j hj hne).mono hspare
  · have hfree : Token.writer.weight j = 0 := by
      cases huses with
      | call api =>
          obtain rfl := List.mem_singleton.mp hnew
          exact api.program_writer _ j hj
      | cancelCaller => cases hnew
    exact absurd hfree hne

end Makes

/-! ## Messages and the emissions they come from -/

/-- The message was decoded from what was accepted. -/
def Decodes (m : Message) (acceptance : Frame × List UInt8) : Prop :=
  newInboundMessage acceptance.1.header.messageType = .ok m.kind ∧
    m.kind.unmarshalBinary acceptance.2 = .ok m

/-- The received messages were decoded from acceptances of the session, each from one of its
own, and the acceptances match emissions of the sender. -/
def Guarded (P : Primitives) (keyA keyB : Key) (a b : Session) (log : List SealCall)
    (made : List SentFrame) (received : List Message) : Prop :=
  ∃ accepted, Network.Inv P keyA keyB ⟨a, b, log, made.map SentFrame.emission, accepted⟩ ∧
    ∃ taken, taken <+ accepted ∧ List.Forall₂ Decodes received taken

section Guards

variable {P : Primitives} {keyA keyB : Key} {a b : Session} {log : List SealCall}
  {made : List SentFrame} {received : List Message} {s : Connection} {i : Instr}
  {effect : Effect Connection Instr} {call : Option SessionCall}

/-- A step makes the frames that its call of the session emits. -/
theorem Calls.emission_made (h : Calls P s i effect call) :
    (madeBy i effect.pushed).toList.map SentFrame.emission =
      (call.bind fun c => (s.session.step P c).emission).toList := by
  cases h with
  | send env _ hmade =>
      rw [Option.bind_some, ← hmade]
      cases madeBy (.sendFrame _) effect.pushed <;> rfl
  | mark now =>
      rename_i job emission _
      show [] = (Event.emission ⟨_, _, _, [], (s.session.markRekeySent now emission.frame).2.map
        fun _ => .done⟩).toList
      cases (s.session.markRekeySent now emission.frame).2 <;> rfl
  | receive clock =>
      rename_i frame _ _
      show [] = (Event.emission ⟨_, _, _, [], (s.session.receivePayload P clock frame).2.map
        .payload⟩).toList
      cases (s.session.receivePayload P clock frame).2 <;> rfl
  | close => rfl
  | none hi =>
      have hnone : madeBy i effect.pushed = Option.none := by
        unfold madeBy
        split
        · cases hi
        · rfl
      rw [hnone]
      rfl

/-- The side of the sender makes a step. -/
theorem Guarded.sends (h : Guarded P keyA keyB s.session b log made received)
    (hcall : Calls P s i effect call) :
    Guarded P keyA keyB effect.state.session b (log ++ sealsBy P s call)
      (made ++ (madeBy i effect.pushed).toList) received := by
  obtain ⟨accepted, hinv, htaken⟩ := h
  refine ⟨accepted, ?_, htaken⟩
  rw [List.map_append, hcall.emission_made]
  cases hcall with
  | none _ hsession =>
      simpa [sealsBy, hsession] using hinv
  | send env hsession | mark now hsession | receive clock hsession | close hsession =>
      rw [hsession]
      exact hinv.callA _

/-- The side of the receiver makes a step. -/
theorem Guarded.receives (hopen : P.OpenInvertsSeal) (hfresh : ChainFresh P keyA)
    (hdisjoint : ChainsDisjoint P keyA keyB)
    (h : Guarded P keyA keyB a s.session log made s.received) (hexec : Exec P s i effect)
    (hcall : Calls P s i effect call)
    (hideal : ∀ frame, i = .receive frame →
      ∀ codec ∈ s.session.receive :: s.session.previousReceive.toList,
        OpensOnlySealed P log codec frame) :
    Guarded P keyA keyB a effect.state.session (log ++ sealsBy P s call) made
      effect.state.received := by
  obtain ⟨accepted, hinv, taken, htaken, hdecodes⟩ := h
  have hsame (hi : i.holdsFrame = false) : effect.state.received = s.received := by
    cases hexec.readerMoves with
    | frameRead => rfl
    | accepted | rejected => cases hi
    | other _ _ hreceived _ => exact hreceived
  -- the calls that are no receive accept nothing
  have hother (c : SessionCall) (hc : ∀ frame clock, c ≠ .receivePayload frame clock)
      (hsession : effect.state.session = (s.session.step P c).after)
      (hi : i.holdsFrame = false) :
      Guarded P keyA keyB a effect.state.session (log ++ sealsBy P s (some c)) made
        effect.state.received := by
    have hstep := hinv.callB hopen hfresh hdisjoint c
      fun frame clock heq => absurd heq (hc frame clock)
    refine ⟨accepted ++ (s.session.step P c).acceptance.toList, ?_, taken,
      htaken.trans (List.sublist_append_left _ _), ?_⟩
    · rw [hsession]
      exact hstep
    · rw [hsame hi]
      exact hdecodes
  cases hcall with
  | none hi hsession =>
      have hfree : i.holdsFrame = false := by
        cases i <;> first | rfl | cases hi
      refine ⟨accepted, ?_, taken, htaken, ?_⟩
      · simpa [sealsBy, hsession] using hinv
      · rw [hsame hfree]
        exact hdecodes
  | send env hsession | mark now hsession | close hsession =>
      exact hother _ (by simp) hsession rfl
  | @receive frame _ clock hsession hreceived =>
      have hstep := hinv.callB hopen hfresh hdisjoint (.receivePayload frame clock) ?_
      · refine ⟨_, by rw [hsession]; exact hstep, ?_⟩
        rw [hreceived]
        cases hresult : (s.session.receiveMessage P clock frame).2 with
        | error err =>
            refine ⟨taken, htaken.trans (List.sublist_append_left _ _), ?_⟩
            rw [show (Except.error err : Except Error Message).toOption.toList = [] from rfl,
              List.append_nil]
            exact hdecodes
        | ok m =>
            obtain ⟨plaintext, hpayload, hinbound, hdecode⟩ := receiveMessage_eq_ok hresult
            have hacceptance : (s.session.step P (.receivePayload frame clock)).acceptance =
                some (frame, plaintext) := by
              simp only [Session.step, Event.acceptance, hpayload, Except.map]
            refine ⟨taken ++ [(frame, plaintext)], ?_, ?_⟩
            · show _ <+ accepted ++
                (s.session.step P (.receivePayload frame clock)).acceptance.toList
              rw [hacceptance]
              exact htaken.append (List.Sublist.refl _)
            · exact List.rel_append hdecodes (.cons ⟨hinbound, hdecode⟩ .nil)
      · rintro frame' clock' hcall
        cases hcall
        exact hideal frame rfl

end Guards

/-! ## Whole runs -/

namespace Peers

/-- What holds about the messages from the peer of a side. -/
structure Watched (P : Primitives) (secrets : HandshakeSecrets) (peers : Peers) (side : Side) :
    Prop where
  making : Making (peers.made side.peer) (peers.ends side.peer)
  guarded : Guarded P (side.peer.secrets secrets).sendKey (side.peer.secrets secrets).receiveKey
    (peers.ends side.peer).state.session (peers.ends side).state.session peers.sealed
    (peers.made side.peer) (peers.ends side).state.received

variable {P : Primitives} {suite : CipherSuite} {secrets : HandshakeSecrets} {now : Side → Time}
  {sessions : Side → Session} {limits : Side → Session.Limits} {config : Side → ConnectionConfig}
  {side : Side}

theorem Watched.step (hopen : P.OpenInvertsSeal)
    (hfresh : ChainFresh P (side.peer.secrets secrets).sendKey)
    (hdisjoint : ChainsDisjoint P (side.peer.secrets secrets).sendKey
      (side.peer.secrets secrets).receiveKey) {before after : Peers}
    (hsided : before.Sided P secrets side.peer) (h : before.Watched P secrets side)
    (hstep : Step P (idealAEAD P) before after) : after.Watched P secrets side := by
  obtain ⟨hmaking, hguarded⟩ := h
  cases hstep with
  | @thread moved s threads k i rest effect call hends hk hexec hcall hlaw =>
      rcases side.eq_or_peer moved with rfl | rfl
      · -- the receiver moves
        constructor
        · simpa only [Function.update_of_ne moved.peer_ne] using hmaking
        · simp only [Function.update_self, Function.update_of_ne moved.peer_ne]
          rw [hends] at hguarded
          refine hguarded.receives hopen hfresh hdisjoint hexec hcall ?_
          intro frame hframe
          have hideal := hlaw frame hframe
          rw [hends] at hideal
          exact hideal
      · -- the sender moves
        have hsound := hsided.delivering.sound
        have hcontrolled := hsided.controlled
        rw [hends] at hmaking hguarded hsound hcontrolled
        constructor
        · simp only [Function.update_self]
          exact hmaking.exec hsound hcontrolled hk hexec
        · simp only [Function.update_self, Function.update_of_ne side.peer_ne.symm]
          exact hguarded.sends hcall
  | @uses moved s s' threads new hends huses =>
      have hsame : s'.session = s.session ∧ s'.received = s.received := by
        cases huses <;> exact ⟨rfl, rfl⟩
      rcases side.eq_or_peer moved with rfl | rfl
      · rw [hends] at hguarded
        constructor
        · simpa only [Function.update_of_ne moved.peer_ne] using hmaking
        · simp only [Function.update_self, Function.update_of_ne moved.peer_ne, hsame]
          exact hguarded
      · rw [hends] at hmaking hguarded
        constructor
        · simp only [Function.update_self]
          exact hmaking.uses huses
        · simp only [Function.update_self, Function.update_of_ne side.peer_ne.symm, hsame]
          exact hguarded

theorem watched_start
    (hsessions : ∀ side, newSession P suite (side.secrets secrets) (now side) = .ok (sessions side))
    (side : Side) : (established sessions limits config).Watched P secrets side := by
  have hcrossed : newSession P suite (side.peer.secrets secrets).crossed (now side) =
      .ok (sessions side) := by
    rw [← Side.secrets_peer, Side.peer_peer]
    exact hsessions side
  refine ⟨⟨⟨[], rfl, List.Sublist.refl _⟩, ?_, ?_, ?_⟩, [], ?_, [], List.Sublist.refl _, .nil⟩
  · exact fun _ ht => absurd ht List.not_mem_nil
  · exact fun _ hframe => absurd hframe List.not_mem_nil
  · exact fun _ hframe => absurd hframe List.not_mem_nil
  · exact Network.Inv.start (hsessions side.peer) hcrossed (limits side.peer) (limits side)

theorem watched_of_reaches (hopen : P.OpenInvertsSeal)
    (hfresh : ChainFresh P (side.peer.secrets secrets).sendKey)
    (hdisjoint : ChainsDisjoint P (side.peer.secrets secrets).sendKey
      (side.peer.secrets secrets).receiveKey) {peers : Peers}
    (hsessions : ∀ side, newSession P suite (side.secrets secrets) (now side) = .ok (sessions side))
    (h : Reaches P (idealAEAD P) (established sessions limits config) peers) :
    peers.Watched P secrets side := by
  induction h with
  | refl => exact watched_start hsessions side
  | tail hreach hstep ih =>
      exact Watched.step hopen hfresh hdisjoint (sided_of_reaches hsessions hreach side.peer) ih
        hstep

end Peers

/-! ## No message twice -/

/-- A part of one list is related to a part of the other. -/
theorem forall₂_of_sublist {α β : Type} {R : α → β → Prop} {xs xs' : List α} {ys : List β}
    (h : List.Forall₂ R xs ys) (hsub : xs' <+ xs) : ∃ ys', ys' <+ ys ∧ List.Forall₂ R xs' ys' := by
  induction hsub generalizing ys with
  | slnil =>
      cases h
      exact ⟨[], List.Sublist.refl _, .nil⟩
  | cons x _ ih =>
      cases h with
      | cons _ htail =>
          obtain ⟨ys', hys', hrel⟩ := ih htail
          exact ⟨ys', hys'.cons _, hrel⟩
  | cons_cons x _ ih =>
      cases h with
      | cons hhead htail =>
          obtain ⟨ys', hys', hrel⟩ := ih htail
          exact ⟨_ :: ys', hys'.cons_cons _, .cons hhead hrel⟩

/-- The message was decoded from the emission. -/
def DecodesEmission (m : Message) (e : Emission) : Prop := Decodes m (e.frame, e.plaintext)

section Matching

variable {P : Primitives} {keyA keyB : Key} {a b : Session} {log : List SealCall}
  {made : List SentFrame} {received : List Message}

/-- Each received message has an emission of its own that it was decoded from. -/
theorem Guarded.emissions (h : Guarded P keyA keyB a b log made received) :
    ∃ matched : List Emission, List.Forall₂ DecodesEmission received matched ∧
      matched <+~ made.map SentFrame.emission := by
  obtain ⟨accepted, hinv, taken, htaken, hdecodes⟩ := h
  obtain ⟨all, hall, hemitted, haccepts⟩ := hinv.matched
  obtain ⟨matched, hsub, hmatched⟩ := forall₂_of_sublist hall htaken
  refine ⟨matched, ?_, ?_⟩
  · -- what was accepted is what was emitted
    clear htaken hsub
    induction hdecodes generalizing matched with
    | nil =>
        cases hmatched
        exact .nil
    | cons hhead _ ih =>
        cases hmatched with
        | cons hmatch hrest =>
            obtain ⟨hframe, hplaintext⟩ := hmatch
            refine .cons ?_ (ih _ hrest)
            unfold DecodesEmission
            rw [hframe, hplaintext]
            exact hhead
  · have hnodup : all.Nodup := List.Nodup.of_map _ haccepts.nodup
    exact List.subperm_of_subset (hnodup.sublist hsub) fun e he => hemitted e (hsub.subset he)

/-- A message that was decoded from a frame of a job is that of the job's outbound item, or
not for the handler. -/
theorem SentFrame.handlerMessages_of_decodes {frame : SentFrame} {m : Message}
    (hasked : frame.job.Asked frame.emission) (hcontrolled : frame.job.controlled = true)
    (h : DecodesEmission m frame.emission) :
    [m].filter Message.toHandler = handlerMessages frame.outbound := by
  obtain ⟨hinbound, hdecode⟩ := h
  apply SentFrame.handlerMessages_eq hcontrolled hasked
  · exact toHandler_of_rekey hinbound
  · intro m' _ hcarries
    obtain ⟨htype, hmarshal⟩ := hcarries
    have hkind : m'.kind = m.kind := by
      rw [← htype, newInboundMessage_type] at hinbound
      exact Except.ok.inj hinbound
    have hdecode' := Message.unmarshalBinary_marshalBinary hmarshal
    rw [hkind, hdecode] at hdecode'
    exact Except.ok.inj hdecode'

/-- The messages for the handler are those of the items whose frames they came from. -/
theorem filter_of_decodes {frames : List SentFrame}
    (hasked : ∀ frame ∈ frames, frame.job.Asked frame.emission)
    (hcontrolled : ∀ frame ∈ frames, frame.job.controlled = true)
    (h : List.Forall₂ DecodesEmission received (frames.map SentFrame.emission)) :
    received.filter Message.toHandler = handlerMessages (sentItems frames) := by
  induction frames generalizing received with
  | nil =>
      cases h
      rfl
  | cons frame frames ih =>
      cases h with
      | @cons m _ messages _ hhead htail =>
          have hfirst := SentFrame.handlerMessages_of_decodes (hasked frame List.mem_cons_self)
            (hcontrolled frame List.mem_cons_self) hhead
          have hrest := ih (fun f hf => hasked f (List.mem_cons_of_mem _ hf))
            (fun f hf => hcontrolled f (List.mem_cons_of_mem _ hf)) htail
          show ([m] ++ messages).filter Message.toHandler =
            handlerMessages (sentItems ([frame] ++ frames))
          rw [List.filter_append, hfirst, hrest, sentItems_append, handlerMessages_append,
            sentItems_singleton]

/-- The received messages for the handler are among those of the items that were made into
frames. -/
theorem Guarded.toHandler_subperm (h : Guarded P keyA keyB a b log made received)
    (hasked : ∀ frame ∈ made, frame.job.Asked frame.emission)
    (hcontrolled : ∀ frame ∈ made, frame.job.controlled = true) :
    received.filter Message.toHandler <+~ handlerMessages (sentItems made) := by
  obtain ⟨matched, hdecodes, hsub⟩ := h.emissions
  -- arrange the messages as their frames were made
  obtain ⟨emissions, hperm, hemissions⟩ := hsub
  obtain ⟨frames, hframes, rfl⟩ := List.sublist_map_iff.mp hemissions
  obtain ⟨messages, hmessages, hreceived⟩ := List.perm_comp_forall₂ hperm hdecodes.flip
  have hfilter := filter_of_decodes (fun f hf => hasked f (hframes.subset hf))
    (fun f hf => hcontrolled f (hframes.subset hf)) hmessages.flip
  have hitems : handlerMessages (sentItems frames) <+ handlerMessages (sentItems made) := by
    unfold handlerMessages sentItems
    exact ((hframes.flatMap SentFrame.outbound).filterMap _).filter _
  rw [← hfilter] at hitems
  exact (hreceived.symm.filter _).subperm.trans hitems.subperm

end Matching

/-- **No forged and no repeated message.** Two connections with the secrets of one handshake,
under any limits and configurations, any interleaving of their goroutines and any calls of their
users, over a network in the hands of an adversary: for each message the handler of a side has
been called at most as often as the other side accepted the message from its users. -/
theorem dispatch_at_most_once (P : Primitives) (hopen : P.OpenInvertsSeal) {suite : CipherSuite}
    {secrets : HandshakeSecrets} {now : Side → Time} {sessions : Side → Session}
    (hsessions : ∀ side, newSession P suite (side.secrets secrets) (now side) = .ok (sessions side))
    (limits : Side → Session.Limits) (config : Side → ConnectionConfig) (side : Side)
    (hfresh : ChainFresh P (side.peer.secrets secrets).sendKey)
    (hdisjoint : ChainsDisjoint P (side.peer.secrets secrets).sendKey
      (side.peer.secrets secrets).receiveKey) {peers : Peers}
    (hreach : Peers.Reaches P (Peers.idealAEAD P) (Peers.established sessions limits config)
      peers) :
    (peers.ends side).state.invoked <+~ (peers.ends side.peer).state.posted := by
  obtain ⟨hmaking, hguarded⟩ := Peers.watched_of_reaches hopen hfresh hdisjoint hsessions hreach
  obtain ⟨queued, hdispatching⟩ := (Peers.sided_of_reaches hsessions hreach side).dispatching
  obtain ⟨gone, hgone, hsub⟩ := hmaking.spare
  have hfront : (peers.ends side).state.invoked <+: (peers.ends side).state.toHandler :=
    hdispatching.begun.trans hdispatching.front
  have hitems : sentItems (peers.made side.peer) <+
      acceptedItems (peers.ends side.peer).state.accepted := by
    rw [← hgone]
    rw [List.append_nil] at hsub
    exact hsub.trans (List.sublist_append_left _ _)
  have hposted : handlerMessages (sentItems (peers.made side.peer)) <+
      (peers.ends side.peer).state.posted := (hitems.filterMap _).filter _
  exact (hfront.sublist.subperm.trans
    (hguarded.toHandler_subperm hmaking.asked hmaking.controlled)).trans hposted.subperm

theorem dispatch_at_most_once_post :
    ∃ peers, Peers.Reaches transparent (Peers.idealAEAD transparent)
        (Peers.established Peers.sampleSessions (fun _ => sampleLimits) Peers.sampleConfig) peers ∧
      (peers.ends .client).state.posted = [.ack ⟨[5]⟩] ∧
      (peers.ends .server).state.invoked <+~ [.ack ⟨[5]⟩] := by
  obtain ⟨peers, hreach, -, hposted⟩ := Peers.post_handled
  have hwatched := hreach.mono fun _ _ _ _ hlaw => hlaw.2
  have hsub := dispatch_at_most_once transparent transparent_openInvertsSeal
    Peers.newSession_samples (fun _ => sampleLimits) Peers.sampleConfig .server
    (chainFresh_counterKey (n := 0) (by decide))
    (chainsDisjoint_counterKey (n := 0) (m := 2 ^ 32) (by decide) (by decide)) hwatched
  exact ⟨peers, hwatched, hposted, hposted ▸ hsub⟩

end DgProto
