import DgProto.Connection.Closing
import DgProto.Connection.Delivery
import DgProto.Connection.Loops
import DgProto.Library.Traces
import DgProto.Session.RekeyCycle

/-!
# One call of `writeMessage`

`writeMessage` sends its message again after every `RekeyInit` that the session puts in
front of it.  The loop has no counter.  It ends because every cycle moves the send epoch up
and the last epoch admits no further rekey, whatever the clock says.

The writer is the only sender of its session, so at each of its instructions it knows what
is pending there (`WriteKnown`), and a budget of steps that it still has (`writeBudget`).
Both are carried through all interleavings with the reader and with shutdowns, which only
close the session or change its receive side.
-/

namespace DgProto

open Library Wire Crypto Connection

/-! ## Events -/

/-- The call of `writeMessage` that an executed instruction began, with the send epoch at
that time. -/
def enteredCall (event : Executed Connection Instr) : Option (WriteJob × UInt32) :=
  match event.instr, event.effect.pushed with
  | .writeLoop, [.sendFrame job] | .selectWork, [.sendFrame job] =>
      some (job, event.before.session.sendEpoch)
  | _, _ => none

/-- The frame for which `WriteFrame` returned nil. -/
def wroteFrame (event : Executed Connection Instr) : Option Emission :=
  match event.instr with
  | .frameWritten _ emission => some emission
  | _ => none

/-- The instructions of `writeMessage`. -/
def Instr.inWriteCall : Instr → Bool
  | .sendFrame _ | .marshalFrame _ _ | .checkLane _ _ _ | .takeLane _ _ _ | .watchContext _ _ _
  | .writeWire _ _ _ | .frameWritten _ _ | .markRekey _ _ | .finishWrite _ _ => true
  | _ => false

/-- The frames that the last call has written. -/
def callFrames (events : List (Executed Connection Instr)) : List Emission :=
  (since enteredCall events).filterMap wroteFrame

/-- The steps that the last call has made. -/
def callSteps (events : List (Executed Connection Instr)) : Nat :=
  (since enteredCall events).countP (·.instr.inWriteCall)

/-- The event can be explained by a clock reading before the interval of the epoch is
over. -/
def PromptSend (P : Primitives) (job : WriteJob) (event : Executed Connection Instr) : Prop :=
  ∃ env : SendEnv,
    event.effect.state.session =
      (event.before.session.step P (.send job.message job.padLength env)).after ∧
    (0 < event.before.session.rekeyInterval →
      env.now < event.before.session.epochStarted + event.before.session.rekeyInterval)

/-- Every retry of the last call comes before the interval of its epoch is over. -/
def PromptRetries (P : Primitives) (events : List (Executed Connection Instr)) : Prop :=
  ∀ front event back job, since enteredCall events = front ++ event :: back →
    front.filterMap wroteFrame ≠ [] → event.instr = .sendFrame job → PromptSend P job event

section Events

variable {P : Primitives} (events : List (Executed Connection Instr))
  {event : Executed Connection Instr}

theorem callFrames_concat (h : enteredCall event = none) :
    callFrames (events ++ [event]) = callFrames events ++ (wroteFrame event).toList := by
  rw [callFrames, since_concat_of_none events h, List.filterMap_append, callFrames]
  cases hwrote : wroteFrame event <;> simp [hwrote]

theorem callSteps_concat (h : enteredCall event = none) :
    callSteps (events ++ [event]) =
      callSteps events + if event.instr.inWriteCall then 1 else 0 := by
  rw [callSteps, since_concat_of_none events h, List.countP_append, callSteps]
  simp [List.countP_cons]

theorem callFrames_entered {call : WriteJob × UInt32} (h : enteredCall event = some call) :
    callFrames (events ++ [event]) = [] := by
  rw [callFrames, since_concat_of_some events h, List.filterMap_nil]

theorem callSteps_entered {call : WriteJob × UInt32} (h : enteredCall event = some call) :
    callSteps (events ++ [event]) = 0 := by
  rw [callSteps, since_concat_of_some events h, List.countP_nil]

variable {events}

theorem PromptRetries.front (h : PromptRetries P (events ++ [event]))
    (hentered : enteredCall event = none) : PromptRetries P events := by
  intro front earlier back job hsplit
  apply h front earlier (back ++ [event]) job
  rw [since_concat_of_none events hentered, hsplit]
  simp

theorem PromptRetries.last {job : WriteJob} (h : PromptRetries P (events ++ [event]))
    (hentered : enteredCall event = none) (hframes : callFrames events ≠ [])
    (hinstr : event.instr = .sendFrame job) : PromptSend P job event :=
  h (since enteredCall events) event [] job (since_concat_of_none events hentered) hframes hinstr

end Events

/-! ## What the writer knows -/

/-- The last call was begun in this epoch, and it has written these announcements, each of
which was marked, and `extra`. -/
structure InCall (events : List (Executed Connection Instr)) (s : Connection) (job : WriteJob)
    (epoch : UInt32) (rekeys extra : List Emission) : Prop where
  entered : latest enteredCall events = some (job, epoch)
  frames : callFrames events = rekeys ++ extra
  announced : ∀ (n : Nat) (e : Emission), rekeys[n]? = some e → e.Announces (epoch.toNat + n + 1)
  current : s.session.sendEpoch.toNat = epoch.toNat + rekeys.length

/-- The writer has this frame in its hands. -/
def Outgoing (P : Primitives) (events : List (Executed Connection Instr)) (s : Connection)
    (job : WriteJob) (e : Emission) : Prop :=
  s.session.Holds e ∧ job.Asked e ∧ ∃ epoch rekeys, InCall events s job epoch rekeys [] ∧
    (PromptRetries P events → rekeys.length ≤ 1 ∧ (e.isRekey = true → rekeys = []))

/-- What the writer knows at its next instruction. -/
def WriteKnown (P : Primitives) (events : List (Executed Connection Instr)) (s : Connection) :
    Instr → Prop
  | .sendFrame job => s.session.pendingRekey = none ∧ ∃ epoch rekeys,
      InCall events s job epoch rekeys [] ∧ (rekeys ≠ [] → s.session.sentInEpoch = 0) ∧
        (PromptRetries P events → rekeys.length ≤ 1)
  | .marshalFrame job e =>
      Outgoing P events s job e ∧ e.frame.marshalBinary = .ok e.frame.octets
  | .checkLane job e _ | .takeLane job e _ | .watchContext job e _ | .writeWire job e _
  | .frameWritten job e => Outgoing P events s job e
  | .markRekey job e => s.session.Holds e ∧ e.isRekey = true ∧ ∃ epoch rekeys,
      InCall events s job epoch rekeys [e] ∧ (PromptRetries P events → rekeys = [])
  | .finishWrite job none => s.session.pendingRekey = none ∧ ∃ epoch rekeys last,
      InCall events s job epoch rekeys [last] ∧ last.isRekey = false ∧ job.Asked last ∧
        (PromptRetries P events → rekeys.length ≤ 1)
  | .finishWrite _ (some _) => True
  | .launch loops _ => loops.Nodup ∧ s.session.pendingRekey = none
  | _ => s.session.pendingRekey = none

/-- The epochs that the session can still move to. -/
def Session.epochsLeft (session : Session) : Nat :=
  0xFFFFFFFF - session.sendEpoch.toNat

/-- What one pass through the loop of `writeMessage` may cost. -/
def passCost : Nat := maxFrameSize + 10

/-- The steps that the call may still make. -/
def Instr.writeBudget (epochsLeft : Nat) : Instr → Nat
  | .sendFrame _ => epochsLeft * passCost + maxFrameSize + 10
  | .marshalFrame _ _ => epochsLeft * passCost + maxFrameSize + 9
  | .checkLane _ _ wire => epochsLeft * passCost + wire.length + 8
  | .takeLane _ _ wire => epochsLeft * passCost + wire.length + 7
  | .watchContext _ _ wire => epochsLeft * passCost + wire.length + 6
  | .writeWire _ _ wire => epochsLeft * passCost + wire.length + 5
  | .frameWritten _ _ => epochsLeft * passCost + 4
  | .markRekey _ _ => epochsLeft * passCost + 3
  | .finishWrite _ _ => 1
  | _ => 0

/-- The instructions between the entry to the lane of the transport and its release. -/
def Instr.inLane : Instr → Bool
  | .watchContext _ _ _ | .writeWire _ _ _ => true
  | _ => false

/-- The lane of the transport is free, or the writer is about to leave it. -/
def LaneKnown (s : Connection) (threads : List (List Instr)) : Instr → Prop
  | .watchContext _ _ _ | .writeWire _ _ _ => True
  | .frameWritten job e =>
      s.writeLane = false ∨ ∃ rest, (.releaseLane :: .frameWritten job e :: rest) ∈ threads
  | .finishWrite job err =>
      s.writeLane = false ∨ ∃ rest, (.releaseLane :: .finishWrite job err :: rest) ∈ threads
  | _ => s.writeLane = false

/-- The writer at its next instruction. -/
structure WriterAt (P : Primitives) (events : List (Executed Connection Instr)) (s : Connection)
    (threads : List (List Instr)) (j : Instr) : Prop where
  known : WriteKnown P events s j
  budget : j.inWriteCall = true →
    callSteps events + j.writeBudget s.session.epochsLeft ≤ 2 ^ 32 * passCost
  lane : LaneKnown s threads j

/-! ## What the other goroutines do -/

/-- What the other goroutines leave alone. -/
structure SenderFrame (s s' : Connection) : Prop where
  pending : s'.session.pendingRekey = s.session.pendingRekey
  epoch : s'.session.sendEpoch = s.session.sendEpoch
  sent : s'.session.sentInEpoch = s.session.sentInEpoch
  lane : s.writeLane = false → s'.writeLane = false

namespace SenderFrame

variable {s s' : Connection}

theorem of_session (hsession : s'.session = s.session) (hlane : s'.writeLane = s.writeLane) :
    SenderFrame s s' := by
  refine ⟨?_, ?_, ?_, hlane.trans⟩ <;> rw [hsession]

end SenderFrame

section Rules

variable {P : Primitives} {s : Connection} {i : Instr} {effect : Effect Connection Instr}
  {events : List (Executed Connection Instr)} {threads threads' : List (List Instr)}

theorem Exec.senderFrame (h : Exec P s i effect) (hi : Loop.write.side i = false) :
    SenderFrame s effect.state := by
  cases h with
  | lifecycle h =>
      cases h with
      | closeSession => exact ⟨rfl, rfl, rfl, id⟩
      | _ => exact .of_session rfl rfl
  | queue h => exact h.frame ▸ .of_session rfl rfl
  | write h =>
      cases h with
      | releaseLane => exact ⟨rfl, rfl, rfl, fun _ => rfl⟩
      | _ => cases hi
  | receive h =>
      cases h with
      | @rejected frame clock | @accepted frame clock =>
          have hside : (s.session.receiveMessage P clock frame).1.sendSide =
              s.session.sendSide := by
            rw [Session.receiveMessage_state]
            exact Session.receivePayload_sendSide P clock s.session frame
          exact ⟨congrArg Session.SendSide.pendingRekey hside,
            congrArg Session.SendSide.sendEpoch hside,
            congrArg Session.SendSide.sentInEpoch hside, id⟩
      | _ => exact .of_session rfl rfl
  | keepalive h => exact h.frame ▸ .of_session rfl rfl

theorem enteredCall_of_side (s : Connection) (effect : Effect Connection Instr)
    (hi : Loop.write.side i = false) :
    enteredCall ⟨s, i, effect⟩ = none ∧ wroteFrame ⟨s, i, effect⟩ = none ∧
      i.inWriteCall = false := by
  cases i <;> first | exact ⟨rfl, rfl, rfl⟩ | cases hi

variable {event : Executed Connection Instr} {s' : Connection}

/-- The next event neither begins a call nor ends the write of a frame. -/
theorem InCall.quiet {job : WriteJob} {epoch : UInt32} {rekeys extra : List Emission}
    (h : InCall events s job epoch rekeys extra) (hentered : enteredCall event = none)
    (hwrote : wroteFrame event = none) (hepoch : s'.session.sendEpoch = s.session.sendEpoch) :
    InCall (events ++ [event]) s' job epoch rekeys extra := by
  refine ⟨(latest_concat_of_none events hentered).trans h.entered, ?_, h.announced, ?_⟩
  · rw [callFrames_concat events hentered, hwrote, Option.toList_none, List.append_nil, h.frames]
  · rw [hepoch, h.current]

/-- The next event ends the write of a frame. -/
theorem InCall.wrote {job : WriteJob} {epoch : UInt32} {rekeys : List Emission} {e : Emission}
    (h : InCall events s job epoch rekeys []) (hentered : enteredCall event = none)
    (hwrote : wroteFrame event = some e) (hepoch : s'.session.sendEpoch = s.session.sendEpoch) :
    InCall (events ++ [event]) s' job epoch rekeys [e] := by
  refine ⟨(latest_concat_of_none events hentered).trans h.entered, ?_, h.announced, ?_⟩
  · rw [callFrames_concat events hentered, hwrote, Option.toList_some, h.frames, List.append_nil]
  · rw [hepoch, h.current]

theorem Outgoing.quiet {job : WriteJob} {e : Emission} (h : Outgoing P events s job e)
    (hentered : enteredCall event = none) (hwrote : wroteFrame event = none)
    (hpending : s'.session.pendingRekey = s.session.pendingRekey)
    (hepoch : s'.session.sendEpoch = s.session.sendEpoch) :
    Outgoing P (events ++ [event]) s' job e := by
  obtain ⟨hholds, hasked, epoch, rekeys, hcall, hprompt⟩ := h
  exact ⟨hholds.congr hpending hepoch, hasked, epoch, rekeys, hcall.quiet hentered hwrote hepoch,
    fun hretries => hprompt (hretries.front hentered)⟩

/-- The other goroutines take nothing away from what the writer knows. -/
theorem WriteKnown.frame {events' : List (Executed Connection Instr)} {j : Instr}
    (h : WriteKnown P events s j) (hframe : SenderFrame s s')
    (hcall : ∀ {job epoch rekeys extra}, InCall events s job epoch rekeys extra →
      InCall events' s' job epoch rekeys extra)
    (hfront : PromptRetries P events' → PromptRetries P events) : WriteKnown P events' s' j := by
  have hnone (hold : s.session.pendingRekey = none) : s'.session.pendingRekey = none :=
    hframe.pending.trans hold
  have hout {job : WriteJob} {e : Emission} (hold : Outgoing P events s job e) :
      Outgoing P events' s' job e := by
    obtain ⟨hholds, hasked, epoch, rekeys, hin, hprompt⟩ := hold
    exact ⟨hholds.congr hframe.pending hframe.epoch, hasked, epoch, rekeys, hcall hin,
      fun hretries => hprompt (hfront hretries)⟩
  cases j with
  | sendFrame job =>
      obtain ⟨hpending, epoch, rekeys, hin, hfresh, hprompt⟩ := h
      exact ⟨hnone hpending, epoch, rekeys, hcall hin,
        fun hne => hframe.sent.trans (hfresh hne), fun hretries => hprompt (hfront hretries)⟩
  | marshalFrame job e => exact h.imp_left hout
  | checkLane job e | takeLane job e | watchContext job e | writeWire job e | frameWritten job e =>
      exact hout h
  | markRekey job e =>
      obtain ⟨hholds, hkind, epoch, rekeys, hin, hprompt⟩ := h
      exact ⟨hholds.congr hframe.pending hframe.epoch, hkind, epoch, rekeys, hcall hin,
        fun hretries => hprompt (hfront hretries)⟩
  | finishWrite job err =>
      cases err with
      | some err => trivial
      | none =>
          obtain ⟨hpending, epoch, rekeys, last, hin, hkind, hasked, hprompt⟩ := h
          exact ⟨hnone hpending, epoch, rekeys, last, hcall hin, hkind, hasked,
            fun hretries => hprompt (hfront hretries)⟩
  | launch => exact h.imp_right hnone
  | _ => exact hnone h

/-! ## The writer -/

/-- The writer pays a step of its budget. -/
theorem WriterAt.next {j : Instr} (h : WriterAt P events s threads i)
    (hin : i.inWriteCall = true) (hentered : enteredCall ⟨s, i, effect⟩ = none)
    (hcost : j.writeBudget effect.state.session.epochsLeft + 1 ≤
      i.writeBudget s.session.epochsLeft)
    (hknown : WriteKnown P (events ++ [⟨s, i, effect⟩]) effect.state j)
    (hlane : LaneKnown effect.state threads' j) :
    WriterAt P (events ++ [⟨s, i, effect⟩]) effect.state threads' j := by
  refine ⟨hknown, fun _ => ?_, hlane⟩
  have hbudget := h.budget hin
  rw [callSteps_concat events hentered, if_pos hin]
  omega

/-- The call returns an error. -/
theorem WriterAt.failed {job : WriteJob} {err : Error} (h : WriterAt P events s threads i)
    (hin : i.inWriteCall = true) (hnot : ∀ job err, i ≠ .finishWrite job err)
    (hentered : enteredCall ⟨s, i, effect⟩ = none)
    (hlane : LaneKnown effect.state threads' (.finishWrite job (some err))) :
    WriterAt P (events ++ [⟨s, i, effect⟩]) effect.state threads'
      (.finishWrite job (some err)) := by
  refine h.next hin hentered ?_ trivial hlane
  cases i with
  | finishWrite job err => exact absurd rfl (hnot job err)
  | sendFrame | marshalFrame | checkLane | takeLane | watchContext | writeWire | frameWritten
  | markRekey =>
      simp only [Instr.writeBudget]
      omega
  | _ => cases hin

/-- The writer takes a job. -/
theorem writerAt_entered {job : WriteJob} {epoch : UInt32}
    (hentered : enteredCall event = some (job, epoch)) (hepoch : s.session.sendEpoch = epoch)
    (hnone : s.session.pendingRekey = none) (hlane : s.writeLane = false) :
    WriterAt P (events ++ [event]) s threads (.sendFrame job) := by
  refine ⟨⟨hnone, epoch, [], ⟨latest_concat_of_some events hentered, ?_, ?_, ?_⟩, ?_, ?_⟩, ?_,
    hlane⟩
  · exact callFrames_entered events hentered
  · intro n e he
    cases he
  · rw [hepoch, List.length_nil, Nat.add_zero]
  · exact fun hne => absurd rfl hne
  · exact fun _ => Nat.zero_le 1
  · intro _
    rw [callSteps_entered events hentered, Nat.zero_add]
    show (0xFFFFFFFF - s.session.sendEpoch.toNat) * passCost + maxFrameSize + 10 ≤ _
    have hle : (0xFFFFFFFF - s.session.sendEpoch.toNat) * passCost ≤ 0xFFFFFFFF * passCost :=
      Nat.mul_le_mul_right _ (Nat.sub_le _ _)
    have hcost : passCost = maxFrameSize + 10 := rfl
    omega

/-- What `Send` hands to the writer. -/
theorem outgoing_of_send {job : WriteJob} {e : Emission} {env : SendEnv} {pushed : List Instr}
    (hknown : WriteKnown P events s (.sendFrame job))
    (h : (s.session.step P (.send job.message job.padLength env)).emission = some e)
    (heffect : effect = ⟨{ s with
      session := (s.session.step P (.send job.message job.padLength env)).after }, pushed, []⟩) :
    Outgoing P (events ++ [⟨s, .sendFrame job, effect⟩]) effect.state job e := by
  subst heffect
  obtain ⟨hnone, epoch, rekeys, hcall, hfresh, hprompt⟩ := hknown
  obtain ⟨hholds, hepoch, -⟩ := Session.send_emission h
  refine ⟨hholds, asked_of_emission h, epoch, rekeys, hcall.quiet rfl rfl hepoch,
    fun hretries => ?_⟩
  refine ⟨hprompt (hretries.front rfl), fun hkind => ?_⟩
  -- a retry in time announces nothing
  by_contra hne
  have hframes : callFrames events ≠ [] := by
    rw [hcall.frames, List.append_nil]
    exact hne
  obtain ⟨env', hafter, hnow⟩ := hretries.last rfl hframes rfl
  have hquiet : (s.session.step P (.send job.message job.padLength env')).after.pendingRekey =
      s.session.pendingRekey := Session.send_prompt (hfresh hne) hnow
  rw [← hafter, hnone] at hquiet
  cases hholds with
  | message hmessage => rw [hkind] at hmessage; cases hmessage
  | rekey pending hpending => cases hpending.symm.trans hquiet

/-- The announcement is marked: the call goes on in the next epoch. -/
theorem writeKnown_marked {job : WriteJob} {e : Emission} {now : Time} {reply : Reply}
    {pushed : List Instr} (hknown : WriteKnown P events s (.markRekey job e))
    (h : (s.session.step P (.markRekeySent e.frame now)).result = .ok reply)
    (heffect : effect = ⟨{ s with
      session := (s.session.step P (.markRekeySent e.frame now)).after }, pushed, []⟩) :
    WriteKnown P (events ++ [⟨s, .markRekey job e, effect⟩]) effect.state (.sendFrame job) ∧
      effect.state.session.epochsLeft + 1 = s.session.epochsLeft := by
  subst heffect
  obtain ⟨hholds, hkind, epoch, rekeys, hcall, hprompt⟩ := hknown
  cases hholds with
  | message hmessage => rw [hkind] at hmessage; cases hmessage
  | rekey pending hpending hframe hepoch hannounces =>
      rw [← hframe] at h ⊢
      obtain ⟨hnone, hcurrent, hfresh⟩ := Session.mark_ok hpending h
      refine ⟨⟨hnone, epoch, rekeys ++ [e], ⟨?_, ?_, ?_, ?_⟩, fun _ => hfresh, fun hretries => ?_⟩,
        ?_⟩
      · exact (latest_concat_of_none events rfl).trans hcall.entered
      · rw [callFrames_concat events rfl, hcall.frames]
        rfl
      · intro n last hlast
        rw [List.getElem?_append] at hlast
        split_ifs at hlast with hlt
        · exact hcall.announced n last hlast
        · obtain ⟨hn, rfl⟩ : n - rekeys.length = 0 ∧ e = last := by
            cases hindex : n - rekeys.length with
            | zero => rw [hindex] at hlast; exact ⟨rfl, by simpa using hlast⟩
            | succ m => rw [hindex] at hlast; simp at hlast
          have hnext : epoch.toNat + n + 1 = pending.epoch.toNat := by
            rw [hepoch, hcall.current]
            omega
          rw [hnext]
          exact hannounces
      · show (s.session.step P (.markRekeySent pending.frame now)).after.sendEpoch.toNat = _
        rw [hcurrent, hepoch, hcall.current, List.length_append, List.length_singleton]
        omega
      · rw [hprompt (hretries.front rfl)]
        exact Nat.le_refl 1
      · show 0xFFFFFFFF - (s.session.step P _).after.sendEpoch.toNat + 1 = _
        have hlt := pending.epoch.toNat_lt
        rw [hcurrent, Session.epochsLeft]
        omega

/-- At its next instruction the writer finds the lane free, unless it is inside. -/
theorem WriterAt.lane_free (h : WriterAt P events s threads i)
    (hhead : ∀ rest', (.releaseLane :: i :: rest') ∉ threads) (hout : i.inLane = false) :
    s.writeLane = false := by
  have hlane := h.lane
  cases i with
  | watchContext | writeWire => cases hout
  | frameWritten | finishWrite => exact hlane.resolve_right fun ⟨rest, hmem⟩ => hhead rest hmem
  | _ => exact hlane

/-- A step of the writer. -/
theorem WriteExec.writerAt {rest : List Instr} (h : WriteExec P s i effect)
    (hi : Loop.write.side i = true) (hat : WriterAt P events s threads i)
    (hhead : ∀ rest', (.releaseLane :: i :: rest') ∉ threads)
    (hthread : (effect.pushed ++ rest) ∈ threads') :
    Sole Loop.write.side (WriterAt P (events ++ [⟨s, i, effect⟩]) effect.state threads')
      (effect.pushed :: effect.spawned) := by
  have hfree := hat.lane_free hhead
  cases h with
  | closeFirst | selectClose | selectControl | selectOutbound =>
      exact .one rfl (writerAt_entered rfl rfl hat.known hat.lane)
  | noClose => exact .one rfl ⟨hat.known, nofun, hat.lane⟩
  | selectDone => exact .none rfl
  | @sendOk job e env hsend =>
      obtain ⟨-, hepoch, hmarshal⟩ := Session.send_emission hsend
      refine .one rfl (hat.next rfl rfl ?_
        ⟨outgoing_of_send hat.known hsend rfl, hmarshal⟩ hat.lane)
      simp only [Instr.writeBudget, Session.epochsLeft, hepoch]
      omega
  | marshalOk hmarshal hmin hmax =>
      refine .one rfl (hat.next rfl rfl ?_ (hat.known.1.quiet rfl rfl rfl rfl) hat.lane)
      simp only [Instr.writeBudget]
      omega
  | sendFailed | marshalFailed | frameTooShort | frameTooLarge | laneEnded | laneCanceled
  | markFailed => exact .one rfl (hat.failed rfl (by simp) rfl (.inl hat.lane))
  | laneLive =>
      refine .one rfl (hat.next rfl rfl ?_ (Outgoing.quiet hat.known rfl rfl rfl rfl) hat.lane)
      simp only [Instr.writeBudget]
      omega
  | laneFree | watchLive =>
      refine .one rfl (hat.next rfl rfl ?_ (Outgoing.quiet hat.known rfl rfl rfl rfl) trivial)
      simp only [Instr.writeBudget]
      omega
  | watchEnded | wireStalled | wireFailed =>
      exact .one rfl (hat.failed rfl (by simp) rfl (.inr ⟨rest, hthread⟩))
  | wireDone =>
      refine .one rfl (hat.next rfl rfl ?_ (Outgoing.quiet hat.known rfl rfl rfl rfl)
        (.inr ⟨rest, hthread⟩))
      simp only [Instr.writeBudget, List.length_nil]
      omega
  | wireWrote n hpos hle =>
      refine .one rfl (hat.next rfl rfl ?_ (Outgoing.quiet hat.known rfl rfl rfl rfl) trivial)
      simp only [Instr.writeBudget, List.length_drop]
      omega
  | releaseLane => cases hi
  | @messageWritten job e hkind =>
      obtain ⟨hholds, hasked, epoch, rekeys, hcall, hprompt⟩ := hat.known
      have hnone : s.session.pendingRekey = none := by
        cases hholds with
        | message _ hnone => exact hnone
        | rekey _ _ _ _ hannounces => exact absurd hannounces.1 (by rw [hkind]; decide)
      refine .one rfl (hat.next rfl rfl ?_ ⟨hnone, epoch, rekeys, e, hcall.wrote rfl rfl rfl,
        hkind, hasked, fun hretries => (hprompt (hretries.front rfl)).1⟩ (.inl (hfree rfl)))
      simp only [Instr.writeBudget]
      omega
  | @rekeyWritten job e hkind =>
      obtain ⟨hholds, hasked, epoch, rekeys, hcall, hprompt⟩ := hat.known
      refine .one rfl (hat.next rfl rfl ?_ ⟨hholds, hkind, epoch, rekeys, hcall.wrote rfl rfl rfl,
        fun hretries => (hprompt (hretries.front rfl)).2 hkind⟩ (hfree rfl))
      simp only [Instr.writeBudget]
      omega
  | marked now hmark =>
      obtain ⟨hknown, hepochs⟩ := writeKnown_marked hat.known hmark rfl
      refine .one rfl (hat.next rfl rfl ?_ hknown hat.lane)
      have hpass : passCost = maxFrameSize + 10 := rfl
      simp only [Instr.writeBudget, ← hepochs, Nat.add_mul]
      omega
  | @finishWrite job err =>
      cases job with
      | close request => exact .none rfl
      | queued name item =>
          cases err with
          | some err => exact .none rfl
          | none => exact .one rfl ⟨hat.known.1, nofun, hfree rfl⟩

theorem LifecycleExec.writerAt (h : LifecycleExec s i effect) (hi : Loop.write.side i = true)
    (hat : WriterAt P events s threads i) :
    Sole Loop.write.side (WriterAt P (events ++ [⟨s, i, effect⟩]) effect.state threads')
      (effect.pushed :: effect.spawned) := by
  have hframe : effect.state.session.pendingRekey = s.session.pendingRekey ∧
      effect.state.writeLane = s.writeLane := by
    cases h <;> exact ⟨rfl, rfl⟩
  refine h.launches hi ?_ ?_ ?_
  · rintro ctx rfl
    exact ⟨⟨loops_nodup s.config, hframe.1.trans hat.known⟩, nofun, hframe.2.trans hat.lane⟩
  · rintro loops ctx rfl
    exact hat.known.1
  · rintro loop loops ctx rfl
    have hnone := hframe.1.trans hat.known.2
    exact ⟨⟨⟨(List.nodup_cons.mp hat.known.1).2, hnone⟩, nofun, hframe.2.trans hat.lane⟩,
      ⟨hnone, nofun, hframe.2.trans hat.lane⟩⟩

/-- The other goroutines leave the lane alone, or leave it free. -/
theorem LaneKnown.frame {j : Instr} (h : LaneKnown s threads j)
    (hlane : s.writeLane = false → s'.writeLane = false)
    (hleaving : ∀ rest, (.releaseLane :: j :: rest) ∈ threads →
      s'.writeLane = false ∨ (.releaseLane :: j :: rest) ∈ threads') :
    LaneKnown s' threads' j := by
  cases j with
  | watchContext | writeWire => trivial
  | frameWritten | finishWrite =>
      rcases h with hfree | ⟨rest, hmem⟩
      · exact .inl (hlane hfree)
      · exact (hleaving rest hmem).imp_right fun hstill => ⟨rest, hstill⟩
  | _ => exact hlane h

theorem Exec.releaseLane_free (h : Exec P s .releaseLane effect) :
    effect.state.writeLane = false := by
  cases h with
  | write h => cases h; rfl
  | lifecycle h | queue h | receive h | keepalive h => cases h

/-- A step of another goroutine. -/
theorem WriterAt.other {j : Instr} {k : Nat} {rest : List Instr}
    (h : WriterAt P events s threads j) (hk : threads[k]? = some (i :: rest))
    (hexec : Exec P s i effect) (hi : Loop.write.side i = false) :
    WriterAt P (events ++ [⟨s, i, effect⟩]) effect.state
      (threads.set k (effect.pushed ++ rest) ++ effect.spawned) j := by
  have hframe := hexec.senderFrame hi
  obtain ⟨hentered, hwrote, hin⟩ := enteredCall_of_side s effect hi
  refine ⟨h.known.frame hframe (fun hin => hin.quiet hentered hwrote hframe.epoch)
    (fun hretries => hretries.front hentered), fun hj => ?_, h.lane.frame hframe.lane ?_⟩
  · rw [callSteps_concat events hentered, hin, Session.epochsLeft, hframe.epoch]
    exact h.budget hj
  · intro rest' hmem
    by_cases hrelease : i = .releaseLane
    · subst hrelease
      exact .inl hexec.releaseLane_free
    · exact .inr (mem_set_append_of_ne hmem hk fun heq => hrelease (List.cons.inj heq).1.symm)

/-- A call or the end of a context. -/
theorem WriterAt.ambient {j : Instr} {spawned : List (List Instr)}
    (h : WriterAt P events s threads j) (hsession : s'.session = s.session)
    (hlane : s'.writeLane = s.writeLane) : WriterAt P events s' (threads ++ spawned) j := by
  have hknown : WriteKnown P events s' j := by
    refine h.known.frame (.of_session hsession hlane) (fun hin => ?_) id
    refine ⟨hin.entered, hin.frames, hin.announced, ?_⟩
    rw [hsession]
    exact hin.current
  refine ⟨hknown, ?_, h.lane.frame hlane.trans fun rest hmem => .inr ?_⟩
  · rw [hsession]
    exact h.budget
  · exact List.mem_append_left _ hmem

/-- The writer does not call `enqueueChannel`. -/
theorem QueueExec.side_write (h : QueueExec s i effect) : Loop.write.side i = false := by
  by_contra hside
  rw [Bool.not_eq_false] at hside
  obtain ⟨call, -, hloop, -⟩ := h.roster_own hside
  cases hafter : call.after <;> rw [hafter] at hloop <;> cases hloop

/-! ## Errors of the call -/

theorem OperationErr.not_rekeyPending {timeout : Duration} {err : Error}
    (h : s.OperationErr timeout (some err)) : ¬ err.is .rekeyPending := by
  cases h <;> decide

/-- Only the transport may tell the writer that a rekey is pending. -/
theorem WriteExec.refused {job : WriteJob} {err : Error} (h : WriteExec P s i effect)
    (hknown : WriteKnown P events s i) (hmem : .finishWrite job (some err) ∈ effect.pushed)
    (hrekey : err.is .rekeyPending) : ∃ e wire, i = .writeWire job e wire := by
  cases h with
  | sendFailed env hsend =>
      simp only [List.mem_singleton, Instr.finishWrite.injEq, Option.some.injEq] at hmem
      obtain ⟨rfl, rfl⟩ := hmem
      exact absurd hrekey (Session.send_error hknown.1 hsend)
  | marshalFailed hmarshal => cases hknown.2.symm.trans hmarshal
  | frameTooShort | frameTooLarge =>
      simp only [List.mem_singleton, Instr.finishWrite.injEq, Option.some.injEq] at hmem
      obtain ⟨rfl, rfl⟩ := hmem
      exact absurd hrekey (Error.not_is_of_subset (List.Subset.refl _) (by simp [Sentinel.wrap]))
  | laneEnded hctx | laneCanceled hctx | watchEnded hctx =>
      simp only [List.mem_cons, List.not_mem_nil, or_false, false_or, Instr.finishWrite.injEq,
        Option.some.injEq, reduceCtorEq] at hmem
      obtain ⟨rfl, rfl⟩ := hmem
      exact absurd hrekey (OperationErr.not_rekeyPending hctx)
  | wireStalled | wireFailed =>
      simp only [List.mem_cons, List.not_mem_nil, or_false, false_or, Instr.finishWrite.injEq,
        Option.some.injEq, reduceCtorEq] at hmem
      obtain ⟨rfl, rfl⟩ := hmem
      exact ⟨_, _, rfl⟩
  | markFailed now hmark =>
      simp only [List.mem_singleton, Instr.finishWrite.injEq, Option.some.injEq] at hmem
      obtain ⟨rfl, rfl⟩ := hmem
      obtain ⟨hholds, hkind, -⟩ := hknown
      cases hholds with
      | message hmessage => rw [hkind] at hmessage; cases hmessage
      | rekey pending hpending hframe =>
          rw [← hframe] at hmark
          exact absurd hrekey (Session.mark_error hpending hmark)
  | @finishWrite job' err' => cases job' <;> cases err' <;> simp [WriteJob.finish, shutdown] at hmem
  | _ => simp at hmem

theorem Exec.refused {job : WriteJob} {err : Error} (h : Exec P s i effect)
    (hknown : Loop.write.side i = true → WriteKnown P events s i)
    (hmem : .finishWrite job (some err) ∈ effect.pushed) (hrekey : err.is .rekeyPending) :
    ∃ e wire, i = .writeWire job e wire := by
  have hroster : .finishWrite job (some err) ∈
      roster Loop.write.side (effect.pushed :: effect.spawned) :=
    mem_roster.mpr ⟨⟨_, List.mem_cons_self, hmem⟩, rfl⟩
  cases hi : Loop.write.side i with
  | false =>
      -- the other goroutines do not write
      rcases h.roster_other hi with ⟨ctx, -, -, hstart⟩ | hnone
      · rw [hstart, Multiset.mem_singleton] at hroster
        cases hroster
      · rw [hnone] at hroster
        cases Multiset.notMem_zero _ hroster
  | true =>
      cases h with
      | lifecycle h =>
          cases h with
          | startCanceled | startLive | launchLoop => simp [stopUnstarted, shutdown] at hmem
          | _ => cases hi
      | queue h => exact absurd hi (by rw [h.side_write]; decide)
      | write h => exact h.refused (hknown hi) hmem hrekey
      | receive h | keepalive h => exact absurd hi (by simp [h.side_other])

end Rules

/-! ## Runs -/

/-- The writer in a pool. -/
structure Writing (P : Primitives) (events : List (Executed Connection Instr))
    (pool : Pool Connection Instr) : Prop where
  loop : Sole Loop.write.side (WriterAt P events pool.state pool.threads) pool.threads
  steps : callSteps events ≤ 2 ^ 32 * passCost
  refused : ∀ event ∈ events, ∀ job err, .finishWrite job (some err) ∈ event.effect.pushed →
    err.is .rekeyPending → ∃ e wire, event.instr = .writeWire job e wire
  idle : pool.state.startOnce = .idle → roster Loop.write.side pool.threads = 0 ∧
    pool.state.session.pendingRekey = none ∧ pool.state.writeLane = false

section Runs

variable {P : Primitives} {s : Connection} {threads : List (List Instr)} {k : Nat} {i : Instr}
  {rest : List Instr} {effect : Effect Connection Instr}
  {events : List (Executed Connection Instr)}

theorem Instr.one_le_writeBudget (hin : i.inWriteCall = true) (epochsLeft : Nat) :
    1 ≤ i.writeBudget epochsLeft := by
  cases i with
  | sendFrame | marshalFrame | checkLane | takeLane | watchContext | writeWire | frameWritten
  | markRekey | finishWrite =>
      simp only [Instr.writeBudget]
      omega
  | _ => cases hin

/-- The steps of the last call after one more event. -/
theorem callSteps_le (h : callSteps events ≤ 2 ^ 32 * passCost)
    (hat : i.inWriteCall = true → WriterAt P events s threads i) :
    callSteps (events ++ [⟨s, i, effect⟩]) ≤ 2 ^ 32 * passCost := by
  cases hentered : enteredCall ⟨s, i, effect⟩ with
  | some call => rw [callSteps_entered events hentered]; exact Nat.zero_le _
  | none =>
      rw [callSteps_concat events hentered]
      cases hin : i.inWriteCall with
      | false => simpa using h
      | true =>
          have hbudget := (hat hin).budget hin
          have hone := Instr.one_le_writeBudget hin s.session.epochsLeft
          simp only [if_true]
          omega

theorem Instr.side_of_inWriteCall (hin : i.inWriteCall = true) : Loop.write.side i = true := by
  cases i <;> first | rfl | cases hin

/-- A step of any goroutine. -/
theorem Writing.step (h : Writing P events ⟨s, threads⟩) (hk : threads[k]? = some (i :: rest))
    (hexec : Exec P s i effect) :
    Writing P (events ++ [⟨s, i, effect⟩])
      ⟨effect.state, threads.set k (effect.pushed ++ rest) ++ effect.spawned⟩ := by
  have hmem := List.mem_of_getElem? hk
  have hat (hi : Loop.write.side i = true) : WriterAt P events s threads i :=
    (h.loop.of_mem hmem List.mem_cons_self hi).2
  refine ⟨?_, ?_, ?_, fun hidle => ?_⟩
  · cases hi : Loop.write.side i with
    | true =>
        have hsole := (h.loop.of_mem hmem List.mem_cons_self hi).1
        -- the writer has left the lane when it is about to go on
        have hhead : ∀ rest', (.releaseLane :: i :: rest') ∉ threads := by
          intro rest' hleaving
          have heq := eq_of_roster_singleton hsole hleaving hmem
            (List.mem_cons_of_mem _ List.mem_cons_self) List.mem_cons_self
          rw [← (List.cons.inj heq).1] at hi
          cases hi
        refine .own h.loop hk hi ?_
        cases hexec with
        | lifecycle hrule => exact hrule.writerAt hi (hat hi)
        | queue hrule => exact absurd hi (by rw [hrule.side_write]; decide)
        | write hrule => exact hrule.writerAt hi (hat hi) hhead (mem_set_append_self hk)
        | receive hrule | keepalive hrule => cases hrule <;> cases hi
    | false =>
        rcases hexec.roster_other hi with ⟨ctx, hidle, -, hroster⟩ | hfree
        · obtain ⟨hnone, hpending, hlane⟩ := h.idle hidle
          have hframe := hexec.senderFrame hi
          exact .enter hnone hk hi
            (.one hroster ⟨hframe.pending.trans hpending, nofun, hframe.lane hlane⟩)
        · exact h.loop.other hk hi hfree fun j _ hj => hj.other hk hexec hi
  · exact callSteps_le h.steps fun hin => hat (Instr.side_of_inWriteCall hin)
  · refine List.forall_mem_append.mpr ⟨h.refused, List.forall_mem_singleton.mpr ?_⟩
    exact fun job err => hexec.refused fun hi => (hat hi).known
  · obtain ⟨hnone, hpending, hlane⟩ := h.idle (hexec.idle_of_idle hidle)
    obtain ⟨hi, hroster⟩ := hexec.roster_idle hk hnone hidle
    have hframe := hexec.senderFrame hi
    exact ⟨hroster, hframe.pending.trans hpending, hframe.lane hlane⟩

theorem Writing.ambient {s' : Connection} {spawned : List (List Instr)}
    (h : Writing P events ⟨s, threads⟩) (hambient : Ambient s s' spawned) :
    Writing P events ⟨s', threads ++ spawned⟩ := by
  have hsame : s'.session = s.session ∧ s'.writeLane = s.writeLane ∧
      s'.startOnce = s.startOnce := by
    cases hambient <;> exact ⟨rfl, rfl, rfl⟩
  obtain ⟨hsession, hlane, honce⟩ := hsame
  have hfree : roster Loop.write.side spawned = 0 := by
    cases hambient with
    | call api => exact api.roster_program _ _
    | cancelCaller => rfl
  refine ⟨h.loop.spawn hfree fun j _ hj => hj.ambient hsession hlane, h.steps, h.refused,
    fun hidle => ?_⟩
  obtain ⟨hnone, hpending, hold⟩ := h.idle (honce.symm.trans hidle)
  refine ⟨?_, ?_, hlane.trans hold⟩
  · rw [roster_append, hfree, add_zero]
    exact hnone
  · rw [show s'.session = s.session from hsession]
    exact hpending

theorem writing_of_traces {session : Session} {config : ConnectionConfig}
    {pool : Pool Connection Instr} (hnone : session.pendingRekey = none)
    (h : (connectionMachine P).Traces (connectionStart session config) events pool) :
    Writing P events pool := by
  induction h with
  | start => exact ⟨.none rfl, Nat.zero_le _, List.forall_mem_nil _, fun _ => ⟨rfl, hnone, rfl⟩⟩
  | thread k _ hk hexec ih => exact ih.step hk hexec
  | ambient _ hambient ih => exact ih.ambient hambient

/-- A call that has not returned can go on. -/
theorem WriterAt.enabled (h : WriterAt P events s threads i) (hin : i.inWriteCall = true)
    (hoperations : s.operationsCanceled = true → s.cancelCause ≠ none) :
    ∃ effect, Exec P s i effect := by
  have hctx : ∃ err, s.OperationErr s.config.writeTimeout err := by
    cases hops : s.operationsCanceled with
    | false => exact ⟨none, .live hops⟩
    | true => exact ⟨_, .canceled (hoperations hops)⟩
  cases i with
  | sendFrame job =>
      have hsend := Session.send_total (P := P) s.session job.message job.padLength
        ⟨0, ⟨[], none⟩⟩
      rcases hsend with ⟨e, he⟩ | ⟨err, herr⟩
      · exact ⟨_, .write (.sendOk _ he)⟩
      · exact ⟨_, .write (.sendFailed _ herr)⟩
  | marshalFrame job e =>
      have hmarshal := h.known.2
      by_cases hmin : headerSize ≤ e.frame.octets.length
      · by_cases hmax : e.frame.octets.length ≤ maxFrameSize
        · exact ⟨_, .write (.marshalOk hmarshal hmin hmax)⟩
        · exact ⟨_, .write (.frameTooLarge hmarshal (Nat.lt_of_not_le hmax))⟩
      · exact ⟨_, .write (.frameTooShort hmarshal (Nat.lt_of_not_le hmin))⟩
  | checkLane job e wire =>
      obtain ⟨err, herr⟩ := hctx
      cases err with
      | none => exact ⟨_, .write (.laneLive herr)⟩
      | some err => exact ⟨_, .write (.laneEnded herr)⟩
  | takeLane job e wire => exact ⟨_, .write (.laneFree h.lane)⟩
  | watchContext job e wire =>
      obtain ⟨err, herr⟩ := hctx
      cases err with
      | none => exact ⟨_, .write (.watchLive herr)⟩
      | some err => exact ⟨_, .write (.watchEnded herr)⟩
  | writeWire job e wire =>
      cases wire with
      | nil => exact ⟨_, .write .wireDone⟩
      | cons octet wire => exact ⟨_, .write (.wireStalled (List.cons_ne_nil octet wire))⟩
  | frameWritten job e =>
      cases hkind : e.isRekey with
      | false => exact ⟨_, .write (.messageWritten hkind)⟩
      | true => exact ⟨_, .write (.rekeyWritten hkind)⟩
  | markRekey job e =>
      cases hmark : (s.session.step P (.markRekeySent e.frame 0)).result with
      | ok reply => exact ⟨_, .write (.marked 0 hmark)⟩
      | error err => exact ⟨_, .write (.markFailed 0 hmark)⟩
  | finishWrite job err => exact ⟨_, .write .finishWrite⟩
  | _ => cases hin

end Runs

/-- **The write-and-rekey loop terminates and never wedges.**  Before the connection takes
over, its session has only received.  In every run, for every message, clock and outcome of
the transport's writes, a call of `writeMessage` makes a bounded number of steps, and as
long as it has not returned it can make another one.  If it returns nil, it has written
announcements of consecutive epochs and then one frame that carries the message; there is
at most one announcement if every retry comes before the interval of its epoch is over.
Nothing is pending when it sends, and only the transport may make it return
`ErrRekeyPending`. -/
theorem write_call_terminates {P : Primitives} {suite : CipherSuite}
    {secrets : HandshakeSecrets} {start : Time} {fresh : Session}
    (hnew : newSession P suite secrets start = .ok fresh) (limits : Session.Limits)
    (calls : List SessionCall) (hreceives : ∀ call ∈ calls, call.receives = true)
    (config : ConnectionConfig) {events : List (Executed Connection Instr)}
    {pool : Pool Connection Instr}
    (h : (connectionMachine P).Traces
      (connectionStart ((fresh.withLimits limits).run P calls) config) events pool) :
    callSteps events ≤ 2 ^ 32 * passCost ∧
    (∀ i rest, (i :: rest) ∈ pool.threads → i.inWriteCall = true →
      ∃ effect, Exec P pool.state i effect) ∧
    (∀ t ∈ pool.threads, ∀ job, .finishWrite job none ∈ t →
      ∃ epoch rekeys last, latest enteredCall events = some (job, epoch) ∧
        callFrames events = rekeys ++ [last] ∧
        (∀ (n : Nat) (e : Emission), rekeys[n]? = some e → e.Announces (epoch.toNat + n + 1)) ∧
        (last.isRekey = false ∧
          ∃ m, (job.message = .value m ∨ job.message = .pointer m) ∧ last.Carries m) ∧
        (PromptRetries P events → rekeys.length ≤ 1)) ∧
    (∀ t ∈ pool.threads, ∀ job, .sendFrame job ∈ t → pool.state.session.pendingRekey = none) ∧
    ∀ event ∈ events, ∀ job err, .finishWrite job (some err) ∈ event.effect.pushed →
      err.is .rekeyPending → ∃ e wire, event.instr = .writeWire job e wire := by
  have hnone : ((fresh.withLimits limits).run P calls).pendingRekey = none := by
    rw [Session.pendingRekey_of_receives hreceives]
    obtain ⟨-, -, rfl⟩ := newSession_eq_ok hnew
    rfl
  have hwriting := writing_of_traces hnone h
  have hoperations := (sound_of_reaches h.reaches).operations
  refine ⟨hwriting.steps, ?_, ?_, ?_, hwriting.refused⟩
  · intro i rest hthread hin
    have hat := (hwriting.loop.of_mem hthread List.mem_cons_self (Instr.side_of_inWriteCall hin)).2
    exact hat.enabled hin hoperations
  · intro t ht job hfinish
    obtain ⟨-, epoch, rekeys, last, hcall, hkind, hasked, hprompt⟩ :=
      (hwriting.loop.of_mem ht hfinish rfl).2.known
    refine ⟨epoch, rekeys, last, hcall.entered, hcall.frames, hcall.announced,
      ⟨hkind, hasked.resolve_left ?_⟩, hprompt⟩
    rw [hkind]
    decide
  · intro t ht job hsend
    exact (hwriting.loop.of_mem ht hsend rfl).2.known.1

/-- An item whose first send finds the interval of its epoch over: the announcement is
written and marked, and the retry writes the message. -/
theorem write_rekeyed :
    (connectionMachine transparent).Leads
      (fun pool => ∃ t ∈ pool.threads,
        .finishWrite (.queued .outbound sampleItem) none ∈ t ∧ pool.state.written.length = 2)
      (connectionStart (sampleSession.withLimits ⟨0, 1, 1, 1⟩) plainConfig) := by
  refine .step (.ambient (.call (.sendAndWait .background sampleItem.message))) ?_
  refine .first (.queue (.lease rfl)) ?_
  refine .first (.queue (.contextLive rfl)) ?_
  refine .first (.queue (.admitted rfl)) ?_
  refine .first (.queue (.accepted (show 0 < 16 by decide))) ?_
  refine .step (.ambient (.call (.start .background))) ?_
  refine .second (.lifecycle (.startFirst rfl)) ?_
  refine .second (.lifecycle (.startLive rfl)) ?_
  refine .second (.lifecycle .storeStarted) ?_
  refine .second (.lifecycle .launchLoop) ?_
  refine .second (.lifecycle .launchLoop) ?_
  -- the write loop is the fourth goroutine
  refine .after [_, _, _] (.write (.noClose rfl)) ?_
  refine .after [_, _, _] (.write (.selectOutbound rfl)) ?_
  -- at time 1 the first epoch is over
  refine .after [_, _, _] (.write (.sendOk ⟨1, ⟨[], none⟩⟩ rfl)) ?_
  refine .after [_, _, _] (.write (.marshalOk rfl (by decide) (by decide))) ?_
  refine .after [_, _, _] (.write (.laneLive (.live rfl))) ?_
  refine .after [_, _, _] (.write (.laneFree rfl)) ?_
  refine .after [_, _, _] (.write (.watchLive (.live rfl))) ?_
  refine .after [_, _, _] (.write (.wireWrote _ (by decide) (Nat.le_refl _) rfl)) ?_
  refine .after [_, _, _] (.write .wireDone) ?_
  refine .after [_, _, _] (.write .releaseLane) ?_
  refine .after [_, _, _] (.write (.rekeyWritten rfl)) ?_
  refine .after [_, _, _] (.write (.marked 1 rfl)) ?_
  -- the retry in the next epoch
  refine .after [_, _, _] (.write (.sendOk ⟨1, ⟨[], none⟩⟩ rfl)) ?_
  refine .after [_, _, _] (.write (.marshalOk rfl (by decide) (by decide))) ?_
  refine .after [_, _, _] (.write (.laneLive (.live rfl))) ?_
  refine .after [_, _, _] (.write (.laneFree rfl)) ?_
  refine .after [_, _, _] (.write (.watchLive (.live rfl))) ?_
  refine .after [_, _, _] (.write (.wireWrote _ (by decide) (Nat.le_refl _) rfl)) ?_
  refine .after [_, _, _] (.write .wireDone) ?_
  refine .after [_, _, _] (.write .releaseLane) ?_
  refine .after [_, _, _] (.write (.messageWritten rfl)) ?_
  exact .here ⟨_, List.mem_of_getElem? (i := 3) rfl, List.mem_cons_self, rfl⟩

theorem write_call_terminates_rekeyed :
    ∃ events pool, (connectionMachine transparent).Traces
        (connectionStart (sampleSession.withLimits ⟨0, 1, 1, 1⟩) plainConfig) events pool ∧
      callSteps events ≤ 2 ^ 32 * passCost ∧ pool.state.written.length = 2 ∧
      ∃ epoch rekeys last,
        latest enteredCall events = some (.queued .outbound sampleItem, epoch) ∧
        callFrames events = rekeys ++ [last] ∧
        (∀ (n : Nat) (e : Emission), rekeys[n]? = some e → e.Announces (epoch.toNat + n + 1)) ∧
        last.isRekey = false := by
  obtain ⟨pool, hreach, t, ht, hfinish, hwritten⟩ := write_rekeyed
  obtain ⟨events, htrace⟩ := hreach.traces
  obtain ⟨hsteps, -, hframes, -⟩ := write_call_terminates newSession_sample ⟨0, 1, 1, 1⟩ []
    (List.forall_mem_nil _) plainConfig htrace
  obtain ⟨epoch, rekeys, last, hentered, hcall, hannounced, ⟨hkind, -⟩, -⟩ :=
    hframes t ht _ hfinish
  exact ⟨events, pool, htrace, hsteps, hwritten, epoch, rekeys, last, hentered, hcall,
    hannounced, hkind⟩

end DgProto
