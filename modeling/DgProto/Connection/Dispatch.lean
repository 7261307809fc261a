import DgProto.Connection.Loops

/-!
# The order of the handler calls

`readLoop` passes what it receives through a queue to `handlerLoop`, which calls the
handler.  With a shutdown timeout a call runs in a goroutine of its own, which may outlive
the loop.

Between the two loops stands the list of the messages that were ever put into the queue.
The reader knows how far it has come with the messages it received (`ReaderKnows`), and
the handler side is in one of a few positions (`HandlerTurn`), each of which says which
call is due or under way.  Neither touches what the other knows.
-/

namespace DgProto

open Library Wire Crypto Connection

/-- `readLoop` passes messages of these types to the handler. -/
def Wire.Message.toHandler (message : Message) : Bool :=
  message.kind == .encryptedData || message.kind == .ack || message.kind == .error

theorem Wire.Message.toHandler_iff {message : Message} :
    message.toHandler = true ↔
      message.kind = .encryptedData ∨ message.kind = .ack ∨ message.kind = .error := by
  simp [toHandler, or_assoc]

namespace Connection

/-- The messages that a step has put into the handler queue. -/
def added (s s' : Connection) : List Message := s'.handlerQueue.drop s.handlerQueue.length

theorem added_of_le {s s' : Connection}
    (h : s'.handlerQueue.length ≤ s.handlerQueue.length) : s.added s' = [] :=
  List.drop_eq_nil_of_le h

/-- As long as the connection is not shut down, `held` is what was taken out of the queue
and is not yet passed to the handler. -/
def Owes (s : Connection) (queued held : List Message) : Prop :=
  s.cancelCause = none → queued = s.invoked ++ held ++ s.handlerQueue

/-- The received messages that the handler is to see. -/
def toHandler (s : Connection) : List Message := s.received.filter Message.toHandler

end Connection

/-! ## The reader -/

/-- What the reader knows at an instruction, if `queued` was put into the queue so far. -/
def ReaderKnows (queued : List Message) (s : Connection) : Instr → Prop
  | .dispatch message => s.config.handler = true →
      s.toHandler = queued ++ [message].filter Message.toHandler
  | .leaseHandler message | .checkHandler message | .offerHandler message =>
      s.toHandler = queued ++ [message]
  | .launch loops _ => loops.Nodup ∧ (s.config.handler = true → s.toHandler = queued)
  | _ => s.config.handler = true → s.toHandler = queued

theorem ReaderKnows.congr {queued : List Message} {s s' : Connection} {j : Instr}
    (h : ReaderKnows queued s j) (hconfig : s'.config = s.config)
    (hreceived : s'.received = s.received) : ReaderKnows queued s' j := by
  have hsame : s'.toHandler = s.toHandler := by rw [toHandler, hreceived, toHandler]
  cases j <;> simp only [ReaderKnows, hconfig, hsame] at h ⊢ <;> exact h

section Rules

variable {P : Primitives} {s : Connection} {i : Instr} {effect : Effect Connection Instr}

/-- The configuration stays. -/
theorem Exec.config_eq (h : Exec P s i effect) : effect.state.config = s.config := by
  cases h with
  | lifecycle h | queue h | write h | receive h | keepalive h => rw [h.frame]

/-- Only the reader receives, and only the reader puts messages into the queue. -/
theorem Exec.reader_frame (h : Exec P s i effect) (hi : Loop.read.side i = false) :
    effect.state.received = s.received ∧ s.added effect.state = [] := by
  have hkept {s' : Connection} (hq : s'.handlerQueue = s.handlerQueue) : s.added s' = [] :=
    added_of_le (by rw [hq])
  cases h with
  | lifecycle h =>
      cases h with
      | dropHandler => exact ⟨rfl, added_of_le (by simp)⟩
      | _ => exact ⟨rfl, hkept rfl⟩
  | queue h | write h => exact h.frame ▸ ⟨rfl, hkept rfl⟩
  | receive h =>
      cases h with
      | accepted | handlerQueued => cases hi
      | selectMessage hq => exact ⟨rfl, added_of_le (by simp [hq])⟩
      | _ => exact ⟨rfl, hkept rfl⟩
  | keepalive h => exact h.frame ▸ ⟨rfl, hkept rfl⟩

/-- What the reader leaves to do, and how far it has come. -/
structure Reads (queued : List Message) (s : Connection) (effect : Effect Connection Instr) :
    Prop where
  sole : Sole Loop.read.side (ReaderKnows (queued ++ s.added effect.state) effect.state)
    (effect.pushed :: effect.spawned)
  front : queued ++ s.added effect.state <+: effect.state.toHandler

/-- The reader goes on without touching the messages. -/
theorem Reads.idle {queued : List Message} {state : Connection} {pushed : List Instr}
    {spawned : List (List Instr)} (hqueue : state.handlerQueue = s.handlerQueue)
    (hreceived : state.received = s.received) (hfront : queued <+: s.toHandler)
    (hsole : Sole Loop.read.side (ReaderKnows queued state) (pushed :: spawned)) :
    Reads queued s ⟨state, pushed, spawned⟩ := by
  have hadded : s.added state = [] := added_of_le (by rw [hqueue])
  have hsame : state.toHandler = s.toHandler := by rw [toHandler, hreceived, toHandler]
  refine ⟨?_, ?_⟩
  · rw [hadded, List.append_nil]
    exact hsole
  · rw [hadded, List.append_nil]
    exact hsame ▸ hfront

theorem LifecycleExec.reads {queued : List Message} (h : LifecycleExec s i effect)
    (hi : Loop.read.side i = true) (hknows : ReaderKnows queued s i)
    (hfront : queued <+: s.toHandler) : Reads queued s effect := by
  have hstate : effect.state.handlerQueue = s.handlerQueue ∧
      effect.state.received = s.received ∧ effect.state.config = s.config := by
    cases h with
    | dropHandler => cases hi
    | _ => exact ⟨rfl, rfl, rfl⟩
  obtain ⟨hqueue, hreceived, hconfig⟩ := hstate
  have hlift (j : Instr) (hj : ReaderKnows queued s j) : ReaderKnows queued effect.state j :=
    hj.congr hconfig hreceived
  apply Reads.idle hqueue hreceived hfront
  apply h.launches hi
  · rintro ctx rfl
    exact hlift _ ⟨loops_nodup s.config, hknows⟩
  · rintro loops ctx rfl
    exact hknows.1
  · rintro loop loops ctx rfl
    exact ⟨hlift _ ⟨(List.nodup_cons.mp hknows.1).2, hknows.2⟩, hlift .readFrame hknows.2⟩

theorem QueueExec.reads {queued : List Message} (h : QueueExec s i effect)
    (hi : Loop.read.side i = true) (hknows : ReaderKnows queued s i)
    (hfront : queued <+: s.toHandler) : Reads queued s effect := by
  have hstate : effect.state.handlerQueue = s.handlerQueue ∧
      effect.state.received = s.received ∧ effect.state.config = s.config := by
    cases h <;> exact ⟨rfl, rfl, rfl⟩
  obtain ⟨hqueue, hreceived, hconfig⟩ := hstate
  obtain ⟨call, hcall, hafter, hnext⟩ := h.roster_own hi
  have hbase : s.config.handler = true → s.toHandler = queued := by
    cases i <;> first | exact hknows | cases hcall
  apply Reads.idle hqueue hreceived hfront
  rcases hnext with ⟨j, hroster, hj⟩ | ⟨result, -, hpushed⟩
  · refine .one hroster (ReaderKnows.congr ?_ hconfig hreceived)
    cases j <;> first | exact hbase | cases hj
  · rw [hpushed]
    obtain ⟨ctx, queue, item, wait, after⟩ := call
    cases after with
    | pong =>
        cases result with
        | none =>
            have hread : ReaderKnows queued s .readFrame := hbase
            exact .one (j := .readFrame) rfl (hread.congr hconfig hreceived)
        | some err => exact .none rfl
    | caller | awaitCompletion | ping => cases hafter

theorem ReceiveExec.reads {queued : List Message} (h : ReceiveExec P s i effect)
    (hi : Loop.read.side i = true) (hknows : ReaderKnows queued s i)
    (hfront : queued <+: s.toHandler) : Reads queued s effect := by
  cases h with
  | readFailed | rejected | sessionClose | handlerCanceled | handlerQueueFull =>
      exact .idle rfl rfl hfront (.none rfl)
  | frameRead frame => exact .idle rfl rfl hfront (.one (j := .receive frame) rfl hknows)
  | @accepted frame clock message hok =>
      have hadded (session : Session) : s.added { s with session := session, received :=
          s.received ++ [message] } = [] := added_of_le le_rfl
      have hnew (session : Session) : Connection.toHandler { s with session := session, received :=
          s.received ++ [message] } = s.toHandler ++ [message].filter Message.toHandler := by
        rw [toHandler, List.filter_append, toHandler]
      refine ⟨?_, ?_⟩
      · rw [hadded, List.append_nil]
        refine .one (j := .dispatch message) rfl fun hhandler => ?_
        rw [hnew, hknows hhandler]
      · rw [hadded, List.append_nil, hnew]
        exact hfront.trans (List.prefix_append _ _)
  | @pong nonce =>
      refine .idle rfl rfl hfront (.one (j := .readFrame) rfl fun hhandler => ?_)
      exact (hknows hhandler).trans (List.append_nil _)
  | @ping nonce =>
      refine .idle rfl rfl hfront (.one (j := .enqueue _) rfl fun hhandler => ?_)
      exact (hknows hhandler).trans (List.append_nil _)
  | @rekeyInit init =>
      refine .idle rfl rfl hfront (.one (j := .readFrame) rfl fun hhandler => ?_)
      exact (hknows hhandler).trans (List.append_nil _)
  | unhandled hnone =>
      refine .idle rfl rfl hfront (.one (j := .readFrame) rfl fun hhandler => ?_)
      rw [hnone] at hhandler
      cases hhandler
  | @handled message hhandler hkind =>
      refine .idle rfl rfl hfront (.one (j := .leaseHandler message) rfl ?_)
      have hseen := hknows hhandler
      rwa [List.filter_cons_of_pos (Message.toHandler_iff.mpr hkind), List.filter_nil] at hseen
  | leaseHandler => exact .idle rfl rfl hfront (.one (j := .checkHandler _) rfl hknows)
  | handlerLive => exact .idle rfl rfl hfront (.one (j := .offerHandler _) rfl hknows)
  | @handlerQueued message hspace =>
      have hadded : s.added { s with handlerQueue := s.handlerQueue ++ [message] } = [message] :=
        List.drop_left
      have hknows : s.toHandler = queued ++ [message] := hknows
      refine ⟨?_, ?_⟩
      · rw [hadded]
        exact .one (j := .readFrame) rfl fun _ => hknows
      · rw [hadded, ← hknows]
        exact List.prefix_rfl
  | _ => cases hi

end Rules

/-! ## The handler -/

/-- The handler side may take the next message. -/
inductive Instr.Ready : Instr → Prop where
  | checkStart (ctx : Context) : Ready (.checkStart ctx)
  | launch (loops : List Loop) (ctx : Context) (h : loops.Nodup) : Ready (.launch loops ctx)
  | handlerLoop : Ready .handlerLoop
  | selectHandler : Ready .selectHandler

/-- The handler loop waits for a bounded call. -/
inductive Instr.AwaitsCall (s : Connection) (channel : Nat) : Instr → Prop where
  | running : AwaitsCall s channel (.awaitHandler channel)
  | overdue (h : s.cancelCause ≠ none) : AwaitsCall s channel (.awaitDetached channel)

/-- The result channel of a bounded call that has not returned. -/
structure Connection.Unanswered (s : Connection) (channel : Nat) : Prop where
  made : channel < s.nextChannel
  silent : ∀ result ∈ s.handlerResults, result.1 ≠ channel

/-- The positions of the handler side, by the instructions that are left of it. -/
inductive HandlerTurn (queued : List Message) (s : Connection) : Multiset Instr → Prop where
  /-- Not started, or at an end. -/
  | rest (hrunning : s.handlersRunning = 0) : HandlerTurn queued s 0
  | ready {j : Instr} (hj : j.Ready) (hrunning : s.handlersRunning = 0)
      (howes : s.Owes queued []) : HandlerTurn queued s {j}
  /-- A message was taken, and the context is to be checked once more. -/
  | taken {message : Message} (hrunning : s.handlersRunning = 0)
      (howes : s.Owes queued [message]) : HandlerTurn queued s {.recheckHandler message}
  | calling {message : Message} (hrunning : s.handlersRunning = 0)
      (hdue : s.invoked ++ [message] <+: queued) (howes : s.Owes queued [message]) :
      HandlerTurn queued s {.callHandler message}
  | inside (hrunning : s.handlersRunning = 1) (howes : s.Owes queued []) :
      HandlerTurn queued s {.handlerInline}
  /-- A bounded call, before and in the handler and after its return. -/
  | invoking {w : Instr} {message : Message} {channel : Nat} (hw : w.AwaitsCall s channel)
      (hopen : s.Unanswered channel) (hrunning : s.handlersRunning = 0)
      (hdue : s.invoked ++ [message] <+: queued) (howes : s.Owes queued [message]) :
      HandlerTurn queued s (w ::ₘ {.invokeHandler message channel})
  | bounded {w : Instr} {channel : Nat} (hw : w.AwaitsCall s channel)
      (hopen : s.Unanswered channel) (hrunning : s.handlersRunning = 1)
      (howes : s.Owes queued []) : HandlerTurn queued s (w ::ₘ {.handlerDetached channel})
  | returned {w : Instr} {channel : Nat} (hw : w.AwaitsCall s channel)
      (hrunning : s.handlersRunning = 0) (howes : s.Owes queued []) : HandlerTurn queued s {w}
  /-- A detached call outlives the loop. -/
  | leftInvoking {front : Multiset Instr} {message : Message} {channel : Nat}
      (hfront : front = 0 ∨ front = {.handlerLoop}) (hcanceled : s.cancelCause ≠ none)
      (hmade : channel < s.nextChannel) (hrunning : s.handlersRunning = 0)
      (hdue : s.invoked ++ [message] <+: queued) :
      HandlerTurn queued s (front + {.invokeHandler message channel})
  | leftRunning {front : Multiset Instr} {channel : Nat}
      (hfront : front = 0 ∨ front = {.handlerLoop}) (hcanceled : s.cancelCause ≠ none)
      (hmade : channel < s.nextChannel) (hrunning : s.handlersRunning = 1) :
      HandlerTurn queued s (front + {.handlerDetached channel})

/-- The loop keeps waiting for its call while a cancellation stands. -/
theorem Instr.AwaitsCall.mono {s s' : Connection} {channel : Nat} {w : Instr}
    (h : w.AwaitsCall s channel) (hcanceled : s.cancelCause ≠ none → s'.cancelCause ≠ none) :
    w.AwaitsCall s' channel := by
  cases h with
  | running => exact .running
  | overdue hoverdue => exact .overdue (hcanceled hoverdue)

/-- What the rest of the connection may do under the handler side. -/
structure HandlerFrame (s s' : Connection) : Prop where
  invoked : s'.invoked = s.invoked
  running : s'.handlersRunning = s.handlersRunning
  results : s'.handlerResults = s.handlerResults
  channel : s.nextChannel ≤ s'.nextChannel
  live : s'.cancelCause = none →
    s.cancelCause = none ∧ s'.handlerQueue = s.handlerQueue ++ s.added s'

namespace HandlerFrame

variable {s s' : Connection} {queued : List Message}

theorem owes {held : List Message} (h : HandlerFrame s s') (howes : s.Owes queued held) :
    s'.Owes (queued ++ s.added s') held := by
  intro hlive
  obtain ⟨hlive, hqueue⟩ := h.live hlive
  rw [h.invoked, hqueue, howes hlive]
  simp

theorem canceled (h : HandlerFrame s s') (hcanceled : s.cancelCause ≠ none) :
    s'.cancelCause ≠ none :=
  fun hlive => hcanceled (h.live hlive).1

theorem due {message : Message} (h : HandlerFrame s s')
    (hdue : s.invoked ++ [message] <+: queued) :
    s'.invoked ++ [message] <+: queued ++ s.added s' := by
  rw [h.invoked]
  exact hdue.trans (List.prefix_append _ _)

theorem awaits {w : Instr} {channel : Nat} (h : HandlerFrame s s')
    (hw : w.AwaitsCall s channel) : w.AwaitsCall s' channel :=
  hw.mono h.canceled

theorem unanswered {channel : Nat} (h : HandlerFrame s s') (hopen : s.Unanswered channel) :
    s'.Unanswered channel := by
  refine ⟨hopen.made.trans_le h.channel, ?_⟩
  rw [h.results]
  exact hopen.silent

theorem turn {left : Multiset Instr} (h : HandlerFrame s s') (hturn : HandlerTurn queued s left) :
    HandlerTurn (queued ++ s.added s') s' left := by
  have hrunning := h.running
  cases hturn with
  | rest hr => exact .rest (hrunning.trans hr)
  | ready hj hr howes => exact .ready hj (hrunning.trans hr) (h.owes howes)
  | taken hr howes => exact .taken (hrunning.trans hr) (h.owes howes)
  | calling hr hdue howes => exact .calling (hrunning.trans hr) (h.due hdue) (h.owes howes)
  | inside hr howes => exact .inside (hrunning.trans hr) (h.owes howes)
  | invoking hw hopen hr hdue howes =>
      exact .invoking (h.awaits hw) (h.unanswered hopen) (hrunning.trans hr) (h.due hdue)
        (h.owes howes)
  | bounded hw hopen hr howes =>
      exact .bounded (h.awaits hw) (h.unanswered hopen) (hrunning.trans hr) (h.owes howes)
  | returned hw hr howes => exact .returned (h.awaits hw) (hrunning.trans hr) (h.owes howes)
  | leftInvoking hfront hcanceled hmade hr hdue =>
      exact .leftInvoking hfront (h.canceled hcanceled) (hmade.trans_le h.channel)
        (hrunning.trans hr) (h.due hdue)
  | leftRunning hfront hcanceled hmade hr =>
      exact .leftRunning hfront (h.canceled hcanceled) (hmade.trans_le h.channel)
        (hrunning.trans hr)

/-- Nothing that concerns the handler is touched. -/
theorem of_same (hinvoked : s'.invoked = s.invoked)
    (hrunning : s'.handlersRunning = s.handlersRunning)
    (hresults : s'.handlerResults = s.handlerResults) (hchannel : s.nextChannel ≤ s'.nextChannel)
    (hcancel : s'.cancelCause = none → s.cancelCause = none)
    (hqueue : s'.handlerQueue = s.handlerQueue) : HandlerFrame s s' := by
  refine ⟨hinvoked, hrunning, hresults, hchannel, fun hlive => ⟨hcancel hlive, ?_⟩⟩
  rw [added_of_le (by rw [hqueue]), List.append_nil, hqueue]

end HandlerFrame

section Handler

variable {P : Primitives} {s : Connection} {i : Instr} {effect : Effect Connection Instr}

/-- Only the handler side calls the handler. -/
theorem Exec.handler_frame (h : Exec P s i effect) (hi : i.loop ≠ some .handler)
    (hdrop : i = .dropHandler → s.cancelCause ≠ none) : HandlerFrame s effect.state := by
  cases h with
  | lifecycle h =>
      cases h with
      | wasStarted => exact .of_same rfl rfl rfl (Nat.le_succ _) id rfl
      | cancel => exact .of_same rfl rfl rfl le_rfl (fun hlive => by cases hlive) rfl
      | dropHandler => exact ⟨rfl, rfl, rfl, le_rfl, fun hlive => absurd hlive (hdrop rfl)⟩
      | _ => exact .of_same rfl rfl rfl le_rfl id rfl
  | queue h | write h => exact h.frame ▸ .of_same rfl rfl rfl le_rfl id rfl
  | receive h =>
      cases h with
      | @handlerQueued message =>
          refine ⟨rfl, rfl, rfl, le_rfl, fun hlive => ⟨hlive, ?_⟩⟩
          have hdrop : (s.handlerQueue ++ [message]).drop s.handlerQueue.length = [message] :=
            List.drop_left
          exact congrArg (s.handlerQueue ++ ·) hdrop.symm
      | selectMessage | callInline | callBounded | inlineReturned | inlinePanicked
      | invokeHandler | detachedReturned | detachedPanicked => exact absurd rfl hi
      | _ => exact .of_same rfl rfl rfl le_rfl id rfl
  | keepalive h => exact h.frame ▸ .of_same rfl rfl rfl le_rfl id rfl

/-- What a step of the handler side leaves. -/
structure Turned (queued : List Message) (others : Multiset Instr)
    (effect : Effect Connection Instr) : Prop where
  turn : HandlerTurn queued effect.state
    (others + roster Loop.handler.side (effect.pushed :: effect.spawned))
  begun : effect.state.invoked <+: queued
  channels : ∀ result ∈ effect.state.handlerResults, result.1 < effect.state.nextChannel

theorem Turned.of_alone {queued : List Message} {left : Multiset Instr}
    (hleft : roster Loop.handler.side (effect.pushed :: effect.spawned) = left)
    (hturn : HandlerTurn queued effect.state left) (hbegun : effect.state.invoked <+: queued)
    (hchannels : ∀ result ∈ effect.state.handlerResults, result.1 < effect.state.nextChannel) :
    Turned queued 0 effect := by
  refine ⟨?_, hbegun, hchannels⟩
  rw [hleft, zero_add]
  exact hturn

theorem cons_eq_pair {ι : Type} {i a b : ι} {others : Multiset ι}
    (h : i ::ₘ others = a ::ₘ {b}) : (i = a ∧ others = {b}) ∨ (i = b ∧ others = {a}) := by
  rcases Multiset.cons_eq_cons.mp h with ⟨hia, hothers⟩ | ⟨-, cs, hothers, hb⟩
  · exact .inl ⟨hia, hothers⟩
  · obtain ⟨hbi, hcs⟩ := (Multiset.singleton_eq_cons_iff _).mp hb
    subst hcs
    exact .inr ⟨hbi.symm, hothers⟩

/-- A detached call with or without its loop. -/
theorem front_cases {i j : Instr} {front others : Multiset Instr}
    (hfront : front = 0 ∨ front = {Instr.handlerLoop}) (h : i ::ₘ others = front + {j}) :
    (i = j ∧ others = front) ∨ (i = .handlerLoop ∧ others = {j}) := by
  rcases hfront with rfl | rfl
  · rw [zero_add] at h
    obtain ⟨hji, hothers⟩ := (Multiset.singleton_eq_cons_iff _).mp h.symm
    exact .inl ⟨hji.symm, hothers⟩
  · rcases cons_eq_pair h with ⟨hloop, hothers⟩ | ⟨hij, hothers⟩
    · exact .inr ⟨hloop, hothers⟩
    · exact .inl ⟨hij, hothers⟩

theorem Connection.Owes.invoke {queued : List Message} {message : Message} {s' : Connection}
    (howes : s.Owes queued [message]) (hinvoked : s'.invoked = s.invoked ++ [message])
    (hqueue : s'.handlerQueue = s.handlerQueue) (hcancel : s'.cancelCause = s.cancelCause) :
    s'.Owes queued [] := by
  intro hlive
  rw [hcancel] at hlive
  rw [hinvoked, hqueue, howes hlive]
  simp

/-- A result in the channel means that the call has returned. -/
theorem Connection.Unanswered.absurd {channel : Nat} {result : Option Error} {Q : Prop}
    (hopen : s.Unanswered channel) (h : (channel, result) ∈ s.handlerResults) : Q :=
  False.elim (hopen.silent _ h rfl)

/-- After a call the loop goes on or shuts the connection down. -/
theorem turned_finish {queued : List Message} {state : Connection}
    (hbegun : state.invoked <+: queued)
    (hchannels : ∀ result ∈ state.handlerResults, result.1 < state.nextChannel)
    (hrunning : state.handlersRunning = 0) (howes : state.Owes queued [])
    (result : Option Error) : Turned queued 0 ⟨state, finishHandler result, []⟩ := by
  cases result with
  | none => exact .of_alone rfl (.ready .handlerLoop hrunning howes) hbegun hchannels
  | some err => exact .of_alone rfl (.rest hrunning) hbegun hchannels

section Turns

variable {queued : List Message} (hbegun : s.invoked <+: queued)
  (hchannels : ∀ result ∈ s.handlerResults, result.1 < s.nextChannel)

include hbegun hchannels

/-- The loop between two calls. -/
theorem ReceiveExec.turn_ready (h : ReceiveExec P s i effect) (hi : i.Ready)
    (hrunning : s.handlersRunning = 0) (howes : s.Owes queued []) : Turned queued 0 effect := by
  cases hi with
  | checkStart | launch => cases h
  | handlerLoop =>
      cases h with
      | loopCanceled => exact .of_alone rfl (.rest hrunning) hbegun hchannels
      | loopLive => exact .of_alone rfl (.ready .selectHandler hrunning howes) hbegun hchannels
  | selectHandler =>
      cases h with
      | selectCanceled => exact .of_alone rfl (.rest hrunning) hbegun hchannels
      | @selectMessage message rest hqueue =>
          refine .of_alone rfl (.taken hrunning fun hlive => ?_) hbegun hchannels
          have hall := howes hlive
          rw [hqueue] at hall
          simpa using hall

/-- The last check before a call. -/
theorem ReceiveExec.turn_taken {message : Message}
    (h : ReceiveExec P s (.recheckHandler message) effect)
    (hrunning : s.handlersRunning = 0) (howes : s.Owes queued [message]) :
    Turned queued 0 effect := by
  cases h with
  | recheckCanceled => exact .of_alone rfl (.rest hrunning) hbegun hchannels
  | recheckLive hlive =>
      refine .of_alone rfl (.calling hrunning ?_ howes) hbegun hchannels
      rw [howes hlive]
      exact List.prefix_append _ _

/-- The call, inline or in a goroutine of its own. -/
theorem ReceiveExec.turn_calling {message : Message}
    (h : ReceiveExec P s (.callHandler message) effect) (hrunning : s.handlersRunning = 0)
    (hdue : s.invoked ++ [message] <+: queued) (howes : s.Owes queued [message]) :
    Turned queued 0 effect := by
  cases h with
  | callInline =>
      have hone : s.handlersRunning + 1 = 1 := by rw [hrunning]
      exact .of_alone rfl (.inside hone (howes.invoke rfl rfl rfl)) hdue hchannels
  | callBounded =>
      have hfresh (r : Nat × Option Error) (hr : r ∈ s.handlerResults) : r.1 ≠ s.nextChannel :=
        (hchannels r hr).ne
      exact .of_alone rfl (.invoking .running ⟨Nat.lt_succ_self _, hfresh⟩ hrunning hdue howes)
        hbegun fun r hr => (hchannels r hr).trans (Nat.lt_succ_self _)

theorem ReceiveExec.turn_inside (h : ReceiveExec P s .handlerInline effect)
    (hrunning : s.handlersRunning = 1) (howes : s.Owes queued []) : Turned queued 0 effect := by
  cases h with
  | @inlineReturned n hn | @inlinePanicked n hn =>
      have hzero : n = 0 := by omega
      apply turned_finish
      · exact hbegun
      · exact hchannels
      · exact hzero
      · exact howes

/-- The loop while its call has not begun. -/
theorem ReceiveExec.turn_invoking {message : Message} {channel : Nat}
    (h : ReceiveExec P s i effect) (hi : i.AwaitsCall s channel) (hopen : s.Unanswered channel)
    (hrunning : s.handlersRunning = 0) (hdue : s.invoked ++ [message] <+: queued)
    (howes : s.Owes queued [message]) :
    Turned queued {.invokeHandler message channel} effect := by
  cases hi with
  | running =>
      cases h with
      | handlerReturned hresult => exact hopen.absurd hresult
      | handlerOverdue hcanceled =>
          refine ⟨?_, hbegun, hchannels⟩
          rw [add_comm]
          exact .invoking (.overdue hcanceled) hopen hrunning hdue howes
  | overdue hcanceled =>
      cases h with
      | handlerLate hresult => exact hopen.absurd hresult
      | handlerAbandoned =>
          refine ⟨?_, hbegun, hchannels⟩
          rw [add_comm]
          exact .leftInvoking (.inr rfl) hcanceled hopen.made hrunning hdue

/-- The loop while its call runs. -/
theorem ReceiveExec.turn_bounded {channel : Nat} (h : ReceiveExec P s i effect)
    (hi : i.AwaitsCall s channel) (hopen : s.Unanswered channel)
    (hrunning : s.handlersRunning = 1) (howes : s.Owes queued []) :
    Turned queued {.handlerDetached channel} effect := by
  cases hi with
  | running =>
      cases h with
      | handlerReturned hresult => exact hopen.absurd hresult
      | handlerOverdue hcanceled =>
          refine ⟨?_, hbegun, hchannels⟩
          rw [add_comm]
          exact .bounded (.overdue hcanceled) hopen hrunning howes
  | overdue hcanceled =>
      cases h with
      | handlerLate hresult => exact hopen.absurd hresult
      | handlerAbandoned =>
          refine ⟨?_, hbegun, hchannels⟩
          rw [add_comm]
          exact .leftRunning (.inr rfl) hcanceled hopen.made hrunning

/-- The loop after its call has returned. -/
theorem ReceiveExec.turn_returned {channel : Nat} (h : ReceiveExec P s i effect)
    (hi : i.AwaitsCall s channel) (hrunning : s.handlersRunning = 0)
    (howes : s.Owes queued []) : Turned queued 0 effect := by
  cases hi with
  | running =>
      cases h with
      | handlerReturned => exact turned_finish hbegun hchannels hrunning howes _
      | handlerOverdue hcanceled =>
          exact .of_alone rfl (.returned (.overdue hcanceled) hrunning howes) hbegun hchannels
  | overdue =>
      cases h with
      | handlerLate | handlerAbandoned => exact turned_finish hbegun hchannels hrunning howes _

omit hbegun in
/-- The goroutine of a bounded call enters the handler. -/
theorem ReceiveExec.turn_invoke {message : Message} {channel : Nat} {others : Multiset Instr}
    (h : ReceiveExec P s (.invokeHandler message channel) effect)
    (hdue : s.invoked ++ [message] <+: queued)
    (hnext : ∀ s' : Connection, s'.invoked = s.invoked ++ [message] →
      s'.handlerQueue = s.handlerQueue → s'.cancelCause = s.cancelCause →
      s'.nextChannel = s.nextChannel → s'.handlerResults = s.handlerResults →
      s'.handlersRunning = s.handlersRunning + 1 →
      HandlerTurn queued s' (others + {.handlerDetached channel})) :
    Turned queued others effect := by
  cases h with
  | invokeHandler => exact ⟨hnext _ rfl rfl rfl rfl rfl rfl, hdue, hchannels⟩

/-- The goroutine of a bounded call leaves the handler. -/
theorem ReceiveExec.turn_return {channel : Nat} {others : Multiset Instr}
    (h : ReceiveExec P s (.handlerDetached channel) effect) (hmade : channel < s.nextChannel)
    (hrunning : s.handlersRunning = 1)
    (hnext : ∀ s' : Connection, s'.invoked = s.invoked → s'.handlerQueue = s.handlerQueue →
      s'.cancelCause = s.cancelCause → s'.handlersRunning = 0 → HandlerTurn queued s' others) :
    Turned queued others effect := by
  cases h with
  | @detachedReturned channel n hn | @detachedPanicked channel n hn =>
      have hzero : n = 0 := by omega
      refine ⟨?_, hbegun, fun r hr => ?_⟩
      · exact (add_zero others).symm ▸ hnext _ rfl rfl rfl hzero
      · rcases List.mem_append.mp hr with hold | hnew
        · exact hchannels r hold
        · rw [List.mem_singleton.mp hnew]
          exact hmade

/-- Every step of the handler side. -/
theorem ReceiveExec.turn {others : Multiset Instr} (h : ReceiveExec P s i effect)
    (hturn : HandlerTurn queued s (i ::ₘ others)) : Turned queued others effect := by
  generalize hleft : i ::ₘ others = left at hturn
  cases hturn with
  | rest => cases Multiset.cons_ne_zero hleft
  | ready hj hrunning howes =>
      obtain ⟨rfl, rfl⟩ := (Multiset.singleton_eq_cons_iff _).mp hleft.symm
      exact h.turn_ready hbegun hchannels hj hrunning howes
  | taken hrunning howes =>
      obtain ⟨rfl, rfl⟩ := (Multiset.singleton_eq_cons_iff _).mp hleft.symm
      exact h.turn_taken hbegun hchannels hrunning howes
  | calling hrunning hdue howes =>
      obtain ⟨rfl, rfl⟩ := (Multiset.singleton_eq_cons_iff _).mp hleft.symm
      exact h.turn_calling hbegun hchannels hrunning hdue howes
  | inside hrunning howes =>
      obtain ⟨rfl, rfl⟩ := (Multiset.singleton_eq_cons_iff _).mp hleft.symm
      exact h.turn_inside hbegun hchannels hrunning howes
  | @invoking w message channel hw hopen hrunning hdue howes =>
      rcases cons_eq_pair hleft with ⟨rfl, rfl⟩ | ⟨rfl, rfl⟩
      · exact h.turn_invoking hbegun hchannels hw hopen hrunning hdue howes
      · refine h.turn_invoke hchannels hdue fun s' hinvoked hqueue hcancel hnext hresults
          hone => ?_
        have hframe : w.AwaitsCall s' channel := hw.mono fun hcanceled => hcancel ▸ hcanceled
        exact .bounded hframe ⟨hnext ▸ hopen.made, hresults ▸ hopen.silent⟩
          (by rw [hone, hrunning]) (howes.invoke hinvoked hqueue hcancel)
  | @bounded w channel hw hopen hrunning howes =>
      rcases cons_eq_pair hleft with ⟨rfl, rfl⟩ | ⟨rfl, rfl⟩
      · exact h.turn_bounded hbegun hchannels hw hopen hrunning howes
      · refine h.turn_return hbegun hchannels hopen.made hrunning fun s' hinvoked hqueue hcancel
          hzero => ?_
        have hframe : w.AwaitsCall s' channel := hw.mono fun hcanceled => hcancel ▸ hcanceled
        refine .returned hframe hzero fun hlive => ?_
        rw [hinvoked, hqueue]
        exact howes (hcancel ▸ hlive)
  | returned hw hrunning howes =>
      obtain ⟨rfl, rfl⟩ := (Multiset.singleton_eq_cons_iff _).mp hleft.symm
      exact h.turn_returned hbegun hchannels hw hrunning howes
  | @leftInvoking front message channel hfront hcanceled hmade hrunning hdue =>
      rcases front_cases hfront hleft with ⟨rfl, rfl⟩ | ⟨rfl, rfl⟩
      · refine h.turn_invoke hchannels hdue fun s' _ _ hcancel hnext _ hone => ?_
        exact .leftRunning hfront (hcancel ▸ hcanceled) (hnext ▸ hmade) (by rw [hone, hrunning])
      · cases h with
        | loopCanceled =>
            refine ⟨?_, hbegun, hchannels⟩
            rw [add_comm]
            exact .leftInvoking (.inl rfl) hcanceled hmade hrunning hdue
        | loopLive hlive => exact absurd hlive hcanceled
  | @leftRunning front channel hfront hcanceled hmade hrunning =>
      rcases front_cases hfront hleft with ⟨rfl, rfl⟩ | ⟨rfl, rfl⟩
      · refine h.turn_return hbegun hchannels hmade hrunning fun s' _ _ hcancel hzero => ?_
        rcases hfront with rfl | rfl
        · exact .rest hzero
        · exact .ready .handlerLoop hzero fun hlive => absurd (hcancel ▸ hlive) hcanceled
      · cases h with
        | loopCanceled =>
            refine ⟨?_, hbegun, hchannels⟩
            rw [add_comm]
            exact .leftRunning (.inl rfl) hcanceled hmade hrunning
        | loopLive hlive => exact absurd hlive hcanceled

end Turns

end Handler

/-! ## Emptying the queue -/

/-- The instruction drops a message of the handler queue. -/
def Instr.drops : Instr → Bool
  | .dropHandler => true
  | _ => false

section Drops

variable {P : Primitives} {s : Connection} {i : Instr} {effect : Effect Connection Instr}

/-- Only `shutdown` empties the handler queue. -/
theorem Exec.roster_drops (h : Exec P s i effect) (hi : i ≠ .dropHandlers) :
    roster Instr.drops (effect.pushed :: effect.spawned) = 0 := by
  cases h with
  | lifecycle h =>
      cases h with
      | dropMore | dropNone => exact absurd rfl hi
      | @launchLoop loop => cases loop <;> rfl
      | _ => rfl
  | queue h =>
      cases h with
      | @returnEnqueue call result =>
          obtain ⟨_, _, ⟨_, _, completion⟩, _, after⟩ := call
          cases after <;> cases result <;> cases completion <;> rfl
      | _ => rfl
  | write h =>
      cases h with
      | @finishWrite job err => cases job <;> cases err <;> rfl
      | _ => rfl
  | receive h =>
      cases h with
      | inlineReturned _ result | @handlerReturned _ result | @handlerLate _ result =>
          cases result <;> rfl
      | _ => rfl
  | keepalive h => cases h <;> rfl

end Drops

/-! ## Whole runs -/

section Runs

variable {P : Primitives}

/-- What holds in every pool that a new connection reaches, if `queued` was put into the
handler queue on the way. -/
structure Dispatching (queued : List Message) (pool : Pool Connection Instr) : Prop where
  sound : Sound pool
  channels : ∀ result ∈ pool.state.handlerResults, result.1 < pool.state.nextChannel
  begun : pool.state.invoked <+: queued
  front : queued <+: pool.state.toHandler
  reader : Sole Loop.read.side (ReaderKnows queued pool.state) pool.threads
  turn : HandlerTurn queued pool.state (roster Loop.handler.side pool.threads)
  dropping : pool.state.leased = true ∨ roster Instr.drops pool.threads = 0
  idle : pool.state.startOnce = .idle →
    roster Loop.read.side pool.threads = 0 ∧ roster Loop.handler.side pool.threads = 0 ∧
      pool.state.toHandler = queued ∧ pool.state.Owes queued []

theorem dispatching_start (session : Session) (config : ConnectionConfig) :
    Dispatching [] (connectionStart session config) where
  sound := sound_start session config
  channels _ h := absurd h List.not_mem_nil
  begun := List.prefix_rfl
  front := List.prefix_rfl
  reader := .none rfl
  turn := .rest rfl
  dropping := .inr rfl
  idle _ := ⟨rfl, rfl, rfl, fun _ => rfl⟩

section Step

variable {s : Connection} {threads : List (List Instr)} {k : Nat} {i : Instr} {rest : List Instr}
  {effect : Effect Connection Instr} {queued : List Message}

/-- The reader goes one step, or nobody touches what it knows. -/
theorem Dispatching.reader_step (h : Dispatching queued ⟨s, threads⟩)
    (hk : threads[k]? = some (i :: rest)) (hexec : Exec P s i effect) :
    Sole Loop.read.side (ReaderKnows (queued ++ s.added effect.state) effect.state)
        (threads.set k (effect.pushed ++ rest) ++ effect.spawned) ∧
      queued ++ s.added effect.state <+: effect.state.toHandler := by
  have hconfig := hexec.config_eq
  cases hi : Loop.read.side i with
  | false =>
      obtain ⟨hreceived, hadded⟩ := hexec.reader_frame hi
      have hsame : effect.state.toHandler = s.toHandler := by rw [toHandler, hreceived, toHandler]
      rw [hadded, List.append_nil]
      refine ⟨?_, hsame ▸ h.front⟩
      rcases hexec.roster_other hi with ⟨ctx, hidle, -, hroster⟩ | hfree
      · obtain ⟨hnone, -, hall, -⟩ := h.idle hidle
        exact .enter hnone hk hi (.one hroster fun _ => hsame.trans hall)
      · exact h.reader.other hk hi hfree fun j _ hj => hj.congr hconfig hreceived
  | true =>
      obtain ⟨-, hknows⟩ := h.reader.of_mem (List.mem_of_getElem? hk) List.mem_cons_self hi
      cases hexec with
      | lifecycle hexec =>
          obtain ⟨hsole, hfront⟩ := hexec.reads hi hknows h.front
          exact ⟨h.reader.own hk hi hsole, hfront⟩
      | queue hexec =>
          obtain ⟨hsole, hfront⟩ := hexec.reads hi hknows h.front
          exact ⟨h.reader.own hk hi hsole, hfront⟩
      | write hexec => cases hexec <;> cases hi
      | receive hexec =>
          obtain ⟨hsole, hfront⟩ := hexec.reads hi hknows h.front
          exact ⟨h.reader.own hk hi hsole, hfront⟩
      | keepalive hexec => cases hexec <;> cases hi

/-- Where nothing is left of the handler side, no handler runs. -/
theorem HandlerTurn.running_eq_zero (h : HandlerTurn queued s 0) : s.handlersRunning = 0 := by
  generalize hleft : (0 : Multiset Instr) = left at h
  cases h with
  | rest hrunning => exact hrunning
  | ready | taken | calling | inside | returned => cases (Multiset.singleton_ne_zero _ hleft.symm)
  | invoking | bounded => cases (Multiset.cons_ne_zero hleft.symm)
  | leftInvoking | leftRunning =>
      have hcard := congrArg Multiset.card hleft
      simp at hcard

/-- The instruction of `Start` is alone on the handler side. -/
theorem HandlerTurn.ready_of_starts {others : Multiset Instr}
    (h : HandlerTurn queued s (i ::ₘ others)) (hi : Loop.handler.starts i = true) :
    others = 0 ∧ i.Ready ∧ s.handlersRunning = 0 ∧ s.Owes queued [] := by
  generalize hleft : i ::ₘ others = left at h
  cases h with
  | rest => cases Multiset.cons_ne_zero hleft
  | ready hj hrunning howes =>
      obtain ⟨rfl, rfl⟩ := (Multiset.singleton_eq_cons_iff _).mp hleft.symm
      exact ⟨rfl, hj, hrunning, howes⟩
  | taken | calling | inside =>
      obtain ⟨rfl, rfl⟩ := (Multiset.singleton_eq_cons_iff _).mp hleft.symm
      cases hi
  | returned hw =>
      obtain ⟨rfl, rfl⟩ := (Multiset.singleton_eq_cons_iff _).mp hleft.symm
      cases hw <;> cases hi
  | invoking hw | bounded hw =>
      rcases cons_eq_pair hleft with ⟨rfl, rfl⟩ | ⟨rfl, rfl⟩
      · cases hw <;> cases hi
      · cases hi
  | leftInvoking hfront | leftRunning hfront =>
      rcases front_cases hfront hleft with ⟨rfl, rfl⟩ | ⟨rfl, rfl⟩ <;> cases hi

/-- The launch of the handler loop. -/
theorem LifecycleExec.turn {others : Multiset Instr} (h : LifecycleExec s i effect)
    (hi : Loop.handler.side i = true) (hturn : HandlerTurn queued s (i ::ₘ others))
    (hframe : HandlerFrame s effect.state) :
    HandlerTurn (queued ++ s.added effect.state) effect.state
      (others + roster Loop.handler.side (effect.pushed :: effect.spawned)) := by
  have hstarts : Loop.handler.starts i = true := by
    simpa [Loop.side, h.loop_eq] using hi
  obtain ⟨rfl, hready, hrunning, howes⟩ := hturn.ready_of_starts hstarts
  have hnext : Sole Loop.handler.side Instr.Ready (effect.pushed :: effect.spawned) := by
    apply h.launches hi
    · exact fun ctx _ => .launch _ ctx (loops_nodup _)
    · rintro loops ctx rfl
      cases hready with
      | launch _ _ hnodup => exact hnodup
    · rintro loop loops ctx rfl
      cases hready with
      | launch _ _ hnodup => exact ⟨.launch _ _ (List.nodup_cons.mp hnodup).2, .handlerLoop⟩
  rw [zero_add]
  rcases hnext with hnone | ⟨j, hone, hj⟩
  · rw [hnone]
    exact .rest (hframe.running.trans hrunning)
  · rw [hone]
    exact .ready hj (hframe.running.trans hrunning) (hframe.owes howes)

/-- The handler queue is emptied under a canceled context only. -/
theorem Dispatching.drop_canceled (h : Dispatching queued ⟨s, threads⟩)
    (hk : threads[k]? = some (i :: rest)) : i = .dropHandler → s.cancelCause ≠ none := by
  rintro rfl
  rcases h.dropping with hleased | hnone
  · exact h.sound.leased hleased .canceled (by simp)
  · exact absurd List.mem_cons_self (notMem_of_roster hnone rfl (List.mem_of_getElem? hk))

/-- The handler side goes one step, or nobody touches what it knows. -/
theorem Dispatching.turn_step (h : Dispatching queued ⟨s, threads⟩)
    (hk : threads[k]? = some (i :: rest)) (hexec : Exec P s i effect) :
    HandlerTurn (queued ++ s.added effect.state) effect.state
        (roster Loop.handler.side (threads.set k (effect.pushed ++ rest) ++ effect.spawned)) ∧
      effect.state.invoked <+: queued ++ s.added effect.state ∧
      ∀ result ∈ effect.state.handlerResults, result.1 < effect.state.nextChannel := by
  have hdrop := h.drop_canceled hk
  have hframed (hne : i.loop ≠ some .handler) :
      effect.state.invoked <+: queued ++ s.added effect.state ∧
        ∀ result ∈ effect.state.handlerResults, result.1 < effect.state.nextChannel := by
    have hframe := hexec.handler_frame hne hdrop
    rw [hframe.invoked, hframe.results]
    exact ⟨h.begun.trans (List.prefix_append _ _),
      fun r hr => (h.channels r hr).trans_le hframe.channel⟩
  cases hi : Loop.handler.side i with
  | false =>
      have hne := Loop.loop_ne_of_side hi
      have hframe := hexec.handler_frame hne hdrop
      refine ⟨?_, hframed hne⟩
      rw [roster_step_other _ _ hk hi]
      rcases hexec.roster_other hi with ⟨ctx, hidle, -, hroster⟩ | hfree
      · obtain ⟨-, hnone, -, howes⟩ := h.idle hidle
        have hturn := h.turn
        rw [hnone] at hturn ⊢
        rw [zero_add, hroster]
        exact .ready (.checkStart ctx) (hframe.running.trans hturn.running_eq_zero)
          (hframe.owes howes)
      · rw [hfree, add_zero]
        exact hframe.turn h.turn
  | true =>
      obtain ⟨others, hothers, hstep⟩ :=
        roster_step_own effect.pushed effect.spawned hk hi
      have hturn := h.turn
      rw [hothers] at hturn
      rw [hstep]
      cases hexec with
      | lifecycle hrule =>
          have hne : i.loop ≠ some .handler := by simp [hrule.loop_eq]
          have hframe := Exec.handler_frame (P := P) (.lifecycle hrule) hne hdrop
          exact ⟨hrule.turn hi hturn hframe, hframed hne⟩
      | queue hrule =>
          obtain ⟨⟨_, _, _, _, after⟩, -, hafter, -⟩ := hrule.roster_own hi
          cases after <;> cases hafter
      | write hrule | keepalive hrule => exact absurd hi (by simp [hrule.side_other])
      | receive hrule =>
          have hread : Loop.read.side i = false := by
            cases hrule <;> first | rfl | cases hi
          obtain ⟨-, hadded⟩ := Exec.reader_frame (.receive hrule) hread
          rw [hadded, List.append_nil]
          obtain ⟨hnext, hbegun, hchannels⟩ := hrule.turn h.begun h.channels hturn
          exact ⟨hnext, hbegun, hchannels⟩

theorem Dispatching.dropping_step (h : Dispatching queued ⟨s, threads⟩)
    (hk : threads[k]? = some (i :: rest)) (hexec : Exec P s i effect) :
    effect.state.leased = true ∨
      roster Instr.drops (threads.set k (effect.pushed ++ rest) ++ effect.spawned) = 0 := by
  have hleased := hexec.holds (h.sound.timely hk) .leased
  by_cases hi : i = .dropHandlers
  · -- `shutdown` holds the exclusive lease when it comes to the handler queue
    subst hi
    have hneeds := (h.sound.supported _ (List.mem_of_getElem? hk)).1
    exact .inl (hleased (hneeds .leased (by simp)))
  · rcases h.dropping with hold | hnone
    · exact .inl (hleased hold)
    · right
      cases hdrops : i.drops with
      | true =>
          exact absurd List.mem_cons_self (notMem_of_roster hnone hdrops (List.mem_of_getElem? hk))
      | false =>
          rw [roster_step_other _ _ hk hdrops, hexec.roster_drops hi, add_zero]
          exact hnone

theorem Dispatching.idle_step (h : Dispatching queued ⟨s, threads⟩)
    (hk : threads[k]? = some (i :: rest)) (hexec : Exec P s i effect)
    (hidle : effect.state.startOnce = .idle) :
    roster Loop.read.side (threads.set k (effect.pushed ++ rest) ++ effect.spawned) = 0 ∧
      roster Loop.handler.side (threads.set k (effect.pushed ++ rest) ++ effect.spawned) = 0 ∧
      effect.state.toHandler = queued ++ s.added effect.state ∧
      effect.state.Owes (queued ++ s.added effect.state) [] := by
  obtain ⟨hread, hhandler, hall, howes⟩ := h.idle (hexec.idle_of_idle hidle)
  obtain ⟨hreadSide, hread'⟩ := hexec.roster_idle hk hread hidle
  obtain ⟨hhandlerSide, hhandler'⟩ := hexec.roster_idle hk hhandler hidle
  obtain ⟨hreceived, hadded⟩ := hexec.reader_frame hreadSide
  have hframe := hexec.handler_frame (Loop.loop_ne_of_side hhandlerSide) (h.drop_canceled hk)
  refine ⟨hread', hhandler', ?_, hframe.owes howes⟩
  rw [hadded, List.append_nil, toHandler, hreceived]
  exact hall

/-- What a call or the end of a context leaves alone. -/
theorem Dispatching.ambient_step {s' : Connection} {spawned : List (List Instr)}
    (h : Dispatching queued ⟨s, threads⟩) (hambient : Ambient s s' spawned)
    (hsound : Sound ⟨s', threads ++ spawned⟩) : Dispatching queued ⟨s', threads ++ spawned⟩ := by
  have hframe : HandlerFrame s s' ∧ s.added s' = [] := by
    cases hambient with
    | call => exact ⟨.of_same rfl rfl rfl (Nat.le_succ _) id rfl, added_of_le le_rfl⟩
    | cancelCaller => exact ⟨.of_same rfl rfl rfl le_rfl id rfl, added_of_le le_rfl⟩
  obtain ⟨hframe, hadded⟩ := hframe
  have hloops (l : Loop) : roster l.side spawned = 0 := by
    cases hambient with
    | call api => exact api.roster_program _ l
    | cancelCaller => rfl
  have hdrops : roster Instr.drops spawned = 0 := by
    cases hambient with
    | call api => cases api <;> rfl
    | cancelCaller => rfl
  have hsame : s'.config = s.config ∧ s'.received = s.received ∧ s'.startOnce = s.startOnce ∧
      s'.leased = s.leased := by
    cases hambient <;> exact ⟨rfl, rfl, rfl, rfl⟩
  obtain ⟨hconfig, hreceived, honce, hleased⟩ := hsame
  have htoHandler : s'.toHandler = s.toHandler := by rw [toHandler, hreceived, toHandler]
  have hturn := hframe.turn h.turn
  rw [hadded, List.append_nil] at hturn
  refine ⟨hsound, ?_, ?_, ?_, ?_, ?_, ?_, fun hidle => ?_⟩
  · intro result hresult
    rw [show s'.handlerResults = s.handlerResults from hframe.results] at hresult
    exact (h.channels result hresult).trans_le hframe.channel
  · rw [show s'.invoked = s.invoked from hframe.invoked]
    exact h.begun
  · rw [show s'.toHandler = s.toHandler from htoHandler]
    exact h.front
  · exact h.reader.spawn (hloops _) fun j _ hj => hj.congr hconfig hreceived
  · rw [roster_append, hloops, add_zero]
    exact hturn
  · rw [roster_append, hdrops, add_zero, show s'.leased = s.leased from hleased]
    exact h.dropping
  · obtain ⟨hread, hhandler, hall, howes⟩ := h.idle (honce.symm.trans hidle)
    have howes' := hframe.owes howes
    rw [hadded, List.append_nil] at howes'
    rw [roster_append, roster_append, hloops, hloops, add_zero, add_zero]
    exact ⟨hread, hhandler, htoHandler.trans hall, howes'⟩

end Step

theorem Dispatching.step {queued : List Message} {before after : Pool Connection Instr}
    (h : Dispatching queued before) (hstep : (connectionMachine P).Step before after) :
    ∃ queued', Dispatching queued' after := by
  have hsound := h.sound.step hstep
  cases hstep with
  | @thread s threads k i rest effect hk hexec =>
      have hexec : Exec P s i effect := hexec
      obtain ⟨hreader, hfront⟩ := h.reader_step hk hexec
      obtain ⟨hturn, hbegun, hchannels⟩ := h.turn_step hk hexec
      exact ⟨queued ++ s.added effect.state, hsound, hchannels, hbegun, hfront, hreader, hturn,
        h.dropping_step hk hexec, h.idle_step hk hexec⟩
  | ambient hambient => exact ⟨queued, h.ambient_step hambient hsound⟩

theorem dispatching_of_reaches {session : Session} {config : ConnectionConfig}
    {pool : Pool Connection Instr}
    (h : (connectionMachine P).Reaches (connectionStart session config) pool) :
    ∃ queued, Dispatching queued pool := by
  refine Machine.invariant_of_step (I := fun pool => ∃ queued, Dispatching queued pool) ?_
    ⟨[], dispatching_start session config⟩ h
  rintro before after ⟨queued, hbefore⟩ hstep
  exact hbefore.step hstep

/-- The instructions of a goroutine that is inside of the handler. -/
def Instr.inHandler : Instr → Bool
  | .handlerInline | .handlerDetached _ => true
  | _ => false

/-- The counter of the running calls is the number of goroutines inside of the handler. -/
theorem HandlerTurn.inHandler_card {queued : List Message} {s : Connection}
    {left : Multiset Instr} (h : HandlerTurn queued s left) :
    (left.filter (Instr.inHandler · = true)).card = s.handlersRunning ∧ s.handlersRunning ≤ 1 := by
  have hcount {n : Nat} (hn : n ≤ 1) (hr : s.handlersRunning = n)
      (hcard : (left.filter (Instr.inHandler · = true)).card = n) :
      (left.filter (Instr.inHandler · = true)).card = s.handlersRunning ∧
        s.handlersRunning ≤ 1 := by
    rw [hr]
    exact ⟨hcard, hn⟩
  cases h with
  | rest hr => exact hcount zero_le_one hr rfl
  | ready hj hr => cases hj <;> exact hcount zero_le_one hr rfl
  | taken hr | calling hr => exact hcount zero_le_one hr rfl
  | inside hr => exact hcount le_rfl hr rfl
  | invoking hw _ hr | returned hw hr => cases hw <;> exact hcount zero_le_one hr rfl
  | bounded hw _ hr => cases hw <;> exact hcount le_rfl hr rfl
  | leftInvoking hfront _ _ hr => rcases hfront with rfl | rfl <;> exact hcount zero_le_one hr rfl
  | leftRunning hfront _ _ hr => rcases hfront with rfl | rfl <;> exact hcount le_rfl hr rfl

/-- In every interleaving the handler is called for a front of the messages it is meant for, in
the order in which `Session.Receive` returned them, and at most one goroutine is inside of
it, be it the loop or a call that was detached. -/
theorem handler_dispatch_serial (P : Primitives) (session : Session) (config : ConnectionConfig)
    (pool : Pool Connection Instr)
    (h : (connectionMachine P).Reaches (connectionStart session config) pool) :
    pool.state.invoked <+: pool.state.received.filter (fun message =>
        message.kind == .encryptedData || message.kind == .ack || message.kind == .error) ∧
      (∀ message ∈ pool.state.invoked,
        message.kind ≠ .pingPong ∧ message.kind ≠ .rekeyInit ∧ message.kind ≠ .sessionClose) ∧
      (roster Instr.inHandler pool.threads).card = pool.state.handlersRunning ∧
      pool.state.handlersRunning ≤ 1 := by
  obtain ⟨queued, hdispatching⟩ := dispatching_of_reaches h
  have hfront : pool.state.invoked <+: pool.state.toHandler :=
    hdispatching.begun.trans hdispatching.front
  refine ⟨hfront, ?_, ?_⟩
  · intro message hmessage
    have hkind : message.toHandler = true := (List.mem_filter.mp (hfront.subset hmessage)).2
    rcases Wire.Message.toHandler_iff.mp hkind with hkind | hkind | hkind <;> simp [hkind]
  · have hside : ∀ j : Instr, j.inHandler = true → Loop.handler.side j = true := by
      intro j hj
      cases j <;> first | rfl | cases hj
    rw [roster_filter hside]
    exact hdispatching.turn.inHandler_card

/-- A configuration with a handler that may be left behind at shutdown. -/
def handlerConfig : ConnectionConfig :=
  { plainConfig with handler := true, handlerShutdownTimeout := 1 }

/-- An acknowledgement of the peer. -/
def sampleAck : Frame :=
  Packet.frame transparent ⟨MessageType.ack, sampleSecrets.sessionID, 1, 1 :: putUint64 5, []⟩
    sampleSecrets.receiveKey

/-- The handler is called for an acknowledgement, and the connection is aborted during the
call, which the loop leaves behind. -/
theorem handler_detached :
    (connectionMachine transparent).Leads
      (fun pool => pool.state.invoked = [.ack ⟨[5]⟩] ∧ pool.state.handlersRunning = 1 ∧
        pool.state.cancelCause ≠ none ∧ [.handlerLoop, .exit .handler] ∈ pool.threads)
      (connectionStart sampleSession handlerConfig) := by
  refine .step (.ambient (.call (.start .background))) ?_
  refine .first (.lifecycle (.startFirst rfl)) ?_
  refine .first (.lifecycle (.startLive rfl)) ?_
  refine .first (.lifecycle .storeStarted) ?_
  refine .first (.lifecycle .launchLoop) ?_
  refine .first (.lifecycle .launchLoop) ?_
  refine .first (.lifecycle .launchLoop) ?_
  refine .first (.lifecycle .launchLoop) ?_
  -- the read loop is the second goroutine
  refine .second (.receive (.frameRead sampleAck)) ?_
  refine .second (.receive (.accepted ⟨0, 0, 0⟩ rfl)) ?_
  refine .second (.receive .noteActivity) ?_
  refine .second (.receive (.handled rfl (.inr (.inl rfl)))) ?_
  refine .second (.receive (.leaseHandler rfl)) ?_
  refine .second (.receive (.handlerLive rfl)) ?_
  refine .second (.receive (.handlerQueued (show 0 < 16 by decide))) ?_
  -- the handler loop is the fifth, and the call gets a goroutine of its own
  refine .after [_, _, _, _] (.receive (.loopLive rfl)) ?_
  refine .after [_, _, _, _] (.receive (.selectMessage rfl)) ?_
  refine .after [_, _, _, _] (.receive (.recheckLive rfl)) ?_
  refine .after [_, _, _, _] (.receive (.callBounded (by decide))) ?_
  refine .after [_, _, _, _, _] (.receive .invokeHandler) ?_
  refine .step (.ambient (.call (.abort Sentinel.connectionClosed.bare))) ?_
  refine .after [_, _, _, _, _, _] (.lifecycle .recordTerminal) ?_
  refine .after [_, _, _, _, _, _] (.lifecycle (.shutdownFirst rfl)) ?_
  refine .after [_, _, _, _, _, _] (.lifecycle .storeClosing) ?_
  refine .after [_, _, _, _, _, _] (.lifecycle .cancel) ?_
  refine .after [_, _, _, _] (.receive (.handlerOverdue (by simp))) ?_
  refine .after [_, _, _, _] (.receive .handlerAbandoned) ?_
  exact .here ⟨rfl, rfl, by simp, by simp [finishHandler]⟩

theorem handler_dispatch_serial_detached :
    ∃ pool, (connectionMachine transparent).Reaches (connectionStart sampleSession handlerConfig)
        pool ∧
      pool.state.invoked = [.ack ⟨[5]⟩] ∧ pool.state.cancelCause ≠ none ∧
      [.handlerLoop, .exit .handler] ∈ pool.threads ∧
      (roster Instr.inHandler pool.threads).card = 1 := by
  obtain ⟨pool, hreach, hinvoked, hrunning, hcanceled, hloop⟩ := handler_detached
  obtain ⟨-, -, hcard, -⟩ :=
    handler_dispatch_serial transparent sampleSession handlerConfig pool hreach
  exact ⟨pool, hreach, hinvoked, hcanceled, hloop, hcard.trans hrunning⟩

end Runs

end DgProto
