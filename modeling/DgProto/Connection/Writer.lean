import DgProto.Connection.Lifecycle

/-!
# The octets of the writer

One goroutine writes to the transport, and it writes one frame after the other.  The
invariant `Streaming` says what is on the wire in every interleaving: the layouts of all
frames that were begun, in their order, where only the last one may be incomplete.  A
frame for which `WriteFrame` returned nil is complete, and the frame that carries the
`SessionClose` of a close request is the last one that is begun.

The goroutine that holds the token of the writer knows more (`Instr.Asserts`); nobody
else touches what it knows.
-/

namespace DgProto

open Library Wire Crypto Connection

/-- The frame carries the `SessionClose` of a close request. -/
def SentFrame.isFinal (frame : SentFrame) : Bool :=
  match frame.job with
  | .close _ => !frame.emission.isRekey
  | .queued _ _ => false

/-- The layouts of the frames, one after the other. -/
def sentOctets (frames : List SentFrame) : List UInt8 :=
  frames.flatMap fun frame => frame.emission.frame.octets

@[simp] theorem sentOctets_nil : sentOctets [] = [] := rfl

@[simp] theorem sentOctets_append (frames frames' : List SentFrame) :
    sentOctets (frames ++ frames') = sentOctets frames ++ sentOctets frames' := by
  simp [sentOctets]

@[simp] theorem sentOctets_singleton (frame : SentFrame) :
    sentOctets [frame] = frame.emission.frame.octets := by
  simp [sentOctets]

theorem sentOctets_prefix {frames frames' : List SentFrame} (h : frames <+: frames') :
    sentOctets frames <+: sentOctets frames' := by
  obtain ⟨rest, rfl⟩ := h
  rw [sentOctets_append]
  exact List.prefix_append _ _

/-- Every frame that was begun is complete, and none of them was to be the last. -/
structure Connection.Between (s : Connection) : Prop where
  wire : s.wire = sentOctets s.sent
  unended : ∀ frame ∈ s.sent, frame.isFinal = false

/-- `writeLoop` goes on after this result of `writeMessage`. -/
def WriteJob.proceeds : WriteJob → Option Error → Bool
  | .queued _ _, none => true
  | _, _ => false

/-- What the holder of the token of the writer knows at an instruction. -/
def Instr.Asserts (s : Connection) : Instr → Prop
  | .checkLane _ emission wire | .takeLane _ emission wire | .watchContext _ emission wire =>
      s.Between ∧ wire = emission.frame.octets
  | .writeWire job emission rest =>
      ∃ before done, s.sent = before ++ [⟨job, emission⟩] ∧
        emission.frame.octets = done ++ rest ∧ s.wire = sentOctets before ++ done ∧
        ∀ frame ∈ before, frame.isFinal = false
  | .frameWritten job emission =>
      ∃ before, s.sent = before ++ [⟨job, emission⟩] ∧ s.wire = sentOctets s.sent ∧
        ∀ frame ∈ before, frame.isFinal = false
  | .finishWrite job err => job.proceeds err = true → s.Between
  | .failPending _ | .drain _ _ => True
  | _ => s.Between

/-- What is on the wire. -/
structure Connection.Streams (s : Connection) : Prop where
  whole : sentOctets s.sent.dropLast <+: s.wire
  begun : s.wire <+: sentOctets s.sent
  last : ∀ frame ∈ s.sent.dropLast, frame.isFinal = false
  written : ∀ frame ∈ s.written, ∃ before, before ++ [frame] <+: s.sent ∧
    sentOctets (before ++ [frame]) <+: s.wire

/-! ## One instruction -/

section Rules

variable {P : Primitives} {s : Connection} {i : Instr} {effect : Effect Connection Instr}

/-- Only the writer touches the wire. -/
theorem Exec.wire_eq (h : Exec P s i effect) (hi : Token.writer.weight i = 0) :
    effect.state.sent = s.sent ∧ effect.state.wire = s.wire ∧
      effect.state.written = s.written := by
  cases h with
  | lifecycle h | queue h => exact h.frame ▸ ⟨rfl, rfl, rfl⟩
  | write h =>
      cases h with
      | releaseLane => exact ⟨rfl, rfl, rfl⟩
      | _ => exact absurd hi (by simp)
  | receive h | keepalive h => exact h.frame ▸ ⟨rfl, rfl, rfl⟩

/-- What is known about the wire depends on nothing else. -/
theorem Instr.Asserts.congr {s s' : Connection} {j : Instr} (hsent : s'.sent = s.sent)
    (hwire : s'.wire = s.wire) (h : j.Asserts s) : j.Asserts s' := by
  have hbetween : s.Between → s'.Between := by
    rintro ⟨hall, hunended⟩
    refine ⟨?_, ?_⟩
    · rw [hwire, hsent, hall]
    · rw [hsent]
      exact hunended
  cases j with
  | checkLane | takeLane | watchContext => exact ⟨hbetween h.1, h.2⟩
  | writeWire | frameWritten =>
      unfold Instr.Asserts at h ⊢
      rw [hsent, hwire]
      exact h
  | finishWrite => exact fun hproceeds => hbetween (h hproceeds)
  | failPending | drain => trivial
  | _ => exact hbetween h

/-- A frame is begun after all others are complete. -/
theorem Connection.Between.streams_begin (h : s.Between) (hs : s.Streams) (frame : SentFrame) :
    { s with sent := s.sent ++ [frame] }.Streams := by
  refine ⟨?_, ?_, ?_, ?_⟩
  · show sentOctets (s.sent ++ [frame]).dropLast <+: s.wire
    rw [List.dropLast_concat, h.wire]
  · show s.wire <+: sentOctets (s.sent ++ [frame])
    rw [h.wire]
    exact sentOctets_prefix (List.prefix_append _ _)
  · show ∀ f ∈ (s.sent ++ [frame]).dropLast, f.isFinal = false
    rw [List.dropLast_concat]
    exact h.unended
  · intro f hf
    obtain ⟨before, hbefore, hwire⟩ := hs.written f hf
    exact ⟨before, hbefore.trans (List.prefix_append _ _), hwire⟩

/-- More of the octets of the last frame are written. -/
theorem Connection.Streams.wrote (hs : s.Streams) {before : List SentFrame} {frame : SentFrame}
    {done rest : List UInt8} (hsent : s.sent = before ++ [frame])
    (hoctets : frame.emission.frame.octets = done ++ rest)
    (hwire : s.wire = sentOctets before ++ done) (n : Nat) :
    { s with wire := s.wire ++ rest.take n }.Streams := by
  refine ⟨hs.whole.trans (List.prefix_append _ _), ?_, hs.last, ?_⟩
  · show s.wire ++ rest.take n <+: sentOctets s.sent
    refine ⟨rest.drop n, ?_⟩
    rw [hsent, hwire, sentOctets_append, sentOctets_singleton, hoctets]
    simp
  · intro f hf
    obtain ⟨before, hbefore, hfront⟩ := hs.written f hf
    exact ⟨before, hbefore, hfront.trans (List.prefix_append _ _)⟩

/-- A frame with all of its octets on the wire counts as written. -/
theorem Connection.Streams.finish (hs : s.Streams) {before : List SentFrame} {frame : SentFrame}
    (hsent : s.sent = before ++ [frame]) (hwire : s.wire = sentOctets s.sent) :
    { s with written := s.written ++ [frame] }.Streams := by
  refine ⟨hs.whole, hs.begun, hs.last, fun f hf => ?_⟩
  rcases List.mem_append.mp hf with hold | hnew
  · exact hs.written f hold
  · obtain rfl := List.mem_singleton.mp hnew
    refine ⟨before, ?_, ?_⟩
    · show before ++ [f] <+: s.sent
      rw [hsent]
    · show sentOctets (before ++ [f]) <+: s.wire
      rw [hwire, hsent]

/-- Every instruction keeps what is on the wire in order. -/
theorem Exec.streams (h : Exec P s i effect) (hi : Token.writer.weight i ≠ 0 → i.Asserts s)
    (hs : s.Streams) : effect.state.Streams := by
  cases h with
  | lifecycle h | queue h => exact h.frame ▸ ⟨hs.whole, hs.begun, hs.last, hs.written⟩
  | write h =>
      cases h with
      | watchLive => exact (hi (by simp)).1.streams_begin hs _
      | wireWrote n | wireFailed n =>
          obtain ⟨before, done, hsent, hoctets, hwire, -⟩ := hi (by simp)
          exact hs.wrote hsent hoctets hwire n
      | messageWritten | rekeyWritten =>
          obtain ⟨before, hsent, hwire, -⟩ := hi (by simp)
          exact hs.finish hsent hwire
      | _ => exact ⟨hs.whole, hs.begun, hs.last, hs.written⟩
  | receive h | keepalive h => exact h.frame ▸ ⟨hs.whole, hs.begun, hs.last, hs.written⟩

/-- What an effect leaves to do under the token of the writer finds what it is to know. -/
def Informed (A : Connection → Instr → Prop) (effect : Effect Connection Instr) : Prop :=
  (∀ j ∈ effect.pushed, Token.writer.weight j ≠ 0 → A effect.state j) ∧
    ∀ t ∈ effect.spawned, ∀ j ∈ t, Token.writer.weight j ≠ 0 → A effect.state j

variable {A : Connection → Instr → Prop}

theorem informed_of_free (hpushed : effect.pushed.all (Token.writer.weight · == 0) = true)
    (hspawned : effect.spawned.all (·.all (Token.writer.weight · == 0)) = true) :
    Informed A effect := by
  simp only [List.all_eq_true, beq_iff_eq] at hpushed hspawned
  exact ⟨fun j hj hne => absurd (hpushed j hj) hne,
    fun t ht j hj hne => absurd (hspawned t ht j hj) hne⟩

theorem informed_of_single {state : Connection} {j : Instr} (h : A state j) :
    Informed A ⟨state, [j], []⟩ :=
  ⟨List.forall_mem_singleton.mpr fun _ => h, fun _ ht => absurd ht List.not_mem_nil⟩

/-- The lane of the transport is left on the way. -/
theorem informed_of_release {state : Connection} {j : Instr} (h : A state j) :
    Informed A ⟨state, [.releaseLane, j], []⟩ := by
  refine ⟨?_, fun _ ht => absurd ht List.not_mem_nil⟩
  intro k hk hne
  rcases List.mem_cons.mp hk with rfl | hlast
  · exact absurd rfl hne
  · exact List.mem_singleton.mp hlast ▸ h

theorem WriteJob.proceeds_error (job : WriteJob) (err : Error) :
    job.proceeds (some err) = false := by
  cases job <;> rfl

/-- `writeMessage` fails: nothing is known about the wire any more. -/
theorem asserts_finish_error (s : Connection) (job : WriteJob) (err : Error) :
    (Instr.finishWrite job (some err)).Asserts s := by
  intro hproceeds
  rw [job.proceeds_error] at hproceeds
  cases hproceeds

/-- `Start` hands the token to the write loop, if what is to be known does not change on
the way: `B` is what is known while nothing is being written. -/
theorem LifecycleExec.informed {B : Prop} (h : LifecycleExec s i effect)
    (hi : Token.writer.weight i ≠ 0 → B) (hidle : s.startOnce = .idle → B)
    (hstart : B → ∀ ctx, A effect.state (.checkStart ctx))
    (hlaunch : B → ∀ loops ctx, A effect.state (.launch loops ctx))
    (hloop : B → A effect.state .writeLoop) : Informed A effect := by
  cases h with
  | startFirst h => exact informed_of_single (hstart (hidle h) _)
  | startLive =>
      refine ⟨?_, by simp⟩
      intro j hj hne
      rcases List.mem_cons.mp hj with rfl | hlast
      · exact absurd rfl hne
      · obtain rfl := List.mem_singleton.mp hlast
        exact hlaunch (hi (by simp)) _ _
  | @launchLoop loop loops ctx =>
      refine ⟨List.forall_mem_singleton.mpr fun hne => hlaunch (hi ?_) _ _,
        List.forall_mem_singleton.mpr ?_⟩
      · simp only [Token.weight, List.count_cons] at hne ⊢
        omega
      · -- only the write loop takes the token along
        intro j hj hne
        simp only [List.mem_cons, List.not_mem_nil, or_false] at hj
        cases loop with
        | write =>
            rcases hj with rfl | rfl
            · exact hloop (hi (by simp))
            · exact absurd rfl hne
        | _ => rcases hj with rfl | rfl <;> exact absurd rfl hne
  | _ => exact informed_of_free rfl rfl

/-- Those who drain the queues need to know nothing. -/
theorem QueueExec.informed (h : QueueExec s i effect)
    (hdrain : ∀ who err, A effect.state (.drain who err)) : Informed A effect := by
  cases h with
  | failPending => exact informed_of_single (hdrain _ _)
  | drainControl | drainOutbound | drainRequest =>
      refine ⟨?_, by simp⟩
      intro j hj hne
      rcases List.mem_cons.mp hj with rfl | hlast
      · exact absurd rfl hne
      · obtain rfl := List.mem_singleton.mp hlast
        exact hdrain _ _
  | @returnEnqueue call result =>
      obtain ⟨_, _, ⟨_, _, completion⟩, _, after⟩ := call
      cases after <;> cases result <;> cases completion <;> exact informed_of_free rfl rfl
  | _ => exact informed_of_free rfl rfl

/-- The reader and the handlers hold no token of the writer. -/
theorem ReceiveExec.informed (h : ReceiveExec P s i effect) : Informed A effect := by
  cases h with
  | inlineReturned _ result | @handlerReturned _ result | @handlerLate _ result =>
      cases result <;> exact informed_of_free rfl rfl
  | _ => exact informed_of_free rfl rfl

theorem KeepaliveExec.informed (h : KeepaliveExec s i effect) : Informed A effect := by
  cases h <;> exact informed_of_free rfl rfl

/-- After `writeMessage` the loop goes on, or the writer drains the queues. -/
theorem informed_of_finish {job : WriteJob} {err : Option Error}
    (hpending : A s (.failPending .writer))
    (hloop : job.proceeds err = true → A s .writeLoop) :
    Informed A ⟨s, job.finish err, []⟩ := by
  refine ⟨?_, by simp⟩
  intro j hj hne
  have hlast : ∀ first cause, j ∈ first :: shutdown cause ++ [Instr.failPending .writer] →
      Token.writer.weight first = 0 → A s j := by
    intro first cause hmem hfirst
    simp only [shutdown, List.cons_append, List.nil_append, List.mem_cons, List.not_mem_nil,
      or_false] at hmem
    rcases hmem with rfl | rfl | rfl | rfl | rfl
    · exact absurd hfirst hne
    · exact absurd rfl hne
    · exact absurd rfl hne
    · exact absurd rfl hne
    · exact hpending
  cases job with
  | close => exact hlast _ _ hj rfl
  | queued =>
      cases err with
      | none =>
          rcases List.mem_cons.mp hj with rfl | hmem
          · exact absurd rfl hne
          · obtain rfl := List.mem_singleton.mp hmem
            exact hloop rfl
      | some => exact hlast _ _ hj rfl

theorem LifecycleExec.asserts (h : LifecycleExec s i effect)
    (hi : Token.writer.weight i ≠ 0 → i.Asserts s) (hidle : s.startOnce = .idle → s.Between) :
    Informed (fun s j => j.Asserts s) effect := by
  have hstate : effect.state.sent = s.sent ∧ effect.state.wire = s.wire := by
    cases h <;> exact ⟨rfl, rfl⟩
  have hb : s.Between → effect.state.Between := by
    rintro ⟨hwire, hunended⟩
    refine ⟨?_, ?_⟩
    · rw [hstate.1, hstate.2, hwire]
    · rw [hstate.1]
      exact hunended
  have hheld : Token.writer.weight i ≠ 0 → s.Between := by
    intro hne
    cases i with
    | checkStart | launch => exact hi hne
    | _ => first | exact absurd rfl hne | cases h
  exact h.informed hheld hidle (fun h' _ => hb h') (fun h' _ _ => hb h') hb

theorem WriteExec.asserts (h : WriteExec P s i effect)
    (hi : Token.writer.weight i ≠ 0 → i.Asserts s) :
    Informed (fun s j => j.Asserts s) effect := by
  cases h with
  | closeFirst | noClose | selectClose | selectControl | selectOutbound | sendOk | marked =>
      have hb : s.Between := hi (by simp)
      exact informed_of_single (show Connection.Between _ from ⟨hb.wire, hb.unended⟩)
  | marshalOk h =>
      have hb : s.Between := hi (by simp)
      exact informed_of_single ⟨hb, (Frame.marshalBinary_eq_ok h).2⟩
  | laneLive | laneFree =>
      obtain ⟨hb, hoctets⟩ := hi (by simp)
      exact informed_of_single ⟨⟨hb.wire, hb.unended⟩, hoctets⟩
  | watchLive =>
      obtain ⟨hb, hoctets⟩ := hi (by simp)
      exact informed_of_single ⟨s.sent, [], rfl, hoctets.symm, by simp [hb.wire], hb.unended⟩
  | wireDone =>
      obtain ⟨before, done, hsent, hoctets, hwire, hbefore⟩ := hi (by simp)
      refine informed_of_release ⟨before, hsent, ?_, hbefore⟩
      rw [hsent, hwire, sentOctets_append, sentOctets_singleton, hoctets, List.append_nil]
  | @wireWrote job emission wire n =>
      obtain ⟨before, done, hsent, hoctets, hwire, hbefore⟩ := hi (by simp)
      refine informed_of_single ⟨before, done ++ wire.take n, hsent, ?_, ?_, hbefore⟩
      · rw [hoctets, List.append_assoc, List.take_append_drop]
      · show s.wire ++ wire.take n = sentOctets before ++ (done ++ wire.take n)
        rw [hwire, List.append_assoc]
  | @messageWritten job emission hkind =>
      obtain ⟨before, hsent, hwire, hbefore⟩ := hi (by simp)
      refine informed_of_single fun hproceeds => ⟨hwire, ?_⟩
      -- the job was an item of a queue, so its frame is not the last one
      show ∀ frame ∈ s.sent, frame.isFinal = false
      rw [hsent]
      intro frame hframe
      rcases List.mem_append.mp hframe with hold | hnew
      · exact hbefore frame hold
      · obtain rfl := List.mem_singleton.mp hnew
        cases job with
        | close => cases hproceeds
        | queued => rfl
  | @rekeyWritten job emission hkind =>
      obtain ⟨before, hsent, hwire, hbefore⟩ := hi (by simp)
      refine informed_of_single (show Connection.Between _ from ⟨hwire, ?_⟩)
      show ∀ frame ∈ s.sent, frame.isFinal = false
      rw [hsent]
      intro frame hframe
      rcases List.mem_append.mp hframe with hold | hnew
      · exact hbefore frame hold
      · obtain rfl := List.mem_singleton.mp hnew
        cases job <;> simp [SentFrame.isFinal, hkind]
  | sendFailed | marshalFailed | frameTooShort | frameTooLarge | laneEnded | laneCanceled
  | markFailed => exact informed_of_single (asserts_finish_error _ _ _)
  | watchEnded | wireStalled | wireFailed =>
      exact informed_of_release (asserts_finish_error _ _ _)
  | selectDone => exact informed_of_single trivial
  | releaseLane => exact informed_of_free rfl rfl
  | finishWrite => exact informed_of_finish trivial (hi (by simp))

theorem Exec.asserts (h : Exec P s i effect) (hi : Token.writer.weight i ≠ 0 → i.Asserts s)
    (hidle : s.startOnce = .idle → s.Between) : Informed (fun s j => j.Asserts s) effect := by
  cases h with
  | lifecycle h => exact h.asserts hi hidle
  | queue h => exact h.informed fun _ _ => trivial
  | write h => exact h.asserts hi
  | receive h | keepalive h => exact h.informed

/-- A frame that was begun stays begun. -/
theorem Exec.sent_prefix (h : Exec P s i effect) : s.sent <+: effect.state.sent := by
  cases h with
  | lifecycle h | queue h => rw [h.frame]
  | write h =>
      cases h with
      | watchLive => exact List.prefix_append _ _
      | _ => exact List.prefix_rfl
  | receive h | keepalive h => rw [h.frame]

/-- No call starts with the token of the writer. -/
theorem ApiCall.program_writer (api : ApiCall) (channel : Nat) :
    ∀ i ∈ api.program channel, Token.writer.weight i = 0 := by
  cases api <;> simp [ApiCall.program, shutdown]

end Rules

/-! ## Whole runs -/

section Runs

variable {P : Primitives}

/-- What holds about the wire in every pool that a new connection reaches. -/
structure Streaming (pool : Pool Connection Instr) : Prop where
  sound : Sound pool
  streams : pool.state.Streams
  idle : pool.state.startOnce = .idle → pool.state.Between
  owner : ∀ t ∈ pool.threads, ∀ i ∈ t, Token.writer.weight i ≠ 0 → i.Asserts pool.state

theorem Sound.writer_load {pool : Pool Connection Instr} (h : Sound pool) :
    pool.state.startOnce.unclaimed + load Token.writer.weight pool.threads ≤ 1 := by
  have hwriter := h.tokens .writer
  simp only [Pool.total, Token.balance, Token.limit] at hwriter
  omega

/-- Nobody writes before `startOnce` has an owner. -/
theorem Sound.writer_idle {pool : Pool Connection Instr} (h : Sound pool)
    (hidle : pool.state.startOnce = .idle) {t : List Instr} (ht : t ∈ pool.threads) {i : Instr}
    (hi : i ∈ t) : Token.writer.weight i = 0 := by
  have hload := h.writer_load
  rw [hidle, Once.unclaimed] at hload
  exact weight_eq_zero_of_load (by omega) ht hi

theorem streaming_start (session : Session) (config : ConnectionConfig) :
    Streaming (connectionStart session config) where
  sound := sound_start session config
  streams := by constructor <;> simp [connectionStart, newConnection]
  idle _ := by constructor <;> simp [connectionStart, newConnection]
  owner _ ht := absurd ht List.not_mem_nil

theorem Streaming.step {before after : Pool Connection Instr} (h : Streaming before)
    (hstep : (connectionMachine P).Step before after) : Streaming after := by
  have hsound := h.sound.step hstep
  cases hstep with
  | @thread s threads k i rest effect hk hexec =>
      have hexec : Exec P s i effect := hexec
      have hmem := List.mem_of_getElem? hk
      have hi := h.owner _ hmem i List.mem_cons_self
      obtain ⟨hpushed, hspawned⟩ := hexec.asserts hi h.idle
      refine ⟨hsound, hexec.streams hi h.streams, fun hidle => ?_, ?_⟩
      · have hidle := hexec.idle_of_idle hidle
        have hfree := h.sound.writer_idle hidle hmem List.mem_cons_self
        obtain ⟨hsent, hwire, -⟩ := hexec.wire_eq hfree
        obtain ⟨hall, hunended⟩ := h.idle hidle
        refine ⟨?_, ?_⟩
        · rw [hwire, hsent, hall]
        · rw [hsent]
          exact hunended
      · have hload : load Token.writer.weight threads ≤ 1 :=
          (Nat.le_add_left _ _).trans h.sound.writer_load
        refine owned_step hload hk h.owner ?_ hpushed hspawned
        intro hfree j _ hj
        obtain ⟨hsent, hwire, -⟩ := hexec.wire_eq hfree
        exact hj.congr hsent hwire
  | ambient hambient =>
      cases hambient with
      | call api =>
          refine ⟨hsound, ⟨h.streams.whole, h.streams.begun, h.streams.last, h.streams.written⟩,
            fun hidle => ⟨(h.idle hidle).wire, (h.idle hidle).unended⟩, fun t ht j hj hne => ?_⟩
          rcases List.mem_append.mp ht with hold | hnew
          · refine Instr.Asserts.congr ?_ ?_ (h.owner t hold j hj hne) <;> rfl
          · obtain rfl := List.mem_singleton.mp hnew
            exact absurd (api.program_writer _ j hj) hne
      | cancelCaller =>
          refine ⟨hsound, ⟨h.streams.whole, h.streams.begun, h.streams.last, h.streams.written⟩,
            fun hidle => ⟨(h.idle hidle).wire, (h.idle hidle).unended⟩, fun t ht j hj hne => ?_⟩
          refine Instr.Asserts.congr ?_ ?_ (h.owner t (by simpa using ht) j hj hne) <;> rfl

theorem streaming_of_reaches {session : Session} {config : ConnectionConfig}
    {pool : Pool Connection Instr}
    (h : (connectionMachine P).Reaches (connectionStart session config) pool) :
    Streaming pool :=
  Machine.invariant_of_step Streaming.step (streaming_start session config) h

theorem sent_of_reaches {pool later : Pool Connection Instr}
    (h : (connectionMachine P).Reaches pool later) : pool.state.sent <+: later.state.sent := by
  refine Machine.invariant_of_step (I := fun later => pool.state.sent <+: later.state.sent) ?_
    List.prefix_rfl h
  intro before after hbefore hstep
  cases hstep with
  | thread k hk hexec => exact hbefore.trans (Exec.sent_prefix hexec)
  | ambient hambient => cases hambient <;> exact hbefore

/-- The frame that carries the `SessionClose` of a close request is the last one. -/
theorem Connection.Streams.final_last {s : Connection} (h : s.Streams)
    {before after : List SentFrame} {frame : SentFrame} (hsent : s.sent = before ++ frame :: after)
    (hfinal : frame.isFinal = true) :
    after = [] ∧ ∃ done, done <+: frame.emission.frame.octets ∧
      s.wire = sentOctets before ++ done := by
  have hnil : after = [] := by
    by_contra hmore
    have hmem : frame ∈ s.sent.dropLast := by
      rw [hsent, List.dropLast_append_of_ne_nil (by simp), List.dropLast_cons_of_ne_nil hmore]
      simp
    have hnot := h.last frame hmem
    rw [hfinal] at hnot
    cases hnot
  subst hnil
  have hwhole := h.whole
  have hbegun := h.begun
  rw [hsent, List.dropLast_concat] at hwhole
  rw [hsent, sentOctets_append, sentOctets_singleton] at hbegun
  obtain ⟨done, hdone⟩ := hwhole
  refine ⟨rfl, done, ?_, hdone.symm⟩
  rw [← hdone] at hbegun
  exact (List.prefix_append_right_inj _).mp hbegun

end Runs

end DgProto
