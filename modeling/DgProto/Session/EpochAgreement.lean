import DgProto.Session.Flight

/-!
# Sender and receiver agree on the epoch

Two sessions with crossed keys, and a lossless queue of the frames that the first
emits for the second.  The first may run any calls at any time and the second reads
the queue at its own pace, so a rekey may be marked as sent before, while or after
its `RekeyInit` is read.  The frames in the queue are always the flight between the
two sessions.
-/

namespace DgProto

open Library Wire Crypto Replay

/-- The secrets of the other side. -/
def HandshakeSecrets.crossed (secrets : HandshakeSecrets) : HandshakeSecrets :=
  ⟨secrets.sessionID, secrets.receiveKey, secrets.sendKey⟩

/-! ## Transitions that are announced and not yet marked -/

/-- A `RekeyInit` was emitted as this frame, and nothing has been marked since. -/
def Unmarked (events : List Event) (frame : Frame) : Prop :=
  ∃ earlier event later e, events = earlier ++ event :: later ∧ event.emission = some e ∧
    e.isRekey = true ∧ e.frame = frame ∧ ∀ mark ∈ later, ¬ mark.Marks

/-- The pending transition of the session is the one that is not yet marked. -/
def TracksPending (events : List Event) (s : Session) : Prop :=
  ∀ frame, Unmarked events frame ↔
    ∃ pending, s.pendingRekey = some pending ∧ pending.frame = frame

theorem unmarked_append_iff {events : List Event} {event : Event} {frame : Frame} :
    Unmarked (events ++ [event]) frame ↔
      (∃ e, event.emission = some e ∧ e.isRekey = true ∧ e.frame = frame) ∨
        Unmarked events frame ∧ ¬ event.Marks := by
  constructor
  · rintro ⟨earlier, emitted, later, e, hsplit, hemission, hrekey, hframe, hlater⟩
    rcases List.eq_nil_or_concat later with rfl | ⟨front, last, rfl⟩
    · obtain ⟨rfl, hlast⟩ := List.append_inj' hsplit rfl
      obtain rfl := List.head_eq_of_cons_eq hlast
      exact .inl ⟨e, hemission, hrekey, hframe⟩
    · have hcancel : events ++ [event] = (earlier ++ emitted :: front) ++ [last] := by
        simpa using hsplit
      obtain ⟨rfl, hlast⟩ := List.append_inj' hcancel rfl
      obtain rfl : event = last := List.head_eq_of_cons_eq hlast
      have hfront : ∀ mark ∈ front, ¬ mark.Marks := fun mark hmark => hlater mark (by simp [hmark])
      exact .inr ⟨⟨earlier, emitted, front, e, rfl, hemission, hrekey, hframe, hfront⟩,
        hlater event (by simp)⟩
  · rintro (⟨e, hemission, hrekey, hframe⟩ |
      ⟨⟨earlier, emitted, later, e, rfl, hemission, hrekey, hframe, hlater⟩, hnot⟩)
    · exact ⟨events, event, [], e, rfl, hemission, hrekey, hframe, by simp⟩
    · refine ⟨earlier, emitted, later ++ [event], e, by simp, hemission, hrekey, hframe, ?_⟩
      intro mark hmark
      rcases List.mem_append.mp hmark with hold | hnew
      · exact hlater mark hold
      · exact List.mem_singleton.mp hnew ▸ hnot

namespace TracksPending

variable {P : Primitives} {s : Session} {events : List Event}

/-- An event that neither emits a `RekeyInit` nor marks one. -/
theorem quiet (h : TracksPending events s) {event : Event} {after : Session}
    (hemission : ∀ e, event.emission = some e → e.isRekey = false) (hnot : ¬ event.Marks)
    (hpending : after.pendingRekey = s.pendingRekey) :
    TracksPending (events ++ [event]) after := by
  intro frame
  rw [unmarked_append_iff, hpending, ← h frame]
  refine ⟨fun hcases => ?_, fun hold => .inr ⟨hold, hnot⟩⟩
  rcases hcases with ⟨e, he, hrekey, -⟩ | ⟨hold, -⟩
  · exact absurd hrekey (by simp [hemission e he])
  · exact hold

theorem step (h : TracksPending events s) (call : SessionCall) :
    TracksPending (events ++ [s.step P call]) (s.step P call).after := by
  have hcase := Session.step_cases P s call
  generalize s.step P call = event at hcase ⊢
  cases hcase with
  | rejected | rekeyLost =>
      exact h.quiet (fun e he => by cases he) (fun hmarks => by cases hmarks.2) rfl
  | received frame clock after result hcall _ hside =>
      refine h.quiet (fun e he => ?_) (fun hmarks => ?_)
        (congrArg Session.SendSide.pendingRekey hside)
      · cases result <;> cases he
      · obtain ⟨⟨other, now, hmark⟩, -⟩ := hmarks
        cases hcall.symm.trans hmark
  | closed hcall =>
      refine h.quiet (fun e he => by cases he) (fun hmarks => ?_) rfl
      obtain ⟨⟨other, now, hmark⟩, -⟩ := hmarks
      cases hcall.symm.trans hmark
  | data p _ _ htype =>
      refine h.quiet (fun e he => ?_) (fun hmarks => by cases hmarks.2) rfl
      obtain rfl := Option.some.inj he
      simpa [Emission.isRekey] using htype
  | rekey p hemits _ _ htype =>
      intro frame
      rw [unmarked_append_iff]
      constructor
      · rintro (⟨e, he, -, rfl⟩ | ⟨hold, -⟩)
        · obtain rfl := Option.some.inj he
          exact ⟨_, rfl, rfl⟩
        · -- nothing was pending before
          obtain ⟨pending, hpending, -⟩ := (h frame).mp hold
          exact absurd (hemits.notPending.symm.trans hpending) (by simp)
      · rintro ⟨pending, hpending, rfl⟩
        obtain rfl := Option.some.inj hpending
        exact .inl ⟨_, rfl, by simpa [Emission.isRekey] using htype, rfl⟩
  | marked pending now hcall =>
      intro frame
      rw [unmarked_append_iff]
      constructor
      · rintro (⟨e, he, -⟩ | ⟨-, hnot⟩)
        · cases he
        · exact absurd ⟨⟨_, now, hcall⟩, rfl⟩ hnot
      · rintro ⟨other, hother, -⟩
        cases hother

end TracksPending

/-! ## The link -/

/-- A sender, a receiver, and the frames between them. -/
structure Link where
  a : Session
  b : Session
  /-- The calls of the sender. -/
  events : List Event
  /-- Emitted and not yet delivered. -/
  queue : List Emission
  /-- Delivered, with the answer of `ReceivePayload`. -/
  delivered : List (Emission × Except Error (List UInt8))

/-- One step: the sender makes a call, or the next frame is delivered. -/
inductive LinkStep where
  | call (call : SessionCall)
  | deliver (clock : ReceiveClock)

namespace Link

def start (a b : Session) : Link := ⟨a, b, [], [], []⟩

def step (P : Primitives) (link : Link) : LinkStep → Link
  | .call call =>
      let event := link.a.step P call
      { link with
        a := event.after
        events := link.events ++ [event]
        queue := link.queue ++ event.emission.toList }
  | .deliver clock =>
      match link.queue with
      | [] => link
      | e :: rest =>
          let outcome := link.b.receivePayload P clock e.frame
          { link with
            b := outcome.1
            queue := rest
            delivered := link.delivered ++ [(e, outcome.2)] }

def run (P : Primitives) (link : Link) (steps : List LinkStep) : Link :=
  steps.foldl (step P) link

/-- The frames of the queue lead the receiver to the sender. -/
structure Inv (P : Primitives) (key : Key) (link : Link) : Prop where
  keys : link.a.SendKeys P key
  flight : ∃ epoch key floor, Listening link.b link.a.sessionID epoch key floor ∧
    Flight P link.a.sessionID (CaughtUp link.a) epoch key floor link.queue
  accepted : ∀ d ∈ link.delivered, d.2 = .ok d.1.plaintext
  inOrder : link.delivered.map Prod.fst ++ link.queue = link.events.filterMap Event.emission
  asked : ∀ event ∈ link.events, ∀ e, event.emission = some e →
    e.isRekey ∨ event.call.Asks e.frame.header.messageType e.plaintext
  pending : TracksPending link.events link.a

variable {P : Primitives} {key : Key} {link : Link}

/-- A call emits a `RekeyInit` or exactly what it was asked to send. -/
theorem step_asked (s : Session) (call : SessionCall) {e : Emission}
    (h : (s.step P call).emission = some e) :
    e.isRekey ∨ (s.step P call).call.Asks e.frame.header.messageType e.plaintext := by
  have hcase := Session.step_cases P s call
  generalize s.step P call = event at hcase h ⊢
  cases hcase with
  | rejected | closed | rekeyLost | marked => cases h
  | received _ _ _ result => cases result <;> cases h
  | data p _ _ _ hasks =>
      obtain rfl := Option.some.inj h
      exact .inr (by simpa [Packet.sealCall] using hasks)
  | rekey p _ _ _ htype =>
      obtain rfl := Option.some.inj h
      exact .inl (by simpa [Emission.isRekey] using htype)

theorem Inv.step (hopen : P.OpenInvertsSeal) (h : link.Inv P key) (linkStep : LinkStep) :
    (link.step P linkStep).Inv P key := by
  obtain ⟨epoch, floorKey, floor, hlistening, hflight⟩ := h.flight
  cases linkStep with
  | call call =>
      refine ⟨h.keys.step call, ⟨epoch, floorKey, floor, ?_, ?_⟩, h.accepted, ?_, ?_,
        h.pending.step call⟩
      · simp only [Link.step, Session.step_sessionID]
        exact hlistening
      · simp only [Link.step, Session.step_sessionID]
        exact hflight.step h.keys call
      · simp only [Link.step, List.filterMap_append, ← List.append_assoc, h.inOrder]
        cases hemission : (link.a.step P call).emission <;> simp [hemission]
      · intro event hevent e he
        rcases List.mem_append.mp hevent with hold | hnew
        · exact h.asked event hold e he
        · obtain rfl := List.mem_singleton.mp hnew
          exact step_asked link.a call he
  | deliver clock =>
      cases hqueue : link.queue with
      | nil =>
          simp only [Link.step, hqueue]
          exact h
      | cons e rest =>
          rw [hqueue] at hflight
          obtain ⟨hresult, hnext⟩ := hflight.deliver hopen hlistening clock
          have horder := h.inOrder
          rw [hqueue] at horder
          simp only [Link.step, hqueue]
          refine ⟨h.keys, hnext, ?_, by simpa using horder, h.asked, h.pending⟩
          intro d hd
          rcases List.mem_append.mp hd with hold | hnew
          · exact h.accepted d hold
          · obtain rfl := List.mem_singleton.mp hnew
            exact hresult

theorem Inv.run (hopen : P.OpenInvertsSeal) (h : link.Inv P key) (steps : List LinkStep) :
    (link.run P steps).Inv P key := by
  induction steps generalizing link with
  | nil => exact h
  | cons linkStep steps ih => exact ih (h.step hopen linkStep)

theorem Inv.start {suite : CipherSuite} {secrets : HandshakeSecrets} {now now' : Time}
    {a b : Session} (ha : newSession P suite secrets now = .ok a)
    (hb : newSession P suite secrets.crossed now' = .ok b) (limitsA limitsB : Session.Limits) :
    (Link.start (a.withLimits limitsA) (b.withLimits limitsB)).Inv P secrets.sendKey := by
  have hkeys := Session.sendKeys_newSession ha limitsA
  obtain ⟨rfl, -, rfl⟩ := newSession_eq_ok ha
  obtain ⟨-, -, rfl⟩ := newSession_eq_ok hb
  refine ⟨hkeys, ⟨1, secrets.sendKey, 0, ?_, .arrived ?_⟩, ?_, rfl, ?_, fun frame => ?_⟩
  · exact ⟨rfl, rfl, rfl, rfl, rfl, rfl, ∅, refines_zero, by simp [highestOf]⟩
  · exact ⟨rfl, rfl, .inr Nat.one_pos⟩
  · intro d hd
    cases hd
  · intro event hevent
    cases hevent
  · constructor
    · rintro ⟨earlier, event, later, e, hsplit, -⟩
      exact absurd hsplit (by simp [Link.start])
    · rintro ⟨pending, hpending, -⟩
      cases hpending

end Link

/-- **Epoch agreement.** For crossed sessions, any limits and clocks, and every
interleaving of the sender's calls with in-order delivery: the receiver accepts every
delivered frame and returns its plaintext, in the order of emission; every frame that
is not a `RekeyInit` carries what its call asked for; and whenever nothing is in
flight, the receive epoch and key are the sender's, or those of its pending rekey.  A
rekey is pending exactly from the emission of its `RekeyInit` to its mark. -/
theorem epoch_agreement (P : Primitives) (hopen : P.OpenInvertsSeal) {suite : CipherSuite}
    {secrets : HandshakeSecrets} {now now' : Time} {a b : Session}
    (ha : newSession P suite secrets now = .ok a)
    (hb : newSession P suite secrets.crossed now' = .ok b) (limitsA limitsB : Session.Limits)
    (steps : List LinkStep) {link : Link}
    (hlink : (Link.start (a.withLimits limitsA) (b.withLimits limitsB)).run P steps = link) :
    (∀ d ∈ link.delivered, d.2 = .ok d.1.plaintext) ∧
      link.delivered.map Prod.fst ++ link.queue = link.events.filterMap Event.emission ∧
      (∀ event ∈ link.events, ∀ e, event.emission = some e →
        e.isRekey ∨ event.call.Asks e.frame.header.messageType e.plaintext) ∧
      TracksPending link.events link.a ∧
      (link.queue = [] →
        match link.a.pendingRekey with
        | none => link.b.receiveEpoch = link.a.sendEpoch ∧ link.b.receiveKey = link.a.sendKey
        | some pending =>
            link.b.receiveEpoch = pending.epoch ∧ link.b.receiveKey = pending.key) := by
  subst hlink
  have hinv := (Link.Inv.start ha hb limitsA limitsB).run hopen steps
  refine ⟨hinv.accepted, hinv.inOrder, hinv.asked, hinv.pending, fun hempty => ?_⟩
  obtain ⟨epoch, key, floor, hlistening, hflight⟩ := hinv.flight
  rw [hempty] at hflight
  have hcaught := hflight.of_nil
  rw [hlistening.epoch_eq, hlistening.key_eq]
  generalize (Link.run P _ steps).a = sender at hcaught ⊢
  -- what the receiver waits for depends on whether a rekey is still unmarked
  cases hpending : sender.pendingRekey with
  | none =>
      obtain ⟨hepoch, hkey, -⟩ := (caughtUp_of_none hpending).mp hcaught
      exact ⟨hepoch, hkey⟩
  | some pending =>
      obtain ⟨hepoch, hkey, -⟩ := (caughtUp_of_some hpending).mp hcaught
      exact ⟨hepoch, hkey⟩

theorem newSession_sample_crossed :
    newSession transparent cipherChaCha20Poly1305 sampleSecrets.crossed 0 =
      .ok (initialSession cipherChaCha20Poly1305 sampleSecrets.crossed
        ⟨sampleSecrets.receiveKey⟩ ⟨sampleSecrets.sendKey⟩ 0) :=
  newSession_of_new transparent_newSucceeds (by decide) 0

/-- With one frame per epoch the second send announces a rekey, whose `RekeyInit` is marked
before anything is delivered. -/
theorem epoch_agreement_transparent :
    ∃ a b pending, newSession transparent cipherChaCha20Poly1305 sampleSecrets 0 = .ok a ∧
      newSession transparent cipherChaCha20Poly1305 sampleSecrets.crossed 0 = .ok b ∧
      let link := (Link.start (a.withLimits ⟨1, 0, 1, 1⟩) (b.withLimits ⟨1, 0, 1, 1⟩)).run
        transparent [.call (samplePing 1), .call (samplePing 2)]
      let last := link.run transparent [.call (.markRekeySent pending.frame 0),
        .call (samplePing 3), .deliver ⟨0, 0, 0⟩, .deliver ⟨0, 0, 0⟩, .deliver ⟨0, 0, 0⟩]
      link.a.pendingRekey = some pending ∧ Unmarked link.events pending.frame ∧
        last.delivered.length = 3 ∧ (∀ d ∈ last.delivered, d.2 = .ok d.1.plaintext) ∧
        last.b.receiveEpoch = 2 ∧ last.b.receiveKey = last.a.sendKey := by
  have hlink := epoch_agreement transparent transparent_openInvertsSeal newSession_sample
    newSession_sample_crossed ⟨1, 0, 1, 1⟩ ⟨1, 0, 1, 1⟩
  refine ⟨_, _, _, newSession_sample, newSession_sample_crossed, rfl, ?_, rfl, ?_, rfl, rfl⟩
  · obtain ⟨-, -, -, hpending, -⟩ := hlink _ rfl
    exact (hpending _).mpr ⟨_, rfl, rfl⟩
  · exact (hlink (_ ++ _) (List.foldl_append ..)).1

end DgProto
