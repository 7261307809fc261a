import DgProto.Session.Methods
import DgProto.Session.NonceUniqueness

/-!
# Concurrent calls of a session

Everywhere else a call of a session is one step, and a run of a session is a list of calls.  Here
the calls run beside each other, access by access, and wait for each other's mutexes.

* What concurrent calls return is what they return in some run, one after the other, which puts no
  call before one that had returned when it began; and concurrent calls never block each other for
  good.
* With it, what is known of runs holds for concurrent calls, for instance that no key and nonce are
  used twice.
-/

namespace DgProto

open Library Wire Crypto Replay

/-! ## One method at a time -/

namespace Session

variable {P : Primitives} {s : Session}

/-- A method as one step. -/
def perform (P : Primitives) (s : Session) : SessionMethod → Session × Answer
  | .call c => ((s.step P c).after, .reply (s.step P c).calls (s.step P c).result)
  | .receive frame clock =>
      ((s.receiveMessage P clock frame).1, .message (s.receiveMessage P clock frame).2)
  | .closed => (s, .closed s.closed)

/-- What a receive makes of the result of `ReceivePayload`. -/
theorem receiveMessage_eq (clock : ReceiveClock) (frame : Frame) :
    s.receiveMessage P clock frame =
      ((s.receivePayload P clock frame).1,
        decodeReceived frame (s.receivePayload P clock frame).2) := by
  unfold receiveMessage decodeReceived
  cases s.receivePayload P clock frame with
  | mk after result =>
  cases result with
  | error err => rfl
  | ok plaintext =>
  dsimp only
  cases newInboundMessage frame.header.messageType with
  | error err => rfl
  | ok kind =>
  dsimp only
  cases kind.unmarshalBinary plaintext with
  | error err | ok message => rfl

theorem sendPayload_method (env : SendEnv) (messageType : MessageType) (plaintext : List UInt8)
    (padLength : UInt8) :
    (s.constants.sendPayload P env messageType plaintext padLength).body.run s.fields =
      ((s.sendPayload P env messageType plaintext padLength).session.fields,
        .reply (s.sendPayload P env messageType plaintext padLength).calls
          ((s.sendPayload P env messageType plaintext padLength).result.map .frame)) := by
  unfold Constants.sendPayload
  split_ifs with hvalid
  · rw [Body.run_bind, Access.sendPayload_alone env hvalid]
    rfl
  · rw [sendPayload, if_pos hvalid]
    rfl

theorem receivePayload_method (clock : ReceiveClock) (frame : Frame)
    (answer : Except Error (List UInt8) → Answer) :
    (s.constants.receivePayload P clock frame answer).body.run s.fields =
      ((s.receivePayload P clock frame).1.fields, answer (s.receivePayload P clock frame).2) := by
  unfold Constants.receivePayload
  split_ifs with hticket hsession hvalid
  · rw [receivePayload, if_pos hticket]
    rfl
  · rw [receivePayload, if_neg hticket, if_pos hsession]
    rfl
  · rw [Body.run_bind, Access.receivePayload_alone clock hticket (not_not.mp hsession) hvalid]
    rfl
  · rw [receivePayload, if_neg hticket, if_neg hsession, if_pos hvalid]
    rfl

/-- A method that is left alone does what the functions of the model say. -/
theorem runs_alone (m : SessionMethod) :
    (s.constants.method P m).body.run s.fields =
      ((s.perform P m).1.fields, (s.perform P m).2) := by
  cases m with
  | closed => rfl
  | receive frame clock =>
      dsimp only [perform]
      rw [receiveMessage_eq]
      exact receivePayload_method clock frame _
  | call c =>
  cases c with
  | send message padLength env =>
      dsimp only [Constants.method, perform, step]
      unfold sendMessage
      cases outboundMessage message with
      | error err => rfl
      | ok outbound =>
      dsimp only
      cases outbound.2.marshalBinary with
      | error err => rfl
      | ok plaintext => exact sendPayload_method env outbound.1 plaintext padLength
  | sendPayload messageType plaintext padLength env =>
      dsimp only [Constants.method, perform, step]
      unfold sendPayloadChecked
      split_ifs
      · rfl
      · rfl
      · exact sendPayload_method env messageType plaintext padLength
  | markRekeySent frame now =>
      dsimp only [Constants.method, perform, step]
      rw [Body.run_bind, Access.markRekeySent_alone]
      rfl
  | receivePayload frame clock => exact receivePayload_method clock frame _
  | close =>
      dsimp only [Constants.method, perform, step]
      rw [Access.run_set_bind]
      rfl

/-! ## Constants -/

theorem expireGraceLocked_constants (now : Time) :
    (s.expireGraceLocked now).constants = s.constants := by
  rcases expireGraceLocked_cases s now with h | h
  · rw [h]
  · rw [h]

theorem receivePayload_constants (clock : ReceiveClock) (frame : Frame) :
    (s.receivePayload P clock frame).1.constants = s.constants := by
  have hcase := receivePayload_cases P clock s frame
  generalize s.receivePayload P clock frame = outcome at hcase ⊢
  cases hcase with
  | rejected => rfl
  | rekey => exact expireGraceLocked_constants _
  | previous => rfl
  | current plaintext window =>
      unfold commitCurrent
      dsimp only
      split_ifs
      · rfl
      · exact expireGraceLocked_constants _
      · exact expireGraceLocked_constants _

theorem step_constants (c : SessionCall) : (s.step P c).after.constants = s.constants := by
  have hcase := step_cases P s c
  generalize s.step P c = event at hcase ⊢
  cases hcase with
  | received frame clock after result hcall houtcome =>
      have hsame := receivePayload_constants (P := P) (s := s) clock frame
      rwa [houtcome] at hsame
  | _ => rfl

theorem perform_constants (m : SessionMethod) : (s.perform P m).1.constants = s.constants := by
  cases m with
  | call c => exact step_constants c
  | closed => rfl
  | receive frame clock =>
      dsimp only [perform]
      rw [receiveMessage_eq]
      exact receivePayload_constants clock frame

/-! ## One after the other -/

/-- The calls give these answers, one after the other, and leave the session `last`. -/
def Performs (P : Primitives) : Session → List (Nat × SessionMethod × Answer) → Session → Prop
  | s, [], last => last = s
  | s, (_, m, answer) :: order, last =>
      (s.perform P m).2 = answer ∧ Performs P (s.perform P m).1 order last

theorem performs_of_replays {order : List (Nat × SessionMethod × Answer)}
    {σ : ∀ f : Field, f.Value}
    (h : (sessionObject P s.constants).Replays s.fields order σ) :
    ∃ last, s.Performs P order last ∧ σ = last.fields := by
  induction order generalizing s with
  | nil => exact ⟨s, rfl, h⟩
  | cons entry order ih =>
      obtain ⟨k, m, answer⟩ := entry
      obtain ⟨hanswer, hrest⟩ := h
      have hrun : ((sessionObject P s.constants).body m).run s.fields =
          ((s.perform P m).1.fields, (s.perform P m).2) := runs_alone m
      rw [hrun] at hanswer hrest
      rw [← perform_constants (P := P) (s := s) m] at hrest
      obtain ⟨last, hperforms, hlast⟩ := ih hrest
      exact ⟨last, ⟨hanswer, hperforms⟩, hlast⟩

end Session

/-- The call of a run that a method makes. -/
def SessionMethod.toCall : SessionMethod → Option SessionCall
  | .call c => some c
  | .receive frame clock => some (.receivePayload frame clock)
  | .closed => none

/-- The calls of `Seal` behind an answer. -/
def Answer.seals : Answer → List SealCall
  | .reply calls _ => calls
  | _ => []

namespace Session

variable {P : Primitives} {s last : Session}

/-- The methods make a run, with the same calls of `Seal`. -/
theorem Performs.run {order : List (Nat × SessionMethod × Answer)} (h : s.Performs P order last) :
    last = s.run P (order.filterMap fun entry => entry.2.1.toCall) ∧
      order.flatMap (fun entry => entry.2.2.seals) =
        sealLog (s.events P (order.filterMap fun entry => entry.2.1.toCall)) := by
  induction order generalizing s with
  | nil => exact ⟨h, rfl⟩
  | cons entry order ih =>
      obtain ⟨k, m, answer⟩ := entry
      obtain ⟨rfl, hrest⟩ := h
      obtain ⟨hlast, hseals⟩ := ih hrest
      cases m with
      | closed => exact ⟨hlast, hseals⟩
      | call c =>
          exact ⟨hlast, congrArg ((s.step P c).calls ++ ·) hseals⟩
      | receive frame clock =>
          have hafter : (s.perform P (.receive frame clock)).1 =
              (s.step P (.receivePayload frame clock)).after := by
            dsimp only [perform]
            rw [receiveMessage_eq]
            rfl
          rw [hafter] at hlast hseals
          exact ⟨hlast, hseals⟩

end Session

/-! ## Concurrent calls -/

/-- The state of concurrent calls of a session. -/
abbrev ConcurrentSession := Concurrent Mutex SessionMethod Field.Value Answer

/-- `sendMu` comes before `receiveMu`. -/
def Mutex.rank : Mutex → Nat
  | .sendMu => 0
  | .receiveMu => 1

theorem locks_sorted (P : Primitives) (k : Session.Constants) (m : SessionMethod) :
    ((sessionObject P k).locks m).Pairwise fun l l' => l.rank < l'.rank := by
  show (k.method P m).locks.Pairwise _
  rcases (Session.Constants.sound_method m).locks with h | h | h | h <;> rw [h] <;> decide

section Concurrent

variable {P : Primitives} {s : Session} {c : ConcurrentSession}

/-- **Concurrent use of a session.** Any number of calls of the exported methods, interleaved access
by access.  There is an order of the calls that are done in which they could have been made one
after the other: every call that has returned is among them with the answer it gave, no call comes
before one that had returned when it began, and while nobody is between its mutexes the fields are
those that this run leaves.  And the calls that have begun can always return. -/
theorem session_linearizable
    (h : (sessionObject P s.constants).Reaches (LockedObject.start s.fields) c) :
    (∃ (order : List (Nat × SessionMethod × Answer)) (last : Session),
      s.Performs P order last ∧ (order.map Prod.fst).Nodup ∧
      (∀ k m answer, (k, m, answer) ∈ order → .invoked k m ∈ c.history) ∧
      (∀ k answer, .returned k answer ∈ c.history → ∃ m, (k, m, answer) ∈ order) ∧
      (∀ i j answer m, [.returned i answer, .invoked j m].Sublist c.history →
        j ∈ order.map Prod.fst → [i, j].Sublist (order.map Prod.fst)) ∧
      ((∀ k m rest, c.calls k ≠ .inside m rest) → c.store = last.fields)) ∧
    ∃ later, (sessionObject P s.constants).Goes c later ∧ ∀ k, ¬ LockedObject.Active later k := by
  refine ⟨?_, ?_⟩
  · obtain ⟨-, order, σ, hlinear⟩ := LockedObject.linearizes_of_reaches h
    obtain ⟨last, hperforms, rfl⟩ := Session.performs_of_replays hlinear.replays
    refine ⟨order, last, hperforms, hlinear.traced.nodup, ?_, ?_, ?_, hlinear.overlaid.settled⟩
    · exact fun k m answer hmem => hlinear.traced.invoked hmem
    · exact fun k answer hmem => hlinear.traced.answered hmem
    · exact fun i j answer m hpair hj => hlinear.traced.realTime hpair hj
  · have hbound : ∀ l : Mutex, l.rank ≤ 1 := by
      intro l
      cases l <;> decide
    exact LockedObject.completes_of_reaches (locks_sorted P s.constants) hbound h

/-- `Closed` begins while `Close` has one mutex and waits for its turn. -/
theorem session_linearizable_closing :
    ∃ s, newSession transparent cipherChaCha20Poly1305 sampleSecrets 0 = .ok s ∧
      ∃ c, (sessionObject transparent s.constants).Reaches (LockedObject.start s.fields) c ∧
        c.history = [.invoked 0 (.call .close), .invoked 1 .closed,
          .returned 0 (.reply [] (.ok .done)), .returned 1 (.closed true)] ∧
        ∃ order last, s.Performs transparent order last ∧ (order.map Prod.fst).Nodup ∧
          ∃ m, (1, m, .closed true) ∈ order := by
  refine ⟨_, newSession_sample, ?_⟩
  generalize initialSession cipherChaCha20Poly1305 sampleSecrets ⟨sampleSecrets.sendKey⟩
    ⟨sampleSecrets.receiveKey⟩ 0 = s
  have h₀ : (sessionObject transparent s.constants).Reaches (LockedObject.start s.fields)
      (LockedObject.start s.fields) := .refl
  have h₁ := (h₀.step (.invoke (k := 0) (.call .close) rfl)).move (.lock (k := 0) rfl rfl)
  have h₂ := (h₁.step (.invoke (k := 1) .closed rfl)).move (.lock (k := 0) rfl rfl)
  have h₃ := (h₂.move (.enter (k := 0) rfl)).move (.write (k := 0) rfl)
  have h₄ := (h₃.move (.finish (k := 0) rfl)).move (.unlock (k := 0) rfl)
  have h₅ := (h₄.move (.unlock (k := 0) rfl)).move (.respond (k := 0) rfl)
  have h₆ := (h₅.move (.lock (k := 1) rfl rfl)).move (.enter (k := 1) rfl)
  have h₇ := (h₆.move (.read (k := 1) rfl)).move (.finish (k := 1) rfl)
  have h₈ := (h₇.move (.unlock (k := 1) rfl)).move (.respond (k := 1) rfl)
  obtain ⟨⟨order, last, hperforms, hnodup, -, hanswers, -⟩, -⟩ := session_linearizable h₈
  exact ⟨_, h₈, rfl, order, last, hperforms, hnodup, hanswers 1 (.closed true) (by simp)⟩

/-- **Nonces of concurrent calls.** Any two calls of `Seal` behind the answers of concurrent calls
use different keys or nonces, unless they are one call of `Seal` in one answer. -/
theorem concurrent_nonces_unique {suite : CipherSuite} {secrets : HandshakeSecrets}
    (hfresh : ChainFresh P secrets.sendKey) {now : Time}
    (hs : newSession P suite secrets now = .ok s) (limits : Session.Limits)
    (h : (sessionObject P (s.withLimits limits).constants).Reaches
      (LockedObject.start (s.withLimits limits).fields) c) {i j : Nat} {a b : Answer}
    (hi : .returned i a ∈ c.history) (hj : .returned j b ∈ c.history) {x y : SealCall}
    (hx : x ∈ a.seals) (hy : y ∈ b.seals)
    (hsame : (x.key, nonce x.sequence) = (y.key, nonce y.sequence)) : i = j ∧ x = y := by
  obtain ⟨-, order, σ, hlinear⟩ := LockedObject.linearizes_of_reaches h
  obtain ⟨last, hperforms, -⟩ := Session.performs_of_replays hlinear.replays
  obtain ⟨-, hseals⟩ := hperforms.run
  -- The order is a run, and in a run no key and sequence number come twice.
  have hinv := Session.events_induction (I := Session.NonceInv P secrets.sendKey)
    (fun _ _ call h => h.step hfresh call) (s.withLimits limits)
    (order.filterMap fun entry => entry.2.1.toCall) (Session.nonceInv_newSession hs limits)
  rw [List.nil_append] at hinv
  have hnodup := hinv.nodup
  rw [← hseals, List.map_flatMap, List.nodup_flatMap] at hnodup
  obtain ⟨hwithin, hacross⟩ := hnodup
  have hpair : (x.key, x.sequence) = (y.key, y.sequence) := by
    obtain ⟨hkey, hnonce⟩ := Prod.mk.inj hsame
    rw [hkey, nonce_injective hnonce]
  obtain ⟨m, hmem⟩ := hlinear.traced.answered hi
  obtain ⟨m', hmem'⟩ := hlinear.traced.answered hj
  by_cases hentry : (i, m, a) = (j, m', b)
  · obtain ⟨rfl, -, rfl⟩ : i = j ∧ m = m' ∧ a = b := by simpa using hentry
    exact ⟨rfl, List.inj_on_of_nodup_map (hwithin _ hmem) hx hy hpair⟩
  · have hsymm : Std.Symm (Function.onFun List.Disjoint
        fun entry : Nat × SessionMethod × Answer =>
          entry.2.2.seals.map fun call => (call.key, call.sequence)) :=
      ⟨fun _ _ hd => List.Disjoint.symm hd⟩
    have hdisjoint := hacross.forall hmem hmem' hentry
    have hleft := List.mem_map_of_mem (f := fun call : SealCall => (call.key, call.sequence)) hx
    have hright := List.mem_map_of_mem (f := fun call : SealCall => (call.key, call.sequence)) hy
    rw [← hpair] at hright
    exact (hdisjoint hleft hright).elim

/-- The session of `newSession_sample`. -/
def freshSession : Session :=
  initialSession cipherChaCha20Poly1305 sampleSecrets ⟨sampleSecrets.sendKey⟩
    ⟨sampleSecrets.receiveKey⟩ 0

/-- Two sends that overlap, and have both returned. -/
theorem concurrent_nonces_unique_overlapping :
    newSession transparent cipherChaCha20Poly1305 sampleSecrets 0 = .ok freshSession ∧
      ∃ c, (sessionObject transparent (freshSession.withLimits ⟨0, 0, 0, 0⟩).constants).Reaches
          (LockedObject.start (freshSession.withLimits ⟨0, 0, 0, 0⟩).fields) c ∧
        ∃ a b x y, .returned 0 a ∈ c.history ∧ .returned 1 b ∈ c.history ∧
          x ∈ a.seals ∧ y ∈ b.seals ∧
          (x.key, nonce x.sequence) ≠ (y.key, nonce y.sequence) := by
  refine ⟨newSession_sample, ?_⟩
  have h₀ : (sessionObject transparent (freshSession.withLimits ⟨0, 0, 0, 0⟩).constants).Reaches
      (LockedObject.start (freshSession.withLimits ⟨0, 0, 0, 0⟩).fields)
      (LockedObject.start (freshSession.withLimits ⟨0, 0, 0, 0⟩).fields) := .refl
  have h₁ := (h₀.step (.invoke (k := 0) (.call (samplePing 1)) rfl)).step
    (.invoke (k := 1) (.call (samplePing 2)) rfl)
  have h₂ := (h₁.move (.lock (k := 0) rfl rfl)).move (.enter (k := 0) rfl)
  have h₃ := (h₂.move (.read (k := 0) rfl)).move (.read (k := 0) rfl)
  have h₄ := (h₃.move (.read (k := 0) rfl)).move (.read (k := 0) rfl)
  have h₅ := (h₄.move (.write (k := 0) rfl)).move (.read (k := 0) rfl)
  have h₆ := (h₅.move (.write (k := 0) rfl)).move (.finish (k := 0) rfl)
  have h₇ := (h₆.move (.unlock (k := 0) rfl)).move (.respond (k := 0) rfl)
  have h₈ := (h₇.move (.lock (k := 1) rfl rfl)).move (.enter (k := 1) rfl)
  have h₉ := (h₈.move (.read (k := 1) rfl)).move (.read (k := 1) rfl)
  have h₁₀ := (h₉.move (.read (k := 1) rfl)).move (.read (k := 1) rfl)
  have h₁₁ := (h₁₀.move (.write (k := 1) rfl)).move (.read (k := 1) rfl)
  have h₁₂ := (h₁₁.move (.write (k := 1) rfl)).move (.finish (k := 1) rfl)
  have h₁₃ := (h₁₂.move (.unlock (k := 1) rfl)).move (.respond (k := 1) rfl)
  refine ⟨_, h₁₃, _, _, _, _,
    List.mem_append_left _ (List.mem_append_right _ List.mem_cons_self),
    List.mem_append_right _ List.mem_cons_self, List.mem_cons_self, List.mem_cons_self, ?_⟩
  intro hsame
  have hone := (concurrent_nonces_unique (chainFresh_counterKey (by decide)) newSession_sample _
    h₁₃ (List.mem_append_left _ (List.mem_append_right _ List.mem_cons_self))
    (List.mem_append_right _ List.mem_cons_self) List.mem_cons_self List.mem_cons_self hsame).1
  cases hone

end Concurrent

end DgProto
