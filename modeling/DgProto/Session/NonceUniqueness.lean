import Mathlib.Data.List.Nodup
import DgProto.Session.Run

/-!
# Nonce uniqueness

No two calls to `Seal` over the life of a session use the same traffic key and
sequence number.  The sequence counter restarts with every epoch, so the argument
is by epoch: calls of earlier epochs used earlier keys of the chain, and calls of
the current epoch used numbers below the counter, which becomes zero only after
the last number and then admits no further call.
-/

namespace DgProto

open Library Wire Crypto

/-- The calls to `Seal` of a run, in order. -/
def sealLog (events : List Event) : List SealCall :=
  events.flatMap Event.calls

namespace Session

/-- A call that was made before the counter reached its present value: under an
earlier key, or under the current key with a smaller number. -/
def Spent (P : Primitives) (key : Key) (s : Session) (call : SealCall) : Prop :=
  ∃ j < s.sendEpoch.toNat, call.key = keyChain P key j ∧
    (j + 1 = s.sendEpoch.toNat → s.nextSequence = 0 ∨ call.sequence < s.nextSequence)

/-- The state of the argument after the events `past`. -/
structure NonceInv (P : Primitives) (key : Key) (past : List Event) (s : Session) : Prop where
  keys : SendKeys P key s
  spent : ∀ call ∈ sealLog past, s.Spent P key call
  nodup : ((sealLog past).map fun call => (call.key, call.sequence)).Nodup

section Step

variable {P : Primitives} {key : Key} {past : List Event} {s : Session}

/-- Advancing the counter keeps earlier calls spent. -/
theorem Spent.advance {call : SealCall} (h : s.Spent P key call) (hne : s.nextSequence ≠ 0) :
    s.advance.Spent P key call := by
  obtain ⟨j, hj, hkey, hlast⟩ := h
  refine ⟨j, hj, hkey, fun heq => ?_⟩
  have hlt := (hlast heq).resolve_left hne
  rw [advance_nextSequence]
  rcases succSequence_eq_zero_or (n := s.nextSequence) with hzero | hsucc
  · exact .inl hzero
  · right
    rw [UInt64.lt_iff_toNat_lt] at hlt ⊢
    omega

/-- Advancing the counter spends the number it stood at. -/
theorem SendKeys.spent_advance {p : Packet} (h : SendKeys P key s) (hemits : s.Emits p) :
    s.advance.Spent P key (p.sealCall s.send.key) := by
  have hpos := h.epoch_pos
  refine ⟨s.sendEpoch.toNat - 1, Nat.sub_lt hpos Nat.one_pos, ?_, fun _ => ?_⟩
  · simp only [Packet.sealCall, h.codec]
    exact h.sendKey
  · have hsequence : (p.sealCall s.send.key).sequence = s.nextSequence := hemits.sequence
    rw [advance_nextSequence, hsequence]
    rcases succSequence_eq_zero_or (n := s.nextSequence) with hzero | hsucc
    · exact .inl hzero
    · right
      rw [UInt64.lt_iff_toNat_lt]
      omega

/-- The call of the next frame is not among the spent ones. -/
theorem SendKeys.sealCall_ne {p : Packet} {call : SealCall} (h : SendKeys P key s)
    (hfresh : ChainFresh P key) (hemits : s.Emits p) (hspent : s.Spent P key call) :
    (call.key, call.sequence) ≠
      ((p.sealCall s.send.key).key, (p.sealCall s.send.key).sequence) := by
  intro heq
  obtain ⟨hkey, hsequence⟩ := Prod.mk.inj heq
  obtain ⟨j, hj, hchain, hlast⟩ := hspent
  have hbound := s.sendEpoch.toNat_lt
  have hcurrent : keyChain P key j = keyChain P key (s.sendEpoch.toNat - 1) := by
    rw [← hchain, hkey, ← h.sendKey]
    simp [Packet.sealCall, h.codec]
  have hindex : j = s.sendEpoch.toNat - 1 :=
    hfresh j _ (by simp only [epochCount]; omega) (by simp only [epochCount]; omega) hcurrent
  have hnumber : call.sequence = s.nextSequence := hsequence.trans hemits.sequence
  rcases hlast (by omega) with hzero | hlt
  · exact hemits.nextSequence_ne_zero hzero
  · rw [hnumber, UInt64.lt_iff_toNat_lt] at hlt
    omega

theorem sealLog_append (past : List Event) (event : Event) :
    sealLog (past ++ [event]) = sealLog past ++ event.calls := by
  simp [sealLog]

/-- Sealing one more packet keeps the log free of repetitions. -/
theorem NonceInv.seal {p : Packet} {after : Session} {event : Event}
    (h : NonceInv P key past s) (hfresh : ChainFresh P key) (hemits : s.Emits p)
    (hcalls : event.calls = [p.sealCall s.send.key]) (hkeys : SendKeys P key after)
    (hspent : ∀ call, s.advance.Spent P key call → after.Spent P key call) :
    NonceInv P key (past ++ [event]) after := by
  refine ⟨hkeys, ?_, ?_⟩
  · intro call hcall
    rw [sealLog_append, hcalls, List.mem_append, List.mem_singleton] at hcall
    rcases hcall with hold | rfl
    · exact hspent call ((h.spent call hold).advance hemits.nextSequence_ne_zero)
    · exact hspent _ (h.keys.spent_advance hemits)
  · rw [sealLog_append, hcalls, List.map_append, List.nodup_append]
    refine ⟨h.nodup, List.nodup_singleton _, ?_⟩
    intro pair hpair other hother
    obtain ⟨call, hcall, rfl⟩ := List.mem_map.mp hpair
    obtain rfl := List.mem_singleton.mp hother
    exact h.keys.sealCall_ne hfresh hemits (h.spent call hcall)

/-- A call without `Seal` keeps the invariant when it keeps the log spent. -/
theorem NonceInv.quiet {after : Session} {event : Event} (h : NonceInv P key past s)
    (hcalls : event.calls = []) (hkeys : SendKeys P key after)
    (hspent : ∀ call, s.Spent P key call → after.Spent P key call) :
    NonceInv P key (past ++ [event]) after := by
  have hlog : sealLog (past ++ [event]) = sealLog past := by
    rw [sealLog_append, hcalls, List.append_nil]
  exact ⟨hkeys, fun call hcall => hspent call (h.spent call (hlog ▸ hcall)), hlog ▸ h.nodup⟩

theorem NonceInv.step (hfresh : ChainFresh P key) (h : NonceInv P key past s)
    (call : SessionCall) :
    NonceInv P key (past ++ [s.step P call]) (s.step P call).after := by
  have hkeys := h.keys.step call
  have hcase := step_cases P s call
  generalize s.step P call = event at hcase hkeys ⊢
  cases hcase with
  | rejected => exact h.quiet rfl hkeys fun _ hspent => hspent
  | received frame clock after result _ _ hside =>
      refine h.quiet rfl hkeys fun spentCall hspent => ?_
      simp only [sendSide, SendSide.mk.injEq] at hside
      obtain ⟨-, -, -, -, hepoch, hnext, -, -, -, -⟩ := hside
      unfold Spent at hspent ⊢
      rw [hepoch, hnext]
      exact hspent
  | closed => exact h.quiet rfl hkeys fun _ hspent => hspent
  | data p hemits | rekeyLost p hemits | rekey p hemits =>
      exact h.seal hfresh hemits rfl hkeys fun _ hspent => hspent
  | marked pending now hcall hopen hpending =>
      refine h.quiet rfl hkeys fun spentCall hspent => ?_
      obtain ⟨j, hj, hkey, -⟩ := hspent
      have hepoch := (h.keys.pending pending hpending).2.2
      exact ⟨j, by simp only [hepoch]; omega, hkey, fun heq => by simp only [hepoch] at heq; omega⟩

end Step

theorem nonceInv_newSession {P : Primitives} {suite : CipherSuite} {secrets : HandshakeSecrets}
    {now : Time} {s : Session} (h : newSession P suite secrets now = .ok s) (limits : Limits) :
    NonceInv P secrets.sendKey [] (s.withLimits limits) :=
  ⟨sendKeys_newSession h limits, by simp [sealLog], by simp [sealLog]⟩

/-- If every codec can be made, a call that reached `Seal` made exactly one call,
with the next number under the current key, consumed that number and returned a
frame. -/
theorem step_seal_consumes {P : Primitives} {s : Session} (hnew : P.NewSucceeds)
    (hsuite : s.suite = cipherChaCha20Poly1305) (hcodec : s.send = ⟨s.sendKey⟩)
    (call : SessionCall) (hcalls : (s.step P call).calls ≠ []) :
    (∃ sealCall, (s.step P call).calls = [sealCall] ∧ sealCall.key = s.sendKey ∧
        sealCall.sequence = s.nextSequence) ∧
      (s.step P call).after.nextSequence = succSequence s.nextSequence ∧
      succSequence s.nextSequence ≠ s.nextSequence ∧
      ∃ frame, (s.step P call).result = .ok (.frame frame) := by
  have hcase := step_cases P s call
  generalize s.step P call = event at hcase hcalls ⊢
  cases hcase with
  | rejected | received | closed | marked => exact absurd rfl hcalls
  | data p hemits | rekey p hemits =>
      exact ⟨⟨_, rfl, by simp [Packet.sealCall, hcodec], hemits.sequence⟩, rfl,
        succSequence_ne hemits.nextSequence_ne_zero, _, rfl⟩
  | rekeyLost p hemits err _ hfails =>
      rw [hsuite, newCodec_of_new hnew] at hfails
      cases hfails

end Session

open Session

/-- **Nonce uniqueness.** In every run of a session, with any limits, clocks, frames
and random source, no two calls to `Seal` use the same key and sequence number,
nor the same key and nonce, and every call that reached `Seal` consumed its number
and returned the frame. -/
theorem seal_nonce_unique (P : Primitives) (hnew : P.NewSucceeds) {suite : CipherSuite}
    {secrets : HandshakeSecrets} (hfresh : ChainFresh P secrets.sendKey) {now : Time}
    {s : Session} (hs : newSession P suite secrets now = .ok s) (limits : Limits)
    (calls : List SessionCall) :
    ((sealLog ((s.withLimits limits).events P calls)).map
        fun call => (call.key, call.sequence)).Nodup ∧
      ((sealLog ((s.withLimits limits).events P calls)).map
        fun call => (call.key, nonce call.sequence)).Nodup ∧
      ∀ event ∈ (s.withLimits limits).events P calls, event.calls ≠ [] →
        (∃ call, event.calls = [call] ∧ call.key = event.before.sendKey ∧
            call.sequence = event.before.nextSequence) ∧
          event.after.nextSequence = succSequence event.before.nextSequence ∧
          succSequence event.before.nextSequence ≠ event.before.nextSequence ∧
          ∃ frame, event.result = .ok (.frame frame) := by
  have hinv := events_induction (I := NonceInv P secrets.sendKey)
    (fun _ _ call h => h.step hfresh call) (s.withLimits limits) calls
    (nonceInv_newSession hs limits)
  rw [List.nil_append] at hinv
  refine ⟨hinv.nodup, ?_, ?_⟩
  · have hpairs := hinv.nodup.map (Function.injective_id.prodMap nonce_injective)
    simpa [Function.comp_def] using hpairs
  · intro event hevent hcalls
    obtain ⟨reached, call, hkeys, rfl⟩ := exists_step_of_mem_events
      (I := SendKeys P secrets.sendKey) (fun _ call h => h.step call)
      (sendKeys_newSession hs limits) hevent
    rw [step_before]
    exact step_seal_consumes hnew hkeys.suite hkeys.codec call hcalls

/-- The assumptions are met by the transparent primitives, here with a limit of one
frame per epoch, so that the second send announces a rekey. -/
theorem seal_nonce_unique_transparent :
    ∃ s, newSession transparent cipherChaCha20Poly1305 sampleSecrets 0 = .ok s ∧
      ((sealLog ((s.withLimits ⟨1, 0, 0, 0⟩).events transparent
        [.sendPayload MessageType.pingPong [1] 0 ⟨0, ⟨[], none⟩⟩,
          .sendPayload MessageType.pingPong [2] 0 ⟨0, ⟨[], none⟩⟩, .close])).map
        fun call => (call.key, call.sequence)).Nodup :=
  ⟨_, newSession_sample, (seal_nonce_unique transparent transparent_newSucceeds
    (chainFresh_counterKey (by decide)) newSession_sample _ _).1⟩

end DgProto
