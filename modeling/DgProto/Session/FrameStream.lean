import DgProto.Session.Run

/-!
# The shape of the emitted stream

The frames that a session emits under one send epoch are numbered from one without
gaps, at most the configured number of them carry messages, and if the epoch ends
it ends with its one `RekeyInit`.  No frame of the next epoch is emitted before
that very frame was marked as sent.

The invariant ties the counters of the state to the emissions of the current epoch
and says of every finished epoch that its shape is final.
-/

namespace DgProto

open Library Wire Crypto

/-- The emissions under one epoch, in order. -/
def emissions (events : List Event) (epoch : UInt32) : List Emission :=
  (events.filterMap Event.emission).filter fun e => e.epoch = epoch

/-- The shape of the emissions under `epoch` for a limit of `limit` messages. -/
structure EpochShape (limit : Nat) (epoch : UInt32) (sent : List Emission) : Prop where
  /-- Numbers one to `n`, in order. -/
  numbered : sent.map (fun e => e.frame.header.sequence.toNat) = List.range' 1 sent.length
  messages : (sent.filter fun e => !e.isRekey).length ≤ limit
  oneRekey : (sent.filter fun e => e.isRekey).length ≤ 1
  /-- A `RekeyInit` is the last emission and announces the next epoch. -/
  rekeyLast : ∀ e ∈ sent, e.isRekey →
    sent.getLast? = some e ∧ e.frame.header.sequence.toNat = sent.length ∧
      ∃ init, RekeyInit.unmarshalBinary e.plaintext = .ok init ∧
        init.epoch.toNat = epoch.toNat + 1

/-- Some event marked as sent the `RekeyInit` that was emitted, before it, in the
epoch before `epoch`. -/
def Opened (events : List Event) (epoch : UInt32) : Prop :=
  ∃ earlier mark later rekey now, events = earlier ++ mark :: later ∧
    rekey ∈ emissions earlier rekey.epoch ∧ rekey.isRekey ∧
    rekey.epoch.toNat + 1 = epoch.toNat ∧
    mark.call = .markRekeySent rekey.frame now ∧ mark.result = .ok .done

/-- Every frame of a later epoch was emitted after its epoch was opened. -/
def Ordered (events : List Event) : Prop :=
  ∀ earlier event later emission, events = earlier ++ event :: later →
    event.emission = some emission → emission.epoch = 1 ∨ Opened earlier emission.epoch

/-! ## Appending an event -/

theorem emissions_append (past : List Event) (event : Event) (epoch : UInt32) :
    emissions (past ++ [event]) epoch = emissions past epoch ++
      (event.emission.toList.filter fun e => e.epoch = epoch) := by
  cases hemission : event.emission <;>
    simp [emissions, List.filterMap_append, hemission]

theorem emissions_append_none {past : List Event} {event : Event}
    (h : event.emission = none) (epoch : UInt32) :
    emissions (past ++ [event]) epoch = emissions past epoch := by
  simp [emissions_append, h]

theorem emissions_append_some {past : List Event} {event : Event} {e : Emission}
    (h : event.emission = some e) :
    emissions (past ++ [event]) e.epoch = emissions past e.epoch ++ [e] := by
  simp [emissions_append, h]

theorem emissions_append_other {past : List Event} {event : Event} {e : Emission}
    (h : event.emission = some e) {epoch : UInt32} (hne : e.epoch ≠ epoch) :
    emissions (past ++ [event]) epoch = emissions past epoch := by
  simp [emissions_append, h, hne]

theorem Opened.append {past : List Event} {epoch : UInt32} (h : Opened past epoch)
    (event : Event) : Opened (past ++ [event]) epoch := by
  obtain ⟨earlier, mark, later, rekey, now, rfl, hrest⟩ := h
  exact ⟨earlier, mark, later ++ [event], rekey, now, by simp, hrest⟩

/-- Appending an event whose epoch is the first or already open keeps the order. -/
theorem Ordered.append {past : List Event} (h : Ordered past) {event : Event}
    (hevent : ∀ e, event.emission = some e → e.epoch = 1 ∨ Opened past e.epoch) :
    Ordered (past ++ [event]) := by
  intro earlier other later emission hsplit hemission
  rcases List.eq_nil_or_concat later with rfl | ⟨front, last, rfl⟩
  · obtain ⟨rfl, hlast⟩ := List.append_inj' hsplit rfl
    obtain rfl := List.head_eq_of_cons_eq hlast
    exact hevent emission hemission
  · have hpast : past = earlier ++ other :: front := by
      have hcancel : past ++ [event] = (earlier ++ other :: front) ++ [last] := by
        simpa using hsplit
      exact (List.append_inj' hcancel rfl).1
    exact h earlier other front emission hpast hemission

/-! ## Appending an emission to its epoch -/

namespace EpochShape

variable {limit : Nat} {epoch : UInt32} {sent : List Emission} {e : Emission}

theorem nil (limit : Nat) (epoch : UInt32) : EpochShape limit epoch [] :=
  ⟨rfl, Nat.zero_le _, Nat.zero_le _, fun _ hmem => by cases hmem⟩

theorem numbered_append (h : EpochShape limit epoch sent)
    (hnumber : e.frame.header.sequence.toNat = sent.length + 1) :
    (sent ++ [e]).map (fun e => e.frame.header.sequence.toNat) =
      List.range' 1 (sent ++ [e]).length := by
  rw [List.map_append, h.numbered, List.length_append, List.length_singleton,
    List.range'_1_concat]
  simp [hnumber, Nat.add_comm]

/-- A message keeps the shape while no `RekeyInit` was emitted and room is left. -/
theorem append_message (h : EpochShape limit epoch sent)
    (hnone : ∀ other ∈ sent, other.isRekey = false) (he : e.isRekey = false)
    (hnumber : e.frame.header.sequence.toNat = sent.length + 1) (hroom : sent.length < limit) :
    EpochShape limit epoch (sent ++ [e]) := by
  have hall : ∀ other ∈ sent ++ [e], other.isRekey = false := by
    intro other hmem
    rcases List.mem_append.mp hmem with hold | hnew
    · exact hnone other hold
    · rw [List.mem_singleton.mp hnew]
      exact he
  refine ⟨h.numbered_append hnumber, ?_, ?_, ?_⟩
  · calc ((sent ++ [e]).filter fun e => !e.isRekey).length
        ≤ (sent ++ [e]).length := List.length_filter_le _ _
      _ ≤ limit := by
          rw [List.length_append, List.length_singleton]
          exact hroom
  · rw [List.filter_eq_nil_iff.mpr fun other hmem => by simp [hall other hmem]]
    exact Nat.zero_le _
  · intro other hmem hrekey
    rw [hall other hmem] at hrekey
    cases hrekey

/-- A `RekeyInit` for the next epoch closes the shape. -/
theorem append_rekey (h : EpochShape limit epoch sent)
    (hnone : ∀ other ∈ sent, other.isRekey = false) (he : e.isRekey = true)
    (hnumber : e.frame.header.sequence.toNat = sent.length + 1) (hroom : sent.length ≤ limit)
    (hinit : ∃ init, RekeyInit.unmarshalBinary e.plaintext = .ok init ∧
      init.epoch.toNat = epoch.toNat + 1) :
    EpochShape limit epoch (sent ++ [e]) := by
  refine ⟨h.numbered_append hnumber, ?_, ?_, ?_⟩
  · rw [List.filter_append]
    calc (sent.filter (fun e => !e.isRekey) ++ [e].filter fun e => !e.isRekey).length
        ≤ sent.length + 0 := by
          rw [List.length_append]
          exact Nat.add_le_add (List.length_filter_le _ _) (by simp [he])
      _ ≤ limit := hroom
  · have hempty : (sent.filter fun e => e.isRekey) = [] :=
      List.filter_eq_nil_iff.mpr fun other hmem => by simp [hnone other hmem]
    rw [List.filter_append, hempty]
    simp [he]
  · intro other hmem hrekey
    rcases List.mem_append.mp hmem with hold | hnew
    · rw [hnone other hold] at hrekey
      cases hrekey
    · obtain rfl := List.mem_singleton.mp hnew
      exact ⟨by simp, by simp [hnumber], hinit⟩

end EpochShape

/-! ## The invariant -/

/-- The counters of `s` describe the emissions so far.  The next number is tied to
the count only while no `RekeyInit` is pending: under the largest limit the
`RekeyInit` takes the last number and leaves the counter at zero. -/
structure StreamInv (P : Primitives) (key : Key) (limit : UInt64) (past : List Event)
    (s : Session) : Prop where
  keys : s.SendKeys P key
  limit_eq : s.rekeyFrameLimit = limit
  sent : (emissions past s.sendEpoch).length = s.sentInEpoch.toNat
  shape : ∀ epoch, EpochShape limit.toNat epoch (emissions past epoch)
  future : ∀ epoch, s.sendEpoch.toNat < epoch.toNat → emissions past epoch = []
  idle : s.pendingRekey = none →
    (∀ e ∈ emissions past s.sendEpoch, e.isRekey = false) ∧
      s.sentInEpoch.toNat ≤ limit.toNat ∧ s.nextSequence.toNat = s.sentInEpoch.toNat + 1
  waiting : ∀ pending, s.pendingRekey = some pending →
    ∃ e ∈ emissions past s.sendEpoch, e.isRekey ∧ e.frame = pending.frame
  opened : ∀ epoch, 1 < epoch.toNat → epoch.toNat ≤ s.sendEpoch.toNat → Opened past epoch
  ordered : Ordered past

namespace StreamInv

variable {P : Primitives} {key : Key} {limit : UInt64} {past : List Event} {s : Session}

theorem start {suite : CipherSuite} {secrets : HandshakeSecrets} {now : Time}
    (h : newSession P suite secrets now = .ok s) (limits : Session.Limits) :
    StreamInv P secrets.sendKey limits.rekeyFrameLimit [] (s.withLimits limits) := by
  have hkeys := Session.sendKeys_newSession h limits
  obtain ⟨rfl, -, rfl⟩ := newSession_eq_ok h
  refine ⟨hkeys, rfl, rfl, fun epoch => EpochShape.nil _ epoch, fun _ _ => rfl,
    fun _ => ⟨?_, Nat.zero_le _, rfl⟩, fun _ hnone => ?_, fun epoch hlow hhigh => ?_,
    fun earlier _ _ _ hsplit => ?_⟩
  · intro _ hmem
    cases hmem
  · cases hnone
  · change epoch.toNat ≤ 1 at hhigh
    omega
  · simp at hsplit

/-- An event that emits nothing and leaves the counters alone. -/
theorem quiet (h : StreamInv P key limit past s) {event : Event} {after : Session}
    (hemission : event.emission = none) (hkeys : after.SendKeys P key)
    (hepoch : after.sendEpoch = s.sendEpoch) (hnext : after.nextSequence = s.nextSequence)
    (hsent : after.sentInEpoch = s.sentInEpoch) (hlimit : after.rekeyFrameLimit = s.rekeyFrameLimit)
    (hpending : after.pendingRekey = s.pendingRekey) :
    StreamInv P key limit (past ++ [event]) after where
  keys := hkeys
  limit_eq := hlimit.trans h.limit_eq
  sent := by rw [emissions_append_none hemission, hepoch, hsent, h.sent]
  shape epoch := by
    rw [emissions_append_none hemission]
    exact h.shape epoch
  future epoch hlt := by
    rw [emissions_append_none hemission]
    exact h.future epoch (hepoch ▸ hlt)
  idle hnone := by
    rw [emissions_append_none hemission, hepoch, hsent, hnext]
    exact h.idle (hpending ▸ hnone)
  waiting pending hsome := by
    rw [emissions_append_none hemission, hepoch]
    exact h.waiting pending (hpending ▸ hsome)
  opened epoch hlow hhigh := (h.opened epoch hlow (hepoch ▸ hhigh)).append event
  ordered := h.ordered.append fun e he => by simp [hemission] at he

/-- The epoch of the next emission is the first, or was opened. -/
theorem epoch_opened (h : StreamInv P key limit past s) :
    s.sendEpoch = 1 ∨ Opened past s.sendEpoch := by
  by_cases hone : s.sendEpoch.toNat = 1
  · exact .inl (UInt32.toNat_inj.mp (by simpa using hone))
  · have hpos := h.keys.epoch_pos
    exact .inr (h.opened s.sendEpoch (by omega) (Nat.le_refl _))

/-- The emission count never wraps: it is at most one above the limit. -/
theorem sent_advance (h : StreamInv P key limit past s) (hnone : s.pendingRekey = none)
    (hlimit : limit.toNat + 1 < 2 ^ 64) :
    s.advance.sentInEpoch.toNat = s.sentInEpoch.toNat + 1 := by
  have hle := (h.idle hnone).2.1
  change (s.sentInEpoch + 1).toNat = _
  rw [UInt64.toNat_add]
  simp
  omega

/-- Below the limit the next number does not wrap either. -/
theorem next_advance (h : StreamInv P key limit past s) (hnone : s.pendingRekey = none)
    (hlimit : limit.toNat + 1 < 2 ^ 64) (hroom : s.sentInEpoch.toNat < limit.toNat) :
    s.advance.nextSequence.toNat = s.nextSequence.toNat + 1 := by
  have hnext := (h.idle hnone).2.2
  have hmax : s.nextSequence ≠ 0xFFFFFFFFFFFFFFFF := by
    intro heq
    have hvalue : s.nextSequence.toNat = 2 ^ 64 - 1 := by rw [heq]; rfl
    omega
  rw [Session.advance_nextSequence, succSequence, if_neg hmax, UInt64.toNat_add]
  simp
  omega

/-- An event that emits one frame of the current epoch. -/
theorem emit (h : StreamInv P key limit past s) {event : Event} {after : Session} {e : Emission}
    (hemission : event.emission = some e) (heEpoch : e.epoch = s.sendEpoch)
    (hnone : s.pendingRekey = none) (hlimit : limit.toNat + 1 < 2 ^ 64)
    (hkeys : after.SendKeys P key) (hepoch : after.sendEpoch = s.sendEpoch)
    (hnext : after.nextSequence = s.advance.nextSequence)
    (hsent : after.sentInEpoch = s.advance.sentInEpoch)
    (hrekeyLimit : after.rekeyFrameLimit = s.rekeyFrameLimit)
    (hshape : EpochShape limit.toNat s.sendEpoch (emissions past s.sendEpoch ++ [e]))
    (hidle : after.pendingRekey = none → e.isRekey = false ∧ s.sentInEpoch.toNat < limit.toNat)
    (hwaiting : ∀ pending, after.pendingRekey = some pending →
      e.isRekey ∧ e.frame = pending.frame) :
    StreamInv P key limit (past ++ [event]) after := by
  have hcount := h.sent_advance hnone hlimit
  have hcurrent : emissions (past ++ [event]) s.sendEpoch =
      emissions past s.sendEpoch ++ [e] := heEpoch ▸ emissions_append_some hemission
  have hother {epoch : UInt32} (hne : s.sendEpoch ≠ epoch) :
      emissions (past ++ [event]) epoch = emissions past epoch :=
    emissions_append_other hemission (heEpoch ▸ hne)
  exact
    { keys := hkeys
      limit_eq := hrekeyLimit.trans h.limit_eq
      sent := by
        rw [hepoch, hcurrent, List.length_append, List.length_singleton, h.sent, hsent, hcount]
      shape := fun epoch => by
        by_cases heq : s.sendEpoch = epoch
        · rw [← heq, hcurrent]
          exact hshape
        · rw [hother heq]
          exact h.shape epoch
      future := fun epoch hlt => by
        rw [hepoch] at hlt
        rw [hother fun heq => by rw [heq] at hlt; omega]
        exact h.future epoch hlt
      idle := fun hafter => by
        obtain ⟨he, hroom⟩ := hidle hafter
        rw [hepoch, hcurrent, hnext, hsent, hcount, h.next_advance hnone hlimit hroom,
          (h.idle hnone).2.2]
        refine ⟨fun other hmem => ?_, hroom, rfl⟩
        rcases List.mem_append.mp hmem with hold | hnew
        · exact (h.idle hnone).1 other hold
        · rw [List.mem_singleton.mp hnew]
          exact he
      waiting := fun pending hafter => by
        rw [hepoch, hcurrent]
        exact ⟨e, by simp, hwaiting pending hafter⟩
      opened := fun epoch hlow hhigh => (h.opened epoch hlow (hepoch ▸ hhigh)).append event
      ordered := h.ordered.append fun other hother => by
        obtain rfl := Option.some.inj (hemission.symm.trans hother)
        rw [heEpoch]
        exact h.epoch_opened }

/-- A mark opens the next epoch with no emissions. -/
theorem mark (h : StreamInv P key limit past s) {event : Event} {after : Session}
    {pending : PendingSendRekey} {now : Time} (hpending : s.pendingRekey = some pending)
    (hcall : event.call = .markRekeySent pending.frame now) (hresult : event.result = .ok .done)
    (hkeys : after.SendKeys P key) (hepoch : after.sendEpoch = pending.epoch)
    (hnext : after.nextSequence = 1) (hsent : after.sentInEpoch = 0)
    (hlimit : after.rekeyFrameLimit = s.rekeyFrameLimit) (hafter : after.pendingRekey = none) :
    StreamInv P key limit (past ++ [event]) after := by
  have hsucc : pending.epoch.toNat = s.sendEpoch.toNat + 1 := (h.keys.pending pending hpending).2.2
  have hemission : event.emission = none := by simp [Event.emission, hresult]
  have hempty : emissions (past ++ [event]) pending.epoch = [] := by
    rw [emissions_append_none hemission]
    exact h.future pending.epoch (by omega)
  obtain ⟨rekey, hmem, hrekey, hframe⟩ := h.waiting pending hpending
  have hrekeyEpoch : rekey.epoch = s.sendEpoch := by
    simpa using (List.mem_filter.mp hmem).2
  exact
    { keys := hkeys
      limit_eq := hlimit.trans h.limit_eq
      sent := by rw [hepoch, hempty, hsent]; rfl
      shape := fun epoch => by
        rw [emissions_append_none hemission]
        exact h.shape epoch
      future := fun epoch hlt => by
        rw [emissions_append_none hemission]
        exact h.future epoch (by rw [hepoch] at hlt; omega)
      idle := fun _ => by
        rw [hepoch, hempty, hsent, hnext]
        exact ⟨fun _ hmem => absurd hmem List.not_mem_nil, Nat.zero_le _, rfl⟩
      waiting := fun _ hsome => by simp [hafter] at hsome
      opened := fun epoch hlow hhigh => by
        by_cases hold : epoch.toNat ≤ s.sendEpoch.toNat
        · exact (h.opened epoch hlow hold).append event
        · rw [hepoch] at hhigh
          exact ⟨past, event, [], rekey, now, rfl, hrekeyEpoch ▸ hmem, hrekey,
            by rw [hrekeyEpoch]; omega, hframe ▸ hcall, hresult⟩
      ordered := h.ordered.append fun e he => by simp [hemission] at he }

/-- A frame has the number that follows those of its epoch. -/
theorem number (h : StreamInv P key limit past s) {p : Packet} (hemits : s.Emits p) :
    (p.frame P s.send.key).header.sequence.toNat = (emissions past s.sendEpoch).length + 1 := by
  rw [h.sent, ← (h.idle hemits.notPending).2.2, ← hemits.sequence]
  rfl

/-- Every call keeps the invariant. -/
theorem step (hnew : P.NewSucceeds) (hpos : 1 ≤ limit.toNat) (hlimit : limit.toNat + 1 < 2 ^ 64)
    (h : StreamInv P key limit past s) (call : SessionCall) :
    StreamInv P key limit (past ++ [s.step P call]) (s.step P call).after := by
  have hkeys := h.keys.step call
  have hcase := Session.step_cases P s call
  generalize s.step P call = event at hcase hkeys ⊢
  cases hcase with
  | rejected => exact h.quiet rfl hkeys rfl rfl rfl rfl rfl
  | received frame clock after result _ _ hside =>
      simp only [Session.sendSide, Session.SendSide.mk.injEq] at hside
      obtain ⟨-, -, -, -, hepoch, hnext, hsent, hrekeyLimit, hpending, -⟩ := hside
      have hemission : Event.emission ⟨s, call, after, [], result.map .payload⟩ = none := by
        cases result <;> rfl
      exact h.quiet hemission hkeys hepoch hnext hsent hrekeyLimit hpending
  | closed => exact h.quiet rfl hkeys rfl rfl rfl rfl rfl
  | data p hemits hcount htype =>
      have hidle := h.idle hemits.notPending
      have hroom : s.sentInEpoch.toNat < limit.toNat := by
        rcases hcount with hzero | hlt
        · have : limit.toNat = 0 := by rw [← h.limit_eq, hzero]; rfl
          omega
        · rw [h.limit_eq, UInt64.lt_iff_toNat_lt] at hlt
          exact hlt
      have hrekey : Emission.isRekey ⟨s.sendEpoch, p.frame P s.send.key,
          [p.sealCall s.send.key].flatMap SealCall.plaintext⟩ = false := by
        simpa [Emission.isRekey] using htype
      exact h.emit rfl rfl hemits.notPending hlimit hkeys rfl rfl rfl rfl
        ((h.shape _).append_message hidle.1 hrekey (h.number hemits) (h.sent ▸ hroom))
        (fun _ => ⟨hrekey, hroom⟩)
        (fun pending hpending => by
          rw [show s.advance.pendingRekey = s.pendingRekey from rfl, hemits.notPending] at hpending
          cases hpending)
  | rekey p hemits hfirst hlast htype hplaintext =>
      have hidle := h.idle hemits.notPending
      have hrekey : Emission.isRekey ⟨s.sendEpoch, p.frame P s.send.key,
          [p.sealCall s.send.key].flatMap SealCall.plaintext⟩ = true := by
        simpa [Emission.isRekey] using htype
      have hinit : ∃ init, RekeyInit.unmarshalBinary
          ([p.sealCall s.send.key].flatMap SealCall.plaintext) = .ok init ∧
            init.epoch.toNat = s.sendEpoch.toNat + 1 := by
        refine ⟨s.rekeyInit P, ?_, Session.toNat_epoch_succ hlast⟩
        simpa [Packet.sealCall] using RekeyInit.unmarshalBinary_marshalBinary hplaintext
      exact h.emit rfl rfl hemits.notPending hlimit hkeys rfl rfl rfl rfl
        ((h.shape _).append_rekey hidle.1 hrekey (h.number hemits) (h.sent ▸ hidle.2.1) hinit)
        (fun hnone => by cases hnone)
        (fun pending hpending => ⟨hrekey, by rw [← Option.some.inj hpending]; rfl⟩)
  | rekeyLost p hemits err _ hcodec =>
      rw [h.keys.suite, newCodec_of_new hnew] at hcodec
      cases hcodec
  | marked pending now hcall hopen hpending =>
      exact h.mark hpending hcall rfl hkeys rfl rfl rfl rfl rfl

/-- No send reports an exhausted sequence: while nothing is pending the next number
is not zero. -/
theorem not_exhausted (hnew : P.NewSucceeds) (h : StreamInv P key limit past s)
    {call : SessionCall} (hcall : ∀ frame clock, call ≠ .receivePayload frame clock)
    {err : Error} (hresult : (s.step P call).result = .error err) :
    ¬ err.is .sequenceExhausted := by
  have hcase := Session.step_cases P s call
  generalize s.step P call = event at hcase hresult
  cases hcase with
  | rejected other hexhausted =>
      obtain rfl := Except.error.inj hresult
      intro hexhaustion
      obtain ⟨hnone, hzero⟩ := hexhausted hexhaustion
      have hnext := (h.idle hnone).2.2
      rw [hzero] at hnext
      exact absurd hnext (by simp)
  | received frame clock _ _ hreceive => exact absurd hreceive (hcall frame clock)
  | closed | data | rekey | marked => cases hresult
  | rekeyLost p hemits other _ hcodec =>
      rw [h.keys.suite, newCodec_of_new hnew] at hcodec
      cases hcodec

end StreamInv

theorem Session.SendKeys.step_sendEpoch {P : Primitives} {key : Key} {s : Session}
    (h : s.SendKeys P key) (call : SessionCall) :
    ((s.step P call).Marks → (s.step P call).after.sendEpoch.toNat = s.sendEpoch.toNat + 1) ∧
      (¬ (s.step P call).Marks → (s.step P call).after.sendEpoch = s.sendEpoch) := by
  have hcase := Session.step_cases P s call
  generalize s.step P call = event at hcase ⊢
  cases hcase with
  | rejected | rekeyLost => exact ⟨fun hmarks => absurd hmarks.2 (by simp), fun _ => rfl⟩
  | received frame clock after result hcall _ hside =>
      refine ⟨fun hmarks => ?_, fun _ => congrArg Session.SendSide.sendEpoch hside⟩
      obtain ⟨⟨other, now, hmark⟩, -⟩ := hmarks
      cases hcall.symm.trans hmark
  | closed hcall =>
      refine ⟨fun hmarks => ?_, fun _ => rfl⟩
      obtain ⟨⟨other, now, hmark⟩, -⟩ := hmarks
      cases hcall.symm.trans hmark
  | data | rekey => exact ⟨fun hmarks => absurd hmarks.2 (by simp), fun _ => rfl⟩
  | marked pending now hcall hopen hpending =>
      exact ⟨fun _ => (h.pending pending hpending).2.2,
        fun hnot => absurd ⟨⟨_, now, hcall⟩, rfl⟩ hnot⟩

/-- **Shape of the emitted stream.** For every limit from one to the largest word but
one, every clock and every sequence of calls: each epoch's frames have the shape above,
an epoch opens only when the `RekeyInit` of the epoch before it is marked as sent, the
epoch grows by one with each such mark and never otherwise, and no send reports an
exhausted sequence. -/
theorem emitted_stream_shape (P : Primitives) (hnew : P.NewSucceeds) {suite : CipherSuite}
    {secrets : HandshakeSecrets} {now : Time} {s : Session}
    (hs : newSession P suite secrets now = .ok s) (limits : Session.Limits)
    (hpos : 1 ≤ limits.rekeyFrameLimit.toNat)
    (hlimit : limits.rekeyFrameLimit.toNat + 1 < 2 ^ 64) (calls : List SessionCall) :
    (∀ epoch, EpochShape limits.rekeyFrameLimit.toNat epoch
        (emissions ((s.withLimits limits).events P calls) epoch)) ∧
      Ordered ((s.withLimits limits).events P calls) ∧
      ∀ event ∈ (s.withLimits limits).events P calls,
        (event.Marks → event.after.sendEpoch.toNat = event.before.sendEpoch.toNat + 1) ∧
          (¬ event.Marks → event.after.sendEpoch = event.before.sendEpoch) ∧
          ((∀ frame clock, event.call ≠ .receivePayload frame clock) →
            ∀ err, event.result = .error err → ¬ err.is .sequenceExhausted) := by
  have hstart := StreamInv.start hs limits
  have hinv := Session.events_induction
    (I := StreamInv P secrets.sendKey limits.rekeyFrameLimit)
    (fun _ _ call h => h.step hnew hpos hlimit call) (s.withLimits limits) calls hstart
  rw [List.nil_append] at hinv
  refine ⟨hinv.shape, hinv.ordered, fun event hevent => ?_⟩
  obtain ⟨reached, call, ⟨past, hreached⟩, rfl⟩ := Session.exists_step_of_mem_events
    (I := fun s => ∃ past, StreamInv P secrets.sendKey limits.rekeyFrameLimit past s)
    (fun _ call ⟨_, h⟩ => ⟨_, h.step hnew hpos hlimit call⟩) ⟨[], hstart⟩ hevent
  rw [Session.step_before]
  refine ⟨(hreached.keys.step_sendEpoch call).1, (hreached.keys.step_sendEpoch call).2,
    fun hcall err hresult => ?_⟩
  have hsame : (reached.step P call).call = call := by cases call <;> rfl
  rw [hsame] at hcall
  exact hreached.not_exhausted hnew hcall hresult

/-- With a limit of one frame the second send announces the next epoch, and the mark opens it. -/
theorem emitted_stream_shape_transparent :
    ∃ s, newSession transparent cipherChaCha20Poly1305 sampleSecrets 0 = .ok s ∧
      ∃ pending, ((s.withLimits ⟨1, 0, 0, 0⟩).run transparent
          [samplePing 1, samplePing 2]).pendingRekey = some pending ∧
        let events := (s.withLimits ⟨1, 0, 0, 0⟩).events transparent
          [samplePing 1, samplePing 2, .markRekeySent pending.frame 0, samplePing 3]
        (emissions events 1).map Emission.isRekey = [false, true] ∧
          (emissions events 2).map Emission.isRekey = [false] ∧
          EpochShape 1 1 (emissions events 1) ∧ Ordered events := by
  refine ⟨_, newSession_sample, _, rfl, ?_⟩
  intro events
  obtain ⟨hshape, hordered, -⟩ := emitted_stream_shape transparent transparent_newSucceeds
    newSession_sample ⟨1, 0, 0, 0⟩ (by decide) (by decide)
    [samplePing 1, samplePing 2, .markRekeySent _ 0, samplePing 3]
  exact ⟨rfl, rfl, hshape 1, hordered⟩

end DgProto
