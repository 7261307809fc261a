import DgProto.Connection.Writer

/-!
# Completion of queued items

An item with a completion channel is taken out of its queue by the writer, by the
deferred drain of the writer or by the drain of the shutdown.  Whoever takes it completes
it before it ends: the writer before its loop exits, the shutdown before the function
under `shutdownOnce` returns (`Disposed`).  The accounts say that nothing else happens
to an item, so once both are gone every accepted item has been completed, once.

A completion channel belongs to one item (`Tagged`), so a completion without an error
means that the frame of this very item was written.
-/

namespace DgProto

open Library Wire Crypto Connection

/-! ## Those who take items end by themselves -/

/-- The instruction belongs to the part of the disposer that takes items and close
requests out of their queues. -/
def Instr.disposes : Disposer → Instr → Bool
  | .writer => fun
      | .writeLoop | .selectWork | .sendFrame _ | .marshalFrame _ _ | .checkLane _ _ _
      | .takeLane _ _ _ | .watchContext _ _ _ | .writeWire _ _ _ | .frameWritten _ _
      | .markRekey _ _ | .finishWrite _ _ | .failPending .writer | .drain .writer _
      | .complete .writer _ _ | .answer .writer _ _ => true
      | _ => false
  | .shutdown => fun
      | .failPending .shutdown | .drain .shutdown _ | .complete .shutdown _ _
      | .answer .shutdown _ _ => true
      | _ => false

/-- What the goroutine of the disposer does afterwards. -/
def Disposer.last : Disposer → Instr
  | .writer => .exit .write
  | .shutdown => .endShutdown

/-- Whatever the disposer has still to do is done before its last instruction. -/
abbrev Disposed (who : Disposer) : List Instr → Prop :=
  Followed (fun i => i.disposes who = true) (fun i => i = who.last)

section Disposal

variable {P : Primitives} {s : Connection} {i : Instr} {effect : Effect Connection Instr}
  {who : Disposer}

/-- The effect leaves disposal in the hands of threads that end. -/
def Disposes (who : Disposer) (i : Instr) (effect : Effect Connection Instr) : Prop :=
  (i.disposes who = true ∨ Disposed who effect.pushed) ∧ ∀ t ∈ effect.spawned, Disposed who t

theorem disposed_of_free {t : List Instr} (h : t.all (!·.disposes who) = true) :
    Disposed who t := by
  refine Followed.of_free fun i hi hdisposes => ?_
  have hfree := List.all_eq_true.mp h i hi
  rw [hdisposes] at hfree
  exact Bool.false_ne_true hfree

theorem disposes_of_free
    (hpushed : (i.disposes who || effect.pushed.all (!·.disposes who)) = true)
    (hspawned : effect.spawned.all (·.all (!·.disposes who)) = true) :
    Disposes who i effect := by
  rw [Bool.or_eq_true] at hpushed
  refine ⟨hpushed.imp_right disposed_of_free, fun t ht => disposed_of_free ?_⟩
  exact List.all_eq_true.mp hspawned t ht

theorem LifecycleExec.disposes (who : Disposer) (h : LifecycleExec s i effect) :
    Disposes who i effect := by
  cases h with
  | @launchLoop loop =>
      refine ⟨.inr (disposed_of_free (by cases who <;> rfl)), List.forall_mem_singleton.mpr ?_⟩
      refine ⟨fun hentry => ⟨_, List.mem_cons_self, ?_⟩, disposed_of_free (by cases who <;> rfl)⟩
      -- the write loop is the only one that disposes, and it exits as such
      cases loop <;> cases who <;> first | rfl | cases hentry
  | shutdownFirst =>
      cases who with
      | writer => exact disposes_of_free rfl rfl
      | shutdown =>
          refine ⟨.inr ?_, by simp⟩
          simp [Disposed, Followed, shutdownBody, Instr.disposes, Disposer.last]
  | _ => cases who <;> exact disposes_of_free rfl rfl

theorem QueueExec.disposes (who : Disposer) (h : QueueExec s i effect) :
    Disposes who i effect := by
  cases h with
  | @returnEnqueue call result =>
      obtain ⟨_, _, ⟨_, _, completion⟩, _, after⟩ := call
      cases after <;> cases result <;> cases completion <;> cases who <;>
        exact disposes_of_free rfl rfl
  | @failPending other | @drainControl other | @drainOutbound other | @drainRequest other
  | @drained other | @complete other | @answer other =>
      cases other <;> cases who <;> exact disposes_of_free rfl rfl
  | _ => cases who <;> exact disposes_of_free rfl rfl

theorem WriteExec.disposes (who : Disposer) (h : WriteExec P s i effect) :
    Disposes who i effect := by
  cases h with
  | @finishWrite job err =>
      cases job <;> cases err <;> cases who <;> exact disposes_of_free rfl rfl
  | _ => cases who <;> exact disposes_of_free rfl rfl

theorem ReceiveExec.disposes (who : Disposer) (h : ReceiveExec P s i effect) :
    Disposes who i effect := by
  cases h with
  | inlineReturned _ result | @handlerReturned _ result | @handlerLate _ result =>
      cases result <;> cases who <;> exact disposes_of_free rfl rfl
  | _ => cases who <;> exact disposes_of_free rfl rfl

theorem Exec.disposes (who : Disposer) (h : Exec P s i effect) : Disposes who i effect := by
  cases h with
  | lifecycle h | queue h | write h | receive h => exact h.disposes who
  | keepalive h => cases h <;> cases who <;> exact disposes_of_free rfl rfl

theorem disposed_of_reaches {session : Session} {config : ConnectionConfig}
    {pool : Pool Connection Instr} (who : Disposer)
    (h : (connectionMachine P).Reaches (connectionStart session config) pool) :
    ∀ t ∈ pool.threads, Disposed who t := by
  refine Machine.invariant_of_step (I := fun pool => ∀ t ∈ pool.threads, Disposed who t) ?_
    (fun _ ht => absurd ht List.not_mem_nil) h
  intro before after hbefore hstep
  cases hstep with
  | @thread s threads k i rest effect hk hexec =>
      obtain ⟨hpushed, hspawned⟩ := Exec.disposes who hexec
      exact followed_step hbefore hk hpushed hspawned
  | ambient hambient =>
      intro t ht
      cases hambient with
      | call api =>
          rcases List.mem_append.mp ht with hold | hnew
          · exact hbefore t hold
          · obtain rfl := List.mem_singleton.mp hnew
            cases api <;> cases who <;> exact disposed_of_free rfl
      | cancelCaller => exact hbefore t (by simpa using ht)

end Disposal

/-! ## When both are gone -/

section Settled

variable {pool : Pool Connection Instr}

/-- An instruction with an item in its hands belongs to a disposer. -/
theorem Account.item_disposes {channel : Nat} {i : Instr}
    (h : (Account.item channel).weight i ≠ 0) :
    i.disposes .writer = true ∨ i.disposes .shutdown = true := by
  cases i with
  | complete who item err => cases who <;> simp [Instr.disposes]
  | sendFrame | marshalFrame | checkLane | takeLane | watchContext | writeWire | frameWritten
  | markRekey | finishWrite => exact .inl rfl
  | _ => exact absurd rfl h

/-- Once `shutdown` has returned, the function under `shutdownOnce` is at its end nowhere. -/
theorem Sound.no_endShutdown (h : Sound pool) (hfinished : Holds pool.state .finished)
    {t : List Instr} (ht : t ∈ pool.threads) {i : Instr} (hi : i ∈ t) : i ≠ .endShutdown := by
  rintro rfl
  have hending := h.tokens .ending
  have hone : Token.ending.weight .endShutdown ≤ load Token.ending.weight pool.threads :=
    weight_le_load ht hi
  have hend : Token.ending.weight .endShutdown = 1 := rfl
  have hstate : pool.state.shutdownOnce = .finished := hfinished
  simp only [Pool.total, Token.balance, Token.limit, hstate, Once.unclaimed, Once.ended]
    at hending
  omega

/-- Once the write loop has exited, it exits nowhere. -/
theorem Sound.no_exit (h : Sound pool) {loop : Loop}
    (hexited : loop ∈ pool.state.launched → loop ∈ pool.state.exited) {t : List Instr}
    (ht : t ∈ pool.threads) {i : Instr} (hi : i ∈ t) : i ≠ .exit loop := by
  rintro rfl
  have hbalance := h.accounts (.loop loop)
  have hexit : (Account.loop loop).weight (.exit loop) = 1 := if_pos rfl
  have hone : (Account.loop loop).weight (.exit loop) ≤
      load (Account.loop loop).weight pool.threads := weight_le_load ht hi
  have hlaunch := (List.nodup_iff_count_le_one.mp h.launched_nodup) loop
  rw [hexit] at hone
  simp only [Pool.total, Account.balance] at hbalance
  -- the exit that is left belongs to a launch, and that launch has exited before
  have hlaunched : 0 < pool.state.launched.count loop := by omega
  have hexits := List.count_pos_iff.mpr (hexited (List.count_pos_iff.mp hlaunched))
  omega

/-- Then nobody has an item in hand. -/
theorem Sound.hands_empty (h : Sound pool) (hdisposed : ∀ who, ∀ t ∈ pool.threads, Disposed who t)
    (hfinished : Holds pool.state .finished)
    (hexited : Loop.write ∈ pool.state.launched → Loop.write ∈ pool.state.exited)
    (channel : Nat) : load (Account.item channel).weight pool.threads = 0 := by
  refine load_eq_zero fun t ht i hi => ?_
  by_contra hhand
  rcases Account.item_disposes hhand with hwriter | hshutdown
  · refine (hdisposed .writer t ht).not_mem ?_ hi hwriter
    exact fun j hj => h.no_exit hexited ht hj
  · refine (hdisposed .shutdown t ht).not_mem ?_ hi hshutdown
    exact fun j hj => h.no_endShutdown hfinished ht hj

/-- The item of a call that returned nil was accepted once. -/
theorem Sound.accepted_once (h : Sound pool) {item : QueuedMessage} {channel : Nat}
    (hreturned : (item, none) ∈ pool.state.returned) (hchannel : item.completion = some channel) :
    pool.state.accepted.countP (·.2.tells channel) = 1 := by
  have hpending := h.tokens (.pending channel)
  have hadmitted := h.tokens (.admitted channel)
  have hone : 0 < pool.state.returned.countP fun r => r.1.tells channel && r.2.isNone :=
    List.countP_pos_iff.mpr ⟨_, hreturned, by simp [QueuedMessage.tells, hchannel]⟩
  simp only [Pool.total, Token.balance, Token.limit] at hpending hadmitted
  split_ifs at hpending <;> omega

/-- The item of a call that failed was not accepted. -/
theorem Sound.accepted_never (h : Sound pool) {item : QueuedMessage} {err : Error} {channel : Nat}
    (hreturned : (item, some err) ∈ pool.state.returned)
    (hchannel : item.completion = some channel) :
    pool.state.accepted.countP (·.2.tells channel) = 0 := by
  have hpending := h.tokens (.pending channel)
  have hone : 0 < pool.state.returned.countP fun r => r.1.tells channel && r.2.isSome :=
    List.countP_pos_iff.mpr ⟨_, hreturned, by simp [QueuedMessage.tells, hchannel]⟩
  simp only [Pool.total, Token.balance, Token.limit] at hpending
  split_ifs at hpending <;> omega

/-- At most as many completions as accepted items. -/
theorem Sound.completions_le (h : Sound pool) (channel : Nat) :
    pool.state.completions.countP (·.1 == channel) ≤
      pool.state.accepted.countP (·.2.tells channel) := by
  have hbalance := h.accounts (.item channel)
  simp only [Pool.total, Account.balance] at hbalance
  omega

/-- With nothing in the queues and in no hand, every accepted item is completed. -/
theorem Sound.completions_eq (h : Sound pool) {channel : Nat}
    (hhands : load (Account.item channel).weight pool.threads = 0)
    (hdrained : Holds pool.state .drained) :
    pool.state.completions.countP (·.1 == channel) =
      pool.state.accepted.countP (·.2.tells channel) := by
  have hbalance := h.accounts (.item channel)
  simp only [Pool.total, Account.balance, hhands, hdrained.2.1, hdrained.2.2.1, List.countP_nil]
    at hbalance
  omega

end Settled

/-! ## A channel belongs to one item -/

/-- The item that the writer works on. -/
def WriteJob.item : WriteJob → Option QueuedMessage
  | .close _ => none
  | .queued _ item => some item

/-- The item that an instruction works on. -/
@[simp] def Instr.item : Instr → Option QueuedMessage
  | .enqueue call | .checkContext call | .checkClosing call | .offer call
  | .returnEnqueue call _ => some call.item
  | .sendFrame job | .marshalFrame job _ | .checkLane job _ _ | .takeLane job _ _
  | .watchContext job _ _ | .writeWire job _ _ | .frameWritten job _ | .markRekey job _
  | .finishWrite job _ => job.item
  | .complete _ item _ => some item
  | _ => none

/-- The items of a state are of this kind. -/
structure Connection.ItemsAre (s : Connection) (K : QueuedMessage → Prop) : Prop where
  outbound : ∀ item ∈ s.outbound, K item
  control : ∀ item ∈ s.control, K item
  returned : ∀ r ∈ s.returned, K r.1
  written : ∀ frame ∈ s.written, ∀ item ∈ frame.job.item, K item

/-- The items of the instructions are of this kind. -/
def ThreadItemsAre (K : QueuedMessage → Prop) (t : List Instr) : Prop :=
  ∀ i ∈ t, ∀ item ∈ i.item, K item

section Items

variable {P : Primitives} {s : Connection} {i : Instr} {effect : Effect Connection Instr}
  {K : QueuedMessage → Prop}

/-- All items an effect leaves are of this kind. -/
structure EffectItemsAre (effect : Effect Connection Instr) (K : QueuedMessage → Prop) : Prop where
  state : effect.state.ItemsAre K
  pushed : ThreadItemsAre K effect.pushed
  spawned : ∀ t ∈ effect.spawned, ThreadItemsAre K t

theorem threadItems_of_none {t : List Instr} (h : t.all (·.item.isNone) = true) :
    ThreadItemsAre K t := by
  intro i hi item hitem
  have hnone := List.all_eq_true.mp h i hi
  rw [Option.isNone_iff_eq_none] at hnone
  rw [hnone] at hitem
  cases hitem

theorem items_of_none (hstate : effect.state.ItemsAre K)
    (hpushed : effect.pushed.all (·.item.isNone) = true)
    (hspawned : effect.spawned.all (·.all (·.item.isNone)) = true) : EffectItemsAre effect K :=
  ⟨hstate, threadItems_of_none hpushed,
    fun t ht => threadItems_of_none (List.all_eq_true.mp hspawned t ht)⟩

/-- The instructions that are pushed work on the same item, or on none. -/
theorem items_of_same {state : Connection} {pushed : List Instr} (hstate : state.ItemsAre K)
    (hi : ∀ item ∈ i.item, K item)
    (hpushed : ∀ j ∈ pushed, j.item = none ∨ j.item = i.item) :
    EffectItemsAre ⟨state, pushed, []⟩ K := by
  refine ⟨hstate, fun j hj item hitem => ?_, fun t ht => absurd ht List.not_mem_nil⟩
  rcases hpushed j hj with hnone | hsame
  · rw [hnone] at hitem
    cases hitem
  · exact hi item (hsame ▸ hitem)

theorem QueueExec.items (h : QueueExec s i effect) (hs : s.ItemsAre K)
    (hi : ∀ item ∈ i.item, K item) : EffectItemsAre effect K := by
  obtain ⟨houtbound, hcontrol, hreturned, hwritten⟩ := hs
  cases h with
  | lease | contextEnded | contextLive | refused | admitted | full | waitEnded | waitClosed =>
      exact items_of_same ⟨houtbound, hcontrol, hreturned, hwritten⟩ hi (by simp)
  | @accepted call =>
      have hitem : K call.item := hi _ rfl
      refine items_of_same ⟨?_, ?_, hreturned, hwritten⟩ hi (by simp)
      · intro item hmem
        simp only [Connection.push] at hmem
        split_ifs at hmem
        · rcases List.mem_append.mp hmem with hold | hnew
          · exact houtbound item hold
          · exact List.mem_singleton.mp hnew ▸ hitem
        · exact houtbound item hmem
      · intro item hmem
        simp only [Connection.push] at hmem
        split_ifs at hmem
        · rcases List.mem_append.mp hmem with hold | hnew
          · exact hcontrol item hold
          · exact List.mem_singleton.mp hnew ▸ hitem
        · exact hcontrol item hmem
  | @returnEnqueue call result =>
      have hitem : K call.item := hi _ rfl
      have hafter : ∀ r ∈ s.returned ++ [(call.item, result)], K r.1 := by
        intro r hr
        rcases List.mem_append.mp hr with hold | hnew
        · exact hreturned r hold
        · exact List.mem_singleton.mp hnew ▸ hitem
      obtain ⟨_, _, ⟨_, _, completion⟩, _, after⟩ := call
      cases after <;> cases result <;> cases completion <;>
        exact items_of_none ⟨houtbound, hcontrol, hafter, hwritten⟩ rfl rfl
  | @drainControl who err item rest h =>
      have hitem : K item := hcontrol item (by simp [h])
      refine ⟨⟨houtbound, fun item hmem => hcontrol item (by simp [h, hmem]), hreturned, hwritten⟩,
        ?_, by simp⟩
      simpa [ThreadItemsAre] using hitem
  | @drainOutbound who err item rest h =>
      have hitem : K item := houtbound item (by simp [h])
      refine ⟨⟨fun item hmem => houtbound item (by simp [h, hmem]), hcontrol, hreturned, hwritten⟩,
        ?_, by simp⟩
      simpa [ThreadItemsAre] using hitem
  | _ => exact items_of_none ⟨houtbound, hcontrol, hreturned, hwritten⟩ rfl rfl

theorem WriteExec.items (h : WriteExec P s i effect) (hs : s.ItemsAre K)
    (hi : ∀ item ∈ i.item, K item) : EffectItemsAre effect K := by
  obtain ⟨houtbound, hcontrol, hreturned, hwritten⟩ := hs
  cases h with
  | @selectControl item rest h =>
      have hitem : K item := hcontrol item (by simp [h])
      refine ⟨⟨houtbound, fun item hmem => hcontrol item (by simp [h, hmem]), hreturned, hwritten⟩,
        ?_, by simp⟩
      simpa [ThreadItemsAre, WriteJob.item] using hitem
  | @selectOutbound item rest h =>
      have hitem : K item := houtbound item (by simp [h])
      refine ⟨⟨fun item hmem => houtbound item (by simp [h, hmem]), hcontrol, hreturned, hwritten⟩,
        ?_, by simp⟩
      simpa [ThreadItemsAre, WriteJob.item] using hitem
  | @messageWritten job | @rekeyWritten job =>
      refine items_of_same ⟨houtbound, hcontrol, hreturned, ?_⟩ hi (by simp)
      intro frame hframe item hitem
      rcases List.mem_append.mp hframe with hold | hnew
      · exact hwritten frame hold item hitem
      · obtain rfl := List.mem_singleton.mp hnew
        exact hi item hitem
  | @finishWrite job err =>
      refine items_of_same ⟨houtbound, hcontrol, hreturned, hwritten⟩ hi ?_
      cases job <;> cases err <;> simp [WriteJob.finish, shutdown, WriteJob.item]
  | closeFirst | noClose | selectDone | selectClose =>
      exact items_of_none ⟨houtbound, hcontrol, hreturned, hwritten⟩ rfl rfl
  | _ => exact items_of_same ⟨houtbound, hcontrol, hreturned, hwritten⟩ hi (by simp)

/-- No rule makes an item with a completion channel. -/
theorem Exec.items (h : Exec P s i effect) (hs : s.ItemsAre K) (hi : ∀ item ∈ i.item, K item)
    (hnone : ∀ item : QueuedMessage, item.completion = none → K item) :
    EffectItemsAre effect K := by
  cases h with
  | lifecycle h =>
      cases h with
      | @launchLoop loop =>
          cases loop <;> exact items_of_none ⟨hs.1, hs.2, hs.3, hs.4⟩ rfl rfl
      | _ => exact items_of_none ⟨hs.1, hs.2, hs.3, hs.4⟩ rfl rfl
  | queue h | write h => exact h.items hs hi
  | receive h =>
      cases h with
      | ping =>
          refine ⟨hs, ?_, by simp⟩
          simp only [ThreadItemsAre, List.mem_singleton, forall_eq]
          intro item hitem
          exact hnone item (by simp [enqueueControl] at hitem; simp [← hitem])
      | inlineReturned _ result | @handlerReturned _ result | @handlerLate _ result =>
          cases result <;> exact items_of_none ⟨hs.1, hs.2, hs.3, hs.4⟩ rfl rfl
      | _ => exact items_of_none ⟨hs.1, hs.2, hs.3, hs.4⟩ rfl rfl
  | keepalive h =>
      cases h with
      | pingBegun =>
          refine ⟨⟨hs.1, hs.2, hs.3, hs.4⟩, ?_, by simp⟩
          simp only [ThreadItemsAre, List.mem_singleton, forall_eq]
          intro item hitem
          exact hnone item (by simp [enqueueControl] at hitem; simp [← hitem])
      | _ => exact items_of_none ⟨hs.1, hs.2, hs.3, hs.4⟩ rfl rfl

theorem Connection.ItemsAre.mono {K' : QueuedMessage → Prop} (h : s.ItemsAre K)
    (hle : ∀ item, K item → K' item) : s.ItemsAre K' :=
  ⟨fun item hmem => hle item (h.outbound item hmem),
    fun item hmem => hle item (h.control item hmem),
    fun r hmem => hle r.1 (h.returned r hmem),
    fun frame hmem item hitem => hle item (h.written frame hmem item hitem)⟩

theorem ThreadItemsAre.mono {K' : QueuedMessage → Prop} {t : List Instr}
    (h : ThreadItemsAre K t) (hle : ∀ item, K item → K' item) : ThreadItemsAre K' t :=
  fun i hi item hitem => hle item (h i hi item hitem)

/-- Channels are made, not taken back. -/
theorem Exec.nextChannel_le (h : Exec P s i effect) :
    s.nextChannel ≤ effect.state.nextChannel := by
  cases h with
  | lifecycle h =>
      cases h with
      | wasStarted => exact Nat.le_succ _
      | _ => exact Nat.le_refl _
  | queue h | write h => rw [h.frame]
  | receive h =>
      cases h with
      | callBounded => exact Nat.le_succ _
      | _ => exact Nat.le_refl _
  | keepalive h => rw [h.frame]

end Items

section Tags

variable {P : Primitives} {label : Nat → QueuedMessage} {bound : Nat} {item : QueuedMessage}

/-- The channel of the item is one of the first `bound`, and belongs to this item. -/
def Labelled (label : Nat → QueuedMessage) (bound : Nat) (item : QueuedMessage) : Prop :=
  ∀ channel ∈ item.completion, channel < bound ∧ label channel = item

theorem labelled_of_none (h : item.completion = none) : Labelled label bound item := by
  intro channel hchannel
  rw [h] at hchannel
  cases hchannel

theorem Labelled.mono {bound' : Nat} (hle : bound ≤ bound') (h : Labelled label bound item) :
    Labelled label bound' item :=
  fun channel hchannel => ⟨(h channel hchannel).1.trans_le hle, (h channel hchannel).2⟩

/-- Labelling a new channel leaves the items with an older one alone. -/
theorem Labelled.update (h : Labelled label bound item) (new : QueuedMessage) :
    Labelled (Function.update label bound new) (bound + 1) item := by
  intro channel hchannel
  obtain ⟨hlt, hlabel⟩ := h channel hchannel
  refine ⟨by omega, ?_⟩
  rw [Function.update_of_ne (by omega), hlabel]

theorem labelled_new (h : item.completion = none ∨ item.completion = some bound) :
    Labelled (Function.update label bound item) (bound + 1) item := by
  rcases h with hnone | hnew
  · exact labelled_of_none hnone
  · intro channel hchannel
    obtain rfl : channel = bound := by simpa [hnew] using hchannel.symm
    exact ⟨Nat.lt_succ_self _, Function.update_self ..⟩

/-- Every item of the pool bears the label of its channel. -/
structure Tagged (label : Nat → QueuedMessage) (pool : Pool Connection Instr) : Prop where
  state : pool.state.ItemsAre (Labelled label pool.state.nextChannel)
  threads : ∀ t ∈ pool.threads, ThreadItemsAre (Labelled label pool.state.nextChannel) t

theorem Tagged.call {s : Connection} {threads : List (List Instr)} (h : Tagged label ⟨s, threads⟩)
    (new : QueuedMessage) {t : List Instr}
    (ht : ThreadItemsAre (Labelled (Function.update label s.nextChannel new)
      (s.nextChannel + 1)) t) :
    Tagged (Function.update label s.nextChannel new)
      ⟨{ s with nextChannel := s.nextChannel + 1 }, threads ++ [t]⟩ := by
  have hold : ∀ item, Labelled label s.nextChannel item →
      Labelled (Function.update label s.nextChannel new) (s.nextChannel + 1) item :=
    fun item hitem => hitem.update new
  obtain ⟨houtbound, hcontrol, hreturned, hwritten⟩ := h.state.mono hold
  refine ⟨⟨houtbound, hcontrol, hreturned, hwritten⟩, fun t' ht' => ?_⟩
  rcases List.mem_append.mp ht' with hmem | hnew
  · exact (h.threads t' hmem).mono hold
  · exact List.mem_singleton.mp hnew ▸ ht

theorem Tagged.step {before after : Pool Connection Instr} (h : ∃ label, Tagged label before)
    (hstep : (connectionMachine P).Step before after) : ∃ label, Tagged label after := by
  obtain ⟨label, h⟩ := h
  cases hstep with
  | @thread s threads k i rest effect hk hexec =>
      have hexec : Exec P s i effect := hexec
      have hthread := h.threads _ (List.mem_of_getElem? hk)
      obtain ⟨hstate, hpushed, hspawned⟩ := hexec.items h.state
        (hthread i List.mem_cons_self) fun _ hnone => labelled_of_none hnone
      have hle : ∀ item, Labelled label s.nextChannel item →
          Labelled label effect.state.nextChannel item :=
        fun item hitem => hitem.mono hexec.nextChannel_le
      refine ⟨label, hstate.mono hle, fun t ht => ThreadItemsAre.mono ?_ hle⟩
      rcases mem_set_append ht with rfl | hold | hnew
      · intro j hj
        rcases List.mem_append.mp hj with hjpushed | hjrest
        · exact hpushed j hjpushed
        · exact hthread j (List.mem_cons_of_mem _ hjrest)
      · exact h.threads t hold
      · exact hspawned t hnew
  | @ambient s s' threads new hambient =>
      cases hambient with
      | call api =>
          cases api with
          | start | close | abort =>
              exact ⟨_, h.call (label s.nextChannel) (threadItems_of_none rfl)⟩
          | enqueueChannel ctx queue message padLength wait completion =>
              refine ⟨_, h.call ⟨message, padLength,
                if completion then some s.nextChannel else none⟩ ?_⟩
              refine List.forall_mem_singleton.mpr fun item hitem => ?_
              obtain rfl := Option.some.inj hitem
              apply labelled_new
              cases completion <;> simp
          | sendPaddedAndWait ctx message padLength =>
              refine ⟨_, h.call ⟨message, padLength, some s.nextChannel⟩ ?_⟩
              refine List.forall_mem_singleton.mpr fun item hitem => ?_
              obtain rfl := Option.some.inj hitem
              exact labelled_new (.inr rfl)
      | cancelCaller =>
          refine ⟨label, ⟨h.state.1, h.state.2, h.state.3, h.state.4⟩, fun t ht => ?_⟩
          exact h.threads t (by simpa using ht)

theorem tagged_of_reaches {session : Session} {config : ConnectionConfig}
    {pool : Pool Connection Instr}
    (h : (connectionMachine P).Reaches (connectionStart session config) pool) :
    ∃ label, Tagged label pool := by
  refine Machine.invariant_of_step (I := fun pool => ∃ label, Tagged label pool) Tagged.step ?_ h
  refine ⟨fun _ => ⟨.other "", 0, none⟩, ⟨?_, ?_, ?_, ?_⟩, ?_⟩ <;>
    simp [connectionStart, newConnection]

end Tags

/-! ## Completion -/

/-- The frame that carries the message of the item is complete on the wire. -/
def Connection.FullyWritten (s : Connection) (item : QueuedMessage) : Prop :=
  ∃ frame ∈ s.written, (∃ queue, frame.job = .queued queue item) ∧
    frame.emission.isRekey = false ∧ frame.emission.frame.octets <:+: s.wire

section Completion

variable {P : Primitives} {session : Session} {config : ConnectionConfig}
  {pool : Pool Connection Instr}

/-- A completion without an error is that of an item whose frame is complete. -/
theorem fullyWritten_of_completion
    (h : (connectionMachine P).Reaches (connectionStart session config) pool)
    {item : QueuedMessage} {channel : Nat} (hreturned : (item, none) ∈ pool.state.returned)
    (hchannel : item.completion = some channel)
    (hcompletion : (channel, none) ∈ pool.state.completions) :
    pool.state.FullyWritten item := by
  have hstreaming := streaming_of_reaches h
  obtain ⟨label, htagged⟩ := tagged_of_reaches h
  obtain ⟨written, hwritten, frame, hframe, ⟨queue, hjob⟩, hkind⟩ :=
    hstreaming.sound.told _ hcompletion rfl
  -- both items bear the label of the channel
  have hitem : label channel = item :=
    (htagged.state.returned _ hreturned channel hchannel).2
  have hother : label channel = written :=
    (htagged.state.written frame hframe written (by simp [hjob, WriteJob.item]) channel hwritten).2
  obtain rfl : written = item := hother.symm.trans hitem
  refine ⟨frame, hframe, ⟨queue, hjob⟩, hkind, ?_⟩
  obtain ⟨before, -, hwire⟩ := hstreaming.streams.written frame hframe
  rw [sentOctets_append, sentOctets_singleton] at hwire
  exact (List.suffix_append _ _).isInfix.trans hwire.isInfix

/-- Exactly one value in a list has this channel. -/
theorem filter_eq_singleton {completions : List (Nat × Option Error)} {channel : Nat}
    (h : completions.countP (·.1 == channel) = 1) :
    ∃ result, completions.filter (·.1 == channel) = [(channel, result)] := by
  rw [List.countP_eq_length_filter, List.length_eq_one_iff] at h
  obtain ⟨⟨name, result⟩, hfilter⟩ := h
  have hmem : (name, result) ∈ completions.filter (·.1 == channel) := by
    rw [hfilter]
    exact List.mem_singleton_self _
  obtain rfl : name = channel := by simpa using (List.mem_filter.mp hmem).2
  exact ⟨result, hfilter⟩

end Completion

/-- Completion, in every interleaving of any number of calls and of the goroutines of the
connection.  An item whose enqueue returned an error is never completed.  A completion
without an error goes to an item whose frame is complete on the wire.  After the frame
with the `SessionClose` of a close request no frame is begun, and the wire holds a part
of this frame after all earlier ones.  Once a `shutdown` has returned and the write loop,
if it was launched, has exited, the queues are empty and stay empty, and every item whose
enqueue returned nil has exactly one completion. -/
theorem completion_exactly_once (P : Primitives) (session : Session) (config : ConnectionConfig)
    (pool : Pool Connection Instr)
    (h : (connectionMachine P).Reaches (connectionStart session config) pool) :
    (∀ item err channel, (item, some err) ∈ pool.state.returned →
      item.completion = some channel → ∀ result, (channel, result) ∉ pool.state.completions) ∧
    (∀ item channel, (item, none) ∈ pool.state.returned → item.completion = some channel →
      (channel, none) ∈ pool.state.completions → pool.state.FullyWritten item) ∧
    (∀ before frame after, pool.state.sent = before ++ frame :: after → frame.isFinal = true →
      after = [] ∧ ∀ later, (connectionMachine P).Reaches pool later →
        later.state.sent = pool.state.sent ∧
        ∃ done, done <+: frame.emission.frame.octets ∧
          later.state.wire = sentOctets before ++ done) ∧
    (0 < pool.state.shutdownReturns →
      (Loop.write ∈ pool.state.launched → Loop.write ∈ pool.state.exited) →
      (∀ later, (connectionMachine P).Reaches pool later →
        later.state.outbound = [] ∧ later.state.control = [] ∧ later.state.closeRequest = []) ∧
      ∀ item channel, (item, none) ∈ pool.state.returned → item.completion = some channel →
        ∃ result, pool.state.completions.filter (·.1 == channel) = [(channel, result)]) := by
  have hsound := sound_of_reaches h
  refine ⟨?_, ?_, ?_, ?_⟩
  · intro item err channel hreturned hchannel result hmem
    have hnever := hsound.accepted_never hreturned hchannel
    have hle := hsound.completions_le channel
    have hpos : 0 < pool.state.completions.countP (·.1 == channel) :=
      List.countP_pos_iff.mpr ⟨_, hmem, by simp⟩
    omega
  · intro item channel hreturned hchannel hcompletion
    exact fullyWritten_of_completion h hreturned hchannel hcompletion
  · intro before frame after hsent hfinal
    refine ⟨((streaming_of_reaches h).streams.final_last hsent hfinal).1, fun later hlater => ?_⟩
    have hstreams := (streaming_of_reaches (h.trans hlater)).streams
    -- what was begun later would come after the last frame
    obtain ⟨more, hmore⟩ := sent_of_reaches hlater
    have hsplit : later.state.sent = before ++ frame :: (after ++ more) := by
      rw [← hmore, hsent, List.append_assoc, List.cons_append]
    obtain ⟨hnil, hwire⟩ := hstreams.final_last hsplit hfinal
    refine ⟨?_, hwire⟩
    rw [← hmore, (List.append_eq_nil_iff.mp hnil).2, List.append_nil]
  · intro hreturned hexited
    have hfinished := hsound.returned hreturned
    have hdrained : Holds pool.state .drained :=
      hsound.finished hfinished _ (by simp)
    refine ⟨fun later hlater => (holds_of_reaches hsound hdrained hlater).2, ?_⟩
    intro item channel hitem hchannel
    have hhands := hsound.hands_empty (fun who => disposed_of_reaches who h) hfinished hexited
      channel
    have hcount := hsound.completions_eq hhands hdrained
    rw [hsound.accepted_once hitem hchannel] at hcount
    exact filter_eq_singleton hcount

/-- `SendAndWait` on a connection that is never started, and then `abort`. -/
theorem abort_unstarted (P : Primitives) (session : Session) (cause : Error) :
    (connectionMachine P).Leads
      (fun pool => 0 < pool.state.shutdownReturns ∧ pool.state.launched = [] ∧
        (sampleItem, none) ∈ pool.state.returned)
      (connectionStart session plainConfig) := by
  refine .step (.ambient (.call (.sendAndWait .background sampleItem.message))) ?_
  refine .first (.queue (.lease rfl)) ?_
  refine .first (.queue (.contextLive rfl)) ?_
  refine .first (.queue (.admitted rfl)) ?_
  refine .first (.queue (.accepted (show 0 < 16 by decide))) ?_
  refine .first (.queue (.releaseLease rfl)) ?_
  refine .first (.queue .returnEnqueue) ?_
  -- the shutdown finds the item in the queue and fails it
  refine .step (.ambient (.call (.abort cause))) ?_
  refine .second (.lifecycle .recordTerminal) ?_
  refine .second (.lifecycle (.shutdownFirst rfl)) ?_
  refine .second (.lifecycle .storeClosing) ?_
  refine .second (.lifecycle .cancel) ?_
  refine .second (.lifecycle .cancelOperations) ?_
  refine .second (.lifecycle .clearPing) ?_
  refine .second (.lifecycle (.lockQueues rfl rfl)) ?_
  refine .second (.queue .failPending) ?_
  refine .second (.queue (.drainOutbound rfl)) ?_
  refine .second (.queue .complete) ?_
  refine .second (.queue (.drained rfl rfl rfl)) ?_
  refine .second (.lifecycle (.dropNone rfl)) ?_
  refine .second (.lifecycle .unlockQueues) ?_
  refine .second (.lifecycle .closeSession) ?_
  refine .second (.lifecycle .closeTransport) ?_
  refine .second (.lifecycle .endShutdown) ?_
  refine .second (.lifecycle .returnShutdown) ?_
  exact .here ⟨Nat.zero_lt_one, rfl, List.mem_singleton_self _⟩

theorem completion_exactly_once_abort :
    ∃ pool, (connectionMachine transparent).Reaches (connectionStart sampleSession plainConfig)
        pool ∧
      (sampleItem, none) ∈ pool.state.returned ∧
      ∃ result, pool.state.completions.filter (·.1 == 0) = [(0, result)] := by
  obtain ⟨pool, hreach, hreturns, hlaunched, hreturned⟩ :=
    abort_unstarted transparent sampleSession Sentinel.connectionClosed.bare
  obtain ⟨-, -, -, hsettled⟩ :=
    completion_exactly_once transparent sampleSession plainConfig pool hreach
  refine ⟨pool, hreach, hreturned, ?_⟩
  exact (hsettled hreturns (by simp [hlaunched])).2 sampleItem 0 hreturned rfl

end DgProto
