import DgProto.Library.ThreadPool
import DgProto.Transport.Fragments

/-!
# Concurrent writers of a stream

Any number of goroutines call `TCPTransport.WriteFrame` on one connection.  Each
marshals its frame, takes the write lane, a channel with room for one token, and writes
until its octets are gone; the connection may take any part of them at a time.

The machine of the callers runs in any interleaving.  Its invariant is that the stream
is the octets of the frames in the order in which the lane was taken, up to what the
holder of the lane has left to write (`carries_of_reaches`).
-/

namespace DgProto

open Library Wire Crypto

/-! ## WriteFrame -/

/-- The octets that `TCPTransport.WriteFrame` writes, or the error it returns before it
takes the lane. -/
def frameWire (frame : Frame) : Except Error (List UInt8) :=
  match frame.marshalBinary with
  | .error err => .error err
  | .ok wire =>
      let got := wire.length
      if wire.length < headerSize then
        .error (Sentinel.transportFrameTooShort.wrap s!"got {got}, want at least {headerSize}")
      else if maxFrameSize < wire.length then
        .error (Sentinel.transportFrameTooLarge.wrap s!"got {got}, maximum {maxFrameSize}")
      else
        .ok wire

/-- `transportError`; `closed` says that `err` is `net.ErrClosed`. -/
def transportError (ctxErr : Option Error) (closed : Bool) (err : Error) : Error :=
  match ctxErr with
  | some ctxErr => ctxErr
  | none => if closed then Sentinel.transportClosed.bare else err

/-- `Validate` accepts the frame. -/
def sendable (frame : Frame) : Bool :=
  match frame.validate with
  | .ok () => true
  | .error _ => false

theorem sendable_iff (frame : Frame) : sendable frame = true ↔ frame.validate = .ok () := by
  unfold sendable
  cases frame.validate with
  | error err | ok _ => simp

/-- What is left to do of a call of `WriteFrame`. -/
inductive WriteInstr where
  /-- The call. -/
  | writeFrame (frame : Frame)
  /-- `acquireLane`. -/
  | acquire (frame : Frame) (wire : List UInt8)
  /-- The loop over `conn.Write`. -/
  | write (frame : Frame) (wire : List UInt8)
  /-- The deferred release of the lane. -/
  | release (frame : Frame)
  deriving DecidableEq

/-- The write side of a transport, with the history of its calls. -/
structure WriteLane where
  /-- The lane holds its token. -/
  held : Bool
  /-- The octets that the connection has taken. -/
  stream : List UInt8
  /-- The frames of all calls so far. -/
  called : List Frame
  /-- The frames in the order in which their calls took the lane. -/
  acquired : List Frame
  /-- The frames whose calls returned without an error. -/
  written : List Frame

/-- A transport that nobody has used. -/
def WriteLane.fresh : WriteLane := ⟨false, [], [], [], []⟩

/-- One step of a caller. -/
inductive WriteLane.Exec (s : WriteLane) : WriteInstr → Effect WriteLane WriteInstr → Prop where
  | marshal {frame : Frame} {wire : List UInt8} (hwire : frameWire frame = .ok wire) :
      Exec s (.writeFrame frame) ⟨s, [.acquire frame wire], []⟩
  | refuse {frame : Frame} {err : Error} (hwire : frameWire frame = .error err) :
      Exec s (.writeFrame frame) ⟨s, [], []⟩
  | acquire {frame : Frame} {wire : List UInt8} (hfree : s.held = false) :
      Exec s (.acquire frame wire)
        ⟨{ s with held := true, acquired := s.acquired ++ [frame] }, [.write frame wire], []⟩
  /-- The connection takes some of the octets. -/
  | write {frame : Frame} {wire : List UInt8} (n : Nat) (hpos : 0 < n) (hle : n ≤ wire.length) :
      Exec s (.write frame wire)
        ⟨{ s with stream := s.stream ++ wire.take n }, [.write frame (wire.drop n)], []⟩
  | written {frame : Frame} : Exec s (.write frame []) ⟨s, [.release frame], []⟩
  | release {frame : Frame} (hheld : s.held = true) :
      Exec s (.release frame)
        ⟨{ s with held := false, written := s.written ++ [frame] }, [], []⟩

/-- Another goroutine calls `WriteFrame`. -/
inductive WriteLane.Ambient (s : WriteLane) : WriteLane → List (List WriteInstr) → Prop where
  | call (frame : Frame) :
      Ambient s { s with called := s.called ++ [frame] } [[.writeFrame frame]]

/-- The callers of `WriteFrame` on one transport. -/
def writeLane : Machine WriteLane WriteInstr where
  exec := WriteLane.Exec
  ambient := WriteLane.Ambient

section FrameWire

variable {frame : Frame} {wire : List UInt8} {err : Error}

/-- A frame that is sent is sender-valid and is written as its layout. -/
theorem frameWire_eq_ok (h : frameWire frame = .ok wire) :
    frame.validate = .ok () ∧ wire = frame.octets := by
  unfold frameWire at h
  split at h
  · cases h
  · rename_i marshalled hmarshal
    dsimp only at h
    split_ifs at h
    obtain rfl := Except.ok.inj h
    exact Frame.marshalBinary_eq_ok hmarshal

/-- The size checks never fail. -/
theorem frameWire_of_validate (h : frame.validate = .ok ()) :
    frameWire frame = .ok frame.octets := by
  have hreceive := Frame.validateReceive_of_validate h
  obtain ⟨hlow, hhigh⟩ := frameSize_bounds hreceive
  have hlength := octets_length_of_validateReceive hreceive
  unfold frameWire
  rw [Frame.marshalBinary_of_validate h]
  dsimp only
  rw [if_neg (by omega), if_neg (by omega)]

end FrameWire

/-! ## The holder of the lane -/

/-- The instructions that hold the token of the lane. -/
def WriteInstr.holds : WriteInstr → Nat
  | .write _ _ | .release _ => 1
  | .writeFrame _ | .acquire _ _ => 0

/-- The token of the lane, when it is free. -/
def WriteLane.free (s : WriteLane) : Int := if s.held then 0 else 1

theorem writeLane_conserves_token : writeLane.Conserves WriteInstr.holds WriteLane.free where
  exec := by
    intro s i effect hexec
    cases hexec with
    | marshal | refuse => simp [Effect.leaves, WriteInstr.holds]
    | acquire hfree => simp [Effect.leaves, WriteInstr.holds, WriteLane.free, hfree]
    | write => simp [Effect.leaves, WriteInstr.holds, WriteLane.free]
    | written => simp [Effect.leaves, WriteInstr.holds]
    | release hheld => simp [Effect.leaves, WriteInstr.holds, WriteLane.free, hheld]
  ambient := by
    intro s s' new hambient
    cases hambient with
    | call frame => simp [WriteInstr.holds, WriteLane.free]

/-- What the holder of the lane knows: the stream is all frames before its own, and of its
own the octets that are not left. -/
structure WriteLane.Owns (s : WriteLane) (frame : Frame) (left : List UInt8) : Prop where
  held : s.held = true
  last : s.acquired = s.written ++ [frame]
  stream : ∃ gone, frame.octets = gone ++ left ∧ s.stream = s.written.flatMap Frame.octets ++ gone

/-- What an instruction that holds the token knows. -/
def WriteInstr.Knows (s : WriteLane) : WriteInstr → Prop
  | .write frame left => s.Owns frame left
  | .release frame => s.Owns frame []
  | .writeFrame _ | .acquire _ _ => True

/-- A call of another goroutine changes none of it. -/
theorem WriteInstr.Knows.call {s : WriteLane} {i : WriteInstr} (h : i.Knows s) (frame : Frame) :
    i.Knows { s with called := s.called ++ [frame] } := by
  cases i with
  | write g left | release g => exact ⟨h.held, h.last, h.stream⟩
  | writeFrame g | acquire g wire => exact trivial

/-- What a caller in front of the lane has to write. -/
def WriteInstr.Ready : WriteInstr → Prop
  | .acquire frame wire => frame.validate = .ok () ∧ wire = frame.octets
  | .writeFrame _ | .write _ _ | .release _ => True

/-- The lane is free: everything was written. -/
structure WriteLane.Idle (s : WriteLane) : Prop where
  acquired : s.acquired = s.written
  stream : s.stream = s.written.flatMap Frame.octets

/-- The invariant: the stream carries the frames in the order of the lane. -/
structure Carries (pool : Pool WriteLane WriteInstr) : Prop where
  token : pool.total WriteInstr.holds WriteLane.free = 1
  valid : ∀ frame ∈ pool.state.acquired, frame.validate = .ok ()
  ready : ∀ t ∈ pool.threads, ∀ i ∈ t, i.Ready
  owner : ∀ t ∈ pool.threads, ∀ i ∈ t, i.holds ≠ 0 → i.Knows pool.state
  idle : pool.state.held = false → pool.state.Idle

/-- What one step of a caller keeps. -/
structure WriteLane.Kept (s : WriteLane) (i : WriteInstr) (effect : Effect WriteLane WriteInstr) :
    Prop where
  spawned : effect.spawned = []
  valid : (∀ frame ∈ s.acquired, frame.validate = .ok ()) →
    ∀ frame ∈ effect.state.acquired, frame.validate = .ok ()
  ready : ∀ j ∈ effect.pushed, j.Ready
  pushed : ∀ j ∈ effect.pushed, j.holds ≠ 0 → j.Knows effect.state
  others : i.holds = 0 → ∀ j, j.holds ≠ 0 → WriteInstr.Knows s j → j.Knows effect.state
  idle : effect.state.held = false → effect.state.Idle

/-- A step keeps the invariant, if the instruction finds what it counts on. -/
theorem WriteLane.Exec.kept {s : WriteLane} {i : WriteInstr}
    {effect : Effect WriteLane WriteInstr} (hexec : s.Exec i effect) (hready : i.Ready)
    (hknows : i.holds ≠ 0 → i.Knows s) (hidle : s.held = false → s.Idle) : s.Kept i effect := by
  cases hexec with
  | marshal hwire =>
      refine ⟨rfl, id, ?_, ?_, fun _ _ _ h => h, hidle⟩
      · intro j hj
        obtain rfl := List.mem_singleton.mp hj
        exact frameWire_eq_ok hwire
      · intro j hj hholds
        obtain rfl := List.mem_singleton.mp hj
        exact absurd rfl hholds
  | refuse _ => exact ⟨rfl, id, by simp, by simp, fun _ _ _ h => h, hidle⟩
  | @acquire frame wire hfree =>
      obtain ⟨hvalid, hwire⟩ := hready
      obtain ⟨hacquired, hstream⟩ := hidle hfree
      refine ⟨rfl, ?_, ?_, ?_, ?_, nofun⟩
      · intro hall g hg
        rcases List.mem_append.mp hg with hold | hnew
        · exact hall g hold
        · rwa [List.mem_singleton.mp hnew]
      · intro j hj
        obtain rfl := List.mem_singleton.mp hj
        exact trivial
      · -- the new holder has its whole frame left
        intro j hj _
        obtain rfl := List.mem_singleton.mp hj
        refine ⟨rfl, by rw [hacquired], [], by rw [hwire, List.nil_append], ?_⟩
        rw [List.append_nil]
        exact hstream
      · -- nobody held the lane
        intro _ j hholds hj
        cases j with
        | write g left | release g => exact absurd hj.held (by rw [hfree]; exact nofun)
        | writeFrame _ | acquire _ _ => exact trivial
  | @write frame wire n hpos hle =>
      have howns : s.Owns frame wire := hknows Nat.one_ne_zero
      obtain ⟨hheld, hlast, gone, hgone, hstream⟩ := howns
      refine ⟨rfl, id, ?_, ?_, fun hzero => absurd hzero Nat.one_ne_zero, ?_⟩
      · intro j hj
        obtain rfl := List.mem_singleton.mp hj
        exact trivial
      · intro j hj _
        obtain rfl := List.mem_singleton.mp hj
        refine ⟨hheld, hlast, gone ++ wire.take n, ?_, ?_⟩
        · rw [List.append_assoc, List.take_append_drop, hgone]
        · show s.stream ++ wire.take n = _
          rw [hstream, List.append_assoc]
      · intro hfree
        exact absurd hheld (by rw [show s.held = false from hfree]; exact nofun)
  | @written frame =>
      have howns : s.Owns frame [] := hknows Nat.one_ne_zero
      refine ⟨rfl, id, ?_, ?_, fun hzero => absurd hzero Nat.one_ne_zero, hidle⟩
      · intro j hj
        obtain rfl := List.mem_singleton.mp hj
        exact trivial
      · intro j hj _
        obtain rfl := List.mem_singleton.mp hj
        exact howns
  | @release frame _ =>
      have howns : s.Owns frame [] := hknows Nat.one_ne_zero
      obtain ⟨-, hlast, gone, hgone, hstream⟩ := howns
      rw [List.append_nil] at hgone
      refine ⟨rfl, id, by simp, by simp, fun hzero => absurd hzero Nat.one_ne_zero, fun _ => ?_⟩
      refine ⟨hlast, ?_⟩
      show s.stream = _
      rw [hstream, ← hgone, List.flatMap_append, List.flatMap_singleton]

theorem Carries.step {before after : Pool WriteLane WriteInstr} (h : Carries before)
    (hstep : writeLane.Step before after) : Carries after := by
  have htoken : after.total WriteInstr.holds WriteLane.free = 1 :=
    (writeLane_conserves_token.step hstep).trans h.token
  cases hstep with
  | @thread s threads k i rest effect hk hexec =>
      have hmem := List.mem_of_getElem? hk
      have hkept := WriteLane.Exec.kept hexec (h.ready _ hmem i List.mem_cons_self)
        (h.owner _ hmem i List.mem_cons_self) h.idle
      have hload : load WriteInstr.holds threads ≤ 1 := by
        have hfree : 0 ≤ WriteLane.free s := by unfold WriteLane.free; split_ifs <;> decide
        have htotal : WriteLane.free s + (load WriteInstr.holds threads : Int) = 1 := h.token
        omega
      refine ⟨htoken, hkept.valid h.valid, ?_, ?_, hkept.idle⟩
      · intro t ht j hj
        rcases mem_set_append ht with rfl | hold | hnew
        · rcases List.mem_append.mp hj with hpushed | hrest
          · exact hkept.ready j hpushed
          · exact h.ready _ hmem j (List.mem_cons_of_mem _ hrest)
        · exact h.ready t hold j hj
        · rw [hkept.spawned] at hnew
          cases hnew
      · apply owned_step hload hk h.owner hkept.others hkept.pushed
        intro t ht
        rw [hkept.spawned] at ht
        cases ht
  | ambient hambient =>
      cases hambient with
      | call frame =>
          have hnew : ∀ (p : WriteInstr → Prop), p (.writeFrame frame) →
              ∀ t ∈ [[WriteInstr.writeFrame frame]], ∀ i ∈ t, p i := by
            intro p hp t ht i hi
            obtain rfl := List.mem_singleton.mp ht
            obtain rfl := List.mem_singleton.mp hi
            exact hp
          refine ⟨htoken, h.valid, ?_, ?_, fun hfree => ?_⟩
          · intro t ht
            rcases List.mem_append.mp ht with hold | hcall
            · exact h.ready t hold
            · exact hnew WriteInstr.Ready trivial t hcall
          · intro t ht
            rcases List.mem_append.mp ht with hold | hcall
            · exact fun i hi hholds => (h.owner t hold i hi hholds).call frame
            · exact hnew (fun i => i.holds ≠ 0 → i.Knows _) (fun _ => trivial) t hcall
          · obtain ⟨hacquired, hstream⟩ := h.idle hfree
            exact ⟨hacquired, hstream⟩

theorem carries_fresh : Carries ⟨WriteLane.fresh, []⟩ :=
  ⟨rfl, by simp [WriteLane.fresh], by simp, by simp, fun _ => ⟨rfl, rfl⟩⟩

/-- The invariant holds in every interleaving. -/
theorem carries_of_reaches {pool : Pool WriteLane WriteInstr}
    (h : writeLane.Reaches ⟨WriteLane.fresh, []⟩ pool) : Carries pool :=
  Machine.invariant_of_step Carries.step carries_fresh h

/-! ## No frame is lost or added -/

/-- The calls for a frame that have not taken the lane. -/
def WriteInstr.awaits (frame : Frame) : WriteInstr → Nat
  | .writeFrame g => if sendable g ∧ g = frame then 1 else 0
  | .acquire g _ => if g = frame then 1 else 0
  | .write _ _ | .release _ => 0

/-- How often a frame has taken the lane, less the calls that were to send it. -/
def WriteLane.surplus (frame : Frame) (s : WriteLane) : Int :=
  s.acquired.count frame - (s.called.filter sendable).count frame

theorem count_append_singleton (frames : List Frame) (frame g : Frame) :
    (frames ++ [g]).count frame = frames.count frame + if g = frame then 1 else 0 := by
  rw [List.count_append, List.count_singleton]
  simp only [beq_iff_eq]

/-- Every call for a sendable frame takes the lane once. -/
theorem writeLane_conserves_calls (frame : Frame) :
    writeLane.Conserves (WriteInstr.awaits frame) (WriteLane.surplus frame) where
  exec := by
    intro s i effect hexec
    cases hexec with
    | marshal hwire =>
        have hsendable := (sendable_iff _).mpr (frameWire_eq_ok hwire).1
        simp [Effect.leaves, WriteInstr.awaits, hsendable]
    | @refuse g err hwire =>
        have hrefused : sendable g = false := by
          rw [← Bool.not_eq_true, sendable_iff]
          intro hvalid
          rw [frameWire_of_validate hvalid] at hwire
          cases hwire
        simp [Effect.leaves, WriteInstr.awaits, hrefused]
    | @acquire g wire _ =>
        simp only [Effect.leaves, WriteInstr.awaits, WriteLane.surplus, weigh_cons, weigh_nil,
          load_nil, count_append_singleton]
        push_cast
        omega
    | write => simp [Effect.leaves, WriteInstr.awaits, WriteLane.surplus]
    | written => simp [Effect.leaves, WriteInstr.awaits]
    | release => simp [Effect.leaves, WriteInstr.awaits, WriteLane.surplus]
  ambient := by
    intro s s' new hambient
    cases hambient with
    | call g =>
        simp only [WriteLane.surplus, List.filter_append, load_cons, load_nil, weigh_cons,
          weigh_nil, WriteInstr.awaits]
        cases hsendable : sendable g with
        | false => simp [hsendable]
        | true =>
            have hfilter : [g].filter sendable = [g] := by simp [hsendable]
            rw [hfilter, count_append_singleton]
            simp only [true_and]
            push_cast
            omega

/-- A frame that took the lane was called for. -/
theorem called_of_reaches {pool : Pool WriteLane WriteInstr}
    (h : writeLane.Reaches ⟨WriteLane.fresh, []⟩ pool) {frame : Frame}
    (hframe : frame ∈ pool.state.acquired) : frame ∈ pool.state.called := by
  have htotal : pool.total (WriteInstr.awaits frame) (WriteLane.surplus frame) = 0 :=
    (writeLane_conserves_calls frame).reaches h
  have hcount := List.count_pos_iff.mpr hframe
  simp only [Pool.total, WriteLane.surplus] at htotal
  have hcalled : 0 < (pool.state.called.filter sendable).count frame := by omega
  exact List.mem_of_mem_filter (List.count_pos_iff.mp hcalled)

/-- When all calls have returned, the lane was taken for exactly the sendable frames. -/
theorem acquired_perm_of_reaches {pool : Pool WriteLane WriteInstr}
    (h : writeLane.Reaches ⟨WriteLane.fresh, []⟩ pool) (hdone : ∀ t ∈ pool.threads, t = []) :
    pool.state.acquired.Perm (pool.state.called.filter sendable) := by
  rw [List.perm_iff_count]
  intro frame
  have htotal : pool.total (WriteInstr.awaits frame) (WriteLane.surplus frame) = 0 :=
    (writeLane_conserves_calls frame).reaches h
  have hload : load (WriteInstr.awaits frame) pool.threads = 0 := by
    apply load_eq_zero
    intro t ht i hi
    rw [hdone t ht] at hi
    cases hi
  simp only [Pool.total, WriteLane.surplus, hload] at htotal
  push_cast at htotal
  omega

/-! ## Stream framing -/

/-- Where the lane is held, some caller holds it. -/
theorem Carries.holder {pool : Pool WriteLane WriteInstr} (h : Carries pool)
    (hheld : pool.state.held = true) : ∃ frame left, pool.state.Owns frame left := by
  have htotal : pool.state.free + (load WriteInstr.holds pool.threads : Int) = 1 := h.token
  have hload : load WriteInstr.holds pool.threads ≠ 0 := by
    intro hzero
    simp [WriteLane.free, hheld, hzero] at htotal
  by_contra hnone
  apply hload
  apply load_eq_zero
  intro t ht i hi
  by_contra hholds
  have hknows := h.owner t ht i hi hholds
  cases i with
  | write frame left => exact hnone ⟨frame, left, hknows⟩
  | release frame => exact hnone ⟨frame, [], hknows⟩
  | writeFrame frame | acquire frame wire => exact hholds rfl

/-- The stream is a part of the octets of the frames. -/
theorem Carries.stream {pool : Pool WriteLane WriteInstr} (h : Carries pool) :
    pool.state.stream <+: pool.state.acquired.flatMap Frame.octets := by
  cases hheld : pool.state.held with
  | false =>
      obtain ⟨hacquired, hstream⟩ := h.idle hheld
      rw [hacquired, hstream]
  | true =>
      obtain ⟨frame, left, -, hlast, gone, hoctets, hstream⟩ := h.holder hheld
      refine ⟨left, ?_⟩
      rw [hstream, hlast, List.flatMap_append, List.flatMap_singleton, hoctets, List.append_assoc]

/-- When all calls have returned, the lane is free. -/
theorem Carries.idle_of_done {pool : Pool WriteLane WriteInstr} (h : Carries pool)
    (hdone : ∀ t ∈ pool.threads, t = []) : pool.state.Idle := by
  apply h.idle
  have htotal : pool.state.free + (load WriteInstr.holds pool.threads : Int) = 1 := h.token
  have hload : load WriteInstr.holds pool.threads = 0 := by
    apply load_eq_zero
    intro t ht i hi
    rw [hdone t ht] at hi
    cases hi
  cases hheld : pool.state.held with
  | false => rfl
  | true => simp [WriteLane.free, hheld, hload] at htotal

/-- `WriteFrame` fails before it writes only as `Validate` does. -/
theorem frameWire_error {frame : Frame} {err : Error} (h : frameWire frame = .error err) :
    err.kinds ⊆ Sentinel.reservedFlags :: decodeErrors := by
  have hvalidate : frame.validate = .error err := by
    cases hvalid : frame.validate with
    | ok _ =>
        rw [frameWire_of_validate hvalid] at h
        cases h
    | error err' =>
        rw [frameWire, Frame.marshalBinary, hvalid] at h
        exact congrArg Except.error (Except.error.inj h)
  unfold Frame.validate at hvalidate
  split at hvalidate
  · rename_i err' hheader
    obtain rfl := Except.error.inj hvalidate
    unfold Header.validate at hheader
    split at hheader
    · rename_i err'' hcommon
      obtain rfl := Except.error.inj hheader
      exact List.subset_cons_of_subset _ (Header.validateCommon_error hcommon)
    · dsimp only at hheader
      split_ifs at hheader
      · obtain rfl := Except.error.inj hheader
        exact List.cons_subset_cons _ (List.nil_subset _)
      · obtain rfl := Except.error.inj hheader
        exact List.cons_subset_cons _ (List.nil_subset _)
  · simp only [Frame.validateLengths] at hvalidate
    split_ifs at hvalidate
    · obtain rfl := Except.error.inj hvalidate
      show [Sentinel.frameLengthMismatch] ⊆ _
      decide
    · obtain rfl := Except.error.inj hvalidate
      show [Sentinel.frameLengthMismatch] ⊆ _
      decide

/-- Framing of a stream that any number of callers write.  In every interleaving, and
however the connection cuts writes and reads: whatever part of the stream arrives, the
complete frames in it are returned in the order of the lane, each with its own octets,
and then an error; when all calls have returned these are all frames that could be sent.

On any stream `ReadFrame` succeeds exactly if the decoder accepts a prefix, which is then
the only one and is what was consumed; the size checks of `ReadFrame` and `WriteFrame`
never fail. -/
theorem stream_framing {pool : Pool WriteLane WriteInstr}
    (hreach : writeLane.Reaches ⟨WriteLane.fresh, []⟩ pool)
    (htags : ∀ frame ∈ pool.state.called, frame.TagCanonical) :
    (∀ conn : Fragments, conn.octets <+: pool.state.stream →
      ∃ whole part, pool.state.acquired = whole ++ part ∧
        whole.flatMap Frame.octets <+: conn.octets ∧
        (∀ f ∈ part.head?, ¬ (whole ++ [f]).flatMap Frame.octets <+: conn.octets) ∧
        ∃ err, conn.readFrames (whole.length + 1) =
          whole.map (fun f => .ok (f, f.header.frameSize)) ++ [.error err]) ∧
    ((∀ t ∈ pool.threads, t = []) →
      pool.state.acquired = pool.state.written ∧
      pool.state.acquired.Perm (pool.state.called.filter sendable) ∧
      ∀ conn : Fragments, conn.octets = pool.state.stream →
        ∃ err, conn.readFrames (pool.state.acquired.length + 1) =
          pool.state.acquired.map (fun f => .ok (f, f.header.frameSize)) ++ [.error err]) ∧
    (∀ conn : Fragments,
      ((∃ frame rest, conn.readFrame = .ok (frame, rest)) ↔
        ∃ wire frame, wire <+: conn.octets ∧ Frame.unmarshalBinary wire = .ok frame) ∧
      (∀ wire wire' frame frame', wire <+: conn.octets → wire' <+: conn.octets →
        Frame.unmarshalBinary wire = .ok frame → Frame.unmarshalBinary wire' = .ok frame' →
        wire = wire') ∧
      (∀ frame rest, conn.readFrame = .ok (frame, rest) →
        ∃ wire, conn.octets = wire ++ rest.octets ∧ Frame.unmarshalBinary wire = .ok frame) ∧
      ∀ err, conn.readFrame = .error err →
        ¬ err.is .transportFrameTooShort ∧ ¬ err.is .transportFrameTooLarge) ∧
    ∀ frame err, frameWire frame = .error err →
      ¬ err.is .transportFrameTooShort ∧ ¬ err.is .transportFrameTooLarge := by
  have hcarries := carries_of_reaches hreach
  have hframes : ∀ f ∈ pool.state.acquired, f.validateReceive = .ok () ∧ f.TagCanonical := by
    intro f hf
    exact ⟨Frame.validateReceive_of_validate (hcarries.valid f hf),
      htags f (called_of_reaches hreach hf)⟩
  refine ⟨?_, ?_, ?_, ?_⟩
  · intro conn hconn
    exact Fragments.readFrames_front hframes (hconn.trans hcarries.stream)
  · intro hdone
    obtain ⟨hacquired, hstream⟩ := hcarries.idle_of_done hdone
    refine ⟨hacquired, acquired_perm_of_reaches hreach hdone, fun conn hconn => ?_⟩
    rw [hstream, ← hacquired] at hconn
    exact Fragments.readFrames_all hframes hconn
  · intro conn
    refine ⟨conn.readFrame_isOk_iff, fun _ _ _ _ => conn.accepted_prefix_unique,
      fun _ _ => Fragments.readFrame_eq_ok, fun err herr => ?_⟩
    exact not_size_error (Fragments.readFrame_error herr) (by decide) (by decide)
  · intro frame err herr
    exact not_size_error (frameWire_error herr) (by decide) (by decide)

/-- A frame without payload. -/
def bareFrame (messageType : MessageType) : Frame :=
  ⟨newHeader messageType (Octets.zero 16) 0 0 0, [], Octets.zero 16, []⟩

/-- Two callers: the second takes the lane first and is written in two parts. -/
theorem write_two_frames :
    writeLane.Leads
      (fun pool => pool.state.acquired = [bareFrame 2, bareFrame 1] ∧
        pool.state.called = [bareFrame 1, bareFrame 2] ∧ ∀ t ∈ pool.threads, t = [])
      ⟨WriteLane.fresh, []⟩ := by
  refine .step (.ambient (.call (bareFrame 1))) ?_
  refine .step (.ambient (.call (bareFrame 2))) ?_
  refine .second (.marshal (frameWire_of_validate rfl)) ?_
  refine .first (.marshal (frameWire_of_validate rfl)) ?_
  refine .second (.acquire rfl) ?_
  refine .second (.write 1 (by decide) (by decide)) ?_
  refine .second (.write 39 (by decide) (by decide)) ?_
  refine .second .written ?_
  refine .second (.release rfl) ?_
  refine .first (.acquire rfl) ?_
  refine .first (.write 40 (by decide) (by decide)) ?_
  refine .first .written ?_
  refine .first (.release rfl) ?_
  refine .here ⟨rfl, rfl, ?_⟩
  intro t ht
  simpa using ht

/-- The frames of the two callers are read in the order of the lane. -/
theorem stream_framing_two :
    ∃ pool, writeLane.Reaches ⟨WriteLane.fresh, []⟩ pool ∧
      pool.state.acquired = [bareFrame 2, bareFrame 1] ∧
      ∀ conn : Fragments, conn.octets = pool.state.stream →
        ∃ err, conn.readFrames 3 =
          [.ok (bareFrame 2, 40), .ok (bareFrame 1, 40), .error err] := by
  obtain ⟨pool, hreach, hacquired, hcalled, hdone⟩ := write_two_frames
  have htags : ∀ frame ∈ pool.state.called, frame.TagCanonical := by
    intro frame hframe
    rw [hcalled] at hframe
    simp only [List.mem_cons, List.not_mem_nil, or_false] at hframe
    rcases hframe with rfl | rfl
    · exact fun _ => rfl
    · exact fun _ => rfl
  obtain ⟨-, hall, -⟩ := stream_framing hreach htags
  obtain ⟨-, -, hread⟩ := hall hdone
  rw [hacquired] at hread
  exact ⟨pool, hreach, hacquired, hread⟩

end DgProto
