import DgProto.Session.AtomicRejection
import DgProto.Session.Flight

/-!
# Frames on a byte stream

`TCPTransport.ReadFrame` cuts a stream of octets into frames: the header announces how
many octets follow.  A reader of any part of a stream of whole frames gets exactly the
frames that the part contains (`readFrame_octets_append`, `readFrame_cut`).

A session that reads such a stream frame by frame with `ReadFrame` and `Receive` accepts
all of them, if they are a flight that starts where the session stands, and returns the
messages they carry (`receiveStream_flight`).
-/

namespace DgProto

open Library Wire Crypto Replay

/-! ## ReadFrame -/

/-- What `ReadFrame` does between its two reads: the size that the header announces. -/
def announcedSize (headerWire : List UInt8) : Except Error Nat :=
  match Header.unmarshalBinary headerWire with
  | .error err => .error err
  | .ok header =>
      let frameSize := header.frameSize
      if frameSize < headerSize then
        .error (Sentinel.transportFrameTooShort.wrap
          s!"got {frameSize}, want at least {headerSize}")
      else if maxFrameSize < frameSize then
        .error (Sentinel.transportFrameTooLarge.wrap s!"got {frameSize}, maximum {maxFrameSize}")
      else .ok frameSize

section Connection

-- `io.ReadFull` on a connection
variable {α : Type} (readFull : α → Nat → Except Error (List UInt8 × α))

/-- The second read of `ReadFrame`, and the frame. -/
def readBodyWith (headerWire : List UInt8) (frameSize : Nat) (conn : α) :
    Except Error (Frame × α) :=
  match readFull conn (frameSize - headerSize) with
  | .error err => .error err
  | .ok (body, conn) =>
      match Frame.unmarshalBinary (headerWire ++ body) with
      | .error err => .error err
      | .ok frame => .ok (frame, conn)

/-- `TCPTransport.ReadFrame` with a context that does not end. -/
def readFrameWith (conn : α) : Except Error (Frame × α) :=
  match readFull conn headerSize with
  | .error err => .error err
  | .ok (headerWire, conn) =>
      match announcedSize headerWire with
      | .error err => .error err
      | .ok frameSize => readBodyWith readFull headerWire frameSize conn

end Connection

/-- The stream after some of its octets. -/
def Crypto.Reader.skip (stream : Reader) (length : Nat) : Reader :=
  { stream with octets := stream.octets.drop length }

/-- `io.ReadFull`, with the stream behind what it read. -/
def Crypto.Reader.advance (stream : Reader) (length : Nat) : Except Error (List UInt8 × Reader) :=
  match stream.readFull length with
  | .error err => .error err
  | .ok data => .ok (data, stream.skip length)

/-- `TCPTransport.ReadFrame` on a stream of octets. -/
def readFrame (stream : Reader) : Except Error (Frame × Reader) :=
  readFrameWith Reader.advance stream

section ReadFrame

variable {stream : Reader} {length : Nat} {f : Frame}

theorem advance_of_le (h : length ≤ stream.octets.length) :
    stream.advance length = .ok (stream.octets.take length, stream.skip length) := by
  unfold Reader.advance Reader.readFull
  rw [if_pos h]

theorem advance_of_lt (h : stream.octets.length < length) :
    ∃ err, stream.advance length = .error err := by
  unfold Reader.advance Reader.readFull
  rw [if_neg (by omega)]
  cases stream.failure with
  | some text => exact ⟨_, rfl⟩
  | none =>
      by_cases hempty : stream.octets = []
      · exact ⟨Sentinel.ioEOF.bare, by rw [if_pos hempty]⟩
      · exact ⟨Sentinel.ioUnexpectedEOF.bare, by rw [if_neg hempty]⟩

/-- Without a whole header there is no frame. -/
theorem readFrame_of_short (h : stream.octets.length < headerSize) :
    ∃ err, readFrame stream = .error err := by
  obtain ⟨err, herr⟩ := advance_of_lt h
  refine ⟨err, ?_⟩
  unfold readFrame readFrameWith
  rw [herr]

theorem frameSize_bounds (h : f.validateReceive = .ok ()) :
    headerSize ≤ f.header.frameSize ∧ f.header.frameSize ≤ maxFrameSize := by
  obtain ⟨hcommon, -, -⟩ := (Frame.validateReceive_eq_ok_iff f).mp h
  refine ⟨?_, hcommon.size⟩
  unfold Header.frameSize
  omega

theorem octets_length_of_validateReceive (h : f.validateReceive = .ok ()) :
    f.octets.length = f.header.frameSize := by
  obtain ⟨-, hpayload, hpadding⟩ := (Frame.validateReceive_eq_ok_iff f).mp h
  exact Frame.octets_length ((Frame.validateLengths_eq_ok_iff f).mpr ⟨hpayload, hpadding⟩)

theorem announcedSize_eq_ok {headerWire : List UInt8} {size : Nat}
    (h : announcedSize headerWire = .ok size) : headerSize ≤ size ∧ size ≤ maxFrameSize := by
  unfold announcedSize at h
  split at h
  · cases h
  · dsimp only at h
    split_ifs at h with hshort hlarge
    obtain rfl := Except.ok.inj h
    exact ⟨Nat.not_lt.mp hshort, Nat.not_lt.mp hlarge⟩

/-- The header of a frame is read first. -/
theorem readFrame_header (h : f.validateReceive = .ok ())
    (hheader : stream.octets.take headerSize = f.octets.take headerSize)
    (hlong : headerSize ≤ stream.octets.length) :
    readFrame stream = readBodyWith Reader.advance (stream.octets.take headerSize)
      f.header.frameSize (stream.skip headerSize) := by
  obtain ⟨hlow, hhigh⟩ := frameSize_bounds h
  obtain ⟨hcommon, -, -⟩ := (Frame.validateReceive_eq_ok_iff f).mp h
  have hparse : Header.unmarshalBinary (stream.octets.take headerSize) = .ok f.header := by
    rw [hheader, Frame.take_headerSize_octets]
    simpa using Header.unmarshalBinary_octets_append []
      ((Header.validateReceive_eq_ok_iff f.header).mpr hcommon)
  have hsize : announcedSize (stream.octets.take headerSize) = .ok f.header.frameSize := by
    simp only [announcedSize, hparse]
    rw [if_neg (by omega), if_neg (by omega)]
  unfold readFrame readFrameWith
  rw [advance_of_le hlong]
  simp only [hsize]

/-- A frame at the front of the stream is read, and the stream goes on after it. -/
theorem readFrame_octets_append (h : f.validateReceive = .ok ()) (htag : f.TagCanonical)
    (rest : List UInt8) (failure : Option String) :
    readFrame ⟨f.octets ++ rest, failure⟩ = .ok (f, ⟨rest, failure⟩) := by
  obtain ⟨hlow, -⟩ := frameSize_bounds h
  have hsize := octets_length_of_validateReceive h
  have hheader : (f.octets ++ rest).take headerSize = f.octets.take headerSize :=
    List.take_append_of_le_length (by omega)
  rw [readFrame_header h hheader (by rw [List.length_append]; omega)]
  have hbehind : (f.octets ++ rest).drop headerSize = f.octets.drop headerSize ++ rest :=
    List.drop_append_of_le_length (by omega)
  have hlength : (f.octets.drop headerSize).length = f.header.frameSize - headerSize := by
    rw [List.length_drop, hsize]
  have hbody : (Reader.skip ⟨f.octets ++ rest, failure⟩ headerSize).advance
      (f.header.frameSize - headerSize) = .ok (f.octets.drop headerSize, ⟨rest, failure⟩) := by
    simp only [Reader.skip, hbehind]
    rw [advance_of_le (by simp only [List.length_append]; omega)]
    simp only [Reader.skip, ← hlength, List.take_left, List.drop_left]
  unfold readBodyWith
  rw [hbody, hheader]
  simp only [List.take_append_drop, Frame.unmarshalBinary_octets h htag]

/-- From a part of a frame nothing is read. -/
theorem readFrame_cut (h : f.validateReceive = .ok ()) (hcut : stream.octets <+: f.octets)
    (hshort : stream.octets.length < f.octets.length) :
    ∃ err, readFrame stream = .error err := by
  by_cases hlong : headerSize ≤ stream.octets.length
  · have hheader : stream.octets.take headerSize = f.octets.take headerSize := by
      obtain ⟨rest, hrest⟩ := hcut
      rw [← hrest, List.take_append_of_le_length hlong]
    have hsize := octets_length_of_validateReceive h
    rw [readFrame_header h hheader hlong]
    obtain ⟨err, herr⟩ : ∃ err, (stream.skip headerSize).advance
        (f.header.frameSize - headerSize) = .error err := by
      apply advance_of_lt
      simp only [Reader.skip, List.length_drop]
      omega
    refine ⟨err, ?_⟩
    unfold readBodyWith
    rw [herr]
  · exact readFrame_of_short (Nat.not_le.mp hlong)

/-- From the end of the stream nothing is read. -/
theorem readFrame_nil (h : stream.octets = []) : ∃ err, readFrame stream = .error err := by
  apply readFrame_of_short
  rw [h]
  decide

end ReadFrame

/-! ## Receive on a stream -/

/-- A session reads one frame for every clock, and hands it to `Receive`; it stops when
no frame can be read. -/
def Session.receiveStream (P : Primitives) :
    Session → Reader → List ReceiveClock → List (Frame × Except Error Message)
  | _, _, [] => []
  | s, stream, clock :: clocks =>
      match readFrame stream with
      | .error _ => []
      | .ok (frame, rest) =>
          (frame, (s.receiveMessage P clock frame).2) ::
            receiveStream P (s.receiveMessage P clock frame).1 rest clocks

/-- The emission carries this message. -/
def Emission.Carries (e : Emission) (m : Message) : Prop :=
  m.kind.type = e.frame.header.messageType ∧ m.marshalBinary = .ok e.plaintext

section ReceiveStream

variable {P : Primitives} {b : Session} {sessionID : Octets 16} {epoch : UInt32} {key : Key}
  {floor : Nat} {End : UInt32 → Key → Nat → Prop}

/-- Every frame of a flight is one that `ReadFrame` can read. -/
theorem Flight.head_valid {e : Emission} {rest : List Emission}
    (h : Flight P sessionID End epoch key floor (e :: rest)) :
    e.frame.validateReceive = .ok () ∧ e.frame.TagCanonical := by
  have hpacket : ∃ p : Packet, p.Sendable ∧ e.frame = p.frame P key := by
    cases h with
    | message p hsend _ _ _ hframe | rekey p hsend _ _ _ hframe => exact ⟨p, hsend, hframe⟩
  obtain ⟨p, hsend, hframe⟩ := hpacket
  rw [hframe]
  refine ⟨Frame.validateReceive_of_validate (Packet.frame_validate P key hsend), ?_⟩
  -- only handshake frames have no tag
  intro hnone
  rw [Packet.frame_header, Packet.header_hasAEADTag hsend] at hnone
  cases hnone

/-- An accepted payload that is a marshalled message is returned as that message. -/
theorem receiveMessage_of_marshalBinary {clock : ReceiveClock} {frame : Frame} {m : Message}
    {plaintext : List UInt8} (htype : m.kind.type = frame.header.messageType)
    (hmarshal : m.marshalBinary = .ok plaintext)
    (hpayload : (b.receivePayload P clock frame).2 = .ok plaintext) :
    (b.receiveMessage P clock frame).2 = .ok m := by
  unfold Session.receiveMessage
  rcases houtcome : b.receivePayload P clock frame with ⟨after, result⟩
  rw [houtcome] at hpayload
  simp only at hpayload
  subst hpayload
  simp only [← htype, newInboundMessage_type, Message.unmarshalBinary_marshalBinary hmarshal]

/-- The receiver of a flight accepts its first frame and returns the message it carries. -/
theorem Flight.receive (hopen : P.OpenInvertsSeal) (hb : Listening b sessionID epoch key floor)
    {e : Emission} {rest : List Emission}
    (h : Flight P sessionID End epoch key floor (e :: rest))
    (hcarries : e.isRekey = true ∨ ∃ m, e.Carries m) (clock : ReceiveClock) :
    (∃ m, (b.receiveMessage P clock e.frame).2 = .ok m ∧
        ∀ m', e.isRekey = false → e.Carries m' → m = m') ∧
      ∃ epoch' key' floor', Listening (b.receiveMessage P clock e.frame).1 sessionID epoch' key'
          floor' ∧ Flight P sessionID End epoch' key' floor' rest := by
  obtain ⟨hpayload, hnext⟩ := h.deliver hopen hb clock
  rw [Session.receiveMessage_state]
  refine ⟨?_, hnext⟩
  cases hrekey : e.isRekey with
  | true =>
      obtain ⟨init, hinit⟩ := Session.receiveMessage_rekey P clock b e.frame
        (by simpa [Emission.isRekey] using hrekey) hpayload
      exact ⟨_, hinit, fun _ hnot => by cases hnot⟩
  | false =>
      obtain ⟨m, htype, hmarshal⟩ := hcarries.resolve_left (by simp [hrekey])
      have hm := receiveMessage_of_marshalBinary htype hmarshal hpayload
      refine ⟨m, hm, fun m' _ hm' => ?_⟩
      have hm'' := receiveMessage_of_marshalBinary hm'.1 hm'.2 hpayload
      rw [hm] at hm''
      exact Except.ok.inj hm''

/-- A session at the start of a flight reads a part of its octets: it accepts every frame
that the part contains, in order, and returns the messages they carry.  `emission` says
which emission belongs to an element of the list. -/
theorem receiveStream_flight {α : Type} (emission : α → Emission) (hopen : P.OpenInvertsSeal)
    (clocks : List ReceiveClock) :
    ∀ {b : Session} {epoch : UInt32} {key : Key} {floor : Nat} {frames : List α} {stream : Reader},
      Listening b sessionID epoch key floor →
      Flight P sessionID End epoch key floor (frames.map emission) →
      (∀ f ∈ frames, (emission f).isRekey = true ∨ ∃ m, (emission f).Carries m) →
      stream.octets <+: frames.flatMap (fun f => (emission f).frame.octets) →
      ∃ arrived : List (α × Message), arrived.map Prod.fst <+: frames ∧
        b.receiveStream P stream clocks = arrived.map (fun a => ((emission a.1).frame, .ok a.2)) ∧
        ∀ a ∈ arrived, ∀ m,
          (emission a.1).isRekey = false → (emission a.1).Carries m → a.2 = m := by
  have hnothing : ∀ {b : Session} {stream : Reader} {clock : ReceiveClock}
      {clocks : List ReceiveClock} {frames : List α},
      (∃ err, readFrame stream = .error err) →
      ∃ arrived : List (α × Message), arrived.map Prod.fst <+: frames ∧
        b.receiveStream P stream (clock :: clocks) =
          arrived.map (fun a => ((emission a.1).frame, .ok a.2)) ∧
        ∀ a ∈ arrived, ∀ m, (emission a.1).isRekey = false → (emission a.1).Carries m →
          a.2 = m := by
    rintro b stream clock clocks frames ⟨err, herr⟩
    refine ⟨[], List.nil_prefix, ?_, by simp⟩
    simp [Session.receiveStream, herr]
  induction clocks with
  | nil =>
      intro b epoch key floor frames stream _ _ _ _
      exact ⟨[], List.nil_prefix, rfl, by simp⟩
  | cons clock clocks ih =>
      intro b epoch key floor frames stream hb hflight hcarries hfront
      cases frames with
      | nil => exact hnothing (readFrame_nil (by simpa using hfront))
      | cons f frames =>
          obtain ⟨hvalid, htag⟩ := hflight.head_valid
          rw [List.flatMap_cons] at hfront
          -- the stream holds the whole first frame, or only a part of it
          by_cases hwhole : (emission f).frame.octets.length ≤ stream.octets.length
          · obtain ⟨rest, hrest⟩ :=
              List.prefix_of_prefix_length_le (List.prefix_append _ _) hfront hwhole
            obtain ⟨octets, failure⟩ := stream
            simp only at hrest hfront
            subst hrest
            have hfront : (⟨rest, failure⟩ : Reader).octets <+:
                frames.flatMap (fun f => (emission f).frame.octets) :=
              (List.prefix_append_right_inj _).mp hfront
            have hread := readFrame_octets_append hvalid htag rest failure
            obtain ⟨⟨m, hm, hunique⟩, epoch', key', floor', hb', hflight'⟩ :=
              hflight.receive hopen hb (hcarries f List.mem_cons_self) clock
            obtain ⟨arrived, harrived, hstream, hmessages⟩ := ih hb' hflight'
              (fun g hg => hcarries g (List.mem_cons_of_mem _ hg)) hfront
            refine ⟨(f, m) :: arrived, ?_, ?_, ?_⟩
            · exact (List.prefix_cons_inj f).mpr harrived
            · simp only [Session.receiveStream, hread, hm, hstream, List.map_cons]
            · intro a ha
              rcases List.mem_cons.mp ha with rfl | hold
              · exact hunique
              · exact hmessages a hold
          · apply hnothing
            refine readFrame_cut hvalid ?_ (by omega)
            exact List.prefix_of_prefix_length_le hfront (List.prefix_append _ _) (by omega)

end ReceiveStream

end DgProto
