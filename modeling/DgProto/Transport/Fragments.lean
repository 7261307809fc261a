import DgProto.Transport.Stream

/-!
# Reading a fragmented stream

A connection hands out its octets in fragments of any size, and `io.ReadFull` collects
them.  How the stream is cut makes no difference to `ReadFrame`: `readFrame_cases`
reduces it to the octets of the stream.

`readFrame_eq_ok` and `readFrame_of_front` say which streams yield a frame, and
`readFrame_error` that its two size checks never fail.  A stream that is a part of the
octets of some frames is read up to the first frame that is not complete
(`readFrames_front`).
-/

namespace DgProto

open Library Wire Crypto

/-! ## Fragments -/

/-- What a connection still has to give: one `Read` returns at most the next fragment.
After them reading fails as a `Reader` does. -/
structure Fragments where
  chunks : List (List UInt8)
  failure : Option String

namespace Fragments

/-- The octets of the stream. -/
def octets (c : Fragments) : List UInt8 := c.chunks.flatten

/-- The stream without its cuts. -/
def reader (c : Fragments) : Reader := ⟨c.octets, c.failure⟩

/-- The loop of `io.ReadFull`: what `Read` put in a buffer with this much room, and the
fragments that are left. -/
def fill : List (List UInt8) → Nat → List UInt8 × List (List UInt8)
  | [], _ => ([], [])
  | chunk :: chunks, room =>
      if room = 0 then ([], chunk :: chunks)
      else if chunk.length ≤ room then
        let more := fill chunks (room - chunk.length)
        (chunk ++ more.1, more.2)
      else (chunk.take room, chunk.drop room :: chunks)

/-- `io.ReadFull`. -/
def readFull (c : Fragments) (length : Nat) : Except Error (List UInt8 × Fragments) :=
  let filled := fill c.chunks length
  if filled.1.length = length then
    .ok (filled.1, { c with chunks := filled.2 })
  else
    match c.failure with
    | some text => .error (Error.foreign text)
    | none =>
        if filled.1 = [] then .error Sentinel.ioEOF.bare
        else .error Sentinel.ioUnexpectedEOF.bare

/-- `TCPTransport.ReadFrame` on the fragments. -/
def readFrame (c : Fragments) : Except Error (Frame × Fragments) := readFrameWith readFull c

/-- Calls of `ReadFrame`, up to the first that fails: the frame and the number of octets
that the call took from the stream. -/
def readFrames : Nat → Fragments → List (Except Error (Frame × Nat))
  | 0, _ => []
  | n + 1, c =>
      match c.readFrame with
      | .error err => [.error err]
      | .ok (frame, rest) =>
          .ok (frame, c.octets.length - rest.octets.length) :: readFrames n rest

/-- The buffer gets the first octets of the stream, however it is cut. -/
theorem fill_spec (chunks : List (List UInt8)) (room : Nat) :
    (fill chunks room).1 = chunks.flatten.take room ∧
      (fill chunks room).2.flatten = chunks.flatten.drop room := by
  induction chunks generalizing room with
  | nil => simp [fill]
  | cons chunk chunks ih =>
      rw [List.flatten_cons]
      unfold fill
      split_ifs with hroom hfits
      · subst hroom
        exact ⟨rfl, rfl⟩
      · obtain ⟨htake, hdrop⟩ := ih (room - chunk.length)
        constructor
        · rw [List.take_append, List.take_of_length_le hfits, ← htake]
        · rw [List.drop_append, List.drop_of_length_le hfits, List.nil_append, ← hdrop]
      · constructor
        · rw [List.take_append_of_le_length (by omega)]
        · rw [List.flatten_cons, List.drop_append_of_le_length (by omega)]

/-- `io.ReadFull` sees only the octets of the stream. -/
theorem readFull_cases (c : Fragments) (length : Nat) :
    (∃ err, c.readFull length = .error err ∧ c.reader.readFull length = .error err) ∨
      ∃ data rest, c.readFull length = .ok (data, rest) ∧
        c.reader.readFull length = .ok data ∧ rest.reader = c.reader.skip length := by
  obtain ⟨htake, hdrop⟩ := fill_spec c.chunks length
  have hoctets : c.reader.octets = c.chunks.flatten := rfl
  have hfailure : c.reader.failure = c.failure := rfl
  simp only [readFull, Reader.readFull, htake, hoctets, hfailure, List.length_take]
  by_cases hlong : length ≤ c.chunks.flatten.length
  · right
    rw [if_pos (by omega), if_pos hlong]
    refine ⟨_, _, rfl, rfl, ?_⟩
    simp only [reader, octets, hdrop, Reader.skip]
  · left
    rw [if_neg (by omega), if_neg hlong]
    -- nothing was read exactly if the stream was at its end
    have hempty : c.chunks.flatten.take length = [] ↔ c.chunks.flatten = [] := by
      rw [List.take_of_length_le (by omega)]
    cases c.failure with
    | some text => exact ⟨_, rfl, rfl⟩
    | none =>
        simp only [hempty]
        split_ifs
        · exact ⟨_, rfl, rfl⟩
        · exact ⟨_, rfl, rfl⟩

/-- `ReadFrame` sees only the octets of the stream. -/
theorem readFrame_cases (c : Fragments) :
    (∃ err, c.readFrame = .error err ∧ DgProto.readFrame c.reader = .error err) ∨
      ∃ frame rest, c.readFrame = .ok (frame, rest) ∧
        DgProto.readFrame c.reader = .ok (frame, rest.reader) := by
  have hadvance : ∀ c : Fragments, ∀ length,
      (∃ err, c.readFull length = .error err ∧ c.reader.advance length = .error err) ∨
        ∃ data rest, c.readFull length = .ok (data, rest) ∧
          c.reader.advance length = .ok (data, rest.reader) := by
    intro c length
    unfold Reader.advance
    rcases readFull_cases c length with ⟨err, hcut, hwhole⟩ | ⟨data, rest, hcut, hwhole, hskip⟩
    · exact .inl ⟨err, hcut, by rw [hwhole]⟩
    · exact .inr ⟨data, rest, hcut, by rw [hwhole, hskip]⟩
  unfold readFrame DgProto.readFrame readFrameWith readBodyWith
  rcases hadvance c headerSize with ⟨err, hcut, hwhole⟩ | ⟨headerWire, behind, hcut, hwhole⟩
  · rw [hcut, hwhole]
    exact .inl ⟨err, rfl, rfl⟩
  · rw [hcut, hwhole]
    dsimp only
    cases announcedSize headerWire with
    | error err => exact .inl ⟨err, rfl, rfl⟩
    | ok size =>
        dsimp only
        rcases hadvance behind (size - headerSize) with
          ⟨err, hcut, hwhole⟩ | ⟨body, rest, hcut, hwhole⟩
        · rw [hcut, hwhole]
          exact .inl ⟨err, rfl, rfl⟩
        · rw [hcut, hwhole]
          dsimp only
          cases Frame.unmarshalBinary (headerWire ++ body) with
          | error err => exact .inl ⟨err, rfl, rfl⟩
          | ok frame => exact .inr ⟨frame, rest, rfl, rfl⟩

end Fragments

/-! ## Which streams yield a frame -/

section Accepted

variable {stream rest : Reader} {f : Frame} {err : Error}

theorem advance_eq_ok {length : Nat} {data : List UInt8}
    (h : stream.advance length = .ok (data, rest)) :
    stream.octets = data ++ rest.octets ∧ rest.failure = stream.failure ∧
      data.length = length := by
  by_cases hlong : length ≤ stream.octets.length
  · rw [advance_of_le hlong] at h
    obtain ⟨rfl, rfl⟩ := Prod.mk.inj (Except.ok.inj h)
    exact ⟨(List.take_append_drop length stream.octets).symm, rfl, List.length_take_of_le hlong⟩
  · obtain ⟨err, herr⟩ := advance_of_lt (Nat.not_le.mp hlong)
    rw [herr] at h
    cases h

/-- What was read is a frame that the decoder accepts, and nothing more was consumed. -/
theorem readFrame_eq_ok (h : readFrame stream = .ok (f, rest)) :
    ∃ wire, stream.octets = wire ++ rest.octets ∧ rest.failure = stream.failure ∧
      Frame.unmarshalBinary wire = .ok f := by
  unfold readFrame readFrameWith readBodyWith at h
  split at h
  · cases h
  · rename_i headerWire behind hheader
    split at h
    · cases h
    · split at h
      · cases h
      · rename_i body rest' hbody
        split at h
        · cases h
        · rename_i frame hframe
          obtain ⟨rfl, rfl⟩ := Prod.mk.inj (Except.ok.inj h)
          obtain ⟨hfront, hfailure, -⟩ := advance_eq_ok hheader
          obtain ⟨hmiddle, hsame, -⟩ := advance_eq_ok hbody
          refine ⟨headerWire ++ body, ?_, hsame.trans hfailure, hframe⟩
          rw [hfront, hmiddle, List.append_assoc]

/-- A stream that begins with an accepted frame yields it. -/
theorem readFrame_of_front {wire tail : List UInt8} (hwire : Frame.unmarshalBinary wire = .ok f)
    (failure : Option String) :
    readFrame ⟨wire ++ tail, failure⟩ = .ok (f, ⟨tail, failure⟩) := by
  obtain ⟨rfl, hvalid, htag⟩ := Frame.unmarshalBinary_eq_ok hwire
  exact readFrame_octets_append hvalid htag tail failure

/-- The frame decoder's errors. -/
def decodeErrors : List Sentinel :=
  [.frameTooShort, .frameLengthMismatch, .headerTooShort, .invalidMagic, .unsupportedVersion,
    .paddingFlag, .frameTooLarge]

theorem Wire.Header.validateCommon_error {header : Header}
    (h : header.validateCommon = .error err) : err.kinds ⊆ decodeErrors := by
  simp only [Header.validateCommon] at h
  split_ifs at h with hversion hpadding hsize
  · obtain rfl := Except.error.inj h
    show [Sentinel.unsupportedVersion] ⊆ decodeErrors
    decide
  · obtain rfl := Except.error.inj h
    show [Sentinel.paddingFlag] ⊆ decodeErrors
    decide
  · obtain rfl := Except.error.inj h
    show [Sentinel.frameTooLarge] ⊆ decodeErrors
    decide

theorem Wire.Header.unmarshalBinary_error {data : List UInt8}
    (h : Header.unmarshalBinary data = .error err) : err.kinds ⊆ decodeErrors := by
  simp only [Header.unmarshalBinary, Header.validateReceive] at h
  split at h
  · obtain rfl := Except.error.inj h
    show [Sentinel.headerTooShort] ⊆ decodeErrors
    decide
  · split at h
    · obtain rfl := Except.error.inj h
      show [Sentinel.invalidMagic] ⊆ decodeErrors
      decide
    · split at h
      · obtain rfl := Except.error.inj h
        show [Sentinel.unsupportedVersion] ⊆ decodeErrors
        decide
      · split at h
        · rename_i err' hcommon
          obtain rfl := Except.error.inj h
          exact Header.validateCommon_error hcommon
        · cases h

theorem Wire.Frame.unmarshalBinary_error {data : List UInt8}
    (h : Frame.unmarshalBinary data = .error err) : err.kinds ⊆ decodeErrors := by
  simp only [Frame.unmarshalBinary] at h
  split at h
  · obtain rfl := Except.error.inj h
    show [Sentinel.frameTooShort] ⊆ decodeErrors
    decide
  · split at h
    · rename_i err' hheader
      obtain rfl := Except.error.inj h
      exact Header.unmarshalBinary_error hheader
    · split at h
      · obtain rfl := Except.error.inj h
        show [Sentinel.frameLengthMismatch] ⊆ decodeErrors
        decide
      · cases h

theorem advance_error {length : Nat} (h : stream.advance length = .error err) :
    err.kinds ⊆ [Sentinel.ioEOF, Sentinel.ioUnexpectedEOF] := by
  by_cases hlong : length ≤ stream.octets.length
  · rw [advance_of_le hlong] at h
    cases h
  · unfold Reader.advance Reader.readFull at h
    rw [if_neg hlong] at h
    cases hfailure : stream.failure with
    | some text =>
        obtain rfl : Error.foreign text = err := by simpa [hfailure] using h
        exact List.nil_subset _
    | none =>
        simp only [hfailure] at h
        by_cases hempty : stream.octets = []
        · obtain rfl : Sentinel.ioEOF.bare = err := by simpa [hempty] using h
          show [Sentinel.ioEOF] ⊆ _
          decide
        · obtain rfl : Sentinel.ioUnexpectedEOF.bare = err := by simpa [hempty] using h
          show [Sentinel.ioUnexpectedEOF] ⊆ _
          decide

/-- A header that was accepted passes both size checks. -/
theorem announcedSize_error {headerWire : List UInt8} (hlength : headerWire.length = headerSize)
    (h : announcedSize headerWire = .error err) : err.kinds ⊆ decodeErrors := by
  unfold announcedSize at h
  split at h
  · rename_i err' hheader
    obtain rfl := Except.error.inj h
    exact Header.unmarshalBinary_error hheader
  · rename_i header hheader
    have hlow : ¬ header.frameSize < headerSize := by unfold Header.frameSize; omega
    have hhigh : ¬ maxFrameSize < header.frameSize := by
      obtain ⟨-, hvalid⟩ := Header.unmarshalBinary_eq_ok hlength hheader
      exact Nat.not_lt.mpr ((Header.validateReceive_eq_ok_iff header).mp hvalid).size
    dsimp only at h
    rw [if_neg hlow, if_neg hhigh] at h
    cases h

/-- `ReadFrame` fails as the stream or the decoder does. -/
theorem readFrame_error (h : readFrame stream = .error err) :
    err.kinds ⊆ decodeErrors ++ [Sentinel.ioEOF, Sentinel.ioUnexpectedEOF] := by
  unfold readFrame readFrameWith readBodyWith at h
  split at h
  · rename_i err' hread
    obtain rfl := Except.error.inj h
    exact List.subset_append_of_subset_right _ (advance_error hread)
  · rename_i headerWire behind hread
    split at h
    · rename_i err' hsize
      obtain rfl := Except.error.inj h
      exact List.subset_append_of_subset_left _
        (announcedSize_error (advance_eq_ok hread).2.2 hsize)
    · split at h
      · rename_i err' hbody
        obtain rfl := Except.error.inj h
        exact List.subset_append_of_subset_right _ (advance_error hbody)
      · split at h
        · rename_i err' hframe
          obtain rfl := Except.error.inj h
          exact List.subset_append_of_subset_left _ (Frame.unmarshalBinary_error hframe)
        · cases h

end Accepted

/-! ## A part of a stream of frames -/

namespace Fragments

variable {c : Fragments} {frames : List Frame}

/-- From a part of the octets of some frames `ReadFrame` returns the complete ones, each
with its own octets, and then fails. -/
theorem readFrames_front (hframes : ∀ f ∈ frames, f.validateReceive = .ok () ∧ f.TagCanonical)
    (hpart : c.octets <+: frames.flatMap Frame.octets) :
    ∃ whole part, frames = whole ++ part ∧ whole.flatMap Frame.octets <+: c.octets ∧
      (∀ f ∈ part.head?, ¬ (whole ++ [f]).flatMap Frame.octets <+: c.octets) ∧
      ∃ err, c.readFrames (whole.length + 1) =
        whole.map (fun f => .ok (f, f.header.frameSize)) ++ [.error err] := by
  have hstop : ∀ {c : Fragments}, (∃ err, DgProto.readFrame c.reader = .error err) →
      ∃ err, c.readFrames 1 = [.error err] := by
    rintro c ⟨err, herr⟩
    rcases readFrame_cases c with ⟨err', hcut, -⟩ | ⟨frame, rest, -, hwhole⟩
    · exact ⟨err', by simp only [readFrames, hcut]⟩
    · rw [herr] at hwhole
      cases hwhole
  induction frames generalizing c with
  | nil =>
      have hempty : c.reader.octets = [] := List.prefix_nil.mp hpart
      exact ⟨[], [], rfl, List.nil_prefix, by simp, by simpa using hstop (readFrame_nil hempty)⟩
  | cons f frames ih =>
      obtain ⟨hvalid, htag⟩ := hframes f List.mem_cons_self
      rw [List.flatMap_cons] at hpart
      by_cases hwhole : f.octets <+: c.octets
      · obtain ⟨tail, htail⟩ := hwhole
        have hread : DgProto.readFrame c.reader = .ok (f, ⟨tail, c.failure⟩) := by
          rw [reader, ← htail]
          exact readFrame_octets_append hvalid htag tail c.failure
        rcases readFrame_cases c with ⟨err, -, hfails⟩ | ⟨frame, rest, hcut, hyields⟩
        · rw [hread] at hfails
          cases hfails
        · rw [hread] at hyields
          obtain ⟨rfl, hrest⟩ := Prod.mk.inj (Except.ok.inj hyields)
          have hoctets : rest.octets = tail := (congrArg Reader.octets hrest).symm
          have hsize : c.octets.length - rest.octets.length = f.header.frameSize := by
            rw [← htail, hoctets, List.length_append, octets_length_of_validateReceive hvalid,
              Nat.add_sub_cancel]
          rw [← htail, List.prefix_append_right_inj, ← hoctets] at hpart
          obtain ⟨whole, part, rfl, hfront, hnext, err, herr⟩ :=
            ih (fun g hg => hframes g (List.mem_cons_of_mem _ hg)) hpart
          refine ⟨f :: whole, part, rfl, ?_, ?_, err, ?_⟩
          · rw [← htail, List.flatMap_cons, List.prefix_append_right_inj, ← hoctets]
            exact hfront
          · intro g hg
            rw [← htail, List.cons_append, List.flatMap_cons, List.prefix_append_right_inj,
              ← hoctets]
            exact hnext g hg
          · simp only [List.length_cons, readFrames, hcut, hsize, herr, List.map_cons,
              List.cons_append]
      · refine ⟨[], f :: frames, rfl, List.nil_prefix, ?_, ?_⟩
        · rintro g hg
          obtain rfl : f = g := by simpa using hg
          simpa using hwhole
        · have hcut : c.reader.octets <+: f.octets :=
            (List.prefix_or_prefix_of_prefix hpart (List.prefix_append _ _)).resolve_right hwhole
          have hshort : c.reader.octets.length < f.octets.length := by
            by_contra hlong
            apply hwhole
            rw [← hcut.eq_of_length_le (by omega)]
            exact List.prefix_rfl
          exact hstop (readFrame_cut hvalid hcut hshort)

/-- From all octets of some frames `ReadFrame` returns all of them. -/
theorem readFrames_all (hframes : ∀ f ∈ frames, f.validateReceive = .ok () ∧ f.TagCanonical)
    (hall : c.octets = frames.flatMap Frame.octets) :
    ∃ err, c.readFrames (frames.length + 1) =
      frames.map (fun f => .ok (f, f.header.frameSize)) ++ [.error err] := by
  obtain ⟨whole, part, rfl, -, hnext, hread⟩ :=
    readFrames_front hframes (by rw [hall])
  cases part with
  | nil => simpa using hread
  | cons f part =>
      -- the next frame would be complete
      refine absurd ?_ (hnext f rfl)
      refine ⟨part.flatMap Frame.octets, ?_⟩
      rw [hall, ← List.flatMap_append, List.append_assoc, List.singleton_append]

/-! ## Frames at the front of any stream -/

theorem readFrame_eq_ok {frame : Frame} {rest : Fragments}
    (h : c.readFrame = .ok (frame, rest)) :
    ∃ wire, c.octets = wire ++ rest.octets ∧ Frame.unmarshalBinary wire = .ok frame := by
  rcases readFrame_cases c with ⟨err, hcut, -⟩ | ⟨frame', rest', hcut, hwhole⟩
  · rw [h] at hcut
    cases hcut
  · rw [h] at hcut
    obtain ⟨rfl, rfl⟩ := Prod.mk.inj (Except.ok.inj hcut)
    obtain ⟨wire, hoctets, -, hframe⟩ := DgProto.readFrame_eq_ok hwhole
    exact ⟨wire, hoctets, hframe⟩

theorem readFrame_of_front {wire : List UInt8} {frame : Frame} (hfront : wire <+: c.octets)
    (hwire : Frame.unmarshalBinary wire = .ok frame) :
    ∃ rest, c.readFrame = .ok (frame, rest) ∧ c.octets = wire ++ rest.octets := by
  obtain ⟨tail, htail⟩ := hfront
  have hread : DgProto.readFrame c.reader = .ok (frame, ⟨tail, c.failure⟩) := by
    rw [reader, ← htail]
    exact DgProto.readFrame_of_front hwire c.failure
  rcases readFrame_cases c with ⟨err, -, hwhole⟩ | ⟨frame', rest, hcut, hwhole⟩
  · rw [hread] at hwhole
    cases hwhole
  · rw [hread] at hwhole
    obtain ⟨rfl, hrest⟩ := Prod.mk.inj (Except.ok.inj hwhole)
    refine ⟨rest, hcut, ?_⟩
    rw [← htail, show rest.octets = tail from (congrArg Reader.octets hrest).symm]

/-- `ReadFrame` succeeds exactly if the decoder accepts a prefix of the stream. -/
theorem readFrame_isOk_iff (c : Fragments) :
    (∃ frame rest, c.readFrame = .ok (frame, rest)) ↔
      ∃ wire frame, wire <+: c.octets ∧ Frame.unmarshalBinary wire = .ok frame := by
  constructor
  · rintro ⟨frame, rest, h⟩
    obtain ⟨wire, hoctets, hframe⟩ := readFrame_eq_ok h
    exact ⟨wire, frame, hoctets ▸ List.prefix_append _ _, hframe⟩
  · rintro ⟨wire, frame, hfront, hwire⟩
    obtain ⟨rest, hread, -⟩ := readFrame_of_front hfront hwire
    exact ⟨frame, rest, hread⟩

/-- A stream has at most one prefix that the decoder accepts. -/
theorem accepted_prefix_unique (c : Fragments) {wire wire' : List UInt8} {frame frame' : Frame}
    (hfront : wire <+: c.octets) (hfront' : wire' <+: c.octets)
    (hwire : Frame.unmarshalBinary wire = .ok frame)
    (hwire' : Frame.unmarshalBinary wire' = .ok frame') : wire = wire' := by
  obtain ⟨rest, hread, hoctets⟩ := readFrame_of_front hfront hwire
  obtain ⟨rest', hread', hoctets'⟩ := readFrame_of_front hfront' hwire'
  rw [hread] at hread'
  obtain ⟨-, rfl⟩ := Prod.mk.inj (Except.ok.inj hread')
  exact List.append_cancel_right (hoctets.symm.trans hoctets')

theorem readFrame_error {err : Error} (h : c.readFrame = .error err) :
    err.kinds ⊆ decodeErrors ++ [Sentinel.ioEOF, Sentinel.ioUnexpectedEOF] := by
  rcases readFrame_cases c with ⟨err', hcut, hwhole⟩ | ⟨frame, rest, hcut, -⟩
  · rw [h] at hcut
    obtain rfl := Except.error.inj hcut
    exact DgProto.readFrame_error hwhole
  · rw [h] at hcut
    cases hcut

end Fragments

/-- An error of one of these kinds is no failed size check of the transport. -/
theorem not_size_error {err : Error} {kinds : List Sentinel} (h : err.kinds ⊆ kinds)
    (hshort : Sentinel.transportFrameTooShort ∉ kinds)
    (hlarge : Sentinel.transportFrameTooLarge ∉ kinds) :
    ¬ err.is .transportFrameTooShort ∧ ¬ err.is .transportFrameTooLarge :=
  ⟨fun his => hshort (h his), fun his => hlarge (h his)⟩

end DgProto
