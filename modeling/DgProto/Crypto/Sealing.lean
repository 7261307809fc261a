import DgProto.Crypto.Codec

/-!
# Sealed frames

What `Codec.Encrypt` and `Codec.Decrypt` do for each other.  Encryption succeeds
exactly on the packets that fit a frame, and what it returns survives the wire and
decrypts to what went in.  In the other direction every octet of a frame reaches
`Open`: the nonce, the sealed text and the associated data determine the frame, so
under an ideal AEAD the frames that decrypt are exactly the ones that were encrypted.

The boundaries are what the second result rests on.  The header has a fixed size in
front of the padding and the tag a fixed size behind the payload, so neither
concatenation lets octets move from one part to the other.
-/

namespace DgProto
namespace Crypto

open Library Wire

/-! ## The round trip -/

/-- The condition of `validateEncryptedHeader`, in the numbers of the message types. -/
theorem validateEncryptedHeader_eq_ok_iff_range {messageType : MessageType}
    {sessionID : Octets 16} {sequence : UInt64} :
    validateEncryptedHeader messageType sessionID sequence = .ok () ↔
      0x03 ≤ messageType ∧ messageType ≤ 0x09 ∧ messageType ≠ 0x07 ∧ sequence ≠ 0 ∧
        sessionID ≠ Octets.zero 16 := by
  rw [validateEncryptedHeader_eq_ok_iff]
  simp only [MessageType.encryptedData, MessageType.error, MessageType.resumptionTicket,
    not_or, UInt8.not_lt, and_assoc, ne_eq]

namespace Packet

/-- The frame of a sendable packet crosses the wire unchanged. -/
theorem frame_marshalBinary (P : Primitives) {p : Packet} (key : Key) (h : p.Sendable) :
    (p.frame P key).marshalBinary = .ok (p.frame P key).octets ∧
      Frame.unmarshalBinary (p.frame P key).octets = .ok (p.frame P key) := by
  have hvalid := frame_validate P key h
  constructor
  · exact Frame.marshalBinary_of_validate hvalid
  · apply Frame.unmarshalBinary_octets (Frame.validateReceive_of_validate hvalid)
    intro htag
    rw [frame_header, header_hasAEADTag h] at htag
    cases htag

end Packet

/-- The random source has the octets that a padding needs. -/
def Reader.Yields (random : Reader) (length : Nat) : Prop :=
  length ≤ random.octets.length

theorem randomBytes_of_yields {random : Reader} {padLength : UInt8}
    (h : random.Yields padLength.toNat) :
    randomBytes random padLength.toNat = .ok (random.octets.take padLength.toNat) := by
  have hshort : ¬ 255 < padLength.toNat := by
    have := padLength.toNat_lt
    omega
  have hfull : padLength.toNat ≤ random.octets.length := h
  simp only [randomBytes, hshort, if_false, Reader.readFull, hfull, if_true]

/-- The codec round trip: with a random source that does not fail, encryption succeeds
exactly on the packets that the type, sequence, session and size limits admit, and its
frame comes back from the wire unchanged and decrypts to the plaintext. -/
theorem encrypt_round_trip {P : Primitives} (hopen : P.OpenInvertsSeal) (c : Codec)
    (random : Reader) (messageType : MessageType) (sessionID : Octets 16) (sequence : UInt64)
    (plaintext : List UInt8) (padLength : UInt8) (hrandom : random.Yields padLength.toNat) :
    ((∃ frame, (c.encrypt P random messageType sessionID sequence plaintext padLength).2 =
        .ok frame) ↔
      0x03 ≤ messageType ∧ messageType ≤ 0x09 ∧ messageType ≠ 0x07 ∧ sequence ≠ 0 ∧
        sessionID ≠ Octets.zero 16 ∧
        40 + plaintext.length + 16 + padLength.toNat ≤ 65535) ∧
    ∀ frame, (c.encrypt P random messageType sessionID sequence plaintext padLength).2 =
        .ok frame →
      ∃ data, frame.marshalBinary = .ok data ∧ Frame.unmarshalBinary data = .ok frame ∧
        c.decrypt P frame = .ok plaintext := by
  have hcases := Codec.encrypt_cases P random c messageType sessionID sequence plaintext
    padLength
  constructor
  · constructor
    · rintro ⟨frame, hframe⟩
      rcases hcases with ⟨err, herr, _⟩ | ⟨p, hp, rfl, rfl, rfl, rfl, hpadding, _⟩
      · rw [herr] at hframe
        cases hframe
      · obtain ⟨hlow, hhigh, hticket, hsequence, hsession⟩ :=
          validateEncryptedHeader_eq_ok_iff_range.mp hp.header
        have hsize := hp.size
        rw [(randomBytes_length hpadding).1] at hsize
        exact ⟨hlow, hhigh, hticket, hsequence, hsession, hsize⟩
    · rintro ⟨hlow, hhigh, hticket, hsequence, hsession, hsize⟩
      have hvalid := validateEncryptedHeader_eq_ok_iff_range.mpr
        ⟨hlow, hhigh, hticket, hsequence, hsession⟩
      rw [Codec.encrypt_eq P random c messageType sessionID sequence plaintext padLength hvalid
        hsize, randomBytes_of_yields hrandom]
      exact ⟨_, rfl⟩
  · intro frame hframe
    rcases hcases with ⟨err, herr, _⟩ | ⟨p, hp, _, _, _, rfl, _, hsealed⟩
    · rw [herr] at hframe
      cases hframe
    · rw [hsealed] at hframe
      obtain rfl := Except.ok.inj hframe
      obtain ⟨hmarshal, hunmarshal⟩ := Packet.frame_marshalBinary P c.key hp
      exact ⟨_, hmarshal, hunmarshal, Codec.decrypt_frame hopen hp⟩

/-- The round trip of a two-octet payload with three octets of padding. -/
theorem encrypt_round_trip_transparent :
    ∃ frame, (Codec.encrypt transparent ⟨[7, 8, 9, 10], none⟩ ⟨counterKey 5⟩ 0x03
        (Octets.copy 16 [1]) 1 [104, 105] 3).2 = .ok frame ∧
      Codec.decrypt transparent ⟨counterKey 5⟩ frame = .ok [104, 105] := by
  obtain ⟨hiff, htrip⟩ := encrypt_round_trip transparent_openInvertsSeal ⟨counterKey 5⟩
    ⟨[7, 8, 9, 10], none⟩ 0x03 (Octets.copy 16 [1]) 1 [104, 105] 3
    (by show (3 : UInt8).toNat ≤ 4; decide)
  obtain ⟨frame, hframe⟩ := hiff.mpr (by decide)
  obtain ⟨_, _, _, hdecrypt⟩ := htrip frame hframe
  exact ⟨frame, hframe, hdecrypt⟩

/-! ## What reaches `Open` -/

/-- What `Codec.Decrypt` hands to `Open`: the nonce, the sealed text and the associated
data. -/
structure OpenInput where
  nonce : List UInt8
  sealed : List UInt8
  aad : List UInt8
  deriving DecidableEq

/-- `Codec.Decrypt` in front of `Open`. -/
def openInput (frame : Frame) : Except Error OpenInput :=
  match frame.validateReceive with
  | .error err => .error err
  | .ok () =>
      match validateEncryptedHeader frame.header.messageType frame.header.sessionID
          frame.header.sequence with
      | .error err => .error err
      | .ok () =>
          match frame.header.marshalBinary false with
          | .error err => .error err
          | .ok headerBytes =>
              .ok ⟨nonce frame.header.sequence, frame.payload ++ frame.tag.val,
                headerBytes ++ frame.padding⟩

/-- `Open` on such a triple. -/
def OpenInput.opened (P : Primitives) (key : Key) (input : OpenInput) :
    Except Error (List UInt8) :=
  match P.openText key input.nonce input.sealed input.aad with
  | none => .error Sentinel.authentication.bare
  | some plaintext => .ok plaintext

/-- Decryption is its checks and then `Open`. -/
theorem Codec.decrypt_eq_openInput (P : Primitives) (c : Codec) (frame : Frame) :
    c.decrypt P frame =
      match openInput frame with
      | .error err => .error err
      | .ok input => input.opened P c.key := by
  unfold Codec.decrypt openInput
  cases hreceive : frame.validateReceive with
  | error err => rfl
  | ok _ =>
      cases hheader : validateEncryptedHeader frame.header.messageType frame.header.sessionID
          frame.header.sequence with
      | error err => rfl
      | ok _ =>
          cases hmarshal : frame.header.marshalBinary false with
          | error err | ok headerBytes => rfl

/-- The frame passes both checks in front of `Open`. -/
structure Receivable (frame : Frame) : Prop where
  receive : frame.validateReceive = .ok ()
  header : validateEncryptedHeader frame.header.messageType frame.header.sessionID
    frame.header.sequence = .ok ()

/-- The re-serialised header is the received one. -/
theorem Receivable.openInput_eq {frame : Frame} (h : Receivable frame) :
    openInput frame = .ok ⟨nonce frame.header.sequence, frame.payload ++ frame.tag.val,
      frame.header.octets ++ frame.padding⟩ := by
  obtain ⟨hcommon, _, _⟩ := (Frame.validateReceive_eq_ok_iff frame).mp h.receive
  have hmarshal := Header.marshalBinary_receive
    ((Header.validateReceive_eq_ok_iff frame.header).mpr hcommon)
  simp only [openInput, h.receive, h.header, hmarshal]

theorem Receivable.of_openInput {frame : Frame} {input : OpenInput}
    (h : openInput frame = .ok input) : Receivable frame := by
  unfold openInput at h
  cases hreceive : frame.validateReceive with
  | error err => simp [hreceive] at h
  | ok _ =>
      cases hheader : validateEncryptedHeader frame.header.messageType frame.header.sessionID
          frame.header.sequence with
      | error err => simp [hreceive, hheader] at h
      | ok _ => exact ⟨hreceive, hheader⟩

theorem Receivable.openInput_inj {f g : Frame} (hf : Receivable f) (hg : Receivable g)
    (h : openInput f = openInput g) : f = g := by
  rw [hf.openInput_eq, hg.openInput_eq] at h
  have hinput := Except.ok.inj h
  exact frame_eq_of_parts (congrArg OpenInput.sealed hinput) (congrArg OpenInput.aad hinput)

/-! ## Encryptions under an ideal AEAD -/

/-- One call to `Codec.Encrypt`. -/
structure EncryptCall where
  codec : Codec
  random : Reader
  messageType : MessageType
  sessionID : Octets 16
  sequence : UInt64
  plaintext : List UInt8
  padLength : UInt8

def EncryptCall.run (P : Primitives) (call : EncryptCall) : List SealCall × Except Error Frame :=
  call.codec.encrypt P call.random call.messageType call.sessionID call.sequence
    call.plaintext call.padLength

/-- The calls to `Seal` that a history of encryptions makes. -/
def encryptionLog (P : Primitives) (calls : List EncryptCall) : List SealCall :=
  calls.flatMap fun call => (call.run P).1

/-- An ideal AEAD after the calls `log`: it opens what was sealed, and nothing else. -/
structure IdealAfter (P : Primitives) (log : List SealCall) : Prop where
  opens : ∀ call ∈ log,
    P.openText call.key (nonce call.sequence) (call.output P) call.aad = some call.plaintext
  only : ∀ key nonce' sealed aad, (P.openText key nonce' sealed aad).isSome →
    ∃ call ∈ log, call.key = key ∧ nonce call.sequence = nonce' ∧ call.output P = sealed ∧
      call.aad = aad

/-- A call fails in front of `Seal`, or seals one packet and returns its frame. -/
theorem EncryptCall.run_cases (P : Primitives) (call : EncryptCall) :
    (∃ err, call.run P = ([], .error err)) ∨
      ∃ p : Packet, p.Sendable ∧ p.plaintext = call.plaintext ∧
        call.run P = ([p.sealCall call.codec.key], .ok (p.frame P call.codec.key)) := by
  rcases Codec.encrypt_cases P call.random call.codec call.messageType call.sessionID
    call.sequence call.plaintext call.padLength with ⟨err, herr, _⟩ |
      ⟨p, hp, _, _, _, hplaintext, _, hsealed⟩
  · exact .inl ⟨err, herr⟩
  · exact .inr ⟨p, hp, hplaintext, hsealed⟩

/-- The frame of a sendable packet passes both checks. -/
theorem Packet.frame_receivable {P : Primitives} {p : Packet} {key : Key} (h : p.Sendable) :
    Receivable (p.frame P key) :=
  ⟨Frame.validateReceive_of_validate (frame_validate P key h), h.header⟩

/-- Under an ideal AEAD a frame decrypts to a plaintext exactly when an encryption of
that plaintext under the key returned this frame. -/
theorem IdealAfter.decrypt_eq_ok_iff {P : Primitives} {calls : List EncryptCall}
    (hideal : IdealAfter P (encryptionLog P calls)) (c : Codec) (frame : Frame)
    (plaintext : List UInt8) :
    c.decrypt P frame = .ok plaintext ↔
      ∃ call ∈ calls, call.codec = c ∧ call.plaintext = plaintext ∧
        (call.run P).2 = .ok frame := by
  constructor
  · intro hdecrypt
    obtain ⟨_, hopen⟩ := Codec.decrypt_eq_ok hdecrypt
    obtain ⟨sealed, hsealed, hkey, hnonce, houtput, haad⟩ :=
      hideal.only _ _ _ _ (Option.isSome_of_mem hopen)
    obtain ⟨call, hcall, hmem⟩ := List.mem_flatMap.mp hsealed
    rcases call.run_cases P with ⟨err, hrun⟩ | ⟨p, hp, hplaintext, hrun⟩
    · rw [hrun] at hmem
      cases hmem
    rw [hrun] at hmem
    obtain rfl := List.mem_singleton.mp hmem
    have hcodec : call.codec = c := congrArg Codec.mk hkey
    -- the log recorded what this sealed text opens to
    have hopened := hideal.opens _ hsealed
    rw [hkey, hnonce, houtput, haad, hopen] at hopened
    refine ⟨call, hcall, hcodec, ?_, ?_⟩
    · exact hplaintext.symm.trans (Option.some.inj hopened).symm
    · rw [hrun, Packet.eq_frame_of_sealed haad houtput]
  · rintro ⟨call, hcall, rfl, rfl, hframe⟩
    rcases call.run_cases P with ⟨err, hrun⟩ | ⟨p, hp, hplaintext, hrun⟩
    · rw [hrun] at hframe
      cases hframe
    have hmem : p.sealCall call.codec.key ∈ (call.run P).1 := by simp [hrun]
    have hopened := hideal.opens _ (List.mem_flatMap.mpr ⟨call, hcall, hmem⟩)
    rw [hrun] at hframe
    obtain rfl := Except.ok.inj hframe
    rw [Codec.decrypt_eq_openInput, (Packet.frame_receivable hp).openInput_eq,
      Packet.frame_payload_append_tag]
    have hopen : P.openText call.codec.key (nonce p.header.sequence)
        ((p.sealCall call.codec.key).output P) (p.header.octets ++ p.padding) =
          some p.plaintext := hopened
    simp only [OpenInput.opened, Packet.frame_header, Packet.frame_padding, hopen, hplaintext]

/-- Every octet of a frame is authenticated.  What decryption passes to `Open`
determines the frame; so under an ideal AEAD the frames that decrypt under a key are
the ones that an encryption under the key returned, and every other frame is refused. -/
theorem frame_authenticated (P : Primitives) :
    (∀ frame, Receivable frame → ∃ input, openInput frame = .ok input ∧
      ∀ c : Codec, c.decrypt P frame = input.opened P c.key) ∧
    (∀ f g, Receivable f → Receivable g → openInput f = openInput g → f = g) ∧
    ∀ calls : List EncryptCall, IdealAfter P (encryptionLog P calls) →
      ∀ (c : Codec) (frame : Frame),
        (∀ plaintext, c.decrypt P frame = .ok plaintext ↔
          ∃ call ∈ calls, call.codec = c ∧ call.plaintext = plaintext ∧
            (call.run P).2 = .ok frame) ∧
        ((¬ ∃ call ∈ calls, call.codec = c ∧ (call.run P).2 = .ok frame) →
          ∃ err, c.decrypt P frame = .error err) := by
  refine ⟨?_, fun f g hf hg h => hf.openInput_inj hg h, ?_⟩
  · intro frame hframe
    refine ⟨_, hframe.openInput_eq, fun c => ?_⟩
    rw [Codec.decrypt_eq_openInput, hframe.openInput_eq]
  · intro calls hideal c frame
    refine ⟨hideal.decrypt_eq_ok_iff c frame, fun hnone => ?_⟩
    cases hdecrypt : c.decrypt P frame with
    | error err => exact ⟨err, rfl⟩
    | ok plaintext =>
        obtain ⟨call, hcall, hcodec, _, hframe⟩ :=
          (hideal.decrypt_eq_ok_iff c frame plaintext).mp hdecrypt
        exact absurd ⟨call, hcall, hcodec, hframe⟩ hnone

/-- The transparent instance with an `Open` that looks the sealed text up in a log. -/
def remembering (log : List SealCall) : Primitives :=
  { transparent with
    openText := fun key nonce' sealed aad =>
      (log.find? fun call => call.key = key ∧ nonce call.sequence = nonce' ∧
        call.output transparent = sealed ∧ call.aad = aad).map SealCall.plaintext }

theorem remembering_idealAfter (log : List SealCall) : IdealAfter (remembering log) log where
  opens := by
    intro call hcall
    show (log.find? fun other => other.key = call.key ∧
      nonce other.sequence = nonce call.sequence ∧
      other.output transparent = call.output transparent ∧ other.aad = call.aad).map
        SealCall.plaintext = some call.plaintext
    cases hfound : log.find? fun other => other.key = call.key ∧
        nonce other.sequence = nonce call.sequence ∧
        other.output transparent = call.output transparent ∧ other.aad = call.aad with
    | none =>
        have := List.find?_eq_none.mp hfound call hcall
        simp at this
    | some other =>
        have hother := List.find?_some hfound
        simp only [decide_eq_true_eq] at hother
        obtain ⟨hkey, _, houtput, _⟩ := hother
        -- the transparent sealed text ends in octets of the key
        have hplaintext : other.plaintext = call.plaintext := by
          have htext : other.plaintext ++ other.key.val.take 16 =
              call.plaintext ++ call.key.val.take 16 := houtput
          rw [hkey] at htext
          exact List.append_cancel_right htext
        exact congrArg some hplaintext
  only := by
    intro key nonce' sealed aad hopen
    have hopen' : ((log.find? fun call => call.key = key ∧ nonce call.sequence = nonce' ∧
        call.output transparent = sealed ∧ call.aad = aad).map SealCall.plaintext).isSome :=
      hopen
    rw [Option.isSome_map] at hopen'
    obtain ⟨call, hcall⟩ := Option.isSome_iff_exists.mp hopen'
    have hmatch := List.find?_some hcall
    simp only [decide_eq_true_eq] at hmatch
    exact ⟨call, List.mem_of_find?_eq_some hcall, hmatch⟩

/-- An encryption of two octets with three octets of padding. -/
def sampleEncryption : EncryptCall where
  codec := ⟨counterKey 5⟩
  random := ⟨[7, 8, 9, 10], none⟩
  messageType := 0x03
  sessionID := Octets.copy 16 [1]
  sequence := 1
  plaintext := [104, 105]
  padLength := 3

/-- After the sample encryption its frame decrypts; with one octet of the padding
changed it does not. -/
theorem frame_authenticated_remembering :
    ∃ frame, (sampleEncryption.run (remembering (encryptionLog transparent [sampleEncryption]))).2 =
        .ok frame ∧
      Codec.decrypt (remembering (encryptionLog transparent [sampleEncryption])) ⟨counterKey 5⟩
        frame = .ok [104, 105] ∧
      ∃ err, Codec.decrypt (remembering (encryptionLog transparent [sampleEncryption]))
        ⟨counterKey 5⟩ { frame with padding := [7, 8, 10] } = .error err := by
  obtain ⟨_, _, hhistory⟩ :=
    frame_authenticated (remembering (encryptionLog transparent [sampleEncryption]))
  have hsample := hhistory [sampleEncryption] (remembering_idealAfter _) ⟨counterKey 5⟩
  refine ⟨_, rfl, ?_, ?_⟩
  · exact ((hsample _).1 _).mpr ⟨_, List.mem_singleton_self _, rfl, rfl, rfl⟩
  · apply (hsample _).2
    rintro ⟨call, hcall, _, hframe⟩
    obtain rfl := List.mem_singleton.mp hcall
    have hpadding := congrArg Frame.padding (Except.ok.inj hframe)
    exact absurd hpadding (by decide)

end Crypto
end DgProto
