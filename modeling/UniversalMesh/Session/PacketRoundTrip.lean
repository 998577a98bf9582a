import UniversalMesh.Session.Packet

/-! Protected packets are read back as they were built: the mask leaves what locates the fields, and
behind the mask the receiver restores the header the sender sealed the payload under. -/
namespace UniversalMesh.Session
open MachineWord Wire Crypto

private theorem and_bit : ∀ byte : Fin 256, UInt8.ofNat byte.val &&& 0x10 = 0 ∨
    UInt8.ofNat byte.val &&& 0x10 = 0x10 := by decide +kernel

theorem maskFirst_protectedShort :
    ∃ phase, maskFirst (HeaderByte.protectedShort space keyPhase).encode m =
      (HeaderByte.protectedShort space phase).encode := by
  have bit := and_bit ⟨(m.1.getD 4 0).toNat, UInt8.toNat_lt _⟩
  rw [UInt8.ofNat_toNat] at bit
  unfold maskFirst
  rcases bit with clear | set
  · exact ⟨keyPhase, by rw [clear, UInt8.xor_zero]⟩
  · exact ⟨!keyPhase, by rw [set, HeaderByte.xor_encode_protectedShort]⟩

theorem slice?_behind (before after : Bytes) (pos len : Nat) :
    slice? (before ++ after) (before.length + pos) len = slice? after pos len := by
  unfold slice?
  rw [List.length_append, List.drop_append, Nat.add_sub_cancel_left, List.drop_of_length_le (by omega),
    List.nil_append]
  simp only [Nat.add_assoc, Nat.add_le_add_iff_left]

theorem slice?_append (before piece after : Bytes) :
    slice? (before ++ (piece ++ after)) before.length piece.length = some piece := by
  have found := slice?_behind before (piece ++ after) 0 piece.length
  rw [Nat.add_zero] at found
  rw [found, slice?, if_pos (by simp), List.drop_zero, List.take_left]

section
variable {crypto : Primitives} {keys : PacketKeys} {hpKey : Octets 32} {space : ShortPacketSpace}
  {dcid payload bytes : Bytes} {pathId pn : Nat} {keyPhase : Bool}

/-- What the sender sealed, under which header, and how it was masked. -/
theorem buildProtectedPacket_ok
    (built : buildProtectedPacket crypto keys hpKey space dcid pathId pn keyPhase payload = .ok bytes) :
    ∃ ciphertext sample first pnBytes,
      pathId ≤ Varint.maxVarint ∧ slice? ciphertext 0 sampleLen = some sample ∧
      keys.sealPacket crypto pn ((HeaderByte.protectedShort space keyPhase).encode :: dcid ++
        Varint.encoding pathId ++ toBeBytes 2 pn) payload = .ok ciphertext ∧
      protect crypto hpKey (HeaderByte.protectedShort space keyPhase).encode sample (toBeBytes 2 pn) =
        (first, pnBytes) ∧
      bytes = first :: (dcid ++ (Varint.encoding pathId ++ (pnBytes ++ ciphertext))) := by
  unfold buildProtectedPacket at built
  split at built
  · cases built
  dsimp only at built
  split at built
  · cases built
  rename_i header encoded
  obtain ⟨bound, rfl⟩ := Varint.encodeInto_ok.mp encoded
  split at built
  · cases built
  rename_i ciphertext sealed
  split at built
  · cases built
  rename_i sample sampled
  cases built
  exact ⟨ciphertext, sample, _, _, bound, sampled, sealed, rfl, by simp [HeaderByte.protectedShort, protect]⟩

/-- The bytes a short header and the tag add to a payload. -/
def packetOverhead (dcid : Bytes) (pathId : Nat) : Nat := 1 + dcid.length + (Varint.encoding pathId).length + 2 + 16

theorem protect_width
    (masked : protect crypto hpKey byte sample (toBeBytes 2 pn) = (first, pnBytes)) : pnBytes.length = 2 := by
  have written : (protect crypto hpKey byte sample (toBeBytes 2 pn)).2 = pnBytes := congrArg Prod.snd masked
  rw [← written, protect, xorWith_length, toBeBytes_length]

theorem buildProtectedPacket_length (tagged : PacketKeys.AppendsTag crypto)
    (built : buildProtectedPacket crypto keys hpKey space dcid pathId pn keyPhase payload = .ok bytes) :
    bytes.length = payload.length + packetOverhead dcid pathId := by
  obtain ⟨ciphertext, sample, first, pnBytes, -, -, sealed, masked, rfl⟩ := buildProtectedPacket_ok built
  have width := protect_width masked
  have size := PacketKeys.sealPacket_length crypto tagged sealed
  simp only [List.length_cons, List.length_append, packetOverhead]
  omega

theorem buildProtectedPacket_fits
    (built : buildProtectedPacket crypto keys hpKey space dcid pathId pn keyPhase payload = .ok bytes) :
    payload.length + 16 + 32 ≤ maxPacketSize := by
  unfold buildProtectedPacket at built
  split at built
  · cases built
  · next fits => exact Nat.not_lt.mp fits

/-- The masked first byte is that of the same space in one of the two key phases. -/
theorem protect_first
    (masked : protect crypto hpKey (HeaderByte.protectedShort space keyPhase).encode sample (toBeBytes 2 pn) =
      (first, pnBytes)) : ∃ phase, HeaderByte.decode first = .ok (HeaderByte.protectedShort space phase) := by
  obtain ⟨phase, kept⟩ := maskFirst_protectedShort
  have shape : first = (HeaderByte.protectedShort space phase).encode :=
    (congrArg Prod.fst masked).symm.trans kept
  exact ⟨phase, by rw [shape, HeaderByte.decode_protectedShort]⟩

theorem routing_fields (size : dcid.length = dcidLen) (bound : pathId ≤ Varint.maxVarint) :
    slice? (first :: (dcid ++ (Varint.encoding pathId ++ rest))) 1 dcidLen = some dcid ∧
      Varint.decode ((first :: (dcid ++ (Varint.encoding pathId ++ rest))).drop (1 + dcidLen)) =
        .ok (pathId, (Varint.encoding pathId).length) := by
  have behind : (first :: (dcid ++ (Varint.encoding pathId ++ rest))).drop (1 + dcidLen) =
      Varint.encoding pathId ++ rest := by
    rw [Nat.add_comm, List.drop_succ_cons, ← size, List.drop_left]
  exact ⟨size ▸ slice?_append [first] dcid _, by rw [behind, Varint.decode_encoding bound]⟩

/-- The routing fields of a built packet are read from its masked bytes. -/
theorem peekProtectedHeader_built (size : dcid.length = dcidLen)
    (built : buildProtectedPacket crypto keys hpKey space dcid pathId pn keyPhase payload = .ok bytes) :
    peekProtectedHeader bytes = .ok (space, dcid, pathId) := by
  obtain ⟨ciphertext, sample, first, pnBytes, bound, -, -, masked, rfl⟩ := buildProtectedPacket_ok built
  obtain ⟨phase, decoded⟩ := protect_first masked
  obtain ⟨located, routed⟩ := routing_fields size bound
  unfold peekProtectedHeader
  rw [List.head?_cons, located, routed]
  simp [decoded]

def openNumbered (crypto : Primitives) (keys : PacketKeys) (expectedPn : Nat) (space : ShortPacketSpace) (dcid : Bytes)
    (pathId pn : Nat) (aad ciphertext : Bytes) : Except PacketBuildError OpenedPacket :=
  match PacketNumber.reconstruct (pn % 2 ^ 16) 16 expectedPn with
  | .error e => .error (.pn e)
  | .ok pn =>
    match keys.openPacket crypto pn aad ciphertext with
    | .error e => .error (.aead e)
    | .ok payload => .ok { space, dcid, pathId, pn, payload }

variable {expectedPn : Nat}

/-- What the receiver sees behind the routing fields: the masked number, the sample of the ciphertext, and the
ciphertext. -/
theorem openProtectedPacket_masked (sampled : slice? ciphertext 0 sampleLen = some sample)
    (masked : protect crypto hpKey (HeaderByte.protectedShort space keyPhase).encode sample (toBeBytes 2 pn) =
      (first, pnBytes)) :
    openProtectedPacket crypto keys hpKey expectedPn (first :: (header ++ (pnBytes ++ ciphertext))) first 2
        dcid pathId (1 + header.length) =
      openNumbered crypto keys expectedPn space dcid pathId pn
        ((HeaderByte.protectedShort space keyPhase).encode :: header ++ toBeBytes 2 pn) ciphertext := by
  have width := protect_width masked
  have front : (first :: header).length = 1 + header.length := by rw [List.length_cons, Nat.add_comm]
  have number : slice? (first :: (header ++ (pnBytes ++ ciphertext))) (1 + header.length) 2 = some pnBytes := by
    have found := slice?_append (first :: header) pnBytes ciphertext
    rwa [front, width] at found
  have sampleAt : slice? (first :: (header ++ (pnBytes ++ ciphertext))) (1 + header.length + 2) sampleLen =
      some sample := by
    have found := slice?_behind (first :: header ++ pnBytes) ciphertext 0 sampleLen
    rw [List.length_append, front, width, sampled, List.append_assoc] at found
    exact found
  have rest : (first :: (header ++ (pnBytes ++ ciphertext))).drop (1 + header.length + 2) = ciphertext := by
    rw [← width, ← front, ← List.length_append, ← List.cons_append, ← List.append_assoc, List.drop_left]
  have clear : ((first :: (header ++ (pnBytes ++ ciphertext))).take (1 + header.length)).drop 1 = header := by
    rw [Nat.add_comm, List.take_succ_cons, List.drop_succ_cons, List.drop_zero, List.take_left]
  have restored : unprotect crypto hpKey first sample pnBytes =
      ((HeaderByte.protectedShort space keyPhase).encode,
        (HeaderByte.protectedShort space keyPhase).encode &&& 0x10 != 0, toBeBytes 2 pn) := by
    have undone := unprotect_protect crypto hpKey (HeaderByte.protectedShort space keyPhase).encode sample
      (toBeBytes 2 pn)
    rwa [masked] at undone
  unfold openProtectedPacket openNumbered
  rw [number, sampleAt]
  dsimp only
  rw [restored]
  rw [HeaderByte.decode_protectedShort]
  dsimp only
  rw [HeaderByte.shortSpace_protectedShort, HeaderByte.long_protectedShort, if_neg Bool.false_ne_true]
  rw [show (HeaderByte.protectedShort space keyPhase).pnBits = 16 from rfl, fromBeBytes_toBeBytes, clear, rest]
  rfl

/-- A built packet is opened under the number that its low bits are reconstructed to. -/
theorem parseProtectedPacket_masked (size : dcid.length = dcidLen)
    (built : buildProtectedPacket crypto keys hpKey space dcid pathId pn keyPhase payload = .ok bytes) :
    ∃ aad ciphertext, keys.sealPacket crypto pn aad payload = .ok ciphertext ∧
      ∀ expectedPn, parseProtectedPacket crypto keys hpKey expectedPn bytes =
        openNumbered crypto keys expectedPn space dcid pathId pn aad ciphertext := by
  obtain ⟨ciphertext, sample, first, pnBytes, bound, sampled, sealed, masked, rfl⟩ :=
    buildProtectedPacket_ok built
  obtain ⟨phase, decoded⟩ := protect_first masked
  obtain ⟨located, routed⟩ := routing_fields size bound
  refine ⟨_, ciphertext, sealed, fun expectedPn => ?_⟩
  have opened : openProtectedPacket crypto keys hpKey expectedPn
      (first :: (dcid ++ Varint.encoding pathId ++ (pnBytes ++ ciphertext))) first 2 dcid pathId
      (1 + (dcid ++ Varint.encoding pathId).length) = _ := openProtectedPacket_masked sampled masked
  rw [List.length_append, size, ← Nat.add_assoc, List.append_assoc] at opened
  unfold parseProtectedPacket
  rw [List.head?_cons, located, routed]
  dsimp only
  rw [decoded]
  dsimp only
  rw [show (HeaderByte.protectedShort space phase).pnBits = 16 from rfl, show 16 / 8 = 2 from rfl, opened]
  rfl

section
variable (opens : PacketKeys.OpensSealed crypto)
include opens

theorem parseProtectedPacket_of_reconstruct (size : dcid.length = dcidLen)
    (number : PacketNumber.reconstruct (pn % 2 ^ 16) 16 expectedPn = .ok pn)
    (built : buildProtectedPacket crypto keys hpKey space dcid pathId pn keyPhase payload = .ok bytes) :
    parseProtectedPacket crypto keys hpKey expectedPn bytes = .ok { space, dcid, pathId, pn, payload } := by
  obtain ⟨aad, ciphertext, sealed, parses⟩ := parseProtectedPacket_masked size built
  rw [parses, openNumbered, number]
  dsimp only
  rw [PacketKeys.openPacket_of_sealPacket crypto opens sealed]

/-- A receiver that expects a number near the sender's opens a built packet to what it was built from. -/
theorem parseProtectedPacket_built (size : dcid.length = dcidLen)
    (range : expectedPn ≤ PacketNumber.maxPacketNumber - 2 ^ 15) (above : pn < expectedPn + 2 ^ 15)
    (below : expectedPn < pn + 2 ^ 15)
    (built : buildProtectedPacket crypto keys hpKey space dcid pathId pn keyPhase payload = .ok bytes) :
    parseProtectedPacket crypto keys hpKey expectedPn bytes = .ok { space, dcid, pathId, pn, payload } :=
  parseProtectedPacket_of_reconstruct opens size
    (PacketNumber.reconstruct_mod (by decide) (by decide) range above below) built

end

/-- With a cipher bound to its nonce, a receiver that does not reconstruct the sender's number opens nothing. -/
theorem parseProtectedPacket_of_misnumbered (binds : PacketKeys.BindsNonce crypto)
    (size : dcid.length = dcidLen) (word : pn ≤ u64Max)
    (number : PacketNumber.reconstruct (pn % 2 ^ 16) 16 expectedPn ≠ .ok pn)
    (built : buildProtectedPacket crypto keys hpKey space dcid pathId pn keyPhase payload = .ok bytes) :
    ∃ e, parseProtectedPacket crypto keys hpKey expectedPn bytes = .error e := by
  obtain ⟨aad, ciphertext, sealed, parses⟩ := parseProtectedPacket_masked size built
  rw [parses, openNumbered]
  split
  · exact ⟨_, rfl⟩
  · next other found =>
    have different : other ≠ pn := fun same => number (same ▸ found)
    have limit : PacketNumber.maxPacketNumber ≤ u64Max := by decide
    have word' := (PacketNumber.reconstruct_le found).trans limit
    rw [PacketKeys.openPacket_of_ne crypto binds word word' different sealed]
    exact ⟨_, rfl⟩

/-- Messages of packet size are sealed, with room for the sample. -/
def SealsPackets (crypto : Primitives) : Prop :=
  ∀ key nonce aad msg, msg.length ≤ maxPacketSize →
    ∃ sealed, crypto.encrypt key nonce aad msg = some sealed ∧ sampleLen ≤ sealed.length

theorem buildProtectedPacket_isOk (seals : SealsPackets crypto)
    (path : pathId ≤ Varint.maxVarint) (fits : payload.length + 48 ≤ maxPacketSize) :
    ∃ bytes, buildProtectedPacket crypto keys hpKey space dcid pathId pn keyPhase payload = .ok bytes := by
  let header := (HeaderByte.protectedShort space keyPhase).encode :: dcid ++ Varint.encoding pathId
  have routed : Varint.encodeInto ((HeaderByte.protectedShort space keyPhase).encode :: dcid) pathId = .ok header :=
    Varint.encodeInto_ok.mpr ⟨path, rfl⟩
  obtain ⟨ciphertext, encrypted, long⟩ :=
    seals keys.key (keys.nonceFor pn) (header ++ toBeBytes 2 pn) payload (by omega)
  have sealed : keys.sealPacket crypto pn (header ++ toBeBytes 2 pn) payload = .ok ciphertext := by
    rw [PacketKeys.sealPacket, encrypted]
  have sampled : slice? ciphertext 0 sampleLen = some (ciphertext.take sampleLen) := by
    rw [slice?, if_pos (by omega), List.drop_zero]
  unfold HeaderByte.protectedShort at routed
  unfold buildProtectedPacket
  rw [if_neg (by omega)]
  dsimp only
  rw [routed]
  dsimp only
  rw [sealed]
  dsimp only
  rw [sampled]
  exact ⟨_, rfl⟩

/-- With a cipher that opens what it seals, and that seals messages of packet size with room for the sample, a
receiver that expects a number less than half a window away from the sender's reads a packet as it was built,
the routing fields already from the masked bytes; and every payload that leaves room for header and tag is built
into a packet. -/
theorem protected_packet_round_trip (opens : PacketKeys.OpensSealed crypto) (seals : SealsPackets crypto)
    (keys : PacketKeys) (hpKey : Octets 32) (space : ShortPacketSpace) (dcid : Octets 8) (pathId pn : Nat)
    (keyPhase : Bool) (payload : Bytes) (expectedPn : Nat) (path : pathId < 2 ^ 62)
    (range : expectedPn ≤ PacketNumber.maxPacketNumber - 2 ^ 15) (above : pn < expectedPn + 2 ^ 15)
    (below : expectedPn < pn + 2 ^ 15) :
    (∀ bytes, buildProtectedPacket crypto keys hpKey space dcid.1 pathId pn keyPhase payload = .ok bytes →
      parseProtectedPacket crypto keys hpKey expectedPn bytes =
          .ok { space, dcid := dcid.1, pathId, pn, payload } ∧
        peekProtectedHeader bytes = .ok (space, dcid.1, pathId)) ∧
      (payload.length + 48 ≤ maxPacketSize →
        ∃ bytes, buildProtectedPacket crypto keys hpKey space dcid.1 pathId pn keyPhase payload = .ok bytes) := by
  refine ⟨fun bytes built => ⟨?_, ?_⟩, fun fits => ?_⟩
  · exact parseProtectedPacket_built opens dcid.2 range above below built
  · exact peekProtectedHeader_built dcid.2 built
  · exact buildProtectedPacket_isOk seals (Nat.le_pred_of_lt path) fits

end

theorem transparent_opens : PacketKeys.OpensSealed transparent := by
  rintro key nonce aad msg sealed ⟨⟩
  simp [transparent]

theorem transparent_seals : SealsPackets transparent :=
  fun _ _ _ msg _ => ⟨msg ++ List.replicate 16 0, rfl, by simp [sampleLen]⟩

/-- A relay packet in the window behind the expected number, with a cipher that only appends a tag. -/
theorem protected_packet_round_trip_behind :
    let keys : PacketKeys := ⟨copyInto 32 [1], copyInto 12 [2], copyInto 32 [3]⟩
    ∃ bytes, buildProtectedPacket transparent keys keys.hpKey .relayData (copyInto 8 [7]).1 70 65530 true [1, 2]
        = .ok bytes ∧
      parseProtectedPacket transparent keys keys.hpKey 65540 bytes =
        .ok { space := .relayData, dcid := (copyInto 8 [7]).1, pathId := 70, pn := 65530, payload := [1, 2] } := by
  intro keys
  obtain ⟨reads, builds⟩ := protected_packet_round_trip transparent_opens transparent_seals keys keys.hpKey .relayData
    (copyInto 8 [7]) 70 65530 true [1, 2] 65540 (by decide) (by decide) (by decide) (by decide)
  obtain ⟨bytes, built⟩ := builds (by decide)
  exact ⟨bytes, built, (reads bytes built).1⟩

end UniversalMesh.Session
