import Mathlib.Data.Nat.Dist
import Mathlib.Data.Nat.ModEq
import UniversalMesh.Wire.Frame

/-! `umc-wire/src/pn.rs`: reconstruction of truncated packet numbers. -/
namespace UniversalMesh.Wire.PacketNumber
open MachineWord

def maxPacketNumber : Nat := 2 ^ 62 - 1

inductive PnError where
  | invalidBits | truncatedTooLarge | overflow
  deriving DecidableEq, Repr

/-- `reconstruct`: the candidate nearest to `expected`. -/
def reconstruct (truncated bits expected : Nat) : Except PnError Nat :=
  if bits = 0 ∨ bits > 62 then .error .invalidBits
  else if truncated ≥ 2 ^ bits then .error .truncatedTooLarge
  else
    let window := 2 ^ bits
    let half := window / 2
    if expected > maxPacketNumber - half then .error .overflow
    else
      -- `(expected & !mask) | truncated`, the mask being `window - 1`
      let candidate := expected / window * window + truncated
      let candidate :=
        if saturatingAdd candidate half < expected ∧
            saturatingAdd candidate window ≤ maxPacketNumber then
          saturatingAdd candidate window
        else if candidate > saturatingAdd expected half ∧ candidate ≥ window then
          candidate - window
        else candidate
      if candidate > maxPacketNumber then .error .overflow else .ok candidate

theorem reconstruct_le (found : reconstruct truncated bits expected = .ok pn) : pn ≤ maxPacketNumber := by
  have checked : ∀ candidate, (if candidate > maxPacketNumber then .error .overflow else .ok candidate) =
      (.ok pn : Except PnError Nat) → pn ≤ maxPacketNumber := by
    intro candidate found
    split at found
    · cases found
    · next fits =>
      cases found
      exact Nat.not_lt.mp fits
  unfold reconstruct at found
  split at found
  · cases found
  split at found
  · cases found
  dsimp only at found
  split at found
  · cases found
  · exact checked _ found

section
variable {bits expected : Nat}

theorem window_end_le (narrow : bits ≤ 62) (bound : expected ≤ maxPacketNumber) :
    expected / 2 ^ bits * 2 ^ bits + 2 ^ bits ≤ maxPacketNumber + 1 := by
  have whole : maxPacketNumber + 1 = 2 ^ (62 - bits) * 2 ^ bits := by
    rw [← Nat.pow_add, Nat.sub_add_cancel narrow]
    rfl
  have below : expected / 2 ^ bits < 2 ^ (62 - bits) := by
    apply Nat.div_lt_of_lt_mul
    rw [Nat.mul_comm]
    omega
  rw [whole, ← Nat.succ_mul]
  exact Nat.mul_le_mul_right _ below

/-- The number found has the low bits, and is within half a window of the expected one unless there is
none below it. -/
theorem reconstruct_spec (positive : 0 < bits) (narrow : bits ≤ 62)
    (range : expected ≤ maxPacketNumber - 2 ^ bits / 2) (fits : truncated < 2 ^ bits) :
    ∃ pn, reconstruct truncated bits expected = .ok pn ∧ pn ≤ maxPacketNumber ∧ pn % 2 ^ bits = truncated ∧
      expected ≤ pn + 2 ^ bits / 2 ∧ (pn ≤ expected + 2 ^ bits / 2 ∨ pn < 2 ^ bits) := by
  have limits : maxPacketNumber = 2 ^ 62 - 1 ∧ 2 ^ 63 ≤ u64Max := by decide
  have ends := window_end_le narrow (show expected ≤ maxPacketNumber by omega)
  unfold reconstruct
  rw [if_neg (by omega), if_neg (by omega), if_neg (by omega)]
  generalize 2 ^ bits = window at *
  have here := Nat.div_add_mod' expected window
  have rest : expected % window < window := Nat.mod_lt _ (by omega)
  have low : (expected / window * window + truncated) % window = truncated := by
    rw [Nat.mul_add_mod', Nat.mod_eq_of_lt fits]
  generalize expected / window * window = start at *
  have sums : saturatingAdd (start + truncated) (window / 2) = start + truncated + window / 2 ∧
      saturatingAdd (start + truncated) window = start + truncated + window ∧
      saturatingAdd expected (window / 2) = expected + window / 2 := by
    refine ⟨saturatingAdd_of_le ?_, saturatingAdd_of_le ?_, saturatingAdd_of_le ?_⟩ <;> omega
  dsimp only
  rw [sums.1, sums.2.1, sums.2.2]
  -- the candidate in the window of the expected number, or the one a window above or below it
  split
  · next short =>
    refine ⟨_, if_neg (by omega), by omega, ?_, by omega, by omega⟩
    rw [Nat.add_mod_right, low]
  split
  · next far =>
    refine ⟨_, if_neg (by omega), by omega, ?_, by omega, by omega⟩
    rw [← Nat.mod_eq_sub_mod far.2, low]
  · exact ⟨_, if_neg (by omega), by omega, low, by omega, by omega⟩

theorem apart_of_mod_eq {a b window : Nat} (same : a % window = b % window) :
    a = b ∨ a + window ≤ b ∨ b + window ≤ a := by
  rcases Nat.lt_trichotomy a b with less | equal | more
  · exact .inr (.inl (Nat.ModEq.add_le_of_lt same less))
  · exact .inl equal
  · exact .inr (.inr (Nat.ModEq.add_le_of_lt same.symm more))

/-- A number within half a window of the expected one is recovered from its low bits. -/
theorem reconstruct_mod (positive : 0 < bits) (narrow : bits ≤ 62)
    (range : expected ≤ maxPacketNumber - 2 ^ bits / 2) (above : pn < expected + 2 ^ bits / 2)
    (below : expected < pn + 2 ^ bits / 2) : reconstruct (pn % 2 ^ bits) bits expected = .ok pn := by
  have low : pn % 2 ^ bits < 2 ^ bits := Nat.mod_lt _ (Nat.two_pow_pos bits)
  obtain ⟨found, result, -, same, near, close⟩ := reconstruct_spec positive narrow range low
  rw [result]
  rcases apart_of_mod_eq same with equal | lower | higher
  · rw [equal]
  · omega
  · omega

/-- A packet number within half a window of the expected one is recovered from its low bits, and whatever the
low bits are, no packet number with them is nearer to the expected one than the number found. -/
theorem reconstruct_nearest (bits expected : Nat) (positive : 1 ≤ bits) (narrow : bits ≤ 62)
    (range : expected ≤ maxPacketNumber - 2 ^ (bits - 1)) :
    (∀ pn, Nat.dist pn expected < 2 ^ (bits - 1) → reconstruct (pn % 2 ^ bits) bits expected = .ok pn) ∧
      ∀ truncated < 2 ^ bits, ∃ pn, reconstruct truncated bits expected = .ok pn ∧ pn ≤ maxPacketNumber ∧
        pn % 2 ^ bits = truncated ∧
        ∀ other ≤ maxPacketNumber, other % 2 ^ bits = truncated → Nat.dist pn expected ≤ Nat.dist other expected := by
  have half : 2 ^ (bits - 1) = 2 ^ bits / 2 := by
    obtain ⟨less, rfl⟩ : ∃ less, bits = less + 1 := ⟨bits - 1, by omega⟩
    rw [Nat.add_sub_cancel, Nat.pow_succ, Nat.mul_div_cancel _ (by decide)]
  rw [half] at range ⊢
  unfold Nat.dist
  refine ⟨fun pn near => ?_, fun truncated fits => ?_⟩
  · apply reconstruct_mod positive narrow range
    · omega
    · omega
  · obtain ⟨pn, result, bound, low, near, close⟩ := reconstruct_spec positive narrow range fits
    refine ⟨pn, result, bound, low, fun other _ same => ?_⟩
    rcases apart_of_mod_eq (low.trans same.symm) with equal | lower | higher
    · rw [equal]
    · omega
    · omega

/-- With eight bits, 255 is found a window below where 300 stands. -/
theorem reconstruct_nearest_behind : reconstruct (255 % 2 ^ 8) 8 300 = .ok 255 :=
  (reconstruct_nearest 8 300 (by decide) (by decide) (by decide)).1 255 (by decide)

end

end UniversalMesh.Wire.PacketNumber

/-! The header byte of `umc-wire/src/header.rs` and the payload parser of
`umc-wire/src/packet.rs`, which admits a frame only in the packets it belongs to. -/
namespace UniversalMesh.Wire

def maxPacketSize : Nat := 65535

inductive ShortPacketSpace where
  | sessionData | pathControl | relayData
  deriving DecidableEq, Repr

inductive HeaderError where
  | reservedBits | invalidType | invalidSpace | connectionIdTooLong | tokenTooLong | truncated
  deriving DecidableEq, Repr

structure HeaderByte where
  long : Bool
  kind : UInt8
  keyPhase : Bool
  pnBits : Nat
  deriving DecidableEq, Repr

namespace HeaderByte

def shortSession : HeaderByte := { long := false, kind := 0, keyPhase := false, pnBits := 8 }
def shortPath : HeaderByte := { long := false, kind := 1, keyPhase := false, pnBits := 8 }
def shortRelay : HeaderByte := { long := false, kind := 2, keyPhase := false, pnBits := 8 }

/-- The constant of a short-header space. -/
def ofSpace : ShortPacketSpace → HeaderByte
  | .sessionData => shortSession
  | .pathControl => shortPath
  | .relayData => shortRelay

def encode (h : HeaderByte) : UInt8 :=
  let form : UInt8 := if h.long then 0x80 else 0
  let phase : UInt8 := if h.keyPhase then 0x10 else 0
  let pnField : UInt8 :=
    match h.pnBits with
    | 8 => 0
    | 16 => 1
    | 32 => 2
    | 64 => 3
    | bits => UInt8.ofNat (bits % 4)
  form ||| (h.kind &&& 0x03) <<< 5 ||| phase ||| pnField <<< 2

def decode (b : UInt8) : Except HeaderError HeaderByte :=
  if b &&& 0x03 != 0 then .error .reservedBits
  else
    let pnBits :=
      match (b >>> 2) &&& 0x03 with
      | 0 => 8
      | 1 => 16
      | 2 => 32
      | _ => 64
    .ok { long := b &&& 0x80 != 0, kind := (b >>> 5) &&& 0x03, keyPhase := b &&& 0x10 != 0, pnBits }

def shortSpace (h : HeaderByte) : Option ShortPacketSpace :=
  if h.long then none
  else
    match h.kind with
    | 0 => some .sessionData
    | 1 => some .pathControl
    | 2 => some .relayData
    | _ => none

variable (space : ShortPacketSpace) (keyPhase : Bool)

/-- The first byte of a protected packet with a packet number of 16 bits. -/
def protectedShort : HeaderByte :=
  { ofSpace space with keyPhase, pnBits := 16 }

theorem decode_protectedShort :
    decode (protectedShort space keyPhase).encode = .ok (protectedShort space keyPhase) := by
  cases space <;> cases keyPhase <;> rfl

@[simp] theorem shortSpace_protectedShort : (protectedShort space keyPhase).shortSpace = some space := by
  cases space <;> rfl

@[simp] theorem long_protectedShort : (protectedShort space keyPhase).long = false := by
  cases space <;> rfl

theorem xor_encode_protectedShort :
    (protectedShort space keyPhase).encode ^^^ 0x10 = (protectedShort space (!keyPhase)).encode := by
  cases space <;> cases keyPhase <;> rfl

end HeaderByte

inductive PacketContext where
  | initial | handshake | protectedSpace (space : ShortPacketSpace)
  deriving DecidableEq, Repr

inductive PacketError where
  | tooLarge | frame (e : FrameError) | contextViolation (ty : FrameType)
  deriving DecidableEq, Repr

def frameTypeOf : Frame → FrameType
  | .padding => .padding
  | .ping => .ping
  | .ack _ => .ack
  | .connectionClose _ => .connectionClose
  | .stream _ => .stream
  | .resetStream _ => .resetStream
  | .stopSending _ => .stopSending
  | .maxData _ => .maxData
  | .maxStreamData _ => .maxStreamData
  | .maxStreams _ => .maxStreams
  | .datagram _ => .datagram
  | .newConnectionId _ => .newConnectionId
  | .retireConnectionId _ => .retireConnectionId
  | .pathChallenge _ => .pathChallenge
  | .pathResponse _ => .pathResponse
  | .pathStatus _ => .pathStatus
  | .migrate _ => .migrate
  | .keyUpdate _ => .keyUpdate
  | .routeRequest _ => .routeRequest
  | .routeResponse _ => .routeResponse
  | .routeError _ => .routeError
  | .relayOpen _ => .relayOpen
  | .relayStatus _ => .relayStatus
  | .relayData _ => .relayData
  | .relayClose _ => .relayClose
  | .bundle _ => .bundle
  | .bundleAck _ => .bundleAck
  | .peerHint _ => .peerHint
  | .capabilities _ => .capabilities
  | .auth _ => .auth
  | .handshakeData _ => .handshakeData
  | .sessionTicket _ => .sessionTicket
  | .serviceHint _ => .serviceHint
  | .dhtLookup _ => .dhtLookup
  | .revocationBatch _ => .revocationBatch

/-- The types `context_allows` lists for every protected packet. -/
def protectedTypes : List FrameType :=
  [.stream, .datagram, .routeRequest, .routeResponse, .routeError, .relayOpen, .relayStatus,
   .relayData, .relayClose, .bundle, .bundleAck, .pathChallenge, .pathResponse, .pathStatus,
   .migrate, .keyUpdate, .newConnectionId, .retireConnectionId, .peerHint, .serviceHint,
   .dhtLookup, .revocationBatch, .maxData, .maxStreamData, .maxStreams, .resetStream,
   .stopSending, .connectionClose, .sessionTicket]

def contextAllows (context : PacketContext) (ty : FrameType) : Bool :=
  [.padding, .ping, .ack, .capabilities].contains ty ||
    match context with
    | .initial | .handshake => [.auth, .handshakeData].contains ty
    | .protectedSpace _ => protectedTypes.contains ty

/-- The loop over `check_context`: the first frame that the context does not allow. -/
def checkContext (context : PacketContext) : List Frame → Except PacketError Unit
  | [] => .ok ()
  | frame :: frames =>
    if contextAllows context (frameTypeOf frame) then checkContext context frames
    else .error (.contextViolation (frameTypeOf frame))

def parsePayload (context : PacketContext) (payload : Bytes) : Except PacketError (List Frame) :=
  if payload.length > maxPacketSize then .error .tooLarge
  else
    match decodeFrames payload with
    | .error e => .error (.frame e)
    | .ok frames =>
      match checkContext context frames with
      | .error e => .error e
      | .ok () => .ok frames

end UniversalMesh.Wire
