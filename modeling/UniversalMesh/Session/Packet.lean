import UniversalMesh.Crypto.PacketKeys
import UniversalMesh.Wire.Packet

/-! `umc-session/src/packet.rs`, the short-header packets, and the stateless
reset of `reset.rs` that a packet which does not open may be. -/
namespace UniversalMesh.Session
open MachineWord Wire Crypto

def defaultPathId : Nat := 0

inductive PacketBuildError where
  | header (e : HeaderError) | pn (e : PacketNumber.PnError) | aead (e : AeadError) | tooLarge
  deriving DecidableEq, Repr

/-- `bytes.get(pos..pos + len)`. -/
def slice? (bytes : Bytes) (pos len : Nat) : Option Bytes :=
  if pos + len ≤ bytes.length then some ((bytes.drop pos).take len) else none

/-- The length of a destination connection ID in a short header. -/
def dcidLen : Nat := 8

/-- `peek_protected_header`: the space, the connection ID and the path. -/
def peekProtectedHeader (bytes : Bytes) :
    Except PacketBuildError (ShortPacketSpace × Bytes × Nat) :=
  match bytes.head? with
  | none => .error .tooLarge
  | some first =>
    match HeaderByte.decode first with
    | .error e => .error (.header e)
    | .ok hb =>
      if hb.long then .error (.header .invalidType)
      else
        match hb.shortSpace with
        | none => .error (.header .invalidSpace)
        | some space =>
          match slice? bytes 1 dcidLen with
          | none => .error .tooLarge
          | some dcid =>
            match Varint.decode (bytes.drop (1 + dcidLen)) with
            | .error _ => .error .tooLarge
            | .ok (pathId, _) => .ok (space, dcid, pathId)

section
variable (crypto : Primitives) (keys : PacketKeys) (hpKey : Octets 32)

/-- `build_protected_packet`. The packet number goes out in 16 bits; the AEAD seals under the header before it
is masked. -/
def buildProtectedPacket (space : ShortPacketSpace)
    (dcid : Bytes) (pathId packetNumber : Nat) (keyPhase : Bool) (payload : Bytes) :
    Except PacketBuildError Bytes :=
  if payload.length + 16 + 32 > maxPacketSize then .error .tooLarge
  else
    let hb := { HeaderByte.ofSpace space with keyPhase, pnBits := 16 }
    match Varint.encodeInto (hb.encode :: dcid) pathId with
    | .error _ => .error .tooLarge
    | .ok header =>
      let pnBytes := toBeBytes 2 packetNumber
      match keys.sealPacket crypto packetNumber (header ++ pnBytes) payload with
      | .error e => .error (.aead e)
      | .ok ciphertext =>
        match slice? ciphertext 0 sampleLen with
        | none => .error .tooLarge
        | some sample =>
          let (protectedFirst, pnBytes) := protect crypto hpKey hb.encode sample pnBytes
          .ok (protectedFirst :: header.drop 1 ++ pnBytes ++ ciphertext)

structure OpenedPacket where
  space : ShortPacketSpace
  dcid : Bytes
  (pathId pn : Nat)
  payload : Bytes
  deriving DecidableEq

/-- `parse_protected_packet` behind the routing fields: `pos` is the position of the packet number. -/
def openProtectedPacket (expectedPn : Nat) (bytes : Bytes)
    (protectedFirst : UInt8) (pnLen : Nat) (dcid : Bytes) (pathId pos : Nat) :
    Except PacketBuildError OpenedPacket :=
  match slice? bytes pos pnLen, slice? bytes (pos + pnLen) sampleLen with
  | some pnBytes, some sample =>
    let (first, _, unprotectedPn) := unprotect crypto hpKey protectedFirst sample pnBytes
    match HeaderByte.decode first with
    | .error e => .error (.header e)
    | .ok hb =>
      if hb.long then .error (.header .invalidType)
      else
        match hb.shortSpace with
        | none => .error (.header .invalidSpace)
        | some space =>
          match PacketNumber.reconstruct (fromBeBytes unprotectedPn) hb.pnBits expectedPn with
          | .error e => .error (.pn e)
          | .ok pn =>
            let aad := first :: (bytes.take pos).drop 1 ++ unprotectedPn
            match keys.openPacket crypto pn aad (bytes.drop (pos + pnLen)) with
            | .error e => .error (.aead e)
            | .ok payload => .ok { space, dcid, pathId, pn, payload }
  | _, _ => .error .tooLarge

def parseProtectedPacket (expectedPn : Nat) (bytes : Bytes) : Except PacketBuildError OpenedPacket :=
  match bytes.head? with
  | none => .error .tooLarge
  | some protectedFirst =>
    match HeaderByte.decode protectedFirst with
    | .error e => .error (.header e)
    | .ok hb =>
      match slice? bytes 1 dcidLen with
      | none => .error .tooLarge
      | some dcid =>
        match Varint.decode (bytes.drop (1 + dcidLen)) with
        | .error _ => .error .tooLarge
        | .ok (pathId, n) =>
          openProtectedPacket crypto keys hpKey expectedPn bytes protectedFirst (hb.pnBits / 8)
            dcid pathId (1 + dcidLen + n)

end

/-! `reset.rs`. -/

def resetTokenLen : Nat := 16
def minResetLen : Nat := 25

/-- `reset_token`: the first half of the secret. -/
def resetToken (secret : Octets 32) : Octets resetTokenLen :=
  ⟨secret.1.take resetTokenLen, by simp [secret.2, resetTokenLen]⟩

/-- `build_stateless_reset`, with the 16 bytes its entropy source fills in. -/
def buildStatelessReset (token : Octets resetTokenLen) (tail : Octets 16) : Bytes :=
  0x00 :: List.replicate 8 0 ++ token.1 ++ tail.1

/-- `token_matches`: a short header with the token in its slot. -/
def tokenMatches (bytes : Bytes) (token : Octets resetTokenLen) : Bool :=
  match slice? bytes 9 resetTokenLen, bytes.head? with
  | some slot, some first =>
    match HeaderByte.decode first with
    | .error _ => false
    | .ok header => !header.long && slot == token.1
  | _, _ => false

end UniversalMesh.Session
