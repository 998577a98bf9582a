import UniversalMesh.Crypto.PacketKeys
import UniversalMesh.Lib.ByteReader

/-! `umc-relay/src/onion.rs`: private routes in layers. A route is sealed from the destination to the first hop;
each hop opens one layer and finds the descriptor of the next hop with what is sealed for it, the last one the
context of the destination. -/
namespace UniversalMesh.Relay
open MachineWord Wire Crypto Reader ByteReader

/-- `VERSION`, and the kinds of layers `TERMINAL` and `FORWARD`. -/
def layerVersion : UInt8 := 1
def layerTerminal : UInt8 := 0
def layerForward : UInt8 := 1

def maxField : Nat := 65535

/-- `AAD`, the associated data of every layer. -/
def routeAad : Bytes := ascii "UMP-PRIVACY-ROUTE-v1"

/-- `encode_field`; the second test is that of `u16::try_from`. -/
def encodeField (field : Bytes) : Writer String UInt8 := fun out => do
  refuse (field.length > maxField) "privacy layer field exceeds bound"
  refuse (field.length ≥ 2 ^ 16) "privacy layer field too large"
  put (toBeBytes 2 field.length ++ field) out

def encodeTerminal (destination : Bytes) : Except String Bytes :=
  encodeField destination [layerVersion, layerTerminal]

def encodeForward (descriptor inner : Bytes) : Except String Bytes := do
  refuse (inner.length > maxField) "nested privacy layer exceeds bound"
  let out ← encodeField descriptor [layerVersion, layerForward]
  encodeField inner out

def decodeField : Reader String UInt8 Bytes := do
  let length ← length16 "privacy layer field length truncated"
  slice "privacy layer field truncated" length

section
variable (crypto : Primitives) (key : Octets 32)

def sealLayer (plaintext : Bytes) : Except String Bytes := do
  let keys ← (PacketKeys.fromTrafficSecret crypto key).mapError
    fun _ => "privacy layer key derivation failed"
  (keys.sealPacket crypto 0 routeAad plaintext).mapError fun _ => "privacy layer sealing failed"

def openLayer (layer : Bytes) : Except String Bytes := do
  let keys ← (PacketKeys.fromTrafficSecret crypto key).mapError
    fun _ => "privacy layer key derivation failed"
  (keys.openPacket crypto 0 routeAad layer).mapError fun _ => "privacy layer authentication failed"

/-- One turn of the loop of `build_privacy_route`: the layers so far, sealed for the hop in front. -/
def wrapLayer (hop : Octets 32 × Bytes) (layer : Bytes) : Except String Bytes := do
  refuse (hop.2.length > maxField) "next-hop descriptor exceeds privacy-route bound"
  let plaintext ← encodeForward hop.2 layer
  sealLayer crypto hop.1 plaintext

/-- `build_privacy_route`. The loop goes over the transitions from the last to the first. -/
def buildPrivacyRoute (hopKeys : List (Octets 32)) (nextHops : List Bytes) (destinationContext : Bytes) :
    Except String Bytes :=
  match hopKeys.getLast? with
  | none => .error "privacy route needs at least one hop"
  | some last => do
    refuse (nextHops.length ≠ hopKeys.length - 1) "privacy route needs one descriptor per hop transition"
    refuse (destinationContext.length > maxField) "destination context exceeds privacy-route bound"
    let terminal ← encodeTerminal destinationContext
    let layer ← sealLayer crypto last terminal
    (hopKeys.zip nextHops).foldrM (wrapLayer crypto) layer

/-- What stands behind the version and the kind of a layer: the field it ends with and, in a layer that is
forwarded, the descriptor. -/
def readLayer : Reader String UInt8 (Bytes × Option Bytes × String) := do
  let version ← byte "privacy layer truncated"
  let kind ← byte "privacy layer truncated"
  refuseIf (version ≠ layerVersion) "unsupported privacy layer version"
  if kind = layerTerminal then do
    let destination ← decodeField
    pure (destination, none, "privacy terminal has trailing bytes")
  else if kind = layerForward then do
    let descriptor ← decodeField
    let inner ← decodeField
    pure (inner, some descriptor, "privacy forward layer has trailing bytes")
  else lift (.error "unknown privacy layer kind")

def unwrapPrivacyLayer (layer : Bytes) : Except String (Bytes × Option Bytes) := do
  let plaintext ← openLayer crypto key layer
  let ((content, descriptor, trailing), offset) ← readLayer.run plaintext
  refuse (offset ≠ plaintext.length) trailing
  .ok (content, descriptor)

/-- The hops of a route, each with its key on what the one before it found: their descriptors, and what the last
one finds. -/
def peel : List (Octets 32) → Bytes → Except String (List Bytes × Bytes)
  | [], _ => .error "no hop left"
  | key :: keys, layer => do
    let (content, descriptor) ← unwrapPrivacyLayer crypto key layer
    match descriptor with
    | none => if keys = [] then .ok ([], content) else .error "destination before the last hop"
    | some descriptor =>
      let (descriptors, destination) ← peel keys content
      .ok (descriptor :: descriptors, destination)

end

theorem decodeField_carries : Carries (encodeField field) decodeField field := by
  intro out bytes written
  obtain ⟨-, written⟩ := refuse_bind_ok.mp written
  obtain ⟨fits, written⟩ := refuse_bind_ok.mp written
  cases written
  have bound : field.length < 65536 := by simpa using fits
  exact ⟨_, rfl, (length16_reads _ bound).bind (slice_reads _ field)⟩

theorem readLayer_reads_terminal (encoded : encodeTerminal destination = .ok bytes) :
    readLayer.Reads (destination, none, "privacy terminal has trailing bytes") bytes := by
  obtain ⟨piece, rfl, reads⟩ := decodeField_carries encoded
  apply (byte_reads _ layerVersion).bind
  apply (byte_reads _ layerTerminal).bind
  apply (Reads.refuseIf (by decide)).bind
  rw [if_pos rfl, ← List.append_nil piece]
  exact reads.bind .pure

theorem readLayer_reads_forward {inner : Bytes} (encoded : encodeForward descriptor inner = .ok bytes) :
    readLayer.Reads (inner, some descriptor, "privacy forward layer has trailing bytes") bytes := by
  obtain ⟨-, encoded⟩ := refuse_bind_ok.mp encoded
  obtain ⟨out, first, second⟩ := bind_ok.mp encoded
  obtain ⟨head, rfl, readsHead⟩ := decodeField_carries first
  obtain ⟨tail, rfl, readsTail⟩ := decodeField_carries second
  apply (byte_reads _ layerVersion).bind
  apply (byte_reads _ layerForward).bind
  apply (Reads.refuseIf (by decide)).bind
  rw [if_neg (by decide), if_pos rfl]
  apply readsHead.bind
  rw [← List.append_nil tail]
  exact readsTail.bind .pure

section
variable {crypto : Primitives} (opens : PacketKeys.OpensSealed crypto)
include opens

theorem openLayer_of_sealLayer
    (sealed : sealLayer crypto key plaintext = .ok layer) : openLayer crypto key layer = .ok plaintext := by
  obtain ⟨keys, derived, sealed⟩ := bind_ok.mp sealed
  have encrypted : keys.sealPacket crypto 0 routeAad plaintext = .ok layer := by
    cases attempt : keys.sealPacket crypto 0 routeAad plaintext with
    | error e => simp [attempt, Except.mapError] at sealed
    | ok ciphertext => simpa [attempt, Except.mapError] using sealed
  rw [openLayer, derived, ok_bind, PacketKeys.openPacket_of_sealPacket crypto opens encrypted]
  rfl

theorem unwrapPrivacyLayer_of_sealLayer (sealed : sealLayer crypto key plaintext = .ok layer)
    (reads : readLayer.Reads (content, descriptor, trailing) plaintext) :
    unwrapPrivacyLayer crypto key layer = .ok (content, descriptor) := by
  rw [unwrapPrivacyLayer, openLayer_of_sealLayer opens sealed, ok_bind, reads.run (List.prefix_refl _), ok_bind]
  simp [refuse]

/-- Layers put around a sealed destination come off again in the opposite order. -/
theorem peel_of_wrapLayer
    (encoded : encodeTerminal destination = .ok terminal) (sealed : sealLayer crypto last terminal = .ok core)
    {hops : List (Octets 32 × Bytes)} (wrapped : hops.foldrM (wrapLayer crypto) core = .ok route) :
    peel crypto (hops.map Prod.fst ++ [last]) route = .ok (hops.map Prod.snd, destination) := by
  induction hops generalizing route with
  | nil =>
    cases wrapped
    have found := unwrapPrivacyLayer_of_sealLayer opens sealed (readLayer_reads_terminal encoded)
    simp [peel, found]
  | cons hop hops ih =>
    rw [List.foldrM_cons] at wrapped
    obtain ⟨inner, wrapped, outer⟩ := bind_ok.mp wrapped
    obtain ⟨-, outer⟩ := refuse_bind_ok.mp outer
    obtain ⟨plaintext, forward, outer⟩ := bind_ok.mp outer
    have found := unwrapPrivacyLayer_of_sealLayer opens outer (readLayer_reads_forward forward)
    simp [peel, found, ih wrapped]

/-- When a route was built over any number of hops, its hops find the descriptors in their order, one each, and
the last one finds the context of the destination. -/
theorem peel_buildPrivacyRoute (hopKeys : List (Octets 32)) (nextHops : List Bytes)
    (destinationContext route : Bytes)
    (built : buildPrivacyRoute crypto hopKeys nextHops destinationContext = .ok route) :
    peel crypto hopKeys route = .ok (nextHops, destinationContext) := by
  unfold buildPrivacyRoute at built
  cases ends : hopKeys.getLast? with
  | none => simp [ends] at built
  | some last =>
    rw [ends] at built
    obtain ⟨counted, built⟩ := refuse_bind_ok.mp built
    obtain ⟨-, built⟩ := refuse_bind_ok.mp built
    obtain ⟨terminal, encoded, built⟩ := bind_ok.mp built
    obtain ⟨core, sealed, built⟩ := bind_ok.mp built
    have peeled := peel_of_wrapLayer opens encoded sealed built
    obtain ⟨front, rfl⟩ := List.getLast?_eq_some_iff.mp ends
    have count : nextHops.length = front.length := by simpa using counted
    have transitions : (front ++ [last]).zip nextHops = front.zip nextHops := by
      have cut : (front ++ [last]).zip (nextHops ++ []) = front.zip nextHops ++ [last].zip [] :=
        List.zip_append count.symm
      simpa using cut
    rwa [transitions, List.map_fst_zip count.ge, List.map_snd_zip count.le] at peeled

end

/-- A route over three hops, with a cipher that only appends a tag. -/
theorem peel_threeHops : let keys : List (Octets 32) := [copyInto 32 [1], copyInto 32 [2], copyInto 32 [3]]
    ∃ route, buildPrivacyRoute transparent keys [[0x68, 0x32], [0x68, 0x33]] [0x64] = .ok route ∧
      peel transparent keys route = .ok ([[0x68, 0x32], [0x68, 0x33]], [0x64]) := by
  intro keys
  have succeeds : (buildPrivacyRoute transparent keys [[0x68, 0x32], [0x68, 0x33]] [0x64]).isOk = true := by
    decide +kernel
  cases built : buildPrivacyRoute transparent keys [[0x68, 0x32], [0x68, 0x33]] [0x64] with
  | error e =>
    rw [built] at succeeds
    cases succeeds
  | ok route =>
    refine ⟨route, rfl, peel_buildPrivacyRoute ?_ keys _ _ route built⟩
    rintro key nonce aad msg sealed ⟨⟩
    simp [transparent]

end UniversalMesh.Relay
