import UniversalMesh.Wire.Field

/-! `umc-crypto`: the key schedule, packet protection and header protection, over
the primitives the crate takes from elsewhere. -/
namespace UniversalMesh.Crypto
open MachineWord Wire

/-- What `umc-crypto` imports: BLAKE2s-256, ChaCha20-Poly1305 and the ChaCha20
keystream from a byte position. -/
structure Primitives where
  blake2s : Bytes → Octets 32
  encrypt (key : Octets 32) (nonce : Octets 12) (aad msg : Bytes) : Option Bytes
  decrypt (key : Octets 32) (nonce : Octets 12) (aad msg : Bytes) : Option Bytes
  keystream (key : Octets 32) (nonce : Octets 12) (position length : Nat) : Octets length

inductive HkdfError where
  | lengthOutOfRange | contextTooLong
  deriving DecidableEq, Repr

inductive AeadError where
  | invalidKeyLength | decryptFailed
  deriving DecidableEq, Repr

/-- `copy_from_slice` into an array: the bytes, which fill it where it is used. -/
def copyInto (n : Nat) (bytes : Bytes) : Octets n :=
  ⟨(bytes ++ List.replicate n 0).take n, by simp⟩

/-- `zip` of two byte strings under XOR; bytes past the end of `mask` are kept. -/
def xorWith : Bytes → Bytes → Bytes
  | byte :: bytes, mask :: masks => (byte ^^^ mask) :: xorWith bytes masks
  | bytes, [] => bytes
  | [], _ => []

@[simp] theorem xorWith_length (bytes masks : Bytes) : (xorWith bytes masks).length = bytes.length := by
  fun_induction xorWith bytes masks <;> simp_all

theorem xorWith_xorWith : xorWith (xorWith bytes masks) masks = bytes := by
  fun_induction xorWith bytes masks with
  | case1 byte bytes mask masks ih => rw [xorWith, ih, UInt8.xor_assoc, UInt8.xor_self, UInt8.xor_zero]
  | case2 bytes => simp [xorWith]
  | case3 => simp [xorWith]

theorem xorWith_injective (size : masks.length = bytes.length)
    (size' : masks'.length = bytes.length) (same : xorWith bytes masks = xorWith bytes masks') : masks = masks' := by
  induction bytes generalizing masks masks' with
  | nil => rw [List.eq_nil_of_length_eq_zero size, List.eq_nil_of_length_eq_zero size']
  | cons byte bytes ih =>
    obtain ⟨mask, masks, rfl⟩ := List.exists_cons_of_length_eq_add_one size
    obtain ⟨mask', masks', rfl⟩ := List.exists_cons_of_length_eq_add_one size'
    rw [xorWith, xorWith, List.cons.injEq] at same
    have first : mask = mask' := (UInt8.xor_right_inj byte).mp same.1
    rw [first, ih (Nat.succ.inj size) (Nat.succ.inj size') same.2]

section
variable (crypto : Primitives)

def blockSize : Nat := 64

def hmacBlake2s (key data : Bytes) : Octets 32 :=
  let key := if key.length > blockSize then (crypto.blake2s key).1 else key
  let keyBlock := (copyInto blockSize key).1
  let inner := crypto.blake2s (keyBlock.map (· ^^^ 0x36) ++ data)
  crypto.blake2s (keyBlock.map (· ^^^ 0x5c) ++ inner.1)

/-- The loop of `expand` over the counters left. -/
def expandFrom (prk : Octets 32) (info : Bytes) (length : Nat) : List Nat → Bytes → Bytes → Bytes
  | [], out, _ => out
  | counter :: counters, out, t =>
    let h := (hmacBlake2s crypto prk.1 (t ++ info ++ [UInt8.ofNat counter])).1
    let out := out ++ h.take (min (length - out.length) 32)
    if out.length = length then out else expandFrom prk info length counters out h

/-- `expand`: HKDF-Expand with BLAKE2s-256. -/
def expand (prk : Octets 32) (info : Bytes) (length : Nat) : Except HkdfError Bytes :=
  if length > 255 * 32 then .error .lengthOutOfRange
  else .ok (expandFrom crypto prk info length (List.range' 1 255) [] [])

/-- `LABEL_PREFIX`, in front of every label of `expand_label`. -/
def labelPrefix : Bytes := ascii "ump v1 "

def expandLabel (secret : Octets 32) (label context : Bytes) (length : Nat) :
    Except HkdfError Bytes :=
  if length > 65535 then .error .lengthOutOfRange
  else if context.length > 65535 then .error .contextTooLong
  else
    let info := toBeBytes 2 length ++ labelPrefix ++ label ++ toBeBytes 2 context.length ++ context
    expand crypto secret info length

/-- The labels of the keys derived from a traffic secret. -/
def packetKeyLabel : Bytes := ascii "packet key"
def packetIvLabel : Bytes := ascii "packet iv"
def headerProtectionLabel : Bytes := ascii "header protection"
def trafficUpdateLabel : Bytes := ascii "traffic update"

/-- `next_traffic_secret`; the expansion it unwraps does not fail, since label and length are short. -/
def nextTrafficSecret (current : Octets 32) : Octets 32 :=
  match expandLabel crypto current trafficUpdateLabel [] 32 with
  | .ok out => copyInto 32 out
  | .error _ => copyInto 32 []

def headerProtectionKey (secret : Octets 32) : Octets 32 :=
  match expandLabel crypto secret headerProtectionLabel [] 32 with
  | .ok expanded => copyInto 32 expanded
  | .error _ => copyInto 32 []

structure PacketKeys where
  key : Octets 32
  iv : Octets 12
  hpKey : Octets 32
  deriving DecidableEq

namespace PacketKeys

def fromTrafficSecret (secret : Octets 32) : Except AeadError PacketKeys := do
  let key ← (expandLabel crypto secret packetKeyLabel [] 32).mapError fun _ => .invalidKeyLength
  let iv ← (expandLabel crypto secret packetIvLabel [] 12).mapError fun _ => .invalidKeyLength
  return { key := copyInto 32 key, iv := copyInto 12 iv, hpKey := headerProtectionKey crypto secret }

/-- `nonce_for`: the IV under XOR with the packet number in 96 bits. -/
def nonceFor (keys : PacketKeys) (packetNumber : Nat) : Octets 12 :=
  ⟨xorWith keys.iv.1 (List.replicate 4 0 ++ toBeBytes 8 packetNumber), by simp [keys.iv.2]⟩

/-- `PacketKeys::seal`. -/
def sealPacket (keys : PacketKeys) (packetNumber : Nat) (aad plaintext : Bytes) :
    Except AeadError Bytes :=
  match crypto.encrypt keys.key (keys.nonceFor packetNumber) aad plaintext with
  | some ciphertext => .ok ciphertext
  | none => .error .decryptFailed

/-- `PacketKeys::open`. -/
def openPacket (keys : PacketKeys) (packetNumber : Nat) (aad ciphertext : Bytes) :
    Except AeadError Bytes :=
  match crypto.decrypt keys.key (keys.nonceFor packetNumber) aad ciphertext with
  | some plaintext => .ok plaintext
  | none => .error .decryptFailed

theorem nonceFor_injective (keys : PacketKeys) (word : pn ≤ u64Max) (word' : other ≤ u64Max)
    (same : keys.nonceFor pn = keys.nonceFor other) : pn = other := by
  have size : ∀ n, (List.replicate 4 0 ++ toBeBytes 8 n).length = keys.iv.1.length := by simp [keys.iv.2]
  have bytes := List.append_cancel_left (xorWith_injective (size pn) (size other) (Subtype.ext_iff.mp same))
  have values := congrArg fromBeBytes bytes
  have limit : u64Max < 256 ^ 8 := by decide
  rwa [fromBeBytes_toBeBytes, fromBeBytes_toBeBytes, Nat.mod_eq_of_lt (by omega), Nat.mod_eq_of_lt (by omega)]
    at values

/-- What is sealed opens to what it was sealed from. -/
def OpensSealed : Prop :=
  ∀ key nonce aad msg sealed, crypto.encrypt key nonce aad msg = some sealed →
    crypto.decrypt key nonce aad sealed = some msg

/-- A ciphertext opens under no other nonce than the one it was sealed under. -/
def BindsNonce : Prop :=
  ∀ key nonce other aad msg sealed, crypto.encrypt key nonce aad msg = some sealed → other ≠ nonce →
    crypto.decrypt key other aad sealed = none

/-- ChaCha20-Poly1305 appends a tag of 16 bytes. -/
def AppendsTag : Prop :=
  ∀ key nonce aad msg sealed, crypto.encrypt key nonce aad msg = some sealed → sealed.length = msg.length + 16

variable {aad ciphertext plaintext : Bytes} {keys : PacketKeys}

theorem sealPacket_length (tagged : AppendsTag crypto)
    (sealed : keys.sealPacket crypto packetNumber aad plaintext = .ok ciphertext) :
    ciphertext.length = plaintext.length + 16 := by
  unfold sealPacket at sealed
  split at sealed <;> cases sealed
  next sealing => exact tagged _ _ _ _ _ sealing

theorem openPacket_of_sealPacket (opens : OpensSealed crypto)
    (sealed : keys.sealPacket crypto packetNumber aad plaintext = .ok ciphertext) :
    keys.openPacket crypto packetNumber aad ciphertext = .ok plaintext := by
  unfold sealPacket at sealed
  split at sealed <;> cases sealed
  rename_i sealing
  rw [openPacket, opens _ _ _ _ _ sealing]

theorem openPacket_of_ne (binds : BindsNonce crypto) (word : pn ≤ u64Max) (word' : other ≤ u64Max)
    (different : other ≠ pn) (sealed : keys.sealPacket crypto pn aad plaintext = .ok ciphertext) :
    keys.openPacket crypto other aad ciphertext = .error .decryptFailed := by
  unfold sealPacket at sealed
  split at sealed <;> cases sealed
  next sealing =>
    have nonces : keys.nonceFor other ≠ keys.nonceFor pn := fun same =>
      different (keys.nonceFor_injective word' word same)
    rw [openPacket, binds _ _ _ _ _ _ sealing nonces]

end PacketKeys

def maskLen : Nat := 5
def sampleLen : Nat := 16

variable (hpKey : Octets 32)

/-- `mask`: the sample's first four bytes are the block counter, little-endian,
and the other twelve the nonce. -/
def mask (packetNumberSample : Bytes) : Octets maskLen :=
  let sample := (copyInto sampleLen (packetNumberSample.take sampleLen)).1
  let counter := fromBeBytes (sample.take 4).reverse
  crypto.keystream hpKey (copyInto 12 (sample.drop 4)) (counter * 64) maskLen

/-- The bit of the first byte that the mask covers. -/
def maskFirst (first : UInt8) (m : Octets maskLen) : UInt8 := first ^^^ (m.1.getD 4 0 &&& 0x10)

/-- `protect`: the first byte and the packet number bytes under the mask. -/
def protect (first : UInt8) (sample pn : Bytes) : UInt8 × Bytes :=
  let m := mask crypto hpKey sample
  (maskFirst first m, xorWith pn m.1)

/-- `unprotect`: the first byte, its key phase and the packet number bytes. -/
def unprotect (protectedFirst : UInt8) (sample protectedPn : Bytes) : UInt8 × Bool × Bytes :=
  let m := mask crypto hpKey sample
  let first := maskFirst protectedFirst m
  (first, first &&& 0x10 != 0, xorWith protectedPn m.1)

theorem unprotect_protect (first : UInt8) (sample pn : Bytes) :
    unprotect crypto hpKey (protect crypto hpKey first sample pn).1 sample
        (protect crypto hpKey first sample pn).2 =
      (first, first &&& 0x10 != 0, pn) := by
  have restored : maskFirst (maskFirst first (mask crypto hpKey sample)) (mask crypto hpKey sample) = first := by
    rw [maskFirst, maskFirst, UInt8.xor_assoc, UInt8.xor_self, UInt8.xor_zero]
  simp only [unprotect, protect, restored, xorWith_xorWith]

end

/-- Primitives for runs on fixed inputs: a checksum for the hash, a cipher that only appends a tag, a keystream
of zeros. -/
def transparent : Primitives :=
  { blake2s := fun data => copyInto 32 (toBeBytes 8 (data.map UInt8.toNat).sum)
    encrypt := fun _ _ _ msg => some (msg ++ List.replicate 16 0)
    decrypt := fun _ _ _ msg => if msg.length < 16 then none else some (msg.take (msg.length - 16))
    keystream := fun _ _ _ length => copyInto length [] }

/-- The same with a cipher whose tag is the nonce, checked when a message is opened. -/
def nonceTagged : Primitives :=
  { transparent with
    encrypt := fun _ nonce _ msg => some (msg ++ (nonce.1 ++ List.replicate 4 0))
    decrypt := fun _ nonce _ msg =>
      if 16 ≤ msg.length ∧ msg.drop (msg.length - 16) = nonce.1 ++ List.replicate 4 0 then
        some (msg.take (msg.length - 16))
      else none }

theorem nonceTagged_opens (sealing : nonceTagged.encrypt key nonce aad msg = some sealed) :
    nonceTagged.decrypt key other aad sealed = if other = nonce then some msg else none := by
  obtain rfl : msg ++ (nonce.1 ++ List.replicate 4 0) = sealed := Option.some.inj sealing
  have size : (msg ++ (nonce.1 ++ List.replicate 4 0)).length - 16 = msg.length := by simp [nonce.2]
  have long : 16 ≤ (msg ++ (nonce.1 ++ List.replicate 4 0)).length := by simp [nonce.2]
  have tag : nonce.1 ++ List.replicate 4 0 = other.1 ++ List.replicate 4 0 ↔ other = nonce := by
    rw [List.append_cancel_right_eq, Subtype.ext_iff, eq_comm]
  simp only [nonceTagged, size, long, List.drop_left, List.take_left, true_and, tag]

theorem nonceTagged_bindsNonce : PacketKeys.BindsNonce nonceTagged := by
  intro key nonce other aad msg sealed sealing different
  rw [nonceTagged_opens sealing, if_neg different]

end UniversalMesh.Crypto
