import UniversalMesh.Crypto.PacketKeys
import UniversalMesh.Discovery.Invitation

/-! `umc-handshake/src/psk.rs`: the authenticator by which the client of a PSK-XX handshake shows that it holds
an invitation. `umc-discovery/src/invitation.rs` computes the same. -/
namespace UniversalMesh.Handshake
open MachineWord Wire Crypto Discovery InvitationStore

def invitationAuthLen : Nat := 16

/-- The label of the key that proves an invitation. -/
def invitationAuthLabel : Bytes := ascii "UMP-INVITE-AUTH-v1"

/-- What the authenticator is computed over, besides the invitation key. -/
structure AdmissionContext where
  (clientRandom clientEphemeralPublicKey : Octets 32)
  (destinationConnectionId carrierBinding : Bytes)
  deriving DecidableEq

namespace AdmissionContext

def bytes (context : AdmissionContext) : Bytes :=
  invitationAuthLabel ++ (context.clientRandom.1 ++ (context.clientEphemeralPublicKey.1 ++
    (context.destinationConnectionId ++ context.carrierBinding)))

/-- The authenticator before it is truncated. -/
def fullAuthenticator (hmac : Bytes → Bytes → τ) (invitationKey : Octets 32) (context : AdmissionContext) : τ :=
  hmac invitationKey.1 context.bytes

def invitationAuthenticator (crypto : Primitives) (invitationKey : Octets 32) (context : AdmissionContext) :
    Octets invitationAuthLen :=
  copyInto _ (context.fullAuthenticator (hmacBlake2s crypto) invitationKey).1

def verifyInvitationAuthenticator (crypto : Primitives) (invitationKey : Octets 32) (context : AdmissionContext)
    (received : Bytes) : Bool :=
  received.length == invitationAuthLen &&
    (received.zip (context.invitationAuthenticator crypto invitationKey).1).foldl
      (fun difference pair => difference ||| (pair.1 ^^^ pair.2)) 0 == 0

variable {first second : AdmissionContext}

theorem bytes_eq_iff : first.bytes = second.bytes ↔
    first.clientRandom = second.clientRandom ∧
      first.clientEphemeralPublicKey = second.clientEphemeralPublicKey ∧
        first.destinationConnectionId ++ first.carrierBinding =
          second.destinationConnectionId ++ second.carrierBinding := by
  have same (left right : Octets 32) : left.1.length = right.1.length := left.2.trans right.2.symm
  rw [bytes, bytes, List.append_cancel_left_eq, List.append_eq_append_iff_of_size_eq_left (same _ _),
    List.append_eq_append_iff_of_size_eq_left (same _ _), Subtype.ext_iff, Subtype.ext_iff]

/-- Contexts with one authenticator are equal exactly if their connection ids have the same length: the
message does not say where the connection id ends and the carrier binding begins. -/
theorem fullAuthenticator_binds_iff (hmac : Bytes → Bytes → τ) (invitationKey : Octets 32)
    (injective : Function.Injective (hmac invitationKey.1))
    (same : first.fullAuthenticator hmac invitationKey = second.fullAuthenticator hmac invitationKey) :
    first = second ↔ first.destinationConnectionId.length = second.destinationConnectionId.length := by
  obtain ⟨random, ephemeral, joined⟩ := bytes_eq_iff.mp (injective same)
  constructor
  · rintro rfl
    rfl
  · intro lengths
    obtain ⟨id, binding⟩ := List.append_inj joined lengths
    cases first
    cases second
    simp_all

/-- The byte `2` in the connection id, or in front of the carrier binding. -/
def sampleContext (inId : Bool) : AdmissionContext :=
  ⟨.fill 32 8, .fill 32 9, if inId then [1, 2] else [1], if inId then [3] else [2, 3]⟩

theorem fullAuthenticator_binds_sample :
    sampleContext true = sampleContext false ↔
      (sampleContext true).destinationConnectionId.length =
        (sampleContext false).destinationConnectionId.length :=
  fullAuthenticator_binds_iff (fun _ message => message) (.fill 32 7) Function.injective_id rfl

theorem verify_eq_true_iff : first.verifyInvitationAuthenticator crypto invitationKey received = true ↔
    received = (first.invitationAuthenticator crypto invitationKey).1 := by
  have vanishes {actual expected : Bytes} {seen : UInt8} (lengths : actual.length = expected.length) :
      (actual.zip expected).foldl (fun difference pair => difference ||| (pair.1 ^^^ pair.2)) seen = 0 ↔
        seen = 0 ∧ actual = expected := by
    induction actual generalizing expected seen with
    | nil => simp [List.eq_nil_of_length_eq_zero lengths.symm]
    | cons byte rest ih =>
      cases expected with
      | nil => cases lengths
      | cons other more => simp [ih (Nat.succ.inj lengths), and_assoc]
  have width := (first.invitationAuthenticator crypto invitationKey).2
  grind [verifyInvitationAuthenticator]

theorem verify_invitationAuthenticator (crypto : Primitives) (invitationKey : Octets 32) (context : AdmissionContext) :
    context.verifyInvitationAuthenticator crypto invitationKey
      (context.invitationAuthenticator crypto invitationKey).1 = true :=
  verify_eq_true_iff.mpr rfl

/-- The authenticator made for one connection id and carrier binding is accepted for another, whatever the key
and the hash function are. -/
theorem recut_context_accepted :
    (∀ (crypto : Primitives) (invitationKey : Octets 32),
      (sampleContext false).verifyInvitationAuthenticator crypto invitationKey
        ((sampleContext true).invitationAuthenticator crypto invitationKey).1 = true) ∧
      sampleContext true ≠ sampleContext false :=
  ⟨fun crypto invitationKey => verify_invitationAuthenticator crypto invitationKey (sampleContext false), by decide⟩

end AdmissionContext

/-- The modes of a handshake without and with a pre-shared key. -/
def modeXx : Bytes := ascii "XX"
def modePskXx : Bytes := ascii "PSK-XX"

inductive PskAdmissionError where
  | unsupportedMode | missingAuthenticator | invalidAuthenticator

/-- What the admission reads of a hello, and the connection id and carrier it came with. -/
structure ClientHello extends AdmissionContext where
  supportedHandshakeModes : List Bytes
  invitationAuthenticator : Bytes

namespace ClientHello
variable (crypto : Primitives) (hello : ClientHello)

def offersPskXx : Bool := hello.supportedHandshakeModes.contains modePskXx

def verifyClientHello (invitationKey : Octets 32) : Except PskAdmissionError Unit :=
  if !hello.offersPskXx then .error .unsupportedMode
  else if hello.invitationAuthenticator.isEmpty then .error .missingAuthenticator
  else if !hello.verifyInvitationAuthenticator crypto invitationKey hello.invitationAuthenticator then
    .error .invalidAuthenticator
  else .ok ()

/-- The gate of `unix_main.rs`, for a hello that no session ticket resumed: the key of the invitation that
admits it. -/
def pskKey (store : InvitationStore) (traversal : Traversal (Octets 16 × Invitation)) (nowMs : UInt64) :
    Option (Octets 32) :=
  if hello.offersPskXx then
    (store.authenticate traversal nowMs fun key => (hello.verifyClientHello crypto key).isOk).1.toOption
  else none

/-- `selected_mode` of `handshake_responder.rs`, for a hello that passed the checks before it, on the carrier, the
realm, the version, the crypto profile, the privacy floor and the capabilities hash. Without a mode the admission
failed. -/
def selectedMode (invitationKey : Option (Octets 32)) : Option Bytes :=
  if !hello.offersPskXx then some modeXx
  else if invitationKey.any fun key => (hello.verifyClientHello crypto key).isOk then some modePskXx
  else none

theorem verifyClientHello_isOk (offered : hello.offersPskXx = true) (invitationKey : Octets 32) :
    (hello.verifyClientHello crypto invitationKey).isOk = true ↔
      hello.invitationAuthenticator = (hello.toAdmissionContext.invitationAuthenticator crypto invitationKey).1 := by
  rw [← AdmissionContext.verify_eq_true_iff, verifyClientHello, offered]
  cases hello.invitationAuthenticator with
  | nil => rfl
  | cons byte rest => grind [Except.toBool, List.isEmpty_cons]

/-- The gate and the responder together, for a hello that comes so far: one that offers PSK-XX is answered in
that mode exactly if it bears the authenticator of the invitation met first, and otherwise not at all. -/
theorem selectedMode_pskKey (store : InvitationStore) (traversal : Traversal (Octets 16 × Invitation))
    (nowMs : UInt64) (mode : Bytes) :
    hello.selectedMode crypto (hello.pskKey crypto store traversal nowMs) = some mode ↔
      if hello.offersPskXx then mode = modePskXx ∧ ∃ entry, store.firstUnconsumed traversal nowMs = some entry ∧
        store.Offers nowMs entry ∧ hello.invitationAuthenticator =
          (hello.toAdmissionContext.invitationAuthenticator crypto entry.2.key).1
      else mode = modeXx := by
  unfold selectedMode pskKey
  cases offered : hello.offersPskXx with
  | false => simp [eq_comm]
  | true =>
    cases first : store.firstUnconsumed traversal nowMs with
    | none => simp [authenticate, first, Except.toOption]
    | some entry =>
      rw [authenticate_of_first first]
      by_cases accepted : (hello.verifyClientHello crypto entry.2.key).isOk = true
      · simp [accepted, ← hello.verifyClientHello_isOk crypto offered, firstUnconsumed_offers first, Except.toOption]
        exact eq_comm
      · simp [accepted, ← hello.verifyClientHello_isOk crypto offered, Except.toOption]

end ClientHello
end UniversalMesh.Handshake
