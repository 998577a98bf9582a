import UniversalMesh.Crypto.PacketKeys
import UniversalMesh.Lib.OrderedMap
import UniversalMesh.Lib.Run

/-! Capability grants of `grants.rs`: the grants as they travel, and the evaluator they are turned into. Times
are in milliseconds; the wire has signed times, with zero for no expiry. -/
namespace UniversalMesh.Control
open MachineWord Wire

inductive Capability where
  | unspecified | nodeRead | nodeAdmin | nodeShutdown | identityRead | identityCreate
  | identityRotate | identityExportPublic | identityExportSecret | identityDelete | identityDelegate
  | carrierRead | carrierAdmin | peerRead | peerAdmin | trustAdmin | routeRead | routeProbe
  | sessionRead | sessionClose | sessionMigrate | bundleRead | bundleCreate | bundleDelete
  | relayRead | relayAdmin | applicationRegister | applicationConnect | applicationListen
  | applicationStream | applicationDatagram | discoveryRead | discoveryRun | diagnosticsRead
  | diagnosticsSensitive | eventSubscribe | tokenAdmin
  deriving DecidableEq, Repr

namespace Capability

/-- The number of a capability on the wire. -/
def number : Capability → Int
  | unspecified => 0
  | nodeRead => 1
  | nodeAdmin => 2
  | nodeShutdown => 3
  | identityRead => 10
  | identityCreate => 11
  | identityRotate => 12
  | identityExportPublic => 13
  | identityExportSecret => 14
  | identityDelete => 15
  | identityDelegate => 16
  | carrierRead => 20
  | carrierAdmin => 21
  | peerRead => 30
  | peerAdmin => 31
  | trustAdmin => 32
  | routeRead => 40
  | routeProbe => 41
  | sessionRead => 50
  | sessionClose => 51
  | sessionMigrate => 52
  | bundleRead => 60
  | bundleCreate => 61
  | bundleDelete => 62
  | relayRead => 70
  | relayAdmin => 71
  | applicationRegister => 80
  | applicationConnect => 81
  | applicationListen => 82
  | applicationStream => 83
  | applicationDatagram => 84
  | discoveryRead => 90
  | discoveryRun => 91
  | diagnosticsRead => 100
  | diagnosticsSensitive => 101
  | eventSubscribe => 110
  | tokenAdmin => 120

def all : List Capability :=
  [unspecified, nodeRead, nodeAdmin, nodeShutdown, identityRead, identityCreate, identityRotate,
    identityExportPublic, identityExportSecret, identityDelete, identityDelegate, carrierRead, carrierAdmin,
    peerRead, peerAdmin, trustAdmin, routeRead, routeProbe, sessionRead, sessionClose, sessionMigrate, bundleRead,
    bundleCreate, bundleDelete, relayRead, relayAdmin, applicationRegister, applicationConnect, applicationListen,
    applicationStream, applicationDatagram, discoveryRead, discoveryRun, diagnosticsRead, diagnosticsSensitive,
    eventSubscribe, tokenAdmin]

/-- `api::Capability::try_from`. -/
def ofNumber (number : Int) : Option Capability := all.find? fun capability => capability.number = number

end Capability

/-- `api::ResourceConstraints`; the enumerations in it are numbers on the wire. -/
structure ResourceConstraints where
  allResources : Bool := false
  endpointIds : List Bytes := []
  protocolIds : List String := []
  destinationEndpointIds : List Bytes := []
  carrierTypeIds : List String := []
  peerEndpointIds : List Bytes := []
  trustStates : List Int := []
  maximumSessions : Nat := 0
  maximumStreams : Nat := 0
  maximumPendingBytes : Nat := 0
  maximumDatagramSize : Nat := 0
  routeScopes : List Int := []
  relayModes : List Int := []
  maximumBundleBytes : Nat := 0
  deriving DecidableEq

structure CapabilityGrant where
  grantId : Bytes := []
  capability : Int
  constraints : Option ResourceConstraints := none
  expiresAtUnixMs : Int := 0
  delegable : Bool := false
  deriving DecidableEq

structure Grant where
  grantId : Nat
  capabilities : List Capability
  resourceConstraints : Option ResourceConstraints
  expiresAtMs : Option Nat
  deriving DecidableEq

/-- A time before an expiry, if there is one. -/
def beforeExpiry (nowMs : Nat) : Option Nat → Bool
  | none => true
  | some expiry => nowMs < expiry

namespace Grant

def isUnexpired (grant : Grant) (nowMs : Nat) : Bool := beforeExpiry nowMs grant.expiresAtMs

/-- The end of the closure of `resource_allowed`. -/
def reaches (constraints : Option ResourceConstraints) (endpointId : Bytes) : Bool :=
  match constraints with
  | none => true
  | some limits => limits.allResources || limits.endpointIds.contains endpointId

end Grant

/-- The expiry of a time on the wire that is not negative. -/
def expiryOf (expiresAtUnixMs : Int) : Option Nat :=
  if expiresAtUnixMs = 0 then none else some expiresAtUnixMs.toNat

abbrev GrantSet := List Grant

namespace GrantSet

/-- The grant `from_api` makes of one that travelled, if it takes it. -/
def convert (grant : CapabilityGrant) (index : Nat) : Option Grant :=
  match Capability.ofNumber grant.capability with
  | none => none
  | some capability =>
    if capability = .unspecified ∨ grant.expiresAtUnixMs < 0 then none
    else some { grantId := index, capabilities := [capability], resourceConstraints := grant.constraints
                expiresAtMs := expiryOf grant.expiresAtUnixMs }

def fromApi (grants : List CapabilityGrant) : GrantSet :=
  grants.zipIdx.filterMap fun indexed => convert indexed.1 indexed.2

def allows (set : GrantSet) (capability : Capability) (nowMs : Nat) : Bool :=
  set.any fun grant => grant.isUnexpired nowMs && grant.capabilities.contains capability

def resourceAllowed (set : GrantSet) (capability : Capability) (endpointId : Bytes) (nowMs : Nat) : Bool :=
  set.any fun grant => grant.isUnexpired nowMs && grant.capabilities.contains capability &&
    Grant.reaches grant.resourceConstraints endpointId

end GrantSet

namespace CapabilityGrant

/-- A grant of a capability that has not expired. -/
def InForce (grant : CapabilityGrant) (capability : Capability) (nowMs : Nat) : Prop :=
  Capability.ofNumber grant.capability = some capability ∧ capability ≠ .unspecified ∧
    0 ≤ grant.expiresAtUnixMs ∧ (grant.expiresAtUnixMs = 0 ∨ (nowMs : Int) < grant.expiresAtUnixMs)
  deriving Decidable

end CapabilityGrant

theorem beforeExpiry_expiryOf (sound : 0 ≤ expiry) :
    beforeExpiry nowMs (expiryOf expiry) = true ↔ expiry = 0 ∨ (nowMs : Int) < expiry := by
  unfold expiryOf
  split
  case isTrue unlimited => simp [beforeExpiry, unlimited]
  case isFalse limited =>
    simp only [beforeExpiry, decide_eq_true_eq, limited, false_or]
    omega

namespace GrantSet

variable {grants : List CapabilityGrant} {capability : Capability} {nowMs : Nat} {endpointId : Bytes}

theorem convert_some (converted : convert grant index = some made) :
    made.resourceConstraints = grant.constraints ∧
      ((made.isUnexpired nowMs && made.capabilities.contains capability) = true ↔
        grant.InForce capability nowMs) := by
  unfold convert at converted
  split at converted
  case h_1 => cases converted
  case h_2 own known =>
    split at converted
    case isTrue => cases converted
    case isFalse taken =>
      obtain ⟨specified, sound⟩ := not_or.mp taken
      cases converted
      refine ⟨rfl, ?_⟩
      rw [Bool.and_eq_true, Grant.isUnexpired, beforeExpiry_expiryOf (Int.not_lt.mp sound)]
      simp only [List.contains_cons, List.contains_nil, Bool.or_false, beq_iff_eq, CapabilityGrant.InForce, known,
        Option.some.injEq]
      constructor
      · rintro ⟨unexpired, rfl⟩
        exact ⟨rfl, specified, Int.not_lt.mp sound, unexpired⟩
      · rintro ⟨rfl, -, -, unexpired⟩
        exact ⟨unexpired, rfl⟩

theorem convert_of_inForce (force : grant.InForce capability nowMs) :
    ∃ made, convert grant index = some made := by
  obtain ⟨known, specified, sound, -⟩ := force
  rw [convert, known]
  exact ⟨_, if_neg (not_or.mpr ⟨specified, Int.not_lt.mpr sound⟩)⟩

theorem any_fromApi (holds : Option ResourceConstraints → Bool) :
    ((fromApi grants).any fun grant => grant.isUnexpired nowMs && grant.capabilities.contains capability &&
      holds grant.resourceConstraints) = true ↔
      ∃ grant ∈ grants, grant.InForce capability nowMs ∧ holds grant.constraints = true := by
  rw [List.any_eq_true]
  constructor
  · rintro ⟨made, member, passes⟩
    obtain ⟨⟨grant, index⟩, listed, converted⟩ := List.mem_filterMap.mp member
    obtain ⟨constraints, force⟩ := convert_some converted
    obtain ⟨active, held⟩ := Bool.and_eq_true_iff.mp passes
    exact ⟨grant, List.fst_mem_of_mem_zipIdx listed, force.mp active, constraints ▸ held⟩
  · rintro ⟨grant, listed, force, held⟩
    obtain ⟨index, found⟩ := List.mem_iff_getElem?.mp listed
    have indexed : (grant, index) ∈ grants.zipIdx := List.mk_mem_zipIdx_iff_getElem?.mpr found
    obtain ⟨made, converted⟩ := convert_of_inForce force
    obtain ⟨constraints, active⟩ := convert_some converted
    exact ⟨made, List.mem_filterMap.mpr ⟨(grant, index), indexed, converted⟩,
      Bool.and_eq_true_iff.mpr ⟨active.mpr force, constraints ▸ held⟩⟩

theorem allows_iff : (fromApi grants).allows capability nowMs = true ↔
    ∃ grant ∈ grants, grant.InForce capability nowMs := by
  have answer : ((fromApi grants).any fun grant => grant.isUnexpired nowMs &&
      grant.capabilities.contains capability && true) = true ↔
        ∃ grant ∈ grants, grant.InForce capability nowMs ∧ true = true := any_fromApi fun _ => true
  simpa [allows] using answer

theorem resourceAllowed_iff : (fromApi grants).resourceAllowed capability endpointId nowMs = true ↔
    ∃ grant ∈ grants, grant.InForce capability nowMs ∧ Grant.reaches grant.constraints endpointId = true :=
  any_fromApi fun constraints => Grant.reaches constraints endpointId

end GrantSet

/-! The methods of the control services, and the capability each needs: the table `required_capability` of
`control_authorization.rs`. A constructor `other` stands for the texts of a service that the table does not
have. -/

inductive NodeAdminMethod where
  | getStatus | getConfig | getEvents | updateConfig | reloadConfig | shutdown | other
  deriving DecidableEq, Repr

inductive ConfigMethod where
  | getConfig | setConfig | other
  deriving DecidableEq, Repr

inductive PeerMethod where
  | listPeers | getPeer | addPeerHint | removePeer | createInvitation | importInvitation | revokeInvitation
  | setTrustState | blockPeer | unblockPeer | listCandidates | other
  deriving DecidableEq, Repr

inductive DiscoveryMethod where
  | listCandidates | discoverServices | publishServiceHint | other
  deriving DecidableEq, Repr

inductive SessionMethod where
  | listSessions | getSession | listStreams | closeSession | migrateSession | other
  deriving DecidableEq, Repr

inductive RouteMethod where
  | listRoutes | getRoute | probeRoute | invalidateRoute | other
  deriving DecidableEq, Repr

inductive BundleMethod where
  | getBundles | listBundles | getBundle | createBundle | deleteBundle | other
  deriving DecidableEq, Repr

inductive RelayMethod where
  | getRelayStatus | listRelayCircuits | openCircuit | closeCircuit | updateRelayPolicy | closeRelayCircuit | other
  deriving DecidableEq, Repr

inductive IdentityMethod where
  | listIdentities | getIdentity | listDelegations | createIdentity | importIdentity | rotateHandshakeKey
  | rotateIdentityKey | exportPublicIdentity | exportSecretIdentity | deleteIdentity | createDelegation
  | importDelegation | revokeDelegation | other
  deriving DecidableEq, Repr

inductive CarrierMethod where
  | listCarrierTypes | listCarrierInstances | getCarrierInstance | listLinks | getLinkProperties | getLinkStats
  | createCarrierInstance | updateCarrierInstance | startCarrier | stopCarrier | deleteCarrierInstance | listen
  | dial | closeLink | other
  deriving DecidableEq, Repr

inductive ApplicationMethod where
  | registerApplication | unregisterApplication | closeListener | connect | openListener | acceptIncomingSession
  | rejectIncomingSession | openStream | acceptStream | rejectStream | readStream | writeStream | closeStreamSend
  | resetStream | stopStream | sendDatagram | receiveDatagram | other
  deriving DecidableEq, Repr

inductive DiagnosticsMethod where
  | runDoctor | doctor | getMetricsSnapshot | getSubsystemHealth | other
  deriving DecidableEq, Repr

inductive EventMethod where
  | subscribe | unsubscribe | other
  deriving DecidableEq, Repr

inductive TokenMethod where
  | listGrants | createToken | revokeToken | inspectCurrentGrant | other
  deriving DecidableEq, Repr

inductive Method where
  | nodeAdmin (method : NodeAdminMethod) | config (method : ConfigMethod)
  | peer (method : PeerMethod) | discovery (method : DiscoveryMethod)
  | session (method : SessionMethod) | route (method : RouteMethod) | bundle (method : BundleMethod)
  | relay (method : RelayMethod) | identity (method : IdentityMethod)
  | carrier (method : CarrierMethod) | application (method : ApplicationMethod)
  | diagnostics (method : DiagnosticsMethod) | event (method : EventMethod)
  | token (method : TokenMethod) | other
  deriving DecidableEq, Repr

namespace Method

/-- `request.service == "TokenService"`. -/
def isToken : Method → Bool
  | token _ => true
  | _ => false

end Method

def nodeAdminCapability : NodeAdminMethod → Option Capability
  | .getStatus | .getConfig | .getEvents => some .nodeRead
  | .updateConfig | .reloadConfig => some .nodeAdmin
  | .shutdown => some .nodeShutdown
  | .other => none

def configCapability : ConfigMethod → Option Capability
  | .getConfig => some .nodeRead
  | .setConfig => some .nodeAdmin
  | .other => none

def peerCapability : PeerMethod → Option Capability
  | .listPeers | .getPeer => some .peerRead
  | .addPeerHint | .removePeer | .createInvitation | .importInvitation | .revokeInvitation => some .peerAdmin
  | .setTrustState | .blockPeer | .unblockPeer => some .trustAdmin
  | .listCandidates => some .discoveryRead
  | .other => none

def discoveryCapability : DiscoveryMethod → Option Capability
  | .listCandidates | .discoverServices => some .discoveryRead
  | .publishServiceHint => some .discoveryRun
  | .other => none

def sessionCapability : SessionMethod → Option Capability
  | .listSessions | .getSession | .listStreams => some .sessionRead
  | .closeSession => some .sessionClose
  | .migrateSession => some .sessionMigrate
  | .other => none

def routeCapability : RouteMethod → Option Capability
  | .listRoutes | .getRoute => some .routeRead
  | .probeRoute | .invalidateRoute => some .routeProbe
  | .other => none

def bundleCapability : BundleMethod → Option Capability
  | .getBundles | .listBundles | .getBundle => some .bundleRead
  | .createBundle => some .bundleCreate
  | .deleteBundle => some .bundleDelete
  | .other => none

def relayCapability : RelayMethod → Option Capability
  | .getRelayStatus | .listRelayCircuits => some .relayRead
  | .openCircuit | .closeCircuit | .updateRelayPolicy | .closeRelayCircuit => some .relayAdmin
  | .other => none

def identityCapability : IdentityMethod → Option Capability
  | .listIdentities | .getIdentity | .listDelegations => some .identityRead
  | .createIdentity | .importIdentity => some .identityCreate
  | .rotateHandshakeKey | .rotateIdentityKey => some .identityRotate
  | .exportPublicIdentity => some .identityExportPublic
  | .exportSecretIdentity => some .identityExportSecret
  | .deleteIdentity => some .identityDelete
  | .createDelegation | .importDelegation | .revokeDelegation => some .identityDelegate
  | .other => none

def carrierCapability : CarrierMethod → Option Capability
  | .listCarrierTypes | .listCarrierInstances | .getCarrierInstance | .listLinks | .getLinkProperties
  | .getLinkStats => some .carrierRead
  | .createCarrierInstance | .updateCarrierInstance | .startCarrier | .stopCarrier | .deleteCarrierInstance
  | .listen | .dial | .closeLink => some .carrierAdmin
  | .other => none

def applicationCapability : ApplicationMethod → Option Capability
  | .registerApplication | .unregisterApplication | .closeListener => some .applicationRegister
  | .connect => some .applicationConnect
  | .openListener => some .applicationListen
  | .acceptIncomingSession | .rejectIncomingSession | .openStream | .acceptStream | .rejectStream | .readStream
  | .writeStream | .closeStreamSend | .resetStream | .stopStream => some .applicationStream
  | .sendDatagram | .receiveDatagram => some .applicationDatagram
  | .other => none

def diagnosticsCapability : DiagnosticsMethod → Option Capability
  | .runDoctor | .doctor | .getMetricsSnapshot | .getSubsystemHealth => some .diagnosticsRead
  | .other => none

def eventCapability : EventMethod → Option Capability
  | .subscribe | .unsubscribe => some .eventSubscribe
  | .other => none

def tokenCapability : TokenMethod → Option Capability
  | .listGrants | .createToken | .revokeToken | .inspectCurrentGrant => some .tokenAdmin
  | .other => none

/-- `required_capability`; `none` needs no grant. -/
def requiredCapability : Method → Option Capability
  | .nodeAdmin method => nodeAdminCapability method
  | .config method => configCapability method
  | .peer method => peerCapability method
  | .discovery method => discoveryCapability method
  | .session method => sessionCapability method
  | .route method => routeCapability method
  | .bundle method => bundleCapability method
  | .relay method => relayCapability method
  | .identity method => identityCapability method
  | .carrier method => carrierCapability method
  | .application method => applicationCapability method
  | .diagnostics method => diagnosticsCapability method
  | .event method => eventCapability method
  | .token method => tokenCapability method
  | .other => none

/-! Bearer tokens: the registry of `auth.rs`, the part of the runtime state that the control plane consults, and
the handlers of `server.rs`. Principal ids count up and are not reused, which the registry carries as an
invariant. -/

open Crypto OrderedMap

structure TokenRecord where
  principalId : Nat
  expiresAtMs : Option Nat
  deriving DecidableEq

/-- `TokenRegistry`: the records by the hash of the token. -/
structure TokenRegistry where
  nextId : Nat
  tokens : OrderedMap Bytes TokenRecord
  below : ∀ entry ∈ tokens, entry.2.principalId < nextId

inductive AuthError where
  | unknownToken | expired
  deriving DecidableEq, Repr

/-- The domain that tokens are hashed in. -/
def tokenDomain : Bytes := ascii "UMC-API-TOKEN-v1"

def tokenHash (crypto : Primitives) (token : Bytes) : Bytes := (crypto.blake2s (tokenDomain ++ token)).val

namespace TokenRegistry

def new : TokenRegistry :=
  { nextId := 1
    tokens := .empty
    below := fun _ member => absurd member not_mem_empty }

/-- The principal of a token that is registered and has not expired. -/
def authenticate (crypto : Primitives) (registry : TokenRegistry) (token : Bytes) (nowMs : Nat) :
    Except AuthError Nat :=
  match registry.tokens.get? (tokenHash crypto token) with
  | none => .error .unknownToken
  | some record => if beforeExpiry nowMs record.expiresAtMs then .ok record.principalId else .error .expired

theorem below_insert (registry : TokenRegistry) (hash : Bytes) (expiresAtMs : Option Nat) :
    ∀ entry ∈ registry.tokens.insert hash ⟨registry.nextId, expiresAtMs⟩,
      entry.2.principalId < registry.nextId + 1 :=
  forall_mem_insert (Nat.lt_succ_self _) fun entry held => Nat.lt_succ_of_lt (registry.below entry held)

/-- `TokenRegistry::create_token` with the bytes the entropy source gives; it returns `next_id`. -/
def createToken (crypto : Primitives) (registry : TokenRegistry) (expiresAtMs : Option Nat) (raw : Bytes) :
    TokenRegistry :=
  { nextId := registry.nextId + 1
    tokens := registry.tokens.insert (tokenHash crypto raw) ⟨registry.nextId, expiresAtMs⟩
    below := registry.below_insert _ _ }

def revoke (registry : TokenRegistry) (principalId : Nat) : TokenRegistry :=
  { nextId := registry.nextId
    tokens := registry.tokens.filter fun entry => entry.2.principalId ≠ principalId
    below := fun entry member => registry.below entry (mem_filter.mp member).1 }

section
variable {crypto : Primitives} {registry : TokenRegistry} {token raw hash : Bytes} {nowMs principalId : Nat}
  {expiresAtMs : Option Nat} {record : TokenRecord}

theorem authenticate_ok : registry.authenticate crypto token nowMs = .ok principalId ↔
    ∃ expiresAtMs, (tokenHash crypto token, ⟨principalId, expiresAtMs⟩) ∈ registry.tokens ∧
      beforeExpiry nowMs expiresAtMs = true := by
  simp only [← get?_eq_some]
  unfold authenticate
  cases registry.tokens.get? (tokenHash crypto token) with
  | none => simp
  | some record =>
    obtain ⟨owner, expiry⟩ := record
    simp only [Option.some.injEq, TokenRecord.mk.injEq, and_assoc, exists_and_left, exists_eq_left']
    split
    case isTrue live => simp [live]
    case isFalse expired => simp [expired]

theorem mem_createToken_older (fresh : registry.tokens.get? (tokenHash crypto raw) = none)
    (older : record.principalId < registry.nextId) :
    (hash, record) ∈ (registry.createToken crypto expiresAtMs raw).tokens ↔ (hash, record) ∈ registry.tokens := by
  rw [createToken, mem_insert]
  constructor
  · rintro (made | ⟨held, -⟩)
    · cases made
      exact absurd older (Nat.lt_irrefl _)
    · exact held
  · intro held
    refine .inr ⟨held, ?_⟩
    rintro rfl
    exact get?_eq_none.mp fresh record held

theorem mem_createToken_self :
    (tokenHash crypto raw, ⟨registry.nextId, expiresAtMs⟩) ∈ (registry.createToken crypto expiresAtMs raw).tokens :=
  mem_insert.mpr (.inl rfl)

theorem mem_revoke : (hash, record) ∈ (registry.revoke principalId).tokens ↔
    (hash, record) ∈ registry.tokens ∧ record.principalId ≠ principalId := by
  rw [revoke, mem_filter, decide_eq_true_eq]

end

end TokenRegistry

/-- What the control plane reads of `RuntimeState`. -/
structure ControlState where
  developmentToken : Option Bytes
  tokenRegistry : TokenRegistry
  tokenGrants : OrderedMap Nat (List CapabilityGrant)
  /-- The endpoint id of the primary identity. -/
  nodeEndpointId : Octets 32
  /-- The record names and endpoint ids of the secondary identities. -/
  secondaries : List (String × Octets 32)
  /-- `sessions.lookup`, to the peer's endpoint id. -/
  sessionPeer : UInt64 → Option (Octets 32)

/-- `api::StatusCode`, as far as the modelled functions return it. -/
inductive StatusCode where
  | invalidArgument | notFound | permissionDenied | unauthenticated | internal
  deriving DecidableEq, Repr

structure CreateTokenRequest where
  grants : List CapabilityGrant
  expiresAtUnixMs : Int
  deriving DecidableEq

namespace ControlState

/-- The grants of a principal, none if it has no entry. -/
def grantsOf (state : ControlState) (principalId : Nat) : List CapabilityGrant :=
  (state.tokenGrants.get? principalId).getD []

/-- The handler `create_token`. If the record could not be persisted, the token is revoked again. -/
def createToken (crypto : Primitives) (state : ControlState) (create : CreateTokenRequest) (raw : Bytes)
    (persisted : Bool) : Except StatusCode Nat × ControlState :=
  if create.expiresAtUnixMs < 0 then (.error .invalidArgument, state)
  else
    let principalId := state.tokenRegistry.nextId
    let created := state.tokenRegistry.createToken crypto (expiryOf create.expiresAtUnixMs) raw
    if persisted then
      (.ok principalId,
        { state with tokenRegistry := created, tokenGrants := state.tokenGrants.insert principalId create.grants })
    else
      (.error .internal,
        { state with tokenRegistry := created.revoke principalId
                     tokenGrants := (state.tokenGrants.insert principalId create.grants).erase principalId })

/-- The handler `revoke_token` for a principal. -/
def revokeToken (state : ControlState) (principalId : Nat) (removed : Bool) :
    Except StatusCode Unit × ControlState :=
  if state.tokenRegistry.tokens.entries.all fun entry => entry.2.principalId ≠ principalId then (.error .notFound, state)
  else if removed then
    (.ok (), { state with tokenRegistry := state.tokenRegistry.revoke principalId
                          tokenGrants := state.tokenGrants.erase principalId })
  else (.error .internal, state)

end ControlState
end UniversalMesh.Control
