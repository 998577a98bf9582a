import UniversalMesh.Control.Grants
import UniversalMesh.Lib.Failure

/-! The authorization of a request on the control socket, of `control_authorization.rs`: the table of
capabilities, the resources a request is about, and the rules for tokens. What the derived decoders find in a
payload is an input. -/
namespace UniversalMesh.Control
open Wire Crypto MachineWord ByteReader

section

/-- `get_identity_request::Identity`. -/
inductive IdentityChoice where
  | handle (value : Bytes) | endpointId (value : Bytes)
  deriving DecidableEq

/-- What the decoders of the request messages give of a payload, by the fields the authorization reads; nothing
if it does not decode. -/
structure Decoders where
  /-- Messages of which no field is read. -/
  plain : Method → Bytes → Option Unit
  /-- `endpoint_id`, `destination_hint_hash`, `destination_hint` or `owner_endpoint_id`. -/
  resource : Method → Bytes → Option Bytes
  /-- `filter.endpoint_ids` or `requested_endpoint_ids`. -/
  resources : Method → Bytes → Option (List Bytes)
  /-- `session_handle`, `route_handle` or `identity_handle`, which may be absent. -/
  handle : Method → Bytes → Option (Option Bytes)
  getIdentity : Bytes → Option (Option IdentityChoice)
  /-- `principal_id` or `token_id`. -/
  principal : TokenMethod → Bytes → Option Bytes
  createToken : Bytes → Option CreateTokenRequest

structure Request where
  method : Method
  payload : Bytes

namespace ControlState

/-- `NODE_IDENTITY_RECORD`, the key of the node's own record. -/
def nodeIdentityRecord : Bytes := ascii "node-identity"

/-- The endpoint id of the identity `identity_by_handle` resolves a handle to. -/
def identityByHandle (state : ControlState) (handle : Bytes) : Option (Octets 32) :=
  if handle = nodeIdentityRecord then some state.nodeEndpointId
  else do
    let recordName ← textOf? handle
    let entry ← state.secondaries.find? fun entry => entry.1 = recordName
    some entry.2

/-- The peer of the session a handle of the size of a session id names. -/
def sessionOfHandle (state : ControlState) (handle : Bytes) : Option (Octets 32) :=
  state.sessionPeer (UInt64.ofNat (fromBeBytes handle))

end ControlState

/-- The payload of a message, or `InvalidArgument`. -/
def decoded {α : Type} (message : Option α) : Except StatusCode α :=
  match message with
  | none => .error .invalidArgument
  | some value => .ok value

def sessionResourceId (state : ControlState) (handle : Option Bytes) :
    Except StatusCode (Option (List Bytes)) := do
  let handle ← decoded handle
  refuse (handle.length ≠ 8) .invalidArgument
  .ok (some [((state.sessionOfHandle handle).map Subtype.val).getD []])

/-- The resource of `GetIdentity`. -/
def identityResource (state : ControlState) : Option IdentityChoice → Bytes
  | some (.endpointId endpoint) => endpoint
  | some (.handle handle) => ((state.identityByHandle handle).map Subtype.val).getD []
  | none => []

/-- A resource that may be left empty. -/
def optionalResource (resource : Bytes) : List Bytes := if resource = [] then [] else [resource]

variable (decoders : Decoders)

section
variable (state : ControlState) (request : Request)

/-- `resource_ids_for_request`. Nothing is returned for the methods without a resource scope. -/
def resourceIdsForRequest :
    Except StatusCode (Option (List Bytes)) :=
  match request.method with
  | .peer .listPeers | .bundle .getBundle | .bundle .deleteBundle | .relay .listRelayCircuits
  | .relay .closeRelayCircuit | .identity .listIdentities => do
    decoded (decoders.plain request.method request.payload)
    .ok (some [])
  | .peer .getPeer | .peer .addPeerHint | .peer .removePeer | .peer .setTrustState | .peer .blockPeer
  | .peer .unblockPeer | .route .probeRoute => do
    let resource ← decoded (decoders.resource request.method request.payload)
    .ok (some [resource])
  | .session .listSessions | .route .listRoutes | .bundle .listBundles | .bundle .getBundles
  | .application .openListener => do
    let resource ← decoded (decoders.resource request.method request.payload)
    .ok (some (optionalResource resource))
  | .session .getSession | .session .closeSession | .session .migrateSession | .session .listStreams => do
    let handle ← decoded (decoders.handle request.method request.payload)
    sessionResourceId state handle
  | .route .getRoute | .route .invalidateRoute => do
    let handle ← decoded (decoders.handle request.method request.payload)
    .ok (some [handle.getD []])
  | .event .subscribe | .application .registerApplication => do
    let resources ← decoded (decoders.resources request.method request.payload)
    .ok (some resources)
  | .identity .getIdentity => do
    let identity ← decoded (decoders.getIdentity request.payload)
    .ok (some [identityResource state identity])
  | _ => .ok none

/-- Every resource that the request names is within the grants, and the empty one where it names none. -/
def authorizeResourceScope (principalId : Nat)
    (capability : Capability) (nowMs : Nat) : Except StatusCode Unit := do
  let found ← resourceIdsForRequest decoders state request
  match found with
  | none => .ok ()
  | some resourceIds =>
    let grants := GrantSet.fromApi (state.grantsOf principalId)
    let allowed :=
      if resourceIds.isEmpty then grants.resourceAllowed capability [] nowMs
      else resourceIds.all fun resource => grants.resourceAllowed capability resource nowMs
    refuse (!allowed) .permissionDenied

def expiryCovers (issuerExpiry requestedExpiry : Int) : Bool :=
  issuerExpiry = 0 ∨ (requestedExpiry ≠ 0 ∧ requestedExpiry ≤ issuerExpiry)

def constraintsCover (issuer requested : Option ResourceConstraints) : Bool :=
  match issuer, requested with
  | none, _ => true
  | some issuer, some requested => issuer.allResources || issuer = requested
  | some issuer, none => issuer.allResources

/-- `i64::MAX`. -/
def i64Max : Nat := 9223372036854775807

/-- An issuer's grant that covers a requested one, in `authorize_token_delegation`. -/
def grantCovers (nowMs : Nat) (requested issuer : CapabilityGrant) : Bool :=
  issuer.capability = requested.capability && issuer.delegable && decide (issuer.expiresAtUnixMs ≥ 0) &&
    expiryCovers issuer.expiresAtUnixMs requested.expiresAtUnixMs &&
    constraintsCover issuer.constraints requested.constraints &&
    (decide (issuer.expiresAtUnixMs = 0) || decide (issuer.expiresAtUnixMs > (min nowMs i64Max : Nat)))

/-- The body of the loop of `authorize_token_delegation` for one requested grant. -/
def delegableGrant (issuerGrants : List CapabilityGrant) (tokenExpiry : Int) (nowMs : Nat)
    (grant : CapabilityGrant) : Except StatusCode Unit := do
  let capability := Capability.ofNumber grant.capability
  refuse (capability = none ∨ capability = some .unspecified) .invalidArgument
  refuse (decide (grant.expiresAtUnixMs < 0) ||
    decide (grant.expiresAtUnixMs > 0 ∧ tokenExpiry > 0 ∧ grant.expiresAtUnixMs > tokenExpiry) ||
    !issuerGrants.any (grantCovers nowMs grant)) .permissionDenied

/-- A created token has no grant that its issuer could not delegate. -/
def authorizeTokenDelegation
    (issuerPrincipal nowMs : Nat) : Except StatusCode Unit := do
  let create ← decoded (decoders.createToken request.payload)
  refuse (create.expiresAtUnixMs < 0) .invalidArgument
  create.grants.forM (delegableGrant (state.grantsOf issuerPrincipal) create.expiresAtUnixMs nowMs)

def parsePrincipalId (bytes : Bytes) : Except StatusCode Nat :=
  if bytes = [] then .ok 0
  else if bytes.length = 8 then .ok (fromBeBytes bytes)
  else .error .invalidArgument

/-- The grant that lets a caller of `authorize_token_target` manage another principal. -/
def isAdministrative (nowMs : Nat) (grant : CapabilityGrant) : Bool :=
  grant.capability = Capability.tokenAdmin.number && decide (grant.expiresAtUnixMs ≥ 0) &&
    (decide (grant.expiresAtUnixMs = 0) || decide ((nowMs : Int) < grant.expiresAtUnixMs)) &&
    grant.constraints.any fun constraints => constraints.allResources

/-- Tokens of another principal are for administrators. -/
def authorizeTokenTarget (method : TokenMethod) (payload : Bytes)
    (issuerPrincipal nowMs : Nat) : Except StatusCode Unit := do
  let bytes ← decoded (decoders.principal method payload)
  let target ← parsePrincipalId bytes
  if target = 0 ∨ target = issuerPrincipal then .ok ()
  else refuse (!(state.grantsOf issuerPrincipal).any (isAdministrative nowMs)) .permissionDenied

/-- The last step of the authorization, which only the token service has. -/
def authorizeToken (principalId nowMs : Nat) :
    Except StatusCode Unit :=
  match request.method with
  | .token .createToken => authorizeTokenDelegation decoders state request principalId nowMs
  | .token .listGrants => authorizeTokenTarget decoders state .listGrants request.payload principalId nowMs
  | .token .revokeToken => authorizeTokenTarget decoders state .revokeToken request.payload principalId nowMs
  | _ => .ok ()

end

/-- `control_principal_id` of a presented token. -/
def controlPrincipalId (crypto : Primitives) (state : ControlState) (token : Bytes) (nowMs : Nat) : Option Nat :=
  (state.tokenRegistry.authenticate crypto token nowMs).toOption

/-- A configured development token alone decides; else a request without a token may do all but manage tokens. -/
def authorizeLiveRequestWithPeer (crypto : Primitives) (state : ControlState)
    (request : Request) (presentedToken : Option Bytes) (osPeerAuthenticated : Bool) (nowMs : Nat) :
    Except StatusCode Unit := do
  refuse (!osPeerAuthenticated) .unauthenticated
  match state.developmentToken with
  | some configured => refuse (presentedToken ≠ some configured) .unauthenticated
  | none =>
    match presentedToken with
    | none => refuse request.method.isToken .permissionDenied
    | some token =>
      match controlPrincipalId crypto state token nowMs with
      | none => .error .unauthenticated
      | some principalId =>
        match requiredCapability request.method with
        | none => .ok ()
        | some capability => do
          refuse (!(GrantSet.fromApi (state.grantsOf principalId)).allows capability nowMs) .permissionDenied
          authorizeResourceScope decoders state request principalId capability nowMs
          authorizeToken decoders state request principalId nowMs

section
variable {decoders : Decoders} {crypto : Primitives} {state : ControlState} {request : Request} {token : Bytes}
  {peer : Bool} {nowMs : Nat}

theorem controlPrincipalId_eq_some : controlPrincipalId crypto state token nowMs = some principalId ↔
      state.tokenRegistry.authenticate crypto token nowMs = .ok principalId := by
  unfold controlPrincipalId
  cases state.tokenRegistry.authenticate crypto token nowMs <;> simp [Except.toOption]

theorem authorize_bearer_ok (production : state.developmentToken = none) :
    authorizeLiveRequestWithPeer decoders crypto state request (some token) peer nowMs = .ok () ↔
      peer = true ∧ ∃ principalId, state.tokenRegistry.authenticate crypto token nowMs = .ok principalId ∧
        ∀ capability, requiredCapability request.method = some capability →
          (∃ grant ∈ state.grantsOf principalId, grant.InForce capability nowMs) ∧
          authorizeResourceScope decoders state request principalId capability nowMs = .ok () ∧
          authorizeToken decoders state request principalId nowMs = .ok () := by
  rw [authorizeLiveRequestWithPeer, refuse_bind_ok, Bool.not_eq_false', production]
  refine and_congr_right' ?_
  simp only [← controlPrincipalId_eq_some]
  cases controlPrincipalId crypto state token nowMs with
  | none => simp
  | some principalId =>
    cases requiredCapability request.method with
    | none => simp
    | some capability =>
      simp only [Option.some.injEq, exists_eq_left', forall_eq', check_bind_ok, refuse_ok,
        Bool.not_eq_false', GrantSet.allows_iff]

end

/-- Decoders of messages that have one field, which is the payload. -/
def fieldDecoders : Decoders :=
  { plain := fun _ _ => some ()
    resource := fun _ payload => some payload
    resources := fun _ payload => some [payload]
    handle := fun _ payload => some (some payload)
    getIdentity := fun payload => some (some (.handle payload))
    principal := fun _ payload => some payload
    createToken := fun _ => none }

end

/-! Confinement of scoped grants. A request may name an endpoint directly, or by the handle of an identity or a
session; the scope check compares that endpoint with the grants for the methods that `resource_ids_for_request`
knows, and passes the others. -/

/-- How the requests of the identity, peer and session services name an endpoint. `unscoped` are those by the
handle of an identity without an arm in `resource_ids_for_request`. -/
inductive Naming where
  | endpoint | optionalEndpoint | session | identity | unscoped | nothing
  deriving DecidableEq

/-- How the payload of a method names its resource. -/
def naming : Method → Naming
  | .peer .getPeer | .peer .addPeerHint | .peer .removePeer | .peer .setTrustState | .peer .blockPeer
  | .peer .unblockPeer => .endpoint
  | .session .listSessions => .optionalEndpoint
  | .session .getSession | .session .closeSession | .session .migrateSession | .session .listStreams => .session
  | .identity .getIdentity => .identity
  | .identity .rotateHandshakeKey | .identity .rotateIdentityKey | .identity .exportPublicIdentity
  | .identity .exportSecretIdentity | .identity .deleteIdentity | .identity .createDelegation
  | .identity .revokeDelegation | .peer .createInvitation => .unscoped
  | _ => .nothing

def handleTarget (resolve : Bytes → Option (Octets 32)) (message : Option (Option Bytes)) : Option Bytes :=
  (message.join.bind resolve).map Subtype.val

def resolveSession (state : ControlState) (handle : Bytes) : Option (Octets 32) :=
  if handle.length = 8 then state.sessionOfHandle handle else none

def choiceTarget (state : ControlState) : IdentityChoice → Option Bytes
  | .endpointId endpoint => some endpoint
  | .handle handle => (state.identityByHandle handle).map Subtype.val

/-- The resource that a request acts on. -/
def target? (decoders : Decoders) (state : ControlState) (request : Request) : Option Bytes :=
  match naming request.method with
  | .endpoint => decoders.resource request.method request.payload
  | .optionalEndpoint => (decoders.resource request.method request.payload).filter (· ≠ [])
  | .session => handleTarget (resolveSession state) (decoders.handle request.method request.payload)
  | .identity => (decoders.getIdentity request.payload).join.bind (choiceTarget state)
  | .unscoped => handleTarget state.identityByHandle (decoders.handle request.method request.payload)
  | .nothing => none

variable {decoders : Decoders} {crypto : Primitives} {state : ControlState} {request : Request} {token endpoint : Bytes}
  {peer : Bool} {nowMs : Nat} {capability : Capability}

/-- What `resource_ids_for_request` does with a request, by the way it names an endpoint. -/
def namedIds (decoders : Decoders) (state : ControlState) (request : Request) :
    Naming → Except StatusCode (Option (List Bytes))
  | .endpoint => do
    let resource ← decoded (decoders.resource request.method request.payload)
    .ok (some [resource])
  | .optionalEndpoint => do
    let resource ← decoded (decoders.resource request.method request.payload)
    .ok (some (optionalResource resource))
  | .session => do
    let handle ← decoded (decoders.handle request.method request.payload)
    sessionResourceId state handle
  | .identity => do
    let identity ← decoded (decoders.getIdentity request.payload)
    .ok (some [identityResource state identity])
  | .unscoped | .nothing => .ok none

theorem resourceIdsForRequest_named (names : naming request.method ≠ .nothing) :
    resourceIdsForRequest decoders state request = namedIds decoders state request (naming request.method) := by
  obtain ⟨method, payload⟩ := request
  dsimp only at names ⊢
  unfold naming at names
  split at names
  case h_21 => exact absurd rfl names
  all_goals rfl

theorem handleTarget_some (named : handleTarget resolve message = some endpoint) :
    ∃ handle found, message = some (some handle) ∧ resolve handle = some found ∧ found.val = endpoint := by
  obtain ⟨found, resolved, value⟩ := Option.map_eq_some_iff.mp named
  obtain ⟨handle, given, resolves⟩ := Option.bind_eq_some_iff.mp resolved
  exact ⟨handle, found, Option.join_eq_some_iff.mp given, resolves, value⟩

/-- Every method that names an endpoint is in the table of capabilities, outside the token service. -/
theorem authorizeToken_named (names : naming request.method ≠ .nothing) :
    authorizeToken decoders state request principalId nowMs = .ok () := by
  unfold authorizeToken
  split
  case h_4 => rfl
  all_goals
    rename_i method
    exact absurd (by rw [method]; rfl) names

/-- A grant with constraints that leave the endpoint out. -/
def CapabilityGrant.LeavesOut (grant : CapabilityGrant) (endpoint : Bytes) : Prop :=
  ∃ constraints, grant.constraints = some constraints ∧ constraints.allResources = false ∧
    endpoint ∉ constraints.endpointIds
  deriving Decidable

theorem CapabilityGrant.leavesOut_iff {grant : CapabilityGrant} :
    grant.LeavesOut endpoint ↔ Grant.reaches grant.constraints endpoint = false := by
  unfold CapabilityGrant.LeavesOut Grant.reaches
  cases grant.constraints with
  | none => simp
  | some constraints => simp

section
variable (named : target? decoders state request = some endpoint)
include named

/-- The resource of a request that names an endpoint is that endpoint, for the methods with a scope. -/
theorem resourceIdsForRequest_target :
    resourceIdsForRequest decoders state request =
      .ok (if naming request.method = .unscoped then none else some [endpoint]) := by
  have names : naming request.method ≠ .nothing := by
    intro nothing
    rw [target?, nothing] at named
    cases named
  rw [resourceIdsForRequest_named names]
  unfold target? at named
  cases kind : naming request.method with
  | endpoint =>
    rw [kind] at named
    simp [namedIds, named, decoded]
  | optionalEndpoint =>
    rw [kind] at named
    obtain ⟨given, nonempty⟩ := Option.filter_eq_some_iff.mp named
    have nonempty : endpoint ≠ [] := by simpa using nonempty
    simp [namedIds, given, decoded, optionalResource, nonempty]
  | session =>
    rw [kind] at named
    obtain ⟨handle, found, given, resolved, rfl⟩ := handleTarget_some named
    unfold resolveSession at resolved
    split at resolved
    case isFalse => cases resolved
    case isTrue size => simp [namedIds, given, decoded, sessionResourceId, refuse, size, resolved]
  | identity =>
    rw [kind] at named
    obtain ⟨choice, given, resolved⟩ := Option.bind_eq_some_iff.mp named
    have given := Option.join_eq_some_iff.mp given
    cases choice with
    | endpointId value =>
      cases resolved
      simp [namedIds, given, decoded, identityResource]
    | handle value =>
      obtain ⟨found, resolves, rfl⟩ := Option.map_eq_some_iff.mp resolved
      simp [namedIds, given, decoded, identityResource, resolves]
  | unscoped => simp [namedIds]
  | nothing => exact absurd kind names

/-- Without a grant that reaches the endpoint, the scope check passes only the methods it does not know. -/
theorem authorizeResourceScope_confined
    (confined : ∀ grant ∈ state.grantsOf principalId, grant.InForce capability nowMs → grant.LeavesOut endpoint) :
    authorizeResourceScope decoders state request principalId capability nowMs = .ok () ↔
      naming request.method = .unscoped := by
  have denied : (GrantSet.fromApi (state.grantsOf principalId)).resourceAllowed capability endpoint nowMs = false := by
    rw [← Bool.not_eq_true, GrantSet.resourceAllowed_iff]
    rintro ⟨grant, held, force, reaches⟩
    rw [CapabilityGrant.leavesOut_iff.mp (confined grant held force)] at reaches
    cases reaches
  rw [authorizeResourceScope, resourceIdsForRequest_target named]
  by_cases unscoped : naming request.method = .unscoped
  · simp [unscoped]
  · simp [unscoped, denied, refuse]

end

/-- If no grant of the bearer in force for the required capability reaches the endpoint a request names, the
request is refused, but for the methods that `resource_ids_for_request` has no arm for: these pass with any
grant of the capability in force. -/
theorem authorizeLiveRequest_confined_iff (production : state.developmentToken = none)
    (named : target? decoders state request = some endpoint)
    (required : requiredCapability request.method = some capability)
    (confined : ∀ principalId, state.tokenRegistry.authenticate crypto token nowMs = .ok principalId →
      ∀ grant ∈ state.grantsOf principalId, grant.InForce capability nowMs → grant.LeavesOut endpoint) :
    (∃ code, authorizeLiveRequestWithPeer decoders crypto state request (some token) peer nowMs = .error code) ↔
      ¬ (naming request.method = .unscoped ∧ peer = true ∧
        ∃ principalId, state.tokenRegistry.authenticate crypto token nowMs = .ok principalId ∧
          ∃ grant ∈ state.grantsOf principalId, grant.InForce capability nowMs) := by
  have names : naming request.method ≠ .nothing := by
    intro nothing
    rw [target?, nothing] at named
    cases named
  rw [exists_error_iff, authorize_bearer_ok production]
  refine not_congr ⟨?_, ?_⟩
  · rintro ⟨present, principalId, bearer, passes⟩
    obtain ⟨granted, inScope, -⟩ := passes capability required
    exact ⟨(authorizeResourceScope_confined named (confined principalId bearer)).mp inScope, present, principalId,
      bearer, granted⟩
  · rintro ⟨unscoped, present, principalId, bearer, granted⟩
    refine ⟨present, principalId, bearer, fun needed needs => ?_⟩
    obtain rfl : capability = needed := Option.some_inj.mp (required.symm.trans needs)
    exact ⟨granted, (authorizeResourceScope_confined named (confined principalId bearer)).mpr unscoped,
      authorizeToken_named names⟩

/-- A daemon with one token, whose two grants are for the endpoint `[9]` only. -/
def scopedState : ControlState :=
  { developmentToken := none
    tokenRegistry := TokenRegistry.createToken transparent .new none [7]
    tokenGrants := OrderedMap.empty.insert 1
      [{ capability := Capability.peerRead.number, constraints := some { endpointIds := [[9]] } },
        { capability := Capability.identityExportSecret.number, constraints := some { endpointIds := [[9]] } }]
    nodeEndpointId := copyInto 32 []
    secondaries := []
    sessionPeer := fun _ => none }

theorem scopedState_bearer
    (bearer : scopedState.tokenRegistry.authenticate transparent [7] 0 = .ok principalId) : principalId = 1 := by
  have first : scopedState.tokenRegistry.authenticate transparent [7] 0 = .ok 1 := by decide +kernel
  exact Except.ok.inj (bearer.symm.trans first)

/-- `GetPeer` of another endpoint is refused. -/
theorem getPeer_refused : ∃ code, authorizeLiveRequestWithPeer fieldDecoders transparent scopedState
    ⟨.peer .getPeer, [5]⟩ (some [7]) true 0 = .error code := by
  have required : requiredCapability (.peer .getPeer) = some .peerRead := rfl
  refine (authorizeLiveRequest_confined_iff rfl rfl required fun principalId bearer => ?_).mpr ?_
  · cases scopedState_bearer bearer
    decide +kernel
  · exact fun passes => absurd passes.1 (by decide)

/-- `ExportSecretIdentity` of the node's own identity passes with a grant for another endpoint. -/
theorem exportSecretIdentity_passes :
    scopedState.developmentToken = none ∧
    target? fieldDecoders scopedState ⟨.identity .exportSecretIdentity, ControlState.nodeIdentityRecord⟩ =
      some scopedState.nodeEndpointId.val ∧
    requiredCapability (.identity .exportSecretIdentity) = some .identityExportSecret ∧
    scopedState.tokenRegistry.authenticate transparent [7] 0 = .ok 1 ∧
    (∀ grant ∈ scopedState.grantsOf 1, grant.InForce .identityExportSecret 0 →
      grant.LeavesOut scopedState.nodeEndpointId.val) ∧
    authorizeLiveRequestWithPeer fieldDecoders transparent scopedState
      ⟨.identity .exportSecretIdentity, ControlState.nodeIdentityRecord⟩ (some [7]) true 0 = .ok () := by
  decide +kernel

end UniversalMesh.Control
