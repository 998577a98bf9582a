import UniversalMesh.Control.Authorization

/-! Calls to the token service: each is authorized against the state it finds and then creates or revokes a
token, or changes nothing. Principal ids are not reused, so a call leaves the principals before it alone unless
it revokes them. -/
namespace UniversalMesh.Control
open Wire Crypto MachineWord OrderedMap

/-- A request on the control socket, with the bytes of the entropy source for a new token, and whether a token's
record could be written or removed. -/
structure TokenCall where
  request : Request
  token : Option Bytes
  peer : Bool
  nowMs : Nat
  raw : Bytes
  stored : Bool

inductive TokenAction where
  | create (request : CreateTokenRequest) | revoke (principalId : Nat) | nothing
  deriving DecidableEq

/-- What the handlers `create_token` and `revoke_token` read from a request. -/
def requestedAction (decoders : Decoders) (request : Request) : TokenAction :=
  match request.method with
  | .token .createToken =>
    match decoders.createToken request.payload with
    | none => .nothing
    | some create => .create create
  | .token .revokeToken =>
    match decoders.principal .revokeToken request.payload with
    | none => .nothing
    | some id => if id.length = 8 then .revoke (fromBeBytes id) else .nothing
  | _ => .nothing

/-- What an authorized request does to the tokens. -/
def tokenAction (decoders : Decoders) (crypto : Primitives) (state : ControlState) (call : TokenCall) : TokenAction :=
  match authorizeLiveRequestWithPeer decoders crypto state call.request call.token call.peer call.nowMs with
  | .error _ => .nothing
  | .ok () => requestedAction decoders call.request

namespace ControlState

def perform (crypto : Primitives) (state : ControlState) (call : TokenCall) : TokenAction → ControlState
  | .create request => (state.createToken crypto request call.raw call.stored).2
  | .revoke principalId => (state.revokeToken principalId call.stored).2
  | .nothing => state

def serve (decoders : Decoders) (crypto : Primitives) (state : ControlState) (call : TokenCall) : ControlState :=
  state.perform crypto call (tokenAction decoders crypto state call)

variable {crypto : Primitives} {state : ControlState} {call : TokenCall} {action : TokenAction} {hash : Bytes}
  {principalId : Nat} {record : TokenRecord}

theorem grantsOf_insert :
    ({ state with tokenRegistry := registry, tokenGrants := state.tokenGrants.insert created grants }).grantsOf
      principalId = if principalId = created then grants else state.grantsOf principalId := by
  unfold grantsOf
  rw [get?_insert]
  split <;> rfl

theorem nextId_le_perform (action : TokenAction) :
    state.tokenRegistry.nextId ≤ (state.perform crypto call action).tokenRegistry.nextId := by
  cases action with
  | create request =>
    rw [perform, createToken]
    split
    · exact Nat.le_refl _
    · split <;> exact Nat.le_succ _
  | revoke other =>
    rw [perform, revokeToken]
    split
    · exact Nat.le_refl _
    · split <;> exact Nat.le_refl _
  | nothing => exact Nat.le_refl _

/-- The entropy source gives a token that is not registered. -/
def Fresh (crypto : Primitives) (state : ControlState) (call : TokenCall) : Prop :=
  state.tokenRegistry.tokens.get? (tokenHash crypto call.raw) = none

instance : Decidable (state.Fresh crypto call) := inferInstanceAs (Decidable (_ = none))

theorem mem_perform_older (fresh : state.Fresh crypto call)
    (older : record.principalId < state.tokenRegistry.nextId)
    (kept : action = .revoke record.principalId → call.stored = false) :
    (hash, record) ∈ (state.perform crypto call action).tokenRegistry.tokens ↔
      (hash, record) ∈ state.tokenRegistry.tokens := by
  cases action with
  | create request =>
    rw [perform, createToken]
    split
    · exact Iff.rfl
    · split
      · exact TokenRegistry.mem_createToken_older fresh older
      · rw [TokenRegistry.mem_revoke, TokenRegistry.mem_createToken_older fresh older]
        exact and_iff_left (Nat.ne_of_lt older)
  | revoke other =>
    rw [perform, revokeToken]
    split
    · exact Iff.rfl
    · split
      case isTrue removed =>
        refine TokenRegistry.mem_revoke.trans (and_iff_left fun same => ?_)
        rw [kept (by rw [same])] at removed
        cases removed
      case isFalse => exact Iff.rfl
  | nothing => exact Iff.rfl

theorem grantsOf_perform_older (older : principalId < state.tokenRegistry.nextId)
    (kept : action = .revoke principalId → call.stored = false) :
    (state.perform crypto call action).grantsOf principalId = state.grantsOf principalId := by
  have differ : principalId ≠ state.tokenRegistry.nextId := Nat.ne_of_lt older
  cases action with
  | create request =>
    rw [perform, createToken]
    split
    · rfl
    · split
      · exact grantsOf_insert.trans (if_neg differ)
      · simp only [grantsOf, get?_erase, get?_insert, if_neg differ]
  | revoke other =>
    rw [perform, revokeToken]
    split
    · rfl
    · split
      case isTrue removed =>
        have differ : principalId ≠ other := by
          rintro rfl
          rw [kept rfl] at removed
          cases removed
        simp only [grantsOf, get?_erase, if_neg differ]
      case isFalse => rfl
  | nothing => rfl

theorem not_mem_perform_revoked (stored : call.stored = true) :
    (hash, record) ∉ (state.perform crypto call (.revoke record.principalId)).tokenRegistry.tokens := by
  rw [perform, revokeToken]
  split
  case isTrue unknown =>
    intro member
    exact absurd rfl (of_decide_eq_true (List.all_eq_true.mp unknown _ member))
  case isFalse => exact fun member => (TokenRegistry.mem_revoke.mp member).2 rfl

theorem mem_perform_created (sound : 0 ≤ request.expiresAtUnixMs) (stored : call.stored = true) :
    let after := state.perform crypto call (.create request)
    (tokenHash crypto call.raw, ⟨state.tokenRegistry.nextId, expiryOf request.expiresAtUnixMs⟩) ∈
        after.tokenRegistry.tokens ∧
      after.grantsOf state.tokenRegistry.nextId = request.grants := by
  rw [perform, createToken, if_neg (Int.not_lt.mpr sound), if_pos stored]
  exact ⟨TokenRegistry.mem_createToken_self, grantsOf_insert.trans (if_pos rfl)⟩

end ControlState

/-! Delegation of tokens. A holder of a delegable grant may create tokens, and their holders tokens in turn.
What a token was given does not change until it is revoked, so authority along a chain is compared through what
was given at each link. -/

/-- What a token is given when it is created. -/
structure Holding where
  expiresAtMs : Option Nat
  grants : List CapabilityGrant

namespace Holding

/-- The token is live, and one of the grants in force reaches the endpoint. -/
def Allows (holding : Holding) (capability : Capability) (endpoint : Bytes) (nowMs : Nat) : Prop :=
  beforeExpiry nowMs holding.expiresAtMs = true ∧
    ∃ grant ∈ holding.grants, grant.InForce capability nowMs ∧ Grant.reaches grant.constraints endpoint = true

def Within (inner outer : Holding) : Prop :=
  ∀ capability endpoint nowMs, inner.Allows capability endpoint nowMs → outer.Allows capability endpoint nowMs

theorem Within.trans {first second third : Holding} (inner : first.Within second) (outer : second.Within third) :
    first.Within third :=
  fun capability endpoint nowMs allows =>
    outer capability endpoint nowMs (inner capability endpoint nowMs allows)

/-- What `create_token` gives. -/
def ofRequest (create : CreateTokenRequest) : Holding := ⟨expiryOf create.expiresAtUnixMs, create.grants⟩

end Holding

/-! ### The coverage of one grant by another -/

section Coverage
variable {requested issuer : CapabilityGrant} {capability : Capability} {endpoint : Bytes} {nowMs later : Nat}

theorem inForce_of_covers (covers : grantCovers nowMs requested issuer = true)
    (force : requested.InForce capability later) : issuer.InForce capability later := by
  simp only [grantCovers, expiryCovers, Bool.and_eq_true, decide_eq_true_eq] at covers
  obtain ⟨⟨⟨⟨⟨same, -⟩, sound⟩, expiry⟩, -⟩, -⟩ := covers
  obtain ⟨known, specified, -, live⟩ := force
  refine ⟨same ▸ known, specified, sound, ?_⟩
  omega

theorem reaches_of_covers (covers : grantCovers nowMs requested issuer = true)
    (reaches : Grant.reaches requested.constraints endpoint = true) :
    Grant.reaches issuer.constraints endpoint = true := by
  simp only [grantCovers, Bool.and_eq_true] at covers
  obtain ⟨⟨-, constraints⟩, -⟩ := covers
  cases own : issuer.constraints with
  | none => rfl
  | some limits =>
    rw [own] at constraints
    cases asked : requested.constraints with
    | none =>
      rw [asked, constraintsCover] at constraints
      rw [Grant.reaches, constraints, Bool.true_or]
    | some given =>
      rw [asked, constraintsCover, Bool.or_eq_true, decide_eq_true_eq] at constraints
      rw [asked] at reaches
      rcases constraints with unlimited | rfl
      · rw [Grant.reaches, unlimited, Bool.true_or]
      · exact reaches

end Coverage

/-- What `authorize_token_delegation` checks of one requested grant. -/
theorem delegableGrant_ok (passes : delegableGrant issuerGrants tokenExpiry nowMs grant = .ok ()) :
    (∃ capability, Capability.ofNumber grant.capability = some capability ∧ capability ≠ .unspecified) ∧
      0 ≤ grant.expiresAtUnixMs ∧ ∃ issuer ∈ issuerGrants, grantCovers nowMs grant issuer = true := by
  rw [delegableGrant, refuse_bind_ok, refuse_ok] at passes
  obtain ⟨known, covered⟩ := passes
  simp only [decide_eq_false_iff_not, not_or, Bool.or_eq_false_iff, Bool.not_eq_false', List.any_eq_true] at known covered
  obtain ⟨⟨sound, -⟩, issuer, held, covers⟩ := covered
  obtain ⟨capability, found⟩ := Option.ne_none_iff_exists'.mp known.1
  refine ⟨⟨capability, found, ?_⟩, Int.not_lt.mp sound, issuer, held, covers⟩
  rintro rfl
  exact known.2 found

/-! ### Tokens and what they hold -/

structure Credential where
  token : Bytes
  principalId : Nat
  deriving DecidableEq

namespace ControlState
variable {decoders : Decoders} {crypto : Primitives} {state : ControlState} {call : TokenCall}
  {credential : Credential} {holding : Holding} {capability : Capability} {endpoint : Bytes} {nowMs : Nat}

/-- The token authenticates, and the grants of its principal allow the capability on the endpoint. -/
def Empowers (crypto : Primitives) (state : ControlState) (credential : Credential) (capability : Capability)
    (endpoint : Bytes) (nowMs : Nat) : Prop :=
  state.tokenRegistry.authenticate crypto credential.token nowMs = .ok credential.principalId ∧
    (GrantSet.fromApi (state.grantsOf credential.principalId)).resourceAllowed capability endpoint nowMs = true
  deriving Decidable

/-- The token is registered for its principal with what it was given. -/
structure Registered (crypto : Primitives) (state : ControlState) (credential : Credential) (holding : Holding) :
    Prop where
  record : (tokenHash crypto credential.token, ⟨credential.principalId, holding.expiresAtMs⟩) ∈
    state.tokenRegistry.tokens
  grants : state.grantsOf credential.principalId = holding.grants

/-- The token was registered for its principal, and may have been revoked since. -/
structure Bounded (crypto : Primitives) (state : ControlState) (credential : Credential) (holding : Holding) :
    Prop where
  older : credential.principalId < state.tokenRegistry.nextId
  registered : ∀ expiresAtMs, (tokenHash crypto credential.token, ⟨credential.principalId, expiresAtMs⟩) ∈
    state.tokenRegistry.tokens → expiresAtMs = holding.expiresAtMs ∧ state.grantsOf credential.principalId = holding.grants

theorem Registered.bounded (registered : state.Registered crypto credential holding) :
    state.Bounded crypto credential holding where
  older := state.tokenRegistry.below _ registered.record
  registered := fun _ member =>
    ⟨congrArg TokenRecord.expiresAtMs (mem_unique member registered.record), registered.grants⟩

theorem Registered.empowers_iff (registered : state.Registered crypto credential holding) :
    state.Empowers crypto credential capability endpoint nowMs ↔ holding.Allows capability endpoint nowMs := by
  rw [Empowers, GrantSet.resourceAllowed_iff, registered.grants, TokenRegistry.authenticate_ok, Holding.Allows]
  refine and_congr_left' ⟨?_, fun live => ⟨_, registered.record, live⟩⟩
  rintro ⟨expiresAtMs, member, live⟩
  rw [(registered.bounded.registered expiresAtMs member).1] at live
  exact live

theorem Bounded.of_authenticate (bounded : state.Bounded crypto credential holding)
    (authenticates : state.tokenRegistry.authenticate crypto credential.token nowMs = .ok credential.principalId) :
    state.Registered crypto credential holding := by
  obtain ⟨expiresAtMs, member, -⟩ := TokenRegistry.authenticate_ok.mp authenticates
  obtain ⟨rfl, grants⟩ := bounded.registered expiresAtMs member
  exact ⟨member, grants⟩

theorem Registered.serve (registered : state.Registered crypto credential holding) (fresh : state.Fresh crypto call)
    (kept : tokenAction decoders crypto state call = .revoke credential.principalId → call.stored = false) :
    (state.serve decoders crypto call).Registered crypto credential holding where
  record := (mem_perform_older fresh registered.bounded.older kept).mpr registered.record
  grants := (grantsOf_perform_older registered.bounded.older kept).trans registered.grants

theorem Bounded.serve (bounded : state.Bounded crypto credential holding) (fresh : state.Fresh crypto call) :
    (state.serve decoders crypto call).Bounded crypto credential holding where
  older := Nat.lt_of_lt_of_le bounded.older (nextId_le_perform _)
  registered := by
    intro expiresAtMs member
    by_cases kept : tokenAction decoders crypto state call = .revoke credential.principalId → call.stored = false
    · rw [ControlState.serve, grantsOf_perform_older bounded.older kept]
      exact bounded.registered expiresAtMs ((mem_perform_older fresh bounded.older kept).mp member)
    · obtain ⟨revoked, stored⟩ := Classical.not_imp.mp kept
      rw [ControlState.serve, revoked] at member
      exact absurd member (not_mem_perform_revoked (Bool.of_not_eq_false stored))

end ControlState

/-! ### One link -/

/-- A `CreateToken` request with the issuer's token that is allowed. -/
structure Issues (decoders : Decoders) (crypto : Primitives) (state : ControlState) (call : TokenCall)
    (issuer issued : Credential) (create : CreateTokenRequest) : Prop where
  presented : call.token = some issuer.token
  /-- The issuer is a principal of the registry, and not the holder of the development token. -/
  authenticates : state.tokenRegistry.authenticate crypto issuer.token call.nowMs = .ok issuer.principalId
  bearer : state.developmentToken ≠ some issuer.token
  allowed : tokenAction decoders crypto state call = .create create
  stored : call.stored = true
  made : issued = ⟨call.raw, state.tokenRegistry.nextId⟩

/-- The issuer's token does not expire before the created one does, or before the grants in it that reach some
endpoint do. -/
def Outlasts (issuerExpiry : Option Nat) (create : CreateTokenRequest) : Prop :=
  ∀ expiry, issuerExpiry = some expiry → ∀ grant ∈ create.grants,
    (∃ endpoint, Grant.reaches grant.constraints endpoint = true) →
      expiryCovers expiry create.expiresAtUnixMs = true ∨ expiryCovers expiry grant.expiresAtUnixMs = true

section Link
variable {decoders : Decoders} {crypto : Primitives} {state : ControlState} {call : TokenCall}
  {issuer issued : Credential} {create : CreateTokenRequest} {holding : Holding} {nowMs : Nat}

theorem tokenAction_create (created : tokenAction decoders crypto state call = .create create) :
    authorizeLiveRequestWithPeer decoders crypto state call.request call.token call.peer call.nowMs = .ok () ∧
      call.request.method = .token .createToken ∧ decoders.createToken call.request.payload = some create := by
  unfold tokenAction at created
  split at created
  case h_1 => cases created
  case h_2 allowed =>
    refine ⟨allowed, ?_⟩
    unfold requestedAction at created
    split at created
    case h_1 method =>
      split at created
      case h_1 => cases created
      case h_2 request decodes =>
        cases created
        exact ⟨method, decodes⟩
    case h_2 =>
      split at created
      case h_1 => cases created
      case h_2 => split at created <;> cases created
    case h_3 => cases created

theorem production_of_bearer (bearer : state.developmentToken ≠ some token)
    (allowed : authorizeLiveRequestWithPeer decoders crypto state request (some token) peer nowMs = .ok ()) :
    state.developmentToken = none := by
  rw [authorizeLiveRequestWithPeer, refuse_bind_ok] at allowed
  cases configured : state.developmentToken with
  | none => rfl
  | some own =>
    rw [configured, refuse_ok, decide_eq_false_iff_not, ne_eq, not_not] at allowed
    exact absurd (configured.trans allowed.2.symm) bearer

variable (issues : Issues decoders crypto state call issuer issued create)
include issues

theorem Issues.checked :
    0 ≤ create.expiresAtUnixMs ∧ ∀ grant ∈ create.grants,
      delegableGrant (state.grantsOf issuer.principalId) create.expiresAtUnixMs call.nowMs grant = .ok () := by
  obtain ⟨allowed, method, decodes⟩ := tokenAction_create issues.allowed
  rw [issues.presented] at allowed
  obtain ⟨-, principalId, authenticates, passes⟩ :=
    (authorize_bearer_ok (production_of_bearer issues.bearer allowed)).mp allowed
  obtain rfl : issuer.principalId = principalId := Except.ok.inj (issues.authenticates.symm.trans authenticates)
  obtain ⟨-, -, delegation⟩ := passes .tokenAdmin (by rw [method]; rfl)
  rw [authorizeToken, method] at delegation
  rw [authorizeTokenDelegation, decodes] at delegation
  obtain ⟨request, found, checks⟩ := bind_ok.mp delegation
  cases found
  rw [refuse_bind_ok, decide_eq_false_iff_not, Int.not_lt, forM_ok] at checks
  exact checks

theorem Issues.registered : ∃ holding, state.Registered crypto issuer holding := by
  obtain ⟨expiresAtMs, member, -⟩ := TokenRegistry.authenticate_ok.mp issues.authenticates
  exact ⟨⟨expiresAtMs, state.grantsOf issuer.principalId⟩, member, rfl⟩

section
variable (registered : state.Registered crypto issuer holding)
include registered

theorem Issues.live : beforeExpiry call.nowMs holding.expiresAtMs = true := by
  obtain ⟨expiresAtMs, member, live⟩ := TokenRegistry.authenticate_ok.mp issues.authenticates
  rw [← (registered.bounded.registered expiresAtMs member).1]
  exact live

theorem Issues.within (outlasts : Outlasts holding.expiresAtMs create) : (Holding.ofRequest create).Within holding := by
  rintro capability endpoint later ⟨live, grant, given, force, reaches⟩
  obtain ⟨sound, delegable⟩ := issues.checked
  obtain ⟨-, -, own, held, covers⟩ := delegableGrant_ok (delegable grant given)
  refine ⟨?_, own, registered.grants ▸ held, inForce_of_covers covers force, reaches_of_covers covers reaches⟩
  cases expires : holding.expiresAtMs with
  | none => rfl
  | some expiry =>
    have alive := issues.live registered
    have bound := outlasts expiry expires grant given ⟨endpoint, reaches⟩
    have live := (beforeExpiry_expiryOf sound).mp live
    have force := force.2.2.2
    rw [expires] at alive
    simp only [beforeExpiry, expiryCovers, decide_eq_true_eq] at alive bound ⊢
    omega

/-- A token that some grant in it outlasts gets more than the issuer has: when the issuer's expires. -/
theorem Issues.outlasts (within : ∀ capability endpoint later, call.nowMs ≤ later →
      (Holding.ofRequest create).Allows capability endpoint later → holding.Allows capability endpoint later) :
    Outlasts holding.expiresAtMs create := by
  rintro expiry expires grant given ⟨endpoint, reaches⟩
  by_contra exceeds
  have alive := issues.live registered
  obtain ⟨sound, delegable⟩ := issues.checked
  obtain ⟨⟨capability, known, specified⟩, unsigned, -⟩ := delegableGrant_ok (delegable grant given)
  rw [expires] at alive
  simp only [beforeExpiry, expiryCovers, decide_eq_true_eq] at alive exceeds
  have force : grant.InForce capability expiry := ⟨known, specified, unsigned, by omega⟩
  have live : beforeExpiry expiry (expiryOf create.expiresAtUnixMs) = true :=
    (beforeExpiry_expiryOf sound).mpr (by omega)
  have allows := within capability endpoint expiry (Nat.le_of_lt alive) ⟨live, grant, given, force, reaches⟩
  have expired := allows.1
  rw [expires] at expired
  simp [beforeExpiry] at expired

end

theorem Issues.serve : (state.serve decoders crypto call).Registered crypto issued (.ofRequest create) := by
  rw [ControlState.serve, issues.allowed, issues.made]
  constructor
  · exact (ControlState.mem_perform_created issues.checked.1 issues.stored).1
  · exact (ControlState.mem_perform_created issues.checked.1 issues.stored).2

end Link

/-! ### Chains -/

/-- The holder's token was created with the issuer's, or with one created with it in turn, and the issuer has
not been revoked since. -/
inductive Delegated (decoders : Decoders) (crypto : Primitives) (start : ControlState) :
    List TokenCall → Credential → Credential → Prop where
  | direct {before : List TokenCall} {call : TokenCall} {issuer issued : Credential} {create : CreateTokenRequest}
      (issues : Issues decoders crypto (before.foldl (ControlState.serve decoders crypto) start) call issuer issued
        create) :
      Delegated decoders crypto start (before ++ [call]) issuer issued
  | onward {before : List TokenCall} {call : TokenCall} {issuer holder issued : Credential}
      {create : CreateTokenRequest} (delegated : Delegated decoders crypto start before issuer holder)
      (issues : Issues decoders crypto (before.foldl (ControlState.serve decoders crypto) start) call holder issued
        create) :
      Delegated decoders crypto start (before ++ [call]) issuer issued
  | later {before : List TokenCall} {call : TokenCall} {issuer holder : Credential}
      (delegated : Delegated decoders crypto start before issuer holder)
      (kept : tokenAction decoders crypto (before.foldl (ControlState.serve decoders crypto) start) call =
        .revoke issuer.principalId → call.stored = false) :
      Delegated decoders crypto start (before ++ [call]) issuer holder

/-- A `CreateToken` request that creates a token is made with a token that outlasts it. -/
def Restrained (decoders : Decoders) (crypto : Primitives) (state : ControlState) (call : TokenCall) : Prop :=
  ∀ issuer issued create expiresAtMs, Issues decoders crypto state call issuer issued create →
    (tokenHash crypto issuer.token, ⟨issuer.principalId, expiresAtMs⟩) ∈ state.tokenRegistry.tokens →
      Outlasts expiresAtMs create

section Chain
variable {decoders : Decoders} {crypto : Primitives} {start state : ControlState} {calls : List TokenCall}
  {call : TokenCall} {issuer holder issued : Credential} {create : CreateTokenRequest} {holding : Holding}

section
variable (issues : Issues decoders crypto state call issuer issued create)
include issues

theorem Issues.step (registered : state.Registered crypto issuer holding) (restrained : Restrained decoders crypto state call) :
    ∃ inner, (state.serve decoders crypto call).Registered crypto issued inner ∧ inner.Within holding :=
  ⟨.ofRequest create, issues.serve,
    issues.within registered (restrained issuer issued create _ issues registered.record)⟩

theorem Issues.kept : tokenAction decoders crypto state call = .revoke principalId → call.stored = false := by
  intro revokes
  rw [issues.allowed] at revokes
  cases revokes

end

theorem Delegated.within (delegated : Delegated decoders crypto start calls issuer holder)
    (fresh : Run.Meets (ControlState.Fresh crypto) (ControlState.serve decoders crypto) start calls)
    (restrained : Run.Meets (Restrained decoders crypto) (ControlState.serve decoders crypto) start calls) :
    ∃ outer inner, (calls.foldl (ControlState.serve decoders crypto) start).Registered crypto issuer outer ∧
      (calls.foldl (ControlState.serve decoders crypto) start).Bounded crypto holder inner ∧ inner.Within outer := by
  -- A holder may have been revoked before the last call, so it is only bounded by what it was given;
  -- one that creates a token authenticates, and so is registered.
  induction delegated with
  | direct issues =>
    obtain ⟨-, isFresh, -⟩ := Run.meets_append.mp fresh
    obtain ⟨-, isRestrained, -⟩ := Run.meets_append.mp restrained
    obtain ⟨outer, registered⟩ := issues.registered
    obtain ⟨inner, created, within⟩ := issues.step registered isRestrained
    rw [List.foldl_concat]
    exact ⟨outer, inner, registered.serve isFresh issues.kept, created.bounded, within⟩
  | onward delegated issues ih =>
    obtain ⟨freshBefore, isFresh, -⟩ := Run.meets_append.mp fresh
    obtain ⟨restrainedBefore, isRestrained, -⟩ := Run.meets_append.mp restrained
    obtain ⟨outer, middle, registered, bounded, above⟩ := ih freshBefore restrainedBefore
    obtain ⟨inner, created, within⟩ := issues.step (bounded.of_authenticate issues.authenticates) isRestrained
    rw [List.foldl_concat]
    exact ⟨outer, inner, registered.serve isFresh issues.kept, created.bounded, within.trans above⟩
  | later delegated kept ih =>
    obtain ⟨freshBefore, isFresh, -⟩ := Run.meets_append.mp fresh
    obtain ⟨restrainedBefore, -⟩ := Run.meets_append.mp restrained
    obtain ⟨outer, inner, registered, bounded, within⟩ := ih freshBefore restrainedBefore
    rw [List.foldl_concat]
    exact ⟨outer, inner, registered.serve isFresh kept, bounded.serve isFresh, within⟩

/-- No token of the run has more authority than one it descends from, from the last call on. -/
def Contained (decoders : Decoders) (crypto : Primitives) (start : ControlState) (calls : List TokenCall) : Prop :=
  ∀ issuer holder, Delegated decoders crypto start calls issuer holder →
    ∀ nowMs, (∀ call ∈ calls.getLast?, call.nowMs ≤ nowMs) → ∀ capability endpoint,
      (calls.foldl (ControlState.serve decoders crypto) start).Empowers crypto holder capability endpoint nowMs →
      (calls.foldl (ControlState.serve decoders crypto) start).Empowers crypto issuer capability endpoint nowMs

/-- Over every run of calls with fresh tokens: in every state, at every time from then on, each token has at
most the authority of those it descends from, exactly if every token of the run was created with one that
outlasts it. -/
theorem delegation_contained_iff
    (fresh : Run.Meets (ControlState.Fresh crypto) (ControlState.serve decoders crypto) start calls) :
    (∀ before after, calls = before ++ after → Contained decoders crypto start before) ↔
      Run.Meets (Restrained decoders crypto) (ControlState.serve decoders crypto) start calls := by
  constructor
  · intro contained
    refine Run.meets_iff.mpr ?_
    rintro before call after rfl issuer issued create expiresAtMs issues member
    have isFresh := Run.meets_iff.mp fresh before call after rfl
    have registered : (before.foldl (ControlState.serve decoders crypto) start).Registered crypto issuer
        ⟨expiresAtMs, _⟩ := ⟨member, rfl⟩
    refine issues.outlasts registered fun capability endpoint later since allows => ?_
    have held := contained (before ++ [call]) after (by simp) issuer issued (.direct issues) later
      (by simpa using since) capability endpoint
    rw [List.foldl_concat] at held
    exact (registered.serve isFresh issues.kept).empowers_iff.mp (held (issues.serve.empowers_iff.mpr allows))
  · rintro restrained before after rfl issuer holder delegated nowMs - capability endpoint empowered
    obtain ⟨outer, inner, registered, bounded, within⟩ :=
      delegated.within (Run.meets_append.mp fresh).1 (Run.meets_append.mp restrained).1
    have allows := (bounded.of_authenticate empowered.1).empowers_iff.mp empowered
    exact registered.empowers_iff.mpr (within capability endpoint nowMs allows)

end Chain

/-- A daemon with one token, which expires at 100 and may delegate `PeerRead` without a limit. -/
def expiringState : ControlState :=
  { developmentToken := none
    tokenRegistry := TokenRegistry.createToken transparent .new (some 100) [7]
    tokenGrants := OrderedMap.empty.insert 1
      [{ capability := Capability.tokenAdmin.number },
        { capability := Capability.peerRead.number, delegable := true }]
    nodeEndpointId := copyInto 32 []
    secondaries := []
    sessionPeer := fun _ => none }

/-- A request for a token with `PeerRead` and an expiry of its own. -/
def readerToken (expiresAtUnixMs : Int) : CreateTokenRequest :=
  { grants := [{ capability := Capability.peerRead.number }], expiresAtUnixMs }

/-- Decoders of a `CreateToken` request. -/
def readerDecoders (expiresAtUnixMs : Int) : Decoders :=
  { fieldDecoders with createToken := fun _ => some (readerToken expiresAtUnixMs) }

/-- The request made at 50, which creates the token `[9]`. -/
def readerCall : TokenCall :=
  { request := ⟨.token .createToken, []⟩, token := some [7], peer := true, nowMs := 50, raw := [9], stored := true }

section
variable (allowed : tokenAction (readerDecoders expiresAtUnixMs) transparent expiringState readerCall =
  .create (readerToken expiresAtUnixMs))
include allowed

theorem readerCall_issues :
    Issues (readerDecoders expiresAtUnixMs) transparent expiringState readerCall ⟨[7], 1⟩ ⟨[9], 2⟩
      (readerToken expiresAtUnixMs) where
  presented := rfl
  authenticates := by decide +kernel
  bearer := by decide
  allowed := allowed
  stored := rfl
  made := rfl

theorem readerCall_delegated :
    Delegated (readerDecoders expiresAtUnixMs) transparent expiringState [readerCall] ⟨[7], 1⟩ ⟨[9], 2⟩ := by
  rw [← List.nil_append [readerCall]]
  exact .direct (readerCall_issues allowed)

end

/-- A token that expires at 80, before its issuer's. -/
theorem readerToken_contained :
    Delegated (readerDecoders 80) transparent expiringState [readerCall] ⟨[7], 1⟩ ⟨[9], 2⟩ ∧
      Contained (readerDecoders 80) transparent expiringState [readerCall] := by
  have allowed : tokenAction (readerDecoders 80) transparent expiringState readerCall = .create (readerToken 80) := by
    decide +kernel
  have fresh : Run.Meets (ControlState.Fresh transparent) (ControlState.serve (readerDecoders 80) transparent)
      expiringState [readerCall] := by decide +kernel
  refine ⟨readerCall_delegated allowed,
    (delegation_contained_iff fresh).mpr ⟨?_, trivial⟩ [readerCall] [] rfl⟩
  intro issuer issued create expiresAtMs issues member expiry expires grant given _
  have registered : expiringState.tokenRegistry.tokens.get? (tokenHash transparent [7]) = some ⟨1, some 100⟩ := by
    decide +kernel
  have presented : [7] = issuer.token := Option.some_inj.mp issues.presented
  rw [← presented, ← get?_eq_some, registered, expires] at member
  obtain rfl : 100 = expiry := Option.some_inj.mp (congrArg TokenRecord.expiresAtMs (Option.some_inj.mp member))
  cases allowed.symm.trans issues.allowed
  exact .inl (by decide)

/-- A token without an expiry still reads peers at 100, when its issuer's does not authenticate. -/
theorem readerToken_outlives :
    Run.Meets (ControlState.Fresh transparent) (ControlState.serve (readerDecoders 0) transparent) expiringState
        [readerCall] ∧
      Delegated (readerDecoders 0) transparent expiringState [readerCall] ⟨[7], 1⟩ ⟨[9], 2⟩ ∧
      (expiringState.serve (readerDecoders 0) transparent readerCall).Empowers transparent ⟨[9], 2⟩ .peerRead [5] 100 ∧
      ¬ (expiringState.serve (readerDecoders 0) transparent readerCall).Empowers transparent ⟨[7], 1⟩ .peerRead
        [5] 100 :=
  ⟨by decide +kernel, readerCall_delegated (by decide +kernel), by decide +kernel, by decide +kernel⟩

end UniversalMesh.Control
