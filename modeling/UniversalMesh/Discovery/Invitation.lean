import UniversalMesh.Lib.OrderedMap
import UniversalMesh.Lib.Run
import UniversalMesh.Wire.Field

/-! `umc-discovery/src/invitation.rs`: the invitations a daemon has issued and the admission of a peer that
proves it knows the key of one. The store is a hash map, so `authenticate` meets the invitations in any order.
-/
namespace UniversalMesh.Discovery
open Wire OrderedMap

def maxInvitations : Nat := 256

structure Invitation where
  id : Octets 16
  key : Octets 32
  expiresAtMs : UInt64
  (singleUse used : Bool)
  deriving DecidableEq

inductive InvitationError where
  | unknown | expired | alreadyUsed | full
  deriving DecidableEq, Repr

namespace Invitation

/-- Neither expired nor consumed. -/
def Usable (nowMs : UInt64) (invitation : Invitation) : Prop :=
  nowMs < invitation.expiresAtMs ∧ (invitation.singleUse = false ∨ invitation.used = false)
  deriving Decidable

def unconsumed (invitation : Invitation) : Bool := !invitation.singleUse || !invitation.used

/-- A single-use invitation is consumed by a success. -/
def consume (invitation : Invitation) : Invitation :=
  if invitation.singleUse then { invitation with used := true } else invitation

end Invitation

structure InvitationStore where
  invitations : OrderedMap (Octets 16) Invitation

namespace InvitationStore

def new : InvitationStore := ⟨.empty⟩

section
variable (store : InvitationStore)

/-- `entropy` is what the two fills of the entropy source return. -/
def create (expiresAtMs : UInt64) (singleUse : Bool)
    (entropy : Octets 16 × Octets 32) : Except InvitationError (Invitation × InvitationStore) :=
  if maxInvitations ≤ store.invitations.size then .error .full
  else
    let invitation : Invitation :=
      { id := entropy.1, key := entropy.2, expiresAtMs, singleUse, used := false }
    .ok (invitation, ⟨store.invitations.insert entropy.1 invitation⟩)

/-- Unknown and expired invitations are told apart before the key is looked at, a wrong key is `Unknown` again;
success consumes the invitation. -/
def validate (id : Octets 16) (key : Bytes) (nowMs : UInt64) :
    Except InvitationError InvitationStore :=
  match store.invitations.get? id with
  | none => .error .unknown
  | some invitation =>
    if invitation.expiresAtMs ≤ nowMs then .error .expired
    else if invitation.singleUse && invitation.used then .error .alreadyUsed
    else if invitation.key.1 ≠ key then .error .unknown
    else .ok ⟨store.invitations.insert id invitation.consume⟩

def pruneExpired (nowMs : UInt64) : InvitationStore :=
  ⟨store.invitations.filter fun entry => nowMs < entry.2.expiresAtMs⟩

def firstUnconsumed (traversal : Traversal (Octets 16 × Invitation))
    (nowMs : UInt64) : Option (Octets 16 × Invitation) :=
  (traversal.order (store.pruneExpired nowMs).invitations.entries).find? fun entry => entry.2.unconsumed

/-- `authenticate`: what it returns and the store it leaves. The predicate is asked about the first unconsumed
invitation only. -/
def authenticate (traversal : Traversal (Octets 16 × Invitation))
    (nowMs : UInt64) (accepts : Octets 32 → Bool) :
    Except InvitationError (Octets 32) × InvitationStore :=
  let live := store.pruneExpired nowMs
  match (store.firstUnconsumed traversal nowMs).filter fun entry => accepts entry.2.key with
  | none => (.error .unknown, live)
  | some (id, invitation) => (.ok invitation.key, ⟨live.invitations.insert id invitation.consume⟩)

def revoke (id : Octets 16) : InvitationStore :=
  ⟨store.invitations.erase id⟩

/-- An invitation of the store that can still be used. -/
def Offers (nowMs : UInt64) (entry : Octets 16 × Invitation) : Prop :=
  entry ∈ store.invitations ∧ entry.2.Usable nowMs

end

variable {store : InvitationStore} {traversal : Traversal (Octets 16 × Invitation)} {nowMs : UInt64}
  {accepts : Octets 32 → Bool} {entry : Octets 16 × Invitation}

theorem offers_iff : store.Offers nowMs entry ↔
    entry ∈ (store.pruneExpired nowMs).invitations.entries ∧ entry.2.unconsumed = true := by
  simp only [Offers, Invitation.Usable, Invitation.unconsumed, pruneExpired, mem_entries,
    mem_filter, decide_eq_true_eq, Bool.or_eq_true, Bool.not_eq_true', and_assoc]

theorem firstUnconsumed_offers (found : store.firstUnconsumed traversal nowMs = some entry) :
    store.Offers nowMs entry := by
  have fresh := List.find?_some found
  exact offers_iff.mpr ⟨(traversal.perm _).mem_iff.mp (List.mem_of_find?_eq_some found), fresh⟩

theorem firstUnconsumed_of_offers (offered : store.Offers nowMs entry) :
    ∃ first, store.firstUnconsumed traversal nowMs = some first := by
  obtain ⟨member, fresh⟩ := offers_iff.mp offered
  apply Option.isSome_iff_exists.mp
  apply List.find?_isSome.mpr
  exact ⟨entry, (traversal.perm _).mem_iff.mpr member, fresh⟩

theorem firstUnconsumed_startingAt (offered : store.Offers nowMs entry) :
    store.firstUnconsumed (.startingAt entry) nowMs = some entry := by
  obtain ⟨member, fresh⟩ := offers_iff.mp offered
  simp [firstUnconsumed, Traversal.startingAt, member, fresh]

theorem authenticate_of_first (first : store.firstUnconsumed traversal nowMs = some entry) :
    (store.authenticate traversal nowMs accepts).1 =
      if accepts entry.2.key then .ok entry.2.key else .error .unknown := by
  unfold authenticate
  rw [first]
  by_cases accepted : accepts entry.2.key = true <;> simp [Option.filter, accepted]

theorem validate_ok {id : Octets 16} (valid : store.validate id key nowMs = .ok next) :
    ∃ invitation, store.invitations.get? id = some invitation ∧ invitation.Usable nowMs ∧
      next = ⟨store.invitations.insert id invitation.consume⟩ := by
  unfold validate at valid
  cases found : store.invitations.get? id <;> grind [Invitation.Usable]

/-- Given a usable invitation whose key is accepted, the admission succeeds in every traversal
exactly when the keys of all usable invitations are accepted. -/
theorem authenticate_complete_iff (store : InvitationStore) (nowMs : UInt64) (accepts : Octets 32 → Bool)
    (admissible : ∃ entry, store.Offers nowMs entry ∧ accepts entry.2.key = true) :
    (∀ traversal, ∃ key, (store.authenticate traversal nowMs accepts).1 = .ok key ∧ accepts key = true) ↔
      ∀ entry, store.Offers nowMs entry → accepts entry.2.key = true := by
  constructor
  · intro complete entry offered
    by_contra refused
    -- the traversal may meet a refused invitation first
    obtain ⟨key, success, -⟩ := complete (.startingAt entry)
    rw [authenticate_of_first (firstUnconsumed_startingAt offered), if_neg refused] at success
    cases success
  · intro all traversal
    obtain ⟨entry, offered, -⟩ := admissible
    obtain ⟨first, found⟩ := firstUnconsumed_of_offers offered
    have accepted := all first (firstUnconsumed_offers found)
    refine ⟨first.2.key, ?_, accepted⟩
    rw [authenticate_of_first found, if_pos accepted]

def sampleBytes (n : Nat) (byte : UInt8) : Octets n := ⟨.replicate n byte, List.length_replicate⟩

/-- An invitation whose id and key repeat one byte. -/
def sampleInvitation (byte : UInt8) : Invitation :=
  { id := sampleBytes 16 byte, key := sampleBytes 32 byte, expiresAtMs := 100, singleUse := true, used := false }

/-- A store with the sample invitations of the bytes. -/
def sampleStore (bytes : List UInt8) : InvitationStore :=
  ⟨bytes.foldl (fun map byte => map.insert (sampleInvitation byte).id (sampleInvitation byte)) .empty⟩

/-- A live invitation, one that was used and one that has expired. -/
def mixedStore : InvitationStore :=
  ⟨[sampleInvitation 1, { sampleInvitation 2 with used := true }, { sampleInvitation 3 with expiresAtMs := 0 }].foldl
    (fun map invitation => map.insert invitation.id invitation) .empty⟩

theorem mixedStore_admits : mixedStore.invitations.size = 3 ∧ ∀ traversal, ∃ key,
    (mixedStore.authenticate traversal 0 (fun key => key == (sampleInvitation 1).key)).1 = .ok key ∧
      (key == (sampleInvitation 1).key) = true := by
  have offered : mixedStore.Offers 0 ((sampleInvitation 1).id, sampleInvitation 1) :=
    ⟨get?_eq_some.mp (by decide +kernel), by decide +kernel⟩
  have only : ∀ entry ∈ mixedStore.invitations.entries, entry.2.Usable 0 → (entry.2.key == (sampleInvitation 1).key) =
      true := by
    decide +kernel
  refine ⟨by decide +kernel, ?_⟩
  exact (authenticate_complete_iff mixedStore 0 _ ⟨_, offered, by decide +kernel⟩).mpr fun entry offered =>
    only entry offered.1 offered.2

/-- With a second live invitation, the holder of the first is refused by a traversal that meets the second
before it. -/
theorem sampleStore_refuses : let store := sampleStore [1, 2]
    let entry := ((sampleInvitation 1).id, sampleInvitation 1)
    store.Offers 0 entry ∧ (store.authenticate (.startingAt ((sampleInvitation 2).id, sampleInvitation 2)) 0
      fun key => key == entry.2.key).1 = .error .unknown := by
  refine ⟨⟨get?_eq_some.mp ?_, ?_⟩, ?_⟩ <;> decide +kernel

end InvitationStore

inductive InvitationCall where
  | create (expiresAtMs : UInt64) (singleUse : Bool) (entropy : Octets 16 × Octets 32)
  | validate (id : Octets 16) (key : Bytes) (nowMs : UInt64)
  | authenticate (traversal : Traversal (Octets 16 × Invitation)) (nowMs : UInt64) (accepts : Octets 32 → Bool)
  | revoke (id : Octets 16)
  | pruneExpired (nowMs : UInt64)

namespace InvitationCall

def created? : InvitationCall → Option (Octets 16)
  | create _ _ entropy => some entropy.1
  | _ => none

def revoked? : InvitationCall → Option (Octets 16)
  | revoke id => some id
  | _ => none

/-- Not expired at the time the call is given. -/
def Unexpired (entry : Octets 16 × Invitation) : InvitationCall → Prop
  | validate _ _ nowMs | authenticate _ nowMs _ => nowMs < entry.2.expiresAtMs
  | _ => True

/-- The error of the call or the invitation by which it succeeds, and the store it leaves. -/
def perform (store : InvitationStore) :
    InvitationCall → Except InvitationError (Option (Octets 16 × Invitation)) × InvitationStore
  | create expiresAtMs singleUse entropy => match store.create expiresAtMs singleUse entropy with
    | .ok (_, next) => (.ok none, next)
    | .error e => (.error e, store)
  | validate id key nowMs => match store.validate id key nowMs with
    | .ok next => (.ok ((store.invitations.get? id).map (id, ·)), next)
    | .error e => (.error e, store)
  | authenticate traversal nowMs accepts =>
    let (answer, next) := store.authenticate traversal nowMs accepts
    (answer.map fun _ => store.firstUnconsumed traversal nowMs, next)
  | revoke id => (.ok none, store.revoke id)
  | pruneExpired nowMs => (.ok none, store.pruneExpired nowMs)

/-- What a call with this answer may have done. -/
def Explains (store next : InvitationStore) (call : InvitationCall) :
    Except InvitationError (Option (Octets 16 × Invitation)) → Prop
  | .error _ => call.revoked? = none ∧ (∀ entry ∈ next.invitations, entry ∈ store.invitations) ∧
      ∀ entry ∈ store.invitations, call.Unexpired entry → entry ∈ next.invitations
  | .ok none => ∀ entry ∈ next.invitations,
      entry ∈ store.invitations ∧ call.revoked? ≠ some entry.1 ∨ call.created? = some entry.1
  | .ok (some entry) => entry ∈ store.invitations ∧ call.Unexpired entry ∧ entry.2.unconsumed = true ∧
      call.created? = none ∧ call.revoked? = none ∧
      ∃ kept : InvitationStore, (∀ other ∈ kept.invitations, other ∈ store.invitations) ∧
        next = ⟨kept.invitations.insert entry.1 entry.2.consume⟩

theorem explains_error (kept : call.revoked? = none) : Explains store store call (.error e) :=
  ⟨kept, fun _ member => member, fun _ member _ => member⟩

/-- Every call does what its answer says. -/
theorem perform_explained (store : InvitationStore) (call : InvitationCall) :
    Explains store (call.perform store).2 call (call.perform store).1 := by
  cases call with
  | create expiresAtMs singleUse entropy =>
    by_cases full : maxInvitations ≤ store.invitations.size
    · simp only [perform, InvitationStore.create, full, ite_true]
      exact explains_error rfl
    · simp only [perform, InvitationStore.create, full, ite_false, Explains]
      grind [created?, revoked?, mem_insert]
  | validate id key nowMs =>
    cases valid : store.validate id key nowMs with
    | error e =>
      simp only [perform, valid]
      exact explains_error rfl
    | ok next =>
      obtain ⟨invitation, found, usable, rfl⟩ := InvitationStore.validate_ok valid
      have offered : store.Offers nowMs (id, invitation) := ⟨get?_eq_some.mp found, usable⟩
      simp only [perform, valid, found, Option.map_some]
      exact ⟨offered.1, usable.1, (InvitationStore.offers_iff.mp offered).2, rfl, rfl, store, fun _ kept => kept, rfl⟩
  | authenticate traversal nowMs accepts =>
    cases first : (store.firstUnconsumed traversal nowMs).filter fun entry => accepts entry.2.key with
    | none =>
      simp only [perform, InvitationStore.authenticate, first]
      exact ⟨rfl, fun _ kept => (mem_filter.mp kept).1,
        fun _ member live => mem_filter.mpr ⟨member, decide_eq_true live⟩⟩
    | some entry =>
      have found := (Option.filter_eq_some_iff.mp first).1
      have offered := InvitationStore.firstUnconsumed_offers found
      simp only [perform, InvitationStore.authenticate, first, Except.map]
      rw [found]
      exact ⟨offered.1, offered.2.1, (InvitationStore.offers_iff.mp offered).2, rfl, rfl, store.pruneExpired nowMs,
        fun _ kept => (mem_filter.mp kept).1, rfl⟩
  | revoke id =>
    intro entry member
    obtain ⟨member, differ⟩ := mem_erase.mp member
    exact .inl ⟨member, fun same => differ (Option.some.inj same).symm⟩
  | pruneExpired nowMs => exact fun entry member => .inl ⟨(mem_filter.mp member).1, nofun⟩

end InvitationCall

/-- A store with the ids of the invitations that were issued, accepted and revoked. -/
structure InvitationHistory where
  store : InvitationStore
  (issued accepted revoked : List (Octets 16))

namespace InvitationHistory

def start : InvitationHistory := ⟨.new, [], [], []⟩

variable (h : InvitationHistory) (call : InvitationCall)

def step : InvitationHistory where
  store := (call.perform h.store).2
  issued := call.created?.toList ++ h.issued
  accepted := match (call.perform h.store).1 with
    | .ok (some entry) => entry.1 :: h.accepted
    | _ => h.accepted
  revoked := (call.revoked?.filter (· ∈ h.issued)).toList ++ h.revoked

/-- The call does not create an invitation under an id that was issued before. -/
def Fresh : Prop := ∀ id ∈ call.created?, id ∉ h.issued

/-- What the call accepts is not expired or revoked, and was not accepted before if it is for a single use; a
call that fails leaves every unexpired invitation as it is. -/
def Proper : Prop :=
  match (call.perform h.store).1 with
  | .ok (some entry) => call.Unexpired entry ∧ entry.1 ∉ h.revoked ∧
      (entry.2.singleUse = true → entry.1 ∉ h.accepted)
  | .ok none => True
  | .error _ => ∀ entry, call.Unexpired entry →
      (entry ∈ (h.step call).store.invitations ↔ entry ∈ h.store.invitations)

/-- The invitations in the store were issued and not revoked, and those for a single use that were accepted
are marked as used. -/
def Tidy : Prop :=
  (∀ id, id ∈ h.revoked ∨ id ∈ h.accepted → id ∈ h.issued) ∧
    ∀ entry ∈ h.store.invitations, entry.1 ∈ h.issued ∧ entry.1 ∉ h.revoked ∧
      (entry.2.singleUse = true → entry.1 ∈ h.accepted → entry.2.used = true)

theorem tidy_step (tidy : h.Tidy) (fresh : h.Fresh call) :
    (h.step call).Tidy := by
  have explained := call.perform_explained h.store
  obtain ⟨issued, tidy⟩ := tidy
  unfold Fresh at fresh
  simp only [Tidy, step, List.mem_append, Option.mem_toList, Option.filter_eq_some_iff, decide_eq_true_eq]
  cases answer : (call.perform h.store).1 with
  | error e =>
    rw [answer] at explained
    obtain ⟨kept, fewer, -⟩ := explained
    constructor <;> grind
  | ok accepted =>
    rw [answer] at explained
    cases accepted with
    | none =>
      simp only [InvitationCall.Explains] at explained
      constructor <;> grind
    | some entry =>
      obtain ⟨member, -, -, created, revoked, kept, fewer, left⟩ := explained
      simp only [left, mem_insert]
      constructor <;> grind [Invitation.consume]

theorem proper_of_tidy (tidy : h.Tidy) (_ : h.Fresh call) :
    h.Proper call := by
  have explained := call.perform_explained h.store
  unfold Proper
  cases answer : (call.perform h.store).1 with
  | error e =>
    rw [answer] at explained
    intro entry unexpired
    exact ⟨explained.2.1 entry, fun member => explained.2.2 entry member unexpired⟩
  | ok accepted =>
    cases accepted with
    | none => trivial
    | some entry =>
      rw [answer] at explained
      obtain ⟨member, unexpired, unconsumed, -⟩ := explained
      obtain ⟨-, notRevoked, marked⟩ := tidy.2 entry member
      refine ⟨unexpired, notRevoked, fun single again => ?_⟩
      simp [Invitation.unconsumed, single, marked single again] at unconsumed

/-- In every run whose invitations have ids of their own, each call is proper. -/
theorem single_use (calls : List InvitationCall) (fresh : Run.Meets Fresh step start calls) :
    Run.Meets Proper step start calls := by
  refine Run.meets_of_invariant tidy_step proper_of_tidy ?_ fresh
  simp [Tidy, start, InvitationStore.new, not_mem_empty]

/-- Two invitations; the first is validated twice, the second revoked and then asked for. -/
theorem single_use_validated : Run.Meets Proper step start
    [.create 100 true (.fill 16 1, .fill 32 1), .create 200 false (.fill 16 2, .fill 32 2),
      .validate (.fill 16 1) (List.replicate 32 1) 5, .validate (.fill 16 1) (List.replicate 32 1) 6,
      .revoke (.fill 16 2), .validate (.fill 16 2) (List.replicate 32 2) 7] := by
  have apart : Octets.fill 16 2 ≠ Octets.fill 16 1 := by decide
  exact single_use _ (by simp [Run.Meets, Fresh, InvitationCall.created?, start, step, apart])

end InvitationHistory
end UniversalMesh.Discovery
