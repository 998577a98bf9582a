import UniversalMesh.Lib.Run
import UniversalMesh.Wire.Field

/-! `umc-routing/src/duplicate.rs` and `request.rs`: the cache of route requests seen, and the admission of a
request. Times are milliseconds. A cache stays within its cap and has one entry for an identity; both are part
of the type. -/
namespace UniversalMesh.Routing
open MachineWord Wire

section

def maxHopLimit : Nat := 32
def defaultFanout : Nat := 3
def maxFanout : Nat := 8
def maxRequestLifetimeMs : Nat := 5 * 60 * 1000

structure RequestIdentity where
  requestId : Octets 16
  adjacentSender : Bytes
  deriving DecidableEq

structure CachedRequest where
  identity : RequestIdentity
  (firstSeen bestHopLimit expiry : Nat)
  forwardedPeers : List Bytes
  deriving DecidableEq

structure RequestCache where
  entries : List CachedRequest
  (maxEntries retention : Nat)
  bounded : entries.length ≤ maxEntries
  distinct : entries.Pairwise fun a b => a.identity ≠ b.identity
  deriving DecidableEq

namespace RequestCache

def new (maxEntries retention : Nat) : RequestCache :=
  { entries := [], maxEntries, retention, bounded := Nat.zero_le _, distinct := .nil }

variable (cache : RequestCache) (identity : RequestIdentity)

/-- The entry that `find` meets. -/
def entryOf : Option CachedRequest :=
  cache.entries.find? fun e => e.identity = identity

theorem entryOf_eq_some {cache : RequestCache} {identity : RequestIdentity} {e : CachedRequest} :
    cache.entryOf identity = some e ↔ e ∈ cache.entries ∧ e.identity = identity := by
  constructor
  · intro found
    exact ⟨List.mem_of_find?_eq_some found, by simpa using List.find?_some found⟩
  · rintro ⟨member, rfl⟩
    obtain ⟨before, after, shape⟩ := List.append_of_mem member
    have order := cache.distinct
    rw [shape] at order
    have earlier : before.find? (fun other => decide (other.identity = e.identity)) = none := by
      refine List.find?_eq_none.mpr fun other here => ?_
      simpa using (List.pairwise_append.mp order).2.2 other here e List.mem_cons_self
    rw [entryOf, shape, List.find?_append, earlier]
    simp

theorem entryOf_eq_none {cache : RequestCache} {identity : RequestIdentity} :
    cache.entryOf identity = none ↔ ∀ e ∈ cache.entries, e.identity ≠ identity := by
  simp [entryOf]

def prune (now : Nat) : RequestCache :=
  { cache with
    entries := cache.entries.filter fun e => e.expiry > now
    bounded := (List.length_filter_le ..).trans cache.bounded
    distinct := cache.distinct.filter _ }

/-- The entry takes a better hop limit and a new expiry. One entry has the identity, so changing every such
entry changes that one. -/
def improve (hopLimit now : Nat) : RequestCache :=
  { cache with
    entries := cache.entries.map fun e =>
      if e.identity = identity then
        { e with bestHopLimit := hopLimit, expiry := saturatingAdd now cache.retention }
      else e
    bounded := by simpa using cache.bounded
    distinct := by
      refine List.pairwise_map.mpr (cache.distinct.imp fun {a b} differ => ?_)
      split <;> split <;> simpa using differ }

/-- `push_back`, and `pop_front` above the cap. -/
def push (e : CachedRequest) (absent : cache.entryOf e.identity = none) : RequestCache :=
  have distinct : (cache.entries ++ [e]).Pairwise fun a b => a.identity ≠ b.identity :=
    List.pairwise_append.mpr ⟨cache.distinct, List.pairwise_singleton _ _, fun a member b last => by
      rw [List.mem_singleton.mp last]
      exact entryOf_eq_none.mp absent a member⟩
  if above : (cache.entries ++ [e]).length > cache.maxEntries then
    { cache with
      entries := (cache.entries ++ [e]).tail
      bounded := by have := cache.bounded; simp at above ⊢; omega
      distinct := distinct.tail }
  else { cache with entries := cache.entries ++ [e], bounded := Nat.not_lt.mp above, distinct }

/-- `RequestCache::admit`: the entry of a duplicate, or of an improvement that names a
peer forwarded to before. -/
def admitIdentity (hopLimit now : Nat) (forwardTo : List Bytes) : Option CachedRequest × RequestCache :=
  match found : (cache.prune now).entryOf identity with
  | some existing =>
    if hopLimit ≤ existing.bestHopLimit then (some existing, cache.prune now)
    else if forwardTo.any fun p => existing.forwardedPeers.contains p then (some existing, cache.prune now)
    else (none, (cache.prune now).improve identity hopLimit now)
  | none =>
    (none, (cache.prune now).push
      { identity, firstSeen := now, bestHopLimit := hopLimit
        expiry := saturatingAdd now cache.retention, forwardedPeers := forwardTo } found)

/-- `already_forwarded`, which looks at expired entries too. -/
def alreadyForwarded (peer : Bytes) : Bool :=
  cache.entries.any fun e => e.identity = identity && e.forwardedPeers.contains peer

end RequestCache

inductive Admission where
  | admitted (hopLimit remainingLifetimeMs : Nat) (forwardTo : List Bytes) | suppress | drop
  deriving DecidableEq, Repr

inductive AdmissionError where
  | hopLimitZero | hopLimitExceeded | lifetimeTooLong | unknownFlag | fanoutExceeded | rateLimited
  deriving DecidableEq, Repr

/-- `requests_per_minute` is not read by the admission. -/
structure RequestPolicy where
  (maxFanout maxHops maxLifetimeMs : Nat)

def RequestPolicy.default : RequestPolicy :=
  { maxFanout := defaultFanout, maxHops := maxHopLimit, maxLifetimeMs := maxRequestLifetimeMs }

/-- What a call of `admit_request` is given for one identity. -/
structure RouteCall where
  flags : UInt8
  (hopLimit lifetimeMs : Nat)
  candidates : List Bytes
  now : Nat

namespace RouteCall
variable (policy : RequestPolicy) (call : RouteCall)

/-- The cheap field checks. -/
def checkFields : Except AdmissionError Unit :=
  if call.hopLimit = 0 then .error .hopLimitZero
  else if call.hopLimit > policy.maxHops ∨ call.hopLimit > maxHopLimit then .error .hopLimitExceeded
  else if call.lifetimeMs > policy.maxLifetimeMs ∨ call.lifetimeMs > maxRequestLifetimeMs then
    .error .lifetimeTooLong
  else if call.flags &&& 0xE0 ≠ 0 then .error .unknownFlag
  else .ok ()

/-- The candidates within the fanout. -/
def forwardTo : List Bytes :=
  call.candidates.take (min (min call.candidates.length policy.maxFanout) maxFanout)

end RouteCall

/-- `admit_request`: a known request passes again with a better hop limit, if its first peer has not had it. -/
def admitRequest (identity : RequestIdentity) (policy : RequestPolicy) (cache : RequestCache)
    (call : RouteCall) : Except AdmissionError Admission × RequestCache :=
  match call.checkFields policy with
  | .error error => (.error error, cache)
  | .ok () =>
    match call.forwardTo policy with
    | [] => (.ok (.admitted (call.hopLimit - 1) call.lifetimeMs []), cache)
    | first :: rest =>
      if cache.alreadyForwarded identity first then (.ok .suppress, cache)
      else
        let (existing, cache) := cache.admitIdentity identity call.hopLimit call.now (first :: rest)
        if existing.any fun e => e.bestHopLimit ≥ call.hopLimit then (.ok .suppress, cache)
        else if policy.maxFanout > maxFanout then (.error .fanoutExceeded, cache)
        else (.ok (.admitted (call.hopLimit - 1) call.lifetimeMs (first :: rest)), cache)

/-! The end of a request's retention. Expired entries leave the cache in `admit`, and the
test for a peer that was forwarded to runs before it, on whatever entries are left. -/

namespace RequestCache
variable {cache : RequestCache} {identity : RequestIdentity} {now : Nat}

/-- The last admission of the identity that the cache recorded is past its retention. -/
def Stale (cache : RequestCache) (identity : RequestIdentity) (now : Nat) : Prop :=
  ∀ e ∈ cache.entries, e.identity = identity → e.expiry ≤ now

theorem Stale.admits (stale : cache.Stale identity now) (hopLimit : Nat) (forwardTo : List Bytes) :
    (cache.admitIdentity identity hopLimit now forwardTo).1 = none := by
  have absent : (cache.prune now).entryOf identity = none := by
    refine entryOf_eq_none.mpr fun e member own => ?_
    obtain ⟨held, live⟩ := List.mem_filter.mp member
    have live : now < e.expiry := by simpa using live
    exact absurd (stale e held own) (Nat.not_le.mpr live)
  unfold admitIdentity
  split
  · next found => simp [absent] at found
  · rfl

end RequestCache

variable {identity : RequestIdentity} {policy : RequestPolicy} {cache : RequestCache} {call : RouteCall}

/-- The answer to a request that nothing in the cache speaks against. -/
theorem admitRequest_unknown (stale : cache.Stale identity call.now)
    (fields : call.checkFields policy = .ok ()) (peers : call.forwardTo policy = first :: rest)
    (unknown : cache.alreadyForwarded identity first = false) :
    (admitRequest identity policy cache call).1 =
      if policy.maxFanout > maxFanout then .error .fanoutExceeded
      else .ok (.admitted (call.hopLimit - 1) call.lifetimeMs (first :: rest)) := by
  have admits := stale.admits call.hopLimit (first :: rest)
  simp only [admitRequest, fields, peers, unknown, Bool.false_eq_true, if_false, admits, Option.any_none]
  split <;> rfl

/-- Past its retention a request is answered as an empty cache answers it, unless the entry is still there
and names the first of the peers: `already_forwarded` does not look at the expiry. -/
theorem admitRequest_stale_iff (stale : cache.Stale identity call.now) (maxEntries retention : Nat) :
    (admitRequest identity policy cache call).1 =
        (admitRequest identity policy (.new maxEntries retention) call).1 ↔
      ¬ (call.checkFields policy = .ok () ∧
        ∃ first ∈ (call.forwardTo policy).head?, cache.alreadyForwarded identity first = true) := by
  cases fields : call.checkFields policy with
  | error e => simp [admitRequest, fields]
  | ok passed =>
    cases peers : call.forwardTo policy with
    | nil => simp [admitRequest, fields, peers]
    | cons first rest =>
      have fresh : (RequestCache.new maxEntries retention).Stale identity call.now := nofun
      rw [admitRequest_unknown fresh fields peers rfl]
      cases known : cache.alreadyForwarded identity first with
      | true =>
        have suppressed : (admitRequest identity policy cache call).1 = .ok .suppress := by
          simp [admitRequest, fields, peers, known]
        rw [suppressed]
        split <;> simp [known]
      | false => simp [admitRequest_unknown stale fields peers known, known]

/-- A request to be forwarded to one peer. -/
def requestTo (peer : Bytes) (now : Nat) : RouteCall :=
  { flags := 0, hopLimit := 8, lifetimeMs := 1000, candidates := [peer], now }

def sampleIdentity : RequestIdentity := { requestId := Octets.fill 16 1, adjacentSender := [7] }

/-- The cache after one admission at time zero, kept for 30 seconds. -/
def seenOnce : RequestCache := (admitRequest sampleIdentity .default (.new 100 30000) (requestTo [2] 0)).2

theorem seenOnce_stale : seenOnce.Stale sampleIdentity 1000000 := by
  have expiry : ∀ e ∈ seenOnce.entries, e.expiry ≤ 1000000 := by decide
  exact fun e member _ => expiry e member

theorem admitRequest_stale_other_peer :
    (admitRequest sampleIdentity .default seenOnce (requestTo [3] 1000000)).1 =
      (admitRequest sampleIdentity .default (.new 100 30000) (requestTo [3] 1000000)).1 :=
  (admitRequest_stale_iff seenOnce_stale 100 30000).mpr (by decide)

/-- Presented again long after its retention, with the same peer in front, the request is suppressed. -/
theorem expired_request_suppressed :
    seenOnce.Stale sampleIdentity 1000000 ∧
      (admitRequest sampleIdentity .default seenOnce (requestTo [2] 1000000)).1 = .ok .suppress :=
  ⟨seenOnce_stale, by decide⟩

end

/-! The flood of one route request: the calls of `admit_request` for one identity, and the peers that their
results name. The cache records the peers of the first call only; a call that improves the hop limit is admitted
with its whole list. -/

namespace RequestCache
variable {cache : RequestCache} {identity : RequestIdentity} {e : CachedRequest} {now : Nat}

theorem entryOf_prune_some (found : cache.entryOf identity = some e) (live : now < e.expiry) :
    (cache.prune now).entryOf identity = some e := by
  obtain ⟨member, own⟩ := entryOf_eq_some.mp found
  exact entryOf_eq_some.mpr ⟨List.mem_filter.mpr ⟨member, by simpa using live⟩, own⟩

theorem entryOf_prune_none (absent : cache.entryOf identity = none) :
    (cache.prune now).entryOf identity = none :=
  entryOf_eq_none.mpr fun e member => entryOf_eq_none.mp absent e (List.mem_filter.mp member).1

theorem entryOf_improve (found : cache.entryOf identity = some e) :
    (cache.improve identity hopLimit now).entryOf identity =
      some { e with bestHopLimit := hopLimit, expiry := saturatingAdd now cache.retention } := by
  obtain ⟨member, own⟩ := entryOf_eq_some.mp found
  refine entryOf_eq_some.mpr ⟨List.mem_map.mpr ⟨e, member, ?_⟩, own⟩
  simp [own]

theorem entryOf_push (absent : cache.entryOf e.identity = none) (room : 0 < cache.maxEntries) :
    (cache.push e absent).entryOf e.identity = some e := by
  refine entryOf_eq_some.mpr ⟨?_, rfl⟩
  unfold push
  split
  · next above =>
    show e ∈ (cache.entries ++ [e]).tail
    cases shape : cache.entries with
    | nil =>
      simp only [shape, List.nil_append, List.length_singleton] at above
      omega
    | cons oldest rest => simp
  · exact List.mem_append_right _ (List.mem_singleton_self e)

/-- `RequestCache::admit` in full. -/
theorem admit_cases (cache : RequestCache) (identity : RequestIdentity) (hopLimit now : Nat)
    (forwardTo : List Bytes) :
    let outcome := cache.admitIdentity identity hopLimit now forwardTo
    let pruned := cache.prune now
    (∃ e, pruned.entryOf identity = some e ∧ hopLimit ≤ e.bestHopLimit ∧ outcome = (some e, pruned)) ∨
    (∃ e, pruned.entryOf identity = some e ∧ e.bestHopLimit < hopLimit ∧
      (∃ peer ∈ forwardTo, peer ∈ e.forwardedPeers) ∧ outcome = (some e, pruned)) ∨
    (∃ e, pruned.entryOf identity = some e ∧ e.bestHopLimit < hopLimit ∧
      outcome = (none, pruned.improve identity hopLimit now)) ∨
    ∃ absent : pruned.entryOf identity = none,
      outcome = (none, pruned.push
        { identity, firstSeen := now, bestHopLimit := hopLimit
          expiry := saturatingAdd now cache.retention, forwardedPeers := forwardTo } absent) := by
  unfold admitIdentity
  dsimp only
  split
  · next e found =>
    by_cases duplicate : hopLimit ≤ e.bestHopLimit
    · exact .inl ⟨e, found, duplicate, if_pos duplicate⟩
    have better : e.bestHopLimit < hopLimit := Nat.not_le.mp duplicate
    rw [if_neg duplicate]
    by_cases overlap : (forwardTo.any fun p => e.forwardedPeers.contains p) = true
    · refine .inr (.inl ⟨e, found, better, ?_, if_pos overlap⟩)
      simpa [List.any_eq_true] using overlap
    · exact .inr (.inr (.inl ⟨e, found, better, if_neg overlap⟩))
  · next absent => exact .inr (.inr (.inr ⟨absent, rfl⟩))

end RequestCache

/-- The cache during a flood, the lists that were forwarded to, and the peers of the
calls that improved the hop limit. -/
structure Flood where
  cache : RequestCache
  admitted : List (List Bytes)
  improved : List Bytes

section
variable (identity : RequestIdentity) (policy : RequestPolicy)

/-- The call finds the request with a lower hop limit, and its first candidate is not among the peers recorded.
-/
def Improves (cache : RequestCache) (call : RouteCall) : Prop :=
  call.checkFields policy = .ok () ∧ policy.maxFanout ≤ maxFanout ∧
    (∃ first ∈ (call.forwardTo policy).head?, cache.alreadyForwarded identity first = false) ∧
    ∃ e ∈ (cache.prune call.now).entryOf identity, e.bestHopLimit < call.hopLimit
  deriving Decidable

/-- The peers of the list that an admission forwards to. -/
def forwards : Except AdmissionError Admission → List (List Bytes)
  | .ok (.admitted _ _ forwardTo) => [forwardTo]
  | _ => []

def Flood.step (f : Flood) (call : RouteCall) : Flood :=
  { cache := (admitRequest identity policy f.cache call).2
    admitted := f.admitted ++ forwards (admitRequest identity policy f.cache call).1
    improved := if Improves identity policy f.cache call then f.improved ++ call.forwardTo policy
                else f.improved }

/-- An improving call names only peers that no first or improving call before it named. -/
def Flood.NamesNewPeers (f : Flood) (call : RouteCall) : Prop :=
  Improves identity policy f.cache call → ∀ e ∈ (f.cache.prune call.now).entryOf identity,
    ∀ peer ∈ call.forwardTo policy, peer ∉ e.forwardedPeers ∧ peer ∉ f.improved
  deriving Decidable

end

variable {identity : RequestIdentity} {policy : RequestPolicy}

/-- For a policy within the fanout limit: it forwards to no one and leaves the cache, or suppresses a duplicate,
or admits a new request, or admits an improvement, whose overlapping list it does not record and whose disjoint
list it records no peer of. -/
theorem admitRequest_cases (limited : policy.maxFanout ≤ maxFanout)
    (admitted : admitRequest identity policy cache call = (answer, cache')) :
    let improves := Improves identity policy cache call
    let pruned := cache.prune call.now
    let peers := call.forwardTo policy
    (¬ improves ∧ cache' = cache ∧ ∀ list ∈ forwards answer, list = []) ∨
    (¬ improves ∧ cache' = pruned ∧ forwards answer = []) ∨
    (¬ improves ∧ ∃ absent : pruned.entryOf identity = none,
      cache' = pruned.push
        { identity, firstSeen := call.now, bestHopLimit := call.hopLimit
          expiry := saturatingAdd call.now cache.retention, forwardedPeers := peers } absent ∧
      forwards answer = [peers]) ∨
    (improves ∧ forwards answer = [peers] ∧
      ∃ e, pruned.entryOf identity = some e ∧ e.bestHopLimit < call.hopLimit ∧
        (((∃ peer ∈ peers, peer ∈ e.forwardedPeers) ∧ cache' = pruned) ∨
          cache' = pruned.improve identity call.hopLimit call.now)) := by
  obtain ⟨rfl, rfl⟩ := Prod.ext_iff.mp admitted
  unfold admitRequest
  dsimp only
  cases fields : call.checkFields policy with
  | error error =>
    refine .inl ⟨fun improves => ?_, rfl, by simp [forwards]⟩
    rw [improves.1] at fields
    cases fields
  | ok _ =>
    cases shape : call.forwardTo policy with
    | nil =>
      refine .inl ⟨?_, rfl, by simp [forwards]⟩
      rintro ⟨-, -, ⟨first, named, -⟩, -⟩
      simp [shape] at named
    | cons first rest =>
      by_cases forwarded : cache.alreadyForwarded identity first = true
      · refine .inl ⟨?_, by simp only [forwarded, if_true], by simp [forwarded, forwards]⟩
        rintro ⟨-, -, ⟨peer, named, unforwarded⟩, -⟩
        simp only [shape, List.head?_cons, Option.mem_def, Option.some.injEq] at named
        rw [named, unforwarded] at forwarded
        cases forwarded
      have unforwarded : cache.alreadyForwarded identity first = false := by simpa using forwarded
      have improves : ∀ e, (cache.prune call.now).entryOf identity = some e →
          (Improves identity policy cache call ↔ e.bestHopLimit < call.hopLimit) := by
        intro e found
        simp [Improves, fields, limited, shape, unforwarded, found]
      have within : ¬ policy.maxFanout > maxFanout := Nat.not_lt.mpr limited
      simp only [if_neg forwarded]
      rcases cache.admit_cases identity call.hopLimit call.now (first :: rest) with
        ⟨e, found, duplicate, same⟩ | ⟨e, found, better, overlap, same⟩ | ⟨e, found, better, same⟩ |
        ⟨absent, same⟩
      · refine .inr (.inl ⟨fun improving => ?_, by simp [same, duplicate], ?_⟩)
        · have better := (improves e found).mp improving
          omega
        · simp [same, duplicate, forwards]
      · have lower : ¬ e.bestHopLimit ≥ call.hopLimit := by omega
        exact .inr (.inr (.inr ⟨(improves e found).mpr better, by simp [same, lower, within, forwards],
          e, found, better, .inl ⟨overlap, by simp [same, lower, within]⟩⟩))
      · exact .inr (.inr (.inr ⟨(improves e found).mpr better, by simp [same, within, forwards],
          e, found, better, .inr (by simp [same, within])⟩))
      · refine .inr (.inr (.inl ⟨?_, absent, by simp [same, within], by simp [same, within, forwards]⟩))
        rintro ⟨-, -, -, e, found, -⟩
        simp [absent] at found

theorem forwards_nothing (unlimited : ¬ policy.maxFanout ≤ maxFanout) :
    ∀ list ∈ forwards (admitRequest identity policy cache call).1, list = [] := by
  unfold admitRequest
  repeat' split
  all_goals simp_all [forwards]

/-- The window of calls: from `start` to the end of the retention period. -/
def InWindow (start retention : Nat) (call : RouteCall) : Prop :=
  start ≤ call.now ∧ call.now < saturatingAdd start retention

/-- The lists admitted have no peer in common, and the entry, once there is one, outlives the window and knows
their peers, apart from those of improving calls. -/
structure Flood.Sound (identity : RequestIdentity) (start retention : Nat) (f : Flood) : Prop where
  room : 0 < f.cache.maxEntries
  retains : f.cache.retention = retention
  known : (f.cache.entryOf identity = none ∧ ∀ list ∈ f.admitted, list = []) ∨
    ∃ e, f.cache.entryOf identity = some e ∧ saturatingAdd start retention ≤ e.expiry ∧
      ∀ list ∈ f.admitted, ∀ peer ∈ list, peer ∈ e.forwardedPeers ∨ peer ∈ f.improved
  apart : f.admitted.Pairwise List.Disjoint

theorem pairwise_disjoint_append (apart : lists.Pairwise List.Disjoint)
    (fresh : ∀ earlier ∈ lists, ∀ peer ∈ earlier, peer ∉ list) : (lists ++ [list]).Pairwise List.Disjoint := by
  refine List.pairwise_append.mpr ⟨apart, List.pairwise_singleton _ _, fun earlier member last here => ?_⟩
  rw [List.mem_singleton.mp here]
  exact fun peer inEarlier inList => fresh earlier member peer inEarlier inList

theorem pairwise_disjoint_empty {lists more : List (List Bytes)} (apart : lists.Pairwise List.Disjoint)
    (empty : ∀ list ∈ more, list = []) : (lists ++ more).Pairwise List.Disjoint := by
  refine List.pairwise_append.mpr ⟨apart, ?_, fun earlier _ last here => ?_⟩
  · refine List.Pairwise.imp_of_mem (R := fun _ _ => True) (fun {first second} _ later _ => ?_)
      (List.pairwise_of_forall fun _ _ => trivial)
    rw [empty second later]
    exact List.disjoint_nil_right _
  · rw [empty last here]
    exact List.disjoint_nil_right _

namespace Flood
variable {f : Flood} {call : RouteCall} {start retention : Nat}

section
variable (sound : f.Sound identity start retention)
include sound

theorem Sound.outlives (inside : InWindow start retention call) :
    saturatingAdd start retention ≤ saturatingAdd call.now f.cache.retention := by
  have begun := inside.1
  rw [sound.retains]
  unfold saturatingAdd
  omega

theorem Sound.pruned (inside : InWindow start retention call) :
    ((f.cache.prune call.now).entryOf identity = none ∧ ∀ list ∈ f.admitted, list = []) ∨
      ∃ e, (f.cache.prune call.now).entryOf identity = some e ∧ saturatingAdd start retention ≤ e.expiry ∧
        ∀ list ∈ f.admitted, ∀ peer ∈ list, peer ∈ e.forwardedPeers ∨ peer ∈ f.improved := by
  rcases sound.known with ⟨absent, none⟩ | ⟨e, found, outlives, named⟩
  · exact .inl ⟨RequestCache.entryOf_prune_none absent, none⟩
  · exact .inr ⟨e, RequestCache.entryOf_prune_some found (inside.2.trans_le outlives), outlives, named⟩

theorem Sound.idle {cache : RequestCache}
    (room : cache.maxEntries = f.cache.maxEntries) (retains : cache.retention = f.cache.retention)
    (known : (cache.entryOf identity = none ∧ ∀ list ∈ f.admitted, list = []) ∨
      ∃ e, cache.entryOf identity = some e ∧ saturatingAdd start retention ≤ e.expiry ∧
        ∀ list ∈ f.admitted, ∀ peer ∈ list, peer ∈ e.forwardedPeers ∨ peer ∈ f.improved)
    (empty : ∀ list ∈ more, list = []) :
    Sound identity start retention { f with cache, admitted := f.admitted ++ more } := by
  refine ⟨room ▸ sound.room, retains.trans sound.retains, ?_, pairwise_disjoint_empty sound.apart empty⟩
  rcases known with ⟨absent, none⟩ | ⟨e, found, outlives, named⟩
  · exact .inl ⟨absent, fun list member => (List.mem_append.mp member).elim (none list) (empty list)⟩
  · refine .inr ⟨e, found, outlives, fun list member peer here => ?_⟩
    rcases List.mem_append.mp member with earlier | last
    · exact named list earlier peer here
    · simp [empty list last] at here

theorem Sound.push (inside : InWindow start retention call)
    (absent : (f.cache.prune call.now).entryOf identity = none) :
    Sound identity start retention
      { f with
        cache := (f.cache.prune call.now).push
          { identity, firstSeen := call.now, bestHopLimit := call.hopLimit
            expiry := saturatingAdd call.now f.cache.retention
            forwardedPeers := call.forwardTo policy } absent
        admitted := f.admitted ++ [call.forwardTo policy] } := by
  have before : ∀ list ∈ f.admitted, list = [] := by
    rcases sound.pruned inside with ⟨-, none⟩ | ⟨e, found, -⟩
    · exact none
    · rw [absent] at found
      cases found
  have later := sound.outlives inside
  have maxEntries : 0 < (f.cache.prune call.now).maxEntries := sound.room
  refine ⟨?_, ?_, .inr ⟨_, RequestCache.entryOf_push absent maxEntries, later, ?_⟩, ?_⟩
  · unfold RequestCache.push
    split <;> exact sound.room
  · unfold RequestCache.push
    split <;> exact sound.retains
  · intro list member peer here
    rcases List.mem_append.mp member with earlier | last
    · simp [before list earlier] at here
    · rw [List.mem_singleton.mp last] at here
      exact .inl here
  · refine pairwise_disjoint_append sound.apart fun earlier member peer here => ?_
    simp [before earlier member] at here

/-- An improvement that is disjoint from the peers recorded is not recorded itself. -/
theorem Sound.improve (inside : InWindow start retention call) (found : (f.cache.prune call.now).entryOf identity = some e)
    (fresh : ∀ peer ∈ call.forwardTo policy, peer ∉ e.forwardedPeers ∧ peer ∉ f.improved) :
    Sound identity start retention
      { cache := (f.cache.prune call.now).improve identity call.hopLimit call.now
        admitted := f.admitted ++ [call.forwardTo policy]
        improved := f.improved ++ call.forwardTo policy } := by
  obtain ⟨absent, -⟩ | ⟨e', found', -, named⟩ := sound.pruned inside
  · rw [absent] at found
    cases found
  obtain rfl : e' = e := Option.some.inj (found'.symm.trans found)
  have later := sound.outlives inside
  refine ⟨sound.room, sound.retains, .inr ⟨_, RequestCache.entryOf_improve found, later, ?_⟩, ?_⟩
  · intro list member peer here
    rcases List.mem_append.mp member with earlier | last
    · exact (named list earlier peer here).imp_right (List.mem_append_left _)
    · rw [List.mem_singleton.mp last] at here
      exact .inr (List.mem_append_right _ here)
  · refine pairwise_disjoint_append sound.apart fun earlier member peer here inList => ?_
    rcases named earlier member peer here with recorded | before
    · exact (fresh peer inList).1 recorded
    · exact (fresh peer inList).2 before

end

theorem step_sound (limited : policy.maxFanout ≤ maxFanout) (sound : f.Sound identity start retention)
    (newPeers : f.NamesNewPeers identity policy call) (inside : InWindow start retention call) :
    (f.step identity policy call).Sound identity start retention := by
  unfold step
  rcases admitted : admitRequest identity policy f.cache call with ⟨answer, cache⟩
  rcases admitRequest_cases limited admitted with
    ⟨same, kept, none⟩ | ⟨same, kept, none⟩ | ⟨same, absent, kept, listed⟩ |
    ⟨improves, listed, e, found, better, change⟩
  · rw [kept, if_neg same]
    exact sound.idle rfl rfl sound.known none
  · rw [kept, if_neg same]
    exact sound.idle rfl rfl (sound.pruned inside) (by simp [none])
  · rw [kept, if_neg same, listed]
    exact sound.push inside absent
  · have fresh := newPeers improves e found
    rw [if_pos improves, listed]
    rcases change with ⟨⟨peer, inList, recorded⟩, -⟩ | improved
    · exact absurd recorded (fresh peer inList).1
    · rw [improved]
      exact sound.improve inside found fresh

/-- The flood before the first call. -/
def begin (cache : RequestCache) : Flood := { cache, admitted := [], improved := [] }

end Flood

/-- The calls for one request within one retention period, on a cache that has room and no entry for it: no peer
is in two lists admitted, if every improving call names new peers. -/
theorem no_peer_forwarded_twice {cache : RequestCache} {start : Nat} {calls : List RouteCall}
    (room : 0 < cache.maxEntries) (absent : cache.entryOf identity = none)
    (inside : ∀ call ∈ calls, InWindow start cache.retention call)
    (newPeers : Run.Meets (Flood.NamesNewPeers identity policy) (Flood.step identity policy)
      (Flood.begin cache) calls) :
    (calls.foldl (Flood.step identity policy) (Flood.begin cache)).admitted.Pairwise List.Disjoint := by
  by_cases limited : policy.maxFanout ≤ maxFanout
  · have initial : (Flood.begin cache).Sound identity start cache.retention :=
      ⟨room, rfl, .inl ⟨absent, by simp [Flood.begin]⟩, List.Pairwise.nil⟩
    exact (Run.invariant_of_meets (fun _ _ sound met => Flood.step_sound limited sound met.1 met.2) initial
      (newPeers.and inside)).apart
  · have preserved : ∀ f call, List.Pairwise List.Disjoint (Flood.admitted f) →
        List.Pairwise List.Disjoint (Flood.step identity policy f call).admitted :=
      fun f call apart => pairwise_disjoint_empty apart (forwards_nothing limited)
    exact Run.invariant preserved List.Pairwise.nil

/-- A request with these peers as candidates. -/
def request (hopLimit now : Nat) (candidates : List Bytes) : RouteCall :=
  { flags := 0, hopLimit, lifetimeMs := 30000, candidates, now }

def someRequest : RequestIdentity :=
  { requestId := Octets.fill 16 1, adjacentSender := [9] }

/-- A request with hop limit 4 goes to peer 1. It comes again with hop limit 8 and the candidates 2 and 1, and
goes there again. -/
theorem improved_request_forwarded_twice :
    let flood := [request 4 0 [[1]], request 8 1 [[2], [1]]].foldl (Flood.step someRequest .default)
      (.begin (.new 4096 30000))
    flood.admitted = [[[1]], [[2], [1]]] ∧ ¬ flood.admitted.Pairwise List.Disjoint := by
  intro flood
  have lists : flood.admitted = [[[1]], [[2], [1]]] := by decide +kernel
  rw [lists]
  exact ⟨rfl, by simp [List.Disjoint]⟩

/-- It comes again for peer 2, with more hops, and for peer 3, with fewer. -/
theorem no_peer_forwarded_twice_three_calls :
    let flood := [request 4 0 [[1]], request 8 1 [[2]], request 6 2 [[3]]].foldl
      (Flood.step someRequest .default) (.begin (.new 4096 30000))
    flood.admitted = [[[1]], [[2]]] ∧ flood.admitted.Pairwise List.Disjoint :=
  ⟨by decide +kernel, @no_peer_forwarded_twice someRequest .default (.new 4096 30000) 0 _ (by decide) rfl
    (by simp [request, InWindow, RequestCache.new, saturatingAdd, u64Max]) (by decide +kernel)⟩

end UniversalMesh.Routing
