import UniversalMesh.Crypto.PacketKeys
import UniversalMesh.Discovery.Invitation
import UniversalMesh.Lib.ByteReader
import UniversalMesh.Wire.RoundTrip

/-! `umc-discovery/src/provider.rs` and `table.rs`: peer candidates and the table that merges those of
all sources, keeping for each the strictest policy under which it was offered. -/
namespace UniversalMesh.Discovery
open MachineWord Wire OrderedMap

def maxCandidateLifetimeMs : Nat := 24 * 60 * 60 * 1000

/-- `CandidateSource`; `staticPeer` is its `Static`. -/
inductive CandidateSource where
  | staticPeer | localDiscovery | peerHint | invitation | bootstrap | application | carrierNative
  deriving DecidableEq, Repr

inductive CandidateAuth where
  | unauthenticated | carrierAuthenticated | introductionAuthenticated | invitationAuthenticated
  | previousSessionBound | signedBootstrap
  deriving DecidableEq, Repr

inductive SharingPolicy where
  | localUseOnly | shareSelected | shareLocalScope | shareGeneral | doNotReshare
  deriving DecidableEq, Repr

structure PeerCandidate where
  candidateId : Nat
  carrierType : String
  connectionHint : Bytes
  source : CandidateSource
  (createdAt expiresAt : Nat)
  sharingPolicy : SharingPolicy
  authentication : CandidateAuth
  isLocal : Bool
  deriving DecidableEq

namespace PeerCandidate

variable (candidate : PeerCandidate) (now : Nat)

def isExpired : Bool := now ≥ candidate.expiresAt

/-- `cap_lifetime`: configured peers keep the lifetime they were given. -/
def capLifetime : PeerCandidate :=
  if candidate.source = .staticPeer ∨ candidate.source = .bootstrap then candidate
  else
    let cap := saturatingAdd now maxCandidateLifetimeMs
    if candidate.expiresAt > cap then { candidate with expiresAt := cap } else candidate

theorem capLifetime_eq : ∃ expiresAt, candidate.capLifetime now = { candidate with expiresAt } := by
  by_cases configured : candidate.source = .staticPeer ∨ candidate.source = .bootstrap
  · exact ⟨candidate.expiresAt, if_pos configured⟩
  · by_cases long : candidate.expiresAt > saturatingAdd now maxCandidateLifetimeMs
    · exact ⟨_, (if_neg configured).trans (if_pos long)⟩
    · exact ⟨candidate.expiresAt, (if_neg configured).trans (if_neg long)⟩

@[simp] theorem capLifetime_candidateId : (candidate.capLifetime now).candidateId = candidate.candidateId := by
  obtain ⟨expiresAt, capped⟩ := candidate.capLifetime_eq now
  rw [capped]

@[simp] theorem capLifetime_sharingPolicy :
    (candidate.capLifetime now).sharingPolicy = candidate.sharingPolicy := by
  obtain ⟨expiresAt, capped⟩ := candidate.capLifetime_eq now
  rw [capped]

end PeerCandidate

def strictness : SharingPolicy → Nat
  | .doNotReshare => 4
  | .localUseOnly => 3
  | .shareSelected => 2
  | .shareLocalScope => 1
  | .shareGeneral => 0

inductive TableError where
  | full
  deriving DecidableEq, Repr

/-- The merged table. Candidates are only ever stored under their own id. -/
structure CandidateTable where
  entries : OrderedMap Nat PeerCandidate
  cap : Nat
  keyed : ∀ entry ∈ entries, entry.2.candidateId = entry.1
  deriving DecidableEq

namespace CandidateTable

def new (cap : Nat) : CandidateTable :=
  { entries := .empty, cap, keyed := fun _ member => absurd member not_mem_empty }

def get (table : CandidateTable) (candidateId : Nat) : Option PeerCandidate := table.entries.get? candidateId

section
variable (table : CandidateTable)

/-- `iter`, in the order of the ids. -/
def iter : List PeerCandidate := table.entries.entries.map Prod.snd

def remove (candidateId : Nat) : CandidateTable :=
  { table with
    entries := table.entries.erase candidateId
    keyed := fun entry member => table.keyed entry (mem_erase.mp member).1 }

def evictExpired (now : Nat) : CandidateTable :=
  { table with
    entries := table.entries.filter fun entry => !entry.2.isExpired now
    keyed := fun entry member => table.keyed entry (mem_filter.mp member).1 }

theorem keyed_insert (candidate : PeerCandidate) :
    ∀ entry ∈ table.entries.insert candidate.candidateId candidate, entry.2.candidateId = entry.1 :=
  forall_mem_insert rfl table.keyed

/-- `entries.insert(candidate.candidate_id, candidate)`. -/
def put (candidate : PeerCandidate) : CandidateTable :=
  { table with
    entries := table.entries.insert candidate.candidateId candidate
    keyed := table.keyed_insert candidate }

/-- The candidate under the policy of the entry it replaces, where that is stricter. -/
def keepStrictest (candidate existing : PeerCandidate) : PeerCandidate :=
  if strictness candidate.sharingPolicy < strictness existing.sharingPolicy then
    { candidate with sharingPolicy := existing.sharingPolicy }
  else candidate

/-- A full table first drops what has expired. -/
def upsert (candidate : PeerCandidate) (now : Nat) :
    Except TableError Unit × CandidateTable :=
  let candidate := candidate.capLifetime now
  match table.get candidate.candidateId with
  | some existing => (.ok (), table.put (keepStrictest candidate existing))
  | none =>
    if table.entries.size ≥ table.cap then
      let table := table.evictExpired now
      if table.entries.size ≥ table.cap then (.error .full, table) else (.ok (), table.put candidate)
    else (.ok (), table.put candidate)

end

variable {table : CandidateTable} {candidate existing : PeerCandidate} {now candidateId other : Nat}

@[simp] theorem keepStrictest_candidateId :
    (keepStrictest candidate existing).candidateId = candidate.candidateId := by
  unfold keepStrictest
  split <;> rfl

theorem strictness_keepStrictest :
    strictness (keepStrictest candidate existing).sharingPolicy =
      max (strictness candidate.sharingPolicy) (strictness existing.sharingPolicy) := by
  unfold keepStrictest
  split
  · exact (max_eq_right (Nat.le_of_lt ‹_›)).symm
  · exact (max_eq_left (Nat.not_lt.mp ‹_›)).symm

theorem get_put : (table.put candidate).get candidateId =
    if candidateId = candidate.candidateId then some candidate else table.get candidateId :=
  get?_insert

theorem get_of_mem_iter (member : candidate ∈ table.iter) : table.get candidate.candidateId = some candidate := by
  obtain ⟨entry, held, rfl⟩ := List.mem_map.mp member
  rw [table.keyed entry held]
  exact get?_eq_some.mpr held

theorem get_remove : (table.remove candidateId).get other = table.get other ∨
    (table.remove candidateId).get other = none := by
  have erased : (table.remove candidateId).get other = if other = candidateId then none else table.get other :=
    get?_erase
  rw [erased]
  split
  · exact .inr rfl
  · exact .inl rfl

theorem get_evictExpired :
    (table.evictExpired now).get candidateId = table.get candidateId ∨
      (table.evictExpired now).get candidateId = none := by
  cases found : (table.evictExpired now).get candidateId with
  | none => exact .inr rfl
  | some stored =>
    have member := (mem_filter.mp (get?_eq_some.mp found)).1
    exact .inl (get?_eq_some.mpr member).symm

theorem get_upsert_other (differ : candidateId ≠ candidate.candidateId) :
    (table.upsert candidate now).2.get candidateId = table.get candidateId ∨
      (table.upsert candidate now).2.get candidateId = none := by
  unfold upsert
  dsimp only
  split
  · exact .inl (get_put.trans (if_neg (by simpa using differ)))
  · split
    · split
      · exact get_evictExpired
      · rw [get_put, if_neg (by simpa using differ)]
        exact get_evictExpired
    · exact .inl (get_put.trans (if_neg (by simpa using differ)))

theorem get_upsert_present (present : table.get candidate.candidateId = some existing) :
    ∃ stored, (table.upsert candidate now).2.get candidate.candidateId = some stored ∧
      strictness stored.sharingPolicy =
        max (strictness candidate.sharingPolicy) (strictness existing.sharingPolicy) := by
  unfold upsert
  dsimp only
  rw [PeerCandidate.capLifetime_candidateId, present]
  refine ⟨_, get_put.trans (if_pos (by simp)), ?_⟩
  rw [strictness_keepStrictest, PeerCandidate.capLifetime_sharingPolicy]

theorem get_upsert_absent (absent : table.get candidate.candidateId = none) :
    (∃ stored, (table.upsert candidate now).2.get candidate.candidateId = some stored ∧
        stored.sharingPolicy = candidate.sharingPolicy) ∨
      (table.upsert candidate now).2.get candidate.candidateId = none := by
  unfold upsert
  dsimp only
  rw [PeerCandidate.capLifetime_candidateId, absent]
  dsimp only
  split
  · split
    · refine .inr ?_
      rcases get_evictExpired with same | gone
      · exact same.trans absent
      · exact gone
    · exact .inl ⟨_, get_put.trans (if_pos (by simp)), by simp⟩
  · exact .inl ⟨_, get_put.trans (if_pos (by simp)), by simp⟩

end CandidateTable

/-! `umc-discovery/src/hints.rs`: the exchange of candidates between peers. A frame says with two flags what its
sender's policy says with five values, and the receiver makes a policy of the flags again. -/

open Crypto

def maxHintsPerFrame : Nat := 32

inductive HintError where
  | tooManyHints | reshareForbidden | rateLimited | fieldLimit | meshAuthentication
  deriving DecidableEq, Repr

/-- The policies that `select_for_share` lets pass. -/
def SharingPolicy.shareable (policy : SharingPolicy) : Bool :=
  policy == .shareGeneral || policy == .shareLocalScope || policy == .shareSelected

def selectForShare (candidates : List PeerCandidate) (maximum now : Nat) : List PeerCandidate :=
  ((candidates.filter fun c => !c.isExpired now).filter fun c => c.sharingPolicy.shareable).take
    (min maximum maxHintsPerFrame)

/-- `MESH_HINT_DOMAIN`, of a signed hint. -/
def meshHintDomain : Bytes := ascii "UMP-MESH-HINT-v1"

/-- `append_bytes`; the cast of the length keeps its low 32 bits. -/
def appendBytes (out value : Bytes) : Bytes := out ++ toBeBytes 4 value.length ++ value

def flagOctet (flag : Bool) : UInt8 := if flag then 1 else 0

def constantTimeEqual (left right : Bytes) : Bool :=
  if left.length ≠ right.length then false
  else (left.zip right).foldl (fun difference (a, b) => difference ||| (a ^^^ b)) 0 == 0

section
variable (crypto : Primitives)

/-- The code covers every field of the hint but itself. -/
def meshAuthenticator (secret : Bytes) (entry : PeerHintEntry) : Octets 32 :=
  let data := appendBytes meshHintDomain entry.temporaryPeerId
  let data := appendBytes data entry.carrierType
  let data := appendBytes data entry.connectionHint
  let data := data ++ toBeBytes 8 entry.expirationTime
  let flags := [entry.isPublic, entry.introduced, entry.isLocal, entry.ephemeral, entry.doNotReshare]
  hmacBlake2s crypto secret (data ++ flags.map flagOctet)

/-- The entry of a candidate, before it is authenticated. -/
def hintEntry (c : PeerCandidate) : PeerHintEntry :=
  { temporaryPeerId := toBeBytes 8 c.candidateId
    carrierType := ByteReader.textBytes c.carrierType
    connectionHint := c.connectionHint
    expirationTime := c.expiresAt
    isPublic := c.sharingPolicy = .shareGeneral
    introduced := c.authentication = .introductionAuthenticated
    isLocal := c.isLocal && c.source ≠ .application
    ephemeral := c.source = .localDiscovery
    doNotReshare := c.sharingPolicy = .doNotReshare
    authenticator := [] }

variable (meshSecret : Option Bytes) (entry : PeerHintEntry)

def authenticate : PeerHintEntry :=
  match meshSecret with
  | some secret => { entry with authenticator := (meshAuthenticator crypto secret entry).1 }
  | none => entry

def buildPeerHintWithMeshSecret (candidates : List PeerCandidate) (meshSecret : Option Bytes) :
    Except HintError PeerHintFrame :=
  if candidates.length > maxHintsPerFrame then .error .tooManyHints
  else .ok { entries := (candidates.map hintEntry).map (authenticate crypto meshSecret) }

/-- The checks of one received entry. -/
def checkEntry : Except HintError Unit :=
  if entry.temporaryPeerId.length > maxPeerId ∨ entry.temporaryPeerId.length ≠ 8 ∨
      entry.carrierType.length > maxCarrierType ∨ entry.connectionHint.length > maxConnectionHint ∨
      entry.authenticator.length > maxAuthenticator then .error .fieldLimit
  else
    match meshSecret with
    | some secret =>
      if constantTimeEqual entry.authenticator (meshAuthenticator crypto secret entry).1 then .ok ()
      else .error .meshAuthentication
    | none => if entry.authenticator ≠ [] then .error .meshAuthentication else .ok ()

/-- The policy a receiver makes of the flags of an entry. -/
def receivedPolicy : SharingPolicy :=
  if entry.doNotReshare then .doNotReshare
  else if entry.isPublic then .shareGeneral
  else .localUseOnly

variable (fromUtf8Lossy : Bytes → String)

/-- The candidate a receiver makes of an entry; the conversion of the carrier type is
`String::from_utf8_lossy`. -/
def receivedCandidate (now : Nat) (entry : PeerHintEntry) : PeerCandidate :=
  { candidateId := fromBeBytes entry.temporaryPeerId
    carrierType := fromUtf8Lossy entry.carrierType
    connectionHint := entry.connectionHint
    source := .peerHint
    createdAt := now
    expiresAt := entry.expirationTime
    sharingPolicy := receivedPolicy entry
    authentication := if entry.introduced then .introductionAuthenticated else .unauthenticated
    isLocal := entry.isLocal }

/-- The second loop of `apply_received_hints_with_mesh_secret`. -/
def applyEntry (now : Nat) (applied : Nat × CandidateTable) (entry : PeerHintEntry) : Nat × CandidateTable :=
  match applied.2.upsert (receivedCandidate fromUtf8Lossy now entry) now with
  | (.ok (), table) => (applied.1 + 1, table)
  | (.error _, table) => (applied.1, table)

/-- All entries are checked before the first one is applied. -/
def applyReceivedHintsWithMeshSecret (frame : PeerHintFrame) (now : Nat) (table : CandidateTable)
    (meshSecret : Option Bytes) : Except HintError Nat × CandidateTable :=
  if frame.entries.length > maxHintsPerFrame then (.error .tooManyHints, table)
  else
    match frame.entries.forM (checkEntry crypto meshSecret) with
    | .error e => (.error e, table)
    | .ok () =>
      let (accepted, table) := frame.entries.foldl (applyEntry fromUtf8Lossy now) (0, table)
      (.ok accepted, table)

theorem applyReceivedHints_table (frame : PeerHintFrame) (now : Nat) (table : CandidateTable)
    (meshSecret : Option Bytes) :
    (applyReceivedHintsWithMeshSecret crypto fromUtf8Lossy frame now table meshSecret).2 =
      if (applyReceivedHintsWithMeshSecret crypto fromUtf8Lossy frame now table meshSecret).1.isOk then
        frame.entries.foldl (fun table entry =>
          (table.upsert (receivedCandidate fromUtf8Lossy now entry) now).2) table
      else table := by
  have loop : ∀ (entries : List PeerHintEntry) (accepted : Nat) (table : CandidateTable),
      (entries.foldl (applyEntry fromUtf8Lossy now) (accepted, table)).2 = entries.foldl (fun table entry =>
          (table.upsert (receivedCandidate fromUtf8Lossy now entry) now).2) table := by
    intro entries
    induction entries with
    | nil => exact fun _ _ => rfl
    | cons entry entries ih =>
      intro accepted table
      rw [List.foldl_cons, List.foldl_cons, applyEntry]
      split
      next offered => rw [ih, offered]
      next offered => rw [ih, offered]
  unfold applyReceivedHintsWithMeshSecret
  split
  · rfl
  · split
    · rfl
    · exact loop frame.entries 0 table

/-! ### Policies over whole runs -/

inductive TableCall where
  | upsert (candidate : PeerCandidate) (now : Nat)
  | applyHints (frame : PeerHintFrame) (now : Nat) (meshSecret : Option Bytes)
  | remove (candidateId : Nat) | evictExpired (now : Nat)

def TableCall.run (table : CandidateTable) : TableCall → CandidateTable
  | .upsert candidate now => (table.upsert candidate now).2
  | .applyHints frame now meshSecret =>
    (applyReceivedHintsWithMeshSecret crypto fromUtf8Lossy frame now table meshSecret).2
  | .remove candidateId => table.remove candidateId
  | .evictExpired now => table.evictExpired now

/-- A table with the policies under which one candidate was offered since it entered. -/
structure Watched where
  table : CandidateTable
  since : List SharingPolicy

namespace Watched

/-- The offers count from the entry on: none are left where the candidate is not in the table. -/
def seen (candidateId : Nat) (table : CandidateTable) (since : List SharingPolicy) : Watched :=
  { table, since := if (table.get candidateId).isSome then since else [] }

def offer (candidateId now : Nat) (w : Watched) (candidate : PeerCandidate) : Watched :=
  seen candidateId (w.table.upsert candidate now).2
    (if candidate.candidateId = candidateId then w.since ++ [candidate.sharingPolicy] else w.since)

def offerEntries (candidateId now : Nat) : List PeerHintEntry → Watched → Watched
  | [], w => w
  | entry :: entries, w =>
    offerEntries candidateId now entries (w.offer candidateId now (receivedCandidate fromUtf8Lossy now entry))

/-- A call as the offers it makes, one after the other. -/
def step (candidateId : Nat) (w : Watched) : TableCall → Watched
  | .upsert candidate now => w.offer candidateId now candidate
  | .applyHints frame now meshSecret =>
    if (applyReceivedHintsWithMeshSecret crypto fromUtf8Lossy frame now w.table meshSecret).1.isOk then
      offerEntries fromUtf8Lossy candidateId now frame.entries w
    else w
  | .remove other => seen candidateId (w.table.remove other) w.since
  | .evictExpired now => seen candidateId (w.table.evictExpired now) w.since

/-- The stored policy is at least as strict as every one offered since the candidate entered. -/
def Strict (candidateId : Nat) (w : Watched) : Prop :=
  ∀ policy ∈ w.since, ∃ stored, w.table.get candidateId = some stored ∧
    strictness policy ≤ strictness stored.sharingPolicy

variable {candidateId now : Nat} {w : Watched}

section
variable (strict : w.Strict candidateId)
include strict

theorem strict_seen {table : CandidateTable}
    (kept : table.get candidateId = w.table.get candidateId ∨ table.get candidateId = none) :
    (seen candidateId table w.since).Strict candidateId := by
  intro policy member
  unfold seen at member ⊢
  rcases kept with same | gone
  · obtain ⟨stored, found, bound⟩ := strict policy (by
      split at member
      · exact member
      · cases member)
    exact ⟨stored, same.trans found, bound⟩
  · simp [gone] at member

theorem strict_offer : (w.offer candidateId now candidate).Strict candidateId := by
  unfold offer
  by_cases here : candidate.candidateId = candidateId
  · subst here
    rw [if_pos rfl]
    intro policy member
    unfold seen at member ⊢
    cases present : w.table.get candidate.candidateId with
    | none =>
      -- the candidate enters with this offer, so nothing was offered before
      have fresh : w.since = [] := by
        refine List.eq_nil_iff_forall_not_mem.mpr fun earlier old => ?_
        obtain ⟨stored, found, -⟩ := strict earlier old
        simp [present] at found
      rcases @CandidateTable.get_upsert_absent _ _ now present with ⟨stored, entered, same⟩ | refused
      · rw [entered, fresh] at member
        have only : policy = candidate.sharingPolicy := by simpa using member
        exact ⟨stored, entered, by rw [only, same]⟩
      · simp [refused] at member
    | some existing =>
      obtain ⟨stored, entered, strictest⟩ := @CandidateTable.get_upsert_present _ _ _ now present
      rw [entered] at member
      refine ⟨stored, entered, ?_⟩
      rw [strictest]
      rcases List.mem_append.mp member with earlier | new
      · obtain ⟨before, found, bound⟩ := strict policy earlier
        cases present.symm.trans found
        exact le_max_of_le_right bound
      · rw [List.mem_singleton.mp new]
        exact le_max_left _ _
  · rw [if_neg here]
    exact strict_seen strict (CandidateTable.get_upsert_other fun same => here same.symm)

theorem strict_offerEntries (entries : List PeerHintEntry) :
    (offerEntries fromUtf8Lossy candidateId now entries w).Strict candidateId := by
  induction entries generalizing w with
  | nil => exact strict
  | cons entry entries ih => exact ih (strict_offer strict)

theorem strict_step (call : TableCall) : (step crypto fromUtf8Lossy candidateId w call).Strict candidateId := by
  cases call with
  | upsert => exact strict_offer strict
  | applyHints frame now meshSecret =>
    rw [step]
    split
    · exact strict_offerEntries fromUtf8Lossy strict frame.entries
    · exact strict
  | remove other => exact strict_seen strict CandidateTable.get_remove
  | evictExpired now => exact strict_seen strict CandidateTable.get_evictExpired

end

theorem table_offerEntries (entries : List PeerHintEntry) (w : Watched) :
    (offerEntries fromUtf8Lossy candidateId now entries w).table =
      entries.foldl (fun table entry =>
        (table.upsert (receivedCandidate fromUtf8Lossy now entry) now).2) w.table := by
  induction entries generalizing w with
  | nil => rfl
  | cons entry entries ih => exact ih _

theorem table_step {call : TableCall} :
    (step crypto fromUtf8Lossy candidateId w call).table = call.run crypto fromUtf8Lossy w.table := by
  cases call with
  | upsert => rfl
  | applyHints frame now meshSecret =>
    rw [step, TableCall.run, applyReceivedHints_table]
    split
    · exact table_offerEntries fromUtf8Lossy frame.entries w
    · rfl
  | remove other => rfl
  | evictExpired now => rfl

theorem run_strict (candidateId cap : Nat) (calls : List TableCall) :
    (calls.foldl (step crypto fromUtf8Lossy candidateId) ⟨.new cap, []⟩).Strict candidateId := by
  have start : Strict candidateId ⟨.new cap, []⟩ := fun _ member => absurd member List.not_mem_nil
  exact Run.invariant (fun _ call strict => strict_step crypto fromUtf8Lossy strict call) start

theorem run_table (candidateId : Nat) (calls : List TableCall) (w : Watched) :
    (calls.foldl (step crypto fromUtf8Lossy candidateId) w).table =
      calls.foldl (TableCall.run crypto fromUtf8Lossy) w.table := by
  induction calls generalizing w with
  | nil => rfl
  | cons call calls ih => rw [List.foldl_cons, List.foldl_cons, ih, table_step]

end Watched

/-! ### What is shared, and what a receiver makes of it -/

theorem mem_selectForShare {c : PeerCandidate} (selected : c ∈ selectForShare candidates maximum now) :
    c ∈ candidates ∧ c.sharingPolicy.shareable = true := by
  obtain ⟨fresh, shareable⟩ := List.mem_filter.mp (List.mem_of_mem_take selected)
  exact ⟨(List.mem_filter.mp fresh).1, shareable⟩

theorem strictness_of_shareable {policy : SharingPolicy} (shareable : policy.shareable = true) :
    strictness policy < strictness .localUseOnly := by
  cases policy with
  | doNotReshare => cases shareable
  | localUseOnly => cases shareable
  | shareSelected | shareLocalScope | shareGeneral => decide

theorem strictness_receivedPolicy (c : PeerCandidate) : strictness c.sharingPolicy ≤
      strictness (receivedPolicy (authenticate crypto meshSecret (hintEntry c))) := by
  have flags : receivedPolicy (authenticate crypto meshSecret (hintEntry c)) = receivedPolicy (hintEntry c) := by
    cases meshSecret <;> rfl
  rw [flags]
  cases policy : c.sharingPolicy <;> simp [receivedPolicy, hintEntry, policy, strictness]

theorem buildPeerHint_ok {meshSecret : Option Bytes}
    (built : buildPeerHintWithMeshSecret crypto candidates meshSecret = .ok frame) :
    frame.entries = candidates.map fun c => authenticate crypto meshSecret (hintEntry c) := by
  unfold buildPeerHintWithMeshSecret at built
  split at built
  · cases built
  · cases built
    exact List.map_map

theorem decodeFrames_peerHint {bytes : Bytes} (encoded : frame.encode = .ok bytes) :
    decodeFrames bytes = .ok [.peerHint frame] := by
  have delimited := PeerHintFrame.round_trip encoded
  have held : Reader.Holds bytes 0 bytes := ⟨Nat.zero_le _, by simp⟩
  have read : Frame.decodeNext bytes 0 = .ok (some (.peerHint frame), 0 + bytes.length) :=
    Frame.decodeNext_fixed delimited rfl (fun _ => rfl) held
  rw [Nat.zero_add] at read
  rw [decodeFrames, Frame.decodeFramesFrom_step (Frame.decodeNext_advances read) read,
    Frame.decodeFramesFrom_end le_rfl]
  rfl

/-- Over any calls on a table, the stored policy of a candidate is at least as strict as every one under which
it was offered since it entered; once one of these was to keep it, no selection for sharing contains it. And the
policy that a receiver makes of an entry is at least as strict as the sender's. -/
theorem sharing_policy_never_widened (cap candidateId : Nat) (calls : List TableCall) :
    let run := calls.foldl (Watched.step crypto fromUtf8Lossy candidateId) ⟨.new cap, []⟩
    (run.table = calls.foldl (TableCall.run crypto fromUtf8Lossy) (.new cap) ∧
      (∀ policy ∈ run.since, ∃ stored, run.table.get candidateId = some stored ∧
        strictness policy ≤ strictness stored.sharingPolicy) ∧
      ((.doNotReshare ∈ run.since ∨ .localUseOnly ∈ run.since) →
        ∀ (traversal : Traversal PeerCandidate) (maximum now : Nat),
          ∀ c ∈ selectForShare (traversal.order run.table.iter) maximum now, c.candidateId ≠ candidateId)) ∧
    ∀ candidates meshSecret frame, buildPeerHintWithMeshSecret crypto candidates meshSecret = .ok frame →
      List.Forall₂ (fun candidate entry =>
        strictness candidate.sharingPolicy ≤ strictness (receivedPolicy entry)) candidates frame.entries ∧
      ∀ bytes, frame.encode = .ok bytes → decodeFrames bytes = .ok [.peerHint frame] := by
  intro run
  have strict := Watched.run_strict crypto fromUtf8Lossy candidateId cap calls
  refine ⟨⟨Watched.run_table crypto fromUtf8Lossy candidateId calls _, strict, ?_⟩, ?_⟩
  · intro kept traversal maximum now c selected here
    obtain ⟨member, shareable⟩ := mem_selectForShare selected
    have found := CandidateTable.get_of_mem_iter ((traversal.perm _).mem_iff.mp member)
    have loose := strictness_of_shareable shareable
    rw [here] at found
    rcases kept with offered | offered
    · obtain ⟨stored, same, bound⟩ := strict _ offered
      cases found.symm.trans same
      exact absurd (Nat.lt_of_lt_of_le (show strictness .localUseOnly < strictness .doNotReshare by decide) bound)
        (by omega)
    · obtain ⟨stored, same, bound⟩ := strict _ offered
      cases found.symm.trans same
      omega
  · intro candidates meshSecret frame built
    refine ⟨?_, fun bytes encoded => decodeFrames_peerHint encoded⟩
    rw [buildPeerHint_ok crypto built, List.forall₂_map_right_iff]
    exact List.forall₂_same.mpr fun c _ => strictness_receivedPolicy crypto meshSecret c

end

/-- A peer known from the local network and offered to everyone, once it came with a hint not to pass it on. -/
def hintedPeer : PeerCandidate :=
  { candidateId := 1, carrierType := "ump.udp/1", connectionHint := [], source := .localDiscovery, createdAt := 0
    expiresAt := 5000, sharingPolicy := .shareGeneral, authentication := .unauthenticated, isLocal := true }

def hintedPeerCalls : List TableCall :=
  [.upsert hintedPeer 0,
    .applyHints { entries := [hintEntry { hintedPeer with sharingPolicy := .doNotReshare }] } 10 none,
    .upsert hintedPeer 20]

theorem hintedPeer_not_shared :
    let run := hintedPeerCalls.foldl (Watched.step transparent (fun _ => "") 1) ⟨.new 4, []⟩
    run.since = [.shareGeneral, .doNotReshare, .shareGeneral] ∧
      ∀ c ∈ selectForShare run.table.iter 8 30, c.candidateId ≠ 1 := by
  have offers : (hintedPeerCalls.foldl (Watched.step transparent (fun _ => "") 1) ⟨.new 4, []⟩).since =
      [.shareGeneral, .doNotReshare, .shareGeneral] := by decide +kernel
  refine ⟨offers, ?_⟩
  refine (sharing_policy_never_widened transparent (fun _ => "") 4 1 hintedPeerCalls).1.2.2 ?_
    ⟨fun items => items, fun _ => .refl _⟩ 8 30
  decide

end UniversalMesh.Discovery
