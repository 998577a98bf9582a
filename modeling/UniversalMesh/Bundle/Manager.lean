import Mathlib.Data.List.MinMax
import Mathlib.Data.List.Sort
import UniversalMesh.Storage.Store

/-! `umc-bundle/src/manager.rs`: admission of bundles, the changes of a stored record, removal, expiry and
eviction under pressure. Times are milliseconds. A record is stored under its own id, as part of the type. -/
namespace UniversalMesh.Bundle
open MachineWord Wire Crypto Storage OrderedMap

def defaultMaxBundleBytes : Nat := 16 * 1024 * 1024
def defaultLifetimeMs : Nat := 24 * 60 * 60 * 1000
def maxLifetimeMs : Nat := 7 * 24 * 60 * 60 * 1000
def defaultMaxReplication : Nat := 8
def maxBundlesPerSender : Nat := 1000
def duplicateCacheTtlMs : Nat := defaultLifetimeMs
def duplicateCacheCapacity : Nat := 1024

abbrev BundleId := Octets 32

inductive BundleStatus where
  | received | custodyAccepted | forwarded | delivered | rejected | expired | evicted
  deriving DecidableEq, Repr

/-- What the manager keeps of a bundle beside its payload. -/
structure BundleRecord where
  id : BundleId
  objectId : Octets 32
  (sender destinationHint : Bytes)
  (size priority createdAt expiresAt replicationCount replicationLimit : Nat)
  (doNotReplicate localScopeOnly custody : Bool)
  custodyDeadline : Option Nat
  transferChunkIndex : Nat
  status : BundleStatus
  deriving DecidableEq

def BundleRecord.custodyHolds (r : BundleRecord) (now : Nat) : Bool :=
  r.custody && r.status ≠ .delivered && r.status ≠ .expired && r.custodyDeadline.any (now < ·)

structure DuplicateEntry where
  (expiresAt insertedAt : Nat)
  deriving DecidableEq

inductive BundleError where
  | quotaExceeded | tooLarge | expired | duplicate | conflict | replicationLimit | notFound
  | storage (error : StoreError) | persistence (error : StoreError)
  deriving DecidableEq, Repr

/-- What a call does not decide itself: the order in which hash maps hand out their entries, and which writes
fail. -/
structure Host where
  recordOrder : List BundleRecord → List BundleRecord
  cacheOrder : List (BundleId × DuplicateEntry) → List (BundleId × DuplicateEntry)
  faults : Faults
  records_perm : ∀ items, (recordOrder items).Perm items
  cache_perm : ∀ items, (cacheOrder items).Perm items

/-- Entries in the order of their keys, and no write fails. -/
def Host.steady : Host :=
  { recordOrder := id, cacheOrder := id, faults := .none
    records_perm := .refl, cache_perm := .refl }

/-- `persisted` says whether a metadata backend is attached. -/
structure BundleManager where
  objects : ObjectStore
  quota : QuotaAccount
  records : OrderedMap BundleId BundleRecord
  bundlesPerSender : OrderedMap Bytes Nat
  duplicateCache : OrderedMap BundleId DuplicateEntry
  lastNow : Nat
  persisted : Bool
  keyed : ∀ entry ∈ records, entry.2.id = entry.1

/-- The arguments of `admit_with_policy`, apart from the time. -/
structure Admission where
  (payload sender destinationHint : Bytes)
  (priority lifetimeMs replicationLimit : Nat)
  (custody doNotReplicate localScopeOnly : Bool)

/-- The domain that bundle ids are hashed in. -/
def bundleIdLabel : Bytes := ascii "UMP-BUNDLE-ID-v1"

/-- `bundle_id` of the envelope with this payload. -/
def bundleId (crypto : Primitives) (payload destinationHint : Bytes) : BundleId :=
  crypto.blake2s (bundleIdLabel ++ (crypto.blake2s payload).1 ++ (crypto.blake2s destinationHint).1)

/-- The record of a bundle as it is admitted: a lifetime of at least a second, nothing replicated yet. -/
def Admission.record (a : Admission) (id : BundleId) (objectId : Octets 32) (now : Nat) : BundleRecord :=
  let deadline := saturatingAdd now (max a.lifetimeMs 1000)
  { id, objectId, sender := a.sender, destinationHint := a.destinationHint, size := a.payload.length
    priority := a.priority, createdAt := now, expiresAt := deadline, replicationCount := 0
    replicationLimit := a.replicationLimit, doNotReplicate := a.doNotReplicate
    localScopeOnly := a.localScopeOnly, custody := a.custody
    custodyDeadline := if a.custody then some deadline else none, transferChunkIndex := 0
    status := if a.custody then .custodyAccepted else .received }

/-- `entry(sender).or_insert(0) += 1`. -/
def countOne (counts : OrderedMap Bytes Nat) (sender : Bytes) : OrderedMap Bytes Nat :=
  counts.insert sender ((counts.get? sender).getD 0 + 1)

/-- `get_mut(sender)`, less one. -/
def discountOne (counts : OrderedMap Bytes Nat) (sender : Bytes) : OrderedMap Bytes Nat :=
  match counts.get? sender with
  | some count => counts.insert sender (count - 1)
  | none => counts

/-- The comparison of `evict_under_pressure`: delivered records first, then low priority,
many replicas, large size and age. -/
def evictionOrder (left right : BundleRecord) : Ordering :=
  let delivered (r : BundleRecord) : Nat := if r.status = .delivered then 1 else 0
  (compare (delivered right) (delivered left)).then <|
    (compare left.priority right.priority).then <|
    (compare right.replicationCount left.replicationCount).then <|
    (compare right.size left.size).then (compare left.createdAt right.createdAt)

/-- `sort_by` with that comparison, which is stable. -/
def sortForEviction (records : List BundleRecord) : List BundleRecord :=
  records.insertionSort fun left right => evictionOrder left right ≠ .gt

namespace BundleManager

def new (objects : ObjectStore) (quota : QuotaAccount) : BundleManager :=
  { objects, quota, records := .empty, bundlesPerSender := .empty, duplicateCache := .empty
    lastNow := 0, persisted := false, keyed := fun _ member => absurd member not_mem_empty }

variable (m : BundleManager)

def setPersistence (attached : Bool) : BundleManager :=
  { m with persisted := attached }

def pruneDuplicateCache (now : Nat) : BundleManager :=
  { m with duplicateCache := m.duplicateCache.filter fun entry => entry.2.expiresAt > now }

/-- `remember_duplicate`: a full cache loses the entry inserted first. -/
def rememberDuplicate (host : Host) (id : BundleId) (now : Nat) : BundleManager :=
  let cache := (m.pruneDuplicateCache now).duplicateCache
  let cache :=
    if cache.size ≥ duplicateCacheCapacity then
      match (host.cacheOrder cache.entries).argmin fun entry => entry.2.insertedAt with
      | some oldest => cache.erase oldest.1
      | none => cache
    else cache
  let entry := { expiresAt := saturatingAdd now duplicateCacheTtlMs, insertedAt := now }
  { m with duplicateCache := cache.insert id entry }

theorem keyed_erase (id : BundleId) : ∀ entry ∈ m.records.erase id, entry.2.id = entry.1 := fun entry member =>
  m.keyed entry (mem_erase.mp member).1

theorem keyed_insert {id : BundleId} (own : record.id = id) :
    ∀ entry ∈ m.records.insert id record, entry.2.id = entry.1 :=
  forall_mem_insert own m.keyed

/-- A record leaves the manager: its bytes and its sender's count are given back. -/
def discard (id : BundleId) (record : BundleRecord) : BundleManager :=
  { m with records := m.records.erase id, quota := m.quota.release record.size
           bundlesPerSender := discountOne m.bundlesPerSender record.sender
           keyed := m.keyed_erase id }

def removeAt (host : Host) (id : BundleId) (now : Nat) : BundleManager :=
  let m := { m with lastNow := now }
  match m.records.get? id with
  | none => m
  | some record => (m.discard id record).rememberDuplicate host record.id now

def remove (host : Host) (id : BundleId) : BundleManager :=
  m.removeAt host id m.lastNow

/-- Some record that passes the test refers to the object. -/
def refersTo (objectId : Octets 32) (counts : BundleRecord → Bool) : Bool :=
  m.records.entries.any fun entry => counts entry.2 && entry.2.objectId = objectId

/-- Delete an object unless it is still referenced. -/
def dropObject (host : Host) (stillReferenced : Bool) (objectId : Octets 32) : BundleManager :=
  if stillReferenced then m else { m with objects := m.objects.delete host.faults.delete objectId }

/-- One turn of the eviction loops. -/
def evict (host : Host) (now : Nat) (record : BundleRecord) : BundleManager :=
  let stillReferenced := m.refersTo record.objectId fun other => other.id ≠ record.id
  (m.dropObject host stillReferenced record.objectId).removeAt host record.id now

/-- `evict_expired`. The entries are in the order of their ids, so sorting them changes
nothing. -/
def evictExpired (host : Host) (now : Nat) : List BundleId × BundleManager :=
  let m := ({ m with lastNow := now }).pruneDuplicateCache now
  let expired := (m.records.entries.map Prod.snd).filter fun r => r.expiresAt ≤ now && !r.custodyHolds now
  (expired.map BundleRecord.id, expired.foldl (fun m record => m.evict host now record) m)

/-- The usage that eviction aims for, 90 percent of the limit. -/
def recoveryLimit : Nat := saturatingMul m.quota.hardLimit 90 / 100

/-- The loop of `evict_under_pressure`. -/
def evictDownTo (host : Host) (now limit : Nat) :
    List BundleRecord → BundleManager → List BundleId × BundleManager
  | [], m => ([], m)
  | record :: rest, m =>
    if m.quota.used ≤ limit then ([], m)
    else
      let (evicted, m) := evictDownTo host now limit rest (m.evict host now record)
      (record.id :: evicted, m)

/-- Down to the recovery limit, past the bundles that custody still holds. -/
def evictUnderPressure (host : Host) (now : Nat) : List BundleId × BundleManager :=
  if m.quota.used ≤ m.recoveryLimit then ([], m)
  else
    let eligible := (host.recordOrder (m.records.entries.map Prod.snd)).filter fun r => !r.custodyHolds now
    evictDownTo host now m.recoveryLimit (sortForEviction eligible) m

/-! `admit_with_policy` in three parts. -/

variable (crypto : Primitives)

/-- The checks before anything is allocated; the id of the bundle if they pass. -/
def checkPolicy (a : Admission) : Except BundleError BundleId :=
  if a.payload.length > defaultMaxBundleBytes then .error .tooLarge
  else if a.lifetimeMs > maxLifetimeMs then .error .expired
  else if a.replicationLimit > defaultMaxReplication then .error .replicationLimit
  else if (m.bundlesPerSender.get? a.sender).getD 0 ≥ maxBundlesPerSender then .error .quotaExceeded
  else
    let id := bundleId crypto a.payload a.destinationHint
    if (m.records.get? id).isSome then .error .duplicate
    else if (m.duplicateCache.get? id).isSome then .error .duplicate
    else .ok id

/-- The pressure thresholds; at 90 percent records are evicted before the decision. -/
def relievePressure (host : Host) (priority now : Nat) : Except BundleError Unit × BundleManager :=
  if m.quota.hardLimit > 0 then
    let criticalLimit := saturatingMul m.quota.hardLimit 98 / 100
    let softLimit := saturatingMul m.quota.hardLimit 80 / 100
    if m.quota.used ≥ criticalLimit then (.error .quotaExceeded, m)
    else
      let m := if m.quota.used ≥ m.recoveryLimit then (m.evictUnderPressure host now).2 else m
      if m.quota.used ≥ criticalLimit ∨ (m.quota.used ≥ softLimit ∧ priority = 0) then
        (.error .quotaExceeded, m)
      else (.ok (), m)
  else (.ok (), m)

/-- A record enters the manager and is counted for its sender. -/
def enter (record : BundleRecord) : BundleManager :=
  { m with records := m.records.insert record.id record
           bundlesPerSender := countOne m.bundlesPerSender record.sender
           keyed := m.keyed_insert rfl }

/-- Reservation, object and record, and the commit of the metadata, which rolls the rest back if it fails. -/
def storeBundle (host : Host) (a : Admission) (id : BundleId)
    (now : Nat) : Except BundleError BundleId × BundleManager :=
  match m.quota.reserve a.payload.length with
  | .error _ => (.error .quotaExceeded, m)
  | .ok quota =>
    let objectId := crypto.blake2s a.payload
    match m.objects.put crypto host.faults.put objectId a.payload with
    | (.error error, objects) => (.error (.storage error), { m with quota, objects })
    | (.ok (), objects) =>
      let record := a.record id objectId now
      let m := ({ m with quota, objects }).enter record
      match m.persisted, host.faults.save with
      | true, some error =>
        let m := m.discard id record
        (.error (.persistence error),
          m.dropObject host (m.refersTo objectId fun _ => true) objectId)
      | _, _ => (.ok id, m)

/-- `admit_with_policy`: policy, then pressure, then the store; the duplicate cache is pruned in any case. -/
def admitWithPolicy (host : Host) (a : Admission) (now : Nat) :
    Except BundleError BundleId × BundleManager :=
  let m := ({ m with lastNow := now }).pruneDuplicateCache now
  match m.checkPolicy crypto a with
  | .error error => (.error error, m)
  | .ok id =>
    match m.relievePressure host a.priority now with
    | (.error error, m) => (.error error, m)
    | (.ok (), m) => m.storeBundle crypto host a id now

def getPayload (id : BundleId) : Except BundleError Bytes :=
  match m.records.get? id with
  | none => .error .notFound
  | some record => (m.objects.get crypto record.objectId).mapError .storage

end BundleManager

/-- What a change of a stored record leaves alone: the bundle and what was reserved for it. -/
structure SameBundle (r r' : BundleRecord) : Prop where
  id : r'.id = r.id
  objectId : r'.objectId = r.objectId
  sender : r'.sender = r.sender
  size : r'.size = r.size

/-- A change of a record in place, or why it is refused. -/
structure RecordChange where
  apply : BundleRecord → Except BundleError BundleRecord
  keeps : ∀ {r r'}, apply r = .ok r' → SameBundle r r'

namespace RecordChange

/-- A change that is refused where a test fails. -/
def guarded (error : BundleError) (refused : BundleRecord → Bool) (change : BundleRecord → BundleRecord)
    (keeps : ∀ r, SameBundle r (change r)) : RecordChange :=
  { apply := fun r => if refused r then .error error else .ok (change r)
    keeps := fun {r r'} changed => by
      by_cases stop : refused r = true
      · simp [stop] at changed
      · simp only [stop, Bool.false_eq_true, if_false, Except.ok.injEq] at changed
        exact changed ▸ keeps r }

/-- A change made only where a test holds. -/
def onlyIf (due : BundleRecord → Bool) (change : BundleRecord → BundleRecord)
    (keeps : ∀ r, SameBundle r (change r)) : RecordChange :=
  { apply := fun r => .ok (if due r then change r else r)
    keeps := fun {r r'} changed => by
      cases changed
      by_cases here : due r = true
      · simpa only [here, if_true] using keeps r
      · simpa only [here, if_false, Bool.false_eq_true] using ⟨rfl, rfl, rfl, rfl⟩ }

def setStatus (status : BundleStatus) : RecordChange :=
  onlyIf (fun _ => true) (fun r => { r with status }) fun _ => ⟨rfl, rfl, rfl, rfl⟩

def markForwarded : RecordChange :=
  guarded .replicationLimit (fun r => r.replicationCount ≥ r.replicationLimit)
    (fun r => { r with replicationCount := saturatingAdd r.replicationCount 1, status := .forwarded })
    fun _ => ⟨rfl, rfl, rfl, rfl⟩

def setCustodyDeadline (deadline : Nat) : RecordChange :=
  guarded .conflict (fun r => !r.custody || r.status = .delivered || r.status = .expired)
    (fun r => { r with custodyDeadline := some deadline }) fun _ => ⟨rfl, rfl, rfl, rfl⟩

def releaseCustody : RecordChange :=
  onlyIf (fun r => r.custody)
    (fun r => { r with custody := false, custodyDeadline := none, status := .delivered })
    fun _ => ⟨rfl, rfl, rfl, rfl⟩

def completeCustodyTransfer : RecordChange :=
  onlyIf (fun r => r.custody)
    (fun r => { r with custody := false, custodyDeadline := none
                       status := if r.status ≠ .delivered then .forwarded else r.status })
    fun _ => ⟨rfl, rfl, rfl, rfl⟩

def rejectCustodyTransfer : RecordChange :=
  onlyIf (fun r => r.custody)
    (fun r => { r with custody := false, custodyDeadline := none, status := .received })
    fun _ => ⟨rfl, rfl, rfl, rfl⟩

def rewindTransferChunk (chunkIndex : Nat) : RecordChange :=
  guarded .conflict (fun r => r.transferChunkIndex ≠ saturatingAdd chunkIndex 1)
    (fun r => { r with transferChunkIndex := chunkIndex }) fun _ => ⟨rfl, rfl, rfl, rfl⟩

/-- The step of the cursor in `next_transfer_chunk`. -/
def advanceTransfer : RecordChange :=
  onlyIf (fun _ => true) (fun r => { r with transferChunkIndex := saturatingAdd r.transferChunkIndex 1 })
    fun _ => ⟨rfl, rfl, rfl, rfl⟩

end RecordChange

namespace BundleManager

/-- A change of the record of an id; writing its metadata is best-effort and left out. -/
def change (m : BundleManager) (id : BundleId) (c : RecordChange) : Except BundleError Unit × BundleManager :=
  match found : m.records.get? id with
  | none => (.error .notFound, m)
  | some record =>
    match changed : c.apply record with
    | .error error => (.error error, m)
    | .ok record' =>
      (.ok (), { m with
        records := m.records.insert id record'
        keyed := m.keyed_insert
          ((c.keeps changed).id.trans (m.keyed (id, record) (get?_eq_some.mp found))) })

/-- The next chunk of a transfer, its index and whether it is the last; `none` behind the end of the payload. -/
def nextTransferChunk (m : BundleManager) (crypto : Primitives) (id : BundleId) (chunkSize : Nat) :
    Except BundleError (Option (BundleRecord × Bytes × Nat × Bool)) × BundleManager :=
  if chunkSize = 0 then (.error .conflict, m)
  else
    match m.records.get? id, m.getPayload crypto id with
    | none, _ => (.error .notFound, m)
    | some _, .error error => (.error error, m)
    | some record, .ok payload =>
      match checkedMul record.transferChunkIndex chunkSize with
      | none => (.error .conflict, m)
      | some start =>
        if start ≥ payload.length then (.ok none, m)
        else
          let stop := min ((checkedAdd start chunkSize).getD payload.length) payload.length
          let advanced := (m.change id .advanceTransfer).2
          (.ok (some ((advanced.records.get? id).getD record, (payload.take stop).drop start,
            record.transferChunkIndex, stop = payload.length)), advanced)

end BundleManager

end UniversalMesh.Bundle
