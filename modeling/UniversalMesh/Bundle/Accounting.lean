import UniversalMesh.Bundle.Manager
import UniversalMesh.Lib.Run

/-! What the bundle manager has accounted for against what it stores, over whole runs: the quota account against
the sizes of the live records, and the count of a sender against the records it sent. -/
namespace UniversalMesh.Bundle
open MachineWord Wire Crypto Storage OrderedMap

section

variable {id : BundleId}

/-- The calls that change what the manager accounts for. -/
inductive BundleCall where
  | admission (a : Admission) (now : Nat) | remove (id : BundleId)
  | removeAt (id : BundleId) (now : Nat) | evictExpired (now : Nat) | evictUnderPressure (now : Nat)
  | change (id : BundleId) (c : RecordChange) | nextTransferChunk (id : BundleId) (chunkSize : Nat)
  | setPersistence (attached : Bool)

namespace BundleManager

/-- One call, on the host it meets. -/
def step (crypto : Primitives) (m : BundleManager) : Host × BundleCall → BundleManager
  | (host, .admission a now) => (m.admitWithPolicy crypto host a now).2
  | (host, .remove id) => m.remove host id
  | (host, .removeAt id now) => m.removeAt host id now
  | (host, .evictExpired now) => (m.evictExpired host now).2
  | (host, .evictUnderPressure now) => (m.evictUnderPressure host now).2
  | (_, .change id c) => (m.change id c).2
  | (_, .nextTransferChunk id chunkSize) => (m.nextTransferChunk crypto id chunkSize).2
  | (_, .setPersistence attached) => m.setPersistence attached

def liveBytes (m : BundleManager) : Nat := m.records.sumBy BundleRecord.size

def liveFrom (m : BundleManager) (sender : Bytes) : Nat :=
  m.records.sumBy fun r => if r.sender = sender then 1 else 0

/-- `bundles_per_sender[sender]`. -/
def countFor (m : BundleManager) (sender : Bytes) : Nat := (m.bundlesPerSender.get? sender).getD 0

/-- The account holds the bytes of the live records. -/
def Balanced (m : BundleManager) : Prop := m.quota.used = m.liveBytes

/-- Every sender's count is the number of its live records. -/
def Counted (m : BundleManager) : Prop := ∀ sender, m.countFor sender = m.liveFrom sender

structure SameAccounts (m m' : BundleManager) : Prop where
  records : m'.records = m.records
  quota : m'.quota = m.quota
  counts : ∀ sender, m'.countFor sender = m.countFor sender

theorem SameAccounts.refl (m : BundleManager) : SameAccounts m m := ⟨rfl, rfl, fun _ => rfl⟩

variable {m : BundleManager} {crypto : Primitives} {host : Host}

theorem SameAccounts.trans (first : SameAccounts m m') (second : SameAccounts m' m'') : SameAccounts m m'' :=
  ⟨second.records.trans first.records, second.quota.trans first.quota,
    fun sender => (second.counts sender).trans (first.counts sender)⟩

theorem removeAt_parts (m : BundleManager) :
    (m.removeAt host id now).records = m.records.erase id ∧ (m.removeAt host id now).objects = m.objects := by
  unfold removeAt
  dsimp only
  split
  · next missing => exact ⟨(erase_of_get?_eq_none missing).symm, rfl⟩
  · exact ⟨rfl, rfl⟩

section
variable {holds : BundleManager → Prop} {m : BundleManager} {host : Host} {now : Nat}
  (kept : ∀ (m : BundleManager) (record : BundleRecord), holds m → holds (m.evict host now record))
include kept

theorem evictDownTo_invariant (limit : Nat) (records : List BundleRecord) (held : holds m) :
    holds (evictDownTo host now limit records m).2 := by
  induction records generalizing m with
  | nil => exact held
  | cons record rest ih =>
    unfold evictDownTo
    split
    · exact held
    · exact ih (kept m record held)

theorem evictUnderPressure_invariant (held : holds m) : holds (m.evictUnderPressure host now).2 := by
  unfold evictUnderPressure
  split
  · exact held
  · exact evictDownTo_invariant kept _ _ held

theorem evictExpired_invariant (held : holds (({ m with lastNow := now }).pruneDuplicateCache now)) :
    holds (m.evictExpired host now).2 :=
  Run.invariant kept held

end

/-- A property that depends on the accounts only and outlives the loss of a record. -/
structure OutlivesRemoval (holds : BundleManager → Prop) : Prop where
  same : ∀ {m m'}, SameAccounts m m' → holds m → holds m'
  discard : ∀ {m id record}, m.records.get? id = some record → holds m → holds (m.discard id record)

namespace OutlivesRemoval
variable {holds : BundleManager → Prop} (outlives : OutlivesRemoval holds) {m : BundleManager}
include outlives

theorem removeAt (host : Host) (id : BundleId) (now : Nat) (held : holds m) :
    holds (m.removeAt host id now) := by
  have started : holds { m with lastNow := now } := outlives.same (m := m) ⟨rfl, rfl, fun _ => rfl⟩ held
  unfold BundleManager.removeAt
  dsimp only
  split
  · exact started
  · next record found =>
    have discarded := outlives.discard (m := { m with lastNow := now }) found started
    refine outlives.same ?_ discarded
    exact ⟨rfl, rfl, fun _ => rfl⟩

theorem evict (host : Host) (now : Nat) (record : BundleRecord) (held : holds m) :
    holds (m.evict host now record) := by
  refine outlives.removeAt host record.id now (outlives.same ?_ held)
  unfold dropObject
  split
  · exact .refl m
  · exact ⟨rfl, rfl, fun _ => rfl⟩

theorem evictExpired (host : Host) (now : Nat) (held : holds m) : holds (m.evictExpired host now).2 := by
  refine evictExpired_invariant (fun _ record => outlives.evict host now record) ?_
  exact outlives.same (m := m) ⟨rfl, rfl, fun _ => rfl⟩ held

theorem evictUnderPressure (host : Host) (now : Nat) (held : holds m) :
    holds (m.evictUnderPressure host now).2 :=
  evictUnderPressure_invariant (fun _ record => outlives.evict host now record) held

end OutlivesRemoval

/-! The two accounts outlive the loss of a record. -/

theorem countFor_discard :
    (m.discard id record).countFor sender =
      m.countFor sender - if record.sender = sender then 1 else 0 := by
  simp only [countFor, discard, discountOne]
  split
  · next count known =>
    rw [get?_insert]
    by_cases here : sender = record.sender
    · simp [here, known]
    · simp [here, Ne.symm here]
  · next unknown =>
    by_cases here : record.sender = sender
    · simp [← here, unknown]
    · simp [here]

theorem outlives_counted : OutlivesRemoval Counted where
  same := fun same counted sender => by
    rw [same.counts, counted sender, liveFrom, liveFrom, same.records]
  discard := fun {m id record} found counted sender => by
    have taken := sumBy_erase found fun r => if r.sender = sender then 1 else 0
    have before := counted sender
    rw [countFor_discard]
    simp only [liveFrom, discard] at before taken ⊢
    omega

theorem outlives_balanced : OutlivesRemoval Balanced where
  same := fun same balanced => by
    unfold Balanced liveBytes at *
    rw [same.quota, same.records, balanced]
  discard := fun {m id record} found balanced => by
    have taken := sumBy_erase found BundleRecord.size
    simp only [Balanced, liveBytes, discard, QuotaAccount.release] at balanced taken ⊢
    omega

theorem outlives_absent : OutlivesRemoval fun m => m.records.get? id = none where
  same := fun same absent => by rw [same.records, absent]
  discard := fun {m other record} _ absent => by
    simp only [discard, get?_erase]
    split
    · rfl
    · exact absent

/-! Admission. -/

theorem countFor_enter :
    (m.enter record).countFor sender = m.countFor sender + if record.sender = sender then 1 else 0 := by
  simp only [countFor, enter, countOne, get?_insert]
  by_cases here : sender = record.sender
  · simp [here]
  · simp [here, Ne.symm here]

section
variable {record : BundleRecord} (absent : m.records.get? record.id = none)
include absent

theorem live_enter :
    (m.enter record).liveBytes = m.liveBytes + record.size ∧
      ∀ sender, (m.enter record).liveFrom sender =
        m.liveFrom sender + if record.sender = sender then 1 else 0 := by
  have put := fun measure => sumBy_put m.records record.id record measure
  simp only [absent, Option.map_none, Option.getD_none, Nat.add_zero] at put
  exact ⟨put _, fun sender => put _⟩

/-- Giving back a record that was just entered restores the accounts. -/
theorem discard_enter (objects : ObjectStore) :
    SameAccounts m ((({ m with quota := { m.quota with used := m.quota.used + record.size }
                               objects }).enter record).discard record.id record) where
  records := by
    simp only [discard, enter, erase_insert_self, erase_of_get?_eq_none absent]
  quota := by simp only [discard, enter, QuotaAccount.release, Nat.add_sub_cancel]
  counts := fun sender => by
    rw [countFor_discard, countFor_enter, Nat.add_sub_cancel]
    rfl

end

theorem same_dropObject (m : BundleManager) (host : Host) (stillReferenced : Bool) (objectId : Octets 32) :
    SameAccounts m (m.dropObject host stillReferenced objectId) := by
  unfold dropObject
  split
  · exact .refl m
  · exact ⟨rfl, rfl, fun _ => rfl⟩

/-- An error that leaves the accounts alone, a failed write of the object, or a record with its reservation. -/
theorem storeBundle_cases (m : BundleManager) (absent : m.records.get? id = none) :
    (∃ error m', m.storeBundle crypto host a id now = (.error error, m') ∧ SameAccounts m m') ∨
    (∃ error m', m.storeBundle crypto host a id now = (.error (.storage error), m') ∧
      host.faults.put ≠ none ∧ m'.records = m.records ∧ ∀ sender, m'.countFor sender = m.countFor sender) ∨
    (∃ (record : BundleRecord) (objects : ObjectStore), m.storeBundle crypto host a id now =
        (.ok id, ({ m with quota := { m.quota with used := m.quota.used + record.size }, objects }).enter record) ∧
      record.id = id) := by
  cases reserved : m.quota.reserve a.payload.length with
  | error error => exact .inl ⟨.quotaExceeded, m, by simp only [storeBundle, reserved], .refl m⟩
  | ok quota =>
    obtain rfl := QuotaAccount.reserve_ok reserved
    cases put : host.faults.put with
    | some fault =>
      simp only [storeBundle, reserved, put, ObjectStore.put, ne_eq, not_true_eq_false, if_false]
      exact .inr (.inl ⟨fault.1, _, rfl, by simp, rfl, fun _ => rfl⟩)
    | none =>
      simp only [storeBundle, reserved, put, ObjectStore.put, ne_eq, not_true_eq_false, if_false]
      split
      · next error _ _ =>
        refine .inl ⟨.persistence error, _, rfl, SameAccounts.trans ?_ (same_dropObject _ _ _ _)⟩
        exact @discard_enter m (a.record id (crypto.blake2s a.payload) now) absent _
      · exact .inr (.inr ⟨a.record id (crypto.blake2s a.payload) now, _, rfl, rfl⟩)

theorem checkPolicy_ok (checked : m.checkPolicy crypto a = .ok id) : m.records.get? id = none := by
  unfold checkPolicy at checked
  iterate 4
    split at checked
    · cases checked
  dsimp only at checked
  split at checked
  · cases checked
  next missing =>
  split at checked
  · cases checked
  · cases checked
    exact Option.not_isSome_iff_eq_none.mp missing

theorem relievePressure_state :
    (m.relievePressure host priority now).2 = m ∨
      (m.recoveryLimit ≤ m.quota.used ∧
        (m.relievePressure host priority now).2 = (m.evictUnderPressure host now).2) := by
  unfold relievePressure
  by_cases limited : m.quota.hardLimit > 0
  swap
  · exact .inl (by rw [if_neg limited])
  by_cases critical : m.quota.used ≥ saturatingMul m.quota.hardLimit 98 / 100
  · exact .inl (by simp only [if_pos limited, if_pos critical])
  by_cases pressed : m.quota.used ≥ m.recoveryLimit
  · refine .inr ⟨pressed, ?_⟩
    simp only [if_pos limited, if_neg critical, if_pos pressed]
    split <;> rfl
  · refine .inl ?_
    simp only [if_pos limited, if_neg critical, if_neg pressed]
    split <;> rfl

/-- The manager when an admission begins. -/
def begun (m : BundleManager) (now : Nat) : BundleManager :=
  ({ m with lastNow := now }).pruneDuplicateCache now

/-- An admission may evict first, at 90 percent usage; it then fails, or goes on to store a bundle that has no
record. -/
theorem admitWithPolicy_cases (m : BundleManager) : ∃ relieved,
      (relieved = m.begun now ∨ (m.recoveryLimit ≤ m.quota.used ∧
        relieved = ((m.begun now).evictUnderPressure host now).2)) ∧
      ((∃ error, m.admitWithPolicy crypto host a now = (.error error, relieved)) ∨
        ∃ id, relieved.records.get? id = none ∧
          m.admitWithPolicy crypto host a now = relieved.storeBundle crypto host a id now) := by
  unfold admitWithPolicy
  cases checked : (m.begun now).checkPolicy crypto a with
  | error error =>
    refine ⟨m.begun now, .inl rfl, .inl ⟨error, ?_⟩⟩
    rw [begun] at checked
    simp only [checked]
    rfl
  | ok id =>
    have fresh := checkPolicy_ok checked
    have absent : ((m.begun now).relievePressure host a.priority now).2.records.get? id = none := by
      rcases relievePressure_state with same | ⟨-, evicted⟩
      · rw [same, fresh]
      · rw [evicted]
        exact outlives_absent.evictUnderPressure host now fresh
    refine ⟨((m.begun now).relievePressure host a.priority now).2, relievePressure_state, ?_⟩
    rw [begun] at checked
    simp only [checked]
    rw [← begun]
    cases decided : (m.begun now).relievePressure host a.priority now with
    | mk result relieved =>
      cases result with
      | error error => exact .inl ⟨error, rfl⟩
      | ok _ => exact .inr ⟨id, by rw [decided] at absent; exact absent, rfl⟩

theorem same_begun (m : BundleManager) (now : Nat) : SameAccounts m (m.begun now) :=
  ⟨rfl, rfl, fun _ => rfl⟩

theorem OutlivesRemoval.relieved (outlives : OutlivesRemoval holds)
    {relieved : BundleManager} {pressed : Prop} (held : holds m)
    (reached : relieved = m.begun now ∨ (pressed ∧ relieved = ((m.begun now).evictUnderPressure host now).2)) :
    holds relieved := by
  have begun := outlives.same (m.same_begun now) held
  rcases reached with rfl | ⟨-, rfl⟩
  · exact begun
  · exact outlives.evictUnderPressure host now begun

theorem admit_counted (crypto : Primitives) (host : Host) (a : Admission) (now : Nat) (counted : m.Counted) :
    (m.admitWithPolicy crypto host a now).2.Counted := by
  obtain ⟨relieved, reached, ⟨error, ended⟩ | ⟨id, absent, stored⟩⟩ := m.admitWithPolicy_cases
  · rw [ended]
    exact outlives_counted.relieved counted reached
  have before := outlives_counted.relieved counted reached
  rw [stored]
  rcases relieved.storeBundle_cases absent with
    ⟨_, m', failed, same⟩ | ⟨_, m', failed, -, records, counts⟩ | ⟨record, objects, entered, rfl⟩
  · rw [failed]
    exact outlives_counted.same same before
  · rw [failed]
    intro sender
    rw [counts, before sender, liveFrom, liveFrom, records]
  · rw [entered]
    intro sender
    have live := (live_enter (m := { relieved with
      quota := { relieved.quota with used := relieved.quota.used + record.size }, objects }) absent).2 sender
    rw [countFor_enter, live]
    exact congrArg (· + _) (before sender)

theorem admit_balanced (crypto : Primitives) (a : Admission) (now : Nat) (written : host.faults.put = none)
    (balanced : m.Balanced) : (m.admitWithPolicy crypto host a now).2.Balanced := by
  obtain ⟨relieved, reached, ⟨error, ended⟩ | ⟨id, absent, stored⟩⟩ := m.admitWithPolicy_cases
  · rw [ended]
    exact outlives_balanced.relieved balanced reached
  have before := outlives_balanced.relieved balanced reached
  rw [stored]
  rcases relieved.storeBundle_cases absent with
    ⟨_, m', failed, same⟩ | ⟨_, m', failed, fault, -⟩ | ⟨record, objects, entered, rfl⟩
  · rw [failed]
    exact outlives_balanced.same same before
  · exact absurd written fault
  · rw [entered]
    have live := (live_enter (m := { relieved with
      quota := { relieved.quota with used := relieved.quota.used + record.size }, objects }) absent).1
    rw [Balanced, live]
    exact congrArg (· + record.size) before

theorem change_live (m : BundleManager) :
    (m.change id c).2.quota = m.quota ∧ (m.change id c).2.bundlesPerSender = m.bundlesPerSender ∧
      ∀ measure : BundleRecord → Nat, (∀ r r', SameBundle r r' → measure r' = measure r) →
        (m.change id c).2.records.sumBy measure = m.records.sumBy measure := by
  unfold change
  split
  · exact ⟨rfl, rfl, fun _ _ => rfl⟩
  next record found =>
  split
  · exact ⟨rfl, rfl, fun _ _ => rfl⟩
  next record' changed =>
  refine ⟨rfl, rfl, fun measure same => ?_⟩
  have put := sumBy_put m.records id record' measure
  rw [found, Option.map_some, Option.getD_some, same _ _ (c.keeps changed)] at put
  exact Nat.add_right_cancel put

theorem change_counted (id : BundleId) (c : RecordChange) (counted : m.Counted) :
    (m.change id c).2.Counted := by
  obtain ⟨-, counts, live⟩ := m.change_live
  intro sender
  rw [countFor, counts, liveFrom, live _ fun r r' same => by rw [same.sender]]
  exact counted sender

theorem change_balanced (id : BundleId) (c : RecordChange) (balanced : m.Balanced) :
    (m.change id c).2.Balanced := by
  obtain ⟨quota, -, live⟩ := m.change_live
  rw [Balanced, quota, liveBytes, live _ fun r r' same => same.size]
  exact balanced

theorem nextTransferChunk_state (m : BundleManager) :
    (m.nextTransferChunk crypto id chunkSize).2 = m ∨
      (m.nextTransferChunk crypto id chunkSize).2 = (m.change id .advanceTransfer).2 := by
  unfold nextTransferChunk
  repeat' split
  all_goals first | exact .inl rfl | exact .inr rfl

theorem OutlivesRemoval.step (outlives : OutlivesRemoval holds)
    (changed : ∀ {m : BundleManager} (id c), holds m → holds (m.change id c).2)
    (admitted : ∀ a now, call = .admission a now → holds (m.admitWithPolicy crypto host a now).2)
    (held : holds m) : holds (m.step crypto (host, call)) := by
  cases call with
  | admission a now => exact admitted a now rfl
  | remove id => exact outlives.removeAt host id m.lastNow held
  | removeAt id now => exact outlives.removeAt host id now held
  | evictExpired now => exact outlives.evictExpired host now held
  | evictUnderPressure now => exact outlives.evictUnderPressure host now held
  | change id c => exact changed id c held
  | nextTransferChunk id chunkSize =>
    rcases m.nextTransferChunk_state with same | advanced
    · rwa [BundleManager.step, same]
    · rw [BundleManager.step, advanced]
      exact changed id _ held
  | setPersistence attached => exact outlives.same (m := m) ⟨rfl, rfl, fun _ => rfl⟩ held

theorem step_counted (crypto : Primitives) (m : BundleManager) (input : Host × BundleCall)
    (counted : m.Counted) : (m.step crypto input).Counted :=
  outlives_counted.step change_counted (fun a now _ => admit_counted crypto input.1 a now counted) counted

theorem step_balanced (crypto : Primitives) (m : BundleManager) (input : Host × BundleCall)
    (balanced : m.Balanced) (written : input.1.faults.put = none) : (m.step crypto input).Balanced :=
  outlives_balanced.step change_balanced (fun a now _ => admit_balanced crypto a now written balanced)
    balanced

/-- An admission that fails, other than by the write of its object, leaves the accounts as the eviction that it
may begin with left them. -/
theorem admit_failed (failed : (m.admitWithPolicy crypto host a now).1 = .error error)
    (written : ∀ reason, error ≠ .storage reason) :
    SameAccounts m (m.admitWithPolicy crypto host a now).2 ∨ (m.recoveryLimit ≤ m.quota.used ∧
        SameAccounts ((m.begun now).evictUnderPressure host now).2 (m.admitWithPolicy crypto host a now).2) := by
  obtain ⟨relieved, reached, outcome⟩ := m.admitWithPolicy_cases
  have same : SameAccounts relieved (m.admitWithPolicy crypto host a now).2 := by
    rcases outcome with ⟨error, ended⟩ | ⟨id, absent, stored⟩
    · rw [ended]
      exact .refl relieved
    rw [stored] at failed ⊢
    rcases relieved.storeBundle_cases absent with
      ⟨_, m', ended, same⟩ | ⟨reason, m', ended, -⟩ | ⟨record, objects, entered, -⟩
    · rw [ended]
      exact same
    · rw [ended] at failed
      cases failed
      exact absurd rfl (written reason)
    · rw [entered] at failed
      cases failed
  rcases reached with rfl | ⟨pressed, rfl⟩
  · exact .inl ((m.same_begun now).trans same)
  · exact .inr ⟨pressed, same⟩

/-- The manager after the calls, from an empty one with this limit. -/
def after (crypto : Primitives) (objects : ObjectStore) (profile : Profile) (hardLimit : Nat)
    (inputs : List (Host × BundleCall)) : BundleManager :=
  inputs.foldl (step crypto) (new objects { profile, used := 0, hardLimit })

/-- After any calls on an empty manager, every sender is counted exactly; the account holds exactly the bytes of
the live records if no write of an object failed; and an admission that then fails, other than by such a write,
changes the accounts only by the eviction it began with. -/
theorem accounts_agree (crypto : Primitives) (objects : ObjectStore) (profile : Profile) (hardLimit : Nat)
    (inputs : List (Host × BundleCall)) :
    let m := after crypto objects profile hardLimit inputs
    (∀ sender, m.countFor sender = m.liveFrom sender) ∧
    ((∀ input ∈ inputs, input.1.faults.put = none) → m.quota.used = m.liveBytes) ∧
    ∀ host a now error, (m.admitWithPolicy crypto host a now).1 = .error error →
      (∀ reason, error ≠ .storage reason) →
      SameAccounts m (m.admitWithPolicy crypto host a now).2 ∨
        (m.recoveryLimit ≤ m.quota.used ∧
          SameAccounts ((m.begun now).evictUnderPressure host now).2
            (m.admitWithPolicy crypto host a now).2) := by
  refine ⟨?_, fun written => ?_, fun host a now error failed written => admit_failed failed written⟩
  · exact Run.invariant (step_counted crypto) fun _ => rfl
  · have start : (new objects { profile, used := 0, hardLimit }).Balanced := rfl
    exact Run.invariant_of_meets (step_balanced crypto) start (Run.meets_of_forall written _)

/-- A bundle of `size` bytes with priority 1. -/
def sized (size : Nat) : Admission :=
  { payload := List.replicate size 7, sender := [1], destinationHint := [2], priority := 1
    lifetimeMs := defaultLifetimeMs, replicationLimit := 3, custody := false, doNotReplicate := false
    localScopeOnly := false }

/-- With 95 of 100 bytes used, an admission of 101 bytes evicts the one record and then fails. -/
theorem failed_admission_evicts :
    let m := after transparent .empty .standard 100 [(.steady, .admission (sized 95) 0)]
    let admitted := m.admitWithPolicy transparent .steady (sized 101) 1
    m.quota.used = 95 ∧ admitted.1 = .error .quotaExceeded ∧ admitted.2.quota.used = 0 ∧
      admitted.2.countFor [1] = 0 := by
  decide +kernel

/-- Two bundles are admitted and one is removed. -/
def twoAndOne : List (Host × BundleCall) :=
  [(.steady, .admission (sized 30) 0), (.steady, .admission (sized 40) 0),
    (.steady, .remove (bundleId transparent (sized 30).payload [2]))]

theorem accounts_agree_two_and_one :
    let m := after transparent .empty .standard 100 twoAndOne
    m.liveBytes = 40 ∧ m.quota.used = 40 ∧ m.countFor [1] = 1 := by
  intro m
  obtain ⟨counts, account, -⟩ := accounts_agree transparent .empty .standard 100 twoAndOne
  have bytes : m.liveBytes = 40 := by decide +kernel
  have live : m.liveFrom [1] = 1 := by decide +kernel
  have steady : ∀ input ∈ twoAndOne, input.1 = .steady := by simp [twoAndOne]
  refine ⟨bytes, (account fun input member => ?_).trans bytes, (counts [1]).trans live⟩
  rw [steady input member]
  rfl

end BundleManager

end

/-! The objects behind the live records, over whole runs. Objects are addressed by their content, so that
several records may share one: an object is deleted only where no other record refers to it, and the record it
was deleted for leaves in the same call. -/

/-- The object is in the store, with the content that its address names. -/
def Stores (crypto : Primitives) (objects : ObjectStore) (objectId : Octets 32) : Prop :=
  ∃ payload, objects.get? objectId = some payload ∧ crypto.blake2s payload = objectId

namespace Stores
variable {crypto : Primitives} {objects : ObjectStore} {objectId : Octets 32}

theorem insert (stores : Stores crypto objects objectId) (payload : Bytes) :
    Stores crypto (objects.insert (crypto.blake2s payload) payload) objectId := by
  by_cases same : objectId = crypto.blake2s payload
  · subst same
    exact ⟨payload, get?_insert_self, rfl⟩
  · obtain ⟨held, found, address⟩ := stores
    exact ⟨held, (get?_insert_of_ne same).trans found, address⟩

theorem written (payload : Bytes) :
    Stores crypto (objects.insert (crypto.blake2s payload) payload) (crypto.blake2s payload) :=
  ⟨payload, get?_insert_self, rfl⟩

/-- A write that is reported as failed keeps the objects, whether the new one is in place or not. -/
theorem put (stores : Stores crypto objects objectId) (fault : Option (StoreError × Bool)) (payload : Bytes) :
    Stores crypto (objects.put crypto fault (crypto.blake2s payload) payload).2 objectId := by
  simp only [ObjectStore.put, ne_eq, not_true_eq_false, if_false]
  split
  · exact stores.insert payload
  · dsimp only
    split
    · exact stores.insert payload
    · exact stores

theorem delete (stores : Stores crypto objects objectId) (differ : objectId ≠ other)
    (fails : Octets 32 → Bool) : Stores crypto (objects.delete fails other) objectId := by
  unfold ObjectStore.delete
  split
  · exact stores
  · obtain ⟨payload, found, address⟩ := stores
    refine ⟨payload, ?_, address⟩
    rw [get?_erase, if_neg differ, found]

end Stores

namespace BundleManager
variable {crypto : Primitives} {m : BundleManager}

/-- Every live record has its object. -/
def Intact (crypto : Primitives) (m : BundleManager) : Prop :=
  ∀ entry ∈ m.records, Stores crypto m.objects entry.2.objectId

variable (host : Host)

theorem removeAt_intact (id : BundleId) (now : Nat) (intact : m.Intact crypto) :
    (m.removeAt host id now).Intact crypto := by
  obtain ⟨records, objects⟩ := m.removeAt_parts
  intro entry member
  rw [records] at member
  rw [objects]
  exact intact entry (mem_erase.mp member).1

/-- The object of a record that counts outlives the drop of any object held to be unreferenced. -/
theorem dropObject_stores (member : entry ∈ m.records) (counted : counts entry.2 = true) (host : Host)
    (objectId : Octets 32) (stores : Stores crypto m.objects entry.2.objectId) :
    Stores crypto (m.dropObject host (m.refersTo objectId counts) objectId).objects entry.2.objectId := by
  unfold dropObject
  split
  · exact stores
  · next unreferenced =>
    refine stores.delete (fun same => unreferenced ?_) host.faults.delete
    exact List.any_eq_true.mpr ⟨entry, member, by simp [counted, same]⟩

theorem dropObject_records : (m.dropObject host stillReferenced objectId).records = m.records :=
  (m.same_dropObject host stillReferenced objectId).records

theorem evict_intact (now : Nat) (record : BundleRecord) (intact : m.Intact crypto) :
    (m.evict host now record).Intact crypto := by
  intro entry member
  unfold evict at member ⊢
  rw [(removeAt_parts _).1, dropObject_records] at member
  rw [(removeAt_parts _).2]
  obtain ⟨held, differ⟩ := mem_erase.mp member
  refine dropObject_stores held ?_ host record.objectId (intact entry held)
  rw [m.keyed entry held]
  exact decide_eq_true differ

theorem enter_intact (intact : m.Intact crypto)
    (stores : Stores crypto m.objects record.objectId) : (m.enter record).Intact crypto :=
  forall_mem_insert stores intact

theorem storeBundle_intact (a : Admission) (id : BundleId) (now : Nat) (intact : m.Intact crypto) :
    (m.storeBundle crypto host a id now).2.Intact crypto := by
  cases reserved : m.quota.reserve a.payload.length with
  | error error =>
    simp only [storeBundle, reserved]
    exact intact
  | ok quota =>
    have kept : ∀ entry ∈ m.records, Stores crypto
        (m.objects.put crypto host.faults.put (crypto.blake2s a.payload) a.payload).2 entry.2.objectId :=
      fun entry member => (intact entry member).put host.faults.put a.payload
    have here : (m.objects.put crypto host.faults.put (crypto.blake2s a.payload) a.payload).1 = .ok () →
        Stores crypto (m.objects.put crypto host.faults.put (crypto.blake2s a.payload) a.payload).2
          (crypto.blake2s a.payload) := by
      simp only [ObjectStore.put, ne_eq, not_true_eq_false, if_false]
      split
      · exact fun _ => Stores.written a.payload
      · intro failed; cases failed
    simp only [storeBundle, reserved]
    cases outcome : m.objects.put crypto host.faults.put (crypto.blake2s a.payload) a.payload with
    | mk result objects =>
      rw [outcome] at kept here
      cases result with
      | error error => exact kept
      | ok _ =>
        have entered : Intact crypto (({ m with quota, objects }).enter (a.record id (crypto.blake2s a.payload) now)) :=
          enter_intact kept (here rfl)
        dsimp only
        split
        · intro entry member
          rw [dropObject_records] at member
          refine dropObject_stores member rfl host _ ?_
          exact entered entry (mem_erase.mp member).1
        · exact entered

theorem change_intact (id : BundleId) (c : RecordChange) (intact : m.Intact crypto) :
    (m.change id c).2.Intact crypto := by
  unfold change
  split
  · exact intact
  next record found =>
  split
  · exact intact
  next record' changed =>
  refine forall_mem_insert ?_ intact
  rw [(c.keeps changed).objectId]
  exact intact (id, record) (get?_eq_some.mp found)

theorem admitWithPolicy_intact (a : Admission) (now : Nat) (intact : m.Intact crypto) :
    (m.admitWithPolicy crypto host a now).2.Intact crypto := by
  obtain ⟨relieved, reached, outcome⟩ := m.admitWithPolicy_cases
  have before : relieved.Intact crypto := by
    rcases reached with rfl | ⟨-, rfl⟩
    · exact intact
    · exact evictUnderPressure_invariant (fun _ record => evict_intact host now record) intact
  rcases outcome with ⟨error, ended⟩ | ⟨id, -, stored⟩
  · rw [ended]
    exact before
  · rw [stored]
    exact storeBundle_intact host a id now before

theorem step_intact (crypto : Primitives) (m : BundleManager) (input : Host × BundleCall)
    (intact : m.Intact crypto) : (m.step crypto input).Intact crypto := by
  obtain ⟨host, call⟩ := input
  cases call with
  | admission a now => exact admitWithPolicy_intact host a now intact
  | remove id => exact removeAt_intact host id m.lastNow intact
  | removeAt id now => exact removeAt_intact host id now intact
  | evictExpired now => exact evictExpired_invariant (fun _ record => evict_intact host now record) intact
  | evictUnderPressure now =>
    exact evictUnderPressure_invariant (fun _ record => evict_intact host now record) intact
  | change id c => exact change_intact id c intact
  | nextTransferChunk id chunkSize =>
    rcases m.nextTransferChunk_state with same | advanced
    · rwa [step, same]
    · rw [step, advanced]
      exact change_intact id _ intact
  | setPersistence attached => exact intact

/-- After any calls on an empty manager, whatever the store held at first and whichever writes failed, the
object of every live record is in the store with the content that its address names. -/
theorem objects_never_dangle (crypto : Primitives) (objects : ObjectStore) (profile : Profile) (hardLimit : Nat)
    (inputs : List (Host × BundleCall)) (id : BundleId) (record : BundleRecord) :
    (after crypto objects profile hardLimit inputs).records.get? id = some record →
      ∃ payload, (after crypto objects profile hardLimit inputs).objects.get? record.objectId = some payload ∧
        crypto.blake2s payload = record.objectId := by
  intro live
  have empty : (new objects { profile, used := 0, hardLimit }).Intact crypto :=
    fun entry member => absurd member not_mem_empty
  exact Run.invariant (step_intact crypto) empty (id, record) (get?_eq_some.mp live)

/-- Two bundles of the same bytes for two destinations, of which the second expires. -/
def sharing : List (Host × BundleCall) :=
  [(.steady, .admission (sized 30) 0),
    (.steady, .admission { sized 30 with destinationHint := [3], lifetimeMs := 1000 } 0),
    (.steady, .evictExpired 2000)]

/-- Both share one object, which stays for the first. -/
theorem objects_never_dangle_sharing :
    (after transparent .empty .standard 100 (sharing.take 2)).records.size = 2 ∧
      (after transparent .empty .standard 100 (sharing.take 2)).objects.size = 1 ∧
      (after transparent .empty .standard 100 sharing).records.size = 1 ∧
      ∃ payload, (after transparent .empty .standard 100 sharing).objects.get?
          (transparent.blake2s (sized 30).payload) = some payload ∧
        transparent.blake2s payload = transparent.blake2s (sized 30).payload := by
  refine ⟨by decide +kernel, by decide +kernel, by decide +kernel, ?_⟩
  exact objects_never_dangle transparent .empty .standard 100 sharing (bundleId transparent (sized 30).payload [2])
    ((sized 30).record (bundleId transparent (sized 30).payload [2]) (transparent.blake2s (sized 30).payload) 0)
    (by decide +kernel)

end BundleManager
end UniversalMesh.Bundle
