import UniversalMesh.Bundle.Accounting

/-! Eviction under pressure. The loop walks the records that no custody holds in the order of the policy and
stops at the recovery limit, which is 90 percent of the hard limit only as long as the product does not
saturate. -/
namespace UniversalMesh.Bundle
open MachineWord Wire Storage OrderedMap

/-! The policy's order. -/

/-- The comparison is lexicographic in five keys, three of them descending. -/
theorem evictionOrder_lex : evictionOrder =
    compareLex (fun left right => compareOn (fun r => if r.status = .delivered then 1 else 0) right left)
      (compareLex (compareOn BundleRecord.priority)
        (compareLex (fun left right => compareOn BundleRecord.replicationCount right left)
          (compareLex (fun left right => compareOn BundleRecord.size right left)
            (compareOn BundleRecord.createdAt)))) := rfl

instance : Std.TransCmp evictionOrder := by
  rw [evictionOrder_lex]
  infer_instance

instance : IsTrans BundleRecord fun left right => evictionOrder left right ≠ .gt where
  trans _ _ _ first second := by
    have through := Std.TransCmp.isLE_trans (Ordering.isLE_iff_ne_gt.mpr first) (Ordering.isLE_iff_ne_gt.mpr second)
    exact Ordering.isLE_iff_ne_gt.mp through

instance : Std.Total fun left right : BundleRecord => evictionOrder left right ≠ .gt where
  total left right := by
    by_contra neither
    push Not at neither
    have swapped : evictionOrder left right = (evictionOrder right left).swap := Std.OrientedCmp.eq_swap
    rw [neither.1, neither.2] at swapped
    cases swapped

theorem sorted_sortForEviction (records : List BundleRecord) :
    (sortForEviction records).Pairwise fun left right => evictionOrder left right ≠ .gt :=
  List.pairwise_insertionSort _ records

theorem perm_sortForEviction : (sortForEviction records).Perm records :=
  List.perm_insertionSort _ records

namespace BundleManager
variable {m m' : BundleManager} {victims : List BundleRecord} {limit now : Nat} {host : Host}

def bytesOf (records : List BundleRecord) : Nat := (records.map BundleRecord.size).sum

/-! One eviction, and the loop. -/

theorem evict_records : (m.evict host now record).records = m.records.erase record.id := by
  unfold evict
  dsimp only
  rw [(removeAt_parts _).1, (m.same_dropObject host _ record.objectId).records]

variable {record : BundleRecord}

theorem evict_used (live : m.records.get? record.id = some record) :
    (m.evict host now record).quota.used = m.quota.used - record.size := by
  have same := m.same_dropObject host (m.refersTo record.objectId fun other => other.id ≠ record.id) record.objectId
  have found : (m.dropObject host (m.refersTo record.objectId fun other => other.id ≠ record.id)
      record.objectId).records.get? record.id = some record := by rw [same.records, live]
  simp only [evict, removeAt, found, rememberDuplicate, discard, QuotaAccount.release, same.quota]

theorem mem_evict (live : m.records.get? record.id = some record) :
    entry ∈ (m.evict host now record).records ↔ entry ∈ m.records ∧ entry.2 ≠ record := by
  rw [evict_records, mem_erase]
  refine and_congr_right fun member => not_congr ⟨fun same => ?_, fun same => ?_⟩
  · have here : (record.id, entry.2) ∈ m.records := by rwa [← same]
    exact mem_unique here (get?_eq_some.mp live)
  · rw [← m.keyed entry member, same]

/-- What a first part of the loop has done: these records are gone, each of them while the usage was above the
limit, and their bytes are given back. -/
structure Evicts (limit : Nat) (m : BundleManager) (victims : List BundleRecord) (m' : BundleManager) : Prop where
  records : ∀ entry, entry ∈ m'.records ↔ entry ∈ m.records ∧ entry.2 ∉ victims
  used : m'.quota.used = m.quota.used - bytesOf victims
  needed : ∀ before victim later, victims = before ++ victim :: later → limit < m.quota.used - bytesOf before

namespace Evicts

theorem none (limit : Nat) (m : BundleManager) : Evicts limit m [] m where
  records _ := by simp
  used := (Nat.sub_zero _).symm
  needed before victim later split := by simp at split

theorem cons (live : m.records.get? record.id = some record) (above : limit < m.quota.used)
    (rest : Evicts limit (m.evict host now record) victims m') : Evicts limit m (record :: victims) m' where
  records entry := by
    rw [rest.records, mem_evict live, List.mem_cons, not_or, and_assoc]
  used := by
    rw [rest.used, evict_used live, Nat.sub_sub]
    rfl
  needed before victim later split := by
    cases before with
    | nil => exact above
    | cons first before =>
      obtain ⟨rfl, later⟩ := List.cons.inj split
      have needed := rest.needed before victim _ later
      rwa [evict_used live, Nat.sub_sub] at needed

end Evicts

theorem evictDownTo_spec (host : Host) (now limit : Nat) {records : List BundleRecord}
    (live : ∀ record ∈ records, m.records.get? record.id = some record) (distinct : records.Nodup) :
    ∃ victims rest, records = victims ++ rest ∧
      (evictDownTo host now limit records m).1 = victims.map BundleRecord.id ∧
      Evicts limit m victims (evictDownTo host now limit records m).2 ∧
      ((evictDownTo host now limit records m).2.quota.used ≤ limit ∨ rest = []) := by
  induction records generalizing m with
  | nil => exact ⟨[], [], rfl, rfl, .none limit m, .inr rfl⟩
  | cons record records ih =>
    unfold evictDownTo
    split
    · next reached => exact ⟨[], record :: records, rfl, rfl, .none limit m, .inl reached⟩
    · next above =>
      obtain ⟨fresh, distinct⟩ := List.nodup_cons.mp distinct
      have here := live record List.mem_cons_self
      -- The records still to come are other records, so they are live after this eviction.
      have later : ∀ other ∈ records, (m.evict host now record).records.get? other.id = some other := by
        intro other member
        rw [get?_eq_some, mem_evict here]
        refine ⟨get?_eq_some.mp (live other (List.mem_cons_of_mem _ member)), ?_⟩
        rintro rfl
        exact fresh member
      obtain ⟨victims, rest, parts, ids, evicts, ended⟩ := ih later distinct
      refine ⟨record :: victims, rest, by rw [parts, List.cons_append], ?_, ?_, ended⟩
      · exact congrArg (record.id :: ·) ids
      · exact evicts.cons here (not_le.mp above)

/-! The whole call. -/

/-- The records that no custody holds, in the order in which the host hands them out. -/
def evictable (m : BundleManager) (host : Host) (now : Nat) : List BundleRecord :=
  (host.recordOrder (m.records.entries.map Prod.snd)).filter fun r => !r.custodyHolds now

theorem mem_evictable : record ∈ m.evictable host now ↔
    m.records.get? record.id = some record ∧ record.custodyHolds now = false := by
  unfold evictable
  rw [List.mem_filter, (host.records_perm _).mem_iff, List.mem_map, Bool.not_eq_true', get?_eq_some]
  refine and_congr_left fun _ => ⟨?_, fun live => ⟨(record.id, record), live, rfl⟩⟩
  rintro ⟨entry, member, rfl⟩
  rw [m.keyed entry member]
  exact member

theorem nodup_evictable (m : BundleManager) (host : Host) (now : Nat) : (m.evictable host now).Nodup := by
  refine List.Nodup.filter _ ((host.records_perm _).nodup_iff.mpr ?_)
  have ids : (m.records.entries.map fun entry => entry.2.id).Pairwise (· < ·) := by
    refine List.pairwise_map.mpr (m.records.sorted.imp_of_mem fun left right less => ?_)
    rwa [m.keyed _ left, m.keyed _ right]
  have distinct : ((m.records.entries.map Prod.snd).map BundleRecord.id).Nodup := by
    rw [List.map_map]
    exact ids.imp ne_of_lt
  exact distinct.of_map _

/-- What eviction under pressure is for. The victims are live records that no custody holds and that the policy
orders first, each went while more than 90 percent of the limit was used, and the others stay; at the end at
most 90 percent is used, or custody holds all that is left. -/
structure Relieves (m : BundleManager) (now : Nat) (victims : List BundleRecord) (m' : BundleManager) : Prop where
  live : ∀ victim ∈ victims, m.records.get? victim.id = some victim
  free : ∀ victim ∈ victims, victim.custodyHolds now = false
  remaining : ∀ entry, entry ∈ m'.records ↔ entry ∈ m.records ∧ entry.2 ∉ victims
  first : ∀ victim ∈ victims, ∀ entry ∈ m'.records, entry.2.custodyHolds now = false →
    evictionOrder victim entry.2 ≠ .gt
  needed : ∀ before victim later, victims = before ++ victim :: later →
    90 * m.quota.hardLimit < 100 * (m.quota.used - bytesOf before)
  recovered : 100 * m'.quota.used ≤ 90 * m.quota.hardLimit ∨
    ∀ entry ∈ m'.records, entry.2.custodyHolds now = true

theorem evictUnderPressure_relieves
    (unsaturated : saturatingMul m.quota.hardLimit 90 / 100 = m.quota.hardLimit * 90 / 100) :
    ∃ victims, (m.evictUnderPressure host now).1 = victims.map BundleRecord.id ∧
      m.Relieves now victims (m.evictUnderPressure host now).2 := by
  have recovery : m.recoveryLimit = m.quota.hardLimit * 90 / 100 := unsaturated
  unfold evictUnderPressure
  split
  · next low =>
    refine ⟨[], rfl, by simp, by simp, by simp, by simp, by simp, .inl ?_⟩
    dsimp only
    omega
  · next high =>
    change ∃ victims, (evictDownTo host now m.recoveryLimit (sortForEviction (m.evictable host now)) m).1 =
        victims.map BundleRecord.id ∧
      m.Relieves now victims (evictDownTo host now m.recoveryLimit (sortForEviction (m.evictable host now)) m).2
    have member : ∀ record, record ∈ sortForEviction (m.evictable host now) ↔
        m.records.get? record.id = some record ∧ record.custodyHolds now = false := fun record =>
      perm_sortForEviction.mem_iff.trans mem_evictable
    have distinct := perm_sortForEviction.nodup_iff.mpr (m.nodup_evictable host now)
    obtain ⟨victims, rest, parts, ids, evicts, ended⟩ :=
      evictDownTo_spec host now m.recoveryLimit (fun record here => ((member record).mp here).1) distinct
    have sorted := sorted_sortForEviction (m.evictable host now)
    rw [parts] at member sorted
    have chosen : ∀ victim ∈ victims, m.records.get? victim.id = some victim ∧ victim.custodyHolds now = false :=
      fun victim here => (member victim).mp (List.mem_append_left rest here)
    -- A record that stays and that no custody holds is in the rest of the order.
    have left : ∀ entry ∈ (evictDownTo host now m.recoveryLimit (sortForEviction (m.evictable host now)) m).2.records,
        entry.2.custodyHolds now = false → entry.2 ∈ rest := by
      intro entry here free
      obtain ⟨was, stays⟩ := (evicts.records entry).mp here
      have listed := (member entry.2).mpr ⟨by rw [m.keyed entry was]; exact get?_eq_some.mpr was, free⟩
      exact (List.mem_append.mp listed).resolve_left stays
    refine ⟨victims, ids, ?_⟩
    refine
      { live := fun victim here => (chosen victim here).1
        free := fun victim here => (chosen victim here).2
        remaining := evicts.records
        first := fun victim here entry stays free =>
          (List.pairwise_append.mp sorted).2.2 victim here entry.2 (left entry stays free)
        needed := fun before victim later split => ?_
        recovered := ended.imp (fun reached => by omega) fun empty entry stays => ?_ }
    · have needed := evicts.needed before victim later split
      omega
    · by_contra free
      have listed := left entry stays (Bool.eq_false_iff.mpr free)
      rw [empty] at listed
      cases listed

/-! Past an exact limit. -/

/-- A received bundle of this size that no custody holds. -/
def plain (size : Nat) : BundleRecord :=
  { id := Octets.fill 32 0, objectId := Octets.fill 32 0, sender := [1], destinationHint := [2]
    size, priority := 1, createdAt := 0, expiresAt := 1000, replicationCount := 0, replicationLimit := 3
    doNotReplicate := false, localScopeOnly := false, custody := false, custodyDeadline := none
    transferChunkIndex := 0, status := .received }

/-- A manager with one such bundle. -/
def lone (size hardLimit : Nat) : BundleManager :=
  (new .empty { profile := .standard, used := size, hardLimit }).enter (plain size)

theorem lone_balanced {size hardLimit : Nat} : (lone size hardLimit).Balanced := by
  simp [Balanced, liveBytes, lone, enter, new, OrderedMap.sumBy, OrderedMap.insert, OrderedMap.empty, plain]

section
variable {size hardLimit : Nat} (above : saturatingMul hardLimit 90 / 100 < size)
include above

/-- Above the recovery limit the bundle goes, whatever the hard limit is. -/
theorem evictUnderPressure_lone :
    ((lone size hardLimit).evictUnderPressure .steady 0).1 = [(plain size).id] := by
  have high : ¬(lone size hardLimit).quota.used ≤ (lone size hardLimit).recoveryLimit := not_le.mpr above
  have order : sortForEviction ((Host.steady.recordOrder
      ((lone size hardLimit).records.entries.map Prod.snd)).filter fun r => !r.custodyHolds 0) = [plain size] := rfl
  simp only [evictUnderPressure, high, if_false, order, evictDownTo]

/-- So it goes for nothing where 90 percent of the hard limit holds it. -/
theorem lone_not_relieved (within : 100 * size ≤ 90 * hardLimit) :
    ¬∃ victims, ((lone size hardLimit).evictUnderPressure .steady 0).1 = victims.map BundleRecord.id ∧
      (lone size hardLimit).Relieves 0 victims ((lone size hardLimit).evictUnderPressure .steady 0).2 := by
  rintro ⟨victims, ids, relieves⟩
  rw [evictUnderPressure_lone above] at ids
  cases victims with
  | nil => simp at ids
  | cons victim later =>
    have needed : 90 * hardLimit < 100 * (size - 0) := relieves.needed [] victim later rfl
    omega

end

/-- Eviction under pressure does what it is for, in every state whose account is the sum of its record sizes,
just if the recovery limit is exact. -/
theorem evictUnderPressure_relieves_iff (hardLimit : Nat) :
    (∀ (m : BundleManager) (host : Host) (now : Nat), m.quota.hardLimit = hardLimit → m.Balanced →
      ∃ victims, (m.evictUnderPressure host now).1 = victims.map BundleRecord.id ∧
        m.Relieves now victims (m.evictUnderPressure host now).2) ↔
      saturatingMul hardLimit 90 / 100 = hardLimit * 90 / 100 := by
  refine ⟨fun always => ?_, fun unsaturated m host now limit _ => ?_⟩
  · by_contra inexact
    have below : saturatingMul hardLimit 90 ≤ hardLimit * 90 := Nat.min_le_left _ _
    have full := always (lone (hardLimit * 90 / 100) hardLimit) .steady 0 rfl lone_balanced
    exact lone_not_relieved (by omega) (by omega) full
  · exact evictUnderPressure_relieves (limit ▸ unsaturated)

/-- With the largest hard limit a bundle of a twentieth of it is evicted. -/
theorem evicts_below_target :
    let m := lone (10 ^ 18) u64Max
    let evicted := m.evictUnderPressure .steady 0
    m.Balanced ∧ 100 * m.quota.used ≤ 90 * u64Max ∧ evicted.1 = [(plain (10 ^ 18)).id] ∧
      ¬∃ victims, evicted.1 = victims.map BundleRecord.id ∧ m.Relieves 0 victims evicted.2 := by
  have above : saturatingMul u64Max 90 / 100 < 10 ^ 18 := by decide
  have within : 100 * 10 ^ 18 ≤ 90 * u64Max := by decide
  exact ⟨lone_balanced, within, evictUnderPressure_lone above, lone_not_relieved above within⟩

end BundleManager
end UniversalMesh.Bundle
