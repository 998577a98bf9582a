import Mathlib.Data.List.Induction
import Mathlib.Data.Prod.Lex
import Mathlib.Data.String.Basic
import UniversalMesh.Lib.OrderedMap
import UniversalMesh.Trust.Statement

/-! `umc-discovery/src/dht.rs`: the table of signed peer records, which expire. A record is evicted only when a
new one finds the table full, so that the table may hold expired records. -/
namespace UniversalMesh.Discovery
open MachineWord Wire ByteReader OrderedMap

def maxRecords : Nat := 2048

structure DhtRecord where
  (endpointId identityPublicKey : Octets 32)
  carrierType : String
  connectionHint : Bytes
  (expiresAt sequence : UInt64)
  signature : Octets 64

namespace DhtRecord

/-- The domain of a signed record. -/
def domain : Bytes := ascii "UMP-DHT-RECORD-v1"

/-- The two length fields are capped, their texts are not. -/
def signedBytes (record : DhtRecord) : Bytes :=
  domain ++ record.endpointId.1 ++ record.identityPublicKey.1 ++
    toBeBytes 2 (min (textBytes record.carrierType).length 65535) ++ textBytes record.carrierType ++
    toBeBytes 2 (min record.connectionHint.length 65535) ++ record.connectionHint ++
    wordBytes record.expiresAt ++ wordBytes record.sequence

def verify (suite : Trust.Suite) (record : DhtRecord) (now : UInt64) : Bool :=
  if record.expiresAt ≤ now ∨ (textBytes record.carrierType).length > 64 ∨ record.connectionHint.length > 1024 then
    false
  else
    Trust.endpointId suite record.identityPublicKey = record.endpointId &&
      suite.verify record.identityPublicKey record.signedBytes record.signature

def key (record : DhtRecord) : Octets 32 ×ₗ String ×ₗ Bytes :=
  toLex (record.endpointId, toLex (record.carrierType, record.connectionHint))

end DhtRecord

abbrev DhtRecords := OrderedMap (Octets 32 ×ₗ String ×ₗ Bytes) DhtRecord

namespace DhtRecords

def evictExpired (records : DhtRecords) (now : UInt64) : DhtRecords :=
  records.filter fun entry => now < entry.2.expiresAt

/-- `insert`: whether the record was taken, and the records it leaves. -/
def insertRecord (suite : Trust.Suite) (records : DhtRecords) (record : DhtRecord) (now : UInt64) :
    Bool × DhtRecords :=
  if !record.verify suite now then (false, records)
  else
    match records.get? record.key with
    | some existing =>
      if record.sequence ≤ existing.sequence then (false, records)
      else (true, records.insert record.key record)
    | none =>
      if maxRecords ≤ records.size then
        let records := evictExpired records now
        if maxRecords ≤ records.size then (false, records) else (true, records.insert record.key record)
      else (true, records.insert record.key record)

variable {suite : Trust.Suite} {records : DhtRecords} {record : DhtRecord} {now : UInt64}

theorem size_evictExpired_le (records : DhtRecords) (now : UInt64) :
    (evictExpired records now).size ≤ records.size := List.length_filter_le ..

theorem get?_evictExpired : (evictExpired records now).get? key =
    (records.get? key).filter fun record => now < record.expiresAt := by
  apply Option.ext
  intro record
  rw [get?_eq_some, evictExpired, mem_filter, Option.filter_eq_some_iff, get?_eq_some]

theorem insertRecord_bounded (bounded : records.size ≤ maxRecords) :
    (insertRecord suite records record now).2.size ≤ maxRecords := by
  have put := sumBy_put records record.key record fun _ => 1
  have within := (size_evictExpired_le records now).trans bounded
  unfold insertRecord
  split
  · exact bounded
  · cases found : records.get? record.key with
    | some existing =>
      have same : (records.insert record.key record).size = records.size := by simpa [found, sumBy, size] using put
      grind
    | none =>
      have missing : (evictExpired records now).get? record.key = none := by rw [get?_evictExpired, found]; rfl
      grind [size_insert]

/-- When a record is taken. Evicting again evicts nothing, so a full table is as good as an evicted one. -/
theorem insertRecord_iff : (insertRecord suite records record now).1 = true ↔
    record.verify suite now = true ∧ match records.get? record.key with
      | some existing => existing.sequence < record.sequence
      | none => (evictExpired records now).size < maxRecords := by
  have less := size_evictExpired_le records now
  unfold insertRecord
  cases records.get? record.key <;> grind

end DhtRecords

/-- `DhtTable`, which never grows past its limit. -/
structure DhtTable where
  records : DhtRecords
  bounded : records.size ≤ maxRecords

namespace DhtTable
open DhtRecords

def new : DhtTable := ⟨OrderedMap.empty, Nat.zero_le _⟩

def insert (suite : Trust.Suite) (table : DhtTable) (record : DhtRecord) (now : UInt64) : Bool × DhtTable :=
  let outcome := insertRecord suite table.records record now
  (outcome.1, ⟨outcome.2, insertRecord_bounded table.bounded⟩)

def evictExpired (table : DhtTable) (now : UInt64) : DhtTable :=
  ⟨DhtRecords.evictExpired table.records now, (size_evictExpired_le ..).trans table.bounded⟩

/-- Evicting the expired records first makes no difference exactly if no expired record with the key of a
valid new one has a sequence as high as its own. -/
theorem insert_evictExpired_iff (suite : Trust.Suite) (table : DhtTable) (record : DhtRecord) (now : UInt64) :
    ((table.insert suite record now).1 = true ↔ ((table.evictExpired now).insert suite record now).1 = true) ↔
      ¬ (record.verify suite now = true ∧ ∃ old, table.records.get? record.key = some old ∧
        old.expiresAt ≤ now ∧ record.sequence ≤ old.sequence) := by
  have again : DhtRecords.evictExpired (DhtRecords.evictExpired table.records now) now =
      DhtRecords.evictExpired table.records now := ext_mem fun entry => by simp [DhtRecords.evictExpired, mem_filter]
  simp only [insert, evictExpired, insertRecord_iff, again, get?_evictExpired]
  cases found : table.records.get? record.key with
  | none => simp
  | some old =>
    by_cases live : now < old.expiresAt
    · simp [Option.filter, live]
    · -- the expired record itself makes room
      have room : (DhtRecords.evictExpired table.records now).size < maxRecords := by
        refine Nat.lt_of_lt_of_le ?_ table.bounded
        apply List.length_filter_lt_length_iff_exists.mpr
        exact ⟨_, get?_eq_some.mp found, by simpa using live⟩
      simp [Option.filter, live, room, UInt64.not_lt.mp live]

variable (suite : Trust.Suite) (calls : List (Option DhtRecord × UInt64))

/-- Inserts the record, or without one evicts the expired. -/
def step (table : DhtTable) : Option DhtRecord × UInt64 → DhtTable
  | (some record, now) => (table.insert suite record now).2
  | (none, now) => table.evictExpired now

/-- Each record stands under its own key and was inserted by a call that found it valid. -/
def Certified (table : DhtTable) : Prop :=
  ∀ entry ∈ table.records, entry.1 = entry.2.key ∧
    ∃ now, (some entry.2, now) ∈ calls ∧ entry.2.verify suite now = true

/-- Every record stands under its key and was verified when it was inserted. -/
theorem certified_throughout : (calls.foldl (step suite) new).Certified suite calls := by
  induction calls using List.reverseRecOn with
  | nil => exact fun _ member => absurd member not_mem_empty
  | append_singleton calls call ih =>
    rw [List.foldl_append]
    intro entry member
    have origin : entry ∈ (calls.foldl (step suite) new).records ∨ entry.1 = entry.2.key ∧
        ∃ now, call = (some entry.2, now) ∧ entry.2.verify suite now = true := by
      rcases call with ⟨_ | record, now⟩
      · exact .inl (mem_filter.mp member).1
      · simp only [List.foldl_cons, List.foldl_nil, step, insert, insertRecord, DhtRecords.evictExpired] at member
        grind [mem_insert, mem_filter]
    grind [Certified]

/-- A record of sequence `1`. -/
def sampleRecord (expiresAt : UInt64) : DhtRecord :=
  ⟨Trust.plainEndpoint 1, (Trust.plainKeys 1).publicKey, "ump.tcp/1", [7], expiresAt, 1, .fill 64 0⟩

/-- A node cannot advertise itself again when its record has expired. -/
theorem expired_record_blocks : let suite := { Trust.plainSuite with verify := fun _ _ _ => true }
    let table := (DhtTable.new.insert suite (sampleRecord 10) 0).2
    (table.insert suite (sampleRecord 30) 20).1 = false ∧
      ((table.evictExpired 20).insert suite (sampleRecord 30) 20).1 = true := by
  decide +kernel

end DhtTable
end UniversalMesh.Discovery
