import UniversalMesh.Crypto.PacketKeys
import UniversalMesh.Lib.OrderedMap

/-! `umc-storage`: the errors of the backends, the quota account of `quota.rs` and the
content-addressed objects of `objects.rs`. What the file system does is an input:
each call says which of its writes fail. -/
namespace UniversalMesh.Storage
open MachineWord Wire Crypto

inductive StoreError where
  | notFound | serialization | transaction | corrupt (message : String) | quotaExceeded
  deriving DecidableEq, Repr

inductive Profile where
  | constrained | standard | relay
  deriving DecidableEq, Repr

structure QuotaAccount where
  profile : Profile
  (used hardLimit : Nat)
  deriving DecidableEq, Repr

namespace QuotaAccount

def reserve (q : QuotaAccount) (bytes : Nat) : Except StoreError QuotaAccount :=
  match checkedAdd q.used bytes with
  | none => .error .quotaExceeded
  | some newUsed =>
    if newUsed > q.hardLimit then .error .quotaExceeded else .ok { q with used := newUsed }

def release (q : QuotaAccount) (bytes : Nat) : QuotaAccount := { q with used := q.used - bytes }

theorem reserve_ok {q q' : QuotaAccount} (reserved : q.reserve bytes = .ok q') :
    q' = { q with used := q.used + bytes } := by
  unfold reserve at reserved
  split at reserved
  · cases reserved
  · next newUsed summed =>
    obtain ⟨-, rfl⟩ := checkedAdd_some.mp summed
    split at reserved
    · cases reserved
    · cases reserved
      rfl

end QuotaAccount

/-- Which writes of one call fail: the object write (and whether the object is in place all the same), the
removal of an object, and the write of a metadata record. -/
structure Faults where
  put : Option (StoreError × Bool)
  delete : Octets 32 → Bool
  save : Option StoreError

/-- No write fails. -/
def Faults.none : Faults := { put := Option.none, delete := fun _ => false, save := Option.none }

/-- The objects on disk by their content address. -/
abbrev ObjectStore := OrderedMap (Octets 32) Bytes

namespace ObjectStore

/-- A fault may strike before or after the object is in place. -/
def put (crypto : Primitives) (objects : ObjectStore) (fault : Option (StoreError × Bool))
    (id : Octets 32) (bytes : Bytes) : Except StoreError Unit × ObjectStore :=
  if crypto.blake2s bytes ≠ id then (.error (.corrupt "object hash mismatch"), objects)
  else
    match fault with
    | none => (.ok (), objects.insert id bytes)
    | some (error, placed) => (.error error, if placed then objects.insert id bytes else objects)

def get (crypto : Primitives) (objects : ObjectStore) (id : Octets 32) : Except StoreError Bytes :=
  match objects.get? id with
  | none => .error .notFound
  | some bytes =>
    if crypto.blake2s bytes ≠ id then .error (.corrupt "object hash mismatch") else .ok bytes

/-- `ObjectStore::delete`; its callers go on if it fails. -/
def delete (objects : ObjectStore) (fails : Octets 32 → Bool) (id : Octets 32) : ObjectStore :=
  if fails id then objects else objects.erase id

end ObjectStore
end UniversalMesh.Storage
