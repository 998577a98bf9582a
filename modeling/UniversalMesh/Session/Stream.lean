import UniversalMesh.Lib.OrderedMap
import UniversalMesh.Lib.Run
import UniversalMesh.Wire.Varint

/-! `umc-session/src/stream.rs`: the two halves of a stream. Received segments
wait in a map from their offset until the offset is the next to deliver. A
call that fails still returns the stream: some checks come after an update. -/
namespace UniversalMesh.Session
open MachineWord Wire OrderedMap

def maxOutOfOrderBytes : Nat := 1048576
def maxOutOfOrderRanges : Nat := 256

inductive SendState where
  | ready | send | dataSent | resetSent | dataAcked | resetAcked
  deriving DecidableEq, Repr

inductive RecvState where
  | recv | sizeKnown | dataRecvd | resetRecvd | dataRead | resetRead
  deriving DecidableEq, Repr

inductive StreamError where
  | alreadyClosed | resetByPeer | finalSizeConflict | dataBeyondFinalSize | overlappingDataConflict
  | outOfOrderBudgetExceeded | offsetsOutOfOrder
  deriving DecidableEq, Repr

/-- `Stream`; the ranges that wait end within a 64-bit word. -/
structure Stream where
  streamId : Nat
  (protocolId metadata : Bytes)
  (recvOpened unidirectional : Bool)
  sendState : SendState
  recvState : RecvState
  nextSendOffset : Nat
  (finalSize resetErrorCode : Option Nat)
  buffered : OrderedMap Nat Bytes
  (bufferedBytes nextDeliverOffset maxStreamDataLocal maxStreamDataRemote : Nat)
  fits : ∀ entry ∈ buffered, entry.1 + entry.2.length ≤ u64Max
  deriving DecidableEq

namespace Stream

def new (streamId : Nat) (protocolId : Bytes) (maxStreamData : Nat) : Stream :=
  { streamId, protocolId, metadata := [], recvOpened := false, unidirectional := false,
    sendState := .ready, recvState := .recv, nextSendOffset := 0, finalSize := none,
    resetErrorCode := none, buffered := .empty, bufferedBytes := 0, nextDeliverOffset := 0,
    maxStreamDataLocal := maxStreamData, maxStreamDataRemote := maxStreamData,
    fits := fun _ member => absurd member not_mem_empty }

variable (s : Stream)

/-- The end of a FIN segment is the final size, the first time it is seen. -/
def noteFinalSize (stop : Nat) (fin : Bool) : Except StreamError Stream :=
  if fin then
    match s.finalSize with
    | some fs => if fs ≠ stop then .error .finalSizeConflict else .ok s
    | none => .ok { s with finalSize := some stop }
  else .ok s

/-- A buffered range that begins at or before the segment contains it. -/
def alreadyBuffered (offset stop : Nat) : Bool :=
  match s.buffered.lastUpTo? offset with
  | some (key, value) => key ≤ offset && stop ≤ saturatingAdd key value.length
  | none => false

variable (offset : Nat)

/-- A buffered range that begins before the segment reaches into it. -/
def overlapsBelow : Bool :=
  match s.buffered.lastBelow? offset with
  | some (key, value) => saturatingAdd key value.length > offset
  | none => false

theorem fits_insert {offset : Nat} (ends : offset + data.length ≤ u64Max) :
    ∀ entry ∈ s.buffered.insert offset data, entry.1 + entry.2.length ≤ u64Max :=
  forall_mem_insert ends s.fits

/-- The segment is put into the map unless the budget is exhausted. -/
def buffer (data : Bytes) (ends : offset + data.length ≤ u64Max) : Except StreamError Nat × Stream :=
  let tentative := saturatingAdd s.bufferedBytes data.length
  if tentative > maxOutOfOrderBytes ∨ s.buffered.size ≥ maxOutOfOrderRanges then
    (.error .outOfOrderBudgetExceeded, { s with bufferedBytes := tentative - data.length })
  else
    (.ok data.length,
      { s with
        bufferedBytes := tentative
        buffered := s.buffered.insert offset data
        fits := s.fits_insert ends })

/-- The checks of `receive` behind the final size. -/
def receiveWithin (data : Bytes) (ends : offset + data.length ≤ u64Max) : Except StreamError Nat × Stream :=
  let stop := offset + data.length
  if s.finalSize.any (· < stop) then (.error .dataBeyondFinalSize, s)
  else if offset > s.maxStreamDataLocal then (.error .offsetsOutOfOrder, s)
  else if stop ≤ s.nextDeliverOffset then (.ok 0, s)
  else if s.alreadyBuffered offset stop then (.ok 0, s)
  else if offset < s.nextDeliverOffset then (.error .offsetsOutOfOrder, s)
  else if s.overlapsBelow offset then (.error .overlappingDataConflict, s)
  else s.buffer offset data ends

/-- `Stream::receive`: the number of new bytes buffered, and the stream after. -/
def receive (data : Bytes) (fin : Bool) : Except StreamError Nat × Stream :=
  match summed : checkedAdd offset data.length with
  | none => (.error .dataBeyondFinalSize, s)
  | some stop =>
    match s.noteFinalSize stop fin with
    | .error e => (.error e, s)
    | .ok s => s.receiveWithin offset data (checkedAdd_some.mp summed).1

/-- The first range moves from the map behind the next offset. -/
def takeFirst (data : Bytes) : Stream :=
  { s with
    bufferedBytes := s.bufferedBytes - data.length
    nextDeliverOffset := saturatingAdd offset data.length
    buffered := s.buffered.erase offset
    fits := fun entry member => s.fits entry (mem_erase.mp member).1 }

/-- The loop of `read_available`: take the first range while it is the next. -/
def drain (s : Stream) (out : Bytes) : Bytes × Stream :=
  match _found : s.buffered.first? with
  | none => (out, s)
  | some (offset, data) =>
    if offset ≠ s.nextDeliverOffset then (out, s)
    else drain (s.takeFirst offset data) (out ++ data)
termination_by s.buffered.size
decreasing_by exact size_erase_lt (first?_eq_some _found).1

/-- `Stream::read_available`: the contiguous bytes and whether they end the stream. -/
def readAvailable : (Bytes × Bool) × Stream :=
  let (out, s) := s.drain []
  if s.finalSize = some s.nextDeliverOffset then ((out, true), { s with recvState := .dataRead })
  else ((out, false), s)

def maxReceivedOffset : Nat :=
  match s.buffered.last? with
  | some (key, value) => saturatingAdd key value.length
  | none => s.nextDeliverOffset

/-- `Stream::send_ready`: the offset and the part of the data the credit allows. -/
def sendReady (data : Bytes) : Except StreamError ((Nat × Bytes) × Stream) :=
  if s.sendState = .dataAcked ∨ s.sendState = .resetAcked ∨ s.sendState = .resetSent then
    .error .alreadyClosed
  else
    let offset := s.nextSendOffset
    let allowed := s.maxStreamDataRemote - offset
    let take := min data.length allowed
    .ok ((offset, data.take take),
      { s with nextSendOffset := s.nextSendOffset + take
               sendState := if s.sendState = .ready then .send else s.sendState })

end Stream
end UniversalMesh.Session
