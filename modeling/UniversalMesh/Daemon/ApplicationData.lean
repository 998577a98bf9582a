import Mathlib.Data.Prod.Lex
import UniversalMesh.Lib.OrderedMap
import UniversalMesh.Lib.Run
import UniversalMesh.Wire.Field

/-! `bins/umcd/src/application_data.rs`, the streams: what the transport pushes into a stream's queue, and what
its owner reads from it in pieces of any size. A run of calls is observed at one stream. -/
namespace UniversalMesh.Daemon
open MachineWord Wire

def maxApplicationStreamBufferBytes : Nat := 2 * 1024 * 1024

inductive ApplicationDataError where
  | notFound | permissionDenied | pending | alreadyAccepted | queueFull | invalidArgument
  | wouldBlock
  deriving DecidableEq, Repr

structure StreamRead where
  data : Bytes
  (eof reset : Bool)
  applicationErrorCode : Nat
  deriving DecidableEq

structure StreamRecord where
  (sessionId streamId principalId : Nat)
  connectionId : Bytes
  (pending eof : Bool)
  resetError : Option Nat
  queuedBytes : Nat
  queued : List Bytes
  deriving DecidableEq

namespace StreamRecord

variable (stream : StreamRecord)

/-- The record's part of `push_stream_data`. -/
def push (data : Bytes) (eof : Bool) : Except ApplicationDataError StreamRecord :=
  if maxApplicationStreamBufferBytes < saturatingAdd stream.queuedBytes data.length then
    .error .queueFull
  else
    .ok { stream with
      queuedBytes := saturatingAdd stream.queuedBytes data.length
      eof := stream.eof || eof
      queued := if data.isEmpty then stream.queued else stream.queued ++ [data] }

def accept : Except ApplicationDataError StreamRecord :=
  if stream.pending then .ok { stream with pending := false } else .error .alreadyAccepted

def markReset (errorCode : Nat) : StreamRecord :=
  { stream with resetError := some errorCode, queued := [], queuedBytes := 0 }

/-- The record's part of `read_stream`. The flag is computed when the chunk has left the queue, before the part
that does not fit is put back. -/
def read (maximumBytes : Nat) (waitForData : Bool) :
    Except ApplicationDataError (Option StreamRead × StreamRecord) :=
  if stream.pending then .error .pending
  else match stream.resetError with
  | some errorCode => .ok (some { data := [], eof := false, reset := true, applicationErrorCode := errorCode }, stream)
  | none =>
    if maximumBytes = 0 then .error .invalidArgument
    else match stream.queued with
    | [] =>
      if stream.eof then
        .ok (some { data := [], eof := true, reset := false, applicationErrorCode := 0 }, stream)
      else if waitForData then .error .wouldBlock
      else .ok (none, stream)
    | data :: queued =>
      let queuedBytes := stream.queuedBytes - data.length
      let eof := stream.eof && queued.isEmpty
      if maximumBytes < data.length then
        let tail := data.drop maximumBytes
        .ok (some { data := data.take maximumBytes, eof, reset := false, applicationErrorCode := 0 },
          { stream with queuedBytes := saturatingAdd queuedBytes tail.length, queued := tail :: queued })
      else
        .ok (some { data, eof, reset := false, applicationErrorCode := 0 },
          { stream with queuedBytes, queued })

/-- A read of so many bytes takes a part of the only chunk queued. -/
def cutBy (maximumBytes : Nat) : Bool :=
  match stream.queued with
  | [chunk] => decide (0 < maximumBytes) && decide (maximumBytes < chunk.length)
  | _ => false

end StreamRecord

open StreamRecord

/-- The part of the registry that concerns streams. -/
structure ApplicationDataPlane where
  streams : OrderedMap Bytes StreamRecord
  streamBySessionId : OrderedMap (Nat ×ₗ Nat) Bytes
  pendingStreams : List Bytes

namespace ApplicationDataPlane

variable (plane : ApplicationDataPlane) (handle : Bytes)

def put (stream : StreamRecord) : ApplicationDataPlane :=
  { plane with streams := plane.streams.insert handle stream }

variable (principalId : Nat) (connectionId : Bytes)

def authorizedStream
    : Except ApplicationDataError StreamRecord :=
  match plane.streams.get? handle with
  | none => .error .notFound
  | some stream =>
    if stream.principalId ≠ principalId ∨ stream.connectionId ≠ connectionId then
      .error .permissionDenied
    else .ok stream

def acceptStream
    : Except ApplicationDataError ApplicationDataPlane := do
  let stream ← plane.authorizedStream handle principalId connectionId
  let stream ← stream.accept
  return { plane.put handle stream with pendingStreams := plane.pendingStreams.filter (· ≠ handle) }

/-- A rejected stream is forgotten, with its session id and its place in the queue. -/
def rejectStream
    : Except ApplicationDataError ApplicationDataPlane := do
  let stream ← plane.authorizedStream handle principalId connectionId
  return {
    streams := plane.streams.erase handle
    streamBySessionId := plane.streamBySessionId.erase (toLex (stream.sessionId, stream.streamId))
    pendingStreams := plane.pendingStreams.filter (· ≠ handle) }

def pushStreamData (handle data : Bytes) (eof : Bool) : Except ApplicationDataError ApplicationDataPlane :=
  match plane.streams.get? handle with
  | none => .error .notFound
  | some stream => do
    let stream ← stream.push data eof
    return plane.put handle stream

def markStreamReset
    (errorCode : Nat) : Except ApplicationDataError ApplicationDataPlane := do
  let stream ← plane.authorizedStream handle principalId connectionId
  return plane.put handle (stream.markReset errorCode)

/-- A reset of the peer; `false` where no stream has the id. -/
def markStreamResetForSession (sessionId streamId errorCode : Nat) :
    Except ApplicationDataError (Bool × ApplicationDataPlane) :=
  match plane.streamBySessionId.get? (toLex (sessionId, streamId)) with
  | none => .ok (false, plane)
  | some handle =>
    match plane.streams.get? handle with
    | none => .error .notFound
    | some stream => .ok (true, plane.put handle (stream.markReset errorCode))

def readStream (maximumBytes : Nat) (waitForData : Bool) :
    Except ApplicationDataError (Option StreamRead × ApplicationDataPlane) := do
  let stream ← plane.authorizedStream handle principalId connectionId
  let (result, stream) ← stream.read maximumBytes waitForData
  return (result, plane.put handle stream)

end ApplicationDataPlane

/-! ### Runs observed at one stream -/

/-- The calls of the data plane on registered streams. -/
inductive StreamCall where
  | push (handle data : Bytes) (eof : Bool)
  | read (handle : Bytes) (principalId : Nat) (connectionId : Bytes) (maximumBytes : Nat) (waitForData : Bool)
  | accept (handle : Bytes) (principalId : Nat) (connectionId : Bytes)
  | reject (handle : Bytes) (principalId : Nat) (connectionId : Bytes)
  | reset (handle : Bytes) (principalId : Nat) (connectionId : Bytes) (errorCode : Nat)
  | resetForSession (sessionId streamId errorCode : Nat)

/-- The plane, with the bytes accepted for a stream and the bytes its reads have returned. -/
structure Observed where
  plane : ApplicationDataPlane
  (pushed returned : Bytes)

namespace Observed

/-- What a read hands to its caller. -/
def readData : Option StreamRead → Bytes
  | some result => result.data
  | none => []

variable (handle : Bytes) (s : Observed)

/-- A call that fails leaves the plane as it was. -/
def step : StreamCall → Observed
  | .push target data eof =>
    match s.plane.pushStreamData target data eof with
    | .ok plane => { s with plane, pushed := if target = handle then s.pushed ++ data else s.pushed }
    | .error _ => s
  | .read target principalId connectionId maximumBytes waitForData =>
    match s.plane.readStream target principalId connectionId maximumBytes waitForData with
    | .ok (result, plane) =>
      { s with plane, returned := if target = handle then s.returned ++ readData result else s.returned }
    | .error _ => s
  | .accept target principalId connectionId =>
    match s.plane.acceptStream target principalId connectionId with
    | .ok plane => { s with plane }
    | .error _ => s
  | .reject target principalId connectionId =>
    match s.plane.rejectStream target principalId connectionId with
    | .ok plane => { s with plane }
    | .error _ => s
  | .reset target principalId connectionId errorCode =>
    match s.plane.markStreamReset target principalId connectionId errorCode with
    | .ok plane => { s with plane }
    | .error _ => s
  | .resetForSession sessionId streamId errorCode =>
    match s.plane.markStreamResetForSession sessionId streamId errorCode with
    | .ok (_, plane) => { s with plane }
    | .error _ => s

def start (plane : ApplicationDataPlane) : Observed := ⟨plane, [], []⟩

def record? (handle : Bytes) : Option StreamRecord := s.plane.streams.get? handle

/-- The call reads the stream and its result carries the end of the stream. -/
def eofRead : StreamCall → Bool
  | .read target principalId connectionId maximumBytes waitForData =>
    target == handle &&
      match s.plane.readStream target principalId connectionId maximumBytes waitForData with
      | .ok (some result, _) => result.eof
      | _ => false
  | _ => false

/-- The call is accepted data for a stream whose end was already pushed. -/
def latePush : StreamCall → Bool
  | .push target data eof =>
    target == handle &&
      match s.record? handle with
      | some stream => stream.eof && (stream.push data eof).isOk
      | none => false
  | _ => false

/-- The owner's read takes a part of the only chunk left behind the end. -/
def cutsLast : StreamCall → Bool
  | .read target principalId connectionId maximumBytes _ =>
    target == handle &&
      match s.plane.authorizedStream target principalId connectionId with
      | .ok stream => !stream.pending && stream.resetError.isNone && stream.eof && stream.cutBy maximumBytes
      | .error _ => false
  | _ => false

/-- A read whose result carries the end has, with those before it, returned `total`. -/
def Completes (handle total : Bytes) (s : Observed) (call : StreamCall) : Prop :=
  eofRead handle s call = true → (s.step handle call).returned = total
  deriving Decidable

end Observed

namespace StreamRecord

variable {stream next : StreamRecord} {maximumBytes : Nat} {waitForData : Bool}

section
variable (ok : stream.read maximumBytes waitForData = .ok (result, next))
include ok

theorem read_spec :
    stream.queued.flatten = Observed.readData result ++ next.queued.flatten ∧
      next.eof = stream.eof ∧ next.resetError = stream.resetError := by
  unfold read at ok
  split at ok
  · cases ok
  split at ok
  · cases ok
    exact ⟨rfl, rfl, rfl⟩
  split at ok
  · cases ok
  split at ok
  · split at ok
    · cases ok
      exact ⟨rfl, rfl, rfl⟩
    split at ok <;> cases ok
    exact ⟨rfl, rfl, rfl⟩
  rename_i data queued front
  rw [front]
  dsimp only at ok
  split at ok <;> cases ok
  · refine ⟨?_, rfl, rfl⟩
    simp only [List.flatten_cons, Observed.readData, ← List.append_assoc, List.take_append_drop]
  · exact ⟨rfl, rfl, rfl⟩

theorem readData_of_reset (reset : stream.resetError ≠ none) : Observed.readData result = [] := by
  unfold read at ok
  split at ok
  · cases ok
  split at ok
  · cases ok
    rfl
  · contradiction

end

/-- A result that carries the end has emptied the queue, unless it cut the only chunk left. -/
theorem read_eof (ok : stream.read maximumBytes waitForData = .ok (some result, next))
    (ended : result.eof = true) :
    stream.pending = false ∧ stream.resetError = none ∧ stream.eof = true ∧
      (result.data = stream.queued.flatten ↔ stream.cutBy maximumBytes = false) := by
  unfold read at ok
  split at ok
  · cases ok
  rename_i accepted
  split at ok
  · cases ok
    cases ended
  rename_i unreset
  split at ok
  · cases ok
  rename_i positive
  refine ⟨by simpa using accepted, unreset, ?_, ?_⟩
  all_goals split at ok
  · split at ok
    · assumption
    · split at ok <;> cases ok
  · split at ok <;> cases ok <;> simp_all
  · rename_i empty
    split at ok
    · cases ok
      simp [cutBy, empty]
    · split at ok <;> cases ok
  · rename_i chunk queued front
    split at ok <;> rename_i long <;> cases ok
    · -- the tail went back, yet the flag was computed without it
      obtain rfl : queued = [] := by simp_all
      have shorter : chunk.take maximumBytes ≠ chunk := by
        intro same
        have := congrArg List.length same
        simp at this
        omega
      simp [cutBy, front, long, shorter, Nat.pos_of_ne_zero positive]
    · obtain rfl : queued = [] := by simp_all
      simp [cutBy, front, long]

/-- A read that cuts the only chunk behind the end carries the end. -/
theorem read_cut (accepted : stream.pending = false) (unreset : stream.resetError = none)
    (ended : stream.eof = true) (cut : stream.cutBy maximumBytes = true) :
    ∃ result next, stream.read maximumBytes waitForData = .ok (some result, next) ∧ result.eof = true := by
  unfold cutBy at cut
  split at cut
  · rename_i chunk only
    simp only [Bool.and_eq_true, decide_eq_true_eq] at cut
    unfold read
    rw [accepted, unreset, only, ended]
    simp [cut.2, Nat.pos_iff_ne_zero.mp cut.1]
  · cases cut

theorem push_spec {eof : Bool} (ok : stream.push data eof = .ok next) :
    next.queued.flatten = stream.queued.flatten ++ data ∧ next.eof = (stream.eof || eof) ∧
      next.resetError = stream.resetError := by
  unfold push at ok
  split at ok <;> cases ok
  refine ⟨?_, rfl, rfl⟩
  cases data <;> simp

theorem accept_spec (ok : stream.accept = .ok next) :
    next.queued = stream.queued ∧ next.eof = stream.eof ∧ next.resetError = stream.resetError := by
  unfold accept at ok
  split at ok <;> cases ok
  exact ⟨rfl, rfl, rfl⟩

end StreamRecord

/-! The delivery of a stream to the application that owns it. The bytes returned are a prefix of those pushed,
and a read that carries the end is behind all of them unless it cuts the last chunk. -/

open OrderedMap

namespace Observed

variable {handle : Bytes} {s : Observed}

/-- What a call does to the observed stream. -/
inductive Effect (handle : Bytes) (s s' : Observed) : Prop
  | none (record : s'.record? handle = s.record? handle) (pushed : s'.pushed = s.pushed)
      (returned : s'.returned = s.returned)
  | push (stream next : StreamRecord) (data : Bytes) (eof : Bool) (before : s.record? handle = some stream)
      (ok : stream.push data eof = .ok next) (after : s'.record? handle = some next)
      (pushed : s'.pushed = s.pushed ++ data) (returned : s'.returned = s.returned)
  | read (stream next : StreamRecord) (maximumBytes : Nat) (waitForData : Bool) (result : Option StreamRead)
      (before : s.record? handle = some stream)
      (ok : stream.read maximumBytes waitForData = .ok (result, next))
      (after : s'.record? handle = some next) (pushed : s'.pushed = s.pushed)
      (returned : s'.returned = s.returned ++ readData result)
  | accept (stream next : StreamRecord) (before : s.record? handle = some stream)
      (ok : stream.accept = .ok next) (after : s'.record? handle = some next)
      (pushed : s'.pushed = s.pushed) (returned : s'.returned = s.returned)
  | reset (stream : StreamRecord) (errorCode : Nat) (before : s.record? handle = some stream)
      (after : s'.record? handle = some (stream.markReset errorCode))
      (pushed : s'.pushed = s.pushed) (returned : s'.returned = s.returned)
  | reject (after : s'.record? handle = Option.none) (pushed : s'.pushed = s.pushed)
      (returned : s'.returned = s.returned)

variable {connectionId target : Bytes} {plane : ApplicationDataPlane} {principalId : Nat}
  {stream : StreamRecord} {call : StreamCall}

theorem authorizedStream_ok (ok : plane.authorizedStream target principalId connectionId = .ok stream) :
    plane.streams.get? target = some stream := by
  unfold ApplicationDataPlane.authorizedStream at ok
  split at ok
  · cases ok
  · rename_i found
    split at ok <;> cases ok
    exact found

theorem readStream_ok :
    plane.readStream target principalId connectionId maximumBytes waitForData = .ok (result, next) ↔
      ∃ stream after, plane.authorizedStream target principalId connectionId = .ok stream ∧
        stream.read maximumBytes waitForData = .ok (result, after) ∧ next = plane.put target after := by
  unfold ApplicationDataPlane.readStream
  constructor
  · intro ok
    obtain ⟨stream, authorized, ok⟩ := bind_ok.mp ok
    obtain ⟨⟨result, after⟩, read, ok⟩ := bind_ok.mp ok
    cases ok
    exact ⟨stream, after, authorized, read, rfl⟩
  · rintro ⟨stream, after, authorized, read, rfl⟩
    simp only [authorized, ok_bind, read]
    rfl

@[simp] theorem get?_put_self : (plane.put handle stream).streams.get? handle = some stream :=
  get?_insert_self

theorem get?_put_of_ne (other : handle ≠ target) :
    (plane.put target stream).streams.get? handle = plane.streams.get? handle :=
  get?_insert_of_ne other

/-- A call on another stream has no effect on the observed one. -/
theorem step_effect (handle : Bytes) (s : Observed) (call : StreamCall) : Effect handle s (s.step handle call) := by
  cases call with
  | push target data eof =>
    simp only [step]
    cases ran : s.plane.pushStreamData target data eof with
    | error e => exact .none rfl rfl rfl
    | ok plane =>
      unfold ApplicationDataPlane.pushStreamData at ran
      split at ran
      · cases ran
      rename_i stream found
      obtain ⟨next, pushed, ran⟩ := bind_ok.mp ran
      cases ran
      by_cases same : handle = target
      · subst same
        exact .push stream next data eof found pushed get?_put_self (if_pos rfl) rfl
      · exact .none (get?_put_of_ne same) (if_neg (Ne.symm same)) rfl
  | read target principalId connectionId maximumBytes waitForData =>
    simp only [step]
    cases ran : s.plane.readStream target principalId connectionId maximumBytes waitForData with
    | error e => exact .none rfl rfl rfl
    | ok read =>
      obtain ⟨result, plane⟩ := read
      obtain ⟨stream, next, authorized, ok, rfl⟩ := readStream_ok.mp ran
      by_cases same : handle = target
      · subst same
        exact .read stream next maximumBytes waitForData result (authorizedStream_ok authorized) ok
          get?_put_self rfl (if_pos rfl)
      · exact .none (get?_put_of_ne same) rfl (if_neg (Ne.symm same))
  | accept target principalId connectionId =>
    simp only [step]
    cases ran : s.plane.acceptStream target principalId connectionId with
    | error e => exact .none rfl rfl rfl
    | ok plane =>
      obtain ⟨stream, authorized, ran⟩ := bind_ok.mp ran
      obtain ⟨next, ok, ran⟩ := bind_ok.mp ran
      cases ran
      by_cases same : handle = target
      · subst same
        exact .accept stream next (authorizedStream_ok authorized) ok get?_put_self rfl rfl
      · exact .none (get?_put_of_ne same) rfl rfl
  | reject target principalId connectionId =>
    simp only [step]
    cases ran : s.plane.rejectStream target principalId connectionId with
    | error e => exact .none rfl rfl rfl
    | ok plane =>
      obtain ⟨stream, authorized, ran⟩ := bind_ok.mp ran
      cases ran
      by_cases same : handle = target
      · exact .reject (by simp [record?, get?_erase, same]) rfl rfl
      · exact .none (by simp [record?, get?_erase, same]) rfl rfl
  | reset target principalId connectionId errorCode =>
    simp only [step]
    cases ran : s.plane.markStreamReset target principalId connectionId errorCode with
    | error e => exact .none rfl rfl rfl
    | ok plane =>
      obtain ⟨stream, authorized, ran⟩ := bind_ok.mp ran
      cases ran
      by_cases same : handle = target
      · subst same
        exact .reset stream errorCode (authorizedStream_ok authorized) get?_put_self rfl rfl
      · exact .none (get?_put_of_ne same) rfl rfl
  | resetForSession sessionId streamId errorCode =>
    simp only [step]
    cases ran : s.plane.markStreamResetForSession sessionId streamId errorCode with
    | error e => exact .none rfl rfl rfl
    | ok answer =>
      unfold ApplicationDataPlane.markStreamResetForSession at ran
      split at ran
      · cases ran
        exact .none rfl rfl rfl
      rename_i target known
      split at ran
      · cases ran
      rename_i stream found
      cases ran
      by_cases same : handle = target
      · subst same
        exact .reset stream errorCode found get?_put_self rfl rfl
      · exact .none (get?_put_of_ne same) rfl rfl

/-- Unless the stream was reset, what was pushed is what was returned and then what is queued. -/
def Delivers (handle : Bytes) (s : Observed) : Prop :=
  s.returned <+: s.pushed ∧ ∀ stream, s.record? handle = some stream → stream.resetError = none →
    s.pushed = s.returned ++ stream.queued.flatten

theorem delivers_of_record (found : s.record? handle = some stream) (returned : s.returned <+: s.pushed)
    (queue : stream.resetError = none → s.pushed = s.returned ++ stream.queued.flatten) :
    s.Delivers handle := by
  refine ⟨returned, fun other same unreset => ?_⟩
  obtain rfl : stream = other := Option.some.inj (found.symm.trans same)
  exact queue unreset

theorem delivers_step (call : StreamCall) (delivers : s.Delivers handle) :
    (s.step handle call).Delivers handle := by
  obtain ⟨returnedPrefix, queue⟩ := delivers
  cases step_effect handle s call with
  | none record pushed returned =>
    unfold Delivers
    rw [record, pushed, returned]
    exact ⟨returnedPrefix, queue⟩
  | push stream next data eof before ok after pushed returned =>
    obtain ⟨queued, -, reset⟩ := stream.push_spec ok
    apply delivers_of_record after
    · rw [pushed, returned]
      exact returnedPrefix.trans (List.prefix_append ..)
    · intro unreset
      rw [pushed, returned, queued, ← List.append_assoc, ← queue stream before (reset ▸ unreset)]
  | read stream next maximumBytes waitForData result before ok after pushed returned =>
    obtain ⟨queued, -, reset⟩ := read_spec ok
    by_cases unreset : stream.resetError = none
    · have split := queue stream before unreset
      rw [queued, ← List.append_assoc, ← returned, ← pushed] at split
      exact delivers_of_record after ⟨_, split.symm⟩ fun _ => split
    · rw [readData_of_reset ok unreset, List.append_nil] at returned
      apply delivers_of_record after
      · rw [pushed, returned]
        exact returnedPrefix
      · exact fun unreset' => absurd (reset ▸ unreset') unreset
  | accept stream next before ok after pushed returned =>
    obtain ⟨queued, -, reset⟩ := accept_spec ok
    apply delivers_of_record after
    · rw [pushed, returned]
      exact returnedPrefix
    · intro unreset
      rw [pushed, returned, queued]
      exact queue stream before (reset ▸ unreset)
  | reset stream errorCode before after pushed returned =>
    apply delivers_of_record after
    · rw [pushed, returned]
      exact returnedPrefix
    · nofun
  | reject after pushed returned =>
    unfold Delivers
    rw [after, pushed, returned]
    exact ⟨returnedPrefix, by simp⟩

theorem delivers_run (fresh : ∀ stream, plane.streams.get? handle = some stream → stream.queued = [])
    (calls : List StreamCall) : (calls.foldl (step handle) (start plane)).Delivers handle := by
  apply Run.invariant (fun _ call delivers => delivers_step call delivers)
  refine ⟨List.nil_prefix, ?_⟩
  intro stream found _
  simp [start, fresh stream found]

def Ended (handle : Bytes) (s : Observed) : Prop :=
  ∀ stream, s.record? handle = some stream → stream.eof = true

theorem ended_step (call : StreamCall) (ended : s.Ended handle) : (s.step handle call).Ended handle := by
  cases step_effect handle s call with
  | none record => simpa [Ended, record] using ended
  | push stream next data eof before ok after =>
    simp [Ended, after, (stream.push_spec ok).2.1, ended stream before]
  | read stream next maximumBytes waitForData result before ok after =>
    simp [Ended, after, (read_spec ok).2.1, ended stream before]
  | accept stream next before ok after =>
    simp [Ended, after, (accept_spec ok).2.1, ended stream before]
  | reset stream errorCode before after =>
    simp [Ended, after, markReset, ended stream before]
  | reject after => simp [Ended, after]

theorem pushed_step_of_ended (ended : s.Ended handle) (early : latePush handle s call = false) :
    (s.step handle call).pushed = s.pushed := by
  cases call with
  | push target data eof =>
    simp only [step]
    cases ran : s.plane.pushStreamData target data eof with
    | error e => rfl
    | ok plane =>
      by_cases same : target = handle
      · subst same
        unfold ApplicationDataPlane.pushStreamData at ran
        split at ran
        · cases ran
        rename_i stream found
        obtain ⟨next, pushed, -⟩ := bind_ok.mp ran
        have late : latePush target s (.push target data eof) = true := by
          simp [latePush, record?, found, ended stream found, pushed, Except.isOk, Except.toBool]
        rw [late] at early
        cases early
      · exact if_neg same
  | _ =>
    simp only [step]
    split <;> rfl

theorem pushed_run_of_ended (ended : s.Ended handle)
    (early : Run.Meets (fun s call => latePush handle s call = false) (step handle) s calls) :
    (calls.foldl (step handle) s).pushed = s.pushed := by
  induction calls generalizing s with
  | nil => rfl
  | cons call rest ih =>
    rw [List.foldl_cons, ih (ended_step call ended) early.2, pushed_step_of_ended ended early.1]

theorem eofRead_iff :
    eofRead handle s (.read target principalId connectionId maximumBytes waitForData) = true ↔
      target = handle ∧ ∃ stream next result,
        s.plane.authorizedStream target principalId connectionId = .ok stream ∧
        stream.read maximumBytes waitForData = .ok (some result, next) ∧ result.eof = true := by
  simp only [eofRead, Bool.and_eq_true, beq_iff_eq]
  apply and_congr_right'
  constructor
  · intro ended
    split at ended
    · rename_i result plane ran
      obtain ⟨stream, next, authorized, ok, -⟩ := readStream_ok.mp ran
      exact ⟨stream, next, result, authorized, ok, ended⟩
    · cases ended
  · rintro ⟨stream, next, result, authorized, ok, ended⟩
    simp only [readStream_ok.mpr ⟨stream, next, authorized, ok, rfl⟩, ended]

/-- A read that carries the end has returned everything, unless it cut the last chunk. -/
theorem eofRead_spec (delivers : s.Delivers handle) (read : eofRead handle s call = true) :
    s.Ended handle ∧ ((s.step handle call).returned = s.pushed ↔ cutsLast handle s call = false) := by
  cases call with
  | read target principalId connectionId maximumBytes waitForData =>
    obtain ⟨rfl, stream, next, result, authorized, ok, ended⟩ := eofRead_iff.mp read
    obtain ⟨accepted, unreset, flagged, complete⟩ := read_eof ok ended
    have found : s.record? target = some stream := authorizedStream_ok authorized
    have returned : (s.step target (.read target principalId connectionId maximumBytes waitForData)).returned =
        s.returned ++ result.data := by
      simp [step, readStream_ok.mpr ⟨stream, next, authorized, ok, rfl⟩, readData]
    refine ⟨?_, ?_⟩
    · intro other same
      rw [found] at same
      cases same
      exact flagged
    · rw [returned, delivers.2 stream found unreset, List.append_cancel_left_eq, complete]
      simp [cutsLast, authorized, accepted, unreset, flagged]
  | _ => cases read

theorem eofRead_of_cutsLast (cut : cutsLast handle s call = true) : eofRead handle s call = true := by
  cases call with
  | read =>
    simp only [cutsLast, Bool.and_eq_true, beq_iff_eq] at cut
    obtain ⟨rfl, cut⟩ := cut
    split at cut
    · rename_i stream authorized
      simp only [Bool.and_eq_true, Bool.not_eq_true', Option.isNone_iff_eq_none] at cut
      obtain ⟨⟨⟨accepted, unreset⟩, ended⟩, cut⟩ := cut
      obtain ⟨result, next, ok, flagged⟩ := read_cut accepted unreset ended cut
      exact eofRead_iff.mpr ⟨rfl, stream, next, result, authorized, ok, flagged⟩
    · cases cut
  | _ => cases cut

theorem completes_iff (call : StreamCall) (delivers : s.Delivers handle)
    (final : s.Ended handle → total = s.pushed) :
    Completes handle total s call ↔ cutsLast handle s call = false := by
  by_cases read : eofRead handle s call = true
  · obtain ⟨ended, complete⟩ := eofRead_spec delivers read
    rw [← complete, ← final ended]
    exact ⟨fun completes => completes read, fun returned _ => returned⟩
  · constructor
    · intro _
      by_contra cut
      exact read (eofRead_of_cutsLast (by simpa using cut))
    · intro _ ended
      exact absurd ended read

theorem completes_run_iff (delivers : s.Delivers handle)
    (early : Run.Meets (fun s call => latePush handle s call = false) (step handle) s calls) :
    Run.Meets (Completes handle (calls.foldl (step handle) s).pushed) (step handle) s calls ↔
      Run.Meets (fun s call => cutsLast handle s call = false) (step handle) s calls := by
  induction calls generalizing s with
  | nil => exact Iff.rfl
  | cons call rest ih =>
    have here := completes_iff call delivers fun ended => pushed_run_of_ended ended early
    exact and_congr here (ih (delivers_step call delivers) early.2)

/-- In a run that pushes nothing behind the end of a stream, the bytes returned are a prefix of those pushed;
and every read whose result carries the end completes them exactly when no read cuts the last chunk left behind
the end. -/
theorem delivery_complete_iff (plane : ApplicationDataPlane) (handle : Bytes) (calls : List StreamCall)
    (fresh : ∀ stream, plane.streams.get? handle = some stream → stream.queued = [])
    (eofLast : Run.Meets (fun s call => latePush handle s call = false) (step handle) (start plane) calls) :
    let final := calls.foldl (step handle) (start plane)
    final.returned <+: final.pushed ∧
      (Run.Meets (Completes handle final.pushed) (step handle) (start plane) calls ↔
        Run.Meets (fun s call => cutsLast handle s call = false) (step handle) (start plane) calls) :=
  ⟨(delivers_run fresh calls).1, completes_run_iff (delivers_run fresh []) eofLast⟩

/-- A plane with one accepted stream of principal 1. -/
def samplePlane : ApplicationDataPlane where
  streams := OrderedMap.empty.insert [0] {
    sessionId := 1, streamId := 1, principalId := 1, connectionId := [7], pending := false, eof := false
    resetError := none, queuedBytes := 0, queued := [] }
  streamBySessionId := .empty
  pendingStreams := []

/-- The end comes with the last chunk, and the owner reads in pieces of two bytes. -/
def sampleCalls (last : Bytes) : List StreamCall :=
  [.push [0] [1, 2] false, .push [0] last true, .read [0] 1 [7] 2 false, .read [0] 1 [7] 2 false]

theorem samplePlane_fresh : ∀ stream, samplePlane.streams.get? [0] = some stream → stream.queued = [] := by
  decide +kernel

theorem samplePlane_completes : let final := (sampleCalls [3, 4]).foldl (step [0]) (start samplePlane)
    final.returned <+: final.pushed ∧
      Run.Meets (Completes [0] final.pushed) (step [0]) (start samplePlane) (sampleCalls [3, 4]) := by
  have complete := delivery_complete_iff samplePlane [0] (sampleCalls [3, 4]) samplePlane_fresh
    (by decide +kernel)
  exact ⟨complete.1, complete.2.mpr (by decide +kernel)⟩

/-- With three bytes in the last chunk, the second read carries the end with a byte still queued. -/
theorem samplePlane_loses : let calls := sampleCalls [3, 4, 5]
    let final := calls.foldl (step [0]) (start samplePlane)
    (Run.Meets (fun s call => latePush [0] s call = false) (step [0]) (start samplePlane) calls) ∧
      ¬ Run.Meets (Completes [0] final.pushed) (step [0]) (start samplePlane) calls ∧
      final.pushed = [1, 2, 3, 4, 5] ∧ final.returned = [1, 2, 3, 4] := by
  decide +kernel

end Observed
end UniversalMesh.Daemon
