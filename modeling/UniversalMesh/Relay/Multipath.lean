import UniversalMesh.Lib.OrderedMap
import UniversalMesh.Lib.Run
import UniversalMesh.Wire.Field

/-! `umc-relay/src/multi.rs`: the scheduler of one multipath circuit. Paths choose where a frame is sent; the
receive side brings the frames of all paths back into order, with a bounded buffer for early ones and a bounded
memory of those delivered. -/
namespace UniversalMesh.Relay
open MachineWord Wire

inductive MultipathError where
  | noUsablePath | unknownPath | invalidWeight | reorderBufferFull | sequenceConflict
  deriving DecidableEq, Repr

/-- What became of one frame on the receive side. -/
inductive MultipathReceive where
  | buffered | duplicate | delivered (released : List (Nat × Bytes))
  deriving DecidableEq, Repr

structure MultipathPath where
  (weight deficit sentBytes : Nat)
  failed : Bool
  deriving DecidableEq, Repr

structure MultipathScheduler where
  reorderLimit : Nat
  paths : OrderedMap Nat MultipathPath
  (buffered delivered : OrderedMap Nat Bytes)
  nextSequence : Nat
  deriving DecidableEq

namespace MultipathScheduler

def new (reorderLimit : Nat) : MultipathScheduler :=
  { reorderLimit := max reorderLimit 1, paths := .empty, buffered := .empty, delivered := .empty
    nextSequence := 0 }

/-! ### The sending side -/

section
variable (s : MultipathScheduler)

/-- `add_path`: a path of weight zero is refused, another replaces the one of its id. -/
def addPath (pathId weight : Nat) : Except MultipathError MultipathScheduler :=
  if weight = 0 then .error .invalidWeight
  else .ok { s with paths := s.paths.insert pathId { weight, deficit := 0, sentBytes := 0, failed := false } }

/-- The path of an id, replaced by what `change` makes of it. -/
def changePath (pathId : Nat)
    (change : MultipathPath → Except MultipathError MultipathPath) :
    Except MultipathError MultipathScheduler :=
  match s.paths.get? pathId with
  | none => .error .unknownPath
  | some path => (change path).map fun path => { s with paths := s.paths.insert pathId path }

def failPath (pathId : Nat) : Except MultipathError MultipathScheduler :=
  s.changePath pathId fun path => .ok { path with failed := true }

def activatePath (pathId : Nat) : Except MultipathError MultipathScheduler :=
  s.changePath pathId fun path => .ok { path with failed := false }

/-- `record_sent`: a frame of `bytes` bytes charged to the path it was sent on. -/
def recordSent (pathId bytes : Nat) : Except MultipathError MultipathScheduler :=
  s.changePath pathId fun path =>
    if path.failed then .error .noUsablePath
    else .ok { path with sentBytes := saturatingAdd path.sentBytes bytes }

def usable : OrderedMap Nat MultipathPath :=
  s.paths.filter fun entry => !entry.2.failed

/-- The order of `max_by_key`: the larger deficit, and at equal deficits the smaller id. -/
def preferred (best entry : Nat × MultipathPath) : Nat × MultipathPath :=
  if best.2.deficit < entry.2.deficit ∨ best.2.deficit = entry.2.deficit ∧ entry.1 < best.1 then entry
  else best

/-- `select_path`: every usable path earns its weight, and the one with the most pays for all. -/
def selectPath : Except MultipathError (Nat × MultipathScheduler) :=
  let totalWeight := s.usable.sumBy MultipathPath.weight
  if totalWeight = 0 then .error .noUsablePath
  else
    let earned := s.paths.entries.map fun (id, path) =>
      (id, if path.failed then path else { path with deficit := saturatingAdd path.deficit path.weight })
    match earned.filter fun entry => !entry.2.failed with
    | [] => .error .noUsablePath
    | first :: rest =>
      let selected := rest.foldl preferred first
      let paths := earned.foldl (fun paths entry => paths.insert entry.1 entry.2) s.paths
      let paid := { selected.2 with deficit := selected.2.deficit - totalWeight }
      .ok (selected.1, { s with paths := paths.insert selected.1 paid })

end

/-! The sending side changes nothing but the paths. -/

variable {pathId : Nat} {s s' : MultipathScheduler}

theorem addPath_paths (added : s.addPath pathId weight = .ok s') : ∃ paths, s' = { s with paths } := by
  unfold addPath at added
  split at added
  · cases added
  · cases added
    exact ⟨_, rfl⟩

theorem changePath_paths (changed : s.changePath pathId change = .ok s') : ∃ paths, s' = { s with paths } := by
  unfold changePath at changed
  split at changed
  · cases changed
  · next path _ =>
    cases result : change path with
    | error e => rw [result] at changed; cases changed
    | ok path =>
      rw [result] at changed
      cases changed
      exact ⟨_, rfl⟩

theorem selectPath_paths (selected : s.selectPath = .ok (pathId, s')) : ∃ paths, s' = { s with paths } := by
  unfold selectPath at selected
  dsimp only at selected
  split at selected
  · cases selected
  split at selected
  · cases selected
  · cases selected
    exact ⟨_, rfl⟩

/-! ### The receiving side -/

/-- The loop of `accept` that releases the contiguous frames, one from the buffer a turn. -/
def release : Nat → MultipathScheduler → List (Nat × Bytes) × MultipathScheduler
  | 0, s => ([], s)
  | turns + 1, s =>
    match s.buffered.get? s.nextSequence with
    | none => ([], s)
    | some bytes =>
      let (released, s') := release turns
        { s with
          buffered := s.buffered.erase s.nextSequence
          delivered := s.delivered.insert s.nextSequence bytes
          nextSequence := saturatingAdd s.nextSequence 1 }
      ((s.nextSequence, bytes) :: released, s')

/-- The loop of `accept` that forgets the oldest deliveries. -/
def forget : Nat → MultipathScheduler → MultipathScheduler
  | 0, s => s
  | turns + 1, s =>
    if s.reorderLimit < s.delivered.size then
      match s.delivered.first? with
      | none => s
      | some first => forget turns { s with delivered := s.delivered.erase first.1 }
    else s

/-- A frame under a sequence number that is already taken. -/
def repeated (previous : Option Bytes) (data : Bytes) : Except MultipathError MultipathReceive :=
  if previous = some data then .ok .duplicate else .error .sequenceConflict

/-- Payloads come out in order; one that is ahead waits while the buffer has room. -/
def accept (s : MultipathScheduler) (sequence : Nat) (data : Bytes) :
    Except MultipathError MultipathReceive × MultipathScheduler :=
  if sequence < s.nextSequence then (repeated (s.delivered.get? sequence) data, s)
  else
    match s.buffered.get? sequence with
    | some previous => (repeated (some previous) data, s)
    | none =>
      if sequence > s.nextSequence ∧ s.buffered.size ≥ s.reorderLimit then (.error .reorderBufferFull, s)
      else
        let s := { s with buffered := s.buffered.insert sequence data }
        if sequence > s.nextSequence then (.ok .buffered, s)
        else
          let (released, s) := release s.buffered.size s
          (.ok (.delivered released), forget s.delivered.size s)

/-- The scheduler stays as it is, keeps an early frame, or releases from the frame that was awaited. -/
theorem accept_cases (s : MultipathScheduler) {sequence : Nat} :
    (s.accept sequence data).2 = s ∧ ((∃ e, (s.accept sequence data).1 = .error e) ∨
          (s.accept sequence data).1 = .ok .duplicate ∧
            ((sequence, data) ∈ s.delivered ∨ (sequence, data) ∈ s.buffered)) ∨
      s.nextSequence < sequence ∧ s.buffered.get? sequence = none ∧ s.buffered.size < s.reorderLimit ∧
        s.accept sequence data = (.ok .buffered, { s with buffered := s.buffered.insert sequence data }) ∨
      sequence = s.nextSequence ∧ s.buffered.get? sequence = none ∧
        ∃ released s', release (s.buffered.insert sequence data).size
            { s with buffered := s.buffered.insert sequence data } = (released, s') ∧
          s.accept sequence data = (.ok (.delivered released), forget s'.delivered.size s') := by
  have again : ∀ {map : OrderedMap Nat Bytes} {previous}, map.get? sequence = previous →
      (∃ e, repeated previous data = .error e) ∨
        repeated previous data = .ok .duplicate ∧ (sequence, data) ∈ map := by
    rintro map previous rfl
    by_cases same : map.get? sequence = some data
    · exact .inr ⟨if_pos same, OrderedMap.get?_eq_some.mp same⟩
    · exact .inl ⟨_, if_neg same⟩
  by_cases old : sequence < s.nextSequence
  · have result : s.accept sequence data = (repeated (s.delivered.get? sequence) data, s) := if_pos old
    rw [result]
    exact .inl ⟨rfl, (again rfl).imp_right fun same => ⟨same.1, .inl same.2⟩⟩
  cases held : s.buffered.get? sequence with
  | some previous =>
    have result : s.accept sequence data = (repeated (some previous) data, s) := by
      rw [accept, if_neg old, held]
    rw [result]
    exact .inl ⟨rfl, (again held).imp_right fun same => ⟨same.1, .inr same.2⟩⟩
  | none =>
    by_cases full : sequence > s.nextSequence ∧ s.buffered.size ≥ s.reorderLimit
    · have result : s.accept sequence data = (.error .reorderBufferFull, s) := by
        rw [accept, if_neg old, held]
        exact if_pos full
      rw [result]
      exact .inl ⟨rfl, .inl ⟨_, rfl⟩⟩
    by_cases early : s.nextSequence < sequence
    · refine .inr (.inl ⟨early, rfl, by omega, ?_⟩)
      rw [accept, if_neg old, held]
      exact (if_neg full).trans (if_pos early)
    · refine .inr (.inr ⟨by omega, rfl, _, _, rfl, ?_⟩)
      rw [accept, if_neg old, held]
      exact (if_neg full).trans (if_neg early)

/-- A frame the scheduler does not take: one behind the sequence, one it holds, or an early one when the buffer
is full. -/
def Declines (s : MultipathScheduler) (sequence : Nat) : Prop :=
  sequence < s.nextSequence ∨ (s.buffered.get? sequence).isSome = true ∨
    s.nextSequence < sequence ∧ s.reorderLimit ≤ s.buffered.size
  deriving Decidable

theorem accept_of_declines {s : MultipathScheduler} {sequence : Nat} (declines : s.Declines sequence) :
    (s.accept sequence data).2 = s ∧
      ((∃ e, (s.accept sequence data).1 = .error e) ∨ (s.accept sequence data).1 = .ok .duplicate) := by
  rcases s.accept_cases with ⟨same, answer⟩ | ⟨early, missing, room, -⟩ | ⟨awaited, missing, -⟩
  · exact ⟨same, answer.imp_right And.left⟩
  all_goals rcases declines with old | held | ⟨later, full⟩
  any_goals omega
  all_goals simp [missing] at held

end MultipathScheduler
end UniversalMesh.Relay
