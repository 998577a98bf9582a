import UniversalMesh.Relay.Multipath

/-! Delivery over several paths: what the receive side of a multipath circuit releases over a whole run is the
frames in the order of their sequence numbers, each once and as it was first accepted. -/
namespace UniversalMesh.Relay
open MachineWord Wire OrderedMap

variable {released : List (Nat × Bytes)}

namespace MultipathScheduler

/-- What one pass of the release loop leaves behind. -/
structure Releases (s : MultipathScheduler) (released : List (Nat × Bytes)) (s' : MultipathScheduler) :
    Prop where
  limit : s'.reorderLimit = s.reorderLimit
  next : s'.nextSequence = s.nextSequence + released.length
  order : released.map Prod.fst = List.range' s.nextSequence released.length
  exact : ∀ entry, entry ∈ s.buffered ↔ entry ∈ released ∨ entry ∈ s'.buffered
  ahead : ∀ entry ∈ s'.buffered, s'.nextSequence ≤ entry.1
  remembered : ∀ entry ∈ s'.delivered, entry ∈ s.delivered ∨ entry ∈ released
  room : s'.buffered.size + released.length = s.buffered.size

variable {s : MultipathScheduler}

theorem Releases.none (ahead : ∀ entry ∈ s.buffered, s.nextSequence ≤ entry.1) : Releases s [] s :=
  { limit := rfl, next := rfl, order := rfl, exact := by simp, ahead, remembered := by simp, room := rfl }

theorem Releases.cons (found : s.buffered.get? s.nextSequence = some bytes) (later : Releases
      { s with
        buffered := s.buffered.erase s.nextSequence
        delivered := s.delivered.insert s.nextSequence bytes
        nextSequence := s.nextSequence + 1 } released s') :
    Releases s ((s.nextSequence, bytes) :: released) s' where
  limit := later.limit
  next := by rw [later.next, List.length_cons]; dsimp only; omega
  order := by rw [List.map_cons, later.order, List.length_cons, List.range'_succ]
  exact entry := by rw [List.mem_cons, or_assoc, ← later.exact entry, mem_iff_of_get? found]
  ahead := later.ahead
  remembered entry member := by
    rcases later.remembered entry member with before | after
    · rcases mem_insert.mp before with rfl | ⟨before, -⟩
      · exact .inr List.mem_cons_self
      · exact .inl before
    · exact .inr (List.mem_cons_of_mem _ after)
  room := by
    have taken := size_erase found
    have rest := later.room
    rw [List.length_cons]
    dsimp only at rest
    omega

/-- The loop releases a contiguous run from the awaited sequence number on. -/
theorem release_releases (turns : Nat) (ahead : ∀ entry ∈ s.buffered, s.nextSequence ≤ entry.1)
    (small : ∀ entry ∈ s.buffered, entry.1 < u64Max) : Releases s (release turns s).1 (release turns s).2 := by
  induction turns generalizing s with
  | zero => exact .none ahead
  | succ turns ih =>
    rw [release]
    cases found : s.buffered.get? s.nextSequence with
    | none => exact .none ahead
    | some bytes =>
      have bound := small _ (get?_eq_some.mp found)
      rw [saturatingAdd_of_le (show s.nextSequence + 1 ≤ u64Max from bound)]
      refine .cons found (ih ?_ ?_)
      · intro entry member
        obtain ⟨held, differs⟩ := mem_erase.mp member
        have least := ahead entry held
        show s.nextSequence + 1 ≤ entry.1
        omega
      · intro entry member
        exact small entry (mem_erase.mp member).1

/-- With a turn for every frame in the buffer, the awaited one is not among those left. -/
theorem release_complete (enough : s.buffered.size ≤ turns) :
    (release turns s).2.buffered.get? (release turns s).2.nextSequence = none := by
  induction turns generalizing s with
  | zero =>
    have empty : s.buffered.entries = [] := List.length_eq_zero_iff.mp (Nat.le_zero.mp enough)
    refine get?_eq_none.mpr fun value member => ?_
    exact absurd (mem_entries.mpr member) (by simp [release, empty])
  | succ turns ih =>
    rw [release]
    cases found : s.buffered.get? s.nextSequence with
    | none => exact found
    | some bytes =>
      apply ih
      have taken := size_erase found
      dsimp only
      omega

theorem forget_spec (enough : s.delivered.size ≤ turns) :
    ∃ delivered : OrderedMap Nat Bytes, forget turns s = { s with delivered } ∧
      (∀ entry ∈ delivered, entry ∈ s.delivered) ∧ delivered.size ≤ s.reorderLimit := by
  induction turns generalizing s with
  | zero => exact ⟨s.delivered, rfl, fun _ member => member, by omega⟩
  | succ turns ih =>
    rw [forget]
    by_cases beyond : s.reorderLimit < s.delivered.size
    · rw [if_pos beyond]
      cases found : s.delivered.first? with
      | none =>
        have empty : s.delivered.entries = [] := List.head?_eq_none_iff.mp found
        rw [OrderedMap.size, empty, List.length_nil] at beyond
        omega
      | some first =>
        have shrinks := size_erase_lt (first?_eq_some found).1
        obtain ⟨delivered, shape, kept, small⟩ :=
          @ih { s with delivered := s.delivered.erase first.1 } (by dsimp only; omega)
        exact ⟨delivered, shape, fun entry member => (mem_erase.mp (kept entry member)).1, small⟩
    · rw [if_neg beyond]
      exact ⟨s.delivered, rfl, fun _ member => member, by omega⟩

/-- What waits is not behind the awaited sequence number, and not the last number of all. -/
def Awaits (s : MultipathScheduler) : Prop :=
  ∀ entry ∈ s.buffered, s.nextSequence ≤ entry.1 ∧ entry.1 < u64Max

/-- Nothing is released, or the numbers from the awaited one on, which was not taken before. -/
theorem accept_awaits {sequence : Nat} (awaits : s.Awaits) (small : sequence < u64Max)
    (accepted : s.accept sequence data = (received, s')) :
    s'.Awaits ∧ s.nextSequence ≤ s'.nextSequence ∧ ∀ released, received = .ok (.delivered released) →
        sequence = s.nextSequence ∧ s.buffered.get? sequence = none ∧
        released.map Prod.fst = List.range' s.nextSequence released.length ∧
        s'.nextSequence = s.nextSequence + released.length ∧ ∀ entry ∈ released, entry.1 < u64Max := by
  rcases s.accept_cases with
    ⟨same, refused⟩ | ⟨early, -, -, kept⟩ | ⟨awaited, absent, released, s₁, run, delivered⟩
  · rw [accepted] at same refused
    dsimp only at same refused
    subst same
    refine ⟨awaits, Nat.le_refl _, fun released delivered => ?_⟩
    rcases refused with ⟨e, failed⟩ | ⟨duplicate, -⟩
    · rw [failed] at delivered
      cases delivered
    · rw [duplicate] at delivered
      cases delivered
  · rw [accepted] at kept
    cases kept
    refine ⟨forall_mem_insert ⟨early.le, small⟩ awaits, Nat.le_refl _, fun released delivered => ?_⟩
    cases delivered
  · rw [accepted] at delivered
    cases delivered
    have waiting : ∀ entry ∈ s.buffered.insert sequence data, s.nextSequence ≤ entry.1 ∧ entry.1 < u64Max :=
      forall_mem_insert ⟨awaited.ge, small⟩ awaits
    have releases := release_releases (s := { s with buffered := s.buffered.insert sequence data })
      (s.buffered.insert sequence data).size (fun entry member => (waiting entry member).1)
      (fun entry member => (waiting entry member).2)
    rw [run] at releases
    obtain ⟨delivered, forgotten, -, -⟩ := forget_spec (s := s₁) le_rfl
    rw [forgotten]
    refine ⟨fun entry member => ⟨releases.ahead entry member, ?_⟩, ?_, ?_⟩
    · exact (waiting entry ((releases.exact entry).mpr (.inr member))).2
    · rw [releases.next]
      exact Nat.le_add_right _ _
    · intro released' same
      cases same
      refine ⟨awaited, absent, releases.order, releases.next, fun entry member => ?_⟩
      exact (waiting entry ((releases.exact entry).mpr (.inl member))).2

end MultipathScheduler

/-! ### Runs of the receive side -/

/-- A scheduler with the frames it accepted, as they arrived, and those it released. -/
structure Reception where
  scheduler : MultipathScheduler
  accepted : List (Nat × Bytes)
  released : List (Nat × Bytes)

namespace Reception

def new (reorderLimit : Nat) : Reception := ⟨.new reorderLimit, [], []⟩

def step (r : Reception) (frame : Nat × Bytes) : Reception :=
  match r.scheduler.accept frame.1 frame.2 with
  | (.ok .buffered, scheduler) => { r with scheduler, accepted := r.accepted ++ [frame] }
  | (.ok (.delivered released), scheduler) =>
    { scheduler, accepted := r.accepted ++ [frame], released := r.released ++ released }
  | (_, scheduler) => { r with scheduler }

/-- Every accepted frame is either released, in its place, or waits in the buffer behind a gap. -/
structure InOrder (r : Reception) : Prop where
  order : r.released.map Prod.fst = List.range r.scheduler.nextSequence
  distinct : (r.accepted.map Prod.fst).Nodup
  exact : ∀ frame, frame ∈ r.accepted ↔ frame ∈ r.released ∨ frame ∈ r.scheduler.buffered
  ahead : ∀ frame ∈ r.scheduler.buffered, r.scheduler.nextSequence < frame.1
  small : ∀ frame ∈ r.scheduler.buffered, frame.1 < u64Max
  remembered : ∀ frame ∈ r.scheduler.delivered, frame ∈ r.released
  positive : 1 ≤ r.scheduler.reorderLimit
  room : r.scheduler.buffered.size ≤ r.scheduler.reorderLimit
  memory : r.scheduler.delivered.size ≤ r.scheduler.reorderLimit

variable {r : Reception}

theorem inOrder_new : (new reorderLimit).InOrder where
  order := rfl
  distinct := List.nodup_nil
  exact _ := ⟨fun member => absurd member List.not_mem_nil, fun member =>
    member.elim (absurd · List.not_mem_nil) (absurd · not_mem_empty)⟩
  ahead _ member := absurd member not_mem_empty
  small _ member := absurd member not_mem_empty
  remembered _ member := absurd member not_mem_empty
  positive := Nat.le_max_right _ _
  room := Nat.zero_le _
  memory := Nat.zero_le _

variable {frame : Nat × Bytes}

theorem InOrder.behind (inOrder : r.InOrder) (member : frame ∈ r.released) :
    frame.1 < r.scheduler.nextSequence := by
  have listed : frame.1 ∈ r.released.map Prod.fst := List.mem_map_of_mem member
  rw [inOrder.order] at listed
  exact List.mem_range.mp listed

theorem InOrder.fresh (inOrder : r.InOrder) {sequence : Nat} (reached : r.scheduler.nextSequence ≤ sequence)
    (absent : r.scheduler.buffered.get? sequence = none) : sequence ∉ r.accepted.map Prod.fst := by
  intro listed
  obtain ⟨frame, member, rfl⟩ := List.mem_map.mp listed
  rcases (inOrder.exact frame).mp member with released | waiting
  · exact absurd (inOrder.behind released) (by omega)
  · exact get?_eq_none.mp absent frame.2 waiting

theorem nodup_append_fresh {accepted : List (Nat × Bytes)} (distinct : (accepted.map Prod.fst).Nodup)
    (fresh : frame.1 ∉ accepted.map Prod.fst) : ((accepted ++ [frame]).map Prod.fst).Nodup := by
  rw [List.map_append, List.map_singleton, List.nodup_append_comm]
  exact List.nodup_cons.mpr ⟨fresh, distinct⟩

theorem InOrder.buffer (inOrder : r.InOrder) (early : r.scheduler.nextSequence < frame.1)
    (absent : r.scheduler.buffered.get? frame.1 = none)
    (space : r.scheduler.buffered.size < r.scheduler.reorderLimit) (small : frame.1 < u64Max) :
    InOrder
      { r with
        scheduler := { r.scheduler with buffered := r.scheduler.buffered.insert frame.1 frame.2 }
        accepted := r.accepted ++ [frame] } where
  order := inOrder.order
  distinct := nodup_append_fresh inOrder.distinct (inOrder.fresh early.le absent)
  exact other := by
    rw [List.mem_append, List.mem_singleton, inOrder.exact other, mem_insert_of_get?_eq_none absent, or_assoc,
      or_comm (a := other ∈ r.scheduler.buffered)]
  ahead := forall_mem_insert early inOrder.ahead
  small := forall_mem_insert small inOrder.small
  remembered := inOrder.remembered
  positive := inOrder.positive
  room := by
    rw [size_insert absent]
    exact space
  memory := inOrder.memory

/-- The awaited frame releases itself and the run of frames that waited for it. -/
theorem InOrder.deliver (inOrder : r.InOrder) (awaited : frame.1 = r.scheduler.nextSequence)
    (absent : r.scheduler.buffered.get? frame.1 = none) (small : frame.1 < u64Max)
    (run : MultipathScheduler.release (r.scheduler.buffered.insert frame.1 frame.2).size
      { r.scheduler with buffered := r.scheduler.buffered.insert frame.1 frame.2 } = (released, s')) :
    InOrder
      { scheduler := MultipathScheduler.forget s'.delivered.size s'
        accepted := r.accepted ++ [frame]
        released := r.released ++ released } := by
  -- the state in which the loop starts: the awaited frame is in the buffer with the early ones
  have waiting : ∀ entry ∈ r.scheduler.buffered.insert frame.1 frame.2,
      r.scheduler.nextSequence ≤ entry.1 ∧ entry.1 < u64Max :=
    forall_mem_insert ⟨awaited.ge, small⟩ fun entry held => ⟨(inOrder.ahead entry held).le, inOrder.small entry held⟩
  have releases := MultipathScheduler.release_releases
    (s := { r.scheduler with buffered := r.scheduler.buffered.insert frame.1 frame.2 })
    (r.scheduler.buffered.insert frame.1 frame.2).size
    (fun entry member => (waiting entry member).1) (fun entry member => (waiting entry member).2)
  have complete := MultipathScheduler.release_complete
    (s := { r.scheduler with buffered := r.scheduler.buffered.insert frame.1 frame.2 }) le_rfl
  rw [run] at releases complete
  have limit : s'.reorderLimit = r.scheduler.reorderLimit := releases.limit
  have next : s'.nextSequence = r.scheduler.nextSequence + released.length := releases.next
  have entered : ∀ entry, entry ∈ r.scheduler.buffered.insert frame.1 frame.2 ↔
      entry ∈ released ∨ entry ∈ s'.buffered := releases.exact
  obtain ⟨delivered, forgotten, kept, memory⟩ := MultipathScheduler.forget_spec (s := s') le_rfl
  rw [forgotten]
  refine
    { order := ?_, distinct := nodup_append_fresh inOrder.distinct (inOrder.fresh awaited.ge absent)
      exact := ?_, ahead := ?_, small := ?_, remembered := ?_, positive := limit ▸ inOrder.positive
      room := ?_, memory := memory }
  · rw [List.map_append, inOrder.order, releases.order, next, List.range_eq_range', List.range_eq_range',
      ← List.range'_append_1, Nat.zero_add]
  · intro other
    rw [List.mem_append, List.mem_singleton, inOrder.exact other, List.mem_append, or_assoc, or_assoc,
      ← entered other, mem_insert_of_get?_eq_none absent, or_comm (a := other ∈ r.scheduler.buffered)]
  · intro other member
    exact Nat.lt_of_le_of_ne (releases.ahead other member) (ne_of_get?_eq_none complete member).symm
  · intro other member
    exact (waiting other ((entered other).mpr (.inr member))).2
  · intro other member
    rw [List.mem_append]
    exact (releases.remembered other (kept other member)).imp_left (inOrder.remembered other)
  · -- the awaited frame itself left the buffer, so what is left is no more than before
    have taken := releases.room
    have inserted : (r.scheduler.buffered.insert frame.1 frame.2).size = r.scheduler.buffered.size + 1 :=
      size_insert absent
    have some : released ≠ [] := by
      rintro rfl
      have held : frame ∈ s'.buffered :=
        ((entered frame).mp (mem_insert.mpr (.inl rfl))).resolve_left List.not_mem_nil
      rw [List.length_nil, Nat.add_zero, ← awaited] at next
      rw [next] at complete
      exact get?_eq_none.mp complete frame.2 held
    have count := List.length_pos_iff.mpr some
    have before := inOrder.room
    dsimp only at taken ⊢
    omega

theorem step_inOrder (inOrder : r.InOrder) (small : frame.1 < u64Max) : (r.step frame).InOrder := by
  rcases r.scheduler.accept_cases with
    ⟨same, ⟨e, refused⟩ | ⟨duplicate, -⟩⟩ | ⟨early, absent, space, kept⟩ |
      ⟨awaited, absent, released, s', run, delivered⟩
  · have stays : r.step frame = r := by
      rw [step, show r.scheduler.accept frame.1 frame.2 = (.error e, r.scheduler) from Prod.ext refused same]
    rwa [stays]
  · have stays : r.step frame = r := by
      rw [step,
        show r.scheduler.accept frame.1 frame.2 = (.ok .duplicate, r.scheduler) from Prod.ext duplicate same]
    rwa [stays]
  · rw [step, kept]
    exact inOrder.buffer early absent space small
  · rw [step, delivered]
    exact inOrder.deliver awaited absent small run

theorem run_inOrder {frames : List (Nat × Bytes)}
    (small : ∀ frame ∈ frames, frame.1 < u64Max) : (frames.foldl step (new reorderLimit)).InOrder := by
  have meets : Run.Meets (fun _ frame => frame.1 < u64Max) step (new reorderLimit) frames :=
    Run.meets_of_forall small _
  exact Run.invariant_of_meets (fun _ _ => step_inOrder) inOrder_new meets

/-- The accepted copy of a sequence number is the one that is released. -/
theorem InOrder.first_copy (inOrder : r.InOrder) (member : frame ∈ r.released) :
    r.accepted.find? (fun copy => copy.1 = frame.1) = some frame := by
  have held : frame ∈ r.accepted := (inOrder.exact frame).mpr (.inl member)
  obtain ⟨copy, found⟩ : ∃ copy, r.accepted.find? (fun copy => copy.1 = frame.1) = some copy :=
    Option.isSome_iff_exists.mp (List.find?_isSome.mpr ⟨frame, held, by simp⟩)
  have same : copy.1 = frame.1 := by simpa using List.find?_some found
  rw [found, List.inj_on_of_nodup_map inOrder.distinct (List.mem_of_find?_eq_some found) held same]

/-- Whatever the order, the repetitions and the conflicts in which frames arrive: what is released are the
sequence numbers from zero on, each once and with the bytes accepted for it first, up to the first one not
accepted yet. Both memories stay within the limit, and a call that refuses a frame or finds it a duplicate
leaves the scheduler as it was. -/
theorem releases_in_order_once (reorderLimit : Nat) (frames : List (Nat × Bytes))
    (small : ∀ frame ∈ frames, frame.1 < u64Max) : let run := frames.foldl step (new reorderLimit)
    run.released.map Prod.fst = List.range run.released.length ∧
      (∀ frame ∈ run.released, run.accepted.find? (fun copy => copy.1 = frame.1) = some frame) ∧
      (∀ copy ∈ run.accepted, copy.1 ≠ run.released.length) ∧
      run.scheduler.buffered.size ≤ run.scheduler.reorderLimit ∧
      run.scheduler.delivered.size ≤ run.scheduler.reorderLimit ∧ ∀ sequence data,
        ((∃ e, (run.scheduler.accept sequence data).1 = .error e) ∨
          (run.scheduler.accept sequence data).1 = .ok .duplicate) →
        (run.scheduler.accept sequence data).2 = run.scheduler := by
  intro run
  have inOrder : run.InOrder := run_inOrder small
  have next : run.released.length = run.scheduler.nextSequence := by
    rw [← List.length_map (f := Prod.fst), inOrder.order, List.length_range]
  refine ⟨next ▸ inOrder.order, fun frame member => inOrder.first_copy member, ?_, inOrder.room,
    inOrder.memory, ?_⟩
  · intro copy member
    rcases (inOrder.exact copy).mp member with released | waiting
    · exact (next ▸ inOrder.behind released).ne
    · exact (next ▸ inOrder.ahead copy waiting).ne'
  · intro sequence data refused
    rcases run.scheduler.accept_cases with
      ⟨same, -⟩ | ⟨-, -, -, kept⟩ | ⟨-, -, released, s', -, delivered⟩
    · exact same
    · simp [kept] at refused
    · simp [delivered] at refused

/-- Four frames in the order 1, 2, 0, 3 with room for one early frame, a repetition and a conflict. -/
theorem releases_in_order_once_swapped :
    let frames : List (Nat × Bytes) := [(1, [1]), (2, [2]), (0, [0]), (0, [0]), (1, [9]), (2, [2]), (3, [3])]
    (∀ frame ∈ frames, frame.1 < u64Max) ∧
      (frames.foldl step (new 1)).released = [(0, [0]), (1, [1]), (2, [2]), (3, [3])] ∧
      (frames.foldl step (new 1)).released.map Prod.fst =
        List.range (frames.foldl step (new 1)).released.length := by
  refine ⟨by decide, by decide +kernel, ?_⟩
  exact (releases_in_order_once 1 _ (by decide)).1

end Reception
end UniversalMesh.Relay
