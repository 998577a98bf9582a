import Mathlib.Data.List.Induction
import Mathlib.Data.List.Nodup
import UniversalMesh.Lib.Run

/-! A bounded memory of keys that forgets the oldest first. A key that is touched enters at the back unless it
is remembered already, and keeps its place until enough keys have entered behind it. -/
namespace UniversalMesh

/-- The keys remembered, oldest first. -/
structure Fifo (κ : Type) (cap : Nat) where
  order : List κ
  nodup : order.Nodup
  bounded : order.length ≤ cap

namespace Fifo

variable {κ : Type} {cap : Nat}

/-- What can happen to the memory: nothing, a key is touched, or all is forgotten. -/
inductive Event (κ : Type) where
  | idle | touch (key : κ) | forget

def empty : Fifo κ cap := ⟨[], .nil, Nat.zero_le _⟩

/-- The keys that stay when a new one enters at the back. -/
def push (cap : Nat) (order : List κ) (key : κ) : List κ :=
  (order ++ [key]).drop ((order ++ [key]).length - cap)

theorem length_push (order : List κ) (key : κ) : (push cap order key).length ≤ cap := by
  rw [push, List.length_drop]
  omega

variable {key : κ} {order : List κ} {event : Event κ}

theorem nodup_push (nodup : order.Nodup) (fresh : key ∉ order) : (push cap order key).Nodup := by
  apply List.Nodup.sublist (List.drop_sublist ..)
  rw [List.nodup_append_comm]
  exact List.nodup_cons.mpr ⟨fresh, nodup⟩

theorem push_of_lt (room : order.length < cap) : push cap order key = order ++ [key] := by
  rw [push, List.length_append, List.length_singleton, show order.length + 1 - cap = 0 by omega,
    List.drop_zero]

theorem push_cons_of_full (full : (oldest :: order).length = cap) :
    push cap (oldest :: order) key = order ++ [key] := by
  have dropped : (oldest :: order ++ [key]).length - cap = 1 := by
    rw [List.length_append, List.length_singleton, full]
    omega
  rw [push, dropped]
  rfl

variable {memory : Fifo κ cap} {key other : κ}

/-- A new key enters a memory with room, or takes the place of the oldest key of a full one. -/
theorem push_cases (places : 0 < cap) (fresh : key ∉ memory.order) :
    (memory.order.length < cap ∧ push cap memory.order key = memory.order ++ [key]) ∨
      ∃ oldest rest, memory.order = oldest :: rest ∧ rest.length + 1 = cap ∧
        push cap memory.order key = rest ++ [key] ∧ oldest ∉ rest ++ [key] := by
  rcases Nat.lt_or_eq_of_le memory.bounded with room | full
  · exact .inl ⟨room, push_of_lt room⟩
  · right
    cases remembered : memory.order with
    | nil =>
      rw [remembered] at full
      exact absurd full (Nat.ne_of_lt places)
    | cons oldest rest =>
      have nodup := memory.nodup
      rw [remembered] at full nodup fresh
      refine ⟨oldest, rest, rfl, full, push_cons_of_full full, ?_⟩
      rw [List.mem_append, List.mem_singleton]
      rintro (later | rfl)
      · exact (List.nodup_cons.mp nodup).1 later
      · exact fresh List.mem_cons_self

/-- A new key at the back pushes out the key with no room left behind it, and no other. -/
theorem push_split (split : memory.order = before ++ key :: after) (fresh : other ∉ memory.order) :
    (after.length + 1 < cap ∧ ∃ before', push cap memory.order other = before' ++ key :: (after ++ [other])) ∨
      (after.length + 1 = cap ∧ key ∉ push cap memory.order other) := by
  have known : key ∈ memory.order := by rw [split]; exact List.mem_append_right _ List.mem_cons_self
  have places : 0 < cap := Nat.lt_of_lt_of_le (List.length_pos_of_mem known) memory.bounded
  rcases push_cases places fresh with ⟨room, pushed⟩ | ⟨oldest, rest, remembered, full, pushed, gone⟩
  · left
    rw [split, List.length_append, List.length_cons] at room
    refine ⟨by omega, before, ?_⟩
    rw [pushed, split, List.append_assoc, List.cons_append]
  · rw [split] at remembered
    cases before with
    | nil =>
      cases remembered
      exact .inr ⟨full, by rw [pushed]; exact gone⟩
    | cons first before =>
      left
      rw [List.cons_append] at remembered
      obtain ⟨-, rfl⟩ := List.cons.inj remembered
      rw [List.length_append, List.length_cons] at full
      refine ⟨by omega, before, ?_⟩
      rw [pushed, List.append_assoc, List.cons_append]

variable [DecidableEq κ]

def step (memory : Fifo κ cap) : Event κ → Fifo κ cap
  | .idle => memory
  | .touch key =>
    if fresh : key ∈ memory.order then memory
    else ⟨push cap memory.order key, nodup_push memory.nodup fresh, length_push ..⟩
  | .forget => empty

/-- The key the event brings into the memory, unless it is there already. -/
def arrival? (memory : Fifo κ cap) : Event κ → Option κ
  | .touch key => if key ∈ memory.order then none else some key
  | _ => none

theorem arrival?_eq_some : memory.arrival? event = some key ↔ event = .touch key ∧ key ∉ memory.order := by
  cases event with
  | idle => simp [arrival?]
  | forget => simp [arrival?]
  | touch other =>
    by_cases known : other ∈ memory.order
    · rw [arrival?, if_pos known]
      refine iff_of_false (by simp) ?_
      rintro ⟨same, fresh⟩
      cases same
      exact fresh known
    · rw [arrival?, if_neg known, Option.some.injEq, Event.touch.injEq]
      exact ⟨fun same => ⟨same, same ▸ known⟩, fun arrives => arrives.1⟩

section
variable (memory : Fifo κ cap)

/-- How many keys enter the memory in a run. -/
def arrivals (events : List (Event κ)) : Nat :=
  Run.count (fun memory event => (memory.arrival? event).isSome) step memory events

def run (events : List (Event κ)) : Fifo κ cap := events.foldl step memory

@[simp] theorem run_nil : memory.run [] = memory := rfl

@[simp] theorem run_cons (event : Event κ) (events : List (Event κ)) :
    memory.run (event :: events) = (memory.step event).run events := rfl

theorem run_append (first second : List (Event κ)) :
    memory.run (first ++ second) = (memory.run first).run second :=
  List.foldl_append

end

theorem order_step_touch (fresh : key ∉ memory.order) :
    (memory.step (.touch key)).order = push cap memory.order key := by
  rw [step, dif_neg fresh]

/-- The number of keys behind `key` in the memory. -/
def behind (memory : Fifo κ cap) (key : κ) : Nat := memory.order.length - 1 - memory.order.idxOf key

/-- The memory, seen from one of its keys. -/
theorem behind_eq (split : memory.order = before ++ key :: after) : memory.behind key = after.length := by
  have first : key ∉ before := by
    intro member
    have nodup := memory.nodup
    rw [split] at nodup
    exact (List.nodup_append.mp nodup).2.2 key member key List.mem_cons_self rfl
  rw [behind, split, List.idxOf_append_of_notMem first, List.idxOf_cons_self, List.length_append,
    List.length_cons]
  omega

theorem arrivals_singleton (event : Event κ) :
    memory.arrivals [event] = if (memory.arrival? event).isSome then 1 else 0 := rfl

theorem arrivals_cons (event : Event κ) (rest : List (Event κ)) :
    memory.arrivals (event :: rest) = memory.arrivals [event] + (memory.step event).arrivals rest := rfl

theorem arrivals_append (first second : List (Event κ)) :
    memory.arrivals (first ++ second) = memory.arrivals first + (memory.run first).arrivals second := by
  exact Run.count_append

theorem arrivals_of_nodup {keys : List κ} (distinct : keys.Nodup) (fresh : ∀ key ∈ keys, key ∉ memory.order) :
    memory.arrivals (keys.map .touch) = keys.length := by
  induction keys generalizing memory with
  | nil => rfl
  | cons key rest ih =>
    obtain ⟨first, others⟩ := List.nodup_cons.mp distinct
    have new : key ∉ memory.order := fresh key List.mem_cons_self
    rw [List.map_cons, arrivals_cons, arrivals_singleton, arrival?, if_neg new, ih others, List.length_cons,
      Nat.add_comm]
    · rfl
    · intro later member known
      rw [order_step_touch new] at known
      rcases List.mem_append.mp (List.mem_of_mem_drop known) with earlier | last
      · exact fresh later (List.mem_cons_of_mem _ member) earlier
      · exact first (List.mem_singleton.mp last ▸ member)

section
variable (known : key ∈ memory.order)
include known

theorem step_touch_of_mem : memory.step (.touch key) = memory :=
  dif_pos known

theorem behind_lt : memory.behind key < cap := by
  have := memory.bounded
  have := List.length_pos_of_mem known
  unfold behind
  omega

theorem mem_step_iff (kept : event ≠ .forget) :
    (key ∈ (memory.step event).order ↔ memory.behind key + memory.arrivals [event] < cap) ∧
      (key ∈ (memory.step event).order →
        (memory.step event).behind key = memory.behind key + memory.arrivals [event]) := by
  have room := behind_lt known
  cases event with
  | idle => exact ⟨iff_of_true known room, fun _ => rfl⟩
  | forget => exact absurd rfl kept
  | touch other =>
    rw [arrivals_singleton, arrival?]
    by_cases present : other ∈ memory.order
    · rw [step_touch_of_mem present, if_pos present]
      exact ⟨iff_of_true known room, fun _ => rfl⟩
    · rw [if_neg present]
      obtain ⟨before, after, split⟩ := List.append_of_mem known
      rw [order_step_touch present, behind_eq split]
      rcases push_split split present with ⟨enough, before', pushed⟩ | ⟨full, gone⟩
      · refine ⟨iff_of_true (by simp [pushed]) enough, ?_⟩
        intro _
        rw [behind_eq ((order_step_touch present).trans pushed)]
        simp
      · refine ⟨iff_of_false gone (by simp [full]), ?_⟩
        intro kept
        exact absurd kept gone

end

/-- A touched key is in the memory, at the back if it was not there before. -/
theorem behind_touch (room : 0 < cap) (fresh : key ∉ memory.order) :
    key ∈ (memory.step (.touch key)).order ∧ (memory.step (.touch key)).behind key = 0 := by
  have pushed : ∃ before, push cap memory.order key = before ++ [key] := by
    refine ⟨memory.order.drop ((memory.order ++ [key]).length - cap), ?_⟩
    rw [push, List.drop_append_of_le_length]
    rw [List.length_append, List.length_singleton]
    omega
  obtain ⟨before, pushed⟩ := pushed
  have split := (order_step_touch fresh).trans pushed
  rw [behind_eq split, split]
  simp

variable (events : List (Event κ))

theorem mem_run_of_room (known : key ∈ memory.order) (kept : .forget ∉ events)
    (room : memory.behind key + memory.arrivals events < cap) :
    key ∈ (memory.run events).order ∧
      (memory.run events).behind key = memory.behind key + memory.arrivals events := by
  induction events generalizing memory with
  | nil => exact ⟨known, rfl⟩
  | cons event rest ih =>
    rw [arrivals_cons] at room ⊢
    have here := mem_step_iff known fun same => kept (same ▸ List.mem_cons_self)
    have stays := here.1.mpr (by omega)
    obtain ⟨member, behind⟩ := ih stays (fun later => kept (List.mem_cons_of_mem _ later))
      (by rw [here.2 stays]; omega)
    exact ⟨member, by rw [run_cons, behind, here.2 stays, Nat.add_assoc]⟩

theorem not_mem_step (absent : key ∉ memory.order) (elsewhere : memory.arrival? event ≠ some key) :
    key ∉ (memory.step event).order := by
  cases event with
  | idle => exact absent
  | forget => exact List.not_mem_nil
  | touch other =>
    by_cases present : other ∈ memory.order
    · rwa [step_touch_of_mem present]
    · have differ : key ≠ other := by
        rintro rfl
        exact elsewhere (if_neg present)
      rw [order_step_touch present]
      intro member
      rcases List.mem_append.mp (List.mem_of_mem_drop member) with earlier | last
      · exact absent earlier
      · exact differ (List.mem_singleton.mp last)

theorem not_mem_run (absent : key ∉ memory.order)
    (stays : Run.Meets (fun memory event => memory.arrival? event ≠ some key) step memory events) :
    key ∉ (memory.run events).order := by
  have preserved : ∀ (memory : Fifo κ cap) (event : Event κ), key ∉ memory.order →
      memory.arrival? event ≠ some key → key ∉ (memory.step event).order :=
    fun _ _ => not_mem_step
  exact Run.invariant_of_meets preserved absent stays

/-- A remembered key that does not come back is there at the end of a run exactly when there was
room behind it. -/
theorem mem_run_iff_of_mem (known : key ∈ memory.order) (kept : .forget ∉ events)
    (once : Run.Meets (fun memory event => memory.arrival? event ≠ some key) step memory events) :
    key ∈ (memory.run events).order ↔ memory.behind key + memory.arrivals events < cap := by
  constructor
  · intro member
    induction events generalizing memory with
    | nil => exact behind_lt known
    | cons event rest ih =>
      have here := mem_step_iff known fun same => kept (same ▸ List.mem_cons_self)
      by_cases stays : key ∈ (memory.step event).order
      · have later := ih stays (fun later => kept (List.mem_cons_of_mem _ later)) once.2 member
        rw [here.2 stays] at later
        rwa [arrivals_cons, ← Nat.add_assoc]
      · exact absurd member (not_mem_run rest stays once.2)
  · intro room
    exact (mem_run_of_room events known kept room).1

/-- A key that was not remembered before a run is remembered after it exactly when since its last arrival
nothing was forgotten and fewer keys have arrived than the memory has places. -/
theorem mem_run_iff (room : 0 < cap) (events : List (Event κ)) (absent : key ∉ memory.order) :
    key ∈ (memory.run events).order ↔ ∃ before after, events = before ++ .touch key :: after ∧
      key ∉ (memory.run before).order ∧ .forget ∉ after ∧
      ((memory.run before).step (.touch key)).arrivals after < cap := by
  constructor
  · intro member
    induction events using List.reverseRecOn with
    | nil => exact absurd member absent
    | append_singleton events event ih =>
      rw [run_append, run_cons, run_nil] at member
      by_cases earlier : key ∈ (memory.run events).order
      · have kept : event ≠ .forget := by
          rintro rfl
          exact absurd member List.not_mem_nil
        obtain ⟨before, after, rfl, fresh, unforgotten, few⟩ := ih earlier
        refine ⟨before, after ++ [event], by simp, fresh, by simp [unforgotten, Ne.symm kept], ?_⟩
        obtain ⟨entered, last⟩ := behind_touch room fresh
        obtain ⟨-, behind⟩ := mem_run_of_room after entered unforgotten (by omega)
        rw [run_append, run_cons] at earlier member
        have stays := (mem_step_iff earlier kept).1.mp member
        rw [arrivals_append]
        omega
      · -- the key arrives with the last event
        cases event with
        | idle => exact absurd member earlier
        | forget => exact absurd member List.not_mem_nil
        | touch other =>
          obtain rfl : other = key := by
            by_contra differ
            have elsewhere : (memory.run events).arrival? (.touch other) ≠ some key := by
              show (if other ∈ (memory.run events).order then none else some other) ≠ some key
              split <;> simp [differ]
            exact not_mem_step earlier elsewhere member
          exact ⟨events, [], rfl, earlier, List.not_mem_nil, room⟩
  · rintro ⟨before, after, rfl, fresh, unforgotten, few⟩
    rw [run_append, run_cons]
    obtain ⟨entered, last⟩ := behind_touch room fresh
    exact (mem_run_of_room after entered unforgotten (by omega)).1

end Fifo
end UniversalMesh
