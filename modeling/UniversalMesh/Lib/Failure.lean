import UniversalMesh.Lib.ByteReader

/-! Which errors a computation can return, and loops that stop at the first one. `FailsOnly` composes along the
steps of a computation, so that a caller can tell the errors of one stage from those of another. -/
namespace UniversalMesh

variable {result : Except ε Unit} {ε α β : Type} {errors : ε → Prop}

/-- Every error the computation can return is one of `errors`. -/
def FailsOnly (errors : ε → Prop) (result : Except ε α) : Prop :=
  ∀ e, result = .error e → errors e

theorem mapError_ok {φ : Type} {result : Except ε α} {change : ε → φ} {value : α} :
    result.mapError change = .ok value ↔ result = .ok value := by
  cases result with
  | error e => simp [Except.mapError]
  | ok found => simp [Except.mapError]

theorem mapError_injective {φ : Type} {left right : Except ε α} {change : ε → φ}
    (apart : ∀ e e', change e = change e' → e = e')
    (same : left.mapError change = right.mapError change) : left = right := by
  cases left with
  | error e =>
    cases right with
    | error e' => exact congrArg _ (apart e e' (Except.error.inj same))
    | ok value => cases same
  | ok value =>
    cases right with
    | error e => cases same
    | ok value' => exact congrArg _ (Except.ok.inj same)

namespace FailsOnly

theorem ok (value : α) : FailsOnly errors (.ok value) := by
  intro e failed
  cases failed

theorem error (allowed : errors e) : FailsOnly errors (.error e : Except ε α) := by
  intro e' failed
  cases failed
  exact allowed

theorem refuse {cond : Bool} (allowed : errors e) : FailsOnly errors (UniversalMesh.refuse cond e) := by
  cases cond with
  | true => exact error allowed
  | false => exact ok ()

theorem bind (head : FailsOnly errors first)
    (tail : ∀ value, FailsOnly errors (next value)) : FailsOnly errors (first >>= next) := by
  cases first with
  | error e => exact error (head e rfl)
  | ok value => exact tail value

end FailsOnly

namespace Reader

/-- `FailsOnly` for a reader, wherever it stands. -/
def Fails (errors : ε → Prop) (reader : Reader ε UInt8 α) : Prop :=
  ∀ body pos, FailsOnly errors (reader body pos)

namespace Fails

theorem pure (value : α) : Fails errors (Pure.pure value : Reader ε UInt8 α) :=
  fun _ _ => .ok _

theorem bind (head : Fails errors first)
    (tail : ∀ value, Fails errors (next value)) : Fails errors (first >>= next) := by
  intro body pos e failed
  simp only [Bind.bind] at failed
  cases read : first body pos with
  | error e' =>
    rw [read] at failed
    cases failed
    exact head body pos e read
  | ok found =>
    rw [read] at failed
    exact tail found.1 body found.2 e failed

open ByteReader

variable {short : ε}

section
variable (allowed : errors short)
include allowed

theorem byte : Fails errors (byte short) := by
  intro body pos
  unfold ByteReader.byte
  split
  · exact .error allowed
  · exact .ok _

theorem slice (length : Nat) : Fails errors (slice short length) := by
  intro body pos
  unfold ByteReader.slice
  split
  · exact .ok _
  · exact .error allowed

theorem array (n : Nat) : Fails errors (array short n) := by
  intro body pos
  unfold ByteReader.array
  split
  · exact .ok _
  · exact .error allowed

theorem word64 : Fails errors (word64 short) :=
  (array allowed 8).bind fun _ => pure _

end

theorem lift {result : Except ε α} (allowed : FailsOnly errors result) : Fails errors (lift result) := by
  intro body pos e failed
  cases result with
  | error e' =>
    cases failed
    exact allowed e rfl
  | ok value => cases failed

end Fails

end Reader

theorem FailsOnly.decodeWhole (large : errors oversized) (left : errors trailing)
    (reads : reader.Fails errors) (checks : ∀ value, FailsOnly errors (check value)) (bytes : List UInt8) :
    FailsOnly errors (ByteReader.decodeWhole limit oversized trailing reader check bytes) :=
  (refuse large).bind fun _ => (reads bytes 0).bind fun _ => (refuse left).bind fun _ =>
    (checks _).bind fun _ => ok _

section Loop

variable {visit : α → Except ε Unit} {items : List α}

theorem forM_cons (item : α) (visit : α → Except ε Unit) :
    (item :: items).forM visit = visit item >>= fun _ => items.forM visit :=
  rfl

theorem forM_ok : items.forM visit = .ok () ↔ ∀ item ∈ items, visit item = .ok () := by
  induction items with
  | nil => simp [List.forM, pure, Except.pure]
  | cons item rest ih => rw [forM_cons, check_bind_ok, ih, List.forall_mem_cons]

/-- The first item the loop stops at. -/
def firstStop (visit : α → Except ε Unit) (items : List α) : Option α :=
  items.find? fun item => !(visit item).isOk

theorem isOk_iff : result.isOk = true ↔ result = .ok () := by
  cases result with
  | error e => simp [Except.isOk, Except.toBool]
  | ok passed => simp [Except.isOk, Except.toBool]

theorem exists_error_iff : (∃ e, result = .error e) ↔ ¬ result = .ok () := by
  cases result with
  | error e => simp
  | ok passed => simp

/-- A loop returns what it returns for the item it stops at. -/
theorem forM_eq_firstStop (visit : α → Except ε Unit) (items : List α) :
    items.forM visit = match firstStop visit items with
      | none => .ok ()
      | some item => visit item := by
  induction items with
  | nil => rfl
  | cons item rest ih =>
    rw [forM_cons]
    cases passed : visit item with
    | error e => simp [firstStop, passed, Except.isOk, Except.toBool, bind, Except.bind]
    | ok done =>
      rw [ok_bind, ih]
      simp [firstStop, passed, Except.isOk, Except.toBool]

variable {item : α} {read : α → Except ε β} {values : List β}

theorem firstStop_some (stop : firstStop visit items = some item) : item ∈ items ∧ visit item ≠ .ok () := by
  refine ⟨List.mem_of_find?_eq_some stop, fun passed => ?_⟩
  have fails := List.find?_some stop
  rw [passed] at fails
  cases fails

theorem forM_error_iff :
    items.forM visit = .error e ↔ ∃ item, firstStop visit items = some item ∧ visit item = .error e := by
  rw [forM_eq_firstStop]
  cases firstStop visit items with
  | none => simp
  | some item => simp

theorem stopped_of_forM_error (failed : items.forM visit = .error e) :
    ∃ item ∈ items, visit item = .error e := by
  obtain ⟨item, stop, fails⟩ := forM_error_iff.mp failed
  exact ⟨item, (firstStop_some stop).1, fails⟩

/-- Items left out of a loop do not show in its result exactly when the item the whole loop stops at is kept, or
what the kept items give is the same. -/
theorem forM_filter_eq_iff :
    items.forM visit = (items.filter keep).forM visit ↔
      ∀ item, firstStop visit items = some item → keep item = false →
        (items.filter keep).forM visit = visit item := by
  rw [forM_eq_firstStop visit items]
  cases stop : firstStop visit items with
  | none =>
    have passes : ∀ item ∈ items, visit item = .ok () := by
      intro item member
      simpa [isOk_iff] using List.find?_eq_none.mp stop item member
    have kept : (items.filter keep).forM visit = .ok () :=
      forM_ok.mpr fun item member => passes item (List.mem_of_mem_filter member)
    simp [kept]
  | some item =>
    by_cases kept : keep item = true
    · have same : firstStop visit (items.filter keep) = some item := by
        obtain ⟨fails, before, after, shape, earlier⟩ := List.find?_eq_some_iff_append.mp stop
        refine List.find?_eq_some_iff_append.mpr
          ⟨fails, before.filter keep, after.filter keep, ?_, fun other member => ?_⟩
        · rw [shape, List.filter_append, List.filter_cons_of_pos kept]
        · exact earlier other (List.mem_of_mem_filter member)
      have result := forM_eq_firstStop visit (items.filter keep)
      rw [same] at result
      simp [result, kept]
    · constructor
      · rintro equal _ ⟨⟩ -
        exact equal.symm
      · intro agrees
        exact (agrees item rfl (by simpa using kept)).symm

/-- Items left out of a traversal are left out of its result, and its failures are those of the items kept. -/
theorem mapM_filter (agrees : ∀ item ∈ items, ∀ value, read item = .ok value → keep item = keepRead value)
    (failing : ∀ item ∈ items, ∀ e, read item = .error e → keep item = true) :
    (items.filter keep).mapM read = (items.mapM read).map (List.filter keepRead) := by
  induction items with
  | nil => rfl
  | cons item rest ih =>
    have others := ih (fun other member => agrees other (List.mem_cons_of_mem _ member))
      fun other member => failing other (List.mem_cons_of_mem _ member)
    rw [List.mapM_cons]
    cases result : read item with
    | error e =>
      rw [List.filter_cons_of_pos (failing item List.mem_cons_self e result), List.mapM_cons, result]
      rfl
    | ok value =>
      have same := agrees item List.mem_cons_self value result
      rw [List.filter_cons, same]
      cases kept : keepRead value with
      | true =>
        rw [if_pos rfl, List.mapM_cons, result, others]
        cases rest.mapM read with
        | error e => rfl
        | ok values => simp [pure, Except.pure, Except.map, kept]
      | false =>
        rw [if_neg Bool.false_ne_true, others]
        cases rest.mapM read with
        | error e => rfl
        | ok values => simp [pure, Except.pure, Except.map, kept]

theorem mapM_cons_ok : (item :: rest).mapM read = .ok values ↔
      ∃ first others, read item = .ok first ∧ rest.mapM read = .ok others ∧ values = first :: others := by
  rw [List.mapM_cons, bind_ok]
  simp only [bind_ok, pure, Except.pure, Except.ok.injEq]
  constructor
  · rintro ⟨first, head, others, tail, made⟩
    exact ⟨first, others, head, tail, made.symm⟩
  · rintro ⟨first, others, head, tail, made⟩
    exact ⟨first, head, others, tail, made.symm⟩

theorem mapM_eq_map (known : ∀ item ∈ items, ∀ value, read item = .ok value → value = made item)
    (passed : items.mapM read = .ok values) : values = items.map made := by
  induction items generalizing values with
  | nil =>
    cases passed
    rfl
  | cons item rest ih =>
    obtain ⟨first, others, head, tail, rfl⟩ := mapM_cons_ok.mp passed
    obtain ⟨here, behind⟩ := List.forall_mem_cons.mp known
    rw [here first head, ih behind tail, List.map_cons]

theorem read_of_mapM_ok (passed : items.mapM read = .ok values) (member : item ∈ items) :
    ∃ value ∈ values, read item = .ok value := by
  induction items generalizing values with
  | nil => cases member
  | cons first rest ih =>
    obtain ⟨head, others, here, tail, rfl⟩ := mapM_cons_ok.mp passed
    rcases List.mem_cons.mp member with rfl | later
    · exact ⟨head, List.mem_cons_self, here⟩
    · obtain ⟨value, among, made⟩ := ih tail later
      exact ⟨value, List.mem_cons_of_mem _ among, made⟩

theorem mem_mapM_ok (passed : items.mapM read = .ok values) :
    value ∈ values ↔ ∃ item ∈ items, read item = .ok value := by
  induction items generalizing values with
  | nil =>
    cases passed
    simp
  | cons item rest ih =>
    obtain ⟨first, others, head, tail, rfl⟩ := mapM_cons_ok.mp passed
    simp [ih tail, head, eq_comm]

theorem mapM_of_forall (all : ∀ item ∈ items, ∃ value, read item = .ok value) :
    ∃ values, items.mapM read = .ok values := by
  induction items with
  | nil => exact ⟨[], rfl⟩
  | cons item rest ih =>
    obtain ⟨⟨first, head⟩, others⟩ := List.forall_mem_cons.mp all
    obtain ⟨values, tail⟩ := ih others
    exact ⟨first :: values, mapM_cons_ok.mpr ⟨first, values, head, tail, rfl⟩⟩

end Loop
end UniversalMesh
