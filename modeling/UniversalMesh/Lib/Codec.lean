import Mathlib.Data.List.Basic

/-! Codecs made of fields. A writer appends to the output built so far; a reader is given the whole body and its
position, and returns a value with the position behind it. `Reads` says that wherever a piece stands, the reader
returns the value and moves behind it; `Carries` says so of everything a writer appends. `Refuses` and `Spoils`
are their opposites. The rules compose them along an encoder and its decoder, one rule for each way the two are
written. -/
namespace UniversalMesh

variable {cond : Bool}

/-- A fallible reader of an `α` from a body of `τ`, threading the position. -/
def Reader (ε τ α : Type) := List τ → Nat → Except ε (α × Nat)

namespace Reader

variable {ε τ α β : Type}

instance : Monad (Reader ε τ) where
  pure value := fun _ pos => .ok (value, pos)
  bind first next := fun body pos =>
    match first body pos with
    | .error e => .error e
    | .ok (value, pos) => next value body pos

/-- Read from the start of the body. -/
def run (reader : Reader ε τ α) (body : List τ) : Except ε (α × Nat) := reader body 0

/-- `if cond { return Err(e) }`. -/
def refuseIf (cond : Bool) (e : ε) : Reader ε τ Unit :=
  fun _ pos => if cond then .error e else .ok ((), pos)

/-- Read a field that is there only under a flag. -/
def readIf (flag : Bool) (reader : Reader ε τ α) (absent : α) : Reader ε τ α :=
  if flag then reader else pure absent

/-- Read an optional field: `None` without the flag. -/
def readSome (flag : Bool) (reader : Reader ε τ α) : Reader ε τ (Option α) :=
  readIf flag (do let value ← reader; pure (some value)) none

/-- Read the same field a number of times. -/
def times : Nat → Reader ε τ α → Reader ε τ (List α)
  | 0, _ => pure []
  | count + 1, reader => do
    let first ← reader
    let others ← times count reader
    pure (first :: others)

variable {body : List τ} {next : α → Reader ε τ β}

theorem bind_run_ok : (first >>= next) body pos = .ok result ↔
      ∃ value mid, first body pos = .ok (value, mid) ∧ next value body mid = .ok result := by
  simp only [Bind.bind]
  cases first body pos with
  | error e => simp
  | ok read =>
    obtain ⟨value, mid⟩ := read
    simp

variable {reader : Reader ε τ α} {piece : List τ} {value : α} {items : List α}

theorem forall_of_times {holds : α → Prop}
    (each : ∀ body pos value mid, reader body pos = .ok (value, mid) → holds value)
    (read : times count reader body pos = .ok (items, mid)) : ∀ item ∈ items, holds item := by
  induction count generalizing pos items with
  | zero =>
    cases read
    simp
  | succ count ih =>
    obtain ⟨first, behind, head, read⟩ := bind_run_ok.mp read
    obtain ⟨others, last, tail, made⟩ := bind_run_ok.mp read
    cases made
    exact List.forall_mem_cons.mpr ⟨each _ _ _ _ head, ih tail⟩

/-- `piece` stands in `body` at position `pos`, followed by anything. -/
def Holds (body : List τ) (pos : Nat) (piece : List τ) : Prop :=
  pos ≤ body.length ∧ piece <+: body.drop pos

section
variable {body piece : List τ} {pos : Nat}

theorem Holds.append (held : Holds body pos (first ++ second)) :
    Holds body pos first ∧ Holds body (pos + first.length) second := by
  obtain ⟨within, rest, shape⟩ := held
  have size := congrArg List.length shape
  simp only [List.length_append, List.length_drop] at size
  refine ⟨⟨within, second ++ rest, ?_⟩, by omega, rest, ?_⟩
  · rw [← shape, List.append_assoc]
  · rw [← List.drop_drop, ← shape, List.append_assoc, List.drop_left]

theorem Holds.join (held : Holds body pos first)
    (behind : Holds body (pos + first.length) second) : Holds body pos (first ++ second) := by
  obtain ⟨within, rest, shape⟩ := held
  obtain ⟨-, others, follows⟩ := behind
  rw [← List.drop_drop, ← shape, List.drop_left] at follows
  exact ⟨within, others, by rw [← shape, ← follows, List.append_assoc]⟩

theorem Holds.whole (held : Holds body 0 piece) (size : piece.length = body.length) : piece = body :=
  held.2.eq_of_length size

section
variable (held : Holds body pos piece)
include held

theorem Holds.drop : ∃ rest, body.drop pos = piece ++ rest := by
  obtain ⟨-, rest, shape⟩ := held
  exact ⟨rest, shape.symm⟩

theorem Holds.take : (body.drop pos).take piece.length = piece :=
  (List.prefix_iff_eq_take.mp held.2).symm

theorem Holds.end_le : pos + piece.length ≤ body.length := by
  have bound := held.2.length_le
  rw [List.length_drop] at bound
  have := held.1
  omega

end

theorem Holds.head (held : Holds body pos (item :: rest)) : body[pos]? = some item := by
  obtain ⟨tail, shape⟩ := held.drop
  simpa [List.head?_drop] using congrArg List.head? shape

end

theorem refuseIf_run_ok : refuseIf cond e body pos = .ok ((), mid) ↔ cond = false ∧ mid = pos := by
  cases cond <;> simp [refuseIf, eq_comm]

/-- If every value stands where it was read from, so do all the values of a repeated field. -/
theorem times_run_ok {piece : α → List τ} (each : ∀ {body pos value mid}, reader body pos = .ok (value, mid) →
      Holds body pos (piece value) ∧ mid = pos + (piece value).length) (within : pos ≤ body.length)
    (read : times count reader body pos = .ok (items, mid)) :
    items.length = count ∧ Holds body pos (items.flatMap piece) ∧ mid = pos + (items.flatMap piece).length := by
  induction count generalizing pos items with
  | zero =>
    cases read
    exact ⟨rfl, ⟨within, List.nil_prefix⟩, rfl⟩
  | succ count ih =>
    obtain ⟨first, behind, head, read⟩ := bind_run_ok.mp read
    obtain ⟨others, last, tail, made⟩ := bind_run_ok.mp read
    cases made
    obtain ⟨here, rfl⟩ := each head
    obtain ⟨length, there, rfl⟩ := ih here.end_le tail
    refine ⟨by rw [List.length_cons, length], by rw [List.flatMap_cons]; exact here.join there, ?_⟩
    rw [List.flatMap_cons, List.length_append, Nat.add_assoc]

/-- The reader returns `value` and moves behind `piece` wherever it stands. -/
def Reads (reader : Reader ε τ α) (value : α) (piece : List τ) : Prop :=
  ∀ ⦃body : List τ⦄ ⦃pos : Nat⦄, Holds body pos piece →
    reader body pos = .ok (value, pos + piece.length)

namespace Reads

variable {reader : Reader ε τ α} {next : α → Reader ε τ β} {value : α} {result : β} {piece rest : List τ}

theorem pure : Reads (Pure.pure value : Reader ε τ α) value [] :=
  fun _ _ _ => rfl

theorem made (same : value = expected) : Reads (Pure.pure value : Reader ε τ α) expected [] :=
  same ▸ pure

theorem bind (first : Reads reader value piece) (follows : Reads (next value) result rest) :
    Reads (reader >>= next) result (piece ++ rest) := by
  intro body pos held
  obtain ⟨here, behind⟩ := held.append
  rw [List.length_append, ← Nat.add_assoc, ← follows behind]
  simp only [Bind.bind, first here]

theorem refuseIf (allowed : cond = false) : Reads (Reader.refuseIf cond e : Reader ε τ Unit) () [] := by
  intro body pos _
  simp [Reader.refuseIf, allowed]

theorem times {piece : α → List τ} (each : ∀ item ∈ items, Reads reader item (piece item)) :
    Reads (Reader.times items.length reader) items (items.flatMap piece) := by
  induction items with
  | nil => exact pure
  | cons item rest ih =>
    obtain ⟨first, others⟩ := List.forall_mem_cons.mp each
    rw [List.flatMap_cons, List.length_cons, ← List.append_nil (rest.flatMap piece)]
    exact first.bind ((ih others).bind .pure)

theorem run (reads : Reads reader value piece) (begins : piece <+: body) :
    Reader.run reader body = .ok (value, piece.length) := by
  have held : Holds body 0 piece := ⟨Nat.zero_le _, by simpa using begins⟩
  simpa [Reader.run] using reads held

end Reads

/-- The reader returns `value` when `piece` is all that is left of the body. -/
def ReadsToEnd (reader : Reader ε τ α) (value : α) (piece : List τ) : Prop :=
  ∀ ⦃body : List τ⦄ ⦃pos : Nat⦄, pos ≤ body.length → body.drop pos = piece →
    reader body pos = .ok (value, body.length)

theorem Reads.toEnd (reads : Reads reader value piece) : ReadsToEnd reader value piece := by
  intro body pos within left
  have size := congrArg List.length left
  rw [List.length_drop] at size
  have held : Holds body pos piece := ⟨within, [], by rw [left, List.append_nil]⟩
  rw [reads held, show body.length = pos + piece.length by omega]

theorem Reads.bindToEnd (first : Reads reader value piece)
    (follows : ReadsToEnd (next value) result rest) : ReadsToEnd (reader >>= next) result (piece ++ rest) := by
  intro body pos within left
  have held : Holds body pos piece := ⟨within, rest, left.symm⟩
  have behind : body.drop (pos + piece.length) = rest := by
    rw [← List.drop_drop, left, List.drop_left]
  rw [← follows held.end_le behind]
  simp only [Bind.bind, first held]

/-- The reader fails wherever `piece` stands. -/
def Refuses (reader : Reader ε τ α) (piece : List τ) : Prop :=
  ∀ ⦃body : List τ⦄ ⦃pos : Nat⦄, Holds body pos piece → ∃ e, reader body pos = .error e

namespace Refuses

variable {reader : Reader ε τ α} {next : α → Reader ε τ β} {value : α} {piece rest : List τ}

theorem bind (refuses : Refuses reader piece) : Refuses (reader >>= next) piece := by
  intro body pos held
  obtain ⟨e, failed⟩ := refuses held
  exact ⟨e, by simp only [Bind.bind, failed]⟩

theorem append (refuses : Refuses reader piece) : Refuses reader (piece ++ rest) :=
  fun _ _ held => refuses held.append.1

theorem after (first : Reads reader value piece) (refuses : Refuses (next value) rest) :
    Refuses (reader >>= next) (piece ++ rest) := by
  intro body pos held
  obtain ⟨here, behind⟩ := held.append
  obtain ⟨e, failed⟩ := refuses behind
  exact ⟨e, by simp only [Bind.bind, first here, failed]⟩

theorem refuseIf {next : Unit → Reader ε τ β} (fails : cond = true) :
    Refuses (Reader.refuseIf cond e >>= next) piece := by
  intro body pos _
  exact ⟨e, by simp [Bind.bind, Reader.refuseIf, fails]⟩

theorem run (refuses : Refuses reader piece) (begins : piece <+: body) :
    ∃ e, Reader.run reader body = .error e :=
  refuses ⟨Nat.zero_le _, by simpa using begins⟩

end Refuses

theorem ReadsToEnd.run (reads : ReadsToEnd reader value piece) :
    Reader.run reader piece = .ok (value, piece.length) :=
  reads (Nat.zero_le _) rfl

end Reader

/-- A fallible append to the output built so far. -/
abbrev Writer (ε τ : Type) := List τ → Except ε (List τ)

/-- An append that cannot fail. -/
def put (piece out : List τ) : Except ε (List τ) := .ok (out ++ piece)

/-- An append that is made only under a flag. -/
def putIf (present : Bool) (write : Writer ε τ) : Writer ε τ :=
  fun out => if present then write out else .ok out

/-- `if let Some(value) = field { .. }`. -/
def putSome (field : Option α) (write : α → Writer ε τ) : Writer ε τ :=
  match field with
  | none => fun out => .ok out
  | some value => write value

variable {result : β}

/-- A fallible step followed by the rest of the computation succeeds exactly
when both succeed. -/
theorem bind_ok {first : Except ε α} :
    (first >>= next) = .ok result ↔ ∃ value, first = .ok value ∧ next value = .ok result := by
  cases first with
  | error e => simp [bind, Except.bind]
  | ok value => simp [bind, Except.bind]

theorem check_bind_ok {check : Except ε Unit} :
    (check >>= next) = .ok result ↔ check = .ok () ∧ next () = .ok result := by
  cases check with
  | error e => simp [bind, Except.bind]
  | ok passed => simp [bind, Except.bind]

theorem ok_of_toOption {result : Except ε α} (found : result.toOption = some value) : result = .ok value := by
  cases result with
  | error e => cases found
  | ok made => exact congrArg Except.ok (Option.some.inj found)

@[simp] theorem ok_bind (value : α) (next : α → Except ε β) : (Except.ok value >>= next) = next value :=
  rfl

/-- `if cond { return Err(e) }` in an encoder. -/
def refuse (cond : Bool) (e : ε) : Except ε Unit := if cond then .error e else .ok ()

theorem refuse_ok : refuse cond e = .ok () ↔ cond = false := by
  cases cond <;> simp [refuse]

theorem refuse_bind_ok : (refuse cond e >>= rest) = .ok result ↔ cond = false ∧ rest () = .ok result := by
  cases cond <;> simp [refuse, bind, Except.bind]

variable (write : Writer ε τ)

/-- The output only grows, by a piece that something holds of. -/
def Writes (holds : List τ → Prop) : Prop :=
  ∀ ⦃out result : List τ⦄, write out = .ok result → ∃ piece, result = out ++ piece ∧ holds piece

namespace Writes

variable {ε τ : Type} {write rest : Writer ε τ} {holds behind both : List τ → Prop}

theorem bind (first : Writes write holds) (follows : Writes rest behind)
    (joined : ∀ piece others, holds piece → behind others → both (piece ++ others)) :
    Writes (fun out => write out >>= rest) both := by
  intro out result written
  obtain ⟨middle, wrote, continued⟩ := bind_ok.mp written
  obtain ⟨piece, rfl, here⟩ := first wrote
  obtain ⟨others, rfl, there⟩ := follows continued
  exact ⟨piece ++ others, List.append_assoc .., joined piece others here there⟩

theorem mono (writes : Writes write holds) (weaker : ∀ piece, holds piece → both piece) : Writes write both :=
  fun _ _ written => (writes written).imp fun piece => And.imp_right (weaker piece)

end Writes

variable (reader : Reader φ τ α)

/-- What `write` appends, `reader` reads back as `value`. -/
def Carries (value : α) : Prop :=
  ∀ ⦃out result : List τ⦄, write out = .ok result →
    ∃ piece, result = out ++ piece ∧ reader.Reads value piece

namespace Carries

variable {ε φ τ α β : Type} {write rest : Writer ε τ} {reader : Reader φ τ α}
variable {next : α → Reader φ τ β} {value : α} {result : β}

theorem bind (first : Carries write reader value) (follows : Carries rest (next value) result) :
    Carries (fun out => write out >>= rest) (reader >>= next) result :=
  Writes.bind first follows fun _ _ reads others => reads.bind others

theorem closing (field : Carries write reader value) (follows : (next value).Reads result []) :
    Carries write (reader >>= next) result := by
  refine Writes.mono field fun piece reads => ?_
  rw [← List.append_nil piece]
  exact reads.bind follows

theorem last {make : α → β} (field : Carries write reader value) (made : make value = result) :
    Carries write (reader >>= fun value => pure (make value)) result :=
  field.closing (.made made)

theorem allowed {next : Unit → Reader φ τ β} (passes : cond = false)
    (follows : Carries write (next ()) result) : Carries write (Reader.refuseIf cond e >>= next) result :=
  Writes.mono follows fun _ reads => (Reader.Reads.refuseIf passes).bind reads

theorem nothing (same : absent = value) :
    Carries (fun out => .ok out : Writer ε τ) (pure absent : Reader φ τ α) value := by
  intro out bytes written
  cases written
  exact ⟨[], (List.append_nil _).symm, .made same⟩

/-- An optional field, present on both sides or on neither. -/
theorem optional (same : flag = present) (field : present = true → Carries write reader value)
    (missing : present = false → absent = value) :
    Carries (putIf present write) (reader.readIf flag absent) value := by
  subst same
  cases flag with
  | true => exact field rfl
  | false => exact nothing (missing rfl)

theorem some {write : α → Writer ε τ} (each : ∀ value, Carries (write value) reader value) :
    Carries (putSome field write) (reader.readSome field.isSome) field := by
  cases field with
  | none => exact nothing rfl
  | some value => exact (each value).last rfl

theorem put (reads : reader.Reads value piece) :
    Carries (UniversalMesh.put piece : Writer ε τ) reader value := by
  intro out bytes written
  cases written
  exact ⟨piece, rfl, reads⟩

theorem times {item : β → Writer ε τ} {reader : Reader φ τ β} : ∀ {items : List β},
    (∀ entry ∈ items, Carries (item entry) reader entry) →
      Carries (fun out => items.foldlM (fun out entry => item entry out) out)
        (Reader.times items.length reader) items
  | [], _ => nothing rfl
  | entry :: items, each => by
    intro out bytes written
    simp only [List.foldlM_cons] at written
    have first := each entry List.mem_cons_self
    have others := times fun other member => each other (List.mem_cons_of_mem _ member)
    exact first.bind (others.last rfl) written

end Carries

/-- The output only grows. -/
def Appends : Prop :=
  ∀ ⦃out result : List τ⦄, write out = .ok result → ∃ piece, result = out ++ piece

namespace Appends

variable {ε τ β : Type} {write rest : Writer ε τ} {holds : List τ → Prop}

theorem of_writes (writes : Writes write holds) : Appends write :=
  fun _ _ written => (writes written).imp fun _ => And.left

theorem writes (appends : Appends write) : Writes write fun _ => True :=
  fun _ _ written => (appends written).imp fun _ grown => ⟨grown, trivial⟩

theorem bind (first : Appends write) (follows : Appends rest) : Appends fun out => write out >>= rest := by
  have both : Writes (fun out => write out >>= rest) fun _ => True :=
    first.writes.bind follows.writes fun _ _ _ _ => trivial
  exact .of_writes both

theorem times {item : β → Writer ε τ} : ∀ {items : List β}, (∀ entry ∈ items, Appends (item entry)) →
    Appends fun out => items.foldlM (fun out entry => item entry out) out
  | [], _ => by
    intro out result written
    cases written
    exact ⟨[], (List.append_nil _).symm⟩
  | entry :: items, each => by
    intro out result written
    simp only [List.foldlM_cons] at written
    have others := times fun other member => each other (List.mem_cons_of_mem _ member)
    exact (each entry List.mem_cons_self).bind others written

end Appends

theorem Carries.appends {write : Writer ε τ} {reader : Reader φ τ α} {value : α}
    (carries : Carries write reader value) : Appends write :=
  .of_writes carries

/-- What `write` appends, `reader` refuses. -/
def Spoils : Prop :=
  ∀ ⦃out result : List τ⦄, write out = .ok result → ∃ piece, result = out ++ piece ∧ reader.Refuses piece

namespace Spoils

variable {ε φ τ α β : Type} {write rest : Writer ε τ} {reader : Reader φ τ α}
variable {next : α → Reader φ τ β} {value : α}

theorem bind (first : Carries write reader value) (follows : Spoils rest (next value)) :
    Spoils (fun out => write out >>= rest) (reader >>= next) :=
  Writes.bind first follows fun _ _ reads refuses => .after reads refuses

theorem before (spoils : Spoils write reader) : Spoils write (reader >>= next) :=
  Writes.mono spoils fun _ refuses => refuses.bind

theorem first (spoils : Spoils write reader) (follows : Appends rest) :
    Spoils (fun out => write out >>= rest) (reader >>= next) :=
  Writes.bind spoils follows.writes fun _ _ refuses _ => refuses.append.bind

theorem closing (field : Carries write reader value) (follows : (next value).Refuses []) :
    Spoils write (reader >>= next) := by
  refine Writes.mono field fun piece reads => ?_
  rw [← List.append_nil piece]
  exact .after reads follows

variable {next : Unit → Reader φ τ β}

theorem allowed (passes : cond = false)
    (follows : Spoils write (next ())) : Spoils write (Reader.refuseIf cond e >>= next) :=
  Writes.mono follows fun _ refuses => .after (Reader.Reads.refuseIf passes) refuses

theorem refused (fails : cond = true)
    (appends : Appends write) : Spoils write (Reader.refuseIf cond e >>= next) :=
  appends.writes.mono fun _ _ => .refuseIf fails

/-- A list of items, one of which is refused and the others refused or read back. -/
theorem times {item : β → Writer ε τ} {reader : Reader φ τ β} : ∀ {items : List β},
    (∀ entry ∈ items, Carries (item entry) reader entry ∨ Spoils (item entry) reader) →
      (∃ entry ∈ items, Spoils (item entry) reader) →
      Spoils (fun out => items.foldlM (fun out entry => item entry out) out) (Reader.times items.length reader)
  | [], _, bad => by simp at bad
  | entry :: items, each, bad => by
    intro out result written
    simp only [List.foldlM_cons] at written
    obtain ⟨here, others⟩ := List.forall_mem_cons.mp each
    have appends : ∀ other ∈ items, Appends (item other) :=
      fun other member => (others other member).elim .of_writes .of_writes
    obtain ⟨spoilt, member, spoils⟩ := bad
    obtain rfl | later := List.mem_cons.mp member
    · exact first spoils (.times appends) written
    · have rest := times others ⟨spoilt, later, spoils⟩
      obtain carries | spoils := here
      · exact bind carries rest.before written
      · exact first spoils (.times appends) written

end Spoils

/-- What `write` appends, `reader` reads back as `value` if nothing follows. -/
def CarriesToEnd (value : α) : Prop :=
  ∀ ⦃out result : List τ⦄, write out = .ok result →
    ∃ piece, result = out ++ piece ∧ reader.ReadsToEnd value piece

namespace CarriesToEnd

variable {ε φ τ α β : Type} {write rest : Writer ε τ} {reader : Reader φ τ α}
variable {next : α → Reader φ τ β} {value : α} {result : β}

theorem bind (first : Carries write reader value) (follows : CarriesToEnd rest (next value) result) :
    CarriesToEnd (fun out => write out >>= rest) (reader >>= next) result :=
  Writes.bind first follows fun _ _ reads others => reads.bindToEnd others

theorem allowed {next : Unit → Reader φ τ β} (passes : cond = false)
    (follows : CarriesToEnd write (next ()) result) :
    CarriesToEnd write (Reader.refuseIf cond e >>= next) result :=
  Writes.mono follows fun _ reads => (Reader.Reads.refuseIf passes).bindToEnd reads

end CarriesToEnd
end UniversalMesh
