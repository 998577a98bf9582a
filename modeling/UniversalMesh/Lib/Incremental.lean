
/-! Incremental parsing. `next` finds that it needs more bytes, that they are bad, or a first item. A parser is
stable if what it finds does not change when more bytes arrive behind. Then feeding a stream in chunks, each
behind what the earlier ones left, finds what one pass finds, and fails where it fails. -/
namespace UniversalMesh.Incremental

inductive Found (ε τ α : Type) where
  | more | bad (e : ε) | item (value : α) (rest : List τ)

variable {ε τ α σ : Type} {next : List τ → Found ε τ α}

structure Stable (next : List τ → Found ε τ α) : Prop where
  shrinks : ∀ {held value rest}, next held = .item value rest → rest.length < held.length
  bad : ∀ {held e}, next held = .bad e → ∀ later, next (held ++ later) = .bad e
  item : ∀ {held value rest}, next held = .item value rest →
    ∀ later, next (held ++ later) = .item value (rest ++ later)

/-- Items taken from the front until more bytes are needed, with what is left of the bytes. -/
def drain (next : List τ → Found ε τ α) : Nat → List τ → Except ε (List α) × List τ
  | 0, held => (.ok [], held)
  | turns + 1, held =>
    match next held with
    | .more => (.ok [], held)
    | .bad e => (.error e, held)
    | .item value rest =>
      let (items, left) := drain next turns rest
      (items.map (value :: ·), left)

/-- One pass over the bytes at hand: its items or its error, and the bytes it stopped at. -/
inductive Drains (next : List τ → Found ε τ α) : List τ → Except ε (List α) → List τ → Prop where
  | more {held} : next held = .more → Drains next held (.ok []) held
  | bad {held e} : next held = .bad e → Drains next held (.error e) held
  | item {held value rest result left} : next held = .item value rest →
    Drains next rest result left → Drains next held (result.map (value :: ·)) left

variable {held left : List τ} {result : Except ε (List α)}

theorem Drains.unique (first : Drains next held result left)
    (second : Drains next held result' left') : result = result' ∧ left = left' := by
  induction first generalizing result' left' with
  | more found =>
    cases second with
    | more _ => exact ⟨rfl, rfl⟩
    | bad other => simp [found] at other
    | item other _ => simp [found] at other
  | bad found =>
    cases second with
    | more other => simp [found] at other
    | bad other =>
      cases found.symm.trans other
      exact ⟨rfl, rfl⟩
    | item other _ => simp [found] at other
  | item found _ ih =>
    cases second with
    | more other => simp [found] at other
    | bad other => simp [found] at other
    | item other later =>
      cases found.symm.trans other
      obtain ⟨rfl, rfl⟩ := ih later
      exact ⟨rfl, rfl⟩

/-- A pass without an error stops where more bytes are needed. -/
theorem Drains.settled (drains : Drains next held result left) (ok : result = .ok items) :
    next left = .more := by
  induction drains generalizing items with
  | more found => exact found
  | bad _ => cases ok
  | @item held value rest result left found later ih =>
    cases result with
    | error e => cases ok
    | ok rest => exact ih rfl

/-- Chunks given to a stateful parser one after the other, up to the first error. -/
def feedChunks (feed : σ → List τ → Except ε (List α) × σ) : σ → List (List τ) → Except ε (List α × σ)
  | s, [] => .ok ([], s)
  | s, chunk :: chunks =>
    match feed s chunk with
    | (.error e, _) => .error e
    | (.ok items, s) => (feedChunks feed s chunks).map fun (others, s) => (items ++ others, s)

section
variable (stable : Stable next)
include stable

/-- Each turn takes at least one byte. -/
theorem drains_drain (enough : held.length < turns) :
    Drains next held (drain next turns held).1 (drain next turns held).2 := by
  induction turns generalizing held with
  | zero => exact absurd enough (Nat.not_lt_zero _)
  | succ turns ih =>
    rw [drain]
    cases found : next held with
    | more => exact .more found
    | bad e => exact .bad found
    | item value rest =>
      have shorter := stable.shrinks found
      exact .item found (ih (by omega))

/-- An error stays where it was found when more bytes arrive. -/
theorem Drains.append_error (drains : Drains next held result left)
    (failed : result = .error e) (later : List τ) : Drains next (held ++ later) (.error e) (left ++ later) := by
  induction drains generalizing e with
  | more _ => cases failed
  | bad found =>
    cases failed
    exact .bad (stable.bad found later)
  | @item held value rest result left found _ ih =>
    cases result with
    | error e' =>
      cases failed
      exact .item (stable.item found later) (ih rfl)
    | ok rest => cases failed

/-- A pass without an error is continued from what it left when more bytes arrive. -/
theorem Drains.append_ok (first : Drains next held result left)
    (ok : result = .ok items) (second : Drains next (left ++ later) result' left') :
    Drains next (held ++ later) (result'.map (items ++ ·)) left' := by
  induction first generalizing items with
  | more _ =>
    cases ok
    cases result' with
    | error e => exact second
    | ok others => exact second
  | bad _ => cases ok
  | @item held value rest result left found _ ih =>
    cases result with
    | error e => cases ok
    | ok rest =>
      cases ok
      have continued := Drains.item (stable.item found later) (ih rfl second)
      cases result' with
      | error e => exact continued
      | ok others => exact continued

/-- A parser that holds the bytes it has not used and passes over them with every chunk finds what one pass over
all the bytes finds. -/
theorem feedChunks_drains {held : σ → List τ} {sound : σ → Prop} (pass : ∀ s chunk, sound s → sound (feed s chunk).2 ∧
      Drains next (held s ++ chunk) (feed s chunk).1 (held (feed s chunk).2)) (chunks : List (List τ))
    (start : sound s) (settled : next (held s) = .more) :
    ∃ result left, Drains next (held s ++ chunks.flatten) result left ∧
      ((∃ e, result = .error e ∧ feedChunks feed s chunks = .error e) ∨
        ∃ items s', result = .ok items ∧ feedChunks feed s chunks = .ok (items, s') ∧ held s' = left ∧ sound s') := by
  induction chunks generalizing s with
  | nil =>
    rw [List.flatten_nil, List.append_nil]
    exact ⟨_, _, .more settled, .inr ⟨[], s, rfl, rfl, rfl, start⟩⟩
  | cons chunk chunks ih =>
    obtain ⟨kept, passed⟩ := pass s chunk start
    rw [List.flatten_cons, ← List.append_assoc, feedChunks]
    cases fed : feed s chunk with
    | mk result after =>
      rw [fed] at kept passed
      cases result with
      | error e => exact ⟨_, _, passed.append_error stable rfl _, .inl ⟨e, rfl, rfl⟩⟩
      | ok items =>
        obtain ⟨result, left, rest, outcome⟩ := ih kept (passed.settled rfl)
        refine ⟨_, _, passed.append_ok stable rfl rest, ?_⟩
        rcases outcome with ⟨e, rfl, failed⟩ | ⟨others, s', rfl, done, same, last⟩
        · exact .inl ⟨e, rfl, by dsimp only; rw [failed]; rfl⟩
        · exact .inr ⟨items ++ others, s', rfl, by dsimp only; rw [done]; rfl, same, last⟩

end

end UniversalMesh.Incremental
