import UniversalMesh.Lib.Codec

/-! A depth-first search with a bound on the depth, which never enters a node of its current path twice. The
test of a node and the list of its successors may fail. A search that ends without an error finds a goal exactly
when some walk within the bound leads to one: a walk can be cut at the nodes it repeats. -/
namespace UniversalMesh.BoundedSearch

section
variable {α ε : Type} [DecidableEq α] (goal : α → Except ε Bool) (next : α → Except ε (List α))

/-- Search from a node, behind a path, with so many nodes left. -/
def search : Nat → List α → α → Except ε Bool
  | 0, _, _ => .ok false
  | left + 1, path, node =>
    if node ∈ path then .ok false
    else do
      let reached ← goal node
      if reached then .ok true
      else do
        let nodes ← next node
        nodes.anyM (search left (path ++ [node]))

end

variable {α ε : Type} {goal : α → Except ε Bool} {next : α → Except ε (List α)}

/-- A walk from a node over successors to a goal; the list is what follows the node. -/
inductive Leads (goal : α → Except ε Bool) (next : α → Except ε (List α)) : α → List α → Prop where
  | here {node : α} (reached : goal node = .ok true) : Leads goal next node []
  | step {node other : α} {rest nodes : List α} (successors : next node = .ok nodes) (member : other ∈ nodes)
      (onward : Leads goal next other rest) : Leads goal next node (other :: rest)

theorem anyM_cons (test : α → Except ε Bool) (item : α) :
    (item :: rest).anyM test = test item >>= fun found => if found then .ok true else rest.anyM test := by
  rw [List.anyM]
  congr 1
  funext found
  cases found <;> rfl

variable {test : α → Except ε Bool}

theorem exists_of_anyM {items : List α} (found : items.anyM test = .ok true) :
    ∃ item ∈ items, test item = .ok true := by
  induction items with
  | nil => cases found
  | cons item rest ih =>
    rw [anyM_cons, bind_ok] at found
    obtain ⟨here, tested, found⟩ := found
    cases here with
    | true => exact ⟨item, List.mem_cons_self, tested⟩
    | false =>
      obtain ⟨other, member, passes⟩ := ih found
      exact ⟨other, List.mem_cons_of_mem _ member, passes⟩

theorem forall_of_anyM {items : List α} (missed : items.anyM test = .ok false) :
    ∀ item ∈ items, test item = .ok false := by
  induction items with
  | nil => simp
  | cons item rest ih =>
    rw [anyM_cons, bind_ok] at missed
    obtain ⟨here, tested, missed⟩ := missed
    cases here with
    | true => cases missed
    | false => exact List.forall_mem_cons.mpr ⟨tested, ih missed⟩

namespace Leads
variable {node other : α} {rest : List α}

/-- A walk leads on from each of its nodes. -/
theorem onwards (walk : Leads goal next other rest) (member : node ∈ other :: rest) :
    ∃ tail, Leads goal next node tail ∧ node :: tail <:+ other :: rest := by
  induction walk with
  | here reached =>
    rcases List.mem_singleton.mp member with rfl
    exact ⟨[], .here reached, List.suffix_refl _⟩
  | @step other onto rest nodes successors listed onward ih =>
    rcases List.mem_cons.mp member with rfl | later
    · exact ⟨onto :: rest, .step successors listed onward, List.suffix_refl _⟩
    · obtain ⟨tail, walk, suffix⟩ := ih later
      exact ⟨tail, walk, suffix.trans (List.suffix_cons _ _)⟩

theorem simple (walk : Leads goal next node rest) :
    ∃ short, Leads goal next node short ∧ short.length ≤ rest.length ∧ (node :: short).Nodup := by
  classical
  induction walk with
  | here reached => exact ⟨[], .here reached, Nat.le_refl _, List.nodup_cons.mpr ⟨List.not_mem_nil, .nil⟩⟩
  | @step node other rest nodes successors member onward ih =>
    obtain ⟨short, walk, shorter, distinct⟩ := ih
    by_cases again : node ∈ other :: short
    · obtain ⟨tail, cut, suffix⟩ := walk.onwards again
      have length := suffix.length_le
      refine ⟨tail, cut, ?_, distinct.sublist suffix.sublist⟩
      simp only [List.length_cons] at length ⊢
      omega
    · refine ⟨other :: short, .step successors member walk, ?_, List.nodup_cons.mpr ⟨again, distinct⟩⟩
      exact Nat.succ_le_succ shorter

end Leads

variable [DecidableEq α] {node : α} {path rest : List α} {left : Nat} {found : Bool}

theorem leads_of_search (success : search goal next left path node = .ok true) :
    ∃ rest, Leads goal next node rest ∧ rest.length < left := by
  induction left generalizing path node with
  | zero => cases success
  | succ left ih =>
    rw [search] at success
    split at success
    case isTrue => cases success
    case isFalse =>
      obtain ⟨reached, tested, success⟩ := bind_ok.mp success
      cases reached with
      | true => exact ⟨[], .here tested, Nat.succ_pos _⟩
      | false =>
        obtain ⟨nodes, successors, success⟩ := bind_ok.mp success
        obtain ⟨other, member, passes⟩ := exists_of_anyM success
        obtain ⟨rest, walk, short⟩ := ih passes
        exact ⟨other :: rest, .step successors member walk, Nat.succ_lt_succ short⟩

/-- A search that misses has no walk within its bound that avoids its path and repeats no node. -/
theorem not_leads_of_search (missed : search goal next left path node = .ok false)
    (walk : Leads goal next node rest) (short : rest.length < left) (distinct : (node :: rest).Nodup) :
    ∃ visited ∈ node :: rest, visited ∈ path := by
  induction left generalizing path node rest with
  | zero => cases short
  | succ left ih =>
    rw [search] at missed
    split at missed
    case isTrue again => exact ⟨node, List.mem_cons_self, again⟩
    case isFalse =>
      obtain ⟨reached, tested, missed⟩ := bind_ok.mp missed
      cases reached with
      | true => cases missed
      | false =>
        obtain ⟨nodes, successors, missed⟩ := bind_ok.mp missed
        cases walk with
        | here reached =>
          rw [tested] at reached
          cases reached
        | @step _ other rest nodes' successors' member onward =>
          rw [successors, Except.ok.injEq] at successors'
          have below := forall_of_anyM missed other (successors' ▸ member)
          obtain ⟨fresh, others⟩ := List.nodup_cons.mp distinct
          obtain ⟨visited, onWalk, onPath⟩ := ih below onward (Nat.lt_of_succ_lt_succ short) others
          -- The path below holds the node itself, which the rest of the walk does not repeat.
          rcases List.mem_append.mp onPath with before | here
          · exact ⟨visited, List.mem_cons_of_mem _ onWalk, before⟩
          · exact absurd (List.mem_singleton.mp here ▸ onWalk) fresh

/-- A search from the start finds a goal exactly when a walk within its bound leads to one. -/
theorem search_iff (ended : search goal next left [] node = .ok found) :
    found = true ↔ ∃ rest, Leads goal next node rest ∧ rest.length < left := by
  constructor
  · rintro rfl
    exact leads_of_search ended
  · rintro ⟨rest, walk, within⟩
    obtain ⟨short, cut, shorter, distinct⟩ := walk.simple
    cases found with
    | true => rfl
    | false =>
      obtain ⟨visited, -, onPath⟩ := not_leads_of_search ended cut (Nat.lt_of_le_of_lt shorter within) distinct
      exact absurd onPath List.not_mem_nil

end UniversalMesh.BoundedSearch
