import Mathlib.Data.List.Lex
import Mathlib.Data.List.Nodup
import Mathlib.Data.List.Perm.Subperm
import Mathlib.Algebra.Order.Ring.Nat

/-! Finite maps with ordered keys, as the list of their entries in key order. The order makes the neighbour
queries of a search tree plain list operations; what a map holds is membership of an entry, and every operation
has one lemma that says so. -/
namespace UniversalMesh

structure OrderedMap (κ β : Type) [LinearOrder κ] where
  entries : List (κ × β)
  sorted : entries.Pairwise fun a b => a.1 < b.1
  deriving DecidableEq

namespace OrderedMap

variable {κ β : Type} [LinearOrder κ]

instance : Membership (κ × β) (OrderedMap κ β) := ⟨fun map entry => entry ∈ map.entries⟩

instance {map : OrderedMap κ β} {holds : κ × β → Prop} [DecidablePred holds] :
    Decidable (∀ entry ∈ map, holds entry) :=
  inferInstanceAs (Decidable (∀ entry ∈ map.entries, holds entry))

def empty : OrderedMap κ β := { entries := [], sorted := .nil }

def get? (map : OrderedMap κ β) (key : κ) : Option β :=
  (map.entries.find? fun entry => entry.1 = key).map Prod.snd

def erase (map : OrderedMap κ β) (key : κ) : OrderedMap κ β :=
  { entries := map.entries.filter fun entry => entry.1 ≠ key
    sorted := map.sorted.filter _ }

/-- Entries that pass a test (`retain`). -/
def filter (map : OrderedMap κ β) (keep : κ × β → Bool) : OrderedMap κ β :=
  { entries := map.entries.filter keep, sorted := map.sorted.filter _ }

section
variable (map : OrderedMap κ β) (key : κ)

/-- The entries below a key (`range(..key)`). -/
def below : OrderedMap κ β := map.filter fun entry => entry.1 < key

/-- The entries above a key. -/
def above : OrderedMap κ β := map.filter fun entry => key < entry.1

private theorem sorted_insert (value : β) :
    (map.entries.filter (fun entry => entry.1 < key) ++
      (key, value) :: map.entries.filter fun entry => key < entry.1).Pairwise
        fun a b => a.1 < b.1 := by
  refine List.pairwise_append.mpr ⟨map.sorted.filter _, List.pairwise_cons.mpr ⟨?_, map.sorted.filter _⟩, ?_⟩
  · intro entry member
    simpa using (List.mem_filter.mp member).2
  · intro low member high later
    have below : low.1 < key := by simpa using (List.mem_filter.mp member).2
    rcases List.mem_cons.mp later with rfl | later
    · exact below
    · have above : key < high.1 := by simpa using (List.mem_filter.mp later).2
      exact below.trans above

/-- The value of a key, replacing the one it had. -/
def insert (value : β) : OrderedMap κ β :=
  { entries := map.entries.filter (fun entry => entry.1 < key) ++
      (key, value) :: map.entries.filter fun entry => key < entry.1
    sorted := sorted_insert map key value }

def first? : Option (κ × β) := map.entries.head?

def last? : Option (κ × β) := map.entries.getLast?

/-- The last entry below a key (`range(..key).next_back()`). -/
def lastBelow? : Option (κ × β) :=
  (map.entries.filter fun entry => entry.1 < key).getLast?

/-- The last entry at or below a key (`range(..=key).next_back()`). -/
def lastUpTo? : Option (κ × β) :=
  (map.entries.filter fun entry => entry.1 ≤ key).getLast?

def size : Nat := map.entries.length

/-- The total of a measure of the values. -/
def sumBy (measure : β → Nat) : Nat :=
  (map.entries.map fun entry => measure entry.2).sum

end

variable {map : OrderedMap κ β} {key other : κ} {value old : β} {entry : κ × β}

theorem mem_entries : entry ∈ map.entries ↔ entry ∈ map := Iff.rfl

theorem not_mem_empty : entry ∉ (empty : OrderedMap κ β) := List.not_mem_nil

theorem mem_filter : entry ∈ map.filter keep ↔ entry ∈ map ∧ keep entry = true :=
  List.mem_filter

theorem mem_erase : entry ∈ map.erase key ↔ entry ∈ map ∧ entry.1 ≠ key := by
  show entry ∈ map.entries.filter _ ↔ entry ∈ map.entries ∧ _
  simp [List.mem_filter]

theorem mem_insert : entry ∈ map.insert key value ↔
    entry = (key, value) ∨ entry ∈ map ∧ entry.1 ≠ key := by
  show entry ∈ map.entries.filter _ ++ (key, value) :: map.entries.filter _ ↔
    entry = (key, value) ∨ entry ∈ map.entries ∧ entry.1 ≠ key
  rw [List.mem_append, List.mem_cons, List.mem_filter, List.mem_filter, ne_iff_lt_or_gt]
  simp only [decide_eq_true_eq]
  tauto

theorem mem_insertAll {added : List (κ × β)} (distinct : (added.map Prod.fst).Nodup) :
    entry ∈ added.foldl (fun map new => map.insert new.1 new.2) map ↔
      entry ∈ added ∨ entry ∈ map ∧ entry.1 ∉ added.map Prod.fst := by
  induction added generalizing map with
  | nil => simp
  | cons new rest ih =>
    obtain ⟨fresh, others⟩ := List.nodup_cons.mp distinct
    rw [List.foldl_cons, ih others, mem_insert, List.mem_cons, List.map_cons, List.mem_cons]
    constructor
    · rintro (later | ⟨rfl | ⟨held, differs⟩, absent⟩)
      · exact .inl (.inr later)
      · exact .inl (.inl rfl)
      · exact .inr ⟨held, not_or.mpr ⟨differs, absent⟩⟩
    · rintro ((rfl | later) | ⟨held, absent⟩)
      · exact .inr ⟨.inl rfl, fresh⟩
      · exact .inl later
      · exact .inr ⟨.inr ⟨held, (not_or.mp absent).1⟩, (not_or.mp absent).2⟩

theorem forall_mem_insert {holds : κ × β → Prop} (here : holds (key, value)) (rest : ∀ entry ∈ map, holds entry) :
    ∀ entry ∈ map.insert key value, holds entry := by
  intro entry member
  rcases mem_insert.mp member with rfl | ⟨held, -⟩
  · exact here
  · exact rest entry held

theorem keys_nodup (map : OrderedMap κ β) : (map.entries.map Prod.fst).Nodup :=
  List.pairwise_map.mpr (map.sorted.imp fun less => ne_of_lt less)

theorem mem_unique (first : (key, value) ∈ map) (second : (key, old) ∈ map) : value = old :=
  congrArg Prod.snd (List.inj_on_of_nodup_map map.keys_nodup first second rfl)

theorem get?_eq_some : map.get? key = some value ↔ (key, value) ∈ map := by
  unfold get?
  constructor
  · intro found
    obtain ⟨⟨found', value'⟩, located, rfl⟩ := Option.map_eq_some_iff.mp found
    have same : found' = key := by simpa using List.find?_some located
    exact same ▸ List.mem_of_find?_eq_some located
  · intro member
    cases located : map.entries.find? fun entry => entry.1 = key with
    | none => simpa using List.find?_eq_none.mp located _ member
    | some entry =>
      have same : entry.1 = key := by simpa using List.find?_some located
      have here : (key, entry.2) ∈ map := same ▸ List.mem_of_find?_eq_some located
      rw [Option.map_some, mem_unique here member]

theorem get?_eq_none : map.get? key = none ↔ ∀ value, (key, value) ∉ map := by
  simp only [← get?_eq_some, Option.eq_none_iff_forall_ne_some, ne_eq]

theorem ne_of_get?_eq_none (missing : map.get? key = none) (held : entry ∈ map) : entry.1 ≠ key :=
  fun here => get?_eq_none.mp missing entry.2 (here ▸ held)

theorem mem_insert_of_get?_eq_none (missing : map.get? key = none) :
    entry ∈ map.insert key value ↔ entry = (key, value) ∨ entry ∈ map := by
  rw [mem_insert, and_iff_left_of_imp (ne_of_get?_eq_none missing)]

theorem get?_insert :
    (map.insert key value).get? other = if other = key then some value else map.get? other := by
  ext found
  rw [get?_eq_some, mem_insert]
  split
  · next same => simp [same, eq_comm]
  · next differ => simp [differ, get?_eq_some]

@[simp] theorem get?_insert_self : (map.insert key value).get? key = some value := by
  rw [get?_insert, if_pos rfl]

theorem get?_insert_of_ne (differ : other ≠ key) : (map.insert key value).get? other = map.get? other := by
  rw [get?_insert, if_neg differ]

theorem get?_insert_eq_some : (map.insert key value).get? other = some old ↔
    other = key ∧ value = old ∨ other ≠ key ∧ map.get? other = some old := by
  rw [get?_insert]
  split
  · next same => simp [same]
  · next differ => simp [differ]

theorem forall_get?_insert {holds : κ → β → Prop} (here : holds key value)
    (rest : ∀ other old, map.get? other = some old → holds other old) (other : κ) (old : β)
    (found : (map.insert key value).get? other = some old) : holds other old := by
  rcases get?_insert_eq_some.mp found with ⟨rfl, rfl⟩ | ⟨-, held⟩
  · exact here
  · exact rest other old held

theorem isSome_get?_insert :
    ((map.insert key value).get? other).isSome = true ↔ other = key ∨ (map.get? other).isSome = true := by
  rw [get?_insert]
  split
  · next same => simp [same]
  · next differ => simp [differ]

theorem get?_filter_of_keep (kept : ∀ value, (key, value) ∈ map → keep (key, value) = true) :
    (map.filter keep).get? key = map.get? key := by
  ext value
  rw [get?_eq_some, get?_eq_some, mem_filter]
  exact ⟨fun found => found.1, fun member => ⟨member, kept value member⟩⟩

theorem get?_erase : (map.erase key).get? other = if other = key then none else map.get? other := by
  ext found
  rw [get?_eq_some, mem_erase]
  split
  · next same => simp [same]
  · next differ => simp [differ, get?_eq_some]

theorem get?_erase_eq_some :
    (map.erase key).get? other = some value ↔ other ≠ key ∧ map.get? other = some value := by
  rw [get?_erase]
  split
  · next same => simp [same]
  · next differ => simp [differ]

theorem isSome_get?_erase :
    ((map.erase key).get? other).isSome = true ↔ other ≠ key ∧ (map.get? other).isSome = true := by
  simp only [Option.isSome_iff_exists, get?_erase_eq_some, exists_and_left]

theorem get?_eraseAll (keys : List κ) :
    (keys.foldl erase map).get? key = if key ∈ keys then none else map.get? key := by
  induction keys generalizing map with
  | nil => rfl
  | cons first rest ih =>
    rw [List.foldl_cons, ih, get?_erase]
    by_cases here : key = first
    · simp [here]
    · simp [here]

theorem ext_mem (same : ∀ entry, entry ∈ map ↔ entry ∈ map') : map = map' := by
  have distinct : ∀ m : OrderedMap κ β, m.entries.Nodup := fun m =>
    m.sorted.imp fun less equal => absurd (congrArg Prod.fst equal) less.ne
  have entries : map.entries = map'.entries :=
    ((List.perm_ext_iff_of_nodup (distinct map) (distinct map')).mpr same).eq_of_pairwise
      (fun a b _ _ less more => absurd less (lt_asymm more)) map.sorted map'.sorted
  cases map
  cases map'
  simpa only [mk.injEq] using entries

theorem insert_of_get? (found : map.get? key = some value) : map.insert key value = map := by
  have held := get?_eq_some.mp found
  refine ext_mem fun entry => ?_
  rw [mem_insert]
  constructor
  · rintro (rfl | ⟨member, -⟩)
    · exact held
    · exact member
  · intro member
    by_cases here : entry.1 = key
    · have moved : (key, entry.2) ∈ map := here ▸ member
      exact .inl (Prod.ext here (mem_unique moved held))
    · exact .inr ⟨member, here⟩

theorem mem_iff_of_get? (found : map.get? key = some value) :
    entry ∈ map ↔ entry = (key, value) ∨ entry ∈ map.erase key := by
  rw [mem_erase, ← mem_insert, insert_of_get? found]

theorem erase_insert_self : (map.insert key value).erase key = map.erase key := by
  refine ext_mem fun entry => ?_
  rw [mem_erase, mem_insert, mem_erase]
  constructor
  · rintro ⟨rfl | ⟨member, -⟩, differ⟩
    · exact absurd rfl differ
    · exact ⟨member, differ⟩
  · rintro ⟨member, differ⟩
    exact ⟨.inr ⟨member, differ⟩, differ⟩

/-! Neighbour queries. -/

theorem entries_insert (map : OrderedMap κ β) (key : κ) (value : β) :
    (map.insert key value).entries = (map.below key).entries ++ (key, value) :: (map.above key).entries :=
  rfl

theorem first?_eq_some (found : map.first? = some entry) : entry ∈ map ∧ ∀ other ∈ map, entry.1 ≤ other.1 := by
  obtain ⟨rest, shape⟩ := List.head?_eq_some_iff.mp found
  have order := map.sorted
  rw [shape] at order
  refine ⟨by show entry ∈ map.entries; simp [shape], fun other member => ?_⟩
  have located : other ∈ entry :: rest := shape ▸ member
  rcases List.mem_cons.mp located with rfl | later
  · exact le_refl _
  · exact ((List.pairwise_cons.mp order).1 other later).le

theorem size_erase_lt (member : (key, value) ∈ map) : (map.erase key).size < map.size := by
  refine List.length_filter_lt_length_iff_exists.mpr ⟨(key, value), member, ?_⟩
  simp

theorem first?_eq_none (missing : map.first? = none) : entry ∉ map := by
  have empty : map.entries = [] := List.head?_eq_none_iff.mp missing
  show entry ∉ map.entries
  simp [empty]

private theorem getLast?_filter {entries : List (κ × β)}
    (sorted : entries.Pairwise fun a b => a.1 < b.1)
    (found : (entries.filter keep).getLast? = some entry) :
    (entry ∈ entries ∧ keep entry = true) ∧
      ∀ other ∈ entries, keep other = true → other.1 ≤ entry.1 := by
  obtain ⟨before, shape⟩ := List.getLast?_eq_some_iff.mp found
  have order := sorted.filter keep
  rw [shape] at order
  refine ⟨List.mem_filter.mp (by simp [shape]), fun other member kept => ?_⟩
  have located : other ∈ before ++ [entry] := shape ▸ List.mem_filter.mpr ⟨member, kept⟩
  rcases List.mem_append.mp located with earlier | here
  · exact ((List.pairwise_append.mp order).2.2 other earlier entry (by simp)).le
  · exact (congrArg Prod.fst (List.mem_singleton.mp here)).le

theorem lastBelow?_eq_some (found : map.lastBelow? key = some entry) :
    (entry ∈ map ∧ entry.1 < key) ∧ ∀ other ∈ map, other.1 < key → other.1 ≤ entry.1 := by
  simpa [mem_entries] using getLast?_filter map.sorted found

theorem lastBelow?_eq_none (missing : map.lastBelow? key = none) : ∀ other ∈ map, key ≤ other.1 := by
  have empty := List.filter_eq_nil_iff.mp (List.getLast?_eq_none_iff.mp missing)
  intro other member
  simpa using empty other member

theorem lastUpTo?_eq_some (found : map.lastUpTo? key = some entry) :
    (entry ∈ map ∧ entry.1 ≤ key) ∧ ∀ other ∈ map, other.1 ≤ key → other.1 ≤ entry.1 := by
  simpa [mem_entries] using getLast?_filter map.sorted found

theorem lastUpTo?_eq_none (missing : map.lastUpTo? key = none) : ∀ other ∈ map, key < other.1 := by
  have empty := List.filter_eq_nil_iff.mp (List.getLast?_eq_none_iff.mp missing)
  intro other member
  simpa using empty other member

/-! Totals. -/

@[simp] theorem sumBy_empty (measure : β → Nat) : (empty : OrderedMap κ β).sumBy measure = 0 := rfl

private theorem sum_partition (entries : List (κ × β)) (key : κ) (measure : β → Nat) :
    ((entries.filter fun entry => entry.1 < key).map fun entry => measure entry.2).sum +
      ((entries.filter fun entry => key < entry.1).map fun entry => measure entry.2).sum =
        ((entries.filter fun entry => entry.1 ≠ key).map fun entry => measure entry.2).sum := by
  induction entries with
  | nil => rfl
  | cons entry rest ih =>
    rcases lt_trichotomy entry.1 key with less | same | more
    · simp [less, less.ne, not_lt_of_gt less] at ih ⊢
      omega
    · simpa [same] using ih
    · simp [more, more.ne', not_lt_of_gt more] at ih ⊢
      omega

theorem sumBy_insert (map : OrderedMap κ β) (key : κ) (value : β) (measure : β → Nat) :
    (map.insert key value).sumBy measure = measure value + (map.erase key).sumBy measure := by
  have partition := sum_partition map.entries key measure
  simp only [sumBy, insert, erase, List.map_append, List.map_cons, List.sum_append, List.sum_cons]
  omega

theorem erase_erase_insert_insert (absent : map.get? key = none) (missing : map.get? other = none) :
    (((map.insert key value).insert other old).erase key).erase other = map := by
  refine ext_mem fun entry => ?_
  rw [mem_erase, mem_erase, mem_insert, mem_insert]
  constructor
  · rintro ⟨⟨rfl | ⟨rfl | ⟨held, -⟩, -⟩, notKey⟩, notOther⟩
    · exact absurd rfl notOther
    · exact absurd rfl notKey
    · exact held
  · intro held
    have notKey := ne_of_get?_eq_none absent held
    have notOther := ne_of_get?_eq_none missing held
    exact ⟨⟨.inr ⟨.inr ⟨held, notKey⟩, notOther⟩, notKey⟩, notOther⟩

theorem erase_of_get?_eq_none (missing : map.get? key = none) : map.erase key = map := by
  refine ext_mem fun entry => ?_
  rw [mem_erase, and_iff_left_of_imp (ne_of_get?_eq_none missing)]

theorem sumBy_erase (found : map.get? key = some old) (measure : β → Nat) :
    (map.erase key).sumBy measure + measure old = map.sumBy measure := by
  have put := sumBy_insert map key old measure
  rw [insert_of_get? found] at put
  rw [put, Nat.add_comm]

theorem sumBy_put (map : OrderedMap κ β) (key : κ) (value : β) (measure : β → Nat) :
    (map.insert key value).sumBy measure + ((map.get? key).map measure).getD 0 =
      map.sumBy measure + measure value := by
  rw [sumBy_insert]
  cases found : map.get? key with
  | none => simp [erase_of_get?_eq_none found, Nat.add_comm]
  | some old =>
    have taken := sumBy_erase found measure
    simp only [Option.map_some, Option.getD_some]
    omega

theorem size_insert (missing : map.get? key = none) : (map.insert key value).size = map.size + 1 := by
  have put := sumBy_put map key value fun _ => 1
  simpa [missing, sumBy, size] using put

theorem size_le_of_keys {γ : Type} {other : OrderedMap κ γ}
    (keys : ∀ key, (map.get? key).isSome = true → (other.get? key).isSome = true) : map.size ≤ other.size := by
  have within : map.entries.map Prod.fst ⊆ other.entries.map Prod.fst := by
    intro key member
    obtain ⟨entry, here, rfl⟩ := List.mem_map.mp member
    have found := keys entry.1 (Option.isSome_iff_exists.mpr ⟨entry.2, get?_eq_some.mpr here⟩)
    obtain ⟨value, there⟩ := Option.isSome_iff_exists.mp found
    exact List.mem_map.mpr ⟨(entry.1, value), get?_eq_some.mp there, rfl⟩
  have shorter := (List.Nodup.subperm map.keys_nodup within).length_le
  rwa [List.length_map, List.length_map] at shorter

theorem size_erase (found : map.get? key = some old) : (map.erase key).size + 1 = map.size := by
  have taken := sumBy_erase found fun _ => 1
  simpa [sumBy, size] using taken

end OrderedMap

/-! Bytes in the order of their values, so that lists of bytes, and lists of a fixed
length, are ordered lexicographically. -/

instance byteLinearOrder : LinearOrder UInt8 where
  le_refl := UInt8.le_refl
  le_trans _ _ _ := UInt8.le_trans
  lt_iff_le_not_ge a b := by
    rw [UInt8.lt_iff_toNat_lt, UInt8.le_iff_toNat_le, UInt8.le_iff_toNat_le]
    omega
  le_antisymm _ _ := UInt8.le_antisymm
  le_total a b := by
    rw [UInt8.le_iff_toNat_le, UInt8.le_iff_toNat_le]
    omega
  toDecidableLE := inferInstance
  toDecidableLT := inferInstance
  toDecidableEq := inferInstance

/-- The order in which a hash map is traversed. -/
structure Traversal (α : Type) where
  order : List α → List α
  perm : ∀ items, (order items).Perm items

/-- A traversal that meets one item first. -/
def Traversal.startingAt {α : Type} [DecidableEq α] (item : α) : Traversal α where
  order items := if item ∈ items then item :: items.erase item else items
  perm items := by
    split
    · exact (List.perm_cons_erase ‹_›).symm
    · exact .refl _

/-- The traversal in the order of the list. -/
def Traversal.asListed {α : Type} : Traversal α := ⟨id, .refl⟩

end UniversalMesh
