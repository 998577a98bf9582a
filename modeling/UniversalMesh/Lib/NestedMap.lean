import UniversalMesh.Lib.OrderedMap

/-! Maps whose values are collections: an index that lists items under a key, and a family that files a map
under each key. What they hold is one relation each, and every operation has one lemma about it. Retaining items
drops the keys that are left with nothing. -/
namespace UniversalMesh.OrderedMap

variable {κ ι α β γ : Type} [LinearOrder κ] [LinearOrder ι]

/-- Every value replaced by what `change` makes of it. -/
def mapValues (map : OrderedMap κ β) (change : β → γ) : OrderedMap κ γ :=
  { entries := map.entries.map fun entry => (entry.1, change entry.2)
    sorted := List.pairwise_map.mpr map.sorted }

theorem mem_mapValues {map : OrderedMap κ β} :
    (key, value) ∈ map.mapValues change ↔ ∃ old, (key, old) ∈ map ∧ change old = value := by
  constructor
  · intro member
    obtain ⟨⟨found, old⟩, held, same⟩ := List.mem_map.mp member
    cases same
    exact ⟨old, held, rfl⟩
  · rintro ⟨old, held, rfl⟩
    exact List.mem_map.mpr ⟨(key, old), held, rfl⟩

/-! ### An index -/

variable (map : OrderedMap κ (List α))

/-- The item stands in the list of the key. -/
def Listed (key : κ) (item : α) : Prop :=
  ∃ items, (key, items) ∈ map ∧ item ∈ items

/-- `entry(key).or_default().push(item)`. -/
def push (key : κ) (item : α) : OrderedMap κ (List α) :=
  map.insert key ((map.get? key).getD [] ++ [item])

/-- The items that pass a test, under every key. -/
def retainItems (keep : α → Bool) : OrderedMap κ (List α) :=
  (map.mapValues fun items => items.filter keep).filter fun entry => !entry.2.isEmpty

/-- The items of one key that pass a test; its list may be left empty. -/
def retainAt (key : κ) (keep : α → Bool) : OrderedMap κ (List α) :=
  match map.get? key with
  | none => map
  | some items => map.insert key (items.filter keep)

section
variable {map : OrderedMap κ (List α)} {key other : κ} {item added : α}

theorem listed_iff : map.Listed key item ↔ item ∈ (map.get? key).getD [] := by
  constructor
  · rintro ⟨items, held, member⟩
    rw [get?_eq_some.mpr held]
    exact member
  · intro member
    cases found : map.get? key with
    | none => simp [found] at member
    | some items =>
      rw [found] at member
      exact ⟨items, get?_eq_some.mp found, member⟩

instance [DecidableEq α] : Decidable (map.Listed key item) := decidable_of_iff _ listed_iff.symm

theorem not_listed_empty : ¬ (empty : OrderedMap κ (List α)).Listed key item :=
  fun ⟨_, held, _⟩ => not_mem_empty held

theorem listed_push : (map.push other added).Listed key item ↔
    map.Listed key item ∨ key = other ∧ item = added := by
  rw [listed_iff, listed_iff, push, get?_insert]
  by_cases here : key = other
  · subst here
    simp
  · simp [here]

theorem listed_retainItems :
    (map.retainItems keep).Listed key item ↔ map.Listed key item ∧ keep item = true := by
  constructor
  · rintro ⟨items, held, member⟩
    obtain ⟨old, oldHeld, rfl⟩ := mem_mapValues.mp (mem_filter.mp held).1
    obtain ⟨oldMember, passes⟩ := List.mem_filter.mp member
    exact ⟨⟨old, oldHeld, oldMember⟩, passes⟩
  · rintro ⟨⟨items, held, member⟩, passes⟩
    have kept : item ∈ items.filter keep := List.mem_filter.mpr ⟨member, passes⟩
    refine ⟨_, mem_filter.mpr ⟨mem_mapValues.mpr ⟨items, held, rfl⟩, ?_⟩, kept⟩
    simp [List.ne_nil_of_mem kept]

theorem listed_retainAt : (map.retainAt other keep).Listed key item ↔
    map.Listed key item ∧ (key = other → keep item = true) := by
  unfold retainAt
  cases found : map.get? other with
  | none =>
    refine ⟨fun listed => ⟨listed, ?_⟩, And.left⟩
    rintro rfl
    rw [listed_iff, found] at listed
    cases listed
  | some items =>
    rw [listed_iff, listed_iff, get?_insert]
    by_cases here : key = other
    · subst here
      simp [found]
    · simp [here]

theorem listed_erase_of_empty (none : map.get? other = some []) :
    (map.erase other).Listed key item ↔ map.Listed key item := by
  rw [listed_iff, listed_iff, get?_erase]
  by_cases here : key = other
  · subst here
    simp [none]
  · simp [here]

end

/-! ### A family -/

variable (map : OrderedMap κ (OrderedMap ι β)) (outer : κ)

/-- The value is filed under the pair of keys. -/
def Filed (inner : ι) (value : β) : Prop :=
  ∃ filed, (outer, filed) ∈ map ∧ (inner, value) ∈ filed

/-- The map filed under a key, or the empty one (`entry(outer).or_default()`). -/
def filedAt : OrderedMap ι β :=
  (map.get? outer).getD empty

/-- `entry(outer).or_default().insert(inner, value)`. -/
def file (inner : ι) (value : β) : OrderedMap κ (OrderedMap ι β) :=
  map.insert outer ((map.filedAt outer).insert inner value)

/-- `get_mut(outer)` and `remove(inner)`. -/
def unfile (inner : ι) : OrderedMap κ (OrderedMap ι β) :=
  map.insert outer ((map.filedAt outer).erase inner)

/-- The filed values that pass a test, under every key. -/
def retainFiled (keep : β → Bool) : OrderedMap κ (OrderedMap ι β) :=
  (map.mapValues fun filed => filed.filter fun entry => keep entry.2).filter
    fun entry => !entry.2.entries.isEmpty

section
variable {map : OrderedMap κ (OrderedMap ι β)} {outer other : κ} {inner place : ι} {value added : β}

theorem filed_iff : map.Filed outer inner value ↔ (inner, value) ∈ map.filedAt outer := by
  unfold filedAt
  constructor
  · rintro ⟨filed, held, member⟩
    rw [get?_eq_some.mpr held]
    exact member
  · intro member
    cases found : map.get? outer with
    | none =>
      rw [found] at member
      exact absurd member not_mem_empty
    | some filed =>
      rw [found] at member
      exact ⟨filed, get?_eq_some.mp found, member⟩

theorem not_filed_empty : ¬ (empty : OrderedMap κ (OrderedMap ι β)).Filed outer inner value :=
  fun ⟨_, held, _⟩ => not_mem_empty held

theorem filedAt_insert :
    (map.insert other filed).filedAt outer = if outer = other then filed else map.filedAt outer := by
  unfold filedAt
  rw [get?_insert]
  split <;> rfl

theorem filed_file : (map.file other place added).Filed outer inner value ↔
    outer = other ∧ inner = place ∧ value = added ∨
      map.Filed outer inner value ∧ ¬ (outer = other ∧ inner = place) := by
  rw [filed_iff, filed_iff, file, filedAt_insert]
  by_cases here : outer = other
  · subst here
    rw [if_pos rfl, mem_insert]
    simp [Prod.ext_iff]
  · simp [here]

theorem filed_unfile : (map.unfile other place).Filed outer inner value ↔
    map.Filed outer inner value ∧ ¬ (outer = other ∧ inner = place) := by
  rw [filed_iff, filed_iff, unfile, filedAt_insert]
  by_cases here : outer = other
  · subst here
    rw [if_pos rfl, mem_erase]
    simp
  · simp [here]

theorem filed_erase : (map.erase other).Filed outer inner value ↔
    map.Filed outer inner value ∧ outer ≠ other := by
  constructor
  · rintro ⟨filed, held, member⟩
    obtain ⟨held, differs⟩ := mem_erase.mp held
    exact ⟨⟨filed, held, member⟩, differs⟩
  · rintro ⟨⟨filed, held, member⟩, differs⟩
    exact ⟨filed, mem_erase.mpr ⟨held, differs⟩, member⟩

theorem filed_retainFiled : (map.retainFiled keep).Filed outer inner value ↔
    map.Filed outer inner value ∧ keep value = true := by
  constructor
  · rintro ⟨filed, held, member⟩
    obtain ⟨old, oldHeld, rfl⟩ := mem_mapValues.mp (mem_filter.mp held).1
    obtain ⟨oldMember, passes⟩ := mem_filter.mp member
    exact ⟨⟨old, oldHeld, oldMember⟩, passes⟩
  · rintro ⟨⟨filed, held, member⟩, passes⟩
    have kept : (inner, value) ∈ filed.filter fun entry => keep entry.2 := mem_filter.mpr ⟨member, passes⟩
    refine ⟨_, mem_filter.mpr ⟨mem_mapValues.mpr ⟨filed, held, rfl⟩, ?_⟩, kept⟩
    simp [List.ne_nil_of_mem (mem_entries.mpr kept)]

end

end UniversalMesh.OrderedMap
