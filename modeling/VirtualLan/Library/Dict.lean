import Mathlib.Data.List.Nodup
import Mathlib.Data.List.Basic

/-! Insertion-ordered dictionaries. Keys are unique by construction, a store to
a new key goes to the end, and a store to a present key keeps its position. -/

namespace VirtualLan

universe u v

structure Dict (κ : Type u) (ν : Type v) where
  items : List (κ × ν)
  unique : (items.map Prod.fst).Nodup

namespace Dict
variable {κ : Type u} {ν : Type v}

@[ext] theorem ext {first second : Dict κ ν} (same : first.items = second.items) : first = second := by
  cases first
  cases second
  cases same
  rfl

instance [DecidableEq κ] [DecidableEq ν] : DecidableEq (Dict κ ν) := fun first second =>
  decidable_of_iff (first.items = second.items) ⟨ext, congrArg items⟩

def empty : Dict κ ν := ⟨[], List.nodup_nil⟩

def keys (dict : Dict κ ν) : List κ := dict.items.map Prod.fst

def values (dict : Dict κ ν) : List ν := dict.items.map Prod.snd

def size (dict : Dict κ ν) : Nat := dict.items.length

theorem mem_keys_iff {dict : Dict κ ν} {key : κ} :
    key ∈ dict.keys ↔ ∃ value, (key, value) ∈ dict.items := by
  simp [keys]

theorem mem_values_iff {dict : Dict κ ν} {value : ν} :
    value ∈ dict.values ↔ ∃ key, (key, value) ∈ dict.items := by
  simp [values]

theorem item_unique (dict : Dict κ ν) {key : κ} {first second : ν}
    (left : (key, first) ∈ dict.items) (right : (key, second) ∈ dict.items) : first = second := by
  have injective := List.inj_on_of_nodup_map dict.unique
  exact congrArg Prod.snd (injective left right rfl)

variable [DecidableEq κ]

def get? (dict : Dict κ ν) (key : κ) : Option ν := dict.items.lookup key

def contains (dict : Dict κ ν) (key : κ) : Bool := (dict.get? key).isSome

/-- A dictionary is its own graph, so lookups and item membership agree. -/
theorem get?_eq_some_iff {dict : Dict κ ν} {key : κ} {value : ν} :
    dict.get? key = some value ↔ (key, value) ∈ dict.items := by
  constructor
  · intro found
    obtain ⟨before, after, split, _⟩ := List.lookup_eq_some_iff.mp found
    simp [split]
  · intro member
    cases found : dict.get? key with
    | none =>
      have absent := List.lookup_eq_none_iff.mp found (key, value) member
      simp at absent
    | some other =>
      obtain ⟨before, after, split, _⟩ := List.lookup_eq_some_iff.mp found
      have inside : (key, other) ∈ dict.items := by simp [split]
      have same := dict.item_unique member inside
      rw [same]

theorem get?_eq_none_iff {dict : Dict κ ν} {key : κ} :
    dict.get? key = none ↔ key ∉ dict.keys := by
  rw [mem_keys_iff, Option.eq_none_iff_forall_ne_some]
  simp only [ne_eq, get?_eq_some_iff, not_exists]

theorem contains_iff {dict : Dict κ ν} {key : κ} :
    dict.contains key = true ↔ key ∈ dict.keys := by
  rw [contains, Option.isSome_iff_ne_none, ne_eq, get?_eq_none_iff, not_not]

theorem mem_values_iff_get? {dict : Dict κ ν} {value : ν} :
    value ∈ dict.values ↔ ∃ key, dict.get? key = some value := by
  simp only [mem_values_iff, get?_eq_some_iff]

@[simp] theorem get?_empty (key : κ) : (empty : Dict κ ν).get? key = none := rfl

def set (dict : Dict κ ν) (key : κ) (value : ν) : Dict κ ν :=
  if present : key ∈ dict.keys then
    ⟨dict.items.map (fun item => if item.1 = key then (key, value) else item), by
      have shape : ((fun item : κ × ν => item.1) ∘ fun item => if item.1 = key then (key, value) else item) =
          Prod.fst := by
        funext item
        simp only [Function.comp_apply]
        split
        next same => exact same.symm
        next => rfl
      simpa only [List.map_map, shape] using dict.unique⟩
  else
    ⟨dict.items ++ [(key, value)], by
      simp only [List.map_append, List.map_singleton, List.nodup_append]
      refine ⟨dict.unique, by simp, ?_⟩
      intro first member second single same
      rw [List.mem_singleton.mp single] at same
      exact present (same ▸ member)⟩

def erase (dict : Dict κ ν) (key : κ) : Dict κ ν :=
  ⟨dict.items.filter (fun item => item.1 ≠ key), (List.filter_sublist.map _).nodup dict.unique⟩

theorem items_set_of_absent (dict : Dict κ ν) {key : κ} (value : ν) (absent : key ∉ dict.keys) :
    (dict.set key value).items = dict.items ++ [(key, value)] := by
  simp [set, absent]

theorem mem_items_set {dict : Dict κ ν} {key : κ} {value : ν} {item : κ × ν} :
    item ∈ (dict.set key value).items ↔ item = (key, value) ∨ item ∈ dict.items ∧ item.1 ≠ key := by
  by_cases present : key ∈ dict.keys
  · simp only [set, present, dite_true, List.mem_map]
    constructor
    · rintro ⟨old, member, rfl⟩
      by_cases same : old.1 = key
      · simp [same]
      · simp [same, member]
    · rintro (rfl | ⟨member, other⟩)
      · obtain ⟨old, member⟩ := mem_keys_iff.mp present
        exact ⟨(key, old), member, by simp⟩
      · exact ⟨item, member, by simp [other]⟩
  · rw [items_set_of_absent dict value present, List.mem_append, List.mem_singleton]
    constructor
    · rintro (member | rfl)
      · refine Or.inr ⟨member, ?_⟩
        rintro rfl
        exact present (mem_keys_iff.mpr ⟨item.2, member⟩)
      · exact Or.inl rfl
    · rintro (rfl | ⟨member, _⟩)
      · exact Or.inr rfl
      · exact Or.inl member

theorem mem_items_erase {dict : Dict κ ν} {key : κ} {item : κ × ν} :
    item ∈ (dict.erase key).items ↔ item ∈ dict.items ∧ item.1 ≠ key := by
  simp [erase]

theorem get?_set (dict : Dict κ ν) (key other : κ) (value : ν) :
    (dict.set key value).get? other = if other = key then some value else dict.get? other := by
  apply Option.ext
  intro found
  rw [get?_eq_some_iff, mem_items_set]
  by_cases same : other = key
  · simp [same, eq_comm]
  · simp [same, get?_eq_some_iff]

theorem get?_erase (dict : Dict κ ν) (key other : κ) :
    (dict.erase key).get? other = if other = key then none else dict.get? other := by
  apply Option.ext
  intro found
  rw [get?_eq_some_iff, mem_items_erase]
  by_cases same : other = key
  · simp [same]
  · simp [same, get?_eq_some_iff]

theorem get?_of_erase {dict : Dict κ ν} {key other : κ} {value : ν}
    (found : (dict.erase key).get? other = some value) : other ≠ key ∧ dict.get? other = some value := by
  rw [get?_eq_some_iff, mem_items_erase] at found
  exact ⟨found.2, get?_eq_some_iff.mpr found.1⟩

theorem get?_set_eq_update (dict : Dict κ ν) (key : κ) (value : ν) :
    (dict.set key value).get? = Function.update dict.get? key (some value) := by
  funext other
  rw [get?_set, Function.update_apply]

theorem get?_erase_eq_update (dict : Dict κ ν) (key : κ) :
    (dict.erase key).get? = Function.update dict.get? key none := by
  funext other
  rw [get?_erase, Function.update_apply]

theorem mem_keys_set {dict : Dict κ ν} {key other : κ} {value : ν} :
    other ∈ (dict.set key value).keys ↔ other = key ∨ other ∈ dict.keys := by
  rw [← contains_iff, ← contains_iff, contains, contains, get?_set]
  by_cases same : other = key <;> simp [same]

theorem mem_keys_erase {dict : Dict κ ν} {key other : κ} :
    other ∈ (dict.erase key).keys ↔ other ≠ key ∧ other ∈ dict.keys := by
  rw [← contains_iff, ← contains_iff, contains, contains, get?_erase]
  by_cases same : other = key <;> simp [same]

theorem erase_of_absent (dict : Dict κ ν) {key : κ} (absent : key ∉ dict.keys) : dict.erase key = dict := by
  apply ext
  apply List.filter_eq_self.mpr
  intro item member
  rw [decide_eq_true_eq]
  rintro rfl
  exact absent (mem_keys_iff.mpr ⟨item.2, member⟩)

/-- Deleting a key that was just added restores the dictionary, order included. -/
theorem erase_set_of_absent (dict : Dict κ ν) {key : κ} (value : ν) (absent : key ∉ dict.keys) :
    (dict.set key value).erase key = dict := by
  have kept := congrArg items (erase_of_absent dict absent)
  apply ext
  simp only [erase] at kept ⊢
  rw [items_set_of_absent dict value absent, List.filter_append, kept]
  simp

theorem size_set_of_absent (dict : Dict κ ν) {key : κ} (value : ν) (absent : key ∉ dict.keys) :
    (dict.set key value).size = dict.size + 1 := by
  rw [size, items_set_of_absent dict value absent, List.length_append]
  rfl

theorem size_set_of_present (dict : Dict κ ν) {key : κ} (value : ν) (present : key ∈ dict.keys) :
    (dict.set key value).size = dict.size := by
  simp [size, set, present]

theorem size_erase_of_present (dict : Dict κ ν) {key : κ} (present : key ∈ dict.keys) :
    (dict.erase key).size + 1 = dict.size := by
  have counted : ∀ items : List (κ × ν), (items.map Prod.fst).Nodup → key ∈ items.map Prod.fst →
      (items.filter (fun item => item.1 ≠ key)).length + 1 = items.length := by
    intro items
    induction items with
    | nil => simp
    | cons item items ih =>
      intro distinct member
      simp only [List.map_cons, List.nodup_cons] at distinct
      by_cases same : item.1 = key
      · have rest : items.filter (fun item => item.1 ≠ key) = items := by
          apply List.filter_eq_self.mpr
          intro other inside
          rw [decide_eq_true_eq]
          intro equal
          exact distinct.1 (List.mem_map.mpr ⟨other, inside, equal.trans same.symm⟩)
        rw [List.filter_cons_of_neg (by simp [same]), rest]
        rfl
      · have inside : key ∈ items.map Prod.fst := by
          simpa only [List.map_cons, List.mem_cons, Ne.symm same, false_or] using member
        rw [List.filter_cons_of_pos (by simp [same]), List.length_cons, ih distinct.2 inside, List.length_cons]
  exact counted dict.items dict.unique present

end Dict

end VirtualLan
