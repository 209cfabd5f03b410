import Mathlib.Data.List.Basic

/-! Sequences that repeat what they held some distance before. Copying in blocks
that are no longer than the distance continues the repetition, and so does copying
from a multiple of the distance, once enough of it is there. -/

namespace VirtualLan.Repetition

universe u
variable {α : Type u} {data : List α} {distance count more : Nat}

/-- The next items of a sequence that goes on as it did `distance` items before. -/
def again (distance : Nat) : Nat → List α → List α
  | 0, _ => []
  | count + 1, data =>
    match data[data.length - distance]? with
    | none => []
    | some item => item :: again distance count (data ++ [item])

/-- The distance reaches back into the sequence. -/
structure Within (distance : Nat) (data : List α) : Prop where
  positive : 0 < distance
  reaches : distance ≤ data.length

theorem Within.append (within : Within distance data) (later : List α) : Within distance (data ++ later) where
  positive := within.positive
  reaches := by
    rw [List.length_append]
    exact Nat.le_trans within.reaches (Nat.le_add_right _ _)

theorem Within.item (within : Within distance data) : ∃ item, data[data.length - distance]? = some item := by
  have positive := within.positive
  have reaches := within.reaches
  exact ⟨_, List.getElem?_eq_getElem (by omega)⟩

theorem again_succ (within : Within distance data) (count : Nat) : ∃ item,
    data[data.length - distance]? = some item ∧
      again distance (count + 1) data = item :: again distance count (data ++ [item]) := by
  obtain ⟨item, found⟩ := within.item
  exact ⟨item, found, by rw [again, found]⟩

theorem length_again (within : Within distance data) (count : Nat) : (again distance count data).length = count := by
  induction count generalizing data with
  | zero => rfl
  | succ count ih =>
    obtain ⟨item, _, next⟩ := again_succ within count
    rw [next, List.length_cons, ih (within.append [item])]

theorem again_add (within : Within distance data) (count more : Nat) : again distance (count + more) data =
    again distance count data ++ again distance more (data ++ again distance count data) := by
  induction count generalizing data with
  | zero => rw [Nat.zero_add, again, List.append_nil, List.nil_append]
  | succ count ih =>
    obtain ⟨item, found, next⟩ := again_succ within count
    have longer : again distance (count + 1 + more) data = item :: again distance (count + more) (data ++ [item]) := by
      rw [Nat.add_right_comm, again, found]
    rw [longer, next, ih (within.append [item]), List.cons_append, List.append_assoc, List.singleton_append]

theorem take_again (within : Within distance data) (fewer : more ≤ count) :
    (again distance count data).take more = again distance more data := by
  obtain ⟨rest, rfl⟩ := Nat.exists_eq_add_of_le fewer
  rw [again_add within]
  exact List.take_left' (length_again within more)

/-- As long as it does not reach what it adds, a repetition is a copy. -/
theorem again_short (within : Within distance data) (short : count ≤ distance) :
    again distance count data = (data.drop (data.length - distance)).take count := by
  induction count with
  | zero => rfl
  | succ count ih =>
    have earlier := ih (Nat.le_of_succ_le short)
    obtain ⟨item, found, next⟩ := again_succ (within.append (again distance count data)) 0
    have size := length_again within count
    have before : data.length - distance + count < data.length := by
      have reaches := within.reaches
      omega
    have place : (data ++ again distance count data).length - distance = data.length - distance + count := by
      have reaches := within.reaches
      rw [List.length_append, size]
      omega
    rw [place, List.getElem?_append_left before] at found
    rw [again_add within count 1, next, earlier, List.take_add_one, List.getElem?_drop, found]
    rfl

/-- What was added repeats what stood a distance before. -/
theorem getElem?_again (within : Within distance data) {index : Nat} (behind : data.length ≤ index)
    (inside : index < data.length + count) :
    (data ++ again distance count data)[index]? = (data ++ again distance count data)[index - distance]? := by
  induction count with
  | zero => omega
  | succ count ih =>
    obtain ⟨item, found, next⟩ := again_succ (within.append (again distance count data)) 0
    have size : (data ++ again distance count data).length = data.length + count := by
      rw [List.length_append, length_again within]
    have positive := within.positive
    have reaches := within.reaches
    have old : ∀ place < data.length + count, ((data ++ again distance count data) ++
        item :: again distance 0 (data ++ again distance count data ++ [item]))[place]? =
        (data ++ again distance count data)[place]? := by
      intro place before
      apply List.getElem?_append_left
      omega
    rw [again_add within count 1, next, ← List.append_assoc, old (index - distance) (by omega)]
    by_cases last : index = data.length + count
    · subst last
      rw [size] at found
      rw [List.getElem?_append_right (Nat.le_of_eq size), size, Nat.sub_self, found]
      rfl
    · rw [old index (by omega)]
      exact ih (by omega)

/-- Whatever repeats what stood a distance before is the repetition. -/
theorem eq_again (within : Within distance data) {later : List α}
    (same : ∀ index < later.length, (data ++ later)[data.length + index]? = (data ++ later)[data.length + index - distance]?) :
    later = again distance later.length data := by
  induction later generalizing data with
  | nil => rfl
  | cons item later ih =>
    obtain ⟨other, found, next⟩ := again_succ within later.length
    have positive := within.positive
    have reaches := within.reaches
    have first := same 0 (Nat.succ_pos _)
    rw [Nat.add_zero, List.getElem?_append_right (Nat.le_refl _), Nat.sub_self,
      List.getElem?_append_left (by omega : data.length - distance < data.length), found] at first
    obtain rfl : item = other := Option.some.inj first
    rw [List.length_cons, next]
    congr 1
    apply ih (within.append [item])
    intro index inside
    have moved := same (index + 1) (Nat.succ_lt_succ inside)
    rw [List.append_assoc, List.length_append, List.length_singleton, List.singleton_append]
    rwa [Nat.add_comm index 1, ← Nat.add_assoc] at moved

theorem getElem?_again_back (within : Within distance data) (steps : Nat)
    (room : steps * distance ≤ count) :
    (data ++ again distance count data)[data.length + count - distance - steps * distance]? =
      (data ++ again distance count data)[data.length + count - distance]? := by
  have positive := within.positive
  have reaches := within.reaches
  induction steps with
  | zero => rw [Nat.zero_mul, Nat.sub_zero]
  | succ steps ih =>
    rw [Nat.succ_mul] at room
    have back : data.length + count - distance - (steps + 1) * distance =
        data.length + count - distance - steps * distance - distance := by
      rw [Nat.succ_mul]
      omega
    rw [← ih (by omega), back]
    exact (getElem?_again within (by omega) (by omega)).symm

/-- Behind enough of a repetition, every multiple of its distance continues it. -/
theorem again_multiple (within : Within distance data) (steps : Nat) (room : steps * distance ≤ count) (more : Nat) :
    again (distance + steps * distance) more (data ++ again distance count data) =
      again distance more (data ++ again distance count data) := by
  induction more generalizing count with
  | zero => rfl
  | succ more ih =>
    have longer := within.append (again distance count data)
    have size : (data ++ again distance count data).length = data.length + count := by
      rw [List.length_append, length_again within]
    have far : Within (distance + steps * distance) (data ++ again distance count data) :=
      ⟨Nat.lt_of_lt_of_le within.positive (Nat.le_add_right _ _), by rw [size]; exact Nat.add_le_add within.reaches room⟩
    obtain ⟨item, found, next⟩ := again_succ longer more
    obtain ⟨other, found', next'⟩ := again_succ far more
    have same := getElem?_again_back within steps room
    rw [size] at found found'
    rw [← Nat.sub_sub] at found'
    obtain rfl : other = item := Option.some.inj (found'.symm.trans (same.trans found))
    have added : again distance count data ++ [other] = again distance (count + 1) data := by
      obtain ⟨last, found'', one⟩ := again_succ longer 0
      rw [size] at found''
      obtain rfl : last = other := Option.some.inj (found''.symm.trans found)
      rw [again_add within count 1, one]
      rfl
    rw [next, next', List.append_assoc, added, ih (Nat.le_succ_of_le room)]

/-- What fills whole periods comes again behind itself. -/
theorem again_period (within : Within distance data) (steps : Nat) :
    again distance (distance + steps * distance) (data ++ again distance (distance + steps * distance) data) =
      again distance (distance + steps * distance) data := by
  have size := length_again within (distance + steps * distance)
  have far : Within (distance + steps * distance) (data ++ again distance (distance + steps * distance) data) :=
    ⟨Nat.lt_of_lt_of_le within.positive (Nat.le_add_right _ _), by rw [List.length_append, size]; exact Nat.le_add_left _ _⟩
  rw [← again_multiple within steps (Nat.le_add_left _ _), again_short far (Nat.le_refl _), List.length_append, size,
    Nat.add_sub_cancel, List.drop_left, List.take_of_length_le (Nat.le_of_eq size)]

theorem again_periods (within : Within distance data) (times : Nat) : again distance (times * distance) data =
    (List.replicate times (data.drop (data.length - distance))).flatten := by
  induction times generalizing data with
  | zero => rw [Nat.zero_mul, again, List.replicate_zero, List.flatten_nil]
  | succ times ih =>
    have reaches := within.reaches
    have size : (data.drop (data.length - distance)).length = distance := by
      rw [List.length_drop]
      omega
    have first : again distance distance data = data.drop (data.length - distance) := by
      rw [again_short within (Nat.le_refl _), List.take_of_length_le (Nat.le_of_eq size)]
    have shifted : (data ++ data.drop (data.length - distance)).drop
        ((data ++ data.drop (data.length - distance)).length - distance) = data.drop (data.length - distance) := by
      rw [List.length_append, size, Nat.add_sub_cancel, List.drop_left]
    rw [Nat.succ_mul, Nat.add_comm, again_add within, first, ih (within.append _), shifted, List.replicate_succ,
      List.flatten_cons]

/-- A run of one item goes on as it is. -/
theorem again_replicate {item : α} (within : Within distance data)
    (same : data.drop (data.length - distance) = List.replicate distance item) (count : Nat) :
    again distance count data = List.replicate count item := by
  have positive := within.positive
  have reaches := within.reaches
  induction count generalizing data with
  | zero => rfl
  | succ count ih =>
    obtain ⟨found, placed, next⟩ := again_succ within count
    have first : (data.drop (data.length - distance))[0]? = some found := by rw [List.getElem?_drop, Nat.add_zero, placed]
    rw [same, List.getElem?_replicate, if_pos positive, Option.some.injEq] at first
    subst first
    have shifted : (data ++ [item]).drop ((data ++ [item]).length - distance) = List.replicate distance item := by
      rw [List.length_append, List.length_singleton, List.drop_append_of_le_length (by omega)]
      have one : data.length + 1 - distance = (data.length - distance) + 1 := by omega
      rw [one, ← List.drop_drop, same, List.drop_replicate, ← List.replicate_succ']
      exact congrArg (List.replicate · item) (Nat.sub_add_cancel positive)
    rw [next, ih (within.append [item]) shifted (within.append [item]).reaches, List.replicate_succ]

end VirtualLan.Repetition
