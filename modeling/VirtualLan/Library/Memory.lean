import Mathlib.Algebra.GroupWithZero.Nat
import VirtualLan.Library.Repetition

/-! A block of memory that is only read and one that is written, with the accesses
that C makes to them. An access outside its block fails, and so does a `memcpy`
between places that overlap. -/

namespace VirtualLan

universe u

structure Memory (α : Type u) where
  input : List α
  output : List α

namespace Memory
open Repetition

variable {α : Type u}

inductive Misuse where
  | outOfBounds
  | overlapping
  deriving DecidableEq

inductive Region where
  | input
  | output
  deriving DecidableEq

section Accesses
variable (memory : Memory α)

def block : Region → List α
  | .input => memory.input
  | .output => memory.output

/-- One item of the input. -/
def fetch (index : Nat) : Except Misuse α :=
  match memory.input[index]? with
  | some item => .ok item
  | none => .error .outOfBounds

def load (region : Region) (start count : Nat) : Except Misuse (List α) :=
  if start + count ≤ (memory.block region).length then .ok (((memory.block region).drop start).take count)
  else .error .outOfBounds

def store (target : Nat) (data : List α) : Except Misuse (Memory α) :=
  if target + data.length ≤ memory.output.length then
    .ok { memory with output := memory.output.take target ++ data ++ memory.output.drop (target + data.length) }
  else .error .outOfBounds

/-- `memmove` into the output. -/
def move (target : Nat) (region : Region) (start count : Nat) : Except Misuse (Memory α) :=
  (memory.load region start count).bind (memory.store target)

/-- `memcpy` into the output. -/
def copy (target : Nat) (region : Region) (start count : Nat) : Except Misuse (Memory α) :=
  if region = .output ∧ target < start + count ∧ start < target + count then .error .overlapping
  else memory.move target region start count

end Accesses

/-- Pieces copied one after the other. -/
def copyPieces (memory : Memory α) (target : Nat) (region : Region) (start : Nat) : List Nat → Except Misuse (Memory α)
  | [] => .ok memory
  | count :: counts =>
    (memory.copy target region start count).bind fun memory =>
      memory.copyPieces (target + count) region (start + count) counts

/-- Pieces copied again and again until they reach the limit, at least once. No
stride is zero where this is used. -/
def copyStripes (memory : Memory α) (counts : List Nat) (target : Nat) (region : Region) (start limit : Nat) :
    Except Misuse (Memory α) :=
  (memory.copyPieces target region start counts).bind fun memory =>
    if 0 < counts.sum ∧ target + counts.sum < limit then
      memory.copyStripes counts (target + counts.sum) region (start + counts.sum) limit
    else .ok memory
termination_by limit - target

/-- Items assigned one by one. -/
def copyItems (memory : Memory α) (target : Nat) (region : Region) (start : Nat) : Nat → Except Misuse (Memory α)
  | 0 => .ok memory
  | count + 1 =>
    (memory.move target region start 1).bind fun memory => memory.copyItems (target + 1) region (start + 1) count

/-- The same data stored again and again until it reaches the limit. -/
def storeStripes (memory : Memory α) (data : List α) (target limit : Nat) : Except Misuse (Memory α) :=
  if 0 < data.length ∧ target < limit then
    (memory.store target data).bind fun memory => memory.storeStripes data (target + data.length) limit
  else .ok memory
termination_by limit - target

/-- The data stands at the target, and all before it is as it was. Nothing is said of
what stands behind it. -/
structure Written (before : Memory α) (target : Nat) (data : List α) (after : Memory α) : Prop where
  input : after.input = before.input
  size : after.output.length = before.output.length
  output : after.output.take (target + data.length) = before.output.take target ++ data

def Writes (result : Except Misuse (Memory α)) (before : Memory α) (target : Nat) (data : List α) : Prop :=
  ∃ after, result = .ok after ∧ Written before target data after

variable {memory before after : Memory α} {target start limit count distance : Nat} {data more : List α} {region : Region}

theorem Written.refl (memory : Memory α) (target : Nat) : Written memory target [] memory where
  input := rfl
  size := rfl
  output := by rw [List.length_nil, Nat.add_zero, List.append_nil]

theorem Written.trans {middle : Memory α} (first : Written before target data middle)
    (second : Written middle (target + data.length) more after) : Written before target (data ++ more) after where
  input := second.input.trans first.input
  size := second.size.trans first.size
  output := by rw [List.length_append, ← Nat.add_assoc, second.output, first.output, List.append_assoc]

theorem Written.kept (written : Written before target data after) (fits : target ≤ before.output.length) :
    after.output.take target = before.output.take target := by
  have size : (before.output.take target).length = target := by rw [List.length_take, Nat.min_eq_left fits]
  calc after.output.take target
    _ = (after.output.take (target + data.length)).take target := by
      rw [List.take_take, Nat.min_eq_left (Nat.le_add_right _ _)]
    _ = before.output.take target := by
      rw [written.output]
      exact List.take_left' size

theorem Written.take (written : Written before target data after) (fits : target ≤ before.output.length) (count : Nat) :
    Written before target (data.take count) after where
  input := written.input
  size := written.size
  output := by
    have size : (before.output.take target).length = target := by rw [List.length_take, Nat.min_eq_left fits]
    have fewer : target + (data.take count).length ≤ target + data.length :=
      Nat.add_le_add_left (List.length_take_le' _ _) target
    calc after.output.take (target + (data.take count).length)
      _ = (after.output.take (target + data.length)).take (target + (data.take count).length) := by
        rw [List.take_take, Nat.min_eq_left fewer]
      _ = (before.output.take target ++ data).take ((before.output.take target).length + (data.take count).length) := by
        rw [written.output, size]
      _ = before.output.take target ++ data.take count := by
        rw [List.take_length_add_append, List.length_take, ← List.take_eq_take_min]

/-- A second write over the first one. -/
theorem Written.over {middle : Memory α} (first : Written before target data middle)
    (second : Written middle target more after) (fits : target ≤ before.output.length) : Written before target more after where
  input := second.input.trans first.input
  size := second.size.trans first.size
  output := by rw [second.output, first.kept fits]

theorem Writes.bind {result : Except Misuse (Memory α)} {next : Memory α → Except Misuse (Memory α)}
    (first : Writes result before target data)
    (second : ∀ middle, Written before target data middle → Writes (next middle) middle (target + data.length) more) :
    Writes (result.bind next) before target (data ++ more) := by
  obtain ⟨middle, same, written⟩ := first
  obtain ⟨after, same', written'⟩ := second middle written
  exact ⟨after, by rw [same]; exact same', written.trans written'⟩

theorem Writes.take {result : Except Misuse (Memory α)} (writes : Writes result before target data)
    (fits : target ≤ before.output.length) (count : Nat) : Writes result before target (data.take count) := by
  obtain ⟨after, same, written⟩ := writes
  exact ⟨after, same, written.take fits count⟩

theorem store_writes (fits : target + data.length ≤ memory.output.length) :
    Writes (memory.store target data) memory target data := by
  refine ⟨_, if_pos fits, rfl, ?_, ?_⟩
  · simp only [List.length_append, List.length_take, List.length_drop]
    omega
  · have size : (memory.output.take target ++ data).length = target + data.length := by
      rw [List.length_append, List.length_take]
      omega
    exact List.take_left' size

theorem move_writes (inside : start + count ≤ (memory.block region).length) (fits : target + count ≤ memory.output.length) :
    Writes (memory.move target region start count) memory target (((memory.block region).drop start).take count) := by
  have size : (((memory.block region).drop start).take count).length = count := by
    rw [List.length_take, List.length_drop]
    omega
  have loaded : memory.load region start count = .ok (((memory.block region).drop start).take count) := if_pos inside
  rw [move, loaded]
  exact store_writes (by rw [size]; exact fits)

/-- A store between places that are written already. -/
theorem store_inside (inside : target + data.length ≤ limit) (fits : limit ≤ memory.output.length) : ∃ after,
    memory.store target data = .ok after ∧ after.input = memory.input ∧
      after.output.length = memory.output.length ∧ after.output.take limit =
        (memory.output.take limit).take target ++ data ++ (memory.output.take limit).drop (target + data.length) := by
  have room : target + data.length ≤ memory.output.length := Nat.le_trans inside fits
  refine ⟨_, if_pos room, rfl, ?_, ?_⟩
  · simp only [List.length_append, List.length_take, List.length_drop]
    omega
  · have size : (memory.output.take target ++ data).length = target + data.length := by
      rw [List.length_append, List.length_take]
      omega
    rw [List.take_append, List.take_of_length_le (by rw [size]; exact inside), size, List.take_take,
      Nat.min_eq_left (by omega), List.drop_take]

theorem copy_input (inside : start + count ≤ memory.input.length) (fits : target + count ≤ memory.output.length) :
    Writes (memory.copy target .input start count) memory target ((memory.input.drop start).take count) := by
  rw [copy, if_neg (by simp)]
  exact move_writes inside fits

theorem copyPieces_input {counts : List Nat} (inside : start + counts.sum ≤ memory.input.length)
    (fits : target + counts.sum ≤ memory.output.length) :
    Writes (memory.copyPieces target .input start counts) memory target ((memory.input.drop start).take counts.sum) := by
  induction counts generalizing memory target start with
  | nil => exact ⟨memory, rfl, .refl memory target⟩
  | cons count counts ih =>
    rw [List.sum_cons] at inside fits ⊢
    have size : ((memory.input.drop start).take count).length = count := by
      rw [List.length_take, List.length_drop]
      omega
    rw [copyPieces, List.take_add, List.drop_drop]
    apply Writes.bind (copy_input (by omega) (by omega))
    intro middle written
    have later := @ih middle (target + count) (start + count) (by rw [written.input]; omega) (by rw [written.size]; omega)
    rw [written.input] at later
    rwa [size]

/-- Stripes from the input reach the limit, and the stride where the limit is nearer. -/
theorem copyStripes_input {counts : List Nat} (positive : 0 < counts.sum)
    (inside : start + counts.sum ≤ memory.input.length ∧ start + (limit - target) + counts.sum ≤ memory.input.length + 1)
    (fits : target + counts.sum ≤ memory.output.length ∧ limit + counts.sum ≤ memory.output.length + 1) :
    Writes (memory.copyStripes counts target .input start limit) memory target
      ((memory.input.drop start).take (max counts.sum (limit - target))) := by
  generalize left : limit - target = steps
  induction steps using Nat.strongRecOn generalizing memory target start with
  | ind steps ih =>
    have first := copyPieces_input inside.1 fits.1
    have size : ((memory.input.drop start).take counts.sum).length = counts.sum := by
      rw [List.length_take, List.length_drop]
      omega
    rw [copyStripes]
    by_cases unfinished : target + counts.sum < limit
    · have longer : max counts.sum steps ≤ counts.sum + max counts.sum (limit - (target + counts.sum)) := by omega
      rw [← Nat.min_eq_left longer, ← List.take_take, List.take_add, List.drop_drop]
      apply Writes.take ?_ (by omega)
      apply Writes.bind first
      intro middle written
      have later := @ih (limit - (target + counts.sum)) (by omega) middle (target + counts.sum)
        (start + counts.sum) (by rw [written.input]; omega) (by rw [written.size]; omega) rfl
      rw [if_pos ⟨positive, unfinished⟩, size]
      rw [written.input] at later
      exact later
    · have reached : max counts.sum steps = counts.sum := by omega
      rw [reached, ← List.append_nil ((memory.input.drop start).take counts.sum)]
      apply Writes.bind first
      intro middle written
      rw [if_neg (fun both => unfinished both.2)]
      exact ⟨middle, rfl, .refl middle _⟩

/-- A copy from no nearer than its length goes on as the output did. -/
theorem copy_output (within : Within distance (memory.output.take target)) (short : count ≤ distance)
    (fits : target + count ≤ memory.output.length) :
    Writes (memory.copy target .output (target - distance) count) memory target
      (again distance count (memory.output.take target)) := by
  have size : (memory.output.take target).length = target := by
    rw [List.length_take]
    omega
  have reaches := within.reaches
  rw [size] at reaches
  rw [copy, if_neg (by omega), again_short within short, size, List.drop_take, List.take_take,
    Nat.min_eq_left (by omega)]
  exact move_writes (by rw [block]; omega) fits

theorem Written.follows (written : Written memory target (again distance count (memory.output.take target)) after)
    (within : Within distance (memory.output.take target)) :
    after.output.take (target + count) = memory.output.take target ++ again distance count (memory.output.take target) := by
  have whole := written.output
  rwa [length_again within] at whole

/-- Two writes that each go on as the output did, one behind the other. -/
theorem Writes.again {result : Except Misuse (Memory α)} {next : Memory α → Except Misuse (Memory α)} {more : Nat}
    (within : Within distance (memory.output.take target))
    (first : Writes result memory target (again distance count (memory.output.take target)))
    (second : ∀ middle, Written memory target (Repetition.again distance count (memory.output.take target)) middle →
      Within distance (middle.output.take (target + count)) →
      Writes (next middle) middle (target + count) (Repetition.again distance more (middle.output.take (target + count)))) :
    Writes (result.bind next) memory target (Repetition.again distance (count + more) (memory.output.take target)) := by
  rw [again_add within]
  apply Writes.bind first
  intro middle written
  have follows := written.follows within
  have later := second middle written (by rw [follows]; exact within.append _)
  rw [follows] at later
  rwa [length_again within]

theorem copyPieces_output {counts : List Nat} (within : Within distance (memory.output.take target))
    (short : ∀ count ∈ counts, count ≤ distance) (fits : target + counts.sum ≤ memory.output.length) :
    Writes (memory.copyPieces target .output (target - distance) counts) memory target
      (again distance counts.sum (memory.output.take target)) := by
  induction counts generalizing memory target with
  | nil => exact ⟨memory, rfl, .refl memory target⟩
  | cons count counts ih =>
    rw [List.sum_cons] at fits ⊢
    have reaches := within.reaches
    rw [List.length_take] at reaches
    apply Writes.again within (copy_output within (short count List.mem_cons_self) (by omega))
    intro middle written within'
    have later := ih within' (fun other member => short other (List.mem_cons_of_mem _ member)) (by rw [written.size]; omega)
    have place : target - distance + count = target + count - distance := by omega
    rwa [place]

/-- Stripes from the output go on as it did, however far they reach into what they
have written themselves. -/
theorem copyStripes_output {counts : List Nat} (positive : 0 < counts.sum)
    (within : Within distance (memory.output.take target)) (short : ∀ count ∈ counts, count ≤ distance)
    (fits : target + counts.sum ≤ memory.output.length ∧ limit + counts.sum ≤ memory.output.length + 1) :
    Writes (memory.copyStripes counts target .output (target - distance) limit) memory target
      (again distance (max counts.sum (limit - target)) (memory.output.take target)) := by
  generalize left : limit - target = steps
  induction steps using Nat.strongRecOn generalizing memory target with
  | ind steps ih =>
    have first := copyPieces_output within short fits.1
    have reaches := within.reaches
    rw [List.length_take] at reaches
    rw [copyStripes]
    by_cases unfinished : target + counts.sum < limit
    · have longer : max counts.sum steps ≤ counts.sum + max counts.sum (limit - (target + counts.sum)) := by omega
      rw [← take_again within longer]
      apply Writes.take ?_ (by omega)
      apply Writes.again within first
      intro middle written within'
      have later := ih (limit - (target + counts.sum)) (by omega) within' (by rw [written.size]; omega) rfl
      have place : target - distance + counts.sum = target + counts.sum - distance := by omega
      rw [if_pos ⟨positive, unfinished⟩, place]
      exact later
    · have reached : max counts.sum steps = counts.sum := by omega
      rw [reached]
      obtain ⟨middle, same, written⟩ := first
      refine ⟨middle, ?_, written⟩
      rw [same]
      exact if_neg (fun both => unfinished both.2)

theorem copyItems_output (within : Within distance (memory.output.take target))
    (fits : target + count ≤ memory.output.length) :
    Writes (memory.copyItems target .output (target - distance) count) memory target
      (again distance count (memory.output.take target)) := by
  induction count generalizing memory target with
  | zero => exact ⟨memory, rfl, .refl memory target⟩
  | succ count ih =>
    have reaches := within.reaches
    have positive := within.positive
    rw [List.length_take] at reaches
    have first : Writes (memory.move target .output (target - distance) 1) memory target
        (again distance 1 (memory.output.take target)) := by
      have one := copy_output within positive (by omega : target + 1 ≤ memory.output.length)
      rwa [copy, if_neg (by omega)] at one
    rw [copyItems, Nat.add_comm count 1]
    apply Writes.again within first
    intro middle written within'
    have later := ih within' (by rw [written.size]; omega)
    have place : target - distance + 1 = target + 1 - distance := by omega
    rwa [place]

/-- Storing whole periods again and again. -/
theorem storeStripes_output (within : Within distance (memory.output.take target)) {steps : Nat}
    (whole : data.length = distance + steps * distance)
    (period : data = again distance data.length (memory.output.take target))
    (fits : target ≤ memory.output.length ∧ limit + data.length ≤ memory.output.length + 1) :
    Writes (memory.storeStripes data target limit) memory target
      (again distance (limit - target) (memory.output.take target)) := by
  generalize left : limit - target = rounds
  induction rounds using Nat.strongRecOn generalizing memory target with
  | ind rounds ih =>
    have positive : 0 < data.length := by
      rw [whole]
      exact Nat.lt_of_lt_of_le within.positive (Nat.le_add_right _ _)
    rw [storeStripes]
    by_cases unfinished : target < limit
    · have longer : rounds ≤ data.length + (limit - (target + data.length)) := by omega
      have first : Writes (memory.store target data) memory target (again distance data.length (memory.output.take target)) := by
        rw [← period]
        exact store_writes (by omega)
      rw [if_pos ⟨positive, unfinished⟩, ← take_again within longer]
      apply Writes.take ?_ (by omega)
      apply Writes.again within first
      intro middle written within'
      refine ih (limit - (target + data.length)) (by omega) within' ?_ (by rw [written.size]; omega) rfl
      rw [written.follows within, whole, again_period within steps, ← whole]
      exact period
    · rw [if_neg (fun both => unfinished both.2)]
      have none : rounds = 0 := by omega
      subst none
      exact ⟨memory, rfl, .refl memory target⟩

end Memory

end VirtualLan
