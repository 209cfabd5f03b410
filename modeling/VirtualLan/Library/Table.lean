import Mathlib.Data.List.ReduceOption
import VirtualLan.Library.Dict

/-! Dictionaries as tables of slots. A deletion empties a slot and an insertion
takes a new one, so an iterator that stands at a slot keeps its place. It gives
up when the number of entries is not the one that it started with. -/

namespace VirtualLan

universe u v

structure Table (κ : Type u) (ν : Type v) where
  slots : List (Option (κ × ν))
  unique : (slots.reduceOption.map Prod.fst).Nodup

/-- An iterator over a table: the size that it expects and its next slot. -/
structure Cursor where
  size : Nat
  position : Nat
  deriving DecidableEq

inductive Advance (κ : Type u) (ν : Type v) where
  | changed
  | finished
  | entry (key : κ) (value : ν) (next : Cursor)

namespace Table
variable {κ : Type u} {ν : Type v}

/-- What a table holds, without its empty slots. -/
def dict (table : Table κ ν) : Dict κ ν := ⟨table.slots.reduceOption, table.unique⟩

def empty : Table κ ν := ⟨[], List.nodup_nil⟩

def size (table : Table κ ν) : Nat := table.dict.size

def start (table : Table κ ν) : Cursor := ⟨table.size, 0⟩

def nextFrom : List (Option (κ × ν)) → Nat → Option (Nat × κ × ν)
  | [], _ => none
  | none :: slots, position => nextFrom slots (position + 1)
  | some entry :: _, position => some (position, entry)

def next (table : Table κ ν) (position : Nat) : Option (Nat × κ × ν) := nextFrom (table.slots.drop position) position

def advance (table : Table κ ν) (cursor : Cursor) : Advance κ ν :=
  if cursor.size ≠ table.size then .changed
  else
    match table.next cursor.position with
    | none => .finished
    | some (position, key, value) => .entry key value ⟨cursor.size, position + 1⟩

theorem advance_changed_iff {table : Table κ ν} {cursor : Cursor} :
    table.advance cursor = .changed ↔ cursor.size ≠ table.size := by
  unfold advance
  split
  next changed => simp [changed]
  next same =>
    split <;> simp_all

theorem advance_entry {table : Table κ ν} {cursor next : Cursor} {key : κ} {value : ν}
    (entered : table.advance cursor = .entry key value next) : next.size = cursor.size := by
  unfold advance at entered
  split at entered
  next => cases entered
  next =>
    split at entered
    next => cases entered
    next =>
      cases entered
      rfl

private theorem nextFrom_member {slots : List (Option (κ × ν))} {position found : Nat} {entry : κ × ν}
    (next : nextFrom slots position = some (found, entry)) : some entry ∈ slots := by
  induction slots generalizing position with
  | nil => cases next
  | cons slot slots ih =>
    cases slot with
    | none => exact List.mem_cons_of_mem _ (ih next)
    | some first =>
      cases next
      exact List.mem_cons_self

/-- What an iterator yields is in the table at that moment. -/
theorem advance_member {table : Table κ ν} {cursor next : Cursor} {key : κ} {value : ν}
    (entered : table.advance cursor = .entry key value next) : (key, value) ∈ table.dict.items := by
  unfold advance at entered
  split at entered
  next => cases entered
  next =>
    split at entered
    next => cases entered
    next position name item found =>
      cases entered
      exact List.reduceOption_mem_iff.mpr (List.mem_of_mem_drop (nextFrom_member found))

private theorem reduceOption_filter (slots : List (Option (κ × ν))) (keep : κ × ν → Bool) :
    (slots.map fun slot => slot.filter keep).reduceOption = slots.reduceOption.filter keep := by
  induction slots with
  | nil => rfl
  | cons slot slots ih =>
    cases slot with
    | none => simpa [List.reduceOption_cons_of_none] using ih
    | some entry =>
      have first : (some entry).filter keep = if keep entry then some entry else none := rfl
      rw [List.map_cons, first, List.reduceOption_cons_of_some, List.filter_cons]
      split
      · rw [List.reduceOption_cons_of_some, ih]
      · rw [List.reduceOption_cons_of_none, ih]

variable [DecidableEq κ]

def set (table : Table κ ν) (key : κ) (value : ν) : Table κ ν :=
  if present : key ∈ table.dict.keys then
    ⟨table.slots.map (Option.map fun entry => if entry.1 = key then (key, value) else entry), by
      have unique := (table.dict.set key value).unique
      rw [Dict.set, dif_pos present] at unique
      rwa [List.reduceOption_map]⟩
  else
    ⟨table.slots ++ [some (key, value)], by
      have unique := (table.dict.set key value).unique
      rw [Dict.set, dif_neg present] at unique
      rwa [List.reduceOption_append]⟩

def erase (table : Table κ ν) (key : κ) : Table κ ν :=
  ⟨table.slots.map fun slot => slot.filter fun entry => entry.1 ≠ key, by
    rw [reduceOption_filter]
    exact (table.dict.erase key).unique⟩

theorem dict_set (table : Table κ ν) (key : κ) (value : ν) :
    (table.set key value).dict = table.dict.set key value := by
  apply Dict.ext
  unfold set Dict.set
  split
  · exact List.reduceOption_map
  · exact List.reduceOption_append ..

theorem dict_erase (table : Table κ ν) (key : κ) : (table.erase key).dict = table.dict.erase key :=
  Dict.ext (reduceOption_filter ..)

/-- The entries that an iterator has still before it. -/
def remaining (table : Table κ ν) (position : Nat) : List (κ × ν) := (table.slots.drop position).reduceOption

omit [DecidableEq κ]

theorem remaining_zero (table : Table κ ν) : table.remaining 0 = table.dict.items := rfl

private theorem nextFrom_nil {slots : List (Option (κ × ν))} (position : Nat) (done : slots.reduceOption = []) :
    nextFrom slots position = none := by
  induction slots generalizing position with
  | nil => rfl
  | cons slot slots ih =>
    cases slot with
    | none => exact ih (position + 1) done
    | some entry => cases done

private theorem nextFrom_cons {slots : List (Option (κ × ν))} (position : Nat) {entry : κ × ν} {rest : List (κ × ν)}
    (more : slots.reduceOption = entry :: rest) :
    ∃ offset, nextFrom slots position = some (position + offset, entry) ∧
      (slots.drop (offset + 1)).reduceOption = rest := by
  induction slots generalizing position with
  | nil => cases more
  | cons slot slots ih =>
    cases slot with
    | none =>
      obtain ⟨offset, found, later⟩ := ih (position + 1) more
      refine ⟨offset + 1, ?_, later⟩
      rw [nextFrom, found, Nat.add_right_comm, Nat.add_assoc]
    | some first =>
      rw [List.reduceOption_cons_of_some] at more
      cases more
      exact ⟨0, rfl, rfl⟩

theorem advance_finished {table : Table κ ν} {position : Nat} (done : table.remaining position = []) :
    table.advance ⟨table.size, position⟩ = .finished := by
  simp [advance, next, nextFrom_nil position done]

/-- In a table that keeps its size, an iterator yields one entry after the other. -/
theorem advance_remaining {table : Table κ ν} {position : Nat} {key : κ} {value : ν} {rest : List (κ × ν)}
    (more : table.remaining position = (key, value) :: rest) :
    ∃ next, table.advance ⟨table.size, position⟩ = .entry key value ⟨table.size, next⟩ ∧
      table.remaining next = rest := by
  obtain ⟨offset, found, later⟩ := nextFrom_cons position more
  refine ⟨position + offset + 1, ?_, ?_⟩
  · simp [advance, next, found]
  · rw [remaining, Nat.add_assoc, ← List.drop_drop]
    exact later

end Table

end VirtualLan
