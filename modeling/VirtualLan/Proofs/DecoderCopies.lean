import VirtualLan.Lz4Format

/-! What the copies of the decoder write. Each of them may go past the place where it
should end, so each is described by the bytes up to there. -/

namespace VirtualLan.LZ4
open Memory Repetition

variable {memory : Memory UInt8} {op offset cpy : Nat} {out : Bytes}

theorem length_matched (reaches : offset ≤ out.length) (count : Nat) : (matched offset count out).length = count := by
  unfold matched
  split
  next => exact List.length_replicate
  next other => exact length_again ⟨Nat.pos_of_ne_zero other, reaches⟩ count

theorem take_matched (reaches : offset ≤ out.length) {fewer count : Nat} (fits : fewer ≤ count) :
    (matched offset count out).take fewer = matched offset fewer out := by
  unfold matched
  split
  next => rw [List.take_replicate, Nat.min_eq_left fits]
  next other => exact take_again ⟨Nat.pos_of_ne_zero other, reaches⟩ fits

theorem matched_positive (positive : 0 < offset) (count : Nat) (out : Bytes) :
    matched offset count out = again offset count out :=
  if_neg (Nat.ne_of_gt positive)

/-- The bytes before `op` are the output so far. -/
structure Holds (memory : Memory UInt8) (op : Nat) (out : Bytes) : Prop where
  place : op = out.length
  inside : op ≤ memory.output.length
  output : memory.output.take op = out

theorem Holds.written {data : Bytes} {after : Memory UInt8} (holds : Holds memory op out)
    (written : Written memory op data after) (fits : op + data.length ≤ memory.output.length) :
    Holds after (op + data.length) (out ++ data) where
  place := by rw [List.length_append, holds.place]
  inside := by rw [written.size]; exact fits
  output := by rw [written.output, holds.output]

theorem Holds.within (holds : Holds memory op out) (positive : 0 < offset) (reaches : offset ≤ op) :
    Within offset (memory.output.take op) where
  positive := positive
  reaches := by
    rw [holds.output, ← holds.place]
    exact reaches

theorem copy18_writes (holds : Holds memory op out) (far : 8 ≤ offset) (reaches : offset ≤ op)
    (room : op + 18 ≤ memory.output.length) {count : Nat} (short : count ≤ 18) :
    Writes (copy18 memory op (op - offset)) memory op (matched offset count out) := by
  have within := holds.within (Nat.lt_of_lt_of_le (by decide) far) reaches
  have whole : Writes (copy18 memory op (op - offset)) memory op (again offset 18 (memory.output.take op)) := by
    have short : ∀ piece ∈ [8, 8, 2], piece ≤ offset := by
      intro piece member
      simp only [List.mem_cons, List.not_mem_nil, or_false] at member
      omega
    exact copyPieces_output within short room
  have part := whole.take holds.inside count
  rw [take_again within short, holds.output] at part
  rwa [matched_positive within.positive]

/-- The tables widen an offset to multiples of it, first to reach four bytes and then
to reach eight. -/
theorem tables_widen (small : offset < 8) (positive : 0 < offset) : ∃ near far,
    near * offset ≤ 4 ∧ far * offset ≤ 8 ∧ 4 ≤ offset + near * offset ∧ 8 ≤ offset + far * offset ∧
    inc32table.getD offset 0 = 4 - (near * offset : Nat) ∧
    dec64table.getD offset 0 = (far * offset : Nat) - (near * offset : Nat) - 4 := by
  obtain rfl | rfl | rfl | rfl | rfl | rfl | rfl :
      offset = 1 ∨ offset = 2 ∨ offset = 3 ∨ offset = 4 ∨ offset = 5 ∨ offset = 6 ∨ offset = 7 := by omega
  · exact ⟨3, 7, by decide⟩
  · exact ⟨1, 3, by decide⟩
  · exact ⟨1, 2, by decide⟩
  · exact ⟨1, 1, by decide⟩
  · exact ⟨0, 1, by decide⟩
  · exact ⟨0, 1, by decide⟩
  · exact ⟨0, 1, by decide⟩

/-- Eight bytes of a match stand there, and its next ones can be copied in pieces of
eight from `source`. -/
structure Eight (memory : Memory UInt8) (op offset : Nat) (out : Bytes) (after : Memory UInt8) (source : Nat) : Prop where
  written : Written memory op (matched offset 8 out) after
  onward : ∃ wide, 8 ≤ wide ∧ wide ≤ op + 8 ∧ source = op + 8 - wide ∧
    ∀ count, matched offset 8 out ++ again wide count (out ++ matched offset 8 out) = matched offset (8 + count) out

theorem copyEight_far (holds : Holds memory op out) (far : 8 ≤ offset) (reaches : offset ≤ op)
    (room : op + 8 ≤ memory.output.length) : ∃ after source,
    copyEight memory op (op - offset) offset = .ok (after, source) ∧ Eight memory op offset out after source := by
  have within := holds.within (Nat.lt_of_lt_of_le (by decide) far) reaches
  obtain ⟨after, copied, written⟩ := copy_output within far room
  rw [holds.output] at written within
  refine ⟨after, op - offset + 8, ?_, ?_, offset, far, by omega, by omega, ?_⟩
  · rw [copyEight, if_neg (Nat.not_lt_of_le far), copied]
    rfl
  · rwa [matched_positive within.positive]
  · intro count
    rw [matched_positive within.positive, matched_positive within.positive, again_add within]

theorem move_self (room : op + 1 ≤ memory.output.length) : memory.move op .output op 1 = .ok memory := by
  have loaded : memory.load .output op 1 = .ok ((memory.output.drop op).take 1) := if_pos room
  have size : ((memory.output.drop op).take 1).length = 1 := by
    rw [List.length_take, List.length_drop]
    omega
  rw [move, loaded]
  change memory.store op ((memory.output.drop op).take 1) = .ok memory
  rw [store, if_pos (by rw [size]; exact room), size, List.append_assoc, ← List.drop_drop, List.take_append_drop,
    List.take_append_drop]

theorem copyItems_self {count : Nat} (room : op + count ≤ memory.output.length) :
    memory.copyItems op .output op count = .ok memory := by
  induction count generalizing op with
  | zero => rfl
  | succ count ih =>
    rw [copyItems, move_self (by omega)]
    exact ih (by omega)

/-- The second four bytes, from as far away as the first table says. -/
theorem second_four (holds : Holds memory op out) (room : op + 8 ≤ memory.output.length) (reaches : offset ≤ op)
    {middle : Memory UInt8} (written : Written memory op (matched offset 4 out) middle) {near : Nat} (far : 4 ≤ near)
    (inside : near ≤ op + 4)
    (onward : matched offset 4 out ++ again near 4 (out ++ matched offset 4 out) = matched offset 8 out) :
    ∃ after, middle.copy (op + 4) .output (op + 4 - near) 4 = .ok after ∧
      Written memory op (matched offset 8 out) after := by
  have four : (matched offset 4 out).length = 4 := length_matched (by rw [← holds.place]; exact reaches) 4
  have holds' := holds.written written (by rw [four]; omega)
  rw [four] at holds'
  have within := holds'.within (Nat.lt_of_lt_of_le (by decide) far) inside
  obtain ⟨after, copied, written'⟩ := copy_output within far (by rw [written.size]; omega)
  rw [holds'.output] at written'
  refine ⟨after, copied, ?_⟩
  rw [← onward]
  exact written.trans (by rwa [four])

theorem copyEight_zero (holds : Holds memory op out) (room : op + 8 ≤ memory.output.length) : ∃ after source,
    copyEight memory op (op - 0) 0 = .ok (after, source) ∧ Eight memory op 0 out after source := by
  have zeros : ∀ count, matched 0 count out = List.replicate count 0 := fun count => if_pos rfl
  have short : op + ([0, 0, 0, 0] : Bytes).length ≤ memory.output.length :=
    Nat.le_trans (Nat.add_le_add_left (by decide) op) room
  obtain ⟨middle, stored, written⟩ := store_writes short
  have kept : middle.copyItems op .output op 4 = .ok middle := copyItems_self (by rw [written.size]; omega)
  have run (size count : Nat) (positive : 0 < size) :
      again size count (out ++ List.replicate size 0) = List.replicate count (0 : UInt8) := by
    apply again_replicate ⟨positive, by rw [List.length_append, List.length_replicate]; exact Nat.le_add_left _ _⟩
    rw [List.length_append, List.length_replicate, Nat.add_sub_cancel, List.drop_left]
  have onward : matched 0 4 out ++ again 4 4 (out ++ matched 0 4 out) = matched 0 8 out := by
    rw [zeros, zeros, run 4 4 (by decide), List.replicate_append_replicate]
  obtain ⟨after, copied, written'⟩ := second_four holds room (Nat.zero_le op) written (Nat.le_refl 4)
    (Nat.le_add_left 4 op) onward
  refine ⟨after, op, ?_, written', 8, Nat.le_refl 8, Nat.le_add_left 8 op, by omega, ?_⟩
  · rw [Nat.add_sub_cancel] at copied
    simp [copyEight, stored, kept, inc32table, dec64table, copied, bind, Except.bind, pure, Except.pure]
  · intro count
    rw [zeros, zeros, run 8 count (by decide), List.replicate_append_replicate]

theorem copyEight_near (holds : Holds memory op out) (small : offset < 8) (positive : 0 < offset) (reaches : offset ≤ op)
    (room : op + 8 ≤ memory.output.length) : ∃ after source,
    copyEight memory op (op - offset) offset = .ok (after, source) ∧ Eight memory op offset out after source := by
  obtain ⟨near, far, first, second, four, eight, inc, dec⟩ := tables_widen small positive
  have within : Within offset out := ⟨positive, by rw [← holds.place]; exact reaches⟩
  have short : op + ([0, 0, 0, 0] : Bytes).length ≤ memory.output.length :=
    Nat.le_trans (Nat.add_le_add_left (by decide) op) room
  obtain ⟨zeroed, stored, written⟩ := store_writes short
  have kept : zeroed.output.take op = out := (written.kept holds.inside).trans holds.output
  obtain ⟨middle, items, written'⟩ : Writes (zeroed.copyItems op .output (op - offset) 4) zeroed op
      (again offset 4 (zeroed.output.take op)) :=
    copyItems_output (by rw [kept]; exact within) (by rw [written.size]; omega)
  rw [kept, ← matched_positive positive] at written'
  have onward : matched offset 4 out ++ again (offset + near * offset) 4 (out ++ matched offset 4 out) =
      matched offset 8 out := by
    rw [matched_positive positive, matched_positive positive, again_multiple within near first, ← again_add within]
  obtain ⟨after, copied, written''⟩ := second_four holds room reaches (written.over written' holds.inside) four
    (by omega) onward
  refine ⟨after, op + 8 - (offset + far * offset), ?_, written'', _, eight, by omega, rfl, ?_⟩
  · have place : ((op - offset : Nat) + inc32table.getD offset 0 : Int).toNat = op + 4 - (offset + near * offset) := by omega
    have place' : ((op + 4 - (offset + near * offset) : Nat) - dec64table.getD offset 0 : Int).toNat =
        op + 8 - (offset + far * offset) := by omega
    rw [copyEight, if_pos small]
    simp only [stored, items, place, copied, place', bind, Except.bind, pure, Except.pure]
  · intro count
    rw [matched_positive positive, matched_positive positive, again_multiple within far second, ← again_add within]

theorem copyEight_eight (holds : Holds memory op out) (reaches : offset ≤ op) (room : op + 8 ≤ memory.output.length) :
    ∃ after source, copyEight memory op (op - offset) offset = .ok (after, source) ∧
      Eight memory op offset out after source := by
  by_cases small : offset < 8
  · by_cases zero : offset = 0
    · subst zero
      exact copyEight_zero holds room
    · exact copyEight_near holds small (Nat.pos_of_ne_zero zero) reaches room
  · exact copyEight_far holds (Nat.le_of_not_lt small) reaches room

theorem Eight.size {after : Memory UInt8} {source : Nat} (eight : Eight memory op offset out after source) :
    after.output.length = memory.output.length := eight.written.size

/-- Going on from the first eight bytes in any way that repeats what stands `wide`
before completes the match. -/
theorem Eight.complete {middle : Memory UInt8} {source count length : Nat} {next : Except Misuse (Memory UInt8)}
    (holds : Holds memory op out) (reaches : offset ≤ op) (room : op + 8 ≤ memory.output.length)
    (eight : Eight memory op offset out middle source) (enough : length ≤ 8 + count)
    (later : ∀ wide, 8 ≤ wide → wide ≤ op + 8 → source = op + 8 - wide →
      Within wide (middle.output.take (op + 8)) →
      Writes next middle (op + 8) (again wide count (middle.output.take (op + 8)))) :
    Writes next memory op (matched offset length out) := by
  obtain ⟨wide, far, inside, place, onward⟩ := eight.onward
  have reaches' : offset ≤ out.length := by rw [← holds.place]; exact reaches
  have eighth : (matched offset 8 out).length = 8 := length_matched reaches' 8
  have holds' := holds.written eight.written (by rw [eighth]; exact room)
  rw [eighth] at holds'
  have within := holds'.within (Nat.lt_of_lt_of_le (by decide) far) inside
  obtain ⟨after, same, written⟩ := later wide far inside place within
  rw [holds'.output] at written
  have whole : Written memory op (matched offset (8 + count) out) after := by
    rw [← onward count]
    exact eight.written.trans (by rwa [eighth])
  have part := whole.take holds.inside length
  rw [take_matched reaches' enough] at part
  exact ⟨after, same, part⟩

theorem memcpyUsingOffsetBase_writes (holds : Holds memory op out) (reaches : offset ≤ op)
    (room : op + 16 ≤ memory.output.length ∧ cpy + 8 ≤ memory.output.length + 1) :
    Writes (memcpyUsingOffsetBase memory op (op - offset) cpy offset) memory op (matched offset (cpy - op) out) := by
  obtain ⟨middle, source, first, eight⟩ := copyEight_eight holds reaches (by omega)
  have complete : Writes (wildCopy8 middle (op + 8) .output source cpy) memory op (matched offset (cpy - op) out) := by
    apply eight.complete holds reaches (by omega) (by omega : cpy - op ≤ 8 + max 8 (cpy - (op + 8)))
    intro wide far inside place within
    rw [place]
    have short : ∀ piece ∈ [8], piece ≤ wide := by simpa using far
    exact copyStripes_output (by decide) within short (by rw [eight.size]; simp; omega)
  simpa only [memcpyUsingOffsetBase, first, bind, Except.bind] using complete

theorem finishNear_writes {middle : Memory UInt8} {source length : Nat} (holds : Holds memory op out)
    (reaches : offset ≤ op) (room : op + 8 ≤ memory.output.length) (eight : Eight memory op offset out middle source)
    (ends : op + length + lastLiterals ≤ memory.output.length) :
    Writes (finishNear middle (op + 8) source (op + length)) memory op (matched offset length out) := by
  have size := eight.size
  unfold finishNear
  simp only [wildCopyLength, lastLiterals, size] at ends ⊢
  generalize limited : memory.output.length - (8 - 1) = oCopyLimit
  split
  next early =>
    apply eight.complete holds reaches room
      (by omega : length ≤ 8 + ((oCopyLimit - (op + 8)) + (op + length - oCopyLimit)))
    intro wide far inside place within
    have short : ∀ piece ∈ [8], piece ≤ wide := by simpa using far
    have stripes : Writes (wildCopy8 middle (op + 8) .output source oCopyLimit) middle (op + 8)
        (again wide (max 8 (oCopyLimit - (op + 8))) (middle.output.take (op + 8))) := by
      rw [place]
      exact copyStripes_output (by decide) within short (by rw [size]; simp; omega)
    have first := stripes.take (by omega) (oCopyLimit - (op + 8))
    rw [take_again within (by omega)] at first
    apply Writes.again within first
    intro other written within'
    have reached : op + 8 + (oCopyLimit - (op + 8)) = oCopyLimit := by omega
    rw [reached] at within' ⊢
    have behind : source + (oCopyLimit - (op + 8)) = oCopyLimit - wide := by omega
    rw [behind]
    exact copyItems_output within' (by rw [written.size, size]; omega)
  next late =>
    apply eight.complete holds reaches room (by omega : length ≤ 8 + (op + length - (op + 8)))
    intro wide far inside place within
    rw [place]
    exact copyItems_output within (by rw [size]; omega)

theorem finishFar_writes {middle : Memory UInt8} {source length : Nat} (holds : Holds memory op out)
    (reaches : offset ≤ op) (room : op + 16 ≤ memory.output.length) (eight : Eight memory op offset out middle source)
    (ends : op + length + matchSafeguardDistance ≤ memory.output.length) :
    Writes (finishFar middle (op + 8) source (op + length) length) memory op (matched offset length out) := by
  have size := eight.size
  simp only [matchSafeguardDistance, wildCopyLength, minMatch] at ends
  apply eight.complete holds reaches (by omega) (by omega : length ≤ 8 + (8 + (length - 16)))
  intro wide far inside place within
  have first : Writes (middle.copy (op + 8) .output source 8) middle (op + 8) (again wide 8 (middle.output.take (op + 8))) := by
    rw [place]
    exact copy_output within far (by rw [size]; omega)
  apply Writes.again within first
  intro other written within'
  split
  next long =>
    have short : ∀ piece ∈ [8], piece ≤ wide := by simpa using far
    have behind : source + 8 = op + 8 + 8 - wide := by omega
    rw [behind]
    have stripes : Writes (wildCopy8 other (op + 8 + 8) .output (op + 8 + 8 - wide) (op + length)) other (op + 8 + 8)
        (again wide (max 8 (op + length - (op + 8 + 8))) (other.output.take (op + 8 + 8))) :=
      copyStripes_output (by decide) within' short (by rw [written.size, size]; simp; omega)
    have part := stripes.take (by rw [written.size, size]; omega) (length - 16)
    rwa [take_again within' (by omega)] at part
  next short =>
    have none : length - 16 = 0 := by omega
    rw [none]
    exact ⟨other, rfl, .refl other _⟩

/-- A pattern that holds whole periods of the offset. -/
theorem storePattern_writes (holds : Holds memory op out) (positive : 0 < offset) (reaches : offset ≤ op) {steps : Nat}
    (whole : 8 = offset + steps * offset) (room : op + 8 ≤ memory.output.length ∧ cpy + 8 ≤ memory.output.length + 1) :
    Writes (storePattern memory (again offset 8 out) op cpy) memory op (matched offset (cpy - op) out) := by
  have within := holds.within positive reaches
  have size : (again offset 8 out).length = 8 := by
    rw [← holds.output]
    exact length_again within 8
  have long : cpy - op ≤ 8 + (cpy - (op + 8)) := by omega
  have first : Writes (memory.store op (again offset 8 out)) memory op (again offset 8 (memory.output.take op)) := by
    rw [holds.output]
    exact store_writes (by rw [size]; omega)
  have all : Writes (storePattern memory (again offset 8 out) op cpy) memory op
      (again offset (8 + (cpy - (op + 8))) (memory.output.take op)) := by
    apply Writes.again within first
    intro middle written within'
    apply storeStripes_output within' (by rw [size]; exact whole)
    · rw [size, written.follows within, holds.output, whole, again_period (holds.output ▸ within) steps]
    · rw [size, written.size]
      omega
  have part := all.take holds.inside (cpy - op)
  rw [take_again within long, holds.output] at part
  rwa [matched_positive positive]

theorem load_last (holds : Holds memory op out) (reaches : offset ≤ op) :
    memory.load .output (op - offset) offset = .ok (out.drop (out.length - offset)) := by
  have inside := holds.inside
  have last : (memory.output.drop (op - offset)).take offset = out.drop (out.length - offset) := by
    rw [← holds.place, ← holds.output, List.drop_take]
    congr 1
    omega
  rw [load, if_pos (by rw [block]; omega)]
  exact congrArg Except.ok last

theorem memcpyUsingOffset_writes (holds : Holds memory op out) (reaches : offset ≤ op)
    (room : op + 16 ≤ memory.output.length ∧ cpy + 8 ≤ memory.output.length + 1) :
    Writes (memcpyUsingOffset memory op (op - offset) cpy offset) memory op (matched offset (cpy - op) out) := by
  have pattern {times : Nat} (positive : 0 < offset) (whole : times * offset = 8) :
      (List.replicate times (out.drop (out.length - offset))).flatten = again offset 8 out := by
    rw [← whole, again_periods ⟨positive, by rw [← holds.place]; exact reaches⟩]
  have stored {steps : Nat} (positive : 0 < offset) (whole : 8 = offset + steps * offset) :=
    storePattern_writes holds positive reaches whole (by omega : op + 8 ≤ memory.output.length ∧
      cpy + 8 ≤ memory.output.length + 1)
  unfold memcpyUsingOffset
  split
  next one =>
    subst one
    rw [load_last holds reaches]
    simp only [bind, Except.bind]
    rw [pattern (by decide) (by decide : 8 * 1 = 8)]
    exact stored (by decide) (by decide : 8 = 1 + 7 * 1)
  next =>
    split
    next two =>
      subst two
      rw [load_last holds reaches]
      simp only [bind, Except.bind]
      rw [pattern (by decide) (by decide : 4 * 2 = 8)]
      exact stored (by decide) (by decide : 8 = 2 + 3 * 2)
    next =>
      split
      next four =>
        subst four
        rw [load_last holds reaches]
        simp only [bind, Except.bind]
        rw [pattern (by decide) (by decide : 2 * 4 = 8)]
        exact stored (by decide) (by decide : 8 = 4 + 1 * 4)
      next => exact memcpyUsingOffsetBase_writes holds reaches room

theorem wildCopy32_match (holds : Holds memory op out) (far : 16 ≤ offset) (reaches : offset ≤ op)
    (room : op + 32 ≤ memory.output.length ∧ cpy + 32 ≤ memory.output.length + 1) :
    Writes (wildCopy32 memory op .output (op - offset) cpy) memory op (matched offset (cpy - op) out) := by
  have within := holds.within (Nat.lt_of_lt_of_le (by decide) far) reaches
  have short : ∀ piece ∈ [16, 16], piece ≤ offset := by
    intro piece member
    simp only [List.mem_cons, List.not_mem_nil, or_false] at member
    omega
  have whole : Writes (wildCopy32 memory op .output (op - offset) cpy) memory op
      (again offset (max 32 (cpy - op)) (memory.output.take op)) :=
    copyStripes_output (by decide) within short room
  have part := whole.take holds.inside (cpy - op)
  rwa [take_again within (by omega), holds.output, ← matched_positive within.positive] at part

theorem wildCopy_literals {counts : List Nat} {ip : Nat} (positive : 0 < counts.sum) (count : Nat)
    (inside : ip + counts.sum ≤ memory.input.length ∧ ip + count + counts.sum ≤ memory.input.length + 1)
    (room : op + counts.sum ≤ memory.output.length ∧ op + count + counts.sum ≤ memory.output.length + 1) :
    Writes (memory.copyStripes counts op .input ip (op + count)) memory op ((memory.input.drop ip).take count) := by
  have whole : Writes (memory.copyStripes counts op .input ip (op + count)) memory op
      ((memory.input.drop ip).take (max counts.sum (op + count - op))) :=
    copyStripes_input positive (by omega) (by omega)
  have part := whole.take (by omega) count
  rwa [List.take_take, Nat.min_eq_left (by omega)] at part

end VirtualLan.LZ4
