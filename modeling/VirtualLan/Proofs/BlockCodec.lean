import VirtualLan.Proofs.Encoder

/-! The decoder and the writer of blocks together, and what they are to the client. -/

namespace VirtualLan.LZ4
open Memory

variable {source dest data bytes : Bytes} {capacity : Nat} {sequences : List Sequence}

theorem plainBlock_encodes (read : plainBlock capacity bytes = .ok data) : Encodes [] bytes data := by
  unfold plainBlock at read
  split at read
  next =>
    split at read
    next empty =>
      cases read
      exact ⟨[], [], [], 0, .done [], rfl, empty⟩
    next => cases read
  next =>
    cases accepted : plain capacity [] bytes with
    | ok data' =>
      rw [accepted] at read
      cases read
      exact plain_encodes accepted
    | error left =>
      rw [accepted] at read
      cases read

/-- The decoder, with its two loops and its copies in blocks, returns what the plain one
returns, byte for byte and down to the place of an error. -/
theorem decompressSafe_agrees (source dest : Bytes) : ∃ code memory,
    decompressSafe source dest = .ok (.returned code memory) ∧
      (∀ data, plainBlock dest.length source = .ok data → code = data.length ∧ memory.output.take data.length = data) ∧
      ∀ place : Nat, plainBlock dest.length source = .error place → code = -place - 1 := by
  obtain ⟨outcome, same, reports⟩ := decompressSafe_reports source dest
  generalize plainBlock dest.length source = result at reports
  cases reports with
  | @decoded data memory keeps holds =>
    refine ⟨_, memory, same, ?_, ?_⟩
    · intro other accepted
      cases accepted
      exact ⟨rfl, holds.output⟩
    · intro place refused
      cases refused
  | @refused place memory keeps =>
    refine ⟨_, memory, same, ?_, ?_⟩
    · intro other accepted
      cases accepted
    · intro other refused
      cases refused
      rfl

/-- Whatever stands in the source, the decoder returns, with no access out of place.
Either it refuses the source, or the source has a meaning, only one, and the output
begins with it. -/
theorem decompressSafe_understands (source dest : Bytes) : ∃ code memory,
    decompressSafe source dest = .ok (.returned code memory) ∧ memory.input = source ∧
      memory.output.length = dest.length ∧ (code < 0 ∨ ∃ data : Bytes, code = data.length ∧
        memory.output.take data.length = data ∧ ∀ other, Encodes [] source other ↔ other = data) := by
  obtain ⟨outcome, same, reports⟩ := decompressSafe_reports source dest
  generalize decoded : plainBlock dest.length source = result at reports
  cases reports with
  | @decoded data memory keeps holds =>
    refine ⟨_, memory, same, keeps.input, keeps.size, .inr ⟨data, rfl, holds.output, ?_⟩⟩
    have meaning := plainBlock_encodes decoded
    intro other
    constructor
    · intro another
      exact encodes_unique another meaning
    · rintro rfl
      exact meaning
  | @refused place memory keeps =>
    refine ⟨_, memory, same, keeps.input, keeps.size, .inl ?_⟩
    omega

theorem plainBlock_fits (read : plainBlock capacity bytes = .ok data) : data.length ≤ capacity := by
  have size : (List.replicate capacity (0 : UInt8)).length = capacity := List.length_replicate
  obtain ⟨outcome, _, reports⟩ := decompressSafe_reports bytes (List.replicate capacity 0)
  rw [size, read] at reports
  cases reports with
  | decoded keeps holds =>
    rw [← keeps.size]
    exact holds.inside

theorem plainBlock_short (parses : Parses [] data sequences) (short : capacity < data.length) :
    ∃ place, plainBlock capacity (blockBytes sequences data) = .error place := by
  cases read : plainBlock capacity (blockBytes sequences data) with
  | error place => exact ⟨place, rfl⟩
  | ok other =>
    have meaning := plainBlock_encodes (plainBlock_blockBytes parses (Nat.le_refl _))
    obtain rfl := encodes_unique meaning (plainBlock_encodes read)
    exact absurd (plainBlock_fits read) (Nat.not_le_of_lt short)

/-- The block of some data comes back from every destination that has room for the
data, and is refused by every other. -/
theorem decompressSafe_block (parses : Parses [] data sequences) (dest : Bytes) : ∃ code memory,
    decompressSafe (blockBytes sequences data) dest = .ok (.returned code memory) ∧
      if data.length ≤ dest.length then code = data.length ∧ memory.output.take data.length = data else code < 0 := by
  obtain ⟨outcome, same, reports⟩ := decompressSafe_reports (blockBytes sequences data) dest
  split
  next fits =>
    rw [plainBlock_blockBytes parses fits] at reports
    cases reports with
    | decoded keeps holds => exact ⟨_, _, same, rfl, holds.output⟩
  next short =>
    obtain ⟨place, refused⟩ := plainBlock_short parses (Nat.lt_of_not_le short)
    rw [refused] at reports
    cases reports with
    | refused keeps => exact ⟨_, _, same, by omega⟩

theorem decompressSafe_block_run : ∃ code memory,
    decompressSafe [0x1a, 7, 1, 0, 0x50, 7, 7, 7, 7, 7] (List.replicate 20 0) = .ok (.returned code memory) ∧
      code = 20 ∧ memory.output.take 20 = List.replicate 20 7 :=
  decompressSafe_block (runSearch_parses (List.replicate 20 7)) (List.replicate 20 0)

theorem plainBlock_wider {capacity' : Nat} (wider : capacity ≤ capacity') (read : plainBlock capacity bytes = .ok data) :
    plainBlock capacity' bytes = .ok data := by
  unfold plainBlock at read ⊢
  by_cases none' : capacity' = 0
  · have none : capacity = 0 := by omega
    rw [if_pos none] at read
    rwa [if_pos none']
  · rw [if_neg none']
    by_cases none : capacity = 0
    · rw [if_pos none] at read
      split at read
      next empty =>
        cases read
        have last : plainStep capacity' [] bytes = .decoded [] := by
          rw [empty]
          exact @plainStep_last [] [] capacity' 0 (Nat.zero_le _)
        rw [plain_decoded last]
        rfl
      next => cases read
    · rw [if_neg none] at read
      cases accepted : plain capacity [] bytes with
      | ok data' =>
        rw [accepted] at read
        rw [plain_wider wider accepted]
        exact read
      | error left =>
        rw [accepted] at read
        cases read

/-- What some destination accepts, every larger one accepts as the same data, be it
decoded in the fast loop or in the safe one. -/
theorem decompressSafe_wider (source dest dest' : Bytes) (wider : dest.length ≤ dest'.length) : ∃ code code' memory memory',
    decompressSafe source dest = .ok (.returned code memory) ∧ decompressSafe source dest' = .ok (.returned code' memory') ∧
      (code < 0 ∨ code' = code ∧ memory'.output.take code.toNat = memory.output.take code.toNat) := by
  obtain ⟨outcome, same, reports⟩ := decompressSafe_reports source dest
  obtain ⟨outcome', same', reports'⟩ := decompressSafe_reports source dest'
  generalize decoded : plainBlock dest.length source = result at reports
  cases reports with
  | @decoded data memory keeps holds =>
    rw [plainBlock_wider wider decoded] at reports'
    cases reports' with
    | @decoded data memory' keeps' holds' =>
      refine ⟨_, _, memory, memory', same, same', .inr ⟨rfl, ?_⟩⟩
      rw [Int.toNat_natCast, holds.output, holds'.output]
  | @refused place memory keeps =>
    have negative : -(place : Int) - 1 < 0 := by omega
    generalize plainBlock dest'.length source = result' at reports'
    cases reports' with
    | decoded keeps' holds' => exact ⟨_, _, _, _, same, same', .inl negative⟩
    | refused keeps' => exact ⟨_, _, _, _, same, same', .inl negative⟩

theorem decompressSafe_wider_literals : ∃ code code' memory memory',
    decompressSafe [0x10, 7] [0] = .ok (.returned code memory) ∧
      decompressSafe [0x10, 7] (List.replicate 64 1) = .ok (.returned code' memory') ∧
      (code < 0 ∨ code' = code ∧ memory'.output.take code.toNat = memory.output.take code.toNat) :=
  decompressSafe_wider [0x10, 7] [0] (List.replicate 64 1) (by decide)

section Library
variable {search : Bytes → List Sequence} {fresh : Nat → Bytes} {packet : Bytes}

end Library

end VirtualLan.LZ4
