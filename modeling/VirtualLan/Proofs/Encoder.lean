import VirtualLan.Lz4Encoder
import VirtualLan.Proofs.Decoder
import VirtualLan.Proofs.Blocks

/-! What the writer of blocks writes, and that it stays within the room it is given. -/

namespace VirtualLan.LZ4
open Memory Repetition
open LiteralLz4 (lengthBytes)

variable {source out later done rest : Bytes} {capacity op anchor : Nat} {memory : Memory UInt8}
  {limit : LimitedOutputDirective} {sequence : Sequence}

/-- The output of a writer that has come to `op`. -/
structure Progress (source : Bytes) (capacity op : Nat) (memory : Memory UInt8) (out : Bytes) : Prop where
  keeps : Keeps source capacity memory
  holds : Holds memory op out

theorem Progress.goes {data : Bytes} {result : Except Misuse (Memory UInt8)} (progress : Progress source capacity op memory out)
    (writes : Writes result memory op data) (fits : op + data.length ≤ capacity) : ∃ after, result = .ok after ∧
      Progress source capacity (op + data.length) after (out ++ data) := by
  obtain ⟨after, same, written⟩ := writes
  refine ⟨after, same, progress.keeps.written written, progress.holds.written written ?_⟩
  rw [progress.keeps.size]
  exact fits

theorem Progress.store (progress : Progress source capacity op memory out) {data : Bytes}
    (fits : op + data.length ≤ capacity) : ∃ after, memory.store op data = .ok after ∧
      Progress source capacity (op + data.length) after (out ++ data) :=
  progress.goes (store_writes (by rw [progress.keeps.size]; exact fits)) fits

theorem Progress.put (progress : Progress source capacity op memory out) (byte : UInt8) (fits : op < capacity) : ∃ after,
    memory.store op [byte] = .ok after ∧ Progress source capacity (op + 1) after (out ++ [byte]) :=
  progress.store fits

/-- A function that writes these bytes at `op` and returns the place behind them. -/
def Puts (source : Bytes) (capacity : Nat) (result : Except Misuse (Memory UInt8 × Nat)) (op : Nat) (out data : Bytes) : Prop :=
  ∃ after, result = .ok (after, op + data.length) ∧ Progress source capacity (op + data.length) after (out ++ data)

theorem Puts.nil (progress : Progress source capacity op memory out) : Puts source capacity (.ok (memory, op)) op out [] :=
  ⟨memory, rfl, by rw [List.append_nil]; exact progress⟩

/-- A byte before them. -/
theorem Puts.cons {middle : Memory UInt8} {byte : UInt8} {data : Bytes} {next : Memory UInt8 → Except Misuse (Memory UInt8 × Nat)}
    (stored : memory.store op [byte] = .ok middle) (puts : Puts source capacity (next middle) (op + 1) (out ++ [byte]) data) :
    Puts source capacity ((memory.store op [byte]).bind next) op out (byte :: data) := by
  obtain ⟨after, same, progress⟩ := puts
  have place : op + 1 + data.length = op + (byte :: data).length := by rw [List.length_cons, Nat.add_assoc, Nat.add_comm 1]
  rw [place] at same progress
  rw [List.append_assoc] at progress
  refine ⟨after, ?_, progress⟩
  rw [stored]
  exact same

theorem writeLength_puts {len : Nat} (progress : Progress source capacity op memory out)
    (room : op + (lengthBytes len).length ≤ capacity) :
    Puts source capacity (writeLength memory op len) op out (lengthBytes len) := by
  induction len using Nat.strongRecOn generalizing memory op out with
  | ind len ih =>
    rw [writeLength]
    split
    next long =>
      rw [lengthBytes_step long] at room ⊢
      rw [List.length_cons] at room
      obtain ⟨middle, stored, progress'⟩ := progress.put 255 (by omega)
      exact Puts.cons stored (ih (len - 255) (by omega) progress' (by omega))
    next short =>
      rw [lengthBytes_small (by omega)] at room ⊢
      obtain ⟨after, stored, progress'⟩ := progress.put (UInt8.ofNat len) room
      exact Puts.cons stored (.nil progress')

theorem writeMatchLength_puts {mlCode : Nat} (progress : Progress source capacity op memory out)
    (room : op + (lengthBytes mlCode).length ≤ capacity) :
    Puts source capacity (writeMatchLength memory op mlCode) op out (lengthBytes mlCode) := by
  induction mlCode using Nat.strongRecOn generalizing memory op out with
  | ind mlCode ih =>
    rw [writeMatchLength]
    split
    next long =>
      have twice : lengthBytes mlCode = 255 :: 255 :: lengthBytes (mlCode - 510) := by
        rw [lengthBytes_step (by omega), lengthBytes_step (by omega), Nat.sub_sub]
      rw [twice] at room ⊢
      simp only [List.length_cons] at room
      obtain ⟨first, stored, progress'⟩ := progress.put 255 (by omega)
      obtain ⟨second, stored', progress''⟩ := progress'.put 255 (by omega)
      exact Puts.cons stored (Puts.cons stored' (ih (mlCode - 510) (by omega) progress'' (by omega)))
    next few =>
      split
      next long =>
        rw [lengthBytes_step long, lengthBytes_small (by omega)] at room ⊢
        simp only [List.length_cons, List.length_nil] at room
        obtain ⟨first, stored, progress'⟩ := progress.put 255 (by omega)
        obtain ⟨second, stored', progress''⟩ := progress'.put (UInt8.ofNat (mlCode - 255)) (by omega)
        exact Puts.cons stored (Puts.cons stored' (.nil progress''))
      next short =>
        rw [lengthBytes_small (by omega)] at room ⊢
        obtain ⟨after, stored, progress'⟩ := progress.put (UInt8.ofNat mlCode) room
        exact Puts.cons stored (.nil progress')

theorem writeRun_puts {litLen : Nat} (progress : Progress source capacity op memory out)
    (room : op + 1 + (extension litLen).length ≤ capacity) :
    Puts source capacity (writeRun memory op (op + 1) litLen) op out (tokenByte litLen 0 :: extension litLen) := by
  obtain ⟨middle, stored, progress'⟩ := progress.put (tokenByte litLen 0) (by omega)
  unfold writeRun extension at *
  by_cases long : runMask ≤ litLen
  · rw [if_neg (Nat.not_lt_of_le long)] at room ⊢
    have token : tokenByte litLen 0 = UInt8.ofNat (runMask * 16) := by rw [tokenByte, Nat.min_eq_right long]; rfl
    rw [token] at stored progress' ⊢
    rw [if_pos long]
    exact Puts.cons stored (writeLength_puts progress' room)
  · have short := Nat.lt_of_not_le long
    rw [if_pos short]
    have token : tokenByte litLen 0 = UInt8.ofNat (litLen * 16) := by
      rw [tokenByte, Nat.min_eq_left (Nat.le_of_lt short)]
      rfl
    rw [token] at stored progress' ⊢
    rw [if_neg long]
    exact Puts.cons stored (.nil progress')

/-- The lower half of a token that is written already. -/
theorem addToToken_writes {literals value : Nat}
    (progress : Progress source capacity op memory (out ++ tokenByte literals 0 :: later)) (small : value ≤ mlMask) :
    ∃ after, addToToken memory out.length value = .ok after ∧
      Progress source capacity op after (out ++ tokenByte literals value :: later) := by
  have holds := progress.holds
  have place := holds.place
  have inside := holds.inside
  rw [List.length_append, List.length_cons] at place
  have read : (memory.output.drop out.length).take 1 = [tokenByte literals 0] := by
    have whole := congrArg (fun bytes : Bytes => (bytes.drop out.length).take 1) holds.output
    simp only [List.drop_left, List.take_succ_cons, List.take_zero] at whole
    rw [← whole, List.drop_take, List.take_take, Nat.min_eq_left (by omega)]
  have loaded : memory.load .output out.length 1 = .ok [tokenByte literals 0] := by
    rw [load, if_pos (by rw [block]; omega), block, read]
  have sum : tokenByte literals 0 + UInt8.ofNat value = tokenByte literals value := by
    rw [tokenByte, tokenByte, ← UInt8.ofNat_add, Nat.min_eq_left small]
    rfl
  have patched : out.length + [tokenByte literals value].length ≤ op := by
    rw [List.length_singleton]
    omega
  obtain ⟨after, stored, input, size, output⟩ := store_inside patched inside
  refine ⟨after, ?_, ⟨input.trans progress.keeps.input, size.trans progress.keeps.size⟩, ?_⟩
  · simp only [addToToken, loaded, bind, Except.bind, List.map_cons, List.map_nil, sum]
    exact stored
  · refine ⟨by rw [List.length_append, List.length_cons, place], by rw [size]; exact inside, ?_⟩
    rw [output, holds.output, List.take_left, List.length_singleton, List.append_assoc]
    congr 2
    rw [← List.drop_drop, List.drop_left]
    rfl

/-- A match length, in the token and from `op` on. -/
theorem matchLength_writes {literals mlCode : Nat}
    (progress : Progress source capacity op memory (out ++ tokenByte literals 0 :: later))
    (room : op + (extension mlCode).length ≤ capacity) : ∃ after,
    (if mlMask ≤ mlCode then (addToToken memory out.length mlMask).bind fun memory =>
        (writeMatchLength memory op (mlCode - mlMask)).bind fun wrote => .ok (some wrote)
      else (addToToken memory out.length mlCode).bind fun memory => .ok (some (memory, op))) =
        .ok (some (after, op + (extension mlCode).length)) ∧
      Progress source capacity (op + (extension mlCode).length) after
        (out ++ tokenByte literals mlCode :: later ++ extension mlCode) := by
  by_cases long : mlMask ≤ mlCode
  · have token : tokenByte literals mlCode = tokenByte literals mlMask := by
      rw [tokenByte, tokenByte, Nat.min_eq_right long, Nat.min_self]
    obtain ⟨middle, added, progress'⟩ := addToToken_writes progress (Nat.le_refl mlMask)
    have written : extension mlCode = lengthBytes (mlCode - mlMask) := if_neg (Nat.not_lt_of_le long)
    rw [written] at room ⊢
    obtain ⟨after, wrote, progress''⟩ := writeMatchLength_puts progress' room
    rw [if_pos long, token, added]
    refine ⟨after, ?_, progress''⟩
    simp only [Except.bind, wrote]
  · have short := Nat.lt_of_not_le long
    have written : extension mlCode = [] := if_pos short
    obtain ⟨after, added, progress'⟩ := addToToken_writes progress (Nat.le_of_lt short)
    rw [if_neg long, written, added, List.append_nil]
    exact ⟨after, rfl, progress'⟩

/-- There is room for a sequence and some bytes more. -/
def Spacious (capacity op : Nat) (sequence : Sequence) : Prop :=
  op + sequence.literals + sequence.literals / 255 + (sequence.length - minMatch) / 255 + 10 ≤ capacity

theorem encodeSequence_writes (progress : Progress source capacity op memory out) (here : From source anchor rest)
    (found : sequence.Found done rest) (room : limit = .notLimited → Spacious capacity op sequence) :
    ∃ result, encodeSequence limit memory anchor op sequence = .ok result ∧
      (result = none ∧ limit = .limitedOutput ∨ ∃ after,
        result = some (after, op + (sequenceBytes sequence (rest.take sequence.literals)).length) ∧
        Progress source capacity (op + (sequenceBytes sequence (rest.take sequence.literals)).length) after
          (out ++ sequenceBytes sequence (rest.take sequence.literals))) := by
  have starts := found.starts
  have size := here.size
  have first := length_extension sequence.literals
  have second := length_extension (sequence.length - minMatch)
  unfold encodeSequence
  simp only [bind, Except.bind, progress.keeps.size]
  split
  next cramped => exact ⟨none, rfl, .inl ⟨rfl, cramped.1⟩⟩
  next wide =>
    have room₁ : op + 1 + sequence.literals / 255 + sequence.literals + 8 ≤ capacity := by
      cases limit with
      | limitedOutput => simpa [lastLiterals] using wide
      | notLimited =>
        have spacious := room rfl
        unfold Spacious at spacious
        omega
    obtain ⟨memory₁, wrote, progress₁⟩ := writeRun_puts progress
      (by omega : op + 1 + (extension sequence.literals).length ≤ capacity)
    rw [List.length_cons] at wrote progress₁
    generalize placed : op + ((extension sequence.literals).length + 1) = op₁ at wrote progress₁
    have copies : Writes (wildCopy8 memory₁ op₁ .input anchor (op₁ + sequence.literals)) memory₁ op₁
        ((memory₁.input.drop anchor).take sequence.literals) := by
      apply wildCopy_literals (by decide)
      · rw [progress₁.keeps.input, List.sum_singleton]
        simp only [mfLimit] at starts
        omega
      · rw [progress₁.keeps.size, List.sum_singleton]
        omega
    rw [progress₁.keeps.input, ← here.rest] at copies
    have few : (rest.take sequence.literals).length = sequence.literals := by
      rw [List.length_take]
      omega
    obtain ⟨memory₂, copied, progress₂⟩ := progress₁.goes copies (by rw [few]; omega)
    rw [few] at progress₂
    have two : [UInt8.ofNat sequence.offset, UInt8.ofNat (sequence.offset / 256)].length = 2 := rfl
    obtain ⟨memory₃, stored, progress₃⟩ := progress₂.store (by rw [two]; omega)
    rw [two] at progress₃
    simp only [wrote, copied, writeLE16, stored]
    split
    next cramped => exact ⟨none, rfl, .inl ⟨rfl, cramped.1⟩⟩
    next wide' =>
      have room₂ : op₁ + sequence.literals + 2 + (sequence.length - minMatch) / 255 + 1 ≤ capacity := by
        cases limit with
        | limitedOutput =>
          simp [lastLiterals] at wide'
          omega
        | notLimited =>
          have spacious := room rfl
          unfold Spacious at spacious
          omega
      have arranged : out ++ tokenByte sequence.literals 0 :: extension sequence.literals ++ rest.take sequence.literals ++
          [UInt8.ofNat sequence.offset, UInt8.ofNat (sequence.offset / 256)] = out ++ tokenByte sequence.literals 0 ::
            (extension sequence.literals ++ rest.take sequence.literals ++
              [UInt8.ofNat sequence.offset, UInt8.ofNat (sequence.offset / 256)]) := by
        simp only [List.append_assoc, List.cons_append]
      rw [arranged] at progress₃
      obtain ⟨after, same, progress₄⟩ := matchLength_writes progress₃
        (by omega : op₁ + sequence.literals + 2 + (extension (sequence.length - minMatch)).length ≤ capacity)
      rw [← progress.holds.place] at same
      have whole : op₁ + sequence.literals + 2 + (extension (sequence.length - minMatch)).length =
          op + (sequenceBytes sequence (rest.take sequence.literals)).length := by
        rw [length_sequenceBytes, few]
        omega
      rw [whole] at same progress₄
      rw [List.append_assoc, List.cons_append] at progress₄
      exact ⟨_, same, .inr ⟨after, rfl, progress₄⟩⟩

/-- What the writer returns: nothing for want of room, where it looks for that, or
the block. -/
inductive Encoded (source : Bytes) (capacity : Nat) (limit : LimitedOutputDirective) (block : Bytes) :
    Except Misuse (Int × Memory UInt8) → Prop where
  | full {memory : Memory UInt8} (keeps : Keeps source capacity memory) (checked : limit = .limitedOutput) :
      Encoded source capacity limit block (.ok (0, memory))
  | written {memory : Memory UInt8} (progress : Progress source capacity block.length memory block) :
      Encoded source capacity limit block (.ok (block.length, memory))

theorem encodeLastLiterals_writes (progress : Progress source capacity op memory out) (here : From source anchor rest)
    (room : limit = .notLimited → op + (blockBytes [] rest).length ≤ capacity) :
    Encoded source capacity limit (out ++ blockBytes [] rest) (encodeLastLiterals limit memory anchor op) := by
  have size := here.size
  have left : source.length - anchor = rest.length := by omega
  unfold encodeLastLiterals
  simp only [bind, Except.bind, progress.keeps.size, progress.keeps.input, left, ← length_last]
  split
  next cramped => exact .full progress.keeps cramped.1
  next wide =>
    have room' : op + (blockBytes [] rest).length ≤ capacity := by
      cases limit with
      | limitedOutput => simpa using wide
      | notLimited => exact room rfl
    have whole : op + (tokenByte rest.length 0 :: extension rest.length).length + rest.length =
        op + (blockBytes [] rest).length := by
      simp only [blockBytes, List.length_cons, List.length_append]
      omega
    obtain ⟨middle, wrote, progress₁⟩ := writeRun_puts progress
      (by rw [List.length_cons] at whole; omega : op + 1 + (extension rest.length).length ≤ capacity)
    generalize op + (tokenByte rest.length 0 :: extension rest.length).length = op₁ at wrote progress₁ whole
    have copies : Writes (middle.copy op₁ .input anchor rest.length) middle op₁ ((middle.input.drop anchor).take rest.length) :=
      copy_input (by rw [progress₁.keeps.input]; omega) (by rw [progress₁.keeps.size]; omega)
    rw [progress₁.keeps.input, ← here.rest, List.take_length] at copies
    obtain ⟨after, copied, progress₂⟩ := progress₁.goes copies (by omega)
    have arranged : out ++ tokenByte rest.length 0 :: extension rest.length ++ rest = out ++ blockBytes [] rest := by
      simp only [blockBytes, List.append_assoc, List.cons_append]
    rw [arranged] at progress₂
    simp only [wrote, copied]
    have place := progress₂.holds.place
    rw [place] at progress₂ ⊢
    exact .written progress₂

/-- In the capacity of `LZ4_compressBound`, a writer that keeps to the pace of one
byte more for every 255 has room for what comes next. -/
theorem Sequence.Found.spacious (found : sequence.Found done rest) (here : From source anchor rest)
    (ahead : op ≤ anchor + anchor / 255) (bound : source.length + source.length / 255 + 16 ≤ capacity) :
    Spacious capacity op sequence := by
  have size := here.size
  have long := found.long
  have starts := found.starts
  have ends := found.ends
  unfold Spacious
  simp only [minMatch, mfLimit, lastLiterals] at long starts ends ⊢
  omega

theorem sequenceBytes_ahead {literals : Bytes} (long : minMatch ≤ sequence.length)
    (few : literals.length = sequence.literals) (ahead : op ≤ anchor + anchor / 255) :
    op + (sequenceBytes sequence literals).length ≤
      anchor + sequence.literals + sequence.length + (anchor + sequence.literals + sequence.length) / 255 := by
  have first := length_extension sequence.literals
  have second := length_extension (sequence.length - minMatch)
  rw [length_sequenceBytes, few]
  simp only [minMatch] at long second ⊢
  omega

theorem encode_writes {sequences : List Sequence} (parses : Parses done rest sequences)
    (progress : Progress source capacity op memory out) (here : From source anchor rest)
    (room : limit = .notLimited → op ≤ anchor + anchor / 255 ∧ source.length + source.length / 255 + 16 ≤ capacity) :
    Encoded source capacity limit (out ++ blockBytes sequences rest) (encode limit memory anchor op sequences) := by
  induction parses generalizing memory anchor op out with
  | done done rest =>
    apply encodeLastLiterals_writes progress here
    intro unlimited
    obtain ⟨ahead, bound⟩ := room unlimited
    have size := here.size
    rw [length_last]
    simp only [runMask]
    omega
  | @next done rest sequence sequences found later ih =>
    have ends := found.ends
    have few : (rest.take sequence.literals).length = sequence.literals := by
      rw [List.length_take]
      omega
    obtain ⟨result, same, cases⟩ := encodeSequence_writes progress here found
      (fun unlimited => found.spacious here (room unlimited).1 (room unlimited).2)
    rw [encode, same]
    obtain ⟨rfl, checked⟩ | ⟨after, rfl, progress'⟩ := cases
    · exact .full progress.keeps checked
    · have here' := here.drop (by omega : sequence.literals + sequence.length ≤ rest.length)
      rw [← Nat.add_assoc] at here'
      rw [blockBytes, ← List.append_assoc]
      apply ih progress' here'
      intro unlimited
      exact ⟨sequenceBytes_ahead found.long few (room unlimited).1, (room unlimited).2⟩

theorem compressHC_encodes (search : Bytes → List Sequence) (source dest : Bytes) (parses : Parses [] source (search source))
    (small : source.length ≤ Lz4.maxInputSize) :
    Encoded source dest.length (limitOf dest.length source.length) (blockBytes (search source) source)
      (compressHC search source dest) := by
  have progress : Progress source dest.length 0 ⟨source, dest⟩ [] := ⟨⟨rfl, rfl⟩, ⟨rfl, Nat.zero_le _, rfl⟩⟩
  have here : From source 0 source := ⟨rfl, Nat.zero_le _⟩
  have bound : Lz4.compressBound source.length = source.length + source.length / 255 + 16 :=
    if_neg (Nat.not_lt_of_le small)
  rw [compressHC, if_neg (Nat.not_lt_of_le small)]
  by_cases none : dest.length < 1
  · have limited : limitOf dest.length source.length = .limitedOutput := if_pos (by omega)
    rw [if_pos none]
    exact .full progress.keeps limited
  · rw [if_neg none]
    by_cases empty : source.length = 0
    · obtain rfl := List.length_eq_zero_iff.mp empty
      obtain ⟨after, stored, progress'⟩ := progress.put 0 (by omega)
      have block : blockBytes (search []) [] = [0] := by rw [parses.nil]; rfl
      rw [if_pos empty, stored, block]
      exact .written progress'
    · rw [if_neg empty]
      apply encode_writes parses progress here
      intro unlimited
      have enough : ¬ dest.length < Lz4.compressBound source.length := by
        intro less
        rw [limitOf, if_pos less] at unlimited
        cases unlimited
      omega

/-- For matches that describe the source, and any destination, the writer makes no
access out of place. It has written the block when it returns, or it returns zero,
which it never does in the room of `LZ4_compressBound`. -/
theorem compressHC_writes (search : Bytes → List Sequence) (source dest : Bytes) (parses : Parses [] source (search source))
    (small : source.length ≤ Lz4.maxInputSize) : ∃ code memory, compressHC search source dest = .ok (code, memory) ∧
      memory.input = source ∧ memory.output.length = dest.length ∧
      (code = 0 ∧ dest.length < Lz4.compressBound source.length ∨
        code = (blockBytes (search source) source).length ∧
          memory.output.take (blockBytes (search source) source).length = blockBytes (search source) source) := by
  have encodes := compressHC_encodes search source dest parses small
  generalize compressHC search source dest = result at encodes
  cases encodes with
  | @full memory keeps checked =>
    refine ⟨0, memory, rfl, keeps.input, keeps.size, .inl ⟨rfl, ?_⟩⟩
    by_contra enough
    rw [limitOf, if_neg enough] at checked
    cases checked
  | @written memory progress =>
    exact ⟨_, memory, rfl, progress.keeps.input, progress.keeps.size, .inr ⟨rfl, progress.holds.output⟩⟩

/-- A search that knows one source, a run of twenty bytes. Its match begins behind the
first byte and leaves the last five. -/
def runSearch (source : Bytes) : List Sequence := if source = List.replicate 20 7 then [⟨1, 14, 1⟩] else []

theorem runSearch_parses (source : Bytes) : Parses [] source (runSearch source) := by
  unfold runSearch
  split
  next run =>
    subst run
    refine .next ⟨by decide, by decide, by decide, by decide, by decide, by decide, ?_⟩ (.done _ _)
    decide
  next => exact .done _ _

theorem compressHC_writes_run : ∃ code memory,
    compressHC runSearch (List.replicate 20 7) (List.replicate 36 0) = .ok (code, memory) ∧
      memory.input = List.replicate 20 7 ∧ memory.output.length = 36 ∧
      (code = 0 ∧ 36 < 36 ∨ code = 10 ∧ memory.output.take 10 = [0x1a, 7, 1, 0, 0x50, 7, 7, 7, 7, 7]) :=
  compressHC_writes runSearch (List.replicate 20 7) (List.replicate 36 0) (runSearch_parses _) (by decide)

end VirtualLan.LZ4
