import VirtualLan.Proofs.DecoderCopies

/-! The decoder of the source against the plain one. A pass through either loop does
what the plain decoder does with one sequence, and no access of it is out of place. -/

namespace VirtualLan.LZ4
open Memory Repetition

/-- The bytes from `ip` on. -/
structure From (source : Bytes) (ip : Nat) (rest : Bytes) : Prop where
  rest : rest = source.drop ip
  inside : ip ≤ source.length

/-- The memory of a decoder for this source and this capacity. -/
structure Keeps (source : Bytes) (capacity : Nat) (memory : Memory UInt8) : Prop where
  input : memory.input = source
  size : memory.output.length = capacity

/-- The end of a pass against what the plain decoder makes of the same sequence. -/
inductive Simulates (source : Bytes) (capacity : Nat) : Outcome → Plain → Prop where
  | fast {ip op : Nat} {memory : Memory UInt8} {out rest : Bytes} (keeps : Keeps source capacity memory)
      (holds : Holds memory op out) (here : From source ip rest) (more : rest ≠ [])
      (room : op + fastLoopSafeDistance ≤ capacity) : Simulates source capacity (.fast ip op memory) (.next out rest)
  | safe {ip op : Nat} {memory : Memory UInt8} {out rest : Bytes} (keeps : Keeps source capacity memory)
      (holds : Holds memory op out) (here : From source ip rest) (more : rest ≠ []) :
      Simulates source capacity (.safe ip op memory) (.next out rest)
  | decoded {op : Nat} {memory : Memory UInt8} {out : Bytes} (keeps : Keeps source capacity memory)
      (holds : Holds memory op out) : Simulates source capacity (.returned op memory) (.decoded out)
  | refused {ip : Nat} {memory : Memory UInt8} {rest : Bytes} (keeps : Keeps source capacity memory)
      (here : From source ip rest) : Simulates source capacity (outputError memory ip) (.refused rest)

/-- The code runs to such an end. -/
def Runs (source : Bytes) (capacity : Nat) (result : Except Misuse Outcome) (plain : Plain) : Prop :=
  ∃ outcome, result = .ok outcome ∧ Simulates source capacity outcome plain

/-- A length as the code reads it, on top of `base`, against the sum of its bytes. -/
inductive ReadsAs (source : Bytes) (margin base : Nat) : Except Misuse Rvl → Except Bytes (Nat × Bytes) → Prop where
  | error {ip : Nat} {rest : Bytes} (here : From source ip rest) : ReadsAs source margin base (.ok (.error ip)) (.error rest)
  | length {ip more : Nat} {rest : Bytes} (here : From source ip rest) (left : margin ≤ rest.length) :
      ReadsAs source margin base (.ok (.length (base + more) ip)) (.ok (more, rest))

variable {source rest out : Bytes} {capacity ip op offset length : Nat} {memory : Memory UInt8} {token : UInt8}

theorem From.size (here : From source ip rest) : ip + rest.length = source.length := by
  rw [here.rest, List.length_drop]
  exact Nat.add_sub_cancel' here.inside

theorem From.drop (here : From source ip rest) {count : Nat} (fits : count ≤ rest.length) :
    From source (ip + count) (rest.drop count) where
  rest := by rw [here.rest, List.drop_drop]
  inside := by
    have size := here.size
    omega

theorem From.tail {byte : UInt8} (here : From source ip (byte :: rest)) : From source (ip + 1) rest :=
  here.drop (Nat.le_add_left 1 _)

theorem From.byte {byte : UInt8} (here : From source ip (byte :: rest)) : source[ip]? = some byte := by
  have first := congrArg (fun bytes : Bytes => bytes[0]?) here.rest
  simpa using first.symm

theorem Keeps.written {data : Bytes} {after : Memory UInt8} (keeps : Keeps source capacity memory)
    (written : Written memory op data after) : Keeps source capacity after :=
  ⟨written.input.trans keeps.input, written.size.trans keeps.size⟩

theorem readBytes_sums {margin base : Nat} {bytes : Bytes} (positive : 0 < margin) (here : From source ip bytes)
    (filled : bytes ≠ []) :
    ReadsAs source margin base (readBytes (source.length - margin) bytes ip base) (sumBytes margin bytes) := by
  induction bytes generalizing ip base with
  | nil => exact absurd rfl filled
  | cons s bytes ih =>
    have size := here.tail.size
    rw [readBytes, sumBytes]
    by_cases short : bytes.length < margin
    · rw [if_pos short, if_pos (by omega)]
      exact .error here.tail
    · rw [if_neg short, if_neg (by omega)]
      by_cases last : s ≠ 255
      · rw [if_pos last, if_pos last]
        exact .length here.tail (Nat.le_of_not_lt short)
      · obtain rfl := not_not.mp last
        rw [if_neg last, if_neg last]
        have filled' : bytes ≠ [] := by
          rintro rfl
          exact short positive
        have later := @ih (ip + 1) (base + 255) here.tail filled'
        have number : (255 : UInt8).toNat = 255 := rfl
        rw [number]
        generalize readBytes (source.length - margin) bytes (ip + 1) (base + 255) = result at later
        generalize sumBytes margin bytes = sum at later
        cases later with
        | error here => exact .error here
        | @length ip rest more here left =>
          rw [Nat.add_assoc]
          exact .length here left

theorem readVariableLength_sums {margin : Nat} (keeps : Keeps source capacity memory) (positive : 0 < margin)
    (here : From source ip rest) (filled : rest ≠ []) :
    ReadsAs source margin 0 (readVariableLength memory ip (source.length - margin) false) (sumBytes margin rest) := by
  rw [readVariableLength, if_neg (by simp), keeps.input, ← here.rest]
  exact readBytes_sums positive here filled

theorem Keeps.refuses (keeps : Keeps source capacity memory) (here : From source ip rest) :
    Runs source capacity (.ok (outputError memory ip)) (.refused rest) :=
  ⟨_, rfl, .refused keeps here⟩

/-- A match of the right place and size, with five bytes left behind it. -/
def plainCopy (capacity offset length : Nat) (out rest : Bytes) : Plain :=
  if offset ≤ out.length ∧ out.length + length + lastLiterals ≤ capacity then .next (out ++ matched offset length out) rest
  else .refused rest

theorem Holds.matched {after : Memory UInt8} (holds : Holds memory op out) (reaches : offset ≤ op)
    (written : Written memory op (matched offset length out) after) (fits : op + length ≤ memory.output.length) :
    Holds after (op + length) (out ++ matched offset length out) := by
  have size : (LZ4.matched offset length out).length = length := length_matched (by rw [← holds.place]; exact reaches) length
  have whole := holds.written written (by rw [size]; exact fits)
  rwa [size] at whole

theorem safeMatchCopy_runs (keeps : Keeps source capacity memory) (holds : Holds memory op out)
    (room : op + 8 ≤ capacity) (here : From source ip rest) (more : rest ≠ []) (long : minMatch ≤ length) :
    Runs source capacity (safeMatchCopy memory ip op offset length) (plainCopy capacity offset length out rest) := by
  have place := holds.place
  have size := keeps.size
  unfold safeMatchCopy plainCopy
  rw [← place]
  by_cases outside : op < offset
  · rw [if_pos outside, if_neg (fun both => Nat.not_le_of_lt outside both.1)]
    exact keeps.refuses here
  have reaches := Nat.le_of_not_lt outside
  obtain ⟨middle, from', copied, eight⟩ := copyEight_eight holds reaches (by rw [size]; exact room)
  have keeps' := keeps.written eight.written
  simp only [if_neg outside, copied, bind, Except.bind, size]
  by_cases close : capacity < op + length + matchSafeguardDistance
  · rw [if_pos close]
    by_cases beyond : capacity < op + length + lastLiterals
    · rw [if_pos beyond, if_neg (fun both => Nat.not_le_of_lt beyond both.2)]
      exact keeps'.refuses here
    · have ends := Nat.le_of_not_lt beyond
      obtain ⟨after, finished, written⟩ := finishNear_writes holds reaches (by rw [size]; exact room) eight
        (by rw [size]; exact ends)
      rw [if_neg beyond, if_pos ⟨reaches, ends⟩, finished]
      refine ⟨_, rfl, .safe (keeps.written written) (holds.matched reaches written ?_) here more⟩
      rw [size]
      exact Nat.le_trans (Nat.le_add_right _ _) ends
  · have room' : op + 16 ≤ capacity ∧ op + length + lastLiterals ≤ capacity ∧ op + length ≤ capacity := by
      simp only [matchSafeguardDistance, wildCopyLength, minMatch, lastLiterals] at close long ⊢
      omega
    obtain ⟨after, finished, written⟩ := finishFar_writes holds reaches (by rw [size]; exact room'.1) eight
      (by rw [size]; exact Nat.le_of_not_lt close)
    rw [if_neg close, if_pos ⟨reaches, room'.2.1⟩, finished]
    exact ⟨_, rfl, .safe (keeps.written written) (holds.matched reaches written (by rw [size]; exact room'.2.2)) here more⟩

/-- A read of a length, and what follows it in the code and in the plain decoder. -/
theorem ReadsAs.runs {margin base : Nat} {result : Except Misuse Rvl} {sum : Except Bytes (Nat × Bytes)}
    (reads : ReadsAs source margin base result sum) (keeps : Keeps source capacity memory)
    {next : Nat → Nat → Except Misuse Outcome} {plain : Nat → Bytes → Plain}
    (later : ∀ more ip rest, From source ip rest → margin ≤ rest.length →
      Runs source capacity (next (base + more) ip) (plain more rest)) :
    Runs source capacity (result.bind (Rvl.andThen memory next)) (afterLength sum plain) := by
  cases reads with
  | error here => exact keeps.refuses here
  | length here left => exact later _ _ _ here left

theorem afterLength_map (read : Except Bytes (Nat × Bytes)) (change : Nat → Nat) (next : Nat → Bytes → Plain) :
    afterLength (read.map (Prod.map change id)) next =
      afterLength read fun length rest => next (change length) rest := by
  cases read <;> rfl

theorem From.nonempty (left : 0 < rest.length) : rest ≠ [] := List.length_pos_iff.mp left

/-- A match length of many bytes. -/
theorem matchLength_runs (keeps : Keeps source capacity memory) (here : From source ip rest) (more : rest ≠ [])
    (long : token.toNat % 16 = mlMask) {next : Nat → Nat → Except Misuse Outcome} {plain : Nat → Bytes → Plain}
    (later : ∀ more ip rest, From source ip rest → rest ≠ [] →
      Runs source capacity (next more ip) (plain (mlMask + more + minMatch) rest)) :
    Runs source capacity
      ((readVariableLength memory ip (memory.input.length - lastLiterals + 1) false).bind (Rvl.andThen memory next))
      (afterLength (matchLength token rest) plain) := by
  have margin : ((memory.input.length : Int) - lastLiterals + 1) = source.length - (lastLiterals - 1 : Nat) := by
    rw [keeps.input]
    simp only [lastLiterals]
    omega
  rw [matchLength, if_pos long, margin, afterLength_map]
  apply (readVariableLength_sums keeps (by decide) here more).runs keeps
  intro more ip rest here left
  rw [Nat.zero_add]
  exact later more ip rest here (From.nonempty (Nat.lt_of_lt_of_le (by decide) left))

theorem copyMatch_runs (keeps : Keeps source capacity memory) (holds : Holds memory op out) (room : op + 8 ≤ capacity)
    (here : From source ip rest) (more : rest ≠ []) :
    Runs source capacity (copyMatch memory ip op offset (token.toNat % 16))
      (afterLength (matchLength token rest) fun length rest => plainCopy capacity offset length out rest) := by
  unfold copyMatch
  split
  next long =>
    apply matchLength_runs keeps here more long
    intro more ip rest here filled
    rw [long]
    exact safeMatchCopy_runs keeps holds room here filled (Nat.le_add_left _ _)
  next short =>
    rw [matchLength, if_neg short]
    exact safeMatchCopy_runs keeps holds room here more (Nat.le_add_left _ _)

theorem plainMatch_cramped (low high : UInt8) (rest : Bytes) : plainMatch capacity false token out (low :: high :: rest) =
    afterLength (matchLength token rest) fun length rest =>
      plainCopy capacity (low.toNat + 256 * high.toNat) length out rest := by
  simp [plainMatch, plainCopy]

theorem Keeps.fetch {byte : UInt8} (keeps : Keeps source capacity memory) (here : From source ip (byte :: rest)) :
    memory.fetch ip = .ok byte := by
  rw [Memory.fetch, keeps.input, here.byte]

theorem Keeps.readLE16 {low high : UInt8} (keeps : Keeps source capacity memory)
    (here : From source ip (low :: high :: rest)) : readLE16 memory ip = .ok (low.toNat + 256 * high.toNat) := by
  simp only [LZ4.readLE16, keeps.fetch here, keeps.fetch here.tail, bind, Except.bind]
  rfl

/-- Literals copied to the output, by a copy that may write more. -/
theorem Holds.literals {after : Memory UInt8} {count : Nat} (holds : Holds memory op out)
    (keeps : Keeps source capacity memory) (here : From source ip rest)
    (written : Written memory op ((memory.input.drop ip).take count) after) (inside : length ≤ count)
    (left : length ≤ rest.length) (fits : op + length ≤ capacity) : Holds after (op + length) (out ++ rest.take length) := by
  have part := written.take holds.inside length
  rw [List.take_take, Nat.min_eq_left inside, keeps.input, ← here.rest] at part
  have size : (rest.take length).length = length := by rw [List.length_take, Nat.min_eq_left left]
  have whole := holds.written part (by rw [size, keeps.size]; exact fits)
  rwa [size] at whole

theorem two_bytes (long : 2 ≤ rest.length) : ∃ low high later, rest = low :: high :: later ∧
    later.length + 2 = rest.length := by
  cases rest with
  | nil => simp at long
  | cons low rest =>
    cases rest with
    | nil => simp at long
    | cons high rest => exact ⟨low, high, rest, rfl, rfl⟩

theorem safeLiteralCopy_runs (keeps : Keeps source capacity memory) (holds : Holds memory op out)
    (here : From source ip rest) (cramped : ¬ Roomy token capacity out rest) :
    Runs source capacity (safeLiteralCopy memory token ip op length) (plainLiterals capacity token out length rest) := by
  have place := holds.place
  have size := here.size
  simp only [safeLiteralCopy, plainLiterals, keeps.input, keeps.size, cramped, false_or, decide_false]
  rw [← place]
  by_cases close : capacity < op + length + mfLimit ∨ source.length < ip + length + (2 + 1 + lastLiterals)
  · have last : ¬ (length + (2 + 1 + lastLiterals) ≤ rest.length ∧ op + length + mfLimit ≤ capacity) := by omega
    rw [if_pos close, if_neg last]
    by_cases broken : ip + length ≠ source.length ∨ capacity < op + length
    · have unfit : ¬ (rest.length = length ∧ op + length ≤ capacity) := by omega
      rw [if_pos broken, if_neg unfit]
      exact keeps.refuses here
    · obtain rfl : rest.length = length := by omega
      have moves : Writes (memory.move op .input ip rest.length) memory op ((memory.input.drop ip).take rest.length) :=
        move_writes (by rw [block, keeps.input]; omega) (by rw [keeps.size]; omega)
      obtain ⟨after, moved, written⟩ := moves
      have holds' := holds.literals keeps here written (Nat.le_refl _) (Nat.le_refl _) (by omega)
      rw [List.take_length] at holds'
      rw [if_neg broken, if_pos ⟨rfl, by omega⟩, moved]
      exact ⟨_, rfl, .decoded (keeps.written written) holds'⟩
  · have apart := not_or.mp close
    simp only [mfLimit, lastLiterals, Nat.not_lt] at apart
    have copies : Writes (wildCopy8 memory op .input ip (op + length)) memory op ((memory.input.drop ip).take length) :=
      wildCopy_literals (by decide) length (by rw [keeps.input]; simp; omega) (by rw [keeps.size]; simp; omega)
    obtain ⟨after, copied, written⟩ := copies
    have holds' := holds.literals keeps here written (Nat.le_refl _) (by omega) (by omega)
    have two : 2 ≤ (rest.drop length).length := by
      rw [List.length_drop]
      omega
    obtain ⟨low, high, later, split, shorter⟩ := two_bytes two
    have here' := here.drop (by omega : length ≤ rest.length)
    rw [split] at here' ⊢
    rw [List.length_drop] at shorter
    have roomy : length + (2 + 1 + lastLiterals) ≤ rest.length ∧ op + length + mfLimit ≤ capacity := by omega
    rw [if_neg close, if_pos roomy, plainMatch_cramped]
    simp only [copied, bind, Except.bind, (keeps.written written).readLE16 here']
    exact copyMatch_runs (keeps.written written) holds' (by omega) here'.tail.tail (From.nonempty (by omega))

/-- A literal length of many bytes. -/
theorem literalLength_runs (keeps : Keeps source capacity memory) (here : From source ip rest)
    (long : token.toNat / 16 = runMask) {next : Nat → Nat → Except Misuse Outcome} {plain : Nat → Bytes → Plain}
    (later : ∀ more ip rest, From source ip rest → Runs source capacity (next more ip) (plain (runMask + more) rest)) :
    Runs source capacity
      ((readVariableLength memory ip (memory.input.length - runMask) true).bind (Rvl.andThen memory next))
      (afterLength (literalLength token rest) plain) := by
  have size := here.size
  rw [literalLength, if_pos long, readVariableLength, keeps.input]
  by_cases short : rest.length ≤ runMask
  · rw [if_pos short, if_pos ⟨rfl, by omega⟩]
    exact keeps.refuses here
  · rw [if_neg short, if_neg (by omega), afterLength_map, ← here.rest]
    refine (readBytes_sums (by decide) here (From.nonempty (by omega))).runs keeps ?_
    intro more ip rest here left
    rw [Nat.zero_add]
    exact later more ip rest here

theorem plainMatch_spare (roomy : Bool) (low high : UInt8) (rest : Bytes) (spare : out.length + 32 ≤ capacity) :
    plainMatch capacity roomy token out (low :: high :: rest) =
      afterLength (matchLength token rest) fun length rest =>
        plainCopy capacity (low.toNat + 256 * high.toNat) length out rest := by
  simp only [plainMatch, matchLength, plainCopy]
  split
  next long => simp [long]
  next short =>
    have fits : out.length + (token.toNat % 16 + minMatch) + lastLiterals ≤ capacity := by
      simp only [minMatch, lastLiterals]
      omega
    simp [afterLength, fits]

theorem fastCopy_runs (keeps : Keeps source capacity memory) (holds : Holds memory op out)
    (room : op + 32 ≤ capacity ∧ op + length + fastLoopSafeDistance ≤ capacity) (here : From source ip rest)
    (more : rest ≠ []) :
    Runs source capacity (fastCopy memory ip op offset length) (plainCopy capacity offset length out rest) := by
  have size := keeps.size
  have fits : op + length + lastLiterals ≤ capacity ∧ op + length + 64 ≤ capacity := by
    simp only [fastLoopSafeDistance, lastLiterals] at room ⊢
    omega
  unfold fastCopy plainCopy
  rw [← holds.place]
  by_cases outside : op < offset
  · rw [if_pos outside, if_neg (fun both => Nat.not_le_of_lt outside both.1)]
    exact keeps.refuses here
  have reaches := Nat.le_of_not_lt outside
  have whole : op + length - op = length := Nat.add_sub_cancel_left op length
  have inside : offset ≤ op ∧ op + length + lastLiterals ≤ capacity := ⟨reaches, fits.1⟩
  rw [if_neg outside, if_pos inside]
  by_cases close : offset < 16
  · have copies : Writes (memcpyUsingOffset memory op (op - offset) (op + length) offset) memory op
        (matched offset (op + length - op) out) := memcpyUsingOffset_writes holds reaches (by rw [size]; omega)
    obtain ⟨after, copied, written⟩ := copies
    rw [whole] at written
    simp only [if_pos close, copied, bind, Except.bind]
    exact ⟨_, rfl, .fast (keeps.written written) (holds.matched reaches written (by omega)) here more room.2⟩
  · have copies : Writes (wildCopy32 memory op .output (op - offset) (op + length)) memory op
        (matched offset (op + length - op) out) :=
      wildCopy32_match holds (Nat.le_of_not_lt close) reaches (by rw [size]; omega)
    obtain ⟨after, copied, written⟩ := copies
    rw [whole] at written
    simp only [if_neg close, copied, bind, Except.bind]
    exact ⟨_, rfl, .fast (keeps.written written) (holds.matched reaches written (by omega)) here more room.2⟩

/-- A match of up to eighteen bytes, all of which are written. -/
theorem copy18_runs (keeps : Keeps source capacity memory) (holds : Holds memory op out) (far : 8 ≤ offset)
    (reaches : offset ≤ op) (room : op + 18 ≤ capacity) (short : length ≤ 18) : ∃ after,
    copy18 memory op (op - offset) = .ok after ∧ Keeps source capacity after ∧
      Holds after (op + length) (out ++ matched offset length out) := by
  have size := keeps.size
  obtain ⟨after, copied, written⟩ := copy18_writes holds far reaches (by rw [size]; exact room) short
  exact ⟨after, copied, keeps.written written, holds.matched reaches written (by omega)⟩

theorem fastMatch_runs (roomy : Bool) (keeps : Keeps source capacity memory) (holds : Holds memory op out)
    (room : op + 32 ≤ capacity) (here : From source ip rest) (long : 3 ≤ rest.length) :
    Runs source capacity (fastMatch memory token ip op) (plainMatch capacity roomy token out rest) := by
  have place := holds.place
  obtain ⟨low, high, later, rfl, shorter⟩ := two_bytes (Nat.le_of_succ_le long)
  have here' := here.tail.tail
  have more : later ≠ [] := From.nonempty (by omega)
  have tail {length ip : Nat} {rest : Bytes} (here : From source ip rest) (more : rest ≠ []) (long : minMatch ≤ length) :
      Runs source capacity
        (if capacity ≤ op + length + fastLoopSafeDistance then
          safeMatchCopy memory ip op (low.toNat + 256 * high.toNat) length
        else fastCopy memory ip op (low.toNat + 256 * high.toNat) length)
        (plainCopy capacity (low.toNat + 256 * high.toNat) length out rest) := by
    split
    next => exact safeMatchCopy_runs keeps holds (by omega) here more long
    next apart => exact fastCopy_runs keeps holds ⟨room, by omega⟩ here more
  rw [plainMatch_spare roomy low high later (by omega)]
  simp only [fastMatch, keeps.readLE16 here, keeps.size, bind, Except.bind]
  by_cases many : token.toNat % 16 = mlMask
  · rw [if_pos many]
    apply matchLength_runs keeps here' more many
    intro addl ip rest here filled
    rw [many]
    exact tail here filled (Nat.le_add_left _ _)
  · rw [if_neg many, matchLength, if_neg many]
    have ends := @tail (token.toNat % 16 + minMatch) (ip + 2) later here' more (Nat.le_add_left _ _)
    split
    next close =>
      rwa [if_pos close] at ends
    next apart =>
      rw [if_neg apart] at ends
      split
      next behind =>
        have small : token.toNat % 16 + minMatch ≤ 18 := by
          simp only [minMatch, mlMask] at many ⊢
          omega
        obtain ⟨after, copied, keeps', holds'⟩ := copy18_runs keeps holds behind.2 behind.1 (by omega) small
        simp only [copied]
        simp only [fastLoopSafeDistance] at apart
        have fits : low.toNat + 256 * high.toNat ≤ out.length ∧
            out.length + (token.toNat % 16 + minMatch) + lastLiterals ≤ capacity := by
          rw [← place]
          simp only [lastLiterals]
          omega
        simp only [afterLength, plainCopy]
        rw [if_pos fits]
        exact ⟨_, rfl, .fast keeps' holds' here' more (by simp only [fastLoopSafeDistance]; omega)⟩
      next => exact ends

/-- Literals that are copied with whatever stands behind them. -/
theorem sixteen_runs (keeps : Keeps source capacity memory) (holds : Holds memory op out) (here : From source ip rest)
    (room : op + 16 ≤ capacity) (inside : 16 ≤ rest.length) (short : length ≤ 16) : ∃ after,
    memory.copy op .input ip 16 = .ok after ∧ Keeps source capacity after ∧
      Holds after (op + length) (out ++ rest.take length) := by
  have size := here.size
  obtain ⟨after, copied, written⟩ : Writes (memory.copy op .input ip 16) memory op ((memory.input.drop ip).take 16) :=
    copy_input (by rw [keeps.input]; omega) (by rw [keeps.size]; exact room)
  exact ⟨after, copied, keeps.written written, holds.literals keeps here written short (by omega) (by omega)⟩

theorem plainLiterals_on {count : Nat} {bytes : Bytes}
    (fits : Roomy token capacity out bytes ∨
      count + (2 + 1 + lastLiterals) ≤ bytes.length ∧ out.length + count + mfLimit ≤ capacity) :
    plainLiterals capacity token out count bytes =
      plainMatch capacity (decide (Roomy token capacity out bytes)) token (out ++ bytes.take count) (bytes.drop count) :=
  if_pos fits

theorem plainStep_short (short : token.toNat / 16 ≠ runMask) :
    plainStep capacity out (token :: rest) = plainLiterals capacity token out (token.toNat / 16) rest := by
  rw [plainStep, literalLength, if_neg short]
  rfl

theorem short_literals (short : token.toNat / 16 ≠ runMask) : token.toNat / 16 ≤ 14 := by
  have bound : token.toNat < 256 := token.toNat_lt
  simp only [runMask] at short
  omega

theorem fastPass_runs (keeps : Keeps source capacity memory) (holds : Holds memory op out) (here : From source ip rest)
    (more : rest ≠ []) (room : op + fastLoopSafeDistance ≤ capacity) :
    Runs source capacity (fastPass memory ip op) (plainStep capacity out rest) := by
  have place := holds.place
  obtain ⟨token, rest, rfl⟩ := List.exists_cons_of_ne_nil more
  have size := here.tail.size
  simp only [fastLoopSafeDistance] at room
  simp only [fastPass, keeps.fetch here, keeps.size, bind, Except.bind]
  by_cases long : token.toNat / 16 = runMask
  · have cramped (later : Bytes) : ¬ Roomy token capacity out later := fun roomy => roomy.1 long
    rw [if_pos long]
    apply literalLength_runs keeps here.tail long
    intro addl ip rest here
    rw [long, keeps.input]
    generalize runMask + addl = length
    by_cases close : capacity < op + length + 32 ∨ source.length < ip + length + 32
    · rw [if_pos close]
      exact safeLiteralCopy_runs keeps holds here (cramped rest)
    · have size := here.size
      obtain ⟨after, copied, written⟩ : Writes (wildCopy32 memory op .input ip (op + length)) memory op
          ((memory.input.drop ip).take length) :=
        wildCopy_literals (by decide) length (by rw [keeps.input]; simp; omega) (by rw [keeps.size]; simp; omega)
      have holds' := holds.literals keeps here written (Nat.le_refl _) (by omega) (by omega)
      have three : 3 ≤ (rest.drop length).length := by
        rw [List.length_drop]
        omega
      have roomy : length + (2 + 1 + lastLiterals) ≤ rest.length ∧ out.length + length + mfLimit ≤ capacity := by
        simp only [lastLiterals, mfLimit]
        omega
      rw [if_neg close, plainLiterals_on (Or.inr roomy)]
      simp only [copied]
      exact fastMatch_runs _ (keeps.written written) holds' (by omega) (here.drop (by omega)) three
  · have few := short_literals long
    rw [if_neg long, plainStep_short long, keeps.input]
    by_cases wide : ip + 1 + (16 + 1) ≤ source.length
    · have roomy : Roomy token capacity out rest := ⟨long, by omega, by omega⟩
      obtain ⟨after, copied, keeps', holds'⟩ := sixteen_runs keeps holds here.tail (by omega) (by omega)
        (Nat.le_trans few (by decide))
      have three : 3 ≤ (rest.drop (token.toNat / 16)).length := by
        rw [List.length_drop]
        omega
      rw [if_pos wide, plainLiterals_on (Or.inl roomy)]
      simp only [copied]
      exact fastMatch_runs _ keeps' holds' (by omega) (here.tail.drop (by omega)) three
    · have cramped : ¬ Roomy token capacity out rest := by
        intro roomy
        have inside := roomy.2.1
        omega
      rw [if_neg wide]
      exact safeLiteralCopy_runs keeps holds here.tail cramped

/-- Without the shortcut for short matches, every match keeps five bytes behind it. -/
theorem plainMatch_declined (roomy : Bool) (low high : UInt8) (rest : Bytes)
    (declined : ¬ (token.toNat % 16 ≠ mlMask ∧ 8 ≤ low.toNat + 256 * high.toNat ∧
      low.toNat + 256 * high.toNat ≤ out.length)) :
    plainMatch capacity roomy token out (low :: high :: rest) =
      afterLength (matchLength token rest) fun length rest =>
        plainCopy capacity (low.toNat + 256 * high.toNat) length out rest := by
  simp only [plainMatch, plainCopy]
  congr 1
  funext length rest
  apply if_congr ?_ rfl rfl
  constructor
  · rintro ⟨reaches, ends | ⟨-, short, far⟩⟩
    · exact ⟨reaches, ends⟩
    · exact absurd ⟨short, far, reaches⟩ declined
  · rintro ⟨reaches, ends⟩
    exact ⟨reaches, .inl ends⟩

theorem safePass_runs (keeps : Keeps source capacity memory) (holds : Holds memory op out) (here : From source ip rest)
    (more : rest ≠ []) : Runs source capacity (safePass memory ip op) (plainStep capacity out rest) := by
  have place := holds.place
  obtain ⟨token, rest, rfl⟩ := List.exists_cons_of_ne_nil more
  have size := here.tail.size
  rw [← keeps.input] at size
  simp only [safePass, keeps.fetch here, keeps.size, bind, Except.bind]
  by_cases roomy : token.toNat / 16 ≠ runMask ∧ ip + 1 + 14 + 2 < memory.input.length ∧ op + 14 + 18 ≤ capacity
  · obtain ⟨short, inside, room⟩ := roomy
    have few := short_literals short
    have roomy : Roomy token capacity out rest := ⟨short, by omega, by omega⟩
    obtain ⟨after, copied, keeps', holds'⟩ := sixteen_runs keeps holds here.tail (by omega) (by omega)
      (Nat.le_trans few (by decide))
    have two : 2 ≤ (rest.drop (token.toNat / 16)).length := by
      rw [List.length_drop]
      omega
    obtain ⟨low, high, later, split, shorter⟩ := two_bytes two
    have here' := here.tail.drop (by omega : token.toNat / 16 ≤ rest.length)
    rw [List.length_drop] at shorter
    rw [split] at here'
    have filled : later ≠ [] := From.nonempty (by omega)
    rw [if_pos ⟨short, inside, room⟩, plainStep_short short, plainLiterals_on (Or.inl roomy), split, decide_eq_true roomy]
    simp only [copied, keeps'.readLE16 here']
    by_cases shortcut : token.toNat % 16 ≠ mlMask ∧ 8 ≤ low.toNat + 256 * high.toNat ∧
        low.toNat + 256 * high.toNat ≤ op + token.toNat / 16
    · obtain ⟨few', far, reaches⟩ := shortcut
      have small : token.toNat % 16 + minMatch ≤ 18 := by
        simp only [minMatch, mlMask] at few' ⊢
        omega
      obtain ⟨after', copied', keeps'', holds''⟩ := copy18_runs keeps' holds' far reaches (by omega) small
      have matches' : plainMatch capacity true token (out ++ rest.take (token.toNat / 16)) (low :: high :: later) =
          .next (out ++ rest.take (token.toNat / 16) ++ matched (low.toNat + 256 * high.toNat)
            (token.toNat % 16 + minMatch) (out ++ rest.take (token.toNat / 16))) later := by
        rw [plainMatch, matchLength, if_neg few']
        exact if_pos ⟨by rw [← holds'.place]; exact reaches, .inr ⟨rfl, few', far⟩⟩
      rw [if_pos ⟨few', far, reaches⟩, matches']
      simp only [copied']
      exact ⟨_, rfl, .safe keeps'' holds'' here'.tail.tail filled⟩
    · rw [if_neg shortcut, plainMatch_declined true low high later (by rw [← holds'.place]; exact shortcut)]
      exact copyMatch_runs keeps' holds' (by omega) here'.tail.tail filled
  · have cramped : ¬ Roomy token capacity out rest := by
      intro room
      exact roomy ⟨room.1, by have inside := room.2.1; omega, by have behind := room.2.2; omega⟩
    rw [if_neg roomy]
    by_cases long : token.toNat / 16 = runMask
    · have cramped (later : Bytes) : ¬ Roomy token capacity out later := fun roomy => roomy.1 long
      rw [if_pos long]
      apply literalLength_runs keeps here.tail long
      intro addl ip rest here
      rw [long]
      exact safeLiteralCopy_runs keeps holds here (cramped rest)
    · rw [if_neg long, plainStep_short long]
      exact safeLiteralCopy_runs keeps holds here.tail cramped

theorem decode_returned (rounds : Nat) (code : Int) (memory : Memory UInt8) :
    decode rounds (.returned code memory) = .ok (.returned code memory) := by
  cases rounds <;> rfl

/-- The end of the whole function against the outcome of the plain decoder. -/
inductive Reports (source : Bytes) (capacity : Nat) : Outcome → Except Nat Bytes → Prop where
  | decoded {data : Bytes} {memory : Memory UInt8} (keeps : Keeps source capacity memory)
      (holds : Holds memory data.length data) : Reports source capacity (.returned data.length memory) (.ok data)
  | refused {place : Nat} {memory : Memory UInt8} (keeps : Keeps source capacity memory) :
      Reports source capacity (.returned (-(place : Int) - 1) memory) (.error place)

theorem decode_runs {rounds : Nat} {outcome : Outcome} (simulates : Simulates source capacity outcome (.next out rest))
    (enough : rest.length ≤ rounds) : ∃ outcome', decode rounds outcome = .ok outcome' ∧
      Reports source capacity outcome' ((plain capacity out rest).mapError fun rest => source.length - rest.length) := by
  induction rounds generalizing outcome out rest with
  | zero =>
    have empty : rest = [] := List.length_eq_zero_iff.mp (Nat.le_zero.mp enough)
    cases simulates with
    | fast keeps holds here more room => exact absurd empty more
    | safe keeps holds here more => exact absurd empty more
  | succ rounds ih =>
    have pass : ∃ result, decode (rounds + 1) outcome = result.bind (decode rounds) ∧
        Runs source capacity result (plainStep capacity out rest) := by
      cases simulates with
      | fast keeps holds here more room => exact ⟨_, rfl, fastPass_runs keeps holds here more room⟩
      | safe keeps holds here more => exact ⟨_, rfl, safePass_runs keeps holds here more⟩
    obtain ⟨result, unfolded, middle, rfl, simulates'⟩ := pass
    rw [unfolded]
    change ∃ outcome', decode rounds middle = .ok outcome' ∧ _
    cases step : plainStep capacity out rest with
    | next later left =>
      rw [step] at simulates'
      rw [plain_next step]
      have shorter := plainStep_shorter step
      exact ih simulates' (by omega)
    | decoded data =>
      rw [step] at simulates'
      rw [plain_decoded step]
      cases simulates' with
      | decoded keeps holds =>
        obtain rfl := holds.place
        exact ⟨_, decode_returned _ _ _, .decoded keeps holds⟩
    | refused left =>
      rw [step] at simulates'
      rw [plain_refused step]
      cases simulates' with
      | @refused ip memory rest keeps here =>
        have place : ip = source.length - left.length := by
          have size := here.size
          omega
        rw [place]
        exact ⟨_, decode_returned _ _ _, .refused keeps⟩

/-- Whatever the source holds, the decoder makes no access out of place, returns, and
returns what the plain decoder says. -/
theorem decompressSafe_reports (source dest : Bytes) : ∃ outcome, decompressSafe source dest = .ok outcome ∧
    Reports source dest.length outcome (plainBlock dest.length source) := by
  have keeps : Keeps source dest.length ⟨source, dest⟩ := ⟨rfl, rfl⟩
  have holds : Holds ⟨source, dest⟩ 0 [] := ⟨rfl, Nat.zero_le _, rfl⟩
  have here : From source 0 source := ⟨rfl, Nat.zero_le _⟩
  have accepted : Reports source dest.length (.returned 0 ⟨source, dest⟩) (.ok []) :=
    @Reports.decoded source dest.length [] _ keeps holds
  have refused : Reports source dest.length (.returned (-1) ⟨source, dest⟩) (.error 0) :=
    @Reports.refused source dest.length 0 _ keeps
  unfold decompressSafe plainBlock
  by_cases noRoom : dest.length = 0
  · rw [if_pos noRoom, if_pos noRoom]
    by_cases empty : source = [0]
    · rw [if_pos empty, if_pos empty]
      exact ⟨_, rfl, accepted⟩
    · rw [if_neg empty, if_neg empty]
      exact ⟨_, rfl, refused⟩
  · rw [if_neg noRoom, if_neg noRoom]
    by_cases empty : source.length = 0
    · obtain rfl := List.length_eq_zero_iff.mp empty
      rw [if_pos empty, plain_refused (rfl : plainStep dest.length [] [] = .refused [])]
      exact ⟨_, rfl, refused⟩
    · have filled : source ≠ [] := From.nonempty (Nat.pos_of_ne_zero empty)
      rw [if_neg empty]
      split
      next => exact decode_runs (.safe keeps holds here filled) (Nat.le_refl _)
      next room => exact decode_runs (.fast keeps holds here filled (by omega)) (Nat.le_refl _)

end VirtualLan.LZ4
