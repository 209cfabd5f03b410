import VirtualLan.Lz4Format

/-! Blocks and what they decode to. The plain decoder takes the block that is written
for some data back to the data, and whatever it accepts was written so. -/

namespace VirtualLan.LZ4
open Repetition
open LiteralLz4 (lengthBytes length_lengthBytes)

variable {done rest out : Bytes} {capacity : Nat} {sequence : Sequence} {sequences : List Sequence}

theorem length_extension (number : Nat) : (extension number).length ≤ number / 255 + min number 1 := by
  unfold extension
  split
  next => exact Nat.zero_le _
  next long =>
    rw [length_lengthBytes]
    simp only [runMask] at long ⊢
    omega

theorem length_sequenceBytes (sequence : Sequence) (literals : Bytes) : (sequenceBytes sequence literals).length =
    (extension sequence.literals).length + 1 + literals.length + 2 + (extension (sequence.length - minMatch)).length := by
  simp only [sequenceBytes, List.length_cons, List.length_append, List.length_nil]
  omega

theorem length_last (rest : Bytes) : (blockBytes [] rest).length = 1 + (rest.length + 255 - runMask) / 255 + rest.length := by
  simp only [blockBytes, extension, List.length_cons, List.length_append]
  split
  next short =>
    simp only [runMask, List.length_nil] at short ⊢
    omega
  next long =>
    rw [length_lengthBytes]
    simp only [runMask] at long ⊢
    omega

theorem lengthBytes_step {extra : Nat} (long : 255 ≤ extra) : lengthBytes extra = 255 :: lengthBytes (extra - 255) := by
  have quotient : extra / 255 = (extra - 255) / 255 + 1 := by omega
  have remainder : extra % 255 = (extra - 255) % 255 := by omega
  rw [lengthBytes, quotient, remainder, List.replicate_succ]
  rfl

theorem lengthBytes_small {extra : Nat} (short : extra < 255) : lengthBytes extra = [UInt8.ofNat extra] := by
  rw [lengthBytes, Nat.div_eq_of_lt short, Nat.mod_eq_of_lt short]
  rfl

theorem sumBytes_lengthBytes {margin extra : Nat} (left : margin ≤ rest.length) :
    sumBytes margin (lengthBytes extra ++ rest) = .ok (extra, rest) := by
  induction extra using Nat.strongRecOn with
  | ind extra ih =>
    by_cases long : 255 ≤ extra
    · rw [lengthBytes_step long, List.cons_append, sumBytes, if_neg, if_neg (fun other => other rfl), ih (extra - 255) (by omega)]
      · simp only [Except.map, Prod.map, id, Nat.add_sub_cancel' long]
      · rw [List.length_append]
        omega
    · have short := Nat.lt_of_not_le long
      have number : (UInt8.ofNat extra).toNat = extra := by
        rw [UInt8.toNat_ofNat']
        omega
      have last : UInt8.ofNat extra ≠ 255 := by
        intro same
        rw [same] at number
        change 255 = _ at number
        omega
      rw [lengthBytes_small short, List.singleton_append, sumBytes, if_neg (Nat.not_lt_of_le left), if_pos last, number]

theorem toNat_tokenByte (literals mlCode : Nat) :
    (tokenByte literals mlCode).toNat = min literals runMask * 16 + min mlCode mlMask := by
  have first := Nat.min_le_right literals runMask
  have second := Nat.min_le_right mlCode mlMask
  simp only [runMask, mlMask] at first second
  rw [tokenByte, UInt8.toNat_ofNat', Nat.mod_eq_of_lt]
  simp only [runMask, mlMask]
  omega

theorem tokenByte_upper (literals mlCode : Nat) : (tokenByte literals mlCode).toNat / 16 = min literals runMask := by
  have second := Nat.min_le_right mlCode mlMask
  rw [toNat_tokenByte]
  simp only [mlMask] at second ⊢
  omega

theorem tokenByte_lower (literals mlCode : Nat) : (tokenByte literals mlCode).toNat % 16 = min mlCode mlMask := by
  have second := Nat.min_le_right mlCode mlMask
  rw [toNat_tokenByte]
  simp only [mlMask] at second ⊢
  omega

theorem literalLength_token {literals : Nat} (mlCode : Nat) (enough : literals ≤ rest.length) :
    literalLength (tokenByte literals mlCode) (extension literals ++ rest) = .ok (literals, rest) := by
  unfold literalLength extension
  rw [tokenByte_upper]
  by_cases short : literals < runMask
  · rw [Nat.min_eq_left (Nat.le_of_lt short), if_neg (Nat.ne_of_lt short), if_pos short]
    rfl
  · have long := Nat.le_of_not_lt short
    have behind : ¬ (lengthBytes (literals - runMask) ++ rest).length ≤ runMask := by
      rw [List.length_append, length_lengthBytes]
      omega
    rw [Nat.min_eq_right long, if_pos rfl, if_neg short, if_neg behind, sumBytes_lengthBytes (Nat.le_trans long enough)]
    simp only [Except.map, Prod.map, id, Nat.add_sub_cancel' long]

theorem matchLength_token {mlCode : Nat} (literals : Nat) (enough : lastLiterals - 1 ≤ rest.length) :
    matchLength (tokenByte literals mlCode) (extension mlCode ++ rest) = .ok (mlCode + minMatch, rest) := by
  have masks : runMask = mlMask := rfl
  unfold matchLength extension
  rw [tokenByte_lower, masks]
  by_cases short : mlCode < mlMask
  · rw [Nat.min_eq_left (Nat.le_of_lt short), if_neg (Nat.ne_of_lt short), if_pos short]
    rfl
  · have long := Nat.le_of_not_lt short
    rw [Nat.min_eq_right long, if_pos rfl, if_neg short, sumBytes_lengthBytes enough]
    simp only [Except.map, Prod.map, id, Nat.add_sub_cancel' long]

theorem Parses.nil {sequences : List Sequence} (parses : Parses done [] sequences) : sequences = [] := by
  cases parses with
  | done => rfl
  | next found later =>
    have starts := found.starts
    simp only [mfLimit, List.length_nil] at starts
    omega

theorem length_blockBytes (parses : Parses done rest sequences) (last : lastLiterals ≤ rest.length) :
    lastLiterals < (blockBytes sequences rest).length := by
  induction parses with
  | done done rest =>
    rw [length_last]
    omega
  | next found later ih =>
    have ends := found.ends
    have behind := ih (by rw [List.length_drop]; omega)
    rw [blockBytes, List.length_append]
    omega

/-- The bytes of a match are what its offset repeats. -/
theorem Sequence.Found.matched (found : sequence.Found done rest) :
    LZ4.matched sequence.offset sequence.length (done ++ rest.take sequence.literals) =
      (rest.drop sequence.literals).take sequence.length := by
  have ends := found.ends
  have size : (done ++ rest.take sequence.literals).length = done.length + sequence.literals := by
    rw [List.length_append, List.length_take]
    omega
  have many : ((rest.drop sequence.literals).take sequence.length).length = sequence.length := by
    rw [List.length_take, List.length_drop]
    omega
  have within : Within sequence.offset (done ++ rest.take sequence.literals) :=
    ⟨found.positive, by rw [size]; exact found.reaches⟩
  have whole : done ++ rest.take sequence.literals ++ (rest.drop sequence.literals).take sequence.length ++
      rest.drop (sequence.literals + sequence.length) = done ++ rest := by
    rw [← List.drop_drop, List.append_assoc, List.append_assoc, List.take_append_drop, List.take_append_drop]
  have inner : ∀ place < done.length + sequence.literals + sequence.length, (done ++ rest)[place]? =
      (done ++ rest.take sequence.literals ++ (rest.drop sequence.literals).take sequence.length)[place]? := by
    intro place inside
    rw [← whole]
    apply List.getElem?_append_left
    rw [List.length_append, size, many]
    exact inside
  have same : ∀ index < ((rest.drop sequence.literals).take sequence.length).length,
      (done ++ rest.take sequence.literals ++ (rest.drop sequence.literals).take sequence.length)[
        (done ++ rest.take sequence.literals).length + index]? =
      (done ++ rest.take sequence.literals ++ (rest.drop sequence.literals).take sequence.length)[
        (done ++ rest.take sequence.literals).length + index - sequence.offset]? := by
    intro index inside
    rw [many] at inside
    rw [size, ← inner _ (by omega), ← inner _ (by omega)]
    exact found.same index inside
  have repeated := eq_again within same
  rw [many] at repeated
  rw [LZ4.matched, if_neg (Nat.ne_of_gt found.positive)]
  exact repeated.symm

theorem offset_bytes {offset : Nat} (near : offset < 65536) :
    (UInt8.ofNat offset).toNat + 256 * (UInt8.ofNat (offset / 256)).toNat = offset := by
  rw [UInt8.toNat_ofNat', UInt8.toNat_ofNat']
  omega

theorem plainStep_sequence (found : sequence.Found done rest) {tail : Bytes} (long : lastLiterals < tail.length)
    (fits : done.length + rest.length ≤ capacity) :
    plainStep capacity done (sequenceBytes sequence (rest.take sequence.literals) ++ tail) =
      .next (done ++ rest.take (sequence.literals + sequence.length)) tail := by
  have starts := found.starts
  have ends := found.ends
  have few : (rest.take sequence.literals).length = sequence.literals := by
    rw [List.length_take]
    omega
  have whole : done ++ rest.take sequence.literals ++ matched sequence.offset sequence.length
      (done ++ rest.take sequence.literals) = done ++ rest.take (sequence.literals + sequence.length) := by
    rw [found.matched, List.append_assoc, ← List.take_add]
  have reaches : sequence.offset ≤ (done ++ rest.take sequence.literals).length := by
    rw [List.length_append, few]
    exact found.reaches
  generalize rest.take sequence.literals = run at few whole reaches
  generalize coded : UInt8.ofNat sequence.offset :: UInt8.ofNat (sequence.offset / 256) ::
    (extension (sequence.length - minMatch) ++ tail) = later
  have arranged : sequenceBytes sequence run ++ tail = tokenByte sequence.literals (sequence.length - minMatch) ::
      (extension sequence.literals ++ (run ++ later)) := by
    simp only [← coded, sequenceBytes, List.cons_append, List.append_assoc, List.nil_append]
  have behind : sequence.literals + (2 + 1 + lastLiterals) ≤ (run ++ later).length ∧
      done.length + sequence.literals + mfLimit ≤ capacity := by
    simp only [← coded, List.length_append, List.length_cons, few]
    omega
  have matches' : ∀ roomy, plainMatch capacity roomy (tokenByte sequence.literals (sequence.length - minMatch))
      (done ++ run) later = .next (done ++ run ++ matched sequence.offset sequence.length (done ++ run)) tail := by
    intro roomy
    have inside : sequence.offset ≤ (done ++ run).length ∧
        ((done ++ run).length + sequence.length + lastLiterals ≤ capacity ∨
          roomy = true ∧ (tokenByte sequence.literals (sequence.length - minMatch)).toNat % 16 ≠ mlMask ∧
            8 ≤ sequence.offset) := by
      refine ⟨reaches, .inl ?_⟩
      rw [List.length_append, few]
      omega
    rw [← coded, plainMatch, matchLength_token _ (by omega), Nat.sub_add_cancel found.long, offset_bytes found.near]
    exact if_pos inside
  rw [arranged, plainStep, literalLength_token _ (by rw [List.length_append]; omega), afterLength, plainLiterals,
    if_pos (Or.inr behind), List.take_left' few, List.drop_left' few, matches', whole]

theorem plainStep_last (spare : Nat) (fits : out.length + rest.length ≤ capacity) :
    plainStep capacity out (tokenByte rest.length spare :: (extension rest.length ++ rest)) = .decoded (out ++ rest) := by
  have ends : ¬ (Roomy (tokenByte rest.length spare) capacity out rest ∨
      rest.length + (2 + 1 + lastLiterals) ≤ rest.length ∧ out.length + rest.length + mfLimit ≤ capacity) := by
    rintro (roomy | ⟨behind, -⟩)
    · have short := roomy.1
      have inside := roomy.2.1
      rw [tokenByte_upper] at short
      simp only [runMask] at short
      omega
    · omega
  rw [plainStep, literalLength_token _ (Nat.le_refl _), afterLength, plainLiterals, if_neg ends, if_pos ⟨rfl, fits⟩]

/-- The plain decoder takes a block back to the data, given the room for it. -/
theorem plain_blockBytes (parses : Parses done rest sequences) (fits : done.length + rest.length ≤ capacity) :
    plain capacity done (blockBytes sequences rest) = .ok (done ++ rest) := by
  induction parses with
  | done done rest => exact plain_decoded (plainStep_last 0 fits)
  | @next done rest sequence sequences found later ih =>
    have ends := found.ends
    have long := length_blockBytes later (by rw [List.length_drop]; omega)
    rw [blockBytes, plain_next (plainStep_sequence found long fits), ih, List.append_assoc, List.take_append_drop]
    rw [List.length_append, List.length_take, List.length_drop]
    omega

theorem plainBlock_blockBytes {data : Bytes} (parses : Parses [] data sequences) (fits : data.length ≤ capacity) :
    plainBlock capacity (blockBytes sequences data) = .ok data := by
  rw [plainBlock]
  split
  next none =>
    obtain rfl : data = [] := List.length_eq_zero_iff.mp (by omega)
    obtain rfl := parses.nil
    rfl
  next => rw [plain_blockBytes parses (by simpa using fits)]; rfl

theorem sumBytes_ok {margin extra : Nat} {bytes : Bytes} (read : sumBytes margin bytes = .ok (extra, rest)) :
    bytes = lengthBytes extra ++ rest := by
  induction bytes generalizing extra with
  | nil => cases read
  | cons s bytes ih =>
    rw [sumBytes] at read
    split at read
    next => cases read
    next =>
      split at read
      next small =>
        cases read
        have short : s.toNat < 255 := by
          have bound : s.toNat < 256 := s.toNat_lt
          have other : s.toNat ≠ 255 := fun same => small (UInt8.toNat_inj.mp same)
          omega
        rw [lengthBytes_small short, UInt8.ofNat_toNat]
        rfl
      next full =>
        cases later : sumBytes margin bytes with
        | error left => simp [later, Except.map] at read
        | ok found =>
          rw [later] at read
          cases read
          obtain rfl := not_not.mp full
          have step : lengthBytes (255 + found.1) = 255 :: lengthBytes found.1 := by
            rw [lengthBytes_step (Nat.le_add_right _ _), Nat.add_sub_cancel_left]
          change 255 :: bytes = lengthBytes (255 + found.1) ++ found.2
          rw [step]
          exact congrArg (List.cons 255) (ih later)

theorem literalLength_ok {token : UInt8} {length : Nat} {bytes : Bytes} (read : literalLength token bytes = .ok (length, rest)) :
    bytes = extension length ++ rest ∧ token.toNat / 16 = min length runMask := by
  unfold literalLength at read
  split at read
  next long =>
    split at read
    next => cases read
    next =>
      cases found : sumBytes runMask bytes with
      | error left => simp [found, Except.map] at read
      | ok pair =>
        rw [found] at read
        cases read
        have more : ¬ runMask + pair.1 < runMask := Nat.not_lt_of_le (Nat.le_add_right _ _)
        refine ⟨?_, ?_⟩
        · change bytes = extension (runMask + pair.1) ++ pair.2
          rw [extension, if_neg more, Nat.add_sub_cancel_left]
          exact sumBytes_ok found
        · rw [long]
          exact (Nat.min_eq_right (Nat.le_add_right _ _)).symm
  next short =>
    cases read
    have bound : token.toNat < 256 := token.toNat_lt
    simp only [runMask] at short
    have small : token.toNat / 16 < runMask := by
      simp only [runMask]
      omega
    rw [extension, if_pos small, Nat.min_eq_left (Nat.le_of_lt small)]
    exact ⟨rfl, rfl⟩

theorem matchLength_ok {token : UInt8} {length : Nat} {bytes : Bytes} (read : matchLength token bytes = .ok (length, rest)) :
    minMatch ≤ length ∧ bytes = extension (length - minMatch) ++ rest ∧ token.toNat % 16 = min (length - minMatch) mlMask := by
  have masks : runMask = mlMask := rfl
  unfold matchLength at read
  split at read
  next long =>
    cases found : sumBytes (lastLiterals - 1) bytes with
    | error left => simp [found, Except.map] at read
    | ok pair =>
      rw [found] at read
      cases read
      have more : ¬ mlMask + pair.1 < mlMask := Nat.not_lt_of_le (Nat.le_add_right _ _)
      change minMatch ≤ mlMask + pair.1 + minMatch ∧ bytes = extension (mlMask + pair.1 + minMatch - minMatch) ++ pair.2 ∧
        token.toNat % 16 = min (mlMask + pair.1 + minMatch - minMatch) mlMask
      rw [Nat.add_sub_cancel, extension, masks, if_neg more, Nat.add_sub_cancel_left]
      refine ⟨Nat.le_add_left _ _, sumBytes_ok found, ?_⟩
      rw [long]
      exact (Nat.min_eq_right (Nat.le_add_right _ _)).symm
  next short =>
    cases read
    simp only [mlMask] at short
    have small : token.toNat % 16 < mlMask := by
      simp only [mlMask]
      omega
    rw [Nat.add_sub_cancel, extension, masks, if_pos small, Nat.min_eq_left (Nat.le_of_lt small)]
    exact ⟨Nat.le_add_left _ _, rfl, rfl⟩

theorem token_halves {token : UInt8} {literals mlCode : Nat} (upper : token.toNat / 16 = min literals runMask)
    (lower : token.toNat % 16 = min mlCode mlMask) : token = tokenByte literals mlCode := by
  apply UInt8.toNat_inj.mp
  rw [toNat_tokenByte, ← upper, ← lower]
  exact (Nat.div_add_mod' _ _).symm

theorem bytes_offset (low high : UInt8) : UInt8.ofNat (low.toNat + 256 * high.toNat) = low ∧
    UInt8.ofNat ((low.toNat + 256 * high.toNat) / 256) = high := by
  have first : low.toNat < 256 := low.toNat_lt
  have second : high.toNat < 256 := high.toNat_lt
  refine ⟨UInt8.toNat_inj.mp ?_, UInt8.toNat_inj.mp ?_⟩
  · rw [UInt8.toNat_ofNat']
    omega
  · rw [UInt8.toNat_ofNat']
    omega

theorem plainMatch_next {roomy : Bool} {token : UInt8} {bytes later left : Bytes}
    (step : plainMatch capacity roomy token out bytes = .next later left) : ∃ length offset,
    minMatch ≤ length ∧ offset < 65536 ∧ offset ≤ out.length ∧ later = out ++ matched offset length out ∧
      bytes = UInt8.ofNat offset :: UInt8.ofNat (offset / 256) :: (extension (length - minMatch) ++ left) ∧
      token.toNat % 16 = min (length - minMatch) mlMask := by
  unfold plainMatch at step
  split at step
  next low high bytes =>
    obtain ⟨length, after, read, step⟩ := afterLength_next step
    obtain ⟨long, split, lower⟩ := matchLength_ok read
    obtain ⟨first, second⟩ := bytes_offset low high
    split at step
    next inside =>
      cases step
      have near : low.toNat + 256 * high.toNat < 65536 := by
        have first : low.toNat < 256 := low.toNat_lt
        have second : high.toNat < 256 := high.toNat_lt
        omega
      refine ⟨length, _, long, near, inside.1, rfl, ?_, lower⟩
      rw [first, second, split]
    next => cases step
  next => cases step

theorem plainStep_next {bytes later left : Bytes} (step : plainStep capacity out bytes = .next later left) : ∃ piece : Piece,
    minMatch ≤ piece.length ∧ piece.offset < 65536 ∧ piece.offset ≤ (out ++ piece.literals).length ∧
      later = out ++ piece.literals ++ matched piece.offset piece.length (out ++ piece.literals) ∧
      bytes = piece.bytes ++ left := by
  cases bytes with
  | nil => cases step
  | cons token bytes =>
    obtain ⟨length, behind, read, step⟩ := afterLength_next step
    obtain ⟨split, upper⟩ := literalLength_ok read
    unfold plainLiterals at step
    split at step
    next roomy =>
      have few : length ≤ behind.length := by
        obtain room | room := roomy
        · have short := room.1
          have inside := room.2.1
          rw [upper] at short
          simp only [runMask] at short
          omega
        · omega
      obtain ⟨matchLength, offset, long, near, reaches, same, coded, lower⟩ := plainMatch_next step
      have size : (behind.take length).length = length := by
        rw [List.length_take]
        omega
      refine ⟨⟨behind.take length, matchLength, offset⟩, long, near, reaches, same, ?_⟩
      rw [Piece.bytes, sequenceBytes, size, ← token_halves upper lower, split]
      simp only [List.cons_append, List.append_assoc, List.nil_append]
      rw [← coded, List.take_append_drop]
    next => split at step <;> cases step

theorem plainMatch_goes_on {roomy : Bool} {token : UInt8} {bytes data : Bytes} :
    plainMatch capacity roomy token out bytes ≠ .decoded data := by
  intro step
  unfold plainMatch at step
  split at step
  next low high bytes =>
    obtain ⟨length, left, read, step⟩ := afterLength_ok step (by intro left same; cases same)
    split at step <;> cases step
  next => cases step

theorem plainStep_accepts {bytes data : Bytes} (step : plainStep capacity out bytes = .decoded data) : ∃ last spare,
    data = out ++ last ∧ bytes = tokenByte last.length spare :: (extension last.length ++ last) ∧
      out.length + last.length ≤ capacity := by
  cases bytes with
  | nil => cases step
  | cons token bytes =>
    obtain ⟨length, last, read, step⟩ := afterLength_ok step (by intro left same; cases same)
    obtain ⟨split, upper⟩ := literalLength_ok read
    unfold plainLiterals at step
    split at step
    next => exact absurd step plainMatch_goes_on
    next =>
      split at step
      next ends =>
        cases step
        obtain rfl := ends.1
        have lower : token.toNat % 16 = min (token.toNat % 16) mlMask := by
          simp only [mlMask]
          omega
        exact ⟨last, token.toNat % 16, rfl, by rw [← token_halves upper lower, split], ends.2⟩
      next => cases step

/-- Whatever the plain decoder accepts is an encoding of what it makes of it. -/
theorem plain_encodes {bytes data : Bytes} (read : plain capacity out bytes = .ok data) : Encodes out bytes data := by
  generalize left : bytes.length = size
  induction size using Nat.strongRecOn generalizing out bytes with
  | ind size ih =>
    cases step : plainStep capacity out bytes with
    | next later rest =>
      obtain ⟨piece, long, near, reaches, rfl, split⟩ := plainStep_next step
      rw [plain_next step] at read
      have shorter := plainStep_shorter step
      obtain ⟨pieces, result, last, spare, expands, same, coded⟩ := ih rest.length (by omega) read rfl
      refine ⟨piece :: pieces, result, last, spare, .next long near reaches expands, same, ?_⟩
      rw [split, coded, List.map_cons, List.flatten_cons, List.append_assoc]
    | decoded data' =>
      rw [plain_decoded step] at read
      cases read
      obtain ⟨last, spare, same, coded, _⟩ := plainStep_accepts step
      exact ⟨[], out, last, spare, .done out, same, coded⟩
    | refused rest =>
      rw [plain_refused step] at read
      cases read

theorem lengthBytes_inj {extra extra' : Nat} {rest' : Bytes}
    (same : lengthBytes extra ++ rest = lengthBytes extra' ++ rest') : extra = extra' ∧ rest = rest' := by
  have first : sumBytes 0 (lengthBytes extra ++ rest) = .ok (extra, rest) := sumBytes_lengthBytes (Nat.zero_le _)
  have second : sumBytes 0 (lengthBytes extra' ++ rest') = .ok (extra', rest') := sumBytes_lengthBytes (Nat.zero_le _)
  rw [same, second, Except.ok.injEq, Prod.mk.injEq] at first
  exact ⟨first.1.symm, first.2.symm⟩

theorem extension_inj {number number' : Nat} {rest' : Bytes} (half : min number runMask = min number' runMask)
    (same : extension number ++ rest = extension number' ++ rest') : number = number' ∧ rest = rest' := by
  unfold extension at same
  by_cases short : number < runMask
  · have short' : number' < runMask := by omega
    rw [if_pos short, if_pos short'] at same
    exact ⟨by omega, same⟩
  · have long' : ¬ number' < runMask := by omega
    rw [if_neg short, if_neg long'] at same
    obtain ⟨more, same⟩ := lengthBytes_inj same
    exact ⟨by omega, same⟩

theorem token_inj {literals literals' mlCode mlCode' : Nat} (same : tokenByte literals mlCode = tokenByte literals' mlCode') :
    min literals runMask = min literals' runMask ∧ min mlCode mlMask = min mlCode' mlMask := by
  rw [← tokenByte_upper literals mlCode, ← tokenByte_upper literals' mlCode', ← tokenByte_lower literals mlCode,
    ← tokenByte_lower literals' mlCode', same]
  exact ⟨rfl, rfl⟩

theorem Piece.bytes_eq (piece : Piece) (tail : Bytes) : piece.bytes ++ tail =
    tokenByte piece.literals.length (piece.length - minMatch) :: (extension piece.literals.length ++
      (piece.literals ++ (UInt8.ofNat piece.offset :: UInt8.ofNat (piece.offset / 256) ::
        (extension (piece.length - minMatch) ++ tail)))) := by
  simp only [Piece.bytes, sequenceBytes, List.cons_append, List.append_assoc, List.nil_append]

/-- A piece is no last run of literals, for its match stands behind its literals. -/
theorem piece_not_last {piece : Piece} {tail last : Bytes} {spare : Nat} :
    piece.bytes ++ tail ≠ tokenByte last.length spare :: (extension last.length ++ last) := by
  intro same
  rw [piece.bytes_eq, List.cons.injEq] at same
  obtain ⟨number, behind⟩ := extension_inj (token_inj same.1).1 same.2
  have sizes := congrArg List.length behind
  simp only [List.length_append, List.length_cons] at sizes
  omega

theorem piece_inj {piece piece' : Piece} {tail tail' : Bytes} (long : minMatch ≤ piece.length) (long' : minMatch ≤ piece'.length)
    (near : piece.offset < 65536) (near' : piece'.offset < 65536) (same : piece.bytes ++ tail = piece'.bytes ++ tail') :
    piece = piece' ∧ tail = tail' := by
  rw [piece.bytes_eq, piece'.bytes_eq, List.cons.injEq] at same
  obtain ⟨halves, same⟩ := same
  obtain ⟨number, same⟩ := extension_inj (token_inj halves).1 same
  obtain ⟨literals, same⟩ := List.append_inj same number
  rw [List.cons.injEq, List.cons.injEq] at same
  obtain ⟨low, high, same⟩ := same
  obtain ⟨number', tails⟩ := extension_inj (token_inj halves).2 same
  have offset : piece.offset = piece'.offset := by
    rw [← offset_bytes near, ← offset_bytes near', low, high]
  have length : piece.length = piece'.length := by omega
  cases piece
  cases piece'
  cases literals
  cases offset
  cases length
  exact ⟨rfl, tails⟩

/-- A block has one meaning only. -/
theorem encodes_unique {bytes data data' : Bytes} (first : Encodes out bytes data) (second : Encodes out bytes data') :
    data = data' := by
  obtain ⟨pieces, result, last, spare, expands, rfl, coded⟩ := first
  obtain ⟨pieces', result', last', spare', expands', rfl, coded'⟩ := second
  rw [coded] at coded'
  clear coded
  induction expands generalizing pieces' with
  | done out =>
    cases expands' with
    | done =>
      rw [List.map_nil, List.flatten_nil, List.nil_append, List.nil_append, List.cons.injEq] at coded'
      rw [(extension_inj (token_inj coded'.1).1 coded'.2).2]
    | next long near reaches later =>
      rw [List.map_nil, List.flatten_nil, List.nil_append, List.map_cons, List.flatten_cons, List.append_assoc] at coded'
      exact absurd coded'.symm piece_not_last
  | next long near reaches later ih =>
    cases expands' with
    | done =>
      rw [List.map_nil, List.flatten_nil, List.nil_append, List.map_cons, List.flatten_cons, List.append_assoc] at coded'
      exact absurd coded' piece_not_last
    | next long' near' reaches' later' =>
      rw [List.map_cons, List.flatten_cons, List.append_assoc, List.map_cons, List.flatten_cons, List.append_assoc] at coded'
      obtain ⟨rfl, tails⟩ := piece_inj long long' near near' coded'
      exact ih _ later' tails

variable {capacity' : Nat} {token : UInt8}

theorem Roomy.wider (wider : capacity ≤ capacity') (roomy : Roomy token capacity out rest) : Roomy token capacity' out rest :=
  ⟨roomy.1, roomy.2.1, Nat.le_trans roomy.2.2 wider⟩

theorem plainMatch_wider {roomy roomy' : Bool} (wider : capacity ≤ capacity') (more : roomy = true → roomy' = true)
    {bytes later left : Bytes} (step : plainMatch capacity roomy token out bytes = .next later left) :
    plainMatch capacity' roomy' token out bytes = .next later left := by
  unfold plainMatch at step ⊢
  split at step
  next low high bytes =>
    obtain ⟨length, left, read, step⟩ := afterLength_next step
    split at step
    next inside =>
      rw [read, afterLength, if_pos]
      · exact step
      · refine ⟨inside.1, inside.2.imp (fun ends => Nat.le_trans ends wider) ?_⟩
        rintro ⟨room, short, far⟩
        exact ⟨more room, short, far⟩
    next => cases step
  next => cases step

theorem plainStep_wider {bytes later left : Bytes} (wider : capacity ≤ capacity')
    (step : plainStep capacity out bytes = .next later left) : plainStep capacity' out bytes = .next later left := by
  cases bytes with
  | nil => cases step
  | cons token bytes =>
    obtain ⟨length, behind, read, step⟩ := afterLength_next step
    unfold plainLiterals at step
    split at step
    next goes =>
      have goes' : Roomy token capacity' out behind ∨
          length + (2 + 1 + lastLiterals) ≤ behind.length ∧ out.length + length + mfLimit ≤ capacity' := by
        refine goes.imp (Roomy.wider wider) ?_
        rintro ⟨inside, room⟩
        exact ⟨inside, Nat.le_trans room wider⟩
      rw [plainStep, read, afterLength, plainLiterals, if_pos goes']
      apply plainMatch_wider wider ?_ step
      rw [decide_eq_true_eq, decide_eq_true_eq]
      exact Roomy.wider wider
    next => split at step <;> cases step

/-- More room changes nothing about a block that is accepted. -/
theorem plain_wider {bytes data : Bytes} (wider : capacity ≤ capacity') (read : plain capacity out bytes = .ok data) :
    plain capacity' out bytes = .ok data := by
  generalize left : bytes.length = size
  induction size using Nat.strongRecOn generalizing out bytes with
  | ind size ih =>
    cases step : plainStep capacity out bytes with
    | next later rest =>
      have shorter := plainStep_shorter step
      rw [plain_next step] at read
      rw [plain_next (plainStep_wider wider step)]
      exact ih rest.length (by omega) read rfl
    | decoded data' =>
      obtain ⟨last, spare, rfl, rfl, fits⟩ := plainStep_accepts step
      rw [plain_decoded step] at read
      rw [plain_decoded (plainStep_last spare (Nat.le_trans fits wider))]
      exact read
    | refused rest =>
      rw [plain_refused step] at read
      cases read

end VirtualLan.LZ4
