import VirtualLan.Lz4Search
import VirtualLan.Proofs.Optimal

/-! The search for matches. It reads only what is in the source, its assertions hold,
and each match that it reports is one: it has compared the bytes, or they belong to two
runs of one byte. -/

namespace VirtualLan.LZ4
open Words

variable {source : Bytes} {pIn pMatch pInLimit ip iEnd iLow : Nat} {byte : UInt8}

theorem countStep_common {width : Nat} (positive : 0 < width) (before : pMatch ≤ pIn) (inside : pInLimit ≤ source.length)
    (short : common source pInLimit pIn pMatch < 2 * width) : ∃ counted,
    countStep source pInLimit width pIn pMatch = .ok counted ∧
      common source pInLimit pIn pMatch = counted + common source pInLimit (pIn + counted) (pMatch + counted) ∧
      common source pInLimit (pIn + counted) (pMatch + counted) < width := by
  rw [countStep]
  split
  next room =>
    have fits : pIn + width ≤ source.length := by omega
    have fits' : pMatch + width ≤ source.length := by omega
    simp only [read_inside fits, read_inside fits', bind, Except.bind]
    by_cases agree : Same source pIn pMatch width
    · have counted := agree.common_add (by omega : pIn + width ≤ pInLimit)
      rw [if_pos ((word_slice_eq_iff fits fits').mpr agree).symm]
      exact ⟨width, rfl, counted, by omega⟩
    · rw [if_neg (fun same => agree ((word_slice_eq_iff fits fits').mp same.symm))]
      exact ⟨0, rfl, (Nat.zero_add _).symm, common_lt positive (fun both => agree both.2)⟩
  next full =>
    exact ⟨0, rfl, (Nat.zero_add _).symm, common_lt positive (fun both => full (by omega))⟩

theorem nbCommonBytes_common (inside : pIn + stepSize ≤ source.length) (inside' : pMatch + stepSize ≤ source.length)
    (apart : ¬Same source pIn pMatch stepSize) (fits : pIn + stepSize ≤ pInLimit) :
    nbCommonBytes (word (slice source pMatch stepSize) ^^^ word (slice source pIn stepSize)) =
      common source pInLimit pIn pMatch := by
  rw [← ctz_slices inside inside' apart fits, nbCommonBytes, Nat.shiftRight_eq_div_pow]
  rfl

theorem countLoop_common (before : pMatch ≤ pIn) (inside : pInLimit ≤ source.length) :
    countLoop source pInLimit pIn pMatch = .ok (pIn + common source pInLimit pIn pMatch) := by
  fun_induction countLoop with
  | case1 pIn pMatch room ih =>
    have fits : pIn + stepSize ≤ source.length := by
      simp only [stepSize] at room ⊢
      omega
    have fits' : pMatch + stepSize ≤ source.length := by omega
    simp only [readArch, read_inside fits, read_inside fits', bind, Except.bind]
    by_cases agree : Same source pIn pMatch stepSize
    · have reaches : pIn + stepSize ≤ pInLimit := by
        simp only [stepSize] at room ⊢
        omega
      have same := (word_slice_eq_iff fits fits').mpr agree
      rw [same, Nat.xor_self, if_pos rfl, ih (by omega), agree.common_add reaches, Nat.add_assoc]
    · have differ : word (slice source pMatch stepSize) ^^^ word (slice source pIn stepSize) ≠ 0 := by
        intro zero
        exact agree ((word_slice_eq_iff fits fits').mp (eq_of_xor_eq_zero zero).symm)
      have reaches : pIn + stepSize ≤ pInLimit := by
        simp only [stepSize] at room ⊢
        omega
      rw [if_neg differ, nbCommonBytes_common fits fits' agree reaches]
      rfl
  | case2 pIn pMatch full =>
    have short : common source pInLimit pIn pMatch < 2 * 4 := by
      have bounded := common_le source pInLimit pIn pMatch
      simp only [stepSize] at full
      omega
    obtain ⟨four, counted, rest, short⟩ := countStep_common (by decide) before inside short
    obtain ⟨two, counted', rest', short'⟩ := @countStep_common source (pIn + four) (pMatch + four) pInLimit 2 (by decide)
      (by omega) inside short
    obtain ⟨one, counted'', rest'', short''⟩ := @countStep_common source (pIn + four + two) (pMatch + four + two) pInLimit 1
      (by decide) (by omega) inside short'
    simp only [counted, counted', counted'', bind, Except.bind]
    rw [rest, rest', rest'', Nat.lt_one_iff.mp short'', Nat.add_zero, ← Nat.add_assoc, ← Nat.add_assoc]
    rfl

/-- `LZ4_count` compares by words, and counts every byte that agrees before the first
one that does not, or before the limit. -/
theorem count_common (before : pMatch ≤ pIn) (inside : pInLimit ≤ source.length) :
    count source pIn pMatch pInLimit = .ok (common source pInLimit pIn pMatch) := by
  simp only [count, countLoop_common before inside, bind, Except.bind]
  rw [Nat.add_sub_cancel_left]
  rfl

theorem countPatternBytes_run {left : Nat} (before : ip ≤ iEnd) (inside : iEnd ≤ source.length) (enough : iEnd ≤ ip + left) :
    ∃ len, countPatternBytes source iEnd ip (word (List.replicate left byte)) = .ok (ip + len) ∧ ip + len ≤ iEnd ∧
      Run source byte ip len := by
  induction left generalizing ip with
  | zero =>
    rw [countPatternBytes, if_neg (by omega)]
    exact ⟨0, rfl, before, Run.zero source byte ip⟩
  | succ left ih =>
    rw [countPatternBytes]
    split
    next room =>
      have fits : ip + 1 ≤ source.length := by omega
      rw [List.replicate_succ, word_cons_mod, word_cons_shiftRight]
      simp only [read_inside fits, bind, Except.bind]
      split
      next same =>
        obtain ⟨len, counted, bounded, run⟩ := @ih (ip + 1) (by omega) (by omega)
        have one : Run source byte ip 1 := (word_slice_eq_byte_iff fits).mp same
        rw [counted]
        exact ⟨1 + len, by rw [Nat.add_assoc], by omega, one.append run⟩
      next => exact ⟨0, rfl, before, Run.zero source byte ip⟩
    next => exact ⟨0, rfl, before, Run.zero source byte ip⟩

/-- The bytes of a word before the first one that is not the byte of the pattern. -/
theorem nbCommonBytes_run (inside : ip + stepSize ≤ source.length) (apart : ¬Run source byte ip stepSize) : ∃ len,
    nbCommonBytes (word (slice source ip stepSize) ^^^ word (List.replicate stepSize byte)) = len ∧ len < stepSize ∧
      Run source byte ip len := by
  have differ : slice source ip stepSize ≠ List.replicate stepSize byte := by
    intro same
    apply apart
    apply (word_slice_eq_replicate_iff inside).mp
    rw [same]
  obtain ⟨len, counted, below, agree, _⟩ := ctz_diff (length_slice inside) List.length_replicate differ
  refine ⟨len, ?_, below, ?_⟩
  · rw [← counted, nbCommonBytes, Nat.shiftRight_eq_div_pow]
    rfl
  · intro index early
    have small : index < stepSize := Nat.lt_trans early below
    rw [← getElem?_slice small, agree index early, List.getElem?_replicate_of_lt small]

theorem countPatternLoop_run (before : ip ≤ iEnd) (inside : iEnd ≤ source.length) : ∃ len,
    countPatternLoop source iEnd (word (List.replicate stepSize byte)) ip = .ok (ip + len) ∧ ip + len ≤ iEnd ∧
      Run source byte ip len := by
  induction gap : iEnd - ip using Nat.strongRecOn generalizing ip with
  | ind gap ih =>
    subst gap
    rw [countPatternLoop]
    split
    next room =>
      have reaches : ip + stepSize ≤ iEnd := by
        simp only [stepSize] at room ⊢
        omega
      have fits : ip + stepSize ≤ source.length := Nat.le_trans reaches inside
      simp only [readArch, read_inside fits, bind, Except.bind]
      by_cases whole : Run source byte ip stepSize
      · obtain ⟨len, counted, bounded, run⟩ := @ih (iEnd - (ip + stepSize)) (by simp only [stepSize] at room ⊢; omega)
          (ip + stepSize) reaches rfl
        rw [(word_slice_eq_replicate_iff fits).mpr whole, Nat.xor_self, if_pos rfl, counted]
        exact ⟨stepSize + len, by rw [Nat.add_assoc], by omega, whole.append run⟩
      · obtain ⟨len, counted, below, run⟩ := nbCommonBytes_run fits whole
        have differ : word (slice source ip stepSize) ^^^ word (List.replicate stepSize byte) ≠ 0 :=
          fun zero => whole ((word_slice_eq_replicate_iff fits).mp (eq_of_xor_eq_zero zero))
        rw [if_neg differ, counted]
        exact ⟨len, rfl, by omega, run⟩
    next full =>
      apply countPatternBytes_run before inside
      simp only [stepSize] at full ⊢
      omega

theorem countPattern_run (before : ip ≤ iEnd) (inside : iEnd ≤ source.length) : ∃ len,
    countPattern source ip iEnd (word (List.replicate 4 byte)) = .ok len ∧ ip + len ≤ iEnd ∧ Run source byte ip len := by
  obtain ⟨len, counted, bounded, run⟩ := @countPatternLoop_run source ip iEnd byte before inside
  have pattern : word (List.replicate 4 byte) + word (List.replicate 4 byte) <<< 32 =
      word (List.replicate stepSize byte) := by
    have halves : List.replicate stepSize byte = List.replicate 4 byte ++ List.replicate 4 byte := rfl
    rw [halves, word_append, List.length_replicate, Nat.shiftLeft_eq, Nat.mul_comm (2 ^ (8 * 4))]
  refine ⟨len, ?_, bounded, run⟩
  simp only [countPattern, pattern, counted, bind, Except.bind]
  rw [Nat.add_sub_cancel_left]
  rfl

/-- Going back byte by byte ends before the pattern does, for its four bytes do not all
stand there. -/
theorem reversePatternBytes_run {left : Nat} (small : left ≤ 4) (before : iLow ≤ ip) (inside : ip ≤ source.length)
    (apart : ¬(iLow + left ≤ ip ∧ Run source byte (ip - left) left)) : ∃ len,
    reversePatternBytes source iLow (word (List.replicate 4 byte)) left ip = .ok (ip - len) ∧ iLow + len ≤ ip ∧
      Run source byte (ip - len) len := by
  induction left generalizing ip with
  | zero => exact absurd ⟨before, Run.zero source byte _⟩ apart
  | succ left ih =>
    rw [reversePatternBytes]
    split
    next room =>
      have fits : ip - 1 + 1 ≤ source.length := by omega
      have pattern : (word (List.replicate 4 byte) >>> (8 * left)) % 2 ^ 8 = byte.toNat := by
        have rest : 4 - left = 3 - left + 1 := by omega
        rw [word_shiftRight, List.drop_replicate, rest, List.replicate_succ, word_cons_mod]
      rw [pattern]
      simp only [read_inside fits, bind, Except.bind]
      split
      next same =>
        have one : Run source byte (ip - 1) 1 := (word_slice_eq_byte_iff fits).mp same
        have place (len : Nat) (room : len ≤ ip - 1) : ip - 1 - len + len = ip - 1 := Nat.sub_add_cancel room
        have apart' : ¬(iLow + left ≤ ip - 1 ∧ Run source byte (ip - 1 - left) left) := by
          intro both
          apply apart
          refine ⟨by omega, ?_⟩
          have start : ip - (left + 1) = ip - 1 - left := by omega
          rw [start]
          apply both.2.append
          rwa [place left (by omega)]
        obtain ⟨len, counted, bounded, run⟩ := ih (by omega) (by omega) (by omega) apart'
        have start : ip - (len + 1) = ip - 1 - len := by omega
        refine ⟨len + 1, ?_, by omega, ?_⟩
        · rw [counted, start]
        · rw [start]
          apply run.append
          rwa [place len (by omega)]
      next => exact ⟨0, rfl, before, Run.zero source byte ip⟩
    next => exact ⟨0, rfl, before, Run.zero source byte ip⟩

theorem reversePatternLoop_run (before : iLow ≤ ip) (inside : ip ≤ source.length) : ∃ len,
    reversePatternLoop source iLow (word (List.replicate 4 byte)) ip = .ok (ip - len) ∧ iLow + len ≤ ip ∧
      Run source byte (ip - len) len := by
  induction ip using Nat.strongRecOn with
  | ind ip ih =>
    rw [reversePatternLoop]
    split
    next room =>
      have fits : ip - 4 + 4 ≤ source.length := by omega
      simp only [read32, read_inside fits, bind, Except.bind]
      split
      next apart =>
        apply reversePatternBytes_run (Nat.le_refl 4) before inside
        intro both
        exact apart ((word_slice_eq_replicate_iff fits).mpr both.2)
      next same =>
        have four : Run source byte (ip - 4) 4 := (word_slice_eq_replicate_iff fits).mp (not_not.mp same)
        obtain ⟨len, counted, bounded, run⟩ := ih (ip - 4) (by omega) (by omega) (by omega)
        have start : ip - (len + 4) = ip - 4 - len := by omega
        have place : ip - 4 - len + len = ip - 4 := Nat.sub_add_cancel (by omega)
        refine ⟨len + 4, ?_, by omega, ?_⟩
        · rw [counted, start]
        · rw [start]
          apply run.append
          rwa [place]
    next full =>
      apply reversePatternBytes_run (Nat.le_refl 4) before inside
      intro both
      exact full both.1

theorem reverseCountPattern_run (before : iLow ≤ ip) (inside : ip ≤ source.length) : ∃ len,
    reverseCountPattern source ip iLow (word (List.replicate 4 byte)) = .ok len ∧ iLow + len ≤ ip ∧
      Run source byte (ip - len) len := by
  obtain ⟨len, counted, bounded, run⟩ := @reversePatternLoop_run source ip iLow byte before inside
  refine ⟨len, ?_, bounded, run⟩
  simp only [reverseCountPattern, counted, bind, Except.bind]
  rw [Nat.sub_sub_self (by omega)]
  rfl

/-- The tables behind a search at a position, or before the first one. -/
structure Ready (context : Context) (seen : Nat) : Prop where
  dictLimit : context.dictLimit = 64 * 1024
  lowLimit : context.lowLimit = 64 * 1024
  nextToUpdate : context.nextToUpdate ≤ 64 * 1024 + seen
  hashTable : ∀ h, context.hashTable h < context.nextToUpdate

theorem init_ready : Ready Context.init 0 where
  dictLimit := rfl
  lowLimit := rfl
  nextToUpdate := Nat.le_refl _
  hashTable _ := by
    change 0 < 64 * 1024
    decide

theorem hashPtr_inside (inside : ip + 4 ≤ source.length) : ∃ h, hashPtr source ip = .ok h := by
  simp only [hashPtr, read32, read_inside inside, bind, Except.bind]
  exact ⟨_, rfl⟩

variable {context : Context} {seen : Nat}

/-- Every place of a source that the library accepts has an index in 32 bits. -/
theorem index_small (size : source.length ≤ Lz4.maxInputSize) (inside : ip ≤ source.length) : ip + 64 * 1024 < 2 ^ 31 := by
  have bound : Lz4.maxInputSize + 64 * 1024 < 2 ^ 31 := by decide
  omega

theorem insert_ready (ready : Ready context seen) (forward : seen ≤ ip) (inside : ip + 4 ≤ source.length)
    (size : source.length ≤ Lz4.maxInputSize) : ∃ after, insert source context ip = .ok after ∧ Ready after ip ∧
      ∀ h, after.hashTable h < ip + 64 * 1024 := by
  have small := index_small size (by omega : ip ≤ source.length)
  have target : add32 ip context.dictLimit = ip + 64 * 1024 := by rw [ready.dictLimit, add32_small (by omega)]
  have before : context.nextToUpdate ≤ ip + 64 * 1024 := by
    have bound := ready.nextToUpdate
    omega
  have step : ∀ idx (context' : Context), context.nextToUpdate ≤ idx →
      idx < context.nextToUpdate + (ip + 64 * 1024 - context.nextToUpdate) →
      (context'.dictLimit = 64 * 1024 ∧ context'.lowLimit = 64 * 1024 ∧ ∀ h, context'.hashTable h < idx) → ∃ after,
        insertAt source context' idx = .ok after ∧
          after.dictLimit = 64 * 1024 ∧ after.lowLimit = 64 * 1024 ∧ ∀ h, after.hashTable h < idx + 1 := by
    intro idx context' first last holds
    obtain ⟨dict, low, earlier⟩ := holds
    obtain ⟨h, hashed⟩ := @hashPtr_inside source (idx - context'.dictLimit) (by omega)
    simp only [insertAt, hashed, bind, Except.bind]
    refine ⟨_, rfl, dict, low, ?_⟩
    intro other
    simp only
    by_cases same : other = h
    · subst same
      rw [Function.update_self]
      exact Nat.lt_succ_self idx
    · rw [Function.update_of_ne same]
      exact Nat.lt_succ_of_lt (earlier other)
  obtain ⟨after, folds, dict, low, earlier⟩ := foldlM_range' (fun idx (context' : Context) =>
    context'.dictLimit = 64 * 1024 ∧ context'.lowLimit = 64 * 1024 ∧ ∀ h, context'.hashTable h < idx) step
    ⟨ready.dictLimit, ready.lowLimit, ready.hashTable⟩
  rw [Nat.add_sub_cancel' before] at earlier
  have reaches : context.dictLimit ≤ add32 ip context.dictLimit := by
    rw [target, ready.dictLimit]
    exact Nat.le_add_left _ _
  simp only [insert, require_true reaches, bind, Except.bind]
  rw [target, folds]
  exact ⟨_, rfl, ⟨dict, low, by simp only; omega, earlier⟩, earlier⟩

/-- What stays as it is during a search. The lowest index is within the source, and
within the reach of an offset. -/
structure Setting (source : Bytes) (context : Context) (ip pattern lowest : Nat) : Prop where
  starts : ip + mfLimit ≤ source.length
  size : source.length + context.dictLimit < 2 ^ 31
  lowLimit : context.lowLimit = context.dictLimit
  room : distanceMax < context.dictLimit
  pattern : pattern = word (slice source ip 4)
  floor : context.dictLimit ≤ lowest
  near : ip + context.dictLimit ≤ lowest + distanceMax

/-- So many bytes of one value from `ip` on, which the pattern consists of. -/
structure Repeated (source : Bytes) (ip pattern len : Nat) (byte : UInt8) : Prop where
  pattern : pattern = word (List.replicate 4 byte)
  run : Run source byte ip len
  long : 4 ≤ len
  ends : ip + len + lastLiterals ≤ source.length

/-- The variables before each round. -/
structure Searching (source : Bytes) (context : Context) (ip pattern minLen : Nat) (search : Search) : Prop where
  index : search.matchIndex < ip + context.dictLimit
  positive : 0 < search.longest
  ends : ip + search.longest + lastLiterals ≤ source.length
  longer : minLen ≤ search.longest
  sound : minLen < search.longest → MatchAt source ip search.offset search.longest
  repeated : search.repeated = .confirmed → ∃ byte, Repeated source ip pattern search.srcPatternLength byte

def Round.search : Round → Search
  | .next search => search
  | .stop search => search

variable {pattern lowest minLen : Nat} {search : Search}

theorem Searching.move (searching : Searching source context ip pattern minLen search) {index : Nat}
    (before : index < ip + context.dictLimit) :
    Searching source context ip pattern minLen { search with matchIndex := index } where
  index := before
  positive := searching.positive
  ends := searching.ends
  longer := searching.longer
  sound := searching.sound
  repeated := searching.repeated

/-- A longer match takes the place of the one before. -/
theorem Searching.take (searching : Searching source context ip pattern minLen search) {offset longest : Nat}
    (farther : search.longest < longest) (found : MatchAt source ip offset longest) :
    Searching source context ip pattern minLen { search with longest := longest, offset := offset } where
  index := searching.index
  positive := Nat.lt_of_le_of_lt (Nat.zero_le _) farther
  ends := found.ends
  longer := Nat.le_of_lt (Nat.lt_of_le_of_lt searching.longer farther)
  sound _ := found
  repeated := searching.repeated

namespace Setting

variable (setting : Setting source context ip pattern lowest)
include setting

theorem small : ip + context.dictLimit < 2 ^ 32 := by
  have starts := setting.starts
  have size := setting.size
  omega

theorem ipIndex_eq : ipIndex context ip = ip + context.dictLimit := by
  rw [ipIndex, add32_small setting.small]

theorem iHighLimit_eq : iHighLimit source + lastLiterals = source.length := by
  have starts := setting.starts
  simp only [iHighLimit, mfLimit, lastLiterals] at starts ⊢
  omega

theorem offset_eq {index : Nat} (before : index < ip + context.dictLimit) :
    sub32 (ipIndex context ip) index = ip + context.dictLimit - index := by
  rw [setting.ipIndex_eq, sub32_small (Nat.le_of_lt before) setting.small]

theorem protected_ok {index : Nat} (low : context.dictLimit ≤ index) (before : index < ip + context.dictLimit) :
    protectDictEnd context.dictLimit index = true := by
  have size := setting.size
  have starts : ip + 12 ≤ source.length := setting.starts
  have room := setting.room
  rw [protectDictEnd, sub32_small (by omega : 1 ≤ context.dictLimit) (by omega), decide_eq_true_eq, sub32]
  have rest : 2 ^ 32 + (context.dictLimit - 1) - index < 2 ^ 32 := by omega
  rw [Nat.mod_eq_of_lt rest]
  omega

/-- Bytes that agree with earlier ones within reach are a match. -/
theorem matchAt {index len : Nat} (low : lowest ≤ index) (before : index < ip + context.dictLimit) (long : minMatch ≤ len)
    (ends : ip + len + lastLiterals ≤ source.length) (same : Same source ip (index - context.dictLimit) len) :
    MatchAt source ip (ip + context.dictLimit - index) len where
  long := long
  positive := Nat.sub_pos_of_lt before
  near := by
    have near := setting.near
    omega
  reaches := by
    have floor := setting.floor
    omega
  starts := setting.starts
  ends := ends
  same item inside := by
    have floor := setting.floor
    have place : ip + item - (ip + context.dictLimit - index) = index - context.dictLimit + item := by omega
    rw [place]
    exact same item inside

/-- Where the first bytes are those of the pattern, they and all that are counted behind
them are a match. -/
theorem compared {index : Nat} (low : lowest ≤ index) (before : index < ip + context.dictLimit)
    (same : word (slice source (index - context.dictLimit) 4) = pattern) :
    MatchAt source ip (ip + context.dictLimit - index)
      (minMatch + common source (iHighLimit source) (ip + minMatch) (index - context.dictLimit + minMatch)) := by
  have starts : ip + 12 ≤ source.length := setting.starts
  have limit := setting.iHighLimit_eq
  have bounded := common_le source (iHighLimit source) (ip + minMatch) (index - context.dictLimit + minMatch)
  have room : ip + 4 ≤ source.length := by omega
  have room' : index - context.dictLimit + 4 ≤ source.length := by omega
  have four : Same source ip (index - context.dictLimit) minMatch := by
    apply (word_slice_eq_iff room room').mp
    rw [setting.pattern] at same
    exact same.symm
  apply setting.matchAt low before (Nat.le_add_right _ _) _ (four.append (common_same source _ _ _))
  simp only [minMatch, lastLiterals] at limit bounded ⊢
  omega

end Setting

variable {favorDecSpeed : Bool}

theorem tryMatch_keeps (setting : Setting source context ip pattern lowest)
    (searching : Searching source context ip pattern minLen search) (low : lowest ≤ search.matchIndex) : ∃ len after,
    tryMatch favorDecSpeed source context ip pattern search = .ok (len, after) ∧
      Searching source context ip pattern minLen after ∧ after.matchIndex = search.matchIndex := by
  have before := searching.index
  have positive : 1 ≤ search.longest := searching.positive
  have ends := searching.ends
  have starts := setting.starts
  have limit := setting.iHighLimit_eq
  have floor := setting.floor
  simp only [mfLimit, lastLiterals] at starts ends limit
  have dict : ¬search.matchIndex < context.dictLimit := by omega
  rw [tryMatch]
  split
  next => exact ⟨0, search, rfl, searching, rfl⟩
  next =>
    rw [setting.offset_eq before]
    have ptr : search.matchIndex - context.dictLimit < ip := by omega
    have fits : ip + search.longest - 1 + 2 ≤ source.length := by omega
    have fits' : search.matchIndex - context.dictLimit + search.longest - 1 + 2 ≤ source.length := by omega
    have room : search.matchIndex - context.dictLimit + 4 ≤ source.length := by omega
    simp only [require_true ptr, require_true positive, read16, read_inside fits, read_inside fits', read32,
      read_inside room, bind, Except.bind]
    split
    next =>
      split
      next same =>
        have before' : search.matchIndex - context.dictLimit + minMatch ≤ ip + minMatch := by omega
        have inside : iHighLimit source ≤ source.length := by omega
        rw [count_common before' inside]
        simp only
        split
        next farther =>
          have found := setting.compared low before same
          exact ⟨_, _, rfl, searching.take farther found, rfl⟩
        next => exact ⟨_, search, rfl, searching, rfl⟩
      next => exact ⟨0, search, rfl, searching, rfl⟩
    next => exact ⟨0, search, rfl, searching, rfl⟩

/-- The positions grow in each round, and so the choice ends. -/
theorem selectChain_ok {matchIndex stop rounds pos accel distance chainPos : Nat} (some : 0 < rounds)
    (enough : stop < pos + rounds) (fast : 16 ≤ accel) :
    ∃ choice, selectChain context matchIndex stop rounds pos accel distance chainPos = .ok choice := by
  induction rounds generalizing pos accel distance chainPos with
  | zero => exact absurd some (Nat.lt_irrefl 0)
  | succ rounds ih =>
    have forward : 1 ≤ accel >>> 4 := by
      rw [Nat.shiftRight_eq_div_pow]
      omega
    rw [selectChain]
    split
    next => exact ⟨_, rfl⟩
    next =>
      simp only
      split
      next => exact ih (by omega) (by omega) (Nat.le_refl 16)
      next => exact ih (by omega) (by omega) (Nat.le_succ_of_le fast)

/-- A word whose halves are equal, and whose first and last byte are, is one byte four
times. -/
theorem pattern_repeats {bytes : Bytes} (size : bytes.length = 4) (halves : word bytes % 2 ^ 16 = word bytes >>> 16)
    (ends : word bytes % 2 ^ 8 = word bytes >>> 24) : ∃ byte, bytes = List.replicate 4 byte := by
  have front : bytes.take 2 = bytes.drop 2 := by
    apply word_injective
    · rw [List.length_take, List.length_drop, size]
      rfl
    · exact (word_mod bytes (by omega)).symm.trans (halves.trans (word_shiftRight bytes 2))
  have outer : bytes.take 1 = bytes.drop 3 := by
    apply word_injective
    · rw [List.length_take, List.length_drop, size]
      rfl
    · exact (word_mod bytes (by omega)).symm.trans (ends.trans (word_shiftRight bytes 3))
  match bytes, size with
  | [first, second, third, fourth], _ =>
    obtain ⟨rfl, rfl⟩ : first = third ∧ second = fourth := by simpa using front
    obtain rfl : first = second := by simpa using outer
    exact ⟨_, rfl⟩

theorem testRepeat_keeps (setting : Setting source context ip pattern lowest)
    (searching : Searching source context ip pattern minLen search) : ∃ after,
    testRepeat source ip pattern search = .ok after ∧ Searching source context ip pattern minLen after ∧
      after.matchIndex = search.matchIndex := by
  have starts := setting.starts
  have limit := setting.iHighLimit_eq
  simp only [mfLimit, lastLiterals] at starts limit
  rw [testRepeat]
  split
  next =>
    split
    next same =>
      have inside : ip + 4 ≤ source.length := by omega
      rw [setting.pattern] at same
      obtain ⟨byte, four⟩ := pattern_repeats (length_slice inside) same.1 same.2
      have repeats : pattern = word (List.replicate 4 byte) := by rw [setting.pattern, four]
      have run : Run source byte ip 4 := (word_slice_eq_replicate_iff inside).mp (congrArg word four)
      obtain ⟨len, counted, bounded, later⟩ :=
        @countPattern_run source (ip + 4) (iHighLimit source) byte (by omega) (by omega)
      rw [← repeats] at counted
      simp only [counted, bind, Except.bind]
      refine ⟨_, rfl, ⟨searching.index, searching.positive, searching.ends, searching.longer, searching.sound, ?_⟩, rfl⟩
      intro _
      refine ⟨byte, repeats, ?_, Nat.le_add_left 4 len, by simp only [lastLiterals]; omega⟩
      rw [Nat.add_comm len]
      exact run.append later
    next =>
      refine ⟨_, rfl, ⟨searching.index, searching.positive, searching.ends, searching.longer, searching.sound, ?_⟩, rfl⟩
      intro confirmed
      cases confirmed
  next => exact ⟨search, rfl, searching, rfl⟩

theorem deltaNext_small (context : Context) (pos : Nat) : context.deltaNext pos ≤ distanceMax := by
  have bound : context.deltaNext pos < maxD := (context.chainTable (cell pos)).isLt
  exact Nat.le_of_lt_succ bound

theorem follow_keeps (setting : Setting source context ip pattern lowest)
    (searching : Searching source context ip pattern minLen search) (low : lowest ≤ search.matchIndex) :
    Searching source context ip pattern minLen (follow context search).search := by
  have before := searching.index
  have bound := deltaNext_small context (search.matchIndex + search.matchChainPos)
  have room := setting.room
  have floor := setting.floor
  have small := setting.small
  apply searching.move
  rw [sub32_small (by omega) (by omega)]
  omega

theorem skipPattern_keeps (searching : Searching source context ip pattern minLen search) :
    Searching source context ip pattern minLen (skipPattern context search).search := by
  have before := searching.index
  simp only [skipPattern]
  split
  next => exact searching
  next => exact searching.move (by omega)

theorem adjust_eq (setting : Setting source context ip pattern lowest) {index : Nat} (low : lowest ≤ index)
    (before : index < ip + context.dictLimit) (enough : Search → Except Fault Round) :
    adjust context search index enough = enough { search with matchIndex := index } := by
  have floor := setting.floor
  rw [adjust, if_pos (setting.protected_ok (by omega) before)]

/-- At the start of a segment: as many bytes as it and the source have of the pattern
are a match. -/
theorem takePattern_keeps {current : Nat} {byte : UInt8} (setting : Setting source context ip pattern lowest)
    (searching : Searching source context ip pattern minLen search) (low : lowest ≤ search.matchIndex)
    (repeated : Repeated source ip pattern search.srcPatternLength byte) (long : 4 ≤ current)
    (segment : Run source byte (search.matchIndex - context.dictLimit) current) : ∃ round,
    takePattern context ip current search = .ok round ∧ Searching source context ip pattern minLen round.search := by
  have before := searching.index
  have near := setting.near
  have ends := repeated.ends
  have long' := repeated.long
  simp only [takePattern]
  split
  next farther =>
    have apart : search.matchIndex ≠ ip + context.dictLimit := Nat.ne_of_lt before
    have within : ¬distanceMax < ip + context.dictLimit - search.matchIndex := by omega
    have ours := repeated.run.shorter (Nat.min_le_right current search.srcPatternLength)
    have same := ours.same (segment.shorter (Nat.min_le_left current search.srcPatternLength))
    have found := setting.matchAt low before (by simp only [minMatch]; omega) (by omega) same
    have small : min current search.srcPatternLength < 2 * 2 ^ 30 := by
      have size := setting.size
      omega
    simp only [require_true apart, require_true small, setting.offset_eq before, bind, Except.bind]
    rw [if_neg within]
    exact ⟨_, rfl, skipPattern_keeps (searching.take farther found)⟩
  next => exact ⟨_, rfl, skipPattern_keeps searching⟩

theorem goodCandidate_keeps {candidate : Nat} {byte : UInt8} (setting : Setting source context ip pattern lowest)
    (searching : Searching source context ip pattern minLen search) (low : lowest ≤ candidate)
    (before : candidate < ip + context.dictLimit)
    (repeated : Repeated source ip pattern search.srcPatternLength byte)
    (good : word (slice source (candidate - context.dictLimit) 4) = pattern) : ∃ round,
    goodCandidate source context ip pattern lowest candidate (candidate - context.dictLimit) search = .ok round ∧
      Searching source context ip pattern minLen round.search := by
  have starts := setting.starts
  have limit := setting.iHighLimit_eq
  have floor := setting.floor
  have size := setting.size
  have small := setting.small
  simp only [mfLimit, lastLiterals] at starts limit
  have room : candidate - context.dictLimit + 4 ≤ source.length := by omega
  have first : Run source byte (candidate - context.dictLimit) 4 := by
    apply (word_slice_eq_replicate_iff room).mp
    rw [good, repeated.pattern]
  obtain ⟨ahead, counted, bounded, later⟩ :=
    @countPattern_run source (candidate - context.dictLimit + 4) (iHighLimit source) byte (by omega) (by omega)
  obtain ⟨back, counted', bounded', earlier⟩ :=
    @reverseCountPattern_run source (candidate - context.dictLimit) 0 byte (Nat.zero_le _) (by omega)
  have noDict : ¬(candidate - context.dictLimit - back = 0 ∧ context.lowLimit < context.dictLimit) := by
    have same := setting.lowLimit
    omega
  have backs : sub32 candidate (max (sub32 candidate back) lowest) = candidate - max (candidate - back) lowest := by
    rw [sub32_small (by omega : back ≤ candidate) (by omega), sub32_small (by omega) (by omega)]
  rw [← repeated.pattern] at counted counted'
  simp only [goodCandidate, counted, counted', bind, Except.bind]
  rw [if_neg noDict, backs]
  generalize length : candidate - max (candidate - back) lowest = backLength
  have start : sub32 candidate backLength = candidate - backLength := sub32_small (by omega) (by omega)
  have inside : lowest ≤ sub32 candidate backLength := by omega
  have forward := first.append later
  rw [Nat.add_comm 4] at forward
  simp only [require_true inside]
  split
  next reaches =>
    have index : sub32 (add32 candidate (ahead + 4)) search.srcPatternLength =
        candidate + (ahead + 4) - search.srcPatternLength := by
      rw [add32_small (by omega), sub32_small (by omega) (by omega)]
    rw [index, adjust_eq setting (by omega) (by omega)]
    exact ⟨_, rfl, searching.move (by omega)⟩
  next =>
    have moved : Searching source context ip pattern minLen { search with matchIndex := candidate - backLength } :=
      searching.move (by omega)
    have low' : lowest ≤ candidate - backLength := by omega
    rw [start, adjust_eq setting low' moved.index]
    apply takePattern_keeps setting moved low' repeated (Nat.le_add_left_of_le (Nat.le_add_left 4 ahead))
    have segment := earlier.extend (by omega) (by omega : backLength ≤ back) forward
    have place : candidate - context.dictLimit - backLength = candidate - backLength - context.dictLimit := by omega
    rwa [place] at segment

theorem analysePattern_keeps (setting : Setting source context ip pattern lowest)
    (searching : Searching source context ip pattern minLen search) (low : lowest ≤ search.matchIndex) : ∃ round,
    analysePattern source context ip pattern lowest search = .ok round ∧
      Searching source context ip pattern minLen round.search := by
  have before := searching.index
  have room := setting.room
  have floor := setting.floor
  have size := setting.size
  have starts : ip + 12 ≤ source.length := setting.starts
  have candidate : sub32 search.matchIndex 1 = search.matchIndex - 1 := sub32_small (by omega) (by omega)
  rw [analysePattern]
  split
  next =>
    obtain ⟨after, tested, kept, same⟩ := testRepeat_keeps setting searching
    rw [← same] at low
    simp only [tested, candidate, bind, Except.bind]
    split
    next repeats =>
      obtain ⟨byte, repeated⟩ := kept.repeated repeats.1
      have inside : ¬search.matchIndex - 1 < context.dictLimit := by
        have reaches := repeats.2.1
        omega
      have fits : search.matchIndex - 1 - context.dictLimit + 4 ≤ source.length := by omega
      rw [if_neg inside]
      simp only [read32, read_inside fits]
      split
      next good => exact goodCandidate_keeps setting kept repeats.2.1 (by omega) repeated good
      next => exact ⟨_, rfl, follow_keeps setting kept low⟩
    next => exact ⟨_, rfl, follow_keeps setting kept low⟩
  next => exact ⟨_, rfl, follow_keeps setting searching low⟩

theorem swapChain_keeps {matchLength : Nat} (setting : Setting source context ip pattern lowest)
    (searching : Searching source context ip pattern minLen search) (low : lowest ≤ search.matchIndex) : ∃ round,
    swapChain source context ip pattern lowest matchLength search = .ok round ∧
      Searching source context ip pattern minLen round.search := by
  have before := searching.index
  rw [swapChain]
  split
  next =>
    obtain ⟨choice, chosen⟩ := @selectChain_ok context search.matchIndex (search.longest + 1 - minMatch)
      (search.longest + 1 - minMatch + 1) 0 16 1 search.matchChainPos (Nat.succ_pos _) (by omega) (Nat.le_refl 16)
    have kept : Searching source context ip pattern minLen { search with matchChainPos := choice.2 } :=
      ⟨before, searching.positive, searching.ends, searching.longer, searching.sound, searching.repeated⟩
    simp only [chosen, bind, Except.bind]
    split
    next =>
      split
      next => exact ⟨_, rfl, kept⟩
      next => exact ⟨_, rfl, kept.move (by omega)⟩
    next => exact analysePattern_keeps setting kept low
  next => exact analysePattern_keeps setting searching low

theorem round_keeps (setting : Setting source context ip pattern lowest)
    (searching : Searching source context ip pattern minLen search) (low : lowest ≤ search.matchIndex) : ∃ after,
    round favorDecSpeed source context ip pattern lowest search = .ok after ∧
      Searching source context ip pattern minLen after.search := by
  have before : search.matchIndex < ipIndex context ip := by
    rw [setting.ipIndex_eq]
    exact searching.index
  obtain ⟨len, tried, found, kept, same⟩ := @tryMatch_keeps source ip context pattern lowest minLen search favorDecSpeed
    setting searching low
  rw [← same] at low
  simp only [round, require_true before, found, bind, Except.bind]
  exact swapChain_keeps setting kept low

theorem searchLoop_keeps (setting : Setting source context ip pattern lowest) {nbAttempts : Nat}
    (searching : Searching source context ip pattern minLen search) : ∃ final,
    searchLoop favorDecSpeed source context ip pattern lowest nbAttempts search = .ok final ∧
      Searching source context ip pattern minLen final := by
  induction nbAttempts generalizing search with
  | zero => exact ⟨search, rfl, searching⟩
  | succ nbAttempts ih =>
    rw [searchLoop]
    split
    next => exact ⟨search, rfl, searching⟩
    next low =>
      obtain ⟨after, played, kept⟩ := @round_keeps source ip context pattern lowest minLen search favorDecSpeed setting
        searching (Nat.le_of_not_lt low)
      simp only [played, bind, Except.bind]
      cases after with
      | next search => exact ih kept
      | stop search => exact ⟨search, rfl, kept⟩

theorem lowest_setting (ready : Ready context ip) (starts : ip + mfLimit ≤ source.length)
    (size : source.length ≤ Lz4.maxInputSize) :
    Setting source context ip (word (slice source ip 4)) (context.lowestMatchIndex (ipIndex context ip)) := by
  have bound := index_small size (Nat.le_refl source.length)
  have inside := index_small size (Nat.le_trans (Nat.le_add_right ip mfLimit) starts)
  have index : ipIndex context ip = ip + 64 * 1024 := by rw [ipIndex, ready.dictLimit, add32_small (by omega)]
  have reach : add32 context.lowLimit (distanceMax + 1) = 64 * 1024 + (distanceMax + 1) := by
    rw [ready.lowLimit, add32_small (by decide)]
  have lowest : context.lowestMatchIndex (ipIndex context ip) = max (64 * 1024) (ip + 64 * 1024 - distanceMax) := by
    rw [Context.lowestMatchIndex, index, reach]
    split
    next =>
      rw [ready.lowLimit]
      omega
    next =>
      rw [sub32_small (by simp only [distanceMax]; omega) (by omega)]
      omega
  rw [lowest]
  refine ⟨starts, ?_, ?_, ?_, rfl, ?_, ?_⟩
  · rw [ready.dictLimit]
    exact bound
  · rw [ready.lowLimit, ready.dictLimit]
  · rw [ready.dictLimit]
    decide
  · rw [ready.dictLimit]
    exact Nat.le_max_left _ _
  · rw [ready.dictLimit]
    omega

theorem chainFinder_wider (level : Level) (size : source.length ≤ Lz4.maxInputSize) (ready : Ready context seen)
    (forward : seen ≤ ip) (positive : 0 < minLen) (starts : ip + mfLimit ≤ source.length)
    (fits : ip + minLen + lastLiterals ≤ source.length) : ∃ md after,
    insertAndGetWiderMatch level source context ip minLen = .ok (md, after) ∧ Ready after ip ∧
      (minLen < md.len → MatchAt source ip md.off md.len) := by
  have inside : ip + 4 ≤ source.length := by
    simp only [mfLimit] at starts
    omega
  obtain ⟨after, inserted, ready', earlier⟩ := insert_ready ready forward inside size
  obtain ⟨h, hashed⟩ := hashPtr_inside inside
  have setting := lowest_setting ready' starts size
  have searching : Searching source after ip (word (slice source ip 4)) minLen
      ⟨minLen, 0, after.hashTable h, 0, .untested, 0⟩ := by
    refine ⟨?_, positive, fits, Nat.le_refl minLen, fun longer => absurd longer (Nat.lt_irrefl _), ?_⟩
    · rw [ready'.dictLimit]
      exact earlier h
    · intro confirmed
      cases confirmed
  obtain ⟨final, found, kept⟩ := @searchLoop_keeps source ip after _ _ minLen _ level.favorDecSpeed setting level.nbSearches
    searching
  refine ⟨⟨final.offset, final.longest⟩, after, ?_, ready', kept.sound⟩
  simp only [insertAndGetWiderMatch, read32, read_inside inside, inserted, hashed, found, bind, Except.bind]
  rfl

theorem chainFinder_honest (level : Level) (size : source.length ≤ Lz4.maxInputSize) :
    (chainFinder level source).Honest source Ready where
  start := init_ready
  wider _ _ _ _ ready forward positive starts fits := chainFinder_wider level size ready forward positive starts fits

/-- The counting by words of eight, four and two bytes and then by one is the longest
agreement before the limit. -/
theorem count_longest (source : Bytes) (pIn pMatch pInLimit : Nat) (before : pMatch ≤ pIn) (room : pIn ≤ pInLimit)
    (inside : pInLimit ≤ source.length) : ∃ len, count source pIn pMatch pInLimit = .ok len ∧ pIn + len ≤ pInLimit ∧
      Same source pIn pMatch len ∧ (pIn + len < pInLimit → source[pIn + len]? ≠ source[pMatch + len]?) := by
  have bounded := common_le source pInLimit pIn pMatch
  exact ⟨_, count_common before inside, by omega, common_same source pInLimit pIn pMatch, common_apart⟩

theorem count_longest_run : ∃ len, count (List.replicate 20 7) 1 0 15 = .ok len ∧ 1 + len ≤ 15 ∧
    Same (List.replicate 20 (7 : UInt8)) 1 0 len ∧
      (1 + len < 15 → (List.replicate 20 (7 : UInt8))[1 + len]? ≠ (List.replicate 20 (7 : UInt8))[0 + len]?) :=
  count_longest (List.replicate 20 7) 1 0 15 (by decide) (by decide) (by decide)

/-- A place to search from and a length to surpass that the format allows. -/
structure Allowed (source : Bytes) (query : Nat × Nat) : Prop where
  positive : 0 < query.2
  starts : query.1 + mfLimit ≤ source.length
  fits : query.1 + query.2 + lastLiterals ≤ source.length

theorem searches_ready (level : Level) (size : source.length ≤ Lz4.maxInputSize) {queries : List (Nat × Nat)}
    (ready : Ready context seen) (forward : (seen :: queries.map Prod.fst).Pairwise (· ≤ ·))
    (allowed : ∀ query ∈ queries, Allowed source query) : ∃ found, searches level source context queries = .ok found ∧
      List.Forall₂ (fun query md => query.2 < md.len → MatchAt source query.1 md.off md.len) queries found := by
  induction queries generalizing context seen with
  | nil => exact ⟨[], rfl, .nil⟩
  | cons query queries ih =>
    have first := allowed query List.mem_cons_self
    obtain ⟨behind, onward⟩ := List.pairwise_cons.mp forward
    obtain ⟨md, after, searched, ready', sound⟩ := chainFinder_wider level size ready (behind _ List.mem_cons_self)
      first.positive first.starts first.fits
    obtain ⟨found, rest, all⟩ := ih ready' onward (fun other member => allowed other (List.mem_cons_of_mem _ member))
    simp only [searches, searched, rest, bind, Except.bind]
    exact ⟨md :: found, rfl, .cons sound all⟩

/-- In every run of searches in a source that the library accepts, at places and for
lengths that the format allows and as long as they do not go back, no read is outside
the source and no assertion fails, and each longer match that is reported is one. -/
theorem searches_sound (level : Level) (source : Bytes) (queries : List (Nat × Nat))
    (size : source.length ≤ Lz4.maxInputSize) (forward : (queries.map Prod.fst).Pairwise (· ≤ ·))
    (allowed : ∀ query ∈ queries, Allowed source query) : ∃ found,
    searches level source Context.init queries = .ok found ∧
      List.Forall₂ (fun query md => query.2 < md.len → MatchAt source query.1 md.off md.len) queries found := by
  apply searches_ready level size init_ready _ allowed
  exact List.pairwise_cons.mpr ⟨fun _ _ => Nat.zero_le _, forward⟩

theorem searches_sound_run : ∃ found,
    searches clevelMax (List.replicate 20 7) Context.init [(0, 3), (1, 3), (8, 4)] = .ok found ∧
      List.Forall₂ (fun query md => query.2 < md.len → MatchAt (List.replicate 20 7) query.1 md.off md.len)
        [(0, 3), (1, 3), (8, 4)] found :=
  searches_sound clevelMax (List.replicate 20 7) [(0, 3), (1, 3), (8, 4)] (by decide) (by decide) (by
    intro query member
    simp only [List.mem_cons, List.not_mem_nil, or_false] at member
    obtain rfl | rfl | rfl := member <;> exact ⟨by decide, by decide, by decide⟩)

/-- On every source, and for every search that hands over real matches only, the
optimal parser ends without a fault: its accesses to the table are within it, and read
nothing that was not written; all its assertions hold. The sequences that it hands to
the writer describe the source. -/
theorem compressOptimal_describes {σ : Type} (level : Level) (finder : Finder σ) (source : Bytes) (ready : σ → Nat → Prop)
    (honest : finder.Honest source ready) : ∃ sequences,
    compressOptimal level finder source = .ok sequences ∧ Parses [] source sequences :=
  compressOptimal_parses honest

theorem compressOptimal_describes_run : ∃ sequences,
    compressOptimal clevelMax (chainFinder clevelMax (List.replicate 20 7)) (List.replicate 20 7) = .ok sequences ∧
      Parses [] (List.replicate 20 7) sequences :=
  compressOptimal_describes clevelMax (chainFinder clevelMax (List.replicate 20 7)) (List.replicate 20 7) Ready
    (chainFinder_honest clevelMax (by decide))

end VirtualLan.LZ4
