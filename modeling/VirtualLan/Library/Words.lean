import Mathlib.Data.Nat.Digits.Defs
import VirtualLan.Library.Cells

/-! Machine words: arithmetic in 32 bits, the little-endian words that stand in a list
of bytes, and how far two places of a list agree when they are compared by words. -/

namespace VirtualLan.Words

universe u

def add32 (first second : Nat) : Nat := (first + second) % 2 ^ 32
def sub32 (first second : Nat) : Nat := (2 ^ 32 + first - second) % 2 ^ 32

theorem add32_small {first second : Nat} (small : first + second < 2 ^ 32) : add32 first second = first + second :=
  Nat.mod_eq_of_lt small

theorem sub32_small {first second : Nat} (fits : second ≤ first) (small : first < 2 ^ 32) :
    sub32 first second = first - second := by
  rw [sub32, Nat.add_sub_assoc fits, Nat.add_mod_left]
  exact Nat.mod_eq_of_lt (by omega)

theorem eq_of_xor_eq_zero {first second : Nat} (zero : first ^^^ second = 0) : first = second := by
  have cancelled : first ^^^ (first ^^^ second) = second := by
    rw [← Nat.xor_assoc, Nat.xor_self, Nat.zero_xor]
  rwa [zero, Nat.xor_zero] at cancelled

section Agreement
variable {α : Type u} {items : List α} {first second len more limit : Nat}

def Same (items : List α) (first second len : Nat) : Prop :=
  ∀ index < len, items[first + index]? = items[second + index]?

theorem Same.append (same : Same items first second len) (later : Same items (first + len) (second + len) more) :
    Same items first second (len + more) := by
  intro index inside
  by_cases early : index < len
  · exact same index early
  · have behind := later (index - len) (by omega)
    have place : first + len + (index - len) = first + index := by omega
    have place' : second + len + (index - len) = second + index := by omega
    rwa [place, place'] at behind

theorem Same.shorter (same : Same items first second len) (fits : more ≤ len) : Same items first second more :=
  fun index inside => same index (Nat.lt_of_lt_of_le inside fits)

theorem Same.tail (same : Same items first second (len + 1)) : Same items (first + 1) (second + 1) len := by
  intro index inside
  rw [Nat.add_assoc, Nat.add_assoc, Nat.add_comm 1]
  exact same (index + 1) (Nat.succ_lt_succ inside)

/-- One item, so many times. -/
def Run (items : List α) (item : α) (place len : Nat) : Prop := ∀ index < len, items[place + index]? = some item

variable {item : α} {place : Nat}

theorem Run.zero (items : List α) (item : α) (place : Nat) : Run items item place 0 :=
  fun index inside => absurd inside (Nat.not_lt_zero index)

theorem Run.append (run : Run items item place len) (later : Run items item (place + len) more) :
    Run items item place (len + more) := by
  intro index inside
  by_cases early : index < len
  · exact run index early
  · have behind := later (index - len) (by omega)
    have same : place + len + (index - len) = place + index := by omega
    rwa [same] at behind

theorem Run.shorter (run : Run items item place len) (fits : more ≤ len) : Run items item place more :=
  fun index inside => run index (Nat.lt_of_lt_of_le inside fits)

theorem Run.drop (run : Run items item place (more + len)) : Run items item (place + more) len := by
  intro index inside
  rw [Nat.add_assoc]
  exact run (more + index) (Nat.add_lt_add_left inside more)

/-- A run, and a part of one that ends where it starts. -/
theorem Run.extend {back less : Nat} (behind : Run items item (place - back) back) (inside : back ≤ place)
    (fewer : less ≤ back) (forward : Run items item place len) : Run items item (place - less) (less + len) := by
  have whole : back = back - less + less := (Nat.sub_add_cancel fewer).symm
  rw [whole] at behind
  have part := behind.drop
  have start : place - (back - less + less) + (back - less) = place - less := by omega
  have finish : place - less + less = place := Nat.sub_add_cancel (Nat.le_trans fewer inside)
  rw [start] at part
  apply part.append
  rwa [finish]

theorem Run.same (run : Run items item first len) (other : Run items item second len) : Same items first second len :=
  fun index inside => (run index inside).trans (other index inside).symm

variable [DecidableEq α]

/-- How far two places agree, up to a limit for the first. -/
def common (items : List α) (limit first second : Nat) : Nat :=
  if first < limit ∧ items[first]? = items[second]? then 1 + common items limit (first + 1) (second + 1) else 0
termination_by limit - first

theorem common_le (items : List α) (limit first second : Nat) : common items limit first second ≤ limit - first := by
  fun_induction common with
  | case1 first second agrees ih => omega
  | case2 => exact Nat.zero_le _

theorem common_same (items : List α) (limit first second : Nat) :
    Same items first second (common items limit first second) := by
  fun_induction common with
  | case1 first second agrees ih =>
    apply Same.append _ ih
    intro index inside
    obtain rfl : index = 0 := Nat.lt_one_iff.mp inside
    exact agrees.2
  | case2 first second =>
    intro index inside
    exact absurd inside (Nat.not_lt_zero index)

theorem Same.common_add (same : Same items first second len) (inside : first + len ≤ limit) :
    common items limit first second = len + common items limit (first + len) (second + len) := by
  induction len generalizing first second with
  | zero => rw [Nat.zero_add, Nat.add_zero, Nat.add_zero]
  | succ len ih =>
    have agrees : first < limit ∧ items[first]? = items[second]? := ⟨by omega, same 0 (Nat.succ_pos len)⟩
    have later := ih same.tail (by omega)
    rw [common, if_pos agrees, later, Nat.add_assoc first, Nat.add_assoc second, Nat.add_comm 1 len]
    omega

theorem common_of_apart (same : Same items first second len) (inside : first + len ≤ limit)
    (apart : items[first + len]? ≠ items[second + len]?) : common items limit first second = len := by
  rw [same.common_add inside, common, if_neg (fun agrees => apart agrees.2), Nat.add_zero]

theorem common_apart (inside : first + common items limit first second < limit) :
    items[first + common items limit first second]? ≠ items[second + common items limit first second]? := by
  have whole := (common_same items limit first second).common_add (Nat.le_of_lt inside)
  generalize common items limit first second = len at inside whole ⊢
  intro agrees
  rw [common, if_pos ⟨inside, agrees⟩] at whole
  omega

/-- Where the next few items do not all agree, or do not all lie before the limit. -/
theorem common_lt (positive : 0 < len) (apart : ¬(first + len ≤ limit ∧ Same items first second len)) :
    common items limit first second < len := by
  apply Nat.lt_of_not_le
  intro enough
  have bounded := common_le items limit first second
  exact apart ⟨by omega, (common_same items limit first second).shorter enough⟩

end Agreement

variable {bytes : List UInt8} {first second width : Nat}

def word (bytes : List UInt8) : Nat := Nat.ofDigits 256 (bytes.map UInt8.toNat)

def slice (bytes : List UInt8) (place width : Nat) : List UInt8 := (bytes.drop place).take width

def read (bytes : List UInt8) (width place : Nat) : Except Fault Nat :=
  if place + width ≤ bytes.length then .ok (word (slice bytes place width)) else .error .outOfBounds

theorem read_inside {place : Nat} (inside : place + width ≤ bytes.length) :
    read bytes width place = .ok (word (slice bytes place width)) :=
  if_pos inside

theorem length_slice {place : Nat} (inside : place + width ≤ bytes.length) :
    (slice bytes place width).length = width := by
  rw [slice, List.length_take, List.length_drop]
  omega

theorem getElem?_slice {place index : Nat} (inside : index < width) :
    (slice bytes place width)[index]? = bytes[place + index]? := by
  rw [slice, List.getElem?_take_of_lt inside, List.getElem?_drop]

theorem slice_eq_iff : slice bytes first width = slice bytes second width ↔ Same bytes first second width := by
  constructor
  · intro same index inside
    rw [← getElem?_slice inside, ← getElem?_slice inside, same]
  · intro same
    apply List.ext_getElem?
    intro index
    by_cases inside : index < width
    · rw [getElem?_slice inside, getElem?_slice inside]
      exact same index inside
    · have short (place : Nat) : (slice bytes place width).length ≤ index :=
        Nat.le_trans (List.length_take_le _ _) (Nat.le_of_not_lt inside)
      rw [List.getElem?_eq_none (short first), List.getElem?_eq_none (short second)]

theorem word_cons (byte : UInt8) (bytes : List UInt8) : word (byte :: bytes) = 2 ^ 8 * word bytes + byte.toNat := by
  rw [word, List.map_cons, Nat.ofDigits_cons]
  exact Nat.add_comm _ _

theorem word_cons_mod (byte : UInt8) (bytes : List UInt8) : word (byte :: bytes) % 2 ^ 8 = byte.toNat := by
  rw [word_cons, Nat.mul_add_mod, Nat.mod_eq_of_lt byte.toNat_lt]

theorem word_cons_shiftRight (byte : UInt8) (bytes : List UInt8) : word (byte :: bytes) >>> 8 = word bytes := by
  rw [word_cons, Nat.shiftRight_eq_div_pow, Nat.mul_add_div (by decide), Nat.div_eq_of_lt byte.toNat_lt, Nat.add_zero]

theorem word_shiftRight (bytes : List UInt8) (count : Nat) : word bytes >>> (8 * count) = word (bytes.drop count) := by
  induction count generalizing bytes with
  | zero => rfl
  | succ count ih =>
    cases bytes with
    | nil => exact Nat.zero_shiftRight _
    | cons byte bytes =>
      rw [Nat.mul_succ, Nat.add_comm, Nat.shiftRight_add, word_cons_shiftRight, ih, List.drop_succ_cons]

theorem word_append (bytes other : List UInt8) :
    word (bytes ++ other) = word bytes + 2 ^ (8 * bytes.length) * word other := by
  rw [word, List.map_append, Nat.ofDigits_append, List.length_map, Nat.pow_mul]
  rfl

theorem digit_small {digit : Nat} (member : digit ∈ bytes.map UInt8.toNat) : digit < 256 := by
  obtain ⟨byte, _, rfl⟩ := List.mem_map.mp member
  exact byte.toNat_lt

theorem word_small (bytes : List UInt8) : word bytes < 2 ^ (8 * bytes.length) := by
  have bound := Nat.ofDigits_lt_base_pow_length (by decide : 1 < 256) (fun _ => @digit_small bytes _)
  rw [List.length_map] at bound
  rwa [Nat.pow_mul]

theorem word_mod (bytes : List UInt8) {count : Nat} (fits : count ≤ bytes.length) :
    word bytes % 2 ^ (8 * count) = word (bytes.take count) := by
  have size : (bytes.take count).length = count := by rw [List.length_take, Nat.min_eq_left fits]
  have small := word_small (bytes.take count)
  rw [size] at small
  conv_lhs => rw [← List.take_append_drop count bytes]
  rw [word_append, size, Nat.add_mul_mod_self_left, Nat.mod_eq_of_lt small]

theorem word_injective {bytes other : List UInt8} (size : bytes.length = other.length)
    (same : word bytes = word other) : bytes = other := by
  have digits : bytes.map UInt8.toNat = other.map UInt8.toNat := by
    apply Nat.ofDigits_inj_of_len_eq (by decide) _ (fun _ => digit_small) (fun _ => digit_small) same
    rw [List.length_map, List.length_map, size]
  exact List.map_injective_iff.mpr (fun _ _ => UInt8.toNat_inj.mp) digits

theorem word_slice_eq_iff (inside : first + width ≤ bytes.length) (inside' : second + width ≤ bytes.length) :
    word (slice bytes first width) = word (slice bytes second width) ↔ Same bytes first second width := by
  rw [← slice_eq_iff]
  constructor
  · apply word_injective
    rw [length_slice inside, length_slice inside']
  · intro same
    rw [same]

theorem word_slice_eq_replicate_iff {place : Nat} {byte : UInt8} (inside : place + width ≤ bytes.length) :
    word (slice bytes place width) = word (List.replicate width byte) ↔ Run bytes byte place width := by
  constructor
  · intro same index small
    have whole := word_injective (by rw [length_slice inside, List.length_replicate]) same
    rw [← getElem?_slice small, whole, List.getElem?_replicate_of_lt small]
  · intro run
    congr 1
    apply List.ext_getElem?
    intro index
    by_cases small : index < width
    · rw [getElem?_slice small, List.getElem?_replicate_of_lt small]
      exact run index small
    · rw [List.getElem?_eq_none (by rw [length_slice inside]; omega),
        List.getElem?_eq_none (by rw [List.length_replicate]; omega)]

theorem word_slice_eq_byte_iff {place : Nat} {byte : UInt8} (inside : place + 1 ≤ bytes.length) :
    word (slice bytes place 1) = byte.toNat ↔ Run bytes byte place 1 := by
  have single : word (List.replicate 1 byte) = byte.toNat := by
    change word [byte] = byte.toNat
    rw [word_cons]
    exact Nat.zero_add _
  rw [← single]
  exact word_slice_eq_replicate_iff inside

theorem testBit_word {bytes : List UInt8} {index bit : Nat} (small : bit < 8) :
    (word bytes).testBit (8 * index + bit) = ((bytes[index]?).any fun byte => byte.toNat.testBit bit) := by
  induction bytes generalizing index with
  | nil => exact Nat.zero_testBit _
  | cons byte bytes ih =>
    have bound : byte.toNat < 2 ^ 8 := byte.toNat_lt
    rw [word_cons, Nat.testBit_two_pow_mul_add _ bound]
    cases index with
    | zero =>
      rw [if_pos (by omega), Nat.mul_zero, Nat.zero_add]
      rfl
    | succ index =>
      have later : 8 * (index + 1) + bit - 8 = 8 * index + bit := by omega
      rw [if_neg (by omega), later, ih, List.getElem?_cons_succ]

theorem byte_ext {byte other : UInt8} (same : ∀ bit < 8, byte.toNat.testBit bit = other.toNat.testBit bit) :
    byte = other := by
  apply UInt8.toNat_inj.mp
  apply Nat.eq_of_testBit_eq
  intro bit
  by_cases small : bit < 8
  · exact same bit small
  · have reaches : 2 ^ 8 ≤ 2 ^ bit := Nat.pow_le_pow_right (by decide) (Nat.le_of_not_lt small)
    have high (byte : UInt8) : byte.toNat.testBit bit = false :=
      Nat.testBit_lt_two_pow (Nat.lt_of_lt_of_le byte.toNat_lt reaches)
    rw [high, high]

/-- The bits in which two words differ. -/
def diff (width : Nat) (first second : List UInt8) : BitVec (8 * width) :=
  BitVec.ofNat (8 * width) (word first ^^^ word second)

theorem getLsbD_diff {first second : List UInt8} {index bit : Nat} (inside : index < width) (small : bit < 8) :
    (diff width first second).getLsbD (8 * index + bit) =
      (((first[index]?).any fun byte => byte.toNat.testBit bit) ^^
        ((second[index]?).any fun byte => byte.toNat.testBit bit)) := by
  have bounded : 8 * index + bit < 8 * width := by omega
  rw [diff, BitVec.getLsbD_ofNat, Nat.testBit_xor, testBit_word small, testBit_word small]
  simp only [bounded, decide_true, Bool.true_and]

/-- Bytes of two words in which no bit differs. -/
theorem bytes_agree {first second : List UInt8} {index : Nat} (size : first.length = width) (size' : second.length = width)
    (inside : index < width) (bits : ∀ bit < 8, (diff width first second).getLsbD (8 * index + bit) = false) :
    first[index]? = second[index]? := by
  have present : index < first.length := by omega
  have present' : index < second.length := by omega
  rw [List.getElem?_eq_getElem present, List.getElem?_eq_getElem present']
  congr 1
  apply byte_ext
  intro bit small
  have same := bits bit small
  rw [getLsbD_diff inside small, List.getElem?_eq_getElem present, List.getElem?_eq_getElem present'] at same
  exact bne_eq_false_iff_eq.mp same

theorem diff_ne_zero {first second : List UInt8} (size : first.length = width) (size' : second.length = width)
    (apart : first ≠ second) : diff width first second ≠ 0#(8 * width) := by
  intro zero
  apply apart
  apply List.ext_getElem?
  intro index
  by_cases inside : index < width
  · apply bytes_agree size size' inside
    intro bit _
    rw [zero, BitVec.getLsbD_zero]
  · rw [List.getElem?_eq_none (by omega), List.getElem?_eq_none (by omega)]

/-- The bytes of two words agree up to the lowest bit that differs, and not beyond. -/
theorem ctz_diff {first second : List UInt8} (size : first.length = width) (size' : second.length = width)
    (apart : first ≠ second) : ∃ index, (diff width first second).ctz.toNat / 8 = index ∧ index < width ∧
      (∀ earlier < index, first[earlier]? = second[earlier]?) ∧ first[index]? ≠ second[index]? := by
  have top := BitVec.getLsbD_true_ctz_of_ne_zero (diff_ne_zero size size' apart)
  have low (position : Nat) (below : position < (diff width first second).ctz.toNat) :=
    @BitVec.getLsbD_false_of_lt_ctz (8 * width) position (diff width first second) below
  generalize (diff width first second).ctz.toNat = position at top low
  have bounded : position < 8 * width := BitVec.lt_of_getLsbD top
  refine ⟨position / 8, rfl, by omega, ?_, ?_⟩
  · intro earlier below
    exact bytes_agree size size' (by omega) (fun bit small => low (8 * earlier + bit) (by omega))
  · intro same
    have whole : 8 * (position / 8) + position % 8 = position := Nat.div_add_mod position 8
    rw [← whole, getLsbD_diff (by omega) (Nat.mod_lt _ (by decide)), same, Bool.xor_self] at top
    cases top

/-- Two places of a list whose words differ. -/
theorem ctz_slices (inside : first + width ≤ bytes.length) (inside' : second + width ≤ bytes.length)
    (apart : ¬Same bytes first second width) {limit : Nat} (fits : first + width ≤ limit) :
    (diff width (slice bytes second width) (slice bytes first width)).ctz.toNat / 8 = common bytes limit first second := by
  have differ : slice bytes second width ≠ slice bytes first width := fun same => apart (slice_eq_iff.mp same.symm)
  obtain ⟨index, counted, below, agree, differs⟩ := ctz_diff (length_slice inside') (length_slice inside) differ
  rw [getElem?_slice below, getElem?_slice below] at differs
  rw [counted]
  symm
  apply common_of_apart _ (by omega) differs.symm
  intro earlier before
  have same := agree earlier before
  rw [getElem?_slice (by omega), getElem?_slice (by omega)] at same
  exact same.symm

end VirtualLan.Words
