import Mathlib.Data.Fintype.Card
import VirtualLan.Identity
import VirtualLan.Proofs.AddressTest

/-! Which machines give themselves the same address. A part of the address is the
sum of two characters, so it forgets their order and more, and the last two digits
of the serial number are not used at all. -/

namespace VirtualLan.Peer
open Relay

/-- One of the eight hexadecimal digits, from the highest on. -/
def digit (serial : UInt32) (index : Nat) : Nat := serial.toNat >>> (4 * (7 - index)) % 16

/-- A digit's share of a sum: between `9` and `A` seven characters are left out. -/
def weight (digit : Nat) : Nat := if digit < 10 then digit else digit + 7

def pairSum (serial : UInt32) (i : Nat) : Nat := weight (digit serial (i * 2)) + weight (digit serial (i * 2 + 1))

/-- One of the three parts of the address behind `100`. -/
def part (serial : UInt32) (i : Nat) : UInt8 := UInt8.ofNat (96 + pairSum serial i)

variable {serial first second : UInt32} {i : Nat}

theorem weight_small {digit : Nat} (small : digit < 16) : weight digit ≤ 22 := by
  unfold weight
  split <;> omega

theorem pairSum_small : pairSum serial i ≤ 44 := by
  have left := weight_small (Nat.mod_lt (serial.toNat >>> (4 * (7 - i * 2))) (by decide : 0 < 16))
  have right := weight_small (Nat.mod_lt (serial.toNat >>> (4 * (7 - (i * 2 + 1)))) (by decide : 0 < 16))
  exact Nat.add_le_add left right

theorem toNat_part : (part serial i).toNat = 96 + pairSum serial i := by
  have small := @pairSum_small serial i
  exact UInt8.toNat_ofNat_of_lt (by rw [UInt8.size]; omega)

theorem toNat_hexDigit {value : Nat} (small : value < 16) : (hexDigit value).toNat = 48 + weight value := by
  unfold hexDigit weight
  split
  · rw [UInt8.toNat_ofNat']
    omega
  · rw [UInt8.toNat_ofNat']
    omega

theorem length_hexText (width value : Nat) : (hexText width value).length = width := by
  induction width generalizing value with
  | zero => rfl
  | succ width ih => rw [hexText, List.length_append, ih, List.length_singleton]

theorem hexText_getElem? {width index : Nat} (value : Nat) (inside : index < width) :
    (hexText width value)[index]? = some (hexDigit (value >>> (4 * (width - 1 - index)) % 16)) := by
  induction width generalizing value with
  | zero => omega
  | succ width ih =>
    rw [hexText]
    by_cases last : index = width
    · subst last
      rw [List.getElem?_append_right (Nat.le_of_eq (length_hexText index _)), length_hexText]
      simp
    · have before : index < width := by omega
      have four : value / 16 = value >>> 4 := by rw [Nat.shiftRight_eq_div_pow]
      have shift : 4 + 4 * (width - 1 - index) = 4 * (width + 1 - 1 - index) := by omega
      rw [List.getElem?_append_left (by rw [length_hexText]; exact before), ih _ before, four,
        ← Nat.shiftRight_add, shift]

theorem charAt_digit {index : Nat} (inside : index < 8) :
    charAt (getVolumeSerialNumber (some serial)) index = .ok (48 + weight (digit serial index)) := by
  have size : (getVolumeSerialNumber (some serial)).length = 8 := length_hexText 8 _
  have found : (getVolumeSerialNumber (some serial))[index]? = _ := hexText_getElem? serial.toNat inside
  rw [charAt, if_neg (by omega), readByte, found]
  exact congrArg Except.ok (toNat_hexDigit (Nat.mod_lt _ (by decide)))

/-- The sums are too small for the reduction that the loop provides for. -/
theorem appendParts_round {rounds : Nat} (inside : i < 4) (ip : Bytes) :
    appendParts (getVolumeSerialNumber (some serial)) (rounds + 1) i ip =
      appendParts (getVolumeSerialNumber (some serial)) rounds (i + 1)
        (ip ++ bytes "." ++ encode (decimal (part serial i))) := by
  have left := @charAt_digit serial (i * 2) (by omega)
  have right := @charAt_digit serial (i * 2 + 1) (by omega)
  have small := @pairSum_small serial i
  have total : 48 + weight (digit serial (i * 2)) + (48 + weight (digit serial (i * 2 + 1))) =
      96 + pairSum serial i := by
    rw [pairSum]
    omega
  have whole : ¬ 96 + pairSum serial i > 250 := by omega
  simp only [appendParts, left, right, bind, Except.bind, total, if_neg whole, decimal, toNat_part]

/-- What `getIP` gives to the machine with this serial number. -/
def machineAddress (serial : UInt32) : Str := dotted 100 (part serial 0) (part serial 1) (part serial 2)

theorem getIP_eq (serial : UInt32) : getIP (some serial) = .ok (encode (machineAddress serial)) := by
  rw [getIP, appendParts_round (by decide), appendParts_round (by decide), appendParts_round (by decide), appendParts]
  have hundred : bytes "100" = encode (decimal 100) := by decide
  have dot : bytes "." = encode ['.'] := by decide
  simp only [machineAddress, dotted, List.intercalate, List.intersperse, List.flatten_cons, List.flatten_nil,
    List.append_nil, encode_append, hundred, dot, List.append_assoc]

example : getIP (some 0x1A2B3C4D) = .ok (bytes "100.114.116.118") := by decide

theorem machineAddress_carried (serial : UInt32) : Carried (machineAddress serial) := ⟨_, _, _, rfl⟩

theorem machineAddress_eq_iff :
    machineAddress first = machineAddress second ↔ ∀ i < 3, pairSum first i = pairSum second i := by
  constructor
  · intro same
    have numbers := congrArg network same
    simp only [machineAddress, network_dotted, Except.ok.injEq, List.cons.injEq, toNat_part, Nat.add_left_cancel_iff,
      true_and, and_true] at numbers
    obtain ⟨one, two, three⟩ := numbers
    intro i inside
    obtain rfl | rfl | rfl : i = 0 ∨ i = 1 ∨ i = 2 := by omega
    · exact one
    · exact two
    · exact three
  · intro same
    simp only [machineAddress, part, same 0 (by decide), same 1 (by decide), same 2 (by decide)]

/-- The block of the server is too small for an address of its own for each serial
number, however the addresses are chosen. -/
theorem addresses_shared (assign : UInt32 → Str) (carried : ∀ serial, Carried (assign serial)) :
    ¬ Function.Injective assign := by
  intro injective
  choose b c d text using carried
  let code : Fin (2 ^ 32) → Fin (2 ^ 24) := fun index =>
    ⟨(b (UInt32.ofFin index)).toNat * 65536 + (c (UInt32.ofFin index)).toNat * 256 + (d (UInt32.ofFin index)).toNat, by
      have first := (b (UInt32.ofFin index)).toNat_lt
      have second := (c (UInt32.ofFin index)).toNat_lt
      have third := (d (UInt32.ofFin index)).toNat_lt
      omega⟩
  have distinct : Function.Injective code := by
    intro one other same
    have number := Fin.val_eq_of_eq same
    have low := (d (UInt32.ofFin one)).toNat_lt
    have low' := (d (UInt32.ofFin other)).toNat_lt
    have middle := (c (UInt32.ofFin one)).toNat_lt
    have middle' := (c (UInt32.ofFin other)).toNat_lt
    simp only [code] at number
    have first : b (UInt32.ofFin one) = b (UInt32.ofFin other) := UInt8.toNat_inj.mp (by omega)
    have second : c (UInt32.ofFin one) = c (UInt32.ofFin other) := UInt8.toNat_inj.mp (by omega)
    have third : d (UInt32.ofFin one) = d (UInt32.ofFin other) := UInt8.toNat_inj.mp (by omega)
    have named := text (UInt32.ofFin one)
    rw [first, second, third, text (UInt32.ofFin other), Except.ok.injEq] at named
    have serials := injective named
    simpa using (congrArg UInt32.toFin serials).symm
  have most := Fintype.card_le_of_injective code distinct
  rw [Fintype.card_fin, Fintype.card_fin] at most
  omega

/-- Every machine gets an acceptable address in canonical form. Two machines get
different ones exactly when the digits of one of the three pairs add up to
different sums. -/
theorem getIP_distinct_iff :
    (∀ serial : UInt32, ∃ ip, getIP (some serial) = .ok (encode ip) ∧ isValidIpv4 ip = .ok true ∧ Carried ip) ∧
    ∀ first second : UInt32, getIP (some first) ≠ getIP (some second) ↔
      ∃ i < 3, pairSum first i ≠ pairSum second i := by
  constructor
  · intro serial
    exact ⟨_, getIP_eq serial, (machineAddress_carried serial).valid, machineAddress_carried serial⟩
  · intro first second
    rw [getIP_eq, getIP_eq, ne_eq, Except.ok.injEq, encode_injective.eq_iff, machineAddress_eq_iff]
    simp

/-- Two digits in the other order, and two serial numbers that differ at the end. -/
theorem getIP_not_injective : getIP (some 0x1A2B3C4D) = getIP (some 0xA12B3C4D) ∧
    getIP (some 0x1A2B3C4D) = getIP (some 0x1A2B3C4E) ∧
    ¬ ∀ first second : UInt32, first ≠ second → getIP (some first) ≠ getIP (some second) := by
  have swapped : getIP (some 0x1A2B3C4D) = getIP (some 0xA12B3C4D) := by decide
  refine ⟨swapped, by decide, ?_⟩
  intro distinct
  exact distinct _ _ (by decide) swapped

end VirtualLan.Peer
