import VirtualLan.Relay

/-! The relay's address test and the addresses it reads out of packets. The
dotted text of four bytes passes the test exactly when the first byte is 100. -/

namespace VirtualLan.Relay

theorem isValidIpv4_parts {ip : Str} (valid : isValidIpv4 ip = .ok true) :
    ∃ second third fourth, ip.splitOn '.' = ["100".toList, second, third, fourth] := by
  simp only [isValidIpv4] at valid
  split at valid
  next => cases valid
  next shape =>
    simp only [bne_iff_ne, Bool.or_eq_true, not_or, not_not, ne_eq] at shape
    obtain ⟨first, second, third, fourth, same⟩ := List.length_eq_four.mp shape.1
    rw [same] at shape ⊢
    obtain rfl : first = "100".toList := by simpa using shape.2
    exact ⟨second, third, fourth, rfl⟩

/-- Every address that the server accepts lies in its own block. -/
theorem isValidIpv4_prefix {ip : Str} (valid : isValidIpv4 ip = .ok true) : "100.".toList <+: ip := by
  obtain ⟨second, third, fourth, same⟩ := isValidIpv4_parts valid
  have joined : ['.'].intercalate (ip.splitOn '.') = ip := List.intercalate_splitOn '.'
  rw [same] at joined
  exact ⟨_, joined⟩

/-- Every part of an accepted address was tested. -/
theorem isValidParts_tested {parts : List Str} (valid : isValidParts parts = .ok true) :
    ∀ part ∈ parts, part.all isDigitChar = true ∧ part.length ≤ 3 := by
  induction parts with
  | nil => simp
  | cons part parts ih =>
    unfold isValidParts at valid
    split at valid
    next => cases valid
    next shape =>
      obtain ⟨num, _, rest⟩ := Program.ok_of_bind valid
      split at rest
      next => cases rest
      next =>
        simp only [Bool.or_eq_true, Bool.not_eq_true', not_or, Bool.not_eq_false, isDigit, Bool.and_eq_true,
          decide_eq_true_eq] at shape
        intro other member
        rcases List.mem_cons.mp member with rfl | later
        · exact ⟨shape.1.2, shape.2⟩
        · exact ih rest other later

/-- An accepted address is four tested parts with dots between them. -/
theorem isValidIpv4_shape {ip : Str} (valid : isValidIpv4 ip = .ok true) : ∃ first second third fourth,
    ip = ['.'].intercalate [first, second, third, fourth] ∧
      ∀ part ∈ [first, second, third, fourth], part.all isDigitChar = true ∧ part.length ≤ 3 := by
  obtain ⟨second, third, fourth, same⟩ := isValidIpv4_parts valid
  have joined : ['.'].intercalate (ip.splitOn '.') = ip := List.intercalate_splitOn '.'
  have parts : isValidParts ["100".toList, second, third, fourth] = .ok true := by
    rw [isValidIpv4, same] at valid
    exact valid
  exact ⟨"100".toList, second, third, fourth, by rw [← same, joined], isValidParts_tested parts⟩

theorem isValidIpv4_chars {ip : Str} (valid : isValidIpv4 ip = .ok true) {char : Char} (member : char ∈ ip) :
    char = '.' ∨ isDigitChar char = true := by
  obtain ⟨first, second, third, fourth, rfl, tested⟩ := isValidIpv4_shape valid
  simp only [List.mem_cons, List.not_mem_nil, or_false, List.all_eq_true, forall_eq_or_imp, forall_eq] at tested
  obtain ⟨one, two, three, four⟩ := tested
  simp only [List.intercalate, List.intersperse, List.flatten_cons, List.flatten_nil, List.mem_append, List.mem_cons,
    List.append_nil, List.not_mem_nil, or_false] at member
  rcases member with member | rfl | member | rfl | member | rfl | member
  · exact Or.inr (one.1 char member)
  · exact Or.inl rfl
  · exact Or.inr (two.1 char member)
  · exact Or.inl rfl
  · exact Or.inr (three.1 char member)
  · exact Or.inl rfl
  · exact Or.inr (four.1 char member)

theorem isValidIpv4_length {ip : Str} (valid : isValidIpv4 ip = .ok true) : ip.length ≤ 15 := by
  obtain ⟨first, second, third, fourth, rfl, tested⟩ := isValidIpv4_shape valid
  simp only [List.mem_cons, List.not_mem_nil, or_false, forall_eq_or_imp, forall_eq] at tested
  obtain ⟨⟨_, one⟩, ⟨_, two⟩, ⟨_, three⟩, ⟨_, four⟩⟩ := tested
  simp only [List.intercalate, List.intersperse, List.flatten_cons, List.flatten_nil, List.length_append,
    List.length_cons, List.length_nil]
  omega

/-- `isSpace` on code points. -/
private def isSpaceCode (code : Nat) : Bool :=
  (9 ≤ code && code ≤ 13) || (28 ≤ code && code ≤ 32) || code == 0x85 || code == 0xa0 || code == 0x1680 ||
  (0x2000 ≤ code && code ≤ 0x200a) || code == 0x2028 || code == 0x2029 || code == 0x202f || code == 0x205f ||
  code == 0x3000

/-- No block of digits contains white space. -/
theorem isSpace_of_digit {char : Char} (digit : isDigitChar char = true) : isSpace char = false := by
  have blocks : ∀ start ∈ decimalZeros, ∀ offset ∈ List.range 10, isSpaceCode (start + offset) = false := by decide
  have ranges : ∀ range ∈ otherDigits, ∀ offset ∈ List.range (range.2 - range.1 + 1),
      isSpaceCode (range.1 + offset) = false := by decide
  change isSpaceCode char.toNat = false
  simp only [isDigitChar, Bool.or_eq_true, decimalValue?, Option.isSome_map, List.find?_isSome, List.any_eq_true,
    Bool.and_eq_true, decide_eq_true_eq] at digit
  rcases digit with ⟨start, member, least, most⟩ | ⟨range, member, least, most⟩
  · have inside := blocks start member (char.toNat - start) (List.mem_range.mpr (by omega))
    rwa [Nat.add_sub_cancel' least] at inside
  · have inside := ranges range member (char.toNat - range.1) (List.mem_range.mpr (by omega))
    rwa [Nat.add_sub_cancel' least] at inside

theorem isValidIpv4_token {ip : Str} (valid : isValidIpv4 ip = .ok true) : Token ip := by
  constructor
  · rintro rfl
    have shape := isValidIpv4_prefix valid
    exact absurd shape.length_le (by decide)
  · intro char member
    rcases isValidIpv4_chars valid member with rfl | digit
    · decide
    · exact isSpace_of_digit digit

theorem decimal_parses (byte : UInt8) : isDigit (decimal byte) = true ∧ (decimal byte).length ≤ 3 ∧
    int (decimal byte) = .ok byte.toNat ∧ '.' ∉ decimal byte := by
  have all : ∀ value : Fin 256, isDigit (Nat.toDigits 10 value) = true ∧ (Nat.toDigits 10 value).length ≤ 3 ∧
      int (Nat.toDigits 10 value) = .ok value.val ∧ '.' ∉ Nat.toDigits 10 value := by decide +kernel
  exact all byte.toBitVec.toFin

theorem dotted_splitOn (a b c d : UInt8) :
    (dotted a b c d).splitOn '.' = [decimal a, decimal b, decimal c, decimal d] := by
  refine List.splitOn_intercalate '.' ?_ (List.cons_ne_nil _ _)
  intro part member
  simp only [List.mem_cons, List.not_mem_nil, or_false] at member
  rcases member with rfl | rfl | rfl | rfl <;> exact (decimal_parses _).2.2.2

theorem isValidParts_decimal (parts : List UInt8) : isValidParts (parts.map decimal) = .ok true := by
  induction parts with
  | nil => rfl
  | cons byte parts ih =>
    obtain ⟨digits, short, value, _⟩ := decimal_parses byte
    have small : byte.toNat ≤ 255 := Nat.le_of_lt_succ byte.toNat_lt
    simp [isValidParts, digits, short, value, small, ih, bind, Except.bind]

private theorem decimal_eq_hundred (byte : UInt8) : decimal byte = "100".toList ↔ byte = 100 := by
  constructor
  · intro same
    have value := (decimal_parses byte).2.2.1
    have hundred : int "100".toList = .ok 100 := by decide
    rw [same, hundred, Except.ok.injEq] at value
    exact UInt8.toNat_inj.mp value.symm
  · rintro rfl
    decide

/-- The dotted text of four bytes is accepted by its first byte alone. -/
theorem isValidIpv4_dotted (a b c d : UInt8) : isValidIpv4 (dotted a b c d) = .ok (a == 100) := by
  have parts : isValidParts [decimal a, decimal b, decimal c, decimal d] = .ok true :=
    isValidParts_decimal [a, b, c, d]
  simp only [isValidIpv4, dotted_splitOn, parts]
  by_cases hundred : a = 100
  · subst hundred
    rfl
  · have other : decimal a ≠ "100".toList := fun same => hundred ((decimal_eq_hundred a).mp same)
    have differs : (a == 100) = false := by simpa using hundred
    rw [differs]
    exact if_pos (by simpa using other)

theorem inetNtoa_ok {packed : Bytes} {ip : Str} (read : inetNtoa packed = .ok ip) :
    ∃ a b c d, packed = [a, b, c, d] ∧ ip = dotted a b c d := by
  unfold inetNtoa at read
  split at read
  next a b c d =>
    cases read
    exact ⟨a, b, c, d, rfl, rfl⟩
  next => cases read

theorem length_of_four {packet : Bytes} {a b c d : UInt8} (four : (packet.drop 16).take 4 = [a, b, c, d]) :
    20 ≤ packet.length := by
  have size := congrArg List.length four
  simp only [List.length_take, List.length_drop, List.length_cons, List.length_nil] at size
  omega

/-- Bytes 16 to 19 decide the destination, and a packet without them has none. -/
theorem getDestinationIp_cases (packet : Bytes) :
    (∃ a b c d, (packet.drop 16).take 4 = [a, b, c, d] ∧
      getDestinationIp packet = .ok (if a = 100 then some (dotted 100 b c d) else none)) ∨
    (packet.length < 20 ∧ ∃ exn, getDestinationIp packet = .error exn) := by
  by_cases long : 20 ≤ packet.length
  · left
    obtain ⟨a, b, c, d, four⟩ := List.length_eq_four.mp
      (show ((packet.drop 16).take 4).length = 4 by rw [List.length_take, List.length_drop]; omega)
    have nonempty : packet.isEmpty = false := by
      cases packet with
      | nil => simp at long
      | cons _ _ => rfl
    refine ⟨a, b, c, d, four, ?_⟩
    simp only [getDestinationIp, nonempty, four, inetNtoa, isValidIpv4_dotted, bind, Except.bind, Bool.false_eq_true,
      if_false, beq_iff_eq]
    split
    next hundred => rw [hundred]
    next => rfl
  · right
    refine ⟨Nat.lt_of_not_le long, ?_⟩
    unfold getDestinationIp
    split
    · exact ⟨_, rfl⟩
    · cases read : inetNtoa ((packet.drop 16).take 4) with
      | error exn => exact ⟨exn, rfl⟩
      | ok ip =>
        obtain ⟨a, b, c, d, four, _⟩ := inetNtoa_ok read
        exact absurd (length_of_four four) long

theorem getDestinationIp_some_iff {packet : Bytes} {ip : Str} : getDestinationIp packet = .ok (some ip) ↔
    ∃ b c d, (packet.drop 16).take 4 = [100, b, c, d] ∧ ip = dotted 100 b c d := by
  rcases getDestinationIp_cases packet with ⟨a, b, c, d, four, read⟩ | ⟨short, exn, raised⟩
  · rw [read, four]
    by_cases hundred : a = 100
    · subst hundred
      simp [eq_comm]
    · simp [hundred]
  · rw [raised]
    refine iff_of_false (by simp) ?_
    rintro ⟨b, c, d, four, _⟩
    exact absurd (length_of_four four) (Nat.not_le_of_lt short)

theorem getDestinationIp_error_iff {packet : Bytes} :
    (∃ exn, getDestinationIp packet = .error exn) ↔ packet.length < 20 := by
  rcases getDestinationIp_cases packet with ⟨a, b, c, d, four, read⟩ | ⟨short, raised⟩
  · rw [read]
    exact iff_of_false (by simp) (Nat.not_lt_of_le (length_of_four four))
  · exact iff_of_true raised short

/-- A destination is found only in a packet with a whole IPv4 header. -/
theorem getDestinationIp_some {packet : Bytes} {ip : Str} (found : getDestinationIp packet = .ok (some ip)) :
    20 ≤ packet.length ∧ inetNtoa ((packet.drop 16).take 4) = .ok ip ∧ isValidIpv4 ip = .ok true := by
  obtain ⟨b, c, d, four, rfl⟩ := getDestinationIp_some_iff.mp found
  exact ⟨length_of_four four, by rw [four]; rfl, isValidIpv4_dotted 100 b c d⟩

theorem getDestinationIp_dotted {packet : Bytes} {b c d : UInt8}
    (destination : (packet.drop 16).take 4 = [100, b, c, d]) :
    getDestinationIp packet = .ok (some (dotted 100 b c d)) :=
  getDestinationIp_some_iff.mpr ⟨b, c, d, destination, rfl⟩

end VirtualLan.Relay
