import VirtualLan.Proofs.ReplyCodec

/-! Which texts the relay's address test takes for addresses. A part is let
through, refused, or taken for digits that `int` cannot read; the canonical texts
of bytes are only some of those that are let through. -/

namespace VirtualLan.Relay

/-- A part that the loop goes on behind. -/
structure Passes (part : Str) : Prop where
  digits : isDigit part = true
  short : part.length ≤ 3
  small : ∃ num, int part = .ok num ∧ num ≤ 255

/-- A part that ends the loop with the answer `False`. -/
def Refused (part : Str) : Prop :=
  isDigit part = false ∨ 3 < part.length ∨ ∃ num, int part = .ok num ∧ 255 < num

/-- A part that `isdigit` accepts and `int` does not. -/
structure Unreadable (part : Str) : Prop where
  digits : isDigit part = true
  short : part.length ≤ 3
  unread : int part = .error .valueError

/-- The decimal text of a byte, without leading zeros. -/
def Canonical (part : Str) : Prop := ∃ byte, part = decimal byte

theorem part_kinds (part : Str) : Passes part ∨ Refused part ∨ Unreadable part := by
  cases digits : isDigit part with
  | false => exact Or.inr (Or.inl (Or.inl digits))
  | true =>
    by_cases short : part.length ≤ 3
    · cases read : int part with
      | error exn =>
        unfold int at read
        split at read <;> cases read
        next missed => exact Or.inr (Or.inr ⟨digits, short, by rw [int, missed]⟩)
      | ok num =>
        by_cases small : num ≤ 255
        · exact Or.inl ⟨digits, short, num, read, small⟩
        · exact Or.inr (Or.inl (Or.inr (Or.inr ⟨num, read, Nat.lt_of_not_le small⟩)))
    · exact Or.inr (Or.inl (Or.inr (Or.inl (Nat.lt_of_not_le short))))

variable {part : Str} {parts : List Str}

theorem isValidParts_passes (passes : Passes part) : isValidParts (part :: parts) = isValidParts parts := by
  obtain ⟨digits, short, num, read, small⟩ := passes
  simp [isValidParts, digits, short, read, small, bind, Except.bind]

theorem isValidParts_refused (refused : Refused part) : isValidParts (part :: parts) = .ok false := by
  rcases refused with letters | long | ⟨num, read, large⟩
  · simp [isValidParts, letters]
  · simp [isValidParts, Nat.not_le_of_lt long]
  · cases shape : !isDigit part || !decide (part.length ≤ 3) with
    | true => rw [isValidParts, if_pos shape]
    | false =>
      rw [isValidParts, if_neg (by rw [shape]; exact Bool.false_ne_true), read]
      simp [bind, Except.bind, Nat.not_le_of_lt large]

theorem isValidParts_unreadable (unreadable : Unreadable part) :
    isValidParts (part :: parts) = .error .valueError := by
  obtain ⟨digits, short, unread⟩ := unreadable
  simp [isValidParts, digits, short, unread, bind, Except.bind]

/-- Behind parts that pass there is one of this kind. -/
def Meets (kind : Str → Prop) : List Str → Prop
  | [] => False
  | part :: parts => kind part ∨ (Passes part ∧ Meets kind parts)

/-- The three ends of the loop. -/
theorem isValidParts_cases (parts : List Str) :
    (isValidParts parts = .ok true ∧ ∀ part ∈ parts, Passes part) ∨
    (isValidParts parts = .ok false ∧ Meets Refused parts) ∨
    (isValidParts parts = .error .valueError ∧ Meets Unreadable parts) := by
  induction parts with
  | nil => exact Or.inl ⟨rfl, List.forall_mem_nil _⟩
  | cons part parts ih =>
    rcases part_kinds part with passes | refused | unreadable
    · rw [isValidParts_passes passes]
      rcases ih with ⟨accepted, all⟩ | ⟨rejected, later⟩ | ⟨raised, later⟩
      · exact Or.inl ⟨accepted, List.forall_mem_cons.mpr ⟨passes, all⟩⟩
      · exact Or.inr (Or.inl ⟨rejected, Or.inr ⟨passes, later⟩⟩)
      · exact Or.inr (Or.inr ⟨raised, Or.inr ⟨passes, later⟩⟩)
    · exact Or.inr (Or.inl ⟨isValidParts_refused refused, Or.inl refused⟩)
    · exact Or.inr (Or.inr ⟨isValidParts_unreadable unreadable, Or.inl unreadable⟩)

theorem Meets.ends {kind : Str → Prop} {outcome : Except Exn Bool} (meets : Meets kind parts)
    (ends : ∀ part parts, kind part → isValidParts (part :: parts) = outcome) : isValidParts parts = outcome := by
  induction parts with
  | nil => exact meets.elim
  | cons part parts ih =>
    rcases meets with here | ⟨passes, later⟩
    · exact ends part parts here
    · rw [isValidParts_passes passes]
      exact ih later

theorem isValidParts_false_iff : isValidParts parts = .ok false ↔ Meets Refused parts := by
  constructor
  · intro rejected
    rcases isValidParts_cases parts with ⟨accepted, _⟩ | ⟨_, meets⟩ | ⟨raised, _⟩
    · cases accepted.symm.trans rejected
    · exact meets
    · cases raised.symm.trans rejected
  · exact fun meets => meets.ends fun _ _ => isValidParts_refused

theorem isValidParts_error_iff : (∃ exn, isValidParts parts = .error exn) ↔ Meets Unreadable parts := by
  constructor
  · rintro ⟨exn, failed⟩
    rcases isValidParts_cases parts with ⟨accepted, _⟩ | ⟨rejected, _⟩ | ⟨_, meets⟩
    · cases accepted.symm.trans failed
    · cases rejected.symm.trans failed
    · exact meets
  · exact fun meets => ⟨_, meets.ends fun _ _ => isValidParts_unreadable⟩

/-- The three parts of a text that begins like an address of the server's block. -/
def Shaped (ip : Str) (parts : List Str) : Prop := ip.splitOn '.' = "100".toList :: parts ∧ parts.length = 3

variable {ip : Str}

private theorem hundred_passes : Passes "100".toList := ⟨by decide, by decide, 100, by rfl, by decide⟩

theorem isValidIpv4_shaped (shaped : Shaped ip parts) : isValidIpv4 ip = isValidParts parts := by
  obtain ⟨split, three⟩ := shaped
  simp only [isValidIpv4, split, isValidParts_passes hundred_passes]
  rw [if_neg]
  simp [three]

theorem isValidIpv4_unshaped (unshaped : ∀ parts, ¬ Shaped ip parts) : isValidIpv4 ip = .ok false := by
  rw [isValidIpv4]
  apply if_pos
  by_contra fits
  simp only [bne_iff_ne, Bool.or_eq_true, not_or, not_not, ne_eq] at fits
  obtain ⟨first, second, third, fourth, same⟩ := List.length_eq_four.mp fits.1
  rw [same] at fits
  obtain rfl : first = "100".toList := by simpa using fits.2
  exact unshaped [second, third, fourth] ⟨same, rfl⟩

/-- The text that `inet_ntoa` makes of four bytes in the server's block. -/
def Carried (ip : Str) : Prop := ∃ b c d, inetNtoa [100, b, c, d] = .ok ip

theorem carried_iff (shaped : Shaped ip parts) : Carried ip ↔ ∀ part ∈ parts, Canonical part := by
  obtain ⟨split, three⟩ := shaped
  obtain ⟨second, third, fourth, rfl⟩ := List.length_eq_three.mp three
  constructor
  · rintro ⟨b, c, d, text⟩
    cases text
    rw [dotted_splitOn] at split
    cases split
    intro part member
    simp only [List.mem_cons, List.not_mem_nil, or_false] at member
    rcases member with rfl | rfl | rfl
    · exact ⟨b, rfl⟩
    · exact ⟨c, rfl⟩
    · exact ⟨d, rfl⟩
  · intro canonical
    obtain ⟨b, rfl⟩ := canonical second (by simp)
    obtain ⟨c, rfl⟩ := canonical third (by simp)
    obtain ⟨d, rfl⟩ := canonical fourth (by simp)
    have joined : ['.'].intercalate (ip.splitOn '.') = ip := List.intercalate_splitOn '.'
    have hundred : decimal 100 = "100".toList := by decide
    rw [split, ← hundred] at joined
    exact ⟨b, c, d, congrArg Except.ok joined⟩

/-- The canonical text of a number is the one that is printed for it. -/
theorem Canonical.text {num : Nat} (canonical : Canonical part) (read : int part = .ok num) :
    part = Nat.toDigits 10 num := by
  obtain ⟨byte, rfl⟩ := canonical
  have value : int (decimal byte) = .ok byte.toNat := (decimal_parses byte).2.2.1
  obtain rfl : byte.toNat = num := Except.ok.inj (value.symm.trans read)
  rfl

theorem Carried.shaped (carried : Carried ip) : ∃ parts, Shaped ip parts := by
  obtain ⟨b, c, d, text⟩ := carried
  cases text
  have hundred : decimal 100 = "100".toList := by decide
  exact ⟨[decimal b, decimal c, decimal d], by rw [dotted_splitOn, hundred], rfl⟩

theorem Carried.valid (carried : Carried ip) : isValidIpv4 ip = .ok true := by
  obtain ⟨b, c, d, text⟩ := carried
  cases text
  exact isValidIpv4_dotted 100 b c d

/-- The test answers, and it accepts the addresses that packets can carry. -/
def Faithful (ip : Str) : Prop := ∃ accepted, isValidIpv4 ip = .ok accepted ∧ (accepted = true ↔ Carried ip)

/-- Each part behind `100` is canonical, or the first one that does not pass is
refused. -/
def Plain (ip : Str) : Prop :=
  ∀ parts, Shaped ip parts → (∀ part ∈ parts, Canonical part) ∨ Meets Refused parts

theorem faithful_iff (ip : Str) : Faithful ip ↔ Plain ip := by
  constructor
  · rintro ⟨accepted, tested, exact⟩ parts shaped
    rw [isValidIpv4_shaped shaped] at tested
    cases accepted with
    | false => exact Or.inr (isValidParts_false_iff.mp tested)
    | true => exact Or.inl ((carried_iff shaped).mp (exact.mp rfl))
  · intro plain
    by_cases known : ∃ parts, Shaped ip parts
    · obtain ⟨parts, shaped⟩ := known
      rcases plain parts shaped with canonical | refused
      · have carried := (carried_iff shaped).mpr canonical
        exact ⟨true, carried.valid, fun _ => carried, fun _ => rfl⟩
      · have rejected : isValidIpv4 ip = .ok false :=
          (isValidIpv4_shaped shaped).trans (isValidParts_false_iff.mpr refused)
        have foreign : ¬ Carried ip := by
          intro carried
          cases rejected.symm.trans carried.valid
        exact ⟨false, rejected, iff_of_false Bool.false_ne_true foreign⟩
    · have unshaped : ∀ parts, ¬ Shaped ip parts := fun parts shaped => known ⟨parts, shaped⟩
      have foreign : ¬ Carried ip := fun carried => known carried.shaped
      exact ⟨false, isValidIpv4_unshaped unshaped, iff_of_false Bool.false_ne_true foreign⟩

theorem Carried.plain (carried : Carried ip) : Plain ip :=
  (faithful_iff ip).mp ⟨true, carried.valid, iff_of_true rfl carried⟩

theorem Carried.found (carried : Carried ip) : ∃ packet, getDestinationIp packet = .ok (some ip) := by
  obtain ⟨b, c, d, text⟩ := carried
  cases text
  exact ⟨List.replicate 16 0 ++ [100, b, c, d], getDestinationIp_dotted rfl⟩

/-- A packet names an address by its bytes, so it names the carried ones only. -/
theorem carried_of_found {packet : Bytes} (found : getDestinationIp packet = .ok (some ip)) : Carried ip := by
  obtain ⟨b, c, d, _, rfl⟩ := getDestinationIp_some_iff.mp found
  exact ⟨b, c, d, rfl⟩

theorem found_iff_plain (valid : isValidIpv4 ip = .ok true) :
    (∃ packet, getDestinationIp packet = .ok (some ip)) ↔ Plain ip := by
  rw [← faithful_iff]
  constructor
  · rintro ⟨packet, found⟩
    exact ⟨true, valid, iff_of_true rfl (carried_of_found found)⟩
  · rintro ⟨accepted, tested, exact⟩
    obtain rfl : accepted = true := Except.ok.inj (tested.symm.trans valid)
    exact (exact.mp rfl).found

/-- The numbers of an address, which are what a network address is. -/
def network (ip : Str) : Except Exn (List Nat) := (ip.splitOn '.').mapM int

theorem network_dotted (a b c d : UInt8) : network (dotted a b c d) = .ok [a.toNat, b.toNat, c.toNat, d.toNat] := by
  have read : ∀ byte, int (decimal byte) = .ok byte.toNat := fun byte => (decimal_parses byte).2.2.1
  simp [network, dotted_splitOn, read, bind, Except.bind, pure, Except.pure]

theorem network_injective {first second : Str} (carried : Carried first) (carried' : Carried second)
    (same : network first = network second) : first = second := by
  obtain ⟨b, c, d, text⟩ := carried
  obtain ⟨b', c', d', text'⟩ := carried'
  cases text
  cases text'
  simp only [network_dotted, Except.ok.injEq, List.cons.injEq, UInt8.toNat_inj, and_true, true_and] at same
  obtain ⟨rfl, rfl, rfl⟩ := same
  rfl

variable {zlib : Zlib} {state : State}

/-- The test is right about a text exactly when the text is plain; the keys of a
reachable lobby are addresses of packets exactly when they are plain, and then no
two of them are one network address. -/
theorem isValidIpv4_faithful_iff (reached : (system zlib).Reachable state) :
    (∀ ip, Faithful ip ↔ Plain ip) ∧
    ((∀ ip ∈ state.lobbyList.keys, ∃ packet, getDestinationIp packet = .ok (some ip)) ↔
      ∀ ip ∈ state.lobbyList.keys, Plain ip) ∧
    ((∀ ip ∈ state.lobbyList.keys, Plain ip) → ∀ first ∈ state.lobbyList.keys, ∀ second ∈ state.lobbyList.keys,
      network first = network second → first = second) := by
  have valid := reachable_valid reached
  refine ⟨faithful_iff, forall₂_congr fun ip member => found_iff_plain (valid ip member), ?_⟩
  intro plain first member second member' same
  obtain ⟨_, found⟩ := (found_iff_plain (valid first member)).mpr (plain first member)
  obtain ⟨_, found'⟩ := (found_iff_plain (valid second member')).mpr (plain second member')
  exact network_injective (carried_of_found found) (carried_of_found found') same

theorem isValidIpv4_faithful_iff_pair :
    (Faithful "100.0.0.1".toList ↔ Plain "100.0.0.1".toList) ∧
    (∀ ip ∈ ((system StoredZlib.zlib).play pair).2.lobbyList.keys, ∃ packet,
      getDestinationIp packet = .ok (some ip)) ∧
    ∀ first ∈ ((system StoredZlib.zlib).play pair).2.lobbyList.keys,
      ∀ second ∈ ((system StoredZlib.zlib).play pair).2.lobbyList.keys,
        network first = network second → first = second := by
  obtain ⟨tested, found, distinct⟩ := isValidIpv4_faithful_iff ((system StoredZlib.zlib).reachable_play pair)
  have keys : ((system StoredZlib.zlib).play pair).2.lobbyList.keys = ["100.0.0.1".toList, "100.0.0.2".toList] := by
    decide
  have plain : ∀ ip ∈ ((system StoredZlib.zlib).play pair).2.lobbyList.keys, Plain ip := by
    intro ip member
    simp only [keys, List.mem_cons, List.not_mem_nil, or_false] at member
    rcases member with rfl | rfl
    · exact Carried.plain ⟨0, 0, 1, by decide⟩
    · exact Carried.plain ⟨0, 0, 2, by decide⟩
  exact ⟨tested _, found.mpr plain, distinct plain⟩

/-- A connection joins with a leading zero, and another one without. -/
def padded : List Event :=
  [.accept 1, .accept 2, .receive 1 (bytes "command join 100.0.0.01") everyone,
   .receive 2 (bytes "command join 100.0.0.1") everyone]

/-- The test accepts a text that no packet carries and raises for another one,
and one network address is held twice. -/
theorem padded_not_faithful : ¬ Faithful "100.0.0.01".toList ∧ ¬ Faithful "100.0.0.²".toList ∧
    (system StoredZlib.zlib).Reachable ((system StoredZlib.zlib).play padded).2 ∧
    ((system StoredZlib.zlib).play padded).2.lobbyList.keys = ["100.0.0.01".toList, "100.0.0.1".toList] ∧
    network "100.0.0.01".toList = network "100.0.0.1".toList := by
  have accepted : isValidIpv4 "100.0.0.01".toList = .ok true := by decide
  have raised : isValidIpv4 "100.0.0.²".toList = .error .valueError := by decide
  refine ⟨?_, ?_, (system StoredZlib.zlib).reachable_play padded, by decide, by decide⟩
  · rintro ⟨answer, tested, exact⟩
    obtain rfl : answer = true := Except.ok.inj (tested.symm.trans accepted)
    have shaped : Shaped "100.0.0.01".toList ["0".toList, "0".toList, "01".toList] := ⟨by decide, rfl⟩
    have canonical := (carried_iff shaped).mp (exact.mp rfl) "01".toList (by decide)
    exact absurd (@Canonical.text _ 1 canonical (by decide)) (by decide)
  · rintro ⟨answer, tested, _⟩
    cases tested.symm.trans raised

end VirtualLan.Relay
