import Mathlib.Data.List.Basic

/-! Text and bytes as both programs see them. Python strings are lists of
Unicode scalar values, C++ strings and socket messages are lists of bytes. The
Unicode tables are those of Python 3.11. -/

namespace VirtualLan

abbrev Bytes := List UInt8

abbrev Str := List Char

/-- A quantifier over a list is decided on the list, also where its type is finite. -/
instance (priority := high) decidableForallMem {α : Type} {p : α → Prop} [DecidablePred p] (list : List α) :
    Decidable (∀ item ∈ list, p item) := List.decidableBAll p list

instance (priority := high) decidableExistsMem {α : Type} {p : α → Prop} [DecidablePred p] (list : List α) :
    Decidable (∃ item ∈ list, p item) := List.decidableBEx p list

/-- The exceptions that the server's own code and its calls can raise. -/
inductive Exn where
  | indexError
  | valueError
  | unicodeDecodeError
  | zlibError
  | osError
  | keyError
  | unboundLocalError
  deriving DecidableEq, Repr

def encode (text : Str) : Bytes := text.flatMap String.utf8EncodeChar

/-- A literal such as `b"command"`. -/
def bytes (literal : String) : Bytes := encode literal.toList

private def decodeFrom : Nat → Bytes → Option Str
  | _, [] => some []
  | 0, _ :: _ => none
  | fuel + 1, first :: rest =>
    (first :: rest).toByteArray.utf8DecodeChar? 0 |>.bind fun char =>
      (decodeFrom fuel ((first :: rest).drop char.utf8Size)).map (char :: ·)

def decode (data : Bytes) : Except Exn Str :=
  match decodeFrom data.length data with
  | some text => .ok text
  | none => .error .unicodeDecodeError

@[simp] theorem encode_nil : encode [] = [] := rfl

theorem encode_cons (char : Char) (text : Str) :
    encode (char :: text) = String.utf8EncodeChar char ++ encode text := rfl

theorem encode_append (first second : Str) : encode (first ++ second) = encode first ++ encode second :=
  List.flatMap_append

private theorem decodeFrom_char (char : Char) (rest : Bytes) (fuel : Nat) :
    decodeFrom (fuel + 1) (String.utf8EncodeChar char ++ rest) = (decodeFrom fuel rest).map (char :: ·) := by
  have size := String.length_utf8EncodeChar char
  have positive := char.utf8Size_pos
  have found : (String.utf8EncodeChar char ++ rest).toByteArray.utf8DecodeChar? 0 = some char := by
    rw [List.toByteArray_append]
    exact ByteArray.utf8DecodeChar?_utf8EncodeChar_append
  have dropped : (String.utf8EncodeChar char ++ rest).drop char.utf8Size = rest := by
    rw [← size, List.drop_left]
  obtain ⟨first, others, split⟩ := List.exists_cons_of_length_pos (l := String.utf8EncodeChar char) (by omega)
  rw [split, List.cons_append] at found dropped ⊢
  simp only [decodeFrom, found, dropped, Option.bind_some]

private theorem decodeFrom_encode (text : Str) (fuel : Nat) (enough : (encode text).length ≤ fuel) :
    decodeFrom fuel (encode text) = some text := by
  induction text generalizing fuel with
  | nil => cases fuel <;> rfl
  | cons char text ih =>
    have size := String.length_utf8EncodeChar char
    have positive := char.utf8Size_pos
    rw [encode_cons, List.length_append] at enough
    cases fuel with
    | zero => omega
    | succ fuel => rw [encode_cons, decodeFrom_char, ih fuel (by omega), Option.map_some]

theorem decode_encode (text : Str) : decode (encode text) = .ok text := by
  rw [decode, decodeFrom_encode text _ (Nat.le_refl _)]

private theorem decodeFrom_append (text : Str) (tail : Bytes) (fuel : Nat) {whole : Str}
    (decoded : decodeFrom fuel (encode text ++ tail) = some whole) : ∃ rest, whole = text ++ rest := by
  induction text generalizing fuel whole with
  | nil => exact ⟨whole, rfl⟩
  | cons char text ih =>
    rw [encode_cons, List.append_assoc] at decoded
    cases fuel with
    | zero =>
      obtain ⟨first, others, split⟩ := List.exists_cons_of_ne_nil (String.utf8EncodeChar_ne_nil (c := char))
      rw [split] at decoded
      cases decoded
    | succ fuel =>
      rw [decodeFrom_char, Option.map_eq_some_iff] at decoded
      obtain ⟨later, decoded, rfl⟩ := decoded
      obtain ⟨rest, rfl⟩ := ih fuel decoded
      exact ⟨rest, rfl⟩

/-- Bytes behind a text leave the text as it is, if they can be decoded at all. -/
theorem decode_append {text whole : Str} {tail : Bytes} (decoded : decode (encode text ++ tail) = .ok whole) :
    ∃ rest, whole = text ++ rest := by
  unfold decode at decoded
  split at decoded
  next found =>
    cases decoded
    exact decodeFrom_append text tail _ found
  next => cases decoded

/-- A prefix of an ASCII text's bytes is the bytes of a prefix. -/
theorem encode_prefix {text : Str} (ascii : ∀ char ∈ text, char.utf8Size = 1) {part : Bytes}
    (inside : part <+: encode text) : ∃ start, start <+: text ∧ part = encode start := by
  induction text generalizing part with
  | nil =>
    rw [encode_nil, List.prefix_nil] at inside
    exact ⟨[], List.prefix_refl _, inside⟩
  | cons char text ih =>
    obtain ⟨byte, single⟩ : ∃ byte, String.utf8EncodeChar char = [byte] :=
      List.length_eq_one_iff.mp ((String.length_utf8EncodeChar char).trans (ascii char List.mem_cons_self))
    rw [encode_cons, single, List.singleton_append, List.prefix_cons_iff] at inside
    rcases inside with rfl | ⟨rest, rfl, inside⟩
    · exact ⟨[], List.nil_prefix, rfl⟩
    · obtain ⟨start, before, rfl⟩ := ih (fun other member => ascii other (List.mem_cons_of_mem _ member)) inside
      exact ⟨char :: start, List.prefix_cons_inj char |>.mpr before, by rw [encode_cons, single]; rfl⟩

theorem encode_length (text : Str) : (encode text).length ≤ 4 * text.length := by
  induction text with
  | nil => exact Nat.le_refl _
  | cons char text ih =>
    have size := String.length_utf8EncodeChar char
    have most := char.utf8Size_le_four
    rw [encode_cons, List.length_append, List.length_cons]
    omega

theorem encode_injective : Function.Injective encode := by
  intro first second same
  have decoded := decode_encode first
  rw [same, decode_encode] at decoded
  exact (Except.ok.inj decoded).symm

/-- The space byte stands for a space only: longer forms use bytes from 128 on. -/
theorem utf8EncodeChar_space {char : Char} (member : (0x20 : UInt8) ∈ String.utf8EncodeChar char) : char = ' ' := by
  have bound : ∀ value base : Nat, base + value < 256 → 0x20 < base → (0x20 : UInt8) ≠ UInt8.ofNat (value + base) := by
    intro value base small large same
    have number := congrArg UInt8.toNat same
    simp only [UInt8.toNat_ofNat'] at number
    change 32 = _ at number
    omega
  unfold String.utf8EncodeChar at member
  simp only at member
  split at member
  next ascii =>
    have number := congrArg UInt8.toNat (List.mem_singleton.mp member)
    simp only [UInt8.toNat_ofNat'] at number
    change 32 = _ at number
    apply Char.ext
    apply UInt32.toNat.inj
    change _ = 32
    omega
  next =>
    split at member
    · simp only [List.mem_cons, List.not_mem_nil, or_false] at member
      rcases member with same | same <;> exact absurd same (bound _ _ (by omega) (by decide))
    split at member
    · simp only [List.mem_cons, List.not_mem_nil, or_false] at member
      rcases member with same | same | same <;> exact absurd same (bound _ _ (by omega) (by decide))
    · simp only [List.mem_cons, List.not_mem_nil, or_false] at member
      rcases member with same | same | same | same <;> exact absurd same (bound _ _ (by omega) (by decide))

theorem space_not_mem_encode {text : Str} (solid : ' ' ∉ text) : (0x20 : UInt8) ∉ encode text := by
  intro member
  obtain ⟨char, inside, byte⟩ := List.mem_flatMap.mp member
  exact solid (utf8EncodeChar_space byte ▸ inside)

/-- `char.isspace()`, the separators of `str.split()`. -/
def isSpace (char : Char) : Bool :=
  (9 ≤ char.toNat && char.toNat ≤ 13) || (28 ≤ char.toNat && char.toNat ≤ 32) || char.toNat == 0x85 ||
  char.toNat == 0xa0 || char.toNat == 0x1680 || (0x2000 ≤ char.toNat && char.toNat ≤ 0x200a) ||
  char.toNat == 0x2028 || char.toNat == 0x2029 || char.toNat == 0x202f || char.toNat == 0x205f ||
  char.toNat == 0x3000

def split (text : Str) : List Str := (text.splitOnP isSpace).filter (fun token => !token.isEmpty)

/-- A non-empty string without white space, which `split` keeps in one piece. -/
structure Token (text : Str) : Prop where
  nonempty : text ≠ []
  solid : ∀ char ∈ text, isSpace char = false

/-- An address as a client may name it: one word on the wire. -/
structure Name where
  text : Str
  token : Token text

theorem split_token {text : Str} (token : Token text) : split text = [text] := by
  rw [split, List.splitOnP_eq_singleton token.solid]
  simp [token.nonempty]

theorem split_word {word : Str} (token : Token word) (rest : Str) :
    ∃ more others, split (word ++ rest) = (word ++ more) :: others := by
  obtain ⟨more, others, pieces⟩ : ∃ more others, (word ++ rest).splitOnP isSpace = (word ++ more) :: others := by
    have solid := token.solid
    clear token
    induction word with
    | nil =>
      obtain ⟨more, others, pieces⟩ := List.exists_cons_of_ne_nil (List.splitOnP_ne_nil isSpace rest)
      exact ⟨more, others, pieces⟩
    | cons char word ih =>
      obtain ⟨more, others, pieces⟩ := ih (fun other member => solid other (List.mem_cons_of_mem _ member))
      refine ⟨more, others, ?_⟩
      rw [List.cons_append, List.splitOnP_cons_eq_if_modifyHead, solid char List.mem_cons_self, pieces]
      rfl
  refine ⟨more, others.filter (fun token => !token.isEmpty), ?_⟩
  rw [split, pieces, List.filter_cons_of_pos]
  simp [token.nonempty]

theorem split_cons {word : Str} (token : Token word) {space : Char} (blank : isSpace space = true) (rest : Str) :
    split (word ++ space :: rest) = word :: split rest := by
  rw [split, List.splitOnP_append_cons_of_forall_mem token.solid space blank]
  simp [split, token.nonempty]

/-- The code points of the Unicode decimal digits zero; each starts a block of ten. -/
def decimalZeros : List Nat :=
  [0x30, 0x660, 0x6f0, 0x7c0, 0x966, 0x9e6, 0xa66, 0xae6, 0xb66, 0xbe6, 0xc66, 0xce6, 0xd66, 0xde6, 0xe50, 0xed0,
   0xf20, 0x1040, 0x1090, 0x17e0, 0x1810, 0x1946, 0x19d0, 0x1a80, 0x1a90, 0x1b50, 0x1bb0, 0x1c40, 0x1c50, 0xa620,
   0xa8d0, 0xa900, 0xa9d0, 0xa9f0, 0xaa50, 0xabf0, 0xff10, 0x104a0, 0x10d30, 0x11066, 0x110f0, 0x11136, 0x111d0,
   0x112f0, 0x11450, 0x114d0, 0x11650, 0x116c0, 0x11730, 0x118e0, 0x11950, 0x11c50, 0x11d50, 0x11da0, 0x16a60,
   0x16ac0, 0x16b50, 0x1d7ce, 0x1d7d8, 0x1d7e2, 0x1d7ec, 0x1d7f6, 0x1e140, 0x1e2f0, 0x1e950, 0x1fbf0]

/-- Ranges of characters that `isdigit` accepts although `int` does not, such
as superscripts and circled digits. -/
def otherDigits : List (Nat × Nat) :=
  [(0xb2, 0xb3), (0xb9, 0xb9), (0x1369, 0x1371), (0x19da, 0x19da), (0x2070, 0x2070), (0x2074, 0x2079),
   (0x2080, 0x2089), (0x2460, 0x2468), (0x2474, 0x247c), (0x2488, 0x2490), (0x24ea, 0x24ea), (0x24f5, 0x24fd),
   (0x24ff, 0x24ff), (0x2776, 0x277e), (0x2780, 0x2788), (0x278a, 0x2792), (0x10a40, 0x10a43),
   (0x10e60, 0x10e68), (0x11052, 0x1105a), (0x1f100, 0x1f10a)]

def decimalValue? (char : Char) : Option Nat :=
  (decimalZeros.find? fun start => start ≤ char.toNat && char.toNat < start + 10).map (char.toNat - ·)

def isDigitChar (char : Char) : Bool :=
  (decimalValue? char).isSome || otherDigits.any fun range => range.1 ≤ char.toNat && char.toNat ≤ range.2

def isDigit (text : Str) : Bool := !text.isEmpty && text.all isDigitChar

/-- `int(text)` on a string that `isdigit` accepts. -/
def int (text : Str) : Except Exn Nat :=
  match text.mapM decimalValue? with
  | some digits => .ok (digits.foldl (fun value digit => 10 * value + digit) 0)
  | none => .error .valueError

def decimal (byte : UInt8) : Str := Nat.toDigits 10 byte.toNat

def dotted (a b c d : UInt8) : Str := ['.'].intercalate [decimal a, decimal b, decimal c, decimal d]

def addressBytes : Bytes := [0x2e, 0x30, 0x31, 0x32, 0x33, 0x34, 0x35, 0x36, 0x37, 0x38, 0x39]

theorem decimal_chars {byte : UInt8} {char : Char} (member : char ∈ decimal byte) :
    isSpace char = false ∧ ∃ byte ∈ addressBytes, String.utf8EncodeChar char = [byte] := by
  have digits : ∀ offset ∈ List.range 10, isSpace (Char.ofNat (48 + offset)) = false ∧
      ∃ byte ∈ addressBytes, String.utf8EncodeChar (Char.ofNat (48 + offset)) = [byte] := by decide
  have digit := Nat.isDigit_of_mem_toDigits (by decide) (by decide) member
  rw [Char.isDigit, Bool.and_eq_true, decide_eq_true_eq, decide_eq_true_eq] at digit
  have least : 48 ≤ char.toNat := UInt32.le_iff_toNat_le.mp digit.1
  have most : char.toNat ≤ 57 := UInt32.le_iff_toNat_le.mp digit.2
  have found := digits (char.toNat - 48) (List.mem_range.mpr (by omega))
  rw [show 48 + (char.toNat - 48) = char.toNat by omega, Char.ofNat_toNat] at found
  exact found

theorem dotted_chars {a b c d : UInt8} {char : Char} (member : char ∈ dotted a b c d) :
    isSpace char = false ∧ ∃ byte ∈ addressBytes, String.utf8EncodeChar char = [byte] := by
  simp only [dotted, List.intercalate, List.intersperse, List.flatten_cons, List.flatten_nil, List.mem_append,
    List.mem_cons, List.append_nil, List.not_mem_nil, or_false] at member
  rcases member with member | rfl | member | rfl | member | rfl | member
  · exact decimal_chars member
  · exact ⟨by decide, 0x2e, by decide, by decide⟩
  · exact decimal_chars member
  · exact ⟨by decide, 0x2e, by decide, by decide⟩
  · exact decimal_chars member
  · exact ⟨by decide, 0x2e, by decide, by decide⟩
  · exact decimal_chars member

/-- The client's address is one of these: its own program computes the bytes. -/
def address (b c d : UInt8) : Name where
  text := dotted 100 b c d
  token := ⟨by simp [dotted], fun _ member => (dotted_chars member).1⟩

def inetNtoa : Bytes → Except Exn Str
  | [a, b, c, d] => .ok (dotted a b c d)
  | _ => .error .osError

end VirtualLan
