import VirtualLan.Lz4Decoder
import VirtualLan.LiteralLz4

/-! What a block means. The plain decoder takes a sequence after the other off the
source and lets the output grow, byte by byte and without any shortcut. Its conditions
near the ends of the two buffers are the weakest that both loops of the source share.
A block is written from the sequences that describe the data. -/

namespace VirtualLan.LZ4
open Repetition
open LiteralLz4 (lengthBytes)

/-- The bytes that a match stands for. An offset of zero, which no encoder writes,
stands for zeros. -/
def matched (offset count : Nat) (out : Bytes) : Bytes :=
  if offset = 0 then List.replicate count 0 else again offset count out

/-- The sum of the bytes up to the first one that is not 255, with `margin` bytes left
behind each of them. -/
def sumBytes (margin : Nat) : Bytes → Except Bytes (Nat × Bytes)
  | [] => .error []
  | s :: rest =>
    if rest.length < margin then .error rest
    else if s ≠ 255 then .ok (s.toNat, rest)
    else (sumBytes margin rest).map (Prod.map (255 + ·) id)

def literalLength (token : UInt8) (rest : Bytes) : Except Bytes (Nat × Bytes) :=
  if token.toNat / 16 = runMask then
    if rest.length ≤ runMask then .error rest
    else (sumBytes runMask rest).map (Prod.map (runMask + ·) id)
  else .ok (token.toNat / 16, rest)

def matchLength (token : UInt8) (rest : Bytes) : Except Bytes (Nat × Bytes) :=
  if token.toNat % 16 = mlMask then
    (sumBytes (lastLiterals - 1) rest).map (Prod.map (mlMask + · + minMatch) id)
  else .ok (token.toNat % 16 + minMatch, rest)

/-- What a sequence leads to: an output and the rest of the source, the end of the
block, or the place where it is refused. -/
inductive Plain where
  | next (out rest : Bytes)
  | decoded (data : Bytes)
  | refused (rest : Bytes)

def afterLength (read : Except Bytes (Nat × Bytes)) (next : Nat → Bytes → Plain) : Plain :=
  match read with
  | .error rest => .refused rest
  | .ok (length, rest) => next length rest

/-- There is room for a short sequence, however it goes on. -/
def Roomy (token : UInt8) (capacity : Nat) (out rest : Bytes) : Prop :=
  token.toNat / 16 ≠ runMask ∧ 14 + 2 < rest.length ∧ out.length + 14 + 18 ≤ capacity

instance (token : UInt8) (capacity : Nat) (out rest : Bytes) : Decidable (Roomy token capacity out rest) :=
  inferInstanceAs (Decidable (_ ∧ _ ∧ _))

/-- The match of a sequence, behind its literals. -/
def plainMatch (capacity : Nat) (roomy : Bool) (token : UInt8) (out : Bytes) : Bytes → Plain
  | low :: high :: rest =>
    let offset := low.toNat + 256 * high.toNat
    afterLength (matchLength token rest) fun length rest =>
      if offset ≤ out.length ∧ (out.length + length + lastLiterals ≤ capacity ∨
          roomy = true ∧ token.toNat % 16 ≠ mlMask ∧ 8 ≤ offset) then
        .next (out ++ matched offset length out) rest
      else .refused rest
  | rest => .refused rest

/-- A sequence from its literals on. Where the end of the source or of the output is
close, they are the last ones. -/
def plainLiterals (capacity : Nat) (token : UInt8) (out : Bytes) (length : Nat) (rest : Bytes) : Plain :=
  if Roomy token capacity out rest ∨
      length + (2 + 1 + lastLiterals) ≤ rest.length ∧ out.length + length + mfLimit ≤ capacity then
    plainMatch capacity (decide (Roomy token capacity out rest)) token (out ++ rest.take length) (rest.drop length)
  else if rest.length = length ∧ out.length + length ≤ capacity then .decoded (out ++ rest)
  else .refused rest

def plainStep (capacity : Nat) (out : Bytes) : Bytes → Plain
  | [] => .refused []
  | token :: rest => afterLength (literalLength token rest) (plainLiterals capacity token out)

theorem sumBytes_shorter {margin length : Nat} {bytes rest : Bytes} (read : sumBytes margin bytes = .ok (length, rest)) :
    rest.length < bytes.length := by
  induction bytes generalizing length with
  | nil => cases read
  | cons s bytes ih =>
    rw [sumBytes] at read
    split at read
    · cases read
    · split at read
      · cases read
        exact Nat.lt_succ_self _
      · cases later : sumBytes margin bytes with
        | error left => simp [later, Except.map] at read
        | ok found =>
          rw [later] at read
          cases read
          exact Nat.lt_succ_of_lt (ih later)

theorem literalLength_shorter {token : UInt8} {length : Nat} {bytes rest : Bytes}
    (read : literalLength token bytes = .ok (length, rest)) : rest.length ≤ bytes.length := by
  unfold literalLength at read
  split at read
  · split at read
    · cases read
    · cases found : sumBytes runMask bytes with
      | error left => simp [found, Except.map] at read
      | ok pair =>
        rw [found] at read
        cases read
        exact Nat.le_of_lt (sumBytes_shorter found)
  · cases read
    exact Nat.le_refl _

theorem matchLength_shorter {token : UInt8} {length : Nat} {bytes rest : Bytes}
    (read : matchLength token bytes = .ok (length, rest)) : rest.length ≤ bytes.length := by
  unfold matchLength at read
  split at read
  · cases found : sumBytes (lastLiterals - 1) bytes with
    | error left => simp [found, Except.map] at read
    | ok pair =>
      rw [found] at read
      cases read
      exact Nat.le_of_lt (sumBytes_shorter found)
  · cases read
    exact Nat.le_refl _

theorem afterLength_ok {next : Nat → Bytes → Plain} {read : Except Bytes (Nat × Bytes)} {result : Plain}
    (step : afterLength read next = result) (accepted : ∀ left, result ≠ .refused left) : ∃ length bytes,
      read = .ok (length, bytes) ∧ next length bytes = result := by
  cases read with
  | error bytes => exact absurd step.symm (accepted bytes)
  | ok found => exact ⟨found.1, found.2, rfl, step⟩

theorem afterLength_next {next : Nat → Bytes → Plain} {read : Except Bytes (Nat × Bytes)} {out rest : Bytes}
    (step : afterLength read next = .next out rest) : ∃ length bytes, read = .ok (length, bytes) ∧
      next length bytes = .next out rest :=
  afterLength_ok step (by intro left same; cases same)

theorem plainMatch_shorter {capacity : Nat} {roomy : Bool} {token : UInt8} {out later bytes rest : Bytes}
    (step : plainMatch capacity roomy token out bytes = .next later rest) : rest.length < bytes.length := by
  unfold plainMatch at step
  split at step
  next low high bytes =>
    obtain ⟨length, left, read, step⟩ := afterLength_next step
    have shorter := matchLength_shorter read
    split at step
    · cases step
      simp only [List.length_cons]
      omega
    · cases step
  next => cases step

theorem plainStep_shorter {capacity : Nat} {out later bytes rest : Bytes}
    (step : plainStep capacity out bytes = .next later rest) : rest.length < bytes.length := by
  cases bytes with
  | nil => cases step
  | cons token bytes =>
    obtain ⟨length, left, read, step⟩ := afterLength_next step
    have first := literalLength_shorter read
    unfold plainLiterals at step
    rw [List.length_cons]
    split at step
    · have second := plainMatch_shorter step
      rw [List.length_drop] at second
      omega
    · split at step <;> cases step

/-- The plain decoder, from an output and the rest of the source on. It fails with
what is left of the source where it is refused. -/
def plain (capacity : Nat) (out rest : Bytes) : Except Bytes Bytes :=
  match _ : plainStep capacity out rest with
  | .next later rest => plain capacity later rest
  | .decoded data => .ok data
  | .refused rest => .error rest
termination_by rest.length
decreasing_by exact plainStep_shorter ‹_›

/-- What a block decodes to, or the place where it is refused. Into no room at all
only one block goes. -/
def plainBlock (capacity : Nat) (source : Bytes) : Except Nat Bytes :=
  if capacity = 0 then
    if source = [0] then .ok [] else .error 0
  else (plain capacity [] source).mapError fun rest => source.length - rest.length

theorem plain_next {capacity : Nat} {out later rest left : Bytes} (step : plainStep capacity out rest = .next later left) :
    plain capacity out rest = plain capacity later left := by
  rw [plain]
  split <;> simp_all

theorem plain_decoded {capacity : Nat} {out data rest : Bytes} (step : plainStep capacity out rest = .decoded data) :
    plain capacity out rest = .ok data := by
  rw [plain]
  split <;> simp_all

theorem plain_refused {capacity : Nat} {out rest left : Bytes} (step : plainStep capacity out rest = .refused left) :
    plain capacity out rest = .error left := by
  rw [plain]
  split <;> simp_all

/-- A match behind so many literals. -/
structure Sequence where
  literals : Nat
  length : Nat
  offset : Nat

/-- A number in its half of the token, as far as it goes there. -/
def tokenByte (literals mlCode : Nat) : UInt8 := UInt8.ofNat (min literals runMask * 16 + min mlCode mlMask)

/-- What a number has beyond its half of the token. -/
def extension (number : Nat) : Bytes := if number < runMask then [] else lengthBytes (number - runMask)

def sequenceBytes (sequence : Sequence) (literals : Bytes) : Bytes :=
  tokenByte sequence.literals (sequence.length - minMatch) :: (extension sequence.literals ++ literals ++
    [UInt8.ofNat sequence.offset, UInt8.ofNat (sequence.offset / 256)] ++ extension (sequence.length - minMatch))

/-- The block of the data that the sequences describe, from the place on that they
have reached. -/
def blockBytes : List Sequence → Bytes → Bytes
  | [], rest => tokenByte rest.length 0 :: (extension rest.length ++ rest)
  | sequence :: sequences, rest =>
    sequenceBytes sequence (rest.take sequence.literals) ++
      blockBytes sequences (rest.drop (sequence.literals + sequence.length))

/-- A match found in the data where the format allows one. -/
structure Sequence.Found (sequence : Sequence) (done rest : Bytes) : Prop where
  long : minMatch ≤ sequence.length
  positive : 0 < sequence.offset
  near : sequence.offset < 65536
  reaches : sequence.offset ≤ done.length + sequence.literals
  starts : sequence.literals + mfLimit ≤ rest.length
  ends : sequence.literals + sequence.length + lastLiterals ≤ rest.length
  same : ∀ index < sequence.length, (done ++ rest)[done.length + sequence.literals + index]? =
    (done ++ rest)[done.length + sequence.literals + index - sequence.offset]?

/-- The sequences describe the data behind what is done. -/
inductive Parses : Bytes → Bytes → List Sequence → Prop where
  | done (done rest : Bytes) : Parses done rest []
  | next {done rest : Bytes} {sequence : Sequence} {sequences : List Sequence} (found : sequence.Found done rest)
      (later : Parses (done ++ rest.take (sequence.literals + sequence.length))
        (rest.drop (sequence.literals + sequence.length)) sequences) : Parses done rest (sequence :: sequences)

/-- A sequence with its literals, as it stands in a block. -/
structure Piece where
  literals : Bytes
  length : Nat
  offset : Nat

def Piece.bytes (piece : Piece) : Bytes :=
  sequenceBytes ⟨piece.literals.length, piece.length, piece.offset⟩ piece.literals

/-- The pieces take the first output to the second one, and no match reaches back
farther than there is something. -/
inductive Expands : Bytes → List Piece → Bytes → Prop where
  | done (out : Bytes) : Expands out [] out
  | next {out result : Bytes} {piece : Piece} {pieces : List Piece} (long : minMatch ≤ piece.length)
      (near : piece.offset < 65536) (reaches : piece.offset ≤ (out ++ piece.literals).length)
      (later : Expands (out ++ piece.literals ++ matched piece.offset piece.length (out ++ piece.literals)) pieces result) :
      Expands out (piece :: pieces) result

/-- These bytes stand for the data behind what is out, whatever the unused half of the
last token holds. -/
def Encodes (out bytes data : Bytes) : Prop :=
  ∃ pieces result last spare, Expands out pieces result ∧ data = result ++ last ∧
    bytes = (pieces.map Piece.bytes).flatten ++ tokenByte last.length spare :: (extension last.length ++ last)

end VirtualLan.LZ4
