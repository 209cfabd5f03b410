import VirtualLan.Lz4Decoder
import VirtualLan.Lz4Format

/-! The block writer among the client's sources, `LZ4HC_encodeSequence` and the last
literals of `lz4hc.c`. The search for matches is a parameter. It only reads the
source, so that all it finds may be known before the first sequence is written. -/

namespace VirtualLan.LZ4
open Memory

inductive LimitedOutputDirective where
  | notLimited
  | limitedOutput
  deriving DecidableEq

def writeLE16 (memory : Memory UInt8) (op value : Nat) : Except Misuse (Memory UInt8) :=
  memory.store op [UInt8.ofNat value, UInt8.ofNat (value / 256)]

/-- What a literal length has beyond its token. -/
def writeLength (memory : Memory UInt8) (op len : Nat) : Except Misuse (Memory UInt8 × Nat) :=
  if 255 ≤ len then do
    let memory ← memory.store op [255]
    writeLength memory (op + 1) (len - 255)
  else do
    let memory ← memory.store op [UInt8.ofNat len]
    return (memory, op + 1)
termination_by len
decreasing_by omega

/-- The token of so many literals, and the rest of their number from `op` on. -/
def writeRun (memory : Memory UInt8) (token op litLen : Nat) : Except Misuse (Memory UInt8 × Nat) :=
  if runMask ≤ litLen then do
    let memory ← memory.store token [UInt8.ofNat (runMask * 16)]
    writeLength memory op (litLen - runMask)
  else do
    let memory ← memory.store token [UInt8.ofNat (litLen * 16)]
    return (memory, op)

/-- What a match length has beyond its token, in steps of two bytes. -/
def writeMatchLength (memory : Memory UInt8) (op mlCode : Nat) : Except Misuse (Memory UInt8 × Nat) :=
  if 510 ≤ mlCode then do
    let memory ← memory.store op [255]
    let memory ← memory.store (op + 1) [255]
    writeMatchLength memory (op + 2) (mlCode - 510)
  else if 255 ≤ mlCode then do
    let memory ← memory.store op [255]
    let memory ← memory.store (op + 1) [UInt8.ofNat (mlCode - 255)]
    return (memory, op + 2)
  else do
    let memory ← memory.store op [UInt8.ofNat mlCode]
    return (memory, op + 1)
termination_by mlCode
decreasing_by omega

/-- `*token += value`. -/
def addToToken (memory : Memory UInt8) (token value : Nat) : Except Misuse (Memory UInt8) := do
  let old ← memory.load .output token 1
  memory.store token (old.map (· + UInt8.ofNat value))

/-- What `LZ4HC_encodeSequence` leaves of `op` and the output, or nothing where it
detects that there is no room. -/
def encodeSequence (limit : LimitedOutputDirective) (memory : Memory UInt8) (anchor op : Nat) (sequence : Sequence) :
    Except Misuse (Option (Memory UInt8 × Nat)) := do
  let oend := memory.output.length
  let token := op
  let op := op + 1
  let litLen := sequence.literals
  if limit = .limitedOutput ∧ oend < op + litLen / 255 + litLen + (2 + 1 + lastLiterals) then return none
  let (memory, op) ← writeRun memory token op litLen
  let memory ← wildCopy8 memory op .input anchor (op + litLen)
  let op := op + litLen
  let memory ← writeLE16 memory op sequence.offset
  let op := op + 2
  let mlCode := sequence.length - minMatch
  if limit = .limitedOutput ∧ oend < op + mlCode / 255 + (1 + lastLiterals) then return none
  if mlMask ≤ mlCode then
    let memory ← addToToken memory token mlMask
    return some (← writeMatchLength memory op (mlCode - mlMask))
  else
    let memory ← addToToken memory token mlCode
    return some (memory, op)

/-- From `_last_literals` on. -/
def encodeLastLiterals (limit : LimitedOutputDirective) (memory : Memory UInt8) (anchor op : Nat) :
    Except Misuse (Int × Memory UInt8) := do
  let oend := memory.output.length
  let lastRunSize := memory.input.length - anchor
  let llAdd := (lastRunSize + 255 - runMask) / 255
  let totalSize := 1 + llAdd + lastRunSize
  if limit = .limitedOutput ∧ oend < op + totalSize then return (0, memory)
  let (memory, op) ← writeRun memory op (op + 1) lastRunSize
  let memory ← memory.copy op .input anchor lastRunSize
  return ((op + lastRunSize : Nat), memory)

/-- The sequences one after the other, and the last literals. -/
def encode (limit : LimitedOutputDirective) (memory : Memory UInt8) (anchor op : Nat) :
    List Sequence → Except Misuse (Int × Memory UInt8)
  | [] => encodeLastLiterals limit memory anchor op
  | sequence :: sequences => do
    match ← encodeSequence limit memory anchor op sequence with
    | none => return (0, memory)
    | some (memory, op) => encode limit memory (anchor + sequence.literals + sequence.length) op sequences

/-- Only where the destination may be too small for the block is its end looked at. -/
def limitOf (dstCapacity srcSize : Nat) : LimitedOutputDirective :=
  if dstCapacity < Lz4.compressBound srcSize then .limitedOutput else .notLimited

/-- `LZ4_compress_HC`, with the search for matches as a parameter. -/
def compressHC (search : Bytes → List Sequence) (source dest : Bytes) : Except Misuse (Int × Memory UInt8) :=
  let memory : Memory UInt8 := ⟨source, dest⟩
  if source.length > Lz4.maxInputSize then return (0, memory)
  else if dest.length < 1 then return (0, memory)
  else if source.length = 0 then do
    let memory ← memory.store 0 [0]
    return (1, memory)
  else encode (limitOf dest.length source.length) memory 0 0 (search source)

def compressed : Except Misuse (Int × Memory UInt8) → Lz4Result
  | .ok (code, memory) => ⟨code, memory.output.take code.toNat⟩
  | .error _ => ⟨0, []⟩

def decompressed : Except Misuse Outcome → Lz4Result
  | .ok (.returned code memory) => ⟨code, memory.output.take code.toNat⟩
  | _ => ⟨-1, []⟩

end VirtualLan.LZ4
