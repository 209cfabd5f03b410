import VirtualLan.Text
import VirtualLan.Library.Memory

/-! The block decoder among the client's sources, `LZ4_decompress_safe` of `lz4.c`, as
it is built for x64: for whole blocks, without a dictionary, with the fast loop.
Positions count from the start of their buffer. `match` is `offset` before `op`
wherever it is used, so `match >= lowPrefix` is `offset ≤ op`. Lengths stay far below
what carries a pointer past the end of the address space, and the tests for that are
left out. -/

namespace VirtualLan.LZ4
open Memory

def minMatch : Nat := 4
def wildCopyLength : Nat := 8
def lastLiterals : Nat := 5
def mfLimit : Nat := 12
def matchSafeguardDistance : Nat := 2 * wildCopyLength - minMatch
def fastLoopSafeDistance : Nat := 64
def mlMask : Nat := 15
def runMask : Nat := 15

def readLE16 (memory : Memory UInt8) (ip : Nat) : Except Misuse Nat := do
  return (← memory.fetch ip).toNat + 256 * (← memory.fetch (ip + 1)).toNat

/-- What `read_variable_length` returns, with `ip` as it leaves it. -/
inductive Rvl where
  | error (ip : Nat)
  | length (addl ip : Nat)

/-- The reads of `read_variable_length`, of the bytes from `ip` on. -/
def readBytes (ilimit : Int) : Bytes → Nat → Nat → Except Misuse Rvl
  | [], _, _ => .error .outOfBounds
  | s :: bytes, ip, length =>
    if ilimit < (ip + 1 : Nat) then .ok (.error (ip + 1))
    else if s ≠ 255 then .ok (.length (length + s.toNat) (ip + 1))
    else readBytes ilimit bytes (ip + 1) (length + s.toNat)

def readVariableLength (memory : Memory UInt8) (ip : Nat) (ilimit : Int) (initialCheck : Bool) : Except Misuse Rvl :=
  if initialCheck = true ∧ ilimit ≤ ip then .ok (.error ip) else readBytes ilimit (memory.input.drop ip) ip 0

def wildCopy8 (memory : Memory UInt8) (d : Nat) (region : Region) (s e : Nat) : Except Misuse (Memory UInt8) :=
  memory.copyStripes [8] d region s e

def wildCopy32 (memory : Memory UInt8) (d : Nat) (region : Region) (s e : Nat) : Except Misuse (Memory UInt8) :=
  memory.copyStripes [16, 16] d region s e

/-- The eighteen bytes of a short match, in three parts. -/
def copy18 (memory : Memory UInt8) (op source : Nat) : Except Misuse (Memory UInt8) :=
  memory.copyPieces op .output source [8, 8, 2]

def inc32table : List Int := [0, 1, 2, 1, 0, 4, 4, 4]
def dec64table : List Int := [0, 0, 0, -1, -4, 1, 2, 3]

/-- The first eight bytes of a match, and the place to go on from. Offsets below
eight are widened to a multiple of at least eight. -/
def copyEight (memory : Memory UInt8) (op source offset : Nat) : Except Misuse (Memory UInt8 × Nat) :=
  if offset < 8 then do
    let memory ← memory.store op [0, 0, 0, 0]
    let memory ← memory.copyItems op .output source 4
    let source := (source + inc32table.getD offset 0).toNat
    let memory ← memory.copy (op + 4) .output source 4
    return (memory, (source - dec64table.getD offset 0).toNat)
  else do
    let memory ← memory.copy op .output source 8
    return (memory, source + 8)

def memcpyUsingOffsetBase (memory : Memory UInt8) (op source cpy offset : Nat) : Except Misuse (Memory UInt8) := do
  let (memory, source) ← copyEight memory op source offset
  wildCopy8 memory (op + 8) .output source cpy

/-- The eight bytes of `v` are stored at least once. -/
def storePattern (memory : Memory UInt8) (v : Bytes) (op cpy : Nat) : Except Misuse (Memory UInt8) := do
  let memory ← memory.store op v
  memory.storeStripes v (op + 8) cpy

def memcpyUsingOffset (memory : Memory UInt8) (op source cpy offset : Nat) : Except Misuse (Memory UInt8) :=
  if offset = 1 then do
    let byte ← memory.load .output source 1
    storePattern memory (List.replicate 8 byte).flatten op cpy
  else if offset = 2 then do
    let pair ← memory.load .output source 2
    storePattern memory (List.replicate 4 pair).flatten op cpy
  else if offset = 4 then do
    let four ← memory.load .output source 4
    storePattern memory (List.replicate 2 four).flatten op cpy
  else memcpyUsingOffsetBase memory op source cpy offset

/-- Where a pass through one of the two loops ends: before the next token of the fast
or of the safe loop, or with the result of the function. -/
inductive Outcome where
  | fast (ip op : Nat) (memory : Memory UInt8)
  | safe (ip op : Nat) (memory : Memory UInt8)
  | returned (code : Int) (memory : Memory UInt8)

section Passes
variable (memory : Memory UInt8)

def outputError (ip : Nat) : Outcome := .returned (-(ip : Int) - 1) memory

/-- What follows the read of a length. -/
def Rvl.andThen (next : Nat → Nat → Except Misuse Outcome) : Rvl → Except Misuse Outcome
  | .error ip => .ok (outputError memory ip)
  | .length addl ip => next addl ip

/-- The rest of a match that ends close to the end of the output: in stripes as far as
they have room, and then byte by byte. -/
def finishNear (op source cpy : Nat) : Except Misuse (Memory UInt8) :=
  let oCopyLimit := memory.output.length - (wildCopyLength - 1)
  if op < oCopyLimit then do
    let memory ← wildCopy8 memory op .output source oCopyLimit
    memory.copyItems oCopyLimit .output (source + (oCopyLimit - op)) (cpy - oCopyLimit)
  else memory.copyItems op .output source (cpy - op)

/-- The rest of any other match. -/
def finishFar (op source cpy length : Nat) : Except Misuse (Memory UInt8) := do
  let memory ← memory.copy op .output source 8
  if length > 16 then wildCopy8 memory (op + 8) .output (source + 8) cpy else return memory

/-- From `safe_match_copy` to the end of the pass. -/
def safeMatchCopy (ip op offset length : Nat) : Except Misuse Outcome :=
  let oend := memory.output.length
  if op < offset then .ok (outputError memory ip)
  else do
    let cpy := op + length
    let (memory, source) ← copyEight memory op (op - offset) offset
    let op := op + 8
    if oend < cpy + matchSafeguardDistance then
      if oend < cpy + lastLiterals then return outputError memory ip
      else return .safe ip cpy (← finishNear memory op source cpy)
    else return .safe ip cpy (← finishFar memory op source cpy length)

/-- From `_copy_match` on; `length` is the lower half of the token. -/
def copyMatch (ip op offset length : Nat) : Except Misuse Outcome :=
  if length = mlMask then do
    (← readVariableLength memory ip (memory.input.length - lastLiterals + 1) false).andThen memory fun addl ip =>
      safeMatchCopy memory ip op offset (length + addl + minMatch)
  else safeMatchCopy memory ip op offset (length + minMatch)

/-- From `safe_literal_copy` on. -/
def safeLiteralCopy (token : UInt8) (ip op length : Nat) : Except Misuse Outcome :=
  let iend := memory.input.length
  let oend := memory.output.length
  let cpy := op + length
  if oend < cpy + mfLimit ∨ iend < ip + length + (2 + 1 + lastLiterals) then
    if ip + length ≠ iend ∨ oend < cpy then .ok (outputError memory ip)
    else do
      let memory ← memory.move op .input ip length
      return .returned (op + length : Nat) memory
  else do
    let memory ← wildCopy8 memory op .input ip cpy
    let ip := ip + length
    let offset ← readLE16 memory ip
    copyMatch memory (ip + 2) cpy offset (token.toNat % 16)

/-- One pass of the safe loop. -/
def safePass (ip op : Nat) : Except Misuse Outcome := do
  let iend := memory.input.length
  let oend := memory.output.length
  let token ← memory.fetch ip
  let ip := ip + 1
  let length := token.toNat / 16
  if length ≠ runMask ∧ ip + 14 + 2 < iend ∧ op + 14 + 18 ≤ oend then
    let memory ← memory.copy op .input ip 16
    let op := op + length
    let ip := ip + length
    let length := token.toNat % 16
    let offset ← readLE16 memory ip
    let ip := ip + 2
    if length ≠ mlMask ∧ 8 ≤ offset ∧ offset ≤ op then
      let memory ← copy18 memory op (op - offset)
      return .safe ip (op + (length + minMatch)) memory
    else copyMatch memory ip op offset length
  else if length = runMask then
    (← readVariableLength memory ip (iend - runMask) true).andThen memory fun addl ip =>
      safeLiteralCopy memory token ip op (length + addl)
  else safeLiteralCopy memory token ip op length

/-- The fast loop where a match lies within the block. -/
def fastCopy (ip op offset length : Nat) : Except Misuse Outcome :=
  if op < offset then .ok (outputError memory ip)
  else do
    let cpy := op + length
    if offset < 16 then
      let memory ← memcpyUsingOffset memory op (op - offset) cpy offset
      return .fast ip cpy memory
    else
      let memory ← wildCopy32 memory op .output (op - offset) cpy
      return .fast ip cpy memory

/-- The fast loop behind the literals. -/
def fastMatch (token : UInt8) (ip op : Nat) : Except Misuse Outcome := do
  let oend := memory.output.length
  let offset ← readLE16 memory ip
  let ip := ip + 2
  let length := token.toNat % 16
  if length = mlMask then
    (← readVariableLength memory ip (memory.input.length - lastLiterals + 1) false).andThen memory fun addl ip =>
      let length := length + addl + minMatch
      if oend ≤ op + length + fastLoopSafeDistance then safeMatchCopy memory ip op offset length
      else fastCopy memory ip op offset length
  else
    let length := length + minMatch
    if oend ≤ op + length + fastLoopSafeDistance then safeMatchCopy memory ip op offset length
    else if offset ≤ op ∧ 8 ≤ offset then
      let memory ← copy18 memory op (op - offset)
      return .fast ip (op + length) memory
    else fastCopy memory ip op offset length

/-- One pass of the fast loop. -/
def fastPass (ip op : Nat) : Except Misuse Outcome := do
  let iend := memory.input.length
  let oend := memory.output.length
  let token ← memory.fetch ip
  let ip := ip + 1
  let length := token.toNat / 16
  if length = runMask then
    (← readVariableLength memory ip (iend - runMask) true).andThen memory fun addl ip =>
      let length := length + addl
      if oend < op + length + 32 ∨ iend < ip + length + 32 then safeLiteralCopy memory token ip op length
      else do
        let memory ← wildCopy32 memory op .input ip (op + length)
        fastMatch memory token (ip + length) (op + length)
  else if ip + (16 + 1) ≤ iend then
    let memory ← memory.copy op .input ip 16
    fastMatch memory token (ip + length) (op + length)
  else safeLiteralCopy memory token ip op length

end Passes

/-- Passes until the function returns, at most so many. -/
def decode : Nat → Outcome → Except Misuse Outcome
  | _, .returned code memory => .ok (.returned code memory)
  | 0, outcome => .ok outcome
  | rounds + 1, .fast ip op memory => do decode rounds (← fastPass memory ip op)
  | rounds + 1, .safe ip op memory => do decode rounds (← safePass memory ip op)

/-- `LZ4_decompress_safe`. Each pass reads a token, so there are no more of them than
bytes in the source. -/
def decompressSafe (source dest : Bytes) : Except Misuse Outcome :=
  let memory : Memory UInt8 := ⟨source, dest⟩
  if dest.length = 0 then .ok (.returned (if source = [0] then 0 else -1) memory)
  else if source.length = 0 then .ok (.returned (-1) memory)
  else if dest.length < fastLoopSafeDistance then decode source.length (.safe 0 0 memory)
  else decode source.length (.fast 0 0 memory)

end VirtualLan.LZ4
