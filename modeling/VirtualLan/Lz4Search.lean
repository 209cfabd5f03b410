import VirtualLan.Library.Words
import VirtualLan.Lz4Optimal

/-! The search of `lz4hc.c` for matches, `LZ4HC_InsertAndGetWiderMatch`, as the optimal
parser calls it: from `ip` on, with the pattern analysis and the choice of a better
chain, in a source without a dictionary. An index is a place in the source with
`dictLimit` added, and words are as on x64. Where the source would turn to a
dictionary, the model faults. -/

namespace VirtualLan.LZ4
open Words

def stepSize : Nat := 8

def read16 (source : Bytes) (ptr : Nat) : Except Fault Nat := read source 2 ptr
def read32 (source : Bytes) (ptr : Nat) : Except Fault Nat := read source 4 ptr
def readArch (source : Bytes) (ptr : Nat) : Except Fault Nat := read source stepSize ptr

/-- `_tzcnt_u64(val) >> 3`. -/
def nbCommonBytes (val : Nat) : Nat := (BitVec.ofNat (8 * stepSize) val).ctz.toNat >>> 3

/-- One of the steps at the end of `LZ4_count`, of so many bytes: how many it counts. -/
def countStep (source : Bytes) (pInLimit width pIn pMatch : Nat) : Except Fault Nat :=
  if pIn + (width - 1) < pInLimit then do
    if (← read source width pMatch) = (← read source width pIn) then return width else return 0
  else return 0

/-- Where `pIn` is at the end of `LZ4_count`. The first round of its loop stands before
the loop in the source. -/
def countLoop (source : Bytes) (pInLimit pIn pMatch : Nat) : Except Fault Nat :=
  if pIn + (stepSize - 1) < pInLimit then do
    let diff := (← readArch source pMatch) ^^^ (← readArch source pIn)
    if diff = 0 then countLoop source pInLimit (pIn + stepSize) (pMatch + stepSize) else return pIn + nbCommonBytes diff
  else do
    let four ← countStep source pInLimit 4 pIn pMatch
    let two ← countStep source pInLimit 2 (pIn + four) (pMatch + four)
    let one ← countStep source pInLimit 1 (pIn + four + two) (pMatch + four + two)
    return pIn + four + two + one
termination_by pInLimit - pIn
decreasing_by
  simp only [stepSize] at *
  omega

def count (source : Bytes) (pIn pMatch pInLimit : Nat) : Except Fault Nat := do
  return (← countLoop source pInLimit pIn pMatch) - pIn

def countPatternBytes (source : Bytes) (iEnd ip patternByte : Nat) : Except Fault Nat :=
  if ip < iEnd then do
    if (← read source 1 ip) = patternByte % 2 ^ 8 then countPatternBytes source iEnd (ip + 1) (patternByte >>> 8)
    else return ip
  else return ip
termination_by iEnd - ip

def countPatternLoop (source : Bytes) (iEnd pattern ip : Nat) : Except Fault Nat :=
  if ip + (stepSize - 1) < iEnd then do
    let diff := (← readArch source ip) ^^^ pattern
    if diff = 0 then countPatternLoop source iEnd pattern (ip + stepSize) else return ip + nbCommonBytes diff
  else countPatternBytes source iEnd ip pattern
termination_by iEnd - ip
decreasing_by
  simp only [stepSize] at *
  omega

def countPattern (source : Bytes) (ip iEnd pattern32 : Nat) : Except Fault Nat := do
  return (← countPatternLoop source iEnd (pattern32 + pattern32 <<< 32) ip) - ip

/-- The last loop of `LZ4HC_reverseCountPattern`, with so many bytes of the pattern
before `bytePtr`. -/
def reversePatternBytes (source : Bytes) (iLow pattern : Nat) : Nat → Nat → Except Fault Nat
  | 0, ip => if iLow < ip then .error .outOfBounds else .ok ip
  | left + 1, ip =>
    if iLow < ip then do
      if (← read source 1 (ip - 1)) = (pattern >>> (8 * left)) % 2 ^ 8 then
        reversePatternBytes source iLow pattern left (ip - 1)
      else return ip
    else .ok ip

def reversePatternLoop (source : Bytes) (iLow pattern ip : Nat) : Except Fault Nat :=
  if iLow + 4 ≤ ip then do
    if (← read32 source (ip - 4)) ≠ pattern then reversePatternBytes source iLow pattern 4 ip
    else reversePatternLoop source iLow pattern (ip - 4)
  else reversePatternBytes source iLow pattern 4 ip
termination_by ip
decreasing_by omega

def reverseCountPattern (source : Bytes) (ip iLow pattern : Nat) : Except Fault Nat := do
  return ip - (← reversePatternLoop source iLow pattern ip)

def hashLog : Nat := 15
def hashTableSize : Nat := 2 ^ hashLog
def maxD : Nat := 2 ^ 16

/-- `LZ4HC_CCtx_internal`. What a table has room for is in its type. -/
structure Context where
  hashTable : Fin hashTableSize → Nat
  chainTable : Fin maxD → Fin maxD
  dictLimit : Nat
  lowLimit : Nat
  nextToUpdate : Nat

/-- `HASH_FUNCTION`. -/
def hashFunction (i : Nat) : Fin hashTableSize where
  val := (i * 2654435761 % 2 ^ 32) >>> (minMatch * 8 - hashLog)
  isLt := by
    rw [Nat.shiftRight_eq_div_pow]
    exact Nat.div_lt_of_lt_mul (Nat.mod_lt _ (by decide))

def hashPtr (source : Bytes) (ptr : Nat) : Except Fault (Fin hashTableSize) := do
  return hashFunction (← read32 source ptr)

/-- The index of a position in the chain table, `(U16)pos`. -/
def cell (pos : Nat) : Fin maxD := ⟨pos % maxD, Nat.mod_lt _ (by decide)⟩

/-- What `LZ4_initStreamHC` and `LZ4HC_init_internal` make of a new context. -/
def Context.init : Context := ⟨fun _ => 0, fun _ => cell 0, 64 * 1024, 64 * 1024, 64 * 1024⟩

/-- `DELTANEXTU16(chainTable, pos)`. -/
def Context.deltaNext (context : Context) (pos : Nat) : Nat := context.chainTable (cell pos)

def insertAt (source : Bytes) (context : Context) (idx : Nat) : Except Fault Context := do
  let h ← hashPtr source (idx - context.dictLimit)
  let delta := min (sub32 idx (context.hashTable h)) distanceMax
  return { context with
    chainTable := Function.update context.chainTable (cell idx) (cell delta)
    hashTable := Function.update context.hashTable h idx }

/-- `LZ4HC_Insert`. -/
def insert (source : Bytes) (context : Context) (ip : Nat) : Except Fault Context := do
  let target := add32 ip context.dictLimit
  require (context.dictLimit ≤ target)
  let idx := context.nextToUpdate
  let context ← (List.range' idx (target - idx)).foldlM (insertAt source) context
  return { context with nextToUpdate := target }

def protectDictEnd (dictLimit matchIndex : Nat) : Bool := decide (3 ≤ sub32 (sub32 dictLimit 1) matchIndex)

inductive RepeatState where
  | untested
  | not
  | confirmed
  deriving DecidableEq

/-- The variables of the search. -/
structure Search where
  longest : Nat
  offset : Nat
  matchIndex : Nat
  matchChainPos : Nat
  repeated : RepeatState
  srcPatternLength : Nat

/-- Where a round of the search ends: before the next one, or behind the loop. -/
inductive Round where
  | next (search : Search)
  | stop (search : Search)

/-- The first index that the format can refer to. -/
def Context.lowestMatchIndex (context : Context) (ipIndex : Nat) : Nat :=
  if ipIndex < add32 context.lowLimit (distanceMax + 1) then context.lowLimit else sub32 ipIndex distanceMax

section Rounds
variable (favorDecSpeed : Bool) (source : Bytes) (context : Context) (ip pattern : Nat)

def ipIndex : Nat := add32 ip context.dictLimit
def iHighLimit : Nat := source.length - lastLiterals

/-- The comparison with the bytes at `matchIndex`: the length that it finds, which is
zero where the shorter tests fail. -/
def tryMatch (search : Search) : Except Fault (Nat × Search) :=
  if favorDecSpeed = true ∧ sub32 (ipIndex context ip) search.matchIndex < 8 then return (0, search)
  else if search.matchIndex < context.dictLimit then .error .outOfBounds
  else do
    let matchPtr := search.matchIndex - context.dictLimit
    require (matchPtr < ip)
    require (1 ≤ search.longest)
    if (← read16 source (ip + search.longest - 1)) = (← read16 source (matchPtr + search.longest - 1)) then
      if (← read32 source matchPtr) = pattern then
        let matchLength := minMatch + (← count source (ip + minMatch) (matchPtr + minMatch) (iHighLimit source))
        if search.longest < matchLength then
          return (matchLength,
            { search with longest := matchLength, offset := sub32 (ipIndex context ip) search.matchIndex })
        else return (matchLength, search)
      else return (0, search)
    else return (0, search)

/-- The choice of a chain among the positions of a match, for at most so many rounds:
the distance to the next match and the position in this one. -/
def selectChain (matchIndex stop : Nat) : Nat → Nat → Nat → Nat → Nat → Except Fault (Nat × Nat)
  | 0, _, _, _, _ => .error .endless
  | rounds + 1, pos, accel, distanceToNextMatch, matchChainPos =>
    if stop ≤ pos then return (distanceToNextMatch, matchChainPos)
    else
      let candidateDist := context.deltaNext (matchIndex + pos)
      let step := accel >>> 4
      if distanceToNextMatch < candidateDist then selectChain matchIndex stop rounds (pos + step) 16 candidateDist pos
      else selectChain matchIndex stop rounds (pos + step) (accel + 1) distanceToNextMatch matchChainPos

/-- The test for a pattern of one byte at `ip`. -/
def testRepeat (search : Search) : Except Fault Search :=
  if search.repeated = .untested then
    if pattern % 2 ^ 16 = pattern >>> 16 ∧ pattern % 2 ^ 8 = pattern >>> 24 then do
      let length ← countPattern source (ip + 4) (iHighLimit source) pattern
      return { search with repeated := .confirmed, srcPatternLength := length + 4 }
    else return { search with repeated := .not }
  else return search

/-- Follow the current chain. -/
def follow (search : Search) : Round :=
  .next { search with matchIndex := sub32 search.matchIndex (context.deltaNext (search.matchIndex + search.matchChainPos)) }

/-- The next index before the one of a pattern. -/
def skipPattern (search : Search) : Round :=
  let distToNextPattern := context.deltaNext search.matchIndex
  if search.matchIndex < distToNextPattern then .stop search
  else .next { search with matchIndex := search.matchIndex - distToNextPattern }

/-- A new index, moved into the source where a dictionary would end too close. -/
def adjust (search : Search) (newMatchIndex : Nat) (enough : Search → Except Fault Round) : Except Fault Round :=
  if protectDictEnd context.dictLimit newMatchIndex then enough { search with matchIndex := newMatchIndex }
  else do
    require (context.dictLimit - 3 ≤ newMatchIndex ∧ newMatchIndex < context.dictLimit)
    return .next { search with matchIndex := context.dictLimit }

/-- At the start of a segment of the pattern. -/
def takePattern (currentSegmentLength : Nat) (search : Search) : Except Fault Round :=
  let maxML := min currentSegmentLength search.srcPatternLength
  if search.longest < maxML then do
    require (search.matchIndex ≠ ip + context.dictLimit)
    if distanceMax < ip + context.dictLimit - search.matchIndex then return .stop search
    else
      require (maxML < 2 * 2 ^ 30)
      let offset := sub32 (ipIndex context ip) search.matchIndex
      return skipPattern context { search with longest := maxML, offset := offset }
  else return skipPattern context search

/-- A candidate that starts with the pattern as well. -/
def goodCandidate (lowestMatchIndex matchCandidateIdx matchPtr : Nat) (search : Search) : Except Fault Round := do
  let forwardPatternLength := (← countPattern source (matchPtr + 4) (iHighLimit source) pattern) + 4
  let backLength ← reverseCountPattern source matchPtr 0 pattern
  if matchPtr - backLength = 0 ∧ context.lowLimit < context.dictLimit then .error .outOfBounds
  else
    let backLength := sub32 matchCandidateIdx (max (sub32 matchCandidateIdx backLength) lowestMatchIndex)
    require (lowestMatchIndex ≤ sub32 matchCandidateIdx backLength)
    let currentSegmentLength := backLength + forwardPatternLength
    if search.srcPatternLength ≤ currentSegmentLength ∧ forwardPatternLength ≤ search.srcPatternLength then
      adjust context search (sub32 (add32 matchCandidateIdx forwardPatternLength) search.srcPatternLength)
        (fun search => return .next search)
    else adjust context search (sub32 matchCandidateIdx backLength) (takePattern context ip currentSegmentLength)

/-- The analysis of repeated patterns, where the next match is the byte before. -/
def analysePattern (lowestMatchIndex : Nat) (search : Search) : Except Fault Round :=
  if context.deltaNext search.matchIndex = 1 ∧ search.matchChainPos = 0 then do
    let matchCandidateIdx := sub32 search.matchIndex 1
    let search ← testRepeat source ip pattern search
    if search.repeated = .confirmed ∧ lowestMatchIndex ≤ matchCandidateIdx ∧
        protectDictEnd context.dictLimit matchCandidateIdx = true then
      if matchCandidateIdx < context.dictLimit then .error .outOfBounds
      else
        let matchPtr := matchCandidateIdx - context.dictLimit
        if (← read32 source matchPtr) = pattern then
          goodCandidate source context ip pattern lowestMatchIndex matchCandidateIdx matchPtr search
        else return follow context search
    else return follow context search
  else return follow context search

/-- What follows a comparison: a better chain behind the best match so far, or the
analysis of patterns. -/
def swapChain (lowestMatchIndex matchLength : Nat) (search : Search) : Except Fault Round :=
  if matchLength = search.longest ∧ add32 search.matchIndex search.longest ≤ ipIndex context ip then do
    let stop := search.longest + 1 - minMatch
    let choice ← selectChain context search.matchIndex stop (stop + 1) 0 16 1 search.matchChainPos
    let search := { search with matchChainPos := choice.2 }
    if 1 < choice.1 then
      if search.matchIndex < choice.1 then return .stop search
      else return .next { search with matchIndex := search.matchIndex - choice.1 }
    else analysePattern source context ip pattern lowestMatchIndex search
  else analysePattern source context ip pattern lowestMatchIndex search

def round (lowestMatchIndex : Nat) (search : Search) : Except Fault Round := do
  require (search.matchIndex < ipIndex context ip)
  let tried ← tryMatch favorDecSpeed source context ip pattern search
  swapChain source context ip pattern lowestMatchIndex tried.1 tried.2

def searchLoop (lowestMatchIndex : Nat) : Nat → Search → Except Fault Search
  | 0, search => return search
  | nbAttempts + 1, search =>
    if search.matchIndex < lowestMatchIndex then return search
    else do
      match ← round favorDecSpeed source context ip pattern lowestMatchIndex search with
      | .next search => searchLoop lowestMatchIndex nbAttempts search
      | .stop search => return search

end Rounds

/-- `LZ4HC_InsertAndGetWiderMatch`, for matches that start at `ip`. -/
def insertAndGetWiderMatch (level : Level) (source : Bytes) (context : Context) (ip longest : Nat) :
    Except Fault (Match × Context) := do
  let pattern ← read32 source ip
  let context ← insert source context ip
  let matchIndex := context.hashTable (← hashPtr source ip)
  let found ← searchLoop level.favorDecSpeed source context ip pattern (context.lowestMatchIndex (ipIndex context ip))
    level.nbSearches ⟨longest, 0, matchIndex, 0, .untested, 0⟩
  return (⟨found.offset, found.longest⟩, context)

/-- Searches one after the other, each with a place and a length to surpass. -/
def searches (level : Level) (source : Bytes) : Context → List (Nat × Nat) → Except Fault (List Match)
  | _, [] => return []
  | context, query :: queries => do
    let found ← insertAndGetWiderMatch level source context query.1 query.2
    return found.1 :: (← searches level source found.2 queries)

def chainFinder (level : Level) (source : Bytes) : Finder Context where
  start := Context.init
  widerMatch := insertAndGetWiderMatch level source

/-- The highest level, with which the client compresses. -/
def clevelMax : Level := ⟨16384, optNum, true, false⟩

end VirtualLan.LZ4
