import VirtualLan.Library.Cells
import VirtualLan.Lz4Encoder

/-! The optimal parser of `lz4hc.c`, `LZ4HC_compress_optimal`, up to the sequences that
it hands to the writer. It prices every position that a first match covers, searches
for matches from there, and takes the cheapest path. The search in the tables of the
context is a parameter; what it leaves of them is the state `σ`. -/

namespace VirtualLan.LZ4
open Cells

def optNum : Nat := 4096
def trailingLiterals : Nat := 3
def distanceMax : Nat := 65535

/-- `LZ4HC_optimal_t`. -/
structure Optimal where
  price : Int
  off : Nat
  mlen : Nat
  litlen : Nat

/-- `LZ4HC_match_t`, without `back`, which is zero here. -/
structure Match where
  off : Nat
  len : Nat

def literalsPrice (litlen : Nat) : Int :=
  if runMask ≤ litlen then litlen + (1 + (litlen - runMask) / 255 : Nat) else litlen

def sequencePrice (litlen mlen : Nat) : Except Fault Int := do
  require (minMatch ≤ mlen)
  let price := 1 + 2 + literalsPrice litlen
  return if mlMask + minMatch ≤ mlen then price + (1 + (mlen - (mlMask + minMatch)) / 255 : Nat) else price

/-- The settings of a compression level. -/
structure Level where
  nbSearches : Nat
  sufficientLen : Nat
  fullUpdate : Bool
  favorDecSpeed : Bool

/-- `LZ4HC_InsertAndGetWiderMatch` from a position on, for a match that is longer. -/
structure Finder (σ : Type) where
  start : σ
  widerMatch : σ → Nat → Nat → Except Fault (Match × σ)

/-- So many bytes from a place on stand `off` before as well, where the format allows a
match. -/
structure MatchAt (source : Bytes) (place off len : Nat) : Prop where
  long : minMatch ≤ len
  positive : 0 < off
  near : off ≤ distanceMax
  reaches : off ≤ place
  starts : place + mfLimit ≤ source.length
  ends : place + len + lastLiterals ≤ source.length
  same : ∀ index < len, source[place + index]? = source[place + index - off]?

/-- A search that never goes back in the source ends without a fault, and a longer
match that it hands over is one. A state is ready for all positions from one on. -/
structure Finder.Honest {σ : Type} (finder : Finder σ) (source : Bytes) (ready : σ → Nat → Prop) : Prop where
  start : ready finder.start 0
  wider : ∀ state seen ip minLen, ready state seen → seen ≤ ip → 0 < minLen → ip + mfLimit ≤ source.length →
    ip + minLen + lastLiterals ≤ source.length → ∃ md after, finder.widerMatch state ip minLen = .ok (md, after) ∧
      ready after ip ∧ (minLen < md.len → MatchAt source ip md.off md.len)

section Parser
variable {σ : Type} (level : Level) (finder : Finder σ) (source : Bytes)

def findLongerMatch (state : σ) (ip minLen : Nat) : Except Fault (Match × σ) := do
  let md ← finder.widerMatch state ip minLen
  if md.1.len ≤ minLen then return (⟨0, 0⟩, md.2)
  else if level.favorDecSpeed = true ∧ 18 < md.1.len ∧ md.1.len ≤ 36 then return ({ md.1 with len := 18 }, md.2)
  else return md

/-- The prices of the first positions, as literals. -/
def priceLiterals (opt : List (Option Optimal)) (llen : Nat) : Except Fault (List (Option Optimal)) :=
  (List.range' 0 minMatch).foldlM (fun opt rPos => write opt rPos ⟨literalsPrice (llen + rPos), 0, 1, llen + rPos⟩) opt

/-- The prices of the first match, at every length that it has. -/
def priceFirstMatch (opt : List (Option Optimal)) (llen : Nat) (firstMatch : Match) :
    Except Fault (List (Option Optimal)) := do
  require (firstMatch.len < optNum)
  (List.range' minMatch (firstMatch.len + 1 - minMatch)).foldlM (fun opt mlen => do
    write opt mlen ⟨← sequencePrice llen mlen, firstMatch.off, mlen, llen⟩) opt

def addTrailing (opt : List (Option Optimal)) (lastMatchPos : Nat) : Except Fault (List (Option Optimal)) :=
  (List.range' 1 trailingLiterals).foldlM (fun opt addLit => do
    let last ← read opt lastMatchPos
    write opt (lastMatchPos + addLit) ⟨last.price + literalsPrice addLit, 0, 1, addLit⟩) opt

/-- The positions right behind `cur`, as literals where that is cheaper. -/
def priceBefore (opt : List (Option Optimal)) (cur : Nat) : Except Fault (List (Option Optimal)) := do
  let baseLitlen := (← read opt cur).litlen
  (List.range' 1 (minMatch - 1)).foldlM (fun opt litlen => do
    let pos := cur + litlen
    let price := (← read opt cur).price - literalsPrice baseLitlen + literalsPrice (baseLitlen + litlen)
    if price < (← read opt pos).price then write opt pos ⟨price, 0, 1, baseLitlen + litlen⟩ else return opt) opt

/-- The table, and `last_match_pos`. -/
structure Prices where
  opt : List (Option Optimal)
  lastMatchPos : Nat

/-- The literals in front of a match at `cur`, and the price of all before it. -/
def priceHere (opt : List (Option Optimal)) (cur : Nat) : Except Fault (Nat × Int) := do
  let here ← read opt cur
  if here.mlen = 1 then
    let ll := here.litlen
    if ll < cur then return (ll, (← read opt (cur - ll)).price) else return (ll, 0)
  else return (0, here.price)

/-- Whether a price for a position is taken. Behind the trailing literals there is none
yet. -/
def isBetter (prices : Prices) (pos : Nat) (price : Int) : Except Fault Bool :=
  if prices.lastMatchPos + trailingLiterals < pos then return true
  else do
    let there ← read prices.opt pos
    return decide (price ≤ there.price - if level.favorDecSpeed then 1 else 0)

/-- The price of a match at `cur` that is cut to `ml` bytes. -/
def priceLength (cur : Nat) (newMatch : Match) (prices : Prices) (ml : Nat) : Except Fault Prices := do
  let pos := cur + ml
  let here ← priceHere prices.opt cur
  let price := here.2 + (← sequencePrice here.1 ml)
  if ← isBetter level prices pos price then
    require (pos < optNum)
    let opt ← write prices.opt pos ⟨price, newMatch.off, ml, here.1⟩
    return ⟨opt, if ml = newMatch.len ∧ prices.lastMatchPos < pos then pos else prices.lastMatchPos⟩
  else return prices

/-- The prices of a match at `cur`, at every length that it has. -/
def priceMatch (prices : Prices) (cur : Nat) (newMatch : Match) : Except Fault Prices := do
  require (cur + newMatch.len < optNum)
  (List.range' minMatch (newMatch.len + 1 - minMatch)).foldlM (priceLength level cur newMatch) prices

/-- What is left to encode: the path to `cur`, and the match there. -/
structure Choice where
  opt : List (Option Optimal)
  lastMatchPos : Nat
  cur : Nat
  best : Match

def chooseLast (prices : Prices) : Except Fault Choice := do
  require (prices.lastMatchPos < optNum + trailingLiterals)
  let last ← read prices.opt prices.lastMatchPos
  return ⟨prices.opt, prices.lastMatchPos, prices.lastMatchPos - last.mlen, ⟨last.off, last.mlen⟩⟩

/-- Whether it is not useful to search at `cur`. -/
def skips (opt : List (Option Optimal)) (cur : Nat) : Except Fault Bool := do
  let next ← read opt (cur + 1)
  let here ← read opt cur
  if here.price < next.price then return false
  else if level.fullUpdate then return decide ((← read opt (cur + minMatch)).price < here.price + 3)
  else return true

/-- The check of further positions, from `cur` on, for at most so many rounds. -/
def checkFurther (ip : Nat) : Nat → Nat → Prices → σ → Except Fault (Choice × σ)
  | 0, _, _, _ => .error .endless
  | rounds + 1, cur, prices, state =>
    if prices.lastMatchPos ≤ cur ∨ source.length < ip + cur + mfLimit then do return (← chooseLast prices, state)
    else do
      if ← skips level prices.opt cur then checkFurther ip rounds (cur + 1) prices state
      else
        let minLen := if level.fullUpdate then minMatch - 1 else prices.lastMatchPos - cur
        let newMatch ← findLongerMatch level finder state (ip + cur) minLen
        if newMatch.1.len = 0 then checkFurther ip rounds (cur + 1) prices newMatch.2
        else if min level.sufficientLen (optNum - 1) < newMatch.1.len ∨ optNum ≤ newMatch.1.len + cur then
          return (⟨prices.opt, cur + 1, cur, newMatch.1⟩, newMatch.2)
        else
          let opt ← priceBefore prices.opt cur
          let prices ← priceMatch level ⟨opt, prices.lastMatchPos⟩ cur newMatch.1
          let opt ← addTrailing prices.opt prices.lastMatchPos
          checkFurther ip rounds (cur + 1) ⟨opt, prices.lastMatchPos⟩ newMatch.2

/-- The reverse traversal: each position on the path gets the length of the step
behind it, in place of the one before it. -/
def reverse (opt : List (Option Optimal)) (candidatePos : Nat) (selected : Match) :
    Except Fault (List (Option Optimal)) := do
  let next ← read opt candidatePos
  let opt ← write opt candidatePos { next with mlen := selected.len, off := selected.off }
  if candidatePos < next.mlen then return opt
  else if 0 < next.mlen then reverse opt (candidatePos - next.mlen) ⟨next.off, next.mlen⟩
  else .error .assertion
termination_by candidatePos
decreasing_by omega

structure Encoding where
  sequences : List Sequence
  ip : Nat
  anchor : Nat

/-- The sequences of the path from `rPos` on. -/
def encodePath (opt : List (Option Optimal)) (lastMatchPos rPos ip anchor : Nat) : Except Fault Encoding :=
  if lastMatchPos ≤ rPos then .ok ⟨[], ip, anchor⟩
  else do
    let step ← read opt rPos
    if step.mlen = 1 then encodePath opt lastMatchPos (rPos + 1) (ip + 1) anchor
    else if minMatch ≤ step.mlen ∧ 1 ≤ step.off ∧ step.off ≤ distanceMax then do
      let later ← encodePath opt lastMatchPos (rPos + step.mlen) (ip + step.mlen) (ip + step.mlen)
      return { later with sequences := ⟨ip - anchor, step.mlen, step.off⟩ :: later.sequences }
    else .error .assertion
termination_by lastMatchPos - rPos
decreasing_by
  · omega
  · simp only [minMatch] at *
    omega

/-- The main loop, for at most so many rounds. -/
def optimal : Nat → Nat → Nat → List (Option Optimal) → σ → Except Fault (List Sequence)
  | 0, _, _, _, _ => .error .endless
  | rounds + 1, ip, anchor, opt, state =>
    if source.length < ip + mfLimit then return []
    else do
      let llen := ip - anchor
      let firstMatch ← findLongerMatch level finder state ip (minMatch - 1)
      if firstMatch.1.len = 0 then optimal rounds (ip + 1) anchor opt firstMatch.2
      else if min level.sufficientLen (optNum - 1) < firstMatch.1.len then
        let later ← optimal rounds (ip + firstMatch.1.len) (ip + firstMatch.1.len) opt firstMatch.2
        return ⟨llen, firstMatch.1.len, firstMatch.1.off⟩ :: later
      else
        let opt ← priceLiterals opt llen
        let opt ← priceFirstMatch opt llen firstMatch.1
        let opt ← addTrailing opt firstMatch.1.len
        let choice ← checkFurther level finder source ip optNum 1 ⟨opt, firstMatch.1.len⟩ firstMatch.2
        require (choice.1.cur < optNum)
        require (1 ≤ choice.1.lastMatchPos)
        let opt ← reverse choice.1.opt choice.1.cur choice.1.best
        let encoding ← encodePath opt choice.1.lastMatchPos 0 ip anchor
        let later ← optimal rounds encoding.ip encoding.anchor opt choice.2
        return encoding.sequences ++ later

/-- `LZ4HC_compress_optimal`. Nothing is in the table at first. -/
def compressOptimal : Except Fault (List Sequence) :=
  optimal level finder source (source.length + 1) 0 0 (List.replicate (optNum + trailingLiterals) none) finder.start

end Parser

end VirtualLan.LZ4
