import VirtualLan.Lz4Optimal
import VirtualLan.Proofs.BlockCodec

/-! The optimal parser. Whatever prices it compares, every position of its table keeps
a step that leads there from an earlier one, so that each path through the table
describes the source. -/

namespace VirtualLan.LZ4
open Cells

variable {σ : Type} {level : Level} {finder : Finder σ} {ready : σ → Nat → Prop} {source : Bytes}
  {opt after : List (Option Optimal)} {ip anchor place off len cur bound lastMatchPos seen : Nat} {entry : Optimal}

theorem MatchAt.shorter (found : MatchAt source place off len) {fewer : Nat} (long : minMatch ≤ fewer) (fits : fewer ≤ len) :
    MatchAt source place off fewer where
  long := long
  positive := found.positive
  near := found.near
  reaches := found.reaches
  starts := found.starts
  ends := by
    have ends := found.ends
    omega
  same index inside := found.same index (Nat.lt_of_lt_of_le inside fits)

theorem findLongerMatch_honest (honest : finder.Honest source ready) {state : σ} {minLen : Nat} (prepared : ready state seen)
    (forward : seen ≤ ip) (positive : 0 < minLen) (starts : ip + mfLimit ≤ source.length)
    (fits : ip + minLen + lastLiterals ≤ source.length) : ∃ md after,
    findLongerMatch level finder state ip minLen = .ok (md, after) ∧ ready after ip ∧
      (md.len ≠ 0 → MatchAt source ip md.off md.len) := by
  obtain ⟨md, after, found, prepared', wider⟩ := honest.wider state seen ip minLen prepared forward positive starts fits
  simp only [findLongerMatch, found, bind, Except.bind]
  split
  next => exact ⟨_, _, rfl, prepared', fun some => absurd rfl some⟩
  next longer =>
    have whole := wider (Nat.lt_of_not_le longer)
    split
    next favored =>
      have fewer : 18 ≤ md.len := Nat.le_of_lt favored.2.1
      exact ⟨_, _, rfl, prepared', fun _ => whole.shorter (by decide : 4 ≤ 18) fewer⟩
    next => exact ⟨_, _, rfl, prepared', fun _ => whole⟩

/-- A step that leads to a position: a literal or a match. -/
def Leads (source : Bytes) (ip pos : Nat) (entry : Optimal) : Prop :=
  entry.mlen ≤ pos ∧ (entry.mlen = 1 ∨ MatchAt source (ip + pos - entry.mlen) entry.off entry.mlen)

/-- The table up to a bound. -/
structure Filled (source : Bytes) (ip bound : Nat) (opt : List (Option Optimal)) : Prop where
  size : opt.length = optNum + trailingLiterals
  first : ∃ entry, Has opt 0 entry ∧ entry.mlen = 1
  leads : ∀ pos, 0 < pos → pos ≤ bound → ∃ entry, Has opt pos entry ∧ Leads source ip pos entry

theorem Filled.read (filled : Filled source ip bound opt) {pos : Nat} (positive : 0 < pos) (inside : pos ≤ bound) :
    ∃ entry, Cells.read opt pos = .ok entry ∧ Leads source ip pos entry := by
  obtain ⟨entry, has, leads⟩ := filled.leads pos positive inside
  exact ⟨entry, has.read, leads⟩

theorem Filled.fewer (filled : Filled source ip bound opt) {fewer : Nat} (fits : fewer ≤ bound) :
    Filled source ip fewer opt where
  size := filled.size
  first := filled.first
  leads pos positive inside := filled.leads pos positive (Nat.le_trans inside fits)

/-- Writing a step that leads to its position keeps the table, and fills it where it
stands right behind what is filled. -/
theorem Filled.write (filled : Filled source ip bound opt) {pos : Nat} (positive : 0 < pos)
    (inside : pos < optNum + trailingLiterals) (leads : Leads source ip pos entry) : ∃ after,
    Cells.write opt pos entry = .ok after ∧ ∀ more, (∀ other ≤ more, other ≤ bound ∨ other = pos) →
      Filled source ip more after := by
  have size := filled.size
  refine ⟨_, write_inside (by rw [size]; exact inside) entry, ?_⟩
  intro more covers
  refine ⟨by rw [List.length_set]; exact size, ?_, ?_⟩
  · obtain ⟨first, has, one⟩ := filled.first
    exact ⟨first, has.set (Nat.ne_of_gt positive), one⟩
  · intro other positive' inside'
    by_cases same : pos = other
    · subst same
      exact ⟨entry, has_set (by rw [size]; exact inside) entry, leads⟩
    · obtain old | new := covers other inside'
      · obtain ⟨kept, has, leads⟩ := filled.leads other positive' old
        exact ⟨kept, has.set same, leads⟩
      · exact absurd new.symm same

theorem leads_literal {pos : Nat} (positive : 0 < pos) (price : Int) (litlen : Nat) :
    Leads source ip pos ⟨price, 0, 1, litlen⟩ :=
  ⟨positive, .inl rfl⟩

theorem leads_match (found : MatchAt source (ip + cur) off len) (price : Int) (litlen : Nat) :
    Leads source ip (cur + len) ⟨price, off, len, litlen⟩ := by
  have place : ip + (cur + len) - len = ip + cur := by omega
  refine ⟨Nat.le_add_left len cur, .inr ?_⟩
  change MatchAt source (ip + (cur + len) - len) off len
  rwa [place]

theorem sequencePrice_ok (litlen : Nat) {mlen : Nat} (long : minMatch ≤ mlen) :
    ∃ price, sequencePrice litlen mlen = .ok price :=
  ⟨_, by rw [sequencePrice, require_true long]; rfl⟩

theorem priceLiterals_fills (llen : Nat) (size : opt.length = optNum + trailingLiterals) : ∃ after,
    priceLiterals opt llen = .ok after ∧ Filled source ip trailingLiterals after := by
  have step : ∀ rPos opt, 0 ≤ rPos → rPos < 0 + minMatch →
      (opt.length = optNum + trailingLiterals ∧ (0 < rPos → Filled source ip (rPos - 1) opt)) → ∃ after,
        write opt rPos ⟨literalsPrice (llen + rPos), 0, 1, llen + rPos⟩ = .ok after ∧
          after.length = optNum + trailingLiterals ∧ (0 < rPos + 1 → Filled source ip (rPos + 1 - 1) after) := by
    intro rPos opt _ inside holds
    obtain ⟨size, filled⟩ := holds
    by_cases first : rPos = 0
    · subst first
      have room : 0 < opt.length := by
        rw [size]
        decide
      refine ⟨_, write_inside room _, by rw [List.length_set]; exact size, ?_⟩
      intro _
      refine ⟨by rw [List.length_set]; exact size, ⟨_, has_set room _, rfl⟩, ?_⟩
      intro pos positive inside
      omega
    · have positive := Nat.pos_of_ne_zero first
      have small : rPos < optNum + trailingLiterals := by
        simp only [minMatch, optNum, trailingLiterals] at inside ⊢
        omega
      obtain ⟨after, written, fills⟩ := (filled positive).write positive small
        (leads_literal positive (literalsPrice (llen + rPos)) (llen + rPos))
      have filled' := fills rPos (by omega)
      exact ⟨after, written, filled'.size, fun _ => filled'⟩
  obtain ⟨after, folds, _, filled⟩ := foldlM_range' (fun rPos opt =>
    opt.length = optNum + trailingLiterals ∧ (0 < rPos → Filled source ip (rPos - 1) opt)) step
    ⟨size, fun positive => absurd positive (Nat.lt_irrefl 0)⟩
  exact ⟨after, folds, filled (by decide)⟩

theorem priceFirstMatch_fills {llen : Nat} (filled : Filled source ip trailingLiterals opt)
    (found : MatchAt source ip off len) (small : len < optNum) : ∃ after,
    priceFirstMatch opt llen ⟨off, len⟩ = .ok after ∧ Filled source ip len after := by
  have long := found.long
  have step : ∀ mlen opt, minMatch ≤ mlen → mlen < minMatch + (len + 1 - minMatch) →
      Filled source ip (mlen - 1) opt → ∃ after,
      ((sequencePrice llen mlen).bind fun price => write opt mlen ⟨price, off, mlen, llen⟩) = .ok after ∧
        Filled source ip (mlen + 1 - 1) after := by
    intro mlen opt enough inside filled
    have found' : MatchAt source (ip + 0) off mlen := found.shorter enough (by omega)
    obtain ⟨price, priced⟩ := sequencePrice_ok llen enough
    have leads := leads_match found' price llen
    rw [Nat.zero_add] at leads
    have positive : 0 < mlen := Nat.lt_of_lt_of_le (by decide) enough
    obtain ⟨after, written, fills⟩ := filled.write positive (by omega) leads
    refine ⟨after, ?_, fills mlen (by omega)⟩
    rw [priced]
    exact written
  obtain ⟨after, folds, filled'⟩ := foldlM_range' (fun mlen opt => Filled source ip (mlen - 1) opt) step filled
  have whole : minMatch + (len + 1 - minMatch) - 1 = len := by omega
  rw [whole] at filled'
  refine ⟨after, ?_, filled'⟩
  rw [priceFirstMatch, require_true small]
  exact folds

theorem addTrailing_fills (filled : Filled source ip bound opt) (positive : 0 < lastMatchPos) (inside : lastMatchPos ≤ bound)
    (small : lastMatchPos < optNum) : ∃ after, addTrailing opt lastMatchPos = .ok after ∧
      Filled source ip (lastMatchPos + trailingLiterals) after := by
  have step : ∀ addLit opt, 1 ≤ addLit → addLit < 1 + trailingLiterals → Filled source ip (lastMatchPos + addLit - 1) opt →
      ∃ after, ((read opt lastMatchPos).bind fun last =>
        write opt (lastMatchPos + addLit) ⟨last.price + literalsPrice addLit, 0, 1, addLit⟩) = .ok after ∧
          Filled source ip (lastMatchPos + (addLit + 1) - 1) after := by
    intro addLit opt first inside filled
    obtain ⟨last, found, _⟩ := filled.read positive (by omega)
    have positive' : 0 < lastMatchPos + addLit := by omega
    obtain ⟨after, written, fills⟩ := filled.write positive' (by omega)
      (leads_literal positive' (last.price + literalsPrice addLit) addLit)
    refine ⟨after, ?_, fills _ (by omega)⟩
    rw [found]
    exact written
  exact foldlM_range' (fun addLit opt => Filled source ip (lastMatchPos + addLit - 1) opt) step (filled.fewer inside)

theorem priceBefore_keeps (filled : Filled source ip (lastMatchPos + trailingLiterals) opt) (positive : 0 < cur)
    (before : cur < lastMatchPos) (small : lastMatchPos < optNum) : ∃ after, priceBefore opt cur = .ok after ∧
      Filled source ip (lastMatchPos + trailingLiterals) after := by
  obtain ⟨base, found, _⟩ := filled.read positive (by omega)
  have step : ∀ litlen opt, 1 ≤ litlen → litlen < 1 + (minMatch - 1) →
      Filled source ip (lastMatchPos + trailingLiterals) opt → ∃ after,
        ((read opt cur).bind fun here => (read opt (cur + litlen)).bind fun there =>
          if here.price - literalsPrice base.litlen + literalsPrice (base.litlen + litlen) < there.price then
            write opt (cur + litlen) ⟨here.price - literalsPrice base.litlen + literalsPrice (base.litlen + litlen), 0, 1,
              base.litlen + litlen⟩
          else .ok opt) = .ok after ∧ Filled source ip (lastMatchPos + trailingLiterals) after := by
    intro litlen opt first inside filled
    have room : cur + litlen ≤ lastMatchPos + trailingLiterals := by
      simp only [minMatch, trailingLiterals] at inside ⊢
      omega
    have positive' : 0 < cur + litlen := by omega
    obtain ⟨here, found, _⟩ := filled.read positive (by omega)
    obtain ⟨there, found', _⟩ := filled.read positive' room
    simp only [found, found', Except.bind]
    split
    · obtain ⟨after, written, fills⟩ := filled.write positive' (by omega) (leads_literal positive'
        (here.price - literalsPrice base.litlen + literalsPrice (base.litlen + litlen)) (base.litlen + litlen))
      exact ⟨after, written, fills _ (by omega)⟩
    · exact ⟨opt, rfl, filled⟩
  obtain ⟨after, folds, filled'⟩ :=
    foldlM_range' (fun _ opt => Filled source ip (lastMatchPos + trailingLiterals) opt) step filled
  refine ⟨after, ?_, filled'⟩
  simp only [priceBefore, found, bind, Except.bind]
  exact folds

theorem priceHere_ok (filled : Filled source ip bound opt) (positive : 0 < cur) (inside : cur ≤ bound) : ∃ ll price,
    priceHere opt cur = .ok (ll, price) := by
  obtain ⟨here, found, _⟩ := filled.read positive inside
  simp only [priceHere, found, bind, Except.bind]
  split
  · split
    next reaches =>
      obtain ⟨before, found', _⟩ := filled.read (Nat.sub_pos_of_lt reaches) (Nat.le_trans (Nat.sub_le _ _) inside)
      rw [found']
      exact ⟨_, _, rfl⟩
    next => exact ⟨_, _, rfl⟩
  · exact ⟨_, _, rfl⟩

theorem isBetter_ok {prices : Prices} {pos : Nat}
    (filled : Filled source ip (prices.lastMatchPos + trailingLiterals) prices.opt) (positive : 0 < pos) (price : Int) : ∃ better, isBetter level prices pos price = .ok better ∧
      (better = false → pos ≤ prices.lastMatchPos + trailingLiterals) := by
  unfold isBetter
  split
  next => exact ⟨true, rfl, by intro same; cases same⟩
  next inside =>
    obtain ⟨there, found, _⟩ := filled.read positive (Nat.le_of_not_lt inside)
    simp only [found, bind, Except.bind]
    exact ⟨_, rfl, fun _ => Nat.le_of_not_lt inside⟩

/-- Before a length is priced, those below it are. Only the last one may move the
last position of a match. -/
structure Pricing (source : Bytes) (ip cur len lastMatchPos ml : Nat) (prices : Prices) : Prop where
  filled : Filled source ip (max (lastMatchPos + trailingLiterals) (cur + ml - 1)) prices.opt
  last : prices.lastMatchPos = lastMatchPos ∨ prices.lastMatchPos = cur + len ∧ lastMatchPos < cur + len ∧ ml = len + 1

theorem priceLength_keeps {prices : Prices} {ml : Nat} (pricing : Pricing source ip cur len lastMatchPos ml prices)
    (positive : 0 < cur) (before : cur < lastMatchPos) (found : MatchAt source (ip + cur) off len)
    (small : cur + len < optNum) (enough : minMatch ≤ ml) (inside : ml ≤ len) : ∃ after,
    priceLength level cur ⟨off, len⟩ prices ml = .ok after ∧ Pricing source ip cur len lastMatchPos (ml + 1) after := by
  have last : prices.lastMatchPos = lastMatchPos := by
    obtain same | moved := pricing.last
    · exact same
    · omega
  have filled := pricing.filled
  have positive' : 0 < cur + ml := by omega
  have pos : cur + ml < optNum := by omega
  obtain ⟨ll, cost, here⟩ := priceHere_ok filled positive (by omega)
  obtain ⟨price, priced⟩ := sequencePrice_ok ll enough
  obtain ⟨better, compared, covers⟩ := @isBetter_ok level source ip prices (cur + ml)
    (by rw [last]; exact filled.fewer (Nat.le_max_left _ _)) positive' (cost + price)
  simp only [priceLength, here, priced, compared, bind, Except.bind]
  cases better with
  | false =>
    have covered := covers rfl
    rw [last] at covered
    exact ⟨prices, rfl, filled.fewer (by omega), .inl last⟩
  | true =>
    obtain ⟨opt, written, fills⟩ := filled.write positive' (Nat.lt_of_lt_of_le pos (Nat.le_add_right _ _))
      (leads_match (found.shorter enough inside) (cost + price) ll)
    rw [require_true pos]
    simp only [if_true, written]
    refine ⟨_, rfl, fills _ (by omega), ?_⟩
    by_cases final : ml = len ∧ prices.lastMatchPos < cur + ml
    · obtain ⟨rfl, farther⟩ := final
      refine .inr ⟨if_pos ⟨rfl, farther⟩, ?_, rfl⟩
      rwa [last] at farther
    · exact .inl ((if_neg final).trans last)

theorem priceMatch_fills (filled : Filled source ip (lastMatchPos + trailingLiterals) opt) (positive : 0 < cur)
    (before : cur < lastMatchPos) (found : MatchAt source (ip + cur) off len) (small : cur + len < optNum) : ∃ after,
    priceMatch level ⟨opt, lastMatchPos⟩ cur ⟨off, len⟩ = .ok after ∧
      Pricing source ip cur len lastMatchPos (len + 1) after := by
  have long := found.long
  have step : ∀ ml prices, minMatch ≤ ml → ml < minMatch + (len + 1 - minMatch) →
      Pricing source ip cur len lastMatchPos ml prices → ∃ after, priceLength level cur ⟨off, len⟩ prices ml = .ok after ∧
        Pricing source ip cur len lastMatchPos (ml + 1) after := by
    intro ml prices enough inside pricing
    exact priceLength_keeps pricing positive before found small enough (by omega)
  have entry : Pricing source ip cur len lastMatchPos minMatch ⟨opt, lastMatchPos⟩ := by
    refine ⟨filled.fewer ?_, .inl rfl⟩
    simp only [minMatch, trailingLiterals]
    omega
  obtain ⟨after, folds, pricing⟩ := foldlM_range' (Pricing source ip cur len lastMatchPos) step entry
  have whole : minMatch + (len + 1 - minMatch) = len + 1 := by omega
  rw [whole] at pricing
  refine ⟨after, ?_, pricing⟩
  rw [priceMatch, require_true small]
  exact folds

/-- The table while positions are checked. -/
structure Priced (source : Bytes) (ip : Nat) (prices : Prices) : Prop where
  filled : Filled source ip (prices.lastMatchPos + trailingLiterals) prices.opt
  positive : 0 < prices.lastMatchPos
  small : prices.lastMatchPos < optNum
  ends : ip + prices.lastMatchPos + lastLiterals ≤ source.length

/-- What is encoded: a path to `cur`, and a step from there to the end or beyond. -/
structure Chosen (source : Bytes) (ip : Nat) (choice : Choice) : Prop where
  filled : Filled source ip choice.cur choice.opt
  inside : choice.cur < choice.lastMatchPos
  small : choice.cur < optNum
  sound : choice.best.len = 1 ∨ MatchAt source (ip + choice.cur) choice.best.off choice.best.len
  reaches : choice.lastMatchPos ≤ choice.cur + choice.best.len
  ends : ip + choice.cur + choice.best.len ≤ source.length

theorem Leads.positive {pos : Nat} (leads : Leads source ip pos entry) : 0 < entry.mlen := by
  obtain one | found := leads.2
  · omega
  · exact Nat.lt_of_lt_of_le (by decide) found.long

theorem chooseLast_chosen {prices : Prices} (priced : Priced source ip prices) : ∃ choice,
    chooseLast prices = .ok choice ∧ choice.lastMatchPos = prices.lastMatchPos ∧ Chosen source ip choice := by
  have filled := priced.filled
  have positive := priced.positive
  have small := priced.small
  have ends := priced.ends
  obtain ⟨last, found, leads⟩ := filled.read positive (Nat.le_add_right _ _)
  have some := leads.positive
  have fits := leads.1
  have bounded : prices.lastMatchPos < optNum + trailingLiterals := Nat.lt_of_lt_of_le small (Nat.le_add_right _ _)
  simp only [chooseLast, require_true bounded, found, bind, Except.bind]
  refine ⟨_, rfl, rfl, filled.fewer (by simp only; omega), by simp only; omega, by simp only; omega, ?_,
    by simp only; omega, by simp only; omega⟩
  have place : ip + (prices.lastMatchPos - last.mlen) = ip + prices.lastMatchPos - last.mlen := by omega
  simp only [place]
  exact leads.2

theorem skips_ok (filled : Filled source ip (lastMatchPos + trailingLiterals) opt) (positive : 0 < cur)
    (before : cur < lastMatchPos) : ∃ skip, skips level opt cur = .ok skip := by
  obtain ⟨next, found, _⟩ := filled.read (Nat.succ_pos cur) (by omega)
  obtain ⟨here, found', _⟩ := filled.read positive (by omega)
  have room : cur + minMatch ≤ lastMatchPos + trailingLiterals := by
    simp only [minMatch, trailingLiterals]
    omega
  obtain ⟨later, found'', _⟩ := filled.read (by omega) room
  simp only [skips, found, found', bind, Except.bind]
  split
  · exact ⟨_, rfl⟩
  · split
    · rw [found'']
      exact ⟨_, rfl⟩
    · exact ⟨_, rfl⟩

/-- One round that prices a match at `cur`. -/
theorem priceRound_priced {prices : Prices} (priced : Priced source ip prices) (positive : 0 < cur)
    (before : cur < prices.lastMatchPos) (found : MatchAt source (ip + cur) off len) (small : cur + len < optNum) :
    ∃ opt after trailing, priceBefore prices.opt cur = .ok opt ∧
      priceMatch level ⟨opt, prices.lastMatchPos⟩ cur ⟨off, len⟩ = .ok after ∧
      addTrailing after.opt after.lastMatchPos = .ok trailing ∧
      prices.lastMatchPos ≤ after.lastMatchPos ∧ Priced source ip ⟨trailing, after.lastMatchPos⟩ := by
  have positive' := priced.positive
  have ends := found.ends
  obtain ⟨opt, first, filled⟩ := priceBefore_keeps priced.filled positive before priced.small
  obtain ⟨after, second, pricing⟩ := @priceMatch_fills level source opt ip off len cur prices.lastMatchPos filled positive
    before found small
  have farther : prices.lastMatchPos ≤ after.lastMatchPos := by
    obtain same | moved := pricing.last <;> omega
  have bounded : after.lastMatchPos < optNum := by
    have old := priced.small
    obtain same | moved := pricing.last <;> omega
  have covered : after.lastMatchPos ≤ max (prices.lastMatchPos + trailingLiterals) (cur + (len + 1) - 1) := by
    obtain same | moved := pricing.last <;> omega
  obtain ⟨trailing, third, filled'⟩ := addTrailing_fills pricing.filled (by omega) covered bounded
  refine ⟨opt, after, trailing, first, second, third, farther, filled', by simp only; omega, bounded, ?_⟩
  have old := priced.ends
  simp only
  obtain same | moved := pricing.last <;> omega

theorem checkFurther_chosen (honest : finder.Honest source ready) {rounds : Nat} {prices : Prices} {state : σ}
    (prepared : ready state seen) (forward : seen ≤ ip + cur) (priced : Priced source ip prices) (positive : 0 < cur)
    (inside : cur ≤ prices.lastMatchPos) (enough : optNum ≤ cur + rounds) : ∃ choice after last,
    checkFurther level finder source ip rounds cur prices state = .ok (choice, after) ∧ Chosen source ip choice ∧
      ready after last ∧ last ≤ ip + choice.cur + choice.best.len := by
  induction rounds generalizing cur seen prices state with
  | zero =>
    have small := priced.small
    omega
  | succ rounds ih =>
    rw [checkFurther]
    split
    next =>
      obtain ⟨choice, chosen, same, holds⟩ := chooseLast_chosen priced
      have reaches := holds.reaches
      rw [chosen]
      exact ⟨choice, state, seen, rfl, holds, prepared, by omega⟩
    next further =>
      have before : cur < prices.lastMatchPos := by omega
      have starts : ip + cur + mfLimit ≤ source.length := by omega
      obtain ⟨skip, skipped⟩ := @skips_ok level source prices.opt ip cur prices.lastMatchPos priced.filled positive before
      have next {state : σ} {seen : Nat} (prepared : ready state seen) (forward : seen ≤ ip + (cur + 1)) :
          ∃ choice after last, checkFurther level finder source ip rounds (cur + 1) prices state = .ok (choice, after) ∧
            Chosen source ip choice ∧ ready after last ∧ last ≤ ip + choice.cur + choice.best.len :=
        ih prepared forward priced (Nat.succ_pos cur) before (by omega)
      simp only [skipped, bind, Except.bind]
      split
      · exact next prepared (by omega)
      · have room : 0 < (if level.fullUpdate = true then minMatch - 1 else prices.lastMatchPos - cur) ∧
            ip + cur + (if level.fullUpdate = true then minMatch - 1 else prices.lastMatchPos - cur) + lastLiterals ≤
              source.length := by
          have ends := priced.ends
          simp only [minMatch, mfLimit, lastLiterals] at starts ends ⊢
          split <;> omega
        obtain ⟨md, after, found, prepared', matches'⟩ := @findLongerMatch_honest σ level finder ready source (ip + cur)
          seen honest state _ prepared forward room.1 starts room.2
        rw [found]
        simp only
        split
        next => exact next prepared' (by omega)
        next some =>
          have matched := matches' some
          split
          next long =>
            have enough := matched.long
            have ends := matched.ends
            have small := priced.small
            simp only [minMatch] at enough
            exact ⟨_, _, ip + cur, rfl, ⟨priced.filled.fewer (by simp only; omega), Nat.lt_succ_self cur,
              by simp only; omega, .inr matched, by simp only; omega, by simp only; omega⟩, prepared', by simp only; omega⟩
          next short =>
            have room : cur + md.len < optNum := by omega
            obtain ⟨opt, after', trailing, first, second, third, farther, priced'⟩ :=
              @priceRound_priced level source ip md.off md.len cur prices priced positive before matched room
            have second' : priceMatch level ⟨opt, prices.lastMatchPos⟩ cur md = .ok after' := second
            simp only [first, second', third]
            exact ih prepared' (by omega) priced' (Nat.succ_pos cur) (by simp only; omega) (by omega)

/-- The way of the encoding loop through the table, from a position to the end. -/
inductive Follows (source : Bytes) (ip : Nat) (opt : List (Option Optimal)) (last : Nat) : Nat → Nat → Prop where
  | stop {pos : Nat} (reached : last ≤ pos) : Follows source ip opt last pos pos
  | step {pos final : Nat} {entry : Optimal} (before : pos < last) (has : Has opt pos entry)
      (sound : entry.mlen = 1 ∨ MatchAt source (ip + pos) entry.off entry.mlen)
      (later : Follows source ip opt last (pos + entry.mlen) final) : Follows source ip opt last pos final

theorem reverse_follows {last final : Nat} {selected : Match} {candidate : Nat} (filled : Filled source ip candidate opt)
    (inside : candidate < optNum) (before : candidate < last)
    (sound : selected.len = 1 ∨ MatchAt source (ip + candidate) selected.off selected.len)
    (onward : ∀ after : List (Option Optimal), (∀ pos, candidate < pos → after[pos]? = opt[pos]?) →
      Follows source ip after last (candidate + selected.len) final) : ∃ after,
    reverse opt candidate selected = .ok after ∧ after.length = optNum + trailingLiterals ∧
      Follows source ip after last 0 final := by
  induction candidate using Nat.strongRecOn generalizing opt selected with
  | ind candidate ih =>
    have size := filled.size
    have room : candidate < opt.length := by omega
    -- Where the traversal has written the step, the encoding loop takes it.
    have takes (entry : Optimal) (after : List (Option Optimal))
        (kept : ∀ pos, candidate ≤ pos →
          after[pos]? = (opt.set candidate (some { entry with mlen := selected.len, off := selected.off }))[pos]?) :
        Follows source ip after last candidate final := by
      refine .step before ((kept candidate (Nat.le_refl _)).trans (has_set room _)) sound (onward after ?_)
      intro pos behind
      rw [kept pos (Nat.le_of_lt behind), List.getElem?_set_ne (Nat.ne_of_lt behind)]
    rw [reverse]
    by_cases start : candidate = 0
    · subst start
      obtain ⟨entry, has, one⟩ := filled.first
      simp only [has.read, write_inside room, one, Nat.zero_lt_one, if_true, bind, Except.bind]
      exact ⟨_, rfl, by rw [List.length_set]; exact size, takes entry _ (fun _ _ => rfl)⟩
    · have positive := Nat.pos_of_ne_zero start
      obtain ⟨entry, has, leads⟩ := filled.leads candidate positive (Nat.le_refl _)
      have back := leads.positive
      have fits := leads.1
      simp only [has.read, write_inside room, bind, Except.bind]
      rw [if_neg (Nat.not_lt_of_le fits), if_pos back]
      have place : ip + (candidate - entry.mlen) = ip + candidate - entry.mlen := by omega
      apply ih (candidate - entry.mlen) (by omega)
      · refine ⟨by rw [List.length_set]; exact size, ?_, ?_⟩
        · obtain ⟨first, has, one⟩ := filled.first
          exact ⟨first, has.set start, one⟩
        · intro pos positive inside
          obtain ⟨earlier, has, leads⟩ := filled.leads pos positive (by omega)
          exact ⟨earlier, has.set (by omega), leads⟩
      · omega
      · omega
      · rw [place]
        exact leads.2
      · intro after kept
        have there : candidate - entry.mlen + entry.mlen = candidate := Nat.sub_add_cancel fits
        simp only [there]
        exact takes entry after (fun pos behind => kept pos (by omega))

/-- A list of sequences with a match at each, and the place behind the last one. -/
inductive Chain (source : Bytes) : Nat → List Sequence → Nat → Prop where
  | stop (anchor : Nat) : Chain source anchor [] anchor
  | step {anchor final : Nat} {sequence : Sequence} {sequences : List Sequence}
      (found : MatchAt source (anchor + sequence.literals) sequence.offset sequence.length)
      (later : Chain source (anchor + sequence.literals + sequence.length) sequences final) :
      Chain source anchor (sequence :: sequences) final

theorem Chain.append {first second : List Sequence} {middle final : Nat} (chain : Chain source anchor first middle)
    (later : Chain source middle second final) : Chain source anchor (first ++ second) final := by
  induction chain with
  | stop => exact later
  | step found _ ih => exact .step found (ih later)

theorem encodePath_chain {pos final last : Nat} (follows : Follows source ip opt last pos final)
    (behind : anchor ≤ ip + pos) : ∃ encoding, encodePath opt last pos (ip + pos) anchor = .ok encoding ∧ encoding.ip = ip + final ∧
      Chain source anchor encoding.sequences encoding.anchor ∧ encoding.anchor ≤ encoding.ip ∧ last ≤ final := by
  induction follows generalizing anchor with
  | stop reached =>
    rw [encodePath, if_pos reached]
    exact ⟨_, rfl, rfl, .stop anchor, behind, reached⟩
  | @step pos final entry before has sound later ih =>
    rw [encodePath, if_neg (Nat.not_le_of_lt before)]
    simp only [has.read, bind, Except.bind]
    by_cases one : entry.mlen = 1
    · rw [one] at ih
      rw [if_pos one]
      exact ih (by omega)
    · have found := sound.resolve_left one
      have long := found.long
      have near : minMatch ≤ entry.mlen ∧ 1 ≤ entry.off ∧ entry.off ≤ distanceMax := ⟨long, found.positive, found.near⟩
      rw [if_neg one, if_pos near]
      obtain ⟨encoding, same, reached, chain, ahead, done⟩ := @ih (ip + (pos + entry.mlen)) (Nat.le_refl _)
      rw [← Nat.add_assoc] at same chain
      rw [same]
      refine ⟨_, rfl, reached, .step ?_ ?_, ahead, done⟩
      · have place : anchor + (ip + pos - anchor) = ip + pos := Nat.add_sub_cancel' behind
        simp only [place]
        exact found
      · have place : anchor + (ip + pos - anchor) = ip + pos := Nat.add_sub_cancel' behind
        simp only [place]
        exact chain

/-- A first match that is short enough to look further. -/
theorem firstMatch_priced (llen : Nat) (size : opt.length = optNum + trailingLiterals) (found : MatchAt source ip off len)
    (small : len < optNum) : ∃ first second third, priceLiterals opt llen = .ok first ∧
      priceFirstMatch first llen ⟨off, len⟩ = .ok second ∧ addTrailing second len = .ok third ∧
      Priced source ip ⟨third, len⟩ := by
  have positive : 0 < len := Nat.lt_of_lt_of_le (by decide) found.long
  obtain ⟨first, one, filled⟩ := @priceLiterals_fills source opt ip llen size
  obtain ⟨second, two, filled'⟩ := @priceFirstMatch_fills source first ip off len llen filled found small
  obtain ⟨third, three, filled''⟩ := addTrailing_fills filled' positive (Nat.le_refl len) small
  exact ⟨first, second, third, one, two, three, filled'', positive, small, found.ends⟩

/-- The path that is chosen, encoded. -/
theorem Chosen.encodes {choice : Choice} (chosen : Chosen source ip choice) (behind : anchor ≤ ip) : ∃ opt encoding,
    reverse choice.opt choice.cur choice.best = .ok opt ∧ opt.length = optNum + trailingLiterals ∧
      encodePath opt choice.lastMatchPos 0 ip anchor = .ok encoding ∧ encoding.ip = ip + choice.cur + choice.best.len ∧
      Chain source anchor encoding.sequences encoding.anchor ∧ encoding.anchor ≤ encoding.ip := by
  obtain ⟨opt, reversed, size, follows⟩ := reverse_follows chosen.filled chosen.small chosen.inside chosen.sound
    (fun after _ => .stop chosen.reaches)
  obtain ⟨encoding, encoded, reached, chain, ahead, _⟩ := encodePath_chain follows behind
  rw [← Nat.add_assoc] at reached
  exact ⟨opt, encoding, reversed, size, encoded, reached, chain, ahead⟩

theorem optimal_chain (honest : finder.Honest source ready) {rounds : Nat} {state : σ}
    (size : opt.length = optNum + trailingLiterals) (prepared : ready state seen) (forward : seen ≤ ip) (behind : anchor ≤ ip)
    (inside : ip ≤ source.length) (enough : source.length < ip + rounds) : ∃ sequences final,
    optimal level finder source rounds ip anchor opt state = .ok sequences ∧ Chain source anchor sequences final := by
  induction rounds generalizing ip anchor seen opt state with
  | zero => omega
  | succ rounds ih =>
    rw [optimal]
    split
    next => exact ⟨[], anchor, rfl, .stop anchor⟩
    next room =>
      have starts : ip + mfLimit ≤ source.length := Nat.le_of_not_lt room
      have fits : ip + (minMatch - 1) + lastLiterals ≤ source.length := by
        simp only [mfLimit, minMatch, lastLiterals] at starts ⊢
        omega
      obtain ⟨firstMatch, after, found, prepared', matches'⟩ := @findLongerMatch_honest σ level finder ready source ip seen
        honest state (minMatch - 1) prepared forward (by decide) starts fits
      simp only [found, bind, Except.bind]
      split
      next => exact ih size prepared' (by omega) (by omega) (by simp only [mfLimit] at starts; omega) (by omega)
      next some =>
        have matched := matches' some
        have long := matched.long
        have ends := matched.ends
        simp only [minMatch] at long
        split
        next =>
          obtain ⟨later, final, same, chain⟩ := @ih opt (ip + firstMatch.len) (ip + firstMatch.len) ip after size prepared'
            (by omega) (Nat.le_refl _) (by omega) (by omega)
          have place : anchor + (ip - anchor) = ip := Nat.add_sub_cancel' behind
          rw [same]
          refine ⟨_, final, rfl, .step ?_ ?_⟩
          · simp only [place]
            exact matched
          · simp only [place]
            exact chain
        next short =>
          have small : firstMatch.len < optNum := by
            simp only [optNum] at short ⊢
            omega
          obtain ⟨first, second, third, one, two, three, priced⟩ := firstMatch_priced (ip - anchor) size matched small
          have two' : priceFirstMatch first (ip - anchor) firstMatch = .ok second := two
          obtain ⟨choice, after', final', checked, chosen, prepared'', reaches'⟩ := @checkFurther_chosen σ level finder ready
            source ip 1 ip honest optNum ⟨third, firstMatch.len⟩ after prepared' (by omega) priced Nat.one_pos
            (by simp only; omega) (Nat.le_add_left _ _)
          obtain ⟨table, encoding, reversed, size', encoded, reached, chain, ahead⟩ := chosen.encodes behind
          have before := chosen.inside
          have reaches := chosen.reaches
          have fits' := chosen.ends
          have last : 1 ≤ choice.lastMatchPos := Nat.lt_of_le_of_lt (Nat.zero_le _) before
          obtain ⟨later, final, same, chain'⟩ := @ih table encoding.ip encoding.anchor _ after' size' prepared'' (by omega)
            ahead (by omega) (by omega)
          simp only [one, two', three, checked, require_true chosen.small, require_true last, reversed, encoded, same]
          exact ⟨_, final, rfl, chain.append chain'⟩

theorem Chain.parses {sequences : List Sequence} {final : Nat} (chain : Chain source anchor sequences final)
    (inside : anchor ≤ source.length) : Parses (source.take anchor) (source.drop anchor) sequences := by
  induction chain with
  | stop => exact .done _ _
  | @step anchor final sequence sequences found later ih =>
    have starts := found.starts
    have ends := found.ends
    have near := found.near
    have reaches := found.reaches
    have size : (source.take anchor).length = anchor := by rw [List.length_take, Nat.min_eq_left inside]
    have left : (source.drop anchor).length = source.length - anchor := List.length_drop
    refine .next ⟨found.long, found.positive, ?_, ?_, ?_, ?_, ?_⟩ ?_
    · simp only [distanceMax] at near
      omega
    · rwa [size]
    · rw [left]
      omega
    · rw [left]
      omega
    · rw [size, List.take_append_drop]
      exact found.same
    · have behind := ih (by omega)
      rwa [Nat.add_assoc, List.take_add, ← List.drop_drop] at behind

theorem compressOptimal_parses (honest : finder.Honest source ready) : ∃ sequences,
    compressOptimal level finder source = .ok sequences ∧ Parses [] source sequences := by
  have start : (List.replicate (optNum + trailingLiterals) (none : Option Optimal)).length = optNum + trailingLiterals :=
    List.length_replicate
  obtain ⟨sequences, final, same, chain⟩ := @optimal_chain σ level finder ready source _ 0 0 0 honest (source.length + 1)
    finder.start start honest.start (Nat.le_refl 0) (Nat.le_refl 0) (Nat.zero_le _) (by omega)
  exact ⟨sequences, same, chain.parses (Nat.zero_le _)⟩

end VirtualLan.LZ4
