import FuturesBot.Risk.Estimates

namespace FuturesBot
open Lib

/-- Costs move from the reward to the risk. The ratio falls if they weigh against it, whatever the
sign of the reward. -/
theorem ratio_falls {R K p q : ℚ} (hK : 0 < K) (hq : 0 < K + q) (h : 0 ≤ p * K + q * R) :
    (R - p) / (K + q) ≤ R / K := by
  rw [div_le_div_iff₀ hq hK]
  linarith [mul_add R K q, sub_mul R p K]

/-- The reward and the risk of a contract, after the fees. -/
def netReward (side : DecisionType) (entryPrice takeProfit entryRate exitRate : Amount) : Amount :=
  rewardPerUnit side entryPrice takeProfit - entryPrice * entryRate - takeProfit * exitRate

def netRisk (side : DecisionType) (entryPrice stopLoss entryRate exitRate : Amount) : Amount :=
  riskPerUnit side entryPrice stopLoss + entryPrice * entryRate + stopLoss * exitRate

/-- The prices of a trade that is worth an estimate. -/
structure CoherentPrices (side : DecisionType) (entryPrice stopLoss takeProfit : Amount) :
    Prop where
  directional : side ≠ .noOperar
  entry_pos : 0 < entryPrice
  stop_pos : 0 < stopLoss
  target_pos : 0 < takeProfit
  reward_pos : 0 < rewardPerUnit side entryPrice takeProfit
  risk_pos : 0 < riskPerUnit side entryPrice stopLoss

namespace CoherentPrices

variable (h : CoherentPrices side entryPrice stopLoss takeProfit)
include h

theorem ordered :
    side = .long ∧ stopLoss < entryPrice ∧ entryPrice < takeProfit ∨
    side = .short ∧ takeProfit < entryPrice ∧ entryPrice < stopLoss := by
  have hreward := h.reward_pos
  have hrisk := h.risk_pos
  cases side with
  | long => exact .inl ⟨rfl, sub_pos.mp hrisk, sub_pos.mp hreward⟩
  | short => exact .inr ⟨rfl, sub_pos.mp hreward, sub_pos.mp hrisk⟩
  | noOperar => exact absurd rfl h.directional

theorem netRisk_pos (ha : 0 ≤ entryRate) (hx : 0 ≤ exitRate) :
    0 < netRisk side entryPrice stopLoss entryRate exitRate := by
  have hentry := mul_nonneg h.entry_pos.le ha
  have hexit := mul_nonneg h.stop_pos.le hx
  have hrisk := h.risk_pos
  unfold netRisk
  linarith

/-- The reward and the risk together are what lies between the stop and the target. -/
theorem spread_nonneg (hx : 0 ≤ exitRate) (hx1 : exitRate < 1) :
    0 ≤ netRisk side entryPrice stopLoss entryRate exitRate +
      netReward side entryPrice takeProfit entryRate exitRate := by
  unfold netRisk netReward rewardPerUnit riskPerUnit
  rcases h.ordered with ⟨rfl, hs, ht⟩ | ⟨rfl, ht, hs⟩
  · have hpos : 0 ≤ (takeProfit - stopLoss) * (1 - exitRate) :=
      mul_nonneg (by linarith) (by linarith)
    simp only [if_true]
    linarith
  · have hpos : 0 ≤ (stopLoss - takeProfit) * (1 + exitRate) :=
      mul_nonneg (by linarith) (by linarith)
    simp only [reduceCtorEq, if_false]
    linarith

theorem weighted_nonneg (ha : 0 ≤ entryRate) (ha1 : entryRate < 1) :
    0 ≤ takeProfit * netRisk side entryPrice stopLoss entryRate exitRate +
      stopLoss * netReward side entryPrice takeProfit entryRate exitRate := by
  unfold netRisk netReward rewardPerUnit riskPerUnit
  have hentry := h.entry_pos
  rcases h.ordered with ⟨rfl, hs, ht⟩ | ⟨rfl, ht, hs⟩
  · have hpos : 0 ≤ entryPrice * ((takeProfit - stopLoss) * (1 + entryRate)) :=
      mul_nonneg hentry.le (mul_nonneg (by linarith) (by linarith))
    simp only [if_true]
    linarith
  · have hpos : 0 ≤ entryPrice * ((stopLoss - takeProfit) * (1 - entryRate)) :=
      mul_nonneg hentry.le (mul_nonneg (by linarith) (by linarith))
    simp only [reduceCtorEq, if_false]
    linarith

theorem falls_with_entryRate (ha : 0 ≤ a) (haa : a ≤ a') (hx : 0 ≤ x) (hx1 : x < 1) :
    netReward side entryPrice takeProfit a' x / netRisk side entryPrice stopLoss a' x ≤
      netReward side entryPrice takeProfit a x / netRisk side entryPrice stopLoss a x := by
  have hmore : 0 ≤ entryPrice * (a' - a) := mul_nonneg h.entry_pos.le (by linarith)
  have hspread : 0 ≤ netRisk side entryPrice stopLoss a x +
      netReward side entryPrice takeProfit a x := h.spread_nonneg hx hx1
  have hweigh := mul_nonneg hmore hspread
  have hrisk : netRisk side entryPrice stopLoss a' x =
      netRisk side entryPrice stopLoss a x + entryPrice * (a' - a) := by
    unfold netRisk
    ring
  have hreward : netReward side entryPrice takeProfit a' x =
      netReward side entryPrice takeProfit a x - entryPrice * (a' - a) := by
    unfold netReward
    ring
  rw [mul_add] at hweigh
  rw [hreward, hrisk]
  exact ratio_falls (h.netRisk_pos ha hx) (hrisk ▸ h.netRisk_pos (ha.trans haa) hx) hweigh

theorem falls_with_exitRate (ha : 0 ≤ a) (ha1 : a < 1) (hx : 0 ≤ x) (hxx : x ≤ x') :
    netReward side entryPrice takeProfit a x' / netRisk side entryPrice stopLoss a x' ≤
      netReward side entryPrice takeProfit a x / netRisk side entryPrice stopLoss a x := by
  have hmore : 0 ≤ x' - x := by linarith
  have hweighted : 0 ≤ takeProfit * netRisk side entryPrice stopLoss a x +
      stopLoss * netReward side entryPrice takeProfit a x := h.weighted_nonneg ha ha1
  have hweigh := mul_nonneg hmore hweighted
  have hrisk : netRisk side entryPrice stopLoss a x' =
      netRisk side entryPrice stopLoss a x + stopLoss * (x' - x) := by
    unfold netRisk
    ring
  have hreward : netReward side entryPrice takeProfit a x' =
      netReward side entryPrice takeProfit a x - takeProfit * (x' - x) := by
    unfold netReward
    ring
  rw [hreward, hrisk]
  refine ratio_falls (h.netRisk_pos ha hx) (hrisk ▸ h.netRisk_pos ha (hx.trans hxx)) ?_
  linarith

/-- Without fees the ratio is the gross one. -/
theorem net_le_gross (ha : 0 ≤ a) (ha1 : a < 1) (hx : 0 ≤ x) :
    netReward side entryPrice takeProfit a x / netRisk side entryPrice stopLoss a x ≤
      rewardPerUnit side entryPrice takeProfit / riskPerUnit side entryPrice stopLoss := by
  have hexit := h.falls_with_exitRate ha ha1 le_rfl hx
  have hentry := h.falls_with_entryRate le_rfl ha le_rfl one_pos
  simpa [netReward, netRisk] using hexit.trans hentry

end CoherentPrices

/-- The entry pays the rate of its order type. -/
def entryRateOf (entryType : EntryType) (rates : FeeRates) : Amount :=
  if entryType = .market then rates.taker else rates.maker

theorem entryRateOf_range (entryType : EntryType) (rates : FeeRates) :
    0 ≤ entryRateOf entryType rates ∧ entryRateOf entryType rates < 1 := by
  unfold entryRateOf
  split
  · exact rates.taker_range
  · exact rates.maker_range

/-- The fees of a round trip to the last digit, in USDT. -/
def exactEntryFee (notionalUsdt entryRate : Amount) : Amount := notionalUsdt * entryRate

def exactExitFee (notionalUsdt entryPrice exitPrice exitRate : Amount) : Amount :=
  notionalUsdt / entryPrice * exitPrice * exitRate

/-- What is won at the target over what is lost at the stop, both after the exact fees. -/
def exactNetRatio (side : DecisionType)
    (notionalUsdt entryPrice stopLoss takeProfit entryRate exitRate : Amount) : Amount :=
  (notionalUsdt / entryPrice * rewardPerUnit side entryPrice takeProfit -
      exactEntryFee notionalUsdt entryRate -
      exactExitFee notionalUsdt entryPrice takeProfit exitRate) /
    (notionalUsdt / entryPrice * riskPerUnit side entryPrice stopLoss +
      exactEntryFee notionalUsdt entryRate +
      exactExitFee notionalUsdt entryPrice stopLoss exitRate)

/-- The margin and the leverage scale both sides of the ratio. -/
theorem exactNetRatio_eq (hn : 0 < notionalUsdt) (he : 0 < entryPrice) :
    exactNetRatio side notionalUsdt entryPrice stopLoss takeProfit entryRate exitRate =
      netReward side entryPrice takeProfit entryRate exitRate /
        netRisk side entryPrice stopLoss entryRate exitRate := by
  have hquantity : notionalUsdt / entryPrice ≠ 0 := (div_pos hn he).ne'
  have hnotional : notionalUsdt = notionalUsdt / entryPrice * entryPrice :=
    (div_mul_cancel₀ notionalUsdt he.ne').symm
  have hentry : exactEntryFee notionalUsdt entryRate =
      notionalUsdt / entryPrice * (entryPrice * entryRate) := by
    rw [← mul_assoc, ← hnotional, exactEntryFee]
  rw [← mul_div_mul_left (netReward side entryPrice takeProfit entryRate exitRate)
    (netRisk side entryPrice stopLoss entryRate exitRate) hquantity, exactNetRatio, hentry,
    netReward, netRisk, exactExitFee, exactExitFee]
  congr 1
  · ring
  · ring

/-- What an estimate promises about a trade. -/
structure ConservativeFees (side : DecisionType) (entryType : EntryType)
    (notionalUsdt entryPrice stopLoss takeProfit : Amount) (rates : FeeRates)
    (e : FeeEstimate) : Prop where
  entryFee : exactEntryFee notionalUsdt (entryRateOf entryType rates) ≤ e.entryFeeUsdt
  exitFeeAtTp : exactExitFee notionalUsdt entryPrice takeProfit rates.taker ≤ e.exitFeeAtTpUsdt
  exitFeeAtSl : exactExitFee notionalUsdt entryPrice stopLoss rates.taker ≤ e.exitFeeAtSlUsdt
  underNet : e.netRiskReward ≤ exactNetRatio side notionalUsdt entryPrice stopLoss takeProfit
    (entryRateOf entryType rates) rates.taker
  underGross : e.netRiskReward ≤ e.grossRiskReward
  scaled : ∀ notionalUsdt', 0 < notionalUsdt' → ∃ e', estimateFees side entryType notionalUsdt'
    entryPrice stopLoss takeProfit rates = .ok e' ∧ e'.netRiskReward = e.netRiskReward
  falls : ∀ rates' : FeeRates, rates.maker ≤ rates'.maker → rates.taker ≤ rates'.taker →
    ∃ e', estimateFees side entryType notionalUsdt entryPrice stopLoss takeProfit rates' = .ok e' ∧
      e'.netRiskReward ≤ e.netRiskReward

theorem estimateFees_coherent (h : CoherentPrices side entryPrice stopLoss takeProfit)
    (ht : entryType ≠ .noEntry) (hn : 0 < notionalUsdt) (rates : FeeRates) :
    estimateFees side entryType notionalUsdt entryPrice stopLoss takeProfit rates = .ok
      { entryFeeUsdt := costQuantize (exactEntryFee notionalUsdt (entryRateOf entryType rates))
        exitFeeAtTpUsdt :=
          costQuantize (exactExitFee notionalUsdt entryPrice takeProfit rates.taker)
        exitFeeAtSlUsdt := costQuantize (exactExitFee notionalUsdt entryPrice stopLoss rates.taker)
        grossRiskReward := rrQuantize
          (rewardPerUnit side entryPrice takeProfit / riskPerUnit side entryPrice stopLoss)
        netRiskReward := rrQuantize
          (netReward side entryPrice takeProfit (entryRateOf entryType rates) rates.taker /
            netRisk side entryPrice stopLoss (entryRateOf entryType rates) rates.taker)
        entryRate := entryRateOf entryType rates
        exitRate := rates.taker } := by
  unfold estimateFees
  rw [if_neg h.directional, if_neg ht, if_neg (not_le.mpr hn),
    if_neg (by simp [h.entry_pos, h.stop_pos, h.target_pos]),
    if_neg (by simp [h.reward_pos, h.risk_pos])]
  rfl

theorem estimateFees_entryFee (h : estimateFees side entryType notionalUsdt entryPrice stopLoss
      takeProfit rates = .ok e) :
    e.entryFeeUsdt = costQuantize (exactEntryFee notionalUsdt (entryRateOf entryType rates)) := by
  unfold estimateFees at h
  split at h
  · cases h
  split at h
  · cases h
  split at h
  · cases h
  split at h
  · cases h
  split at h
  · cases h
  · cases h
    rfl

/-- The estimate never flatters a trade. -/
theorem fees_conservative (h : CoherentPrices side entryPrice stopLoss takeProfit)
    (ht : entryType ≠ .noEntry) (hn : 0 < notionalUsdt) (rates : FeeRates) :
    ∃ e, estimateFees side entryType notionalUsdt entryPrice stopLoss takeProfit rates = .ok e ∧
      ConservativeFees side entryType notionalUsdt entryPrice stopLoss takeProfit rates e := by
  have hestimate := fun {n : Amount} (hn : 0 < n) rates => estimateFees_coherent h ht hn rates
  obtain ⟨ha, ha1⟩ := entryRateOf_range entryType rates
  obtain ⟨hx, hx1⟩ := rates.taker_range
  have hquantity : 0 ≤ notionalUsdt / entryPrice := (div_pos hn h.entry_pos).le
  refine ⟨_, hestimate hn rates, ?_, ?_, ?_, ?_, ?_, ?_, ?_⟩
  · exact le_quantizeWith_roundUp _ (mul_nonneg hn.le ha)
  · exact le_quantizeWith_roundUp _ (mul_nonneg (mul_nonneg hquantity h.target_pos.le) hx)
  · exact le_quantizeWith_roundUp _ (mul_nonneg (mul_nonneg hquantity h.stop_pos.le) hx)
  · rw [exactNetRatio_eq hn h.entry_pos]
    exact quantizeWith_floor_le 4 _
  · exact quantizeWith_mono (fun _ _ h => Int.floor_mono h) (h.net_le_gross ha ha1 hx)
  · exact fun n hn' => ⟨_, hestimate hn' rates, rfl⟩
  · intro rates' hmaker htaker
    refine ⟨_, hestimate hn rates', quantizeWith_mono (fun _ _ h => Int.floor_mono h) ?_⟩
    obtain ⟨ha', ha1'⟩ := entryRateOf_range entryType rates'
    have hentry : entryRateOf entryType rates ≤ entryRateOf entryType rates' := by
      unfold entryRateOf
      split
      · exact htaker
      · exact hmaker
    exact (h.falls_with_exitRate ha' ha1' hx htaker).trans
      (h.falls_with_entryRate ha hentry hx hx1)

/-- Rates that eat up all of a small target. -/
def steepRates : FeeRates where
  maker := 1 / 100
  taker := 1 / 20
  maker_range := by norm_num
  taker_range := by norm_num

theorem small_target_conservative :
    ∃ e, estimateFees .short .limit 1000 100 110 99 steepRates = .ok e ∧
      ConservativeFees .short .limit 1000 100 110 99 steepRates e :=
  fees_conservative (by constructor <;> decide +kernel) (by decide) (by norm_num) steepRates

end FuturesBot
