import FuturesBot.Exchange.Conservation

namespace FuturesBot
open Lib

/-- The margin and the leverage of a position make up its notional. -/
def PositionState.MarginMatches (p : PositionState) : Prop :=
  p.marginUsdt * p.leverage = p.entryPrice * p.quantity

namespace PaperAdapter

/-- Every open position has the margin of its notional. -/
def MarginIdentity (a : PaperAdapter) : Prop :=
  ∀ s p, a.positions.get s = some p → p.MarginMatches

/-- The order is new and gets as far as the position of its symbol. -/
def Executes (req : OrderRequest) (a : PaperAdapter) : Prop :=
  a.orders.get req.clientOrderId = none ∧ req.orderType = .market ∧
  ∃ price fillPrice, req.price = some price ∧ fillPriceOf a.slip req price = .ok fillPrice ∧
    (req.isReduceOnly = false → Opens req fillPrice a)

/-- The order adds to an open position, or takes a part of it. -/
def Resizes (req : OrderRequest) (p : PositionState) : Prop :=
  if req.isReduceOnly then req.quantity < p.quantity else p.side = req.side

/-- The leverage that the margin of a resized position is booked with. -/
def bookedLeverage (req : OrderRequest) (p : PositionState) (a : PaperAdapter) : ℤ :=
  (a.leverage.get req.symbol).getD (if req.isReduceOnly then p.leverage else 1)

/-- An order that resizes a position is booked with the leverage of the position. -/
def KeepsLeverage (a : PaperAdapter) : PaperCall → Prop
  | .placeOrder req => Executes req a → ∀ p, a.positions.get req.symbol = some p →
    Resizes req p → bookedLeverage req p a = p.leverage
  | .cancelOrder _ | .setLeverage _ _ | .setMarginType _ _ | .applyFunding _ _ _ => True

theorem moved_error (h : moved req fillPrice a = (.error e, a')) : a'.positions = a.positions := by
  unfold moved at h
  split at h
  · unfold closeOrReducePosition at h
    split at h
    · cases h
    · dsimp only at h
      split at h
      · cases h
      · split at h
        · cases h
          rfl
        · cases h
  · rw [openOrNetPosition_eq] at h
    split at h
    · cases h
      rfl
    · cases h

/-- A fill reaches the position unless there would be no position to leave. -/
theorem moved_ok_iff (hl : LeverageInRange a) (req : OrderRequest) (fillPrice : Amount) :
    (∃ a', moved req fillPrice a = (.ok (), a')) ↔
      (req.isReduceOnly = false → Opens req fillPrice a) := by
  unfold moved
  cases hr : req.isReduceOnly with
  | true =>
    obtain ⟨a', h, -⟩ := closeOrReducePosition_ok req.symbol fillPrice hl req.valid.1
    simp [h]
  | false =>
    simp only [Bool.false_eq_true, if_false, true_imp_iff, openOrNetPosition_eq]
    rw [← newPosition_valid_iff hl]
    by_cases hv : (newPosition req fillPrice a).Valid
    · rw [PositionState.build_of_valid hv]
      exact iff_of_true ⟨_, rfl⟩ hv
    · rw [PositionState.build_of_invalid hv]
      refine iff_of_false ?_ hv
      rintro ⟨a', h⟩
      cases h

/-- An order either stops short of the position, or moves it. -/
theorem placeOrder_reaches (hl : LeverageInRange a) (req : OrderRequest) :
    (¬Executes req a ∧ (placeOrder req a).2.positions = a.positions) ∨
    ∃ fillPrice a₁, Executes req a ∧ moved req fillPrice (charged req fillPrice a) = (.ok (), a₁) ∧
      (placeOrder req a).2.positions = a₁.positions := by
  have hq : 0 < req.quantity := req.valid.1
  rcases hn : a.orders.get req.clientOrderId with _ | result
  · by_cases hm : req.orderType = .market
    · rcases hp : req.price with _ | price
      · refine .inl ⟨?_, ?_⟩
        · rintro ⟨-, -, price, fillPrice, hprice, -⟩
          rw [hp] at hprice
          cases hprice
        · simp only [placeOrder, hn, if_pos hm, fillMarketOrder, hp]
      · rcases hf : fillPriceOf a.slip req price with e | fillPrice
        · refine .inl ⟨?_, ?_⟩
          · rintro ⟨-, -, price', fillPrice, hprice, hfill, -⟩
            rw [hp] at hprice
            cases hprice
            rw [hf] at hfill
            cases hfill
          · rw [fillPriceOf] at hf
            simp only [placeOrder, hn, if_pos hm, fillMarketOrder, hp, hf]
        · rw [placeOrder_market hn hm hp hf]
          rcases hmv : moved req fillPrice (charged req fillPrice a) with ⟨e | u, a₁⟩
          · have hkept := moved_error hmv
            refine .inl ⟨?_, hkept⟩
            rintro ⟨-, -, price', fillPrice', hprice, hfill, hopens⟩
            rw [hp] at hprice
            cases hprice
            rw [hf] at hfill
            cases hfill
            obtain ⟨a₁', h⟩ := (moved_ok_iff (a := charged req fillPrice a) hl req fillPrice).mpr
              hopens
            rw [hmv] at h
            cases h
          · have hopens := (moved_ok_iff (a := charged req fillPrice a) hl req fillPrice).mp
              ⟨a₁, hmv⟩
            refine .inr ⟨fillPrice, a₁, ⟨hn, hm, price, fillPrice, hp, hf, hopens⟩, hmv, ?_⟩
            dsimp only
            split <;> rfl
    · refine .inl ⟨fun h => hm h.2.1, ?_⟩
      have hsame : (registerPendingOrder req a).2 = a := rfl
      simp only [placeOrder, hn, if_neg hm]
      rcases hreg : registerPendingOrder req a with ⟨e | result, a₁⟩
      all_goals
        rw [hreg] at hsame
        exact congrArg (·.positions) hsame
  · refine .inl ⟨?_, ?_⟩
    · rintro ⟨hnone, -⟩
      rw [hn] at hnone
      cases hnone
    · simp only [placeOrder, hn]

theorem margin_share_iff {notional : Amount} {l l' : ℤ} (hn : 0 < notional) (hl : 1 ≤ l) :
    notional / l * l' = notional ↔ l = l' := by
  have hl0 : (l : Amount) ≠ 0 := by
    have hpos : (0 : Amount) < l := by exact_mod_cast lt_of_lt_of_le Int.zero_lt_one hl
    exact hpos.ne'
  constructor
  · intro h
    have hmul : notional * l' = notional * l := by
      field_simp at h
      linear_combination notional * h
    exact_mod_cast (mul_left_cancel₀ hn.ne' hmul).symm
  · rintro rfl
    exact div_mul_cancel₀ notional hl0

theorem marginIdentity_set_iff {a a' : PaperAdapter} {p' : PositionState} (h : MarginIdentity a)
    (hpos : a'.positions = a.positions.set s p') : MarginIdentity a' ↔ p'.MarginMatches := by
  constructor
  · intro h'
    exact h' s p' (by rw [hpos, Dict.get_set_self])
  · intro hp' s' q hq
    rw [hpos, Dict.get_set] at hq
    split at hq
    · cases hq
      exact hp'
    · exact h s' q hq

/-- The part of a position that a reduction leaves. -/
theorem closeOrReducePosition_part (hp : a.positions.get symbol = some p)
    (hlt : quantity < p.quantity)
    (h : closeOrReducePosition symbol quantity fillPrice a = (.ok (), a')) :
    ∃ p', a'.positions = a.positions.set symbol p' ∧
      p'.marginUsdt = p.entryPrice * (p.quantity - quantity) /
        ((a.leverage.get symbol).getD p.leverage : ℤ) ∧
      p'.leverage = p.leverage ∧ p'.entryPrice = p.entryPrice ∧
      p'.quantity = p.quantity - quantity := by
  unfold closeOrReducePosition at h
  simp only [hp] at h
  rw [min_eq_left hlt.le, if_neg (not_le.mpr hlt)] at h
  split at h
  · cases h
  · rename_i p' hb
    cases h
    have hf := PositionState.build_ok hb
    exact ⟨p', rfl, congrArg (·.marginUsdt) hf, congrArg (·.leverage) hf,
      congrArg (·.entryPrice) hf, congrArg (·.quantity) hf⟩

/-- What a resize leaves has its margin just when it is booked with the leverage that the
position keeps. -/
theorem moved_marginIdentity_iff (hl : LeverageInRange a) (h : MarginIdentity a)
    (hm : moved req fillPrice a = (.ok (), a')) :
    MarginIdentity a' ↔ ∀ p, a.positions.get req.symbol = some p → Resizes req p →
      bookedLeverage req p a = p.leverage := by
  have hq : 0 < req.quantity := req.valid.1
  unfold moved at hm
  cases hr : req.isReduceOnly with
  | true =>
    rw [if_pos hr] at hm
    have hred := (closeOrReducePosition_reduced hm).1
    cases hp : a.positions.get req.symbol with
    | none =>
      simp only [Reduced, hp] at hred
      refine iff_of_true ?_ (fun p he => by cases he)
      unfold MarginIdentity
      rw [hred]
      exact h
    | some p =>
      by_cases hlt : req.quantity < p.quantity
      · obtain ⟨p', hpos, hmargin, hleverage, hentry, hquantity⟩ :=
          closeOrReducePosition_part hp hlt hm
        rw [marginIdentity_set_iff h hpos]
        simp only [Option.some.injEq, forall_eq', Resizes, hr, if_true, hlt, true_imp_iff,
          bookedLeverage]
        have hnotional : 0 < p.entryPrice * (p.quantity - req.quantity) :=
          mul_pos p.valid.2.1 (sub_pos.mpr hlt)
        have hone : 1 ≤ (a.leverage.get req.symbol).getD p.leverage := by
          cases hg : a.leverage.get req.symbol with
          | none => exact p.valid.2.2.2.2.1
          | some l => exact (hl _ l hg).1
        rw [PositionState.MarginMatches, hmargin, hleverage, hentry, hquantity]
        exact margin_share_iff hnotional hone
      · simp only [Reduced, hp, if_pos (not_lt.mp hlt)] at hred
        refine iff_of_true ?_ ?_
        · intro s q hq
          rw [hred, Dict.get_pop] at hq
          split at hq
          · cases hq
          · exact h s q hq
        · intro p₁ he hres
          cases he
          rw [Resizes, if_pos hr] at hres
          exact absurd hres hlt
  | false =>
    rw [if_neg (by simp [hr])] at hm
    obtain ⟨p', hp', rfl⟩ := openOrNetPosition_ok hm
    rw [marginIdentity_set_iff h rfl]
    have hL : (0 : Amount) < a.leverageOf req.symbol := by
      exact_mod_cast lt_of_lt_of_le Int.zero_lt_one (hl.leverageOf_pos req.symbol)
    have hnew : p'.toPositionStateFields = newPosition req fillPrice a := hp'
    unfold newPosition at hnew
    cases hp : a.positions.get req.symbol with
    | none =>
      simp only [hp] at hnew
      refine iff_of_true ?_ (fun p he => by cases he)
      simp only [PositionState.MarginMatches, hnew]
      field_simp
    | some p =>
      have hmatch : p.marginUsdt * p.leverage = p.entryPrice * p.quantity := h _ p hp
      have hmargin : 0 < p.marginUsdt := p.valid.2.2.2.1
      have htotal : 0 < p.quantity + req.quantity := add_pos p.valid.1 hq
      simp only [hp] at hnew
      by_cases hs : p.side ≠ req.side
      · rw [if_pos hs] at hnew
        refine iff_of_true ?_ ?_
        · simp only [PositionState.MarginMatches, hnew]
          field_simp
        · intro p₁ he hres
          cases he
          rw [Resizes, if_neg (by simp [hr])] at hres
          exact absurd hres hs
      · rw [if_neg hs] at hnew
        simp only [Option.some.injEq, forall_eq', Resizes, hr, Bool.false_eq_true, if_false,
          not_not.mp hs, true_imp_iff, bookedLeverage]
        simp only [PositionState.MarginMatches, hnew]
        rw [add_mul, div_mul_cancel₀ _ hL.ne', div_mul_cancel₀ _ htotal.ne', ← hmatch,
          add_left_inj, mul_right_inj' hmargin.ne', Int.cast_inj]
        rfl

theorem placeOrder_marginIdentity_iff (hl : LeverageInRange a) (h : MarginIdentity a)
    (req : OrderRequest) :
    MarginIdentity (placeOrder req a).2 ↔ KeepsLeverage a (.placeOrder req) := by
  rcases placeOrder_reaches hl req with ⟨hnot, hsame⟩ | ⟨fillPrice, a₁, hexec, hm, hsame⟩
  · refine iff_of_true ?_ (fun hexec => absurd hexec hnot)
    unfold MarginIdentity
    rw [hsame]
    exact h
  · have hiff := moved_marginIdentity_iff (a := charged req fillPrice a) hl h hm
    have hsettled : MarginIdentity (placeOrder req a).2 ↔ MarginIdentity a₁ := by
      rw [MarginIdentity, hsame]
      rfl
    rw [hsettled, hiff]
    exact ⟨fun hkeeps _ => hkeeps, fun hkeeps => hkeeps hexec⟩

/-- A call that leaves the identity is one that keeps the leverage of what it resizes. -/
theorem called_marginIdentity_iff (hl : LeverageInRange a) (h : MarginIdentity a)
    (hc : Called a c a') : MarginIdentity a' ↔ KeepsLeverage a c := by
  obtain ⟨now, r, hc⟩ := hc
  have ha : a' = (call now c a).2 := (congrArg Prod.snd hc).symm
  have hkept : a'.positions = a.positions → MarginIdentity a' := by
    intro hsame
    unfold MarginIdentity
    rw [hsame]
    exact h
  cases c with
  | placeOrder req =>
    rw [ha]
    exact placeOrder_marginIdentity_iff (a := { a with now := now }) hl h req
  | cancelOrder id =>
    refine iff_of_true (hkept ?_) trivial
    rw [ha]
    simp only [call, discard, cancelOrder]
    repeat' split
    all_goals rfl
  | setLeverage symbol leverage =>
    refine iff_of_true (hkept ?_) trivial
    rw [ha]
    simp only [call, setLeverage]
    split <;> rfl
  | setMarginType symbol marginType =>
    refine iff_of_true (hkept ?_) trivial
    rw [ha]
    simp only [call, setMarginType]
    split <;> rfl
  | applyFunding symbol fundingRate markPrice =>
    refine iff_of_true (hkept ?_) trivial
    rw [ha]
    simp only [call, applyFunding]
    split <;> rfl

/-- The margin identity holds all along a run just when every order that resizes a position is
booked with the leverage of that position. -/
theorem margin_identity_iff (h₀ : Fresh a₀) :
    Run (fun a c a' => Called a c a' ∧ MarginIdentity a') a₀ calls a ↔
      Run (Guarded Called KeepsLeverage) a₀ calls a := by
  obtain ⟨-, hpositions, hleverage, -⟩ := h₀
  apply Run.keeps_iff (J := LeverageInRange)
  · intro s l he
    rw [hleverage] at he
    cases he
  · intro s p he
    rw [hpositions] at he
    cases he
  · rintro a c a' hl ⟨now, r, hc⟩
    exact hl.call hc
  · intro a c a' hl hi hc
    exact called_marginIdentity_iff hl hi hc

def leverageCall (leverage : ℤ) : PaperCall := .setLeverage "BTCUSDT" leverage

/-- A position at one leverage, and then an addition to it, of the same size and price. -/
def addedUnder (leverage : ℤ) : List PaperCall :=
  [leverageCall 2, openCall, leverageCall leverage, .placeOrder (unitOrder "add" .buy false)]

/-- The simulation after some calls. -/
def calling (calls : List PaperCall) : PaperAdapter :=
  calls.foldl (fun a c => (call 0 c a).2) {}

theorem run_calling (calls : List PaperCall) : Run Called {} calls (calling calls) := by
  induction calls using List.reverseRecOn with
  | nil => exact .nil _
  | append_singleton calls c ih =>
    rw [calling, List.foldl_append]
    exact ih.snoc ⟨0, (call 0 c (calling calls)).1, rfl⟩

theorem same_leverage_identity :
    Run (fun a c a' => Called a c a' ∧ MarginIdentity a') {} (addedUnder 2)
      (calling (addedUnder 2)) := by
  have hstep : ∀ before c, KeepsLeverage (calling before) c →
      Guarded Called KeepsLeverage (calling before) c (calling (before ++ [c])) := by
    intro before c hc
    refine ⟨⟨0, (call 0 c (calling before)).1, ?_⟩, hc⟩
    rw [calling, calling, List.foldl_append]
    rfl
  have hopen : KeepsLeverage (calling [leverageCall 2]) openCall := by
    intro _ p hp
    cases hp
  have hbooked : ∀ p ∈ (calling [leverageCall 2, openCall, leverageCall 2]).positions.get "BTCUSDT",
      bookedLeverage (unitOrder "add" .buy false) p
        (calling [leverageCall 2, openCall, leverageCall 2]) = p.leverage := by decide +kernel
  have hadd : KeepsLeverage (calling [leverageCall 2, openCall, leverageCall 2])
      (.placeOrder (unitOrder "add" .buy false)) := by
    intro _ p hp _
    exact hbooked p hp
  refine (margin_identity_iff ⟨rfl, rfl, rfl, rfl⟩).mpr ?_
  have hfirst := (Run.nil _).snoc (hstep [] (leverageCall 2) trivial)
  have hopened := hfirst.snoc (hstep _ openCall hopen)
  have hagain := hopened.snoc (hstep _ (leverageCall 2) trivial)
  exact hagain.snoc (hstep _ _ hadd)

/-- The margin is booked under two leverages, and the position keeps the second. -/
theorem two_leverages_no_identity :
    ¬∀ (a₀ a : PaperAdapter) (calls : List PaperCall), Fresh a₀ → Run Called a₀ calls a →
      MarginIdentity a := by
  intro h
  have hmargin : ((calling (addedUnder 4)).positions.get "BTCUSDT").any
      (fun p : PositionState => p.marginUsdt * p.leverage ≠ p.entryPrice * p.quantity) = true := by
    decide +kernel
  obtain ⟨p, hp, hne⟩ := (Option.any_eq_true _ _).mp hmargin
  have hidentity := h {} _ _ ⟨rfl, rfl, rfl, rfl⟩ (run_calling (addedUnder 4)) "BTCUSDT" p hp
  exact of_decide_eq_true hne hidentity

end PaperAdapter

end FuturesBot
