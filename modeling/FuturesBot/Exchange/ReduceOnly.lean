import FuturesBot.Exchange.Conservation

namespace FuturesBot
open Lib

namespace PaperAdapter

/-- The position of the symbol, if there is one, is on the side of the order. -/
def Unopposed (req : OrderRequest) (a : PaperAdapter) : Prop :=
  ∀ p, a.positions.get req.symbol = some p → p.side = req.side

/-- The result says what the order has taken off the position, and what that costs. -/
structure ReportsReduction (req : OrderRequest) (a : PaperAdapter) (result : OrderResult)
    (a' : PaperAdapter) : Prop where
  quantity : result.quantityFilled = a.held req.symbol - a'.held req.symbol
  fee : result.feeUsdt = a.fee.calculate (quantize (result.fillPrice.getD 0 *
    (a.held req.symbol - a'.held req.symbol))) req.orderType.modelType
  nothing : Unopposed req a → result.quantityFilled = 0 ∧ result.feeUsdt = 0

/-- A new order finds all that it asks for on the other side, and one that is known already
has reported nothing. -/
def Reducible (req : OrderRequest) (a : PaperAdapter) : Prop :=
  match a.orders.get req.clientOrderId with
  | some result => result.quantityFilled = 0 ∧ result.feeUsdt = 0
  | none => ∃ p, a.positions.get req.symbol = some p ∧ p.side ≠ req.side ∧
    req.quantity ≤ p.quantity

theorem calculate_zero (fee : FeeModel) (t : ModelOrderType) : fee.calculate 0 t = 0 := by
  simp [FeeModel.calculate]

/-- What a new order takes off the position. -/
theorem held_decrease (hn : a.orders.get req.clientOrderId = none) (hm : req.orderType = .market)
    (hr : req.isReduceOnly = true) (h : placeOrder req a = (.ok result, a')) :
    a.held req.symbol - a'.held req.symbol = min req.quantity (a.held req.symbol) := by
  have hheld := congrFun ((placeOrder_reduced hn hm hr h).1.held req.valid.1.le) req.symbol
  rw [Function.update_self] at hheld
  rw [hheld, sub_sub_cancel]

/-- A new order reports its whole quantity and the fee of it, whatever it has found. -/
theorem reports_whole_iff (hn : a.orders.get req.clientOrderId = none)
    (hm : req.orderType = .market) (hr : req.isReduceOnly = true)
    (h : placeOrder req a = (.ok result, a')) :
    ReportsReduction req a result a' ↔
      req.quantity ≤ a.held req.symbol ∧ ¬Unopposed req a := by
  have hq : 0 < req.quantity := req.valid.1
  have hdecrease := held_decrease hn hm hr h
  obtain ⟨price, fillPrice, a₁, hp, hf, hmv, hres, ha'⟩ := placeOrder_filled hn hm h
  have hfilled : result.quantityFilled = req.quantity := by rw [hres]; rfl
  constructor
  · intro hreports
    refine ⟨?_, ?_⟩
    · rw [← hfilled, hreports.quantity, hdecrease]
      exact min_le_right _ _
    · intro hunopposed
      have hzero := (hreports.nothing hunopposed).1
      rw [hfilled] at hzero
      exact hq.ne' hzero
  · rintro ⟨hle, hopposed⟩
    rw [min_eq_left hle] at hdecrease
    refine ⟨hfilled.trans hdecrease.symm, ?_, fun h => absurd h hopposed⟩
    rw [hdecrease, hres]
    rfl

/-- A reduce-only order on the market reports what it has done just when the position opposes
it and holds its whole quantity. -/
theorem reduction_reported_iff (hm : req.orderType = .market) (hr : req.isReduceOnly = true)
    (h : placeOrder req a = (.ok result, a')) :
    ReportsReduction req a result a' ↔ Reducible req a := by
  have hq : 0 < req.quantity := req.valid.1
  unfold Reducible
  cases hn : a.orders.get req.clientOrderId with
  | some known =>
    simp only [placeOrder, hn] at h
    cases h
    constructor
    · intro hreports
      have hquantity := hreports.quantity
      have hfee := hreports.fee
      rw [sub_self] at hquantity hfee
      rw [mul_zero, quantize_zero, calculate_zero] at hfee
      exact ⟨hquantity, hfee⟩
    · rintro ⟨hquantity, hfee⟩
      refine ⟨?_, ?_, fun _ => ⟨hquantity, hfee⟩⟩
      · rw [sub_self, hquantity]
      · rw [sub_self, mul_zero, quantize_zero, calculate_zero, hfee]
  | none =>
    rw [reports_whole_iff hn hm hr h]
    unfold Unopposed
    cases hp : a.positions.get req.symbol with
    | none =>
      refine iff_of_false ?_ (by simp)
      rintro ⟨-, hopposed⟩
      exact hopposed (fun p he => by cases he)
    | some p =>
      rw [held_some hp]
      simp [and_comm]

theorem whole_reduction_reported : ∃ result a',
    placeOrder (unitOrder "close" .sell true) (after openCall ({}, {})).1 = (.ok result, a') ∧
    ReportsReduction (unitOrder "close" .sell true) (after openCall ({}, {})).1 result a' := by
  have hok : (placeOrder (unitOrder "close" .sell true) (after openCall ({}, {})).1).1.isOk =
      true := by decide +kernel
  have hside : ((after openCall ({}, {})).1.positions.get "BTCUSDT").any
      (fun p : PositionState => p.side ≠ .sell ∧ 1 ≤ p.quantity) = true := by decide +kernel
  have hnew : (after openCall ({}, {})).1.orders.get "close" = none :=
    Option.isNone_iff_eq_none.mp (by decide +kernel)
  rcases hplace : placeOrder (unitOrder "close" .sell true) (after openCall ({}, {})).1
    with ⟨e | result, a'⟩
  · rw [hplace] at hok
    cases hok
  · obtain ⟨p, hp, hfits⟩ := (Option.any_eq_true _ _).mp hside
    refine ⟨result, a', rfl, (reduction_reported_iff rfl rfl hplace).mpr ?_⟩
    unfold Reducible
    have hnone : (after openCall ({}, {})).1.orders.get
      (unitOrder "close" .sell true).clientOrderId = none := hnew
    rw [hnone]
    exact ⟨p, hp, of_decide_eq_true hfits⟩

/-- An order that reduces a position that is not there. -/
theorem nothing_reduced_reported :
    ¬∀ (a : PaperAdapter) (req : OrderRequest) (result : OrderResult) (a' : PaperAdapter),
      Reachable a → req.orderType = .market → req.isReduceOnly = true →
      placeOrder req a = (.ok result, a') → ReportsReduction req a result a' := by
  intro h
  have hfilled : (placeOrder (unitOrder "close" .sell true) {}).1.toOption.any
      (fun result => result.quantityFilled ≠ 0) = true := by decide +kernel
  obtain ⟨result, hresult, hne⟩ := (Option.any_eq_true _ _).mp hfilled
  rcases hplace : placeOrder (unitOrder "close" .sell true) {} with ⟨e | result', a'⟩
  · rw [hplace] at hresult
    cases hresult
  · rw [hplace] at hresult
    cases hresult
    have hreports := h {} _ result a' ⟨{}, [], ⟨rfl, rfl, rfl, rfl⟩, .nil _⟩ rfl rfl hplace
    have hunopposed : Unopposed (unitOrder "close" .sell true) {} := by
      intro p hp
      cases hp
    exact of_decide_eq_true hne (hreports.nothing hunopposed).1

end PaperAdapter

end FuturesBot
