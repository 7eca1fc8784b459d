import FuturesBot.Exchange.Atomicity
import Mathlib.Tactic.FieldSimp
import Mathlib.Tactic.LinearCombination

namespace FuturesBot
open Lib

def OrderSide.sign : OrderSide → Amount
  | .buy => 1
  | .sell => -1

/-- A filled order. What a reduce-only order has executed is what it has taken off the
position. -/
structure Fill where
  symbol : Symbol
  side : OrderSide
  executed : Amount
  price : Amount

def Fill.worth (f : Fill) (P : Symbol → Amount) : Amount :=
  f.side.sign * f.executed * (P f.symbol - f.price)

/-- What the calls have said they did. -/
structure PaperLedger where
  fees : Amount := 0
  funding : Amount := 0
  fills : List Fill := []

/-- The entry of a call that has returned. An identifier that was known already is not
entered again. -/
def PaperLedger.record (c : PaperCall) (a a' : PaperAdapter) (l : PaperLedger) : PaperLedger :=
  match c with
  | .placeOrder req =>
    match a.orders.get req.clientOrderId, a'.orders.get req.clientOrderId with
    | none, some result =>
      if result.status = .filled then
        { l with
          fees := l.fees + result.feeUsdt
          fills := l.fills ++ [
            { symbol := req.symbol, side := req.side,
              executed := if req.isReduceOnly then a.held req.symbol - a'.held req.symbol
                else result.quantityFilled,
              price := result.fillPrice.getD 0 }] }
      else l
    | _, _ => l
  | .applyFunding symbol fundingRate markPrice =>
    { l with funding := l.funding + (a.applyFunding symbol fundingRate markPrice).1 }
  | .cancelOrder _ | .setLeverage _ _ | .setMarginType _ _ => l

namespace PaperAdapter

def openWorth (P : Symbol → Amount) (s : Symbol) (p : PositionState) : Amount :=
  p.side.sign * p.quantity * (P s - p.entryPrice)

/-- The open positions at the prices `P`. -/
def openValue (a : PaperAdapter) (P : Symbol → Amount) : Amount := a.positions.sumOf (openWorth P)

/-- The balance and the open positions, with everything taken back that the ledger says
has been paid or earned. -/
def net (b : PaperAdapter × PaperLedger) (P : Symbol → Amount) : Amount :=
  b.1.balanceUsdt + b.1.openValue P + b.2.fees + b.2.funding - (b.2.fills.map (·.worth P)).sum

/-- Money is neither made nor lost, at any prices. -/
def Conserved (initial : Amount) (b : PaperAdapter × PaperLedger) : Prop :=
  ∀ P : Symbol → Amount, b.1.balanceUsdt + b.1.openValue P =
    initial - b.2.fees - b.2.funding + (b.2.fills.map (·.worth P)).sum

theorem conserved_iff_net : Conserved initial b ↔ ∀ P, net b P = initial := by
  unfold Conserved net
  refine forall_congr' fun P => ?_
  constructor
  · intro h
    linear_combination h
  · intro h
    linear_combination h

/-- A call that returns, entered in the ledger. -/
def BookStep (b : PaperAdapter × PaperLedger) (c : PaperCall)
    (b' : PaperAdapter × PaperLedger) : Prop :=
  ∃ now a', call now c b.1 = (.ok (), a') ∧ b' = (a', b.2.record c b.1 a')

/-- A new market order on a symbol with a position is reduce-only just when it is
against that position. -/
def SidesMatch (b : PaperAdapter × PaperLedger) : PaperCall → Prop
  | .placeOrder req => b.1.orders.get req.clientOrderId = none → req.orderType = .market →
    ∀ p, b.1.positions.get req.symbol = some p → (req.isReduceOnly = true ↔ req.side ≠ p.side)
  | _ => True

/-- What a market order makes or loses out of nothing: a reduction on the side of the
position, or a position that is replaced. -/
def gap (req : OrderRequest) (fillPrice : Amount) (a : PaperAdapter) (P : Symbol → Amount) :
    Amount :=
  match a.positions.get req.symbol with
  | none => 0
  | some p =>
    if req.isReduceOnly then
      (p.side.sign + req.side.sign) * min req.quantity p.quantity * (P req.symbol - fillPrice)
    else if p.side ≠ req.side then p.side.sign * p.quantity * (P req.symbol - p.entryPrice)
    else 0

/-- What a new market order that returns has done. -/
theorem placeOrder_filled (hn : a.orders.get req.clientOrderId = none)
    (hm : req.orderType = .market) (h : placeOrder req a = (.ok result, a')) :
    ∃ price fillPrice a₁, req.price = some price ∧ fillPriceOf a.slip req price = .ok fillPrice ∧
      moved req fillPrice (charged req fillPrice a) = (.ok (), a₁) ∧
      result.toOrderResultFields =
        filledFields req price fillPrice (feeOf a.fee req fillPrice) a₁.now ∧
      a' = { a₁ with orders := a₁.orders.set req.clientOrderId result } := by
  cases hp : req.price with
  | none =>
    simp only [placeOrder, hn, if_pos hm, fillMarketOrder, hp] at h
    cases h
  | some price =>
    cases hf : fillPriceOf a.slip req price with
    | error e =>
      rw [fillPriceOf] at hf
      simp only [placeOrder, hn, if_pos hm, fillMarketOrder, hp, hf] at h
      cases h
    | ok fillPrice =>
      rw [placeOrder_market hn hm hp hf] at h
      rcases hmv : moved req fillPrice (charged req fillPrice a) with ⟨e | u, a₁⟩
      · rw [hmv] at h
        cases h
      · rw [hmv] at h
        dsimp only at h
        split at h
        · cases h
        · rename_i result' hb
          cases h
          exact ⟨price, fillPrice, a₁, rfl, hf, hmv, OrderResult.build_ok hb, rfl⟩

theorem openOrNetPosition_ok (h : openOrNetPosition req fillPrice a = (.ok (), a')) :
    ∃ p, p.toPositionStateFields = newPosition req fillPrice a ∧
      a' = { a with positions := a.positions.set req.symbol p } := by
  rw [openOrNetPosition_eq] at h
  split at h
  · cases h
  · rename_i p hb
    cases h
    exact ⟨p, PositionState.build_ok hb, rfl⟩

/-- The realised part of a reduction. -/
theorem closeOrReducePosition_balance (hp : a.positions.get symbol = some p)
    (h : closeOrReducePosition symbol quantity fillPrice a = (.ok (), a')) :
    a'.balanceUsdt = a.balanceUsdt +
      p.side.sign * (fillPrice - p.entryPrice) * min quantity p.quantity := by
  unfold closeOrReducePosition at h
  simp only [hp] at h
  split at h
  · cases h
    cases p.side <;> simp [OrderSide.sign]
  · split at h <;> cases h
    cases p.side <;> simp [OrderSide.sign]

/-- The reduction of a position, in worth and in quantity. -/
theorem Reduced.openValue {a a' : PaperAdapter} (h : Reduced symbol quantity a a')
    (hp : a.positions.get symbol = some p) (P : Symbol → Amount) :
    a'.openValue P = a.openValue P -
      p.side.sign * min quantity p.quantity * (P symbol - p.entryPrice) := by
  have hw : Dict.worthOf (openWorth P) a.positions symbol =
      p.side.sign * p.quantity * (P symbol - p.entryPrice) := by
    rw [Dict.worthOf, hp]
    rfl
  simp only [Reduced, hp] at h
  unfold PaperAdapter.openValue
  by_cases hq : p.quantity ≤ quantity
  · rw [if_pos hq] at h
    have hsum := Dict.sumOf_pop a.positions symbol (openWorth P)
    rw [hw] at hsum
    rw [h, min_eq_right hq]
    linear_combination hsum
  · rw [if_neg hq] at h
    obtain ⟨p', hset, hquantity, hside, hentry⟩ := h
    have hsum := Dict.sumOf_set a.positions symbol p' (openWorth P)
    rw [hw] at hsum
    rw [hset, min_eq_left (not_le.mp hq).le]
    simp only [openWorth, hquantity, hside, hentry] at hsum ⊢
    linear_combination hsum

/-- A closing fill is worth what it takes off the position, if it is on the other side. -/
theorem net_reduce {a a₁ a' : PaperAdapter} (hr : req.isReduceOnly = true)
    (hmv : moved req fillPrice (charged req fillPrice a) = (.ok (), a₁))
    (hbal : a'.balanceUsdt = a₁.balanceUsdt) (hpos : a'.positions = a₁.positions)
    (P : Symbol → Amount) :
    a'.balanceUsdt + a'.openValue P + feeOf a.fee req fillPrice -
        req.side.sign * (a.held req.symbol - a'.held req.symbol) * (P req.symbol - fillPrice) =
      a.balanceUsdt + a.openValue P - gap req fillPrice a P := by
  have hq : 0 ≤ req.quantity := req.valid.1.le
  rw [moved, if_pos hr] at hmv
  have hvalue : a'.openValue P = a₁.openValue P := by rw [openValue, openValue, hpos]
  have hheld : a'.held req.symbol = a.held req.symbol - min req.quantity (a.held req.symbol) := by
    have h := congrFun ((closeOrReducePosition_reduced hmv).1.held hq) req.symbol
    rw [Function.update_self] at h
    have hsame : a'.held req.symbol = a₁.held req.symbol := by rw [held, held, hpos]
    exact hsame.trans h
  have hred := (closeOrReducePosition_reduced hmv).1
  rw [hheld, hbal, hvalue]
  unfold gap
  cases hp : a.positions.get req.symbol with
  | none =>
    have hsame : a₁ = charged req fillPrice a := by
      have hp' : (charged req fillPrice a).positions.get req.symbol = none := hp
      unfold closeOrReducePosition at hmv
      simp only [hp'] at hmv
      cases hmv
      rfl
    have hzero : a.held req.symbol = 0 := held_none hp
    rw [hsame, hzero, min_eq_right hq]
    simp only [charged, openValue]
    ring
  | some p =>
    have hp' : (charged req fillPrice a).positions.get req.symbol = some p := hp
    rw [closeOrReducePosition_balance hp' hmv, hred.openValue hp' P, held_some hp]
    simp only [hr, if_true, charged, openValue]
    ring

/-- An opening fill is worth what it adds, unless it replaces a position. -/
theorem net_open {a a₁ a' : PaperAdapter} (hr : req.isReduceOnly = false)
    (hmv : moved req fillPrice (charged req fillPrice a) = (.ok (), a₁))
    (hbal : a'.balanceUsdt = a₁.balanceUsdt) (hpos : a'.positions = a₁.positions)
    (P : Symbol → Amount) :
    a'.balanceUsdt + a'.openValue P + feeOf a.fee req fillPrice -
        req.side.sign * req.quantity * (P req.symbol - fillPrice) =
      a.balanceUsdt + a.openValue P - gap req fillPrice a P := by
  have hq : 0 < req.quantity := req.valid.1
  rw [moved, if_neg (by simp [hr])] at hmv
  obtain ⟨p', hp', ha₁⟩ := openOrNetPosition_ok hmv
  have hnew : p'.toPositionStateFields = newPosition req fillPrice a := hp'
  have hsum := Dict.sumOf_set a.positions req.symbol p' (openWorth P)
  have hvalue : a'.openValue P = (a.positions.set req.symbol p').sumOf (openWorth P) := by
    rw [openValue, hpos, ha₁]
    rfl
  have hbalance : a'.balanceUsdt = a.balanceUsdt - feeOf a.fee req fillPrice := by
    rw [hbal, ha₁]
    rfl
  rw [hvalue, hbalance, openValue]
  unfold newPosition at hnew
  unfold gap
  cases hp : a.positions.get req.symbol with
  | none =>
    simp only [hp] at hnew
    simp only [Dict.worthOf, hp, Option.elim_none, openWorth, hnew] at hsum
    linear_combination hsum
  | some p =>
    have hpq : 0 < p.quantity := p.valid.1
    simp only [hp] at hnew
    simp only [Dict.worthOf, hp, Option.elim_some] at hsum
    by_cases hs : p.side ≠ req.side
    · rw [if_pos hs] at hnew
      simp only [hr, Bool.false_eq_true, if_false, if_pos hs]
      simp only [openWorth, hnew] at hsum
      linear_combination hsum
    · rw [if_neg hs] at hnew
      simp only [hr, Bool.false_eq_true, if_false, if_neg hs]
      have hside : p.side = req.side := not_not.mp hs
      have hne : p.quantity + req.quantity ≠ 0 := (add_pos hpq hq).ne'
      have hworth : openWorth P req.symbol p' =
          req.side.sign * p.quantity * (P req.symbol - p.entryPrice) +
          req.side.sign * req.quantity * (P req.symbol - fillPrice) := by
        simp only [openWorth, hnew]
        field_simp
        ring
      rw [hworth, openWorth, hside] at hsum
      linear_combination hsum

/-- A call leaves what has been paid and earned as it was, but for the gap of an order. -/
theorem net_placeOrder (hn : a.orders.get req.clientOrderId = none)
    (hm : req.orderType = .market) (h : placeOrder req a = (.ok result, a')) :
    ∃ fillPrice, fillPriceOf a.slip req (req.price.getD 0) = .ok fillPrice ∧ ∀ P l,
      net (a', l.record (.placeOrder req) a a') P = net (a, l) P - gap req fillPrice a P := by
  obtain ⟨price, fillPrice, a₁, hp, hf, hmv, hres, ha'⟩ := placeOrder_filled hn hm h
  refine ⟨fillPrice, by rw [hp]; exact hf, ?_⟩
  intro P l
  have hget : a'.orders.get req.clientOrderId = some result := by rw [ha']; simp
  have hstatus : result.status = .filled := by rw [hres]; rfl
  have hbal : a'.balanceUsdt = a₁.balanceUsdt := by rw [ha']
  have hpos : a'.positions = a₁.positions := by rw [ha']
  have hfee : result.feeUsdt = feeOf a.fee req fillPrice := by rw [hres]; rfl
  have hprice : result.fillPrice = some fillPrice := by rw [hres]; rfl
  have hquantity : result.quantityFilled = req.quantity := by rw [hres]; rfl
  simp only [PaperLedger.record, hn, hget, if_pos hstatus, net, List.map_append, List.sum_append,
    List.map_cons, List.map_nil, List.sum_singleton, Fill.worth, hfee, hprice, hquantity,
    Option.getD_some]
  cases hr : req.isReduceOnly with
  | true =>
    have hnet := net_reduce hr hmv hbal hpos P
    simp only [if_true]
    linear_combination hnet
  | false =>
    have hnet := net_open hr hmv hbal hpos P
    simp only [Bool.false_eq_true, if_false]
    linear_combination hnet

/-- Where the sides match nothing is made or lost, and elsewhere some prices show it. -/
theorem gap_eq_zero_iff : (∀ P, gap req fillPrice a P = 0) ↔
    ∀ p, a.positions.get req.symbol = some p → (req.isReduceOnly = true ↔ req.side ≠ p.side) := by
  have hq : 0 < req.quantity := req.valid.1
  unfold gap
  cases hp : a.positions.get req.symbol with
  | none => simp
  | some p =>
    have hpq : 0 < p.quantity := p.valid.1
    have hmin : min req.quantity p.quantity ≠ 0 := (lt_min hq hpq).ne'
    have hsign : p.side.sign ≠ 0 := by cases p.side <;> simp [OrderSide.sign]
    simp only [Option.some.injEq, forall_eq']
    by_cases hs : p.side = req.side
    · cases hr : req.isReduceOnly with
      | true =>
        refine iff_of_false ?_ (by simp [hs])
        intro h
        have hone := h (fun _ => fillPrice + 1)
        have hsum : req.side.sign + req.side.sign ≠ 0 := by
          cases req.side <;> norm_num [OrderSide.sign]
        rw [if_pos rfl, hs] at hone
        exact mul_ne_zero (mul_ne_zero hsum hmin) (by simp) hone
      | false => simp [hs]
    · cases hr : req.isReduceOnly with
      | true =>
        refine iff_of_true ?_ (by simp [Ne.symm hs])
        intro P
        have hsum : p.side.sign + req.side.sign = 0 := by
          revert hs
          cases p.side <;> cases req.side <;> simp [OrderSide.sign]
        rw [if_pos rfl, hsum, zero_mul, zero_mul]
      | false =>
        refine iff_of_false ?_ (by simp [Ne.symm hs])
        intro h
        have hone := h (fun _ => p.entryPrice + 1)
        rw [if_neg (by simp), if_pos hs] at hone
        exact mul_ne_zero (mul_ne_zero hsign hpq.ne') (by simp) hone

theorem discard_ok {outcome : Except PyError α × PaperAdapter}
    (h : discard outcome = (.ok (), a')) : ∃ value, outcome = (.ok value, a') := by
  obtain ⟨r, a⟩ := outcome
  cases r with
  | error e => cases h
  | ok value =>
    cases h
    exact ⟨value, rfl⟩

/-- A call that leaves the balance and the positions alone. -/
theorem net_of_same {b : PaperAdapter × PaperLedger} (hbal : a'.balanceUsdt = b.1.balanceUsdt)
    (hpos : a'.positions = b.1.positions) (P : Symbol → Amount) : net (a', b.2) P = net b P := by
  simp only [net, openValue, hbal, hpos]

theorem placeOrder_step (h : BookStep b (.placeOrder req) b') :
    (∀ P, net b' P = net b P) ↔ SidesMatch b (.placeOrder req) := by
  obtain ⟨now, a', hc, rfl⟩ := h
  obtain ⟨result, hplace⟩ := discard_ok hc
  cases hn : b.1.orders.get req.clientOrderId with
  | some known =>
    have hsame : a' = { b.1 with now := now } := by
      simp only [placeOrder, hn] at hplace
      cases hplace
      rfl
    have hrecord : b.2.record (.placeOrder req) b.1 a' = b.2 := by
      simp only [PaperLedger.record, hn]
    refine iff_of_true ?_ ?_
    · intro P
      rw [hrecord]
      exact net_of_same (by rw [hsame]) (by rw [hsame]) P
    · intro hnone
      rw [hn] at hnone
      cases hnone
  | none =>
    by_cases hm : req.orderType = .market
    · have hn' : ({ b.1 with now := now } : PaperAdapter).orders.get req.clientOrderId = none := hn
      obtain ⟨fillPrice, _, hnet⟩ := net_placeOrder hn' hm hplace
      have hgap : ∀ P, net (a', b.2.record (.placeOrder req) b.1 a') P =
          net b P - gap req fillPrice b.1 P := fun P => hnet P b.2
      have hzero : (∀ P, net (a', b.2.record (.placeOrder req) b.1 a') P = net b P) ↔
          ∀ P, gap req fillPrice b.1 P = 0 := by
        refine forall_congr' fun P => ?_
        rw [hgap P]
        exact sub_eq_self
      rw [hzero, gap_eq_zero_iff]
      exact ⟨fun hall _ _ => hall, fun hall => hall hn hm⟩
    · refine iff_of_true ?_ (fun _ hmarket => absurd hmarket hm)
      simp only [placeOrder, hn, if_neg hm, registerPendingOrder] at hplace
      split at hplace
      · cases hplace
      · rename_i result' a₁ hb
        cases hplace
        obtain ⟨hbuild, rfl⟩ := Prod.mk.inj hb
        have hf := OrderResult.build_ok hbuild
        have hpending : result.status ≠ .filled := by rw [hf]; simp
        have hrecord : b.2.record (.placeOrder req) b.1
            { b.1 with orders := b.1.orders.set req.clientOrderId result, now := now } = b.2 := by
          simp only [PaperLedger.record, hn, Dict.get_set_self, if_neg hpending]
        intro P
        rw [hrecord]
        exact net_of_same rfl rfl P

/-- A call keeps what has been paid and earned just when its sides match. -/
theorem net_step (h : BookStep b c b') : (∀ P, net b' P = net b P) ↔ SidesMatch b c := by
  cases c with
  | placeOrder req => exact placeOrder_step h
  | cancelOrder id =>
    obtain ⟨now, a', hc, rfl⟩ := h
    obtain ⟨done, hcancel⟩ := discard_ok hc
    refine iff_of_true (net_of_same ?_ ?_) trivial
    all_goals
      unfold cancelOrder at hcancel
      repeat' split at hcancel
      all_goals cases hcancel <;> rfl
  | setLeverage symbol leverage =>
    obtain ⟨now, a', hc, rfl⟩ := h
    refine iff_of_true (net_of_same ?_ ?_) trivial
    all_goals
      simp only [call, setLeverage] at hc
      split at hc
      all_goals cases hc <;> rfl
  | setMarginType symbol marginType =>
    obtain ⟨now, a', hc, rfl⟩ := h
    refine iff_of_true (net_of_same ?_ ?_) trivial
    all_goals
      simp only [call, setMarginType] at hc
      split at hc
      all_goals cases hc <;> rfl
  | applyFunding symbol rate mark =>
    obtain ⟨now, a', hc, rfl⟩ := h
    refine iff_of_true ?_ trivial
    intro P
    have ha' : a' = (applyFunding symbol rate mark { b.1 with now := now }).2 := by
      cases hc
      rfl
    rw [ha']
    simp only [PaperLedger.record, applyFunding]
    cases hp : b.1.positions.get symbol with
    | none => simp [net, openValue]
    | some p =>
      simp only [net, openValue]
      ring

theorem Fresh.net (h : Fresh a) (P : Symbol → Amount) : net (a, {}) P = a.balanceUsdt := by
  obtain ⟨_, hp, _⟩ := h
  simp [PaperAdapter.net, openValue, hp]

theorem conserved_step_iff (h : Conserved initial b) (hs : BookStep b c b') :
    Conserved initial b' ↔ SidesMatch b c := by
  rw [← net_step hs, conserved_iff_net]
  rw [conserved_iff_net] at h
  exact forall_congr' fun P => by rw [h P]

/-- Money is conserved all along a run just when the sides match at each of its calls. -/
theorem conserved_iff_sides_match (h₀ : Fresh a₀) :
    Run (fun b c b' => BookStep b c b' ∧ Conserved a₀.balanceUsdt b') (a₀, {}) calls b ↔
      Run (Guarded BookStep SidesMatch) (a₀, {}) calls b := by
  have hstart : Conserved a₀.balanceUsdt (a₀, {}) := conserved_iff_net.mpr h₀.net
  refine Run.keeps_iff (J := fun _ => True) trivial hstart (fun _ _ _ _ _ => trivial) ?_
  intro b c b' _ hconserved hs
  exact conserved_step_iff hconserved hs

/-- The simulation and its ledger after a call. -/
def after (c : PaperCall) (b : PaperAdapter × PaperLedger) : PaperAdapter × PaperLedger :=
  ((call 0 c b.1).2, b.2.record c b.1 (call 0 c b.1).2)

theorem bookStep_after (h : (call 0 c b.1).1.isOk = true) : BookStep b c (after c b) := by
  refine ⟨0, (call 0 c b.1).2, ?_, rfl⟩
  rcases hc : call 0 c b.1 with ⟨e | u, a'⟩
  · rw [hc] at h
    cases h
  · rfl

/-- A market order for one unit at a price of 100. -/
def unitOrder (id : ClientOrderId) (side : OrderSide) (isReduceOnly : Bool) : OrderRequest where
  clientOrderId := id
  symbol := "BTCUSDT"
  side := side
  orderType := .market
  quantity := 1
  price := some 100
  isReduceOnly := isReduceOnly
  valid := by simp [OrderRequestFields.Valid, bookCoherent, allowedSymbols]

def openCall : PaperCall := .placeOrder (unitOrder "open" .buy false)

/-- The same position, closed by an order that says so and by one that does not. -/
def closeCall (isReduceOnly : Bool) : PaperCall :=
  .placeOrder (unitOrder "close" .sell isReduceOnly)

theorem open_step : BookStep ({}, {}) openCall (after openCall ({}, {})) :=
  bookStep_after (by decide +kernel)

theorem close_step (isReduceOnly : Bool) : BookStep (after openCall ({}, {}))
    (closeCall isReduceOnly) (after (closeCall isReduceOnly) (after openCall ({}, {}))) := by
  refine bookStep_after ?_
  cases isReduceOnly <;> decide +kernel

theorem round_trip_conserved :
    Run (fun b c b' => BookStep b c b' ∧ Conserved 1000 b') ({}, {}) [openCall, closeCall true]
      (after (closeCall true) (after openCall ({}, {}))) := by
  have hfresh : Fresh {} := ⟨rfl, rfl, rfl, rfl⟩
  refine (conserved_iff_sides_match hfresh).mpr ?_
  have hopen : SidesMatch ({}, {}) openCall := by
    intro _ _ p hp
    cases hp
  have hside : ∀ p ∈ (after openCall ({}, {})).1.positions.get "BTCUSDT", p.side = .buy := by
    decide +kernel
  have hclose : SidesMatch (after openCall ({}, {})) (closeCall true) := by
    intro _ _ p hp
    have hbuy := hside p hp
    simp [unitOrder, hbuy]
  exact .cons ⟨open_step, hopen⟩ (.cons ⟨close_step true, hclose⟩ (.nil _))

/-- The second order replaces the position, and what it was worth is gone. -/
theorem flip_loses_money :
    ¬∀ (a₀ : PaperAdapter) (calls : List PaperCall) (b : PaperAdapter × PaperLedger), Fresh a₀ →
      Run BookStep (a₀, {}) calls b → Conserved a₀.balanceUsdt b := by
  intro h
  have hr : Run BookStep ({}, {}) [openCall, closeCall false]
      (after (closeCall false) (after openCall ({}, {}))) :=
    .cons open_step (.cons (close_step false) (.nil _))
  have hnet : net (after (closeCall false) (after openCall ({}, {}))) (fun _ => 0) ≠ 1000 := by
    decide +kernel
  exact hnet (conserved_iff_net.mp (h {} _ _ ⟨rfl, rfl, rfl, rfl⟩ hr) _)

end PaperAdapter

end FuturesBot
