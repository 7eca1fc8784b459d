import FuturesBot.Exchange.PaperRuns
import Mathlib.Tactic.FieldSimp

namespace FuturesBot
open Lib

@[simp] theorem quantize_zero : quantize 0 = 0 := by
  simp [quantize, quantizeWith, roundHalfEven]

namespace PaperAdapter

/-- The price that a market order is filled at. -/
def fillPriceOf (slip : SlippageModel) (req : OrderRequest) (price : Amount) :
    Except PyError Amount :=
  crossSpread (slip.apply price req.side req.orderType.modelType) req

def feeOf (fee : FeeModel) (req : OrderRequest) (fillPrice : Amount) : Amount :=
  fee.calculate (quantize (fillPrice * req.quantity)) req.orderType.modelType

/-- The leverage that a symbol trades with. -/
def leverageOf (a : PaperAdapter) (symbol : Symbol) : ℤ := (a.leverage.get symbol).getD 1

/-- The position that an order leaves, before it is validated. -/
def newPosition (req : OrderRequest) (fillPrice : Amount) (a : PaperAdapter) :
    PositionStateFields :=
  let newMargin := fillPrice * req.quantity / a.leverageOf req.symbol
  let fresh : PositionStateFields :=
    { symbol := req.symbol, side := req.side, quantity := req.quantity, entryPrice := fillPrice,
      marginUsdt := newMargin, leverage := a.leverageOf req.symbol, isSimulated := true }
  match a.positions.get req.symbol with
  | none => fresh
  | some existing =>
    if existing.side ≠ req.side then fresh
    else
      let totalQuantity := existing.quantity + req.quantity
      { fresh with
        quantity := totalQuantity
        entryPrice := (existing.entryPrice * existing.quantity + fillPrice * req.quantity) /
          totalQuantity
        marginUsdt := existing.marginUsdt + newMargin }

theorem openOrNetPosition_eq (req : OrderRequest) (fillPrice : Amount) (a : PaperAdapter) :
    openOrNetPosition req fillPrice a =
      match PositionState.build (newPosition req fillPrice a) with
      | .error e => (.error e, a)
      | .ok p => (.ok (), { a with positions := a.positions.set req.symbol p }) :=
  rfl

theorem LeverageInRange.leverageOf_pos (h : LeverageInRange a) (symbol : Symbol) :
    1 ≤ a.leverageOf symbol := by
  unfold leverageOf
  cases hl : a.leverage.get symbol with
  | none => exact le_rfl
  | some l => exact (h symbol l hl).1

/-- Whether an order has a position to leave, as far as its price goes. -/
def Opens (req : OrderRequest) (fillPrice : Amount) (a : PaperAdapter) : Prop :=
  match a.positions.get req.symbol with
  | none => 0 < fillPrice
  | some p =>
    if p.side ≠ req.side then 0 < fillPrice
    else 0 < p.entryPrice * p.quantity + fillPrice * req.quantity ∧
      0 < p.marginUsdt + fillPrice * req.quantity / a.leverageOf req.symbol

theorem newPosition_valid_iff (h : LeverageInRange a) (req : OrderRequest) (fillPrice : Amount) :
    (newPosition req fillPrice a).Valid ↔ Opens req fillPrice a := by
  have hq : 0 < req.quantity := req.valid.1
  have hl : 1 ≤ a.leverageOf req.symbol := h.leverageOf_pos req.symbol
  have hl' : (0 : Amount) < a.leverageOf req.symbol := by exact_mod_cast hl
  have hfresh : 0 < fillPrice * req.quantity / a.leverageOf req.symbol ↔ 0 < fillPrice := by
    rw [div_pos_iff_of_pos_right hl', mul_pos_iff_of_pos_right hq]
  unfold newPosition Opens PositionStateFields.Valid
  cases hp : a.positions.get req.symbol with
  | none => simp [hq, hl, hfresh]
  | some p =>
    have hpq : 0 < p.quantity := p.valid.1
    dsimp only
    split
    · simp [hq, hl, hfresh]
    · have hsum : 0 < p.quantity + req.quantity := add_pos hpq hq
      simp [hl, hsum, div_pos_iff_of_pos_right hsum]

/-- The balance, the positions, the funding and the orders are as they were. -/
def SameBooks (a a' : PaperAdapter) : Prop :=
  a'.balanceUsdt = a.balanceUsdt ∧ a'.positions = a.positions ∧ a'.fundingPaid = a.fundingPaid ∧
    a'.orders = a.orders

/-- If the order raises, it has changed nothing. -/
def AtomicOnError (req : OrderRequest) (a : PaperAdapter) : Prop :=
  ∀ e a', placeOrder req a = (.error e, a') → SameBooks a a'

/-- Nothing is open that the order would touch, or what it would leave is refused. -/
def NothingToChange (req : OrderRequest) (fillPrice : Amount) (a : PaperAdapter) : Prop :=
  match a.positions.get req.symbol with
  | none => True
  | some _ => req.isReduceOnly = false ∧ ¬Opens req fillPrice a

/-- A new market order is filled at a price and a fee that its result may carry, or it
costs nothing and changes nothing. -/
def FillsOrLeaves (req : OrderRequest) (a : PaperAdapter) : Prop :=
  a.orders.get req.clientOrderId = none → req.orderType = .market →
  ∀ price fillPrice, req.price = some price → fillPriceOf a.slip req price = .ok fillPrice →
    (0 ≤ fillPrice ∧ 0 ≤ feeOf a.fee req fillPrice) ∨
    (feeOf a.fee req fillPrice = 0 ∧ NothingToChange req fillPrice a)

/-- The fee is taken first. -/
def charged (req : OrderRequest) (fillPrice : Amount) (a : PaperAdapter) : PaperAdapter :=
  { a with balanceUsdt := a.balanceUsdt - feeOf a.fee req fillPrice }

/-- The position is changed next. -/
def moved (req : OrderRequest) (fillPrice : Amount) : Call PaperAdapter Unit :=
  if req.isReduceOnly then closeOrReducePosition req.symbol req.quantity fillPrice
  else openOrNetPosition req fillPrice

/-- The result is validated last. -/
def filledFields (req : OrderRequest) (price fillPrice fee : Amount) (now : Timestamp) :
    OrderResultFields :=
  { clientOrderId := req.clientOrderId, symbol := req.symbol, side := req.side,
    orderType := req.orderType, status := .filled, quantityRequested := req.quantity,
    quantityFilled := req.quantity, fillPrice := some fillPrice, feeUsdt := fee,
    slippageUsdt := some (quantize (|fillPrice - price| * req.quantity)), isSimulated := true,
    timestampUtc := now }

theorem filledFields_valid_iff {req : OrderRequest} {fee : Amount} {now : Timestamp} :
    (filledFields req price fillPrice fee now).Valid ↔ 0 ≤ fillPrice ∧ 0 ≤ fee := by
  have hq : 0 ≤ req.quantity := req.valid.1.le
  have hs : 0 ≤ quantize (|fillPrice - price| * req.quantity) :=
    quantize_nonneg (mul_nonneg (abs_nonneg _) hq)
  simp [filledFields, OrderResultFields.Valid, hq, hs]

/-- What a new market order with a fill price does. -/
theorem placeOrder_market (hn : a.orders.get req.clientOrderId = none)
    (hm : req.orderType = .market) (hp : req.price = some price)
    (hf : fillPriceOf a.slip req price = .ok fillPrice) :
    placeOrder req a = match moved req fillPrice (charged req fillPrice a) with
      | (.error e, a') => (.error e, a')
      | (.ok (), a') =>
        match OrderResult.build (filledFields req price fillPrice (feeOf a.fee req fillPrice)
            a'.now) with
        | .error e => (.error e, a')
        | .ok result =>
          (.ok result, { a' with orders := a'.orders.set req.clientOrderId result }) := by
  have hmoved : (if req.isReduceOnly then
        closeOrReducePosition req.symbol req.quantity fillPrice
          { a with balanceUsdt := a.balanceUsdt -
            a.fee.calculate (quantize (fillPrice * req.quantity)) req.orderType.modelType }
      else openOrNetPosition req fillPrice
          { a with balanceUsdt := a.balanceUsdt -
            a.fee.calculate (quantize (fillPrice * req.quantity)) req.orderType.modelType }) =
      moved req fillPrice (charged req fillPrice a) := by
    unfold moved charged feeOf
    split <;> rfl
  rw [fillPriceOf] at hf
  simp only [placeOrder, hn, if_pos hm, fillMarketOrder, hp, hf, hmoved]
  rcases moved req fillPrice (charged req fillPrice a) with ⟨e | u, a'⟩
  · rfl
  · rcases hb : OrderResult.build (filledFields req price fillPrice (feeOf a.fee req fillPrice)
      a'.now) with e | result
    all_goals
      rw [filledFields, feeOf] at hb
      simp only [filledFields, feeOf, hb]

/-- A reduction never raises, and changes the position wherever there is one. -/
theorem closeOrReducePosition_ok (symbol : Symbol) (fillPrice : Amount) (h : LeverageInRange a)
    (hq : 0 < quantity) :
    ∃ a', closeOrReducePosition symbol quantity fillPrice a = (.ok (), a') ∧
      (a.positions.get symbol = none → a' = a) ∧
      ∀ p, a.positions.get symbol = some p → a'.positions ≠ a.positions := by
  unfold closeOrReducePosition
  cases hp : a.positions.get symbol with
  | none =>
    refine ⟨a, rfl, fun _ => rfl, ?_⟩
    intro p he
    cases he
  | some p =>
    dsimp only
    split
    · refine ⟨_, rfl, fun he => (by cases he), ?_⟩
      intro p' _ he
      have hget := congrArg (·.get symbol) he
      simp [hp] at hget
    · rename_i hlt
      have hpq : 0 < p.quantity := p.valid.1
      have hleft : 0 < p.quantity - min quantity p.quantity := sub_pos.mpr (not_le.mp hlt)
      have hl : (0 : Amount) < ((a.leverage.get symbol).getD p.leverage : ℤ) := by
        cases hg : a.leverage.get symbol with
        | none => exact_mod_cast lt_of_lt_of_le Int.zero_lt_one p.valid.2.2.2.2.1
        | some l => exact_mod_cast lt_of_lt_of_le Int.zero_lt_one (h symbol l hg).1
      have hmargin := div_pos (mul_pos p.valid.2.1 hleft) hl
      rw [PositionState.build_of_valid (by simp [PositionStateFields.Valid, hleft, p.valid.2.1,
        hmargin, p.valid.2.2.2.2.1])]
      refine ⟨_, rfl, fun he => (by cases he), ?_⟩
      intro p' _ he
      have hget := congrArg (·.get symbol) he
      simp only [Dict.get_set_self, hp, Option.some.injEq] at hget
      have hquantity := congrArg (·.quantity) hget
      have hmin : 0 < min quantity p.quantity := lt_min hq hpq
      simp only at hquantity
      linarith

theorem SameBooks.refl (a : PaperAdapter) : SameBooks a a := ⟨rfl, rfl, rfl, rfl⟩

theorem sameBooks_charged_iff {a : PaperAdapter} :
    SameBooks a (charged req fillPrice a) ↔ feeOf a.fee req fillPrice = 0 := by
  simp [SameBooks, charged]

theorem atomicOnError_of_ok (h : placeOrder req a = (.ok result, a')) : AtomicOnError req a := by
  intro e a₁ he
  rw [h] at he
  cases he

theorem atomicOnError_iff_of_error (h : placeOrder req a = (.error e, a')) :
    AtomicOnError req a ↔ SameBooks a a' := by
  constructor
  · intro hat
    exact hat e a' h
  · intro hs e₁ a₁ he
    rw [h] at he
    cases he
    exact hs

/-- Where no position is left for want of a price, there is no fee either. -/
theorem feeOf_of_not_opens (h : LeverageInRange a) (ho : ¬Opens req fillPrice a)
    (hf : 0 ≤ fillPrice) : feeOf a.fee req fillPrice = 0 := by
  have hq : 0 < req.quantity := req.valid.1
  have hl : (0 : Amount) < a.leverageOf req.symbol :=
    by exact_mod_cast lt_of_lt_of_le Int.zero_lt_one (h.leverageOf_pos req.symbol)
  have hadd : 0 ≤ fillPrice * req.quantity := mul_nonneg hf hq.le
  have hzero : fillPrice = 0 := by
    unfold Opens at ho
    cases hp : a.positions.get req.symbol with
    | none =>
      rw [hp] at ho
      exact le_antisymm (not_lt.mp ho) hf
    | some p =>
      simp only [hp] at ho
      split at ho
      · exact le_antisymm (not_lt.mp ho) hf
      · have hentry : 0 < p.entryPrice * p.quantity := mul_pos p.valid.2.1 p.valid.1
        have hmargin : 0 < p.marginUsdt := p.valid.2.2.2.1
        exact absurd ⟨add_pos_of_pos_of_nonneg hentry hadd,
          add_pos_of_pos_of_nonneg hmargin (div_nonneg hadd hl.le)⟩ ho
  rw [hzero, feeOf, zero_mul, quantize_zero]
  simp [FeeModel.calculate]

/-- An accepted position always differs from the one before it. -/
theorem set_newPosition_ne {a : PaperAdapter} (p' : PositionState)
    (hp' : p'.toPositionStateFields = newPosition req fillPrice a) :
    a.positions.set req.symbol p' ≠ a.positions := by
  intro he
  have hq : 0 < req.quantity := req.valid.1
  have hget : some p' = a.positions.get req.symbol := by
    rw [← he, Dict.get_set_self]
  have hquantity := congrArg (·.quantity) hp'
  have hside := congrArg (·.side) hp'
  simp only [newPosition, ← hget] at hquantity hside
  split at hquantity
  · rename_i hne
    rw [if_pos hne] at hside
    exact hne hside
  · simp only at hquantity
    linarith

/-- The outcome of a new market order whose result cannot be validated. -/
theorem atomicOnError_of_invalid (hl : LeverageInRange a)
    (hn : a.orders.get req.clientOrderId = none) (hm : req.orderType = .market)
    (hp : req.price = some price) (hf : fillPriceOf a.slip req price = .ok fillPrice)
    (hv : ¬(0 ≤ fillPrice ∧ 0 ≤ feeOf a.fee req fillPrice)) :
    AtomicOnError req a ↔ feeOf a.fee req fillPrice = 0 ∧ NothingToChange req fillPrice a := by
  have hplace := placeOrder_market hn hm hp hf
  have hinvalid : ∀ now,
      ¬(filledFields req price fillPrice (feeOf a.fee req fillPrice) now).Valid :=
    fun _ h => hv (filledFields_valid_iff.mp h)
  unfold moved at hplace
  cases hr : req.isReduceOnly with
  | true =>
    obtain ⟨a₁, hc, hnone, hsome⟩ := closeOrReducePosition_ok
      (a := charged req fillPrice a) req.symbol fillPrice hl req.valid.1
    rw [if_pos hr, hc] at hplace
    simp only [OrderResult.build_of_invalid (hinvalid a₁.now)] at hplace
    rw [atomicOnError_iff_of_error hplace]
    cases hpos : a.positions.get req.symbol with
    | none =>
      rw [hnone hpos, sameBooks_charged_iff]
      simp [NothingToChange, hpos]
    | some p =>
      have hne : a₁.positions ≠ a.positions := hsome p hpos
      simp [NothingToChange, hpos, hr, SameBooks, hne]
  | false =>
    rw [if_neg (by simp [hr]), openOrNetPosition_eq] at hplace
    have hsame : newPosition req fillPrice (charged req fillPrice a) =
        newPosition req fillPrice a := rfl
    rw [hsame] at hplace
    by_cases ho : Opens req fillPrice a
    · rw [PositionState.build_of_valid ((newPosition_valid_iff hl req fillPrice).mpr ho)] at hplace
      simp only [OrderResult.build_of_invalid (hinvalid _)] at hplace
      rw [atomicOnError_iff_of_error hplace]
      have hne := set_newPosition_ne (a := a) ⟨newPosition req fillPrice a,
        (newPosition_valid_iff hl req fillPrice).mpr ho⟩ rfl
      refine iff_of_false (fun hs => hne hs.2.1) ?_
      intro hboth
      obtain ⟨hfee, hnothing⟩ := hboth
      unfold NothingToChange at hnothing
      cases hpos : a.positions.get req.symbol with
      | none =>
        have hopen : 0 < fillPrice := by simpa [Opens, hpos] using ho
        exact hv ⟨hopen.le, hfee.ge⟩
      | some p =>
        rw [hpos] at hnothing
        exact hnothing.2 ho
    · rw [PositionState.build_of_invalid (fun h => ho ((newPosition_valid_iff hl req
        fillPrice).mp h))] at hplace
      rw [atomicOnError_iff_of_error hplace, sameBooks_charged_iff]
      unfold NothingToChange
      cases a.positions.get req.symbol <;> simp [hr, ho]

/-- An order whose result can be validated only raises before it has cost anything. -/
theorem atomicOnError_of_valid (hl : LeverageInRange a)
    (hn : a.orders.get req.clientOrderId = none) (hm : req.orderType = .market)
    (hp : req.price = some price) (hf : fillPriceOf a.slip req price = .ok fillPrice)
    (hv : 0 ≤ fillPrice ∧ 0 ≤ feeOf a.fee req fillPrice) : AtomicOnError req a := by
  have hplace := placeOrder_market hn hm hp hf
  have hvalid : ∀ now, (filledFields req price fillPrice (feeOf a.fee req fillPrice) now).Valid :=
    fun _ => filledFields_valid_iff.mpr hv
  unfold moved at hplace
  cases hr : req.isReduceOnly with
  | true =>
    obtain ⟨a₁, hc, _⟩ := closeOrReducePosition_ok
      (a := charged req fillPrice a) req.symbol fillPrice hl req.valid.1
    rw [if_pos hr, hc] at hplace
    simp only [OrderResult.build_of_valid (hvalid a₁.now)] at hplace
    exact atomicOnError_of_ok hplace
  | false =>
    rw [if_neg (by simp [hr]), openOrNetPosition_eq] at hplace
    have hsame : newPosition req fillPrice (charged req fillPrice a) =
        newPosition req fillPrice a := rfl
    rw [hsame] at hplace
    by_cases ho : Opens req fillPrice a
    · rw [PositionState.build_of_valid ((newPosition_valid_iff hl req fillPrice).mpr ho)] at hplace
      simp only [OrderResult.build_of_valid (hvalid _)] at hplace
      exact atomicOnError_of_ok hplace
    · rw [PositionState.build_of_invalid (fun h => ho ((newPosition_valid_iff hl req
        fillPrice).mp h))] at hplace
      rw [atomicOnError_iff_of_error hplace, sameBooks_charged_iff]
      exact feeOf_of_not_opens hl ho hv.1

theorem placeOrder_pending (hn : a.orders.get req.clientOrderId = none)
    (hm : req.orderType ≠ .market) : ∃ result a', placeOrder req a = (.ok result, a') := by
  have hv : OrderResultFields.Valid
      { clientOrderId := req.clientOrderId, symbol := req.symbol, side := req.side,
        orderType := req.orderType, status := .pending, quantityRequested := req.quantity,
        isSimulated := true, timestampUtc := a.now } := by
    simp [OrderResultFields.Valid]
  simp only [placeOrder, hn, if_neg hm, registerPendingOrder, OrderResult.build_of_valid hv]
  exact ⟨_, _, rfl⟩

/-- Orders are atomic on error exactly where a fill has a price and a fee that its
result may carry, or costs nothing and changes nothing. -/
theorem place_order_atomic_iff (h : Reachable a) :
    AtomicOnError req a ↔ FillsOrLeaves req a := by
  have hl : LeverageInRange a := h.leverageInRange
  cases hn : a.orders.get req.clientOrderId with
  | some result =>
    have hplace : placeOrder req a = (.ok result, a) := by simp only [placeOrder, hn]
    refine iff_of_true (atomicOnError_of_ok hplace) ?_
    intro hnone
    rw [hn] at hnone
    cases hnone
  | none =>
    by_cases hm : req.orderType = .market
    · cases hp : req.price with
      | none =>
        have hplace : ∃ e, placeOrder req a = (.error e, a) := by
          simp only [placeOrder, hn, if_pos hm, fillMarketOrder, hp]
          exact ⟨_, rfl⟩
        obtain ⟨e, hplace⟩ := hplace
        refine iff_of_true ((atomicOnError_iff_of_error hplace).mpr (.refl a)) ?_
        intro _ _ price fillPrice hprice
        rw [hp] at hprice
        cases hprice
      | some price =>
        cases hf : fillPriceOf a.slip req price with
        | error e =>
          have hplace : placeOrder req a = (.error e, a) := by
            rw [fillPriceOf] at hf
            simp only [placeOrder, hn, if_pos hm, fillMarketOrder, hp, hf]
          refine iff_of_true ((atomicOnError_iff_of_error hplace).mpr (.refl a)) ?_
          intro _ _ price' fillPrice hprice hfill
          rw [hp] at hprice
          cases hprice
          rw [hf] at hfill
          cases hfill
        | ok fillPrice =>
          have hcond : FillsOrLeaves req a ↔
              (0 ≤ fillPrice ∧ 0 ≤ feeOf a.fee req fillPrice) ∨
              (feeOf a.fee req fillPrice = 0 ∧ NothingToChange req fillPrice a) := by
            constructor
            · intro hc
              exact hc hn hm price fillPrice hp hf
            · intro hc _ _ price' fillPrice' hprice hfill
              rw [hp] at hprice
              cases hprice
              rw [hf] at hfill
              cases hfill
              exact hc
          rw [hcond]
          by_cases hv : 0 ≤ fillPrice ∧ 0 ≤ feeOf a.fee req fillPrice
          · exact iff_of_true (atomicOnError_of_valid hl hn hm hp hf hv) (.inl hv)
          · rw [atomicOnError_of_invalid hl hn hm hp hf hv]
            exact ⟨.inr, fun hc => hc.resolve_left hv⟩
    · obtain ⟨result, a', hplace⟩ := placeOrder_pending hn hm
      exact iff_of_true (atomicOnError_of_ok hplace) (fun _ hmarket => absurd hmarket hm)

theorem reachable_default : Reachable {} := ⟨{}, [], ⟨rfl, rfl, rfl, rfl⟩, .nil _⟩

/-- A market sell at a price of one, into this book. -/
def sellInto (bid ask : Amount) (h : 0 < bid ∧ bid < ask) : OrderRequest where
  clientOrderId := "sell"
  symbol := "BTCUSDT"
  side := .sell
  orderType := .market
  quantity := 1
  price := some 1
  bid := some bid
  ask := some ask
  valid := by
    have ha : 0 < ask := h.1.trans h.2
    simp [OrderRequestFields.Valid, bookCoherent, h.1, h.2, ha, allowedSymbols]

def tightSell : OrderRequest := sellInto (99 / 100) (101 / 100) (by norm_num)

theorem tight_sell_atomic : AtomicOnError tightSell {} := by
  refine (place_order_atomic_iff reachable_default).mpr ?_
  intro _ _ price fillPrice hprice hfill
  have hone : price = 1 := (Option.some.inj hprice).symm
  rw [hone] at hfill
  have hfine : ∀ f ∈ (fillPriceOf {} tightSell 1).toOption, 0 ≤ f ∧ 0 ≤ feeOf {} tightSell f := by
    decide +kernel
  exact .inl (hfine fillPrice (by simp [hfill, Except.toOption]))

/-- Half of this book is wider than the price, so that the fill price is negative. -/
def thinSell : OrderRequest := sellInto (1 / 100) 10 (by norm_num)

/-- The refused sell leaves its negative fee in the balance. -/
theorem thin_sell_not_atomic :
    ¬∀ (req : OrderRequest) (a : PaperAdapter), Reachable a → AtomicOnError req a := by
  intro h
  have hbalance : (placeOrder thinSell {}).2.balanceUsdt ≠ 1000 := by decide +kernel
  have herror : (placeOrder thinSell {}).1.isOk = false := by decide +kernel
  have hat := h thinSell {} reachable_default
  rcases hp : placeOrder thinSell {} with ⟨e | result, a'⟩
  · have hs := hat e a' hp
    rw [hp] at hbalance
    exact hbalance hs.1
  · rw [hp] at herror
    cases herror

end PaperAdapter

end FuturesBot
