import FuturesBot.Exchange.Atomicity
import FuturesBot.Lib.Locality

namespace FuturesBot
open Lib

/-- An exchange that keeps the symbols apart. The identifiers of orders belong to symbols, as no
two orders draw the same. -/
structure KeepsApart (A : ExchangeAdapter σ) (B : Parts Symbol σ Amount)
    (owner : ClientOrderId → Symbol) : Prop where
  getPosition : ∀ s, B.LocalAt s (A.getPosition s)
  placeOrder : ∀ req, owner req.clientOrderId = req.symbol → B.LocalAt req.symbol (A.placeOrder req)
  setLeverage : ∀ s n, B.LocalAt s (A.setLeverage s n)

/-- A call that its own script lets fail is as local as the call. -/
theorem ExchangeAdapter.attempt_local {B : Parts Symbol σ Amount} {f : Call σ α}
    (h : B.LocalAt s f) : (B.along (List Bool)).LocalAt s (attempt s f) := by
  have hscript : ∀ x y : σ × (Symbol → List Bool), (B.along (List Bool)).same s x y →
      x.2 s = y.2 s := fun _ _ h => h.2
  have hcall : ∀ script : List Bool, (B.along (List Bool)).LocalAt s fun x =>
      let x := (x.1, Function.update x.2 s (x.2 s).tail)
      if script.head? = some true then ((.error (.external "transport") : Except PyError α), x)
      else ((f x.1).1, ((f x.1).2, x.2)) := by
    intro script
    by_cases hfails : script.head? = some true
    · simp only [if_pos hfails]
      exact .update B s List.tail _
    · simp only [if_neg hfails]
      exact (Parts.LocalAt.update B s List.tail ()).bind fun _ => h.along (List Bool)
  have hread := Parts.LocalAt.read hscript hcall
  exact hread

/-- So failures of one symbol are not felt by another. -/
theorem KeepsApart.failing (hA : KeepsApart A B owner) :
    KeepsApart A.failing (B.along (List Bool)) owner where
  getPosition s := ExchangeAdapter.attempt_local (hA.getPosition s)
  placeOrder req howned := ExchangeAdapter.attempt_local (hA.placeOrder req howned)
  setLeverage s n := ExchangeAdapter.attempt_local (hA.setLeverage s n)

namespace PaperAdapter

/-- The two simulations know the same of a symbol and of its orders, and work alike. -/
structure SameAt (owner : ClientOrderId → Symbol) (s : Symbol) (a a' : PaperAdapter) : Prop where
  position : a.positions.get s = a'.positions.get s
  leverage : a.leverage.get s = a'.leverage.get s
  funding : a.fundingPaid.get s = a'.fundingPaid.get s
  orders : ∀ oid, owner oid = s → a.orders.get oid = a'.orders.get oid
  fee : a.fee = a'.fee
  slip : a.slip = a'.slip
  now : a.now = a'.now

namespace SameAt

theorem refl (owner : ClientOrderId → Symbol) (s : Symbol) (a : PaperAdapter) :
    SameAt owner s a a :=
  ⟨rfl, rfl, rfl, fun _ _ => rfl, rfl, rfl, rfl⟩

theorem symm (h : SameAt owner s a a') : SameAt owner s a' a :=
  ⟨h.position.symm, h.leverage.symm, h.funding.symm, fun oid ho => (h.orders oid ho).symm,
    h.fee.symm, h.slip.symm, h.now.symm⟩

theorem trans (h : SameAt owner s a a') (h' : SameAt owner s a' a'') : SameAt owner s a a'' :=
  ⟨h.position.trans h'.position, h.leverage.trans h'.leverage, h.funding.trans h'.funding,
    fun oid ho => (h.orders oid ho).trans (h'.orders oid ho), h.fee.trans h'.fee,
    h.slip.trans h'.slip, h.now.trans h'.now⟩

end SameAt

/-- The parts of the simulation share its balance only. -/
def parts (owner : ClientOrderId → Symbol) : Parts Symbol PaperAdapter Amount where
  same := SameAt owner
  account a := a.balanceUsdt
  equivalence s := ⟨.refl owner s, .symm, .trans⟩

section Changes
variable (owner : ClientOrderId → Symbol) (s : Symbol)

theorem credit_local (δ : Amount) (r : ρ) : (parts owner).LocalAt s fun a =>
    (r, { a with balanceUsdt := a.balanceUsdt + δ }) where
  frame s' _ a := { SameAt.refl owner s' a with }
  own _ _ h := ⟨rfl, { (h : SameAt owner s _ _) with }⟩
  adds a a' _ := by simp [parts]

theorem setPosition_local (p : PositionState) (r : ρ) : (parts owner).LocalAt s fun a =>
    (r, { a with positions := a.positions.set s p }) where
  frame s' hs a := { SameAt.refl owner s' a with position := (Dict.get_set_ne _ _ hs).symm }
  own _ _ h := ⟨rfl, { (h : SameAt owner s _ _) with position := by simp }⟩
  adds a a' _ := by simp [parts]

theorem popPosition_local (r : ρ) : (parts owner).LocalAt s fun a =>
    (r, { a with positions := a.positions.pop s }) where
  frame s' hs a := { SameAt.refl owner s' a with position := (Dict.get_pop_ne _ hs).symm }
  own _ _ h := ⟨rfl, { (h : SameAt owner s _ _) with position := by simp }⟩
  adds a a' _ := by simp [parts]

theorem setLeverage_local (n : ℤ) (r : ρ) : (parts owner).LocalAt s fun a =>
    (r, { a with leverage := a.leverage.set s n }) where
  frame s' hs a := { SameAt.refl owner s' a with leverage := (Dict.get_set_ne _ _ hs).symm }
  own _ _ h := ⟨rfl, { (h : SameAt owner s _ _) with leverage := by simp }⟩
  adds a a' _ := by simp [parts]

theorem record_local (oid : ClientOrderId) (howned : owner oid = s) (result : OrderResult) (r : ρ) :
    (parts owner).LocalAt s fun a => (r, { a with orders := a.orders.set oid result }) where
  frame s' hs a := by
    refine { SameAt.refl owner s' a with orders := fun oid' ho => ?_ }
    have hother : oid' ≠ oid := by
      rintro rfl
      exact hs (ho.symm.trans howned)
    exact (Dict.get_set_ne _ _ hother).symm
  own _ _ h := by
    refine ⟨rfl, { (h : SameAt owner s _ _) with orders := fun oid' ho => ?_ }⟩
    simp only [Dict.get_set, h.orders oid' ho]
  adds a a' _ := by simp [parts]

end Changes

/-- A position is filed if it is valid. -/
theorem filePosition_local (owner : ClientOrderId → Symbol) (s : Symbol)
    (built : Except PyError PositionState) : (parts owner).LocalAt s fun a =>
      match built with
      | .error e => ((.error e : Except PyError Unit), a)
      | .ok p => (.ok (), { a with positions := a.positions.set s p }) := by
  cases built with
  | error e => exact .pure _ s _
  | ok p => exact setPosition_local owner s p _

/-- What a unit of a position makes at a price. -/
def pnlPerUnit (existing : PositionState) (fillPrice : Amount) : Amount :=
  match existing.side with
  | .buy => fillPrice - existing.entryPrice
  | .sell => existing.entryPrice - fillPrice

/-- What is left of a position. -/
def reducedFields (symbol : Symbol) (existing : PositionState) (closedQty : Amount)
    (leverage : Option ℤ) : PositionStateFields :=
  let remainingQty := existing.quantity - closedQty
  { symbol := symbol, side := existing.side, quantity := remainingQty,
    entryPrice := existing.entryPrice,
    marginUsdt := existing.entryPrice * remainingQty / (leverage.getD existing.leverage : ℤ),
    leverage := existing.leverage, isSimulated := true }

def reduce (symbol : Symbol) (existing : PositionState) (quantity fillPrice : Amount) :
    Call PaperAdapter Unit := fun a =>
  let closedQty := min quantity existing.quantity
  let a := { a with balanceUsdt := a.balanceUsdt + pnlPerUnit existing fillPrice * closedQty }
  if existing.quantity ≤ closedQty then
    (.ok (), { a with positions := a.positions.pop symbol })
  else match PositionState.build
      (reducedFields symbol existing closedQty (a.leverage.get symbol)) with
    | .error e => (.error e, a)
    | .ok p => (.ok (), { a with positions := a.positions.set symbol p })

theorem closeOrReducePosition_eq (symbol : Symbol) (quantity fillPrice : Amount)
    (a : PaperAdapter) : closeOrReducePosition symbol quantity fillPrice a =
      (a.positions.get symbol).elim (.ok (), a) fun existing =>
        reduce symbol existing quantity fillPrice a := by
  unfold closeOrReducePosition
  cases a.positions.get symbol <;> rfl

theorem reduce_local (owner : ClientOrderId → Symbol) (s : Symbol) (existing : PositionState)
    (quantity fillPrice : Amount) :
    (parts owner).LocalAt s (reduce s existing quantity fillPrice) := by
  have hleverage : ∀ a a', (parts owner).same s a a' → a.leverage.get s = a'.leverage.get s :=
    fun _ _ h => h.leverage
  have hcredit := credit_local owner s
    (pnlPerUnit existing fillPrice * min quantity existing.quantity) ()
  unfold reduce
  by_cases hall : existing.quantity ≤ min quantity existing.quantity
  · simp only [if_pos hall]
    exact hcredit.bind fun _ => popPosition_local owner s _
  · simp only [if_neg hall]
    have h := hcredit.bind fun _ => Parts.LocalAt.read hleverage fun leverage =>
      filePosition_local owner s (PositionState.build
        (reducedFields s existing (min quantity existing.quantity) leverage))
    exact h

theorem closeOrReducePosition_local (owner : ClientOrderId → Symbol) (s : Symbol)
    (quantity fillPrice : Amount) :
    (parts owner).LocalAt s (closeOrReducePosition s quantity fillPrice) := by
  have hposition : ∀ a a', (parts owner).same s a a' → a.positions.get s = a'.positions.get s :=
    fun _ _ h => h.position
  have hfound : ∀ found : Option PositionState, (parts owner).LocalAt s fun a =>
      found.elim (.ok (), a) fun existing => reduce s existing quantity fillPrice a := by
    intro found
    cases found with
    | none => exact .pure _ s _
    | some existing => exact reduce_local owner s existing quantity fillPrice
  have h := Parts.LocalAt.read hposition hfound
  exact h.congr (closeOrReducePosition_eq s quantity fillPrice)

theorem openOrNetPosition_local (owner : ClientOrderId → Symbol) (req : OrderRequest)
    (fillPrice : Amount) :
    (parts owner).LocalAt req.symbol (openOrNetPosition req fillPrice) := by
  have hnew : ∀ a a', (parts owner).same req.symbol a a' →
      newPosition req fillPrice a = newPosition req fillPrice a' := by
    intro a a' h
    rw [newPosition, newPosition, leverageOf, leverageOf, h.leverage, h.position]
  have h := Parts.LocalAt.read hnew fun fields =>
    filePosition_local owner req.symbol (PositionState.build fields)
  exact h.congr (openOrNetPosition_eq req fillPrice)

theorem moved_local (owner : ClientOrderId → Symbol) (req : OrderRequest) (fillPrice : Amount) :
    (parts owner).LocalAt req.symbol (moved req fillPrice) := by
  unfold moved
  split
  · exact closeOrReducePosition_local owner _ _ _
  · exact openOrNetPosition_local owner req fillPrice

/-- The fee, the position, and the result with the time of day. -/
theorem settled_local (owner : ClientOrderId → Symbol) (req : OrderRequest)
    (price fillPrice feeUsdt : Amount) : (parts owner).LocalAt req.symbol fun a =>
      match moved req fillPrice { a with balanceUsdt := a.balanceUsdt - feeUsdt } with
      | (.error e, a) => ((.error e : Except PyError OrderResult), a)
      | (.ok (), a) => (OrderResult.build (filledFields req price fillPrice feeUsdt a.now), a) := by
  have hnow : ∀ a a', (parts owner).same req.symbol a a' → a.now = a'.now := fun _ _ h => h.now
  have hstamped := Parts.LocalAt.read hnow fun now => .pure (parts owner) req.symbol
    (OrderResult.build (filledFields req price fillPrice feeUsdt now))
  have h := (credit_local owner req.symbol (-feeUsdt) ()).bind fun _ =>
    (moved_local owner req fillPrice).bindExcept (fun e => .pure _ _ (Except.error e))
      fun _ => hstamped
  refine h.congr fun a => ?_
  dsimp only
  rw [← sub_eq_add_neg]
  rcases moved req fillPrice { a with balanceUsdt := a.balanceUsdt - feeUsdt } with ⟨_ | _, _⟩ <;>
    rfl

theorem fillMarketOrder_eq (hp : req.price = some price) (a : PaperAdapter) :
    fillMarketOrder req a =
      match fillPriceOf a.slip req price with
      | .error e => (.error e, a)
      | .ok fillPrice =>
        match moved req fillPrice
            { a with balanceUsdt := a.balanceUsdt - feeOf a.fee req fillPrice } with
        | (.error e, a) => (.error e, a)
        | (.ok (), a') =>
          (OrderResult.build
            (filledFields req price fillPrice (feeOf a.fee req fillPrice) a'.now), a') := by
  unfold fillMarketOrder moved fillPriceOf
  simp only [hp]
  cases crossSpread (a.slip.apply price req.side req.orderType.modelType) req with
  | error e => rfl
  | ok fillPrice => cases req.isReduceOnly <;> rfl

theorem fillAt_local (owner : ClientOrderId → Symbol) (req : OrderRequest) (price : Amount)
    (slip : SlippageModel) (fee : FeeModel) : (parts owner).LocalAt req.symbol fun a =>
      match fillPriceOf slip req price with
      | .error e => ((.error e : Except PyError OrderResult), a)
      | .ok fillPrice =>
        match moved req fillPrice
            { a with balanceUsdt := a.balanceUsdt - feeOf fee req fillPrice } with
        | (.error e, a) => (.error e, a)
        | (.ok (), a) =>
          (OrderResult.build (filledFields req price fillPrice (feeOf fee req fillPrice) a.now),
            a) := by
  cases fillPriceOf slip req price with
  | error e => exact .pure _ _ _
  | ok fillPrice => exact settled_local owner req price fillPrice _

theorem fillMarketOrder_local (owner : ClientOrderId → Symbol) (req : OrderRequest) :
    (parts owner).LocalAt req.symbol (fillMarketOrder req) := by
  have hmodels : ∀ a a', (parts owner).same req.symbol a a' →
      (a.slip, a.fee) = (a'.slip, a'.fee) := fun _ _ h => congrArg₂ Prod.mk h.slip h.fee
  cases hp : req.price with
  | none =>
    unfold fillMarketOrder
    simp only [hp]
    exact .pure _ _ _
  | some price =>
    have h := Parts.LocalAt.read hmodels fun models =>
      fillAt_local owner req price models.1 models.2
    exact h.congr (fillMarketOrder_eq hp)

theorem registerPendingOrder_local (owner : ClientOrderId → Symbol) (req : OrderRequest) :
    (parts owner).LocalAt req.symbol (registerPendingOrder req) := by
  have hnow : ∀ a a', (parts owner).same req.symbol a a' → a.now = a'.now := fun _ _ h => h.now
  have h := Parts.LocalAt.read hnow fun now => .pure (parts owner) req.symbol (OrderResult.build
    { clientOrderId := req.clientOrderId, symbol := req.symbol, side := req.side,
      orderType := req.orderType, status := .pending, quantityRequested := req.quantity,
      isSimulated := true, timestampUtc := now })
  exact h

/-- A new order is answered, and its answer is kept. -/
theorem answer_local (howned : owner req.clientOrderId = req.symbol) :
    (parts owner).LocalAt req.symbol fun a =>
      match (if req.orderType = .market then fillMarketOrder req a
          else registerPendingOrder req a) with
      | (.error e, a) => ((.error e : Except PyError OrderResult), a)
      | (.ok result, a) =>
        (.ok result, { a with orders := a.orders.set req.clientOrderId result }) := by
  have houtcome : (parts owner).LocalAt req.symbol fun a =>
      if req.orderType = .market then fillMarketOrder req a else registerPendingOrder req a := by
    split
    · exact fillMarketOrder_local owner req
    · exact registerPendingOrder_local owner req
  have h := houtcome.bindExcept (fun e => .pure _ _ (Except.error e)) fun result =>
    record_local owner req.symbol req.clientOrderId howned result (Except.ok result)
  refine h.congr fun a => ?_
  rcases (if req.orderType = .market then fillMarketOrder req a
    else registerPendingOrder req a) with ⟨_ | _, _⟩ <;> rfl

theorem placeOrder_local (howned : owner req.clientOrderId = req.symbol) :
    (parts owner).LocalAt req.symbol (placeOrder req) := by
  have hknown : ∀ a a', (parts owner).same req.symbol a a' →
      a.orders.get req.clientOrderId = a'.orders.get req.clientOrderId :=
    fun _ _ h => h.orders _ howned
  have h := Parts.LocalAt.read hknown <| (answer_local howned).optional fun result =>
    .pure _ _ (Except.ok result)
  refine h.congr fun a => ?_
  unfold placeOrder
  cases a.orders.get req.clientOrderId <;> rfl

/-- The simulation keeps the symbols apart: they share its balance, which no fill asks for. -/
theorem exchange_keepsApart (owner : ClientOrderId → Symbol) :
    KeepsApart exchange (parts owner) owner where
  getPosition s := by
    have hposition : ∀ a a', (parts owner).same s a a' →
        a.positions.get s = a'.positions.get s := fun _ _ h => h.position
    have h := Parts.LocalAt.read hposition fun p =>
      .pure (parts owner) s (.ok p : Except PyError (Option PositionState))
    exact h
  placeOrder req howned := placeOrder_local howned
  setLeverage s n := by
    change (parts owner).LocalAt s (setLeverage s n)
    unfold setLeverage
    split
    · exact .pure _ s _
    · exact setLeverage_local owner s n _

end PaperAdapter

end FuturesBot
