import FuturesBot.Exchange.Paper
import Mathlib.Data.Finset.Card

namespace FuturesBot
open Lib

/-- The symbols that have a position, or an order that may still open one. -/
def exposed (isOpen mayOpen : σ → Finset Symbol) (x : σ) : Finset Symbol := isOpen x ∪ mayOpen x

/-- What is asked of an exchange about its positions. Orders may fill at any time, also
while it is called; a result that is cancelled or failed without a fill has left nothing. -/
structure TracksPositions (A : ExchangeAdapter σ) (isOpen mayOpen : σ → Finset Symbol) : Prop
    extends Untouched A (exposed isOpen mayOpen) where
  getPosition_none : ∀ s x x', A.getPosition s x = (.ok none, x') → s ∉ isOpen x'
  placeOrder_one : ∀ req x,
    exposed isOpen mayOpen (A.placeOrder req x).2 ⊆ insert req.symbol (exposed isOpen mayOpen x)
  placeOrder_reduceOnly : ∀ req x, req.orderType = .market → req.isReduceOnly →
    exposed isOpen mayOpen (A.placeOrder req x).2 ⊆ exposed isOpen mayOpen x
  placeOrder_nothing : ∀ req x result x', A.placeOrder req x = (.ok result, x') →
    result.status = .cancelled ∨ result.status = .failed → result.quantityFilled = 0 →
    exposed isOpen mayOpen x' ⊆ exposed isOpen mayOpen x

namespace PaperAdapter

def openSymbols (a : PaperAdapter) : Finset Symbol := a.positions.keys.toFinset

/-- The simulation keeps its LIMIT orders pending. -/
def pendingSymbols (a : PaperAdapter) : Finset Symbol :=
  ((a.orders.values.filter (·.status = .pending)).map (·.symbol)).toFinset

theorem mem_openSymbols {a : PaperAdapter} :
    s ∈ a.openSymbols ↔ ∃ p, a.positions.get s = some p := by
  rw [openSymbols, List.mem_toFinset]
  constructor
  · exact Dict.get_of_mem_keys
  · intro h
    obtain ⟨p, hp⟩ := h
    exact Dict.mem_keys_of_get hp

theorem mem_pendingSymbols {a : PaperAdapter} : s ∈ a.pendingSymbols ↔
    ∃ id o, a.orders.get id = some o ∧ o.status = .pending ∧ o.symbol = s := by
  simp only [pendingSymbols, List.mem_toFinset, List.mem_map, List.mem_filter, Dict.mem_values,
    decide_eq_true_eq]
  constructor
  · intro h
    obtain ⟨o, ⟨⟨id, ho⟩, hp⟩, hs⟩ := h
    exact ⟨id, o, ho, hp, hs⟩
  · intro h
    obtain ⟨id, o, ho, hp, hs⟩ := h
    exact ⟨o, ⟨⟨id, ho⟩, hp⟩, hs⟩

theorem mem_exposed {a : PaperAdapter} : s ∈ exposed openSymbols pendingSymbols a ↔
    (∃ p, a.positions.get s = some p) ∨
      ∃ id o, a.orders.get id = some o ∧ o.status = .pending ∧ o.symbol = s := by
  rw [exposed, Finset.mem_union, mem_openSymbols, mem_pendingSymbols]

/-- A close never opens a position, and touches that of its symbol only. -/
theorem closeOrReducePosition_positions
    (h : closeOrReducePosition symbol quantity price a = (r, a'))
    (hp : a'.positions.get s = some p) : ∃ q, a.positions.get s = some q := by
  unfold closeOrReducePosition at h
  split at h
  · cases h
    exact ⟨p, hp⟩
  · rename_i existing he
    dsimp only at h
    split at h
    · cases h
      rw [Dict.get_pop] at hp
      split at hp
      · cases hp
      · exact ⟨p, hp⟩
    · split at h
      · cases h
        exact ⟨p, hp⟩
      · cases h
        rw [Dict.get_set] at hp
        split at hp
        · rename_i hs
          rw [hs]
          exact ⟨existing, he⟩
        · exact ⟨p, hp⟩

theorem openOrNetPosition_positions (h : openOrNetPosition req price a = (r, a'))
    (hp : a'.positions.get s = some p) : s = req.symbol ∨ ∃ q, a.positions.get s = some q := by
  unfold openOrNetPosition at h
  dsimp only at h
  split at h
  · cases h
    exact .inr ⟨p, hp⟩
  · cases h
    rw [Dict.get_set] at hp
    split at hp
    · rename_i hs
      exact .inl hs
    · exact .inr ⟨p, hp⟩

theorem fillMarketOrder_positions (h : fillMarketOrder req a = (r, a'))
    (hp : a'.positions.get s = some p) :
    (s = req.symbol ∧ req.isReduceOnly = false) ∨ ∃ q, a.positions.get s = some q := by
  unfold fillMarketOrder at h
  split at h
  · cases h
    exact .inr ⟨p, hp⟩
  · split at h
    · cases h
      exact .inr ⟨p, hp⟩
    · dsimp only at h
      split at h
      all_goals
        rename_i hm
        cases h
        split at hm
        · have hq := closeOrReducePosition_positions hm hp
          exact .inr hq
        · rename_i hr
          have ho := openOrNetPosition_positions hm hp
          rcases ho with hs | hq
          · exact .inl ⟨hs, by simpa using hr⟩
          · exact .inr hq

/-- An order opens no position but that of its symbol, and none at all if it only
reduces. -/
theorem placeOrder_positions (h : placeOrder req a = (r, a')) (hp : a'.positions.get s = some p) :
    (s = req.symbol ∧ req.isReduceOnly = false) ∨ ∃ q, a.positions.get s = some q := by
  unfold placeOrder at h
  split at h
  · cases h
    exact .inr ⟨p, hp⟩
  · dsimp only at h
    split at h
    all_goals
      rename_i hm
      cases h
      split at hm
      · exact fillMarketOrder_positions hm hp
      · have hx : a = _ := congrArg Prod.snd hm
        rw [hx]
        exact .inr ⟨p, hp⟩

theorem registerPendingOrder_status (h : registerPendingOrder req a = (.ok result, a')) :
    result.symbol = req.symbol ∧ result.status = .pending ∧ a' = a := by
  obtain ⟨hb, rfl⟩ := Prod.mk.inj h
  have hf := OrderResult.build_ok hb
  exact ⟨congrArg (·.symbol) hf, congrArg (·.status) hf, rfl⟩

theorem fillMarketOrder_status (h : fillMarketOrder req a = (.ok result, a')) :
    result.status = .filled := by
  unfold fillMarketOrder at h
  split at h
  · cases h
  · split at h
    · cases h
    · dsimp only at h
      split at h
      · cases h
      · have hf := OrderResult.build_ok (congrArg Prod.fst h)
        exact congrArg (·.status) hf

/-- A new order is filled at once or, unless it is a MARKET order, left pending. -/
theorem placeOrder_status (h : placeOrder req a = (.ok result, a')) :
    a' = a ∨ result.status = .filled ∨ (result.status = .pending ∧ result.symbol = req.symbol ∧
      req.orderType ≠ .market) := by
  unfold placeOrder at h
  split at h
  · cases h
    exact .inl rfl
  · dsimp only at h
    split at h
    · cases h
    · rename_i hm
      cases h
      split at hm
      · exact .inr (.inl (fillMarketOrder_status hm))
      · rename_i hmarket
        obtain ⟨hs, hp, _⟩ := registerPendingOrder_status hm
        exact .inr (.inr ⟨hp, hs, hmarket⟩)

theorem placeOrder_pendingOrder (h : placeOrder req a = (r, a'))
    (ho : a'.orders.get oid = some o) (hp : o.status = .pending) :
    a.orders.get oid = some o ∨ (o.symbol = req.symbol ∧ req.orderType ≠ .market) := by
  by_cases hid : oid = req.clientOrderId
  · have horders : (if req.orderType = .market then fillMarketOrder req a
        else registerPendingOrder req a).2.orders = a.orders := by
      split
      · obtain ⟨_, _, hm⟩ := fillMarketOrder_moved req a
        rw [hm]
      · rfl
    unfold placeOrder at h
    split at h
    · cases h
      exact .inl ho
    · dsimp only at h
      split at h
      · rename_i hm
        rw [hm] at horders
        cases h
        rw [← horders]
        exact .inl ho
      · rename_i result a₁ hm
        cases h
        rw [hid, Dict.get_set, if_pos rfl] at ho
        cases ho
        split at hm
        · have hf := fillMarketOrder_status hm
          rw [hf] at hp
          cases hp
        · rename_i hmarket
          exact .inr ⟨(registerPendingOrder_status hm).1, hmarket⟩
  · have hother := placeOrder_orders req a hid
    rw [h] at hother
    exact .inl (hother.symm.trans ho)

theorem exchange_tracksPositions : TracksPositions exchange openSymbols pendingSymbols where
  getPosition _ _ := rfl
  getOpenOrders _ _ := rfl
  getAccountState _ := rfl
  getFeeRates _ _ := rfl
  setLeverage s l a := by
    simp only [exchange, setLeverage]
    split <;> rfl
  setMarginType s m a := by
    simp only [exchange, setMarginType]
    split <;> rfl
  getPosition_none s a a' h := by
    obtain ⟨hp, rfl⟩ := getPosition_ok h
    rw [mem_openSymbols, hp]
    simp
  placeOrder_one req a := by
    intro s hs
    rw [Finset.mem_insert]
    rcases mem_exposed.mp hs with ⟨p, hp⟩ | ⟨oid, o, ho, hpending, hsym⟩
    · rcases placeOrder_positions rfl hp with ⟨he, _⟩ | hq
      · exact .inl he
      · exact .inr (mem_exposed.mpr (.inl hq))
    · rcases placeOrder_pendingOrder rfl ho hpending with hold | ⟨he, _⟩
      · exact .inr (mem_exposed.mpr (.inr ⟨oid, o, hold, hpending, hsym⟩))
      · exact .inl (hsym.symm.trans he)
  placeOrder_reduceOnly req a hm hr := by
    intro s hs
    rcases mem_exposed.mp hs with ⟨p, hp⟩ | ⟨oid, o, ho, hpending, hsym⟩
    · rcases placeOrder_positions rfl hp with ⟨_, hno⟩ | hq
      · rw [hno] at hr
        cases hr
      · exact mem_exposed.mpr (.inl hq)
    · rcases placeOrder_pendingOrder rfl ho hpending with hold | ⟨_, hno⟩
      · exact mem_exposed.mpr (.inr ⟨oid, o, hold, hpending, hsym⟩)
      · exact absurd hm hno
  placeOrder_nothing req a result a' h hs _ := by
    rcases placeOrder_status h with rfl | hf | ⟨hp, _⟩
    · exact subset_rfl
    · rw [hf] at hs
      simp at hs
    · rw [hp] at hs
      simp at hs

end PaperAdapter

end FuturesBot
