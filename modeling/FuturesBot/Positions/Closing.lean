import FuturesBot.Positions.Desk
import FuturesBot.Exchange.Paper

namespace FuturesBot
open Lib PositionManager

/-- An accepted close order of the whole quantity leaves no position. -/
theorem placeCloseOrder_closes {a : PaperAdapter} (hn : a.orders.get oid = none)
    (hp : a.positions.get s = some p) (hq : p.quantity ≤ quantity)
    (h : placeCloseOrder PaperAdapter.exchange s quantity mark side book oid a = (.ok r, a')) :
    a'.positions.get s = none := by
  unfold placeCloseOrder at h
  cases hb : OrderRequest.build (closeOrderFields s quantity mark side book oid) with
  | error e =>
    simp only [hb] at h
    cases h
  | ok req =>
    have hf := OrderRequest.build_ok hb
    simp only [hb] at h
    split at h
    · cases h
    · rename_i result a₁ ho
      cases h
      have hr := (PaperAdapter.placeOrder_reduced (by rw [hf]; exact hn)
        (by rw [hf]; rfl) (by rw [hf]; rfl) ho).1
      rw [hf] at hr
      exact hr.closed hp hq

/-- In simulation, a tick that returns and has dropped a configuration leaves no
position of the symbol behind. The runs that lead up to it may do anything except
set a list of levels whose last one closes only a fraction. -/
theorem dropped_config_closed
    (hr : Run (Guarded (DeskStep PaperAdapter.exchange) SetsClosingLevels) ⟨{}, a⟩ es d)
    (hn : d.exchange.orders.get oid = none)
    (ht : tick PaperAdapter.exchange s mark atr book oid now d = (.ok r, d'))
    (hb : (d.manager.getConfig s).isSome) (ha : d'.manager.getConfig s = none) :
    d'.exchange.positions.get s = none := by
  have hm : EndsWhole d.manager := EndsWhole.run .fresh hr
  cases tick_outcome ht with
  | absent hp =>
    obtain ⟨hg, rfl⟩ := PaperAdapter.getPosition_ok hp
    exact hg
  | unconfigured hp hc =>
    rw [getConfig, hc] at hb
    cases hb
  | quiet hp hc hA =>
    rw [getConfig, hA.exits.configs, hc] at ha
    cases ha
  | fired hp hc hA hd hf =>
    obtain ⟨hg, rfl⟩ := PaperAdapter.getPosition_ok hp
    have hm' := hm.sameExits hA.exits
    obtain ⟨ho, hs⟩ := fire_ok (hA.exits.configs ▸ Option.isSome_of_eq_some hc) hf
    rw [getConfig, hs.configs, ExitTrigger.settle_configs] at ha
    split at ha
    · rename_i hfull
      have hq := hm'.full hd hfull
      rw [if_pos (hq ▸ one_pos)] at ho
      exact placeCloseOrder_closes hn hg (by rw [hq, mul_one]) ho
    · rw [hA.exits.configs, hc] at ha
      cases ha

theorem target_pos : (0 : Amount) < 110 := by norm_num

theorem half_range : (0 : Amount) < 1 / 2 ∧ (1 / 2 : Amount) ≤ 1 := by norm_num

theorem whole_range : (0 : Amount) < 1 ∧ (1 : Amount) ≤ 1 := by norm_num

/-- One level at 110. The validator accepts it whatever fraction it closes. -/
def oneLevel (fraction : Amount) (h : 0 < fraction ∧ fraction ≤ 1) : PositionConfig where
  symbol := "BTCUSDT"
  takeProfitLevels := [⟨110, fraction, target_pos, h⟩]
  valid := ⟨by simp [PositionConfigFields.FieldsInRange], by
    simp [PositionConfigFields.Coherent, PositionConfigFields.trailingCount,
      PositionConfigFields.hasAtrMode]⟩

def marketBuy : OrderRequest where
  clientOrderId := "entry"
  symbol := "BTCUSDT"
  side := .buy
  orderType := .market
  quantity := 1
  price := some 100
  valid := by decide +kernel

/-- A simulated exchange that has filled one market buy. -/
def bought : PaperAdapter := (PaperAdapter.exchange.placeOrder marketBuy {}).2

/-- The desk once the level is registered for the bought position. -/
def deskWith (config : PositionConfig) : Desk PaperAdapter :=
  ⟨PositionManager.setConfig config .idle, bought⟩

def wholeLevel : PositionConfig := oneLevel 1 whole_range

def halfLevel : PositionConfig := oneLevel (1 / 2) half_range

def atTarget (config : PositionConfig) : Except PyError TickResult × Desk PaperAdapter :=
  tick PaperAdapter.exchange "BTCUSDT" 110 none none "close" 0 (deskWith config)

theorem whole_level_closed : (atTarget wholeLevel).2.exchange.positions.get "BTCUSDT" = none := by
  have hl : LevelsClose wholeLevel.takeProfitLevels := by simp [wholeLevel, oneLevel, LevelsClose]
  have hr : Run (Guarded (DeskStep PaperAdapter.exchange) SetsClosingLevels) ⟨{}, bought⟩
      [.setConfig wholeLevel] (deskWith wholeLevel) :=
    .snoc (.nil _) ⟨.setConfig wholeLevel _, hl⟩
  have hk : (atTarget wholeLevel).1.toOption.isSome := by decide +kernel
  have hc : ((atTarget wholeLevel).2.manager.getConfig "BTCUSDT").isNone := by decide +kernel
  rcases ht : atTarget wholeLevel with ⟨e | r, d'⟩
  · rw [ht] at hk
    cases hk
  · rw [ht] at hc
    exact dropped_config_closed hr (Option.isNone_iff_eq_none.mp (by decide +kernel)) ht
      (by decide +kernel) (Option.isNone_iff_eq_none.mp hc)

/-- Without the condition a half of the position stays open and forgotten. -/
theorem half_level_left_open :
    ¬∀ (a : PaperAdapter) es d oid s mark atr book now r d',
      Run (DeskStep PaperAdapter.exchange) ⟨{}, a⟩ es d →
      d.exchange.orders.get oid = none →
      tick PaperAdapter.exchange s mark atr book oid now d = (.ok r, d') →
      (d.manager.getConfig s).isSome → d'.manager.getConfig s = none →
      d'.exchange.positions.get s = none := by
  intro h
  have hk : (atTarget halfLevel).1.toOption.isSome := by decide +kernel
  have hc : ((atTarget halfLevel).2.manager.getConfig "BTCUSDT").isNone := by decide +kernel
  have ho : ((atTarget halfLevel).2.exchange.positions.get "BTCUSDT").isSome := by
    decide +kernel
  rcases ht : atTarget halfLevel with ⟨e | r, d'⟩
  · rw [ht] at hk
    cases hk
  · rw [ht] at hc ho
    have hn := h bought [.setConfig halfLevel] (deskWith halfLevel) "close" "BTCUSDT" 110 none none
      0 r d' (.snoc (.nil _) (.setConfig halfLevel _))
      (Option.isNone_iff_eq_none.mp (by decide +kernel)) ht (by decide +kernel)
      (Option.isNone_iff_eq_none.mp hc)
    rw [hn] at ho
    cases ho

end FuturesBot
