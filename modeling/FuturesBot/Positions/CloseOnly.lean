import FuturesBot.Positions.Closing
import FuturesBot.Positions.Exits

namespace FuturesBot
open Lib PositionManager PositionTickService

/-- Between the two moments no position has been opened, grown or changed its side. -/
def Shrinks (a a' : PaperAdapter) : Prop :=
  ∀ s p', a'.positions.get s = some p' →
    ∃ p, a.positions.get s = some p ∧ p'.side = p.side ∧ p'.quantity ≤ p.quantity

namespace Shrinks

theorem of_same (h : a'.positions = a.positions) : Shrinks a a' := by
  intro s p hp
  rw [h] at hp
  exact ⟨p, hp, rfl, le_refl _⟩

theorem refl (a : PaperAdapter) : Shrinks a a := of_same rfl

theorem trans (h : Shrinks a a') (h' : Shrinks a' a'') : Shrinks a a'' := by
  intro s p'' hp''
  obtain ⟨p', hp', hside', hq'⟩ := h' s p'' hp''
  obtain ⟨p, hp, hside, hq⟩ := h s p' hp'
  exact ⟨p, hp, hside'.trans hside, hq'.trans hq⟩

end Shrinks

namespace PaperAdapter

/-- A reduction keeps the side and takes from the quantity, also when what is left is refused. -/
theorem closeOrReducePosition_shrinks (hq : 0 ≤ quantity)
    (h : closeOrReducePosition symbol quantity price a = (r, a')) : Shrinks a a' := by
  unfold closeOrReducePosition at h
  split at h
  · cases h
    exact .refl a
  · rename_i existing he
    dsimp only at h
    split at h
    · cases h
      intro s p hp
      rw [Dict.get_pop] at hp
      split at hp
      · cases hp
      · exact ⟨p, hp, rfl, le_refl _⟩
    · split at h
      · cases h
        exact .of_same rfl
      · rename_i left hb
        cases h
        intro s p hp
        rw [Dict.get_set] at hp
        split at hp
        · rename_i hs
          cases hp
          have hf := PositionState.build_ok hb
          have hle : left.quantity ≤ existing.quantity := by
            rw [congrArg (·.quantity) hf]
            exact sub_le_self _ (le_min hq existing.valid.1.le)
          exact ⟨existing, by rw [hs, he], congrArg (·.side) hf, hle⟩
        · exact ⟨p, hp, rfl, le_refl _⟩

theorem fillMarketOrder_shrinks (hr : req.isReduceOnly)
    (h : fillMarketOrder req a = (r, a')) : Shrinks a a' := by
  unfold fillMarketOrder at h
  split at h
  · cases h
    exact .refl a
  · split at h
    · cases h
      exact .refl a
    · simp only [if_pos hr] at h
      split at h
      all_goals
        rename_i hc
        cases h
        have hs := closeOrReducePosition_shrinks req.valid.1.le hc
        exact Shrinks.trans (.of_same rfl) hs

theorem placeOrder_shrinks (hm : req.orderType = .market) (hr : req.isReduceOnly)
    (h : placeOrder req a = (r, a')) : Shrinks a a' := by
  unfold placeOrder at h
  split at h
  · cases h
    exact .refl a
  · simp only [if_pos hm] at h
    split at h
    · rename_i hf
      cases h
      exact fillMarketOrder_shrinks hr hf
    · rename_i hf
      cases h
      exact (fillMarketOrder_shrinks hr hf).trans (.of_same rfl)

theorem exits_shrink :
    ExitsStayIn exchange.logged (fun x x' => Shrinks x.1 x'.1) where
  refl x := .refl x.1
  trans _ _ _ h h' := h.trans h'
  getPosition _ x := .refl x.1
  reduceOnly _ _ hm hr := placeOrder_shrinks hm hr rfl

end PaperAdapter

/-- The order closes the open position of its symbol, or a part of it. -/
def ClosesOnly (a : PaperAdapter) (request : OrderRequest) : Prop :=
  request.isReduceOnly = true ∧ ∃ p, a.positions.get request.symbol = some p ∧
    request.side = closeSide p.side ∧ request.quantity ≤ p.quantity

/-- At most one order has been sent in between. It closes what the symbol held before. -/
def ClosesOnce (symbol : Symbol) (x x' : PaperAdapter × List OrderRequest) : Prop :=
  ∃ sent, x'.2 = x.2 ++ sent ∧ sent.length ≤ 1 ∧
    ∀ request ∈ sent, request.symbol = symbol ∧ ClosesOnly x.1 request

namespace ClosesOnce

theorem of_same {x x' : PaperAdapter × List OrderRequest} (h : x'.2 = x.2) :
    ClosesOnce s x x' :=
  ⟨[], by simpa using h, by simp, by simp⟩

theorem placeCloseOrder {x x' : PaperAdapter × List OrderRequest}
    (hp : x.1.positions.get s = some p) (hq : quantity ≤ p.quantity)
    (h : placeCloseOrder PaperAdapter.exchange.logged s quantity mark p.side book oid x = (r, x')) :
    ClosesOnce s x x' := by
  unfold PositionManager.placeCloseOrder at h
  split at h
  · cases h
    exact .of_same rfl
  · rename_i request hb
    have hf := OrderRequest.build_ok hb
    have hsent : (PaperAdapter.exchange.logged.placeOrder request x).2.2 = x.2 ++ [request] := rfl
    have hcloses : request.symbol = s ∧ ClosesOnly x.1 request := by
      rw [ClosesOnly, hf]
      exact ⟨rfl, rfl, p, hp, rfl, hq⟩
    split at h
    all_goals
      rename_i ho
      rw [ho] at hsent
      cases h
      exact ⟨[request], hsent, le_refl _, by simpa using hcloses⟩

end ClosesOnce

theorem ExitTrigger.fraction_le_one (t : ExitTrigger) : t.fraction ≤ 1 := by
  cases t with
  | stopLoss | takeProfit | trailingStop => exact le_refl _
  | invalidation a => exact a.valid.2.2.1
  | takeProfitLevel level _ => exact level.fraction_range.2

/-- A fraction of a position is no more than the position. -/
theorem PositionState.quantity_mul_le (p : PositionState) (h : fraction ≤ 1) :
    p.quantity * fraction ≤ p.quantity :=
  mul_le_of_le_one_right p.valid.1.le h

namespace ClosesOnce

theorem getPosition {x x' : PaperAdapter × List OrderRequest}
    (h : PaperAdapter.exchange.logged.getPosition s x = (r, x')) :
    r = .ok (x.1.positions.get s) ∧ x' = x := by
  cases h
  exact ⟨rfl, rfl⟩

theorem fire {x : PaperAdapter × List OrderRequest} (hp : x.1.positions.get s = some p)
    (hc : (m.configs.get s).isSome)
    (h : fire PaperAdapter.exchange.logged s c p mark book oid t ⟨m, x⟩ = (r, d')) :
    ClosesOnce s x d'.exchange := by
  have hq := p.quantity_mul_le t.fraction_le_one
  cases r with
  | error e => exact placeCloseOrder hp hq (fire_error h).2.1
  | ok r =>
    have ho := (fire_ok hc h).1
    split at ho
    · exact placeCloseOrder hp hq ho
    · exact .of_same (by rw [ho])

/-- One trigger fires in a tick, and one order is sent by a trigger. -/
theorem tick {d d' : Desk (PaperAdapter × List OrderRequest)}
    (h : tick PaperAdapter.exchange.logged s mark atr book oid now d = (r, d')) :
    ClosesOnce s d.exchange d'.exchange := by
  cases tick_outcome h with
  | unread hp | absent hp | unconfigured hp | quiet hp =>
    obtain ⟨_, rfl⟩ := getPosition hp
    exact .of_same rfl
  | fired hp hc ha hd hf =>
    obtain ⟨he, rfl⟩ := getPosition hp
    refine fire (Except.ok.inj he).symm ?_ hf
    rw [ha.exits.configs, hc]
    rfl

theorem invalidate {d d' : Desk (PaperAdapter × List OrderRequest)}
    (h : triggerSetupInvalidation PaperAdapter.exchange.logged s mark book oid d = (r, d')) :
    ClosesOnce s d.exchange d'.exchange := by
  unfold triggerSetupInvalidation at h
  split at h
  · cases h
    exact .of_same rfl
  · rename_i action _
    split at h
    · rename_i hp
      obtain ⟨_, rfl⟩ := getPosition hp
      cases h
      exact .of_same rfl
    · rename_i hp
      obtain ⟨_, rfl⟩ := getPosition hp
      cases h
      exact .of_same rfl
    · rename_i p x hp
      obtain ⟨he, rfl⟩ := getPosition hp
      have hp' := (Except.ok.inj he).symm
      have hq := p.quantity_mul_le action.valid.2.2.1
      split at h
      · rename_i ha
        cases h
        exact placeCloseOrder hp' hq (applyInvalidationAction_error ha).2.1
      · rename_i ha
        cases h
        have ho := (applyInvalidationAction_ok ha).1
        split at ho
        · exact placeCloseOrder hp' hq ho
        · exact .of_same (by rw [ho])

theorem tickSymbol {d d' : Desk (PaperAdapter × List OrderRequest)}
    (h : tickSymbol PaperAdapter.exchange.logged i s d = (o, d')) :
    ClosesOnce s d.exchange d'.exchange := by
  unfold PositionTickService.tickSymbol at h
  split at h
  · cases h
    exact .of_same rfl
  · split at h
    all_goals
      rename_i ht
      have hx := tick ht
      cases h
      exact hx

end ClosesOnce

/-- The orders sent in between are for different symbols. -/
def OnceEach (x x' : PaperAdapter × List OrderRequest) : Prop :=
  ∃ sent, x'.2 = x.2 ++ sent ∧ (sent.map (·.symbol)).Nodup

/-- In the middle of a cycle no order has been sent for a symbol that is still to come. -/
def OnceEachBut (ss : List Symbol) (x x' : PaperAdapter × List OrderRequest) : Prop :=
  ss.Nodup ∧ ∃ sent, x'.2 = x.2 ++ sent ∧ (sent.map (·.symbol)).Nodup ∧
    ∀ request ∈ sent, request.symbol ∉ ss

theorem OnceEachBut.closesOnce {x y z : PaperAdapter × List OrderRequest}
    (h : OnceEachBut (s :: ss) x y) (hs : ClosesOnce s y z) : OnceEachBut ss x z := by
  obtain ⟨hnodup, sent, hsent, hdistinct, hother⟩ := h
  obtain ⟨hnot, hss⟩ := List.nodup_cons.mp hnodup
  obtain ⟨new, hnew, hlength, hcloses⟩ := hs
  refine ⟨hss, sent ++ new, by rw [hnew, hsent, List.append_assoc], ?_, ?_⟩
  · rw [List.map_append]
    refine hdistinct.append ?_ ?_
    · rcases new with _ | ⟨request, _ | ⟨_, _⟩⟩
      · exact List.nodup_nil
      · exact List.nodup_singleton _
      · simp at hlength
    · intro symbol hold hadded
      obtain ⟨request, hm, rfl⟩ := List.mem_map.mp hold
      obtain ⟨request', hm', he⟩ := List.mem_map.mp hadded
      apply hother request hm
      rw [← he, (hcloses request' hm').1]
      exact List.mem_cons_self
  · intro request hm
    rcases List.mem_append.mp hm with hm | hm
    · exact fun hin => hother request hm (List.mem_cons_of_mem _ hin)
    · rw [(hcloses request hm).1]
      exact hnot

/-- A cycle visits every configured symbol once, and is done with it then. -/
theorem tickAll_onceEach (i : CycleInputs) (d : Desk (PaperAdapter × List OrderRequest)) :
    OnceEach d.exchange (tickAll PaperAdapter.exchange.logged i d).2.exchange := by
  obtain ⟨_, sent, hsent, hdistinct, _⟩ := tickSymbols_invariant
    (I := fun ss d' => OnceEachBut ss d.exchange d'.exchange)
    (fun _ _ _ _ _ h ht => h.closesOnce (ClosesOnce.tickSymbol ht)) d.manager.configuredSymbols d
    ⟨d.manager.configs.nodup, [], by simp⟩
  exact ⟨sent, hsent, hdistinct⟩

/-- What an event of the manager may do to the exchange. The world may do anything. -/
def DeskEvent.Respects : DeskEvent → PaperAdapter × List OrderRequest →
    PaperAdapter × List OrderRequest → Prop
  | .tick s _ _ _ _ _, x, x' | .invalidate s _ _ _, x, x' =>
    ClosesOnce s x x' ∧ Shrinks x.1 x'.1
  | .setConfig _, x, x' | .updateSl _ _, x, x' | .updateTp _ _, x, x' | .removeConfig _, x, x' =>
    x' = x
  | .world, _, _ => True

theorem DeskStep.respects (h : DeskStep PaperAdapter.exchange.logged d e d') :
    e.Respects d.exchange d'.exchange := by
  cases h with
  | setConfig | updateSl | updateTp | removeConfig => rfl
  | invalidate h =>
    exact ⟨ClosesOnce.invalidate h, PaperAdapter.exits_shrink.triggerSetupInvalidation h⟩
  | tick h => exact ⟨ClosesOnce.tick h, PaperAdapter.exits_shrink.tick h⟩
  | world => trivial

theorem DeskEvent.Respects.shrinks {e : DeskEvent} (h : e.Respects x x') (he : e ≠ .world) :
    Shrinks x.1 x'.1 := by
  cases e with
  | tick | invalidate => exact h.2
  | setConfig | updateSl | updateTp | removeConfig =>
    cases h
    exact .refl _
  | world => exact absurd rfl he

/-- In every run each tick and each invalidation sends at most one order, which asks for no
more than the position holds, and no position ever grows or turns unless the world makes it.
A cycle of the tick service sends at most one order for each symbol. -/
theorem manager_only_closes
    (hr : Run (Recorded (DeskStep PaperAdapter.exchange.logged)) d trace d') :
    (∀ t ∈ trace, t.2.1.Respects t.1.exchange t.2.2.exchange) ∧
    ((∀ t ∈ trace, t.2.1 ≠ .world) → Shrinks d.exchange.1 d'.exchange.1) ∧
    ∀ i, OnceEach d'.exchange (tickAll PaperAdapter.exchange.logged i d').2.exchange ∧
      Shrinks d'.exchange.1 (tickAll PaperAdapter.exchange.logged i d').2.exchange.1 := by
  have heach : ∀ t ∈ trace, t.2.1.Respects t.1.exchange t.2.2.exchange :=
    hr.each (fun _ _ _ h => h.respects)
  refine ⟨heach, ?_, ?_⟩
  · intro hown
    refine hr.stays (R := fun d d' => Shrinks d.exchange.1 d'.exchange.1) ?_ ?_ ?_
    · exact fun d => .refl _
    · exact fun _ _ _ h h' => h.trans h'
    · exact fun t hm _ => (heach t hm).shrinks (hown t hm)
  · exact fun i => ⟨tickAll_onceEach i d', PaperAdapter.exits_shrink.tickSymbols i _ d'⟩

/-- The desk with the whole level, and no order sent by it yet. -/
def loggedDesk : Desk (PaperAdapter × List OrderRequest) :=
  ⟨(deskWith wholeLevel).manager, bought, []⟩

theorem whole_level_closes_once :
    ClosesOnce "BTCUSDT" loggedDesk.exchange
      (tick PaperAdapter.exchange.logged "BTCUSDT" 110 none none "close" 0 loggedDesk).2.exchange :=
  ((manager_only_closes (.snoc (.nil loggedDesk) ⟨rfl, rfl, .tick rfl⟩)).1
    (loggedDesk, .tick "BTCUSDT" 110 none none "close" 0, _) (List.mem_singleton_self _)).1

end FuturesBot
