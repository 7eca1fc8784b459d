import FuturesBot.Core.Errors
import Mathlib.Data.List.Basic

namespace FuturesBot

inductive BotState
  | active | safeMode | halted | killSwitchTriggered | manualPaused
  deriving DecidableEq, Repr

namespace BotState

/-- The text a state is stored as. -/
def value : BotState → String
  | .active => "ACTIVE"
  | .safeMode => "SAFE_MODE"
  | .halted => "HALTED"
  | .killSwitchTriggered => "KILL_SWITCH_TRIGGERED"
  | .manualPaused => "MANUAL_PAUSED"

def all : List BotState := [.active, .safeMode, .halted, .killSwitchTriggered, .manualPaused]

def ofValue (raw : String) : Option BotState := all.find? (fun s => s.value = raw)

theorem ofValue_value (s : BotState) : ofValue s.value = some s := by
  cases s <;> decide

theorem value_of_ofValue (h : ofValue raw = some s) : raw = s.value := by
  have hs := List.find?_some h
  simpa [eq_comm] using hs

/-- `_ALLOWED_TRANSITIONS`. -/
def allowedTransitions : BotState → List BotState
  | .active => [.safeMode, .halted, .killSwitchTriggered, .manualPaused]
  | .safeMode => [.active, .halted, .killSwitchTriggered, .manualPaused]
  | .halted => [.active, .killSwitchTriggered]
  | .killSwitchTriggered => [.halted]
  | .manualPaused => [.active, .safeMode]

def canTransitionTo (s target : BotState) : Bool := target ∈ s.allowedTransitions

/-- Only an active bot opens positions. -/
def canTrade (s : BotState) : Bool := s = .active

def isRunning (s : BotState) : Bool := s ≠ .halted && s ≠ .killSwitchTriggered

end BotState

/-- The state that a stored text means. Without a row the bot is active, and a text
outside the enumeration means nothing. -/
def resolvePersistedState : Option String → Option BotState
  | none => some .active
  | some raw => BotState.ofValue raw

/-- A row of `bot_state`. -/
structure BotStateRow where
  state : String
  previousState : Option String

/-- The state that a run has been left in, by its rows in the order of their
timestamps. -/
def latestState (rows : List BotStateRow) : Option String := rows.getLast?.map (·.state)

end FuturesBot
