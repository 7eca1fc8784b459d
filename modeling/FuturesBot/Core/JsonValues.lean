import Mathlib.Data.Int.Notation
import Mathlib.Data.Nat.Notation

namespace FuturesBot

/-- What may be raised where a decoded value is taken apart. Of the errors of `json.loads` only the
one for texts that are no JSON has a name of its own. -/
inductive UnexpectedError
  | keyError | indexError | typeError | attributeError | assertionError | overflowError
  | jsonDecodeError
  | loadsError (name : String)
  deriving DecidableEq, Repr

/-- A decoded JSON value. A number that is no integer stays as it is written. -/
inductive JsonValue
  | null
  | bool (b : Bool)
  | int (n : ℤ)
  | float (literal : String)
  | str (text : String)
  | array (items : List JsonValue)
  | object (fields : List (String × JsonValue))

namespace JsonValue

/-- `value[key]` -/
def item (key : String) : JsonValue → Except UnexpectedError JsonValue
  | object fields =>
    match fields.lookup key with
    | some value => .ok value
    | none => .error .keyError
  | null | bool _ | int _ | float _ | str _ | array _ => .error .typeError

/-- `value[0]`. No key of an object is a number. -/
def first : JsonValue → Except UnexpectedError JsonValue
  | array (value :: _) => .ok value
  | array [] => .error .indexError
  | str text =>
    match text.toList with
    | c :: _ => .ok (str (String.ofList [c]))
    | [] => .error .indexError
  | object _ => .error .keyError
  | null | bool _ | int _ | float _ => .error .typeError

/-- `value.get(key, default)` -/
def get (value : JsonValue) (key : String) (default : JsonValue) :
    Except UnexpectedError JsonValue :=
  match value with
  | object fields => .ok ((fields.lookup key).getD default)
  | null | bool _ | int _ | float _ | str _ | array _ => .error .attributeError

def isLength : JsonValue → Bool
  | str text => text = "length"
  | null | bool _ | int _ | float _ | array _ | object _ => false

def isObject : JsonValue → Bool
  | object _ => true
  | null | bool _ | int _ | float _ | str _ | array _ => false

def isNull : JsonValue → Bool
  | null => true
  | bool _ | int _ | float _ | str _ | array _ | object _ => false

/-- Nothing, or a natural number. -/
def isCount : JsonValue → Bool
  | null => true
  | int n => 0 ≤ n
  | bool _ | float _ | str _ | array _ | object _ => false

theorem isCount_iff (v : JsonValue) : v.isCount ↔ v = null ∨ ∃ n : ℕ, v = int n := by
  cases v with
  | int n =>
    simp only [isCount, decide_eq_true_eq, int.injEq, reduceCtorEq, false_or]
    exact ⟨fun h => ⟨n.toNat, (Int.toNat_of_nonneg h).symm⟩, fun ⟨m, h⟩ => h ▸ Int.natCast_nonneg m⟩
  | null => simp [isCount]
  | bool _ | float _ | str _ | array _ | object _ => simp [isCount]

/-- The integer that a value counts as; a truth value is one, too. -/
def asInt : JsonValue → Option ℤ
  | int n => some n
  | bool b => some b.toInt
  | null | float _ | str _ | array _ | object _ => none

end JsonValue

end FuturesBot
