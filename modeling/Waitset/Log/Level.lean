/-
# Waitset.Log.Level -- how severe a log record is
-/

namespace Waitset.Log

/-- The severity of a record, from the least to the most severe. -/
inductive Level where
  | trace
  | debug
  | info
  | warn
  | error
  deriving DecidableEq, Repr

namespace Level

/-- The place of a level in the order of severity. -/
def rank : Level → Nat
  | trace => 0
  | debug => 1
  | info => 2
  | warn => 3
  | error => 4

/-- Whether a record of this level passes a filter that asks for at least `least`. -/
def passes (level least : Level) : Bool := decide (least.rank ≤ level.rank)

/-- The name of a level in records. -/
def name : Level → String
  | trace => "TRACE"
  | debug => "DEBUG"
  | info => "INFO"
  | warn => "WARN"
  | error => "ERROR"

/-- The level of a lower-case word; every other word means `info`. -/
def ofWord : String → Level
  | "trace" => trace
  | "debug" => debug
  | "warn" => warn
  | "error" => error
  | _ => info

@[simp] theorem passes_trace (level : Level) : level.passes trace = true := by
  cases level <;> rfl

@[simp] theorem passes_self (level : Level) : level.passes level = true := by
  cases level <;> rfl

end Level

end Waitset.Log
