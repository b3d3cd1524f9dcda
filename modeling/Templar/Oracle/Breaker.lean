import Templar.Lib.RingBuffer
import Templar.Oracle.Price

/-!
# Circuit-breaker rules

A rule looks at the history of accepted prices that ends with the candidate and
says whether the breaker that carries it trips. Before a rule is stored it is
checked against the sampling interval and the length of the history it will see.
-/

namespace Templar.Oracle

open Checked

structure Observation where
  price : Price
  observedAtNs : Nat
  deriving DecidableEq

inductive CircuitBreakerStatus where
  | armedAfter (timestampNs : Nat)
  | tripped (trippedAtNs : Nat) (priceUpdate : Observation)
  deriving DecidableEq

def CircuitBreakerStatus.isTripped : CircuitBreakerStatus → Bool
  | .armedAfter _ => false
  | .tripped _ _ => true

class CircuitBreakerRule (R : Type) where
  shouldTrip : R → RingBuffer Observation → Bool
  isValidFor : R → (sampleIntervalNs historyLen : Nat) → Bool := fun _ _ _ => true

structure StepwiseChange where
  maxRelativeChange : Decimal
  deriving DecidableEq

def StepwiseChange.shouldTrip (rule : StepwiseChange) (history : RingBuffer Observation) : Bool :=
  if history.length < 2 then false
  else
    match history.get (history.length - 2), history.get (history.length - 1) with
    | some previous, some current =>
      relativeAbsChangeExceeds previous.price current.price rule.maxRelativeChange
    | _, _ => false

structure MonotonicRun where
  maxStreak : Nat
  minRelativeStepChange : Decimal
  deriving DecidableEq

/-- The loop over adjacent prices, newest first, with the direction of the run and
its length so far. -/
def MonotonicRun.scan (rule : MonotonicRun) : Option StepChange → Nat → List Price → Bool
  | direction, streak, current :: previous :: older =>
    let stepChange := classifyStepChange previous current rule.minRelativeStepChange
    if stepChange = .minor then false
    else if direction.any (· ≠ stepChange) then false
    else
      let streak := saturatingAdd 32 streak 1
      if rule.maxStreak ≤ streak then true
      else rule.scan (some stepChange) streak (previous :: older)
  | _, _, _ => false

def MonotonicRun.shouldTrip (rule : MonotonicRun) (history : RingBuffer Observation) : Bool :=
  if rule.maxStreak = 0 ∨ history.length < 2 then false
  else rule.scan none 0 (history.entries.reverse.map (·.price))

structure WindowedChangeDelta where
  windowLen : Nat
  lookbackWindows : Nat
  maxRelativeMeanChange : Decimal
  deriving DecidableEq

/-- The prices of the window of the given length that starts at `start`. -/
def windowPrices (history : RingBuffer Observation) (start windowLen : Nat) : List Price :=
  ((history.entries.drop start).take windowLen).map (·.price)

/-- Where the product of the two lengths leaves `usize` the source answers `false`; so does this, since
no history is that long. -/
def WindowedChangeDelta.shouldTrip (rule : WindowedChangeDelta)
    (history : RingBuffer Observation) : Bool :=
  if rule.windowLen < 2 ∨ rule.lookbackWindows = 0 then false
  else
    match checkedSub history.length rule.windowLen with
    | none => false
    | some currentStart =>
      match checkedSub currentStart (rule.lookbackWindows * rule.windowLen) with
      | none => false
      | some previousStart =>
        relativeSumChangeExceeds (windowPrices history previousStart rule.windowLen)
          (windowPrices history currentStart rule.windowLen) rule.maxRelativeMeanChange

structure CumulativeChange where
  baseline : Price
  maxRelativeChange : Decimal
  deriving DecidableEq

def CumulativeChange.shouldTrip (rule : CumulativeChange) (history : RingBuffer Observation) :
    Bool :=
  history.last.any fun observation =>
    relativeAbsChangeExceeds rule.baseline observation.price rule.maxRelativeChange

inductive CircuitBreaker where
  | stepwiseChange (rule : StepwiseChange)
  | monotonicRun (rule : MonotonicRun)
  | windowedChangeDelta (rule : WindowedChangeDelta)
  | cumulativeChange (rule : CumulativeChange)
  deriving DecidableEq

namespace CircuitBreaker

def shouldTrip : CircuitBreaker → RingBuffer Observation → Bool
  | stepwiseChange rule => rule.shouldTrip
  | monotonicRun rule => rule.shouldTrip
  | windowedChangeDelta rule => rule.shouldTrip
  | cumulativeChange rule => rule.shouldTrip

def validThreshold (threshold : Decimal) : Bool := threshold ≠ Decimal.zero ∧ threshold ≤ Decimal.one

def isValidFor (breaker : CircuitBreaker) (sampleIntervalNs historyLen : Nat) : Bool :=
  match breaker with
  | stepwiseChange rule => 2 ≤ historyLen && validThreshold rule.maxRelativeChange
  | monotonicRun rule =>
    0 < rule.maxStreak && rule.maxStreak < historyLen && sampleIntervalNs = 0 &&
      validThreshold rule.minRelativeStepChange
  | windowedChangeDelta rule =>
    2 ≤ rule.windowLen && 0 < rule.lookbackWindows &&
      ((checkedAdd 32 rule.lookbackWindows 1).bind (checkedMul 32 rule.windowLen)).any
        (· ≤ historyLen) &&
      validThreshold rule.maxRelativeMeanChange
  | cumulativeChange rule =>
    1 ≤ historyLen && rule.baseline.hasStrictlyPositiveConfidenceInterval &&
      validThreshold rule.maxRelativeChange

instance : CircuitBreakerRule CircuitBreaker where
  shouldTrip := shouldTrip
  isValidFor := isValidFor

end CircuitBreaker

end Templar.Oracle
