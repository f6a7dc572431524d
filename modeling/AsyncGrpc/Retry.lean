import AsyncGrpc.Basic
import Mathlib.Data.Finset.Insert

/-!
# Retrying an operation

The functions of `retry.cc`. A `RetryStrategy` is asked with the number of failed attempts and
answers with a delay or gives up. Durations are abstract. The loop of `RetryWithStrategy` acts
on a state through the functions it is given, so that one definition serves every caller; it
takes fuel, one unit for each attempt.
-/

namespace AsyncGrpc

variable {σ Duration Factor : Type}

abbrev RetryIndicator := Int → Status → Bool

/-- The result is none where a `CHECK` fails. -/
abbrev RetryDelayCalculator (Duration : Type) := Int → Option Duration

/-- Gives up, asks for another attempt after a delay, or fails a `CHECK`. -/
inductive RetryAnswer (Duration : Type)
  | giveUp
  | retry (delay : Duration)
  | checkFailed
  deriving DecidableEq, Repr

abbrev RetryStrategy (Duration : Type) := Int → Status → RetryAnswer Duration

def createRetryStrategy (retryIndicator : RetryIndicator)
    (retryDelayCalculator : RetryDelayCalculator Duration) : RetryStrategy Duration :=
  fun failedAttempts status =>
    if !retryIndicator failedAttempts status then .giveUp
    else match retryDelayCalculator failedAttempts with
    | some delay => .retry delay
    | none => .checkFailed

def createLimitedRetryIndicator (maxAttempts : Int) : RetryIndicator :=
  fun failedAttempts _ => failedAttempts < maxAttempts

def createUnlimitedRetryIndicator : RetryIndicator :=
  fun _ _ => true

/-- The overload of `CreateUnlimitedRetryIndicator` with a set of unrecoverable codes. -/
def createUnlimitedRetryIndicatorExcept (unrecoverableCodes : Finset StatusCode) :
    RetryIndicator :=
  fun _ status => status.errorCode ∉ unrecoverableCodes

/-- The function `scale` multiplies a duration by a power of the backoff factor, which the
source computes in floating point. -/
def createBackoffDelayCalculator (scale : Factor → Int → Duration → Duration)
    (minDelay : Duration) (backoffFactor : Factor) : RetryDelayCalculator Duration :=
  fun failedAttempts =>
    if 0 ≤ failedAttempts then some (scale backoffFactor (failedAttempts - 1) minDelay) else none

def createConstantDelayCalculator (delay : Duration) : RetryDelayCalculator Duration :=
  fun _ => some delay

def createLimitedBackoffStrategy (scale : Factor → Int → Duration → Duration)
    (minDelay : Duration) (backoffFactor : Factor) (maxAttempts : Int) : RetryStrategy Duration :=
  createRetryStrategy (createLimitedRetryIndicator maxAttempts)
    (createBackoffDelayCalculator scale minDelay backoffFactor)

def createUnlimitedConstantDelayStrategy (delay : Duration) : RetryStrategy Duration :=
  createRetryStrategy createUnlimitedRetryIndicator (createConstantDelayCalculator delay)

/-- The overload of `CreateUnlimitedConstantDelayStrategy` with a set of unrecoverable codes. -/
def createUnlimitedConstantDelayStrategyExcept (delay : Duration)
    (unrecoverableCodes : Finset StatusCode) : RetryStrategy Duration :=
  createRetryStrategy (createUnlimitedRetryIndicatorExcept unrecoverableCodes)
    (createConstantDelayCalculator delay)

/-- What `RetryWithStrategy` calls, as functions on the state of the caller. An empty
`std::function` is none. -/
structure RetryCalls (σ Duration : Type) where
  strategy : Option (Int → Status → σ → RetryAnswer Duration × σ)
  op : σ → Status × σ
  sleepFor : Duration → σ → σ
  reset : Option (σ → σ)

inductive RetryResult
  | returned (result : Bool)
  | checkFailed
  deriving DecidableEq, Repr

/-- The loop of `RetryWithStrategy`, entered with the number of failed attempts so far. The
result is none when the fuel runs out. -/
def retryLoop (calls : RetryCalls σ Duration) : Nat → Int → σ → Option (RetryResult × σ)
  | 0, _, _ => none
  | fuel + 1, failedAttempts, s =>
    let (status, s) := calls.op s
    if status.isOk then some (.returned true, s)
    else match calls.strategy with
    | none => some (.returned false, s)
    | some strategy =>
      match strategy (failedAttempts + 1) status s with
      | (.giveUp, s) => some (.returned false, s)
      | (.checkFailed, s) => some (.checkFailed, s)
      | (.retry delay, s) =>
        retryLoop calls fuel (failedAttempts + 1) ((calls.reset.getD id) (calls.sleepFor delay s))

def retryWithStrategy (calls : RetryCalls σ Duration) (fuel : Nat) (s : σ) :
    Option (RetryResult × σ) :=
  retryLoop calls fuel 0 s

end AsyncGrpc
