import AsyncGrpc.Retry
import Mathlib.Order.Bounds.Basic
import Mathlib.Algebra.Order.Group.Int
import Mathlib.Order.Lattice.Nat

/-!
# The attempts of `RetryWithStrategy`

The loop is run with functions that record each call. Its trace is a number of full rounds,
each a failed attempt, a question to the strategy, a sleep and a reset, and then the attempt
that ends it.
-/

namespace AsyncGrpc.Proofs

variable {Duration Factor : Type}

/-- A rule for the loop: what holds before each attempt, and after each attempt with its status.
An execution that returns does so after some attempt, with whether that attempt succeeded. -/
lemma retryLoop_rule {σ : Type} {calls : RetryCalls σ Duration} {P : σ → Prop} {Q : Status → σ → Prop}
    (hop : ∀ s, P s → Q (calls.op s).1 (calls.op s).2)
    (hask : ∀ f, calls.strategy = some f → ∀ m status s, Q status s → Q status (f m status s).2)
    (hagain : ∀ status s delay, Q status s → P ((calls.reset.getD id) (calls.sleepFor delay s)))
    {fuel : Nat} {m : Int} {s s' : σ} {b : Bool} (hs : P s)
    (h : retryLoop calls fuel m s = some (.returned b, s')) : ∃ status, Q status s' ∧ b = status.isOk := by
  induction fuel generalizing m s with
  | zero => cases h
  | succ fuel ih =>
    have hQ := hop s hs
    simp only [retryLoop] at h
    split at h
    · rename_i hok
      cases h
      exact ⟨_, hQ, hok.symm⟩
    · rename_i hfail
      have hfail' : (calls.op s).1.isOk = false := by simpa using hfail
      split at h
      · cases h
        exact ⟨_, hQ, hfail'.symm⟩
      · rename_i f hf
        have hQ' := hask f hf (m + 1) (calls.op s).1 (calls.op s).2 hQ
        split at h
        · rename_i t hask
          cases h
          rw [hask] at hQ'
          exact ⟨_, hQ', hfail'.symm⟩
        · cases h
        · rename_i delay t hask
          rw [hask] at hQ'
          exact ih (hagain _ _ delay hQ') h

inductive RetryEvent (Duration : Type)
  | op (status : Status)
  | ask (failedAttempts : Int) (status : Status)
  | sleepFor (delay : Duration)
  | reset
  deriving DecidableEq, Repr

/-- The number of attempts made, and all calls in order. -/
structure RetryRecord (Duration : Type) where
  attempts : Nat
  events : List (RetryEvent Duration)
  deriving DecidableEq, Repr

def RetryRecord.add (s : RetryRecord Duration) (e : RetryEvent Duration) : RetryRecord Duration :=
  { s with events := s.events ++ [e] }

/-- The operation returns the given statuses one after another, the first of them being
`statuses 1`, and every call is recorded. -/
def recorded (strategy : Option (RetryStrategy Duration)) (statuses : Nat → Status) :
    RetryCalls (RetryRecord Duration) Duration where
  strategy := strategy.map (fun f failedAttempts status s =>
    (f failedAttempts status, s.add (.ask failedAttempts status)))
  op s := (statuses (s.attempts + 1),
    { s.add (.op (statuses (s.attempts + 1))) with attempts := s.attempts + 1 })
  sleepFor delay s := s.add (.sleepFor delay)
  reset := some (fun s => s.add .reset)

/-- A failed attempt that is followed by another one. -/
def round (D : Int → Duration) (statuses : Nat → Status) (j : Nat) : List (RetryEvent Duration) :=
  [.op (statuses j), .ask j (statuses j), .sleepFor (D j), .reset]

/-- The calls of an execution that ends with attempt `k`. -/
def retryTrace (D : Int → Duration) (statuses : Nat → Status) (k : Nat) :
    List (RetryEvent Duration) :=
  (List.range' 1 (k - 1)).flatMap (round D statuses) ++ .op (statuses k) ::
    if (statuses k).isOk then [] else [.ask k (statuses k)]

/-- The attempts that end the loop: those that succeed or that the indicator gives up on. -/
def Ends (I : RetryIndicator) (statuses : Nat → Status) (j : Nat) : Prop :=
  1 ≤ j ∧ ((statuses j).isOk = true ∨ I j (statuses j) = false)

section Rounds

variable {I : RetryIndicator} {calculator : RetryDelayCalculator Duration} {D : Int → Duration}
  {statuses : Nat → Status}

lemma retryLoop_round (hD : ∀ j : Nat, 1 ≤ j → calculator j = some (D j)) {m : Nat}
    (hm : ¬Ends I statuses (m + 1)) (fuel : Nat) (events : List (RetryEvent Duration)) :
    retryLoop (recorded (some (createRetryStrategy I calculator)) statuses) (fuel + 1) m ⟨m, events⟩ =
      retryLoop (recorded (some (createRetryStrategy I calculator)) statuses) fuel (m + 1 : Nat)
        ⟨m + 1, events ++ round D statuses (m + 1)⟩ := by
  have hok : (statuses (m + 1)).isOk = false := by
    by_contra h
    exact hm ⟨by omega, .inl (by simpa using h)⟩
  have hI : I (m + 1 : Nat) (statuses (m + 1)) = true := by
    by_contra h
    exact hm ⟨by omega, .inr (by simpa using h)⟩
  have hask : createRetryStrategy I calculator (m + 1 : Nat) (statuses (m + 1)) =
      .retry (D (m + 1 : Nat)) := by
    simp only [createRetryStrategy, hI, hD (m + 1) (by omega)]
    rfl
  push_cast at hask ⊢
  simp [retryLoop, recorded, hok, hask, RetryRecord.add, round]

lemma retryLoop_rounds (hD : ∀ j : Nat, 1 ≤ j → calculator j = some (D j)) {n : Nat}
    (hn : ∀ j ≤ n, ¬Ends I statuses j) (fuel : Nat) :
    retryLoop (recorded (some (createRetryStrategy I calculator)) statuses) (fuel + n) (0 : Nat) ⟨0, []⟩ =
      retryLoop (recorded (some (createRetryStrategy I calculator)) statuses) fuel n
        ⟨n, (List.range' 1 n).flatMap (round D statuses)⟩ := by
  induction n generalizing fuel with
  | zero => rfl
  | succ n ih =>
    rw [← Nat.add_assoc, Nat.add_right_comm, ih (fun j hj => hn j (by omega)) (fuel + 1),
      retryLoop_round hD (hn (n + 1) le_rfl), List.range'_concat, List.flatMap_append]
    simp [Nat.add_comm]

/-- The attempt that ends the loop. -/
lemma retryLoop_end {m : Nat} (hm : Ends I statuses (m + 1)) (fuel : Nat)
    (events : List (RetryEvent Duration)) :
    retryLoop (recorded (some (createRetryStrategy I calculator)) statuses) (fuel + 1) m ⟨m, events⟩ =
      some (.returned (statuses (m + 1)).isOk, ⟨m + 1, events ++ .op (statuses (m + 1)) ::
        if (statuses (m + 1)).isOk then [] else [.ask (m + 1 : Nat) (statuses (m + 1))]⟩) := by
  cases hok : (statuses (m + 1)).isOk with
  | true => simp [retryLoop, recorded, hok, RetryRecord.add]
  | false =>
    have hI : I (m + 1 : Nat) (statuses (m + 1)) = false := hm.2.resolve_left (by simp [hok])
    have hask : createRetryStrategy I calculator (m + 1 : Nat) (statuses (m + 1)) = .giveUp := by
      simp only [createRetryStrategy, hI]
      rfl
    push_cast at hask ⊢
    simp [retryLoop, recorded, hok, hask, RetryRecord.add]

/-- The whole execution, for any fuel that allows for its attempts. -/
theorem retryWithStrategy_eq (hD : ∀ j : Nat, 1 ≤ j → calculator j = some (D j)) {k : Nat}
    (hk : IsLeast {j | Ends I statuses j} k) {fuel : Nat} (hfuel : k ≤ fuel) :
    retryWithStrategy (recorded (some (createRetryStrategy I calculator)) statuses) fuel ⟨0, []⟩ =
      some (.returned (statuses k).isOk, ⟨k, retryTrace D statuses k⟩) := by
  have hends : Ends I statuses k := hk.1
  obtain ⟨m, rfl⟩ : ∃ m, k = m + 1 := ⟨k - 1, by have := hends.1; omega⟩
  obtain ⟨rest, rfl⟩ : ∃ rest, fuel = rest + 1 + m := ⟨fuel - (m + 1), by omega⟩
  have hrounds : ∀ j ≤ m, ¬Ends I statuses j := by
    intro j hj h
    have := hk.2 h
    omega
  have hloop := retryLoop_rounds hD hrounds (rest + 1)
  unfold retryWithStrategy
  rw [show (0 : Int) = (0 : Nat) from rfl, hloop, retryLoop_end hends]
  rfl

end Rounds

/-! ### The law -/

lemma exists_isLeast_ends {I : RetryIndicator} {statuses : Nat → Status} {n : Nat}
    (hn : Ends I statuses n) : ∃ k, IsLeast {j | Ends I statuses j} k ∧ k ≤ n := by
  classical
  have h : ∃ j, Ends I statuses j := ⟨n, hn⟩
  exact ⟨Nat.find h, ⟨Nat.find_spec h, fun j hj => Nat.find_min' h hj⟩, Nat.find_min' h hn⟩

/-- With at most `n` attempts allowed, attempt `n` ends the loop if no earlier one does. -/
lemma limited_ends (n : Int) (statuses : Nat → Status) :
    Ends (createLimitedRetryIndicator n) statuses (max n 1).toNat := by
  refine ⟨by omega, .inr ?_⟩
  simp only [createLimitedRetryIndicator, decide_eq_false_iff_not]
  omega

lemma backoff_eq (scale : Factor → Int → Duration → Duration) (minDelay : Duration)
    (backoffFactor : Factor) (j : Nat) :
    createBackoffDelayCalculator scale minDelay backoffFactor j =
      some (scale backoffFactor (j - 1) minDelay) := by
  simp [createBackoffDelayCalculator]

def sleeps (events : List (RetryEvent Duration)) : List Duration :=
  events.filterMap (fun e => match e with
    | .sleepFor delay => some delay
    | _ => none)

lemma sleeps_retryTrace (D : Int → Duration) (statuses : Nat → Status) (k : Nat) :
    sleeps (retryTrace D statuses k) = (List.range' 1 (k - 1)).map (fun j => D (j : Nat)) := by
  have hrounds : ∀ js : List Nat, sleeps (js.flatMap (round D statuses)) =
      js.map (fun j => D (j : Nat)) := by
    intro js
    induction js with
    | nil => rfl
    | cons j js ih =>
      simp only [sleeps, List.flatMap_cons, List.filterMap_append, List.map_cons] at ih ⊢
      rw [ih]
      rfl
  have hlast : sleeps ((.op (statuses k) :: if (statuses k).isOk then [] else [.ask k (statuses k)]) :
      List (RetryEvent Duration)) = [] := by
    cases (statuses k).isOk <;> rfl
  unfold retryTrace
  rw [← hrounds, ← List.append_nil (sleeps (List.flatMap _ _)), ← hlast]
  exact List.filterMap_append

/-- The counter of failed attempts stays within the attempts made. -/
lemma ask_mem_retryTrace {D : Int → Duration} {statuses : Nat → Status} {k : Nat} (hk : 1 ≤ k)
    {m : Int} {status : Status} (h : .ask m status ∈ retryTrace D statuses k) : 1 ≤ m ∧ m ≤ k := by
  simp only [retryTrace, round, List.mem_append, List.mem_flatMap, List.mem_range'_1, List.mem_cons,
    List.not_mem_nil, RetryEvent.ask.injEq, reduceCtorEq, false_or, or_false] at h
  rcases h with ⟨j, hj, rfl, -⟩ | h
  · omega
  · split at h
    · cases h
    · simp only [List.mem_singleton, RetryEvent.ask.injEq] at h
      omega

/-- The law of `RetryWithStrategy`. The first attempt that succeeds or that the indicator gives
up on ends the loop, and the trace is known. Without a strategy this is the first attempt. With
a limited backoff there is such an attempt within the allowed number, the `CHECK` of the delay
calculator never fails and the counter of failed attempts stays in the same bound. -/
theorem retry_trace_law :
    (∀ (I : RetryIndicator) (D : Int → Duration) (statuses : Nat → Status) (k fuel : Nat),
      IsLeast {j | Ends I statuses j} k → k ≤ fuel →
      retryWithStrategy (recorded (some (createRetryStrategy I (fun j => some (D j)))) statuses)
          fuel ⟨0, []⟩ = some (.returned (statuses k).isOk, ⟨k, retryTrace D statuses k⟩) ∧
        sleeps (retryTrace D statuses k) = (List.range' 1 (k - 1)).map (fun j => D (j : Nat))) ∧
    (∀ (statuses : Nat → Status) (fuel : Nat), 1 ≤ fuel →
      retryWithStrategy (recorded (none : Option (RetryStrategy Duration)) statuses) fuel ⟨0, []⟩ =
        some (.returned (statuses 1).isOk, ⟨1, [.op (statuses 1)]⟩)) ∧
    ∀ (scale : Factor → Int → Duration → Duration) (minDelay : Duration) (backoffFactor : Factor)
      (n : Int) (statuses : Nat → Status),
      ∃ k : Nat, IsLeast {j | Ends (createLimitedRetryIndicator n) statuses j} k ∧ k ≤ max n 1 ∧
        ∃ events, (∀ fuel ≥ k, retryWithStrategy
            (recorded (some (createLimitedBackoffStrategy scale minDelay backoffFactor n)) statuses)
            fuel ⟨0, []⟩ = some (.returned (statuses k).isOk, ⟨k, events⟩)) ∧
          ∀ m status, .ask m status ∈ events → 1 ≤ m ∧ m ≤ max n 1 := by
  refine ⟨fun I D statuses k fuel hk hfuel => ?_, fun statuses fuel hfuel => ?_,
    fun scale minDelay backoffFactor n statuses => ?_⟩
  · exact ⟨retryWithStrategy_eq (fun _ _ => rfl) hk hfuel, sleeps_retryTrace D statuses k⟩
  · obtain ⟨rest, rfl⟩ : ∃ rest, fuel = rest + 1 := ⟨fuel - 1, by omega⟩
    cases hok : (statuses 1).isOk <;>
      simp [retryWithStrategy, retryLoop, recorded, hok, RetryRecord.add]
  · obtain ⟨k, hk, hle⟩ := exists_isLeast_ends (limited_ends n statuses)
    have hbound : (k : Int) ≤ max n 1 := by omega
    refine ⟨k, hk, hbound, retryTrace (fun j => scale backoffFactor (j - 1) minDelay) statuses k,
      fun fuel hfuel => ?_, fun m status h => ?_⟩
    · exact retryWithStrategy_eq (fun j _ => backoff_eq scale minDelay backoffFactor j) hk hfuel
    · have := ask_mem_retryTrace hk.1.1 h
      omega

/-- Two failures and then a success, with a delay that doubles. -/
theorem retry_trace_law_of_run :
    let statuses : Nat → Status := fun j => if j < 3 then ⟨.unavailable, ""⟩ else .ok
    let D : Int → Nat := fun j => 2 ^ j.toNat
    IsLeast {j | Ends createUnlimitedRetryIndicator statuses j} 3 ∧
      sleeps (retryTrace D statuses 3) = [2, 4] ∧
      retryWithStrategy (recorded (some (createRetryStrategy createUnlimitedRetryIndicator
        (fun j => some (D j)))) statuses) 5 ⟨0, []⟩ =
          some (.returned true, ⟨3, retryTrace D statuses 3⟩) := by
  intro statuses D
  have hleast : IsLeast {j | Ends createUnlimitedRetryIndicator statuses j} 3 := by
    refine ⟨⟨by decide, .inl rfl⟩, fun j hj => ?_⟩
    by_contra hlt
    rcases hj.2 with h | h
    · rw [show statuses j = ⟨.unavailable, ""⟩ from if_pos (by omega)] at h
      cases h
    · cases h
  have hlaw := (@retry_trace_law Nat Unit).1 createUnlimitedRetryIndicator D statuses 3 5 hleast
    (by decide)
  exact ⟨hleast, hlaw.2, hlaw.1⟩

end AsyncGrpc.Proofs
