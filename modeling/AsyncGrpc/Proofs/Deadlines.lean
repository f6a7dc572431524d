import AsyncGrpc.Proofs.Clients

/-!
# Retries after the deadline

A `Write` puts its deadline into the context of each attempt and leaves it to the strategy
whether to make another one. The attempts after the deadline all fail with
`DEADLINE_EXCEEDED`, so the retries stop there exactly when the strategy gives up on that code.
-/

namespace AsyncGrpc.Proofs

variable {Req Resp Time Duration Factor : Type}

/-- The strategies that `retry.h` provides. -/
inductive LibraryStrategy (Duration Factor : Type)
  | limitedBackoff (minDelay : Duration) (backoffFactor : Factor) (maxAttempts : Int)
  | unlimitedConstantDelay (delay : Duration)
  | unlimitedConstantDelayExcept (delay : Duration) (unrecoverableCodes : Finset StatusCode)

namespace LibraryStrategy

def strategy (scale : Factor → Int → Duration → Duration) :
    LibraryStrategy Duration Factor → RetryStrategy Duration
  | limitedBackoff minDelay backoffFactor maxAttempts =>
    createLimitedBackoffStrategy scale minDelay backoffFactor maxAttempts
  | unlimitedConstantDelay delay => createUnlimitedConstantDelayStrategy delay
  | unlimitedConstantDelayExcept delay unrecoverableCodes =>
    createUnlimitedConstantDelayStrategyExcept delay unrecoverableCodes

def indicator : LibraryStrategy Duration Factor → RetryIndicator
  | limitedBackoff _ _ maxAttempts => createLimitedRetryIndicator maxAttempts
  | unlimitedConstantDelay _ => createUnlimitedRetryIndicator
  | unlimitedConstantDelayExcept _ unrecoverableCodes =>
    createUnlimitedRetryIndicatorExcept unrecoverableCodes

/-- The strategy gives up on an attempt that fails with `DEADLINE_EXCEEDED`, even the first. -/
def GivesUpOnDeadline : LibraryStrategy Duration Factor → Prop
  | limitedBackoff _ _ maxAttempts => maxAttempts ≤ 1
  | unlimitedConstantDelay _ => False
  | unlimitedConstantDelayExcept _ unrecoverableCodes => .deadlineExceeded ∈ unrecoverableCodes

end LibraryStrategy

/-- The strategy gives up when the indicator says so, and no `CHECK` fails. -/
def Heeds (f : RetryStrategy Duration) (I : RetryIndicator) : Prop :=
  ∀ (m : Nat) (status : Status), 1 ≤ m →
    I m status = true ∧ (∃ delay, f m status = .retry delay) ∨
      I m status = false ∧ f m status = .giveUp

lemma heeds_createRetryStrategy {I : RetryIndicator} {calculator : RetryDelayCalculator Duration}
    (h : ∀ m : Nat, 1 ≤ m → ∃ delay, calculator m = some delay) :
    Heeds (createRetryStrategy I calculator) I := by
  intro m status hm
  cases hI : I m status with
  | true =>
    obtain ⟨delay, hdelay⟩ := h m hm
    exact .inl ⟨rfl, delay, by simp [createRetryStrategy, hI, hdelay]⟩
  | false => exact .inr ⟨rfl, by simp [createRetryStrategy, hI]⟩

lemma LibraryStrategy.heeds (scale : Factor → Int → Duration → Duration)
    (L : LibraryStrategy Duration Factor) : Heeds (L.strategy scale) L.indicator := by
  cases L with
  | limitedBackoff minDelay backoffFactor maxAttempts =>
    exact heeds_createRetryStrategy (fun m _ => ⟨_, backoff_eq scale minDelay backoffFactor m⟩)
  | unlimitedConstantDelay delay | unlimitedConstantDelayExcept delay _ =>
    have hdelay : ∀ m : Nat, 1 ≤ m → ∃ d, createConstantDelayCalculator delay m = some d :=
      fun _ _ => ⟨delay, rfl⟩
    exact heeds_createRetryStrategy hdelay

/-! ### The attempts of one `Write` -/

/-- Attempt number `k` of a `Write`, counted from zero, fails and is repeated. The client has
made `base` attempts before this `Write`. -/
def Repeated (I : RetryIndicator) (env : ClientEnv Resp Time) (base k : Nat) : Prop :=
  (env.outcome (base + k)).1.isOk = false ∧ I (k + 1 : Nat) (env.outcome (base + k)).1 = true

section Loop

variable {f : RetryStrategy Duration} {I : RetryIndicator} {env : ClientEnv Resp Time}
  {request : Req} {deadline : Option Time} {base m : Nat}
  {s : UnaryClient Req Resp Time Duration × Status}

/-- One attempt of the loop, by the status it returns and the answer of the strategy. -/
lemma retryLoop_attempt (f : RetryStrategy Duration) (env : ClientEnv Resp Time) (request : Req)
    (deadline : Option Time) (fuel m : Nat) (s : UnaryClient Req Resp Time Duration × Status) :
    let calls := UnaryClient.retryCalls env request deadline (some (fun _ => f))
    let status := (env.outcome s.1.attempts.length).1
    ∃ s', s'.1.attempts.length = s.1.attempts.length + 1 ∧ retryLoop calls (fuel + 1) m s =
      if status.isOk then some (.returned true, s')
      else match f (m + 1 : Nat) status with
      | .giveUp => some (.returned false, s')
      | .checkFailed => some (.checkFailed, s')
      | .retry _ => retryLoop calls fuel (m + 1 : Nat) s' := by
  intro calls status
  let tried := (s.1.makeBlockingUnaryCall env request).2
  have hlength : tried.attempts.length = s.1.attempts.length + 1 := List.length_append
  have hstrategy : calls.strategy = some (fun failedAttempts status s =>
    (f failedAttempts status, { s.1 with asked := s.1.asked + 1 }, s.2)) := rfl
  have hcast : (m : Int) + 1 = (m + 1 : Nat) := by push_cast; rfl
  rw [retryLoop, hstrategy, hcast]
  cases hok : status.isOk with
  | true =>
    have hop : (calls.op s).1.isOk = true := hok
    refine ⟨(tried, status), hlength, ?_⟩
    simp only [hop]
    rfl
  | false =>
    have hop : (calls.op s).1.isOk = false := hok
    cases hanswer : f (m + 1 : Nat) status with
    | giveUp | checkFailed =>
      have hask : f (m + 1 : Nat) (calls.op s).1 = _ := hanswer
      refine ⟨({ tried with asked := tried.asked + 1 }, status), hlength, ?_⟩
      simp only [hop, hask]
      rfl
    | retry delay =>
      have hask : f (m + 1 : Nat) (calls.op s).1 = _ := hanswer
      refine ⟨({ tried with asked := tried.asked + 1 }.resetContext deadline, status), hlength, ?_⟩
      simp only [hop, hask]
      rfl

lemma retryLoop_repeated (hf : Heeds f I) (hs : s.1.attempts.length = base + m)
    (h : Repeated I env base m) (fuel : Nat) :
    ∃ s', s'.1.attempts.length = base + (m + 1) ∧
      retryLoop (UnaryClient.retryCalls env request deadline (some (fun _ => f))) (fuel + 1) m s =
        retryLoop (UnaryClient.retryCalls env request deadline (some (fun _ => f))) fuel
          (m + 1 : Nat) s' := by
  obtain ⟨s', hlength, hloop⟩ := retryLoop_attempt f env request deadline fuel m s
  refine ⟨s', by rw [hlength, hs, Nat.add_assoc], ?_⟩
  rw [hs, h.1] at hloop
  obtain ⟨-, delay, hdelay⟩ | ⟨hI, -⟩ := hf (m + 1) (env.outcome (base + m)).1 (by omega)
  · rw [hdelay] at hloop
    exact hloop
  · exact absurd (hI.symm.trans h.2) (by simp)

lemma retryLoop_returned (hf : Heeds f I) (hs : s.1.attempts.length = base + m)
    (h : ¬ Repeated I env base m) (fuel : Nat) :
    ∃ b s', retryLoop (UnaryClient.retryCalls env request deadline (some (fun _ => f))) (fuel + 1)
      m s = some (.returned b, s') := by
  obtain ⟨s', -, hloop⟩ := retryLoop_attempt f env request deadline fuel m s
  rw [hs] at hloop
  cases hok : (env.outcome (base + m)).1.isOk with
  | true =>
    rw [hok] at hloop
    exact ⟨true, s', hloop⟩
  | false =>
    obtain ⟨hI, -⟩ | ⟨-, hgive⟩ := hf (m + 1) (env.outcome (base + m)).1 (by omega)
    · exact absurd ⟨hok, hI⟩ h
    · rw [hok, hgive] at hloop
      exact ⟨false, s', hloop⟩

/-- The loop runs out of fuel if every attempt is repeated, and returns otherwise. -/
lemma retryLoop_cases (hf : Heeds f I) (env : ClientEnv Resp Time) (request : Req)
    (deadline : Option Time) (fuel : Nat) (hs : s.1.attempts.length = base + m) :
    (∀ k < fuel, Repeated I env base (m + k)) ∧
        retryLoop (UnaryClient.retryCalls env request deadline (some (fun _ => f))) fuel m s =
          none ∨
      (¬ ∀ k < fuel, Repeated I env base (m + k)) ∧
        ∃ b s', retryLoop (UnaryClient.retryCalls env request deadline (some (fun _ => f))) fuel
          m s = some (.returned b, s') := by
  induction fuel generalizing m s with
  | zero => exact .inl ⟨by simp, rfl⟩
  | succ fuel ih =>
    by_cases hm : Repeated I env base m
    · obtain ⟨s', hs', hloop⟩ := retryLoop_repeated hf hs hm fuel
      rw [hloop]
      have hiff : (∀ k < fuel + 1, Repeated I env base (m + k)) ↔
          ∀ k < fuel, Repeated I env base (m + 1 + k) := by
        constructor
        · intro h k hk
          rw [Nat.add_assoc, Nat.add_comm 1 k]
          exact h (k + 1) (by omega)
        · intro h k hk
          cases k with
          | zero => exact hm
          | succ k =>
            rw [Nat.add_comm k 1, ← Nat.add_assoc]
            exact h k (by omega)
      rw [hiff]
      exact ih hs'
    · exact .inr ⟨fun h => hm (h 0 (by omega)), retryLoop_returned hf hs hm fuel⟩

end Loop

section Deadline

variable [HAdd Time Duration Time] {env : ClientEnv Resp Time} {I : RetryIndicator}
  {f : RetryStrategy Duration} {c : UnaryClient Req Resp Time Duration} {request : Req}

/-- A `Write` has no result after some attempts exactly when each of them is repeated. -/
lemma write_eq_none_iff (hf : Heeds f I) (hc : c.retryStrategy = some (fun _ => f))
    (fuel : Nat) : c.write env fuel request = none ↔
      ∀ k < fuel, Repeated I env c.attempts.length k := by
  let deadline := c.timeout.map (fun timeout => env.now c.clockReads + timeout)
  let start := ({ c with clockReads := c.clockReads + if c.timeout.isSome then 1 else 0 } :
    UnaryClient Req Resp Time Duration).resetContext deadline
  have hlength : start.attempts.length = c.attempts.length + 0 := rfl
  have hwrite : c.write env fuel request = none ↔ ∀ b s',
      retryWithStrategy (UnaryClient.retryCalls env request deadline c.retryStrategy) fuel
        (start, .ok) ≠ some (.returned b, s') := by
    rw [UnaryClient.write]
    split
    · rename_i hretry
      exact iff_of_false (by simp) (fun h => h _ _ hretry)
    · rename_i hretry
      exact iff_of_true rfl (fun b s' h => hretry b s'.1 s'.2 h)
  rw [hwrite, hc, retryWithStrategy, show (0 : Int) = (0 : Nat) from rfl]
  obtain ⟨hall, hloop⟩ | ⟨hnot, b, s', hloop⟩ :=
    retryLoop_cases (s := (start, .ok)) hf env request deadline fuel hlength
  · simp only [Nat.zero_add] at hall
    exact iff_of_true (fun b s' h => by rw [hloop] at h; cases h) hall
  · simp only [Nat.zero_add] at hnot
    exact iff_of_false (fun h => h b s' hloop) hnot

/-- The deadline that the next `Write` of the client computes and hands to all its attempts. -/
def nextDeadline (env : ClientEnv Resp Time) (c : UnaryClient Req Resp Time Duration) :
    Option Time :=
  c.timeout.map (fun timeout => env.now c.clockReads + timeout)

/-- The `Write` makes an attempt number `j`, counted from zero: the attempts before it have not
ended it. -/
def Started (env : ClientEnv Resp Time) (c : UnaryClient Req Resp Time Duration) (request : Req)
    (j : Nat) : Prop :=
  c.write env j request = none

/-- What is assumed of gRPC and of the clock, for a `Write` whose attempts are started at the
given times: an attempt whose deadline has passed fails with `DEADLINE_EXCEEDED`, and attempts
without end pass every deadline. -/
structure Timely [LE Time] (env : ClientEnv Resp Time) (c : UnaryClient Req Resp Time Duration)
    (request : Req) (deadline : Time) (startedAt : Nat → Time) : Prop where
  expired : ∀ j, Started env c request j → deadline ≤ startedAt j →
    (env.outcome (c.attempts.length + j)).1.errorCode = .deadlineExceeded
  advances : (∀ j, Started env c request j) → ∀ d, ∃ j, d ≤ startedAt j

/-- No attempt is started after one that was started at or after the deadline. -/
def StopsWhenLate [LE Time] (env : ClientEnv Resp Time) (c : UnaryClient Req Resp Time Duration)
    (request : Req) (deadline : Time) (startedAt : Nat → Time) : Prop :=
  ∀ j, Started env c request j → deadline ≤ startedAt j → ¬ Started env c request (j + 1)

def Terminates (env : ClientEnv Resp Time) (c : UnaryClient Req Resp Time Duration)
    (request : Req) : Prop :=
  ∃ fuel, (c.write env fuel request).isSome = true

lemma terminates_of_not_started {j : Nat} (h : ¬ Started env c request j) :
    Terminates env c request :=
  ⟨j, Option.isSome_iff_ne_none.mpr h⟩

lemma not_started_of_not_repeated (hf : Heeds f I) (hc : c.retryStrategy = some (fun _ => f))
    {j : Nat} (h : ¬ Repeated I env c.attempts.length j) : ¬ Started env c request (j + 1) := by
  intro hstarted
  exact h ((write_eq_none_iff hf hc (j + 1)).mp hstarted j (by omega))

/-- A `Write` that stops when it is late ends. -/
lemma StopsWhenLate.terminates [LE Time] {deadline : Time} {startedAt : Nat → Time}
    (h : StopsWhenLate env c request deadline startedAt)
    (ht : Timely env c request deadline startedAt) : Terminates env c request := by
  by_contra hc
  have hall : ∀ j, Started env c request j := by
    intro j
    by_contra hj
    exact hc (terminates_of_not_started hj)
  obtain ⟨j, hj⟩ := ht.advances hall deadline
  exact h j (hall j) hj (hall (j + 1))

variable (scale : Factor → Int → Duration → Duration) (L : LibraryStrategy Duration Factor)

lemma indicator_deadline (h : L.GivesUpOnDeadline) {status : Status}
    (hstatus : status.errorCode = .deadlineExceeded) (j : Nat) :
    L.indicator (j + 1 : Nat) status = false := by
  cases L with
  | limitedBackoff minDelay backoffFactor maxAttempts =>
    have hmax : maxAttempts ≤ 1 := h
    simp only [LibraryStrategy.indicator, createLimitedRetryIndicator, decide_eq_false_iff_not]
    omega
  | unlimitedConstantDelay delay => exact h.elim
  | unlimitedConstantDelayExcept delay codes =>
    have hmem : .deadlineExceeded ∈ codes := h
    simp [LibraryStrategy.indicator, createUnlimitedRetryIndicatorExcept, hstatus, hmem]

lemma indicator_first (h : ¬ L.GivesUpOnDeadline) (message : String) :
    L.indicator (0 + 1 : Nat) ⟨.deadlineExceeded, message⟩ = true := by
  cases L with
  | limitedBackoff minDelay backoffFactor maxAttempts =>
    have hmax : ¬ maxAttempts ≤ 1 := h
    simp only [LibraryStrategy.indicator, createLimitedRetryIndicator, decide_eq_true_eq]
    omega
  | unlimitedConstantDelay delay => rfl
  | unlimitedConstantDelayExcept delay codes =>
    have hmem : .deadlineExceeded ∉ codes := h
    simp [LibraryStrategy.indicator, createUnlimitedRetryIndicatorExcept, hmem]

/-- A strategy that gives up on the deadline stops every timely `Write`. -/
lemma stopsWhenLate_of_givesUp [LE Time] (h : L.GivesUpOnDeadline)
    (hc : c.retryStrategy = some (fun _ => L.strategy scale)) {deadline : Time}
    {startedAt : Nat → Time} (ht : Timely env c request deadline startedAt) :
    StopsWhenLate env c request deadline startedAt := by
  intro j hj hlate
  refine not_started_of_not_repeated (L.heeds scale) hc (fun hrepeated => ?_)
  have hgive := indicator_deadline L h (ht.expired j hj hlate) j
  exact absurd (hgive.symm.trans hrepeated.2) (by simp)

/-- Every attempt fails with `DEADLINE_EXCEEDED`. -/
def allExpired (now : Nat → Time) : ClientEnv Resp Time :=
  ⟨now, fun _ => (⟨.deadlineExceeded, ""⟩, none)⟩

/-- A limited strategy ends every `Write`, late or not. -/
lemma limited_terminates {minDelay : Duration} {backoffFactor : Factor} {maxAttempts : Int}
    (hc : c.retryStrategy =
      some (fun _ => createLimitedBackoffStrategy scale minDelay backoffFactor maxAttempts)) :
    Terminates env c request := by
  have hf := (LibraryStrategy.limitedBackoff minDelay backoffFactor maxAttempts).heeds scale
  refine terminates_of_not_started (j := maxAttempts.toNat + 1)
    (not_started_of_not_repeated hf hc (fun h => ?_))
  have hlt := h.2
  simp only [LibraryStrategy.indicator, createLimitedRetryIndicator, decide_eq_true_eq] at hlt
  omega

end Deadline

/-- A `Write` with a timeout and a strategy of the library, on a clock that passes every
deadline: it stops and ends whenever it is late, whatever the server does, if and only if the
strategy gives up on `DEADLINE_EXCEEDED`. With a limited strategy it ends in any case. -/
theorem timedOut_write_stops_iff [LE Time] [HAdd Time Duration Time] {tick : Nat → Time}
    (htick : ∀ d, ∃ n, ∀ j ≥ n, d ≤ tick j) (scale : Factor → Int → Duration → Duration)
    (L : LibraryStrategy Duration Factor) {c : UnaryClient Req Resp Time Duration}
    {timeout : Duration} (htimeout : c.timeout = some timeout)
    (hc : c.retryStrategy = some (fun _ => L.strategy scale)) (request : Req) :
    ((∀ (env : ClientEnv Resp Time) deadline startedAt, nextDeadline env c = some deadline →
        Timely env c request deadline startedAt →
        StopsWhenLate env c request deadline startedAt ∧ Terminates env c request) ↔
      L.GivesUpOnDeadline) ∧
    ∀ env : ClientEnv Resp Time, (∃ minDelay backoffFactor maxAttempts,
      L = .limitedBackoff minDelay backoffFactor maxAttempts) → Terminates env c request := by
  refine ⟨⟨fun hall => ?_, fun hgive env deadline startedAt _ ht => ?_⟩, ?_⟩
  · by_contra hgive
    let env : ClientEnv Resp Time := allExpired (fun _ => tick 0)
    obtain ⟨n, hn⟩ := htick (tick 0 + timeout)
    have ht : Timely env c request (tick 0 + timeout) (fun j => tick (n + j)) := by
      refine ⟨fun j _ _ => rfl, fun _ d => ?_⟩
      obtain ⟨n', hn'⟩ := htick d
      exact ⟨n', hn' _ (by omega)⟩
    have hfirst : Started env c request (0 + 1) := by
      refine (write_eq_none_iff (L.heeds scale) hc _).mpr (fun k hk => ?_)
      obtain rfl : k = 0 := by omega
      exact ⟨rfl, indicator_first L hgive ""⟩
    have hstart : Started env c request 0 :=
      (write_eq_none_iff (L.heeds scale) hc 0).mpr (by simp)
    have hdeadline : nextDeadline env c = some (tick 0 + timeout) := by
      rw [nextDeadline, htimeout]
      rfl
    exact (hall env _ _ hdeadline ht).1 0 hstart (hn _ (by omega)) hfirst
  · have hstops := stopsWhenLate_of_givesUp scale L hgive hc ht
    exact ⟨hstops, hstops.terminates ht⟩
  · rintro env ⟨minDelay, backoffFactor, maxAttempts, rfl⟩
    exact limited_terminates scale hc

/-- A client with a timeout of 5 that does not retry what the deadline ended. -/
theorem timedOut_write_stops_of_code :
    let c : UnaryClient Nat Nat Nat Nat := .new (some 5)
      (some (fun _ => createUnlimitedConstantDelayStrategyExcept 1 (insert .deadlineExceeded ∅)))
    ∀ (env : ClientEnv Nat Nat) startedAt, Timely env c 7 (env.now 0 + 5) startedAt →
      StopsWhenLate env c 7 (env.now 0 + 5) startedAt ∧ Terminates env c 7 := by
  intro c
  have hclock : ∀ d : Nat, ∃ n, ∀ j ≥ n, d ≤ j := fun d => ⟨d, fun _ hj => hj⟩
  let L : LibraryStrategy Nat Unit := .unlimitedConstantDelayExcept 1 (insert .deadlineExceeded ∅)
  have htimeout : c.timeout = some 5 := rfl
  have hlaw := timedOut_write_stops_iff hclock (fun _ _ d => d) L htimeout rfl 7
  intro env startedAt ht
  exact hlaw.1.mpr (Finset.mem_insert_self _ _) env _ startedAt rfl ht

/-- With the unlimited strategy and a server that never answers in time, every attempt is late
and there is always another one. -/
theorem late_write_never_ends :
    let c : UnaryClient Nat Nat Nat Nat :=
      .new (some 5) (some (fun _ => createUnlimitedConstantDelayStrategy 1))
    let env : ClientEnv Nat Nat := allExpired (fun _ => 0)
    nextDeadline env c = some 5 ∧ Timely env c 7 5 (fun j => 5 + j) ∧
      ∀ fuel, c.write env fuel 7 = none := by
  intro c env
  let L : LibraryStrategy Nat Unit := .unlimitedConstantDelay 1
  refine ⟨rfl, ⟨fun _ _ _ => rfl, fun _ d => ⟨d, by omega⟩⟩, fun fuel => ?_⟩
  exact (write_eq_none_iff (L.heeds (fun _ _ d => d)) rfl fuel).mpr (fun k _ => ⟨rfl, rfl⟩)

end AsyncGrpc.Proofs
