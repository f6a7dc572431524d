import AsyncGrpc.Client
import AsyncGrpc.Proofs.Retrying

/-!
# What the blocking clients report

A unary client makes every attempt on a context of its own and reports the status of its last
attempt. A client that streams its requests drops the result of the write on its stream, so it
reports a success each time.
-/

namespace AsyncGrpc.Proofs

variable {Req Resp Time Duration : Type}

/-! ### Attempts of the unary client -/

/-- No context was used twice, and the contexts used have been constructed. -/
structure Numbered (c : UnaryClient Req Resp Time Duration) : Prop where
  nodup : (c.attempts.map (fun a => a.context.id)).Nodup
  used : ∀ a ∈ c.attempts, a.context.id < c.contexts

/-- What a `Write` does not change. -/
structure SameSettings (c c' : UnaryClient Req Resp Time Duration) : Prop where
  timeout : c'.timeout = c.timeout
  retryStrategy : c'.retryStrategy = c.retryStrategy

/-- The attempts a `Write` has made all carry its deadline. -/
def MadeBy (deadline : Option Time) (made : List (Attempt Req Time)) : Prop :=
  ∀ a ∈ made, a.context.deadline = deadline

/-- Before an attempt of a `Write` that started from `c₀`: the context is new. -/
structure Ready (c₀ : UnaryClient Req Resp Time Duration) (deadline : Option Time)
    (c : UnaryClient Req Resp Time Duration) : Prop where
  numbered : Numbered c
  unused : ∀ a ∈ c.attempts, a.context.id < c.context.id
  constructed : c.context.id < c.contexts
  context : c.context.deadline = deadline
  made : ∃ made, c.attempts = c₀.attempts ++ made ∧ MadeBy deadline made
  settings : SameSettings c₀ c
  clock : c.clockReads = c₀.clockReads

/-- After an attempt with the given status. -/
structure Tried (c₀ : UnaryClient Req Resp Time Duration) (deadline : Option Time)
    (status : Status) (c : UnaryClient Req Resp Time Duration) : Prop where
  numbered : Numbered c
  made : ∃ front last, c.attempts = c₀.attempts ++ (front ++ [last]) ∧
    MadeBy deadline (front ++ [last]) ∧ last.status = status
  settings : SameSettings c₀ c
  clock : c.clockReads = c₀.clockReads

section Write

variable {env : ClientEnv Resp Time} {c c₀ : UnaryClient Req Resp Time Duration} {request : Req}
  {deadline : Option Time}

lemma Ready.attempt (h : Ready c₀ deadline c) :
    Tried c₀ deadline (c.makeBlockingUnaryCall env request).1
      (c.makeBlockingUnaryCall env request).2 := by
  obtain ⟨made, hmade, hdeadlines⟩ := h.made
  refine ⟨⟨?_, ?_⟩, ⟨made, ⟨c.context, request, (env.outcome c.attempts.length).1⟩, ?_, ?_, rfl⟩,
    ⟨h.settings.timeout, h.settings.retryStrategy⟩, h.clock⟩
  · simp only [UnaryClient.makeBlockingUnaryCall, List.map_append, List.map_cons, List.map_nil]
    refine List.nodup_append.mpr ⟨h.numbered.nodup, List.nodup_singleton _, ?_⟩
    intro i hi j hj
    obtain ⟨a, ha, rfl⟩ := List.mem_map.mp hi
    rw [List.mem_singleton.mp hj]
    exact (h.unused a ha).ne
  · intro a ha
    rcases List.mem_append.mp ha with ha | ha
    · exact h.numbered.used a ha
    · rw [List.mem_singleton.mp ha]
      exact h.constructed
  · simp [UnaryClient.makeBlockingUnaryCall, hmade]
  · intro a ha
    rcases List.mem_append.mp ha with ha | ha
    · exact hdeadlines a ha
    · rw [List.mem_singleton.mp ha]
      exact h.context

/-- The context that replaces the old one is new. -/
lemma Numbered.resetContext (h : Numbered c)
    (hmade : ∃ made, c.attempts = c₀.attempts ++ made ∧ MadeBy deadline made)
    (hsettings : SameSettings c₀ c) (hclock : c.clockReads = c₀.clockReads) :
    Ready c₀ deadline (c.resetContext deadline) where
  numbered := ⟨h.nodup, fun a ha => Nat.lt_succ_of_lt (h.used a ha)⟩
  unused := h.used
  constructed := Nat.lt_succ_self _
  context := rfl
  made := hmade
  settings := ⟨hsettings.timeout, hsettings.retryStrategy⟩
  clock := hclock

lemma Tried.again {status : Status} (h : Tried c₀ deadline status c) :
    Ready c₀ deadline (c.resetContext deadline) := by
  obtain ⟨front, last, hmade, hdeadlines, -⟩ := h.made
  exact h.numbered.resetContext ⟨front ++ [last], hmade, hdeadlines⟩ h.settings h.clock

lemma Tried.ask {status : Status} (h : Tried c₀ deadline status c) (asked : Nat) :
    Tried c₀ deadline status { c with asked := asked } :=
  ⟨⟨h.numbered.nodup, h.numbered.used⟩, h.made, ⟨h.settings.timeout, h.settings.retryStrategy⟩,
    h.clock⟩

/-- The attempts of one `Write`: it ends with the status of its last attempt. -/
theorem retry_tried {fuel : Nat} {b : Bool} {status : Status}
    {retryStrategy : Option (Nat → Int → Status → RetryAnswer Duration)}
    {s : UnaryClient Req Resp Time Duration × Status} {c' : UnaryClient Req Resp Time Duration}
    (hs : Ready c₀ deadline s.1)
    (h : retryWithStrategy (UnaryClient.retryCalls env request deadline retryStrategy) fuel s =
      some (.returned b, c', status)) :
    Tried c₀ deadline status c' ∧ b = status.isOk := by
  have hask : ∀ f, (UnaryClient.retryCalls env request deadline retryStrategy).strategy = some f →
      ∀ m status (s : UnaryClient Req Resp Time Duration × Status),
        Tried c₀ deadline status s.1 ∧ s.2 = status →
        Tried c₀ deadline status (f m status s).2.1 ∧ (f m status s).2.2 = status := by
    intro f hf m status s hQ
    cases retryStrategy with
    | none => cases hf
    | some g =>
      cases hf
      exact ⟨hQ.1.ask _, hQ.2⟩
  unfold retryWithStrategy at h
  obtain ⟨status', ⟨htried, rfl⟩, hb⟩ := retryLoop_rule
    (P := fun s : UnaryClient Req Resp Time Duration × Status => Ready c₀ deadline s.1)
    (Q := fun status s => Tried c₀ deadline status s.1 ∧ s.2 = status)
    (by exact fun s hs => ⟨hs.attempt, rfl⟩) hask (by exact fun status s delay hQ => hQ.1.again) hs h
  exact ⟨htried, hb⟩

/-- A `Write` makes at least one attempt, all of them with its deadline, and reports the last. -/
structure Reports (w : WriteRecord Req Time) : Prop where
  deadline : MadeBy w.deadline w.attempts
  last : ∃ front last, w.attempts = front ++ [last] ∧ w.status = last.status ∧
    (w.result = true ↔ last.status.isOk = true)

variable [HAdd Time Duration Time] {fuel : Nat}

lemma write_spec {c' : UnaryClient Req Resp Time Duration} {w : WriteRecord Req Time}
    (hc : Numbered c) (h : c.write env fuel request = some (w, c')) :
    Numbered c' ∧ SameSettings c c' ∧ (c.timeout ≠ none → c'.clockReads = c.clockReads + 1) ∧
      w.deadline = c.timeout.map (fun timeout => env.now c.clockReads + timeout) ∧
      c'.attempts = c.attempts ++ w.attempts ∧ Reports w := by
  simp only [UnaryClient.write] at h
  split at h
  · rename_i result c₁ status hretry
    cases h
    let start : UnaryClient Req Resp Time Duration :=
      { c with clockReads := c.clockReads + if c.timeout.isSome then 1 else 0 }
    let deadline := c.timeout.map (fun timeout => env.now c.clockReads + timeout)
    have hready : Ready start deadline (start.resetContext deadline) :=
      Numbered.resetContext ⟨hc.nodup, hc.used⟩ ⟨[], by simp, by simp [MadeBy]⟩ ⟨rfl, rfl⟩ rfl
    obtain ⟨htried, hresult⟩ := retry_tried hready hretry
    obtain ⟨front, last, hmade, hdeadline, hlast⟩ := htried.made
    have hdrop : c'.attempts.drop c.attempts.length = front ++ [last] := by
      rw [hmade]
      exact List.drop_left
    refine ⟨htried.numbered, ⟨htried.settings.timeout, htried.settings.retryStrategy⟩, ?_, rfl, ?_,
      ⟨?_, front, last, hdrop, hlast.symm, ?_⟩⟩
    · intro htimeout
      rw [htried.clock]
      simp [start, Option.isSome_iff_ne_none.mpr htimeout]
    · rw [hdrop]
      exact hmade
    · rw [hdrop]
      exact hdeadline
    · rw [hlast, hresult]
  · cases h

/-- A sequence of `Write` calls: the records hold all attempts in order, and the `Write` calls
compute their deadlines one after another. -/
theorem writes_spec {c' : UnaryClient Req Resp Time Duration} {ws : List (WriteRecord Req Time)}
    {requests : List Req} (hc : Numbered c) (h : c.writes env fuel requests = some (ws, c')) :
    Numbered c' ∧ ws.length = requests.length ∧
      c'.attempts = c.attempts ++ ws.flatMap (fun w => w.attempts) ∧
      ∀ i w, ws[i]? = some w → Reports w ∧
        w.deadline = c.timeout.map (fun timeout => env.now (c.clockReads + i) + timeout) := by
  induction requests generalizing c ws with
  | nil =>
    cases h
    exact ⟨hc, rfl, by simp, by simp⟩
  | cons request requests ih =>
    simp only [UnaryClient.writes, Option.bind_eq_some_iff, Option.map_eq_some_iff] at h
    obtain ⟨⟨w, c₁⟩, hwrite, ⟨ws', c₂⟩, hwrites, heq⟩ := h
    cases heq
    obtain ⟨hnum, hsettings, hclock, hdeadline, hattempts, hreports⟩ := write_spec hc hwrite
    obtain ⟨hnum', hlength, hattempts', hrest⟩ := ih hnum hwrites
    refine ⟨hnum', congrArg (· + 1) hlength, ?_, fun i w' hi => ?_⟩
    · rw [hattempts', hattempts, List.append_assoc]
      rfl
    cases i with
    | zero =>
      cases hi
      exact ⟨hreports, hdeadline⟩
    | succ i =>
      obtain ⟨hr, hd⟩ := hrest i w' hi
      refine ⟨hr, hd.trans ?_⟩
      rw [hsettings.timeout]
      cases htimeout : c.timeout with
      | none => rfl
      | some timeout =>
        rw [hclock (by simp [htimeout]), Nat.add_assoc, Nat.add_comm 1 i]

/-- For any sequence of `Write` calls on a new unary client that all return: no context is used
by two attempts; the deadline of a `Write` is computed once, when it starts, and carried by all
its attempts; and it reports the status of its last attempt. -/
theorem unary_attempts (timeout : Option Duration)
    (retryStrategy : Option (Nat → Int → Status → RetryAnswer Duration)) {requests : List Req}
    {ws : List (WriteRecord Req Time)} {c' : UnaryClient Req Resp Time Duration}
    (h : (UnaryClient.new timeout retryStrategy).writes env fuel requests = some (ws, c')) :
    ws.length = requests.length ∧ c'.attempts = ws.flatMap (fun w => w.attempts) ∧
      (c'.attempts.map (fun a => a.context.id)).Nodup ∧
      ∀ i w, ws[i]? = some w →
        w.deadline = timeout.map (fun timeout => env.now i + timeout) ∧
        (∀ a ∈ w.attempts, a.context.deadline = w.deadline) ∧
        ∃ front last, w.attempts = front ++ [last] ∧ w.status = last.status ∧
          (w.result = true ↔ last.status.isOk = true) := by
  have hnew : Numbered (UnaryClient.new timeout retryStrategy :
      UnaryClient Req Resp Time Duration) := ⟨List.nodup_nil, by simp [UnaryClient.new]⟩
  obtain ⟨hnum, hlength, hattempts, hrecords⟩ := writes_spec hnew h
  refine ⟨hlength, hattempts, hnum.nodup, fun i w hi => ?_⟩
  obtain ⟨hreports, hdeadline⟩ := hrecords i w hi
  exact ⟨by simpa [UnaryClient.new] using hdeadline, hreports.deadline, hreports.last⟩

end Write

/-- Two calls with a timeout of 10 and up to two attempts: the first one fails and then succeeds,
the second one fails twice. -/
theorem unary_attempts_of_run :
    let env : ClientEnv Nat Nat := ⟨fun i => 100 * i, fun i =>
      if i = 1 then (.ok, some 4) else (⟨.unavailable, "later"⟩, none)⟩
    let strategy : Nat → Int → Status → RetryAnswer Nat := fun _ =>
      createRetryStrategy (createLimitedRetryIndicator 2) (createConstantDelayCalculator 1)
    ∃ ws c', (UnaryClient.new (some 10) (some strategy)).writes env 5 [2, 3] = some (ws, c') ∧
      ws.map (fun w => (w.deadline, w.attempts.length, w.result)) =
        [(some 10, 2, true), (some 110, 2, false)] ∧
      (c'.attempts.map (fun a => a.context.id)).Nodup := by
  intro env strategy
  obtain ⟨⟨ws, c'⟩, h⟩ := Option.isSome_iff_exists.mp (show
    ((UnaryClient.new (some 10) (some strategy)).writes env 5 [2, 3]).isSome = true by rfl)
  have hws : ws.map (fun w => (w.deadline, w.attempts.length, w.result)) =
      [(some 10, 2, true), (some 110, 2, false)] := by
    have hmap := congrArg (Option.map (fun p => p.1.map (fun w =>
      (w.deadline, w.attempts.length, w.result)))) h
    exact (Option.some.inj hmap).symm
  exact ⟨ws, c', h, hws, (unary_attempts _ _ h).2.2.1⟩

/-! ### Writes of the streaming clients -/

/-- The result is that of the write on the stream, and a failure comes with an error status. -/
def ReportsWrite (streamResult : Bool) (w : Bool × Status) : Prop :=
  (w.1 = true ↔ streamResult = true) ∧ (w.1 = false → w.2.isOk = false)

lemma reportsWrite_ok_iff (result : Bool) : ReportsWrite result (true, .ok) ↔ result = true := by
  simp [ReportsWrite]

lemma writeVia_eq (kind : RequestStream) (outcome : Nat → Bool) (request : Req)
    (c : StreamingClient Req) :
    (c.writeVia kind outcome request).1 = (true, .ok) ∧
      (c.writeVia kind outcome request).2.written =
        c.written ++ [(request, outcome c.written.length)] := by
  refine ⟨rfl, ?_⟩
  simp only [StreamingClient.writeVia, StreamingClient.writeImpl,
    StreamingClient.instantiateIfNeeded]
  split <;> rfl

/-- Whatever the stream returns, every call of `Write` returns true and stores `OK`. -/
lemma writes_eq (kind : RequestStream) (outcome : Nat → Bool) (requests : List Req)
    (c : StreamingClient Req) :
    let run := c.writes (fun request c => c.writeVia kind outcome request) requests
    run.1 = requests.map (fun _ => (true, .ok)) ∧
      run.2.written = c.written ++ requests.zipIdx.map (fun p =>
        (p.1, outcome (c.written.length + p.2))) := by
  induction requests generalizing c with
  | nil => exact ⟨rfl, (List.append_nil _).symm⟩
  | cons request requests ih =>
    obtain ⟨hresults, hwritten⟩ := ih (c.writeVia kind outcome request).2
    obtain ⟨hresult, hone⟩ := writeVia_eq kind outcome request c
    refine ⟨?_, hwritten.trans ?_⟩
    · rw [List.map_cons, ← hresults, ← hresult]
      rfl
    · rw [hone]
      simp [List.zipIdx_succ, Nat.add_comm, Nat.add_left_comm]

lemma writes_report_iff (kind : RequestStream) (outcome : Nat → Bool) (requests : List Req) :
    let run := StreamingClient.new.writes (fun request c => c.writeVia kind outcome request) requests
    run.2.written = requests.zipIdx.map (fun p => (p.1, outcome p.2)) ∧
      List.Forall₂ (fun p w => ReportsWrite p.2 w ↔ p.2 = true) run.2.written run.1 := by
  intro run
  obtain ⟨hresults, hwritten⟩ := writes_eq kind outcome requests StreamingClient.new
  have hwritten' : run.2.written = requests.zipIdx.map (fun p => (p.1, outcome p.2)) :=
    hwritten.trans (by simp [StreamingClient.new])
  refine ⟨hwritten', ?_⟩
  rw [List.forall₂_iff_get]
  refine ⟨by simp [run, hwritten', hresults], ?_⟩
  intro i hi hi'
  have hok : run.1.get ⟨i, hi'⟩ = (true, .ok) := by simp [run, hresults]
  rw [hok]
  exact reportsWrite_ok_iff _

/-- The calls of `Write` of a streaming client against the writes they made on the stream: a call
reports its write if and only if the stream accepted it. -/
theorem streaming_write_reports_iff (outcome : Nat → Bool) (requests : List Req) :
    ∀ write ∈ [StreamingClient.clientStreamingWrite outcome,
        StreamingClient.bidiStreamingWrite outcome],
      let run := StreamingClient.new.writes write requests
      run.2.written = requests.zipIdx.map (fun p => (p.1, outcome p.2)) ∧
        List.Forall₂ (fun p w => ReportsWrite p.2 w ↔ p.2 = true) run.2.written run.1 := by
  simp only [List.mem_cons, List.not_mem_nil, or_false]
  rintro write (rfl | rfl)
  · exact writes_report_iff .clientWriter outcome requests
  · exact writes_report_iff .clientReaderWriter outcome requests

/-- A stream that accepts its first message and breaks then. -/
theorem streaming_write_reports_iff_of_break :
    let run := StreamingClient.new.writes
      (StreamingClient.clientStreamingWrite (fun i => decide (i < 1))) [5, 6]
    run.2.written = [(5, true), (6, false)] ∧
      List.Forall₂ (fun p w => ReportsWrite p.2 w ↔ p.2 = true) run.2.written run.1 :=
  streaming_write_reports_iff (fun i => decide (i < 1)) [5, 6] _ (List.mem_cons_self ..)

/-- The second write is lost, and `Write` returns true and stores `OK` for it. -/
theorem lost_write_reported :
    let outcome := fun i => decide (i < 1)
    let run := StreamingClient.new.writes (StreamingClient.clientStreamingWrite outcome) [5, 6]
    let run' := StreamingClient.new.writes (StreamingClient.bidiStreamingWrite outcome) [5, 6]
    run.2.written = [(5, true), (6, false)] ∧ run'.2.written = [(5, true), (6, false)] ∧
      run.1 = [(true, .ok), (true, .ok)] ∧ run'.1 = [(true, .ok), (true, .ok)] ∧
        ¬ ReportsWrite false (true, .ok) :=
  ⟨by decide, by decide, by decide, by decide, by simp [reportsWrite_ok_iff]⟩

end AsyncGrpc.Proofs
