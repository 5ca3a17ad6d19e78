import Arazzo.Proofs.Run.Goto
import Arazzo.Proofs.Table
import Mathlib.Data.List.DropRight

/-! Which failures of a step count against its retries: all those since the step was last left for
the next one. A goto that leaves the step does not end the count. -/

namespace Arazzo

def StepAction.isRetry : StepAction → Bool
  | .retry _ _ => true
  | _ => false

def StepAction.isGotoStep : StepAction → Bool
  | .gotoStep _ => true
  | _ => false

namespace Run

open Table

namespace Visit

def asks (stepId : String) (v : Visit) : Bool :=
  v.step.stepId == stepId && !v.outcome.success && v.outcome.action.isRetry

def moves (stepId : String) (v : Visit) : Bool :=
  v.step.stepId == stepId && v.outcome.action == .next

def departs (stepId : String) (v : Visit) : Bool :=
  v.step.stepId == stepId && v.outcome.action.isGotoStep

variable {stepId : String} {v : Visit}

theorem asks_of_retry {delay : Duration} {limit : Nat} (hfailed : v.outcome.success = false)
    (haction : v.outcome.action = .retry delay limit) (stepId : String) :
    v.asks stepId = (v.step.stepId == stepId) := by
  simp [asks, hfailed, haction, StepAction.isRetry]

theorem asks_eq_false (h : v.outcome.action.isRetry = false) (stepId : String) :
    v.asks stepId = false := by
  simp [asks, h]

theorem moves_eq_false (h : v.outcome.action ≠ .next) (stepId : String) :
    v.moves stepId = false := by
  simp [moves, h]

theorem moves_eq_false_of_ne (h : v.step.stepId ≠ stepId) : v.moves stepId = false := by
  simp [moves, h]

theorem moves_of_asks (h : v.asks stepId) : v.moves stepId = false := by
  refine moves_eq_false (fun hnext => ?_) stepId
  simp [asks, hnext, StepAction.isRetry] at h

theorem moves_of_departs (h : v.departs stepId) : v.moves stepId = false := by
  refine moves_eq_false (fun hnext => ?_) stepId
  simp [departs, hnext, StepAction.isGotoStep] at h

end Visit

/-- The executions after the step was last left for the next one. -/
def sinceNext (stepId : String) (executions : List Visit) : List Visit :=
  executions.rtakeWhile fun v => !v.moves stepId

/-- A failure of the step still counts though a goto has left the step since. -/
def Carried (stepId : String) (executions : List Visit) : Prop :=
  ∃ before failed between left after,
    executions = before ++ failed :: (between ++ left :: after) ∧
    failed.asks stepId ∧ left.departs stepId ∧
    ∀ v ∈ between ++ left :: after, v.moves stepId = false

/-- The last executions are that many failures of the step, each to be tried again. -/
def Recent (stepId : String) (attempts : Nat) (executions : List Visit) : Prop :=
  ∃ before last, executions = before ++ last ∧ last.length = attempts ∧ ∀ v ∈ last, v.asks stepId

variable {env : Environment} {registry : Registry} {bound : Nat} {scene : Scene} {w : Workflow}
  {inv : Invocation} {s s' : RunState} {history : List Visit} {a b start : Stage} {v : Visit}
  {stepId : String} {attempts : Nat} {error : RunError}

theorem sinceNext_concat_moves (h : v.moves stepId) : sinceNext stepId (history ++ [v]) = [] :=
  List.rtakeWhile_concat_neg _ _ _ (by simp [h])

theorem sinceNext_concat (h : v.moves stepId = false) :
    sinceNext stepId (history ++ [v]) = sinceNext stepId history ++ [v] :=
  List.rtakeWhile_concat_pos _ _ _ (by simp [h])

theorem count_sinceNext_concat (h : v.moves stepId = false) :
    (sinceNext stepId (history ++ [v])).countP (·.asks stepId) =
      (sinceNext stepId history).countP (·.asks stepId) + if v.asks stepId then 1 else 0 := by
  rw [sinceNext_concat h, List.countP_append, List.countP_singleton]

theorem Carried.concat (h : Carried stepId history) (hv : v.moves stepId = false) :
    Carried stepId (history ++ [v]) := by
  obtain ⟨before, failed, between, left, after, rfl, asked, departed, stayed⟩ := h
  refine ⟨before, failed, between, left, after ++ [v], by simp, asked, departed, ?_⟩
  rw [← List.cons_append, ← List.append_assoc]
  exact List.forall_mem_append.2 ⟨stayed, List.forall_mem_singleton.2 hv⟩

theorem Recent.zero (stepId : String) (executions : List Visit) : Recent stepId 0 executions :=
  ⟨executions, [], by simp, rfl, by simp⟩

theorem Recent.concat (h : Recent stepId attempts history) (hv : v.asks stepId) :
    Recent stepId (attempts + 1) (history ++ [v]) := by
  obtain ⟨before, last, rfl, hlength, asked⟩ := h
  refine ⟨before, last ++ [v], by simp, by simp [hlength], ?_⟩
  exact List.forall_mem_append.2 ⟨asked, List.forall_mem_singleton.2 hv⟩

theorem Recent.carried (h : Recent stepId attempts history) (hsome : attempts ≠ 0)
    (hv : v.departs stepId) : Carried stepId (history ++ [v]) := by
  obtain ⟨before, last, rfl, hlength, asked⟩ := h
  cases last with
  | nil => exact absurd hlength.symm hsome
  | cons failed between =>
    -- The goto is the last execution, and the first of the failures is one that it carries over.
    refine ⟨before, failed, between, v, [], by simp, asked failed (List.mem_cons_self ..), hv, ?_⟩
    have stayed : ∀ u ∈ between, u.moves stepId = false := fun u hu =>
      Visit.moves_of_asks (asked u (List.mem_cons_of_mem _ hu))
    exact List.forall_mem_append.2 ⟨stayed, List.forall_mem_singleton.2 (Visit.moves_of_departs hv)⟩

theorem isRetry_ofSuccess (chosen : Option SuccessAction) :
    (StepAction.ofSuccess chosen).isRetry = false := by
  rcases chosen with _ | ⟨name, kind, workflowId, stepId, criteria⟩
  · rfl
  · cases kind <;> cases stepId <;> cases workflowId <;> rfl

theorem conclude_failed (status : Option Nat) (step : Step) (z : Session) :
    Leads (conclude env registry w step status) z
      (fun outcome _ => outcome.action.isRetry = true → outcome.success = false)
      fun _ _ => True := by
  unfold conclude
  refine (Leads.anything _ z).bind fun success z₁ _ => ?_
  cases success with
  | true =>
    refine (Leads.anything _ z₁).bind fun chosen z₂ _ => ?_
    refine (Leads.anything _ z₂).bind fun _ z₃ _ => ?_
    refine (Leads.anything _ z₃).bind fun _ z₄ _ => .of_pure fun hretry => ?_
    rw [isRetry_ofSuccess] at hretry
    cases hretry
  | false =>
    refine (Leads.anything _ z₁).bind fun _ z₂ _ => (Leads.anything _ z₂).bind fun chosen z₃ _ => ?_
    cases chosen with
    | none => exact .of_throw trivial
    | some a => exact .bind_get (.of_pure fun _ => rfl)

theorem Executes.asks {delay : Duration} {limit : Nat} (executes : Executes env scene w a v inv s)
    (haction : v.outcome.action = .retry delay limit) (stepId : String) :
    v.asks stepId = (v.step.stepId == stepId) := by
  obtain ⟨status, z, s₀, performs, concluded, -⟩ := executes.concludes
  have hfailed := (conclude_failed status v.step z).of_ok concluded
  exact Visit.asks_of_retry (hfailed (by rw [haction]; rfl)) haction stepId

/-- What a stage knows of the failures of one step. -/
structure Knows (w : Workflow) (stepId : String) (history : List Visit) (a : Stage) : Prop where
  ascending : Ascending a.retries
  counted : a.made stepId = (sinceNext stepId history).countP (·.asks stepId)
  /-- Unless a goto was in between, the step is still the one that is being retried. -/
  recent : Carried stepId history ∨ Recent stepId (a.made stepId) history ∧
    ∀ step, a.made stepId ≠ 0 → w.steps[a.index]? = some step → step.stepId = stepId

theorem Knows.of_absent (ascending : Ascending b.retries) (hmade : b.made stepId = 0)
    (hcount : (sinceNext stepId history).countP (·.asks stepId) = 0) :
    Knows w stepId history b where
  ascending
  counted := by rw [hmade, hcount]
  recent := .inr ⟨hmade ▸ .zero stepId history, fun _ hne => absurd hmade hne⟩

theorem Knows.made_eq_zero {step : Step} (h : Knows w stepId history a)
    (listed : w.steps[a.index]? = some step) (hother : step.stepId ≠ stepId) :
    Carried stepId history ∨ a.made stepId = 0 := by
  refine h.recent.imp_right fun hrecent => ?_
  -- While a step is retried, no other one is executed.
  by_contra hne
  obtain ⟨-, retried⟩ := hrecent
  exact hother (retried step hne listed)

theorem Knows.keep (h : Knows w stepId history a) (ascending : Ascending b.retries)
    (hmade : b.made stepId = a.made stepId) (hmoves : v.moves stepId = false)
    (hasks : v.asks stepId = false)
    (hleft : Carried stepId history ∨ a.made stepId = 0 ∨ v.departs stepId) :
    Knows w stepId (history ++ [v]) b where
  ascending
  counted := by
    rw [count_sinceNext_concat hmoves, hasks, hmade, h.counted]
    rfl
  recent := by
    rcases hleft with carried | hzero | departed
    · exact .inl (carried.concat hmoves)
    · rw [hmade, hzero]
      exact .inr ⟨.zero stepId _, fun _ hne => absurd rfl hne⟩
    · rcases h.recent with carried | ⟨recent, -⟩
      · exact .inl (carried.concat hmoves)
      by_cases hzero : a.made stepId = 0
      · rw [hmade, hzero]
        exact .inr ⟨.zero stepId _, fun _ hne => absurd rfl hne⟩
      · exact .inl (recent.carried hzero departed)

theorem made_insert (stepId id : String) (n bound : Nat) (inv : Invocation) (a : Stage)
    (index : Nat) (s : RunState) :
    (Stage.mk bound inv (Table.insert id n a.retries) index s).made stepId =
      if id = stepId then n else a.made stepId := by
  rw [Stage.made, Table.get?_insert]
  split <;> rfl

theorem made_erase (h : Ascending a.retries) (stepId id : String) (bound : Nat) (inv : Invocation)
    (index : Nat) (s : RunState) :
    (Stage.mk bound inv (Table.erase id a.retries) index s).made stepId =
      if id = stepId then 0 else a.made stepId := by
  rw [Stage.made, h.get?_erase]
  split <;> rfl

theorem Knows.turn (h : Knows w stepId history a) (turn : Turn env scene w a v b) :
    Knows w stepId (history ++ [v]) b := by
  cases turn with
  | next executes haction =>
    -- The count of this very step begins anew; that of another one is not touched.
    have ascending := h.ascending.erase v.step.stepId
    by_cases hown : v.step.stepId = stepId
    · have hmoves : v.moves stepId := by simp [Visit.moves, hown, haction]
      refine .of_absent ascending ?_ ?_
      · rw [made_erase h.ascending, if_pos hown]
      · rw [sinceNext_concat_moves hmoves, List.countP_nil]
    · have hasks := Visit.asks_eq_false (v := v) (by rw [haction]; rfl) stepId
      refine h.keep ascending ?_ (Visit.moves_eq_false_of_ne hown) hasks ?_
      · rw [made_erase h.ascending, if_neg hown]
      · exact (h.made_eq_zero executes.listed hown).imp_right .inl
  | gotoStep executes haction found =>
    -- No count changes, so that failures of the step which is left go on counting.
    have hmoves := Visit.moves_eq_false (v := v) (by simp [haction]) stepId
    have hasks := Visit.asks_eq_false (v := v) (by rw [haction]; rfl) stepId
    refine h.keep h.ascending rfl hmoves hasks ?_
    by_cases hown : v.step.stepId = stepId
    · exact .inr (.inr (by simp [Visit.departs, hown, haction, StepAction.isGotoStep]))
    · exact (h.made_eq_zero executes.listed hown).imp_right .inl
  | retry executes haction allowed slept =>
    have ascending := h.ascending.insert v.step.stepId (a.made v.step.stepId + 1)
    have hmoves := Visit.moves_eq_false (v := v) (by simp [haction]) stepId
    have hasks := executes.asks haction stepId
    by_cases hown : v.step.stepId = stepId
    · subst hown
      rw [beq_self_eq_true] at hasks
      have hmade := made_insert v.step.stepId v.step.stepId (a.made v.step.stepId + 1)
      refine ⟨ascending, ?_, ?_⟩
      · rw [count_sinceNext_concat hmoves, hasks, hmade, ← h.counted]
        simp
      · refine h.recent.imp (fun carried => carried.concat hmoves) fun hrecent => ?_
        rw [hmade, if_pos rfl]
        refine ⟨hrecent.1.concat hasks, fun step _ hlisted => ?_⟩
        rw [Option.some.inj (hlisted.symm.trans executes.listed)]
    · rw [beq_eq_false_iff_ne.2 hown] at hasks
      refine h.keep ascending ?_ hmoves hasks ?_
      · rw [made_insert, if_neg hown]
      · exact (h.made_eq_zero executes.listed hown).imp_right .inl

theorem Visited.knows (before : Visited env scene w (.opening bound inv s) history a) :
    Knows w stepId history a := by
  induction before with
  | start => exact .of_absent ascending_nil rfl rfl
  | turn before turn ih => exact ih.turn turn

/-- The failures that were counted in vain, the last one of them at the end of the executions. -/
structure Spent (stepId : String) (attempts : Nat) (executions : List Visit) : Prop where
  counted : (sinceNext stepId executions).countP (·.asks stepId) = attempts
  recent : Carried stepId executions ∨ Recent stepId attempts executions
  last : ∃ before v, executions = before ++ [v] ∧ v.asks stepId ∧
    ∃ delay limit, v.outcome.action = .retry delay limit ∧ limit < attempts

theorem GivesUp.spent (gives : GivesUp env scene w a v s')
    (before : Visited env scene w (.opening bound inv s) history a) :
    Spent v.step.stepId (a.made v.step.stepId + 1) (history ++ [v]) := by
  obtain ⟨⟨inv', executes⟩, delay, limit, haction, refused⟩ := gives
  have knows : Knows w v.step.stepId history a := before.knows
  have hmoves := Visit.moves_eq_false (v := v) (by simp [haction]) v.step.stepId
  have hasks := executes.asks haction v.step.stepId
  rw [beq_self_eq_true] at hasks
  refine ⟨?_, ?_, history, v, rfl, hasks, delay, limit, haction, Nat.lt_succ_of_le refused⟩
  · rw [count_sinceNext_concat hmoves, hasks, ← knows.counted]
    rfl
  · exact knows.recent.imp (fun carried => carried.concat hmoves) fun h => h.1.concat hasks

/-- An invocation that came to an execution which was refused one more retry. -/
inductive RunsOut (env : Environment) (scene : Scene) (w : Workflow) (start : Stage)
    (attempts : Nat) : RunError → RunState → Prop where
  | mk {history : List Visit} {a : Stage} {v : Visit} {s : RunState}
    (before : Visited env scene w start history a) (gives : GivesUp env scene w a v s)
    (spent : Spent v.step.stepId attempts (history ++ [v])) :
    RunsOut env scene w start attempts
      ⟨w.workflowId, some v.step.stepId, .retriesExhausted attempts⟩ s

theorem RunsOut.gives (runsOut : RunsOut env scene w start attempts error s) :
    ∃ history a v, Visited env scene w start history a ∧ GivesUp env scene w a v s := by
  cases runsOut with
  | mk before gives _ => exact ⟨_, _, _, before, gives⟩

theorem FailsAt.runsOut (fails : FailsAt env scene w a error s')
    (before : Visited env scene w (.opening bound inv s) history a)
    (hfault : error.fault = .retriesExhausted attempts) :
    RunsOut env scene w (.opening bound inv s) attempts error s' := by
  cases fails with
  | exhausted gives =>
    cases hfault
    exact .mk before gives (gives.spent before)
  | step starts fails =>
    dsimp only at hfault
    subst hfault
    exact fails.ofStep.elim
  | unknown starts names missed =>
    rw [locate_error missed] at hfault
    cases hfault
  | overspent => cases hfault
  | aimless => cases hfault
  | lost => cases hfault
  | strayed => cases hfault

theorem Raises.runsOut {c : Call} (raises : Raises env c error s')
    (hfault : error.fault = .retriesExhausted attempts) :
    ∃ w supplied start, Opens env c w supplied start ∧
      RunsOut env c.scene w start attempts error s' := by
  cases raises with
  | stage opens before fails =>
    cases opens with
    | mk prepares supplies deeper =>
      exact ⟨_, _, _, .mk prepares supplies deeper, fails.runsOut before hfault⟩
  | refused found unprepared =>
    obtain ⟨name, rfl⟩ | ⟨reason, rfl⟩ := prepareInputs_error unprepared <;> cases hfault
  | unknown prepares split supplies missed =>
    rw [locate_error missed] at hfault
    cases hfault
  | outputs opens closed missed =>
    obtain ⟨reason, rfl⟩ := workflowOutputs_error missed
    cases hfault
  | notFound => cases hfault
  | cyclic => cases hfault

/--
The retries of a step that an invocation runs out of are its failures since the step was last left
for the next one: the last executions of the invocation, unless the step was left by a goto after
one of them. An error that tells of retries is that of such an invocation, which is the one that
stops, or a workflow within it: one that its step runs, or that takes over from it.
-/
theorem retriesExhausted_counts (env : Environment) (registry : Registry) :
    (∀ scene w bound inv s history a v s',
      Visited env scene w (.opening bound inv s) history a → GivesUp env scene w a v s' →
      Spent v.step.stepId (a.made v.step.stepId + 1) (history ++ [v]) ∧
        (Stage.opening bound inv s).run env scene w = (.error (.failed ⟨w.workflowId,
          some v.step.stepId, .retriesExhausted (a.made v.step.stepId + 1)⟩), s')) ∧
    (∀ scene w bound inv s error s' attempts,
      (Stage.opening bound inv s).run env scene w = (.error (.failed error), s') →
      error.fault = .retriesExhausted attempts →
      RunsOut env scene w (.opening bound inv s) attempts error s' ∨
        ∃ history a, Visited env scene w (.opening bound inv s) history a ∧
          FromWithin env scene w a error s') ∧
    (∀ c error s' attempts, c.run env = (.error (.failed error), s') →
      error.fault = .retriesExhausted attempts →
      ∃ c' w supplied start, Within env c c' ∧ Opens env c' w supplied start ∧
        RunsOut env c'.scene w start attempts error s') ∧
    ∀ workflowId inputs trace error attempts,
      (withSources env registry workflowId inputs trace).1 = .error error →
      error.fault = .retriesExhausted attempts →
      ∃ c w supplied start, Within (env.limitedFrom trace.clock)
          (.first (enough env.config registry) registry workflowId inputs trace) c ∧
        Opens (env.limitedFrom trace.clock) c w supplied start ∧
        RunsOut (env.limitedFrom trace.clock) c.scene w start attempts error
          (perform env (enough env.config registry) registry workflowId inputs trace).2 := by
  refine ⟨?_, ?_, ?_, ?_⟩
  · intro scene w bound inv s history a v s' before gives
    have closes : Closes env scene w a _ s' := .exhausted gives
    exact ⟨gives.spent before, before.run_eq.trans closes.run_eq⟩
  · intro scene w bound inv s error s' attempts hrun hfault
    have closed : Closed env scene w (.opening bound inv s) _ _ := Visited.start.closed
    rw [hrun] at closed
    obtain ⟨history, a, before, closes⟩ := closed
    -- An error of the steps is raised here, or it is that of the workflow which is run at the stage.
    rcases closes.fails rfl with fails | within
    · exact .inl (fails.runsOut before hfault)
    · exact .inr ⟨history, a, before, within⟩
  · intro c error s' attempts hrun hfault
    obtain ⟨c', within, raises⟩ := exists_raises hrun
    obtain ⟨w, supplied, start, opens, runsOut⟩ := raises.runsOut hfault
    exact ⟨c', w, supplied, start, within, opens, runsOut⟩
  · intro workflowId inputs trace error attempts hrun hfault
    rcases withSources_raises hrun with ⟨c, within, raises⟩ | rfl
    · obtain ⟨w, supplied, start, opens, runsOut⟩ := raises.runsOut hfault
      exact ⟨c, w, supplied, start, within, opens, runsOut⟩
    · cases hfault

def returningTree : Json :=
  .obj [("arazzo", .str "1.0.1"),
    ("info", .obj [("title", .str "t"), ("version", .str "1")]),
    ("sourceDescriptions", .arr [.obj [("name", .str "api"), ("url", .str "api.json")]]),
    ("workflows", .arr [.obj
      [("steps", .arr [.obj
        [("onFailure", .arr [.obj [("name", .str "more"), ("retryAfter", .num (.int 0)),
            ("retryLimit", .num (.int 1)), ("type", .str "retry")]]),
          ("onSuccess", .arr [.obj [("name", .str "again"), ("stepId", .str "s"),
            ("type", .str "goto")]]),
          ("operationId", .str "get"), ("stepId", .str "s"),
          ("successCriteria", .arr [.obj [("condition", .str "200"),
            ("context", .str "$statusCode"), ("type", .str "regex")]])]]),
        ("workflowId", .str "w")]])]

def unsteadyClient : HttpClient :=
  ⟨fun before _ =>
    { latency := ⟨0⟩
      result := .ok
        { status := if before.length = 1 then 200 else 503, headers := [], body := [] } }⟩

def unsteady : Environment := { client := unsteadyClient }

def unsteadyRun (loaded : Registry × Trace) :
    Except (Stop RunError) (Table Json) × RunState :=
  perform unsteady (enough unsteady.config loaded.1) loaded.1 "w" .null loaded.2

def unsteadyRecords : List StepRecord :=
  [⟨"w", "s", 1, some 503, false⟩, ⟨"w", "s", 2, some 200, true⟩, ⟨"w", "s", 2, some 503, false⟩]

def worn : Except (Stop RunError) (Table Json) × RunState → Bool
  | (.error (.failed ⟨workflowId, stepId, .retriesExhausted attempts⟩), s) =>
    workflowId == "w" && stepId == some "s" && attempts == 2 && s.records == unsteadyRecords
  | _ => false

theorem eq_of_worn {result : Except (Stop RunError) (Table Json) × RunState}
    (h : worn result = true) :
    result.1 = .error (.failed ⟨"w", some "s", .retriesExhausted 2⟩) ∧
      result.2.records = unsteadyRecords := by
  unfold worn at h
  split at h
  · simp only [Bool.and_eq_true, beq_iff_eq] at h
    obtain ⟨⟨⟨rfl, rfl⟩, rfl⟩, hrecords⟩ := h
    exact ⟨rfl, hrecords⟩
  · cases h

theorem exists_worn :
    ∃ d loaded, (Document.parse false none returningTree).usable? = some d ∧
      givenLoaded d = some loaded ∧ worn (unsteadyRun loaded) = true := by
  have hworn : (Document.parse false none returningTree).usable?.any
      (fun d => (givenLoaded d).any (worn ∘ unsteadyRun)) = true := by
    decide +kernel
  obtain ⟨d, hd, hworn⟩ := (Option.any_eq_true _ _).1 hworn
  obtain ⟨loaded, hloaded, hworn⟩ := (Option.any_eq_true _ _).1 hworn
  exact ⟨d, loaded, hd, hloaded, hworn⟩

/-- Two attempts are counted though the last two executions are not both failures: the failure
before the goto is carried over. -/
theorem returning_carried :
    (Document.parse false none returningTree).diagnostics = [] ∧
      ∃ d registry trace, (Document.parse false none returningTree).usable? = some d ∧
        (givenLoader.load d).run {} = (.ok registry, trace) ∧
        (unsteadyRun (registry, trace)).1 =
          .error (.failed ⟨"w", some "s", .retriesExhausted 2⟩) ∧
        (unsteadyRun (registry, trace)).2.records = unsteadyRecords := by
  have hquiet : (Document.parse false none returningTree).diagnostics.isEmpty = true := by
    decide +kernel
  obtain ⟨d, ⟨registry, trace⟩, hd, hloaded, hworn⟩ := exists_worn
  obtain ⟨herror, hrecords⟩ := eq_of_worn hworn
  exact ⟨List.isEmpty_iff.1 hquiet, d, registry, trace, hd, load_of_givenLoaded hloaded, herror,
    hrecords⟩

theorem retriesExhausted_returning :
    ∃ d registry trace error final c w supplied bound inv s,
      (Document.parse false none returningTree).usable? = some d ∧
        (givenLoader.load d).run {} = (.ok registry, trace) ∧
        (withSources unsteady registry "w" .null trace).1 = .error error ∧
        error = ⟨"w", some "s", .retriesExhausted 2⟩ ∧
        unsteadyRun (registry, trace) = (.error (.failed error), final) ∧
        Within (unsteady.limitedFrom trace.clock)
          (.first (enough unsteady.config registry) registry "w" .null trace) c ∧
        Opens (unsteady.limitedFrom trace.clock) c w supplied (.opening bound inv s) ∧
        RunsOut (unsteady.limitedFrom trace.clock) c.scene w (.opening bound inv s) 2 error final ∧
        ∃ history a v, Visited (unsteady.limitedFrom trace.clock) c.scene w (.opening bound inv s)
            history a ∧
          GivesUp (unsteady.limitedFrom trace.clock) c.scene w a v final ∧
          Spent v.step.stepId (a.made v.step.stepId + 1) (history ++ [v]) := by
  obtain ⟨d, ⟨registry, trace⟩, hd, hloaded, hworn⟩ := exists_worn
  obtain ⟨herror, -⟩ := eq_of_worn hworn
  have hrun : (withSources unsteady registry "w" .null trace).1 =
      .error ⟨"w", some "s", .retriesExhausted 2⟩ :=
    (withSources_of_perform ..).2 _ herror
  obtain ⟨c, w, supplied, start, within, opens, runsOut⟩ :=
    (retriesExhausted_counts unsteady registry).2.2.2 _ _ _ _ _ hrun rfl
  cases opens with
  | mk prepares supplies deeper =>
    have opens := Opens.mk prepares supplies deeper
    obtain ⟨history, a, v, before, gives⟩ := runsOut.gives
    have spent := ((retriesExhausted_counts _ registry).1 _ _ _ _ _ _ _ _ _ before gives).1
    exact ⟨d, registry, trace, _, _, c, w, supplied, _, _, _, hd, load_of_givenLoaded hloaded, hrun,
      rfl, Prod.ext herror rfl, within, opens, runsOut, history, a, v, before, gives, spent⟩

end Run
end Arazzo
