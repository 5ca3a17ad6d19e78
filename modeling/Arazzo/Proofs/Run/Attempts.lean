import Arazzo.Proofs.Run.Retries

/-! How an invocation numbers the attempts that it announces: one by one, from the second one on,
and anew each time that the step was left for the next one. -/

namespace Arazzo

def Event.attempt? (stepId : String) : Event → Option Nat
  | .retryScheduled _ id attempt _ => if id = stepId then some attempt else none
  | _ => none

namespace Run

open Table

/-- An execution of an invocation, and what is told last before the invocation goes on. -/
structure Leg where
  visit : Visit
  told : Option Event

def Leg.attempt? (stepId : String) (leg : Leg) : Option Nat := leg.told.bind (Event.attempt? stepId)

/-- The executions of an invocation from one stage to another, with what is told after each. -/
inductive Route (env : Environment) (scene : Scene) (w : Workflow) (start : Stage) :
    List Leg → Stage → Prop where
  | start : Route env scene w start [] start
  | turn {legs : List Leg} {a b : Stage} {v : Visit} (before : Route env scene w start legs a)
    (turn : Turn env scene w a v b) :
    Route env scene w start (legs ++ [⟨v, b.state.trace.events.getLast?⟩]) b

/-- The attempts at the step that were announced after it was last left for the next one. -/
def announcedSinceNext (stepId : String) (legs : List Leg) : List Nat :=
  (legs.rtakeWhile fun leg => !leg.visit.moves stepId).filterMap (Leg.attempt? stepId)

/-- The execution at a stage is a failure, after which `action` was chosen; `inv` and `s` are there
once it has its record. -/
structure Chooses (env : Environment) (scene : Scene) (w : Workflow) (a : Stage) (v : Visit)
    (inv : Invocation) (s : RunState) (action : FailureAction) : Prop where
  failed : v.outcome.success = false
  follows : v.outcome.action = .ofFailure env s.trace.clock inv.context action
  chosen : ∃ status z before judged, Performs env scene w a v.step status z before ∧
    (conclude env scene.registry w v.step status).run z =
      (.ok v.outcome, ⟨s.trace, inv.resolver, inv.context⟩) ∧
    (Stepping.ofResolving RunFault.criterion fun context =>
      Criterion.allHold context v.step.successCriteria).run z = (.ok false, judged) ∧
    (Stepping.ofResolving id (failureAction scene.registry.document.components w v.step)).run
      { judged with
        trace := judged.trace.record (.stepFailed w.workflowId v.step.stepId status) } =
      (.ok (some action), ⟨s.trace, inv.resolver, inv.context⟩)

/-- A retry that an invocation is to announce: `failed` was executed at `stage`, to which `legs` lead,
and `left` and `state` are there once it has its record. -/
structure Scheduling (env : Environment) (registry : Registry) where
  bound : Nat
  scene : Scene
  w : Workflow
  inv : Invocation
  start : RunState
  legs : List Leg
  stage : Stage
  failed : Visit
  left : Invocation
  state : RunState
  delay : Duration
  limit : Nat
  home : Home registry scene w
  route : Route env scene w (.opening bound inv start) legs stage
  executes : Executes env scene w stage failed left state
  haction : failed.outcome.action = .retry delay limit
  allowed : stage.made failed.step.stepId < limit

namespace Scheduling

variable {env : Environment} {registry : Registry}

def stepId (x : Scheduling env registry) : String := x.failed.step.stepId

def attempt (x : Scheduling env registry) : Nat := x.stage.made x.stepId + 2

def event (x : Scheduling env registry) : Event :=
  .retryScheduled x.w.workflowId x.stepId x.attempt x.delay

end Scheduling

variable {env : Environment} {registry : Registry} {bound : Nat} {scene : Scene} {w : Workflow}
  {inv : Invocation} {s : RunState} {start a b : Stage} {v : Visit} {stepId : String}
  {history : List Visit} {legs : List Leg} {leg : Leg}

theorem announcedSinceNext_concat_moves (h : leg.visit.moves stepId) :
    announcedSinceNext stepId (legs ++ [leg]) = [] := by
  rw [announcedSinceNext, List.rtakeWhile_concat_neg _ _ _ (by simp [h]), List.filterMap_nil]

theorem announcedSinceNext_concat (h : leg.visit.moves stepId = false) :
    announcedSinceNext stepId (legs ++ [leg]) =
      announcedSinceNext stepId legs ++ (leg.attempt? stepId).toList := by
  rw [announcedSinceNext, List.rtakeWhile_concat_pos _ _ _ (by simp [h]), List.filterMap_append,
    announcedSinceNext]
  cases hattempt : leg.attempt? stepId <;> simp [hattempt]

theorem Visited.route (visited : Visited env scene w start history a) :
    ∃ legs, Route env scene w start legs a := by
  induction visited with
  | start => exact ⟨[], .start⟩
  | turn _ turn ih =>
    obtain ⟨legs, route⟩ := ih
    exact ⟨_, route.turn turn⟩

theorem Executes.told (executes : Executes env scene w a v inv s) :
    s.trace.events.getLast? = some (verdict w v.step v.outcome.success v.outcome.status) := by
  obtain ⟨status, z, before, -, hrun, -⟩ := executes.concludes
  obtain ⟨rfl, htrace⟩ := (conclude_leads env scene.registry w v.step status z).of_ok hrun
  have recorded : s.trace = z.trace.record _ := htrace
  rw [recorded]
  exact List.getLast?_concat

theorem attempt?_verdict (step : Step) (success : Bool) (status : Option Nat) :
    Event.attempt? stepId (verdict w step success status) = none := by
  cases success <;> rfl

theorem conclude_chooses (step : Step) (status : Option Nat) (z : Session) :
    Leads (conclude env scene.registry w step status) z
      (fun outcome z' => outcome.success = false → ∃ judged action,
        (Stepping.ofResolving RunFault.criterion fun context =>
          Criterion.allHold context step.successCriteria).run z = (.ok false, judged) ∧
        (Stepping.ofResolving id (failureAction scene.registry.document.components w step)).run
          { judged with
            trace := judged.trace.record (.stepFailed w.workflowId step.stepId status) } =
          (.ok (some action), z') ∧
        outcome.action = .ofFailure env z'.trace.clock z'.context action)
      fun _ _ => True := by
  unfold conclude
  refine (Leads.anything _ z).bind_run fun success z₁ hjudged _ => ?_
  cases success with
  | true =>
    refine (Leads.anything _ z₁).bind fun chosen z₂ _ => (Leads.anything _ z₂).bind fun _ z₃ _ => ?_
    refine (Leads.anything _ z₃).bind fun _ z₄ _ => .of_pure fun hfailed => ?_
    cases hfailed
  | false =>
    refine .bind_modify ((Leads.anything _ _).bind_run fun chosen z₂ hchosen _ => ?_)
    cases chosen with
    | none => exact .of_throw trivial
    | some action => exact .bind_get (.of_pure fun _ => ⟨z₁, action, hjudged, hchosen, rfl⟩)

theorem retry_of_ofFailure {clock : Nat} {context : Context} {action : FailureAction}
    {delay : Duration} {limit : Nat}
    (h : StepAction.ofFailure env clock context action = .retry delay limit) :
    action.kind = .retry ∧ action.retryLimit.getD 1 = limit := by
  have nowhere : StepAction.goto action.stepId action.workflowId ≠ .retry delay limit := by
    cases action.stepId <;> cases action.workflowId <;> simp [StepAction.goto]
  cases hkind : action.kind with
  | finish => simp [StepAction.ofFailure, hkind] at h
  | goto => exact absurd (by simpa only [StepAction.ofFailure, hkind] using h) nowhere
  | retry =>
    simp only [StepAction.ofFailure, hkind, StepAction.retry.injEq] at h
    exact ⟨rfl, h.2⟩

theorem Executes.chooses {delay : Duration} {limit : Nat} (executes : Executes env scene w a v inv s)
    (haction : v.outcome.action = .retry delay limit) :
    ∃ action, Chooses env scene w a v inv s action ∧ action.kind = .retry ∧
      action.retryLimit.getD 1 = limit := by
  obtain ⟨status, z, before, performs, hrun, -⟩ := executes.concludes
  have hfailed := (conclude_failed status v.step z).of_ok hrun (by rw [haction]; rfl)
  obtain ⟨judged, action, hjudged, hchosen, hfollows⟩ :=
    (conclude_chooses v.step status z).of_ok hrun hfailed
  obtain ⟨hkind, hlimit⟩ := retry_of_ofFailure (hfollows.symm.trans haction)
  exact ⟨action, ⟨hfailed, hfollows, status, z, before, judged, performs, hrun, hjudged, hchosen⟩,
    hkind, hlimit⟩

/-- What a stage knows of the attempts that were announced on the way to it. -/
structure Numbers (legs : List Leg) (a : Stage) : Prop where
  ascending : Ascending a.retries
  numbered (stepId : String) : announcedSinceNext stepId legs = List.range' 2 (a.made stepId)

/-- What is told after an execution is no announcement, and no count changes but perhaps that of a
step which is left for the next one. -/
theorem Numbers.keep (h : Numbers legs a) (ascending : Ascending b.retries)
    (silent : ∀ stepId, leg.attempt? stepId = none)
    (kept : ∀ stepId, b.made stepId = if leg.visit.moves stepId then 0 else a.made stepId) :
    Numbers (legs ++ [leg]) b where
  ascending
  numbered stepId := by
    rw [kept stepId]
    cases hmoves : leg.visit.moves stepId with
    | true => exact announcedSinceNext_concat_moves hmoves
    | false =>
      rw [announcedSinceNext_concat hmoves, silent, h.numbered stepId]
      exact List.append_nil _

theorem Numbers.turn (h : Numbers legs a) (turn : Turn env scene w a v b) :
    Numbers (legs ++ [⟨v, b.state.trace.events.getLast?⟩]) b := by
  cases turn with
  | next executes haction =>
    refine h.keep (h.ascending.erase _) (fun stepId => ?_) fun stepId => ?_
    -- Nothing is told after the verdict on the step.
    · rw [Leg.attempt?, executes.told]
      exact attempt?_verdict ..
    · rw [made_erase h.ascending]
      simp [Visit.moves, haction]
  | gotoStep executes haction found =>
    refine h.keep h.ascending (fun stepId => ?_) fun stepId => ?_
    · rw [Leg.attempt?, RunState.emit, Trace.record, List.getLast?_concat]
      rfl
    · rw [Visit.moves_eq_false (by simp [haction])]
      rfl
  | retry executes haction allowed slept =>
    refine ⟨h.ascending.insert _ _, fun stepId => ?_⟩
    obtain ⟨trace, hwait, rfl⟩ := (sleep_leads _).of_ok slept
    rw [announcedSinceNext_concat (Visit.moves_eq_false (by simp [haction]) stepId), h.numbered,
      made_insert, Leg.attempt?, RunState.traced, (wait_keeps hwait).1, RunState.emit, Trace.record,
      List.getLast?_concat, Option.bind_some, Event.attempt?]
    by_cases hown : v.step.stepId = stepId
    -- With `n` retries made, the numbers so far are those from 2 to `n + 1`, and `n + 2` follows.
    · subst hown
      rw [if_pos rfl, if_pos rfl, List.range'_concat, Nat.one_mul, Nat.add_comm]
      rfl
    · rw [if_neg hown, if_neg hown]
      exact List.append_nil _

theorem Route.numbers (route : Route env scene w (.opening bound inv s) legs a) :
    Numbers legs a := by
  induction route with
  | start => exact ⟨ascending_nil, fun _ => rfl⟩
  | turn _ turn ih => exact ih.turn turn

namespace Scheduling

variable (x : Scheduling env registry)

theorem attempt_le_limit : ∃ action, Chooses env x.scene x.w x.stage x.failed x.left x.state action ∧
    action.kind = .retry ∧ x.attempt ≤ action.retryLimit.getD 1 + 1 := by
  obtain ⟨action, chooses, hkind, hlimit⟩ := x.executes.chooses x.haction
  refine ⟨action, chooses, hkind, ?_⟩
  rw [hlimit]
  exact Nat.succ_le_succ x.allowed

theorem announced_concat :
    announcedSinceNext x.stepId x.legs ++ [x.attempt] = List.range' 2 (x.attempt - 1) := by
  have numbered := x.route.numbers.numbered x.stepId
  have hlast : x.attempt - 1 = x.stage.made x.stepId + 1 := rfl
  rw [numbered, hlast, List.range'_concat, Nat.one_mul, Nat.add_comm]
  rfl

variable {x}

theorem onward (turn : Turn env x.scene x.w x.stage x.failed b) :
    x.w.steps[b.index]? = some x.failed.step ∧ b.made x.stepId + 1 = x.attempt := by
  cases turn with
  | next executes haction => cases x.haction.symm.trans haction
  | gotoStep executes haction => cases x.haction.symm.trans haction
  | retry executes haction =>
    refine ⟨x.executes.listed, ?_⟩
    have own : x.failed.step.stepId = x.stepId := rfl
    rw [made_insert, if_pos own]
    rfl

end Scheduling

theorem Executes.records (executes : Executes env scene w a v inv s) :
    s.records.getLast? =
      some (v.outcome.record w.workflowId v.step.stepId (a.made v.step.stepId + 1)) := by
  obtain ⟨before, -, rfl⟩ := executes.ran
  exact List.getLast?_concat

end Run
end Arazzo
