import Arazzo.Proofs.Run.Calls
import Arazzo.Proofs.Run.Termination

/-! Where the errors of a run come from: each of them is raised by one of the workflows that are run
within it, and mostly at a stage of that. -/

namespace Arazzo

variable {ε α β : Type}

def Stop.Fails (P : ε → Prop) : Stop ε → Prop
  | .failed error => P error
  | .expired => True
  | .unfinished => True

/-- What a step that has a target fails for by itself. -/
def RunFault.OfStep : RunFault → Prop
  | .operation _ => True
  | .reference _ => True
  | .resolve _ => True
  | .criterion _ => True
  | .request _ => True
  | .http _ => True
  | .noMatchingAction _ => True
  | _ => False

namespace Stepping

abbrev Fails (work : Stepping α) : Prop := StopsOnly (Stop.Fails RunFault.OfStep) work

variable {P : RunFault → Prop}

theorem stops_ofExcept {wrap : ε → RunFault} {result : Except ε α}
    (h : ∀ e, result = .error e → P (wrap e)) :
    StopsOnly (Stop.Fails P) (ofExcept wrap result) := by
  cases result with
  | ok a => exact .of_pure a
  | error e => exact .of_throw (h e rfl)

theorem stops_ofExcept_bind {wrap : ε → RunFault} {result : Except ε α} {next : α → Stepping β}
    (herror : ∀ e, result = .error e → P (wrap e))
    (hnext : ∀ a, result = .ok a → StopsOnly (Stop.Fails P) (next a)) :
    StopsOnly (Stop.Fails P) (ofExcept wrap result >>= next) := by
  cases result with
  | ok a => exact hnext a rfl
  | error e => exact .of_throw (herror e rfl)

theorem stops_ofResolving {wrap : ε → RunFault} {work : Context → Resolving ε α}
    (h : ∀ c, StopsOnly (fun e => P (wrap e)) (work c)) :
    StopsOnly (Stop.Fails P) (ofResolving wrap work) :=
  fun z => ofResolving_leads (h z.context z.resolver)

theorem fails_ofResolving_wrap {wrap : ε → RunFault} {work : Context → Resolving ε α}
    (h : ∀ e, (wrap e).OfStep) : Fails (ofResolving wrap work) :=
  stops_ofResolving fun _ _ => .of_stops fun e _ _ => h e

end Stepping

namespace Run

open Stepping

/-- The entry is the first one of the list whose criteria hold. -/
structure Picks {α : Type} (resolve : Entry α → Except ReferenceError α)
    (criteria : α → List Criterion) (context : Context) (entries : List (Entry α)) (r : Resolver)
    (entry : Entry α) (a : α) (r' : Resolver) : Prop where
  leads : resolve entry = .ok a
  first : ∃ earlier later r₁, entries = earlier ++ entry :: later ∧
    (firstHolding resolve criteria context earlier).run r = (.ok none, r₁) ∧
    (Criterion.allHold context (criteria a)).run r₁ = (.ok true, r')

theorem Picks.mem {resolve : Entry α → Except ReferenceError α} {criteria : α → List Criterion}
    {context : Context} {entries : List (Entry α)} {r r' : Resolver} {entry : Entry α} {a : α}
    (picks : Picks resolve criteria context entries r entry a r') : entry ∈ entries := by
  obtain ⟨earlier, later, -, rfl, -⟩ := picks.first
  exact List.mem_append_right _ (List.mem_cons_self ..)

theorem firstHolding_picks {resolve : Entry α → Except ReferenceError α}
    {criteria : α → List Criterion} (context : Context) (entries : List (Entry α)) (r : Resolver) :
    Leads (firstHolding resolve criteria context entries) r
      (fun chosen r' => ∀ a, chosen = some a →
        ∃ entry, Picks resolve criteria context entries r entry a r')
      fun fault _ => fault.OfStep := by
  induction entries generalizing r with
  | nil => exact .of_pure (by simp)
  | cons entry rest ih =>
    unfold firstHolding
    cases leads : resolve entry with
    | error error => exact .of_throw trivial
    | ok action =>
      have judged : Leads ((Criterion.allHold context (criteria action)).adapt RunFault.criterion) r
          (fun holds r' => (Criterion.allHold context (criteria action)).run r = (.ok holds, r'))
          fun fault _ => fault.OfStep :=
        .of_adapt (.intro (fun _ _ hrun => hrun) fun _ _ _ => trivial)
      refine judged.bind fun holds r₁ hholds => ?_
      cases holds with
      | true =>
        refine .of_pure fun a ha => ⟨entry, ?_⟩
        obtain rfl := Option.some.inj ha
        exact ⟨leads, [], rest, r, rfl, rfl, hholds⟩
      | false =>
        refine (ih r₁).mono (fun chosen r' h a ha => ?_) fun _ _ h => h
        obtain ⟨found, hleads, earlier, later, r₂, hsplit, hnone, hfound⟩ := h a ha
        refine ⟨found, hleads, entry :: earlier, later, r₂, by rw [hsplit, List.cons_append], ?_, hfound⟩
        have passed : ((Criterion.allHold context (criteria action)).adapt RunFault.criterion).run r =
            (.ok false, r₁) := by rw [run_adapt, hholds]; rfl
        rw [firstHolding, leads]
        exact (run_bind_ok passed).trans hnone

theorem fails_publishOutputs (stepId : String) (outputs : List (String × String)) :
    Fails (publishOutputs stepId outputs) := by
  induction outputs with
  | nil => exact .of_pure []
  | cons output rest ih =>
    obtain ⟨name, expression⟩ := output
    unfold publishOutputs
    refine StopsOnly.bind (fails_ofResolving_wrap fun _ => trivial) fun value => ?_
    exact StopsOnly.bind (.of_modify _) fun _ => ih.bind fun values => .of_pure _

theorem fails_publishStep (step : Step) : Fails (publishStep step) :=
  (fails_publishOutputs step.stepId step.outputs).bind fun _ => .of_modify _

theorem fails_delegatedInputs (scene : Scene) (w : Workflow) (step : Step) :
    Fails (delegatedInputs scene w step) := by
  unfold delegatedInputs
  refine StopsOnly.bind (stops_ofExcept fun _ _ => trivial) fun parameters => ?_
  refine StopsOnly.bind (StopsOnly.mapM fun p _ => ?_) fun _ => .of_pure _
  exact StopsOnly.bind (fails_ofResolving_wrap fun _ => trivial) fun _ => .of_pure _

theorem fails_successAction (components : Option Components) (w : Workflow) (step : Step) :
    Fails (ofResolving id (successAction components w step)) :=
  stops_ofResolving fun c r => (firstHolding_picks c _ r).mono (fun _ _ _ => trivial) fun _ _ h => h

theorem fails_failureAction (components : Option Components) (w : Workflow) (step : Step) :
    Fails (ofResolving id (failureAction components w step)) :=
  stops_ofResolving fun c r => (firstHolding_picks c _ r).mono (fun _ _ _ => trivial) fun _ _ h => h

theorem fails_conclude (env : Environment) (registry : Registry) (w : Workflow) (step : Step)
    (status : Option Nat) : Fails (conclude env registry w step status) := by
  unfold conclude
  refine StopsOnly.bind (fails_ofResolving_wrap fun _ => trivial) fun success => ?_
  cases success with
  | true =>
    refine StopsOnly.bind (fails_successAction _ w step) fun action => ?_
    refine StopsOnly.bind (fails_publishStep step) fun _ => ?_
    exact StopsOnly.bind (.of_modify _) fun _ => .of_pure _
  | false =>
    refine StopsOnly.bind (.of_modify _) fun _ => ?_
    refine StopsOnly.bind (fails_failureAction _ w step) fun action => ?_
    cases action with
    | none => exact fun _ => .of_throw trivial
    | some action => exact fun _ => .bind_get (.of_pure trivial)

theorem findOperation_fault {documents : List InterfaceDocument} {step : Step} {fault : RunFault}
    (htarget : ∀ reference, step.target? ≠ some (.workflow reference)) (hsome : step.target? ≠ none)
    (h : findOperation documents step = .error fault) : fault.OfStep := by
  have wrapped (found : Except LookupError Operation)
      (hfound : found.mapError .operation = .error fault) : fault.OfStep := by
    cases found <;> cases hfound
    trivial
  unfold findOperation at h
  split at h
  · exact wrapped _ h
  · exact wrapped _ h
  · rename_i hid hpath
    cases hstep : step.target? with
    | none => exact absurd hstep hsome
    | some target =>
      cases target with
      | operationId id => exact absurd hstep (hid id)
      | operationPath path => exact absurd hstep (hpath path)
      | workflow reference => exact absurd hstep (htarget reference)

theorem fails_prepare (env : Environment) (registry : Registry) (w : Workflow) {step : Step}
    (htarget : ∀ reference, step.target? ≠ some (.workflow reference))
    (hsome : step.target? ≠ none) : Fails (prepare env registry w step) := by
  unfold prepare
  refine StopsOnly.bind (stops_ofExcept fun _ h => findOperation_fault htarget hsome h) fun operation => ?_
  refine StopsOnly.bind (stops_ofExcept fun _ _ => trivial) fun parameters => ?_
  exact fails_ofResolving_wrap fun _ => trivial

theorem stops_wait {P : RunFault → Prop} (env : Environment) (d : Duration) :
    StopsOnly (Stop.Fails P) (Stepping.wait env d) := by
  intro z
  refine stepWait_of_wait (fun _ _ => trivial) fun reason trace hwait => ?_
  rw [wait_error hwait]
  trivial

theorem stops_send {P : RunFault → Prop} (h : ∀ e, P (.http e)) (env : Environment)
    (request : HttpRequest) : StopsOnly (Stop.Fails P) (send env request) := by
  unfold send
  refine .bind_get fun z => .bind_set ?_
  exact (stops_wait env _).bind fun _ => stops_ofExcept fun e _ => h e

theorem fails_receive (env : Environment) (registry : Registry) (w : Workflow) {step : Step}
    (calls : ∀ reference, step.target? ≠ some (.workflow reference)) (aims : step.target? ≠ none) :
    Fails (receive env registry w step) := by
  unfold receive
  refine StopsOnly.bind (fails_prepare env registry w calls aims) fun built => ?_
  refine StopsOnly.bind (stops_send (fun _ => trivial) env built.request) fun response => ?_
  exact StopsOnly.bind (.of_modify _) fun _ => .of_pure response

/-- A step at a stage fails by itself: when it asks for the inputs of the workflow that it is to run,
when it makes its request, or when it is concluded. -/
inductive StepFails (env : Environment) (scene : Scene) (w : Workflow) (a : Stage) (step : Step) :
    RunFault → RunState → Prop where
  | unasked {fault : RunFault} {z : Session}
    (ran : (delegatedInputs scene w step).run (a.session scene w step) =
      (.error (.failed fault), z)) :
    StepFails env scene w a step fault ((a.started scene w step).traced z.trace)
  | unanswered {fault : RunFault} {z : Session}
    (calls : ∀ reference, step.target? ≠ some (.workflow reference)) (aims : step.target? ≠ none)
    (ran : (receive env scene.registry w step).run (a.session scene w step) =
      (.error (.failed fault), z)) :
    StepFails env scene w a step fault ((a.started scene w step).traced z.trace)
  | unconcluded {status : Option Nat} {z z' : Session} {s : RunState} {fault : RunFault}
    (performs : Performs env scene w a step status z s)
    (ran : (conclude env scene.registry w step status).run z = (.error (.failed fault), z')) :
    StepFails env scene w a step fault (s.traced z'.trace)

/-- An invocation fails at a stage. -/
inductive FailsAt (env : Environment) (scene : Scene) (w : Workflow) (a : Stage) :
    RunError → RunState → Prop where
  | overspent {step : Step} (listed : w.steps[a.index]? = some step)
    (spent : env.config.maxSteps ≤ a.state.executions) :
    FailsAt env scene w a ⟨w.workflowId, some step.stepId, .budgetExceeded env.config.maxSteps⟩
      a.state.count
  | aimless {step : Step} (starts : Starts env w a step) (none : step.target? = none) :
    FailsAt env scene w a ⟨w.workflowId, some step.stepId, .noTarget⟩ (a.started scene w step)
  | unknown {step : Step} {reference : String} {fault : RunFault} (starts : Starts env w a step)
    (names : step.target? = some (.workflow reference))
    (missed : locate scene reference = .error fault) :
    FailsAt env scene w a ⟨w.workflowId, some step.stepId, fault⟩ (a.started scene w step)
  | step {step : Step} {fault : RunFault} {s : RunState} (starts : Starts env w a step)
    (fails : StepFails env scene w a step fault s) :
    FailsAt env scene w a ⟨w.workflowId, some step.stepId, fault⟩ s
  | lost {v : Visit} {inv : Invocation} {s : RunState} {target : String}
    (executes : Executes env scene w a v inv s)
    (haction : v.outcome.action = .gotoStep target) (missed : w.stepIndex? target = none) :
    FailsAt env scene w a ⟨w.workflowId, some v.step.stepId, .unknownGotoTarget target⟩
      (s.emit (.goto w.workflowId v.step.stepId target))
  | strayed {v : Visit} {inv : Invocation} {s : RunState} {reference : String} {fault : RunFault}
    (executes : Executes env scene w a v inv s)
    (haction : v.outcome.action = .gotoWorkflow reference)
    (missed : locate scene reference = .error fault) :
    FailsAt env scene w a ⟨w.workflowId, some v.step.stepId, .unknownGotoTarget reference⟩
      (s.emit (.goto w.workflowId v.step.stepId reference))
  | exhausted {v : Visit} {s : RunState} (gives : GivesUp env scene w a v s) :
    FailsAt env scene w a
      ⟨w.workflowId, some v.step.stepId, .retriesExhausted (a.made v.step.stepId + 1)⟩ s

/-- An invocation ends at a stage by the error of a workflow: one that its step runs, or one that
takes over. -/
inductive FromWithin (env : Environment) (scene : Scene) (w : Workflow) (a : Stage)
    (error : RunError) (s : RunState) : Prop where
  | step {step : Step} {c : Call} {inv : Invocation} (starts : Starts env w a step)
    (delegates : Delegates scene w a step c inv) (ran : c.run env = (.error (.failed error), s))
  | takeover {v : Visit} {inv : Invocation} {before : RunState} {c : Call}
    (takesOver : TakesOver env scene w a v inv before c)
    (ran : c.run env = (.error (.failed error), s))

/-- A workflow fails, and not for one that is run within it. -/
inductive Raises (env : Environment) (c : Call) : RunError → RunState → Prop where
  | notFound (missed : c.scene.registry.document.workflow? c.workflowId = none) :
    Raises env c ⟨c.workflowId, none, .workflowNotFound c.workflowId⟩ c.state
  | refused {w : Workflow} {fault : RunFault}
    (found : c.scene.registry.document.workflow? c.workflowId = some w)
    (unprepared : prepareInputs c.scene.registry.document w c.inputs = .error fault) :
    Raises env c ⟨c.workflowId, none, fault⟩ c.state
  | unknown {w : Workflow} {inputs : Json} {earlier later : List String} {reference : String}
    {supplied : List Completion} {b : Basis} {fault : RunFault} (prepares : Prepares c w inputs)
    (split : w.dependsOn = earlier ++ reference :: later)
    (supplies : Supplies env c.scene c.workflowId c.basis earlier supplied b)
    (missed : locate c.scene reference = .error fault) :
    Raises env c ⟨c.workflowId, none, fault⟩ b.state
  | cyclic {w : Workflow} {inputs : Json} {earlier later : List String} {reference : String}
    {supplied : List Completion} {b : Basis} {target : Scene} {called : Workflow}
    (prepares : Prepares c w inputs) (split : w.dependsOn = earlier ++ reference :: later)
    (supplies : Supplies env c.scene c.workflowId c.basis earlier supplied b)
    (found : locate c.scene reference = .ok (target, called))
    (under : target.keyOf called ∈ b.state.stack) :
    Raises env c ⟨c.workflowId, none,
      .dependencyCycle (b.state.stack.map (·.workflowId) ++ [called.workflowId])⟩ b.state
  | outputs {w : Workflow} {supplied : List Completion} {start : Stage} {finish : Finish}
    {inv : Invocation} {s : RunState} {error : RunError} (opens : Opens env c w supplied start)
    (closed : Closed env c.scene w start (.ok (finish, inv)) s)
    (missed : workflowOutputs c.workflowId inv.context finish w.outputs inv.context.outputs
      inv.resolver = .error error) : Raises env c error s
  | stage {w : Workflow} {supplied : List Completion} {start a : Stage} {history : List Visit}
    {error : RunError} {s : RunState} (opens : Opens env c w supplied start)
    (before : Visited env c.scene w start history a) (fails : FailsAt env c.scene w a error s) :
    Raises env c error s

variable {env : Environment} {registry : Registry} {scene : Scene} {w : Workflow} {step : Step}
  {a : Stage} {s : RunState} {c : Call} {error : RunError} {fault : RunFault} {stop : Stop RunError}

theorem StepFails.ofStep (h : StepFails env scene w a step fault s) : fault.OfStep := by
  cases h with
  | unasked ran => exact (fails_delegatedInputs scene w step _).of_error ran
  | unanswered calls aims ran => exact (fails_receive env scene.registry w calls aims _).of_error ran
  | unconcluded _ ran => exact (fails_conclude env scene.registry w step _ _).of_error ran

theorem exists_fault_of_map {located : RunFault → RunError} {reason : Stop RunFault}
    (h : reason.map located = .failed error) :
    ∃ fault, reason = .failed fault ∧ located fault = error := by
  cases reason with
  | failed fault => exact ⟨fault, rfl, Stop.failed.inj h⟩
  | expired => cases h
  | unfinished => cases h

theorem Halts.fails (halts : Halts env scene w a step stop s) (starts : Starts env w a step)
    (hstop : stop = .failed error) : FailsAt env scene w a error s ∨
      ∃ c inv, Delegates scene w a step c inv ∧ c.run env = (.error (.failed error), s) := by
  cases halts with
  | unfinished => cases hstop
  | aimless none =>
    cases hstop
    exact .inl (.aimless starts none)
  | unknown names missed =>
    cases hstop
    exact .inl (.unknown starts names missed)
  | called delegates ran =>
    rw [hstop] at ran
    exact .inr ⟨_, _, delegates, ran⟩
  | unasked ran =>
    obtain ⟨fault, rfl, rfl⟩ := exists_fault_of_map hstop
    exact .inl (.step starts (.unasked ran))
  | unanswered calls aims ran =>
    obtain ⟨fault, rfl, rfl⟩ := exists_fault_of_map hstop
    exact .inl (.step starts (.unanswered calls aims ran))
  | unconcluded performs ran =>
    obtain ⟨fault, rfl, rfl⟩ := exists_fault_of_map hstop
    exact .inl (.step starts (.unconcluded performs ran))

theorem Closes.fails (closes : Closes env scene w a (.error stop) s) (hstop : stop = .failed error) :
    FailsAt env scene w a error s ∨ FromWithin env scene w a error s := by
  cases closes with
  | overspent deeper listed spent =>
    cases hstop
    exact .inl (.overspent listed spent)
  | stopped starts ran =>
    have halts := (a.works env scene w _).of_error ran
    refine (halts.fails starts hstop).imp_right ?_
    rintro ⟨c, inv, delegates, ran⟩
    exact .step starts delegates ran
  | lost executes haction missed =>
    cases hstop
    exact .inl (.lost executes haction missed)
  | strayed executes haction missed =>
    cases hstop
    exact .inl (.strayed executes haction missed)
  | brokenOff takesOver ran =>
    rw [hstop] at ran
    exact .inr (.takeover takesOver ran)
  | exhausted gives =>
    cases hstop
    exact .inl (.exhausted gives)
  | expired executes haction allowed slept =>
    obtain ⟨-, trace, hwait, -⟩ := (sleep_leads _).of_error slept
    rw [wait_error hwait] at hstop
    cases hstop
  | unfinished => cases hstop

/-- A workflow that fails raises the error, or one does that it calls. -/
theorem Comes.fails {result : Except (Stop RunError) (Table Json)} (comes : Comes env c result s)
    (hresult : result = .error (.failed error)) :
    Raises env c error s ∨ ∃ c', Calls env c c' ∧ c'.run env = (.error (.failed error), s) := by
  cases comes with
  | unfinished => cases hresult
  | notFound deeper missed =>
    cases hresult
    exact .inl (.notFound missed)
  | refused deeper found unprepared =>
    cases hresult
    exact .inl (.refused found unprepared)
  | unsupplied deeper prepares split supplies lacks =>
    cases lacks with
    | unfinished => cases hresult
    | unknown _ missed =>
      cases hresult
      exact .inl (.unknown prepares split supplies missed)
    | cyclic found _ _ under =>
      cases hresult
      exact .inl (.cyclic prepares split supplies found under)
    | failed needs ran =>
      cases hresult
      exact .inr ⟨_, .dependency prepares split supplies needs, ran⟩
  | cutOff => cases hresult
  | stopped opens closed =>
    obtain ⟨history, a, before, closes⟩ := closed
    refine (closes.fails (Except.error.inj hresult)).imp (.stage opens before) fun within => ?_
    cases within with
    | step starts delegates ran => exact ⟨_, .step opens before starts delegates, ran⟩
    | takeover takesOver ran => exact ⟨_, .takeover opens before takesOver, ran⟩
  | @ended w supplied start finish inv s opens closed =>
    cases missed : workflowOutputs c.workflowId inv.context finish w.outputs inv.context.outputs
      inv.resolver with
    | ok outputs =>
      rw [missed] at hresult
      cases hresult
    | error own =>
      rw [missed] at hresult
      cases hresult
      exact .inl (.outputs opens closed missed)

/-- For every error of a workflow there is one within it that raises this error at the very end. -/
theorem exists_raises (hrun : c.run env = (.error (.failed error), s)) :
    ∃ c', Within env c c' ∧ Raises env c' error s := by
  induction hbound : c.bound using Nat.strongRecOn generalizing c with
  | ind bound ih =>
    have comes := c.comes env
    rw [hrun] at comes
    rcases comes.fails rfl with raises | ⟨c', calls, ran⟩
    · exact ⟨c, .refl, raises⟩
    · obtain ⟨inner, within, raises⟩ := ih c'.bound (hbound ▸ calls.bound_lt) ran rfl
      exact ⟨inner, .head calls within, raises⟩

/-- An error of a run is raised by one of the workflows that are run within it, or tells of the
deadline. -/
theorem withSources_raises {workflowId : String} {inputs : Json} {trace : Trace}
    (h : (withSources env registry workflowId inputs trace).1 = .error error) :
    (∃ c, Within (env.limitedFrom trace.clock)
        (.first (enough env.config registry) registry workflowId inputs trace) c ∧
      Raises (env.limitedFrom trace.clock) c error
        (perform env (enough env.config registry) registry workflowId inputs trace).2) ∨
      error = ⟨workflowId, none, .deadlineExceeded (env.config.deadline.getD ⟨0⟩)⟩ := by
  have settles := settles_perform env registry workflowId inputs trace
  unfold withSources at h
  rcases hrun : perform env (enough env.config registry) registry workflowId inputs trace with
    ⟨stop | outputs, s⟩
  · rw [hrun] at h
    obtain rfl : located workflowId env.config stop = error := Except.error.inj h
    cases stop with
    | failed error => exact .inl (exists_raises hrun)
    | expired => exact .inr rfl
    | unfinished => exact (settles.of_error hrun).elim
  · rw [hrun] at h
    cases h

end Run
end Arazzo
