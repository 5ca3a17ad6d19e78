import Arazzo.Proofs.RetryDelay
import Arazzo.Proofs.Run.Failure
import Arazzo.Proofs.Run.Scheduled

/-! How long an invocation waits before it tries a step again: as long as the last response that it
heard asks for, and only where that asks for nothing as long as the action says. A step that runs a
workflow hears no response of its own. -/

namespace Arazzo

def Context.lastHeaders (context : Context) : Option (Table String) :=
  context.exchange.map (·.responseHeaders)

theorem StepAction.delay_of_ofFailure {env : Environment} {clock : Nat} {context : Context}
    {action : FailureAction} {delay : Duration} {limit : Nat} (hkind : action.kind = .retry)
    (h : ofFailure env clock context action = .retry delay limit) :
    delay = RetryDelay.delay action.retryAfter context.lastHeaders env.config.maxRetryDelay
      (env.now clock) := by
  unfold ofFailure at h
  simp only [hkind, retry.injEq] at h
  exact h.1.symm

theorem RetryDelay.delay_of_unasked {own : Option Float} {headers : Option (Table String)}
    {cap now : Duration} (h : headers.bind (ofHeaders? now) = none) :
    delay own headers cap now = Duration.min ((own.bind Duration.ofFloat?).getD ⟨0⟩) cap := by
  unfold delay
  rw [h]

namespace Run

open Stepping

variable {ε α : Type} {env : Environment} {registry : Registry} {scene : Scene} {w : Workflow}
  {inv : Invocation} {s : RunState} {start a b : Stage} {v : Visit} {step : Step}
  {legs : List Leg} {responses : List HttpResponse}

def SameExchange (z z' : Session) : Prop := z'.context.exchange = z.context.exchange

instance : Std.Refl SameExchange := ⟨fun _ => rfl⟩

instance : Trans SameExchange SameExchange SameExchange := ⟨fun h h' => Eq.trans h' h⟩

theorem sameExchange_ofResolving {wrap : ε → RunFault} {work : Context → Resolving ε α} :
    Keeps SameExchange (ofResolving wrap work) :=
  fun z => ofResolving_leads <|
    (Leads.anything (work z.context) z.resolver).mono (fun _ _ _ => rfl) fun _ _ _ => rfl

theorem sameExchange_publishOutputs (stepId : String) (outputs : List (String × String)) :
    Keeps SameExchange (publishOutputs stepId outputs) := by
  induction outputs with
  | nil => exact .of_pure []
  | cons output rest ih =>
    obtain ⟨name, expression⟩ := output
    unfold publishOutputs
    refine sameExchange_ofResolving.bind fun value => ?_
    exact Keeps.bind (.of_modify fun _ => rfl) fun _ => ih.bind fun values => .of_pure _

theorem sameExchange_conclude (status : Option Nat) :
    Keeps SameExchange (conclude env registry w step status) := by
  unfold conclude
  refine sameExchange_ofResolving.bind fun success => ?_
  cases success with
  | true =>
    have published : Keeps SameExchange (publishStep step) :=
      (sameExchange_publishOutputs step.stepId step.outputs).bind fun _ => .of_modify fun _ => rfl
    refine sameExchange_ofResolving.bind fun action => published.bind fun _ => ?_
    exact Keeps.bind (.of_modify fun _ => rfl) fun _ => .of_pure _
  | false =>
    refine Keeps.bind (.of_modify fun _ => rfl) fun _ => ?_
    refine sameExchange_ofResolving.bind fun action => ?_
    cases action with
    | none => exact .of_throw _
    | some action => exact .bind_get fun z => .of_pure _

theorem sameExchange_delegatedInputs (scene : Scene) (w : Workflow) (step : Step) :
    Keeps SameExchange (delegatedInputs scene w step) := by
  unfold delegatedInputs
  refine keeps_ofExcept.bind fun parameters => ?_
  refine (Keeps.mapM (fun p => ?_) parameters).bind fun _ => .of_pure _
  exact sameExchange_ofResolving.bind fun value => .of_pure _

/-! What an invocation hears -/

/-- The response is what the client has for some request. -/
def Given (env : Environment) (response : HttpResponse) : Prop :=
  ∃ before request, (env.client.answer before request).result = .ok response

theorem send_given (request : HttpRequest) (z : Session) :
    Leads (send env request) z (fun response _ => Given env response) fun _ _ => True := by
  unfold send
  refine .bind_get (.bind_set ((Leads.anything _ _).bind fun _ z₁ _ => ?_))
  cases hresult : (env.client.answer z.trace.requests request).result with
  | ok response => exact .of_pure ⟨_, _, hresult⟩
  | error error => exact .of_throw trivial

theorem receive_given (z : Session) :
    Leads (receive env registry w step) z (fun response _ => Given env response)
      fun _ _ => True := by
  unfold receive
  refine (Leads.anything _ z).bind fun built z₁ _ => ?_
  refine (send_given built.request z₁).bind fun response z₂ given => ?_
  exact .bind_modify (.of_pure given)

/-- The response to the request that is made at a stage. A step that runs a workflow has no request
of its own. -/
def Stage.heard? (env : Environment) (scene : Scene) (w : Workflow) (a : Stage) (step : Step) :
    Option HttpResponse :=
  match step.target? with
  | some (.workflow _) => none
  | _ => ((receive env scene.registry w step).run (a.session scene w step)).1.toOption

theorem heard?_of_workflow {reference : String} (h : step.target? = some (.workflow reference))
    (a : Stage) : a.heard? env scene w step = none := by
  unfold Stage.heard?
  rw [h]

theorem heard?_of_operation (h : ∀ reference, step.target? ≠ some (.workflow reference))
    (a : Stage) : a.heard? env scene w step =
      ((receive env scene.registry w step).run (a.session scene w step)).1.toOption := by
  unfold Stage.heard?
  split
  · rename_i reference htarget
    exact absurd htarget (h reference)
  · rfl

theorem given_of_heard? {response : HttpResponse} (h : a.heard? env scene w step = some response) :
    Given env response := by
  by_cases hworkflow : ∃ reference, step.target? = some (.workflow reference)
  · obtain ⟨reference, htarget⟩ := hworkflow
    cases (heard?_of_workflow htarget a).symm.trans h
  · rw [heard?_of_operation (not_exists.1 hworkflow)] at h
    rcases hreceive : (receive env scene.registry w step).run (a.session scene w step) with
      ⟨stop | answer, z'⟩
    · rw [hreceive] at h
      cases h
    · rw [hreceive] at h
      obtain rfl : answer = response := Option.some.inj h
      exact (receive_given _).of_ok hreceive

/-- The work of an operation has heard a response, which is then the last one; that of a step that
runs a workflow has not. -/
theorem Performs.hears {status : Option Nat} {z : Session}
    (performs : Performs env scene w a step status z s) :
    ((∀ reference, step.target? ≠ some (.workflow reference)) →
      (a.heard? env scene w step).isSome) ∧
    z.context.lastHeaders =
      ((a.heard? env scene w step).map (·.headers)).or a.inv.context.lastHeaders := by
  cases performs with
  | @operation response _ calls _ answered =>
    obtain ⟨exchange, hheaders, left⟩ := (receive_leads _).of_ok answered
    have own : a.heard? env scene w step = some response := by
      rw [heard?_of_operation calls, answered]
      rfl
    rw [own, Context.lastHeaders, left.exchange_eq, Option.map_some, hheaders]
    exact ⟨fun _ => rfl, rfl⟩
  | @workflow c inv₁ outputs _ delegates ran =>
    obtain ⟨reference, names, -⟩ := delegates.names
    have asked : Leads (onStep w.workflowId step.stepId a.inv (delegatedInputs scene w step))
        (a.started scene w step)
        (fun result _ => result.2.context.exchange = a.inv.context.exchange) fun _ _ => True :=
      onStep_leads (fun _ _ hrun => (sameExchange_delegatedInputs scene w step _).of_ok hrun)
        fun _ _ _ => trivial
    have same : inv₁.context.exchange = a.inv.context.exchange := asked.of_ok delegates.asked
    refine ⟨fun hnever => absurd names (hnever reference), ?_⟩
    rw [heard?_of_workflow names, Option.map_none, Option.none_or]
    show inv₁.context.lastHeaders = _
    rw [Context.lastHeaders, same, Context.lastHeaders]

namespace Executes

theorem hears (executes : Executes env scene w a v inv s) :
    ((∀ reference, v.step.target? ≠ some (.workflow reference)) →
      (a.heard? env scene w v.step).isSome) ∧
    inv.context.lastHeaders =
      ((a.heard? env scene w v.step).map (·.headers)).or a.inv.context.lastHeaders := by
  obtain ⟨status, z, before, performs, concluded, -⟩ := executes.concludes
  have same : inv.context.exchange = z.context.exchange :=
    (sameExchange_conclude status z).of_ok concluded
  rw [Context.lastHeaders, same]
  exact performs.hears

theorem lastHeaders (executes : Executes env scene w a v inv s) :
    inv.context.lastHeaders =
      ((a.heard? env scene w v.step).map (·.headers)).or a.inv.context.lastHeaders :=
  executes.hears.2

theorem exists_heard (executes : Executes env scene w a v inv s)
    (h : ∀ reference, v.step.target? ≠ some (.workflow reference)) :
    ∃ response, a.heard? env scene w v.step = some response :=
  Option.isSome_iff_exists.1 (executes.hears.1 h)

end Executes

/-- The responses that an invocation hears on its way from one stage to another, the first one
first. -/
inductive Hears (env : Environment) (scene : Scene) (w : Workflow) (start : Stage) :
    List Leg → List HttpResponse → Stage → Prop where
  | start : Hears env scene w start [] [] start
  | turn {legs : List Leg} {responses : List HttpResponse} {a b : Stage} {v : Visit}
    (before : Hears env scene w start legs responses a) (turn : Turn env scene w a v b) :
    Hears env scene w start (legs ++ [⟨v, b.state.trace.events.getLast?⟩])
      (responses ++ (a.heard? env scene w v.step).toList) b

theorem Route.hears (route : Route env scene w start legs a) :
    ∃ responses, Hears env scene w start legs responses a := by
  induction route with
  | start => exact ⟨[], .start⟩
  | turn _ turn ih =>
    obtain ⟨responses, hears⟩ := ih
    exact ⟨_, hears.turn turn⟩

theorem getLast?_append_toList (responses : List HttpResponse) (heard : Option HttpResponse) :
    (responses ++ heard.toList).getLast? = heard.or responses.getLast? := by
  cases heard <;> simp

theorem Hears.lastHeaders (hears : Hears env scene w start legs responses a) :
    a.inv.context.lastHeaders =
      (responses.getLast?.map (·.headers)).or start.inv.context.lastHeaders := by
  induction hears with
  | start => rfl
  | turn before turn ih =>
    obtain ⟨s, executes⟩ := turn.executes
    rw [executes.lastHeaders, ih, getLast?_append_toList, Option.map_or, Option.or_assoc]

theorem Hears.given (hears : Hears env scene w start legs responses a) :
    ∀ response ∈ responses, Given env response := by
  induction hears with
  | start => simp
  | turn before turn ih =>
    intro response hresponse
    rcases List.mem_append.1 hresponse with hearlier | hheard
    · exact ih response hearlier
    · exact given_of_heard? (Option.mem_toList.1 hheard)

theorem Hears.eq_start_or_ne_nil (hears : Hears env scene w start legs responses a)
    (h : ∀ step, w.steps[start.index]? = some step →
      ∀ reference, step.target? ≠ some (.workflow reference)) :
    a = start ∨ responses ≠ [] := by
  induction hears with
  | start => exact .inl rfl
  | turn before turn ih =>
    obtain ⟨s, executes⟩ := turn.executes
    right
    rcases ih with rfl | hfilled
    · obtain ⟨response, hheard⟩ := executes.exists_heard (h _ executes.listed)
      simp [hheard]
    · simp [hfilled]

namespace Scheduling

/-- Why an invocation that heard `responses` before it executed the step waits as long as it does:
`action` is what the failure of the step has chosen. -/
structure Waits (x : Scheduling env registry) (responses : List HttpResponse)
    (action : FailureAction) : Prop where
  chooses : Chooses env x.scene x.w x.stage x.failed x.left x.state action
  retries : action.kind = .retry
  hears : Hears env x.scene x.w (.opening x.bound x.inv x.start) x.legs responses x.stage
  /-- After an operation the response to its own request is asked, and no earlier one. -/
  operation : (∀ reference, x.failed.step.target? ≠ some (.workflow reference)) →
    ∃ response, x.stage.heard? env x.scene x.w x.failed.step = some response ∧
      x.delay = RetryDelay.delay action.retryAfter (some response.headers) env.config.maxRetryDelay
        (env.now x.state.trace.clock)
  /-- After a workflow it is the last response that the invocation heard before. -/
  workflow (reference : String) : x.failed.step.target? = some (.workflow reference) →
    x.delay = RetryDelay.delay action.retryAfter (responses.getLast?.map (·.headers))
      env.config.maxRetryDelay (env.now x.state.trace.clock)
  /-- Where that one asks for nothing that can be read, the action alone decides. -/
  unasked (reference : String) : x.failed.step.target? = some (.workflow reference) →
    (responses.getLast?.map (·.headers)).bind
      (RetryDelay.ofHeaders? (env.now x.state.trace.clock)) = none →
    x.delay = Duration.min ((action.retryAfter.bind Duration.ofFloat?).getD ⟨0⟩)
      env.config.maxRetryDelay

theorem waits (x : Scheduling env registry) (fresh : x.inv.context.exchange = none) :
    ∃ responses action, x.Waits responses action := by
  obtain ⟨action, chooses, hkind, -⟩ := x.executes.chooses x.haction
  obtain ⟨responses, hears⟩ := x.route.hears
  have asks : x.delay = RetryDelay.delay action.retryAfter x.left.context.lastHeaders
      env.config.maxRetryDelay (env.now x.state.trace.clock) :=
    StepAction.delay_of_ofFailure hkind (chooses.follows.symm.trans x.haction)
  have earlier : x.stage.inv.context.lastHeaders = responses.getLast?.map (·.headers) := by
    have unheard : (Stage.opening x.bound x.inv x.start).inv.context.lastHeaders = none := by
      show x.inv.context.exchange.map (·.responseHeaders) = none
      rw [fresh, Option.map_none]
    rw [hears.lastHeaders, unheard, Option.or_none]
  have workflow (reference : String)
      (htarget : x.failed.step.target? = some (.workflow reference)) :
      x.delay = RetryDelay.delay action.retryAfter (responses.getLast?.map (·.headers))
        env.config.maxRetryDelay (env.now x.state.trace.clock) := by
    have silent : x.stage.heard? env x.scene x.w x.failed.step = none :=
      heard?_of_workflow htarget x.stage
    rw [asks, x.executes.lastHeaders, silent, Option.map_none, Option.none_or, earlier]
  refine ⟨responses, action, chooses, hkind, hears, fun hoperation => ?_, workflow,
    fun reference htarget hnone => ?_⟩
  · obtain ⟨response, hheard⟩ := x.executes.exists_heard hoperation
    refine ⟨response, hheard, ?_⟩
    rw [asks, x.executes.lastHeaders, hheard, Option.map_some, Option.some_or]
  · rw [workflow reference htarget, RetryDelay.delay_of_unasked hnone]

end Scheduling

/-- Each announcement of a retry comes from an invocation that had heard nothing when it began. -/
theorem exists_waits {workflowId name stepId : String} {inputs : Json} {trace : Trace}
    {before : List Event} {attempt : Nat} {delay : Duration} (hfrom : trace.events <+: before)
    (hto : before ++ [.retryScheduled name stepId attempt delay] <+:
      (withSources env registry workflowId inputs trace).2.events) :
    ∃ x : Scheduling (env.limitedFrom trace.clock) registry,
      x.Within trace.events (withSources env registry workflowId inputs trace).2.events ∧
      x.state.trace.events = before ∧ x.event = .retryScheduled name stepId attempt delay ∧
      x.inv.context.exchange = none ∧ ∃ responses action, x.Waits responses action := by
  obtain ⟨last, hlast, tells⟩ := tells_withSources env registry workflowId inputs trace
  rw [← hlast] at hto ⊢
  obtain ⟨x, within, hbefore, hevent, fresh⟩ := tells.arranged before _ rfl hfrom hto
  exact ⟨x, within, hbefore, hevent, fresh, x.waits fresh⟩

/--
Each retry that a run announces was scheduled by an invocation within the run, after a failure that
chose a failure action. An invocation waits as long as the response to the step's own request asks
for, and as long as the action says where that response asks for nothing. For a step that runs a
workflow, the last response that the invocation itself heard before takes the place of its own.
-/
theorem retryScheduled_waits (env : Environment) (registry : Registry) :
    (∀ x : Scheduling env registry, x.inv.context.exchange = none →
      ∃ responses action, x.Waits responses action) ∧
    ∀ workflowId inputs trace before name stepId attempt delay,
      trace.events <+: before →
      before ++ [.retryScheduled name stepId attempt delay] <+:
        (withSources env registry workflowId inputs trace).2.events →
      ∃ x : Scheduling (env.limitedFrom trace.clock) registry,
        x.Within trace.events (withSources env registry workflowId inputs trace).2.events ∧
        x.state.trace.events = before ∧
        x.event = .retryScheduled name stepId attempt delay ∧
        x.inv.context.exchange = none ∧ ∃ responses action, x.Waits responses action :=
  ⟨fun x fresh => x.waits fresh, fun _ _ _ _ _ _ _ _ hfrom hto => exists_waits hfrom hto⟩

def delegatingTree : Json :=
  .obj [("arazzo", .str "1.0.1"),
    ("info", .obj [("title", .str "t"), ("version", .str "1")]),
    ("sourceDescriptions", .arr [.obj [("name", .str "api"), ("url", .str "api.json")]]),
    ("workflows", .arr
      [.obj
        [("steps", .arr
          [.obj [("operationId", .str "get"), ("stepId", .str "s")],
            .obj
              [("onFailure", .arr [.obj [("name", .str "more"), ("retryAfter", .num (.int 1)),
                  ("retryLimit", .num (.int 1)), ("type", .str "retry")]]),
                ("stepId", .str "t"),
                ("successCriteria", .arr [.obj [("condition", .str "500"),
                  ("context", .str "$statusCode"), ("type", .str "regex")]]),
                ("workflowId", .str "sub")]]),
          ("workflowId", .str "w")],
        .obj
          [("steps", .arr [.obj [("operationId", .str "get"), ("stepId", .str "u")]]),
            ("workflowId", .str "sub")]])]

def advice : Table String := [("Retry-After", "30")]

def tiredClient : HttpClient :=
  ⟨fun _ _ =>
    { latency := ⟨0⟩
      result := .ok { status := 200, headers := advice, body := [] } }⟩

def tired : Environment := { client := tiredClient }

def tiredRun (loaded : Registry × Trace) : Except (Stop RunError) (Table Json) × RunState :=
  perform tired (enough tired.config loaded.1) loaded.1 "w" .null loaded.2

def delegatedFailure : List Event :=
  [.runStarted "w", .stepStarted "w" "s", .stepSucceeded "w" "s", .stepStarted "w" "t",
    .stepStarted "sub" "u", .stepSucceeded "sub" "u", .stepFailed "w" "t" none]

def retriesNext (told events : List Event) : Bool :=
  match events.drop told.length with
  | .retryScheduled name stepId attempt _ :: _ =>
    decide (told <+: events) && name == "w" && stepId == "t" && attempt == 2
  | _ => false

theorem exists_of_retriesNext {told events : List Event} (h : retriesNext told events = true) :
    ∃ delay, told ++ [.retryScheduled "w" "t" 2 delay] <+: events := by
  unfold retriesNext at h
  split at h
  · rename_i name stepId attempt delay rest hdrop
    simp only [Bool.and_eq_true, decide_eq_true_eq, beq_iff_eq] at h
    obtain ⟨⟨⟨⟨more, rfl⟩, rfl⟩, rfl⟩, rfl⟩ := h
    rw [List.drop_left] at hdrop
    exact ⟨delay, rest, by rw [hdrop, List.append_assoc]; rfl⟩
  · cases h

def beginsWithCall (w : Workflow) : Bool :=
  w.steps[0]?.any fun step => step.stepId == "s" && step.target? == some (.operationId "get")

def delegatesPatiently (step : Step) : Bool :=
  step.stepId == "t" && step.target? == some (.workflow "sub") &&
    match step.onFailure with
    | [.concrete action] => action.kind == .retry &&
      RetryDelay.delay action.retryAfter none tired.config.maxRetryDelay ⟨0⟩ == Duration.ofSeconds 1
    | _ => false

theorem delay_advice (own : Option Float) (now : Duration) :
    RetryDelay.delay own (some advice) tired.config.maxRetryDelay now = Duration.ofSeconds 30 := by
  have hheader : header? "retry-after" advice = some "30" :=
    RetryDelay.header?_first (by decide +kernel)
  have htrim : Text.trimChars "30".toList = ['3', '0'] := by decide +kernel
  have hwrites : Text.Writes (Text.trimChars "30".toList) 30 := by
    rw [htrim]
    exact ⟨by simp, by simp, rfl⟩
  have hwanted : RetryDelay.ofHeaders? now advice = some (Duration.ofSeconds 30) :=
    RetryDelay.ofHeaders?_digits hheader hwrites
  unfold RetryDelay.delay
  rw [Option.bind_some, hwanted]
  rfl

theorem headers_of_given {response : HttpResponse} {clock : Nat}
    (h : Given (tired.limitedFrom clock) response) : response.headers = advice := by
  obtain ⟨before, request, hresult⟩ := h
  obtain rfl := Except.ok.inj hresult
  rfl

theorem Scheduling.delay_of_tired {clock : Nat} (x : Scheduling (tired.limitedFrom clock) registry)
    (fresh : x.inv.context.exchange = none) (h : beginsWithCall x.w = true)
    (hstep : x.stepId ≠ "s") : x.delay = Duration.ofSeconds 30 := by
  obtain ⟨responses, action, waits⟩ := x.waits fresh
  obtain ⟨first, hfirst, hcall⟩ := (Option.any_eq_true _ _).1 h
  obtain ⟨hfirstId, htarget⟩ : first.stepId = "s" ∧ first.target? = some (.operationId "get") := by
    simpa using hcall
  have calls (step : Step) (hlisted : x.w.steps[0]? = some step) (reference : String) :
      step.target? ≠ some (.workflow reference) := by
    obtain rfl : first = step := Option.some.inj (hfirst.symm.trans hlisted)
    simp [htarget]
  by_cases hworkflow : ∃ reference, x.failed.step.target? = some (.workflow reference)
  · obtain ⟨reference, hreference⟩ := hworkflow
    have heard : responses ≠ [] := by
      refine (waits.hears.eq_start_or_ne_nil calls).resolve_left fun hstart => hstep ?_
      have hlisted : x.w.steps[0]? = some x.failed.step := by
        simpa [hstart, Stage.opening] using x.executes.listed
      rw [← hfirstId, Option.some.inj (hfirst.symm.trans hlisted)]
      rfl
    have hheaders : responses.getLast?.map (·.headers) = some advice := by
      rw [List.getLast?_eq_some_getLast heard, Option.map_some,
        headers_of_given (waits.hears.given _ (List.getLast_mem heard))]
    rw [waits.workflow reference hreference, hheaders]
    exact delay_advice _ _
  · obtain ⟨response, hheard, hdelay⟩ := waits.operation (not_exists.1 hworkflow)
    rw [hdelay, headers_of_given (given_of_heard? hheard)]
    exact delay_advice _ _

theorem exists_delayed :
    ∃ d loaded w step, (Document.parse false none delegatingTree).usable? = some d ∧
      givenLoaded d = some loaded ∧ d.workflow? "w" = some w ∧ w.steps[1]? = some step ∧
      delegatesPatiently step ∧
      loaded.2.events ++ delegatedFailure ++ [.retryScheduled "w" "t" 2 (Duration.ofSeconds 30)] <+:
        (withSources tired loaded.1 "w" .null loaded.2).2.events := by
  have hchecked : (Document.parse false none delegatingTree).usable?.any (fun d =>
      (givenLoaded d).any fun loaded =>
        (d.workflow? "w").any (fun w => w.steps[1]?.any delegatesPatiently) &&
        loaded.1.workflows.all (fun w => w.workflowId != "w" || beginsWithCall w) &&
        retriesNext (loaded.2.events ++ delegatedFailure) (tiredRun loaded).2.trace.events) =
      true := by
    decide +kernel
  obtain ⟨d, hd, hchecked⟩ := (Option.any_eq_true _ _).1 hchecked
  obtain ⟨loaded, hloaded, hchecked⟩ := (Option.any_eq_true _ _).1 hchecked
  simp only [Bool.and_eq_true, List.all_eq_true] at hchecked
  obtain ⟨⟨hpatient, hcalls⟩, hretries⟩ := hchecked
  obtain ⟨w, hw, hpatient⟩ := (Option.any_eq_true _ _).1 hpatient
  obtain ⟨step, hstep, hpatient⟩ := (Option.any_eq_true _ _).1 hpatient
  obtain ⟨delay, hdelay⟩ := exists_of_retriesNext hretries
  obtain ⟨hending, -⟩ := withSources_of_perform tired loaded.1 "w" .null loaded.2
  have told : loaded.2.events ++ delegatedFailure ++ [.retryScheduled "w" "t" 2 delay] <+:
      (withSources tired loaded.1 "w" .null loaded.2).2.events :=
    hdelay.trans (hending ▸ List.prefix_append ..)
  obtain ⟨x, -, -, hevent, fresh, -⟩ := exists_waits (List.prefix_append ..) told
  obtain ⟨hname, hstepId, -, rfl⟩ : x.w.workflowId = "w" ∧ x.stepId = "t" ∧ x.attempt = 2 ∧
      x.delay = delay := by simpa [Scheduling.event] using hevent
  have hbegins : beginsWithCall x.w = true := by
    simpa [hname] using hcalls x.w x.home.mem_workflows
  have hhalf : x.delay = Duration.ofSeconds 30 := x.delay_of_tired fresh hbegins (by simp [hstepId])
  exact ⟨d, loaded, w, step, hd, hloaded, hw, hstep, hpatient, hhalf ▸ told⟩

/-- The step hears no response of its own and asks for a second, yet half a minute is waited for: the
response to the step before it has asked for that. -/
theorem delegated_delayed :
    (Document.parse false none delegatingTree).diagnostics = [] ∧
      ∃ d registry trace w step, (Document.parse false none delegatingTree).usable? = some d ∧
        (givenLoader.load d).run {} = (.ok registry, trace) ∧
        d.workflow? "w" = some w ∧ w.steps[1]? = some step ∧ delegatesPatiently step ∧
        trace.events ++ delegatedFailure ++
          [.retryScheduled "w" "t" 2 (Duration.ofSeconds 30)] <+:
            (withSources tired registry "w" .null trace).2.events := by
  have hquiet : (Document.parse false none delegatingTree).diagnostics.isEmpty = true := by
    decide +kernel
  obtain ⟨d, ⟨registry, trace⟩, w, step, hd, hloaded, hw, hstep, hpatient, told⟩ := exists_delayed
  exact ⟨List.isEmpty_iff.1 hquiet, d, registry, trace, w, step, hd, load_of_givenLoaded hloaded, hw,
    hstep, hpatient, told⟩

theorem retryScheduled_waits_tired :
    ∃ d registry trace before,
      (Document.parse false none delegatingTree).usable? = some d ∧
        (givenLoader.load d).run {} = (.ok registry, trace) ∧
        trace.events <+: before ∧
        before ++ [.retryScheduled "w" "t" 2 (Duration.ofSeconds 30)] <+:
          (withSources tired registry "w" .null trace).2.events ∧
        ∃ x : Scheduling (tired.limitedFrom trace.clock) registry,
          x.state.trace.events = before ∧
          x.event = .retryScheduled "w" "t" 2 (Duration.ofSeconds 30) ∧
          x.inv.context.exchange = none ∧ ∃ responses action, x.Waits responses action := by
  obtain ⟨d, ⟨registry, trace⟩, w, step, hd, hloaded, -, -, -, told⟩ := exists_delayed
  have hfrom : trace.events <+: trace.events ++ delegatedFailure := List.prefix_append ..
  obtain ⟨x, -, hbefore, hevent, fresh, -⟩ :=
    (retryScheduled_waits tired registry).2 "w" .null trace _ "w" "t" 2 _ hfrom told
  have waits := (retryScheduled_waits (tired.limitedFrom trace.clock) registry).1 x fresh
  exact ⟨d, registry, trace, _, hd, load_of_givenLoaded hloaded, hfrom, told, x, hbefore, hevent,
    fresh, waits⟩

end Run
end Arazzo
