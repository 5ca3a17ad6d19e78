import Arazzo.Proofs.Run.Dependencies
import Mathlib.Data.List.Chain

/-! The budget of step executions bounds the steps that a run starts, however its workflows call
each other, and each step that starts sends at most one request before the next one does. -/

namespace Arazzo

def Moment.count? : Moment → Option Nat
  | ⟨.counted executions, _⟩ => some executions
  | _ => none

namespace Run

def sentAtStarts (log : List Moment) : List Nat :=
  log.filterMap fun moment => moment.start?.map fun _ => moment.trace.requests.length

/-- No request comes before the first start of a step, and at most one after each. -/
structure Paced (requests : List HttpRequest) (log : List Moment) (sent : List HttpRequest) :
    Prop where
  kept : requests <+: sent
  first : (sentAtStarts log ++ [sent.length]).head? = some requests.length
  paced : (sentAtStarts log ++ [sent.length]).IsChain fun before after => after ≤ before + 1

/-- All step executions that a log tells of started a step, and they are within a limit. -/
structure Budgeted (limit : Nat) (s : RunState) : Prop where
  counted : s.log.filterMap Moment.count? = List.range' 1 s.executions
  started : (s.log.filterMap Moment.start?).length = s.executions
  within : s.executions ≤ limit

variable {env : Environment} {registry : Registry} {limit : Nat} {s s' : RunState}
  {log : List Moment} {requests sent : List HttpRequest}

theorem length_sentAtStarts (log : List Moment) :
    (sentAtStarts log).length = (log.filterMap Moment.start?).length := by
  induction log with
  | nil => rfl
  | cons moment rest ih =>
    simp only [sentAtStarts, List.filterMap_cons] at ih ⊢
    cases moment.start? with
    | none => exact ih
    | some start => exact congrArg Nat.succ ih

theorem sentAtStarts_start (log : List Moment) (key : WorkflowKey) (stepId : String)
    (trace : Trace) :
    sentAtStarts (log ++ [⟨.started key stepId, trace⟩]) =
      sentAtStarts log ++ [trace.requests.length] := by
  rw [sentAtStarts, List.filterMap_append]
  rfl

theorem sentAtStarts_of_start?_eq_none {moment : Moment} (log : List Moment)
    (h : moment.start? = none) : sentAtStarts (log ++ [moment]) = sentAtStarts log := by
  rw [sentAtStarts, List.filterMap_append, List.filterMap_cons, h]
  exact List.append_nil _

namespace Paced

theorem refl (requests : List HttpRequest) : Paced requests [] requests where
  kept := List.prefix_rfl
  first := rfl
  paced := .singleton _

theorem start (h : Paced requests log sent) (key : WorkflowKey) (stepId : String) {trace : Trace}
    (htrace : trace.requests = sent) :
    Paced requests (log ++ [⟨.started key stepId, trace⟩]) sent where
  kept := h.kept
  first := by
    rw [sentAtStarts_start, htrace, List.head?_append, h.first, Option.some_or]
  paced := by
    rw [sentAtStarts_start, htrace, List.append_assoc]
    exact List.isChain_append_cons_cons.mpr ⟨h.paced, Nat.le_succ _, .singleton _⟩

theorem send {key : WorkflowKey} {stepId : String} {trace : Trace}
    (h : Paced requests (log ++ [⟨.started key stepId, trace⟩]) sent)
    (htrace : sent = trace.requests) (request : HttpRequest) :
    Paced requests (log ++ [⟨.started key stepId, trace⟩]) (sent ++ [request]) where
  kept := h.kept.trans (List.prefix_append ..)
  first := by
    have first := h.first
    rw [sentAtStarts_start, List.append_assoc, List.singleton_append, List.head?_append] at first ⊢
    exact first
  paced := by
    have paced := h.paced
    rw [sentAtStarts_start, List.append_assoc, List.singleton_append,
      List.isChain_append_cons_cons] at paced ⊢
    refine ⟨paced.1, ?_, .singleton _⟩
    rw [htrace, List.length_append, List.length_singleton]

theorem note {moment : Moment} (h : Paced requests log sent) (hmoment : moment.start? = none) :
    Paced requests (log ++ [moment]) sent where
  kept := h.kept
  first := by rw [sentAtStarts_of_start?_eq_none log hmoment, h.first]
  paced := by
    rw [sentAtStarts_of_start?_eq_none log hmoment]
    exact h.paced

theorem judge {scene : Scene} {w : Workflow} {step : Step}
    {result : Except (Stop RunFault) StepOutcome} {session : Session}
    (h : Paced requests s.log s.trace.requests)
    (judged : Judges env scene w step s result session) :
    Paced requests s.log session.trace.requests := by
  rcases judged.requests with hrequests | ⟨⟨log, trace, hlog, hfresh⟩, request, hrequests⟩
  · exact hrequests ▸ h
  · rw [hlog] at h ⊢
    rw [hrequests]
    exact h.send hfresh request

theorem move (h : Move env registry s s') (hs : Paced requests s.log s.trace.requests) :
    Paced requests s'.log s'.trace.requests := by
  cases h with
  | start => exact (hs.note rfl).start _ _ rfl
  | judge attempt judged => exact hs.judge judged
  | tell => exact hs
  | sleep run => exact (wait_keeps run).2 ▸ hs
  | enter => exact hs
  | complete => exact hs.note rfl
  | publish => exact hs.note rfl

theorem last {stop : Stop RunError} (h : Last env stop s s')
    (hs : Paced requests s.log s.trace.requests) : Paced requests s'.log s'.trace.requests := by
  cases h with
  | none => exact hs
  | exceed => exact hs.note rfl
  | judge judged => exact hs.judge judged
  | sleep run => exact (wait_keeps run).2 ▸ hs

end Paced

theorem last_le_of_isChain {first last : Nat} {counts : List Nat}
    (hfirst : (counts ++ [last]).head? = some first)
    (h : (counts ++ [last]).IsChain fun before after => after ≤ before + 1) :
    last ≤ first + counts.length := by
  induction counts generalizing first with
  | nil => exact (Option.some.inj hfirst).le
  | cons count rest ih =>
    obtain rfl : count = first := Option.some.inj hfirst
    obtain ⟨hnext, hrest⟩ := List.isChain_cons.mp h
    obtain ⟨next, hhead⟩ : ∃ next, (rest ++ [last]).head? = some next :=
      Option.isSome_iff_exists.mp (by simp)
    have := ih hhead hrest
    have := hnext next hhead
    rw [List.length_cons]
    omega

theorem Paced.length_le (h : Paced requests log sent) :
    sent.length ≤ requests.length + (log.filterMap Moment.start?).length := by
  rw [← length_sentAtStarts]
  exact last_le_of_isChain h.first h.paced

theorem paced_perform (env : Environment) (bound : Nat) (registry : Registry)
    (workflowId : String) (inputs : Json) (trace : Trace) :
    let final := (perform env bound registry workflowId inputs trace).2
    Paced trace.requests final.log final.trace.requests :=
  perform_induction (fun s => Paced trace.requests s.log s.trace.requests)
    (Paced.refl trace.requests) (fun _ _ => Paced.move) fun _ _ _ => Paced.last

namespace Budgeted

theorem opening (limit : Nat) (workflowId : String) (trace : Trace) :
    Budgeted limit (.opening workflowId trace) :=
  ⟨rfl, rfl, Nat.zero_le _⟩

theorem mono (h : Budgeted limit s) (hlog : s'.log = s.log)
    (hexecutions : s'.executions = s.executions) : Budgeted limit s' where
  counted := by rw [hlog, hexecutions, h.counted]
  started := by rw [hlog, hexecutions, h.started]
  within := hexecutions ▸ h.within

theorem note {moment : Moment} (h : Budgeted limit s) (hcount : moment.count? = none)
    (hstart : moment.start? = none) (hlog : s'.log = s.log ++ [moment])
    (hexecutions : s'.executions = s.executions) : Budgeted limit s' where
  counted := by
    rw [hlog, List.filterMap_append, List.filterMap_cons, hcount, hexecutions, h.counted]
    exact List.append_nil _
  started := by
    rw [hlog, List.filterMap_append, List.filterMap_cons, hstart, hexecutions, ← h.started]
    exact congrArg List.length (List.append_nil _)
  within := hexecutions ▸ h.within

theorem start (h : Budgeted limit s) (key : WorkflowKey) (stepId : String)
    (hwithin : s.executions < limit) : Budgeted limit (s.count.start key stepId) where
  counted := by
    change ((s.log ++ [_]) ++ [_]).filterMap Moment.count? = _
    rw [List.filterMap_append, List.filterMap_append, h.counted]
    change _ = List.range' 1 (s.executions + 1)
    rw [List.range'_concat, Nat.one_mul, Nat.add_comm 1]
    exact List.append_nil _
  started := by
    change (((s.log ++ [_]) ++ [_]).filterMap Moment.start?).length = _
    rw [List.filterMap_append, List.filterMap_append, List.length_append, List.length_append,
      h.started]
    rfl
  within := hwithin

theorem move (h : Move env registry s s') (hs : Budgeted env.config.maxSteps s) :
    Budgeted env.config.maxSteps s' := by
  cases h with
  | start _ _ _ within => exact hs.start _ _ within
  | judge => exact hs.mono rfl rfl
  | tell => exact hs.mono rfl rfl
  | sleep => exact hs.mono rfl rfl
  | enter => exact hs.mono rfl rfl
  | complete => exact hs.note rfl rfl rfl rfl
  | publish => exact hs.note rfl rfl rfl rfl

theorem along (hs : Budgeted env.config.maxSteps s) (h : Path env registry s s') :
    Budgeted env.config.maxSteps s' := by
  induction h with
  | refl => exact hs
  | tail _ hmove ih => exact move hmove ih

theorem count_le {count : Nat} {trace : Trace} (h : Budgeted limit s)
    (hmem : (⟨.counted count, trace⟩ : Moment) ∈ s.log) : count ≤ limit := by
  have listed : count ∈ s.log.filterMap Moment.count? := List.mem_filterMap.mpr ⟨_, hmem, rfl⟩
  rw [h.counted, List.mem_range'_1] at listed
  have := h.within
  omega

end Budgeted

/-- Only a step execution beyond it leaves the budget, and this is the last that happens. -/
theorem Last.budgeted {stop : Stop RunError} (h : Last env stop s s')
    (hs : Budgeted env.config.maxSteps s) :
    Budgeted env.config.maxSteps s' ∨ s' = s.count ∧ ∃ callee stepId,
      stop = .failed ⟨callee, some stepId, .budgetExceeded env.config.maxSteps⟩ := by
  cases h with
  | none => exact .inl hs
  | exceed callee stepId => exact .inr ⟨rfl, callee, stepId, rfl⟩
  | judge => exact .inl (hs.mono rfl rfl)
  | sleep => exact .inl (hs.mono rfl rfl)

/-- What a log says of a budget that is kept, or that was exceeded at the very end. -/
structure Bounded (limit : Nat) (result : Except (Stop RunError) (Table Json)) (s : RunState) :
    Prop where
  counted : s.log.filterMap Moment.count? = List.range' 1 s.executions
  started : (s.log.filterMap Moment.start?).length ≤ limit
  exceeded : ∀ before count seen after, s.log = before ++ ⟨.counted count, seen⟩ :: after →
    limit < count → after = [] ∧ s.trace = seen ∧
      ∃ callee stepId, result = .error (.failed ⟨callee, some stepId, .budgetExceeded limit⟩)

theorem Budgeted.bounded (h : Budgeted limit s) (result : Except (Stop RunError) (Table Json)) :
    Bounded limit result s where
  counted := h.counted
  started := h.started.trans_le h.within
  exceeded := by
    intro before count seen after hsplit hexceeded
    have mem : (⟨.counted count, seen⟩ : Moment) ∈ s.log := by simp [hsplit]
    have := h.count_le mem
    omega

theorem Budgeted.bounded_count (h : Budgeted limit s) (callee stepId : String) :
    Bounded limit (.error (.failed ⟨callee, some stepId, .budgetExceeded limit⟩)) s.count where
  counted := by
    change (s.log ++ [_]).filterMap Moment.count? = List.range' 1 (s.executions + 1)
    rw [List.filterMap_append, h.counted, List.range'_concat, Nat.one_mul, Nat.add_comm 1]
    rfl
  started := by
    change ((s.log ++ [_]).filterMap Moment.start?).length ≤ limit
    rw [List.filterMap_append, List.length_append, h.started]
    exact h.within
  exceeded := by
    intro before count seen after hsplit hexceeded
    have hlog : s.log ++ [⟨.counted (s.executions + 1), s.trace⟩] =
        before ++ ⟨.counted count, seen⟩ :: after := hsplit
    -- All counts but the last are within the limit.
    rcases split_concat hlog with ⟨-, hlast, hafter⟩ | ⟨between, hlog⟩
    · exact ⟨hafter, congrArg Moment.trace hlast, callee, stepId, rfl⟩
    · have mem : (⟨.counted count, seen⟩ : Moment) ∈ s.log := by simp [hlog]
      have := h.count_le mem
      omega

theorem bounded_perform (env : Environment) (bound : Nat) (registry : Registry)
    (workflowId : String) (inputs : Json) (trace : Trace) :
    let last := perform env bound registry workflowId inputs trace
    Bounded env.config.maxSteps last.1 last.2 := by
  have opened : Budgeted (env.limitedFrom trace.clock).config.maxSteps (.opening workflowId trace) :=
    .opening _ workflowId trace
  rcases h : perform env bound registry workflowId inputs trace with ⟨stop | outputs, final⟩
  · obtain ⟨mid, hpath, hlast⟩ := stops_of_perform h
    rcases hlast.budgeted (opened.along hpath) with hfinal | ⟨rfl, callee, stepId, rfl⟩
    · exact hfinal.bounded _
    · exact (opened.along hpath).bounded_count callee stepId
  · exact (opened.along (passes_of_perform h).path).bounded _

/--
A run starts no more steps than its budget allows, and sends no more requests than it starts steps:
none before the first start and at most one after each. When a step execution exceeds the budget,
nothing is sent or told any more except that the run is over, and the answer says what was exceeded.
-/
theorem withSources_within_budget (env : Environment) (registry : Registry) (workflowId : String)
    (inputs : Json) (trace : Trace) :
    let limit := env.config.maxSteps
    let last := (perform env (enough env.config registry) registry workflowId inputs trace).2
    let ending : Except RunError Report × Trace := withSources env registry workflowId inputs trace
    (∃ told sent, ending.2.events = trace.events ++ told ∧
      ending.2.requests = trace.requests ++ sent ∧
      sent.length ≤ (told.filterMap Event.start?).length ∧
      (told.filterMap Event.start?).length ≤ limit ∧
      told.filterMap Event.start? = (last.log.filterMap Moment.start?).map
        fun (key, stepId) => (key.workflowId, stepId)) ∧
    Paced trace.requests last.log ending.2.requests ∧
    last.log.filterMap Moment.count? = List.range' 1 last.executions ∧
    ∀ before count seen after, last.log = before ++ ⟨.counted count, seen⟩ :: after →
      limit < count → after = [] ∧ ending.2 = seen.record (.runFinished workflowId false) ∧
        ∃ callee stepId, ending.1 = .error ⟨callee, some stepId, .budgetExceeded limit⟩ := by
  intro limit last ending
  have account := accounted_perform env (enough env.config registry) registry workflowId inputs trace
  have paced : Paced trace.requests last.log last.trace.requests := paced_perform ..
  have bounded := bounded_perform env (enough env.config registry) registry workflowId inputs trace
  have told_over := withSources_of_perform env registry workflowId inputs trace
  have hfinal : ending.2 = last.trace.record (.runFinished workflowId ending.1.isOk) := told_over.1
  obtain ⟨told, hevents, htold⟩ := account.shown
  obtain ⟨sent, hsent⟩ := paced.kept
  have events : ending.2.events = trace.events ++
      (.runStarted workflowId :: told ++ [.runFinished workflowId ending.1.isOk]) := by
    rw [hfinal, Trace.record, hevents]
    simp only [List.append_assoc, List.cons_append, List.nil_append]
  have requests : ending.2.requests = last.trace.requests := by rw [hfinal, Trace.record]
  -- The first and the last event are those of the run itself.
  have starts_told : (Event.runStarted workflowId :: told ++
      [Event.runFinished workflowId ending.1.isOk]).filterMap Event.start? =
        told.filterMap Event.start? := by
    rw [List.filterMap_append]
    exact List.append_nil _
  have length_told : (told.filterMap Event.start?).length =
      (last.log.filterMap Moment.start?).length := by rw [htold, List.length_map]
  refine ⟨⟨_, sent, events, requests.trans hsent.symm, ?_, ?_, starts_told.trans htold⟩,
    requests ▸ paced, bounded.counted, ?_⟩
  · have := paced.length_le
    rw [← hsent, List.length_append] at this
    rw [starts_told, length_told]
    omega
  · rw [starts_told, length_told]
    exact bounded.started
  · intro before count seen after hsplit hexceeded
    obtain ⟨hafter, hseen, callee, stepId, hresult⟩ :=
      bounded.exceeded before count seen after hsplit hexceeded
    have refused : ending.1 = .error ⟨callee, some stepId, .budgetExceeded limit⟩ :=
      told_over.2 _ hresult
    rw [refused, hseen] at hfinal
    exact ⟨hafter, hfinal, callee, stepId, refused⟩

-- A step that runs its own workflow uses the budget up.
example :
    let loop : Workflow := ⟨"loop", none, none, none, [],
      [{ stepId := "again", workflowId := some "loop" }], [], [], [], [], []⟩
    let registry : Registry := .mk ⟨"1.0.0", {}, [], [loop], none, [], none⟩ none [] []
    let env : Environment := { client := .offline, config := { maxSteps := 2 } }
    withSources env registry "loop" .null {} =
      (.error ⟨"loop", some "again", .budgetExceeded 2⟩,
        { events := [.runStarted "loop", .stepStarted "loop" "again", .stepStarted "loop" "again",
          .runFinished "loop" false] }) := by
  rfl

end Run
end Arazzo
