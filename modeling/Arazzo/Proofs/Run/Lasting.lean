import Arazzo.Proofs.Run.Calls

/-! What a run has when it begins and loses by nothing that it does, it has at every moment, however
deep in the workflows that are run within it. -/

namespace Arazzo.Run

/-- Nothing that the run which begins with `first` does to its state loses this. -/
structure Lasts (env : Environment) (first : Call) (P : RunState → Prop) : Prop where
  traced {s : RunState} (trace : Trace) : P s → P (s.traced trace)
  file {s : RunState} (record : StepRecord) : P s → P (s.file record)
  enter {s : RunState} (key : WorkflowKey) : P s → P (s.enter key)
  count {s : RunState} : P s → P s.count
  start {c : Call} {w : Workflow} {supplied : List Completion} {start a : Stage}
    {history : List Visit} {step : Step} (within : Within env first c)
    (opens : Opens env c w supplied start) (before : Visited env c.scene w start history a)
    (starts : Starts env w a step) : P a.state → P (a.started c.scene w step)
  complete {s : RunState} (key : WorkflowKey) (outputs : Table Json) :
    P s → P (s.complete key outputs)
  publish {s : RunState} (dependent key : WorkflowKey) (outputs : Table Json) :
    P s → P (s.note (.published dependent key outputs))

variable {env : Environment} {first c c' : Call} {P : RunState → Prop} {w : Workflow} {inputs : Json}
  {earlier later : List String} {supplied : List Completion} {b : Basis} {start a : Stage}
  {history : List Visit} {step : Step} {v : Visit} {inv : Invocation} {s : RunState}
  {stop : Stop RunError} {status : Option Nat} {z : Session}

theorem Delegates.state_eq {scene : Scene} (delegates : Delegates scene w a step c inv) :
    ∃ trace, c.state = (a.started scene w step).traced trace := by
  have asked : Leads (onStep w.workflowId step.stepId a.inv (delegatedInputs scene w step))
      (a.started scene w step) (fun _ s => ∃ trace, s = (a.started scene w step).traced trace)
      fun _ _ => True :=
    onStep_leads (fun _ session _ => ⟨session.trace, rfl⟩) fun _ _ _ => trivial
  exact asked.of_ok delegates.asked

namespace Lasts

theorem sleep {d : Duration} {result : Except (Stop RunError) Unit} {s' : RunState}
    (lasts : Lasts env first P) (slept : (sleep env d).run s = (result, s')) (h : P s) : P s' := by
  cases result with
  | ok =>
    obtain ⟨trace, -, rfl⟩ := (sleep_leads d).of_ok slept
    exact lasts.traced trace h
  | error =>
    obtain ⟨-, trace, -, rfl⟩ := (sleep_leads d).of_error slept
    exact lasts.traced trace h

section Within

variable (lasts : Lasts env first P) (within : Within env first c)
  (runs : ∀ c', Calls env c c' → P c'.state → P (c'.run env).2)
include lasts within runs

omit within in
theorem supplies (prepares : Prepares c w inputs) (split : w.dependsOn = earlier ++ later)
    (supplies : Supplies env c.scene c.workflowId c.basis earlier supplied b) (h : P c.state) :
    P b.state := by
  induction supplies generalizing later with
  | start => exact h
  | more before obtains ih =>
    rw [List.append_assoc, List.singleton_append] at split
    have behind := ih split
    refine lasts.publish _ _ _ ?_
    cases obtains with
    | again => exact behind
    | newly needs ran =>
      have done := runs _ (.dependency prepares split before needs)
        (needs.state ▸ lasts.enter _ behind)
      rw [ran] at done
      exact lasts.complete _ _ done

omit within in
theorem opened (opens : Opens env c w supplied start) (h : P c.state) : P start.state := by
  cases opens with
  | mk prepares supplies deeper =>
    exact lasts.supplies runs prepares (List.append_nil _).symm supplies h

variable (opens : Opens env c w supplied start) (before : Visited env c.scene w start history a)
include opens before

theorem delegates (starts : Starts env w a step) (delegates : Delegates c.scene w a step c' inv)
    (h : P a.state) : P c'.state ∧ P (c'.run env).2 := by
  obtain ⟨trace, hstate⟩ := delegates.state_eq
  have asked : P c'.state := hstate ▸ lasts.traced trace (lasts.start within opens before starts h)
  exact ⟨asked, runs _ (.step opens before starts delegates) asked⟩

theorem performs (starts : Starts env w a step)
    (performs : Performs env c.scene w a step status z s) (h : P a.state) : P s := by
  cases performs with
  | operation => exact lasts.start within opens before starts h
  | workflow delegates ran =>
    have done := (lasts.delegates within runs opens before starts delegates h).2
    rwa [ran] at done

theorem executes (executes : Executes env c.scene w a v inv s) (h : P a.state) : P s := by
  obtain ⟨status, z, s₀, performs, -, traced⟩ := executes.concludes
  rw [traced]
  have performed := lasts.performs within runs opens before executes.toStarts performs h
  exact lasts.file _ (lasts.traced _ performed)

theorem halts (starts : Starts env w a step) (halts : Halts env c.scene w a step stop s)
    (h : P a.state) : P s := by
  have started := lasts.start within opens before starts h
  cases halts with
  | unfinished => exact started
  | aimless => exact started
  | unknown => exact started
  | unasked => exact lasts.traced _ started
  | unanswered => exact lasts.traced _ started
  | called delegates ran =>
    have done := (lasts.delegates within runs opens before starts delegates h).2
    rwa [ran] at done
  | unconcluded performs =>
    exact lasts.traced _ (lasts.performs within runs opens before starts performs h)

theorem takesOver (takesOver : TakesOver env c.scene w a v inv s c') (h : P a.state) :
    P c'.state ∧ P (c'.run env).2 := by
  obtain ⟨reference, -, -, emitted⟩ := takesOver.goes
  have executed := lasts.executes within runs opens before takesOver.executes h
  have entered : P c'.state := emitted ▸ lasts.traced _ executed
  exact ⟨entered, runs _ (.takeover opens before takesOver) entered⟩

theorem closes {result : Except (Stop RunError) (Finish × Invocation)}
    (closes : Closes env c.scene w a result s) (h : P a.state) : P s := by
  cases closes with
  | completed => exact h
  | unfinished => exact h
  | overspent => exact lasts.count h
  | stopped starts ran =>
    exact lasts.halts within runs opens before starts ((a.works env c.scene w _).of_error ran) h
  | ended executes => exact lasts.traced _ (lasts.executes within runs opens before executes h)
  | lost executes => exact lasts.traced _ (lasts.executes within runs opens before executes h)
  | strayed executes => exact lasts.traced _ (lasts.executes within runs opens before executes h)
  | handedOver takesOver ran =>
    have done := (lasts.takesOver within runs opens before takesOver h).2
    rwa [ran] at done
  | brokenOff takesOver ran =>
    have done := (lasts.takesOver within runs opens before takesOver h).2
    rwa [ran] at done
  | exhausted gives =>
    obtain ⟨inv, executes⟩ := gives.executes
    exact lasts.executes within runs opens before executes h
  | expired executes haction allowed slept =>
    have executed := lasts.executes within runs opens before executes h
    exact lasts.sleep slept (lasts.traced _ executed)

omit before in
theorem visited (before : Visited env c.scene w start history a) (h : P start.state) :
    P a.state := by
  induction before with
  | start => exact h
  | turn before turn ih =>
    cases turn with
    | next executes => exact lasts.executes within runs opens before executes ih
    | gotoStep executes =>
      exact lasts.traced _ (lasts.executes within runs opens before executes ih)
    | retry executes haction allowed slept =>
      have executed := lasts.executes within runs opens before executes ih
      exact lasts.sleep slept (lasts.traced _ executed)

omit opens before in
theorem comes {result : Except (Stop RunError) (Table Json)} (comes : Comes env c result s)
    (h : P c.state) : P s := by
  have closed {w : Workflow} {supplied : List Completion} {start : Stage}
      {result : Except (Stop RunError) (Finish × Invocation)} (opens : Opens env c w supplied start)
      (closed : Closed env c.scene w start result s) : P s := by
    obtain ⟨history, a, before, closes⟩ := closed
    have opened := lasts.opened runs opens h
    exact lasts.closes within runs opens before closes
      (lasts.visited within runs opens before opened)
  cases comes with
  | unfinished => exact h
  | notFound => exact h
  | refused => exact h
  | unsupplied deeper prepares split supplies lacks =>
    have behind := lasts.supplies runs prepares split supplies h
    cases lacks with
    | unfinished => exact behind
    | unknown => exact behind
    | cyclic => exact behind
    | failed needs ran =>
      have done := runs _ (.dependency prepares split supplies needs)
        (needs.state ▸ lasts.enter _ behind)
      rwa [ran] at done
  | cutOff deeper prepares supplies =>
    exact lasts.supplies runs prepares (List.append_nil _).symm supplies h
  | stopped opens closes => exact closed opens closes
  | ended opens closes => exact closed opens closes

end Within

/-- The induction is on the bound, which is smaller for all that a workflow runs. -/
theorem run (lasts : Lasts env first P) (within : Within env first c) (h : P c.state) :
    P (c.run env).2 := by
  induction hbound : c.bound using Nat.strongRecOn generalizing c with
  | ind bound ih =>
    refine lasts.comes within (fun c' calls h => ?_) (c.comes env) h
    exact ih c'.bound (hbound ▸ calls.bound_lt) (within.tail calls) h rfl

section Reached

variable (lasts : Lasts env first P) (h : P first.state)
include lasts h

theorem reached (within : Within env first c) : P c.state := by
  induction within with
  | refl => exact h
  | tail within calls ih =>
    have runs (c' : Call) (calls : Calls env _ c') : P c'.state → P (c'.run env).2 :=
      lasts.run (within.tail calls)
    cases calls with
    | dependency prepares split supplies needs =>
      exact needs.state ▸ lasts.enter _ (lasts.supplies runs prepares split supplies ih)
    | step opens before starts delegates =>
      have opened := lasts.visited within runs opens before (lasts.opened runs opens ih)
      exact (lasts.delegates within runs opens before starts delegates opened).1
    | takeover opens before takesOver =>
      have opened := lasts.visited within runs opens before (lasts.opened runs opens ih)
      exact (lasts.takesOver within runs opens before takesOver opened).1

theorem reached_supplies (within : Within env first c) (prepares : Prepares c w inputs)
    (split : w.dependsOn = earlier ++ later)
    (supplies : Supplies env c.scene c.workflowId c.basis earlier supplied b) : P b.state :=
  lasts.supplies (fun _ calls => lasts.run (within.tail calls)) prepares split supplies
    (lasts.reached h within)

end Reached

end Lasts

end Arazzo.Run
