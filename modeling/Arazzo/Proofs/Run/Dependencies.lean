import Arazzo.Proofs.Run.Passage
import Mathlib.Data.List.Nodup

/-! The log of a run: when a step starts, all that its workflow depends on has completed, each
dependency once, so that no step starts in a workflow that depends on itself. -/

namespace Arazzo

namespace Moment

def completion? : Moment → Option (WorkflowKey × Table Json)
  | ⟨.completed key outputs, _⟩ => some (key, outputs)
  | _ => none

def start? : Moment → Option (WorkflowKey × String)
  | ⟨.started key stepId, _⟩ => some (key, stepId)
  | _ => none

end Moment

namespace Run

open Relation (TransGen)

def completions (log : List Moment) : List (WorkflowKey × Table Json) :=
  log.filterMap Moment.completion?

def completedKeys (log : List Moment) : List WorkflowKey := (completions log).map (·.1)

/-- What has to stand in the log before a deed. -/
def Grounded (env : Environment) (registry : Registry) (before : List Moment) : Deed → Prop
  | .counted _ => True
  | .started key stepId =>
    (∃ scene w, Home registry scene w ∧ scene.keyOf w = key ∧
      ∃ step ∈ w.steps, step.stepId = stepId) ∧
      ∀ dependency, DependsOn registry key dependency → dependency ∈ completedKeys before
  | .completed key outputs =>
    (∃ s, Completes env registry key outputs s ∧ s.log = before) ∧ key ∉ completedKeys before ∧
      ∀ dependency, DependsOn registry key dependency → dependency ∈ completedKeys before
  | .published _ key outputs => (key, outputs) ∈ completions before

/-- Every deed of the log has what it needs before it. -/
inductive Orderly (env : Environment) (registry : Registry) : List Moment → Prop where
  | nil : Orderly env registry []
  | concat {log : List Moment} {moment : Moment} (before : Orderly env registry log)
      (grounded : Grounded env registry log moment.deed) : Orderly env registry (log ++ [moment])

variable {env : Environment} {registry : Registry} {log before after : List Moment}
  {moment : Moment} {key dependency : WorkflowKey}

theorem completions_concat (log : List Moment) (moment : Moment) :
    completions (log ++ [moment]) = completions log ++ moment.completion?.toList := by
  rw [completions, List.filterMap_append]
  cases h : moment.completion? <;> simp [completions, h]

theorem completedKeys_concat (log : List Moment) (moment : Moment) :
    completedKeys (log ++ [moment]) =
      completedKeys log ++ (moment.completion?.map (·.1)).toList := by
  rw [completedKeys, completions_concat, List.map_append]
  cases moment.completion? <;> rfl

theorem mem_completedKeys_concat {key : WorkflowKey} : key ∈ completedKeys (log ++ [moment]) ↔
    key ∈ completedKeys log ∨ ∃ outputs, moment.deed = .completed key outputs := by
  rw [completedKeys_concat, List.mem_append]
  obtain ⟨deed, trace⟩ := moment
  cases deed with
  | completed key' outputs => simp [Moment.completion?, eq_comm]
  | _ => simp [Moment.completion?]

theorem split_concat {last : Moment} (h : log ++ [last] = before ++ moment :: after) :
    (log = before ∧ last = moment ∧ after = []) ∨
      ∃ between, log = before ++ moment :: between := by
  rcases List.eq_nil_or_concat after with rfl | ⟨between, last', rfl⟩
  · obtain ⟨hlog, hlast⟩ := List.append_inj' h rfl
    exact .inl ⟨hlog, by simpa using hlast, rfl⟩
  · rw [List.concat_eq_append, ← List.cons_append, ← List.append_assoc] at h
    exact .inr ⟨between, (List.append_inj' h rfl).1⟩

namespace Orderly

theorem grounded (h : Orderly env registry log) (hsplit : log = before ++ moment :: after) :
    Grounded env registry before moment.deed ∧ Orderly env registry before := by
  induction h generalizing after with
  | nil => simp at hsplit
  | concat hbefore hgrounded ih =>
    rcases split_concat hsplit with ⟨rfl, rfl, -⟩ | ⟨between, hlog⟩
    · exact ⟨hgrounded, hbefore⟩
    · exact ih hlog

theorem nodup (h : Orderly env registry log) : (completedKeys log).Nodup := by
  induction h with
  | nil => exact List.nodup_nil
  | @concat log moment _ hgrounded ih =>
    rw [completedKeys_concat]
    obtain ⟨deed, trace⟩ := moment
    cases deed with
    | completed key outputs =>
      have new : (completedKeys log).Disjoint [key] := List.disjoint_singleton.mpr hgrounded.2.1
      exact List.Nodup.append ih (List.nodup_singleton key) new
    | _ => simpa [Moment.completion?] using ih

theorem closed (h : Orderly env registry log) (hkey : key ∈ completedKeys log)
    (hdep : DependsOn registry key dependency) : dependency ∈ completedKeys log := by
  induction h with
  | nil => simp [completedKeys, completions] at hkey
  | concat _ hgrounded ih =>
    refine mem_completedKeys_concat.mpr (.inl ?_)
    rcases mem_completedKeys_concat.mp hkey with hkey | ⟨outputs, hdeed⟩
    · exact ih hkey
    · rw [hdeed] at hgrounded
      exact hgrounded.2.2 dependency hdep

theorem closed_trans (h : Orderly env registry log) (hkey : key ∈ completedKeys log)
    (hdep : TransGen (DependsOn registry) key dependency) : dependency ∈ completedKeys log := by
  induction hdep with
  | single hdep => exact h.closed hkey hdep
  | tail _ hdep ih => exact h.closed ih hdep

theorem reached (h : Orderly env registry log)
    (hdirect : ∀ dependency, DependsOn registry key dependency → dependency ∈ completedKeys log)
    (hdep : TransGen (DependsOn registry) key dependency) : dependency ∈ completedKeys log := by
  obtain ⟨first, hfirst, hrest⟩ := Relation.TransGen.head'_iff.mp hdep
  rcases Relation.reflTransGen_iff_eq_or_transGen.mp hrest with rfl | hrest
  · exact hdirect _ hfirst
  · exact h.closed_trans (hdirect first hfirst) hrest

/-- What has completed does not depend on itself. -/
theorem acyclic (h : Orderly env registry log) (hkey : key ∈ completedKeys log) :
    ¬ TransGen (DependsOn registry) key key := by
  induction h with
  | nil => simp [completedKeys, completions] at hkey
  | concat hbefore hgrounded ih =>
    rcases mem_completedKeys_concat.mp hkey with hkey | ⟨outputs, hdeed⟩
    · exact ih hkey
    · rw [hdeed] at hgrounded
      exact fun hcycle => hgrounded.2.1 (hbefore.reached hgrounded.2.2 hcycle)

end Orderly

/-- How the state of a run stands to its log, and to the events since it opened. -/
structure Accounted (env : Environment) (registry : Registry) (opening : List Event)
    (s : RunState) : Prop where
  orderly : Orderly env registry s.log
  finished : s.finished = completions s.log
  stack_nodup : s.stack.Nodup
  idle : ∀ key ∈ s.stack, key ∉ completed s
  shown : ∃ told, s.trace.events = opening ++ told ∧ told.filterMap Event.start? =
    (s.log.filterMap Moment.start?).map fun (key, stepId) => (key.workflowId, stepId)

theorem Accounted.opening (workflowId : String) (trace : Trace) :
    Accounted env registry (trace.events ++ [.runStarted workflowId])
      (.opening workflowId trace) where
  orderly := .nil
  finished := rfl
  stack_nodup := List.nodup_nil
  idle := by simp [RunState.opening]
  shown := ⟨[], by simp [RunState.opening, Trace.record]⟩

namespace Accounted

variable {opening : List Event} {s s' : RunState}

/-- Events after which no step has started leave the account as it is. -/
theorem add_events (hs : Accounted env registry opening s) (more : List Event)
    (hmore : more.filterMap Event.start? = []) (hevents : s'.trace.events = s.trace.events ++ more)
    (hlog : s'.log = s.log) (hfinished : s'.finished = s.finished) (hstack : s'.stack = s.stack) :
    Accounted env registry opening s' where
  orderly := hlog ▸ hs.orderly
  finished := by rw [hfinished, hlog, hs.finished]
  stack_nodup := hstack ▸ hs.stack_nodup
  idle := by
    rw [completed, hfinished, hstack]
    exact hs.idle
  shown := by
    obtain ⟨told, hopening, htold⟩ := hs.shown
    refine ⟨told ++ more, by rw [hevents, hopening, List.append_assoc], ?_⟩
    rw [List.filterMap_append, hmore, List.append_nil, htold, hlog]

theorem add_deed (hs : Accounted env registry opening s) (deed : Deed)
    (hgrounded : Grounded env registry s.log deed)
    (hcompletion : (⟨deed, s.trace⟩ : Moment).completion? = none)
    (hstart : (⟨deed, s.trace⟩ : Moment).start? = none)
    (hlog : s'.log = s.log ++ [⟨deed, s.trace⟩]) (htrace : s'.trace = s.trace)
    (hfinished : s'.finished = s.finished) (hstack : s'.stack = s.stack) :
    Accounted env registry opening s' where
  orderly := hlog ▸ hs.orderly.concat hgrounded
  finished := by
    rw [hfinished, hlog, completions_concat, hcompletion, hs.finished]
    exact (List.append_nil _).symm
  stack_nodup := hstack ▸ hs.stack_nodup
  idle := by
    rw [completed, hfinished, hstack]
    exact hs.idle
  shown := by
    obtain ⟨told, hopening, htold⟩ := hs.shown
    refine ⟨told, htrace ▸ hopening, ?_⟩
    rw [htold, hlog, List.filterMap_append, List.filterMap_cons, hstart, List.filterMap_nil,
      List.append_nil]

theorem count (hs : Accounted env registry opening s) : Accounted env registry opening s.count :=
  hs.add_deed (.counted (s.executions + 1)) trivial rfl rfl rfl rfl rfl rfl

theorem completedKeys_log (hs : Accounted env registry opening s) :
    completedKeys s.log = completed s := by
  rw [completedKeys, ← hs.finished, completed]

theorem start {scene : Scene} {w : Workflow} {step : Step}
    (hs : Accounted env registry opening s) (home : Home registry scene w) (listed : step ∈ w.steps)
    (ready : Ready registry (scene.keyOf w) s) :
    Accounted env registry opening (s.start (scene.keyOf w) step.stepId) where
  orderly := by
    rw [Ready, ← hs.completedKeys_log] at ready
    exact hs.orderly.concat ⟨⟨scene, w, home, rfl, step, listed, rfl⟩, ready⟩
  finished := by
    change s.finished = completions (s.log ++ [_])
    rw [completions_concat, hs.finished]
    exact (List.append_nil _).symm
  stack_nodup := hs.stack_nodup
  idle := hs.idle
  shown := by
    obtain ⟨told, hopening, htold⟩ := hs.shown
    refine ⟨told ++ [.stepStarted w.workflowId step.stepId], ?_, ?_⟩
    · rw [← List.append_assoc, ← hopening]
      rfl
    · rw [List.filterMap_append, htold]
      change _ = ((s.log ++ [_]).filterMap Moment.start?).map _
      rw [List.filterMap_append, List.map_append]
      rfl

theorem complete {outputs : Table Json} {below : List WorkflowKey}
    (hs : Accounted env registry opening s) (ran : Completes env registry key outputs s)
    (top : s.stack = below ++ [key]) (ready : Ready registry key s) :
    Accounted env registry opening (s.complete key outputs) := by
  have hstack : (s.complete key outputs).stack = below := by
    change s.stack.dropLast = below
    rw [top, List.dropLast_concat]
  have hnodup := top ▸ hs.stack_nodup
  have new : key ∉ completedKeys s.log := by
    rw [hs.completedKeys_log]
    exact hs.idle key (by simp [top])
  exact {
    orderly := by
      rw [Ready, ← hs.completedKeys_log] at ready
      exact hs.orderly.concat ⟨⟨s, ran, rfl⟩, new, ready⟩
    finished := by
      change s.finished ++ _ = completions (s.log ++ [_])
      rw [completions_concat, hs.finished]
      rfl
    stack_nodup := hstack ▸ (List.nodup_append.mp hnodup).1
    idle := by
      intro other hother
      rw [hstack] at hother
      change other ∉ (s.finished ++ [(key, outputs)]).map (·.1)
      rw [List.map_append, List.mem_append, not_or]
      refine ⟨hs.idle other (by simp [top, hother]), ?_⟩
      have apart := (List.nodup_append.mp hnodup).2.2 other hother key (by simp)
      simpa using apart
    shown := by
      obtain ⟨told, hopening, htold⟩ := hs.shown
      refine ⟨told, hopening, ?_⟩
      rw [htold]
      change _ = ((s.log ++ [_]).filterMap Moment.start?).map _
      rw [List.filterMap_append]
      exact congrArg _ (List.append_nil _).symm }

theorem move (h : Move env registry s s') (hs : Accounted env registry opening s) :
    Accounted env registry opening s' := by
  cases h with
  | start home listed ready within => exact hs.count.start home listed ready
  | judge attempt judged =>
    refine hs.add_events _ ?_ judged.events_of_ok rfl rfl rfl
    rw [List.filterMap_cons, start?_verdict, List.filterMap_nil]
  | @tell event aside =>
    refine hs.add_events [event] ?_ rfl rfl rfl rfl
    rw [List.filterMap_cons, Event.start?_of_isAside aside, List.filterMap_nil]
  | sleep run =>
    exact hs.add_events [] rfl
      ((wait_keeps run).1.trans (List.append_nil _).symm) rfl rfl rfl
  | enter new idle =>
    exact { hs with
      stack_nodup := List.Nodup.append hs.stack_nodup (List.nodup_singleton _)
        (List.disjoint_singleton.mpr idle)
      idle := by
        intro key hkey
        rcases List.mem_append.mp hkey with hkey | hkey
        · exact hs.idle key hkey
        · exact List.mem_singleton.mp hkey ▸ new }
  | complete ran top ready => exact hs.complete ran top ready
  | @publish key outputs dependent done =>
    rw [hs.finished] at done
    exact hs.add_deed (.published dependent key outputs) done rfl rfl rfl rfl rfl rfl

theorem last {stop : Stop RunError} (h : Last env stop s s')
    (hs : Accounted env registry opening s) : Accounted env registry opening s' := by
  cases h with
  | none => exact hs
  | exceed => exact hs.count
  | judge judged =>
    obtain ⟨status, hevents | hevents⟩ := judged.events_of_error
    · exact hs.add_events [] rfl (hevents.trans (List.append_nil _).symm) rfl rfl rfl
    · refine hs.add_events _ ?_ hevents rfl rfl rfl
      rw [List.filterMap_cons, start?_verdict, List.filterMap_nil]
  | sleep run =>
    exact hs.add_events [] rfl
      ((wait_keeps run).1.trans (List.append_nil _).symm) rfl rfl rfl

end Accounted

theorem accounted_perform (env : Environment) (bound : Nat) (registry : Registry)
    (workflowId : String) (inputs : Json) (trace : Trace) :
    Accounted (env.limitedFrom trace.clock) registry (trace.events ++ [.runStarted workflowId])
      (perform env bound registry workflowId inputs trace).2 :=
  perform_induction (Accounted _ registry _) (Accounted.opening workflowId trace)
    (fun _ _ => Accounted.move) fun _ _ _ => Accounted.last

end Run
end Arazzo
