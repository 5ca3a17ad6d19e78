import Arazzo.Proofs.Run.Completions
import Arazzo.Proofs.Run.Dependencies
import Arazzo.Proofs.Run.Growth
import Arazzo.Proofs.Run.Lasting

/-! What the steps of a workflow begin with: of all that the workflow depends on, the outputs that it
gave when it completed. -/

namespace Arazzo.Run

open Relation (TransGen)

/-- The step was started when this was the log, by one of the workflows within the run. -/
def Begun (env : Environment) (first : Call) (before : List Moment) (key : WorkflowKey)
    (stepId : String) : Prop :=
  ∃ c w supplied start history a step, Within env first c ∧ Opens env c w supplied start ∧
    Visited env c.scene w start history a ∧ Starts env w a step ∧ c.scene.keyOf w = key ∧
    step.stepId = stepId ∧ start.state.log <+: before ∧ a.state.count.log = before

def Attributed (env : Environment) (first : Call) (log : List Moment) : Prop :=
  ∀ before key stepId seen after, log = before ++ ⟨.started key stepId, seen⟩ :: after →
    Begun env first before key stepId

/-- A workflow goes on from nothing but the outputs of these dependencies, which are published as they
came to be there: each of them is what the one run of the dependency gave that has completed. -/
structure Furnished (final : RunState) (scene : Scene) (dependent : String)
    (references : List String) (supplied : List Completion) (r : Resolver) (s : RunState) :
    Prop where
  meant : List.Forall₂ (fun reference c => LeadsTo scene reference c.key) references supplied
  published : r = ({ document := scene.registry.document } : Resolver).publishAll supplied
  tells : r.Tells supplied
  completed : ∀ c ∈ supplied, (c.key, c.outputs) ∈ completions s.log
  noted : List.Sublist (supplied.map fun c => .published ⟨scene.key, dependent⟩ c.key c.outputs)
    (s.log.map (·.deed))
  onward : s.log <+: final.log

variable {env : Environment} {first c : Call} {log : List Moment} {moment : Moment} {w : Workflow}
  {inputs : Json} {scene : Scene} {dependent reference : String} {earlier later : List String}
  {supplied : List Completion} {completion : Completion} {b : Basis} {start a : Stage}
  {history : List Visit} {s : RunState}

theorem Attributed.nil : Attributed env first [] := by
  intro before key stepId seen after hsplit
  exact absurd hsplit (by simp)

theorem Attributed.concat (h : Attributed env first log)
    (begun : ∀ key stepId, moment.deed = .started key stepId → Begun env first log key stepId) :
    Attributed env first (log ++ [moment]) := by
  intro before key stepId seen after hsplit
  rcases split_concat hsplit with ⟨rfl, rfl, -⟩ | ⟨between, hlog⟩
  · exact begun key stepId rfl
  · exact h before key stepId seen between hlog

theorem Attributed.count (h : Attributed env first s.log) : Attributed env first s.count.log :=
  h.concat (by rintro key stepId ⟨⟩)

theorem lasts_log (env : Environment) (first : Call) (log : List Moment) :
    Lasts env first fun s => log <+: s.log where
  traced _ h := h
  file _ h := h
  enter _ h := h
  count {s} h := h.trans (grows_count s)
  start _ _ _ _ h := (h.trans (grows_count _)).trans (grows_note (.started _ _) _)
  complete key outputs h := h.trans (grows_complete key outputs _)
  publish _ _ _ h := h.trans (grows_note _ _)

theorem Visited.grows (opens : Opens env c w supplied start)
    (before : Visited env c.scene w start history a) : Grows start.state a.state := by
  have lasts := lasts_log env c start.state.log
  exact lasts.visited .refl (fun _ calls => lasts.run (.single calls)) opens before List.prefix_rfl

theorem lasts_attributed (env : Environment) (first : Call) :
    Lasts env first fun s => Attributed env first s.log where
  traced _ h := h
  file _ h := h
  enter _ h := h
  count h := h.count
  start within opens before starts h := by
    refine h.count.concat ?_
    rintro key stepId ⟨⟩
    have opened := (before.grows opens).trans (grows_count _)
    exact ⟨_, _, _, _, _, _, _, within, opens, before, starts, rfl, rfl, opened, rfl⟩
  complete _ _ h := h.concat (by rintro key stepId ⟨⟩)
  publish _ _ _ h := h.concat (by rintro key stepId ⟨⟩)

theorem lasts_finished (env : Environment) (first : Call) :
    Lasts env first fun s => s.finished = completions s.log := by
  have other {s : RunState} (deed : Deed) (h : s.finished = completions s.log)
      (hnone : (⟨deed, s.trace⟩ : Moment).completion? = none) :
      s.finished = completions (s.log ++ [⟨deed, s.trace⟩]) := by
    rw [completions_concat, hnone, h]
    exact (List.append_nil _).symm
  refine ⟨fun _ h => h, fun _ h => h, fun _ h => h, fun h => other _ h rfl, ?_, ?_, ?_⟩
  · intro c w supplied start a history step _ _ _ _ h
    exact other (s := a.state.count) _ (other _ h rfl) rfl
  · intro s key outputs h
    show s.finished ++ [(key, outputs)] = completions (s.log ++ [⟨.completed key outputs, _⟩])
    rw [completions_concat, h]
    rfl
  · intro s dependent key outputs h
    exact other _ h rfl

theorem Grows.completions {s s' : RunState} (h : Grows s s') :
    completions s.log ⊆ completions s'.log :=
  (h.filterMap _).subset

theorem Obtains.completed (finished : b.state.finished = completions b.state.log)
    (obtains : Obtains env scene b reference completion s) :
    Grows b.state s ∧ (completion.key, completion.outputs) ∈ completions s.log := by
  cases obtains with
  | again found deeper done =>
    obtain ⟨before, after, hsplit, -⟩ := List.lookup_eq_some_iff.1 done
    refine ⟨List.prefix_rfl, ?_⟩
    rw [← finished, hsplit]
    exact List.mem_append_right _ (List.mem_cons_self ..)
  | @newly c outputs s needs ran =>
    have grown := c.grows env
    rw [ran, needs.state] at grown
    refine ⟨grown.trans (grows_complete c.key outputs s), ?_⟩
    show _ ∈ Run.completions (s.log ++ [⟨.completed c.key outputs, _⟩])
    rw [completions_concat]
    exact List.mem_append_right _ (List.mem_singleton_self _)

section Within

variable (within : Within env first c)
  (opening : first.state.finished = completions first.state.log)
include within opening

theorem Supplies.completed (prepares : Prepares c w inputs) (split : w.dependsOn = earlier ++ later)
    (supplies : Supplies env c.scene c.workflowId c.basis earlier supplied b) :
    (∀ completion ∈ supplied, (completion.key, completion.outputs) ∈ completions b.state.log) ∧
      List.Sublist (supplied.map fun completion =>
        .published ⟨c.scene.key, c.workflowId⟩ completion.key completion.outputs)
        (b.state.log.map (·.deed)) := by
  induction supplies generalizing later with
  | start => exact ⟨by simp, List.nil_sublist _⟩
  | @more references supplied b reference completion s before obtains ih =>
    rw [List.append_assoc, List.singleton_append] at split
    obtain ⟨completed, noted⟩ := ih split
    have finished := (lasts_finished env first).reached_supplies opening within prepares split before
    obtain ⟨grown, done⟩ := obtains.completed finished
    have published : Grows s (b.supplied c.scene c.workflowId completion s).state := grows_note _ s
    refine ⟨fun other hother => published.completions ?_, ?_⟩
    · rcases List.mem_append.1 hother with hother | hother
      · exact grown.completions (completed other hother)
      · exact List.mem_singleton.1 hother ▸ done
    · show List.Sublist _ ((s.log ++ [_]).map Moment.deed)
      rw [List.map_append, List.map_append]
      exact (noted.trans (grown.map _).sublist).append (.refl _)

theorem Supplies.furnished (prepares : Prepares c w inputs) (split : w.dependsOn = earlier ++ later)
    (supplies : Supplies env c.scene c.workflowId c.basis earlier supplied b) :
    Furnished (first.run env).2 c.scene c.workflowId earlier supplied b.resolver b.state := by
  obtain ⟨meant, published⟩ := supplies.publishes
  obtain ⟨completed, noted⟩ := supplies.completed within opening prepares split
  exact ⟨meant, published, supplies.told.tells, completed, noted,
    (supplies.grows prepares split).trans within.grows_run⟩

theorem Opens.furnished (opens : Opens env c w supplied start) :
    Furnished (first.run env).2 c.scene c.workflowId w.dependsOn supplied start.inv.resolver
      start.state := by
  cases opens with
  | mk prepares supplies deeper =>
    exact supplies.furnished within opening prepares (List.append_nil _).symm

end Within

/--
The steps that a run starts, in order, are those of its log. Before each of them, every workflow
that its own one reaches by dependencies has completed, and its own is not among these. A
dependency completes once, by a run of its own. What any workflow within the run goes on from are
the outputs that its dependencies gave then, published for one entry after the other, so that its
expressions stand for these.
-/
theorem dependencies_complete_first (env : Environment) (bound : Nat) (registry : Registry)
    (workflowId : String) (inputs : Json) (trace : Trace) :
    let final := (perform env bound registry workflowId inputs trace).2
    let first := Call.first bound registry workflowId inputs trace
    (∃ told, final.trace.events = trace.events ++ .runStarted workflowId :: told ∧
      told.filterMap Event.start? = (final.log.filterMap Moment.start?).map
        fun (key, stepId) => (key.workflowId, stepId)) ∧
    (∀ before key stepId seen after, final.log = before ++ ⟨.started key stepId, seen⟩ :: after →
      (∃ scene w, Home registry scene w ∧ scene.keyOf w = key ∧
        ∃ step ∈ w.steps, step.stepId = stepId) ∧
      Begun (env.limitedFrom trace.clock) first before key stepId ∧
      (∀ dependency, TransGen (DependsOn registry) key dependency →
        dependency ∈ completedKeys before) ∧
      ¬ TransGen (DependsOn registry) key key) ∧
    (completedKeys final.log).Nodup ∧ final.finished = completions final.log ∧
    (∀ before key outputs seen after,
      final.log = before ++ ⟨.completed key outputs, seen⟩ :: after →
      ∃ s, Completes (env.limitedFrom trace.clock) registry key outputs s ∧ s.log = before) ∧
    (∀ before dependent key outputs seen after,
      final.log = before ++ ⟨.published dependent key outputs, seen⟩ :: after →
      (key, outputs) ∈ completions before) ∧
    ∀ c, Within (env.limitedFrom trace.clock) first c → ∀ w supplied,
      (∀ inputs earlier later b, Prepares c w inputs → w.dependsOn = earlier ++ later →
        Supplies (env.limitedFrom trace.clock) c.scene c.workflowId c.basis earlier supplied b →
        Furnished final c.scene c.workflowId earlier supplied b.resolver b.state) ∧
      ∀ start, Opens (env.limitedFrom trace.clock) c w supplied start →
        Furnished final c.scene c.workflowId w.dependsOn supplied start.inv.resolver
          start.state := by
  intro final first
  have account := accounted_perform env bound registry workflowId inputs trace
  have orderly := account.orderly
  have attributed : Attributed (env.limitedFrom trace.clock) first final.log :=
    (lasts_attributed _ first).run .refl .nil
  refine ⟨?_, ?_, orderly.nodup, account.finished, ?_, ?_, fun c within w supplied => ⟨?_, ?_⟩⟩
  · obtain ⟨told, hevents, htold⟩ := account.shown
    exact ⟨told, by rw [hevents, List.append_assoc, List.singleton_append], htold⟩
  · intro before key stepId seen after hsplit
    obtain ⟨⟨listed, direct⟩, earlier⟩ := orderly.grounded hsplit
    refine ⟨listed, attributed _ _ _ _ _ hsplit, fun dependency => earlier.reached direct,
      fun cycle => ?_⟩
    -- A workflow that reaches itself would have completed before, which no such workflow does.
    exact earlier.acyclic (earlier.reached direct cycle) cycle
  · intro before key outputs seen after hsplit
    exact (orderly.grounded hsplit).1.1
  · intro before dependent key outputs seen after hsplit
    exact (orderly.grounded hsplit).1
  · intro inputs earlier later b prepares split supplies
    exact supplies.furnished within rfl prepares split
  · intro start opens
    exact opens.furnished within rfl

-- The second workflow starts its step after the first one, and does not when these form a cycle.
example :
    let workflow (workflowId : String) (dependsOn : List String) (steps : List Step) : Workflow :=
      ⟨workflowId, none, none, none, dependsOn, steps, [], [], [], [], []⟩
    let registry (first : List String) : Registry :=
      .mk ⟨"1.0.0", {}, [], [workflow "first" first [], workflow "second" ["first"]
        [{ stepId := "only", workflowId := some "first" }]], none, [], none⟩ none [] []
    let log (first : List String) : List Moment :=
      (perform { client := .offline } 20 (registry first) "second" .null {}).2.log
    completedKeys (log []) = [⟨[], "first"⟩] ∧
      (log []).filterMap Moment.start? = [(⟨[], "second"⟩, "only")] ∧
      (log ["second"]).filterMap Moment.start? = [] := by
  decide +kernel

end Arazzo.Run
