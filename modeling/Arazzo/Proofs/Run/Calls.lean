import Arazzo.Proofs.Run.Visits
import Mathlib.Data.List.Forall2

/-! The workflows that are run within the run of another one: those that it depends on, those that
its steps run, and one that takes over. -/

namespace Arazzo

/-- A workflow that has come to its end, with its outputs. -/
structure Completion where
  key : WorkflowKey
  outputs : Table Json

def Resolver.publishAll (r : Resolver) (supplied : List Completion) : Resolver :=
  supplied.foldl (fun r c => r.publishWorkflow c.key.workflowId c.outputs) r

theorem Resolver.publishAll_concat (r : Resolver) (supplied : List Completion) (c : Completion) :
    r.publishAll (supplied ++ [c]) =
      (r.publishAll supplied).publishWorkflow c.key.workflowId c.outputs :=
  List.foldl_append

namespace Run

def LeadsTo (scene : Scene) (reference : String) (key : WorkflowKey) : Prop :=
  ∃ target called, locate scene reference = .ok (target, called) ∧ target.keyOf called = key

/-- What a workflow goes on from when some of its dependencies are there. -/
structure Basis where
  bound : Nat
  resolver : Resolver
  state : RunState

namespace Basis

def run (env : Environment) (scene : Scene) (dependent : String) (references : List String)
    (b : Basis) : Except (Stop RunError) Resolver × RunState :=
  (runDependencies env b.bound scene dependent references b.resolver).run b.state

def supplied (scene : Scene) (dependent : String) (b : Basis) (c : Completion) (s : RunState) :
    Basis :=
  ⟨b.bound - 1, b.resolver.publishWorkflow c.key.workflowId c.outputs,
    s.note (.published ⟨scene.key, dependent⟩ c.key c.outputs)⟩

end Basis

/-- The dependency has not completed before, and is run now. -/
structure Needs (scene : Scene) (b : Basis) (reference : String) (c : Call) : Prop where
  meant : c.Meant scene reference
  deeper : 1 < b.bound
  new : b.state.finished.lookup c.key = none
  idle : c.key ∉ b.state.stack
  bound : c.bound = b.bound - 2
  inputs : c.inputs = .obj []
  state : c.state = b.state.enter c.key

/-- A dependency is there: it has completed before, or does now. -/
inductive Obtains (env : Environment) (scene : Scene) (b : Basis) (reference : String) :
    Completion → RunState → Prop where
  | again {target : Scene} {called : Workflow} {outputs : Table Json}
    (found : locate scene reference = .ok (target, called)) (deeper : 1 < b.bound)
    (done : b.state.finished.lookup (target.keyOf called) = some outputs) :
    Obtains env scene b reference ⟨target.keyOf called, outputs⟩ b.state
  | newly {c : Call} {outputs : Table Json} {s : RunState} (needs : Needs scene b reference c)
    (ran : c.run env = (.ok outputs, s)) :
    Obtains env scene b reference ⟨c.key, outputs⟩ (s.complete c.key outputs)

/-- The dependencies are there, one after the other, and their outputs are published. -/
inductive Supplies (env : Environment) (scene : Scene) (dependent : String) (start : Basis) :
    List String → List Completion → Basis → Prop where
  | start : Supplies env scene dependent start [] [] start
  | more {references : List String} {supplied : List Completion} {b : Basis} {reference : String}
    {c : Completion} {s : RunState}
    (before : Supplies env scene dependent start references supplied b)
    (obtains : Obtains env scene b reference c s) :
    Supplies env scene dependent start (references ++ [reference]) (supplied ++ [c])
      (b.supplied scene dependent c s)

inductive Lacks (env : Environment) (scene : Scene) (dependent : String) (b : Basis)
    (reference : String) : Stop RunError → RunState → Prop where
  | unfinished (shallow : b.bound = 0 ∨
      b.bound = 1 ∧ ∃ target called, locate scene reference = .ok (target, called)) :
    Lacks env scene dependent b reference .unfinished b.state
  | unknown {fault : RunFault} (deeper : b.bound ≠ 0)
    (missed : locate scene reference = .error fault) :
    Lacks env scene dependent b reference (.failed ⟨dependent, none, fault⟩) b.state
  | cyclic {target : Scene} {called : Workflow}
    (found : locate scene reference = .ok (target, called)) (deeper : 1 < b.bound)
    (new : b.state.finished.lookup (target.keyOf called) = none)
    (under : target.keyOf called ∈ b.state.stack) :
    Lacks env scene dependent b reference (.failed ⟨dependent, none,
      .dependencyCycle (b.state.stack.map (·.workflowId) ++ [called.workflowId])⟩) b.state
  | failed {c : Call} {stop : Stop RunError} {s : RunState} (needs : Needs scene b reference c)
    (ran : c.run env = (.error stop, s)) : Lacks env scene dependent b reference stop s

def Call.basis (c : Call) : Basis :=
  ⟨c.bound - 1, { document := c.scene.registry.document }, c.state⟩

structure Prepares (c : Call) (w : Workflow) (inputs : Json) : Prop where
  found : c.scene.registry.document.workflow? c.workflowId = some w
  prepared : prepareInputs c.scene.registry.document w c.inputs = .ok inputs

/-- The stage at which the steps of a workflow begin, with what its dependencies have given. -/
inductive Opens (env : Environment) (c : Call) (w : Workflow) (supplied : List Completion) :
    Stage → Prop where
  | mk {inputs : Json} {b : Basis} (prepares : Prepares c w inputs)
    (supplies : Supplies env c.scene c.workflowId c.basis w.dependsOn supplied b)
    (deeper : b.bound ≠ 0) :
    Opens env c w supplied
      (.opening (c.bound - 1) ⟨b.resolver, { workflowId := c.workflowId, inputs }⟩ b.state)

/-- The second workflow is run within the first one. -/
inductive Calls (env : Environment) (c c' : Call) : Prop where
  | dependency {w : Workflow} {inputs : Json} {earlier later : List String} {reference : String}
    {supplied : List Completion} {b : Basis} (prepares : Prepares c w inputs)
    (split : w.dependsOn = earlier ++ reference :: later)
    (supplies : Supplies env c.scene c.workflowId c.basis earlier supplied b)
    (needs : Needs c.scene b reference c')
  | step {w : Workflow} {supplied : List Completion} {start a : Stage} {history : List Visit}
    {step : Step} {inv : Invocation} (opens : Opens env c w supplied start)
    (before : Visited env c.scene w start history a) (starts : Starts env w a step)
    (delegates : Delegates c.scene w a step c' inv)
  | takeover {w : Workflow} {supplied : List Completion} {start a : Stage} {history : List Visit}
    {v : Visit} {inv : Invocation} {s : RunState} (opens : Opens env c w supplied start)
    (before : Visited env c.scene w start history a)
    (takesOver : TakesOver env c.scene w a v inv s c')

abbrev Within (env : Environment) : Call → Call → Prop := Relation.ReflTransGen (Calls env)

/-- What comes of a workflow. -/
inductive Comes (env : Environment) (c : Call) :
    Except (Stop RunError) (Table Json) → RunState → Prop where
  | unfinished (shallow : c.bound = 0) : Comes env c (.error .unfinished) c.state
  | notFound (deeper : c.bound ≠ 0)
    (missed : c.scene.registry.document.workflow? c.workflowId = none) :
    Comes env c (.error (.failed ⟨c.workflowId, none, .workflowNotFound c.workflowId⟩)) c.state
  | refused {w : Workflow} {fault : RunFault} (deeper : c.bound ≠ 0)
    (found : c.scene.registry.document.workflow? c.workflowId = some w)
    (unprepared : prepareInputs c.scene.registry.document w c.inputs = .error fault) :
    Comes env c (.error (.failed ⟨c.workflowId, none, fault⟩)) c.state
  | unsupplied {w : Workflow} {inputs : Json} {earlier later : List String} {reference : String}
    {supplied : List Completion} {b : Basis} {stop : Stop RunError} {s : RunState}
    (deeper : c.bound ≠ 0) (prepares : Prepares c w inputs)
    (split : w.dependsOn = earlier ++ reference :: later)
    (supplies : Supplies env c.scene c.workflowId c.basis earlier supplied b)
    (lacks : Lacks env c.scene c.workflowId b reference stop s) : Comes env c (.error stop) s
  /-- The bound is too small to find that all dependencies are there. -/
  | cutOff {w : Workflow} {inputs : Json} {supplied : List Completion} {b : Basis}
    (deeper : c.bound ≠ 0) (prepares : Prepares c w inputs)
    (supplies : Supplies env c.scene c.workflowId c.basis w.dependsOn supplied b)
    (shallow : b.bound = 0) : Comes env c (.error .unfinished) b.state
  | stopped {w : Workflow} {supplied : List Completion} {start : Stage} {stop : Stop RunError}
    {s : RunState} (opens : Opens env c w supplied start)
    (closed : Closed env c.scene w start (.error stop) s) : Comes env c (.error stop) s
  | ended {w : Workflow} {supplied : List Completion} {start : Stage} {finish : Finish}
    {inv : Invocation} {s : RunState} (opens : Opens env c w supplied start)
    (closed : Closed env c.scene w start (.ok (finish, inv)) s) :
    Comes env c ((workflowOutputs c.workflowId inv.context finish w.outputs inv.context.outputs
      inv.resolver).mapError .failed) s

variable {env : Environment} {scene : Scene} {dependent reference : String} {b b' start : Basis}
  {c c' : Call} {s : RunState} {references earlier : List String} {supplied : List Completion}
  {w : Workflow} {a : Stage} {registry : Registry}

theorem Obtains.deeper {completion : Completion} (obtains : Obtains env scene b reference completion s) :
    1 < b.bound := by
  cases obtains with
  | again _ deeper _ => exact deeper
  | newly needs _ => exact needs.deeper

theorem Obtains.leadsTo {completion : Completion}
    (obtains : Obtains env scene b reference completion s) :
    LeadsTo scene reference completion.key := by
  cases obtains with
  | again found _ _ => exact ⟨_, _, found, rfl⟩
  | newly needs _ =>
    obtain ⟨called, found, named⟩ := needs.meant
    exact ⟨_, called, found, congrArg (WorkflowKey.mk _) named⟩

theorem exists_leadsTo {completion : Completion}
    (leads : List.Forall₂ (fun reference c => LeadsTo scene reference c.key) references supplied)
    (h : completion ∈ supplied) : ∃ reference, LeadsTo scene reference completion.key := by
  induction leads with
  | nil => cases h
  | cons first _ ih =>
    rcases List.mem_cons.1 h with rfl | h
    · exact ⟨_, first⟩
    · exact ih h

theorem Basis.run_cons {target : Scene} {called : Workflow} (deeper : b.bound ≠ 0)
    (found : locate scene reference = .ok (target, called)) (rest : List String) :
    b.run env scene dependent (reference :: rest) = (do
      let outputs ← runDependency env (b.bound - 1) target called.workflowId dependent
      modify (·.note (.published ⟨scene.key, dependent⟩ (target.keyOf called) outputs))
      runDependencies env (b.bound - 1) scene dependent rest
        (b.resolver.publishWorkflow called.workflowId outputs) : Running Resolver).run b.state := by
  obtain ⟨inner, hbound⟩ := Nat.exists_eq_succ_of_ne_zero deeper
  rw [Basis.run, hbound, runDependencies, found]
  rfl

theorem Basis.run_dependency (deeper : 1 < b.bound) (target : Scene) (workflowId : String) :
    (runDependency env (b.bound - 1) target workflowId dependent).run b.state =
      match b.state.finished.lookup ⟨target.key, workflowId⟩ with
      | some outputs => (.ok outputs, b.state)
      | none =>
        if (⟨target.key, workflowId⟩ : WorkflowKey) ∈ b.state.stack then
          (.error (.failed ⟨dependent, none,
            .dependencyCycle (b.state.stack.map (·.workflowId) ++ [workflowId])⟩), b.state)
        else
          (do
            let outputs ← runWorkflow env (b.bound - 2) target workflowId (.obj [])
            modify (·.complete ⟨target.key, workflowId⟩ outputs)
            return outputs : Running (Table Json)).run (b.state.enter ⟨target.key, workflowId⟩) := by
  obtain ⟨bound, resolver, s⟩ := b
  match bound, deeper with
  | inner + 2, _ =>
    show (runDependency env (inner + 1) target workflowId dependent).run s = _
    rw [runDependency]
    refine (run_bind_ok rfl).trans ?_
    cases s.finished.lookup (⟨target.key, workflowId⟩ : WorkflowKey) with
    | some outputs => rfl
    | none =>
      by_cases under : (⟨target.key, workflowId⟩ : WorkflowKey) ∈ s.stack
      · simp only [if_pos under]
        rfl
      · simp only [if_neg under]
        rfl

theorem Needs.run_eq (needs : Needs scene b reference c) :
    (runDependency env (b.bound - 1) c.scene c.workflowId dependent).run b.state = (do
      let outputs ← runWorkflow env c.bound c.scene c.workflowId c.inputs
      modify (·.complete c.key outputs)
      return outputs : Running (Table Json)).run c.state := by
  rw [Basis.run_dependency needs.deeper, show b.state.finished.lookup ⟨_, _⟩ = none from needs.new,
    needs.bound, needs.inputs, needs.state]
  exact if_neg needs.idle

theorem Obtains.run_eq {completion : Completion}
    (obtains : Obtains env scene b reference completion s) (rest : List String) :
    b.run env scene dependent (reference :: rest) =
      (b.supplied scene dependent completion s).run env scene dependent rest := by
  have shallow : b.bound ≠ 0 := Nat.ne_of_gt (Nat.lt_of_succ_lt obtains.deeper)
  cases obtains with
  | @again target called outputs found deeper done =>
    have given : (runDependency env (b.bound - 1) target called.workflowId dependent).run b.state =
        (.ok outputs, b.state) := by
      rw [Basis.run_dependency deeper, show b.state.finished.lookup ⟨_, _⟩ = some outputs from done]
    rw [Basis.run_cons shallow found]
    exact run_bind_ok given
  | @newly c outputs s needs ran =>
    obtain ⟨called, found, named⟩ := needs.meant
    have hkey : c.scene.keyOf called = c.key := congrArg (WorkflowKey.mk _) named
    rw [Basis.run_cons shallow found, hkey, named]
    exact run_bind_ok ((needs.run_eq).trans (run_bind_ok ran))

theorem Lacks.run_eq {stop : Stop RunError} (lacks : Lacks env scene dependent b reference stop s)
    (rest : List String) : b.run env scene dependent (reference :: rest) = (.error stop, s) := by
  cases lacks with
  | unfinished shallow =>
    rcases shallow with hbound | ⟨hbound, target, called, found⟩
    · rw [Basis.run, hbound, runDependencies]
      rfl
    · rw [Basis.run_cons (by omega) found, hbound, runDependency]
      rfl
  | unknown deeper missed =>
    obtain ⟨inner, hbound⟩ := Nat.exists_eq_succ_of_ne_zero deeper
    rw [Basis.run, hbound, runDependencies, missed]
    rfl
  | @cyclic target called found deeper new under =>
    rw [Basis.run_cons (Nat.ne_of_gt (Nat.lt_of_succ_lt deeper)) found]
    refine run_bind_error ?_
    rw [Basis.run_dependency deeper, show b.state.finished.lookup ⟨_, _⟩ = none from new]
    exact if_pos under
  | failed needs ran =>
    obtain ⟨called, found, named⟩ := needs.meant
    rw [Basis.run_cons (Nat.ne_of_gt (Nat.lt_of_succ_lt needs.deeper)) found, named]
    exact run_bind_error ((needs.run_eq).trans (run_bind_error ran))

theorem Basis.settles (env : Environment) (scene : Scene) (dependent : String) (b : Basis)
    (reference : String) :
    (∃ completion s, Obtains env scene b reference completion s) ∨
      ∃ stop s, Lacks env scene dependent b reference stop s := by
  by_cases shallow : b.bound = 0
  · exact .inr ⟨_, _, .unfinished (.inl shallow)⟩
  rcases found : locate scene reference with fault | ⟨target, called⟩
  · exact .inr ⟨_, _, .unknown shallow found⟩
  by_cases single : b.bound = 1
  · exact .inr ⟨_, _, .unfinished (.inr ⟨single, target, called, found⟩)⟩
  have deeper : 1 < b.bound := by omega
  cases new : b.state.finished.lookup (target.keyOf called) with
  | some outputs => exact .inl ⟨_, _, .again found deeper new⟩
  | none =>
  by_cases under : target.keyOf called ∈ b.state.stack
  · exact .inr ⟨_, _, .cyclic found deeper new under⟩
  let c : Call := ⟨b.bound - 2, target, called.workflowId, .obj [], b.state.enter (target.keyOf called)⟩
  have needs : Needs scene b reference c :=
    ⟨⟨called, found, rfl⟩, deeper, new, under, rfl, rfl, rfl⟩
  rcases ran : c.run env with ⟨stop | outputs, s⟩
  · exact .inr ⟨_, _, .failed needs ran⟩
  · exact .inl ⟨_, _, .newly needs ran⟩

theorem Supplies.run_eq (supplies : Supplies env scene dependent start earlier supplied b)
    (rest : List String) :
    start.run env scene dependent (earlier ++ rest) = b.run env scene dependent rest := by
  induction supplies generalizing rest with
  | start => rfl
  | more _ obtains ih =>
    rw [List.append_assoc, ih, List.singleton_append]
    exact obtains.run_eq rest

theorem Supplies.bound_add (supplies : Supplies env scene dependent start earlier supplied b) :
    b.bound + earlier.length = start.bound := by
  induction supplies with
  | start => rfl
  | more _ obtains ih =>
    have deeper := obtains.deeper
    rw [List.length_append, List.length_singleton, ← ih, Basis.supplied]
    dsimp only
    omega

theorem Supplies.publishes (supplies : Supplies env scene dependent start earlier supplied b) :
    List.Forall₂ (fun reference c => LeadsTo scene reference c.key) earlier supplied ∧
      b.resolver = start.resolver.publishAll supplied := by
  induction supplies with
  | start => exact ⟨.nil, rfl⟩
  | more _ obtains ih =>
    obtain ⟨leads, published⟩ := ih
    refine ⟨List.rel_append leads (.cons obtains.leadsTo .nil), ?_⟩
    rw [Resolver.publishAll_concat, ← published]
    rfl

theorem Supplies.settles (supplies : Supplies env scene dependent start earlier supplied b)
    (rest : List String) :
    (∃ more b', Supplies env scene dependent start (earlier ++ rest) more b') ∨
      ∃ before reference after more b' stop s, rest = before ++ reference :: after ∧
        Supplies env scene dependent start (earlier ++ before) more b' ∧
        Lacks env scene dependent b' reference stop s := by
  induction rest generalizing earlier supplied b with
  | nil => exact .inl ⟨supplied, b, by rwa [List.append_nil]⟩
  | cons reference rest ih =>
    rcases b.settles env scene dependent reference with ⟨c, s, obtains⟩ | ⟨stop, s, lacks⟩
    · rcases ih (supplies.more obtains) with ⟨more, b', all⟩ |
        ⟨before, other, after, more, b', stop, s, split, some, lacks⟩
      · rw [List.append_assoc, List.singleton_append] at all
        exact .inl ⟨more, b', all⟩
      · rw [List.append_assoc, List.singleton_append] at some
        exact .inr ⟨reference :: before, other, after, more, b', stop, s,
          by rw [split, List.cons_append], some, lacks⟩
    · refine .inr ⟨[], reference, rest, supplied, b, stop, s, rfl, ?_, lacks⟩
      rwa [List.append_nil]

/-! Whole workflows -/

theorem Prepares.run_eq {inputs : Json} (prepares : Prepares c w inputs) (deeper : c.bound ≠ 0) :
    c.run env = (do
      let resolver ← runDependencies env (c.bound - 1) c.scene c.workflowId w.dependsOn
        { document := c.scene.registry.document }
      let (finish, inv) ← runSteps env (c.bound - 1) c.scene w
        ⟨resolver, { workflowId := c.workflowId, inputs }⟩ [] 0
      ofExcept (workflowOutputs c.workflowId inv.context finish w.outputs inv.context.outputs
        inv.resolver) : Running (Table Json)).run c.state := by
  obtain ⟨inner, hbound⟩ := Nat.exists_eq_succ_of_ne_zero deeper
  rw [Call.run, hbound, runWorkflow]
  dsimp only
  rw [prepares.found]
  dsimp only
  rw [prepares.prepared]
  rfl

theorem run_ofExcept {α : Type} (result : Except RunError α) (s : RunState) :
    (ofExcept result).run s = (result.mapError .failed, s) := by
  cases result <;> rfl

namespace Opens

variable {finish : Finish} {inv : Invocation} {stop : Stop RunError}

theorem deeper (opens : Opens env c w supplied a) : c.bound ≠ 0 := by
  cases opens with
  | mk _ supplies deeper =>
    rintro shallow
    have bounded := supplies.bound_add
    rw [Call.basis, shallow] at bounded
    dsimp only at bounded
    omega

theorem found (opens : Opens env c w supplied a) :
    c.scene.registry.document.workflow? c.workflowId = some w := by
  cases opens with
  | mk prepares _ _ => exact prepares.found

theorem bound (opens : Opens env c w supplied a) : a.bound = c.bound - 1 := by
  cases opens
  rfl

theorem independent {inputs : Json} (prepares : Prepares c w inputs) (none : w.dependsOn = [])
    (deeper : c.bound - 1 ≠ 0) :
    Opens env c w [] (.opening (c.bound - 1)
      ⟨{ document := c.scene.registry.document }, { workflowId := c.workflowId, inputs }⟩ c.state) :=
  .mk (b := c.basis) prepares (none ▸ .start) deeper

theorem publishes (opens : Opens env c w supplied a) :
    List.Forall₂ (fun reference c' => LeadsTo c.scene reference c'.key) w.dependsOn supplied ∧
      a.inv.resolver =
        ({ document := c.scene.registry.document } : Resolver).publishAll supplied := by
  cases opens with
  | mk _ supplies _ => exact supplies.publishes

theorem run_eq (opens : Opens env c w supplied a) :
    c.run env = (do
      let (finish, inv) ← runSteps env a.bound c.scene w a.inv a.retries a.index
      ofExcept (workflowOutputs c.workflowId inv.context finish w.outputs inv.context.outputs
        inv.resolver) : Running (Table Json)).run a.state := by
  have deep := opens.deeper
  cases opens with
  | @mk inputs b prepares supplies deeper =>
    have all := supplies.run_eq []
    obtain ⟨inner, hbound⟩ := Nat.exists_eq_succ_of_ne_zero deeper
    rw [List.append_nil, Basis.run, Basis.run, hbound, runDependencies] at all
    rw [prepares.run_eq deep]
    exact run_bind_ok all

theorem run_of_error (opens : Opens env c w supplied a)
    (ran : a.run env c.scene w = (.error stop, s)) : c.run env = (.error stop, s) := by
  rw [opens.run_eq]
  exact run_bind_error ran

theorem run_of_ok (opens : Opens env c w supplied a)
    (ran : a.run env c.scene w = (.ok (finish, inv), s)) :
    c.run env = ((workflowOutputs c.workflowId inv.context finish w.outputs inv.context.outputs
      inv.resolver).mapError .failed, s) := by
  rw [opens.run_eq, run_bind_ok ran]
  exact run_ofExcept _ s

end Opens

theorem Opens.comes (opens : Opens env c w supplied a) :
    Comes env c (c.run env).1 (c.run env).2 := by
  have closed : Closed env c.scene w a (a.run env c.scene w).1 (a.run env c.scene w).2 :=
    Visited.start.closed
  rcases ran : a.run env c.scene w with ⟨stop | ⟨finish, inv⟩, s⟩
  · rw [ran] at closed
    rw [opens.run_of_error ran]
    exact .stopped opens closed
  · rw [ran] at closed
    rw [opens.run_of_ok ran]
    exact .ended opens closed

theorem Prepares.comes {inputs : Json} (prepares : Prepares c w inputs) (deeper : c.bound ≠ 0) :
    Comes env c (c.run env).1 (c.run env).2 := by
  have none : Supplies env c.scene c.workflowId c.basis [] [] c.basis := .start
  rcases none.settles w.dependsOn with ⟨supplied, b, supplies⟩ |
    ⟨earlier, reference, later, supplied, b, stop, s, split, supplies, lacks⟩
  · by_cases shallow : b.bound = 0
    · have all := supplies.run_eq []
      rw [List.nil_append, List.append_nil, Basis.run, Basis.run, shallow, runDependencies] at all
      have ran : c.run env = (.error .unfinished, b.state) := by
        rw [prepares.run_eq deeper]
        exact run_bind_error all
      rw [ran]
      exact .cutOff deeper prepares supplies shallow
    · exact Opens.comes (.mk prepares supplies shallow)
  · have all := supplies.run_eq (reference :: later)
    rw [List.nil_append, ← split, lacks.run_eq] at all
    have ran : c.run env = (.error stop, s) := by
      rw [prepares.run_eq deeper]
      exact run_bind_error all
    rw [ran]
    exact .unsupplied deeper prepares split supplies lacks

theorem Call.comes (env : Environment) (c : Call) : Comes env c (c.run env).1 (c.run env).2 := by
  rcases hbound : c.bound with _ | inner
  · rw [Call.run, hbound, runWorkflow]
    exact .unfinished hbound
  have deeper : c.bound ≠ 0 := hbound ▸ Nat.succ_ne_zero inner
  cases found : c.scene.registry.document.workflow? c.workflowId with
  | none =>
    rw [Call.run, hbound, runWorkflow]
    dsimp only
    rw [found]
    exact .notFound deeper found
  | some w =>
    cases prepared : prepareInputs c.scene.registry.document w c.inputs with
    | ok inputs => exact Prepares.comes ⟨found, prepared⟩ deeper
    | error fault =>
      rw [Call.run, hbound, runWorkflow]
      dsimp only
      rw [found]
      dsimp only
      rw [prepared]
      exact .refused deeper found prepared

theorem Turn.bound_le {scene : Scene} {a b : Stage} {v : Visit} (turn : Turn env scene w a v b) :
    b.bound ≤ a.bound := by
  rw [turn.bound]
  exact Nat.sub_le ..

theorem Visited.bound_le {scene : Scene} {start a : Stage} {history : List Visit}
    (before : Visited env scene w start history a) : a.bound ≤ start.bound := by
  induction before with
  | start => exact Nat.le_refl _
  | turn _ turn ih => exact Nat.le_trans turn.bound_le ih

theorem Calls.bound_lt (calls : Calls env c c') : c'.bound < c.bound := by
  cases calls with
  | dependency _ _ supplies needs =>
    have bounded := supplies.bound_add
    have deeper := needs.deeper
    rw [needs.bound]
    simp only [Call.basis] at bounded
    omega
  | step opens before _ delegates =>
    have bounded := before.bound_le
    have deeper := delegates.deeper
    rw [delegates.bound]
    rw [opens.bound] at bounded
    omega
  | takeover opens before takesOver =>
    have bounded := before.bound_le
    have deeper := Nat.pos_of_ne_zero takesOver.executes.deeper
    rw [takesOver.bound]
    rw [opens.bound] at bounded
    omega

theorem Call.Meant.scene_in {scene : Scene} (meant : c.Meant scene reference)
    (hscene : scene.In registry) : c.scene.In registry := by
  obtain ⟨called, found, -⟩ := meant
  exact (home_of_locate hscene found).scene_in

theorem Calls.scene_in (calls : Calls env c c') (hscene : c.scene.In registry) :
    c'.scene.In registry := by
  cases calls with
  | dependency _ _ _ needs => exact needs.meant.scene_in hscene
  | step _ _ _ delegates =>
    obtain ⟨reference, -, meant⟩ := delegates.names
    exact meant.scene_in hscene
  | takeover _ _ takesOver =>
    obtain ⟨reference, -, meant, -⟩ := takesOver.goes
    exact meant.scene_in hscene

/-- All that is run within a run is from the documents of its registry. -/
theorem Within.scene_in (within : Within env c c') (hscene : c.scene.In registry) :
    c'.scene.In registry := by
  induction within with
  | refl => exact hscene
  | tail _ calls ih => exact calls.scene_in ih

theorem Opens.home (opens : Opens env c w supplied a) (hscene : c.scene.In registry) :
    Home registry c.scene w :=
  hscene.home opens.found

def Call.first (bound : Nat) (registry : Registry) (workflowId : String) (inputs : Json)
    (trace : Trace) : Call :=
  ⟨bound, ⟨[], registry⟩, workflowId, inputs, .opening workflowId trace⟩

end Run
end Arazzo
