import Arazzo.Proofs.Resolver.Reading
import Arazzo.Proofs.Run.ReadBack

/-! The workflows that an invocation completes: those it depends on, those its steps run, and one
that takes over. An expression about an output of a workflow stands for what the last one of them
with that id gave, whatever document that one is from. -/

namespace Arazzo

open Resolver

/-- The last value that the workflow gave the name, if it has this id. Its document has no part in
this. -/
def Completion.under? (id name : String) (c : Completion) : Option Json :=
  if c.key.workflowId = id then Table.get? name c.outputs.reverse else none

/-- The value of the last completion that gave one, the first completion first. -/
def latest? (id name : String) : List Completion → Option Json
  | [] => none
  | c :: later => (latest? id name later).or (c.under? id name)

variable {id name id' name' : String} {log more : List Completion} {scope scope' : Scope}

theorem latest?_append (id name : String) (log more : List Completion) :
    latest? id name (log ++ more) = (latest? id name more).or (latest? id name log) := by
  induction log with
  | nil => rw [List.nil_append, latest?, Option.or_none]
  | cons c rest ih => rw [List.cons_append, latest?, latest?, ih, Option.or_assoc]

theorem latest?_concat (id name : String) (log : List Completion) (c : Completion) :
    latest? id name (log ++ [c]) = (c.under? id name).or (latest? id name log) := by
  rw [latest?_append, latest?, latest?, Option.none_or]

theorem latest?_append_other (name : String) (log : List Completion)
    (h : ∀ c ∈ more, c.key.workflowId ≠ id) :
    latest? id name (log ++ more) = latest? id name log := by
  have none_of_other : latest? id name more = none := by
    induction more with
    | nil => rfl
    | cons c rest ih =>
      obtain ⟨hc, hrest⟩ := List.forall_mem_cons.1 h
      rw [latest?, ih hrest, Completion.under?, if_neg hc, Option.or_none]
  rw [latest?_append, none_of_other, Option.none_or]

/-- A key with dots in its id or its name has too many of them for an expression. -/
theorem outputKey_plain_inj (hid : '.' ∉ id.toList) (hname : '.' ∉ name.toList)
    (h : outputKey scope' id' name' = outputKey scope id name) :
    scope' = scope ∧ id' = id ∧ name' = name := by
  obtain ⟨rfl, hrest⟩ := outputKey_scope_inj h
  have hdots : ∀ id name : String, (keyRest id name).count '.' =
      id.toList.count '.' + name.toList.count '.' + 2 := by
    intro id name
    have houtputs : "outputs".toList.count '.' = 0 := by decide
    simp only [keyRest, List.count_append, List.count_cons_self, houtputs]
    omega
  have hcount := congrArg (List.count '.') hrest
  rw [hdots, hdots, List.count_eq_zero.2 hid, List.count_eq_zero.2 hname] at hcount
  have hid' : '.' ∉ id'.toList := List.count_eq_zero.1 (by omega)
  obtain ⟨hids, -⟩ := Text.append_mark_inj hid' hid hrest
  obtain rfl : id' = id := String.toList_inj.1 hids
  exact ⟨rfl, rfl, outputKey_name_inj h⟩

namespace Resolver

/-- Nothing false is remembered, and what can be read of workflows is what these completions gave. -/
structure Told (r : Resolver) (log : List Completion) : Prop where
  truthful : r.Truthful
  published : ∀ id name, '.' ∉ id.toList → '.' ∉ name.toList →
    Table.get? (outputKey .workflows id name) r.published = latest? id name log

/-- In every context a text about an output of a workflow stands for what it is in the last of these
completions that has the workflow's id and gave the output. -/
def Tells (r : Resolver) (log : List Completion) : Prop :=
  ∀ text id name rest pointer context,
    Expression.parse text = .ok (.named .workflows ⟨id, "outputs" :: name :: rest, pointer⟩) →
    ((resolve text context).run r).1 =
      .ok ((latest? id name log).bind fun value => (walk? rest value).bind (atPointer? pointer))

variable {r r' : Resolver}

theorem told_nil (document : Document) : Told { document } [] :=
  ⟨truthful_nil document [], fun _ _ _ _ => rfl⟩

namespace Told

theorem onward {keys : String → Prop} (told : r.Told log) (onward : Onward keys r r')
    (hkeys : ∀ id name, ¬ keys (outputKey .workflows id name)) : r'.Told log := by
  obtain ⟨truthful, -, hkept⟩ := onward told.truthful
  refine ⟨truthful, fun id name hid hname => ?_⟩
  rw [hkept _ (hkeys id name)]
  exact told.published id name hid hname

theorem gentle (told : r.Told log) (onward : Onward (fun _ => False) r r') : r'.Told log :=
  told.onward onward fun _ _ => id

end Told

theorem get?_publishWorkflow (r : Resolver) (outputs : Table Json) (hid : '.' ∉ id.toList)
    (hname : '.' ∉ name.toList) :
    Table.get? (outputKey .workflows id name) (r.publishWorkflow id' outputs).published =
      (if id' = id then Table.get? name outputs.reverse else none).or
        (Table.get? (outputKey .workflows id name) r.published) := by
  induction outputs generalizing r with
  | nil =>
    show _ = (if id' = id then none else none : Option Json).or _
    rw [ite_self, Option.none_or]
    rfl
  | cons output rest ih =>
    obtain ⟨first, value⟩ := output
    have hkey : outputKey .workflows id' first = outputKey .workflows id name ↔
        id' = id ∧ first = name := by
      constructor
      · intro h
        exact (outputKey_plain_inj hid hname h).2
      · rintro ⟨rfl, rfl⟩
        rfl
    show Table.get? _ ((r.publish _ value).publishWorkflow id' rest).published = _
    rw [ih, Resolver.publish, Table.get?_insert, List.reverse_cons]
    by_cases hids : id' = id
    · rw [if_pos hids, if_pos hids, Table.get?_append, Option.or_assoc]
      congr 1
      by_cases hfirst : first = name
      · rw [if_pos (hkey.2 ⟨hids, hfirst⟩), Table.get?_cons, if_pos hfirst, Option.some_or]
      · rw [if_neg (fun h => hfirst (hkey.1 h).2), Table.get?_cons, if_neg hfirst, Table.get?_nil,
          Option.none_or]
    · rw [if_neg hids, if_neg hids, if_neg fun h => hids (hkey.1 h).1]

namespace Told

theorem publishWorkflow (told : r.Told log) (key : WorkflowKey) (outputs : Table Json) :
    (r.publishWorkflow key.workflowId outputs).Told (log ++ [⟨key, outputs⟩]) := by
  refine ⟨(onward_publishWorkflow key.workflowId outputs r told.truthful).1, ?_⟩
  intro id name hid hname
  rw [get?_publishWorkflow r outputs hid hname, told.published id name hid hname, latest?_concat]
  rfl

theorem publishAll (told : r.Told log) (supplied : List Completion) :
    (r.publishAll supplied).Told (log ++ supplied) := by
  induction supplied generalizing r log with
  | nil => rwa [List.append_nil]
  | cons c rest ih =>
    have told' := ih (told.publishWorkflow c.key c.outputs)
    rwa [List.append_assoc, List.singleton_append] at told'

theorem tells (told : r.Told log) : r.Tells log := by
  intro text id name rest pointer context hparse
  obtain ⟨spelled, hspell⟩ := Expression.spelled_of_parse hparse
  have hhead : (Text.trim text).toList.head? = some '$' := by
    rcases hspell with h | h <;> rw [h, Expression.head?_spell]
  obtain ⟨cs, htext⟩ := List.head?_eq_some_iff.1 hhead
  obtain ⟨hid, hname⟩ : '.' ∉ id.toList ∧ '.' ∉ name.toList := by
    cases spelled.formed with
    | named _ formed _ =>
      obtain ⟨hid, hrest⟩ := List.forall_mem_cons.1 formed
      exact ⟨hid.2, (hrest name (List.mem_cons_of_mem _ (List.mem_cons_self ..))).2⟩
  have hpublished := told.published id name hid hname
  obtain ⟨memory, hrun, -⟩ := resolve_run told.truthful text context
  rw [hrun, evaluateText, afterLead?_dollar htext, Expression.parse_trim, hparse]
  simp only [Expression.value, Document.definitionOrOutput?, hpublished]

end Told

theorem Tells.append_other (h : r.Tells log) (h' : r'.Tells (log ++ more))
    (hother : ∀ c ∈ more, c.key.workflowId ≠ id) {text : String} {rest : List String}
    {pointer : Option Pointer} {context context' : Option Context}
    (hparse : Expression.parse text =
      .ok (.named .workflows ⟨id, "outputs" :: name :: rest, pointer⟩)) :
    ((resolve text context').run r').1 = ((resolve text context).run r).1 := by
  rw [h text id name rest pointer context hparse, h' text id name rest pointer context' hparse,
    latest?_append_other name log hother]

/-- What a key stands for that can be written as an expression. -/
theorem Tells.answers (h : r.Tells log) (hid : Validation.isIdText id = true)
    (hname : Validation.isKeyText name = true) (hdot : '.' ∉ name.toList) :
    r.Answers .workflows id name (.ok (latest? id name log)) := by
  intro context
  have hne : "" ∉ nameParts name := by
    rw [nameParts_plain hdot, List.mem_singleton]
    rintro rfl
    cases hname
  have hparse : Expression.parse (outputKey .workflows id name) =
      .ok (.named .workflows ⟨id, "outputs" :: nameParts name, none⟩) :=
    parse_outputKey rfl hid hname hne
  rw [nameParts_plain hdot] at hparse
  rw [h _ id name [] none context hparse]
  cases latest? id name log <;> rfl

end Resolver

namespace Run

/-- The workflow that the execution of a step completes, if the step runs one. -/
inductive StepCompletes (env : Environment) (scene : Scene) (w : Workflow) (a : Stage)
    (step : Step) : List Completion → Prop
  | operation (h : ∀ reference, step.target? ≠ some (.workflow reference)) :
    StepCompletes env scene w a step []
  | workflow {c : Call} {inv : Invocation} {outputs : Table Json} {s : RunState}
    (delegates : Delegates scene w a step c inv) (ran : c.run env = (.ok outputs, s)) :
    StepCompletes env scene w a step [⟨c.key, outputs⟩]

/-- Turns of an invocation, with the workflows that they complete. -/
inductive Logged (env : Environment) (scene : Scene) (w : Workflow) (start : Stage) :
    List Visit → List Completion → Stage → Prop
  | start : Logged env scene w start [] [] start
  | turn {history : List Visit} {log more : List Completion} {a b : Stage} {v : Visit}
    (before : Logged env scene w start history log a) (turn : Turn env scene w a v b)
    (completes : StepCompletes env scene w a v.step more) :
    Logged env scene w start (history ++ [v]) (log ++ more) b

variable {env : Environment} {scene : Scene} {w : Workflow} {inv : Invocation} {s : RunState}
  {history : List Visit} {a b start : Stage} {v : Visit} {c : Call} {supplied : List Completion}

theorem Executes.completes (executes : Executes env scene w a v inv s)
    (told : a.inv.resolver.Told log) :
    ∃ more, StepCompletes env scene w a v.step more ∧ inv.resolver.Told (log ++ more) := by
  obtain ⟨status, z, s₀, performs, concluded, -⟩ := executes.concludes
  have concluded_told {log : List Completion} (told : z.resolver.Told log) :
      inv.resolver.Told log := by
    have leaves := (conclude_leaves status z told.truthful).of_ok concluded
    exact told.onward leaves.onward (not_stepKey_workflows v.step)
  cases performs with
  | operation calls _ answered =>
    have onward : Onward (fun _ => False) a.inv.resolver z.resolver :=
      (publishes_receive env scene.registry w v.step _).of_ok answered
    refine ⟨[], .operation calls, ?_⟩
    rw [List.append_nil]
    exact concluded_told (told.gentle onward)
  | @workflow c _ outputs _ delegates ran =>
    have received := (told.gentle delegates.onward).publishWorkflow c.key outputs
    exact ⟨_, .workflow delegates ran, concluded_told received⟩

theorem Turn.completes (turn : Turn env scene w a v b) (told : a.inv.resolver.Told log) :
    ∃ more, StepCompletes env scene w a v.step more ∧ b.inv.resolver.Told (log ++ more) := by
  obtain ⟨s, executes⟩ := turn.executes
  exact executes.completes told

theorem Visited.logged (before : Visited env scene w start history b)
    (told : start.inv.resolver.Told log) :
    ∃ more, Logged env scene w start history more b ∧ b.inv.resolver.Told (log ++ more) := by
  induction before with
  | start => exact ⟨[], .start, by rwa [List.append_nil]⟩
  | turn before turn ih =>
    obtain ⟨more, logged, told'⟩ := ih
    obtain ⟨last, completes, told''⟩ := turn.completes told'
    rw [List.append_assoc] at told''
    exact ⟨more ++ last, .turn logged turn completes, told''⟩

/-! Every invocation -/

/-- What can be read of workflows at a stage, which has these completions behind it, and from there
on. -/
structure Upholds (env : Environment) (scene : Scene) (w : Workflow) (a : Stage)
    (log : List Completion) : Prop where
  tells : a.inv.resolver.Tells log
  executes : ∀ v inv s, Executes env scene w a v inv s →
    ∃ more, StepCompletes env scene w a v.step more ∧ inv.resolver.Tells (log ++ more) ∧
      ∀ c outputs s', TakesOver env scene w a v inv s c → c.run env = (.ok outputs, s') →
        (inv.receive c.workflowId outputs).resolver.Tells (log ++ more ++ [⟨c.key, outputs⟩])
  onward : ∀ later b, Visited env scene w a later b →
    ∃ more, Logged env scene w a later more b ∧ b.inv.resolver.Tells (log ++ more) ∧
      ∀ id, (∀ c ∈ more, c.key.workflowId ≠ id) → ∀ text name rest pointer context context',
        Expression.parse text = .ok (.named .workflows ⟨id, "outputs" :: name :: rest, pointer⟩) →
        ((resolve text context').run b.inv.resolver).1 =
          ((resolve text context).run a.inv.resolver).1

theorem upholds_of_told (told : a.inv.resolver.Told log) : Upholds env scene w a log := by
  refine ⟨told.tells, fun v inv s executes => ?_, fun later b before => ?_⟩
  · obtain ⟨more, completes, told'⟩ := executes.completes told
    refine ⟨more, completes, told'.tells, fun c outputs s' _ _ => ?_⟩
    exact (told'.publishWorkflow c.key outputs).tells
  · obtain ⟨more, logged, told'⟩ := before.logged told
    refine ⟨more, logged, told'.tells, fun id hother text name rest pointer context context' => ?_⟩
    exact told.tells.append_other told'.tells hother

theorem Supplies.told {dependent : String} {references : List String} {b : Basis}
    (supplies : Supplies env scene dependent c.basis references supplied b) :
    b.resolver.Told supplied := by
  rw [supplies.publishes.2]
  exact (told_nil c.scene.registry.document).publishAll supplied

theorem Opens.told (opens : Opens env c w supplied a) : a.inv.resolver.Told supplied := by
  rw [opens.publishes.2]
  exact (told_nil c.scene.registry.document).publishAll supplied

/--
What the outputs of workflows stand for in an invocation, as the workflows that it depends on come to
be there, between its steps, and after a workflow that takes over: always what the last completed
workflow of that id gave. So they keep standing for the same until a workflow of that id completes
again, but that may be one of another document, since what is published is not told apart by
documents.
-/
theorem latest_outputs_stand (env : Environment) (c : Call) :
    (∀ result s', c.run env = (result, s') → Comes env c result s') ∧
    (∀ w inputs earlier later supplied b, Prepares c w inputs → w.dependsOn = earlier ++ later →
      Supplies env c.scene c.workflowId c.basis earlier supplied b →
      List.Forall₂ (fun reference c' => LeadsTo c.scene reference c'.key) earlier supplied ∧
        b.resolver.Tells supplied) ∧
    ∀ w supplied start, Opens env c w supplied start →
      List.Forall₂ (fun reference c' => LeadsTo c.scene reference c'.key) w.dependsOn supplied ∧
        ∀ history a, Visited env c.scene w start history a →
          ∃ log, Logged env c.scene w start history log a ∧
            Upholds env c.scene w a (supplied ++ log) := by
  refine ⟨fun result s' ran => ?_, fun w inputs earlier later supplied b _ _ supplies => ?_,
    fun w supplied start opens => ⟨opens.publishes.1, fun history a before => ?_⟩⟩
  · have comes := c.comes env
    rwa [ran] at comes
  · exact ⟨supplies.publishes.1, supplies.told.tells⟩
  · obtain ⟨log, logged, told⟩ := before.logged opens.told
    exact ⟨log, logged, upholds_of_told told⟩

def advance? (env : Environment) (scene : Scene) (w : Workflow) (a : Stage) :
    Option (Visit × Stage) :=
  w.steps[a.index]?.bind fun step =>
    match a.work env scene w step with
    | (.ok (outcome, inv), s) =>
      if outcome.action = .next ∧ a.bound ≠ 0 ∧ a.state.executions < env.config.maxSteps then
        some (⟨step, outcome⟩, ⟨a.bound - 1, inv, Table.erase step.stepId a.retries, a.index + 1,
          s.file (outcome.record w.workflowId step.stepId (a.made step.stepId + 1))⟩)
      else none
    | (.error _, _) => none

theorem turn_of_advance? (h : advance? env scene w a = some (v, b)) : Turn env scene w a v b := by
  obtain ⟨step, listed, h⟩ := Option.bind_eq_some_iff.1 h
  split at h
  · rename_i outcome inv s ran
    split at h
    · rename_i hgoes
      obtain ⟨hnext, deeper, within⟩ := hgoes
      obtain ⟨⟨⟩, ⟨⟩⟩ := Prod.mk.inj (Option.some.inj h)
      exact .next ⟨⟨deeper, listed, within⟩, s, ran, rfl⟩ hnext
    · cases h
  · cases h

def flowsTree : Json :=
  .obj [("arazzo", .str "1.0.1"),
    ("info", .obj [("title", .str "t"), ("version", .str "1")]),
    ("sourceDescriptions", .arr [.obj [("name", .str "api"), ("url", .str "api.json")]]),
    ("workflows", .arr [.obj
      [("outputs", .obj [("token", .str "nested")]),
        ("steps", .arr [.obj [("operationId", .str "get"), ("stepId", .str "n")]]),
        ("workflowId", .str "login")]])]

def sharedTree : Json :=
  .obj [("arazzo", .str "1.0.1"),
    ("info", .obj [("title", .str "t"), ("version", .str "1")]),
    ("sourceDescriptions", .arr [.obj [("name", .str "api"), ("url", .str "api.json")],
      .obj [("name", .str "flows"), ("type", .str "arazzo"), ("url", .str "flows.json")]]),
    ("workflows", .arr [
      .obj [("outputs", .obj [("o", .str "$workflows.login.outputs.token")]),
        ("steps", .arr [.obj [("stepId", .str "a"), ("workflowId", .str "login")],
          .obj [("stepId", .str "b"), ("workflowId", .str "$sourceDescriptions.flows.login")]]),
        ("workflowId", .str "w")],
      .obj [("outputs", .obj [("token", .str "own")]),
        ("steps", .arr [.obj [("operationId", .str "get"), ("stepId", .str "l")]]),
        ("workflowId", .str "login")]])]

def sharedLoader : Loader :=
  { givenLoader with documents := givenLoader.documents ++ [("flows", flowsTree)] }

def sharedLoaded (d : Document) : Option (Registry × Trace) :=
  match (sharedLoader.load d).run {} with
  | (.ok registry, trace) => some (registry, trace)
  | (.error _, _) => none

def isText (text : String) : Json → Bool
  | .str other => other == text
  | _ => false

theorem eq_of_isText {text : String} {value : Json} (h : isText text value = true) :
    value = .str text := by
  unfold isText at h
  split at h
  · rw [beq_iff_eq.1 h]
  · cases h

def logsIn (scene : Scene) (key : DocumentKey) (token : String) (v : Visit) (b : Stage) : Bool :=
  (match v.step.target? with
    | some (.workflow reference) =>
      match locate scene reference with
      | .ok (target, called) => target.keyOf called == ⟨key, "login"⟩
      | .error _ => false
    | _ => false) &&
  (Table.get? (outputKey .workflows "login" "token") b.inv.resolver.published).any (isText token)

structure LogsIn (scene : Scene) (key : DocumentKey) (token : String) (v : Visit) (b : Stage) :
    Prop where
  runs : ∃ reference target called, v.step.target? = some (.workflow reference) ∧
    locate scene reference = .ok (target, called) ∧ target.keyOf called = ⟨key, "login"⟩
  published : Table.get? (outputKey .workflows "login" "token") b.inv.resolver.published =
    some (.str token)

theorem LogsIn.of_logsIn {key : DocumentKey} {token : String} (h : logsIn scene key token v b = true) :
    LogsIn scene key token v b := by
  obtain ⟨hruns, hpublished⟩ := Bool.and_eq_true_iff.1 h
  obtain ⟨value, hvalue, htoken⟩ := (Option.any_eq_true _ _).1 hpublished
  rw [eq_of_isText htoken] at hvalue
  refine ⟨?_, hvalue⟩
  split at hruns
  · rename_i reference names
    split at hruns
    · rename_i target called found
      exact ⟨reference, target, called, names, found, beq_iff_eq.1 hruns⟩
    · cases hruns
  · cases hruns

structure Shared (d : Document) (registry : Registry) (trace : Trace) (w : Workflow) (v : Visit)
    (a : Stage) (v' : Visit) (b : Stage) : Prop where
  parsed : (Document.parse false none sharedTree).usable? = some d
  loaded : (sharedLoader.load d).run {} = (.ok registry, trace)
  opens : Opens prompt (firstCall (registry, trace)) w [] (opened (registry, trace))
  first : Turn prompt ⟨[], registry⟩ w (opened (registry, trace)) v a
  second : Turn prompt ⟨[], registry⟩ w a v' b
  own : LogsIn ⟨[], registry⟩ [] "own" v a
  nested : LogsIn ⟨[], registry⟩ ["flows"] "nested" v' b

theorem exists_shared : ∃ d registry trace w v a v' b,
    Shared d registry trace w v a v' b := by
  have hchecked : (Document.parse false none sharedTree).usable?.any (fun d =>
      (sharedLoaded d).any fun loaded => (loaded.1.document.workflow? "w").any fun w =>
        isPlain w && (advance? prompt ⟨[], loaded.1⟩ w (opened loaded)).any fun first =>
          logsIn ⟨[], loaded.1⟩ [] "own" first.1 first.2 &&
            (advance? prompt ⟨[], loaded.1⟩ w first.2).any fun second =>
              logsIn ⟨[], loaded.1⟩ ["flows"] "nested" second.1 second.2) = true := by
    decide +kernel
  obtain ⟨d, hd, hchecked⟩ := (Option.any_eq_true _ _).1 hchecked
  obtain ⟨⟨registry, trace⟩, hloaded, hchecked⟩ := (Option.any_eq_true _ _).1 hchecked
  obtain ⟨w, hw, hchecked⟩ := (Option.any_eq_true _ _).1 hchecked
  obtain ⟨hplain, hchecked⟩ := Bool.and_eq_true_iff.1 hchecked
  obtain ⟨⟨v, a⟩, hfirst, hchecked⟩ := (Option.any_eq_true _ _).1 hchecked
  obtain ⟨hown, hchecked⟩ := Bool.and_eq_true_iff.1 hchecked
  obtain ⟨⟨v', b⟩, hsecond, hnested⟩ := (Option.any_eq_true _ _).1 hchecked
  have load : (sharedLoader.load d).run {} = (.ok registry, trace) := by
    unfold sharedLoaded at hloaded
    split at hloaded
    · rename_i hrun
      obtain ⟨⟨⟩, ⟨⟩⟩ := Prod.mk.inj (Option.some.inj hloaded)
      exact hrun
    · cases hloaded
  have opens := opens_of_isPlain hw hplain
  exact ⟨d, registry, trace, w, v, a, v', b, hd, load, opens, turn_of_advance? hfirst,
    turn_of_advance? hsecond, .of_logsIn hown, .of_logsIn hnested⟩

theorem Shared.answers {d : Document} {registry : Registry} {trace : Trace} {v' : Visit}
    (shared : Shared d registry trace w v a v' b) :
    a.inv.resolver.Answers .workflows "login" "token" (.ok (some (.str "own"))) ∧
      b.inv.resolver.Answers .workflows "login" "token" (.ok (some (.str "nested"))) := by
  have truthful : a.inv.resolver.Truthful := (shared.first.onward shared.opens.truthful).1
  have truthful' : b.inv.resolver.Truthful := (shared.second.onward truthful).1
  have answers {r : Resolver} (truthful : r.Truthful) : r.Answers .workflows "login" "token"
      (.ok (Table.get? (outputKey .workflows "login" "token") r.published)) :=
    truthful.answers_plain rfl (by decide) (by decide) (by decide)
  have hown := answers truthful
  have hnested := answers truthful'
  rw [shared.own.published] at hown
  rw [shared.nested.published] at hnested
  exact ⟨hown, hnested⟩

/-- A step has run the `login` of this document, and the next one runs that of another document
only: the token of the first is gone. -/
theorem shared_id_overwritten :
    (Document.parse false none sharedTree).diagnostics = [] ∧
      ∃ d registry trace w v a v' b, Shared d registry trace w v a v' b ∧
        outputKey .workflows "login" "token" = "$workflows.login.outputs.token" ∧
        a.inv.resolver.Answers .workflows "login" "token" (.ok (some (.str "own"))) ∧
        b.inv.resolver.Answers .workflows "login" "token" (.ok (some (.str "nested"))) := by
  have hquiet : (Document.parse false none sharedTree).diagnostics.isEmpty = true := by
    decide +kernel
  obtain ⟨d, registry, trace, w, v, a, v', b, shared⟩ := exists_shared
  exact ⟨List.isEmpty_iff.1 hquiet, d, registry, trace, w, v, a, v', b, shared, by decide,
    shared.answers⟩

theorem latest_outputs_stand_shared :
    ∃ d registry trace w v a v' b, Shared d registry trace w v a v' b ∧
      (∃ result s', Comes prompt (firstCall (registry, trace)) result s') ∧
      ∃ log more, latest? "login" "token" log = some (.str "own") ∧
        latest? "login" "token" (log ++ more) = some (.str "nested") ∧
        Logged prompt ⟨[], registry⟩ w (opened (registry, trace)) [v] log a ∧
        Logged prompt ⟨[], registry⟩ w a [v'] more b := by
  obtain ⟨d, registry, trace, w, v, a, v', b, shared⟩ := exists_shared
  obtain ⟨hown, hnested⟩ := shared.answers
  obtain ⟨comes, -, stand⟩ := latest_outputs_stand prompt (firstCall (registry, trace))
  refine ⟨d, registry, trace, w, v, a, v', b, shared, ⟨_, _, comes _ _ rfl⟩, ?_⟩
  obtain ⟨-, visited⟩ := stand w [] _ shared.opens
  obtain ⟨log, logged, upholds⟩ := visited [v] a (.turn .start shared.first)
  obtain ⟨more, logged', tells, -⟩ := upholds.onward [v'] b (.turn .start shared.second)
  have reads {r : Resolver} {log : List Completion} {value : Json} (tells : r.Tells log)
      (h : r.Answers .workflows "login" "token" (.ok (some value))) :
      latest? "login" "token" log = some value := by
    have hlatest : r.Answers .workflows "login" "token" (.ok (latest? "login" "token" log)) :=
      tells.answers (by decide) (by decide) (by decide)
    exact Except.ok.inj ((hlatest none).symm.trans (h none))
  exact ⟨log, more, reads upholds.tells hown, reads tells hnested, logged, logged'⟩

end Run
end Arazzo
