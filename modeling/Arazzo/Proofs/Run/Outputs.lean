import Arazzo.Proofs.Resolver.Frame
import Arazzo.Proofs.Resolver.Outputs
import Arazzo.Proofs.Run.Calls

/-! Outputs in a run: what a step or a workflow has published is what its expressions stand for, until
the step or the workflow publishes again. -/

namespace Arazzo

open Resolver

variable {α ε : Type}

def KeyOf (scope : Scope) (id : String) (names : List String) (key : String) : Prop :=
  ∃ name ∈ names, key = outputKey scope id name

/-- Each name has the last one of its values. -/
def Published (scope : Scope) (id : String) (outputs published : Table Json) : Prop :=
  ∀ before name value after, outputs = before ++ (name, value) :: after → name ∉ Table.keys after →
    Table.get? (outputKey scope id name) published = some value

variable {scope scope' : Scope} {id id' name name' : String} {value : Json} {outputs : Table Json}
  {r r' : Resolver}

theorem Published.nil (scope : Scope) (id : String) (published : Table Json) :
    Published scope id [] published := by
  intro before name value after heq
  exact absurd heq (by simp)

theorem Published.cons (truthful : r.Truthful)
    (onward : Onward (KeyOf scope id (Table.keys outputs))
      (r.publish (outputKey scope id name) value) r')
    (h : Published scope id outputs r'.published) :
    Published scope id ((name, value) :: outputs) r'.published := by
  obtain ⟨-, -, hkept⟩ := onward truthful
  intro before name' value' after heq hlast
  cases before with
  | nil =>
    obtain ⟨hentry, rfl⟩ := List.cons.inj heq
    obtain ⟨rfl, rfl⟩ := Prod.mk.inj hentry
    -- No later output has this name, so none of them is published under this key.
    rw [hkept, Resolver.publish, Table.get?_insert, if_pos rfl]
    rintro ⟨other, hother, hkey⟩
    exact hlast (outputKey_name_inj hkey ▸ hother)
  | cons first before => exact h before name' value' after (List.cons.inj heq).2 hlast

theorem Resolver.Onward.publish_cons (h : Onward (KeyOf scope id (Table.keys outputs))
    (r.publish (outputKey scope id name) value) r') :
    Onward (KeyOf scope id (name :: Table.keys outputs)) r r' := by
  have first : Onward (KeyOf scope id (name :: Table.keys outputs)) r
      (r.publish (outputKey scope id name) value) :=
    .publish ⟨name, List.mem_cons_self .., rfl⟩
  refine first.trans (h.mono ?_)
  rintro key ⟨other, hother, hkey⟩
  exact ⟨other, List.mem_cons_of_mem _ hother, hkey⟩

theorem onward_publishWorkflow (id : String) (outputs : Table Json) (r : Resolver) :
    Onward (KeyOf .workflows id (Table.keys outputs)) r (r.publishWorkflow id outputs) := by
  induction outputs generalizing r with
  | nil => exact .refl _ r
  | cons output rest ih =>
    obtain ⟨name, value⟩ := output
    exact (ih (r.publish (outputKey .workflows id name) value)).publish_cons

theorem published_publishWorkflow (truthful : r.Truthful) (id : String) (outputs : Table Json) :
    Published .workflows id outputs (r.publishWorkflow id outputs).published := by
  induction outputs generalizing r with
  | nil => exact .nil _ id _
  | cons output rest ih =>
    obtain ⟨name, value⟩ := output
    exact .cons truthful (onward_publishWorkflow id rest _) (ih truthful)

theorem Published.onward {keys : String → Prop} (h : Published scope id outputs r.published)
    (truthful : r.Truthful) (onward : Onward keys r r')
    (hkeys : ∀ name, ¬ keys (outputKey scope id name)) :
    Published scope id outputs r'.published := by
  intro before name value after heq hlast
  rw [(onward truthful).2.2 _ (hkeys name)]
  exact h before name value after heq hlast

def CompletedKey (supplied : List Completion) (key : String) : Prop :=
  ∃ c ∈ supplied, ∃ name, key = outputKey .workflows c.key.workflowId name

theorem onward_publishAll (supplied : List Completion) (r : Resolver) :
    Onward (CompletedKey supplied) r (r.publishAll supplied) := by
  induction supplied generalizing r with
  | nil => exact .refl _ r
  | cons c rest ih =>
    have first : Onward (CompletedKey (c :: rest)) r
        (r.publishWorkflow c.key.workflowId c.outputs) := by
      refine (onward_publishWorkflow _ _ r).mono ?_
      rintro key ⟨name, -, hkey⟩
      exact ⟨c, List.mem_cons_self .., name, hkey⟩
    refine first.trans ((ih _).mono ?_)
    rintro key ⟨other, hother, hkey⟩
    exact ⟨other, List.mem_cons_of_mem _ hother, hkey⟩

theorem published_publishAll {earlier later : List Completion} {c : Completion}
    (truthful : r.Truthful) (hid : Validation.isIdText c.key.workflowId = true)
    (hids : ∀ other ∈ later, Validation.isIdText other.key.workflowId = true)
    (hlast : ∀ other ∈ later, other.key.workflowId ≠ c.key.workflowId) :
    Published .workflows c.key.workflowId c.outputs
      (r.publishAll (earlier ++ c :: later)).published := by
  have truthful₁ : (r.publishAll earlier).Truthful := (onward_publishAll earlier r truthful).1
  have published := published_publishWorkflow truthful₁ c.key.workflowId c.outputs
  have truthful₂ := (onward_publishWorkflow c.key.workflowId c.outputs _ truthful₁).1
  have split : r.publishAll (earlier ++ c :: later) =
      ((r.publishAll earlier).publishWorkflow c.key.workflowId c.outputs).publishAll later :=
    List.foldl_append
  rw [split]
  refine published.onward truthful₂ (onward_publishAll later _) ?_
  rintro name ⟨other, hother, name', hkey⟩
  exact hlast other hother (outputKey_inj hid (hids other hother) hkey).2.1.symm

namespace Stepping

variable {keys : String → Prop}

abbrev Publishes (keys : String → Prop) (work : Stepping α) : Prop :=
  Keeps (fun z z' : Session => Onward keys z.resolver z'.resolver) work

instance : Std.Refl fun z z' : Session => Onward keys z.resolver z'.resolver :=
  ⟨fun z => .refl keys z.resolver⟩

instance : Trans (fun z z' : Session => Onward keys z.resolver z'.resolver)
    (fun z z' : Session => Onward keys z.resolver z'.resolver)
    (fun z z' : Session => Onward keys z.resolver z'.resolver) :=
  ⟨Onward.trans⟩

theorem publishes_ofResolving {wrap : ε → RunFault} {work : Context → Resolving ε α}
    (h : ∀ context, Gentle (work context)) : Publishes keys (ofResolving wrap work) := by
  intro z
  have onward {r : Resolver} (h : Onward (fun _ => False) z.resolver r) :
      Onward keys z.resolver r :=
    h.mono fun _ => False.elim
  exact ofResolving_leads ((h z.context z.resolver).mono (fun _ _ => onward) fun _ _ => onward)

end Stepping

namespace Run

open Stepping

variable {env : Environment} {registry : Registry} {scene : Scene} {w : Workflow} {step : Step}

theorem publishOutputs_leads (stepId : String) (expressions : List (String × String)) (z : Session)
    (truthful : z.resolver.Truthful) :
    Leads (publishOutputs stepId expressions) z
      (fun outputs z' => Table.keys outputs = Table.keys expressions ∧
        Onward (KeyOf .steps stepId (Table.keys expressions)) z.resolver z'.resolver ∧
        Published .steps stepId outputs z'.resolver.published)
      fun _ _ => True := by
  induction expressions generalizing z with
  | nil => exact .of_pure ⟨rfl, .refl _ _, .nil _ _ _⟩
  | cons entry rest ih =>
    obtain ⟨name, expression⟩ := entry
    unfold publishOutputs
    have resolved : Stepping.Publishes (fun _ => False) (ofResolving RunFault.resolve fun context =>
        resolveValue (some context) (.str expression)) :=
      publishes_ofResolving fun context => keeps_resolveValue gentle_resolve _ _
    refine (resolved z).forget.bind fun value z₁ h₁ => ?_
    have truthful₁ : z₁.resolver.Truthful := (h₁ truthful).1
    refine .bind_modify ?_
    refine (ih { z₁ with resolver := z₁.resolver.publish (outputKey .steps stepId name) value }
      truthful₁).bind fun outputs z₂ hrest => ?_
    obtain ⟨hkeys, onward, published⟩ := hrest
    refine .of_pure ⟨?_, ?_, ?_⟩
    · exact congrArg (name :: ·) hkeys
    · rw [← hkeys] at onward
      have gone := onward.publish_cons
      rw [hkeys] at gone
      exact (h₁.mono fun _ => False.elim).trans gone
    · rw [← hkeys] at onward
      exact .cons truthful₁ onward published

def Records (step : Step) (context : Context) (published : Table Json) : Prop :=
  ∃ outputs, Table.get? step.stepId context.stepOutputs = some outputs ∧
    Table.keys outputs = Table.keys step.outputs ∧ Published .steps step.stepId outputs published

def StepKey (step : Step) (success : Bool) (key : String) : Prop :=
  success = true ∧ KeyOf .steps step.stepId (Table.keys step.outputs) key

theorem publishStep_leads (step : Step) (z : Session) (truthful : z.resolver.Truthful) :
    Leads (publishStep step) z
      (fun _ z' => Onward (StepKey step true) z.resolver z'.resolver ∧
        Records step z'.context z'.resolver.published)
      fun _ _ => True := by
  unfold publishStep
  refine (publishOutputs_leads step.stepId step.outputs z truthful).bind fun outputs z₁ hall => ?_
  obtain ⟨hkeys, onward, published⟩ := hall
  refine .of_modify ⟨?_, outputs, ?_, hkeys, published⟩
  · exact onward.mono fun key hkey => ⟨rfl, hkey⟩
  · rw [Table.get?_insert, if_pos rfl]

/-- What the conclusion of a step leaves published. -/
structure Leaves (step : Step) (outcome : StepOutcome) (z z' : Session) : Prop where
  onward : Onward (StepKey step outcome.success) z.resolver z'.resolver
  records : outcome.success = true → Records step z'.context z'.resolver.published

theorem conclude_leaves (status : Option Nat) (z : Session) (truthful : z.resolver.Truthful) :
    Leads (conclude env registry w step status) z (fun outcome z' => Leaves step outcome z z')
      fun _ _ => True := by
  have gentle {wrap : RunFault → RunFault} {β : Type} {work : Context → Resolving RunFault β}
      (h : ∀ context, Gentle (work context)) (z : Session) :
      Leads (ofResolving wrap work) z
        (fun _ z' => Onward (fun _ => False) z.resolver z'.resolver) fun _ _ => True :=
    (publishes_ofResolving h z).forget
  have judged : Stepping.Publishes (fun _ => False) (ofResolving RunFault.criterion fun context =>
      Criterion.allHold context step.successCriteria) :=
    publishes_ofResolving fun context => Criterion.keeps_allHold gentle_resolve context _
  unfold conclude
  refine (judged z).forget.bind fun success z₁ h₁ => ?_
  cases success with
  | true =>
    refine (gentle (fun context => keeps_firstHolding gentle_resolve context _) z₁).bind
      fun action z₂ h₂ => ?_
    have h₂ := h₁.trans h₂
    refine (publishStep_leads step z₂ (h₂ truthful).1).bind fun _ z₃ hpublished => ?_
    obtain ⟨h₃, records⟩ := hpublished
    refine .bind_modify (.of_pure ⟨?_, fun _ => records⟩)
    exact (h₂.mono fun _ => False.elim).trans h₃
  | false =>
    refine .bind_modify ?_
    refine (gentle (fun context => keeps_firstHolding gentle_resolve context _) _).bind
      fun action z₂ h₂ => ?_
    cases action with
    | none => exact .of_throw trivial
    | some action =>
      refine .bind_get (.of_pure ⟨?_, fun hsuccess => ?_⟩)
      · exact (h₁.trans h₂).mono fun _ => False.elim
      · cases hsuccess

theorem publishes_receive {keys : String → Prop} (env : Environment) (registry : Registry)
    (w : Workflow) (step : Step) : Stepping.Publishes keys (receive env registry w step) := by
  have prepared : Stepping.Publishes keys (prepare env registry w step) := by
    unfold prepare
    refine keeps_ofExcept.bind fun operation => keeps_ofExcept.bind fun parameters => ?_
    exact publishes_ofResolving fun context => Request.keeps_build gentle_resolve _ _ _ _ _ context
  have sent (request : HttpRequest) : Stepping.Publishes keys (send env request) :=
    keeps_send (fun z _ => .refl _ z.resolver) env request
  unfold receive
  refine prepared.bind fun built => (sent built.request).bind fun response => ?_
  exact (Keeps.of_modify fun z => .refl _ z.resolver).bind fun _ => .of_pure _

theorem publishes_delegatedInputs {keys : String → Prop} (scene : Scene) (w : Workflow)
    (step : Step) : Stepping.Publishes keys (delegatedInputs scene w step) := by
  unfold delegatedInputs
  refine keeps_ofExcept.bind fun parameters => ?_
  refine (Keeps.mapM (fun p => ?_) parameters).bind fun _ => .of_pure _
  exact (publishes_ofResolving fun context => keeps_resolveValue gentle_resolve _ _).bind
    fun _ => .of_pure _

/-- A key that an execution of the step may publish under: of its own outputs if it succeeds, and of
the workflow that it runs. -/
def StepPublishes (scene : Scene) (step : Step) (success : Bool) (key : String) : Prop :=
  StepKey step success key ∨ ∃ reference target called name,
    step.target? = some (.workflow reference) ∧ locate scene reference = .ok (target, called) ∧
      key = outputKey .workflows called.workflowId name

def Visit.Publishes (scene : Scene) (v : Visit) : String → Prop :=
  StepPublishes scene v.step v.outcome.success

/-- What an execution leaves published in its invocation. -/
structure Delivers (env : Environment) (scene : Scene) (w : Workflow) (a : Stage) (v : Visit)
    (inv : Invocation) : Prop where
  onward : Onward (v.Publishes scene) a.inv.resolver inv.resolver
  records : v.outcome.success = true → Records v.step inv.context inv.resolver.published
  called : ∀ reference, v.step.target? = some (.workflow reference) → ∃ c inv₁ outputs s,
    Delegates scene w a v.step c inv₁ ∧ c.run env = (.ok outputs, s) ∧
      Published .workflows c.workflowId outputs inv.resolver.published

variable {a b start : Stage} {c : Call} {v : Visit} {inv : Invocation} {s : RunState}
  {status : Option Nat} {z : Session} {history : List Visit} {supplied : List Completion}

theorem not_stepKey_workflows {success : Bool} (step : Step) (id name : String) :
    ¬ StepKey step success (outputKey .workflows id name) := by
  rintro ⟨-, other, -, hkey⟩
  cases (outputKey_scope_inj hkey).1

theorem Delegates.onward (delegates : Delegates scene w a step c inv) :
    Onward (fun _ => False) a.inv.resolver inv.resolver := by
  have asked : Leads (onStep w.workflowId step.stepId a.inv (delegatedInputs scene w step))
      (a.started scene w step)
      (fun result _ => Onward (fun _ => False) a.inv.resolver result.2.resolver) fun _ _ => True :=
    onStep_leads (fun _ _ hrun => (publishes_delegatedInputs scene w step _).of_ok hrun)
      fun _ _ _ => trivial
  exact asked.of_ok delegates.asked

theorem Performs.onward (performs : Performs env scene w a step status z s) :
    Onward (StepPublishes scene step false) a.inv.resolver z.resolver := by
  cases performs with
  | operation _ _ answered => exact (publishes_receive env scene.registry w step _).of_ok answered
  | workflow delegates _ =>
    obtain ⟨reference, names, called, found, named⟩ := delegates.names
    refine (delegates.onward.mono fun _ => False.elim).trans ((onward_publishWorkflow _ _ _).mono ?_)
    rintro key ⟨name, -, hkey⟩
    exact .inr ⟨reference, _, called, name, names, found, named ▸ hkey⟩

theorem Executes.delivers (executes : Executes env scene w a v inv s)
    (truthful : a.inv.resolver.Truthful) : Delivers env scene w a v inv := by
  obtain ⟨status, z, s₀, performs, concluded, -⟩ := executes.concludes
  have truthful' : z.resolver.Truthful := (performs.onward truthful).1
  have leaves := (conclude_leaves status z truthful').of_ok concluded
  refine ⟨?_, leaves.records, fun reference names => ?_⟩
  · refine (performs.onward.mono ?_).trans (leaves.onward.mono fun _ => .inl)
    rintro key (⟨hfalse, -⟩ | hcalled)
    · cases hfalse
    · exact .inr hcalled
  · cases performs with
    | operation calls _ _ => exact absurd names (calls reference)
    | @workflow c inv₁ outputs _ delegates ran =>
      have truthful₁ : inv₁.resolver.Truthful := (delegates.onward truthful).1
      have published := published_publishWorkflow truthful₁ c.workflowId outputs
      exact ⟨c, inv₁, outputs, _, delegates, ran,
        published.onward truthful' leaves.onward (not_stepKey_workflows v.step _)⟩

theorem Turn.onward (turn : Turn env scene w a v b) :
    Onward (v.Publishes scene) a.inv.resolver b.inv.resolver := by
  obtain ⟨s, executes⟩ := turn.executes
  exact fun truthful => (executes.delivers truthful).onward truthful

theorem Visited.onward (before : Visited env scene w start history b) :
    Onward (fun key => ∃ v ∈ history, v.Publishes scene key) start.inv.resolver b.inv.resolver := by
  induction before with
  | start => exact .refl _ _
  | turn before turn ih =>
    refine (ih.mono ?_).trans (turn.onward.mono ?_)
    · rintro key ⟨v, hv, hkey⟩
      exact ⟨v, List.mem_append_left _ hv, hkey⟩
    · rintro key hkey
      exact ⟨_, List.mem_append_right _ (List.mem_singleton_self _), hkey⟩

theorem Opens.truthful (opens : Opens env c w supplied a) : a.inv.resolver.Truthful := by
  rw [opens.publishes.2]
  exact (onward_publishAll supplied _ (truthful_nil _ _)).1

/-- As the invocation goes on from here, the key stands for the value in every context until the
same key is published again. -/
def Retained (env : Environment) (scene : Scene) (w : Workflow) (inv : Invocation) (scope : Scope)
    (id name : String) (value : Json) : Prop :=
  ∀ bound retries index s later b, Visited env scene w ⟨bound, inv, retries, index, s⟩ later b →
    (∀ v ∈ later, ¬ v.Publishes scene (outputKey scope id name)) →
    b.inv.resolver.Answers scope id name (.ok (some value))

theorem retained_of_published (truthful : inv.resolver.Truthful)
    (hscope : scope.publishes = true) (hid : Validation.isIdText id = true)
    (hname : Validation.isKeyText name = true) (hdot : '.' ∉ name.toList)
    (h : Table.get? (outputKey scope id name) inv.resolver.published = some value) :
    Retained env scene w inv scope id name value := by
  intro bound retries index s later b before hnone
  obtain ⟨truthful', -, hkept⟩ := before.onward truthful
  have hkey : Table.get? (outputKey scope id name) b.inv.resolver.published = some value := by
    have hnever : ¬ ∃ v ∈ later, v.Publishes scene (outputKey scope id name) := by
      rintro ⟨v, hv, hpublishes⟩
      exact hnone v hv hpublishes
    rw [hkept _ hnever]
    exact h
  rw [← hkey]
  exact truthful'.answers_plain hscope hid hname hdot

end Run
end Arazzo
