import Arazzo.Proofs.Resolver.Frame
import Arazzo.Proofs.Run.Step

/-! What a step that fails leaves behind: what its resolver has learned, and the exchange with the
response to its request. Nothing is published before the success criteria hold. -/

namespace Arazzo

open Resolver

variable {ε α : Type}

namespace Session

/-- Beside the trace, all that may have changed is what the resolver remembers. -/
structure Untouched (z z' : Session) : Prop where
  learned : Learned z.resolver z'.resolver
  context : z'.context = z.context

/-- This is the exchange now, and nothing else of the context or of what is published is new. -/
structure LeftWith (exchange : Option Exchange) (z z' : Session) : Prop where
  learned : Learned z.resolver z'.resolver
  context : z'.context = { z.context with exchange }

variable {exchange : Option Exchange} {z z' z'' : Session}

namespace Untouched

theorem refl (z : Session) : Untouched z z := ⟨.refl z.resolver, rfl⟩

theorem trans (h : Untouched z z') (h' : Untouched z' z'') : Untouched z z'' :=
  ⟨h.learned.trans h'.learned, h'.context.trans h.context⟩

instance : Std.Refl Untouched := ⟨refl⟩

instance : Trans Untouched Untouched Untouched := ⟨trans⟩

theorem leftWith (h : Untouched z z') : LeftWith z.context.exchange z z' := ⟨h.learned, h.context⟩

end Untouched

namespace LeftWith

theorem trans (h : LeftWith exchange z z') (h' : Untouched z' z'') : LeftWith exchange z z'' :=
  ⟨h.learned.trans h'.learned, h'.context.trans h.context⟩

theorem exchange_eq (h : LeftWith exchange z z') : z'.context.exchange = exchange := by
  rw [h.context]

end LeftWith
end Session

open Session

namespace Stepping

theorem untouched_ofResolving {wrap : ε → RunFault} {work : Context → Resolving ε α}
    (h : ∀ context, Keeps Learned (work context)) : Keeps Untouched (ofResolving wrap work) :=
  fun z => ofResolving_leads <|
    (h z.context z.resolver).mono (fun _ _ hr => ⟨hr, rfl⟩) fun _ _ hr => ⟨hr, rfl⟩

end Stepping

def BuiltRequest.answered (built : BuiltRequest) (response : HttpResponse) : Exchange :=
  { built.exchange with
    status := response.status
    responseHeaders := response.headers
    responseBody := decodeBody response.body }

namespace Run

open Stepping

variable (env : Environment) (registry : Registry) (w : Workflow) (step : Step)

def receive : Stepping HttpResponse := do
  let built ← prepare env registry w step
  let response ← send env built.request
  modify fun z => { z with context := { z.context with exchange := some (built.answered response) } }
  return response

def judge : Stepping Bool :=
  ofResolving RunFault.criterion fun context => Criterion.allHold context step.successCriteria

/-- The request is answered, and the success criteria are found to hold of the answer. -/
def Meets (z : Session) : Prop :=
  ∃ response z₁ z₂, (receive env registry w step).run z = (.ok response, z₁) ∧
    (judge step).run z₁ = (.ok true, z₂)

/-- The step ends without success, or stops before its success criteria are found to hold. -/
def Unmet (z : Session) : Except (Stop RunFault) StepOutcome → Prop
  | .ok outcome => outcome.success = false
  | .error _ => ¬ Meets env registry w step z

theorem execute_eq : execute env registry w step = (do
    let response ← receive env registry w step
    conclude env registry w step (some response.status)) := by
  unfold execute receive
  simp only [bind_assoc, pure_bind]
  rfl

variable {env registry w step}

theorem untouched_judge : Keeps Untouched (judge step) :=
  untouched_ofResolving fun context => Criterion.keeps_allHold learned_resolve context _

theorem untouched_prepare : Keeps Untouched (prepare env registry w step) := by
  unfold prepare
  refine keeps_ofExcept.bind fun operation => keeps_ofExcept.bind fun parameters => ?_
  exact untouched_ofResolving fun context => Request.keeps_build learned_resolve _ _ _ _ _ context

theorem receive_leads (z : Session) :
    Leads (receive env registry w step) z
      (fun response z' => ∃ exchange : Exchange, exchange.responseHeaders = response.headers ∧
        LeftWith (some exchange) z z')
      fun _ z' => Untouched z z' := by
  unfold receive
  refine (untouched_prepare z).bind fun built z₁ h₁ => ?_
  have sent : Keeps Untouched (send env built.request) :=
    keeps_send (fun z _ => ⟨.refl z.resolver, rfl⟩) env _
  refine ((sent z₁).mono (fun _ _ h => h) fun _ _ h => h₁.trans h).bind fun response z₂ h₂ => ?_
  have h₂ : Untouched z z₂ := h₁.trans h₂
  refine .bind_modify (.of_pure ⟨built.answered response, rfl, h₂.learned, ?_⟩)
  rw [h₂.context]

/-- Unless its success criteria hold, a step is concluded without a trace in its session. -/
theorem conclude_untouched (status : Option Nat) (z : Session) :
    Leads (conclude env registry w step status) z
      (fun outcome z' => outcome.success = false → Untouched z z')
      fun _ z' => (∀ z₁, (judge step).run z ≠ (.ok true, z₁)) → Untouched z z' := by
  unfold conclude
  refine ((untouched_judge z).mono (fun _ _ h => h) fun _ _ h _ => h).bind_run
    fun success z₁ hjudged h₁ => ?_
  cases success with
  | true =>
    -- From here on no stop counts, and every end is a success.
    have onward {β : Type} (work : Stepping β) (z₂ : Session) : Leads work z₂ (fun _ _ => True)
        fun _ z' => (∀ z₁, (judge step).run z ≠ (.ok true, z₁)) → Untouched z z' :=
      .of_stops fun _ _ _ hnever => absurd hjudged (hnever z₁)
    refine (onward _ z₁).bind fun action z₂ _ => (onward _ z₂).bind fun _ z₃ _ => ?_
    exact .bind_modify (.of_pure fun hfailed => by cases hfailed)
  | false =>
    refine .bind_modify ?_
    have told (trace : Trace) : Untouched z { z₁ with trace } := ⟨h₁.learned, h₁.context⟩
    have chosen : Keeps Untouched
        (ofResolving id (failureAction registry.document.components w step)) :=
      untouched_ofResolving fun context => keeps_firstHolding learned_resolve context _
    refine ((chosen _).mono (fun _ _ h => h) fun _ _ h _ => (told _).trans h).bind
      fun action z₂ h₂ => ?_
    have h₂ : Untouched z z₂ := (told _).trans h₂
    cases action with
    | none => exact .of_throw fun _ => h₂
    | some action => exact .bind_get (.of_pure fun _ => h₂)

/--
A step whose execution fails publishes nothing and records no output. Of the context only the exchange
may be new, and this only when the request was answered.
-/
theorem execute_leaves_unpublished (env : Environment) (registry : Registry) (w : Workflow)
    (step : Step) (z z' : Session) (result : Except (Stop RunFault) StepOutcome)
    (hrun : (execute env registry w step).run z = (result, z'))
    (hfails : Unmet env registry w step z result) :
    (∃ exchange, LeftWith exchange z z') ∧
      (∀ response z₁, (receive env registry w step).run z = (.ok response, z₁) →
        LeftWith z₁.context.exchange z z') ∧
      ((∀ response z₁, (receive env registry w step).run z ≠ (.ok response, z₁)) →
        LeftWith z.context.exchange z z') := by
  rw [execute_eq] at hrun
  rcases hreceive : (receive env registry w step).run z with ⟨stop | response, z₁⟩
  · have untouched : Untouched z z₁ := (receive_leads z).of_error hreceive
    obtain ⟨-, rfl⟩ := Prod.mk.inj ((run_bind_error hreceive).symm.trans hrun)
    refine ⟨⟨_, untouched.leftWith⟩, fun response z₂ hok => ?_, fun _ => untouched.leftWith⟩
    cases hok
  · obtain ⟨exchange, -, left⟩ := (receive_leads z).of_ok hreceive
    rw [run_bind_ok hreceive] at hrun
    have untouched : Untouched z₁ z' := by
      cases result with
      | ok outcome => exact (conclude_untouched _ z₁).of_ok hrun hfails
      | error stop =>
        refine (conclude_untouched _ z₁).of_error hrun fun z₂ hjudged => ?_
        exact hfails ⟨response, z₁, z₂, hreceive, hjudged⟩
    have heard : LeftWith z₁.context.exchange z z' := by
      rw [left.exchange_eq]
      exact left.trans untouched
    refine ⟨⟨_, heard⟩, fun response' z₂ hok => ?_, fun hnever => absurd rfl (hnever response z₁)⟩
    obtain ⟨-, rfl⟩ := Prod.mk.inj hok
    exact heard

def shelf : Registry :=
  .mk
    { version := "1.0.1", info := {}, sourceDescriptions := [], workflows := [], components := none,
      extensions := [], sourcePath := none }
    none
    [⟨"api", "api.json",
      .obj [("paths", .obj [("/p", .obj [("get", .obj [("operationId", .str "get")])])])]⟩]
    []

def plain : Workflow :=
  { workflowId := "w", summary := none, description := none, inputs := none, dependsOn := []
    steps := [], successActions := [], failureActions := [], outputs := [], parameters := []
    extensions := [] }

def picky (operationId : String) : Step :=
  { stepId := "s", operationId := some operationId
    successCriteria := [⟨some "$statusCode", "200", some (.known .regex), []⟩]
    onFailure := [.concrete ⟨"stop", .finish, none, none, none, none, [], []⟩]
    outputs := [("o", "$statusCode")] }

def refusing : Environment :=
  { client := ⟨fun _ _ =>
      { latency := ⟨0⟩, result := .ok { status := 404, headers := [], body := [] } }⟩ }

def blank : Session :=
  { resolver := { document := shelf.document }, context := { workflowId := "w", inputs := .null } }

def refused (operationId : String) : Except (Stop RunFault) StepOutcome × Session :=
  (execute refusing shelf plain (picky operationId)).run blank

theorem exists_refused :
    (∃ outcome, (refused "get").1 = .ok outcome ∧ outcome.success = false) ∧
      ∃ stop, (refused "post").1 = .error stop := by
  have hfailed : ((refused "get").1.toOption.any (!·.success)) = true := by decide +kernel
  have hstopped : ((refused "post").1.toOption.isNone) = true := by decide +kernel
  constructor
  · rcases hrun : (refused "get").1 with stop | outcome
    · simp [hrun, Except.toOption] at hfailed
    · exact ⟨outcome, rfl, by simpa [hrun, Except.toOption] using hfailed⟩
  · rcases hrun : (refused "post").1 with stop | outcome
    · exact ⟨stop, rfl⟩
    · simp [hrun, Except.toOption] at hstopped

theorem execute_leaves_unpublished_refused :
    (∃ outcome z', (execute refusing shelf plain (picky "get")).run blank = (.ok outcome, z') ∧
        Unmet refusing shelf plain (picky "get") blank (.ok outcome) ∧
        ∃ exchange, LeftWith exchange blank z') ∧
      ∃ stop z', (execute refusing shelf plain (picky "post")).run blank = (.error stop, z') ∧
        Unmet refusing shelf plain (picky "post") blank (.error stop) ∧
        LeftWith none blank z' := by
  obtain ⟨⟨outcome, houtcome, hfailed⟩, stop, hstop⟩ := exists_refused
  have unheard (response : HttpResponse) (z₁ : Session) :
      (receive refusing shelf plain (picky "post")).run blank ≠ (.ok response, z₁) := by
    have hstopped : ((receive refusing shelf plain (picky "post")).run blank).1.toOption.isNone =
      true := by decide +kernel
    intro hok
    simp [hok, Except.toOption] at hstopped
  constructor
  · have hrun : (execute refusing shelf plain (picky "get")).run blank =
        (.ok outcome, (refused "get").2) := Prod.ext houtcome rfl
    exact ⟨outcome, _, hrun, hfailed,
      (execute_leaves_unpublished _ _ _ _ _ _ _ hrun hfailed).1⟩
  · have hrun : (execute refusing shelf plain (picky "post")).run blank =
        (.error stop, (refused "post").2) := Prod.ext hstop rfl
    have hfails : Unmet refusing shelf plain (picky "post") blank (.error stop) := by
      rintro ⟨response, z₁, z₂, hok, -⟩
      exact unheard response z₁ hok
    exact ⟨stop, _, hrun, hfails,
      (execute_leaves_unpublished _ _ _ _ _ _ _ hrun hfails).2.2 unheard⟩

end Run
end Arazzo
