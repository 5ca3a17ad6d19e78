import Arazzo.Proofs.Leads
import Arazzo.Run.Workflow

/-! What a step adds to the trace: at most one request, and an event that tells how it went. -/

namespace Arazzo

variable {ε α β : Type}

def Stop.Final (fault : ε → RunFault) : Stop ε → Prop
  | .failed error => fault error ≠ .unfinished
  | .expired => True
  | .unfinished => False

namespace Stepping

def Quiet (work : Stepping α) : Prop :=
  ∀ z : Session, Leads work z (fun _ z' => z'.trace = z.trace)
    fun stop z' => stop.Final id ∧ z'.trace = z.trace

theorem Quiet.of_pure (a : α) : Quiet (pure a) := fun _ => .of_pure rfl

theorem Quiet.bind {work : Stepping α} {next : α → Stepping β} (h : Quiet work)
    (hnext : ∀ a, Quiet (next a)) : Quiet (work >>= next) := fun z => by
  refine (h z).bind fun a z' hz => ?_
  exact (hnext a z').mono (fun _ _ hz' => hz'.trans hz) fun _ _ hz' => ⟨hz'.1, hz'.2.trans hz⟩

/-- Quiet work in front of other work only passes its own stops on. -/
theorem Quiet.followed {work : Stepping α} {next : α → Stepping β} {z : Session}
    {ok : β → Session → Prop} {stop : Stop RunFault → Session → Prop} (h : Quiet work)
    (hstop : ∀ reason z', reason.Final id → z'.trace = z.trace → stop reason z')
    (hnext : ∀ a z', z'.trace = z.trace → Leads (next a) z' ok stop) :
    Leads (work >>= next) z ok stop :=
  ((h z).mono (fun _ _ hz => hz) fun reason z' hz => hstop reason z' hz.1 hz.2).bind hnext

theorem Quiet.of_modify {f : Session → Session} (h : ∀ z, (f z).trace = z.trace) :
    Quiet (modify f) := fun z => .of_modify (h z)

theorem Quiet.mapM {f : α → Stepping β} (h : ∀ a, Quiet (f a)) (as : List α) :
    Quiet (as.mapM f) := by
  induction as with
  | nil => exact .of_pure []
  | cons a as ih =>
    rw [List.mapM_cons]
    exact (h a).bind fun b => ih.bind fun bs => .of_pure (b :: bs)

theorem quiet_ofExcept {wrap : ε → RunFault} {result : Except ε α}
    (h : ∀ e, result = .error e → wrap e ≠ .unfinished) : Quiet (ofExcept wrap result) := by
  intro z
  cases result with
  | ok a => exact .of_pure rfl
  | error e => exact .of_throw ⟨h e rfl, rfl⟩

theorem keeps_ofExcept {R : Session → Session → Prop} [Std.Refl R] {wrap : ε → RunFault}
    {result : Except ε α} : Keeps R (ofExcept wrap result) := by
  cases result with
  | ok a => exact .of_pure a
  | error e => exact .of_throw _

theorem ofResolving_leads {wrap : ε → RunFault} {work : Context → Resolving ε α} {z : Session}
    {ok : α → Session → Prop} {stop : Stop RunFault → Session → Prop}
    (h : Leads (work z.context) z.resolver (fun a r => ok a { z with resolver := r })
      fun e r => stop (.failed (wrap e)) { z with resolver := r }) :
    Leads (ofResolving wrap work) z ok stop := by
  rcases hrun : (work z.context).run z.resolver with ⟨e | a, r⟩
  · refine .of_run_error (.failed (wrap e)) { z with resolver := r } ?_ (h.of_error hrun)
    simp only [ofResolving, ExceptT.run_mk, hrun]
  · refine .of_run_ok a { z with resolver := r } ?_ (h.of_ok hrun)
    simp only [ofResolving, ExceptT.run_mk, hrun]

theorem quiet_ofResolving {wrap : ε → RunFault} {work : Context → Resolving ε α}
    (h : ∀ c r, Leads (work c) r (fun _ _ => True) fun e _ => wrap e ≠ .unfinished) :
    Quiet (ofResolving wrap work) := by
  intro z
  refine ofResolving_leads ((h z.context z.resolver).mono (fun a r _ => rfl) fun e r he => ?_)
  exact ⟨he, rfl⟩

theorem quiet_ofResolving_wrap {wrap : ε → RunFault} {work : Context → Resolving ε α}
    (h : ∀ e, wrap e ≠ .unfinished) : Quiet (ofResolving wrap work) :=
  quiet_ofResolving fun _ _ => .of_stops fun e _ _ => h e

end Stepping

namespace Run

open Stepping

theorem firstHolding_leads {resolve : Entry α → Except ReferenceError α}
    {criteria : α → List Criterion} (context : Context) (entries : List (Entry α)) (r : Resolver) :
    Leads (firstHolding resolve criteria context entries) r (fun _ _ => True)
      fun fault _ => fault ≠ .unfinished := by
  induction entries generalizing r with
  | nil => exact .of_pure trivial
  | cons entry rest ih =>
    unfold firstHolding
    cases resolve entry with
    | error error => exact .of_throw (by simp)
    | ok action =>
      have judged : Leads ((Criterion.allHold context (criteria action)).adapt RunFault.criterion) r
          (fun _ _ => True) fun fault _ => fault ≠ .unfinished :=
        .of_adapt (.of_stops fun _ _ _ => by simp)
      refine judged.bind fun holds r' _ => ?_
      cases holds with
      | true => exact .of_pure trivial
      | false => exact ih r'

theorem quiet_successAction (components : Option Components) (w : Workflow) (step : Step) :
    Quiet (ofResolving id (successAction components w step)) :=
  quiet_ofResolving fun c r => firstHolding_leads c _ r

theorem quiet_failureAction (components : Option Components) (w : Workflow) (step : Step) :
    Quiet (ofResolving id (failureAction components w step)) :=
  quiet_ofResolving fun c r => firstHolding_leads c _ r

theorem quiet_publishOutputs (stepId : String) (outputs : List (String × String)) :
    Quiet (publishOutputs stepId outputs) := by
  induction outputs with
  | nil => exact .of_pure []
  | cons output rest ih =>
    obtain ⟨name, expression⟩ := output
    unfold publishOutputs
    refine Quiet.bind (quiet_ofResolving_wrap (by simp)) fun value => ?_
    refine Quiet.bind (.of_modify ?_) fun _ => ih.bind fun values => .of_pure _
    exact fun _ => rfl

theorem quiet_publishStep (step : Step) : Quiet (publishStep step) :=
  (quiet_publishOutputs step.stepId step.outputs).bind fun _ => .of_modify fun _ => rfl

theorem quiet_delegatedInputs (scene : Scene) (w : Workflow) (step : Step) :
    Quiet (delegatedInputs scene w step) := by
  refine (quiet_ofExcept fun _ _ => by simp).bind fun parameters => ?_
  refine (Quiet.mapM (fun p => ?_) parameters).bind fun _ => .of_pure _
  exact (quiet_ofResolving_wrap (by simp)).bind fun _ => .of_pure _

theorem findOperation_error {documents : List InterfaceDocument} {step : Step} {fault : RunFault}
    (h : findOperation documents step = .error fault) : fault ≠ .unfinished := by
  have wrapped (found : Except LookupError Operation)
      (hfound : found.mapError .operation = .error fault) : fault ≠ .unfinished := by
    cases found <;> cases hfound
    simp
  unfold findOperation at h
  split at h
  · exact wrapped _ h
  · exact wrapped _ h
  · cases h
    simp

theorem quiet_prepare (env : Environment) (registry : Registry) (w : Workflow) (step : Step) :
    Quiet (prepare env registry w step) := by
  refine (quiet_ofExcept fun _ h => findOperation_error h).bind fun operation => ?_
  refine (quiet_ofExcept fun _ _ => by simp).bind fun parameters => ?_
  exact quiet_ofResolving_wrap (by simp)

def verdict (w : Workflow) (step : Step) (success : Bool) (status : Option Nat) : Event :=
  if success then .stepSucceeded w.workflowId step.stepId
  else .stepFailed w.workflowId step.stepId status

/-- Stopping early, a step is told of as failed or not at all. -/
def Untold (w : Workflow) (step : Step) (status : Option Nat) (before after : List Event) : Prop :=
  after = before ∨ after = before ++ [verdict w step false status]

theorem conclude_leads (env : Environment) (registry : Registry) (w : Workflow) (step : Step)
    (status : Option Nat) (z : Session) :
    Leads (conclude env registry w step status) z
      (fun outcome z' => outcome.status = status ∧
        z'.trace = z.trace.record (verdict w step outcome.success status))
      fun stop z' => stop.Final id ∧ z'.trace.requests = z.trace.requests ∧
        Untold w step status z.trace.events z'.trace.events := by
  unfold conclude
  have silent : ∀ (reason : Stop RunFault) (z' : Session), reason.Final id → z'.trace = z.trace →
      reason.Final id ∧ z'.trace.requests = z.trace.requests ∧
        Untold w step status z.trace.events z'.trace.events :=
    fun _ _ hfinal htrace => ⟨hfinal, by rw [htrace], .inl (by rw [htrace])⟩
  refine (quiet_ofResolving_wrap (by simp)).followed silent fun success z₁ h₁ => ?_
  cases success with
  | true =>
    refine (quiet_successAction _ w step).followed (fun reason z' hfinal h =>
      silent reason z' hfinal (h.trans h₁)) fun action z₂ h₂ => ?_
    refine (quiet_publishStep step).followed (fun reason z' hfinal h =>
      silent reason z' hfinal (h.trans (h₂.trans h₁))) fun _ z₃ h₃ => ?_
    refine .bind_modify (.of_pure ⟨rfl, ?_⟩)
    rw [h₃, h₂, h₁]
    rfl
  | false =>
    refine .bind_modify ?_
    have told : ∀ (reason : Stop RunFault) (z' : Session), reason.Final id →
        z'.trace = z₁.trace.record (verdict w step false status) →
        reason.Final id ∧ z'.trace.requests = z.trace.requests ∧
          Untold w step status z.trace.events z'.trace.events := by
      intro reason z' hfinal h
      rw [h, h₁]
      exact ⟨hfinal, rfl, .inr rfl⟩
    refine (quiet_failureAction _ w step).followed told fun action z₂ h₂ => ?_
    cases action with
    | none => exact .of_throw (told _ _ (by simp [Stop.Final]) h₂)
    | some action =>
      refine .bind_get (.of_pure ⟨rfl, ?_⟩)
      rw [h₂, h₁]
      rfl

theorem wait_clock (ε : Type) (limit : Option Nat) (d : Duration) (t : Trace) :
    ∃ clock, (t.wait limit d : Except (Stop ε) Unit × Trace) = (.ok (), { t with clock }) ∨
      (t.wait limit d : Except (Stop ε) Unit × Trace) = (.error .expired, { t with clock }) := by
  unfold Trace.wait
  cases limit with
  | none => exact ⟨_, .inl rfl⟩
  | some last =>
    by_cases h : t.clock + d.millisUp ≤ last
    · exact ⟨_, .inl (if_pos h)⟩
    · exact ⟨_, .inr (if_neg h)⟩

theorem wait_moves {limit : Option Nat} {d : Duration} {t trace : Trace}
    {result : Except (Stop ε) Unit} (h : t.wait limit d = (result, trace)) :
    ∃ clock, trace = { t with clock } := by
  obtain ⟨clock, hwait | hwait⟩ := wait_clock ε limit d t <;>
  · obtain ⟨-, rfl⟩ := Prod.mk.inj (h.symm.trans hwait)
    exact ⟨clock, rfl⟩

theorem wait_keeps {limit : Option Nat} {d : Duration} {t trace : Trace}
    {result : Except (Stop ε) Unit} (h : t.wait limit d = (result, trace)) :
    trace.events = t.events ∧ trace.requests = t.requests := by
  obtain ⟨clock, rfl⟩ := wait_moves h
  exact ⟨rfl, rfl⟩

theorem wait_error {limit : Option Nat} {d : Duration} {t trace : Trace} {stop : Stop ε}
    (h : t.wait limit d = (.error stop, trace)) : stop = .expired := by
  obtain ⟨clock, hwait | hwait⟩ := wait_clock ε limit d t
  · cases hwait.symm.trans h
  · cases hwait.symm.trans h
    rfl

theorem stepWait_of_wait {env : Environment} {d : Duration} {z : Session}
    {ok : Unit → Session → Prop} {stop : Stop RunFault → Session → Prop}
    (hok : ∀ trace, (z.trace.wait env.limit d : Except (Stop RunFault) Unit × Trace) =
      (.ok (), trace) → ok () { z with trace })
    (hstop : ∀ reason trace, (z.trace.wait env.limit d : Except (Stop RunFault) Unit × Trace) =
      (.error reason, trace) → stop reason { z with trace }) :
    Leads (Stepping.wait env d) z ok stop := by
  rcases hwait : (z.trace.wait env.limit d : Except (Stop RunFault) Unit × Trace) with
    ⟨reason | _, trace⟩
  · refine .of_run_error reason { z with trace } ?_ (hstop reason trace hwait)
    simp only [Stepping.wait, ExceptT.run_mk, hwait]
  · refine .of_run_ok () { z with trace } ?_ (hok trace hwait)
    simp only [Stepping.wait, ExceptT.run_mk, hwait]

theorem stepWait_leads (env : Environment) (d : Duration) (z : Session) :
    Leads (Stepping.wait env d) z (fun _ z' => ∃ clock, z'.trace = { z.trace with clock })
      fun stop z' => stop.Final id ∧ ∃ clock, z'.trace = { z.trace with clock } := by
  refine stepWait_of_wait (fun trace hwait => wait_moves hwait) fun reason trace hwait => ?_
  rw [wait_error hwait]
  exact ⟨trivial, wait_moves hwait⟩

theorem send_leads (env : Environment) (request : HttpRequest) (z : Session) :
    Leads (send env request) z
      (fun _ z' => ∃ clock, z'.trace = { z.trace.request request with clock })
      fun stop z' => stop.Final id ∧ ∃ clock, z'.trace = { z.trace.request request with clock } := by
  unfold send
  refine .bind_get (.bind_set ((stepWait_leads env _ _).bind fun _ z₁ h₁ => ?_))
  obtain ⟨clock, h₁⟩ := h₁
  have quiet : (Stepping.ofExcept RunFault.http
      (env.client.answer z.trace.requests request).result).Quiet :=
    quiet_ofExcept fun _ _ => by simp
  exact (quiet z₁).mono (fun _ _ h₂ => ⟨clock, h₂.trans h₁⟩)
    fun _ _ h₂ => ⟨h₂.1, clock, h₂.2.trans h₁⟩

theorem keeps_send {R : Session → Session → Prop} [Std.Refl R] [Trans R R R]
    (h : ∀ z trace, R z { z with trace }) (env : Environment) (request : HttpRequest) :
    Keeps R (send env request) := by
  intro z
  let reply := env.client.answer z.trace.requests request
  have waited : Keeps R (Stepping.wait env reply.latency) := fun z =>
    stepWait_of_wait (fun trace _ => h z trace) fun _ trace _ => h z trace
  have received : Keeps R (Stepping.ofExcept RunFault.http reply.result) := keeps_ofExcept
  have recorded : R z { z with trace := z.trace.request request } := h z _
  have onward {z' : Session} : R { z with trace := z.trace.request request } z' → R z z' :=
    Trans.trans recorded
  unfold send
  refine .bind_get (.bind_set ?_)
  exact ((waited.bind fun _ => received) _).mono (fun _ _ => onward) fun _ _ => onward

theorem execute_leads (env : Environment) (registry : Registry) (w : Workflow) (step : Step)
    (z : Session) :
    Leads (execute env registry w step) z
      (fun outcome z' => z'.trace.events =
          z.trace.events ++ [verdict w step outcome.success outcome.status] ∧
        ∃ request, z'.trace.requests = z.trace.requests ++ [request])
      fun stop z' => stop.Final id ∧
        (∃ status, Untold w step status z.trace.events z'.trace.events) ∧
        (z'.trace.requests = z.trace.requests ∨
          ∃ request, z'.trace.requests = z.trace.requests ++ [request]) := by
  unfold execute
  refine (quiet_prepare env registry w step).followed (fun reason z' hfinal h => ?_)
    fun built z₁ h₁ => ?_
  · exact ⟨hfinal, ⟨none, .inl (by rw [h])⟩, .inl (by rw [h])⟩
  refine ((send_leads env built.request z₁).mono (fun _ _ h => h) fun reason z' h => ?_).bind
    fun response z₂ h₂ => ?_
  · obtain ⟨hfinal, clock, h⟩ := h
    rw [h, h₁]
    exact ⟨hfinal, ⟨none, .inl rfl⟩, .inr ⟨_, rfl⟩⟩
  obtain ⟨clock, h₂⟩ := h₂
  refine .bind_modify ((conclude_leads env registry w step (some response.status) _).mono
    (fun outcome z' h => ?_) fun reason z' h => ?_)
  · obtain ⟨hstatus, h⟩ := h
    rw [h, hstatus]
    simp only [h₂, h₁]
    exact ⟨rfl, _, rfl⟩
  · obtain ⟨hfinal, hrequests, huntold⟩ := h
    simp only [h₂, h₁] at hrequests huntold
    exact ⟨hfinal, ⟨_, huntold⟩, .inr ⟨_, hrequests⟩⟩

end Run
end Arazzo
