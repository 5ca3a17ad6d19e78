import Arazzo.Proofs.Run.Goto

/-! How long a run takes. Its deadline counts from when the sources are loaded: from then on nothing
is sent after it, and the run is over by it. What loading itself takes comes on top. -/

namespace Arazzo

variable {α ε : Type}

namespace Trace

variable {first last first' last' : Nat} {limit : Option Nat} {t t' t'' : Trace}

def Sends (first last : Nat) (t t' : Trace) : Prop :=
  ∃ sent : List (HttpRequest × Nat), t'.requests = t.requests ++ sent.map Prod.fst ∧
    t'.sentAt = t.sentAt ++ sent.map Prod.snd ∧
    ∀ request ∈ sent, first ≤ request.2 ∧ request.2 ≤ last

theorem Sends.nothing (hrequests : t'.requests = t.requests) (hsentAt : t'.sentAt = t.sentAt) :
    Sends first last t t' :=
  ⟨[], by simpa using hrequests, by simpa using hsentAt, by simp⟩

theorem Sends.mono (h : Sends first last t t') (hfirst : first' ≤ first) (hlast : last ≤ last') :
    Sends first' last' t t' := by
  obtain ⟨sent, hrequests, hsentAt, hbetween⟩ := h
  refine ⟨sent, hrequests, hsentAt, fun request hrequest => ?_⟩
  obtain ⟨hafter, hbefore⟩ := hbetween request hrequest
  exact ⟨Nat.le_trans hfirst hafter, Nat.le_trans hbefore hlast⟩

theorem Sends.trans (h : Sends first last t t') (h' : Sends first last t' t'') :
    Sends first last t t'' := by
  obtain ⟨sent, hrequests, hsentAt, hbetween⟩ := h
  obtain ⟨sent', hrequests', hsentAt', hbetween'⟩ := h'
  refine ⟨sent ++ sent', ?_, ?_, fun request hrequest => ?_⟩
  · rw [hrequests', hrequests, List.map_append, List.append_assoc]
  · rw [hsentAt', hsentAt, List.map_append, List.append_assoc]
  · rcases List.mem_append.1 hrequest with hrequest | hrequest
    · exact hbetween request hrequest
    · exact hbetween' request hrequest

theorem sends_request (request : HttpRequest) (clock : Nat) (t : Trace) :
    Sends t.clock t.clock t { t.request request with clock } :=
  ⟨[(request, t.clock)], rfl, rfl, by simp⟩

/-- The clock goes on, not beyond a limit that it is within, and what is sent is sent meanwhile. -/
structure Timely (limit : Option Nat) (t t' : Trace) : Prop where
  onward : t.clock ≤ t'.clock
  within : ∀ last, limit = some last → t.clock ≤ last → t'.clock ≤ last
  sends : Sends t.clock t'.clock t t'

namespace Timely

theorem of_eq (hclock : t'.clock = t.clock) (hrequests : t'.requests = t.requests)
    (hsentAt : t'.sentAt = t.sentAt) : Timely limit t t' where
  onward := Nat.le_of_eq hclock.symm
  within _ _ h := hclock ▸ h
  sends := .nothing hrequests hsentAt

theorem refl (t : Trace) : Timely limit t t := of_eq rfl rfl rfl

theorem trans (h : Timely limit t t') (h' : Timely limit t' t'') : Timely limit t t'' where
  onward := Nat.le_trans h.onward h'.onward
  within last hlimit hlast := h'.within last hlimit (h.within last hlimit hlast)
  sends := (h.sends.mono (Nat.le_refl _) h'.onward).trans (h'.sends.mono h.onward (Nat.le_refl _))

instance : Trans (Timely limit) (Timely limit) (Timely limit) := ⟨trans⟩

theorem wait {d : Duration} {result : Except (Stop ε) Unit}
    (h : t.wait limit d = (result, t')) : Timely limit t t' := by
  unfold Trace.wait at h
  cases limit with
  | none =>
    obtain ⟨-, rfl⟩ := Prod.mk.inj h
    exact ⟨Nat.le_add_right .., by simp, .nothing rfl rfl⟩
  | some last =>
    dsimp only at h
    split at h
    · rename_i hlater
      obtain ⟨-, rfl⟩ := Prod.mk.inj h
      refine ⟨Nat.le_add_right .., ?_, .nothing rfl rfl⟩
      rintro _ ⟨⟩ -
      exact hlater
    · obtain ⟨-, rfl⟩ := Prod.mk.inj h
      refine ⟨Nat.le_max_left .., ?_, .nothing rfl rfl⟩
      rintro _ ⟨⟩ hwithin
      exact Nat.max_le.2 ⟨hwithin, Nat.le_refl _⟩

end Timely
end Trace

open Trace

namespace Stepping

variable {limit : Option Nat} {work : Stepping α}

abbrev Timely (limit : Option Nat) (work : Stepping α) : Prop :=
  Keeps (fun z z' : Session => Trace.Timely limit z.trace z'.trace) work

instance : Std.Refl fun z z' : Session => Trace.Timely limit z.trace z'.trace :=
  ⟨fun z => .refl z.trace⟩

instance : Trans (fun z z' : Session => Trace.Timely limit z.trace z'.trace)
    (fun z z' : Session => Trace.Timely limit z.trace z'.trace)
    (fun z z' : Session => Trace.Timely limit z.trace z'.trace) :=
  ⟨Trace.Timely.trans⟩

theorem Quiet.timely (h : work.Quiet) : Timely limit work := by
  intro z
  have unmoved {z' : Session} (htrace : z'.trace = z.trace) : z.trace.Timely limit z'.trace := by
    rw [htrace]
    exact .refl z.trace
  exact (h z).mono (fun _ _ => unmoved) fun _ _ hstop => unmoved hstop.2

theorem timely_emit (event : Event) : Timely limit (emit event) :=
  .of_modify fun _ => .of_eq rfl rfl rfl

theorem timely_wait (env : Environment) (d : Duration) : Timely env.limit (wait env d) :=
  fun _ => Run.stepWait_of_wait (fun _ => .wait) fun _ _ => .wait

theorem timely_send (env : Environment) (request : HttpRequest) :
    Timely env.limit (send env request) := by
  intro z
  have sent : z.trace.Timely env.limit (z.trace.request request) :=
    ⟨Nat.le_refl _, fun _ _ h => h, sends_request request z.trace.clock z.trace⟩
  unfold send
  refine .bind_get (.bind_set ?_)
  let reply := env.client.answer z.trace.requests request
  have received : Timely env.limit (Stepping.ofExcept RunFault.http reply.result) :=
    (quiet_ofExcept (by simp)).timely
  have replied := (timely_wait env reply.latency).bind fun _ => received
  exact (replied _).mono (fun _ _ => sent.trans) fun _ _ => sent.trans

end Stepping

namespace Run

open Stepping

variable {env : Environment} {registry : Registry} {w : Workflow} {step : Step} {s s' : RunState}

theorem timely_conclude (limit : Option Nat) (status : Option Nat) :
    Stepping.Timely limit (conclude env registry w step status) := by
  unfold conclude
  refine (quiet_ofResolving_wrap (by simp)).timely.bind fun success => ?_
  cases success with
  | true =>
    refine (quiet_successAction _ w step).timely.bind fun action => ?_
    refine (quiet_publishStep step).timely.bind fun _ => ?_
    exact (timely_emit _).bind fun _ => .of_pure _
  | false =>
    refine (timely_emit _).bind fun _ => (quiet_failureAction _ w step).timely.bind fun action => ?_
    cases action with
    | none => exact .of_throw _
    | some action => exact fun _ => .bind_get (.of_pure (.refl _))

theorem timely_execute (env : Environment) (registry : Registry) (w : Workflow) (step : Step) :
    Stepping.Timely env.limit (execute env registry w step) := by
  unfold execute
  refine (quiet_prepare env registry w step).timely.bind fun built => ?_
  refine (timely_send env built.request).bind fun response => ?_
  exact (Keeps.of_modify fun _ => .refl _).bind fun _ => timely_conclude _ _

theorem Judges.timely {scene : Scene} {result : Except (Stop RunFault) StepOutcome}
    {session : Session} (h : Judges env scene w step s result session) :
    s.trace.Timely env.limit session.trace := by
  have ended {work : Stepping StepOutcome} {inv : Invocation} (timely : work.Timely env.limit)
      (run : work.run ⟨s.trace, inv.resolver, inv.context⟩ = (result, session)) :
      s.trace.Timely env.limit session.trace := by
    cases result with
    | ok outcome => exact (timely _).of_ok run
    | error stop => exact (timely _).of_error run
  cases h with
  | operation fresh run => exact ended (timely_execute env scene.registry w step) run
  | delegation run => exact ended (timely_conclude _ _) run

theorem Move.timely (h : Move env registry s s') : s.trace.Timely env.limit s'.trace := by
  cases h with
  | judge attempt judged => exact judged.timely
  | sleep run => exact .wait run
  | _ => exact .of_eq rfl rfl rfl

theorem Last.timely {stop : Stop RunError} (h : Last env stop s s') :
    s.trace.Timely env.limit s'.trace := by
  cases h with
  | judge judged => exact judged.timely
  | sleep run => exact .wait run
  | _ => exact .of_eq rfl rfl rfl

theorem timely_withSources (env : Environment) (registry : Registry) (workflowId : String)
    (inputs : Json) (trace : Trace) :
    trace.Timely (env.limitedFrom trace.clock).limit
      (withSources env registry workflowId inputs trace).2 := by
  have performed : trace.Timely (env.limitedFrom trace.clock).limit
      (perform env (enough env.config registry) registry workflowId inputs trace).2.trace :=
    perform_induction (fun s => trace.Timely (env.limitedFrom trace.clock).limit s.trace)
      (.of_eq rfl rfl rfl) (fun _ _ move h => h.trans move.timely)
      fun _ _ _ last h => h.trans last.timely
  rw [(withSources_of_perform env registry workflowId inputs trace).1]
  exact performed.trans (.of_eq rfl rfl rfl)

end Run

namespace Trace

/-- Loading takes time for what is fetched only. -/
structure Fetches (t t' : Trace) : Prop extends Timely none t t' where
  still : t'.requests = t.requests → t'.clock = t.clock

namespace Fetches

variable {t t' t'' : Trace}

theorem refl (t : Trace) : Fetches t t := ⟨.refl t, fun _ => rfl⟩

theorem trans (h : Fetches t t') (h' : Fetches t' t'') : Fetches t t'' := by
  refine ⟨h.toTimely.trans h'.toTimely, fun hsame => ?_⟩
  obtain ⟨sent, hrequests, -⟩ := h.sends
  obtain ⟨sent', hrequests', -⟩ := h'.sends
  rw [hrequests', hrequests, List.append_assoc] at hsame
  have nothing := List.append_right_eq_self.1 hsame
  obtain ⟨hsent, hsent'⟩ := List.append_eq_nil_iff.1 nothing
  rw [hsent, List.append_nil] at hrequests
  rw [hsent', List.append_nil] at hrequests'
  exact (h'.still hrequests').trans (h.still hrequests)

instance : Std.Refl Fetches := ⟨refl⟩

instance : Trans Fetches Fetches Fetches := ⟨trans⟩

theorem fetch (loader : Loader) (request : HttpRequest) (t : Trace) :
    Fetches t ((loader.fetch request).run t).2 where
  onward := Nat.le_add_right ..
  within := by simp
  sends := (sends_request request _ t).mono (Nat.le_refl _) (Nat.le_add_right ..)
  still h := by
    have longer : t.requests ++ [request] = t.requests := h
    simp at longer

end Fetches
end Trace

namespace Loader

variable {loader : Loader}

theorem fetches_readRemote (loader : Loader) (url : Url) (t : Trace) :
    Fetches t ((loader.readRemote url).run t).2 := by
  let request : HttpRequest := ⟨"GET", url, [], [], loader.timeout, loader.maxBytes⟩
  have fetched := Fetches.fetch loader request t
  unfold readRemote
  rw [StateT.run_bind]
  rcases hfetch : (loader.fetch request).run t with ⟨error | response, t'⟩
  · rw [hfetch] at fetched
    exact fetched
  · rw [hfetch] at fetched
    change Fetches t (StateT.run (σ := Trace) (m := Id) (ite _ _ _) t').2
    split
    · exact fetched
    · exact fetched

theorem fetches_readText (loader : Loader) (location : Location) (t : Trace) :
    Fetches t ((loader.readText location).run t).2 := by
  cases location with
  | remote url => exact fetches_readRemote loader url t
  | file path => exact ⟨.of_eq rfl rfl rfl, fun _ => rfl⟩

theorem fetches_tree (visiting : List String) (source : SourceDescription) (location : Location) :
    Keeps Fetches (loader.tree visiting source location) := by
  intro t
  unfold tree
  split
  · exact .of_pure (.refl t)
  · dsimp only
    split
    · exact .of_throw (.refl t)
    · refine .bind_lift ?_
      have fetched := fetches_readText loader location t
      split
      · exact .of_pure fetched
      · exact .of_throw fetched

theorem fetches_addSource {load : Document → Location → List String → Loading Registry}
    (h : ∀ inner location visiting, Keeps Fetches (load inner location visiting))
    (base : Option Location) (visiting : List String) (contents : Contents)
    (source : SourceDescription) :
    Keeps Fetches (loader.addSource base visiting load contents source) := by
  unfold addSource
  dsimp only
  refine (fetches_tree _ _ _).bind fun tree => ?_
  cases source.kind with
  | openapi => exact .of_pure _
  | arazzo =>
    exact (Keeps.of_except _).bind fun inner => (h inner _ _).bind fun registry => .of_pure _

theorem fetches_loadFrom (depth : Nat) (d : Document) (location : Option Location)
    (visiting : List String) : Keeps Fetches (loader.loadFrom depth d location visiting) := by
  induction depth generalizing d location visiting with
  | zero =>
    unfold loadFrom
    exact .of_throw _
  | succ depth ih =>
    unfold loadFrom
    refine (Keeps.foldlM (fun contents source => ?_) _ _).bind fun contents => .of_pure _
    exact fetches_addSource (fun inner location visiting => ih inner (some location) visiting)
      location visiting contents source

theorem fetches_load (loader : Loader) (d : Document) (t : Trace) :
    Fetches t ((loader.load d).run t).2 := by
  have loads : Keeps Fetches (loader.load d) := fetches_loadFrom depthLimit d _ _
  rcases hrun : (loader.load d).run t with ⟨error | registry, t'⟩
  · exact (loads t).of_error hrun
  · exact (loads t).of_ok hrun

end Loader

namespace Run

/--
A run with a deadline sends nothing later than that after its sources are loaded, and is over by
then. Fetching the sources is not part of it; a run that fetches none keeps its deadline as a whole.
-/
theorem document_within_deadline (env : Environment) (loader : Loader) (d : Document)
    (workflowId : String) (inputs : Json) (trace : Trace) (deadline : Duration)
    (hdeadline : env.config.deadline = some deadline) :
    let loaded := ((loader.load d).run trace).2
    let ending := (document env loader d workflowId inputs trace).2
    (Sends trace.clock loaded.clock trace loaded ∧
      Sends loaded.clock (loaded.clock + deadline.millisUp) loaded ending ∧
      ending.clock ≤ loaded.clock + deadline.millisUp) ∧
    (loaded.requests = trace.requests →
      Sends trace.clock (trace.clock + deadline.millisUp) trace ending ∧
        ending.clock ≤ trace.clock + deadline.millisUp) := by
  intro loaded ending
  have fetches : Fetches trace loaded := Loader.fetches_load loader d trace
  have timely : loaded.Timely (some (loaded.clock + deadline.millisUp)) ending := by
    rcases document_loaded env loader d workflowId inputs trace with
      ⟨reason, trace', hload, hrun⟩ | ⟨registry, trace', hload, hrun⟩
    · have hsame : ending = loaded := by simp only [ending, loaded, hrun, hload]
      rw [hsame]
      exact .refl loaded
    · have hlimit : (env.limitedFrom trace'.clock).limit =
          some (trace'.clock + deadline.millisUp) := by
        simp only [Environment.limitedFrom, hdeadline, Option.map_some]
      have run := timely_withSources env registry workflowId inputs trace'
      rw [hlimit] at run
      simp only [ending, loaded, hrun, hload]
      exact run
  have ended : ending.clock ≤ loaded.clock + deadline.millisUp :=
    timely.within _ rfl (Nat.le_add_right ..)
  have sends := timely.sends.mono (Nat.le_refl _) ended
  refine ⟨⟨fetches.sends, sends, ended⟩, fun hnone => ?_⟩
  have hclock : loaded.clock = trace.clock := fetches.still hnone
  rw [hclock] at ended sends
  have loaded_in_time : loaded.clock ≤ trace.clock + deadline.millisUp :=
    Nat.le_add_right_of_le (Nat.le_of_eq hclock)
  have early := fetches.sends.mono (Nat.le_refl _) loaded_in_time
  exact ⟨early.trans sends, ended⟩

def remoteTree : Json :=
  .obj [("arazzo", .str "1.0.1"),
    ("info", .obj [("title", .str "t"), ("version", .str "1")]),
    ("sourceDescriptions", .arr [.obj [("name", .str "api"), ("url", .str "https://a.b/c")]]),
    ("workflows", .arr [.obj
      [("steps", .arr [.obj [("operationId", .str "get"), ("stepId", .str "s")]]),
        ("workflowId", .str "w")]])]

def remoteSource : String :=
  (Json.obj [("paths", .obj [("/p", .obj [("get", .obj [("operationId", .str "get")])])])]).render

def lateClient : HttpClient :=
  ⟨fun before _ =>
    { latency := .ofSeconds (if before.isEmpty then 5 else 0)
      result := .ok
        { status := 200
          headers := []
          body := remoteSource.toUTF8.toList } }⟩

def lateLoader : Loader :=
  { client := lateClient, files := Files.ofTable "/" [], timeout := ⟨0⟩, maxBytes := 0 }

def hasty : Environment := { client := lateClient, config := { deadline := some (.ofSeconds 1) } }

def hastyRun (d : Document) : Except RunError Report × Trace :=
  document hasty lateLoader d "w" .null {}

/-- The step's request is sent after five seconds, and the run comes to its end all the same. -/
theorem hasty_late :
    (Document.parse false none remoteTree).diagnostics = [] ∧
      ∃ d, (Document.parse false none remoteTree).usable? = some d ∧
        (hastyRun d).1.isOk = true ∧ (hastyRun d).2.sentAt = [0, 5000] ∧
        (hastyRun d).2.clock = 5000 := by
  have hquiet : (Document.parse false none remoteTree).diagnostics.isEmpty = true := by
    decide +kernel
  have hlate : (Document.parse false none remoteTree).usable?.any (fun d =>
      (hastyRun d).1.isOk && (hastyRun d).2.sentAt == [0, 5000] && (hastyRun d).2.clock == 5000) =
        true := by
    decide +kernel
  obtain ⟨d, hd, hlate⟩ := (Option.any_eq_true _ _).1 hlate
  simp only [Bool.and_eq_true, beq_iff_eq] at hlate
  obtain ⟨⟨hok, hsent⟩, hclock⟩ := hlate
  exact ⟨List.isEmpty_iff.1 hquiet, d, hd, hok, hsent, hclock⟩

theorem document_within_deadline_given :
    ∃ d, (Document.parse false none remoteTree).usable? = some d ∧
      hasty.config.deadline = some (.ofSeconds 1) ∧
      (((givenLoader.load d).run {}).2.requests = [] ∧
        Sends 0 1000 {} (document hasty givenLoader d "w" .null {}).2 ∧
        (document hasty givenLoader d "w" .null {}).2.clock ≤ 1000) ∧
      Sends 5000 6000 ((lateLoader.load d).run {}).2 (hastyRun d).2 ∧
      (hastyRun d).2.clock ≤ 6000 := by
  have hloads : (Document.parse false none remoteTree).usable?.any (fun d =>
      ((givenLoader.load d).run {}).2.requests.isEmpty &&
        ((lateLoader.load d).run {}).2.clock == 5000) = true := by
    decide +kernel
  obtain ⟨d, hd, hloads⟩ := (Option.any_eq_true _ _).1 hloads
  simp only [Bool.and_eq_true, beq_iff_eq, List.isEmpty_iff] at hloads
  obtain ⟨hnone, hclock⟩ := hloads
  have given := (document_within_deadline hasty givenLoader d "w" .null {} _ rfl).2 hnone
  have late := (document_within_deadline hasty lateLoader d "w" .null {} _ rfl).1.2
  rw [hclock] at late
  exact ⟨d, hd, rfl, ⟨hnone, given⟩, late⟩

end Run
end Arazzo
