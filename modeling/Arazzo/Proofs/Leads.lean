/-! Where work that may stop early can lead, put together from where its parts lead. -/

namespace Arazzo

variable {ε σ α β : Type}

theorem exists_of_bind_ok {first : Except ε α} {next : α → Except ε β} {b : β}
    (h : first >>= next = .ok b) : ∃ a, first = .ok a ∧ next a = .ok b := by
  cases first with
  | error e => cases h
  | ok a => exact ⟨a, rfl, h⟩

theorem cases_of_bind_error {first : Except ε α} {next : α → Except ε β} {e : ε}
    (h : first >>= next = .error e) :
    first = .error e ∨ ∃ a, first = .ok a ∧ next a = .error e := by
  cases first with
  | error e' => exact .inl (congrArg Except.error (Except.error.inj h))
  | ok a => exact .inr ⟨a, rfl, h⟩

theorem exists_of_map_ok {f : α → β} {result : Except ε α} {b : β}
    (h : result.map f = .ok b) : ∃ a, result = .ok a ∧ f a = b := by
  cases result with
  | error e => cases h
  | ok a => exact ⟨a, rfl, Except.ok.inj h⟩

theorem eq_ok_of_toOption {result : Except ε α} {a : α} (h : result.toOption = some a) :
    result = .ok a := by
  cases result with
  | error e => cases h
  | ok b => exact congrArg Except.ok (Option.some.inj h)

theorem exists_of_mapM_ok {f : α → Except ε β} {as : List α} {bs : List β}
    (h : as.mapM f = .ok bs) {b : β} (hb : b ∈ bs) : ∃ a ∈ as, f a = .ok b := by
  induction as generalizing bs with
  | nil =>
    obtain rfl : [] = bs := Except.ok.inj h
    exact absurd hb List.not_mem_nil
  | cons a as ih =>
    rw [List.mapM_cons] at h
    obtain ⟨first, hfirst, h⟩ := exists_of_bind_ok h
    obtain ⟨rest, hrest, h⟩ := exists_of_bind_ok h
    obtain rfl : first :: rest = bs := Except.ok.inj h
    rcases List.mem_cons.1 hb with rfl | hb
    · exact ⟨a, List.mem_cons_self .., hfirst⟩
    · obtain ⟨other, hother, hb⟩ := ih hrest hb
      exact ⟨other, List.mem_cons_of_mem _ hother, hb⟩

theorem ok_of_forM_ok {f : α → Except ε Unit} {as : List α} {u : Unit} (h : as.forM f = .ok u)
    {a : α} (ha : a ∈ as) : f a = .ok () := by
  induction as with
  | nil => exact absurd ha List.not_mem_nil
  | cons first rest ih =>
    obtain ⟨⟨⟩, hfirst, hrest⟩ := exists_of_bind_ok h
    rcases List.mem_cons.1 ha with rfl | ha
    · exact hfirst
    · exact ih hrest ha

/-! Work with a state -/

theorem run_bind_ok {work : ExceptT ε (StateM σ) α} {next : α → ExceptT ε (StateM σ) β}
    {s s' : σ} {a : α} (h : work.run s = (.ok a, s')) :
    (work >>= next).run s = (next a).run s' := by
  change ExceptT.bindCont next (work.run s).1 (work.run s).2 = _
  rw [h]
  rfl

theorem run_bind_error {work : ExceptT ε (StateM σ) α} {next : α → ExceptT ε (StateM σ) β}
    {s s' : σ} {e : ε} (h : work.run s = (.error e, s')) :
    (work >>= next).run s = (.error e, s') := by
  change ExceptT.bindCont next (work.run s).1 (work.run s).2 = _
  rw [h]
  rfl

theorem run_bind_of_ok {work : ExceptT ε (StateM σ) α} {next : α → ExceptT ε (StateM σ) β} {s : σ}
    {a : α} (h : (work.run s).1 = .ok a) :
    ((work >>= next).run s).1 = ((next a).run (work.run s).2).1 := by
  rw [run_bind_ok (Prod.ext h rfl : work.run s = (.ok a, (work.run s).2))]

theorem run_bind_of_error {work : ExceptT ε (StateM σ) α} {next : α → ExceptT ε (StateM σ) β}
    {s : σ} {e : ε} (h : (work.run s).1 = .error e) : ((work >>= next).run s).1 = .error e := by
  rw [run_bind_error (Prod.ext h rfl : work.run s = (.error e, (work.run s).2))]

theorem exists_of_run_bind_ok {work : ExceptT ε (StateM σ) α}
    {next : α → ExceptT ε (StateM σ) β} {s : σ} {b : β} (h : ((work >>= next).run s).1 = .ok b) :
    ∃ a, (work.run s).1 = .ok a ∧ ((next a).run (work.run s).2).1 = .ok b := by
  cases hrun : (work.run s).1 with
  | error e =>
    rw [run_bind_of_error hrun] at h
    cases h
  | ok a => exact ⟨a, rfl, (run_bind_of_ok hrun).symm.trans h⟩

theorem cases_of_run_bind_error {work : ExceptT ε (StateM σ) α}
    {next : α → ExceptT ε (StateM σ) β} {s s' : σ} {e : ε}
    (h : (work >>= next).run s = (.error e, s')) :
    work.run s = (.error e, s') ∨ ∃ a t, work.run s = (.ok a, t) ∧ (next a).run t = (.error e, s') := by
  rcases hrun : work.run s with ⟨e' | a, t⟩
  · rw [run_bind_error hrun] at h
    cases h
    exact .inl rfl
  · exact .inr ⟨a, t, rfl, (run_bind_ok hrun).symm.trans h⟩

theorem exists_run_of_bind_ok {work : ExceptT ε (StateM σ) α}
    {next : α → ExceptT ε (StateM σ) β} {s s' : σ} {b : β}
    (h : (work >>= next).run s = (.ok b, s')) :
    ∃ a t, work.run s = (.ok a, t) ∧ (next a).run t = (.ok b, s') := by
  rcases hrun : work.run s with ⟨e | a, t⟩
  · exact nomatch (run_bind_error hrun).symm.trans h
  · exact ⟨a, t, rfl, (run_bind_ok hrun).symm.trans h⟩

section Fold

variable {f : β → α → ExceptT ε (StateM σ) β} {init b : β} {as before after : List α} {a : α}
  {s s' t : σ} {e : ε}

theorem run_foldlM_append (h : (before.foldlM f init).run s = (.ok b, t)) :
    ((before ++ after).foldlM f init).run s = (after.foldlM f b).run t := by
  rw [List.foldlM_append]
  exact run_bind_ok h

theorem run_foldlM_error (hbefore : (before.foldlM f init).run s = (.ok b, t))
    (ha : (f b a).run t = (.error e, s')) :
    ((before ++ a :: after).foldlM f init).run s = (.error e, s') := by
  rw [run_foldlM_append hbefore, List.foldlM_cons]
  exact run_bind_error ha

theorem exists_of_run_foldlM_error (h : (as.foldlM f init).run s = (.error e, s')) :
    ∃ before a after b t, as = before ++ a :: after ∧
      (before.foldlM f init).run s = (.ok b, t) ∧ (f b a).run t = (.error e, s') := by
  induction as generalizing init s with
  | nil => cases h
  | cons first rest ih =>
    rw [List.foldlM_cons] at h
    rcases cases_of_run_bind_error h with hfirst | ⟨c, t, hfirst, hrest⟩
    · exact ⟨[], first, rest, init, s, rfl, rfl, hfirst⟩
    · obtain ⟨before, a, after, b, t', hsplit, hbefore, ha⟩ := ih hrest
      refine ⟨first :: before, a, after, b, t', by rw [hsplit, List.cons_append], ?_, ha⟩
      rw [List.foldlM_cons, run_bind_ok hfirst]
      exact hbefore

theorem exists_of_run_foldlM_ok {c : β}
    (h : ((before ++ a :: after).foldlM f init).run s = (.ok c, s')) :
    ∃ b t b' t', (before.foldlM f init).run s = (.ok b, t) ∧ (f b a).run t = (.ok b', t') := by
  rw [List.foldlM_append] at h
  obtain ⟨b, t, hbefore, hrest⟩ := exists_run_of_bind_ok h
  rw [List.foldlM_cons] at hrest
  obtain ⟨b', t', ha, -⟩ := exists_run_of_bind_ok hrest
  exact ⟨b, t, b', t', hbefore, ha⟩

end Fold

theorem run_bind_congr {work work' : ExceptT ε (StateM σ) α} {next : α → ExceptT ε (StateM σ) β}
    {s : σ} (h : (work.run s).1 = (work'.run s).1)
    (hnext : ∀ a t t', ((next a).run t).1 = ((next a).run t').1) :
    ((work >>= next).run s).1 = ((work' >>= next).run s).1 := by
  cases hrun : (work.run s).1 with
  | error e => rw [run_bind_of_error hrun, run_bind_of_error (h.symm.trans hrun)]
  | ok a =>
    rw [run_bind_of_ok hrun, run_bind_of_ok (h.symm.trans hrun)]
    exact hnext ..

theorem run_except (result : Except ε α) (s : σ) :
    (liftM result : ExceptT ε (StateM σ) α).run s = (result, s) := by
  cases result <;> rfl

theorem run_adapt {ε' : Type} (f : ε → ε') (work : ExceptT ε (StateM σ) α) (s : σ) :
    (work.adapt f).run s = ((work.run s).1.mapError f, (work.run s).2) := rfl

theorem run_map (f : α → β) (work : ExceptT ε (StateM σ) α) (s : σ) :
    (f <$> work).run s = ((work.run s).1.map f, (work.run s).2) := by
  rcases hrun : work.run s with ⟨e | a, s'⟩
  · exact run_bind_error hrun
  · exact run_bind_ok hrun

/-- From `s` the work ends as `ok` says or stops as `stop` says. -/
def Leads (work : ExceptT ε (StateM σ) α) (s : σ) (ok : α → σ → Prop) (stop : ε → σ → Prop) :
    Prop :=
  match work.run s with
  | (.ok a, s) => ok a s
  | (.error e, s) => stop e s

namespace Leads

variable {work : ExceptT ε (StateM σ) α} {next : α → ExceptT ε (StateM σ) β} {s : σ}
  {ok ok' : α → σ → Prop} {stop stop' : ε → σ → Prop}

theorem of_ok {a : α} {s' : σ} (h : Leads work s ok stop) (hrun : work.run s = (.ok a, s')) :
    ok a s' := by
  simpa only [Leads, hrun] using h

theorem of_error {e : ε} {s' : σ} (h : Leads work s ok stop)
    (hrun : work.run s = (.error e, s')) : stop e s' := by
  simpa only [Leads, hrun] using h

theorem of_run_ok (a : α) (s' : σ) (hrun : work.run s = (.ok a, s')) (h : ok a s') :
    Leads work s ok stop := by
  simpa only [Leads, hrun] using h

theorem of_run_error (e : ε) (s' : σ) (hrun : work.run s = (.error e, s')) (h : stop e s') :
    Leads work s ok stop := by
  simpa only [Leads, hrun] using h

theorem intro (hok : ∀ a s', work.run s = (.ok a, s') → ok a s')
    (hstop : ∀ e s', work.run s = (.error e, s') → stop e s') : Leads work s ok stop := by
  unfold Leads
  split
  · exact hok _ _ ‹_›
  · exact hstop _ _ ‹_›

theorem final {P : σ → Prop} (h : Leads work s (fun _ s' => P s') fun _ s' => P s') :
    P (work.run s).2 := by
  rcases hrun : work.run s with ⟨e | a, s'⟩
  · exact h.of_error hrun
  · exact h.of_ok hrun

theorem of_stops (h : ∀ e s', work.run s = (.error e, s') → stop e s') :
    Leads work s (fun _ _ => True) stop :=
  .intro (fun _ _ _ => trivial) h

theorem anything (work : ExceptT ε (StateM σ) α) (s : σ) :
    Leads work s (fun _ _ => True) fun _ _ => True :=
  .of_stops fun _ _ _ => trivial

theorem mono (h : Leads work s ok stop) (hok : ∀ a s', ok a s' → ok' a s')
    (hstop : ∀ e s', stop e s' → stop' e s') : Leads work s ok' stop' :=
  intro (fun _ _ hrun => hok _ _ (h.of_ok hrun)) fun _ _ hrun => hstop _ _ (h.of_error hrun)

theorem forget (h : Leads work s ok stop) : Leads work s ok fun _ _ => True :=
  h.mono (fun _ _ h => h) fun _ _ _ => trivial

theorem and (h : Leads work s ok stop) (h' : Leads work s ok' stop') :
    Leads work s (fun a s => ok a s ∧ ok' a s) fun e s => stop e s ∧ stop' e s :=
  intro (fun _ _ hrun => ⟨h.of_ok hrun, h'.of_ok hrun⟩)
    fun _ _ hrun => ⟨h.of_error hrun, h'.of_error hrun⟩

theorem of_pure {a : α} (h : ok a s) : Leads (pure a) s ok stop := h

theorem of_throw {e : ε} (h : stop e s) : Leads (throw e) s ok stop := h

theorem of_modify {f : σ → σ} {ok : Unit → σ → Prop} (h : ok () (f s)) :
    Leads (modify f) s ok stop := h

/-- What follows may use that the first part ran as it did. -/
theorem bind_run {mid : α → σ → Prop} {ok : β → σ → Prop} (h : Leads work s mid stop)
    (hnext : ∀ a s', work.run s = (.ok a, s') → mid a s' → Leads (next a) s' ok stop) :
    Leads (work >>= next) s ok stop := by
  rcases hrun : work.run s with ⟨e | a, s'⟩
  · exact of_run_error e s' (run_bind_error hrun) (h.of_error hrun)
  · unfold Leads
    rw [run_bind_ok hrun]
    exact hnext a s' hrun (h.of_ok hrun)

theorem bind {mid : α → σ → Prop} {ok : β → σ → Prop} (h : Leads work s mid stop)
    (hnext : ∀ a s', mid a s' → Leads (next a) s' ok stop) : Leads (work >>= next) s ok stop :=
  h.bind_run fun a s' _ => hnext a s'

theorem foldlM {f : β → α → ExceptT ε (StateM σ) β} {keeps : β → Prop} {as : List α}
    (h : ∀ b, ∀ a ∈ as, ∀ s, keeps b → Leads (f b a) s (fun b _ => keeps b) stop) {init : β}
    (hinit : keeps init) (s : σ) : Leads (as.foldlM f init) s (fun b _ => keeps b) stop := by
  induction as generalizing init s with
  | nil => exact .of_pure hinit
  | cons a as ih =>
    rw [List.foldlM_cons]
    refine (h init a (List.mem_cons_self ..) s hinit).bind fun b s' hb => ?_
    exact ih (fun b a ha => h b a (List.mem_cons_of_mem _ ha)) hb s'

theorem of_adapt {ε' : Type} {f : ε → ε'} {stop : ε' → σ → Prop}
    (h : Leads work s ok fun e s' => stop (f e) s') : Leads (work.adapt f) s ok stop := by
  rcases hrun : work.run s with ⟨e | a, s'⟩
  · refine of_run_error (f e) s' ?_ (h.of_error hrun)
    rw [run_adapt, hrun]
    rfl
  · refine of_run_ok a s' ?_ (h.of_ok hrun)
    rw [run_adapt, hrun]
    rfl

theorem bind_get {next : σ → ExceptT ε (StateM σ) β} {ok : β → σ → Prop}
    (h : Leads (next s) s ok stop) : Leads (get >>= next) s ok stop := h

theorem bind_set {s' : σ} {next : PUnit → ExceptT ε (StateM σ) β} {ok : β → σ → Prop}
    (h : Leads (next ⟨⟩) s' ok stop) : Leads (set s' >>= next) s ok stop := h

theorem bind_modify {f : σ → σ} {next : Unit → ExceptT ε (StateM σ) β} {ok : β → σ → Prop}
    (h : Leads (next ()) (f s) ok stop) : Leads (modify f >>= next) s ok stop := h

theorem bind_lift {work : StateM σ α} {ok : β → σ → Prop}
    (h : Leads (next (work.run s).1) (work.run s).2 ok stop) :
    Leads (liftM work >>= next) s ok stop := h

end Leads

-- From here on the laws above are all that is known of it: unfolding would run the work.
attribute [irreducible] Leads

/-- Wherever the work starts, it stops for nothing but what is told. -/
def StopsOnly (P : ε → Prop) (work : ExceptT ε (StateM σ) α) : Prop :=
  ∀ s, Leads work s (fun _ _ => True) fun e _ => P e

namespace StopsOnly

variable {P : ε → Prop} {work : ExceptT ε (StateM σ) α} {next : α → ExceptT ε (StateM σ) β}

theorem of_pure (a : α) : StopsOnly P (pure a : ExceptT ε (StateM σ) α) := fun _ => .of_pure trivial

theorem of_throw {e : ε} (h : P e) : StopsOnly P (throw e : ExceptT ε (StateM σ) α) :=
  fun _ => .of_throw h

theorem of_modify (f : σ → σ) : StopsOnly P (modify f : ExceptT ε (StateM σ) PUnit) :=
  fun _ => .of_modify trivial

theorem of_except {result : Except ε α} (h : ∀ e, result = .error e → P e) :
    StopsOnly P (liftM result : ExceptT ε (StateM σ) α) := by
  cases result with
  | ok a => exact of_pure a
  | error e => exact of_throw (h e rfl)

theorem mono {Q : ε → Prop} (h : StopsOnly P work) (hstop : ∀ e, P e → Q e) : StopsOnly Q work :=
  fun s => (h s).mono (fun _ _ h => h) fun e _ => hstop e

theorem bind (h : StopsOnly P work) (hnext : ∀ a, StopsOnly P (next a)) :
    StopsOnly P (work >>= next) :=
  fun s => (h s).bind fun a s' _ => hnext a s'

theorem bind_get {next : σ → ExceptT ε (StateM σ) β} (h : ∀ s, StopsOnly P (next s)) :
    StopsOnly P (get >>= next) :=
  fun s => .bind_get (h s s)

theorem bind_set {s' : σ} {next : PUnit → ExceptT ε (StateM σ) β} (h : StopsOnly P (next ⟨⟩)) :
    StopsOnly P (set s' >>= next) :=
  fun _ => .bind_set (h s')

theorem mapM {f : α → ExceptT ε (StateM σ) β} {as : List α} (h : ∀ a ∈ as, StopsOnly P (f a)) :
    StopsOnly P (as.mapM f) := by
  induction as with
  | nil => exact of_pure []
  | cons a as ih =>
    rw [List.mapM_cons]
    have hrest := ih fun b hb => h b (List.mem_cons_of_mem _ hb)
    exact (h a (List.mem_cons_self ..)).bind fun b => hrest.bind fun bs => of_pure (b :: bs)

theorem foldlM {f : β → α → ExceptT ε (StateM σ) β} {as : List α}
    (h : ∀ b, ∀ a ∈ as, StopsOnly P (f b a)) (init : β) : StopsOnly P (as.foldlM f init) :=
  fun s => Leads.foldlM (fun b a ha s _ => h b a ha s) trivial s

theorem of_adapt {ε' : Type} {f : ε → ε'} {Q : ε' → Prop} (h : StopsOnly (Q ∘ f) work) :
    StopsOnly Q (work.adapt f) :=
  fun s => .of_adapt (h s)

end StopsOnly

/-- However the work ends, the state at its end is related to the one that it began with. -/
def Keeps (R : σ → σ → Prop) (work : ExceptT ε (StateM σ) α) : Prop :=
  ∀ s, Leads work s (fun _ s' => R s s') fun _ s' => R s s'

namespace Keeps

variable {R : σ → σ → Prop} {work : ExceptT ε (StateM σ) α} {next : α → ExceptT ε (StateM σ) β}

theorem of_pure [Std.Refl R] (a : α) : Keeps R (pure a : ExceptT ε (StateM σ) α) :=
  fun s => .of_pure (Std.Refl.refl s)

theorem of_throw [Std.Refl R] (e : ε) : Keeps R (throw e : ExceptT ε (StateM σ) α) :=
  fun s => .of_throw (Std.Refl.refl s)

theorem of_except [Std.Refl R] (result : Except ε α) :
    Keeps R (liftM result : ExceptT ε (StateM σ) α) := by
  cases result with
  | ok a => exact of_pure a
  | error e => exact of_throw e

theorem of_modify {f : σ → σ} (h : ∀ s, R s (f s)) :
    Keeps R (modify f : ExceptT ε (StateM σ) PUnit) :=
  fun s => .of_modify (h s)

theorem bind [Trans R R R] (h : Keeps R work) (hnext : ∀ a, Keeps R (next a)) :
    Keeps R (work >>= next) := by
  intro s
  refine (h s).bind fun a s' hs => ?_
  have onward {s'' : σ} : R s' s'' → R s s'' := Trans.trans hs
  exact (hnext a s').mono (fun _ _ => onward) fun _ _ => onward

theorem run (h : Keeps R work) (s : σ) : R s (work.run s).2 := (h s).final

theorem run_bind [Std.Refl R] (h : ∀ a, Keeps R (next a)) (s : σ) :
    R (work.run s).2 ((work >>= next).run s).2 := by
  rcases hrun : work.run s with ⟨e | a, s'⟩
  · rw [run_bind_error hrun]
    exact Std.Refl.refl s'
  · rw [run_bind_ok hrun]
    exact (h a).run s'

theorem bind_get {next : σ → ExceptT ε (StateM σ) β} (h : ∀ s, Keeps R (next s)) :
    Keeps R (get >>= next) :=
  fun s => .bind_get (h s s)

theorem of_adapt {ε' : Type} {f : ε → ε'} (h : Keeps R work) : Keeps R (work.adapt f) :=
  fun s => .of_adapt (h s)

theorem mapM [Std.Refl R] [Trans R R R] {f : α → ExceptT ε (StateM σ) β}
    (h : ∀ a, Keeps R (f a)) (as : List α) : Keeps R (as.mapM f) := by
  induction as with
  | nil => exact of_pure []
  | cons a as ih =>
    rw [List.mapM_cons]
    exact (h a).bind fun b => ih.bind fun bs => of_pure (b :: bs)

theorem foldlM [Std.Refl R] [Trans R R R] {f : β → α → ExceptT ε (StateM σ) β}
    (h : ∀ b a, Keeps R (f b a)) (init : β) (as : List α) : Keeps R (as.foldlM f init) := by
  induction as generalizing init with
  | nil => exact of_pure init
  | cons a as ih =>
    rw [List.foldlM_cons]
    exact (h init a).bind ih

end Keeps

/-- The first work does as the second one does, unless it is cut off. -/
def AgreesUnless (cut : ε → Prop) (work more : ExceptT ε (StateM σ) α) : Prop :=
  ∀ s, (∃ e, (work.run s).1 = .error e ∧ cut e) ∨ work.run s = more.run s

namespace AgreesUnless

variable {cut : ε → Prop} {work more most : ExceptT ε (StateM σ) α}
  {next next' : α → ExceptT ε (StateM σ) β}

theorem refl (work : ExceptT ε (StateM σ) α) : AgreesUnless cut work work := fun _ => .inr rfl

theorem cut_off {e : ε} (h : cut e) (more : ExceptT ε (StateM σ) α) :
    AgreesUnless cut (throw e) more :=
  fun _ => .inl ⟨e, rfl, h⟩

theorem trans (h : AgreesUnless cut work more) (h' : AgreesUnless cut more most) :
    AgreesUnless cut work most := by
  intro s
  rcases h s with hs | hs
  · exact .inl hs
  · rw [hs]
    exact h' s

theorem bind (h : AgreesUnless cut work more) (hnext : ∀ a, AgreesUnless cut (next a) (next' a)) :
    AgreesUnless cut (work >>= next) (more >>= next') := by
  intro s
  rcases hrun : work.run s with ⟨stop | a, s'⟩
  · rcases h s with ⟨e, he, hcut⟩ | hs
    -- What is cut off first cuts off the whole.
    · obtain rfl : stop = e := by simpa [hrun] using he
      exact .inl ⟨stop, by rw [run_bind_error hrun], hcut⟩
    · exact .inr (by rw [run_bind_error hrun, run_bind_error (hs.symm.trans hrun)])
  · rcases h s with ⟨e, he, -⟩ | hs
    · simp [hrun] at he
    · rw [run_bind_ok hrun, run_bind_ok (hs.symm.trans hrun)]
      exact hnext a s'

theorem after (work : ExceptT ε (StateM σ) α) (h : ∀ a, AgreesUnless cut (next a) (next' a)) :
    AgreesUnless cut (work >>= next) (work >>= next') :=
  (refl work).bind h

theorem foldlM {f g : β → α → ExceptT ε (StateM σ) β}
    (h : ∀ b a, AgreesUnless cut (f b a) (g b a)) (as : List α) (init : β) :
    AgreesUnless cut (as.foldlM f init) (as.foldlM g init) := by
  induction as generalizing init with
  | nil => exact refl _
  | cons a as ih =>
    rw [List.foldlM_cons, List.foldlM_cons]
    exact (h init a).bind ih

/-- Work that is not cut off is the same as all work that it agrees with. -/
theorem run_eq {s : σ} {ok : α → σ → Prop} {stop : ε → σ → Prop} (h : AgreesUnless cut work more)
    (hleads : Leads work s ok stop) (hstop : ∀ e s', stop e s' → ¬ cut e) :
    more.run s = work.run s := by
  rcases h s with ⟨e, he, hcut⟩ | hs
  · rcases hrun : work.run s with ⟨stopped | a, s'⟩
    · obtain rfl : stopped = e := by simpa [hrun] using he
      exact absurd hcut (hstop _ _ (hleads.of_error hrun))
    · simp [hrun] at he
  · exact hs.symm

theorem stopsOnly (h : AgreesUnless cut work more) (hstops : StopsOnly (fun e => ¬ cut e) work) :
    StopsOnly (fun e => ¬ cut e) more := by
  intro s
  have hsame : more.run s = work.run s := h.run_eq (hstops s) fun _ _ hcut => hcut
  exact .of_stops fun _ _ hrun => (hstops s).of_error (hsame.symm.trans hrun)

end AgreesUnless

end Arazzo
