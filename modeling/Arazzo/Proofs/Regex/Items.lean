import Arazzo.Proofs.Regex.Marks

/-! Counts, numbers, names and escapes, read with a tail behind them. -/

namespace Arazzo.Regex

open Text

namespace Pattern

variable {α β : Type} {s s' : PatternState} {t cs : List Char} {c : Char} {a : α}
variable {m m' : Pattern α} {f f' : α → Pattern β}
variable {head : Option Char} {n n' i j j' k k' : Nat} {odd : α → PatternState → Prop}

def Quiet (m : Pattern α) : Prop :=
  ∀ s cs, m.run { s with rest := cs } = (m.run s).map fun p => (p.1, { p.2 with rest := cs })

theorem Quiet.rest (h : Quiet m) (hrun : m.run s = some (a, s')) : s'.rest = s.rest := by
  have hsame := h s s.rest
  rw [hrun] at hsame
  rw [(Prod.mk.inj (Option.some.inj hsame)).2]

theorem Quiet.append (h : Quiet m) (s : PatternState) (t : List Char) :
    m.run (s.append t) = (m.run s).map fun p => (p.1, p.2.append t) := by
  have htail : m.run (s.append t) = _ := h s (s.rest ++ t)
  cases hrun : m.run s with
  | none => rw [htail, hrun]; rfl
  | some p =>
    obtain ⟨a, s'⟩ := p
    rw [htail, hrun, Option.map_some, Option.map_some, PatternState.append, h.rest hrun]

theorem Quiet.reads (h : Quiet m) : Reads head n j 0 odd m m where
  takes s _ := by
    intro a s' hrun
    rw [h.rest hrun]
    exact ⟨List.suffix_refl _, Nat.le_refl _⟩
  agrees s _ _ t _ := by
    rw [h.append s t]
    cases m.run s with
    | none => rintro _ _ ⟨⟩
    | some p => exact .inl rfl

theorem quiet_pure (a : α) : Quiet (pure a : Pattern α) := fun _ _ => rfl

theorem quiet_failure : Quiet (failure : Pattern α) := fun _ _ => rfl

theorem Quiet.flags {f : Flags → Pattern β} (h : ∀ flags, Quiet (f flags)) : Quiet (flags >>= f) :=
  fun s cs => h s.flags s cs

theorem Quiet.bind (hm : Quiet m) (hf : ∀ a, Quiet (f a)) : Quiet (m >>= f) := by
  intro s cs
  have hfirst := hm s cs
  cases hx : m.run s with
  | none =>
    rw [hx] at hfirst
    rw [run_bind_none hx, run_bind_none hfirst]
    rfl
  | some p =>
    obtain ⟨a, s'⟩ := p
    rw [hx] at hfirst
    rw [run_bind_some hx, run_bind_some hfirst]
    exact hf a s' cs

theorem Quiet.ite {p : Prop} [Decidable p] {a b : Pattern α} (ha : Quiet a) (hb : Quiet b) :
    Quiet (if p then a else b) := by
  split
  · exact ha
  · exact hb

theorem quiet_codePoint (code : Nat) : Quiet (codePoint code) :=
  Quiet.ite (quiet_pure _) quiet_failure

theorem quiet_finishSet (set : CharSet) (negated : Bool) : Quiet (finishSet set negated) :=
  Quiet.flags fun _ => Quiet.ite quiet_failure (quiet_pure _)

theorem quiet_finishFound (negated : Bool) (found : Option (CharSet × Bool)) :
    Quiet (finishFound negated found) := by
  rcases found with _ | ⟨set, inverse⟩
  · exact quiet_failure
  · exact quiet_finishSet _ _

theorem quiet_boundaryWord : Quiet boundaryWord := Quiet.flags fun _ => quiet_pure _

theorem quiet_itemSet (item : Primitive) : Quiet (itemSet item) := by
  cases item with
  | char c => exact Quiet.flags fun _ => Quiet.ite quiet_failure (quiet_pure _)
  | set set => exact quiet_pure _
  | look look => exact quiet_failure
  | dot => exact quiet_failure

theorem quiet_combine (op : Option ClassOp) (left right : Nested CharSet) :
    Quiet (combine op left right) := by
  cases op with
  | none => exact quiet_pure _
  | some op => exact Quiet.flags fun _ => quiet_pure _

theorem quiet_dot : Quiet dot :=
  Quiet.flags fun _ => Quiet.ite quiet_failure
    (Quiet.ite (quiet_pure _) (Quiet.ite (quiet_pure _) (quiet_pure _)))

theorem quiet_literal (c : Char) : Quiet (literal c) :=
  (quiet_finishSet _ _).bind fun _ => quiet_pure _

theorem quiet_repeated (items : Row) (least : Nat) (most : Option Nat) :
    Quiet (items.repeated least most) := by
  rcases items with _ | ⟨_ | r, rest⟩
  · exact quiet_failure
  · exact quiet_failure
  · exact quiet_pure _

namespace Reads

/-- Recursion with as much fuel as the text needs comes to the same with more. -/
theorem fuelled {A : Type} {β : A → Type} {g : Nat → (a : A) → Pattern (β a)}
    (odd : (a : A) → β a → PatternState → Prop) (heads : A → Option Char)
    (need : A → Nat → Nat) (hneed : ∀ a n, need a n = 0 → ∀ cs, Starts (heads a) cs → n ≤ cs.length)
    (hstop : ∀ a s, Takes k (g 0 a) s)
    (hstep : ∀ fuel fuel',
      (∀ n a, need a n ≤ fuel → need a n ≤ fuel' → Reads (heads a) n j k (odd a) (g fuel a) (g fuel' a)) →
      ∀ n a, need a n ≤ fuel + 1 → need a n ≤ fuel' + 1 →
        Reads (heads a) n j k (odd a) (g (fuel + 1) a) (g (fuel' + 1) a))
    {fuel fuel' : Nat} (a : A) (h : need a n ≤ fuel) (h' : need a n ≤ fuel') :
    Reads (heads a) n j k (odd a) (g fuel a) (g fuel' a) := by
  induction fuel' generalizing fuel n a with
  | zero =>
    have hlong := hneed a n (Nat.le_zero.mp h')
    exact ⟨fun s _ => hstop a s, fun s hs hlength => absurd hlength (Nat.not_lt.mpr (hlong _ hs))⟩
  | succ fuel' ih =>
    cases fuel with
    | zero =>
      have hlong := hneed a n (Nat.le_zero.mp h)
      refine (hstep 0 fuel' (fun n a h h' => ih a h h') n a (by omega) h').congr fun s hs hlength => ?_
      exact absurd hlength (Nat.not_lt.mpr (hlong _ hs))
    | succ fuel => exact hstep fuel fuel' (fun n a h h' => ih a h h') n a h h'

theorem fuel {A : Type} {g : Nat → A → Pattern α} (hstop : ∀ a s, Takes k (g 0 a) s)
    (hstep : ∀ fuel fuel' n, (∀ a, Reads none n j k odd (g fuel a) (g fuel' a)) →
      ∀ a, Reads none (n + 1) j k odd (g (fuel + 1) a) (g (fuel' + 1) a))
    {fuel fuel' : Nat} (h : n ≤ fuel) (h' : n ≤ fuel') (a : A) :
    Reads none n j k odd (g fuel a) (g fuel' a) := by
  refine fuelled (fun _ => odd) (fun _ => none) (fun _ n => n)
    (fun _ _ hn _ _ => hn ▸ Nat.zero_le _) hstop
    (fun fuel fuel' ih n a h h' => ?_) a h h'
  have hlater (a : A) : Reads none (n - 1) j k odd (g fuel a) (g fuel' a) :=
    ih (n - 1) a (by omega) (by omega)
  exact (hstep fuel fuel' (n - 1) hlater a).mono (by omega) (Nat.le_refl _) (Nat.le_refl _)

end Reads

theorem expect_reads (c : Char) {odd : Unit → PatternState → Prop} :
    Reads none n 1 1 odd (expect c) (expect c) :=
  .peek (Nat.le_refl 1) fun d => .ite (fun _ => .bump d) fun _ => .failure

theorem run_gather_nil (kind : Char → Bool) (fuel : Nat) (acc : List Char) (h : s.rest = []) :
    (gather kind fuel acc).run s = some (acc.reverse, s) := by
  cases s
  obtain rfl := h
  cases fuel <;> rfl

theorem gather_reads {kind : Char → Bool} (hclosing : kind ')' = false)
    {odd : List Char → PatternState → Prop} {fuel fuel' : Nat} (h : n ≤ fuel + 1) (h' : n ≤ fuel' + 1)
    (acc : List Char) : Reads none n j 0 odd (gather kind fuel acc) (gather kind fuel' acc) := by
  induction fuel' generalizing fuel n acc with
  | zero =>
    refine ⟨fun _ _ => takes_pure, fun s _ hlength t _ => ?_⟩
    rw [run_gather_nil kind fuel acc (List.length_eq_zero_iff.mp (by omega))]
    exact .inl rfl
  | succ fuel' ih =>
    have hstep (less : Nat) (hless : n ≤ less + 2) :
        Reads none n j 0 odd (gather kind (less + 1) acc) (gather kind (fuel' + 1) acc) := by
      unfold gather
      refine .peek? (fun c => .ite (fun _ => ?_) fun _ => .pure) .pure (by simp [hclosing])
      exact (Reads.first (.bumpSpace c) fun _ => ih (by omega) (by omega) _).loose
    cases fuel with
    | zero =>
      refine (hstep 0 (by omega)).congr fun s _ hlength => ?_
      have hempty : s.rest = [] := List.length_eq_zero_iff.mp (by omega)
      rw [run_gather_nil kind 0 acc hempty, run_gather_nil kind 1 acc hempty]
    | succ less => exact hstep less (by omega)

theorem count_reads {odd : Nat → PatternState → Prop} : Reads none n j 0 odd count count := by
  refine .andThen .skipBlanks fun _ => .get fun s t _ hlonger => ?_
  refine .andThen (gather_reads rfl (by omega) (by omega) []) fun ds => ?_
  refine .andThen .skipBlanks fun _ => ?_
  cases readNat? ds with
  | none => exact .failure
  | some n => exact .ite (fun _ => .pure) fun _ => .failure

theorem closeBounds_reads {odd : Nat × Option Nat → PatternState → Prop} (range : Nat × Option Nat) :
    Reads none n 1 1 odd (closeBounds range) (closeBounds range) := by
  refine .first (expect_reads _) fun _ => .andThen .skipSpace fun _ => ?_
  cases range.2 with
  | none => exact .pure
  | some most => exact .ite (fun _ => .pure) fun _ => .failure

theorem bounds_reads {odd : Nat × Option Nat → PatternState → Prop} :
    Reads (some '\x7b') n 1 1 odd bounds bounds := by
  unfold bounds
  refine .andThen (Reads.bumpSpace _).loose fun _ => .peek (Nat.le_refl 1) fun _ => .anyHead ?_
  refine .andThen count_reads fun least => .peek (Nat.le_refl 1) fun c => ?_
  refine .ite (fun _ => ?_) fun _ => (closeBounds_reads _).anyHead
  refine .andThen (Reads.bumpSpace c).loose fun _ => .peek (Nat.le_refl 1) fun d => .anyHead ?_
  exact .ite (fun _ => closeBounds_reads _) fun _ => .andThen count_reads fun _ => closeBounds_reads _

theorem hexDigits_reads {odd : Nat → PatternState → Prop} (left value : Nat) :
    Reads none n 1 1 odd (hexDigits (left + 1) value) (hexDigits (left + 1) value) := by
  induction left generalizing n value with
  | zero =>
    unfold hexDigits
    refine .peek (Nat.le_refl 1) fun c => ?_
    cases hexValue? c with
    | none => exact .failure
    | some d => exact .first (.bumpSpace c) fun _ => .pure
  | succ left ih =>
    unfold hexDigits
    refine .peek (Nat.le_refl 1) fun c => ?_
    cases hexValue? c with
    | none => exact .failure
    | some d =>
      refine .first (.bumpSpace c) fun _ => Reads.loose (k := 1) ?_
      exact .peek (Nat.le_refl 1) fun _ => (ih _).anyHead

theorem bracedHex_reads {odd : Nat → PatternState → Prop} {fuel fuel' : Nat} (h : n ≤ fuel)
    (h' : n ≤ fuel') (value : Nat) (some_ : Bool) :
    Reads none n 1 1 odd (bracedHex fuel value some_) (bracedHex fuel' value some_) := by
  refine Reads.fuel (g := fun fuel (a : Nat × Bool) => bracedHex fuel a.1 a.2)
    (fun _ _ => by rintro _ _ ⟨⟩) (fun fuel fuel' n ih a => ?_) h h' (value, some_)
  unfold bracedHex
  refine .peek (Nat.le_refl 1) fun c => .ite (fun _ => ?_) fun _ => ?_
  · exact .first (.bumpSpace c) fun _ => .ite (fun _ => .pure) fun _ => .failure
  · cases hexValue? c with
    | none => exact .failure
    | some d => exact .first (.bumpSpace c) fun _ => (ih (_, true)).loose

theorem numbered_reads {odd : Char → PatternState → Prop} (width : Nat) :
    Reads (some c) n 1 1 odd (numbered (width + 1)) (numbered (width + 1)) := by
  refine .first (.bumpSpace c) fun _ => Reads.loose (k := 1) ?_
  refine .peek (Nat.le_refl 1) fun d => .ite (fun _ => ?_) fun _ => .anyHead ?_
  · refine .first (.bumpSpace d) fun _ => .get fun s t _ hlonger => Reads.loose (k := 1) ?_
    exact .first (bracedHex_reads (by omega) (by omega) 0 false) fun _ => (quiet_codePoint _).reads
  · exact .first (hexDigits_reads width 0) fun _ => (quiet_codePoint _).reads

theorem bracedName_reads {odd : List Char → PatternState → Prop} {fuel fuel' : Nat} (h : n ≤ fuel)
    (h' : n ≤ fuel') (acc : List Char) :
    Reads none n 1 1 odd (bracedName fuel acc) (bracedName fuel' acc) := by
  refine Reads.fuel (fun _ _ => by rintro _ _ ⟨⟩) (fun fuel fuel' n ih acc => ?_) h h' acc
  unfold bracedName
  refine .peek (Nat.le_refl 1) fun c => .ite (fun _ => ?_) fun _ => ?_
  · exact .first (.bump c) fun _ => .pure
  · exact .first (.bumpSpace c) fun _ => (ih _).loose

theorem property_reads {odd : CharSet → PatternState → Prop} (negated : Bool) :
    Reads (some c) n 1 1 odd (property negated) (property negated) := by
  unfold property
  refine .flags fun _ => .ite (fun _ => .stopped) fun _ => ?_
  refine .first (.bumpSpace c) fun _ => Reads.loose (k := 1) ?_
  refine .peek (Nat.le_refl 1) fun d => .ite (fun _ => ?_) fun _ => .ite (fun _ => .failure) fun _ => ?_
  · refine .first (.bumpSpace d) fun _ => .get fun s t _ hlonger => Reads.loose (k := 1) ?_
    refine .first (bracedName_reads (by omega) (by omega) []) fun name => ?_
    exact (quiet_finishFound _ _).reads
  · exact .first (.bumpSpace d) fun _ => (quiet_finishFound _ _).reads

def Braced (s : PatternState) : Prop :=
  ∃ cs, s.rest = '\x7b' :: cs ∧ (skipped s.flags cs).head? = some ')'

def wordOf (flags : Flags) : CharSet := if flags.unicode then wordChars else asciiWord

theorem run_boundary_plain (h : s.rest.head? ≠ some '\x7b') :
    boundary.run s = some (.boundary (wordOf s.flags), s) := by
  change ((if s.rest.head? != some '\x7b' then pure _ else _ : Pattern Look)).run s = _
  rw [if_pos (bne_iff_ne.mpr h)]
  rfl

theorem run_boundary_brace (h : s.rest = '\x7b' :: cs) :
    boundary.run s = (do
      if isBoundaryChar (← peek) then boundaryNamed (wordOf s.flags) s.rest.length
      else
        set s
        return .boundary (wordOf s.flags)).run { s with rest := skipped s.flags cs } := by
  have hbrace : (s.rest.head? != some '\x7b') = false := by rw [h]; rfl
  change ((if s.rest.head? != some '\x7b' then pure _ else bumpSpace >>= _ : Pattern Look)).run s = _
  rw [hbrace, if_neg Bool.false_ne_true, run_bind_some (run_bumpSpace h)]
  rfl

theorem run_boundary_end (h : s.rest = '\x7b' :: cs) (hend : skipped s.flags cs = []) :
    boundary.run s = none := by
  rw [run_boundary_brace h, hend]
  exact run_bind_none (run_peek_nil rfl)

theorem run_boundary_named {rest : List Char} (h : s.rest = '\x7b' :: cs)
    (hrest : skipped s.flags cs = c :: rest) (hname : isBoundaryChar c = true) :
    boundary.run s = (boundaryNamed (wordOf s.flags) s.rest.length).run { s with rest := c :: rest } := by
  rw [run_boundary_brace h, hrest, run_bind_some (run_peek rfl), if_pos hname]

theorem run_boundary_unnamed {rest : List Char} (h : s.rest = '\x7b' :: cs)
    (hrest : skipped s.flags cs = c :: rest) (hname : isBoundaryChar c = false) :
    boundary.run s = some (.boundary (wordOf s.flags), s) := by
  rw [run_boundary_brace h, hrest, run_bind_some (run_peek rfl), if_neg (by simp [hname])]
  rfl

theorem boundaryNamed_reads {odd : Look → PatternState → Prop} (word : CharSet) {room room' : Nat}
    (h : n ≤ room + 1) (h' : n ≤ room' + 1) :
    Reads none n 1 0 odd (boundaryNamed word room) (boundaryNamed word room') := by
  unfold boundaryNamed
  refine .andThen (gather_reads rfl h h' []) fun name => ?_
  refine (Reads.first (expect_reads _) fun _ => ?_).loose
  split
  · exact .pure
  · exact .pure
  · exact .pure
  · exact .pure
  · exact .failure

theorem boundary_takes : Takes 0 boundary s := by
  by_cases hbrace : s.rest.head? = some '\x7b'
  · obtain ⟨cs, hrest⟩ := List.head?_eq_some_iff.mp hbrace
    cases hskipped : skipped s.flags cs with
    | nil =>
      intro _ _ hrun
      rw [run_boundary_end hrest hskipped] at hrun
      cases hrun
    | cons c rest =>
      have hsuffix : c :: rest <:+ s.rest := by
        rw [← hskipped, hrest]
        exact (skipped_suffix s.flags cs).trans (List.suffix_cons _ cs)
      intro look s' hrun
      cases hname : isBoundaryChar c with
      | false =>
        rw [run_boundary_unnamed hrest hskipped hname] at hrun
        exact takes_pure _ _ hrun
      | true =>
        rw [run_boundary_named hrest hskipped hname] at hrun
        have hreads : Reads none 0 1 0 never (boundaryNamed (wordOf s.flags) s.rest.length)
          (boundaryNamed (wordOf s.flags) s.rest.length) :=
            boundaryNamed_reads _ (Nat.zero_le _) (Nat.zero_le _)
        have hnamed := hreads.takes _ (starts_none _) look s' hrun
        exact ⟨hnamed.1.trans hsuffix, hnamed.2.trans hsuffix.length_le⟩
  · intro look s' hrun
    rw [run_boundary_plain hbrace] at hrun
    exact takes_pure _ _ hrun

theorem boundary_reads : Reads none n 1 0 (fun _ => Braced) boundary boundary where
  takes _ _ := boundary_takes
  agrees s _ hlength t ht := by
    by_cases hbrace : s.rest.head? = some '\x7b'
    · obtain ⟨cs, hrest⟩ := List.head?_eq_some_iff.mp hbrace
      have happend : (s.append t).rest = '\x7b' :: (cs ++ t) := by
        rw [PatternState.append, hrest]
        rfl
      rcases skipped_append ht s.flags cs with hlive | ⟨hempty, hdead⟩
      · cases hskipped : skipped s.flags cs with
        | nil =>
          rw [hskipped, List.nil_append] at hlive
          rw [run_boundary_end hrest hskipped]
          intro look s' hrun
          rcases ht.eq_nil_or_cons with rfl | ⟨u, rfl⟩
          · rw [run_boundary_end happend hlive] at hrun
            cases hrun
          · -- The brace is left for a repetition, which fails at the closing parenthesis.
            rw [run_boundary_unnamed happend hlive rfl] at hrun
            obtain ⟨⟩ := hrun
            exact ⟨List.cons_ne_nil _ _, .inr ⟨_, happend, congrArg List.head? hlive⟩⟩
        | cons c rest =>
          rw [hskipped, List.cons_append] at hlive
          cases hname : isBoundaryChar c with
          | false =>
            rw [run_boundary_unnamed hrest hskipped hname, run_boundary_unnamed happend hlive hname]
            exact .inl rfl
          | true =>
            rw [run_boundary_named hrest hskipped hname, run_boundary_named happend hlive hname]
            have hsuffix : (c :: rest).length ≤ s.rest.length := by
              rw [← hskipped, hrest]
              exact ((skipped_suffix s.flags cs).trans (List.suffix_cons _ cs)).length_le
            have hlonger := length_le_append s t
            exact (boundaryNamed_reads (n := s.rest.length + 1) _ (by omega) (by omega)).agrees
              { s with rest := c :: rest } (starts_none _) (by simp only; omega) t ht
      · rw [run_boundary_end hrest hempty]
        intro look s' hrun
        rw [run_boundary_end happend hdead] at hrun
        cases hrun
    · have happend : (s.append t).rest.head? ≠ some '\x7b' := by
        change (s.rest ++ t).head? ≠ some '\x7b'
        cases hrest : s.rest with
        | cons c cs => rwa [hrest] at hbrace
        | nil => cases ht <;> decide
      rw [run_boundary_plain hbrace, run_boundary_plain happend]
      exact .inl rfl

theorem escape_reads :
    Reads (some c) n 1 1 (fun item s => (∃ look, item = .look look) ∧ Braced s) escape escape := by
  refine .first (.bump c) fun _ => Reads.loose (k := 1) ?_
  refine .peek (Nat.le_refl 1) fun d => .flags fun flags => ?_
  split
  · exact .first (numbered_reads 1) fun _ => .pure
  · exact .first (numbered_reads 3) fun _ => .pure
  · exact .first (numbered_reads 7) fun _ => .pure
  · exact .first (property_reads _) fun _ => .pure
  · exact .first (property_reads _) fun _ => .pure
  · refine .first (.bump d) fun _ => ?_
    split
    · exact .pure
    · exact .ite (fun _ => .pure) fun _ => .failure
    · refine .ite (fun _ => .pure) fun _ => ?_
      split
      · exact .pure
      · exact .pure
      · exact .pure
      · exact .pure
      · exact .pure
      · exact .pure
      · exact .pure
      · exact .pure
      · refine .bindOdd (k := 0) boundary_reads (fun look => .pure) (Nat.le_refl 1) (Nat.le_refl 1) ?_
        rintro look s _ _ hbraced ⟨⟩
        exact ⟨⟨look, rfl⟩, hbraced⟩
      · exact .andThen quiet_boundaryWord.reads fun _ => .pure
      · exact .andThen quiet_boundaryWord.reads fun _ => .pure
      · exact .andThen quiet_boundaryWord.reads fun _ => .pure
      · exact .failure

end Pattern
end Arazzo.Regex
