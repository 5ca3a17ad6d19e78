import Arazzo.Proofs.Regex.Items

/-! Bracketed classes, read with a tail behind them. -/

namespace Arazzo.Regex

open Text

namespace Pattern

variable {s s' : PatternState} {t cs : List Char} {c : Char} {n j k : Nat}
variable {odd : CharSet → PatternState → Prop}

/-- An assertion before a repetition that a closing parenthesis breaks off. -/
def BracedLook (item : Primitive) (s : PatternState) : Prop :=
  (∃ look, item = .look look) ∧ Braced s

theorem classItem_reads : Reads none n 1 1 BracedLook classItem classItem :=
  .peek (Nat.le_refl 1) fun d => .ite (fun _ => escape_reads) fun _ => .first (.bump d) fun _ => .pure

theorem classRange_reads : Reads none n 0 1 odd classRange classRange := by
  unfold classRange
  refine .firstOdd (classItem_reads.mono (Nat.le_refl n) (Nat.zero_le 1) (Nat.le_refl 1)) (fun item => ?_) ?_
  · refine .andThen .skipSpace fun _ => .peek (Nat.le_refl 0) fun next => ?_
    refine .peekSecond? (fun second => ?_) (by simp)
    refine .ite (fun _ => (quiet_itemSet item).reads) fun _ => ?_
    refine (Reads.first (.bumpSpace next) fun _ => ?_).loose
    refine .peek (Nat.le_refl 0) fun d => .anyHead (Reads.loose (k := 1) ?_)
    refine .firstOdd (classItem_reads.mono (Nat.le_refl _) (Nat.zero_le 1) (Nat.le_refl 1))
      (fun other => ?_) ?_
    · split
      · exact .flags fun _ => .ite (fun _ => .stopped) fun _ => .ite (fun _ => .pure) fun _ => .failure
      · exact .failure
    · rintro _ s _ _ ⟨⟨look, rfl⟩, -⟩ hrun
      cases item <;> cases hrun
  · rintro _ s _ _ ⟨⟨look, rfl⟩, -⟩ hrun
    refine absurd hrun (Fails.ne (.after fun _ => .after fun next => .after fun second => .ite ?_ ?_))
    · exact fails_failure
    · exact .after fun _ => .after fun _ => .after fun _ => fails_failure

theorem bracketName?_append (ht : Tail t) (cs : List Char) :
    bracketName? (cs ++ t) = (bracketName? cs).map fun p => (p.1, p.2.1, p.2.2 ++ t) := by
  unfold bracketName?
  rw [afterLead?_append ht (by decide)]
  cases afterLead? "[:".toList cs with
  | none => rfl
  | some body =>
    have hnegated : ((body ++ t).head? == some '^') = (body.head? == some '^') := by
      cases body with
      | cons c body => rfl
      | nil => cases ht <;> rfl
    have hinner : (if body.head? == some '^' then (body ++ t).drop 1 else body ++ t) =
        (if body.head? == some '^' then body.drop 1 else body) ++ t := by
      cases body with
      | cons c body => split <;> rfl
      | nil => rfl
    simp only [Option.map_some, Option.bind_eq_bind, Option.bind_some, hnegated, hinner]
    generalize (if body.head? == some '^' then body.drop 1 else body) = inner
    rcases upTo_append ht (by decide : ')' ≠ ':') (by decide) inner with
      ⟨hnone, hnone'⟩ | ⟨rest, hrest, hrest', hname⟩
    · have hlead : afterLead? ":]".toList [] = none := rfl
      rw [hnone, hnone', hlead]
      simp only [Option.bind_none, Option.bind_fun_none, Option.map_none]
    · rw [hname, hrest, hrest', ← List.cons_append, afterLead?_append ht (by decide)]
      cases bracketClass? (String.ofList (inner.takeWhile (· != ':'))) with
      | none => rfl
      | some found => cases afterLead? ":]".toList (':' :: rest) <;> rfl

theorem bracketName?_takes {found : CharSet} {negated : Bool} {rest : List Char}
    (h : bracketName? cs = some (found, negated, rest)) : rest <:+ cs ∧ rest.length < cs.length := by
  simp only [bracketName?, Option.bind_eq_bind, Option.bind_eq_some_iff] at h
  obtain ⟨body, hbody, _, -, rest', hrest, ⟨⟩⟩ := h
  obtain ⟨hsuffix, hlength⟩ := afterLead?_takes hbody
  have hinner : (if body.head? == some '^' then body.drop 1 else body) <:+ body := by
    split
    · exact List.drop_suffix 1 body
    · exact List.suffix_refl body
  have hbehind := ((afterLead?_takes hrest).1.trans (List.dropWhile_suffix _)).trans hinner
  have hmark : "[:".toList.length = 2 := rfl
  have hless := hbehind.length_le
  exact ⟨hbehind.trans hsuffix, by omega⟩

theorem run_bracketNamed_none (h : bracketName? s.rest = none) : bracketNamed.run s = some (none, s) := by
  unfold bracketNamed
  rw [run_bind_some (run_get s), h]
  rfl

theorem run_bracketNamed_some {found : CharSet} {negated : Bool} {rest : List Char}
    (h : bracketName? s.rest = some (found, negated, rest)) : bracketNamed.run s =
      ((finishSet found negated).run { s with rest }).map fun p => (some p.1, p.2) := by
  unfold bracketNamed
  rw [run_bind_some (run_get s), h]
  change (finishSet found negated >>= fun set => pure (some set)).run { s with rest } =
    ((finishSet found negated).run { s with rest }).map _
  cases hrun : (finishSet found negated).run { s with rest } with
  | none => exact run_bind_none hrun
  | some p => exact run_bind_some hrun

theorem bracketNamed_attempts : Attempts (fun found => found.isSome) bracketNamed where
  append s t ht := by
    have happend : bracketName? (s.append t).rest = _ := bracketName?_append ht s.rest
    rcases hname : bracketName? s.rest with _ | ⟨found, negated, rest⟩
    · rw [hname] at happend
      rw [run_bracketNamed_none hname, run_bracketNamed_none happend]
      rfl
    · rw [hname] at happend
      have hfinish := (quiet_finishSet found negated).append { s with rest } t
      rw [run_bracketNamed_some hname, run_bracketNamed_some happend]
      change Option.map _ ((finishSet found negated).run ({ s with rest : PatternState }.append t)) = _
      rw [hfinish, Option.map_map, Option.map_map]
      rfl
  takes s found s' hrun := by
    rcases hname : bracketName? s.rest with _ | ⟨set, negated, rest⟩
    · rw [run_bracketNamed_none hname] at hrun
      obtain ⟨⟩ := hrun
      exact .inl ⟨Bool.false_ne_true, rfl⟩
    · rw [run_bracketNamed_some hname] at hrun
      obtain ⟨⟨finished, s₁⟩, hfinish, ⟨⟩⟩ := Option.map_eq_some_iff.mp hrun
      rw [(quiet_finishSet set negated).rest hfinish]
      exact .inr ⟨rfl, bracketName?_takes hname⟩

theorem classOp_attempts : Attempts (fun op => op.isSome) classOp :=
  .orElse (by decide) (by decide) rfl <| .orElse (by decide) (by decide) rfl <|
    .orElse (by decide) (by decide) rfl <| attempts_pure Bool.false_ne_true

theorem classLead_reads {odd : Members → PatternState → Prop} {fuel fuel' : Nat} (h : n ≤ fuel)
    (h' : n ≤ fuel') (acc : Members) :
    Reads none n 0 0 odd (classLead fuel acc) (classLead fuel' acc) := by
  refine Reads.fuel (fun _ _ => takes_pure) (fun fuel fuel' n ih acc => ?_) h h' acc
  unfold classLead
  refine .peek (Nat.le_refl 0) fun c => .ite (fun _ => ?_) fun _ => ?_
  · refine (Reads.first (.bumpSpace c) fun _ => ?_).loose
    exact .peek (Nat.le_refl 0) fun _ => (ih _).anyHead
  · refine .anyHead (.peek (Nat.le_refl 0) fun d => .ite (fun _ => ?_) fun _ => .pure)
    exact (Reads.first (.bumpSpace d) fun _ => .peek (Nat.le_refl 0) fun _ => .pure).loose

section

variable {fuel fuel' : Nat} {negated : Bool} {op : Option ClassOp} {left : Nested CharSet}
  {acc : Members}

theorem bracketed_step (h : n ≤ fuel + 1) (h' : n ≤ fuel' + 1)
    (hbody : ∀ negated lead, Reads none (n - 1) 1 1 never (classBody negated none ⟨[], 0⟩ lead fuel)
      (classBody negated none ⟨[], 0⟩ lead fuel')) :
    Reads (some '[') n 1 1 never (bracketed (fuel + 1)) (bracketed (fuel' + 1)) := by
  have hlead (negated : Bool) : Reads none (n - 1) 1 1 never
      (classLead fuel {} >>= fun lead => classBody negated none ⟨[], 0⟩ lead fuel)
      (classLead fuel' {} >>= fun lead => classBody negated none ⟨[], 0⟩ lead fuel') :=
    .weak (classLead_reads (by omega) (by omega) {}) (hbody negated)
  unfold bracketed
  refine .first (.bumpSpace '[') fun _ => Reads.loose (k := 1) ?_
  refine .peek (Nat.le_refl 1) fun c => .ite (fun _ => ?_) fun _ => (hlead _).anyHead
  refine .first (.bumpSpace c) fun _ => Reads.loose (k := 1) ?_
  refine .peek (Nat.le_refl 1) fun d => Reads.anyHead ?_
  exact (hlead _).mono (Nat.sub_le _ 1) (Nat.le_refl 1) (Nat.le_refl 1)

theorem classBody_step (hwhole : Reads (some '[') n 1 1 never (bracketed fuel) (bracketed fuel'))
    (hnext : ∀ op left acc, Reads none (n - 1) 1 1 never (classBody negated op left acc fuel)
      (classBody negated op left acc fuel')) :
    Reads none n 1 1 never (classBody negated op left acc (fuel + 1))
      (classBody negated op left acc (fuel' + 1)) := by
  unfold classBody
  refine .andThen .skipSpace fun _ => .peek (Nat.le_refl 1) fun c => .ite (fun hc => ?_) fun _ => ?_
  · obtain rfl : c = '[' := eq_of_beq hc
    refine .attempt bracketNamed_attempts (fun found h => ?_) fun found h => ?_
    · obtain ⟨set, rfl⟩ := Option.isSome_iff_exists.mp h
      exact hnext ..
    · obtain rfl := Option.not_isSome_iff_eq_none.mp h
      exact .first hwhole fun inner => (hnext ..).loose
  · refine .ite (fun _ => ?_) fun _ => ?_
    · refine .first (.bump c) fun _ => .andThen (quiet_combine _ _ _).reads fun whole => ?_
      exact .andThen (quiet_finishSet _ _).reads fun _ => .pure
    · refine .attempt classOp_attempts (fun next h => ?_) fun next h => ?_
      · obtain ⟨next, rfl⟩ := Option.isSome_iff_exists.mp h
        exact .andThen (quiet_combine _ _ _).reads fun whole => hnext ..
      · obtain rfl := Option.not_isSome_iff_eq_none.mp h
        -- What a range misses at the end, the class around it misses as well.
        have hrange := Reads.bind (i := 1) classRange_reads
          (fun found => hnext op left (acc.add ⟨found, 0⟩)) (Nat.le_refl 1) (Nat.le_refl 1)
        exact (hrange.mono (Nat.le_refl n) (Nat.le_refl 1) (Nat.le_succ 1)).anyHead

end

inductive ClassPart where
  | whole
  | body (negated : Bool) (op : Option ClassOp) (left : Nested CharSet) (acc : Members)

namespace ClassPart

def read (fuel : Nat) : ClassPart → Pattern (Nested CharSet)
  | .whole => bracketed fuel
  | .body negated op left acc => classBody negated op left acc fuel

def head : ClassPart → Option Char
  | .whole => some '['
  | .body .. => none

/-- The fuel for a text of less than `n` characters. -/
def need : ClassPart → Nat → Nat
  | .whole, n => 2 * (n - 1)
  | .body .., n => 2 * n - 1

theorem le_length (part : ClassPart) (h : part.need n = 0) (hs : Starts part.head cs) : n ≤ cs.length := by
  cases part with
  | whole =>
    obtain ⟨rest, rfl⟩ := hs '[' rfl
    simp only [need] at h
    rw [List.length_cons]
    omega
  | body =>
    simp only [need] at h
    omega

theorem read_reads {fuel fuel' : Nat} (part : ClassPart) (h : part.need n ≤ fuel)
    (h' : part.need n ≤ fuel') : Reads part.head n 1 1 never (part.read fuel) (part.read fuel') := by
  refine Reads.fuelled (g := read) (fun _ => never) head need
    (fun part n h cs hs => part.le_length h hs) (fun part s => ?_)
    (fun fuel fuel' ih n part h h' => ?_) part h h'
  · cases part <;> rintro _ _ ⟨⟩
  · have hbody (negated : Bool) (op : Option ClassOp) (left : Nested CharSet) (acc : Members)
        (h : 2 * (n - 1) ≤ fuel + 1) (h' : 2 * (n - 1) ≤ fuel' + 1) :=
      ih (n - 1) (.body negated op left acc) (by simp only [need]; omega) (by simp only [need]; omega)
    cases part with
    | whole =>
      simp only [need] at h h'
      exact bracketed_step (by omega) (by omega) fun negated lead => hbody negated none ⟨[], 0⟩ lead h h'
    | body negated op left acc =>
      simp only [need] at h h'
      exact classBody_step (ih n .whole (by simp only [need]; omega) (by simp only [need]; omega))
        fun op left acc => hbody negated op left acc (by omega) (by omega)

end ClassPart

theorem bracketed_reads {odd : Nested CharSet → PatternState → Prop} {fuel fuel' : Nat}
    (h : 2 * (n - 1) ≤ fuel) (h' : 2 * (n - 1) ≤ fuel') :
    Reads (some '[') n 1 1 odd (bracketed fuel) (bracketed fuel') :=
  (ClassPart.read_reads .whole h h').even

end Pattern
end Arazzo.Regex
