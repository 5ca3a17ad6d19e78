import Arazzo.Proofs.Regex.Classes

/-! Groups, branches and alternatives, read with a tail behind them. -/

namespace Arazzo.Regex

open Text

namespace Pattern

variable {s s' : PatternState} {t cs : List Char} {c : Char} {n j k : Nat}

theorem primitive_reads : Reads none n 1 1 (fun _ => Braced) primitive primitive := by
  unfold primitive
  refine .peek (Nat.le_refl 1) fun c => .ite (fun _ => ?_) fun _ => ?_
  · refine .firstOdd escape_reads (fun item => ?_) ?_
    · cases item with
      | char c => exact .flags fun _ => .ite (fun _ => .stopped) fun _ => (quiet_literal c).reads
      | set set => exact .pure
      | look look => exact .pure
      | dot => exact quiet_dot.reads
    · rintro _ s _ _ ⟨⟨look, rfl⟩, hbraced⟩ ⟨⟩
      exact hbraced
  · refine .first (.bump c) fun _ => ?_
    split
    · exact quiet_dot.reads
    · exact .flags fun _ => .pure
    · exact .flags fun _ => .pure
    · exact (quiet_literal _).reads

theorem run_count_closing (h : s.rest = ')' :: cs) : count.run s = none := by
  cases s
  obtain rfl := h
  rfl

theorem run_bounds_braced (h : Braced s) : bounds.run s = none := by
  obtain ⟨cs, hrest, hclosing⟩ := h
  obtain ⟨u, hu⟩ := List.head?_eq_some_iff.mp hclosing
  unfold bounds
  rw [run_bind_some (run_bumpSpace hrest), hu, run_bind_some (run_peek rfl)]
  exact run_bind_none (run_count_closing rfl)

theorem run_branch_braced (h : Braced s) (fuel : Nat) (items : Row) :
    (branch fuel items).run s = none := by
  cases fuel with
  | zero => rfl
  | succ fuel =>
    obtain ⟨cs, hrest, hclosing⟩ := h
    have hspace : skipSpace.run s = some ((), s) := run_skipSpace_plain hrest rfl (by decide)
    have hpeek : peek?.run s = some (some '\x7b', s) := by
      change some (s.rest.head?, s) = _
      rw [hrest]
      rfl
    unfold branch
    rw [run_bind_some hspace, run_bind_some hpeek]
    exact run_bind_none (run_bounds_braced ⟨cs, hrest, hclosing⟩)

theorem skipReluctant_reads {odd : Unit → PatternState → Prop} :
    Reads none n j 0 odd skipReluctant skipReluctant :=
  .bumpIf (by decide) (by decide) .pure .pure

theorem readFlags_reads {odd : Flags × Bool → PatternState → Prop} {fuel fuel' : Nat} (h : n ≤ fuel)
    (h' : n ≤ fuel') (dangling : Option Bool) (seen : List Char) (f : Flags) :
    Reads none n 0 0 odd (readFlags fuel dangling seen f) (readFlags fuel' dangling seen f) := by
  refine Reads.fuel (g := fun fuel (a : Option Bool × List Char × Flags) => readFlags fuel a.1 a.2.1 a.2.2)
    (fun _ _ => by rintro _ _ ⟨⟩) (fun fuel fuel' n ih a => ?_) h h' (dangling, seen, f)
  unfold readFlags
  refine .peek (Nat.le_refl 0) fun c => .ite (fun _ => ?_) fun _ => ?_
  · exact .ite (fun _ => .stopped) fun _ => .pure
  · refine .ite (fun _ => .stopped) fun _ => (Reads.first (.bump c) fun _ => ?_).loose
    split
    · exact ih (_, _, _)
    · exact ih (_, _, _)
    · exact ih (_, _, _)
    · exact ih (_, _, _)
    · exact ih (_, _, _)
    · exact ih (_, _, _)
    · exact ih (_, _, _)
    · exact ih (_, _, _)
    · exact .failure

theorem captureName?_append (ht : Tail t) (names : List String) (cs : List Char) :
    captureName? names (cs ++ t) = (captureName? names cs).map fun p => (p.1, p.2 ++ t) := by
  unfold captureName?
  rcases upTo_append ht (by decide : ')' ≠ '>') (by decide) cs with
    ⟨hnone, hnone'⟩ | ⟨rest, hrest, hrest', hname⟩
  · rw [hnone, hnone']
    cases cs.takeWhile (· != '>') <;> cases (cs ++ t).takeWhile (· != '>') <;> rfl
  · rw [hname, hrest, hrest']
    cases cs.takeWhile (· != '>') with
    | nil => rfl
    | cons c name =>
      simp only
      split <;> rfl

theorem captureName?_takes {names : List String} {name : String} {rest : List Char}
    (h : captureName? names cs = some (name, rest)) : rest <:+ cs ∧ rest.length < cs.length := by
  unfold captureName? at h
  split at h
  · rename_i c name' rest' hname hrest
    obtain ⟨-, ⟨⟩⟩ := Option.ite_none_right_eq_some.mp h
    have hsuffix : '>' :: rest <:+ cs := hrest ▸ List.dropWhile_suffix _
    exact ⟨(List.suffix_cons ..).trans hsuffix, hsuffix.length_le⟩
  · cases h

theorem run_captureName (s : PatternState) : captureName.run s =
    (captureName? s.names s.rest).map fun p => ((), { s with rest := p.2, names := p.1 :: s.names }) := by
  unfold captureName
  rw [run_bind_some (run_get s)]
  rcases captureName? s.names s.rest with _ | ⟨name, rest⟩ <;> rfl

theorem captureName_attempts : Attempts (fun _ => True) captureName where
  append s t ht := by
    have happend : captureName? (s.append t).names (s.append t).rest = _ :=
      captureName?_append ht s.names s.rest
    rw [run_captureName, run_captureName, happend, Option.map_map, Option.map_map]
    rfl
  takes s _ s' hrun := by
    rw [run_captureName] at hrun
    obtain ⟨⟨name, rest⟩, hname, ⟨⟩⟩ := Option.map_eq_some_iff.mp hrun
    exact .inr ⟨trivial, captureName?_takes hname⟩

theorem opening_reads {odd : Opening → PatternState → Prop} : Reads (some c) n 1 1 odd opening opening := by
  unfold opening
  refine .first (.bump c) fun _ => .andThen .skipSpace fun _ => .flags fun f => .get fun s t ht hlonger => ?_
  have hmark (mark : String) (hmark : ')' ∉ mark.toList) :
      startsWith mark.toList (s.append t).rest = startsWith mark.toList s.rest :=
    startsWith_append ht hmark s.rest
  have hmarks : (["?=", "?!", "?<=", "?<!"].any fun mark => startsWith mark.toList (s.append t).rest) =
      ["?=", "?!", "?<=", "?<!"].any fun mark => startsWith mark.toList s.rest := by
    simp only [List.any_cons, List.any_nil]
    rw [hmark "?=" (by decide), hmark "?!" (by decide), hmark "?<=" (by decide), hmark "?<!" (by decide)]
  simp only [hmarks]
  refine .ite (fun _ => .stopped) fun _ => ?_
  refine .bumpIf (by decide) (by decide) ?_ <| .bumpIf (by decide) (by decide) ?_ <|
    .bumpIf (by decide) (by decide) ?_ .pure
  · exact .attempt captureName_attempts (fun _ _ => .pure) fun _ h => absurd trivial h
  · exact .attempt captureName_attempts (fun _ _ => .pure) fun _ h => absurd trivial h
  · refine Reads.loose (k := 1) (.weak (readFlags_reads (by omega) (by omega) none [] f) fun flags => ?_)
    refine .peek (Nat.le_refl 1) fun mark => .first (.bump mark) fun _ => .ite (fun _ => .pure) fun _ => ?_
    exact .ite (fun _ => .pure) fun _ => .failure

section

variable {fuel fuel' : Nat} {items : Row}

theorem alternatives_step (hbranch : Reads none n 1 0 never (branch fuel []) (branch fuel' []))
    (hmore : Reads none (n - 1) 1 0 never (alternatives fuel) (alternatives fuel')) :
    Reads none n 1 0 never (alternatives (fuel + 1)) (alternatives (fuel' + 1)) := by
  unfold alternatives
  refine .andThen hbranch fun first => .bumpIf (by decide) (by decide) ?_ .pure
  exact .andThen hmore fun _ => .pure

theorem branch_step (h : 2 * (n - 1) ≤ fuel) (h' : 2 * (n - 1) ≤ fuel')
    (hinner : Reads none (n - 1) 1 0 never (alternatives fuel) (alternatives fuel'))
    (hnext : ∀ items, Reads none (n - 1) 1 0 never (branch fuel items) (branch fuel' items)) :
    Reads none n 1 0 never (branch (fuel + 1) items) (branch (fuel' + 1) items) := by
  have hrepeat (c : Char) (least : Nat) (most : Option Nat) : Reads (some c) n 1 0 never
      (do
        bump
        skipReluctant
        branch fuel (← items.repeated least most))
      (do
        bump
        skipReluctant
        branch fuel' (← items.repeated least most)) := by
    refine (Reads.first (.bump c) fun _ => .andThen skipReluctant_reads fun _ => ?_).loose
    exact .andThen (quiet_repeated _ _ _).reads hnext
  unfold branch
  refine .andThen .skipSpace fun _ => .peek? (fun c => ?_) .pure rfl
  split
  · exact .pure
  · exact .pure
  · exact .pure
  · refine .flags fun outer => (Reads.first opening_reads fun opened => ?_).loose
    cases opened with
    | flags inner => exact .andThen (.setFlags inner) fun _ => hnext _
    | group inner =>
      refine .andThen (.setFlags inner) fun _ => .andThen hinner fun body => ?_
      exact .andThen (expect_reads ')').loose fun _ => .andThen (.setFlags outer) fun _ => hnext _
  · rename_i h
    obtain rfl := Option.some.inj h
    exact (Reads.first (bracketed_reads (by omega) (by omega)) fun set => hnext _).loose
  · exact hrepeat ..
  · exact hrepeat ..
  · exact hrepeat ..
  · rename_i h
    obtain rfl := Option.some.inj h
    refine (Reads.first bounds_reads fun range => .andThen skipReluctant_reads fun _ => ?_).loose
    exact .andThen (quiet_repeated _ _ _).reads hnext
  -- A brace that is left over makes the branch fail, alone and with more text behind it.
  · refine .anyHead (Reads.loose (k := 1) ?_)
    refine .firstOdd primitive_reads (fun r => hnext _) fun r s _ _ hbraced hrun => ?_
    rw [run_branch_braced hbraced] at hrun
    cases hrun

end

inductive PatternPart where
  | whole
  | rest (items : Row)

namespace PatternPart

def Result : PatternPart → Type
  | .whole => Branches
  | .rest _ => Nested Regex

def read (fuel : Nat) : (part : PatternPart) → Pattern part.Result
  | .whole => alternatives fuel
  | .rest items => branch fuel items

def need : PatternPart → Nat → Nat
  | .whole, n => 2 * n
  | .rest _, n => 2 * n - 1

theorem read_reads {fuel fuel' : Nat} (part : PatternPart) (h : part.need n ≤ fuel)
    (h' : part.need n ≤ fuel') : Reads none n 1 0 never (part.read fuel) (part.read fuel') := by
  refine Reads.fuelled (g := read) (fun _ => never) (fun _ => none) need
    (fun part n h cs _ => ?_) (fun part s => ?_) (fun fuel fuel' ih n part h h' => ?_) part h h'
  · cases part <;> simp only [need] at h <;> omega
  · cases part <;> rintro _ _ ⟨⟩
  · have hless (h : 2 * (n - 1) ≤ fuel) (h' : 2 * (n - 1) ≤ fuel') := ih (n - 1) .whole h h'
    cases part with
    | whole =>
      simp only [need] at h h'
      have hbranch := ih n (.rest []) (by simp only [need]; omega) (by simp only [need]; omega)
      exact alternatives_step hbranch (hless (by omega) (by omega))
    | rest items =>
      simp only [need] at h h'
      refine branch_step (by omega) (by omega) (hless (by omega) (by omega)) fun items => ?_
      exact ih (n - 1) (.rest items) (by simp only [need]; omega) (by simp only [need]; omega)

end PatternPart

end Pattern
end Arazzo.Regex
