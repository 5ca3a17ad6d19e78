import Arazzo.Criterion
import Arazzo.Proofs.Decimal.Rounded
import Arazzo.Proofs.Decimal.Spelling
import Arazzo.Proofs.Json.Sound
import Arazzo.Proofs.Leads
import Arazzo.Proofs.Resolver.Body

/-! What comparing says of two values: the six operators agree with each other wherever neither side is a
text that names no number, and whole numbers are told apart as long as their doubles are. -/

namespace Arazzo

open Float.Model (UnpackedFloat)
open Float.Model.UnpackedFloat
open Decimal

namespace Comparison

theorem compare_turned (x y : UnpackedFloat) : y.compare x = (x.compare y).map Ordering.swap := by
  have hsigns (a b : Sign) : compare b a = (compare a b).swap := by cases a <;> cases b <;> rfl
  have hpairs (e e' : Int) (m m' : Nat) :
      (compare e' e).then (compare m' m) = ((compare e e').then (compare m m')).swap := by
    rw [Ordering.swap_then, ← Int.compare_swap, ← Nat.compare_swap]
  cases x with
  | infinity sign =>
    cases y with
    | infinity sign' => exact congrArg some (hsigns sign sign')
    | _ => cases sign <;> rfl
  | notANumber => cases y <;> rfl
  | zero sign =>
    cases y with
    | notANumber => rfl
    | zero sign' => rfl
    | _ sign' => cases sign' <;> rfl
  | finite sign m e hm =>
    cases y with
    | infinity sign' => cases sign <;> cases sign' <;> rfl
    | notANumber => rfl
    | zero sign' => cases sign <;> rfl
    | finite sign' m' e' hm' =>
      cases sign <;> cases sign' <;> try rfl
      · exact congrArg (fun o => some o.swap) (hpairs e e' m m')
      · exact congrArg some (hpairs e e' m m')

theorem compare_self {x : UnpackedFloat} (h : x.isNaN = false) : x.compare x = some .eq := by
  cases x with
  | infinity sign => cases sign <;> rfl
  | notANumber => cases h
  | zero sign => rfl
  | finite sign m e hm =>
    cases sign <;> simp [UnpackedFloat.compare]

theorem compare_eq_none_iff {x y : UnpackedFloat} :
    x.compare y = none ↔ x.isNaN = true ∨ y.isNaN = true := by
  cases x with
  | notANumber => simp [UnpackedFloat.compare, UnpackedFloat.isNaN]
  | infinity sign =>
    cases y <;> cases sign <;> simp [UnpackedFloat.compare, UnpackedFloat.isNaN]
  | zero sign =>
    cases y with
    | notANumber => simp [UnpackedFloat.compare, UnpackedFloat.isNaN]
    | zero sign' => simp [UnpackedFloat.compare, UnpackedFloat.isNaN]
    | _ sign' => cases sign' <;> simp [UnpackedFloat.compare, UnpackedFloat.isNaN]
  | finite sign m e hm =>
    cases y with
    | notANumber => cases sign <;> simp [UnpackedFloat.compare, UnpackedFloat.isNaN]
    | zero sign' => cases sign <;> simp [UnpackedFloat.compare, UnpackedFloat.isNaN]
    | _ sign' => cases sign <;> cases sign' <;> simp [UnpackedFloat.compare, UnpackedFloat.isNaN]

theorem orderFloats_eq (x y : Float) :
    orderFloats x y = x.toModel.unpack.compare y.toModel.unpack := by
  have hgt : x > y ↔ y.toModel.unpack.compare x.toModel.unpack = some .lt := lt_iff_compare
  have heq : (x == y) = true ↔ x.toModel.unpack.compare y.toModel.unpack = some .eq := by
    change (x.toModel.unpack.compare y.toModel.unpack == some .eq) = true ↔ _
    exact beq_iff_eq
  rw [compare_turned] at hgt
  unfold orderFloats
  simp only [lt_iff_compare, hgt, heq]
  rcases x.toModel.unpack.compare y.toModel.unpack with _ | _ | _ | _ <;> simp

/-- A text that is read as the double that is no number. -/
def spellsNaN : Json → Bool
  | .str s => namesNaN (Text.trimChars s.toList)
  | _ => false

/-- Both sides are numbers, and one of them is none. -/
def Unordered (left right : Json) : Prop :=
  (number? left).isSome ∧ (number? right).isSome ∧ (spellsNaN left ∨ spellsNaN right)

variable {left right value : Json}

theorem isNaN_number? (h : value.Sound) {x : Float} (hx : number? value = some x) :
    x.isNaN = spellsNaN value := by
  cases value with
  | num n =>
    obtain rfl := Option.some.inj hx
    have hfinite : n.toFloat.isFinite = true := h.number.toFloat_isFinite
    change n.toFloat.toModel.unpack.isFinite = true at hfinite
    change n.toFloat.toModel.unpack.isNaN = false
    cases hunpack : n.toFloat.toModel.unpack with
    | notANumber =>
      rw [hunpack] at hfinite
      cases hfinite
    | _ => rfl
  | str s => exact isNaN_float? hx
  | _ => cases hx

theorem isSome_number? (h : spellsNaN value = true) : (number? value).isSome := by
  cases value with
  | str s => exact isSome_float? h
  | _ => cases h

theorem orderTexts_turned (a b : String) : orderTexts b a = (orderTexts a b).swap := by
  unfold orderTexts
  by_cases hlt : a < b
  · have hne : b ≠ a := by
      rintro rfl
      exact String.lt_irrefl _ hlt
    rw [if_pos hlt, if_neg (String.lt_asymm hlt), if_neg hne]
    rfl
  · by_cases heq : a = b
    · subst heq
      rw [if_neg hlt, if_pos rfl]
      rfl
    · have hgt : b < a := by
        by_contra h
        exact heq (String.le_antisymm (String.not_lt.mp h) (String.not_lt.mp hlt))
      rw [if_neg hlt, if_neg heq, if_pos hgt]
      rfl

theorem orderTexts_self (a : String) : orderTexts a a = .eq := by
  rw [orderTexts, if_neg (String.lt_irrefl a), if_pos rfl]

theorem order_turned (left right : Json) :
    order right left = (order left right).map Ordering.swap := by
  unfold order
  cases number? left with
  | none =>
    cases number? right <;> exact congrArg some (orderTexts_turned ..)
  | some x =>
    cases number? right with
    | none => exact congrArg some (orderTexts_turned ..)
    | some y =>
      simp only [orderFloats_eq]
      exact compare_turned ..

theorem order_eq_none_iff (hleft : left.Sound) (hright : right.Sound) :
    order left right = none ↔ Unordered left right := by
  unfold order Unordered
  cases hl : number? left with
  | none => simp
  | some x =>
    cases hr : number? right with
    | none => simp
    | some y =>
      simp only [orderFloats_eq, compare_eq_none_iff, Option.isSome_some, true_and]
      rw [← isNaN_number? hleft hl, ← isNaN_number? hright hr]
      exact Iff.rfl

theorem order_self (hvalue : value.Sound) (h : spellsNaN value = false) :
    order value value = some .eq := by
  unfold order
  cases hnumber : number? value with
  | none => exact congrArg some (orderTexts_self _)
  | some x =>
    have hx : x.isNaN = false := (isNaN_number? hvalue hnumber).trans h
    exact (orderFloats_eq x x).trans (compare_self hx)

/-- What the operators say of two sides, and of the sides turned round. -/
structure Coherent (forth back : Operator → Bool) : Prop where
  one : [Operator.lt, .eq, .gt].countP forth = 1
  ne : forth .ne = !forth .eq
  le : forth .le = (forth .lt || forth .eq)
  ge : forth .ge = (forth .gt || forth .eq)
  turned : forth .lt = back .gt

theorem coherent_holds (order : Ordering) :
    Coherent (fun op => op.holds order) (fun op => op.holds order.swap) := by
  cases order <;> exact ⟨rfl, rfl, rfl, rfl, rfl⟩

theorem compareValues_scalars (condition : String) (op : Operator) (hl : isCompound left = false)
    (hr : isCompound right = false) :
    compareValues condition left right op =
      .ok (((order left right).map op.holds).getD (op == .ne)) := by
  unfold compareValues
  rw [hl, hr]
  cases order left right <;> rfl

/-- Two scalars always compare, and the operators agree with each other unless a side that names no number
meets a number: then only `!=` holds. -/
theorem compareValues_coherent (condition : String) (hleft : left.Sound) (hright : right.Sound)
    (hl : isCompound left = false) (hr : isCompound right = false) :
    ∃ forth back : Operator → Bool,
      (∀ op, compareValues condition left right op = .ok (forth op)) ∧
      (∀ op, compareValues condition right left op = .ok (back op)) ∧
      (Unordered left right → ∀ op, forth op = (op == .ne)) ∧
      (¬ Unordered left right → Coherent forth back) ∧
      compareValues condition left left .eq = .ok (!spellsNaN left) := by
  refine ⟨_, _, fun op => compareValues_scalars condition op hl hr,
    fun op => compareValues_scalars condition op hr hl, ?_, ?_, ?_⟩
  · intro h op
    rw [(order_eq_none_iff hleft hright).mpr h]
    rfl
  · intro h
    obtain ⟨o, ho⟩ := Option.ne_none_iff_exists'.mp (mt (order_eq_none_iff hleft hright).mp h)
    rw [order_turned left right, ho]
    exact coherent_holds o
  · rw [compareValues_scalars condition .eq hl hl]
    cases hspells : spellsNaN left with
    | false =>
      rw [order_self hleft hspells]
      rfl
    | true =>
      have hnumber := isSome_number? hspells
      rw [(order_eq_none_iff hleft hleft).mpr ⟨hnumber, hnumber, .inl hspells⟩]
      rfl

theorem compareValues_coherent_mixed : ∃ forth back : Operator → Bool,
    (∀ op, compareValues "" (.str " 1E1 ") (.num (.int 10)) op = .ok (forth op)) ∧
      Coherent forth back ∧ forth .eq = true := by
  have hordered : ¬ Unordered (.str " 1E1 ") (.num (.int 10)) := by
    rintro ⟨-, -, h | h⟩ <;> exact absurd h (by decide)
  have hten : Json.Number.Sound (.int 10) := ⟨by decide, by decide⟩
  obtain ⟨forth, back, hforth, -, -, hcoherent, -⟩ :=
    compareValues_coherent "" (.str " 1E1 ") (.num hten) rfl rfl
  have heq : compareValues "" (.str " 1E1 ") (.num (.int 10)) .eq = .ok true := rfl
  exact ⟨forth, back, hforth, hcoherent hordered, Except.ok.inj ((hforth .eq).symm.trans heq)⟩

/-- A text that names no number is not even equal to itself. -/
theorem compareValues_nan : [Operator.lt, .eq, .gt, .ne].map (compareValues "" (.str "nan") (.str "nan")) =
    [.ok false, .ok false, .ok false, .ok true] := rfl

variable {m n : Int} {op : Operator}

theorem order_ints (hm : Json.Number.Sound (.int m)) (hn : Json.Number.Sound (.int n)) :
    order (.num (.int m)) (.num (.int n)) = some (compare (rounded m) (rounded n)) := by
  have hbounds : -2 ^ 63 ≤ m ∧ m < 2 ^ 64 := hm
  have hbounds' : -2 ^ 63 ≤ n ∧ n < 2 ^ 64 := hn
  have hm : Stands (Float.ofInt m) (rounded m) := ofInt_stands (by omega)
  have hn : Stands (Float.ofInt n) (rounded n) := ofInt_stands (by omega)
  exact (orderFloats_eq ..).trans (hm.compare hn)

/-- Rounding does not turn an order round, it only makes numbers equal. -/
theorem holds_rounded_iff : op.holds (compare (rounded m) (rounded n)) = op.holds (compare m n) ↔
    (rounded m = rounded n → op.holds (compare m n) = op.holds .eq) := by
  rcases eq_or_ne (rounded m) (rounded n) with heq | hne
  · rw [compare_eq_iff_eq.mpr heq, eq_comm, forall_prop_of_true heq]
  · have hsame : compare (rounded m) (rounded n) = compare m n := by
      rcases lt_trichotomy m n with hlt | rfl | hgt
      · rw [compare_lt_iff_lt.mpr hlt, compare_lt_iff_lt.mpr ((rounded_mono hlt.le).lt_of_ne hne)]
      · exact absurd rfl hne
      · rw [compare_gt_iff_gt.mpr hgt, compare_gt_iff_gt.mpr ((rounded_mono hgt.le).lt_of_ne' hne)]
    exact iff_of_true (congrArg (Operator.holds · op) hsame) fun heq => absurd heq hne

/-- Work that comes to comparing two values: in a condition, or behind a query of a path. -/
inductive Compares (context : Context) (left : Json) (op : Operator) (right : Json) :
    Resolving CriterionError Bool → Resolver → Resolver → Prop
  | condition {text a b : String} {s s' s'' : Resolver}
      (ha : (Condition.operand context a).run s = (.ok left, s'))
      (hb : (Condition.operand context b).run s' = (.ok right, s'')) :
      Compares context left op right (Condition.evaluate context (.compare text a op b)) s s''
  | query {condition : String} {subject : Json} {a b : List Char} {s s' : Resolver}
      (hcut : Condition.cut? condition.toList = some (a, op, b))
      (ha : Criterion.select (Text.trim (String.ofList a)) subject = .ok (some left))
      (hb : (Condition.operand context (String.ofList b)).run s = (.ok right, s')) :
      Compares context left op right (Criterion.matchJsonPath context condition subject) s s'

theorem Compares.run_eq {context : Context} {work : Resolving CriterionError Bool}
    {s s' : Resolver} (h : Compares context left op right work s s') :
    ∃ condition, work.run s = (compareValues condition left right op, s') := by
  cases h with
  | @condition text a b s s' s'' ha hb =>
    refine ⟨text, ?_⟩
    unfold Condition.evaluate
    rw [run_bind_ok ha, run_bind_ok hb]
    exact run_except ..
  | @query condition subject a b s s' hcut ha hb =>
    refine ⟨condition, ?_⟩
    unfold Criterion.matchJsonPath
    rw [hcut]
    have hselected : (liftM (Criterion.select (Text.trim (String.ofList a)) subject) :
        Resolving CriterionError (Option Json)).run s = (.ok (some left), s) := by
      rw [run_except, ha]
    rw [run_bind_ok hselected, run_bind_ok hb]
    exact run_except ..

/-- Whole numbers compare as the doubles next to them do: the answer is the exact one unless two numbers
are taken for one, and up to `2 ^ 53` they never are. -/
theorem Compares.integers {context : Context} {work : Resolving CriterionError Bool}
    {s s' : Resolver} (hm : Json.Number.Sound (.int m)) (hn : Json.Number.Sound (.int n))
    (h : Compares context (.num (.int m)) op (.num (.int n)) work s s') :
    work.run s = (.ok (op.holds (compare (rounded m) (rounded n))), s') ∧
      (work.run s = (.ok (op.holds (compare m n)), s') ↔
        (rounded m = rounded n → op.holds (compare m n) = op.holds .eq)) ∧
      (m.natAbs ≤ 2 ^ 53 → n.natAbs ≤ 2 ^ 53 → work.run s = (.ok (op.holds (compare m n)), s')) := by
  have hrun : work.run s = (.ok (op.holds (compare (rounded m) (rounded n))), s') := by
    obtain ⟨condition, hwork⟩ := h.run_eq
    rw [hwork, compareValues_scalars condition op rfl rfl, order_ints hm hn]
    rfl
  refine ⟨hrun, ?_, fun hsmall hsmall' => ?_⟩
  · rw [← holds_rounded_iff, hrun, Prod.mk.injEq, Except.ok.injEq, and_iff_left rfl]
  · rw [hrun, rounded_of_le hsmall, rounded_of_le hsmall']

open Resolver (responded blank)

theorem Compares.integers_query : (Criterion.matchJsonPath (responded .null) "$.id <= 9007199254740993"
    (.obj [("id", .num (.int 9007199254740996))])).run blank = (.ok false, blank) := by
  have hcut : Condition.cut? "$.id <= 9007199254740993".toList =
      some ("$.id ".toList, .le, " 9007199254740993".toList) := by decide +kernel
  have hselect : Criterion.select "$.id" (.obj [("id", .num (.int 9007199254740996))]) =
      .ok (some (.num (.int 9007199254740996))) := rfl
  have hright : (Condition.operand (responded .null) " 9007199254740993").run blank =
      (.ok (.num (.int 9007199254740993)), blank) := rfl
  have happart : rounded 9007199254740996 ≠ rounded 9007199254740993 := by decide
  have hquery : Compares (responded .null) (.num (.int 9007199254740996)) .le
      (.num (.int 9007199254740993)) (Criterion.matchJsonPath (responded .null) "$.id <= 9007199254740993"
        (.obj [("id", .num (.int 9007199254740996))])) blank blank := .query hcut hselect hright
  have hexact := (hquery.integers ⟨by decide, by decide⟩ ⟨by decide, by decide⟩).2.1
  exact hexact.mpr fun heq => absurd heq happart

/-- Two neighbours beyond `2 ^ 53` are taken for one number. -/
theorem neighbours_equal : (Criterion.holds (responded .null)
    ⟨none, "9007199254740993 == 9007199254740992", none, []⟩).run blank = (.ok true, blank) := by
  have hparse : Condition.parse (Text.trim "9007199254740993 == 9007199254740992") =
      .compare "9007199254740993 == 9007199254740992" "9007199254740993 " .eq " 9007199254740992" := by
    cbv
  change (Condition.evaluate (responded .null) (Condition.parse (Text.trim
    "9007199254740993 == 9007199254740992"))).run blank = _
  rw [hparse]
  rfl

end Comparison
end Arazzo
