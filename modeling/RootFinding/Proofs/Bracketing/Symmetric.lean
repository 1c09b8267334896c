import RootFinding.Proofs.Bracketing.Reversed
import RootFinding.Proofs.Bracketing.Shrinking
import RootFinding.Proofs.Iteration.Arguments

/-!
# The scale of a function

Values enter a search by their ratios, by which of two is the smaller one and by whether they are on
one side of zero. A function that is negated, or over exact fractions multiplied by any constant
other than zero, is searched at the same points.
-/
namespace RootFinding.Brent
open Number Double

section Indistinct
variable {Raw ρ α : Type} [Scalar α] [Reading Raw ρ α] {answers : Raw → Raw → Prop}
  {values : ρ → ρ → Prop} {tol lower upper : α} {s s' : Points α ρ}

/-- The same points with related values. -/
inductive Points.Mirrored (values : ρ → ρ → Prop) : Points α ρ → Points α ρ → Prop
  | mk {a b c d e : α} {fa fb fc fa' fb' fc' : ρ} (ha : values fa fa') (hb : values fb fb')
    (hc : values fc fc') :
    Mirrored values ⟨a, fa, b, fb, c, fc, d, e⟩ ⟨a, fa', b, fb', c, fc', d, e⟩

inductive Ending.Mirrored (values : ρ → ρ → Prop) : Ending α ρ → Ending α ρ → Prop
  | root (x : α) (iterations : Nat) : Mirrored values (.root x iterations) (.root x iterations)
  | exhausted {a b : α} {fa fb fa' fb' : ρ} (ha : values fa fa') (hb : values fb fb')
    (iterations : Nat) :
    Mirrored values (.exhausted a b fa fb iterations) (.exhausted a b fa' fb' iterations)

/-- A change of the answers that no decision of a search sees. -/
structure Indistinct (Raw : Type) {ρ α : Type} [Scalar α] [Reading Raw ρ α]
    (answers : Raw → Raw → Prop) (values : ρ → ρ → Prop) : Prop where
  ends {y y' z z' : Raw} (hy : answers y y') (hz : answers z z') :
    Corresponds (fun p q => values p.1 q.1 ∧ values p.2 q.2) (Reading.ends y z)
      (Reading.ends y' z')
  accept {y y' : Raw} (hy : answers y y') :
    Corresponds values (Reading.accept y) (Reading.accept y')
  positive {x x' y y' : ρ} (hx : values x x') (hy : values y y') :
    Reading.productPositive Raw x' y' = Reading.productPositive Raw x y
  smaller {x x' y y' : ρ} (hx : values x x') (hy : values y y') :
    Reading.smaller Raw x' y' = Reading.smaller Raw x y
  asymm {x y : ρ} (h : Reading.smaller Raw x y = true) : Reading.smaller Raw y x = false
  isZero {x x' : ρ} (hx : values x x') : Reading.isZero Raw x' = Reading.isZero Raw x
  /-- A far value that is no smaller than a best one other than zero tells its side. -/
  sameSide {x x' y y' best : ρ} (hx : values x x') (hy : values y y')
    (hfar : Reading.smaller Raw y best = false) (hopen : Reading.isZero Raw best = false) :
    Reading.sameSide Raw x' y' = Reading.sameSide Raw x y
  step {tol : α} {s s' : Points α ρ} (hs : s.Mirrored values s') :
    chooseStep Raw tol s' = chooseStep Raw tol s

namespace Indistinct
variable (hi : Indistinct Raw answers values)

include hi in
theorem ordered (hs : s.Mirrored values s') :
    (s.ordered Raw).Mirrored values (s'.ordered Raw) := by
  obtain ⟨ha, hb, hc⟩ := hs
  unfold Points.ordered
  dsimp only
  rw [hi.smaller hc hb]
  split
  · exact ⟨hb, hc, hb⟩
  · exact ⟨ha, hb, hc⟩

include hi in
theorem not_smaller_ordered (s : Points α ρ) :
    Reading.smaller Raw (s.ordered Raw).fc (s.ordered Raw).fb = false := by
  unfold Points.ordered
  split
  · rename_i h
    exact hi.asymm h
  · rename_i h
    exact Bool.eq_false_iff.2 h

theorem isZero_of_open (h : ¬isClosed Raw tol s = true) : Reading.isZero Raw s.fb = false := by
  unfold isClosed at h
  rw [Bool.or_eq_true] at h
  exact Bool.eq_false_iff.2 fun h0 => h (.inr h0)

include hi in
theorem isClosed_eq (hs : s.Mirrored values s') : isClosed Raw tol s' = isClosed Raw tol s := by
  obtain ⟨ha, hb, hc⟩ := hs
  unfold isClosed
  rw [hi.isZero hb]
  rfl

include hi in
theorem settle (hs : s.Mirrored values s') {fx fx' : ρ} (hx : values fx fx') (x d e : α)
    (hfar : Reading.smaller Raw s.fc s.fb = false) (hopen : Reading.isZero Raw s.fb = false) :
    Corresponds (Points.Mirrored values) (settle Raw s x fx d e) (settle Raw s' x fx' d e) := by
  obtain ⟨ha, hb, hc⟩ := hs
  unfold Brent.settle
  dsimp only at hfar hopen ⊢
  rw [hi.sameSide hx hc hfar hopen]
  generalize Reading.sameSide Raw fx _ = side
  cases side with
  | error cause => exact .error cause
  | ok same =>
    cases same with
    | true => exact .ok ⟨hb, hx, hb⟩
    | false => exact .ok ⟨hb, hx, hc⟩

include hi in
theorem iterate (left done : Nat) (hs : s.Mirrored values s') :
    Search.Mirrored answers (Ending.Mirrored values) (iterate tol left done s : Searching Raw ρ α)
      (iterate tol left done s') := by
  induction left generalizing done s s' with
  | zero =>
    have hord := hi.ordered hs
    rw [Brent.iterate, Brent.iterate]
    generalize s.ordered Raw = p at hord
    generalize s'.ordered Raw = p' at hord
    obtain ⟨ha, hb, hc⟩ := hord
    exact .report rfl (.done (.exhausted ha hb done))
  | succ left ih =>
    have hord := hi.ordered hs
    have hfar := hi.not_smaller_ordered s
    rw [Brent.iterate, Brent.iterate]
    generalize s.ordered Raw = p at hord hfar
    generalize s'.ordered Raw = p' at hord
    dsimp only
    rw [hi.isClosed_eq hord, hi.step hord]
    by_cases hclosed : isClosed Raw tol p = true
    · rw [if_pos hclosed, if_pos hclosed]
      obtain ⟨ha, hb, hc⟩ := hord
      exact .report rfl (.done (.root _ done))
    · rw [if_neg hclosed, if_neg hclosed]
      apply Search.Mirrored.attempt (Corresponds.of_eq rfl fun _ => rfl)
      rintro ⟨d, e⟩ _ rfl
      have hx : advance tol p' d = advance tol p d := by
        obtain ⟨ha, hb, hc⟩ := hord
        rfl
      dsimp only
      rw [hx]
      apply Search.Mirrored.evaluate
      intro y y' hy
      apply Search.Mirrored.attempt (hi.accept hy)
      intro fx fx' hfx
      refine .report (by rfl) ?_
      apply Search.Mirrored.attempt (hi.settle hord hfx _ d e hfar (isZero_of_open hclosed))
      intro q q' hq
      exact ih (done + 1) hq

include hi in
theorem search (limit : Nat) :
    Search.Mirrored answers (Ending.Mirrored values)
      (search limit tol lower upper : Searching Raw ρ α) (search limit tol lower upper) := by
  apply Search.Mirrored.evaluate
  intro y y' hy
  apply Search.Mirrored.evaluate
  intro z z' hz
  apply Search.Mirrored.attempt (hi.ends hy hz)
  rintro ⟨fa, fb⟩ ⟨fa', fb'⟩ ⟨ha, hb⟩
  dsimp only
  rw [hi.positive ha hb]
  apply Search.Mirrored.attempt (Corresponds.of_eq rfl fun _ => rfl)
  rintro same _ rfl
  cases same with
  | true => exact .fail _
  | false => exact .report rfl (hi.iterate (limit + 1) 0 ⟨ha, hb, ha⟩)

end Indistinct
end Indistinct

def Ending.mapValues {α ρ : Type} (change : ρ → ρ) : Ending α ρ → Ending α ρ
  | .root x iterations => .root x iterations
  | .exhausted a b fa fb iterations => .exhausted a b (change fa) (change fb) iterations

theorem Ending.Mirrored.eq_mapValues {α ρ : Type} {values : ρ → ρ → Prop} {change : ρ → ρ}
    (hchange : ∀ x y, values x y → y = change x) {outcome outcome' : Except Failure (Ending α ρ)}
    (h : Corresponds (Ending.Mirrored values) outcome outcome') :
    outcome' = outcome.map (Ending.mapValues change) := by
  cases h with
  | error cause => rfl
  | ok hend =>
    cases hend with
    | root x iterations => rfl
    | exhausted ha hb iterations =>
      rw [hchange _ _ ha, hchange _ _ hb]
      rfl

/-- Steps that are equal in value, and so beyond the sign of an undefined number. -/
def SameValues (pq pq' : Double × Double) : Prop :=
  pq.1.value = pq'.1.value ∧ pq.2.value = pq'.2.value

theorem oriented_congr {pq pq' : Double × Double} (h : SameValues pq pq') :
    SameValues (oriented pq) (oriented pq') := by
  obtain ⟨h₁, h₂⟩ := h
  unfold oriented
  change SameValues (if (0 : Double).value < pq.1.value then _ else _)
    (if (0 : Double).value < pq'.1.value then _ else _)
  rw [h₁]
  split
  · exact ⟨h₁, congrArg Neg.neg h₂⟩
  · exact ⟨congrArg Neg.neg h₁, h₂⟩

theorem acceptable_congr {pq pq' : Double × Double} (h : SameValues pq pq')
    (tol1 xm e : Double) : acceptable tol1 xm e pq = acceptable tol1 xm e pq' := by
  obtain ⟨h₁, h₂⟩ := h
  unfold acceptable
  change (decide ((2 * pq.1).value < (3 * xm * pq.2 - (tol1 * pq.2).abs).value) &&
      decide (pq.1.value < (Scalar.half * e * pq.2).abs.value)) =
    (decide ((2 * pq'.1).value < (3 * xm * pq'.2 - (tol1 * pq'.2).abs).value) &&
      decide (pq'.1.value < (Scalar.half * e * pq'.2).abs.value))
  simp only [mul_value, sub_value, abs_value, h₁, h₂]

theorem quotient_congr {pq pq' : Double × Double} (h : SameValues pq pq') {tol1 xm e : Double}
    (ha : acceptable tol1 xm e pq = true) : pq.1 / pq.2 = pq'.1 / pq'.2 := by
  have hdefined {r : Double × Double} (hr : acceptable tol1 xm e r = true) :
      r.1.Defined ∧ r.2.Defined := by
    unfold acceptable at hr
    rw [Bool.and_eq_true] at hr
    obtain ⟨h₁, h₂⟩ := defined_of_lt (of_decide_eq_true hr.2)
    exact ⟨h₁, defined_of_mul_right (defined_of_abs h₂)⟩
  obtain ⟨hp, hq⟩ := hdefined ha
  obtain ⟨hp', hq'⟩ := hdefined (acceptable_congr h tol1 xm e ▸ ha)
  rw [div_of_defined hp hq, div_of_defined hp' hq', h.1, h.2]

def stepBy (p : Points Double Double) (u q r : Double) : Double × Double :=
  if p.a == p.c then (2 * halfGap p * u, 1 - u)
  else (u * (2 * halfGap p * q * (q - r) - (p.b - p.a) * (r - 1)), (q - 1) * (r - 1) * (u - 1))

theorem interpolation_eq (p : Points Double Double) :
    interpolation Double p = .ok (stepBy p (p.fb / p.fa) (p.fa / p.fc) (p.fb / p.fc)) := by
  unfold interpolation stepBy
  split <;> rfl

theorem stepBy_congr (p : Points Double Double) {u u' q q' r r' : Double} (hu : u.value = u'.value)
    (hq : q.value = q'.value) (hr : r.value = r'.value) :
    SameValues (stepBy p u q r) (stepBy p u' q' r') := by
  unfold stepBy
  split <;> constructor <;> simp [hu, hq, hr]

theorem chooseStep_eq (tol : Double) {p : Points Double Double} {pq : Double × Double}
    (h : interpolation Double p = .ok pq) :
    chooseStep Double tol p = .ok (
      if resolution tol p ≤ p.e.abs ∧ p.fb.abs < p.fa.abs ∧
        acceptable (resolution tol p) (halfGap p) p.e (oriented pq) = true
      then ((oriented pq).1 / (oriented pq).2, p.d) else (halfGap p, halfGap p)) := by
  unfold chooseStep
  rw [h]
  change (if (decide (resolution tol p ≤ p.e.abs) && decide (p.fb.abs < p.fa.abs) : Bool) then
      Except.ok (if acceptable (resolution tol p) (halfGap p) p.e (oriented pq) = true then
        ((oriented pq).1 / (oriented pq).2, p.d) else (halfGap p, halfGap p))
    else Except.ok (halfGap p, halfGap p)) = _
  by_cases hlong : resolution tol p ≤ p.e.abs <;> by_cases hless : p.fb.abs < p.fa.abs <;>
    simp [hlong, hless]

def Points.opposite (p : Points Double Double) : Points Double Double :=
  { p with fa := -p.fa, fb := -p.fb, fc := -p.fc }

theorem chooseStep_opposite (tol : Double) (p : Points Double Double) :
    chooseStep Double tol p.opposite = chooseStep Double tol p := by
  have hsame : SameValues (stepBy p (p.fb / p.fa) (p.fa / p.fc) (p.fb / p.fc))
      (stepBy p (-p.fb / -p.fa) (-p.fa / -p.fc) (-p.fb / -p.fc)) :=
    stepBy_congr p (by simp) (by simp) (by simp)
  have hor := oriented_congr hsame
  rw [chooseStep_eq tol (interpolation_eq p), chooseStep_eq tol (interpolation_eq p.opposite)]
  change Except.ok (if resolution tol p ≤ p.e.abs ∧ (-p.fb).abs < (-p.fa).abs ∧
    acceptable (resolution tol p) (halfGap p) p.e
      (oriented (stepBy p (-p.fb / -p.fa) (-p.fa / -p.fc) (-p.fb / -p.fc))) = true then _ else _) =
    _
  rw [Double.abs_neg, Double.abs_neg, ← acceptable_congr hor]
  congr 1
  split
  · rename_i h
    exact Prod.ext (quotient_congr hor h.2.2).symm rfl
  · rfl

/-- The turned value of an answer that is a double. -/
inductive Opposite : Quantity → Quantity → Prop
  | real (x : Double) : Opposite (.real x) (.real (-x))

inductive OppositeAnswer : Value → Value → Prop
  | real (x : Double) : OppositeAnswer (.real x) (.real (-x))

theorem pos_neg_mul_neg_iff (x y : Double) : 0 < -x * -y ↔ 0 < x * y := by
  rw [pos_iff, pos_iff, mul_value, mul_value, neg_value, neg_value, mul_neg_neg]

theorem indistinct_opposite : Indistinct Value OppositeAnswer Opposite where
  ends := by
    rintro _ _ _ _ ⟨x⟩ ⟨y⟩
    exact .ok ⟨.real x, .real y⟩
  accept := by
    rintro _ _ ⟨x⟩
    exact .ok (.real x)
  positive := by
    rintro _ _ _ _ ⟨x⟩ ⟨y⟩
    exact congrArg Except.ok (decide_eq_decide.2 (pos_neg_mul_neg_iff x y))
  smaller := by
    rintro _ _ _ _ ⟨x⟩ ⟨y⟩
    change decide ((-x).abs < (-y).abs) = decide (x.abs < y.abs)
    rw [Double.abs_neg, Double.abs_neg]
  asymm := not_smaller_of_smaller
  isZero := by
    rintro _ _ ⟨x⟩
    exact neg_beq_zero x
  sameSide := by
    rintro _ _ _ _ _ ⟨x⟩ ⟨y⟩ - -
    exact congrArg Except.ok (decide_eq_decide.2 (pos_neg_mul_sign_iff x y))
  step := by
    rintro tol _ _ ⟨⟨x⟩, ⟨y⟩, ⟨z⟩⟩
    exact chooseStep_opposite tol ⟨_, x, _, y, _, z, _, _⟩

def turnedQuantity : Quantity → Quantity
  | .real x => .real (-x)
  | x => x

def negated (f : Function) : Function := fun call =>
  match f call with
  | .ok (.value (.real x)) => .ok (.value (.real (-x)))
  | result => result

def RealsOrFails (f : Function) (run : Run) : Prop :=
  ∀ i x, run.evaluations[i]? = some (.real x) →
    (∃ y : Double, f { argument := .number x, number := i } = .ok (.value (.real y))) ∨
      ∃ cause, f { argument := .number x, number := i } = .error cause

variable {s : Solver} {options : RunOptions} {t : RootTolerance} {f : Function} {v w : Value}

theorem RealsOrFails.corresponds {run : Run} (hf : RealsOrFails f run) {i : Nat} {x : Double}
    (hx : run.evaluations[i]? = some (.real x)) :
    Corresponds OppositeAnswer ((bracketCaller s f).value i x)
      ((bracketCaller s (negated f)).value i x) := by
  change Corresponds _ (do return (← f _).toReading) (do return (← negated f _).toReading)
  unfold negated
  obtain ⟨y, hy⟩ | ⟨cause, hc⟩ := hf i x hx
  · rw [hy]
    exact .ok (.real y)
  · rw [hc]
    exact .error cause

/-- A solver makes the same calls for a function and for its negative, and ends alike but for the
signs of the values that it reports. -/
theorem runBracket_negated (hf : RealsOrFails f (s.runBracket options t f v w)) :
    (s.runBracket options t (negated f) v w).evaluations =
        (s.runBracket options t f v w).evaluations ∧
      ∃ ending : Except Failure (Ending Double Quantity),
        (s.runBracket options t f v w).outcome = ending.bind (s.settleBracket options) ∧
        (s.runBracket options t (negated f) v w).outcome =
          (ending.map (Ending.mapValues turnedQuantity)).bind (s.settleBracket options) := by
  rcases Solver.runBracket_cases v w with ⟨cause, -, hfailed⟩ | ⟨lower, upper, hl, hu⟩
  · rw [hfailed, hfailed]
    exact ⟨rfl, .error cause, rfl, rfl⟩
  · have hm : Search.Mirrored OppositeAnswer (Ending.Mirrored Opposite)
        (search s.limit.count (.ofFloat t.value) lower upper)
        (search s.limit.count (.ofFloat t.value) lower upper) :=
      indistinct_opposite.search _
    obtain ⟨hevals, -, hends⟩ := hm.run (bracketCaller s f) (bracketCaller s (negated f)) rfl
      (fun note note' hlevel => by
        change Progress.shows _ note = Progress.shows _ note'
        rw [Progress.shows, Progress.shows, hlevel]) (fun i x hx => by
        apply hf.corresponds
        rw [runBracket_of_bounds hl hu]
        change (Array.map Value.real _)[i]? = _
        rw [Array.getElem?_map]
        exact congrArg (Option.map Value.real) hx)
    have hopposite (x y : Quantity) (h : Opposite x y) : y = turnedQuantity x := by
      cases h
      rfl
    have hturn := Ending.Mirrored.eq_mapValues hopposite hends
    rw [runBracket_of_bounds hl hu, runBracket_of_bounds hl hu]
    refine ⟨congrArg (Array.map Value.real) hevals, _, rfl, ?_⟩
    exact congrArg (Except.bind · (s.settleBracket options)) hturn

theorem smaller_rat (x y : Rat) : Reading.smaller Rat x y = true ↔ |x| < |y| := by
  rw [← abs_eq, ← abs_eq]
  exact decide_eq_true_iff

theorem smaller_multiple {k : Rat} (hk : k ≠ 0) (x y : Rat) :
    Reading.smaller Rat (k * x) (k * y) = Reading.smaller Rat x y := by
  rw [Bool.eq_iff_iff, smaller_rat, smaller_rat, abs_mul, abs_mul]
  exact mul_lt_mul_iff_right₀ (abs_pos.2 hk)

theorem sameSide_rat {y : Rat} (hy : y ≠ 0) (x : Rat) :
    Reading.sameSide Rat x y = .ok (decide (0 < x * y)) := by
  change Except.ok (if y < 0 then decide (0 < -x) else decide (0 < x)) = _
  congr 1
  split_ifs with h
  · simp [mul_pos_iff, h, h.le.not_gt]
  · have hpos : 0 < y := lt_of_le_of_ne (not_lt.1 h) hy.symm
    simp [hpos]

theorem pos_multiple_mul_iff {k : Rat} (hk : k ≠ 0) (x y : Rat) :
    0 < k * x * (k * y) ↔ 0 < x * y := by
  have hsquare : 0 < k * k := mul_self_pos.2 hk
  rw [mul_mul_mul_comm]
  exact mul_pos_iff_of_pos_left hsquare

/-- Over exact fractions no decision of a search sees that the function was multiplied. -/
theorem indistinct_multiple {k : Rat} (hk : k ≠ 0) :
    Indistinct Rat (fun x y => y = k * x) (fun x y => y = k * x) where
  ends := by
    rintro x _ y _ rfl rfl
    exact .ok ⟨rfl, rfl⟩
  accept := by
    rintro x _ rfl
    exact .ok rfl
  positive := by
    rintro x _ y _ rfl rfl
    exact congrArg Except.ok (decide_eq_decide.2 (pos_multiple_mul_iff hk x y))
  smaller := by
    rintro x _ y _ rfl rfl
    exact smaller_multiple hk x y
  asymm := by
    intro x y h
    rw [Bool.eq_false_iff]
    intro h'
    exact lt_asymm ((smaller_rat x y).1 h) ((smaller_rat y x).1 h')
  isZero := by
    rintro x _ rfl
    change (k * x == 0) = (x == 0)
    simp [hk]
  sameSide := by
    rintro x _ y _ best rfl rfl hfar hopen
    have hbest : best ≠ 0 := by simpa using ne_of_beq_false hopen
    have hy : y ≠ 0 := by
      rintro rfl
      apply Bool.eq_false_iff.1 hfar
      rw [smaller_rat, abs_zero]
      exact abs_pos.2 hbest
    rw [sameSide_rat hy, sameSide_rat (mul_ne_zero hk hy)]
    exact congrArg Except.ok (decide_eq_decide.2 (pos_multiple_mul_iff hk x y))
  step := by
    rintro tol _ _ ⟨rfl, rfl, rfl⟩
    have hquotient (x y : Rat) :
        (Reading.quotient Rat (k * x) (k * y) : Except Failure Rat) = Reading.quotient Rat x y :=
      congrArg Except.ok (mul_div_mul_left x y hk)
    unfold chooseStep interpolation
    simp only [hquotient, smaller_multiple hk]
    rfl

/-- Over exact fractions a search makes the same calls for a function and for any multiple of it. -/
theorem run_search_multiple {k : Rat} (hk : k ≠ 0) (value : Nat → Rat → Rat) (shown : Nat → Bool)
    (limit : Nat) (tol lower upper : Rat) :
    let run := fun value : Nat → Rat → Rat => (search limit tol lower upper).run
      (answering value fun note => .ok (shown note.level))
    (run fun n x => k * value n x).evaluations = (run value).evaluations ∧
      (run fun n x => k * value n x).outcome =
        (run value).outcome.map (Ending.mapValues (k * ·)) := by
  have hm : Search.Mirrored _ (Ending.Mirrored _) (search limit tol lower upper)
      (search limit tol lower upper) := (indistinct_multiple hk).search limit
  obtain ⟨hevals, -, hends⟩ := hm.run
    (answering value fun note => .ok (shown note.level))
    (answering (fun n x => k * value n x) fun note => .ok (shown note.level)) rfl
    (fun note note' hlevel => congrArg (fun level => Except.ok (shown level)) hlevel)
    (fun i x _ => .ok rfl)
  exact ⟨hevals, Ending.Mirrored.eq_mapValues (fun _ _ h => h) hends⟩

/-- A bracketing search depends neither on the order of its endpoints nor on the scale of the
function.

- Where the values at the endpoints are numbers of different magnitudes, the other order gives the
  same run but for the first two calls.
- For the negative of a function that answers doubles, and possibly fails, the same calls are made.
  The end is the same but for the signs of the values that are reported.
- Over exact fractions that holds for each multiple of a function. -/
theorem search_symmetric (s : Solver) (options : RunOptions) (t : RootTolerance) :
    (∀ (f : Function) (v w : Value) (lower upper : Double) (x y : Quantity), f.Memoryless →
      v.toDouble = .ok lower → w.toDouble = .ok upper →
      f { argument := .number lower, number := 0 } = .ok (.value x.toValue) →
      f { argument := .number upper, number := 0 } = .ok (.value y.toValue) →
      x.smaller y = true ∨ y.smaller x = true →
      ∃ more, (s.runBracket options t f v w).evaluations =
          #[.real lower, .real upper] ++ more ∧
        s.runBracket options t f w v =
          { s.runBracket options t f v w with
            evaluations := #[.real upper, .real lower] ++ more }) ∧
    (∀ (f : Function) (v w : Value), RealsOrFails f (s.runBracket options t f v w) →
      (s.runBracket options t (negated f) v w).evaluations =
          (s.runBracket options t f v w).evaluations ∧
        ∃ ending : Except Failure (Ending Double Quantity),
          (s.runBracket options t f v w).outcome = ending.bind (s.settleBracket options) ∧
          (s.runBracket options t (negated f) v w).outcome =
            (ending.map (Ending.mapValues turnedQuantity)).bind (s.settleBracket options)) ∧
    (∀ (k : Rat) (value : Nat → Rat → Rat) (shown : Nat → Bool) (limit : Nat)
      (tol lower upper : Rat), k ≠ 0 →
      let run := fun value : Nat → Rat → Rat => (search limit tol lower upper).run
        (answering value fun note => .ok (shown note.level))
      (run fun n x => k * value n x).evaluations = (run value).evaluations ∧
        (run fun n x => k * value n x).outcome =
          (run value).outcome.map (Ending.mapValues (k * ·))) := by
  refine ⟨?_, ?_, ?_⟩
  · intro f v w lower upper x y hf hl hu hx hy h
    exact runBracket_reversed hf hl hu hx hy h
  · intro f v w hf
    exact runBracket_negated hf
  · intro k value shown limit tol lower upper hk
    exact run_search_multiple hk value shown limit tol lower upper

/-- The square of a number less two, searched between one and two and the other way round, negated
and multiplied. -/
theorem search_symmetric_square :
    (∃ more, (Solver.runBracket ⟨.brent halfTolerance, ⟨3, by decide⟩, .int 0⟩ {} halfTolerance
        squareLessTwo (.int 1) (.int 2)).evaluations = #[.real 1, .real 2] ++ more ∧
      Solver.runBracket ⟨.brent halfTolerance, ⟨3, by decide⟩, .int 0⟩ {} halfTolerance
        squareLessTwo (.int 2) (.int 1) =
          { Solver.runBracket ⟨.brent halfTolerance, ⟨3, by decide⟩, .int 0⟩ {} halfTolerance
              squareLessTwo (.int 1) (.int 2) with
            evaluations := #[.real 2, .real 1] ++ more }) ∧
    (Solver.runBracket ⟨.brent halfTolerance, ⟨3, by decide⟩, .int 0⟩ {} halfTolerance
        (negated squareLessTwo) (.int 1) (.int 2)).evaluations =
      (Solver.runBracket ⟨.brent halfTolerance, ⟨3, by decide⟩, .int 0⟩ {} halfTolerance
        squareLessTwo (.int 1) (.int 2)).evaluations ∧
    ((search 3 (1 / 2 : Rat) 1 2).run
        (answering (fun _ x => -3 * (x * x - 2)) fun _ => .ok false)).evaluations =
      ((search 3 (1 / 2 : Rat) 1 2).run
        (answering (fun _ x => x * x - 2) fun _ => .ok false)).evaluations := by
  obtain ⟨horder, hnegated, hmultiple⟩ := search_symmetric
    ⟨.brent halfTolerance, ⟨3, by decide⟩, .int 0⟩ {} halfTolerance
  refine ⟨?_, ?_, ?_⟩
  · exact horder squareLessTwo (.int 1) (.int 2) 1 2 (.real (1 * 1 - 2)) (.real (2 * 2 - 2))
      (fun _ _ => rfl) rfl rfl rfl rfl (.inl (by decide +kernel))
  · exact (hnegated squareLessTwo (.int 1) (.int 2) fun _ x _ => .inl ⟨x * x - 2, rfl⟩).1
  · exact (hmultiple (-3) (fun _ x => x * x - 2) (fun _ => false) 3 (1 / 2) 1 2 (by norm_num)).1

end RootFinding.Brent
