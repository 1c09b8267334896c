import RootFinding.Proofs.Bracketing.Refused
import RootFinding.Proofs.Bracketing.Strides
import RootFinding.Proofs.Iteration.Criterion

/-!
# Confined points

Where the difference of two finite bounds is finite, a search on doubles calls its function at
finite points between them only, whatever the function answers. Where the difference is too large
for a double, so is the width of the first bracket, and the search goes to infinity in its first
step.
-/
namespace RootFinding.Brent
open Number Double Search

/-- A finite double between two others. -/
structure Between (lower upper x : Double) : Prop where
  finite : x.Finite
  mem : x.amount ∈ Set.uIcc lower.amount upper.amount

/-- Points whose bracket lies between two bounds, and whose last steps are finite. -/
structure Confined {ρ : Type} (lower upper : Double) (p : Points Double ρ) : Prop where
  best : Between lower upper p.b
  far : Between lower upper p.c
  last : p.d.Finite
  before : p.e.Finite

section Invariant
variable {Raw ρ : Type} [Reading Raw ρ Double] {lower upper tol d e x y : Double} {fx : ρ}
  {p q s : Points Double ρ}

/-- The difference of two points between the bounds is finite if that of the bounds is. -/
theorem Between.sub_finite (hx : Between lower upper x) (hy : Between lower upper y)
    (hl : lower.Finite) (hu : upper.Finite) (h : (upper - lower).Finite) : (x - y).Finite := by
  refine (isRounded_sub hx.finite hy.finite).finite_iff.2 ?_
  exact (Set.abs_sub_le_of_uIcc_subset_uIcc (Set.uIcc_subset_uIcc hy.mem hx.mem)).trans_lt
    ((isRounded_sub hu hl).finite_iff.1 h)

theorem Confined.sound (h : Confined lower upper p) (hl : lower.Finite) (hu : upper.Finite)
    (hgap : (upper - lower).Finite) : Sound p :=
  ⟨h.best.finite, h.far.finite, h.far.sub_finite h.best hl hu hgap, h.last, h.before⟩

variable (Raw) in
theorem Confined.ordered (h : Confined lower upper s) : Confined lower upper (s.ordered Raw) := by
  unfold Points.ordered
  split
  · exact ⟨h.far, h.best, h.last, h.before⟩
  · exact h

/-- After a step the far end stays, or the steps start anew from the point before. -/
theorem settle_cases (h : settle Raw s x fx d e = .ok q) :
    q.b = x ∧ (q.c = s.c ∧ q.d = d ∧ q.e = e ∨ q.c = s.b ∧ q.d = x - s.b ∧ q.e = x - s.b) := by
  unfold settle at h
  obtain ⟨same, -, h⟩ := exists_of_bind_eq_ok h
  cases h
  cases same with
  | false => exact ⟨rfl, .inl ⟨rfl, rfl, rfl⟩⟩
  | true => exact ⟨rfl, .inr ⟨rfl, rfl, rfl⟩⟩

theorem Between.of_mem (hx : Between lower upper x) (hy : Between lower upper y) {z : Double}
    (hz : z.Finite ∧ z.amount ∈ Set.uIcc x.amount y.amount) : Between lower upper z :=
  ⟨hz.1, Set.uIcc_subset_uIcc hx.mem hy.mem hz.2⟩

section Finite
variable (hl : lower.Finite) (hu : upper.Finite) (hgap : (upper - lower).Finite)
  (ht : tol.Finite) (htol : 0 < tol)

include hl hu hgap ht htol

/-- The new point of a pass lies between the bounds, and so does the next bracket. -/
theorem Confined.pass (h : Confined lower upper p) (hopen : isClosed Raw tol p = false)
    (hd : chooseStep Raw tol p = .ok (d, e)) :
    Between lower upper (advance tol p d) ∧
      ∀ fx q, settle Raw p (advance tol p d) fx d e = .ok q → Confined lower upper q := by
  have hs := h.sound hl hu hgap
  have h0 := hs.halfGap_ne_zero ht htol hopen
  obtain ⟨hfd, hfe, -⟩ := hs.stride h0 hd
  have hx := h.best.of_mem h.far (hs.advance_within ht htol hopen hd)
  refine ⟨hx, fun fx q hq => ?_⟩
  obtain ⟨hb, ⟨hc, hqd, hqe⟩ | ⟨hc, hqd, hqe⟩⟩ := settle_cases hq
  · exact ⟨hb ▸ hx, hc ▸ h.far, hqd ▸ hfd, hqe ▸ hfe⟩
  · have hback := hx.sub_finite h.best hl hu hgap
    exact ⟨hb ▸ hx, hc ▸ h.best, hqd ▸ hback, hqe ▸ hback⟩

theorem asks_iterate (left done : Nat) (h : Confined lower upper s) :
    Asks (Between lower upper) (fun _ _ => True)
      (iterate tol left done s : Searching Raw ρ Double) := by
  induction left generalizing done s with
  | zero => exact .report .done
  | succ left ih =>
    have hord := h.ordered Raw
    rw [iterate]
    dsimp only
    split_ifs with hopen
    · exact .report .done
    · refine attempt_of (fun _ => .fail) fun step hd => ?_
      obtain ⟨d, e⟩ := step
      refine .evaluate ?_ fun raw => ?_
      · exact (hord.pass hl hu hgap ht htol (Bool.not_eq_true _ ▸ hopen) hd).1
      · refine attempt_of (fun _ => .fail) fun fx _ => .report ?_
        refine attempt_of (fun _ => .fail) fun q hq => ih (done + 1) ?_
        exact (hord.pass hl hu hgap ht htol (Bool.not_eq_true _ ▸ hopen) hd).2 fx q hq

theorem asks_search (limit : Nat) :
    Asks (Between lower upper) (fun _ _ => True)
      (search limit tol lower upper : Searching Raw ρ Double) := by
  have hlow : Between lower upper lower := ⟨hl, Set.left_mem_uIcc⟩
  have hupp : Between lower upper upper := ⟨hu, Set.right_mem_uIcc⟩
  refine .evaluate hlow fun rawLower => .evaluate hupp fun rawUpper => ?_
  refine attempt_of (fun _ => .fail) fun ⟨fa, fb⟩ _ => ?_
  refine attempt_of (fun _ => .fail) fun same _ => ?_
  cases same with
  | true => exact .fail
  | false =>
    exact .report (asks_iterate hl hu hgap ht htol (limit + 1) 0 ⟨hupp, hlow, hgap, hgap⟩)

end Finite
end Invariant

/-- Points with one former point, whose bracket is too wide for a double. -/
structure Overwide {ρ : Type} (p : Points Double ρ) : Prop where
  best : p.b.Finite
  far : p.c.Finite
  former : p.a = p.c
  gap : ¬(p.c - p.b).Finite

section Overwide
variable {Raw ρ : Type} [Reading Raw ρ Double] {lower upper tol d e : Double} {p : Points Double ρ}

theorem finite_sub_comm (hl : lower.Finite) (hu : upper.Finite) :
    (lower - upper).Finite ↔ (upper - lower).Finite := by
  rw [(isRounded_sub hl hu).finite_iff, (isRounded_sub hu hl).finite_iff,
    abs_sub_comm lower.amount]

variable (Raw) in
/-- A search starts with such points where the difference of its bounds is infinite. -/
theorem overwide_start (hl : lower.Finite) (hu : upper.Finite) (hgap : ¬(upper - lower).Finite)
    (fl fu : ρ) : Overwide ((Points.start lower upper fl fu).ordered Raw) := by
  unfold Points.ordered
  split
  · exact ⟨hl, hu, rfl, hgap⟩
  · exact ⟨hu, hl, rfl, mt (finite_sub_comm hl hu).1 hgap⟩

theorem finite_oriented {pq : Double × Double} : (oriented pq).1.Finite ↔ pq.1.Finite := by
  unfold oriented
  split
  · exact Iff.rfl
  · exact finite_neg

namespace Overwide

theorem halfGap_infinite (h : Overwide p) : (halfGap p).Infinite := by
  refine Infinite.finite_mul ⟨(isRounded_sub h.far h.best).defined, h.gap⟩ rfl ?_
  rw [amount_half]
  norm_num

theorem resolution_lt (h : Overwide p) (ht : tol.Finite) (h0 : 0 < tol) :
    resolution tol p < Scalar.abs (halfGap p) :=
  h.halfGap_infinite.lt_abs (resolution_finite h.best ht h0).1

/-- The bracket is open unless the best estimate is a root. -/
theorem isClosed_eq (h : Overwide p) (ht : tol.Finite) (h0 : 0 < tol) :
    isClosed Raw tol p = Reading.isZero Raw p.fb := by
  have hlt := h.resolution_lt ht h0
  have hr := (resolution_finite h.best ht h0).1
  have hle : ¬(halfGap p).abs ≤ resolution tol p := fun hle =>
    (not_lt_iff hr.defined (defined_abs h.halfGap_infinite.1)).2 hle hlt
  unfold isClosed
  change (decide ((halfGap p).abs ≤ resolution tol p) || _) = _
  rw [decide_eq_false hle, Bool.false_or]

/-- No secant step is accepted: its numerator is infinite or undefined. -/
theorem bisects (h : Overwide p) (hd : chooseStep Raw tol p = .ok (d, e)) : d = halfGap p := by
  rcases bisects_or_accepts hd with ⟨rfl, -⟩ | ⟨-, pq, hpq, hacc, -, -⟩
  · rfl
  · exfalso
    rw [interpolation, h.former] at hpq
    obtain ⟨sb, -, hpq⟩ := exists_of_bind_eq_ok hpq
    rw [if_pos (beq_self h.far.defined)] at hpq
    cases hpq
    obtain ⟨-, hlt⟩ := Bool.and_eq_true_iff.1 hacc
    have hf := finite_oriented.1 (finite_of_lt (not_oriented_neg _) (of_decide_eq_true hlt))
    exact h.halfGap_infinite.2 (finite_of_mul (finite_of_mul hf).1).2

theorem advance_not_finite (h : Overwide p) (ht : tol.Finite) (h0 : 0 < tol)
    (hd : chooseStep Raw tol p = .ok (d, e)) : ¬(advance tol p d).Finite := by
  rw [h.bisects hd, advance, if_pos (h.resolution_lt ht h0)]
  exact fun hf => h.halfGap_infinite.2 (finite_of_add hf).2

end Overwide
end Overwide

variable {s : Solver} {options : RunOptions} {t : RootTolerance} {f : Function} {v w : Value}
  {lower upper : Double} {run : Run}

theorem pos_tolerance (t : RootTolerance) : 0 < Double.ofFloat t.value := t.positive

/-- A solver calls any function at finite points between its bounds only, where the difference of
the bounds is finite. -/
theorem between_of_gap_finite (hrun : s.runBracket options t f v w = run)
    (hl : v.toDouble = .ok lower) (hu : w.toDouble = .ok upper) (hfl : lower.Finite)
    (hfu : upper.Finite) (hgap : (upper - lower).Finite) (ht : t.value.isFinite = true) {x : Value}
    (hx : x ∈ run.evaluations) : ∃ y, x = .real y ∧ Between lower upper y := by
  have hpos := pos_tolerance t
  have hfin : (Double.ofFloat t.value).Finite := ht
  rw [runBracket_of_bounds hl hu] at hrun
  generalize Double.ofFloat t.value = tol at hrun hpos hfin
  have hasks : Asks (Between lower upper) (fun _ _ => True)
      (search s.limit.count tol lower upper : Searching Value Quantity Double) :=
    asks_search hfl hfu hgap hfin hpos _
  obtain ⟨trace, htrace⟩ : ∃ trace,
      (search s.limit.count tol lower upper : Searching Value Quantity Double).run
        (bracketCaller s f) = trace := ⟨_, rfl⟩
  have hbetween : ∀ y ∈ trace.evaluations, Between lower upper y := by
    rw [← htrace]
    exact hasks.forall_evaluations (fun _ _ _ _ _ => trivial) (by simp)
  have hevals : run.evaluations = trace.evaluations.map .real := by
    rw [← hrun, htrace]
    rfl
  rw [hevals, Array.mem_map] at hx
  obtain ⟨y, hy, rfl⟩ := hx
  exact ⟨y, rfl, hbetween y hy⟩

section Search
variable {value : Nat → Double → Double} {tol lower upper : Double} {calls : List Double}
  {p : Points Double Double} {trace : Trace Double Empty (Double × Double) (Ending Double Double)}

theorem reached_zero (hr : Reached value tol lower upper 0 calls p) :
    p = (Points.start lower upper (value 0 lower) (value 1 upper)).ordered Double := by
  cases hr
  rfl

theorem productPositive_of_across {x y : Double} (h : Across x y) :
    Reading.productPositive Double x y = .ok false := by
  obtain ⟨same, hsame⟩ := PlainReading.productPositive_ok x y
  cases same with
  | false => exact hsame
  | true => exact absurd (productPositive_iff.1 hsame).1 h.not_alike

theorem Across.ne_zero {x y : Double} (h : Across x y) : (x == 0) = false := by
  rw [Bool.eq_false_iff]
  intro h0
  have hzero := zero_iff.1 h0
  rcases h with ⟨hx, -⟩ | ⟨hx, -⟩
  · cases hzero.symm.trans (neg_iff.1 hx)
  · cases hzero.symm.trans (pos_iff.1 hx)

/-- The value at the best estimate is none of a root where the values at the bounds have opposite
signs. -/
theorem isZero_start {fl fu : Double} (h : Across fl fu) :
    Reading.isZero Double ((Points.start lower upper fl fu).ordered Double).fb = false := by
  unfold Points.ordered
  split
  · exact h.ne_zero
  · exact h.symm.ne_zero

/-- Where the difference of the bounds is infinite, the third call is at infinity. -/
theorem exists_third (hl : lower.Finite) (hu : upper.Finite) (hgap : ¬(upper - lower).Finite)
    (ht : tol.Finite) (h0 : 0 < tol) (hacross : Across (value 0 lower) (value 1 upper))
    (shown : Note (Double × Double) → Bool) (limit : Nat)
    (hrun : (search limit tol lower upper).run (answering value fun note => .ok (shown note)) =
      trace) : ∃ x ∈ trace.evaluations, ¬x.Finite := by
  obtain ⟨done, calls, p, ending, hr, he, -, hcalls⟩ :=
    exists_ended (productPositive_of_across hacross) shown hrun
  have hwide := overwide_start Double hl hu hgap (value 0 lower) (value 1 upper)
  have hopen := (hwide.isClosed_eq ht h0).trans (isZero_start hacross)
  cases done with
  | zero =>
    rw [← reached_zero hr] at hopen
    cases he with
    | root hclosed _ => cases hopen.symm.trans hclosed
    | exhausted h => cases h
  | succ done =>
    have hlen : 0 + 2 < calls.length := by
      rw [hr.length_calls, evaluations]
      omega
    obtain ⟨p', q, hr', -, d, e, s, hd, hx, -⟩ :=
      hr.exists_pass (List.getElem?_eq_getElem hlen)
    rw [reached_zero hr'] at hd hx
    refine ⟨calls[0 + 2], ?_, ?_⟩
    · rw [hcalls]
      simp
    · rw [hx]
      exact hwide.advance_not_finite ht h0 hd

end Search

/-- A solver calls a function at infinity where the values at finite bounds have opposite signs and
the difference of the bounds is infinite. -/
theorem exists_infinite_call (hrun : s.runBracket options t f v w = run) (hf : AnswersReals f run)
    (hl : v.toDouble = .ok lower) (hu : w.toDouble = .ok upper) (hfl : lower.Finite)
    (hfu : upper.Finite) (hgap : ¬(upper - lower).Finite) (ht : t.value.isFinite = true)
    (hs : s.Displays) (hacross : Across (doubleAnswer f 0 lower) (doubleAnswer f 1 upper)) :
    ∃ x, .real x ∈ run.evaluations ∧ ¬x.Finite := by
  obtain ⟨trace, htrace, -, hevals⟩ := exists_trace_of_reals hrun hf hl hu
  obtain ⟨shown, hshown⟩ : ∃ shown : Note (Double × Double) → Bool, ∀ note,
      Progress.shows s.display note = .ok (shown note) := hs.shows
  have hpos := pos_tolerance t
  have hfin : (Double.ofFloat t.value).Finite := ht
  rw [funext hshown] at htrace
  generalize Double.ofFloat t.value = tol at htrace hpos hfin
  obtain ⟨x, hx, hinf⟩ := exists_third hfl hfu hgap hfin hpos hacross shown _ htrace
  refine ⟨x, ?_, hinf⟩
  rw [hevals]
  exact Array.mem_map_of_mem hx

/-- Where the values at finite bounds have opposite signs, a solver calls a function at finite
points only exactly if the difference of the bounds is finite. Then it calls any function at points
between the bounds only. -/
theorem points_finite_iff (hrun : s.runBracket options t f v w = run) (hl : v.toDouble = .ok lower)
    (hu : w.toDouble = .ok upper) (hfl : lower.Finite) (hfu : upper.Finite)
    (ht : t.value.isFinite = true) :
    ((upper - lower).Finite → ∀ x ∈ run.evaluations, ∃ y, x = .real y ∧ Between lower upper y) ∧
      (s.Displays → AnswersReals f run → Across (doubleAnswer f 0 lower) (doubleAnswer f 1 upper) →
        ((∀ x, .real x ∈ run.evaluations → x.Finite) ↔ (upper - lower).Finite)) := by
  have hbetween : (upper - lower).Finite →
      ∀ x ∈ run.evaluations, ∃ y, x = .real y ∧ Between lower upper y :=
    fun hgap x hx => between_of_gap_finite hrun hl hu hfl hfu hgap ht hx
  refine ⟨hbetween, fun hs hf hacross => ⟨fun hfinite => ?_, fun hgap x hx => ?_⟩⟩
  · by_contra hgap
    obtain ⟨x, hx, hinf⟩ := exists_infinite_call hrun hf hl hu hfl hfu hgap ht hs hacross
    exact hinf (hfinite x hx)
  · obtain ⟨y, hy, hmem⟩ := hbetween hgap _ hx
    cases hy
    exact hmem.finite

/-- The search for the square root of two between zero and two asks for points between them. -/
theorem points_finite_iff_square :
    ∃ run, Solver.runBracket ⟨.brent fineTolerance, ⟨100, by decide⟩, .int 0⟩ {} fineTolerance
        squareLessTwo (.int 0) (.int 2) = run ∧
      Across (doubleAnswer squareLessTwo 0 0) (doubleAnswer squareLessTwo 1 2) ∧
      (∀ x ∈ run.evaluations, ∃ y, x = .real y ∧ Between 0 2 y) ∧
      ∀ x, .real x ∈ run.evaluations → x.Finite := by
  have hf : AnswersReals squareLessTwo (Solver.runBracket ⟨.brent fineTolerance,
      ⟨100, by decide⟩, .int 0⟩ {} fineTolerance squareLessTwo (.int 0) (.int 2)) :=
    fun _ x _ => ⟨x * x - 2, rfl⟩
  have hgap : ((2 : Double) - 0).Finite := by decide +kernel
  have hacross : Across (doubleAnswer squareLessTwo 0 0) (doubleAnswer squareLessTwo 1 2) := by
    unfold Across
    decide +kernel
  obtain ⟨hbetween, hiff⟩ := points_finite_iff
    (rfl : Solver.runBracket ⟨.brent fineTolerance, ⟨100, by decide⟩, .int 0⟩ {} fineTolerance
      squareLessTwo (.int 0) (.int 2) = _)
    (rfl : (Value.int 0).toDouble = .ok 0) (rfl : (Value.int 2).toDouble = .ok 2)
    (by decide +kernel) (by decide +kernel) (by decide +kernel)
  exact ⟨_, rfl, hacross, hbetween hgap, (hiff ⟨_, fun _ => rfl⟩ hf hacross).2 hgap⟩

def identity : Function := fun call =>
  match call.argument with
  | .number x => .ok (.value (.real x))
  | .array _ => .error .wrongKind

def huge : Double := .ofFloat 1.7e308

/-- The search for its root between two such numbers calls it at infinity, although they are finite
and the values there have opposite signs. -/
theorem infinity_called :
    (-huge).Finite ∧ huge.Finite ∧ fineTolerance.value.isFinite = true ∧
      Across (doubleAnswer identity 0 (-huge)) (doubleAnswer identity 1 huge) ∧
      ∃ run, Solver.runBracket ⟨.brent fineTolerance, ⟨100, by decide⟩, .int 0⟩ {} fineTolerance
          identity (.real (-huge)) (.real huge) = run ∧
        ∃ x, .real x ∈ run.evaluations ∧ ¬x.Finite := by
  have hf : AnswersReals identity (Solver.runBracket ⟨.brent fineTolerance, ⟨100, by decide⟩,
      .int 0⟩ {} fineTolerance identity (.real (-huge)) (.real huge)) := fun _ x _ => ⟨x, rfl⟩
  have hl : (-huge).Finite := by decide +kernel
  have hu : huge.Finite := by decide +kernel
  have hgap : ¬(huge - -huge).Finite := by decide +kernel
  have ht : fineTolerance.value.isFinite = true := by decide +kernel
  have hacross : Across (doubleAnswer identity 0 (-huge)) (doubleAnswer identity 1 huge) := by
    unfold Across
    decide +kernel
  exact ⟨hl, hu, ht, hacross, _, rfl,
    exists_infinite_call rfl hf rfl rfl hl hu hgap ht ⟨_, fun _ => rfl⟩ hacross⟩

end RootFinding.Brent
