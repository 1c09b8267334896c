import RootFinding.Proofs.Bracketing.Doubles
import RootFinding.Proofs.Number.Order

/-!
# The enclosed root

Whatever a function answers, as long as its values are defined, the best estimate and the far end of
the bracket stay called points whose values do not have the same sign. The point before the best
estimate is a called point as well, but its value may have either sign.
-/
namespace RootFinding.Brent
open Number Double

def Facing (x y : Double) : Prop := ¬(0 < x ∧ 0 < y) ∧ ¬(x < 0 ∧ y < 0)

/-- Values on opposite sides of zero. -/
def Across (x y : Double) : Prop := x < 0 ∧ 0 < y ∨ 0 < x ∧ y < 0

def Alike (x y : Double) : Prop := x < 0 ∧ y < 0 ∨ 0 < x ∧ 0 < y

instance (x y : Double) : Decidable (Facing x y) :=
  inferInstanceAs (Decidable (¬(_ ∧ _) ∧ ¬(_ ∧ _)))

variable {x y z : Double}

theorem facing_iff_not_alike : Facing x y ↔ ¬Alike x y := by
  unfold Facing Alike
  rw [not_or, and_comm]

theorem Facing.symm (h : Facing x y) : Facing y x :=
  ⟨fun hp => h.1 hp.symm, fun hn => h.2 hn.symm⟩

theorem Across.symm (h : Across x y) : Across y x := by
  rcases h with ⟨hx, hy⟩ | ⟨hx, hy⟩
  · exact .inr ⟨hy, hx⟩
  · exact .inl ⟨hy, hx⟩

theorem Across.facing (h : Across x y) : Facing x y := by
  rcases h with ⟨hx, hy⟩ | ⟨hx, hy⟩
  · exact ⟨fun hp => not_lt_of_lt hx hp.1, fun hn => not_lt_of_lt hy hn.2⟩
  · exact ⟨fun hp => not_lt_of_lt hy hp.2, fun hn => not_lt_of_lt hx hn.1⟩

theorem Across.ne (h : Across x y) : x ≠ y := by
  rintro rfl
  rcases h with ⟨hn, hp⟩ | ⟨hp, hn⟩ <;> exact not_lt_of_lt hn hp

theorem Facing.across (h : Facing x y) (hx : x.Defined) (hy : y.Defined) (hx0 : ¬(x == 0) = true)
    (hy0 : ¬(y == 0) = true) : Across x y := by
  rcases (sign_cases hx).imp_right (Or.resolve_left · hx0) with hx1 | hx1
  · rcases (sign_cases hy).imp_right (Or.resolve_left · hy0) with hy1 | hy1
    · exact absurd ⟨hx1, hy1⟩ h.2
    · exact .inl ⟨hx1, hy1⟩
  · rcases (sign_cases hy).imp_right (Or.resolve_left · hy0) with hy1 | hy1
    · exact .inr ⟨hx1, hy1⟩
    · exact absurd ⟨hx1, hy1⟩ h.1

/-- A value like one of two opposite values is opposite to the other one. -/
theorem Alike.across (h : Alike x y) (hyz : Across y z) : Across x z := by
  rcases h with ⟨hx, hy⟩ | ⟨hx, hy⟩
  · rcases hyz with ⟨-, hz⟩ | ⟨hy', -⟩
    · exact .inl ⟨hx, hz⟩
    · exact absurd hy (not_lt_of_lt hy')
  · rcases hyz with ⟨hy', -⟩ | ⟨-, hz⟩
    · exact absurd hy (not_lt_of_lt hy')
    · exact .inr ⟨hx, hz⟩

variable {value : Nat → Double → Double} {calls : List Double} {tol lower upper fx : Double}
  {done : Nat} {p q s : Points Double Double}

/-- A point that was called, with its value. -/
def Called (value : Nat → Double → Double) (calls : List Double) (x fx : Double) : Prop :=
  ∃ i : Nat, calls[i]? = some x ∧ value i x = fx

theorem Called.append (h : Called value calls x fx) (y : Double) :
    Called value (calls ++ [y]) x fx := by
  obtain ⟨i, hi, hx⟩ := h
  exact ⟨i, getElem?_prefix_eq_some (List.prefix_append ..) hi, hx⟩

theorem called_last : Called value (calls ++ [x]) x (value calls.length x) :=
  ⟨calls.length, List.getElem?_concat_length, rfl⟩

/-- The three points of a search were called, the best one has the least value and the far end does
not have its sign. -/
structure Enclosed (value : Nat → Double → Double) (calls : List Double)
    (p : Points Double Double) : Prop where
  last : Called value calls p.a p.fa
  best : Called value calls p.b p.fb
  far : Called value calls p.c p.fc
  least : p.fb.abs ≤ p.fc.abs
  facing : Facing p.fb p.fc

theorem smaller_iff : Reading.smaller Double x y = true ↔ x.abs < y.abs :=
  decide_eq_true_iff

theorem ordered_of_lt (h : s.fc.abs < s.fb.abs) : s.ordered Double =
    { s with a := s.b, fa := s.fb, b := s.c, fb := s.fc, c := s.b, fc := s.fb } :=
  if_pos (smaller_iff.2 h)

theorem ordered_of_not_lt (h : ¬s.fc.abs < s.fb.abs) : s.ordered Double = s :=
  if_neg (mt smaller_iff.1 h)

/-- The values at the calls are defined. -/
def DefinedAt (value : Nat → Double → Double) (calls : List Double) : Prop :=
  ∀ i x, calls[i]? = some x → (value i x).Defined

theorem DefinedAt.anti {calls' : List Double} (hv : DefinedAt value calls')
    (h : calls <+: calls') : DefinedAt value calls :=
  fun i x hx => hv i x (getElem?_prefix_eq_some h hx)

variable (hv : DefinedAt value calls)

include hv in
theorem Called.defined (h : Called value calls x fx) : fx.Defined := by
  obtain ⟨i, hi, rfl⟩ := h
  exact hv i x hi

include hv in
theorem Enclosed.ordered (ha : Called value calls s.a s.fa) (hb : Called value calls s.b s.fb)
    (hc : Called value calls s.c s.fc) (hf : Facing s.fb s.fc) :
    Enclosed value calls (s.ordered Double) := by
  have hdb := defined_abs (hb.defined hv)
  have hdc := defined_abs (hc.defined hv)
  by_cases hs : s.fc.abs < s.fb.abs
  · rw [ordered_of_lt hs]
    exact ⟨hb, hc, hb, (not_lt_iff hdb hdc).1 (not_lt_of_lt hs), hf.symm⟩
  · rw [ordered_of_not_lt hs]
    exact ⟨ha, hb, hc, (not_lt_iff hdc hdb).1 hs, hf⟩

theorem sameSide_eq_true_iff (hx : x.Defined) (hy : y.Defined) (hy0 : ¬(y == 0) = true)
    {same : Bool} (h : Reading.sameSide Double x y = .ok same) : same = true ↔ Alike x y := by
  have hs : decide (0 < x * if y.negative then (-1 : Double) else 1) = same := by
    cases h
    rfl
  rw [← hs, decide_eq_true_iff]
  refine (pos_mul_sign_iff hx hy hy0).trans ?_
  unfold Alike
  rw [and_comm, and_comm (a := 0 < y)]

include hv in
/-- The far end is across zero from a best estimate that is no root. -/
theorem Enclosed.across (he : Enclosed value calls p) (hb0 : ¬(p.fb == 0) = true) :
    ¬(p.fc == 0) = true ∧ Across p.fb p.fc := by
  have hb := he.best.defined hv
  have hc := he.far.defined hv
  have hc0 : ¬(p.fc == 0) = true := fun h0 =>
    (not_lt_iff (defined_abs hc) (defined_abs hb)).2 he.least (abs_lt_abs_of_zero h0 hb hb0)
  exact ⟨hc0, he.facing.across hb hc hb0 hc0⟩

theorem isClosed_iff : isClosed Double tol p = true ↔
    (halfGap p).abs ≤ resolution tol p ∨ (p.fb == 0) = true := by
  refine Bool.or_eq_true_iff.trans (or_congr_left ?_)
  exact decide_eq_true_iff

/-- A pass starts the bracket anew just where the new value lies on the side of the far end, across
from the best one. -/
theorem Pass.settled (hv : DefinedAt value (calls ++ [x])) (he : Enclosed value calls p)
    (hlen : calls.length = evaluations done) (hp : Pass value tol done p x q) :
    ∃ d e same, (same = true ↔ Alike (value (evaluations done) x) p.fc) ∧ Across p.fb p.fc ∧
      q = (if same then (p.moved x (value (evaluations done) x) d e).restarted
        else p.moved x (value (evaluations done) x) d e).ordered Double := by
  obtain ⟨hopen, d, e, s, -, -, hs, rfl⟩ := hp
  obtain ⟨same, hsame, rfl⟩ := settle_eq_ok_iff.1 hs
  have hb0 : ¬(p.fb == 0) = true := fun h0 => Bool.eq_false_iff.1 hopen (isClosed_iff.2 (.inr h0))
  have hv' : DefinedAt value calls := hv.anti (List.prefix_append ..)
  obtain ⟨hc0, hacross⟩ := he.across hv' hb0
  have hx : (value (evaluations done) x).Defined := hlen ▸ called_last.defined hv
  exact ⟨d, e, same, sameSide_eq_true_iff hx (he.far.defined hv') hc0 hsame, hacross, rfl⟩

theorem Enclosed.pass (hv : DefinedAt value (calls ++ [x])) (he : Enclosed value calls p)
    (hlen : calls.length = evaluations done) (hp : Pass value tol done p x q) :
    Enclosed value (calls ++ [x]) q := by
  obtain ⟨d, e, same, hside, hacross, rfl⟩ := hp.settled hv he hlen
  have hnew : Called value (calls ++ [x]) x (value (evaluations done) x) := hlen ▸ called_last
  have hbest := he.best.append x
  cases same with
  | true =>
    have hnext := (hside.1 rfl).across hacross.symm
    exact .ordered hv hbest hnew hbest hnext.facing
  | false =>
    have hnext := facing_iff_not_alike.2 (mt hside.2 Bool.false_ne_true)
    exact .ordered hv hbest hnew (he.far.append x) hnext

/-- At each stage of a search the bracket encloses a change of sign. -/
theorem Reached.enclosed (hv : DefinedAt value calls)
    (hends : Facing (value 0 lower) (value 1 upper))
    (hr : Reached value tol lower upper done calls p) : Enclosed value calls p := by
  induction hr with
  | start _ => exact .ordered hv ⟨0, rfl, rfl⟩ ⟨1, rfl, rfl⟩ ⟨0, rfl, rfl⟩ hends.symm
  | pass hr hp ih => exact (ih (hv.anti (List.prefix_append ..))).pass hv hr.length_calls hp

/-- What a search knows of its root: the value there is zero, or another called point has a value
across zero, no less in magnitude, and half the way to that point is within the resolution. -/
def Located (value : Nat → Double → Double) (tol : Double) (calls : List Double) (b : Double) :
    Prop :=
  ∃ i : Nat, calls[i]? = some b ∧ ((value i b == 0) = true ∨
    ∃ (j : Nat) (c : Double), calls[j]? = some c ∧ i ≠ j ∧ Across (value i b) (value j c) ∧
      (value i b).abs ≤ (value j c).abs ∧
      (Scalar.half * (c - b)).abs ≤ 2 * Scalar.epsilon * b.abs + Scalar.half * tol)

include hv in
theorem Enclosed.located (he : Enclosed value calls p) (hc : isClosed Double tol p = true) :
    Located value tol calls p.b := by
  obtain ⟨i, hi, hb⟩ := he.best
  obtain ⟨j, hj, hf⟩ := he.far
  refine ⟨i, hi, ?_⟩
  rw [hb]
  by_cases hb0 : (p.fb == 0) = true
  · exact .inl hb0
  · right
    have hgap := (isClosed_iff.1 hc).resolve_right hb0
    obtain ⟨-, hacross⟩ := he.across hv hb0
    refine ⟨j, p.c, hj, ?_, hf.symm ▸ hacross, hf.symm ▸ he.least, hgap⟩
    rintro rfl
    have hbc : p.b = p.c := Option.some.inj (hi.symm.trans hj)
    exact hacross.ne (by rw [← hb, ← hf, hbc])

theorem AnswersDoubles.definedAt {f : Function} {run : Run} (hf : AnswersDoubles f run)
    (hcalls : calls.map .real <+: run.evaluations.toList) : DefinedAt (doubleAnswer f) calls := by
  intro i x hx
  have hmap : (calls.map Value.real)[i]? = some (.real x) := by
    rw [List.getElem?_map, hx]
    rfl
  have hi := getElem?_prefix_eq_some hcalls hmap
  rw [Array.getElem?_toList] at hi
  exact (hf.answer hi).1

/-- A solver's search encloses a change of sign at each stage, and the root that it returns is
located by that. -/
theorem solve_encloses {s : Solver} {options : RunOptions} {t : RootTolerance} {f : Function}
    {v w : Value} {run : Run} (hrun : s.runBracket options t f v w = run)
    (hf : AnswersDoubles f run) (hl : v.toDouble = .ok lower) (hu : w.toDouble = .ok upper)
    (hends : Facing (doubleAnswer f 0 lower) (doubleAnswer f 1 upper)) :
    (∀ done calls p, Reached (doubleAnswer f) (.ofFloat t.value) lower upper done calls p →
      calls.map .real <+: run.evaluations.toList → Enclosed (doubleAnswer f) calls p) ∧
    ∀ solution, run.outcome = .ok solution → ∃ b calls, solution.answer = .real b ∧
      run.evaluations.toList = calls.map .real ∧
      Located (doubleAnswer f) (.ofFloat t.value) calls b := by
  refine ⟨fun done calls p hr hcalls => hr.enclosed (hf.definedAt hcalls) hends, ?_⟩
  intro solution hsol
  obtain ⟨trace, ht, ho, hevals⟩ := exists_trace hrun hf hl hu
  rw [ho] at hsol
  cases hend : trace.outcome with
  | error cause =>
    rw [hend] at hsol
    cases hsol
  | ok ending =>
    rw [hend] at hsol
    obtain ⟨done, calls, p, hr, he, hcalls⟩ := exists_ended_of_ok ht hend
    have hlist : run.evaluations.toList = calls.map .real := by
      rw [hevals, hcalls, Array.toList_map]
    have hv := hf.definedAt (by rw [hlist])
    cases he with
    | exhausted hl => cases hsol
    | root hc hl =>
      cases hsol
      exact ⟨p.b, calls, rfl, hlist, (hr.enclosed hv hends).located hv hc⟩

def squareLessTwo : Function := fun call =>
  match call.argument with
  | .number x => .ok (.value (.real (x * x - 2)))
  | .array _ => .error .wrongKind

theorem answersDoubles_square {run : Run}
    (h : run.evaluations.toList.all (fun
      | .real x => !(x * x - 2).value.isNaN
      | _ => true) = true) : AnswersDoubles squareLessTwo run := by
  intro i x hx
  rw [← Array.getElem?_toList] at hx
  have hmem : (!(x * x - 2).value.isNaN) = true :=
    List.all_eq_true.1 h _ (List.mem_of_getElem? hx)
  have hdef : (x * x - 2).value.isNaN = false := by simpa using hmem
  exact ⟨x * x - 2, hdef, rfl⟩

def squareRun (t : RootTolerance) (limit : Limit) : Run :=
  Solver.runBracket ⟨.brent t, limit, .int 0⟩ {} t squareLessTwo (.int 0) (.int 2)

def halfTolerance : RootTolerance := ⟨0.5, by decide⟩

/-- The search stops at a tolerance of a half, not at a root. -/
theorem solve_encloses_square :
    ∃ solution b calls, (squareRun halfTolerance ⟨3, by decide⟩).outcome = .ok solution ∧
      solution.answer = .real b ∧
      Located (doubleAnswer squareLessTwo) (.ofFloat halfTolerance.value) calls b := by
  have hok : (squareRun halfTolerance ⟨3, by decide⟩).outcome.isOk = true := by decide +kernel
  have hf : AnswersDoubles squareLessTwo (squareRun halfTolerance ⟨3, by decide⟩) :=
    answersDoubles_square (by decide +kernel)
  obtain ⟨-, hroot⟩ := solve_encloses rfl hf (rfl : (Value.int 0).toDouble = .ok 0)
    (rfl : (Value.int 2).toDouble = .ok 2) (by decide +kernel)
  cases ho : (squareRun halfTolerance ⟨3, by decide⟩).outcome with
  | error cause =>
    rw [ho] at hok
    cases hok
  | ok solution =>
    obtain ⟨b, calls, hb, -, hloc⟩ := hroot solution ho
    exact ⟨solution, b, calls, rfl, hb, hloc⟩

end RootFinding.Brent
