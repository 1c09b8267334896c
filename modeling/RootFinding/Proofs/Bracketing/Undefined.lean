import RootFinding.Proofs.Bracketing.Refused
import RootFinding.Proofs.Number.Symmetry

/-!
# Undefined roots

An undefined value compares with nothing. So it is never exchanged for the value at the far end and
is no root, but the bracket goes on to close around the point where it was answered. A search ends
at such a point exactly where its last call was answered with an undefined value.
-/
namespace RootFinding.Brent
open Number Double

variable {value : Nat → Double → Double} {calls front : List Double} {tol lower upper x last : Double}
  {done : Nat} {p q s : Points Double Double}

/-- The ends of the bracket stay where they are, or are exchanged for a defined smaller value. -/
theorem ordered_cases (s : Points Double Double) :
    s.ordered Double = s ∨ s.fc.Defined ∧ s.ordered Double =
      { s with a := s.b, fa := s.fb, b := s.c, fb := s.fc, c := s.b, fc := s.fb } := by
  by_cases h : s.fc.abs < s.fb.abs
  · exact .inr ⟨defined_of_abs (defined_of_lt h).1, ordered_of_lt h⟩
  · exact .inl (ordered_of_not_lt h)

theorem ordered_of_not_defined (h : ¬s.fb.Defined) : s.ordered Double = s :=
  ordered_of_not_lt fun hlt => h (defined_of_abs (defined_of_lt hlt).2)

theorem not_zero_of_not_defined (h : ¬x.Defined) : ¬(x == 0) = true := by
  have hp : parts x.value = .notANumber := parts_eq_notANumber (Bool.not_eq_false _ ▸ h)
  rw [zero_iff, hp]
  nofun

/-- What a stage after a last call knows of its calls: its best point and its far end were called,
and the best value is defined if the last one is. Otherwise the last point is the best one, and the
far end was called before it. -/
structure Newest (value : Nat → Double → Double) (front : List Double) (last : Double)
    (p : Points Double Double) : Prop where
  best : Called value (front ++ [last]) p.b p.fb
  far : Called value (front ++ [last]) p.c p.fc
  defined : (value front.length last).Defined → p.fb.Defined
  undefined : ¬(value front.length last).Defined →
    p.b = last ∧ p.fb = value front.length last ∧ Called value front p.c p.fc

theorem Newest.ordered (hb : s.b = last) (hfb : s.fb = value front.length last)
    (hc : Called value front s.c s.fc) : Newest value front last (s.ordered Double) := by
  have hlast : Called value (front ++ [last]) s.b s.fb := by
    rw [hb, hfb]
    exact called_last
  have hfar := hc.append last
  by_cases hd : (value front.length last).Defined
  · rcases ordered_cases s with h | ⟨hdc, h⟩
    · rw [h]
      exact ⟨hlast, hfar, fun _ => hfb ▸ hd, absurd hd⟩
    · rw [h]
      exact ⟨hfar, hlast, fun _ => hdc, absurd hd⟩
  · rw [ordered_of_not_defined (hfb ▸ hd)]
    exact ⟨hlast, hfar, fun h => absurd h hd, fun _ => ⟨hb, hfb, hc⟩⟩

theorem Newest.pass (h : Newest value front last p)
    (hlen : (front ++ [last]).length = evaluations done) (hp : Pass value tol done p x q) :
    Newest value (front ++ [last]) x q := by
  obtain ⟨-, d, e, s, -, -, hs, rfl⟩ := hp
  obtain ⟨same, hsame, rfl⟩ := settle_eq_ok_iff.1 hs
  rw [← hlen] at hsame ⊢
  cases same with
  | true => exact .ordered rfl rfl h.best
  | false => exact .ordered rfl rfl h.far

/-- At each stage the best value is defined unless the last one is not. -/
theorem Reached.newest (hr : Reached value tol lower upper done calls p) :
    ∃ front last, calls = front ++ [last] ∧ Newest value front last p := by
  induction hr with
  | start _ => exact ⟨[lower], upper, rfl, .ordered rfl rfl ⟨0, rfl, rfl⟩⟩
  | @pass done calls p q x hr hp ih =>
    obtain ⟨front, last, rfl, h⟩ := ih
    exact ⟨front ++ [last], x, rfl, h.pass hr.length_calls hp⟩

/-- A bracket that is closed although its best value is undefined is narrow. -/
theorem narrow_of_not_defined (hc : isClosed Double tol p = true) (h : ¬p.fb.Defined) :
    (halfGap p).abs ≤ resolution tol p :=
  (isClosed_iff.1 hc).resolve_right (not_zero_of_not_defined h)

/-- A run that returns a point has reached a stage whose bracket is closed around that point. -/
theorem exists_closed_of_ok {s : Solver} {options : RunOptions} {t : RootTolerance} {f : Function}
    {v w : Value} {run : Run} {solution : Solution} (hrun : s.runBracket options t f v w = run)
    (hf : AnswersReals f run) (hl : v.toDouble = .ok lower) (hu : w.toDouble = .ok upper)
    (hout : run.outcome = .ok solution) :
    ∃ done calls p, Reached (doubleAnswer f) (.ofFloat t.value) lower upper done calls p ∧
      isClosed Double (.ofFloat t.value) p = true ∧ solution.answer = .real p.b ∧
      run.evaluations.toList = calls.map .real := by
  obtain ⟨trace, htrace, houtcome, hevals⟩ := exists_trace_of_reals hrun hf hl hu
  obtain ⟨ending', hlift, hsettle⟩ := exists_of_bind_eq_ok (houtcome.symm.trans hout)
  obtain ⟨ending, hend, rfl⟩ := exists_of_map_eq_ok hlift
  obtain ⟨done, calls, p, hr, he, hcalls⟩ := exists_ended_of_ok htrace hend
  cases he with
  | exhausted => cases hsettle
  | root hc =>
    cases hsettle
    exact ⟨done, calls, p, hr, hc, rfl, by rw [hevals, hcalls, Array.toList_map]⟩

/-- A solver returns a point with a defined value exactly where its last call was answered with one.
Otherwise it returns the point of that call, around which the bracket has closed: half the way to
another called point is within the resolution. -/
theorem root_defined_iff_last {s : Solver} {options : RunOptions} {t : RootTolerance} {f : Function}
    {v w : Value} {run : Run} {solution : Solution} (hrun : s.runBracket options t f v w = run)
    (hf : AnswersReals f run) (hl : v.toDouble = .ok lower) (hu : w.toDouble = .ok upper)
    (hout : run.outcome = .ok solution) :
    ∃ front last i b, run.evaluations.toList = (front ++ [last]).map .real ∧
      solution.answer = .real b ∧ (front ++ [last])[i]? = some b ∧
      ((doubleAnswer f i b).Defined ↔ (doubleAnswer f front.length last).Defined) ∧
      (¬(doubleAnswer f front.length last).Defined → i = front.length ∧ b = last ∧
        ∃ c ∈ front, (Scalar.half * (c - last)).abs ≤
          2 * Scalar.epsilon * last.abs + Scalar.half * .ofFloat t.value) := by
  obtain ⟨done, calls, p, hr, hc, hanswer, hcalls⟩ := exists_closed_of_ok hrun hf hl hu hout
  obtain ⟨front, last, rfl, hnew⟩ := hr.newest
  by_cases hd : (doubleAnswer f front.length last).Defined
  · obtain ⟨i, hi, hb⟩ := hnew.best
    refine ⟨front, last, i, p.b, hcalls, hanswer, hi, ?_, absurd hd⟩
    rw [hb]
    exact iff_of_true (hnew.defined hd) hd
  · obtain ⟨hb, hfb, j, hj, -⟩ := hnew.undefined hd
    have hnarrow : (halfGap p).abs ≤ resolution (.ofFloat t.value) p :=
      narrow_of_not_defined hc (hfb ▸ hd)
    refine ⟨front, last, front.length, p.b, hcalls, hanswer, ?_, ?_, fun _ => ⟨rfl, hb, p.c, ?_, ?_⟩⟩
    · rw [hb, List.getElem?_concat_length]
    · rw [hb]
    · exact List.mem_of_getElem? hj
    · rw [← hb]
      exact hnarrow

def undefinedInside : Function := fun call =>
  match call.argument with
  | .number x => .ok (.value (.real (if 0 < x then if x < 1 then .undefined else 1 else -1)))
  | .array _ => .error .wrongKind

def undefinedInsideRun : Run :=
  Solver.runBracket ⟨.brent fineTolerance, ⟨100, by decide⟩, .int 0⟩ {} fineTolerance
    undefinedInside (.int 0) (.int 1)

def returned? (run : Run) : Option Double :=
  match run.outcome with
  | .ok ⟨.real b, _⟩ => some b
  | _ => none

theorem exists_of_returned? {run : Run} {b : Double} (h : returned? run = some b) :
    ∃ solution, run.outcome = .ok solution ∧ solution.answer = .real b := by
  unfold returned? at h
  split at h
  · cases h
    exact ⟨_, ‹_›, rfl⟩
  · cases h

theorem answersReals_undefinedInside (run : Run) : AnswersReals undefinedInside run :=
  fun _ _ _ => ⟨_, rfl⟩

/-- The value between zero and one is undefined however often it is asked for. -/
theorem not_defined_inside {b : Double} (h : 0 < b ∧ b < 1) (number : Nat) :
    ¬(doubleAnswer undefinedInside number b).Defined := by
  have hb : doubleAnswer undefinedInside number b = .undefined := by
    simp [doubleAnswer, undefinedInside, h]
  rw [hb]
  decide +kernel

theorem exists_returned_inside :
    ∃ b, returned? undefinedInsideRun = some b ∧ 0 < b ∧ b < 1 := by
  have h : (returned? undefinedInsideRun).any (fun b => 0 < b && b < 1) = true := by
    decide +kernel
  obtain ⟨b, hb, hinside⟩ := (Option.any_eq_true ..).1 h
  exact ⟨b, hb, by simpa using hinside⟩

/-- The last call of this search is answered with an undefined value, around which it closes. -/
theorem root_defined_iff_last_inside :
    ∃ solution front last, undefinedInsideRun.outcome = .ok solution ∧
      solution.answer = .real last ∧
      undefinedInsideRun.evaluations.toList = (front ++ [last]).map .real ∧
      ¬(doubleAnswer undefinedInside front.length last).Defined ∧
      ∃ c ∈ front, (Scalar.half * (c - last)).abs ≤
        2 * Scalar.epsilon * last.abs + Scalar.half * .ofFloat fineTolerance.value := by
  obtain ⟨b, hb, hinside⟩ := exists_returned_inside
  obtain ⟨solution, hout, hanswer⟩ := exists_of_returned? hb
  obtain ⟨front, last, i, b', hcalls, hanswer', hi, hiff, hlast⟩ :=
    root_defined_iff_last (rfl : undefinedInsideRun = _) (answersReals_undefinedInside _)
      (rfl : (Value.int 0).toDouble = .ok 0) (rfl : (Value.int 1).toDouble = .ok 1) hout
  cases hanswer.symm.trans hanswer'
  have hd := mt hiff.2 (not_defined_inside hinside i)
  obtain ⟨-, rfl, hnarrow⟩ := hlast hd
  exact ⟨solution, front, _, hout, hanswer, hcalls, hd, hnarrow⟩

/-- The search returns a point whose value is undefined, although the values at the endpoints have
opposite signs. -/
theorem undefined_returned :
    Across (doubleAnswer undefinedInside 0 0) (doubleAnswer undefinedInside 1 1) ∧
      ∃ solution b, undefinedInsideRun.outcome = .ok solution ∧ solution.answer = .real b ∧
        ∀ number, ¬(doubleAnswer undefinedInside number b).Defined := by
  constructor
  · unfold Across
    decide +kernel
  · obtain ⟨b, hb, hinside⟩ := exists_returned_inside
    obtain ⟨solution, hout, hanswer⟩ := exists_of_returned? hb
    exact ⟨solution, b, hout, hanswer, not_defined_inside hinside⟩

end RootFinding.Brent
