import RootFinding.Proofs.Iteration.Arguments
import RootFinding.Proofs.Number.Finite
import RootFinding.Proofs.Reporting.Solvers

/-!
# Fixed points are finite

The steps of the fixed point methods divide by differences that may vanish, so that infinite and
undefined numbers do enter their points. The test of two successive points keeps them out of the
answers: it goes by a difference, and whatever the tolerance, a difference is below it only between
finite points.
-/
namespace RootFinding
open Number Search Iteration

namespace Tolerance
variable {tol : Tolerance Float} {tols : List (Tolerance Float)}

theorem isFinite_of_close {x y : Float} (h : tol.close x y = true) :
    x.isFinite = true ∧ y.isFinite = true :=
  isFinite_of_sub (isFinite_of_abs_lt (of_decide_eq_true h))

theorem forall_isFinite_of_within {xs ys : List Float} (hx : xs.length = tols.length)
    (hy : ys.length = tols.length) (h : within tols xs ys = true) :
    (∀ x ∈ xs, x.isFinite = true) ∧ ∀ y ∈ ys, y.isFinite = true := by
  induction tols generalizing xs ys with
  | nil =>
    obtain rfl := List.eq_nil_of_length_eq_zero hx
    obtain rfl := List.eq_nil_of_length_eq_zero hy
    simp
  | cons tol tols ih =>
    obtain ⟨x, xs, rfl⟩ := List.exists_cons_of_length_eq_add_one hx
    obtain ⟨y, ys, rfl⟩ := List.exists_cons_of_length_eq_add_one hy
    rw [within, Bool.and_eq_true] at h
    have hhead := isFinite_of_close h.1
    have htail := ih (Nat.succ.inj hx) (Nat.succ.inj hy) h.2
    exact ⟨List.forall_mem_cons.2 ⟨hhead.1, htail.1⟩, List.forall_mem_cons.2 ⟨hhead.2, htail.2⟩⟩

end Tolerance

/-- An ending that is converged only at a finite point. -/
def Ending.Finite (e : Ending (List Float)) : Prop :=
  e.converged = true → ∀ x ∈ e.point, x.isFinite = true

section Searches
variable {tol : List (Tolerance Float)} {x : List Float}

/-- A search may converge at a point whose value passes the test. -/
theorem finite_succeed {Detail : Type} {y : List Float} (hx : x.length = tol.length)
    (hy : y.length = x.length) (h : Tolerance.within tol y x = true)
    (iterations evaluations : Nat) :
    Ends Ending.Finite (fun _ _ => True)
      (succeed x iterations evaluations : Iteration.Searching Float Empty Empty Detail) := by
  have hfinite := Tolerance.forall_isFinite_of_within (hy.trans hx) hx h
  exact .report (.done fun _ => hfinite.2)

theorem Steffensen.finite_iterate (left done : Nat) (hx : x.length = tol.length) :
    Ends Ending.Finite (fun _ _ => True) (iterate tol left done x) := by
  induction left generalizing done x with
  | zero => exact .report (.done nofun)
  | succ left ih =>
    refine .report (ends_measure fun y hy => ?_)
    split
    · exact finite_succeed hx hy ‹_› _ _
    · refine ends_measure fun z hz => ?_
      split
      · exact finite_succeed (hy.trans hx) hz ‹_› _ _
      · apply ih
        simp [hy, hz, hx]

namespace Wegstein

theorem finite_iterate (left done : Nat) {x' y' : List Float} (hx' : x'.length = tol.length)
    (hy' : y'.length = tol.length) (hx : x.length = tol.length) :
    Ends Ending.Finite (fun _ _ => True) (iterate tol left done x' y' x) := by
  induction left generalizing done x' y' x with
  | zero => exact .report (.done nofun)
  | succ left ih =>
    refine .report (ends_measure fun y hy => ?_)
    split
    · exact finite_succeed hx hy ‹_› _ _
    · apply ih (done + 1) hx (hy.trans hx)
      simp [hx', hy', hx, hy]

theorem finite_search (limit : Nat) (hx : x.length = tol.length) :
    Ends Ending.Finite (fun _ _ => True) (search limit tol x) := by
  refine .report (ends_measure fun y hy => ?_)
  split
  · exact finite_succeed hx hy ‹_› _ _
  · exact finite_iterate _ _ hx (hy.trans hx) (hy.trans hx)

end Wegstein

namespace Broyden

theorem finite_iterate (left done : Nat) {s : Estimate Float} (hs : s.Sized tol.length) :
    Ends Ending.Finite (fun _ _ => True) (iterate tol left done s s.propose) := by
  induction left generalizing done s with
  | zero => exact .report (.done nofun)
  | succ left ih =>
    refine ends_measure fun y hy => .report ?_
    have hnext := hs.observe (hy.trans hs.length_propose)
    split
    · rename_i hclose
      have hfinite := Tolerance.forall_isFinite_of_within hnext.length_propose hs.length_propose
        hclose
      exact .report (.done fun _ => hfinite.1)
    · exact ih (done + 1) hnext

theorem finite_search (limit : Nat) (hx : x.length = tol.length) :
    Ends Ending.Finite (fun _ _ => True) (search limit tol x) := by
  refine .report (ends_measure fun y hy => ?_)
  split
  · exact finite_succeed hx hy ‹_› _ _
  · refine ends_measure fun z hz => ?_
    split
    · exact finite_succeed (hy.trans hx) hz ‹_› _ _
    · have hy := hy.trans hx
      exact .report (finite_iterate _ _ (Estimate.sized_ofSteps hx hy (hz.trans hy)))

end Broyden
end Searches

theorem Solver.length_of_prepareRelative {x absolute relative : Value} {start : Start}
    {tol : List (Tolerance Float)}
    (h : prepareRelative x absolute relative = .ok (start, tol)) :
    start.point.length = tol.length := by
  obtain ⟨⟨start', absolutes⟩, hprepare, h⟩ := exists_of_bind_eq_ok h
  obtain ⟨relatives, hrelatives, h⟩ := exists_of_bind_eq_ok h
  cases h
  obtain ⟨-, habsolutes, -⟩ := prepare_restart hprepare
  simp [habsolutes, Start.length_of_tolerance hrelatives]

/-- The components of an answer are those of the point that took its form. -/
theorem leaves_of_restore {x : List Float} {single : Bool} {answer : Value}
    (h : restore (.vector x) single = .ok answer) : answer.leaves = x.map .ofFloat := by
  unfold restore at h
  cases single with
  | true =>
    simp only [if_true, Grid.entries_vector] at h
    split at h
    · cases h
      rfl
    · cases h
  | false =>
    cases h
    rw [Value.ofGrid_vector, Value.leaves, Value.leavesOf_map fun _ => ⟨rfl, rfl⟩]

variable {s : Solver} {options : RunOptions} {arguments : List Value} {f : Function}
  {answer : Value}

/-- Where the converged endings of a search are finite, so are the answers of its runs. -/
theorem Solver.finite_of_runFixedPoint
    {search : List (Tolerance Float) → List Float →
      Iteration.Searching Float Empty Empty (List Float)}
    (hsearch : ∀ {tol x}, x.length = tol.length →
      Ends Ending.Finite (fun _ _ => True) (search tol x))
    (htells : options.Tells)
    (h : (s.runFixedPoint options f arguments search).ConvergesTo answer) :
    ∃ x : List Float, answer.leaves = x.map .ofFloat ∧ ∀ a ∈ x, a.isFinite = true := by
  rcases runFixedPoint_cases arguments with ⟨cause, hfail⟩ |
    ⟨x, absolute, relative, start, tol, -, hprepare, hread⟩
  · rw [hfail] at h
    exact absurd h (Run.not_convergesTo rfl answer)
  rw [hread] at h
  have hsettled : (s.runValues options f start (search tol start.point)).outcome =
      (((search tol start.point).run (s.valueCaller f)).outcome.map gridEnding).bind
        (s.settleSystem options start.single) := Run.outcome_ofTrace ..
  obtain ⟨e, he, hconverged, hrestore⟩ := (Run.convergesTo_iff hsettled htells answer).1 h
  obtain ⟨e', he', rfl⟩ := exists_of_map_eq_ok he
  have hfinite : e'.Finite := (hsearch (length_of_prepareRelative hprepare)).of_runFrom
    (fun _ _ _ _ _ => trivial) he'
  exact ⟨e'.point, leaves_of_restore hrestore, hfinite hconverged⟩

/-- The methods that look for a fixed point. -/
def Method.FindsFixedPoint : Method → Prop
  | .broyden _ | .steffensen _ | .wegstein _ => True
  | _ => False

/-- A search for a fixed point converges only to an answer of finite components, whatever its
function answers and whatever its start, tolerances and limit are. -/
theorem Solver.converges_at_finite (hm : s.method.FindsFixedPoint) (function : Option Function)
    (htells : options.Tells) (h : (s.run arguments function options).ConvergesTo answer) :
    ∃ x : List Float, answer.leaves = x.map .ofFloat ∧ ∀ a ∈ x, a.isFinite = true := by
  cases hmethod : s.method with
  | broyden f =>
    simp only [run, hmethod] at h
    exact finite_of_runFixedPoint (Broyden.finite_search _) htells h
  | steffensen f =>
    simp only [run, hmethod] at h
    exact finite_of_runFixedPoint (fun hx => .report (Steffensen.finite_iterate _ _ hx)) htells h
  | wegstein f =>
    simp only [run, hmethod] at h
    exact finite_of_runFixedPoint (Wegstein.finite_search _) htells h
  | _ =>
    rw [hmethod] at hm
    exact hm.elim

def alwaysTwo : Function := fun _ => .ok (.value (.array (.vector [2])))

/-- A search by Wegstein's method from infinity with an infinite absolute tolerance. -/
def infiniteRun : Run :=
  Solver.run ⟨.wegstein alwaysTwo, ⟨4, by decide⟩, .int 0⟩
    [.ofFloat (1 / 0), .ofFloat (1 / 0), .ofFloat 0] none { full := true }

/-- An infinite tolerance does not let it converge where it starts. -/
theorem converges_at_finite_alwaysTwo :
    ∃ answer, infiniteRun.ConvergesTo answer ∧
      ∃ x : List Float, answer.leaves = x.map .ofFloat ∧ ∀ a ∈ x, a.isFinite = true := by
  obtain ⟨answer, hanswer⟩ := Run.exists_convergesTo
    (by decide +kernel : infiniteRun.isConverged = true)
  have hm : (⟨.wegstein alwaysTwo, ⟨4, by decide⟩, .int 0⟩ : Solver).method.FindsFixedPoint :=
    trivial
  exact ⟨answer, hanswer, Solver.converges_at_finite hm none (.inl rfl) hanswer⟩

end RootFinding
