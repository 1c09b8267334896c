import RootFinding.Proofs.Iteration.Criterion

/-!
# The arguments of a solver

A solver for systems reads its start and its tolerances before it does anything else, and a
bracketing search its two points. What they do then is a run by their caller, who answers the
questions of the search.
-/
namespace RootFinding.Solver

def newtonCaller (s : Solver) (f g : Function) :
    Caller (List Float) (Grid Float) (List Float × List Float) (Grid Float)
      (List Float × List Float) where
  value number x := do (← ask f none number (.vector x)).toGrid
  slope number place := do (← ask g (some place.2) number (.vector place.1)).toGrid
  shows := Progress.shows s.display

theorem runSystem_cases (arguments : List Value) :
    (∃ cause, ∀ run, runSystem arguments run = .failed cause) ∨
      ∃ x tol start bounds, arguments = [x, tol] ∧ prepare x tol = .ok (start, bounds) ∧
        ∀ run, runSystem arguments run = run start bounds := by
  unfold runSystem
  split
  · rename_i x tol
    cases h : prepare x tol with
    | ok prepared => exact .inr ⟨x, tol, prepared.1, prepared.2, rfl, h, fun _ => rfl⟩
    | error cause => exact .inl ⟨cause, fun _ => rfl⟩
  · exact .inl ⟨.argumentCount, fun _ => rfl⟩

/-- Arguments are refused, or read as a start and two tolerances. -/
theorem runFixedPoint_cases (arguments : List Value) :
    (∃ cause, ∀ (s : Solver) options f search,
        s.runFixedPoint options f arguments search = .failed cause) ∨
      ∃ x absolute relative start tol, arguments = [x, absolute, relative] ∧
        prepareRelative x absolute relative = .ok (start, tol) ∧
        ∀ (s : Solver) options f search, s.runFixedPoint options f arguments search =
          s.runValues options f start (search tol start.point) := by
  unfold runFixedPoint
  split
  · rename_i x absolute relative
    cases h : prepareRelative x absolute relative with
    | ok prepared =>
      exact .inr ⟨x, absolute, relative, prepared.1, prepared.2, rfl, h, fun _ _ _ _ => rfl⟩
    | error cause => exact .inl ⟨cause, fun _ _ _ _ => rfl⟩
  · exact .inl ⟨.argumentCount, fun _ _ _ _ => rfl⟩

/-- A bracketing search refuses what it is given, or is given two points and a function. -/
theorem run_bracket_cases (arguments : List Value) (function : Option Function)
    (strict : Option Bool) :
    (∃ cause, (∀ r, cause ≠ .notConverged r) ∧ ∀ (s : Solver) tol full, s.method = .brent tol →
        s.run arguments function ⟨full, strict⟩ = .failed cause) ∨
      ∃ v w f, arguments = [v, w] ∧ function = some f ∧
        ∀ (s : Solver) tol full, s.method = .brent tol →
          s.run arguments function ⟨full, strict⟩ = s.runBracket ⟨full, strict⟩ tol f v w := by
  cases strict with
  | some strict =>
    refine .inl ⟨.unknownOption, fun r hr => (by cases hr), fun s tol full hm => ?_⟩
    rw [Solver.run, hm]
    dsimp only
    split
    · contradiction
    · rfl
    · rename_i hnone _
      exact absurd rfl (hnone strict)
  | none =>
    by_cases h : ∃ v w f, arguments = [v, w] ∧ function = some f
    · obtain ⟨v, w, f, rfl, rfl⟩ := h
      refine .inr ⟨v, w, f, rfl, rfl, fun s tol full hm => ?_⟩
      rw [Solver.run, hm]
    · refine .inl ⟨.argumentCount, fun r hr => (by cases hr), fun s tol full hm => ?_⟩
      rw [Solver.run, hm]
      dsimp only
      split
      · exact absurd ⟨_, _, _, rfl, rfl⟩ h
      · contradiction
      · rfl

theorem runBracket_cases (v w : Value) :
    (∃ cause, (v.toDouble = .error cause ∨ w.toDouble = .error cause) ∧
      ∀ (s : Solver) options t f, s.runBracket options t f v w = .failed cause) ∨
      ∃ lower upper, v.toDouble = .ok lower ∧ w.toDouble = .ok upper := by
  unfold runBracket
  cases v.toDouble with
  | error cause => exact .inl ⟨cause, .inl rfl, fun _ _ _ _ => rfl⟩
  | ok lower =>
    cases w.toDouble with
    | error cause => exact .inl ⟨cause, .inr rfl, fun _ _ _ _ => rfl⟩
    | ok upper => exact .inr ⟨lower, upper, rfl, rfl⟩

end RootFinding.Solver
