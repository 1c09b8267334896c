import RootFinding.Proofs.Bracketing.Raised
import RootFinding.Proofs.Counting.Solvers

/-!
# One call beyond the limit

A bracketing search compares its limit with the number of its passes before it makes another one, so
that a search that reaches its limit has made one pass more than that. It then has called its
function once more than at the two endpoints and as often as the limit says.
-/
namespace RootFinding.Brent
open Number Search

section Trees
variable {α : Type} [Scalar α] [Reading α α α] [PlainReading α] {value : Nat → α → α}
  {shows : Note (α × α) → Except Failure Bool} {tol lower upper : α} {limit : Nat}
  {trace : Trace α Empty (α × α) (Ending α α)}

/-- A search that cannot tell whether to show its heading has called its function at its two
endpoints. -/
theorem size_of_mute {cause : Failure} (h : shows (.heading none) = .error cause)
    (hrun : (search limit tol lower upper).run (answering value shows) = trace) :
    trace.evaluations.size = 2 := by
  obtain ⟨same, hsame⟩ := PlainReading.productPositive_ok (value 0 lower) (value 1 upper)
  subst hrun
  cases same with
  | true =>
    rw [run_search_refused hsame]
    rfl
  | false =>
    have hshows : (answering value shows).shows (.heading none) = .error cause := h
    rw [run_search hsame, Search.runFrom, hshows]
    rfl

/-- The searches that make a call beyond their limit are those that reach it. -/
theorem lt_size_iff (hshows : ∀ note cause, shows note = .error cause →
      shows (.heading none) = .error cause)
    (hrun : (search limit tol lower upper).run (answering value shows) = trace) :
    limit + 2 < trace.evaluations.size ↔ ∃ e, trace.outcome = .ok e ∧ e.Exhausted := by
  rcases concluded_search hrun with ⟨hr, he, ho, hc⟩ | ⟨hsame, ho⟩ | ⟨hs, ho⟩
  · rw [hc, List.size_toArray, hr.length_calls]
    cases he with
    | root hclosed hl =>
      apply iff_of_false
      · exact Nat.not_lt.2 (Nat.add_le_add_right hl 2)
      · rintro ⟨e, he, hexhausted⟩
        cases ho.symm.trans he
        exact hexhausted
    | exhausted hl =>
      subst hl
      exact iff_of_true (Nat.lt_succ_self _) ⟨_, ho, trivial⟩
  · have hsize : trace.evaluations.size = 2 := by
      rw [← hrun, run_search_refused hsame]
      rfl
    apply iff_of_false
    · omega
    · rintro ⟨e, he, -⟩
      cases ho.symm.trans he
  · have hsize := size_of_mute (hshows _ _ hs) hrun
    apply iff_of_false
    · omega
    · rintro ⟨e, he, -⟩
      cases ho.symm.trans he

end Trees

/-- A display level that can be compared with none of the notes cannot be with the heading. -/
theorem shows_heading_error {display : Value} {note : Note (Double × Double)} {cause : Failure}
    (h : Progress.shows display note = .error cause) :
    Progress.shows display (.heading none : Note (Double × Double)) = .error cause := by
  cases display with
  | real x => cases h
  | int n => cases h
  | truth b => cases h
  | _ =>
    cases h
    rfl

variable {s : Solver} {options : RunOptions} {t : RootTolerance} {f : Function} {v w : Value}
  {lower upper : Double} {arguments : List Value} {function : Option Function} {run : Run}

theorem settleBracket_notConverged_iff (e : Ending Double Double) :
    (∃ r, s.settleBracket options e.lift = .error (.notConverged r)) ↔ e.Exhausted := by
  cases e with
  | root x iterations =>
    apply iff_of_false
    · rintro ⟨r, hr⟩
      cases hr
    · exact id
  | exhausted a b fa fb iterations => exact iff_of_true ⟨_, rfl⟩ trivial

/-- Where the answers are doubles, a bracketing search makes a call beyond its limit exactly if it
reports that it has reached it. -/
theorem runBracket_overruns_iff (hf : AnswersReals f (s.runBracket options t f v w))
    (hl : v.toDouble = .ok lower) (hu : w.toDouble = .ok upper) :
    s.limit.count + 2 < (s.runBracket options t f v w).evaluations.size ↔
      ∃ r, (s.runBracket options t f v w).outcome = .error (.notConverged r) := by
  have hshows : ∀ (note : Note (Double × Double)) cause,
      Progress.shows s.display note = .error cause →
      Progress.shows s.display (.heading none : Note (Double × Double)) = .error cause :=
    fun _ _ => shows_heading_error
  rw [runBracket_of_reals hf hl hu]
  obtain ⟨trace, htrace⟩ : ∃ trace, (search s.limit.count (.ofFloat t.value) lower upper).run
      (answering (doubleAnswer f) (Progress.shows s.display)) = trace := ⟨_, rfl⟩
  rw [htrace]
  simp only [Run.ofTrace, liftTrace, Array.size_map]
  rw [lt_size_iff hshows htrace]
  cases ho : trace.outcome with
  | ok e =>
    constructor
    · rintro ⟨e', he, hexhausted⟩
      cases he
      exact (settleBracket_notConverged_iff e).2 hexhausted
    · intro h
      exact ⟨e, rfl, (settleBracket_notConverged_iff e).1 h⟩
  | error cause =>
    apply iff_of_false
    · rintro ⟨e, he, -⟩
      cases he
    · rintro ⟨r, hr⟩
      rcases failure_cases htrace ho with rfl | ⟨note, hs⟩
      · cases hr
      · rw [Progress.shows_error hs] at hr
        cases hr

/-- A bracketing search that returns a root has made no call beyond its limit. -/
theorem size_of_ok (hl : v.toDouble = .ok lower) (hu : w.toDouble = .ok upper)
    {solution : Solution} (ho : (s.runBracket options t f v w).outcome = .ok solution) :
    (s.runBracket options t f v w).evaluations.size ≤ s.limit.count + 2 := by
  rw [runBracket_of_bounds hl hu] at ho ⊢
  obtain ⟨e, he, hsettle⟩ := exists_of_bind_eq_ok ho
  have htells := (counted_search s.limit.count (.ofFloat t.value) lower upper).run.agrees e he
  cases e with
  | root x iterations =>
    obtain ⟨hle, hcalls, -⟩ := htells
    simp only [Run.ofTrace, Array.size_map, hcalls]
    exact Nat.add_le_add_right hle 2
  | exhausted a b fa fb iterations => cases hsettle

/-- A solver for brackets calls its function at most once more than at the endpoints and as often
as its limit says, whatever the function answers; not even that where it returns a root. A function
that answers doubles is called once more exactly if the solver reports that it has reached its
limit. -/
theorem overruns_iff_exhausted (hm : s.method = .brent t)
    (hrun : s.run arguments function options = run) :
    run.evaluations.size ≤ s.limit.count + 3 ∧
    (∀ solution, run.outcome = .ok solution → run.evaluations.size ≤ s.limit.count + 2) ∧
    ∀ f, function = some f → AnswersReals f run →
      (s.limit.count + 2 < run.evaluations.size ↔
        ∃ r, run.outcome = .error (.notConverged r)) := by
  have hsize := (Solver.tells_bracket hm : (s.run arguments function options).Tells _ _ _).size_le
  rw [hm, hrun] at hsize
  refine ⟨hsize, ?_⟩
  rcases Solver.run_bracket_of_bounds hm arguments function options with ⟨cause, hcause, hfail⟩ |
    ⟨f, v, w, lower, upper, rfl, hv, hw, hbracket⟩
  · obtain rfl : run = .failed cause := hrun.symm.trans hfail
    constructor
    · rintro solution ⟨⟩
    · intro f hf hreals
      apply iff_of_false
      · exact Nat.not_lt_zero _
      · rintro ⟨r, hr⟩
        exact hcause r (Except.error.inj hr)
  · obtain rfl : run = _ := hrun.symm.trans hbracket
    constructor
    · exact fun solution => size_of_ok hv hw
    · intro g hg hreals
      cases hg
      exact runBracket_overruns_iff hreals hv hw

def within (limit : Limit) : Solver := ⟨.brent fineTolerance, limit, .int 0⟩

def squareWithin (limit : Limit) : Run :=
  (within limit).run [.int 0, .int 2] (some squareLessTwo) {}

/-- With a limit of one it is exhausted, so it has made a call beyond its limit. -/
theorem overruns_iff_exhausted_square :
    (squareWithin ⟨1, by decide⟩).evaluations.size ≤ 4 ∧
      3 < (squareWithin ⟨1, by decide⟩).evaluations.size ∧
      ∃ r, (squareWithin ⟨1, by decide⟩).outcome = .error (.notConverged r) := by
  have hcapped : isCapped (squareWithin ⟨1, by decide⟩) = true := by decide +kernel
  have hexhausted := exists_report hcapped
  have hf : AnswersReals squareLessTwo (squareWithin ⟨1, by decide⟩) :=
    fun _ x _ => ⟨x * x - 2, rfl⟩
  obtain ⟨hsize, -, hiff⟩ := overruns_iff_exhausted
    (rfl : (within ⟨1, by decide⟩).method = .brent fineTolerance)
    (rfl : (within ⟨1, by decide⟩).run [.int 0, .int 2] (some squareLessTwo) {} = _)
  exact ⟨hsize, (hiff squareLessTwo rfl hf).2 hexhausted, hexhausted⟩

/-- With a limit of one it calls the function at two points besides the endpoints. -/
theorem squareWithin_exceeds :
    ¬(squareWithin ⟨1, by decide⟩).evaluations.size ≤ (within ⟨1, by decide⟩).limit.count + 2 := by
  decide +kernel

end RootFinding.Brent
