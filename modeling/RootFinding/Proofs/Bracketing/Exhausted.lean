import RootFinding.Proofs.Bracketing.Enclosure

/-!
# The report of an exhausted search

A search that reaches its limit reports its best estimate and the point before it. The change of
sign lies between the best estimate and the far end, so the two reported values may have one sign.
-/
namespace RootFinding
open Number Double

namespace Value

theorem toInt_bind_error {β : Type} {v : Value} {next : Int → Except Failure β} {cause : Failure}
    (h : v.toInt >>= next = .error cause) :
    cause = .wrongKind ∨ ∃ n, next n = .error cause := by
  unfold toInt at h
  split at h
  · exact .inr ⟨_, h⟩
  · cases h
    exact .inl rfl

theorem compareNumbers_error {v w : Value} {cause : Failure}
    (h : compareNumbers v w = .error cause) : cause = .wrongKind := by
  unfold compareNumbers at h
  split at h
  · cases h
  · rcases toInt_bind_error h with h | ⟨n, h⟩
    · exact h
    · cases h
  · rcases toInt_bind_error h with h | ⟨n, h⟩
    · exact h
    · cases h
  · rcases toInt_bind_error h with h | ⟨m, h⟩
    · exact h
    · rcases toInt_bind_error h with h | ⟨n, h⟩
      · exact h
      · cases h

end Value

/-- Only a display level that is no number keeps a note from being shown. -/
theorem Progress.shows_error {Detail : Type} {display : Value} {note : Note Detail}
    {cause : Failure} (h : Progress.shows display note = .error cause) : cause = .wrongKind := by
  unfold Progress.shows Value.isAtMost at h
  cases hc : Value.compareNumbers (.int note.level) display with
  | ok order =>
    rw [hc] at h
    cases h
  | error cause' =>
    rw [hc] at h
    cases h
    exact Value.compareNumbers_error hc

namespace Brent
variable {value : Nat → Double → Double} {calls : List Double} {tol lower upper x fx : Double}
  {done : Nat} {p q : Points Double Double}

theorem Alike.comm {x y : Double} : Alike x y ↔ Alike y x := by
  unfold Alike
  rw [and_comm, and_comm (a := 0 < x)]

theorem Across.not_alike {x y : Double} (h : Across x y) : ¬Alike x y :=
  facing_iff_not_alike.1 h.facing

/-- The point before the best estimate has a value of its sign just where the last call gave one of
the sign of the best value so far that is no larger than the value at the far end. -/
theorem Pass.alike_iff (hv : DefinedAt value (calls ++ [x])) (he : Enclosed value calls p)
    (hlen : calls.length = evaluations done) (hp : Pass value tol done p x q)
    (hfx : value (evaluations done) x = fx) :
    Alike q.fa q.fb ↔ Alike fx p.fb ∧ ¬p.fc.abs < fx.abs := by
  obtain ⟨d, e, same, hside, hacross, rfl⟩ := hp.settled hv he hlen
  rw [hfx] at hside ⊢
  cases same with
  | true =>
    have hnext := (hside.1 rfl).across hacross.symm
    refine iff_of_false ?_ fun h => hnext.not_alike h.1
    by_cases hlt : p.fb.abs < fx.abs
    · have hq := ordered_of_lt (s := (p.moved x fx d e).restarted) hlt
      rw [if_pos rfl, hq]
      exact hnext.not_alike
    · have hq := ordered_of_not_lt (s := (p.moved x fx d e).restarted) hlt
      rw [if_pos rfl, hq]
      exact hnext.symm.not_alike
  | false =>
    have hnext := mt hside.2 Bool.false_ne_true
    rw [if_neg Bool.false_ne_true]
    by_cases hlt : p.fc.abs < fx.abs
    · rw [ordered_of_lt (s := p.moved x fx d e) hlt]
      exact iff_of_false hnext fun h => h.2 hlt
    · rw [ordered_of_not_lt (s := p.moved x fx d e) hlt]
      exact Alike.comm.trans (and_iff_left hlt).symm

def exhaustedReport (q : Points Double Double) (iterations : Nat) : Report :=
  .ofBracket (.real q.a) (.real q.b) [("fa", .real q.fa), ("fb", .real q.fb),
    ("iterations", .int iterations), ("fevals", .int (evaluations iterations))]

/-- A search that reaches its limit reports its best estimate and the point before it. The values
there have one sign just where the last call gave one of the sign of the best value so far that is
no larger than the value at the far end; the best estimate and the far end never have one sign. -/
theorem exhausted_alike_iff {s : Solver} {options : RunOptions} {t : RootTolerance} {f : Function}
    {v w : Value} {run : Run} {r : Report} (hrun : s.runBracket options t f v w = run)
    (hf : AnswersDoubles f run) (hl : v.toDouble = .ok lower) (hu : w.toDouble = .ok upper)
    (hends : Facing (doubleAnswer f 0 lower) (doubleAnswer f 1 upper))
    (hout : run.outcome = .error (.notConverged r)) :
    ∃ calls p x q,
      Reached (doubleAnswer f) (.ofFloat t.value) lower upper s.limit.count calls p ∧
      Pass (doubleAnswer f) (.ofFloat t.value) s.limit.count p x q ∧
      run.evaluations.toList = (calls ++ [x]).map .real ∧
      r = exhaustedReport q (s.limit.count + 1) ∧ Facing q.fb q.fc ∧
      (Alike q.fa q.fb ↔ Alike (doubleAnswer f (evaluations s.limit.count) x) p.fb ∧
        ¬p.fc.abs < (doubleAnswer f (evaluations s.limit.count) x).abs) := by
  obtain ⟨trace, ht, ho, hevals⟩ := exists_trace hrun hf hl hu
  rw [ho] at hout
  cases hend : trace.outcome with
  | error cause =>
    rw [hend] at hout
    rcases failure_cases ht hend with rfl | ⟨note, hs⟩
    · cases hout
    · rw [Progress.shows_error hs] at hout
      cases hout
  | ok ending =>
    rw [hend] at hout
    obtain ⟨done, calls, q, hr, he, hcalls⟩ := exists_ended_of_ok ht hend
    have hlist : run.evaluations.toList = calls.map .real := by
      rw [hevals, hcalls, Array.toList_map]
    have hv := hf.definedAt (by rw [hlist])
    have hq := hr.enclosed hv hends
    cases he with
    | root hc hl => cases hout
    | exhausted hl =>
      subst hl
      cases hout
      cases hr with
      | @pass done calls p q x hr hp =>
        have hp' := hr.enclosed (hv.anti (List.prefix_append ..)) hends
        exact ⟨calls, p, x, q, hr, hp, hlist, rfl, hq.facing,
          hp.alike_iff hv hp' hr.length_calls rfl⟩

def isCapped (run : Run) : Bool :=
  match run.outcome with
  | .error (.notConverged _) => true
  | _ => false

theorem exists_report {run : Run} (h : isCapped run = true) :
    ∃ r, run.outcome = .error (.notConverged r) := by
  unfold isCapped at h
  split at h
  · exact ⟨_, ‹_›⟩
  · cases h

def fineTolerance : RootTolerance := ⟨1e-8, by decide⟩

/-- With a limit of one, the search for the square root of two is exhausted after two steps. -/
theorem exhausted_alike_iff_square :
    ∃ (r : Report) (p : Points Double Double) (x : Double) (q : Points Double Double),
      (squareRun fineTolerance ⟨1, by decide⟩).outcome = .error (.notConverged r) ∧
      r = exhaustedReport q 2 ∧ Facing q.fb q.fc ∧
      (Alike q.fa q.fb ↔ Alike (doubleAnswer squareLessTwo 3 x) p.fb ∧
        ¬p.fc.abs < (doubleAnswer squareLessTwo 3 x).abs) := by
  have hcapped : isCapped (squareRun fineTolerance ⟨1, by decide⟩) = true := by decide +kernel
  obtain ⟨r, hout⟩ := exists_report hcapped
  have hf : AnswersDoubles squareLessTwo (squareRun fineTolerance ⟨1, by decide⟩) :=
    answersDoubles_square (by decide +kernel)
  obtain ⟨calls, p, x, q, -, -, -, hr, hq, hiff⟩ := exhausted_alike_iff rfl hf
    (rfl : (Value.int 0).toDouble = .ok 0) (rfl : (Value.int 2).toDouble = .ok 2)
    (by decide +kernel) hout
  exact ⟨r, p, x, q, hout, hr, hq, hiff⟩

def reportedValues : Except Failure Solution → Option (Double × Double)
  | .error (.notConverged r) =>
    match Report.lookup? "fa" r.named, Report.lookup? "fb" r.named with
    | some (.real fa), some (.real fb) => some (fa, fb)
    | _, _ => none
  | _ => none

/-- Both reported values are negative, although the endpoints have values of opposite signs. -/
theorem exhausted_report_alike :
    Across (doubleAnswer squareLessTwo 0 0) (doubleAnswer squareLessTwo 1 2) ∧
      AnswersDoubles squareLessTwo (squareRun fineTolerance ⟨1, by decide⟩) ∧
      ∃ fa fb, reportedValues (squareRun fineTolerance ⟨1, by decide⟩).outcome = some (fa, fb) ∧
        fa < 0 ∧ fb < 0 := by
  refine ⟨?_, answersDoubles_square (by decide +kernel), ?_⟩
  · unfold Across
    decide +kernel
  · have hneg : ((reportedValues (squareRun fineTolerance ⟨1, by decide⟩).outcome).any
        fun values => values.1 < 0 && values.2 < 0) = true := by
      decide +kernel
    obtain ⟨⟨fa, fb⟩, hvalues, hsign⟩ := (Option.any_eq_true ..).1 hneg
    exact ⟨fa, fb, hvalues, by simpa using hsign⟩

end Brent
end RootFinding
