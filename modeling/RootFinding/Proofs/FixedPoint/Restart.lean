import RootFinding.Proofs.FixedPoint.Stages
import RootFinding.Proofs.Iteration.Converged

/-!
# Starting again from an answer of Broyden's method

An answer after no iterations passed the test at its own value. One after more iterations is a
proposal close to the last called point, and its value was not asked for. A search started from an
answer gives it again, without an iteration, exactly when the value there passes the test.
-/
namespace RootFinding
open Number Search Iteration

def Solver.valueCaller (s : Solver) (f : Function) :
    Caller (List Float) (Grid Float) Empty Empty (List Float) where
  value number x := do (← Solver.ask f none number (.vector x)).toGrid
  slope _ := Empty.elim
  shows := Progress.shows s.display

def Criterion.fixedPoint (f : Function) (start : Start) (tol : List (Tolerance Float)) :
    Criterion :=
  ⟨f, start, fun x y => Tolerance.within tol y x⟩

variable {s : Solver} {options : RunOptions} {f : Function} {start : Start}
  {tol : List (Tolerance Float)} {x absolute relative answer : Value}

theorem reply_valueCaller {number : Nat} {p y : List Float} :
    reply (s.valueCaller f) number p = .ok y ↔ ∃ found grid,
      f { argument := .array (.vector p), number } = .ok found ∧ found.toGrid = .ok grid ∧
        grid.shape = [p.length] ∧ grid.entries = y := by
  constructor
  · intro h
    unfold reply at h
    split at h
    · rename_i grid hgrid
      split at h
      · rename_i hshape
        cases h
        obtain ⟨found, hfound, hgrid⟩ := toGrid_ask_eq_ok.1 hgrid
        exact ⟨found, grid, hfound, hgrid, hshape, rfl⟩
      · cases h
    · cases h
  · rintro ⟨found, grid, hfound, hgrid, hshape, rfl⟩
    have hvalue : (s.valueCaller f).value number p = .ok grid :=
      toGrid_ask_eq_ok.2 ⟨found, hfound, hgrid⟩
    simp [reply, hvalue, hshape]

theorem reply_of_memoryless (hf : f.Memoryless) (m n : Nat) (p : List Float) :
    reply (s.valueCaller f) m p = reply (s.valueCaller f) n p := by
  have hcall : f ⟨.array (.vector p), none, m⟩ = f ⟨.array (.vector p), none, n⟩ :=
    hf ⟨.array (.vector p), none, n⟩ m
  simp only [reply, Solver.valueCaller, Solver.ask, hcall]

theorem Criterion.passesAt_fixedPoint {number : Nat} {p : List Float} :
    (Criterion.fixedPoint f start tol).PassesAt number (.vector p) ↔
      ∃ y, reply (s.valueCaller f) number p = .ok y ∧ Tolerance.within tol y p = true := by
  constructor
  · rintro ⟨found, grid, hfound, hgrid, hshape, htest⟩
    exact ⟨grid.entries, reply_valueCaller.2 ⟨found, grid, hfound, hgrid, hshape, rfl⟩, htest⟩
  · rintro ⟨y, hy, htest⟩
    obtain ⟨found, grid, hfound, hgrid, hshape, rfl⟩ := reply_valueCaller.1 hy
    exact ⟨found, grid, hfound, hgrid, hshape, htest⟩

namespace Broyden

theorem exists_trace (hm : s.method = .broyden f)
    (hp : Solver.prepareRelative x absolute relative = .ok (start, tol)) (options : RunOptions) :
    ∃ trace, (search s.limit.count tol start.point).run (s.valueCaller f) = trace ∧
      (s.run [x, absolute, relative] none options).evaluations =
        trace.evaluations.map (fun p => .ofGrid (.vector p)) ∧
      (s.run [x, absolute, relative] none options).outcome =
        (trace.outcome.map gridEnding).bind (s.settleSystem options start.single) := by
  refine ⟨_, rfl, ?_, ?_⟩
  · simp only [Solver.run, hm, Solver.runFixedPoint, hp]
    rfl
  · simp only [Solver.run, hm, Solver.runFixedPoint, hp]
    change ((search s.limit.count tol start.point).run (s.valueCaller f)).outcome.bind _ = _
    cases ((search s.limit.count tol start.point).run (s.valueCaller f)).outcome <;> rfl

/-- A search from a point whose value passes the test ends there. -/
theorem run_search_of_pass (hs : s.Displays) {limit : Nat} {p y : List Float}
    (hy : reply (s.valueCaller f) 0 p = .ok y) (hyp : Tolerance.within tol y p = true) :
    ((search limit tol p).run (s.valueCaller f)).outcome = .ok ⟨p, true, 0, 1⟩ := by
  obtain ⟨shown, hshown⟩ : ∃ shown : Note (List Float) → Bool, ∀ note,
      (s.valueCaller f).shows note = .ok (shown note) := hs.shows
  have hy' : reply (s.valueCaller f) (#[] : Array (List Float)).size p = .ok y := hy
  rw [search, run, runFrom_report hshown, runFrom_measure_ok hy']
  simp only [hyp, if_true, succeed]
  rw [runFrom_report hshown, runFrom]

/-- An answer that a search from its own point gives without an iteration passes the test. -/
theorem passes_of_gives_again (hf : f.Memoryless) {limit : Nat} {p : List Float} {count : Nat}
    (hl : 1 ≤ limit)
    (ho : ((search limit tol p).run (s.valueCaller f)).outcome = .ok ⟨p, true, 0, count⟩) :
    ∃ y, reply (s.valueCaller f) 0 p = .ok y ∧ Tolerance.within tol y p = true := by
  have hc : Concluded (s.valueCaller f) tol p limit _ := concluded_search hl rfl
  rcases hc with ⟨hy, hyx, -, -⟩ | ⟨hy, hyx, hz, hzy, -, ho'⟩ |
    ⟨hr, he, -, ho'⟩ | ⟨-, ho'⟩
  · exact ⟨_, hy, hyx⟩
  · cases ho.symm.trans ho'
    rw [reply_of_memoryless hf 1 0] at hz
    cases hy.symm.trans hz
    exact absurd hzy (by simp [hyx])
  · cases ho.symm.trans ho'
    obtain ⟨hlen, -, he⟩ := he.of_converged rfl
    have hrounds := congrArg Ending.iterations he
    dsimp only at hrounds
    omega
  · cases ho.symm.trans ho'

theorem displays_of_converges (hm : s.method = .broyden f)
    (hp : Solver.prepareRelative x absolute relative = .ok (start, tol))
    (hconv : (s.run [x, absolute, relative] none options).ConvergesTo answer) : s.Displays := by
  rcases s.displays_or with hs | ⟨cause, hd⟩
  · exact hs
  · have ho : (s.run [x, absolute, relative] none options).outcome = .error cause := by
      simp only [Solver.run, hm, Solver.runFixedPoint, hp]
      exact (Run.ofTrace_mute (hd 1) ..).2
    exact (Run.not_convergesTo ho answer hconv).elim

theorem exists_of_map_gridEnding {outcome : Except Failure (Ending (List Float))}
    {e : Ending (Grid Float)} (h : outcome.map gridEnding = .ok e) :
    ∃ e', outcome = .ok e' ∧ e = gridEnding e' := by
  cases outcome with
  | ok e' => exact ⟨e', rfl, (Except.ok.inj h).symm⟩
  | error cause => cases h

/-- A search from the point of an answer gives it again without an iteration exactly when the value
there passes the test. -/
theorem restart_iff (hm : s.method = .broyden f)
    (hp : Solver.prepareRelative x absolute relative = .ok (start, tol)) (hf : f.Memoryless)
    (hfull : options.full = true) (hs : s.Displays) {p : List Float}
    (hlen : p.length = start.point.length)
    (hrestore : restore (.vector p) start.single = .ok answer) :
    (∃ count, (s.run [answer, absolute, relative] none options).outcome =
        .ok (s.conclude options answer true 0 count)) ↔
      (Criterion.fixedPoint f start tol).PassesAt 0 (.vector p) := by
  have hp' := (Solver.prepareRelative_restart hp).2 answer ⟨p, start.single⟩
    (Start.ofValue_restore hrestore) hlen
  obtain ⟨trace, rfl, -, ho⟩ := exists_trace hm hp' options
  rw [Criterion.passesAt_fixedPoint, ho]
  constructor
  · rintro ⟨count, hout⟩
    obtain ⟨e, he, hsettle⟩ := exists_of_bind_eq_ok hout
    obtain ⟨⟨q, converged, iterations, evaluations⟩, he', rfl⟩ := exists_of_map_gridEnding he
    obtain ⟨hq, hconverged, hiterations, hcount⟩ := Solver.settleSystem_eq_ok hfull hsettle
    cases restore_injective hq hrestore
    cases hconverged
    cases hiterations
    exact passes_of_gives_again hf s.limit.positive he'
  · rintro ⟨y, hy, hyp⟩
    refine ⟨1, ?_⟩
    rw [run_search_of_pass hs hy hyp]
    exact Solver.settleSystem_of_converged rfl hrestore

/-- A search that converged gives its answer again without an iteration exactly when the value there
passes the test. An answer after no iterations does. Of any other it is known that it is the
proposal of the last stage and close to the point of that stage. -/
theorem gives_again_iff (hm : s.method = .broyden f)
    (hp : Solver.prepareRelative x absolute relative = .ok (start, tol)) (hf : f.Memoryless)
    (hfull : options.full = true) {run : Run}
    (hrun : s.run [x, absolute, relative] none options = run) (hconv : run.ConvergesTo answer) :
    ∃ (p : List Float) (iterations evaluations : Nat),
      restore (.vector p) start.single = .ok answer ∧
      run.outcome = .ok (s.conclude options answer true iterations evaluations) ∧
      ((∃ count, (s.run [answer, absolute, relative] none options).outcome =
          .ok (s.conclude options answer true 0 count)) ↔
        (Criterion.fixedPoint f start tol).PassesAt 0 (.vector p)) ∧
      (iterations = 0 → (Criterion.fixedPoint f start tol).PassesAt 0 (.vector p)) ∧
      (iterations ≠ 0 → ∃ calls stage,
        Reached (reply (s.valueCaller f)) tol start.point calls stage ∧
        run.evaluations = (calls.map fun q => .ofGrid (.vector q)).toArray ∧
        p = stage.propose ∧ Tolerance.within tol p stage.point = true) := by
  have hs : s.Displays := displays_of_converges hm hp (hrun ▸ hconv)
  obtain ⟨trace, htrace, hevals, ho⟩ := exists_trace hm hp options
  rw [hrun] at hevals ho
  obtain ⟨e, he, hec, hrestore⟩ := (Run.convergesTo_iff ho (.inl hfull) answer).1 hconv
  have hout : run.outcome = .ok (s.conclude options answer true e.iterations e.evaluations) := by
    rw [ho, he]
    exact Solver.settleSystem_of_converged hec hrestore
  obtain ⟨⟨p, converged, iterations, evaluations⟩, he', rfl⟩ := exists_of_map_gridEnding he
  have hpasses : (∃ y, reply (s.valueCaller f) 0 p = .ok y ∧ Tolerance.within tol y p = true) →
      (Criterion.fixedPoint f start tol).PassesAt 0 (.vector p) := Criterion.passesAt_fixedPoint.2
  suffices hlen : p.length = start.point.length ∧ (iterations = 0 →
      (Criterion.fixedPoint f start tol).PassesAt 0 (.vector p)) ∧ (iterations ≠ 0 → _) from
    ⟨p, iterations, evaluations, hrestore, hout,
      restart_iff hm hp hf hfull hs hlen.1 hrestore, hlen.2⟩
  rcases concluded_search s.limit.positive htrace with ⟨hy, hyx, -, hend⟩ |
    ⟨hy, hyx, hz, hzy, -, hend⟩ | ⟨hr, hends, hc, hend⟩ | ⟨-, hend⟩
  · cases he'.symm.trans hend
    exact ⟨rfl, fun _ => hpasses ⟨_, hy, hyx⟩, fun h => (h rfl).elim⟩
  · cases he'.symm.trans hend
    rw [reply_of_memoryless hf 1 0] at hz
    exact ⟨length_of_reply hy, fun _ => hpasses ⟨_, hz, hzy⟩, fun h => (h rfl).elim⟩
  · cases he'.symm.trans hend
    obtain ⟨hlen, ht, hending⟩ := hends.of_converged hec
    cases hending
    refine ⟨(hr.sized length_of_reply).length_propose, fun h => by omega, fun _ => ?_⟩
    refine ⟨_, _, hr, ?_, rfl, ht⟩
    rw [hevals, hc, List.map_toArray]
  · cases he'.symm.trans hend

def squareAndSelf : Function := fun call =>
  match call.argument with
  | .array a => .ok (.value (.array (a.map fun x => x * x + x - 2)))
  | .number _ => .error .wrongKind

/-- A search for a fixed point, with an account, at an absolute tolerance of a quarter. -/
def squareAndSelfRun (x : Value) : Run :=
  Solver.run ⟨.broyden squareAndSelf, ⟨500, by decide⟩, .int 0⟩ [x, .ofFloat 0.25, .ofFloat 0] none
    { full := true }

theorem gives_again_iff_squareAndSelf :
    ∃ answer p, (squareAndSelfRun (.ofFloat 2)).ConvergesTo answer ∧
      restore (.vector p) true = .ok answer ∧
      ((∃ count, (squareAndSelfRun answer).outcome =
          .ok ⟨answer, some ⟨true, 0, count, "Broyden's Method"⟩⟩) ↔
        (Criterion.fixedPoint squareAndSelf ⟨[2], true⟩ [⟨0.25, 0⟩]).PassesAt 0 (.vector p)) := by
  obtain ⟨answer, hanswer⟩ := Run.exists_convergesTo
    (by decide +kernel : (squareAndSelfRun (.ofFloat 2)).isConverged = true)
  have hp : Solver.prepareRelative (.ofFloat 2) (.ofFloat 0.25) (.ofFloat 0) =
    .ok (⟨[2], true⟩, [⟨0.25, 0⟩]) := rfl
  have hm : (⟨.broyden squareAndSelf, ⟨500, by decide⟩, .int 0⟩ : Solver).method =
    .broyden squareAndSelf := rfl
  have hfull : ({ full := true } : RunOptions).full = true := rfl
  have hrun : _ = squareAndSelfRun (.ofFloat 2) := rfl
  obtain ⟨p, -, -, hrestore, -, hiff, -, -⟩ :=
    gives_again_iff hm hp (fun _ _ => rfl) hfull hrun hanswer
  exact ⟨answer, p, hanswer, hrestore, hiff⟩

/-- A run that converges, but not without an iteration when it is started from its answer. -/
def moves (run : Value → Run) (x : Value) : Bool :=
  match (run x).outcome with
  | .ok ⟨answer, some account⟩ =>
    account.converged && match (run answer).outcome with
      | .ok ⟨_, some account⟩ => account.iterations != 0
      | _ => true
  | _ => false

/-- From two, the search converges to a proposal that a search from there does not give again. -/
theorem moves_squareAndSelf :
    ∃ answer, (squareAndSelfRun (.ofFloat 2)).ConvergesTo answer ∧
      ¬∃ count, (squareAndSelfRun answer).outcome =
        .ok ⟨answer, some ⟨true, 0, count, "Broyden's Method"⟩⟩ := by
  have h : moves squareAndSelfRun (.ofFloat 2) = true := by decide +kernel
  unfold moves at h
  split at h
  · rename_i answer account ho
    obtain ⟨hconverged, hmoves⟩ := Bool.and_eq_true_iff.1 h
    refine ⟨answer, ⟨some account, ho, ?_⟩, ?_⟩
    · rintro _ ⟨⟩
      exact hconverged
    · rintro ⟨count, hcount⟩
      rw [hcount] at hmoves
      cases hmoves
  · cases h

end Broyden
end RootFinding
