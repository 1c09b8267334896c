import RootFinding.Proofs.Reporting.Solvers

/-!
# Reporting observes

Neither the display level nor the wish for an account changes what a solver does. To insist on
convergence changes the end of an iteration on a system, and only where it does not converge: the
report then tells what the answer and its account would have told.
-/
namespace RootFinding
open Number
variable {s : Solver}

def Solution.ofEnd (full : Bool) (e : Value × Account) : Solution :=
  ⟨e.1, if full then some e.2 else none⟩

/-- The wish for an account does not change how a bracketing search is settled. -/
theorem Solver.settleBracket_observed (s : Solver) (strict : Option Bool)
    (e : Brent.Ending Double Quantity) :
    ∃ result : Except Failure (Value × Account), ∀ full,
      s.settleBracket ⟨full, strict⟩ e = result.map (.ofEnd full) := by
  cases e with
  | root x iterations => exact ⟨.ok (_, _), fun full => rfl⟩
  | exhausted a b fa fb iterations => exact ⟨.error _, fun full => rfl⟩

/-- The wish for an account does not change how an iteration on a system is settled. -/
theorem Solver.settleSystem_observed (s : Solver) (strict : Option Bool) (single : Bool)
    (e : Ending (Grid Float)) :
    ∃ result : Except Failure (Value × Account), ∀ full,
      s.settleSystem ⟨full, strict⟩ single e = result.map (.ofEnd full) := by
  cases h : !e.converged && strict.getD false with
  | true =>
    simp only [settleSystem, RunOptions.isStrict, h, if_true]
    exact ⟨.error _, fun full => rfl⟩
  | false =>
    simp only [settleSystem, RunOptions.isStrict, h, Bool.false_eq_true, if_false]
    cases restore e.point single with
    | ok x => exact ⟨.ok (_, _), fun full => rfl⟩
    | error cause => exact ⟨.error cause, fun full => rfl⟩

theorem Course.exists_ends {Answer : Type} (c : Course Answer)
    {settle : Bool → Answer → Except Failure Solution}
    (h : ∀ e, ∃ result : Except Failure (Value × Account), ∀ full,
      settle full e = result.map (.ofEnd full)) :
    ∃ ends : Except Failure (Value × Account), ∀ full,
      c.outcome.bind (settle full) = ends.map (.ofEnd full) := by
  cases c.outcome with
  | ok e => exact h e
  | error cause => exact ⟨.error cause, fun _ => rfl⟩

/-- A solver takes one course to one end, whatever is shown of it. -/
theorem Solver.exists_course (s : Solver) (arguments : List Value) (function : Option Function)
    (strict : Option Bool) :
    ∃ (evaluations slopes : Array Value) (notes : List (Note String))
      (ends : Except Failure (Value × Account)), ∀ level full,
      (s.showing level).run arguments function ⟨full, strict⟩ =
        { outcome := ends.map (.ofEnd full)
          printed := Progress.text s.method.name (Note.upTo level notes)
          evaluations, slopes } := by
  by_cases hm : ∃ tol, s.method = .brent tol
  · obtain ⟨tol, hm⟩ := hm
    obtain ⟨course, hrun⟩ := exists_course_bracket hm arguments function strict
    obtain ⟨ends, hends⟩ := course.exists_ends (s.settleBracket_observed strict)
    refine ⟨course.evaluations, course.slopes, course.notes, ends, fun level full => ?_⟩
    rw [hrun, Course.seen, hends]
  · rw [not_exists] at hm
    cases Iterates.of_method hm arguments function with
    | refused cause hrun =>
      exact ⟨#[], #[], [], .error cause, fun level full => hrun level ⟨full, strict⟩⟩
    | @started x tail start course harguments hstart hrun =>
      obtain ⟨ends, hends⟩ := course.exists_ends (s.settleSystem_observed strict start.single)
      refine ⟨course.evaluations, course.slopes, course.notes, ends, fun level full => ?_⟩
      rw [hrun, Course.seen, hends]

/-- A report that tells the last point of a run and what an account tells. -/
structure Report.TellsOf (report : Report) (x : Grid Float) (account : Account) : Prop where
  x : lookup? "x" report.named = some (.array x)
  iterations : lookup? "iterations" report.named = some (.int account.iterations)
  evaluations : lookup? "fevals" report.named = some (.int account.evaluations)
  flag : lookup? "flag" report.named = some (.int account.flag)

/-- How a run ends that insists on convergence, after how it ends with an account where it does
not. -/
inductive Insists (arguments : List Value) (full : Bool) :
    Except Failure Solution → Except Failure Solution → Prop
  | failed (cause : Failure) : Insists arguments full (.error cause) (.error cause)
  | converged (answer : Value) {account : Account} (h : account.converged = true) :
    Insists arguments full (.ok ⟨answer, some account⟩) (.ok (.ofEnd full (answer, account)))
  | unconverged {v : Value} {tail : List Value} {start : Start} {x : Grid Float} {answer : Value}
    {account : Account} {report : Report} (h : account.converged = false)
    (hflag : account.flag = 1) (harguments : arguments = v :: tail)
    (hstart : Start.ofValue v = .ok start) (hx : restore x start.single = .ok answer)
    (hreport : report.TellsOf x account) :
    Insists arguments full (.ok ⟨answer, some account⟩) (.error (.notConverged report))

theorem Insists.settle {arguments tail : List Value} {v : Value} {start : Start}
    (harguments : arguments = v :: tail) (hstart : Start.ofValue v = .ok start)
    {e : Ending (Grid Float)} (hrestore : ∃ answer, restore e.point start.single = .ok answer)
    (full : Bool) :
    Insists arguments full (s.settleSystem ⟨true, some false⟩ start.single e)
      (s.settleSystem ⟨full, some true⟩ start.single e) := by
  obtain ⟨answer, hrestore⟩ := hrestore
  obtain ⟨x, converged, iterations, evaluations⟩ := e
  cases converged with
  | true =>
    rw [Solver.settleSystem_of_converged rfl hrestore,
      Solver.settleSystem_of_converged rfl hrestore]
    exact .converged answer rfl
  | false =>
    have hplain : s.settleSystem ⟨true, some false⟩ start.single
        ⟨x, false, iterations, evaluations⟩ =
          .ok ⟨answer, some ⟨false, iterations, evaluations, s.method.name⟩⟩ := by
      change (do return s.conclude _ (← restore x start.single) false iterations evaluations) = _
      rw [hrestore]
      rfl
    rw [hplain]
    exact .unconverged rfl rfl harguments hstart hrestore ⟨rfl, rfl, rfl, rfl⟩

/-- The Jacobians that a run along the flow was given have corrections of the shape of its start. -/
def Solver.KeepsStart (s : Solver) (arguments : List Value) (run : Run) : Prop :=
  ∀ v tail start, arguments = v :: tail → Start.ofValue v = .ok start →
    s.KeepsShape start.point.length run

/-- Runs of a solver for systems that differ in whether they insist on convergence. -/
theorem Solver.insists_of_system (hm : ∀ tol, s.method ≠ .brent tol) {arguments : List Value}
    {function : Option Function} {level : Int} {full : Bool} {plain insistent : Run}
    (hplain : (s.showing level).run arguments function ⟨true, some false⟩ = plain)
    (hinsistent : (s.showing level).run arguments function ⟨full, some true⟩ = insistent)
    (hkeeps : s.KeepsStart arguments plain) :
    insistent.evaluations = plain.evaluations ∧ insistent.slopes = plain.slopes ∧
      insistent.printed = plain.printed ∧
      Insists arguments full plain.outcome insistent.outcome := by
  cases Iterates.of_method hm arguments function with
  | refused cause hrun =>
    rw [hrun] at hplain hinsistent
    subst hplain hinsistent
    exact ⟨rfl, rfl, rfl, .failed cause⟩
  | @started x tail start course harguments hstart hrun hshape =>
    rw [hrun] at hplain hinsistent
    subst hplain hinsistent
    refine ⟨rfl, rfl, rfl, ?_⟩
    have hpoint := hshape _ rfl (hkeeps x tail start harguments hstart)
    simp only [Course.seen]
    cases ho : course.outcome with
    | ok e =>
      apply Insists.settle harguments hstart
      rw [Grid.eq_vector (hpoint e ho)]
      refine exists_restore fun hsingle => ?_
      rw [Grid.length_of_shape (hpoint e ho), Start.length_of_single hstart hsingle]
    | error cause => exact .failed cause

/-- Reporting observes. The runs of a solver at all integer display levels, with and without an
account, make the same calls and come to the same answer or failure; they print nothing below the
first level, all but the iterations at that, and everything from the second one on. An iteration on
a system that insists on convergence does the same as one that does not, up to the end where it
does not converge. -/
theorem Solver.reporting_observes (s : Solver) (arguments : List Value)
    (function : Option Function) :
    (∀ strict, ∃ (evaluations slopes : Array Value) (notes : List (Note String))
      (ends : Except Failure (Value × Account)), ∀ level full run,
      (s.showing level).run arguments function ⟨full, strict⟩ = run →
        run.evaluations = evaluations ∧ run.slopes = slopes ∧
        run.outcome = ends.map (.ofEnd full) ∧
        (level ≤ 0 → run.printed = "") ∧
        (level = 1 → run.printed =
          Progress.text s.method.name (notes.filter fun note => !note.isIteration)) ∧
        (2 ≤ level → run.printed = Progress.text s.method.name notes)) ∧
    ∀ level full plain insistent, (∀ tol, s.method ≠ .brent tol) →
      (s.showing level).run arguments function ⟨true, some false⟩ = plain →
      (s.showing level).run arguments function ⟨full, some true⟩ = insistent →
      s.KeepsStart arguments plain →
        insistent.evaluations = plain.evaluations ∧ insistent.slopes = plain.slopes ∧
        insistent.printed = plain.printed ∧
        Insists arguments full plain.outcome insistent.outcome := by
  constructor
  · intro strict
    obtain ⟨evaluations, slopes, notes, ends, hrun⟩ := s.exists_course arguments function strict
    refine ⟨evaluations, slopes, notes, ends, ?_⟩
    rintro level full run rfl
    rw [hrun]
    refine ⟨rfl, rfl, rfl, ?_, ?_, ?_⟩
    · intro hlevel
      simp only [Note.upTo_of_nonpos notes hlevel]
      rfl
    · rintro rfl
      rw [Note.upTo_one]
    · intro hlevel
      rw [Note.upTo_of_two_le notes hlevel]
  · intro level full plain insistent hm hplain hinsistent hkeeps
    exact insists_of_system hm hplain hinsistent hkeeps

/-- One iteration of Steffensen's method from one, for the number that is one more than its half. -/
def halfAndOneStep (level : Int) (full : Bool) (strict : Option Bool) : Run :=
  (Solver.showing ⟨.steffensen halfAndOne, ⟨1, by decide⟩, .int 0⟩ level).run
    [.ofFloat 1, .ofFloat 1e-9, .ofFloat 0] none ⟨full, strict⟩

/-- It does not converge, and to insist on that makes a report of its answer. -/
theorem reporting_observes_halfAndOne :
    (∃ notes : List (Note String), ∀ full, (halfAndOneStep 0 full none).printed = "" ∧
      (halfAndOneStep 1 full none).printed = Progress.text "Steffensen's Method"
        (notes.filter fun note => !note.isIteration) ∧
      (halfAndOneStep 3 full none).printed = Progress.text "Steffensen's Method" notes) ∧
    ∃ answer account report x, account.converged = false ∧ report.TellsOf x account ∧
      (halfAndOneStep 0 true (some false)).outcome = .ok ⟨answer, some account⟩ ∧
      (halfAndOneStep 0 true (some true)).outcome = .error (.notConverged report) := by
  obtain ⟨hviews, hinsists⟩ := Solver.reporting_observes
    ⟨.steffensen halfAndOne, ⟨1, by decide⟩, .int 0⟩ [.ofFloat 1, .ofFloat 1e-9, .ofFloat 0] none
  constructor
  · obtain ⟨_, _, notes, _, hruns⟩ := hviews none
    refine ⟨notes, fun full => ⟨?_, ?_, ?_⟩⟩
    · exact (hruns 0 full _ rfl).2.2.2.1 (by decide)
    · exact (hruns 1 full _ rfl).2.2.2.2.1 rfl
    · exact (hruns 3 full _ rfl).2.2.2.2.2 (by decide)
  · have hopen : ((halfAndOneStep 0 true (some false)).outcome.toOption.bind
        Solution.account).map Account.converged = some false := by
      decide +kernel
    have hends : Insists _ true (halfAndOneStep 0 true (some false)).outcome
        (halfAndOneStep 0 true (some true)).outcome :=
      (hinsists 0 true _ _ nofun rfl rfl fun _ _ _ _ _ => nofun).2.2.2
    generalize (halfAndOneStep 0 true (some false)).outcome = plain at hends hopen ⊢
    generalize (halfAndOneStep 0 true (some true)).outcome = insistent at hends ⊢
    cases hends with
    | failed cause => cases hopen
    | converged answer h => cases h.symm.trans (Option.some.inj hopen)
    | unconverged h hflag harguments hstart hx hreport =>
      exact ⟨_, _, _, _, h, hreport, rfl, rfl⟩

end RootFinding
