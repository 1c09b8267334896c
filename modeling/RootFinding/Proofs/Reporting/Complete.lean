import RootFinding.Proofs.Counting.Solvers
import RootFinding.Proofs.Reporting.Iterations
import RootFinding.Proofs.Reporting.Observed

/-!
# Complete transcripts

From the second display level on, a run that ends with an answer or with the report that it did not
converge has printed a heading, its iterations with their numbers from one on, and a closing line.
How many iterations there are is told by the counts in the account or the report. A run that fails
otherwise has no closing line, and one whose bracket is refused has printed nothing.
-/
namespace RootFinding
open Number Search Iteration

section Levels

theorem Number.compareInt_mono {m n : Int} {x : Float} (hmn : m ≤ n)
    (h : compareInt n x = some .lt ∨ compareInt n x = some .eq) :
    compareInt m x = some .lt ∨ compareInt m x = some .eq := by
  unfold compareInt at h ⊢
  cases hx : Exact.ofFloat x with
  | undefined => simp [hx] at h
  | infinite negative => simpa [hx] using h
  | finite negative mantissa exponent =>
    have hscale : m * (Nat.pow 2 (-exponent).toNat : Nat) ≤
        n * (Nat.pow 2 (-exponent).toNat : Nat) :=
      Int.mul_le_mul_of_nonneg_right hmn (Int.natCast_nonneg _)
    simp only [hx, compareExact, Option.some.injEq, Int.compare_eq_lt,
      Std.compare_eq_iff_eq] at h ⊢
    omega

/-- What stands at a display level stands at each level above it. -/
theorem Value.isAtMost_of_le {m n : Int} {display : Value} (hmn : m ≤ n)
    (h : isAtMost (.int n) display = .ok true) : isAtMost (.int m) display = .ok true := by
  have hints : ∀ k : Int, (some (compare n k) == some .lt || some (compare n k) == some .eq) = true →
      (some (compare m k) == some .lt || some (compare m k) == some .eq) = true := by
    intro k hk
    simp only [Bool.or_eq_true, beq_iff_eq, Option.some.injEq, Int.compare_eq_lt,
      Std.compare_eq_iff_eq] at hk ⊢
    omega
  cases display with
  | real x =>
    have hx := Except.ok.inj h
    refine congrArg Except.ok ?_
    simp only [Bool.or_eq_true, beq_iff_eq] at hx ⊢
    exact compareInt_mono hmn hx
  | int k => exact congrArg Except.ok (hints k (Except.ok.inj h))
  | truth b => exact congrArg Except.ok (hints _ (Except.ok.inj h))
  | _ => cases h

theorem Progress.shows_of_level {Detail : Type} {display : Value}
    (h : Value.isAtMost (.int 2) display = .ok true) (note : Note Detail) :
    shows display note = .ok true := by
  refine Value.isAtMost_of_le ?_ h
  rw [Note.level_eq]
  split <;> omega

end Levels

/-- The lines of notes are those of the notes with their details as text. -/
theorem Progress.join_line {Detail : Type} (method : String) (detail : Detail → String)
    (notes : List (Note Detail)) :
    String.join (notes.map (line method detail)) = text method (notes.map (Note.map detail)) := by
  simp only [text, List.map_map, Function.comp_def, line_map]

namespace Solver
variable {s : Solver} {arguments : List Value} {function : Option Function} {strict : Option Bool}

/-- An end that tells whether the run converged and how many iterations it has reported: an answer
with its account, or the report of a run that did not converge. -/
inductive Closes (s : Solver) : Bool → Nat → Except Failure (Value × Account) → Prop
  | answered {answer : Value} {account : Account} {k : Nat}
    (hk : s.method.family.lines account.iterations account.evaluations = k) :
    Closes s account.converged k (.ok (answer, account))
  | unconverged {report : Report} {iterations evaluations k : Nat}
    (hi : Report.lookup? "iterations" report.named = some (.int iterations))
    (he : Report.lookup? "fevals" report.named = some (.int evaluations))
    (hk : s.method.family.lines iterations evaluations = k) :
    Closes s false k (.error (.notConverged report))

/-- What a run has printed with its end. A run that does not close fails for another cause than that
it did not converge, unless a function raised that as its own. -/
inductive Transcribes (s : Solver) (function : Option Function) (run : Run)
    (ends : Except Failure (Value × Account)) : Prop
  | closed {converged : Bool} {k : Nat} {equations : Option Nat} {details : List String}
    (hends : s.Closes converged k ends) (hk : details.length = k)
    (hprinted : run.printed = Progress.text s.method.name
      (Note.opening equations details ++ [.closing converged]))
  | interrupted {cause : Failure} (hends : ends = .error cause)
    (hcause : (∀ r, cause ≠ .notConverged r) ∨
      run.Raised (s.valueFunctions function) s.slopeFunctions cause)
    (hprinted : run.printed = "" ∨ ∃ (equations : Option Nat) (details : List String),
      run.printed = Progress.text s.method.name (Note.opening equations details))

theorem exists_ends_settleSystem {single : Bool} {e : Ending (Grid Float)} {answer : Value}
    (hanswer : restore e.point single = .ok answer) (strict : Option Bool) :
    ∃ ends, (∀ full, s.settleSystem ⟨full, strict⟩ single e = ends.map (.ofEnd full)) ∧
      s.Closes e.converged (s.method.family.lines e.iterations e.evaluations) ends := by
  obtain ⟨x, converged, iterations, evaluations⟩ := e
  cases h : !converged && strict.getD false with
  | true =>
    obtain rfl : converged = false := by simpa using (Bool.and_eq_true_iff.1 h).1
    simp only [settleSystem, RunOptions.isStrict, h, if_true]
    exact ⟨.error _, fun _ => rfl, .unconverged rfl rfl rfl⟩
  | false =>
    simp only [settleSystem, RunOptions.isStrict, h, Bool.false_eq_true, if_false, hanswer]
    let account : Account := ⟨converged, iterations, evaluations, s.method.name⟩
    have hcloses : s.Closes account.converged _ (.ok (answer, account)) := .answered rfl
    exact ⟨.ok (answer, account), fun _ => rfl, hcloses⟩

theorem exists_ends_settleBracket {t : RootTolerance} (hm : s.method = .brent t)
    (e : Brent.Ending Double Quantity) (strict : Option Bool) :
    ∃ ends, (∀ full, s.settleBracket ⟨full, strict⟩ e = ends.map (.ofEnd full)) ∧
      s.Closes (Brent.telling.converged e) (Brent.telling.lines e) ends := by
  have hlines : ∀ iterations evaluations,
      s.method.family.lines iterations evaluations = iterations := by
    intro iterations evaluations
    rw [hm]
    rfl
  cases e with
  | root x iterations =>
    let account : Account := ⟨true, iterations, Brent.evaluations iterations, s.method.name⟩
    have hcloses : s.Closes account.converged iterations (.ok (.real x, account)) :=
      .answered (hlines ..)
    exact ⟨.ok (.real x, account), fun _ => rfl, hcloses⟩
  | exhausted a b fa fb iterations =>
    refine ⟨.error _, fun _ => rfl, ?_⟩
    exact .unconverged rfl rfl (hlines iterations (Brent.evaluations iterations))

section Runs
variable {Point Reading Site Slope Detail Answer : Type}
  {search : Search Point Reading Site Slope Detail Answer}
  {caller : Caller Point Reading Site Slope Detail} {equations : Option Nat}
  {tells : Telling Answer} {own : Failure → Prop} {point : Point → Value} {place : Site → Value}
  {detail : Detail → String} {settle : Bool → Answer → Except Failure Solution} {run : Bool → Run}

/-- A run for each wish for an account that prints the same and comes to the same end. -/
def Prints (s : Solver) (function : Option Function) (run : Bool → Run) : Prop :=
  ∃ ends : Except Failure (Value × Account), ∀ full,
    (run full).outcome = ends.map (.ofEnd full) ∧ s.Transcribes function (run full) ends

theorem prints_failed {cause : Failure} (h : ∀ r, cause ≠ .notConverged r) :
    s.Prints function fun _ => .failed cause :=
  ⟨.error cause, fun _ => ⟨rfl, .interrupted rfl (.inl h) (.inl rfl)⟩⟩

/-- The runs of a search that keeps to the order of a transcript. -/
theorem prints_of_search
    (hrun : ∀ full, run full = .ofTrace (Progress.line s.method.name detail) point place
      (settle full) (search.run caller))
    (ht : Transcribed equations tells own caller (search.run caller))
    (hraised : ∀ r, (search.run caller).outcome = .error (.notConverged r) →
      Raised caller (search.run caller).evaluations (search.run caller).slopes (.notConverged r))
    (hb : Behind (s.valueFunctions function) s.slopeFunctions point place caller)
    (hsettle : ∀ answer, (search.run caller).outcome = .ok answer → ∃ ends,
      (∀ full, settle full answer = ends.map (.ofEnd full)) ∧
        s.Closes (tells.converged answer) (tells.lines answer) ends) :
    s.Prints function run := by
  generalize search.run caller = trace at hrun ht hraised hsettle
  have hprinted : ∀ full, (run full).printed =
      Progress.text s.method.name (trace.notes.toList.map (Note.map detail)) := by
    intro full
    rw [hrun]
    exact Progress.join_line ..
  cases ho : trace.outcome with
  | ok answer =>
    obtain ⟨ends, hends, hcloses⟩ := hsettle answer ho
    obtain ⟨details, hk, hnotes⟩ := ht.ended answer ho
    have hlength : (details.map detail).length = tells.lines answer := by rw [List.length_map, hk]
    rw [hnotes, List.map_append, Note.map_opening, List.map_singleton, Note.map_closing] at hprinted
    refine ⟨ends, fun full => ⟨?_, .closed hcloses hlength (hprinted full)⟩⟩
    rw [hrun, Run.ofTrace, ho]
    exact hends full
  | error cause =>
    refine ⟨.error cause, fun full => ⟨?_, .interrupted rfl ?_ ?_⟩⟩
    · rw [hrun, Run.ofTrace, ho]
      rfl
    · by_cases h : ∃ r, cause = .notConverged r
      · obtain ⟨r, rfl⟩ := h
        rw [hrun]
        exact .inr (hb.raised (hraised r ho))
      · exact .inl fun r hr => h ⟨r, hr⟩
    · rw [hprinted]
      rcases ht.failed cause ho with hnotes | ⟨⟨details, hnotes⟩, -⟩
      · rw [hnotes]
        exact .inl rfl
      · rw [hnotes, Note.map_opening]
        exact .inr ⟨_, _, rfl⟩

end Runs

section Methods
variable {f g : Function} {start : Start} {family : Family} {equations : Option Nat} {most : Nat}

/-- The runs of a search over vectors that ends at the length of its start. -/
theorem prints_of_vectors {Site Slope Detail : Type} {run : Bool → Run}
    {search : Iteration.Searching Float Site Slope Detail}
    {caller : Caller (List Float) (Grid Float) Site Slope Detail} {place : Site → Value}
    {detail : Detail → String} (hfamily : s.method.family = family)
    (hrun : ∀ full, run full = .ofTrace (Progress.line s.method.name detail)
      (.ofGrid <| .vector ·) place
      (fun e => s.settleSystem ⟨full, strict⟩ start.single (gridEnding e)) (search.run caller))
    (hshows : ∀ note, caller.shows note = .ok true)
    (hc : Chronicles equations family none search)
    (hcounted : Counted most (Tells family s.limit.count) 0 0 search)
    (hb : Behind (s.valueFunctions function) s.slopeFunctions (.ofGrid <| .vector ·) place caller)
    (hends : Ends (AtLength start.point.length) (fun _ _ => True) search)
    (hsingle : start.single = true → start.point.length = 1) : s.Prints function run := by
  subst hfamily
  refine prints_of_search hrun (hc.run hshows) hcounted.run.raised hb fun e he => ?_
  have hlength : e.point.length = start.point.length :=
    hends.of_runFrom (fun _ _ _ _ _ => trivial) he
  obtain ⟨answer, hanswer⟩ : ∃ answer, restore (.vector e.point) start.single = .ok answer :=
    exists_restore fun h => hlength.trans (hsingle h)
  exact exists_ends_settleSystem (e := gridEnding e) hanswer strict

variable (hlevel : Value.isAtMost (.int 2) s.display = .ok true)
  (hsingle : start.single = true → start.point.length = 1)
include hlevel hsingle

theorem prints_newton (hm : s.method = .newton f g) (tol : List Float) :
    s.Prints function fun full => s.runNewton ⟨full, strict⟩ f g start tol := by
  have hf : s.valueFunctions function = [f] := by rw [valueFunctions, hm]
  have hg : s.slopeFunctions = [g] := by rw [slopeFunctions, hm]
  have hfamily : s.method.family = .newton := by rw [hm]; rfl
  exact prints_of_vectors hfamily (fun _ => rfl) (Progress.shows_of_level hlevel)
    (.heading (Newton.chronicles_iterate ..)) (Newton.counted_search ..)
    (hf ▸ hg ▸ s.behind_newtonCaller f g) (Newton.measured_search _ _ rfl).ends hsingle

theorem prints_flow (hm : s.method = .sand f g) (tol : List Float)
    (hkeeps : s.KeepsShape start.point.length (s.runSand ⟨true, strict⟩ f g start tol)) :
    s.Prints function fun full => s.runSand ⟨full, strict⟩ f g start tol := by
  have hf : s.valueFunctions function = [f] := by rw [valueFunctions, hm]
  have hg : s.slopeFunctions = [g] := by rw [slopeFunctions, hm]
  have hfamily : s.method.family = .sand := by rw [hm]; rfl
  have hc : Chronicles (some start.point.length) s.method.family none
      (Sand.search s.limit.count tol start.point) := by
    rw [hfamily]
    exact .heading (Sand.chronicles_iterate ..)
  have hcounted := Sand.counted_search s.limit.count tol start.point
  have hends : Ends (fun e : Ending (Grid Float) => e.point.shape = [start.point.length])
      (Sand.Keeping start.point.length) (Sand.search s.limit.count tol start.point) :=
    .report (Sand.ends_iterate _ _ _ rfl)
  refine prints_of_search (fun _ => rfl) (hc.run (Progress.shows_of_level hlevel))
    hcounted.run.raised (hf ▸ hg ▸ s.behind_flowCaller f g) fun e he => ?_
  have hshape : e.point.shape = [start.point.length] :=
    hends.of_runFrom (fun _ _ _ hx hslope => hkeeps.keeping hm rfl hx hslope) he
  obtain ⟨answer, hanswer⟩ : ∃ answer, restore e.point start.single = .ok answer := by
    rw [Grid.eq_vector hshape]
    exact exists_restore fun h => (Grid.length_of_shape hshape).trans (hsingle h)
  exact exists_ends_settleSystem hanswer strict

omit hsingle hlevel in
/-- The runs on arguments that a method for systems refuses, or from a start and a tolerance. -/
theorem prints_system {run : Bool → Start → List Float → Run}
    (h : ∀ x tol start bounds, arguments = [x, tol] → prepare x tol = .ok (start, bounds) →
      s.Prints function fun full => run full start bounds) :
    s.Prints function fun full => runSystem arguments (run full) := by
  unfold runSystem
  split
  · rename_i x tol
    cases hp : prepare x tol with
    | ok prepared => exact h x tol prepared.1 prepared.2 rfl hp
    | error cause => exact prints_failed (hp ▸ unreported_prepare x tol).cause_ne
  · exact prints_failed nofun

omit hsingle in
/-- The runs of a fixed point method that ends at the length of its start. -/
theorem prints_fixedPoint {search : List (Tolerance Float) → List Float →
      Iteration.Searching Float Empty Empty (List Float)}
    (hf : s.valueFunctions function = [f]) (hfamily : s.method.family = family)
    (hc : ∀ tol x, Chronicles (some x.length) family none (search tol x))
    (hcounted : ∀ tol x, Counted most (Tells family s.limit.count) 0 0 (search tol x))
    (hends : ∀ tol x, Ends (AtLength x.length) (fun _ _ => True) (search tol x)) :
    s.Prints function fun full => s.runFixedPoint ⟨full, strict⟩ f arguments search := by
  unfold runFixedPoint
  split
  · rename_i x absolute relative
    cases hp : prepareRelative x absolute relative with
    | ok prepared =>
      exact prints_of_vectors hfamily (fun _ => rfl) (Progress.shows_of_level hlevel) (hc ..)
        (hcounted ..) (hf ▸ s.behind_valueCaller f _) (hends ..)
        (Start.length_of_single (prepareRelative_restart hp).1)
    | error cause => exact prints_failed (hp ▸ unreported_prepareRelative ..).cause_ne
  · exact prints_failed nofun

end Methods

section Brackets
variable {t : RootTolerance}

theorem prints_bracket (hlevel : Value.isAtMost (.int 2) s.display = .ok true)
    (hm : s.method = .brent t) :
    s.Prints function fun full => s.run arguments function ⟨full, strict⟩ := by
  rcases run_bracket_cases arguments function strict with ⟨cause, hcause, hfail⟩ |
    ⟨v, w, f, -, rfl, hrun⟩
  · simp only [hfail s t _ hm]
    exact prints_failed hcause
  simp only [hrun s t _ hm]
  rcases runBracket_cases v w with ⟨cause, hcause, hfail⟩ | ⟨lower, upper, hv, hw⟩
  · simp only [hfail]
    refine prints_failed ?_
    rcases hcause with h | h
    · exact (h ▸ Value.unreported_toDouble v).cause_ne
    · exact (h ▸ Value.unreported_toDouble w).cause_ne
  · have hf : s.valueFunctions (some f) = [f] := by
      rw [valueFunctions, hm]
      rfl
    have hc := Brent.chronicled_search s.limit.count (.ofFloat t.value) lower upper
    have hcounted := Brent.counted_search s.limit.count (.ofFloat t.value) lower upper
    exact prints_of_search (fun _ => Brent.runBracket_of_bounds hv hw)
      (hc.run (Progress.shows_of_level hlevel)) hcounted.run.raised
      (hf ▸ s.behind_bracketCaller f _) fun e _ => exists_ends_settleBracket hm e strict

theorem error_of_toReading {f : Function} {call : Call} {cause : Failure}
    (h : (do return (← f call).toReading) = Except.error cause) : f call = .error cause := by
  cases hf : f call with
  | ok answer =>
    rw [hf] at h
    cases h
  | error cause' =>
    rw [hf] at h
    exact congrArg Except.error (Except.error.inj h)

theorem printed_of_sameSign (hlevel : Value.isAtMost (.int 2) s.display = .ok true)
    (hm : s.method = .brent t) {options : RunOptions}
    (ho : (s.run arguments function options).outcome = .error .sameSign)
    (hraised : ¬ (s.run arguments function options).Raised (s.valueFunctions function)
      s.slopeFunctions .sameSign) : (s.run arguments function options).printed = "" := by
  rcases run_bracket_of_bounds hm arguments function options with ⟨cause, -, hfail⟩ |
    ⟨f, v, w, lower, upper, rfl, hv, hw, hrun⟩
  · rw [hfail]
    rfl
  rw [hrun, Brent.runBracket_of_bounds hv hw] at ho hraised ⊢
  have ht : Transcribed none Brent.telling Quantity.Unreadable (Brent.bracketCaller s f) _ :=
    (Brent.chronicled_search s.limit.count (.ofFloat t.value) lower upper).run
      (Progress.shows_of_level hlevel)
  generalize Search.run (Brent.bracketCaller s f) _ = trace at ho hraised ht ⊢
  have houtcome : trace.outcome = .error .sameSign := by
    cases h : trace.outcome with
    | ok e =>
      rw [Run.ofTrace, h] at ho
      exact absurd ho (Brent.settleBracket_ne_sameSign e)
    | error cause =>
      rw [Run.ofTrace, h] at ho
      exact congrArg Except.error (Except.error.inj ho)
  rcases ht.failed _ houtcome with hnotes | ⟨-, hown | hfailed⟩
  · simp [Run.ofTrace, hnotes]
  · simp [Quantity.Unreadable] at hown
  · refine absurd ?_ hraised
    cases hfailed with
    | @value i x hx h =>
      have hcall : f { argument := .number x, number := i } = .error .sameSign :=
        error_of_toReading h
      refine .value ?_ ?_ rfl hcall
      · simp [valueFunctions, hm]
      · simpa [Run.ofTrace, Call.seen] using hx
    | @slope i x => exact x.elim
    | note h => cases h.symm.trans (Progress.shows_of_level hlevel _)

end Brackets

/-- The transcript of a run is complete. At a display level of two or more, a run that ends with an
answer or with the report that it did not converge has printed one heading, its iterations with
their numbers from one on, and one closing line, by which it converged exactly if its account says
so. Their number is that of its iterations for brackets and Broyden's method, that of its calls for
Newton's method and the flow, one less for Wegstein's method and half of it, rounded up, for
Steffensen's. A run that fails otherwise has no closing line, and one whose bracket is refused has
printed nothing. -/
theorem transcript_complete (hlevel : Value.isAtMost (.int 2) s.display = .ok true)
    {options : RunOptions} {run : Run} (hrun : s.run arguments function options = run)
    (hkeeps : s.KeepsStart arguments run) :
    (∃ ends : Except Failure (Value × Account),
      (∀ full, (s.run arguments function { options with full }).outcome =
        ends.map (.ofEnd full)) ∧ s.Transcribes function run ends) ∧
    ∀ t, s.method = .brent t → run.outcome = .error .sameSign →
      ¬ run.Raised (s.valueFunctions function) s.slopeFunctions .sameSign → run.printed = "" := by
  subst hrun
  refine ⟨?_, fun t hm ho hraised => printed_of_sameSign hlevel hm ho hraised⟩
  have hprints : s.Prints function fun full => s.run arguments function { options with full } := by
    cases hm : s.method with
    | brent t => exact prints_bracket hlevel hm
    | newton f g =>
      simp only [Solver.run, hm]
      exact prints_system fun x tol start bounds _ hprepare =>
        prints_newton hlevel (Start.length_of_single (prepare_restart hprepare).1) hm bounds
    | sand f g =>
      simp only [Solver.run, hm]
      refine prints_system fun x tol start bounds harguments hprepare => ?_
      have hstart := (prepare_restart hprepare).1
      refine prints_flow hlevel (Start.length_of_single hstart) hm bounds ?_
      have hshape := hkeeps x [tol] start harguments hstart
      rw [Solver.run, hm, harguments] at hshape
      simp only [runSystem, hprepare] at hshape
      exact hshape
    | broyden f =>
      simp only [Solver.run, hm]
      exact prints_fixedPoint hlevel (by rw [valueFunctions, hm]) (by rw [hm]; rfl)
        (Broyden.chronicles_search _) (Broyden.counted_search s.limit.positive)
        fun _ _ => (Broyden.measured_search _ _ rfl).ends
    | steffensen f =>
      simp only [Solver.run, hm]
      exact prints_fixedPoint hlevel (by rw [valueFunctions, hm]) (by rw [hm]; rfl)
        (fun _ _ => .heading (Steffensen.chronicles_iterate ..)) (Steffensen.counted_search _)
        fun _ _ => (Steffensen.measured_search _ _ rfl).ends
    | wegstein f =>
      simp only [Solver.run, hm]
      exact prints_fixedPoint hlevel (by rw [valueFunctions, hm]) (by rw [hm]; rfl)
        (Wegstein.chronicles_search _) (Wegstein.counted_search _)
        fun _ _ => (Wegstein.measured_search _ _ rfl).ends
  obtain ⟨ends, hends⟩ := hprints
  exact ⟨ends, fun full => (hends full).1, (hends options.full).2⟩

end Solver

/-- One iteration of Steffensen's method with its two calls is reported once, and the limit then. -/
theorem transcript_complete_halfAndOne :
    Value.isAtMost (.int 2) (.int 2) = .ok true ∧
      ∃ (equations : Option Nat) (details : List String), details.length = 1 ∧
        (halfAndOneStep 2 true none).printed = Progress.text "Steffensen's Method"
          (Note.opening equations details ++ [.closing false]) := by
  have haccount : (halfAndOneStep 2 true none).outcome.toOption.bind Solution.account =
      some ⟨false, 1, 2, "Steffensen's Method"⟩ := by
    decide +kernel
  obtain ⟨⟨ends, houtcome, hprints⟩, -⟩ := Solver.transcript_complete
    (s := ⟨.steffensen halfAndOne, ⟨1, by decide⟩, .int 2⟩) rfl
    (rfl : _ = halfAndOneStep 2 true none) fun _ _ _ _ _ => nofun
  have hends : (halfAndOneStep 2 true none).outcome = ends.map (.ofEnd true) := houtcome true
  rw [hends] at haccount
  refine ⟨rfl, ?_⟩
  cases hprints with
  | closed hcloses hk hprinted =>
    cases hcloses with
    | answered hlines =>
      cases haccount
      exact ⟨_, _, hk.trans hlines.symm, hprinted⟩
    | unconverged => cases haccount
  | interrupted hcause =>
    subst hcause
    cases haccount

end RootFinding
