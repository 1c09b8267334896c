import RootFinding.Proofs.Linear.Storage
import RootFinding.Proofs.Iteration.Arguments
import RootFinding.Proofs.Iteration.Lengths
import RootFinding.Proofs.Iteration.Misfits

/-!
# The dimension of a slope

Newton's method takes a matrix of another dimension only if it is a single number that divides the
residual, and the flow only a diagonal that stretches against it. A diagonal that is wider than the
points makes the next points wider too.
-/
namespace RootFinding
open Number Search Iteration

section Methods
variable {α : Type} {n : Nat}

namespace Newton

def Misfit (n : Nat) (slope : Grid α) : Prop := (slope.withRank 2).shape ≠ [n, n]

def Divides [Scalar α] (slope : Grid α) (fx : List α) : Prop :=
  (slope.withRank 2).shape = [1, 1] ∧ ∃ a, slope.entries = [a] ∧ Scalar.isFinite a = true ∧
    (a == 0) = false ∧ fx.all Scalar.isFinite = true

/-- Points and residuals have `n` components whatever the slopes are. -/
def fitting (α : Type) [Scalar α] (n : Nat) :
    Fitting (List α) (List α × List α) (Grid α) where
  points x := x.length = n
  sites place := place.1.length = n ∧ place.2.length = n
  misfit := Misfit n
  taken place slope := Divides slope place.2
  widens _ := False

theorem exists_lone_entry {slope : Grid α} (hshape : (slope.withRank 2).shape = [1, 1]) :
    ∃ a, slope.entries = [a] ∧ Jacobian.rows 1 (slope.withRank 2) = [[a]] := by
  have hlength := (slope.withRank 2).length_entries
  rw [hshape] at hlength
  obtain ⟨a, ha⟩ := List.length_eq_one_iff.1 hlength
  refine ⟨a, ha, ?_⟩
  rw [Jacobian.rows, ha]
  rfl

variable [Scalar α]

theorem solve_one_iff {a : α} {fx : List α} : (∃ δ, Linear.solve 1 [[a]] fx = .ok δ) ↔
    Scalar.isFinite a = true ∧ (a == 0) = false ∧ fx.all Scalar.isFinite = true := by
  unfold Linear.solve
  cases ha : Scalar.isFinite a <;> cases fx.all Scalar.isFinite <;> cases hz : a == 0 <;>
    simp [ha, hz]

/-- Another number of rows than one has to be the length of the right-hand side. -/
theorem solve_of_length_ne {m : Nat} {matrix : List (List α)} {fx : List α}
    (hm : matrix.length = m) (hone : m ≠ 1) (hfx : fx.length ≠ m) :
    ∃ cause, Linear.solve m matrix fx = .error cause := by
  unfold Linear.solve
  split
  · exact ⟨_, rfl⟩
  · split
    · exact absurd hm.symm hone
    · exact ⟨_, rfl⟩

theorem correction_of_misfit {slope : Grid α} {fx : List α} (hmisfit : Misfit n slope)
    (hfx : fx.length = n) : (∃ δ, correction slope fx = .ok δ) ↔ Divides slope fx := by
  unfold correction
  dsimp only
  split
  · rename_i m hm
    have hshape := Jacobian.shape_of_squareSize? hm
    have hne : m ≠ n := fun h => hmisfit (h ▸ hshape)
    by_cases hone : m = 1
    · subst hone
      obtain ⟨a, ha, hrows⟩ := exists_lone_entry hshape
      rw [hrows, solve_one_iff]
      constructor
      · exact fun h => ⟨hshape, a, ha, h⟩
      · rintro ⟨-, b, hb, h⟩
        cases ha.symm.trans hb
        exact h
    · have hlength : fx.length ≠ m := by omega
      obtain ⟨cause, hcause⟩ := solve_of_length_ne
        (Grid.length_pieces m m (slope.withRank 2).entries) hone hlength
      constructor
      · rintro ⟨δ, hδ⟩
        cases hcause.symm.trans hδ
      · rintro ⟨hlone, -⟩
        cases hshape.symm.trans hlone
        exact absurd rfl hone
  · rename_i hm
    constructor
    · rintro ⟨δ, hδ⟩
      cases hδ
    · rintro ⟨hlone, -⟩
      rw [hlone] at hm
      cases hm

theorem proceeds_iterate (tol : List α) (left done : Nat) (x : List α) :
    Proceeds (iterate tol left done x) := by
  cases left with
  | zero => exact .report .done
  | succ left => exact .evaluate

theorem judges_iterate (tol : List α) (left done : Nat) {x : List α} (hx : x.length = n) :
    Judges (fitting α n) (iterate tol left done x) := by
  induction left generalizing done x with
  | zero => exact .report .done
  | succ left ih =>
    refine .evaluate hx fun y => ?_
    split
    · rename_i hshape
      have hy : y.entries.length = n := (Grid.length_of_shape hshape).trans hx
      refine .report ?_
      split
      · exact .report .done
      · refine .slope ⟨hx, hy⟩ (fun slope hmisfit htaken => ?_) (fun slope hmisfit htaken => ?_)
          fun slope _ => attempt_of (fun _ => .fail) fun δ hδ => ?_
        · cases hδ : correction slope y.entries with
          | ok δ => exact absurd ((correction_of_misfit hmisfit hy).1 ⟨δ, hδ⟩) htaken
          | error cause => exact ⟨cause, rfl⟩
        · obtain ⟨δ, hδ⟩ := (correction_of_misfit hmisfit hy).2 htaken
          rw [hδ]
          exact proceeds_iterate ..
        · apply ih
          simp [length_of_correction hδ, hy, hx]
    · exact .fail

end Newton

/-- A Jacobian that does not fit points of `n` components: a dense one of another dimension, or a
single diagonal that is no vector of that length. -/
def Jacobian.Misfit (n : Nat) : Jacobian α → Prop
  | .full m _ _ => m ≠ n
  | .banded lower upper diagonals _ =>
    lower = 0 ∧ upper = 0 ∧ ∃ d, diagonals = [d] ∧ d.shape ≠ [n]
  | _ => False

namespace Sand

/-- A lone diagonal that has a common shape with vectors of `n` components. -/
def Stretches (n : Nat) (u : List Nat) (slope : Slope α) : Prop :=
  ∃ d, slope = .ok (.diagonal d) ∧ Grid.commonShape? [n] d.shape = some u

/-- Points have `n` components until a diagonal stretches them to another shape. -/
def fitting (α : Type) (n : Nat) : Fitting (Grid α) (Grid α) (Slope α) where
  points x := x.shape = [n]
  sites x := x.shape = [n]
  misfit slope := ∃ jacobian, slope = .ok jacobian ∧ jacobian.Misfit n
  taken _ slope := ∃ u, Stretches n u slope
  widens slope := ∃ u, Stretches n u slope ∧ u ≠ [n]

theorem exists_combine {β : Type} (f : α → α → β) {a b : Grid α} {u : List Nat}
    (h : Grid.commonShape? a.shape b.shape = some u) :
    ∃ c, combine f a b = .ok c ∧ c.shape = u := by
  rw [← Grid.map_shape_zipWith? f, Option.map_eq_some_iff] at h
  obtain ⟨c, hc, hu⟩ := h
  exact ⟨c, by rw [combine, hc], hu⟩

/-- A shape that is common to a vector's and another is common to the vector's and itself. -/
theorem commonShape?_common {s t u : List Nat} (h : Grid.commonShape? s t = some u) :
    Grid.commonShape? s u = some u :=
  Grid.commonShape?_of_fits (Grid.fits_of_commonShape? h).1

theorem banded_eq_diagonal {diagonals : List (Grid α)} {d : Grid α}
    (counted : diagonals.length = 0 + 0 + 1) (hd : diagonals = [d]) :
    Jacobian.banded 0 0 diagonals counted = .diagonal d := by
  subst hd
  rfl

variable [Scalar α]

theorem shape_of_solve_diagonal {d b k : Grid α} (h : (Jacobian.diagonal d).solve b = .ok k) :
    Grid.commonShape? b.shape d.shape = some k.shape := by
  rw [← Jacobian.map_shape_solve_diagonal, h]
  rfl

/-- A correction keeps the shape of a vector unless a diagonal stretches it to another. -/
theorem keeps_of_not_widens {slope : Slope α} (h : ¬ (fitting α n).widens slope) :
    Keeps n slope := by
  rintro jacobian b k rfl hb hk
  cases jacobian with
  | full m matrix square =>
    rw [Jacobian.solve] at hk
    split at hk
    · rename_i hm
      obtain ⟨x, hx, hk⟩ := exists_of_bind_eq_ok hk
      cases hk
      have hlength := Linear.length_of_solve hx (Grid.length_pieces ..)
      rw [Grid.shape_vector, hlength, Grid.length_of_shape hb]
    · cases hk
  | banded lower upper diagonals counted =>
    by_cases hbands : lower = 0 ∧ upper = 0
    · obtain ⟨rfl, rfl⟩ := hbands
      obtain ⟨d, hd⟩ := List.length_eq_one_iff.1 counted
      rw [banded_eq_diagonal counted hd] at h hk
      have hcommon := shape_of_solve_diagonal hk
      rw [hb] at hcommon
      by_contra hne
      exact h ⟨k.shape, ⟨d, rfl, hcommon⟩, hne⟩
    · rw [Jacobian.solve, if_neg hbands] at hk
      split at hk <;> cases hk
  | identity =>
    cases hk
    exact hb
  | abstract => cases hk

theorem solve_of_misfit {jacobian : Jacobian α} {b : Grid α} (hmisfit : jacobian.Misfit n)
    (hb : b.shape = [n]) (htaken : ¬ ∃ u, Stretches n u (.ok jacobian)) :
    ∃ cause, jacobian.solve b = .error cause := by
  cases jacobian with
  | full m matrix square =>
    have hne : b.shape ≠ [m] := fun h => hmisfit (List.cons.inj (h.symm.trans hb)).1
    rw [Jacobian.solve, if_neg hne]
    exact ⟨_, rfl⟩
  | banded lower upper diagonals counted =>
    obtain ⟨rfl, rfl, d, hd, -⟩ := hmisfit
    rw [banded_eq_diagonal counted hd] at htaken ⊢
    cases hk : (Jacobian.diagonal d).solve b with
    | error cause => exact ⟨cause, rfl⟩
    | ok k => exact absurd ⟨k.shape, d, rfl, hb ▸ shape_of_solve_diagonal hk⟩ htaken
  | identity | abstract => exact hmisfit.elim

theorem solve_of_stretches {b : Grid α} {u : List Nat} {slope : Slope α}
    (h : Stretches n u slope) (hb : b.shape = [n]) :
    ∃ jacobian k, slope = .ok jacobian ∧ jacobian.solve b = .ok k ∧ k.shape = u := by
  obtain ⟨d, rfl, hu⟩ := h
  rw [← hb, ← Jacobian.map_shape_solve_diagonal, Option.map_eq_some_iff] at hu
  obtain ⟨k, hk, hu⟩ := hu
  refine ⟨.diagonal d, k, rfl, ?_, hu⟩
  cases hsolve : (Jacobian.diagonal d).solve b with
  | ok x =>
    rw [hsolve] at hk
    exact congrArg Except.ok (Option.some.inj hk)
  | error cause =>
    rw [hsolve] at hk
    cases hk

/-- A correction is judged where the search goes on from a correction of the shape of the residual
as it should, and from a wider one somehow. -/
theorem judges_correction {x fx : Grid α} {next : Grid α → Searching α} (hx : x.shape = [n])
    (hfx : fx.shape = [n]) (hnext : ∀ k : Grid α, k.shape = [n] → Judges (fitting α n) (next k))
    (hgoes : ∀ k : Grid α, Grid.commonShape? [n] k.shape = some k.shape → Proceeds (next k)) :
    Judges (fitting α n) (correction x fx next) := by
  refine .slope hx ?_ ?_ ?_
  · rintro _ ⟨jacobian, rfl, hmisfit⟩ htaken
    obtain ⟨cause, hcause⟩ := solve_of_misfit hmisfit hfx htaken
    exact ⟨cause, by simp only [hcause, attempt_error]⟩
  · rintro slope - ⟨u, hu⟩
    obtain ⟨jacobian, k, rfl, hk, rfl⟩ := solve_of_stretches hu hfx
    obtain ⟨d, -, hcommon⟩ := hu
    simp only [hk, attempt_ok]
    exact hgoes k (commonShape?_common hcommon)
  · intro slope hwidens
    cases slope with
    | ok jacobian =>
      exact attempt_of (fun _ => .fail) fun k hk =>
        hnext k (keeps_of_not_widens hwidens jacobian fx k rfl hfx hk)
    | error kind => exact .fail

/-- Four corrections combine where the last one has the shape that it has in common with points. -/
theorem exists_step {x k₁ k₂ k₃ k₄ : Grid α} (hx : x.shape = [n]) (h₁ : k₁.shape = [n])
    (h₂ : k₂.shape = [n]) (h₃ : k₃.shape = [n])
    (h₄ : Grid.commonShape? [n] k₄.shape = some k₄.shape) :
    ∃ y, step x k₁ k₂ k₃ k₄ = .ok y := by
  obtain ⟨inner, hinner, hi⟩ := exists_combine (· + ·) (a := k₂) (b := k₃) (u := [n])
    (by rw [h₂, h₃]; exact Grid.commonShape?_self [n])
  obtain ⟨sum, hsum, hs⟩ := exists_combine (· + ·) (a := k₁) (b := inner.map (2 * ·))
    (u := [n]) (by rw [h₁, Grid.shape_map, hi]; exact Grid.commonShape?_self [n])
  obtain ⟨total, htotal, ht⟩ := exists_combine (· + ·) (a := sum) (b := k₄)
    (by rw [hs]; exact h₄)
  obtain ⟨y, hy, -⟩ := exists_combine (· - ·) (a := x) (b := total.map (· / 6))
    (by rw [hx, Grid.shape_map, ht]; exact h₄)
  refine ⟨y, ?_⟩
  simp only [step, hinner, hsum, htotal, bind, Except.bind]
  exact hy

theorem judges_flow {x fx : Grid α} {next : Grid α → Searching α} (hx : x.shape = [n])
    (hfx : fx.shape = [n]) (hnext : ∀ y : Grid α, y.shape = [n] → Judges (fitting α n) (next y))
    (hgoes : ∀ y, Proceeds (next y)) : Judges (fitting α n) (flow x fx next) := by
  have hstage : ∀ (c : α) (k : Grid α) (next : Grid α → Searching α),
      Grid.commonShape? [n] k.shape = some k.shape → (∀ y, Proceeds (next y)) →
      Proceeds (attempt (stage c x k) next) := by
    intro c k next hk h
    obtain ⟨y, hy, -⟩ := exists_combine (· - ·) (a := x) (b := k.map (c * ·)) (by rw [hx]; exact hk)
    rw [stage, hy]
    exact h y
  refine judges_correction hx hfx (fun k₁ h₁ => ?_) fun k₁ h₁ => hstage _ _ _ h₁ fun _ => .slope
  refine attempt_of (fun _ => .fail) fun x₂ hx₂ => ?_
  have hx₂ := (shape_of_stage hx₂ (h₁.trans hx.symm)).trans hx
  refine judges_correction hx₂ hfx (fun k₂ h₂ => ?_) fun k₂ h₂ => hstage _ _ _ h₂ fun _ => .slope
  refine attempt_of (fun _ => .fail) fun x₃ hx₃ => ?_
  have hx₃ := (shape_of_stage hx₃ (h₂.trans hx.symm)).trans hx
  refine judges_correction hx₃ hfx (fun k₃ h₃ => ?_) fun k₃ h₃ => ?_
  · refine attempt_of (fun _ => .fail) fun x₄ hx₄ => ?_
    have hx₄ := (shape_of_combine hx₄ (hx.trans h₃.symm)).trans hx
    refine judges_correction hx₄ hfx (fun k₄ h₄ => ?_) fun k₄ h₄ => ?_
    · refine attempt_of (fun _ => .fail) fun y hy => hnext y ?_
      exact (shape_of_step hy (h₁.trans hx.symm) (h₂.trans hx.symm) (h₃.trans hx.symm)
        (h₄.trans hx.symm)).trans hx
    · obtain ⟨y, hy⟩ := exists_step hx h₁ h₂ h₃ h₄
      rw [hy]
      exact hgoes y
  · obtain ⟨y, hy, -⟩ := exists_combine (· - ·) (a := x) (b := k₃) (by rw [hx]; exact h₃)
    rw [hy]
    exact .slope

theorem proceeds_iterate (tol : Grid α) (left done : Nat) (x : Grid α) :
    Proceeds (iterate tol left done x) := by
  cases left with
  | zero => exact .report .done
  | succ left => exact .evaluate

theorem judges_iterate (tol : Grid α) (left done : Nat) {x : Grid α} (hx : x.shape = [n]) :
    Judges (fitting α n) (iterate tol left done x) := by
  induction left generalizing done x with
  | zero => exact .report .done
  | succ left ih =>
    refine .evaluate hx fun fx => ?_
    split
    · rename_i hfx
      refine .report (attempt_of (fun _ => .fail) fun passed _ => ?_)
      split
      · exact .report .done
      · exact judges_flow hx (hfx.trans hx) (fun y hy => ih (done + 1) hy)
          fun y => proceeds_iterate ..
    · exact .fail

end Sand
end Methods

/-- A run whose calls are the questions of a search, and which fails where the search does. -/
structure Run.Follows {Point Reading Site Slope Detail Answer : Type} (run : Run)
    (point : Point → Value) (place : Site → Value)
    (caller : Caller Point Reading Site Slope Detail)
    (search : Search Point Reading Site Slope Detail Answer) : Prop where
  evaluations : run.evaluations.toList =
    ((asked caller 0 0 search).filterMap Question.value?).map point
  slopes : run.slopes.toList = ((asked caller 0 0 search).filterMap Question.slope?).map place
  fails : ∀ cause, (search.run caller).outcome = .error cause → run.outcome = .error cause

theorem Run.follows_ofTrace {Point Reading Site Slope Detail Answer : Type}
    (line : Note Detail → String) (point : Point → Value) (place : Site → Value)
    (settle : Answer → Except Failure Solution)
    (caller : Caller Point Reading Site Slope Detail)
    (search : Search Point Reading Site Slope Detail Answer) :
    (Run.ofTrace line point place settle (search.run caller)).Follows point place caller
      search where
  evaluations := by simp [Run.ofTrace, Search.run, (toList_asked search).1]
  slopes := by simp [Run.ofTrace, Search.run, (toList_asked search).2]
  fails cause h := by
    change (search.run caller).outcome.bind settle = _
    rw [h]
    rfl

namespace Solver
variable {s : Solver}

/-- A solver shows all notes or asks nothing after a heading that it cannot show. -/
theorem heeds_of_judges {Point Reading Site Slope Detail Answer : Type}
    {c : Fitting Point Site Slope} {caller : Caller Point Reading Site Slope Detail}
    {search : Search Point Reading Site Slope Detail Answer} {equations : Option Nat}
    (hshows : caller.shows = Progress.shows s.display) (h : Judges c search) :
    Heeds c caller (.report (.heading equations) search) := by
  rcases s.displays_or with hs | ⟨cause, hmute⟩
  · obtain ⟨shown, hshown⟩ := hs.shows
    exact Judges.heeds (.report h) fun note => ⟨shown note, by rw [hshows, hshown]⟩
  · have hasked : asked caller 0 0 (.report (.heading equations) search) = [] := by
      rw [asked, hshows, Progress.shows, hmute]
    constructor
    · intro before q after hq
      simp [hasked] at hq
    · intro before x after y hx
      simp [hasked] at hx

/-- A slope of another dimension is the last thing that Newton's method and the flow ask for, and
the run fails, exactly unless it is taken: by Newton's method as a single number that divides, along
the flow as a lone diagonal that stretches. All calls are at points of the shape of the start, along
the flow until such a diagonal has another shape in common with them. -/
theorem misfit_stops_iff {x tol : Value} {start : Start} {bounds : List Float}
    (hprepare : prepare x tol = .ok (start, bounds)) (function : Option Function)
    (options : RunOptions) {run : Run} (hrun : s.run [x, tol] function options = run) :
    (∀ f g, s.method = .newton f g →
      run.Follows (.ofGrid <| .vector ·) (.ofGrid <| .vector ·.1) (s.newtonCaller f g)
          (Newton.search s.limit.count bounds start.point) ∧
        Heeds (Newton.fitting Float start.point.length) (s.newtonCaller f g)
          (Newton.search s.limit.count bounds start.point)) ∧
    ∀ f g, s.method = .sand f g →
      run.Follows .ofGrid .ofGrid (s.flowCaller f g)
          (Sand.search s.limit.count bounds start.point) ∧
        Heeds (Sand.fitting Float start.point.length) (s.flowCaller f g)
          (Sand.search s.limit.count bounds start.point) := by
  subst hrun
  constructor
  · intro f g hm
    rw [Solver.run, hm]
    dsimp only
    rw [runSystem, hprepare]
    exact ⟨Run.follows_ofTrace .., heeds_of_judges rfl (Newton.judges_iterate _ _ _ rfl)⟩
  · intro f g hm
    rw [Solver.run, hm]
    dsimp only
    rw [runSystem, hprepare]
    exact ⟨Run.follows_ofTrace .., heeds_of_judges rfl (Sand.judges_iterate _ _ _ rfl)⟩

end Solver

def sameNumbers : Function := fun call => .ok (.value call.argument.toValue)

/-- Newton's method for the numbers themselves, with one value for all slopes. -/
def constantSlopeSolver (limit : Limit) (slope : Grid Float) : Solver :=
  ⟨.newton sameNumbers fun _ => .ok (.value (.array slope)), limit, .int 0⟩

def constantFlowSolver (limit : Limit) (jacobian : Jacobian Float) : Solver :=
  ⟨.sand sameNumbers fun _ => .ok (.jacobian jacobian), limit, .int 0⟩

/-- Three slopes for each of two numbers, and for a third, are asked for once. -/
theorem misfit_stops_iff_wide :
    ∃ (s : Solver) (f g : Function) (start : Start) (bounds : List Float) (run : Run),
      s = constantSlopeSolver ⟨2, by decide⟩ ⟨[3, 3], [1, 0, 0, 0, 1, 0, 0, 0, 1], rfl⟩ ∧
      s.method = .newton f g ∧
      Solver.prepare (.list [.ofFloat 1, .ofFloat 3]) (.ofFloat 0.5) = .ok (start, bounds) ∧
      s.run [.list [.ofFloat 1, .ofFloat 3], .ofFloat 0.5] none {} = run ∧
      start.point.length = 2 ∧
      Heeds (Newton.fitting Float start.point.length) (s.newtonCaller f g)
        (Newton.search s.limit.count bounds start.point) ∧
      run.evaluations.size = 1 ∧ run.slopes.size = 1 ∧ run.outcome = .error .lengthMismatch := by
  have hprepare : Solver.prepare (.list [.ofFloat 1, .ofFloat 3]) (.ofFloat 0.5) =
      .ok (⟨[1, 3], false⟩, [0.5, 0.5]) := rfl
  obtain ⟨hnewton, -⟩ := Solver.misfit_stops_iff
    (s := constantSlopeSolver ⟨2, by decide⟩ ⟨[3, 3], [1, 0, 0, 0, 1, 0, 0, 0, 1], rfl⟩) hprepare
    none {} rfl
  exact ⟨_, _, _, _, _, _, rfl, rfl, hprepare, rfl, rfl, (hnewton _ _ rfl).2, by decide +kernel,
    by decide +kernel, by rfl⟩

/-- A single slope for two numbers is taken, so that the function is called again, and so are two
slopes for one number, after which everything is asked about two. -/
theorem misfit_taken :
    (∃ run, (constantSlopeSolver ⟨2, by decide⟩ ⟨[1, 1], [4], rfl⟩).run
        [.list [.ofFloat 1, .ofFloat 3], .ofFloat 0.5] none {} = run ∧
      Newton.Misfit 2 (⟨[1, 1], [4], rfl⟩ : Grid Float) ∧
      run.evaluations.size = 2 ∧ run.slopes.size = 2 ∧ run.outcome.toBool = true) ∧
    ∃ run, (constantFlowSolver ⟨2, by decide⟩ (.diagonal (.vector [2, 4]))).run
        [.list [.ofFloat 1], .ofFloat 0.1] none {} = run ∧
      (Jacobian.diagonal (.vector [(2 : Float), 4])).Misfit 1 ∧
      run.slopes.toList.map Value.shape? =
        [some [1], some [2], some [2], some [2], some [2], some [2], some [2], some [2]] ∧
      run.evaluations.toList.map Value.shape? = [some [1], some [2]] := by
  refine ⟨⟨_, rfl, (by rintro ⟨⟩), by decide +kernel, by decide +kernel, by decide +kernel⟩, _, rfl,
    ⟨rfl, rfl, _, rfl, by decide⟩, by decide +kernel, by decide +kernel⟩

end RootFinding
