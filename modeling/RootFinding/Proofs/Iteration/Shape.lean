import RootFinding.FixedPoint.Steffensen
import RootFinding.FixedPoint.Wegstein
import RootFinding.Proofs.Runs
import RootFinding.System.Newton
import RootFinding.System.Sand

/-!
# The shape of the points

The methods for systems call their function at points of the length of the start and end at such a
point: a measured value has the length of its point, and so has every correction and every
accelerated step. The flow of Newton's correction keeps the length where the caller's Jacobians do.
-/
namespace RootFinding

namespace Search
variable {Point Reading Site Slope Detail Answer : Type}

/-- A search that calls its function only at points with a property, as long as the slopes that it
is given are allowed. -/
inductive Asks (P : Point → Prop) (allowed : Site → Slope → Prop) :
    Search Point Reading Site Slope Detail Answer → Prop
  | evaluate {x next} (hx : P x) (h : ∀ y, Asks P allowed (next y)) :
    Asks P allowed (.evaluate x next)
  | slope {x next} (h : ∀ y, allowed x y → Asks P allowed (next y)) :
    Asks P allowed (.slope x next)
  | report {note next} (h : Asks P allowed next) : Asks P allowed (.report note next)
  | fail {cause} : Asks P allowed (.fail cause)
  | done {answer} : Asks P allowed (.done answer)

variable {P : Point → Prop} {allowed : Site → Slope → Prop}
  {caller : Caller Point Reading Site Slope Detail} {evals : Array Point} {slopes : Array Site}
  {notes : Array (Note Detail)} {search : Search Point Reading Site Slope Detail Answer}

theorem Asks.forall_evaluations (h : Asks P allowed search)
    (hslope : ∀ k x y, (runFrom caller evals slopes notes search).slopes[k]? = some x →
      caller.slope k x = .ok y → allowed x y)
    (hevals : ∀ x ∈ evals, P x) :
    ∀ x ∈ (runFrom caller evals slopes notes search).evaluations, P x := by
  induction h generalizing evals slopes notes with
  | @evaluate x next hx _ ih =>
    have hpush : ∀ z ∈ evals.push x, P z := by
      intro z hz
      rcases Array.mem_push.1 hz with hz | rfl
      · exact hevals z hz
      · exact hx
    rw [runFrom] at hslope ⊢
    cases hv : caller.value evals.size x with
    | ok y =>
      rw [hv] at hslope
      exact ih y hslope hpush
    | error cause => exact hpush
  | @slope x next _ ih =>
    have hx : (runFrom caller evals slopes notes (.slope x next)).slopes[slopes.size]? = some x :=
      getElem?_slope x next
    cases hs : caller.slope slopes.size x with
    | ok y =>
      have hy := hslope slopes.size x y hx hs
      rw [runFrom, hs] at hslope ⊢
      exact ih y hy hslope hevals
    | error cause =>
      rw [runFrom, hs]
      exact hevals
  | @report note next _ ih =>
    rw [runFrom] at hslope ⊢
    cases hs : caller.shows note with
    | ok shown =>
      rw [hs] at hslope
      cases shown <;> exact ih hslope hevals
    | error cause => exact hevals
  | fail => exact hevals
  | done => exact hevals

/-- What is true of failing is true of an attempt where it is true after each computed value. -/
theorem attempt_of {C : Search Point Reading Site Slope Detail Answer → Prop}
    (hfail : ∀ cause, C (.fail cause)) {Result : Type} {result : Except Failure Result}
    {next : Result → Search Point Reading Site Slope Detail Answer}
    (h : ∀ r, result = .ok r → C (next r)) : C (attempt result next) := by
  cases result with
  | ok r => exact h r rfl
  | error cause => exact hfail cause

end Search

namespace Linear
variable {α : Type} {n : Nat} {b x : List α}

theorem length_of_cons {e : Except Failure (List α)} {first : List α → α}
    (h : (do let xs ← e; return first xs :: xs) = .ok x)
    (he : ∀ {xs}, e = .ok xs → xs.length = n) : x.length = n + 1 := by
  obtain ⟨xs, hxs, h⟩ := exists_of_bind_eq_ok h
  cases h
  rw [List.length_cons, he hxs]

variable [Scalar α]

theorem length_of_forward {rows : List (Equation α)} (h : forward n rows = .ok x) :
    x.length = n := by
  fun_induction forward n rows generalizing x with
  | case1 => cases h; rfl
  | case3 n p ps r rest hp ih => exact length_of_cons h fun hxs => ih hxs
  | _ => cases h

theorem length_of_backward {rows : List (Equation α)} (h : backward n rows = .ok x) :
    x.length = n := by
  fun_induction backward n rows generalizing x with
  | case1 => cases h; rfl
  | case3 n p ps r rest hp ih => exact length_of_cons h fun hxs => ih hxs
  | _ => cases h

theorem length_of_eliminate {rows : List (Equation α)} (h : eliminate n rows = .ok x) :
    x.length = n := by
  fun_induction eliminate n rows generalizing x with
  | case1 => cases h; rfl
  | case3 n rows p ps r others ho hp ih => exact length_of_cons h fun hxs => ih hxs
  | _ => cases h

theorem length_of_bySquareRoots {rows : List (Equation α)} (h : bySquareRoots n rows = some x) :
    x.length = n := by
  fun_induction bySquareRoots n rows generalizing x with
  | case1 => cases h; rfl
  | case2 n p ps r rest hp ih =>
    obtain ⟨d, -, h⟩ := Option.bind_eq_some_iff.1 h
    obtain ⟨xs, hxs, h⟩ := Option.bind_eq_some_iff.1 h
    cases h
    rw [List.length_cons, ih d hxs]
  | _ => cases h

theorem length_of_divide {d : List α} (h : divide d b = .ok x) :
    x.length = min b.length d.length := by
  unfold divide at h
  split at h
  · cases h
  · cases h
    simp

theorem length_of_solveBy {matrix : List (List α)} {pattern : Pattern}
    (h : solveBy n matrix b pattern = .ok x) (hm : matrix.length = n) (hb : b.length = n) :
    x.length = n := by
  cases pattern with
  | diagonal =>
    rw [length_of_divide h]
    simp [diagonalOf, hm, hb]
  | upper => exact length_of_backward h
  | lower => exact length_of_forward h
  | symmetric =>
    simp only [solveBy] at h
    split at h
    · rename_i hs
      cases h
      exact length_of_bySquareRoots hs
    · exact length_of_eliminate h
  | tridiagonal => exact length_of_eliminate h
  | general => exact length_of_eliminate h

theorem length_of_solve {matrix : List (List α)} (h : solve n matrix b = .ok x)
    (hm : matrix.length = n) : x.length = b.length := by
  unfold solve at h
  split at h
  · cases h
  split at h
  · split at h
    · cases h
    · cases h
      simp
  · split at h
    · rename_i hb
      exact (length_of_solveBy h hm hb).trans hb.symm
    · cases h

end Linear

@[simp] theorem Grid.length_pieces {α : Type} (length count : Nat) (xs : List α) :
    (Grid.pieces length count xs).length = count := by
  induction count generalizing xs with
  | zero => rfl
  | succ count ih => rw [Grid.pieces, List.length_cons, ih]

theorem Grid.length_of_shape {α : Type} {a : Grid α} {n : Nat} (h : a.shape = [n]) :
    a.entries.length = n := by
  simp [a.length_entries, h, extent]

namespace Iteration
open Search
variable {α Site Slope Detail : Type} {n : Nat} {sites : Site → Prop}

/-- A search over vectors of `n` components that measures each value, asks for slopes at such sites
and ends at such a vector. -/
inductive Measured (n : Nat) (sites : Site → Prop) : Searching α Site Slope Detail → Prop
  | measure {x next} (hx : x.length = n)
    (h : ∀ y : List α, y.length = n → Measured n sites (next y)) :
    Measured n sites (Iteration.measure x next)
  | slope {x next} (hx : sites x) (h : ∀ y, Measured n sites (next y)) :
    Measured n sites (.slope x next)
  | report {note next} (h : Measured n sites next) : Measured n sites (.report note next)
  | fail {cause} : Measured n sites (.fail cause)
  | done {e} (he : e.point.length = n) : Measured n sites (.done e)

theorem Measured.asks {search : Searching α Site Slope Detail} (h : Measured n sites search) :
    Asks (fun x : List α => x.length = n) (fun _ _ => True) search := by
  induction h with
  | measure hx _ ih =>
    refine .evaluate hx fun y => ?_
    split
    · rename_i hy
      exact ih _ ((Grid.length_of_shape hy).trans hx)
    · exact .fail
  | slope _ _ ih => exact .slope fun y _ => ih y
  | report _ ih => exact .report ih
  | fail => exact .fail
  | done => exact .done

end Iteration

open Search Iteration
variable {α : Type} [Scalar α] {n : Nat}

namespace Newton

theorem length_of_correction {slope : Grid α} {fx δ : List α} (h : correction slope fx = .ok δ) :
    δ.length = fx.length := by
  unfold correction at h
  dsimp only at h
  split at h
  · exact Linear.length_of_solve h (Grid.length_pieces ..)
  · cases h

theorem measured_iterate (tol : List α) (left done : Nat) {x : List α} (hx : x.length = n) :
    Measured n (fun place : List α × List α => place.1.length = n) (iterate tol left done x) := by
  induction left generalizing done x with
  | zero => exact .report (.done hx)
  | succ left ih =>
    refine .measure hx fun fx hfx => .report ?_
    split
    · exact .report (.done hx)
    · refine .slope hx fun slope => attempt_of (fun _ => .fail) fun δ hδ => ?_
      apply ih
      simp [length_of_correction hδ, hfx, hx]

theorem measured_search (limit : Nat) (tol : List α) {x : List α} (hx : x.length = n) :
    Measured n (fun place : List α × List α => place.1.length = n) (search limit tol x) :=
  .report (measured_iterate tol limit 0 hx)

end Newton

namespace Steffensen

@[simp] theorem length_extrapolate (x y z : List α) :
    (extrapolate x y z).length = min x.length (min y.length z.length) := by
  fun_induction extrapolate x y z with
  | case1 x xs y ys z zs ih => simp [ih]
  | case2 x y z h =>
    rcases x with _ | ⟨a, x⟩
    · simp
    rcases y with _ | ⟨b, y⟩
    · simp
    rcases z with _ | ⟨c, z⟩
    · simp
    exact (h _ _ _ _ _ _ rfl rfl rfl).elim

theorem measured_iterate (tol : List (Tolerance α)) (left done : Nat) {x : List α}
    (hx : x.length = n) : Measured n Empty.elim (iterate tol left done x) := by
  induction left generalizing done x with
  | zero => exact .report (.done hx)
  | succ left ih =>
    refine .report (.measure hx fun y hy => ?_)
    split
    · exact .report (.done hx)
    · refine .measure hy fun z hz => ?_
      split
      · exact .report (.done hy)
      · apply ih
        simp [hx, hy, hz]

theorem measured_search (limit : Nat) (tol : List (Tolerance α)) {x : List α}
    (hx : x.length = n) : Measured n Empty.elim (search limit tol x) :=
  .report (measured_iterate tol limit 0 hx)

end Steffensen

namespace Wegstein

@[simp] theorem length_secants (x' y' x y : List α) : (secants x' y' x y).length =
    min x'.length (min y'.length (min x.length y.length)) := by
  fun_induction secants x' y' x y with
  | case1 x' xs' y' ys' x xs y ys ih => simp [ih]
  | case2 x' y' x y h =>
    rcases x' with _ | ⟨a, x'⟩
    · simp
    rcases y' with _ | ⟨b, y'⟩
    · simp
    rcases x with _ | ⟨c, x⟩
    · simp
    rcases y with _ | ⟨d, y⟩
    · simp
    exact (h _ _ _ _ _ _ _ _ rfl rfl rfl rfl).elim

theorem measured_iterate (tol : List (Tolerance α)) (left done : Nat) {x' y' x : List α}
    (hx' : x'.length = n) (hy' : y'.length = n) (hx : x.length = n) :
    Measured n Empty.elim (iterate tol left done x' y' x) := by
  induction left generalizing done x' y' x with
  | zero => exact .report (.done hx)
  | succ left ih =>
    refine .report (.measure hx fun y hy => ?_)
    split
    · exact .report (.done hx)
    · apply ih (done + 1) hx hy
      simp [hx', hy', hx, hy]

theorem measured_search (limit : Nat) (tol : List (Tolerance α)) {x : List α}
    (hx : x.length = n) : Measured n Empty.elim (search limit tol x) := by
  refine .report (.measure hx fun y hy => ?_)
  split
  · exact .report (.done hx)
  · exact measured_iterate tol limit 0 hx hy hy

end Wegstein

namespace Sand

/-- A slope whose corrections of a vector of `n` components are such vectors. -/
def Keeps (n : Nat) (slope : Slope α) : Prop :=
  ∀ jacobian fx k, slope = .ok jacobian → fx.shape = [n] → jacobian.solve fx = .ok k →
    k.shape = [n]

omit [Scalar α] in
theorem shape_of_combine {β : Type} {f : α → α → β} {a b : Grid α} {c : Grid β}
    (h : combine f a b = .ok c) (hab : a.shape = b.shape) : c.shape = a.shape := by
  obtain ⟨d, hd, hshape, -⟩ := Grid.zipWith?_of_shape_eq f a b hab
  simp only [combine, hd] at h
  cases h
  exact hshape

theorem shape_of_stage {c : α} {x k y : Grid α} (h : stage c x k = .ok y) (hk : k.shape = x.shape) :
    y.shape = x.shape :=
  shape_of_combine h hk.symm

theorem shape_of_step {x k₁ k₂ k₃ k₄ y : Grid α} (h : step x k₁ k₂ k₃ k₄ = .ok y)
    (h₁ : k₁.shape = x.shape) (h₂ : k₂.shape = x.shape) (h₃ : k₃.shape = x.shape)
    (h₄ : k₄.shape = x.shape) : y.shape = x.shape := by
  obtain ⟨inner, hi, h⟩ := exists_of_bind_eq_ok h
  obtain ⟨sum, hs, h⟩ := exists_of_bind_eq_ok h
  obtain ⟨total, ht, h⟩ := exists_of_bind_eq_ok h
  have hi' := shape_of_combine hi (h₂.trans h₃.symm)
  have hs' := shape_of_combine hs (by simp [h₁, h₂, hi'])
  have ht' := shape_of_combine ht (by simp [hs', h₁, h₄])
  exact shape_of_combine h (by simp [ht', hs', h₁])

/-- Slopes at vectors of `n` components are such that corrections keep the number. -/
abbrev Keeping (n : Nat) (x : Grid α) (slope : Slope α) : Prop := x.shape = [n] → Keeps n slope

section Stages
variable {C : Searching α → Prop} (hfail : ∀ cause, C (.fail cause))
  (hslope : ∀ (x : Grid α) next, x.shape = [n] → (∀ slope, Keeps n slope → C (next slope)) →
    C (.slope x next))
include hfail hslope

theorem correction_of {x fx : Grid α} {next : Grid α → Searching α} (hx : x.shape = [n])
    (hfx : fx.shape = [n]) (h : ∀ k : Grid α, k.shape = [n] → C (next k)) :
    C (correction x fx next) := by
  refine hslope x _ hx fun slope hkeeps => ?_
  cases slope with
  | ok jacobian => exact attempt_of hfail fun k hk => h k (hkeeps jacobian fx k rfl hfx hk)
  | error kind => exact hfail _

/-- What is true of a search that goes on from vectors of `n` components is true of one that first
follows the flow from such a vector. -/
theorem flow_of {x fx : Grid α} {next : Grid α → Searching α} (hx : x.shape = [n])
    (hfx : fx.shape = [n]) (h : ∀ y : Grid α, y.shape = [n] → C (next y)) :
    C (flow x fx next) := by
  have hcorrection {z : Grid α} {next : Grid α → Searching α} (hz : z.shape = [n]) :
      (∀ k : Grid α, k.shape = [n] → C (next k)) → C (correction z fx next) :=
    correction_of hfail hslope hz hfx
  refine hcorrection hx fun k₁ h₁ => attempt_of hfail fun x₂ hx₂ => ?_
  have hx₂ := (shape_of_stage hx₂ (h₁.trans hx.symm)).trans hx
  refine hcorrection hx₂ fun k₂ h₂ => attempt_of hfail fun x₃ hx₃ => ?_
  have hx₃ := (shape_of_stage hx₃ (h₂.trans hx.symm)).trans hx
  refine hcorrection hx₃ fun k₃ h₃ => attempt_of hfail fun x₄ hx₄ => ?_
  have hx₄ := (shape_of_combine hx₄ (hx.trans h₃.symm)).trans hx
  refine hcorrection hx₄ fun k₄ h₄ => attempt_of hfail fun y hy => h y ?_
  rw [← hx] at h₁ h₂ h₃ h₄
  exact (shape_of_step hy h₁ h₂ h₃ h₄).trans hx

end Stages

theorem asks_iterate (tol : Grid α) (left done : Nat) {x : Grid α} (hx : x.shape = [n]) :
    Asks (fun z : Grid α => z.shape = [n]) (Keeping n) (iterate tol left done x) := by
  induction left generalizing done x with
  | zero => exact .report .done
  | succ left ih =>
    refine .evaluate hx fun fx => ?_
    split
    · rename_i hfx
      refine .report (attempt_of (fun _ => .fail) fun passed _ => ?_)
      split
      · exact .report .done
      · refine flow_of (fun _ => .fail) ?_ hx (hfx.trans hx) fun y hy => ih (done + 1) hy
        exact fun z next hz h => .slope fun slope hslope => h slope (hslope hz)
    · exact .fail

end Sand
end RootFinding
