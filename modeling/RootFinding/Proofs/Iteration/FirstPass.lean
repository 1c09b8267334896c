import RootFinding.Proofs.Runs
import RootFinding.System.Iteration

/-!
# The first call that passes

A search that tests the answer to each call converges at the first call that passes, and every call
that it made before failed the test. That a search tests its calls is read off its tree; what its
runs then do is proved once for all such searches, whatever the functions answer.
-/
namespace RootFinding.Search
variable {Point Reading Site Slope Detail Answer : Type}

/-- A search that only reports and then ends. -/
inductive EndsWith (answer : Answer) : Search Point Reading Site Slope Detail Answer → Prop
  | report {note next} (h : EndsWith answer next) : EndsWith answer (.report note next)
  | done : EndsWith answer (.done answer)

/-- A search that tests each answer after so many calls: it converges where one passes, with an
iteration count that follows from the number of calls, and goes on where one fails. -/
inductive Tests (test : Point → Reading → Bool) (rounds : Nat → Nat) :
    Nat → Search Point Reading Site Slope Detail (Ending Point) → Prop
  | evaluate {calls x next}
    (passed : ∀ y, test x y = true →
      EndsWith ⟨x, true, rounds (calls + 1), calls + 1⟩ (next y))
    (failed : ∀ y, test x y = false → Tests test rounds (calls + 1) (next y)) :
    Tests test rounds calls (.evaluate x next)
  | slope {calls x next} (h : ∀ y, Tests test rounds calls (next y)) :
    Tests test rounds calls (.slope x next)
  | report {calls note next} (h : Tests test rounds calls next) :
    Tests test rounds calls (.report note next)
  | fail {calls cause} : Tests test rounds calls (.fail cause)
  | done {calls e} (hc : e.converged = false) (he : e.evaluations = calls) :
    Tests test rounds calls (.done e)

/-- A search that calls its function at a point before anything but reports. -/
inductive StartsAt (x : Point) : Search Point Reading Site Slope Detail (Ending Point) → Prop
  | report {note next} (h : StartsAt x next) : StartsAt x (.report note next)
  | evaluate {next} : StartsAt x (.evaluate x next)

/-- A call whose answer passes a test. -/
def PassesAt (caller : Caller Point Reading Site Slope Detail) (test : Point → Reading → Bool)
    (number : Nat) (x : Point) : Prop :=
  ∃ y, caller.value number x = .ok y ∧ test x y = true

/-- Calls and their outcome, seen from a call on: either the last call passes, the ones before fail
and the search converged at the argument of the last one, or all fail and it did not converge. -/
inductive FirstPass (passes : Nat → Point → Prop) (rounds : Nat → Nat) (first : Nat)
    (evaluations : Array Point) (outcome : Except Failure (Ending Point)) : Prop
  | passed {calls : Array Point} {x : Point} (hcalls : evaluations = calls.push x)
    (hx : passes calls.size x)
    (hbefore : ∀ i y, first ≤ i → calls[i]? = some y → ¬passes i y)
    (ho : outcome = .ok ⟨x, true, rounds (calls.size + 1), calls.size + 1⟩)
  | unpassed (hall : ∀ i y, first ≤ i → evaluations[i]? = some y → ¬passes i y)
    (ho : ∀ e, outcome = .ok e → e.converged = false ∧ e.evaluations = evaluations.size)

namespace FirstPass
variable {passes : Nat → Point → Prop} {rounds : Nat → Nat} {first : Nat}
  {evaluations : Array Point} {outcome : Except Failure (Ending Point)}

theorem cons (h : FirstPass passes rounds (first + 1) evaluations outcome)
    (hf : ∀ x, evaluations[first]? = some x → ¬passes first x) :
    FirstPass passes rounds first evaluations outcome := by
  cases h with
  | @passed calls x hcalls hx hbefore ho =>
    refine .passed hcalls hx ?_ ho
    intro i y hi hy
    rcases Nat.eq_or_lt_of_le hi with rfl | hi
    · refine hf y ?_
      obtain ⟨hlt, rfl⟩ := Array.getElem?_eq_some_iff.1 hy
      rw [hcalls, Array.getElem?_push_lt hlt]
    · exact hbefore i y hi hy
  | unpassed hall ho =>
    refine .unpassed ?_ ho
    intro i y hi hy
    rcases Nat.eq_or_lt_of_le hi with rfl | hi
    · exact hf y hy
    · exact hall i y hi hy

theorem of_size (hs : evaluations.size = first)
    (ho : ∀ e, outcome = .ok e → e.converged = false ∧ e.evaluations = evaluations.size) :
    FirstPass passes rounds first evaluations outcome := by
  refine .unpassed ?_ ho
  intro i y hi hy
  have hlt := (Array.getElem?_eq_some_iff.1 hy).1
  omega

theorem map {Point' : Type} {passes' : Nat → Point' → Prop} (f : Point → Point')
    (h : FirstPass passes rounds first evaluations outcome)
    (hp : ∀ i x, evaluations[i]? = some x → (passes' i (f x) ↔ passes i x)) :
    FirstPass passes' rounds first (evaluations.map f)
      (outcome.map fun e => ⟨f e.point, e.converged, e.iterations, e.evaluations⟩) := by
  cases h with
  | @passed calls x hcalls hx hbefore ho =>
    subst hcalls ho
    have hpush : (calls.push x).map f = (calls.map f).push (f x) := Array.map_push
    refine .passed hpush ?_ ?_ (by simp [Except.map])
    · rw [Array.size_map]
      exact (hp _ _ (by simp)).2 hx
    · intro i y hi hy
      rw [Array.getElem?_map] at hy
      obtain ⟨z, hz, rfl⟩ := Option.map_eq_some_iff.1 hy
      have hlt := (Array.getElem?_eq_some_iff.1 hz).1
      rw [hp i z (by rw [Array.getElem?_push_lt hlt, ← hz, Array.getElem?_eq_getElem hlt])]
      exact hbefore i z hi hz
  | unpassed hall ho =>
    refine .unpassed ?_ ?_
    · intro i y hi hy
      rw [Array.getElem?_map] at hy
      obtain ⟨z, hz, rfl⟩ := Option.map_eq_some_iff.1 hy
      rw [hp i z hz]
      exact hall i z hi hz
    · intro e he
      cases outcome with
      | error cause => cases he
      | ok e' =>
        cases he
        rw [Array.size_map]
        exact ho e' rfl

theorem congr {passes' : Nat → Point → Prop}
    (h : FirstPass passes rounds first evaluations outcome)
    (hp : ∀ i x, evaluations[i]? = some x → (passes' i x ↔ passes i x)) :
    FirstPass passes' rounds first evaluations outcome := by
  have hmap := h.map id hp
  rw [Array.map_id] at hmap
  cases outcome with
  | ok e => exact hmap
  | error cause => exact hmap

theorem of_pass {x : Point} (h : FirstPass passes rounds 0 evaluations outcome)
    (hx : evaluations[0]? = some x) (hp : passes 0 x) :
    evaluations = #[x] ∧ outcome = .ok ⟨x, true, rounds 1, 1⟩ := by
  cases h with
  | @passed calls y hcalls hy hbefore ho =>
    cases hn : calls.size with
    | zero =>
      obtain rfl := Array.eq_empty_of_size_eq_zero hn
      subst hcalls
      cases hx
      exact ⟨rfl, ho⟩
    | succ n =>
      have hlt : 0 < calls.size := by omega
      rw [hcalls, Array.getElem?_push_lt hlt] at hx
      exact absurd hp (hbefore 0 x (Nat.le_refl 0) (by rw [Array.getElem?_eq_getElem hlt, hx]))
  | unpassed hall ho => exact absurd hp (hall 0 x (Nat.le_refl 0) hx)

end FirstPass

variable {caller : Caller Point Reading Site Slope Detail} {test : Point → Reading → Bool}
  {rounds : Nat → Nat} {evals : Array Point} {slopes : Array Site} {notes : Array (Note Detail)}
  {shown : Note Detail → Bool} {search : Search Point Reading Site Slope Detail (Ending Point)}

variable (evals slopes notes) in
theorem EndsWith.runFrom (hs : ∀ note, caller.shows note = .ok (shown note)) {answer : Answer}
    {search : Search Point Reading Site Slope Detail Answer} (h : EndsWith answer search) :
    (runFrom caller evals slopes notes search).evaluations = evals ∧
      (Search.runFrom caller evals slopes notes search).outcome = .ok answer := by
  induction h generalizing notes with
  | report _ ih =>
    rw [runFrom_report hs]
    exact ih _
  | done => exact ⟨rfl, rfl⟩

theorem StartsAt.getElem?_runFrom (hs : ∀ note, caller.shows note = .ok (shown note)) {x : Point}
    (h : StartsAt x search) :
    (runFrom caller evals slopes notes search).evaluations[evals.size]? = some x := by
  induction h generalizing notes with
  | report _ ih =>
    rw [runFrom_report hs]
    exact ih
  | evaluate => exact getElem?_evaluate ..

/-- A run of a search that tests its calls converges at the first call that passes. -/
theorem Tests.firstPass (hs : ∀ note, caller.shows note = .ok (shown note))
    (h : Tests test rounds evals.size search) :
    FirstPass (PassesAt caller test) rounds evals.size
      (runFrom caller evals slopes notes search).evaluations
      (runFrom caller evals slopes notes search).outcome := by
  generalize hn : evals.size = calls at h
  induction h generalizing evals slopes notes with
  | @evaluate calls x next passed failed ih =>
    subst hn
    have hx : (runFrom caller evals slopes notes (.evaluate x next)).evaluations[evals.size]? =
        some x := getElem?_evaluate x next
    rw [runFrom] at hx ⊢
    cases hv : caller.value evals.size x with
    | error cause =>
      refine FirstPass.cons (.of_size (Array.size_push x) (by rintro e ⟨⟩)) ?_
      rintro y hy ⟨z, hz, -⟩
      rw [hv] at hx
      obtain rfl := Option.some.inj (hy.symm.trans hx)
      cases hv.symm.trans hz
    | ok y =>
      rw [hv] at hx
      cases ht : test x y with
      | true =>
        have hend := (passed y ht).runFrom (evals.push x) slopes notes hs
        refine .passed hend.1 ⟨y, hv, ht⟩ ?_ hend.2
        intro i z hi hz
        have hlt := (Array.getElem?_eq_some_iff.1 hz).1
        omega
      | false =>
        refine FirstPass.cons (ih y ht (Array.size_push x)) ?_
        rintro z hz ⟨w, hw, hpass⟩
        obtain rfl := Option.some.inj (hz.symm.trans hx)
        cases hv.symm.trans hw
        rw [ht] at hpass
        cases hpass
  | @slope calls x next _ ih =>
    rw [runFrom]
    cases caller.slope slopes.size x with
    | ok y => exact ih y hn
    | error cause => exact .of_size hn (by rintro e ⟨⟩)
  | report _ ih =>
    rw [runFrom_report hs]
    exact ih hn
  | fail => exact .of_size hn (by rintro e ⟨⟩)
  | done hc he =>
    refine .of_size hn ?_
    rintro e ⟨⟩
    exact ⟨hc, he.trans hn.symm⟩

end RootFinding.Search
