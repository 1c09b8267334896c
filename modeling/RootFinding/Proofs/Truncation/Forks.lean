import RootFinding.Proofs.Iteration.FirstPass
import RootFinding.Proofs.Pairs

/-!
# Searches that fork

Two searches of one method with other limits or tolerances ask the same questions until one of them
has enough. Their runs by one caller are the same, or come to a common point where one of them only
reports and ends while the other may go on.
-/
namespace RootFinding

namespace Trace
variable {Point Site Detail Answer : Type}

/-- A trace whose calls are the first ones of another. -/
structure Earlier (t t' : Trace Point Site Detail Answer) : Prop where
  evaluations : t.evaluations.toList <+: t'.evaluations.toList
  slopes : t.slopes.toList <+: t'.slopes.toList

theorem Earlier.of_eq {t t' : Trace Point Site Detail Answer} (h : t = t') : t.Earlier t' := by
  subst h
  exact ⟨List.prefix_refl _, List.prefix_refl _⟩

/-- A trace that ends with an answer where another one may go on. Only a note that cannot be shown
keeps it from that answer. -/
structure Stops (shows : Note Detail → Except Failure Bool) (answer : Answer)
    (t t' : Trace Point Site Detail Answer) : Prop where
  earlier : t.Earlier t'
  outcome : t.outcome = .ok answer ∨
    ∃ note cause, shows note = .error cause ∧ t.outcome = .error cause

/-- Two traces that are the same, or one of which stops with an answer that has the property of its
side. -/
inductive Parts (L R : Answer → Prop) (shows : Note Detail → Except Failure Bool)
    (t t' : Trace Point Site Detail Answer) : Prop
  | same (h : t = t')
  | left {answer : Answer} (hL : L answer) (h : t.Stops shows answer t')
  | right {answer : Answer} (hR : R answer) (h : t'.Stops shows answer t)

variable {L R : Answer → Prop} {shows : Note Detail → Except Failure Bool}
  {t t' : Trace Point Site Detail Answer}

theorem Parts.earlier_or (h : Parts L R shows t t') : t.Earlier t' ∨ t'.Earlier t := by
  cases h with
  | same h => exact .inl (.of_eq h)
  | left hL h => exact .inl h.earlier
  | right hR h => exact .inr h.earlier

/-- Where only one trace may stop first, the other one has its calls. -/
theorem Parts.earlier (h : Parts L (fun _ => False) shows t t') : t.Earlier t' := by
  cases h with
  | same h => exact .of_eq h
  | left hL h => exact h.earlier
  | right hR h => exact hR.elim

/-- Where only one trace may stop first, and only with certain answers, it is the same as the other
one when it has another answer. -/
theorem Parts.eq_of_ok (h : Parts L (fun _ => False) shows t t') {answer : Answer}
    (ho : t.outcome = .ok answer) (hL : ¬L answer) : t' = t := by
  cases h with
  | same h => exact h.symm
  | left hfound h =>
    rcases h.outcome with hok | ⟨note, cause, -, herror⟩
    · cases ho.symm.trans hok
      exact absurd hfound hL
    · cases ho.symm.trans herror
  | right hR h => exact hR.elim

end Trace

namespace Search
variable {Point Reading Site Slope Detail Answer Result : Type}

/-- Two searches that ask the same questions and report the same until one of them ends, with an
answer that has the property of its side. -/
inductive Forks (L R : Answer → Prop) :
    Search Point Reading Site Slope Detail Answer →
      Search Point Reading Site Slope Detail Answer → Prop
  | evaluate (x : Point) {next next' : Reading → Search Point Reading Site Slope Detail Answer}
    (h : ∀ y, Forks L R (next y) (next' y)) : Forks L R (.evaluate x next) (.evaluate x next')
  | slope (x : Site) {next next' : Slope → Search Point Reading Site Slope Detail Answer}
    (h : ∀ y, Forks L R (next y) (next' y)) : Forks L R (.slope x next) (.slope x next')
  | report (note : Note Detail) {next next' : Search Point Reading Site Slope Detail Answer}
    (h : Forks L R next next') : Forks L R (.report note next) (.report note next')
  | refl (search : Search Point Reading Site Slope Detail Answer) : Forks L R search search
  | left {answer : Answer} {search : Search Point Reading Site Slope Detail Answer}
    (h : EndsWith answer search) (hL : L answer)
    (rest : Search Point Reading Site Slope Detail Answer) : Forks L R search rest
  | right {answer : Answer} {search : Search Point Reading Site Slope Detail Answer}
    (h : EndsWith answer search) (hR : R answer)
    (rest : Search Point Reading Site Slope Detail Answer) : Forks L R rest search

variable {L R : Answer → Prop} {caller : Caller Point Reading Site Slope Detail}

theorem EndsWith.stops {answer : Answer} {search : Search Point Reading Site Slope Detail Answer}
    (h : EndsWith answer search) (rest : Search Point Reading Site Slope Detail Answer)
    (evals : Array Point) (slopes : Array Site) (notes : Array (Note Detail)) :
    (Search.runFrom caller evals slopes notes search).Stops caller.shows answer
      (Search.runFrom caller evals slopes notes rest) := by
  suffices hend : ∀ found, (∃ notes, Search.runFrom caller evals slopes notes search = found) →
      found.evaluations = evals ∧ found.slopes = slopes ∧ (found.outcome = .ok answer ∨
        ∃ note cause, caller.shows note = .error cause ∧ found.outcome = .error cause) by
    obtain ⟨hevals, hslopes, ho⟩ := hend _ ⟨notes, rfl⟩
    refine ⟨⟨?_, ?_⟩, ho⟩
    · rw [hevals]
      exact prefix_evaluations rest
    · rw [hslopes]
      exact prefix_slopes rest
  rintro _ ⟨notes, rfl⟩
  induction h generalizing notes with
  | @report note next h ih =>
    rw [Search.runFrom]
    cases hs : caller.shows note with
    | ok shown => cases shown <;> exact ih _
    | error cause => exact ⟨rfl, rfl, .inr ⟨note, cause, hs, rfl⟩⟩
  | done => exact ⟨rfl, rfl, .inl rfl⟩

theorem Forks.runFrom {search search' : Search Point Reading Site Slope Detail Answer}
    (h : Forks L R search search') (evals : Array Point) (slopes : Array Site)
    (notes : Array (Note Detail)) :
    (runFrom caller evals slopes notes search).Parts L R caller.shows
      (Search.runFrom caller evals slopes notes search') := by
  induction h generalizing evals slopes notes with
  | evaluate x h ih =>
    rw [Search.runFrom, Search.runFrom]
    cases caller.value evals.size x with
    | ok y => exact ih y ..
    | error cause => exact .same rfl
  | slope x h ih =>
    rw [Search.runFrom, Search.runFrom]
    cases caller.slope slopes.size x with
    | ok y => exact ih y ..
    | error cause => exact .same rfl
  | report note h ih =>
    rw [Search.runFrom, Search.runFrom]
    cases caller.shows note with
    | ok shown => cases shown <;> exact ih ..
    | error cause => exact .same rfl
  | refl search => exact .same rfl
  | left h hL rest => exact .left hL (h.stops rest evals slopes notes)
  | right h hR rest => exact .right hR (h.stops rest evals slopes notes)

theorem Forks.run {search search' : Search Point Reading Site Slope Detail Answer}
    (h : Forks L R search search') (caller : Caller Point Reading Site Slope Detail) :
    (search.run caller).Parts L R caller.shows (search'.run caller) :=
  h.runFrom ..

theorem Forks.attempt_of {C : Result → Result → Prop} {result result' : Except Failure Result}
    {next next' : Result → Search Point Reading Site Slope Detail Answer}
    (hr : Corresponds C result result') (h : ∀ r r', C r r' → Forks L R (next r) (next' r')) :
    Forks L R (attempt result next) (attempt result' next') := by
  cases hr with
  | ok hr => exact h _ _ hr
  | error cause => exact .refl _

theorem Forks.attempt (result : Except Failure Result)
    {next next' : Result → Search Point Reading Site Slope Detail Answer}
    (h : ∀ r, Forks L R (next r) (next' r)) :
    Forks L R (attempt result next) (Search.attempt result next') := by
  cases result with
  | ok r => exact h r
  | error cause => exact .refl _

section Tests
variable {Tested : Type} {ends ends' : Ending Point → Prop} {l l' : Nat}
  {test test' : Tested → Bool}

/-- Which of two searches may end first, with an ending of what kind: the first one where its limit
is lower, or where it passes its test at a call at which the other does not. -/
structure MayEnd (ends : Ending Point → Prop) (limit limit' : Nat) (test test' : Tested → Bool) :
    Prop where
  exhausted : limit < limit' → ∀ e, e.converged = false → ends e
  passed : ∀ y, test y = true → test' y = false → ∀ e, e.converged = true → ends e

theorem MayEnd.mono {m m' : Nat} (h : MayEnd ends l l' test test') (hl : m < m' → l < l') :
    MayEnd ends m m' test test' :=
  ⟨fun hm => h.exhausted (hl hm), h.passed⟩

theorem MayEnd.any (l l' : Nat) (test test' : Tested → Bool) :
    MayEnd (fun _ : Ending Point => True) l l' test test' :=
  ⟨fun _ _ _ => trivial, fun _ _ _ _ _ => trivial⟩

/-- With one test for both, only a lower limit ends a search first. -/
theorem MayEnd.unconverged (l l' : Nat) (test : Tested → Bool) :
    MayEnd (fun e : Ending Point => e.converged = false) l l' test test := by
  refine ⟨fun _ _ he => he, fun y hy hy' => ?_⟩
  cases hy.symm.trans hy'

theorem MayEnd.converged (l : Nat) (test test' : Tested → Bool) :
    MayEnd (fun e : Ending Point => e.converged = true) l l test test' :=
  ⟨fun hl => absurd hl (Nat.lt_irrefl l), fun _ _ _ _ he => he⟩

/-- A search does not end first where its limit is no lower and the other one passes each test that
it passes. -/
theorem MayEnd.never (hl : l' ≤ l) (h : ∀ y, test y = true → test' y = true) :
    MayEnd (fun _ : Ending Point => False) l l' test test' := by
  refine ⟨fun hlt => absurd hlt (Nat.not_lt.2 hl), fun y hy hy' => ?_⟩
  cases (h y hy).symm.trans hy'

theorem Forks.branch (hl : MayEnd ends l l' test test') (hr : MayEnd ends' l' l test' test)
    (y : Tested) {e : Ending Point} (he : e.converged = true)
    {passed next next' : Search Point Reading Site Slope Detail (Ending Point)}
    (hp : EndsWith e passed) (h : Forks ends ends' next next') :
    Forks ends ends' (if test y then passed else next) (if test' y then passed else next') := by
  cases ht : test y with
  | true =>
    cases ht' : test' y with
    | true => exact .refl _
    | false => exact .left hp (hl.passed y ht ht' e he) _
  | false =>
    cases ht' : test' y with
    | true => exact .right hp (hr.passed y ht' ht e he) _
    | false => exact h

/-- Iterations that only give up when nothing is left of their limits fork where each step does. -/
theorem Forks.of_step {State : Type}
    (iterate iterate' : Nat → Nat → State → Search Point Reading Site Slope Detail (Ending Point))
    (hzero : ∀ done s, iterate 0 done s = iterate' 0 done s)
    (hends : ∀ done s, ∃ e, e.converged = false ∧ EndsWith e (iterate 0 done s))
    (hstep : ∀ l l' done s, MayEnd ends l l' test test' → MayEnd ends' l' l test' test →
      (∀ done s, Forks ends ends' (iterate l done s) (iterate' l' done s)) →
        Forks ends ends' (iterate (l + 1) done s) (iterate' (l' + 1) done s))
    (hl : MayEnd ends l l' test test') (hr : MayEnd ends' l' l test' test) (done : Nat)
    (s : State) : Forks ends ends' (iterate l done s) (iterate' l' done s) := by
  induction l generalizing l' done s with
  | zero =>
    obtain ⟨e, he, hend⟩ := hends done s
    cases l' with
    | zero =>
      rw [hzero]
      exact .refl _
    | succ l' => exact .left hend (hl.exhausted (Nat.succ_pos l') e he) _
  | succ l ih =>
    cases l' with
    | zero =>
      obtain ⟨e, he, hend⟩ := hends done s
      rw [hzero] at hend
      exact .right hend (hr.exhausted (Nat.succ_pos l) e he) _
    | succ l' =>
      have hl := hl.mono (m := l) Nat.succ_lt_succ
      have hr := hr.mono (m := l') Nat.succ_lt_succ
      exact hstep l l' done s hl hr fun done s => ih hl hr done s

end Tests
end Search
end RootFinding
