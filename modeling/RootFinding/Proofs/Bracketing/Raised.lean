import RootFinding.Proofs.Bracketing.Exhausted
import RootFinding.Proofs.Iteration.Arguments
import RootFinding.Proofs.Truncation.Forks

/-!
# A raised limit of a bracketing search

The limit has no part in the points that a bracketing search comes to. With a higher one it makes
the same calls, and more where it had reached its limit, unless the test that it did not come to
before is passed at once.
-/
namespace RootFinding.Brent
open Number Search

section Trees
variable {Raw ρ α : Type} [Scalar α] [Reading Raw ρ α]

def Ending.Exhausted : Ending α ρ → Prop
  | .root _ _ => False
  | .exhausted _ _ _ _ _ => True

theorem forks_iterate (tol : α) {l l' : Nat} (hl : l ≤ l') (done : Nat) (s : Points α ρ) :
    Forks Ending.Exhausted (fun _ => False) (iterate tol l done s : Searching Raw ρ α)
      (iterate tol l' done s) := by
  induction l generalizing l' done s with
  | zero =>
    cases l' with
    | zero => exact .refl _
    | succ l' => exact .left (.report .done) trivial _
  | succ l ih =>
    obtain ⟨l', rfl⟩ := Nat.exists_eq_add_of_le' (Nat.le_trans (Nat.succ_pos l) hl)
    rw [iterate, iterate]
    dsimp only
    split
    · exact .refl _
    · refine .attempt _ fun step => .evaluate _ fun raw => .attempt _ fun fx => ?_
      exact .report _ (.attempt _ fun s => ih (Nat.le_of_succ_le_succ hl) (done + 1) s)

theorem forks_search {limit limit' : Nat} (hl : limit ≤ limit') (tol lower upper : α) :
    Forks Ending.Exhausted (fun _ => False)
      (search limit tol lower upper : Searching Raw ρ α) (search limit' tol lower upper) := by
  refine .evaluate _ fun rawLower => .evaluate _ fun rawUpper => ?_
  refine .attempt _ fun ends => .attempt _ fun same => ?_
  split
  · exact .refl _
  · exact .report _ (forks_iterate tol (Nat.succ_le_succ hl) 0 _)

end Trees

variable {s : Solver} {options : RunOptions} {t : RootTolerance} {f : Function} {v w : Value}
  {limit : Limit} {run run' : Run}

theorem settleBracket_limit (s : Solver) (limit : Limit) (options : RunOptions) :
    ({ s with limit }).settleBracket options = s.settleBracket options := by
  funext e
  cases e <;> rfl

/-- With a higher limit a solver makes the calls of a bracketing search, and has the same run where
that succeeds. -/
theorem runBracket_raised (hl : s.limit.count ≤ limit.count)
    (hrun : s.runBracket options t f v w = run)
    (hrun' : ({ s with limit }).runBracket options t f v w = run') :
    (∀ solution, run.outcome = .ok solution → run' = run) ∧
      run.evaluations.toList <+: run'.evaluations.toList := by
  subst hrun hrun'
  rcases Solver.runBracket_cases v w with ⟨cause, -, hfail⟩ | ⟨lower, upper, hv, hw⟩
  · rw [hfail, hfail]
    exact ⟨fun _ _ => rfl, List.prefix_refl _⟩
  · have hforks : Search.Forks Ending.Exhausted (fun _ => False)
        (search s.limit.count (.ofFloat t.value) lower upper : Searching Value Quantity Double)
        (search limit.count (.ofFloat t.value) lower upper) := forks_search hl _ _ _
    have hparts := hforks.run (bracketCaller s f)
    have hcaller : bracketCaller { s with limit } f = bracketCaller s f := rfl
    rw [runBracket_of_bounds hv hw, runBracket_of_bounds hv hw, settleBracket_limit, hcaller]
    constructor
    · intro solution ho
      obtain ⟨e, he, hsettle⟩ := exists_of_bind_eq_ok ho
      have hroot : ¬e.Exhausted := by
        cases e with
        | root x iterations => exact id
        | exhausted a b fa fb iterations => cases hsettle
      exact congrArg (Run.ofTrace _ _ _ _) (hparts.eq_of_ok he hroot)
    · simpa [Run.ofTrace] using hparts.earlier.evaluations.map Value.real

section Doubles
variable {value : Nat → Double → Double} {tol lower upper : Double}
  {shows : Note (Double × Double) → Except Failure Bool} {shown : Note (Double × Double) → Bool}
  {m n : Nat} {e : Ending Double Double} {trace trace' : Trace Double Empty (Double × Double)
    (Ending Double Double)}

/-- A search that does not fail could tell whether its heading is shown. -/
theorem exists_shows_heading
    (ho : ((search n tol lower upper).run (answering value shows)).outcome = .ok e) :
    ∃ b, shows (.heading none) = .ok b := by
  obtain ⟨same, h⟩ := PlainReading.productPositive_ok (value 0 lower) (value 1 upper)
  cases same with
  | true => cases ho.symm.trans (run_search_sameSign h)
  | false =>
    rw [run_search h, Search.runFrom] at ho
    cases hs : shows (.heading none) with
    | ok b => exact ⟨b, rfl⟩
    | error cause =>
      have hs' : (answering value shows).shows (.heading none) = .error cause := hs
      rw [hs'] at ho
      cases ho

/-- A search that reached its limit makes more calls with a higher one, unless it finds that it has
come to a root. -/
theorem exhausted_raised (hl : m < n) (hshows : ∀ note, shows note = .ok (shown note))
    (ht : (search m tol lower upper).run (answering value shows) = trace)
    (ht' : (search n tol lower upper).run (answering value shows) = trace')
    (ho : trace.outcome = .ok e) (he : e.Exhausted) :
    trace.evaluations.size < trace'.evaluations.size ∨
      (trace'.evaluations = trace.evaluations ∧
        ∃ x iterations, trace'.outcome = .ok (.root x iterations)) := by
  have hprefix : trace.evaluations.toList <+: trace'.evaluations.toList := by
    rw [← ht, ← ht']
    exact ((forks_search (Nat.le_of_lt hl) tol lower upper).run _).earlier.evaluations
  obtain ⟨done, calls, p, hr, hend, hcalls⟩ := exists_ended_of_ok ht ho
  cases hend with
  | root hc hle => exact he.elim
  | exhausted hdone =>
    have hsize : trace.evaluations.size = m + 3 := by
      rw [hcalls, List.size_toArray, hr.length_calls, hdone]
      rfl
    rcases concluded_search ht' with ⟨hr', hend', ho', hcalls'⟩ | ⟨hsame, -⟩ | ⟨hhidden, -⟩
    · cases hend' with
      | root hc' hle' =>
        rcases Nat.lt_or_ge trace.evaluations.size trace'.evaluations.size with hlt | hge
        · exact .inl hlt
        · have hlist := hprefix.eq_of_length_le (by simpa using hge)
          exact .inr ⟨(Array.toList_inj.1 hlist).symm, _, _, ho'⟩
      | exhausted hdone' =>
        left
        rw [hsize, hcalls', List.size_toArray, hr'.length_calls, hdone']
        exact Nat.add_lt_add_right hl 3
    · rw [← ht, run_search_sameSign hsame] at ho
      cases ho
    · cases (hshows _).symm.trans hhidden

end Doubles

theorem AnswersReals.of_prefix (hf : AnswersReals f run')
    (h : run.evaluations.toList <+: run'.evaluations.toList) : AnswersReals f run := by
  intro i x hx
  rw [← Array.getElem?_toList] at hx
  refine hf i x ?_
  rw [← Array.getElem?_toList]
  exact getElem?_prefix_eq_some h hx

theorem toDouble_ne_notConverged (v : Value) (r : Report) :
    v.toDouble ≠ .error (.notConverged r) := by
  intro h
  unfold Value.toDouble at h
  split at h
  · cases h
  · rename_i n
    unfold Value.roundInt at h
    split at h <;> cases h
  · cases h
  · split at h <;> cases h
  · cases h

/-- Whether a note is shown can be told where the heading's level can be compared. -/
theorem displays_of_heading {b : Bool}
    (h : Progress.shows s.display (.heading none : Note (Double × Double)) = .ok b) :
    s.Displays := by
  rcases s.displays_or with hs | ⟨cause, herror⟩
  · exact hs
  · cases h.symm.trans (herror 1)

/-- With a higher limit and a function that answers doubles, a bracketing search that had reached
its limit makes more calls, or finds that it has come to a root. -/
theorem runBracket_extended (hl : s.limit.count < limit.count)
    (hrun : s.runBracket options t f v w = run)
    (hrun' : ({ s with limit }).runBracket options t f v w = run') (hf : AnswersReals f run')
    {r : Report} (hout : run.outcome = .error (.notConverged r)) :
    run.evaluations.size < run'.evaluations.size ∨
      (run'.evaluations = run.evaluations ∧ ∃ solution, run'.outcome = .ok solution) := by
  have hshort := hf.of_prefix (runBracket_raised (Nat.le_of_lt hl) hrun hrun').2
  subst hrun hrun'
  rcases Solver.runBracket_cases v w with ⟨cause, hcause, hfail⟩ | ⟨lower, upper, hv, hw⟩
  · rw [hfail] at hout
    cases hout
    exact hcause.elim (fun h => (toDouble_ne_notConverged v r h).elim)
      fun h => (toDouble_ne_notConverged w r h).elim
  · rw [runBracket_of_reals hshort hv hw] at hout ⊢
    rw [runBracket_of_reals hf hv hw, settleBracket_limit]
    cases ho : ((search s.limit.count (.ofFloat t.value) lower upper).run
        (answering (doubleAnswer f) (Progress.shows s.display))).outcome with
    | error cause =>
      simp only [Run.ofTrace, liftTrace, ho] at hout
      rcases failure_cases rfl ho with rfl | ⟨note, hs⟩
      · cases hout
      · rw [Progress.shows_error hs] at hout
        cases hout
    | ok e =>
      obtain ⟨b, hb⟩ := exists_shows_heading ho
      obtain ⟨shown, hshown⟩ : ∃ shown : Note (Double × Double) → Bool,
          ∀ note, Progress.shows s.display note = .ok (shown note) := (displays_of_heading hb).shows
      have hexhausted : e.Exhausted := by
        cases e with
        | root x iterations =>
          simp only [Run.ofTrace, liftTrace, ho] at hout
          cases hout
        | exhausted a b fa fb iterations => trivial
      rcases exhausted_raised hl hshown rfl rfl ho hexhausted with
        hlt | ⟨hcalls, x, iterations, ho'⟩
      · left
        simpa [Run.ofTrace, liftTrace] using hlt
      · right
        constructor
        · exact congrArg (Array.map Value.real) hcalls
        · simp only [Run.ofTrace, liftTrace]
          exact ⟨_, congrArg (fun o => (Except.map Ending.lift o).bind _) ho'⟩

end RootFinding.Brent
