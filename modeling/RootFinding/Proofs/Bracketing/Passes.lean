import RootFinding.Bracketing.Brent

/-!
# Passes of a bracketing search

A search by Brent's method stands at its convergence test, ends there or makes one more pass. The
stages that it reaches are described without the tree of questions, and each run of the tree ends at
one of them.
-/
namespace RootFinding.Brent

/-- A reading that takes every number as it is and never fails. -/
class PlainReading (α : Type) [Scalar α] [Reading α α α] : Prop where
  ends_eq (x y : α) : Reading.ends x y = .ok (x, y)
  accept_eq (x : α) : Reading.accept x = .ok x
  productPositive_ok (x y : α) : ∃ b, Reading.productPositive α x y = .ok b
  quotient_ok (x y : α) : ∃ z : α, Reading.quotient α x y = .ok z
  sameSide_ok (x y : α) : ∃ b, Reading.sameSide α x y = .ok b

instance : PlainReading Rat where
  ends_eq _ _ := rfl
  accept_eq _ := rfl
  productPositive_ok _ _ := ⟨_, rfl⟩
  quotient_ok _ _ := ⟨_, rfl⟩
  sameSide_ok _ _ := ⟨_, rfl⟩

instance : PlainReading Number.Double where
  ends_eq _ _ := rfl
  accept_eq _ := rfl
  productPositive_ok _ _ := ⟨_, rfl⟩
  quotient_ok _ _ := ⟨_, rfl⟩
  sameSide_ok _ _ := ⟨_, rfl⟩

/-- The next step is a bisection, or a quotient that is accepted. -/
theorem bisects_or_accepts {Raw ρ α : Type} [Scalar α] [Reading Raw ρ α] {tol d e : α}
    {s : Points α ρ} (h : chooseStep Raw tol s = .ok (d, e)) :
    d = halfGap s ∧ e = halfGap s ∨ resolution tol s ≤ Scalar.abs s.e ∧
      ∃ pq, interpolation Raw s = .ok pq ∧
        acceptable (resolution tol s) (halfGap s) s.e (oriented pq) = true ∧
          d = (oriented pq).1 / (oriented pq).2 ∧ e = s.d := by
  unfold chooseStep at h
  dsimp only at h
  split at h
  · rename_i hc
    rw [Bool.and_eq_true, decide_eq_true_iff] at hc
    cases hi : interpolation Raw s with
    | error cause =>
      rw [hi] at h
      cases h
    | ok pq =>
      rw [hi] at h
      by_cases ha : acceptable (resolution tol s) (halfGap s) s.e (oriented pq) = true
      · simp only [bind, Except.bind, ha] at h
        cases h
        exact .inr ⟨hc.1, pq, rfl, ha, rfl, rfl⟩
      · simp only [bind, Except.bind, ha] at h
        cases h
        exact .inl ⟨rfl, rfl⟩
  · cases h
    exact .inl ⟨rfl, rfl⟩

variable {α : Type} [Scalar α] [Reading α α α]

/-- A function that answers each call, possibly by the number of calls before it. -/
def answering (value : Nat → α → α) (shows : Note (α × α) → Except Failure Bool) :
    Caller α α Empty Empty (α × α) where
  value n x := .ok (value n x)
  slope _ := Empty.elim
  shows

def Points.moved (s : Points α α) (x fx d e : α) : Points α α :=
  { s with a := s.b, fa := s.fb, b := x, fb := fx, d, e }

theorem settle_eq_ok_iff {s s' : Points α α} {x fx d e : α} :
    settle α s x fx d e = .ok s' ↔ ∃ same, Reading.sameSide α fx s.fc = .ok same ∧
      s' = if same then (s.moved x fx d e).restarted else s.moved x fx d e := by
  unfold settle
  cases h : Reading.sameSide α fx s.fc with
  | error cause =>
    constructor
    · intro hs
      cases hs
    · rintro ⟨same, hs, -⟩
      cases hs
  | ok same =>
    constructor
    · intro hs
      cases hs
      exact ⟨same, rfl, rfl⟩
    · rintro ⟨same', hs, rfl⟩
      cases hs
      rfl

omit [Scalar α] in
@[simp] theorem Points.ordered_d (s : Points α α) : (s.ordered α).d = s.d := by
  unfold Points.ordered
  split <;> rfl

omit [Scalar α] in
@[simp] theorem Points.ordered_e (s : Points α α) : (s.ordered α).e = s.e := by
  unfold Points.ordered
  split <;> rfl

/-- A pass of the loop: from the points `p` at a test that does not end the search it calls the
function at `x` and comes to the next test with the points `q`. -/
def Pass (value : Nat → α → α) (tol : α) (done : Nat) (p : Points α α) (x : α) (q : Points α α) :
    Prop :=
  isClosed α tol p = false ∧ ∃ d e s, chooseStep α tol p = .ok (d, e) ∧ x = advance tol p d ∧
    settle α p x (value (evaluations done) x) d e = .ok s ∧ q = s.ordered α

/-- The stages of a search between two points: after so many passes and the calls at these points,
it stands at the convergence test. -/
inductive Reached (value : Nat → α → α) (tol lower upper : α) :
    Nat → List α → Points α α → Prop
  | start (h : Reading.productPositive α (value 0 lower) (value 1 upper) = .ok false) :
    Reached value tol lower upper 0 [lower, upper]
      ((Points.start lower upper (value 0 lower) (value 1 upper)).ordered α)
  | pass {done : Nat} {calls : List α} {p q : Points α α} {x : α}
    (hr : Reached value tol lower upper done calls p) (hp : Pass value tol done p x q) :
    Reached value tol lower upper (done + 1) (calls ++ [x]) q

/-- How a search with a limit ends at a stage. -/
inductive EndsAt (limit : Nat) (tol : α) (done : Nat) (p : Points α α) : Ending α α → Prop
  | root (hc : isClosed α tol p = true) (hl : done ≤ limit) :
    EndsAt limit tol done p (.root p.b done)
  | exhausted (hl : done = limit + 1) :
    EndsAt limit tol done p (.exhausted p.a p.b p.fa p.fb done)

variable {value : Nat → α → α} {tol lower upper : α}

theorem Reached.length_calls {done : Nat} {calls : List α} {p : Points α α}
    (h : Reached value tol lower upper done calls p) : calls.length = evaluations done := by
  induction h with
  | start => rfl
  | pass _ _ ih => rw [List.length_append, ih]; rfl

theorem Reached.take_calls {done : Nat} {calls : List α} {p : Points α α}
    (h : Reached value tol lower upper done calls p) : calls.take 2 = [lower, upper] := by
  induction h with
  | start => rfl
  | pass hr _ ih =>
    rw [List.take_append_of_le_length (by rw [hr.length_calls]; exact Nat.le_add_left ..), ih]

theorem Reached.exists_pass {done : Nat} {calls : List α} {p : Points α α}
    (hr : Reached value tol lower upper done calls p) {n : Nat} {x : α}
    (hx : calls[n + 2]? = some x) :
    ∃ p q, Reached value tol lower upper n (calls.take (n + 2)) p ∧ Pass value tol n p x q := by
  induction hr with
  | start _ => cases hx
  | @pass done calls p q y hr hp ih =>
    have hlen : calls.length = done + 2 := hr.length_calls
    by_cases hn : n + 2 < calls.length
    · rw [List.getElem?_append_left hn] at hx
      rw [List.take_append_of_le_length (Nat.le_of_lt hn)]
      exact ih hx
    · have hn' : n + 2 < (calls ++ [y]).length := (List.getElem?_eq_some_iff.1 hx).1
      rw [List.length_append, List.length_singleton] at hn'
      have hnd : n = done := by omega
      subst hnd
      rw [← hlen] at hx ⊢
      rw [List.getElem?_concat_length] at hx
      cases hx
      rw [List.take_left]
      exact ⟨p, q, hr, hp⟩

/-- How a run with a limit can end: at a stage, having made its calls, over its endpoints, or with a
note that cannot be shown. -/
inductive Concluded (value : Nat → α → α) (shows : Note (α × α) → Except Failure Bool)
    (tol lower upper : α) (limit : Nat) (trace : Trace α Empty (α × α) (Ending α α)) : Prop
  | ended {done : Nat} {calls : List α} {p : Points α α} {ending : Ending α α}
    (hr : Reached value tol lower upper done calls p) (he : EndsAt limit tol done p ending)
    (ho : trace.outcome = .ok ending) (hc : trace.evaluations = calls.toArray)
  | refused (h : Reading.productPositive α (value 0 lower) (value 1 upper) = .ok true)
    (ho : trace.outcome = .error .sameSign)
  | hidden {note : Note (α × α)} {cause : Failure} (hs : shows note = .error cause)
    (ho : trace.outcome = .error cause)

variable [PlainReading α]

theorem chooseStep_ok (tol : α) (s : Points α α) : ∃ d e, chooseStep α tol s = .ok (d, e) := by
  obtain ⟨u, hu⟩ := PlainReading.quotient_ok s.fb s.fa
  obtain ⟨v, hv⟩ := PlainReading.quotient_ok s.fa s.fc
  obtain ⟨w, hw⟩ := PlainReading.quotient_ok s.fb s.fc
  have hi : ∃ pq, interpolation α s = .ok pq := by
    unfold interpolation
    rw [hu, hv, hw]
    cases s.a == s.c <;> exact ⟨_, rfl⟩
  obtain ⟨pq, hpq⟩ := hi
  unfold chooseStep
  rw [hpq]
  dsimp only
  split
  · exact ⟨_, _, rfl⟩
  · exact ⟨_, _, rfl⟩

theorem settle_ok (s : Points α α) (x fx d e : α) : ∃ s', settle α s x fx d e = .ok s' := by
  obtain ⟨b, hb⟩ := PlainReading.sameSide_ok fx s.fc
  exact ⟨_, settle_eq_ok_iff.2 ⟨b, hb, rfl⟩⟩

variable {shows : Note (α × α) → Except Failure Bool} {limit : Nat}
  {trace : Trace α Empty (α × α) (Ending α α)} {evals : Array α} {slopes : Array Empty}
  {notes : Array (Note (α × α))}

omit [PlainReading α] in
theorem concluded_report {note : Note (α × α)}
    {next : Search α α Empty Empty (α × α) (Ending α α)}
    (hrun : Search.runFrom (answering value shows) evals slopes notes (.report note next) = trace)
    (h : ∀ notes', Search.runFrom (answering value shows) evals slopes notes' next = trace →
      Concluded value shows tol lower upper limit trace) :
    Concluded value shows tol lower upper limit trace := by
  rw [Search.runFrom] at hrun
  split at hrun
  · exact h _ hrun
  · exact h _ hrun
  · rename_i cause hs
    exact .hidden hs (by rw [← hrun])

theorem runFrom_pass {left done : Nat} {calls : List α} {s s' : Points α α} {x d e : α}
    (hlen : calls.length = evaluations done) (hc : isClosed α tol (s.ordered α) = false)
    (hd : chooseStep α tol (s.ordered α) = .ok (d, e)) (hx : x = advance tol (s.ordered α) d)
    (hs : settle α (s.ordered α) x (value (evaluations done) x) d e = .ok s') :
    Search.runFrom (answering value shows) calls.toArray slopes notes
        (iterate tol (left + 1) done s) =
      Search.runFrom (answering value shows) (calls ++ [x]).toArray slopes notes
        (.report (.iteration (done + 1) (x, value (evaluations done) x))
          (iterate tol left (done + 1) s')) := by
  have hv : (answering value shows).value calls.toArray.size x =
      .ok (value (evaluations done) x) := by
    rw [List.size_toArray, hlen]
    rfl
  rw [iterate]
  dsimp only
  rw [hc, if_neg Bool.false_ne_true, hd, Search.attempt_ok, Search.runFrom, ← hx, hv]
  dsimp only
  rw [PlainReading.accept_eq, Search.attempt_ok, List.push_toArray, hs, Search.attempt_ok]

/-- A run whose endpoints are accepted comes to the loop after two calls. -/
theorem run_search
    (h : Reading.productPositive α (value 0 lower) (value 1 upper) = .ok false) :
    (search limit tol lower upper).run (answering value shows) =
      Search.runFrom (answering value shows) [lower, upper].toArray #[] #[]
        (.report (.heading none)
          (iterate tol (limit + 1) 0 (.start lower upper (value 0 lower) (value 1 upper)))) := by
  change Search.runFrom _ #[lower, upper] #[] #[] (Search.attempt (Reading.ends (value 0 lower)
    (value 1 upper)) _) = _
  rw [PlainReading.ends_eq, Search.attempt_ok]
  dsimp only
  rw [h, Search.attempt_ok, if_neg Bool.false_ne_true]

/-- A run over endpoints that are refused ends after the two calls. -/
theorem run_search_refused
    (h : Reading.productPositive α (value 0 lower) (value 1 upper) = .ok true) :
    (search limit tol lower upper).run (answering value shows) =
      { evaluations := #[lower, upper], outcome := .error .sameSign } := by
  change Search.runFrom _ #[lower, upper] #[] #[] (Search.attempt (Reading.ends (value 0 lower)
    (value 1 upper)) _) = _
  rw [PlainReading.ends_eq, Search.attempt_ok]
  dsimp only
  rw [h, Search.attempt_ok, if_pos rfl]
  rfl

theorem run_search_sameSign
    (h : Reading.productPositive α (value 0 lower) (value 1 upper) = .ok true) :
    ((search limit tol lower upper).run (answering value shows)).outcome = .error .sameSign := by
  rw [run_search_refused h]

/-- A run that stands at a stage ends at a stage unless a note cannot be shown. -/
theorem concluded_iterate {left done : Nat} (hl : left + done = limit + 1) {calls : List α}
    {s : Points α α} (hr : Reached value tol lower upper done calls (s.ordered α))
    (hrun : Search.runFrom (answering value shows) calls.toArray slopes notes
      (iterate tol left done s) = trace) :
    Concluded value shows tol lower upper limit trace := by
  induction left generalizing done calls s notes with
  | zero =>
    rw [iterate] at hrun
    refine concluded_report hrun fun notes' hrun => ?_
    subst hrun
    exact .ended hr (.exhausted (by omega)) rfl rfl
  | succ left ih =>
    cases hc : isClosed α tol (s.ordered α) with
    | true =>
      rw [iterate] at hrun
      dsimp only at hrun
      rw [hc, if_pos rfl] at hrun
      refine concluded_report hrun fun notes' hrun => ?_
      subst hrun
      exact .ended hr (.root hc (by omega)) rfl rfl
    | false =>
      obtain ⟨d, e, hd⟩ := chooseStep_ok tol (s.ordered α)
      obtain ⟨s', hs⟩ := settle_ok (s.ordered α) (advance tol (s.ordered α) d)
        (value (evaluations done) (advance tol (s.ordered α) d)) d e
      rw [runFrom_pass hr.length_calls hc hd rfl hs] at hrun
      refine concluded_report hrun fun notes' hrun => ?_
      exact ih (by omega) (hr.pass ⟨hc, d, e, s', hd, rfl, hs, rfl⟩) hrun

theorem concluded_search
    (hrun : (search limit tol lower upper).run (answering value shows) = trace) :
    Concluded value shows tol lower upper limit trace := by
  obtain ⟨same, h⟩ := PlainReading.productPositive_ok (value 0 lower) (value 1 upper)
  cases same with
  | true => exact .refused h (by rw [← hrun, run_search_sameSign h])
  | false =>
    rw [run_search h] at hrun
    refine concluded_report hrun fun notes' hrun => ?_
    exact concluded_iterate (rfl : limit + 1 + 0 = limit + 1) (.start h) hrun

theorem exists_ended_of_ok {ending : Ending α α}
    (hrun : (search limit tol lower upper).run (answering value shows) = trace)
    (ho : trace.outcome = .ok ending) :
    ∃ done calls p, Reached value tol lower upper done calls p ∧
      EndsAt limit tol done p ending ∧ trace.evaluations = calls.toArray := by
  rcases concluded_search hrun with ⟨hr, he, ho', hc⟩ | ⟨-, ho'⟩ | ⟨-, ho'⟩
  · cases ho.symm.trans ho'
    exact ⟨_, _, _, hr, he, hc⟩
  · cases ho.symm.trans ho'
  · cases ho.symm.trans ho'

theorem failure_cases {cause : Failure}
    (hrun : (search limit tol lower upper).run (answering value shows) = trace)
    (ho : trace.outcome = .error cause) :
    cause = .sameSign ∨ ∃ note, shows note = .error cause := by
  rcases concluded_search hrun with ⟨-, -, ho', -⟩ | ⟨-, ho'⟩ | ⟨hs, ho'⟩
  · cases ho.symm.trans ho'
  · cases ho.symm.trans ho'
    exact .inl rfl
  · cases ho.symm.trans ho'
    exact .inr ⟨_, hs⟩

/-- A search whose endpoints are accepted ends at a stage where every note can be shown. -/
theorem exists_ended
    (h : Reading.productPositive α (value 0 lower) (value 1 upper) = .ok false)
    (shown : Note (α × α) → Bool)
    (hrun : (search limit tol lower upper).run (answering value fun note => .ok (shown note)) =
      trace) :
    ∃ done calls p ending, Reached value tol lower upper done calls p ∧
      EndsAt limit tol done p ending ∧ trace.outcome = .ok ending ∧
      trace.evaluations = calls.toArray := by
  rcases concluded_search hrun with ⟨hr, he, ho, hc⟩ | ⟨h', -⟩ | ⟨hs, -⟩
  · exact ⟨_, _, _, _, hr, he, ho, hc⟩
  · cases h.symm.trans h'
  · cases hs

end RootFinding.Brent
