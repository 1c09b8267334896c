import RootFinding.Proofs.Bracketing.Budget

/-!
# Halvings of a bracketing search

Brent's method over exact fractions beside plain bisection. A pass that bisects, or that brings the
new point to the side of the far end, uses up one of the halvings that close the bracket. An
interpolation that leaves the far end where it is need not: such passes come on top, so a search can
take more passes than there are halvings.
-/
namespace RootFinding.Brent

/-- Whether a search takes its next step by interpolation. -/
def interpolates (Raw : Type) {ρ α : Type} [Scalar α] [Reading Raw ρ α] (tol : α)
    (s : Points α ρ) : Bool :=
  resolution tol s ≤ Scalar.abs s.e && Reading.smaller Raw s.fb s.fa &&
    match interpolation Raw s with
    | .ok pq => acceptable (resolution tol s) (halfGap s) s.e (oriented pq)
    | .error _ => false

/-- A pass to the point `x` creeps if it interpolates and keeps the far end of the bracket. -/
def Creeps (value : Nat → Rat → Rat) (tol : Rat) (done : Nat) (p : Points Rat Rat) (x : Rat) :
    Prop :=
  interpolates Rat tol p = true ∧
    Reading.sameSide Rat (value (evaluations done) x) p.fc = .ok false

/-- The stages of a search between two points, with the number of passes that did not creep and of
those that did. -/
inductive Tallied (value : Nat → Rat → Rat) (tol lower upper : Rat) :
    Nat → Nat → List Rat → Points Rat Rat → Prop
  | start (h : Reading.productPositive Rat (value 0 lower) (value 1 upper) = .ok false) :
    Tallied value tol lower upper 0 0 [lower, upper]
      ((Points.start lower upper (value 0 lower) (value 1 upper)).ordered Rat)
  | halved {m k : Nat} {calls : List Rat} {p q : Points Rat Rat} {x : Rat}
    (ht : Tallied value tol lower upper m k calls p) (hp : Pass value tol (m + k) p x q)
    (hc : ¬Creeps value tol (m + k) p x) : Tallied value tol lower upper (m + 1) k (calls ++ [x]) q
  | crept {m k : Nat} {calls : List Rat} {p q : Points Rat Rat} {x : Rat}
    (ht : Tallied value tol lower upper m k calls p) (hp : Pass value tol (m + k) p x q)
    (hc : Creeps value tol (m + k) p x) : Tallied value tol lower upper m (k + 1) (calls ++ [x]) q

variable {value : Nat → Rat → Rat} {tol lower upper x d e : Rat} {N n m k done : Nat}
  {calls : List Rat} {p q : Points Rat Rat}

theorem Reached.exists_tallied (hr : Reached value tol lower upper done calls p) :
    ∃ m k, done = m + k ∧ Tallied value tol lower upper m k calls p := by
  induction hr with
  | start h => exact ⟨0, 0, rfl, .start h⟩
  | @pass _ _ p _ x _ hp ih =>
    obtain ⟨m, k, rfl, ht⟩ := ih
    by_cases hc : Creeps value tol (m + k) p x
    · exact ⟨m, k + 1, rfl, ht.crept hp hc⟩
    · exact ⟨m + 1, k, Nat.add_right_comm m k 1, ht.halved hp hc⟩

theorem chooseStep_of_not_interpolates (h : interpolates Rat tol p = false) :
    chooseStep Rat tol p = .ok (halfGap p, halfGap p) := by
  unfold interpolates at h
  unfold chooseStep
  dsimp only
  split
  · rename_i hc
    rw [hc, Bool.true_and] at h
    cases hi : interpolation Rat p with
    | error cause =>
      obtain ⟨d, e, hd⟩ := chooseStep_ok tol p
      unfold chooseStep at hd
      dsimp only at hd
      rw [if_pos hc, hi] at hd
      cases hd
    | ok pq =>
      rw [hi] at h
      dsimp only at h
      simp only [bind, Except.bind, h]
      rfl
  · rfl

/-- Where the new value lies on the side of the far end, the steps start anew. -/
theorem Pass.restarts (hp : Pass value tol done p x q)
    (h : Reading.sameSide Rat (value (evaluations done) x) p.fc = .ok true) :
    q.Spans x p.b ∧ q.d = x - p.b ∧ q.e = x - p.b := by
  obtain ⟨-, d, e, s, -, -, hs, rfl⟩ := hp
  obtain ⟨same, hsame, rfl⟩ := settle_eq_ok_iff.1 hs
  cases h.symm.trans hsame
  rw [Points.ordered_d, Points.ordered_e]
  exact ⟨Points.ordered_spans _, rfl, rfl⟩

/-- A pass that does not creep closes the bracket or halves the bound on it. -/
theorem Phase.halve (h : Phase tol (n + 1) k p) (htol : 0 < tol) (hp : Pass value tol done p x q)
    (hc : ¬Creeps value tol done p x) : isClosed Rat tol q = true ∨ Phase tol n 0 q := by
  rcases not_and_or.1 hc with hi | hs
  · exact .inr (h.pass_of_bisect htol hp
      (chooseStep_of_not_interpolates (Bool.not_eq_true _ ▸ hi)))
  · obtain ⟨same, hsame⟩ := PlainReading.sameSide_ok (value (evaluations done) x) p.fc
    have htrue : same = true := by
      cases same with
      | true => rfl
      | false => exact absurd hsame hs
    obtain ⟨hspan, hqd, hqe⟩ := hp.restarts (htrue ▸ hsame)
    exact (h.pass_of_restart htol hp hspan hqd hqe).imp_left And.right

/-- At each stage the passes that did not creep have used up so many of the halvings. -/
theorem Tallied.phase (ht : Tallied value tol lower upper m k calls p) (htol : 0 < tol)
    (hN : |upper - lower| ≤ 2 ^ N * tol) :
    isClosed Rat tol p = true ∧ m ≤ N ∨ ∃ n age, Phase tol n age p ∧ m + n ≤ N := by
  induction ht with
  | start _ =>
    refine .inr ⟨N, 0, .of_le ?_ ?_ ?_, by omega⟩
    · rw [(Points.ordered_spans _).abs_sub_eq, abs_sub_comm]
      exact hN
    · rw [Points.ordered_d]
      exact hN
    · rw [Points.ordered_e]
      exact hN
  | halved _ hp hc ih =>
    rcases ih with ⟨hclosed, -⟩ | ⟨n, age, hph, hle⟩
    · cases hp.1.symm.trans hclosed
    · obtain ⟨j, rfl⟩ := hph.exists_succ hp.1
      rcases hph.halve htol hp hc with hclosed | hnext
      · exact .inl ⟨hclosed, by omega⟩
      · exact .inr ⟨j, 0, hnext, by omega⟩
  | crept _ hp _ ih =>
    rcases ih with ⟨hclosed, -⟩ | ⟨n, age, hph, hle⟩
    · cases hp.1.symm.trans hclosed
    · obtain ⟨j, rfl⟩ := hph.exists_succ hp.1
      rcases hph.pass htol hp with ⟨-, hclosed | hnext⟩ | hnext
      · exact .inl ⟨hclosed, by omega⟩
      · exact .inr ⟨j + 1, age + 1, hnext, hle⟩
      · exact .inr ⟨j, 0, hnext, by omega⟩

theorem Tallied.le_halvings (ht : Tallied value tol lower upper m k calls p) (htol : 0 < tol)
    (hN : |upper - lower| ≤ 2 ^ N * tol) : m ≤ N := by
  rcases ht.phase htol hN with ⟨-, hm⟩ | ⟨n, -, -, hm⟩
  · exact hm
  · omega

/-- A search over exact fractions takes at most as many passes as bisection, apart from those that
creep. With a sufficient limit it reports all of them. -/
theorem search_within_halvings (htol : 0 < tol) (hN : |upper - lower| ≤ 2 ^ N * tol)
    (hsign : ¬0 < value 0 lower * value 1 upper) (limit : Nat)
    (shown : Note (Rat × Rat) → Bool) :
    ∃ m k calls p ending, Tallied value tol lower upper m k calls p ∧ m ≤ N ∧
      EndsAt limit tol (m + k) p ending ∧
      ((search limit tol lower upper).run (answering value fun note => .ok (shown note))).outcome =
        .ok ending ∧
      ((search limit tol lower upper).run
        (answering value fun note => .ok (shown note))).evaluations = calls.toArray ∧
      (N ^ 2 + 4 * N ≤ limit → ending = .root p.b (m + k)) := by
  have hends : Reading.productPositive Rat (value 0 lower) (value 1 upper) = .ok false :=
    congrArg Except.ok (decide_eq_false hsign)
  obtain ⟨done, calls, p, ending, hr, he, ho, hc⟩ := exists_ended hends shown rfl
  obtain ⟨m, k, rfl, ht⟩ := hr.exists_tallied
  refine ⟨m, k, calls, p, ending, ht, ht.le_halvings htol hN, he, ho, hc, fun hl => ?_⟩
  have hdone : m + k ≤ N ^ 2 + 4 * N := (hr.le_budget htol hN).1
  cases he with
  | root _ _ => rfl
  | exhausted hexh => omega

/-- A root of a parabola between zero and two, to within one: a single halving of the bracket. -/
theorem search_within_halvings_parabola :
    ∃ m k x, m ≤ 1 ∧ ((search 5 1 0 2).run
      (answering (fun _ (x : Rat) => x * x - 1) fun _ => .ok false)).outcome =
        .ok (.root x (m + k)) := by
  obtain ⟨m, k, -, p, ending, -, hm, -, ho, -, hroot⟩ :=
    @search_within_halvings (fun _ (x : Rat) => x * x - 1) 1 0 2 1 (by norm_num) (by norm_num)
      (by norm_num) 5 fun _ => false
  exact ⟨m, k, p.b, hm, hroot (by norm_num) ▸ ho⟩

def reportedRoot : Except Failure (Ending Rat Rat) → Option (Rat × Nat)
  | .ok (.root x iterations) => some (x, iterations)
  | _ => none

theorem eq_root_of_reportedRoot {outcome : Except Failure (Ending Rat Rat)}
    (h : reportedRoot outcome = some (x, n)) : outcome = .ok (.root x n) := by
  unfold reportedRoot at h
  split at h
  · cases h
    rfl
  · cases h

/-- One halving closes the bracket from zero to two to within one, but the search for the root of a
parabola first creeps by half of the tolerance and takes two passes. -/
theorem slower_than_bisection :
    (|(2 : Rat) - 0| ≤ 2 ^ 1 * 1 ∧ ¬|(2 : Rat) - 0| ≤ 2 ^ 0 * 1) ∧
      (0 * 0 - 1 : Rat) * (2 * 2 - 1) < 0 ∧
      ∃ iterations, ((search 5 1 0 2).run
        (answering (fun _ (x : Rat) => x * x - 1) fun _ => .ok false)).outcome =
          .ok (.root (5 / 4) iterations) ∧ ¬iterations ≤ 1 := by
  refine ⟨⟨by norm_num, by norm_num⟩, by norm_num, 2, ?_, by norm_num⟩
  exact eq_root_of_reportedRoot (by decide +kernel)

end RootFinding.Brent
