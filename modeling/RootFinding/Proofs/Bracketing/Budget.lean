import RootFinding.Proofs.Bracketing.Shrinking

/-!
# The budget of a bracketing search

A search over exact fractions runs through phases. While interpolated steps are kept, the step
before the last is at least halved every second pass, and below the resolution it forces a
bisection; a bisection or a new start of the steps halves the bound on the bracket. So the number of
passes is quadratic in the number of halvings that close the bracket.
-/
namespace RootFinding.Brent

/-- A length bounded at first, and by half as much after every second pass. -/
def Halved (bound : Rat) (k : Nat) (w : Rat) : Prop :=
  w * 2 ^ (k / 2) < bound ∨ k < 2 ∧ w ≤ bound

/-- The points after `k` kept interpolations in a bracket that `n` halvings close. -/
structure Phase (tol : Rat) (n k : Nat) (p : Points Rat Rat) : Prop where
  gap : |p.c - p.b| ≤ 2 ^ n * tol
  last : Halved (2 ^ n * tol) (k + 1) |p.d|
  before : Halved (2 ^ n * tol) k |p.e|

/-- The number of passes that `n` halvings allow. -/
def budget (n : Nat) : Nat := n ^ 2 + 4 * n

theorem budget_succ (n : Nat) : budget (n + 1) = budget n + (2 * n + 5) := by
  unfold budget
  ring

theorem le_budget_of_pos {n : Nat} (hn : 0 < n) : 2 * n + 3 ≤ budget n := by
  obtain ⟨m, rfl⟩ : ∃ m, n = m + 1 := ⟨n - 1, by omega⟩
  rw [budget_succ]
  omega

variable {value : Nat → Rat → Rat} {tol lower upper bound w v x : Rat} {n k done : Nat}
  {p q : Points Rat Rat}

namespace Halved

theorem of_le (hk : k < 2) (h : w ≤ bound) : Halved bound k w := .inr ⟨hk, h⟩

theorem le (h : Halved bound k w) (hw : 0 ≤ w) : w ≤ bound := by
  rcases h with h | ⟨-, h⟩
  · have hone : (1 : Rat) ≤ 2 ^ (k / 2) := one_le_pow₀ (by norm_num)
    exact (le_mul_of_one_le_right hw hone).trans h.le
  · exact h

theorem half (h : Halved bound k w) (hv : 2 * v < w) : Halved bound (k + 2) v := by
  have hk : (k + 2) / 2 = k / 2 + 1 := Nat.add_div_right k two_pos
  refine .inl ?_
  rw [hk, pow_succ', ← mul_assoc, mul_comm v]
  rcases h with h | ⟨hk2, h⟩
  · have hpow : (0 : Rat) < 2 ^ (k / 2) := by positivity
    exact (mul_lt_mul_of_pos_right hv hpow).trans h
  · rw [Nat.div_eq_of_lt hk2, pow_zero, mul_one]
    exact hv.trans_le h

/-- A length that stays above half the tolerance has not been halved often. -/
theorem age_le (h : Halved (2 ^ n * tol) k w) (htol : 0 < tol) (hw : tol / 2 ≤ w) :
    k ≤ 2 * n + 1 := by
  rcases h with h | ⟨hk, -⟩
  · have hpow : (0 : Rat) < 2 ^ (k / 2) := by positivity
    have hlt : tol / 2 * 2 ^ (k / 2) < tol / 2 * 2 ^ (n + 1) := by
      calc tol / 2 * 2 ^ (k / 2) ≤ w * 2 ^ (k / 2) := by gcongr
        _ < 2 ^ n * tol := h
        _ = tol / 2 * 2 ^ (n + 1) := by ring
    have hexp : (2 : Rat) ^ (k / 2) < 2 ^ (n + 1) := lt_of_mul_lt_mul_left hlt (by positivity)
    have := (pow_lt_pow_iff_right₀ (by norm_num)).1 hexp
    omega
  · omega

end Halved

theorem half_tol_le_resolution (tol : Rat) (p : Points Rat Rat) : tol / 2 ≤ resolution tol p := by
  rw [resolution_eq]
  have := abs_nonneg p.b
  linarith [div_nonneg this (by norm_num : (0 : Rat) ≤ 2 ^ 51)]

/-- A bracket as narrow as the resolution at one of its ends is closed. -/
theorem isClosed_of_gap_le (htol : 0 < tol) (hq : q.Spans x p.b)
    (h : |x - p.b| ≤ resolution tol p) : isClosed Rat tol q = true := by
  rw [← Bool.not_eq_false, isClosed_eq_false_iff, not_and_or, not_lt]
  left
  rw [abs_halfGap, hq.abs_sub_eq, abs_sub_comm]
  rw [resolution_eq] at h ⊢
  have hb : |p.b| - |x - p.b| ≤ |q.b| := by
    rcases hq with ⟨hb, -⟩ | ⟨hb, -⟩
    · rw [hb, abs_sub_comm]
      linarith [abs_sub_abs_le_abs_sub p.b x]
    · rw [hb]
      linarith [abs_nonneg (x - p.b)]
  have hp := abs_nonneg p.b
  have hx := abs_nonneg (x - p.b)
  norm_num at h ⊢
  linarith

namespace Phase

theorem of_le (hg : |q.c - q.b| ≤ 2 ^ n * tol) (hd : |q.d| ≤ 2 ^ n * tol)
    (he : |q.e| ≤ 2 ^ n * tol) : Phase tol n 0 q :=
  ⟨hg, .of_le one_lt_two hd, .of_le two_pos he⟩

theorem exists_succ (h : Phase tol n k p) (hp : isClosed Rat tol p = false) :
    ∃ m, n = m + 1 := by
  have hr := ((isClosed_eq_false_iff ..).1 hp).1
  have htol1 := half_tol_le_resolution tol p
  rw [abs_halfGap] at hr
  cases n with
  | zero =>
    have hg := h.gap
    rw [pow_zero, one_mul] at hg
    linarith
  | succ m => exact ⟨m, rfl⟩

theorem bisect (h : Phase tol (n + 1) k p) (hx : |x - p.b| = |halfGap p|)
    (hdir : 0 < (x - p.b) * (p.c - p.b))
    (hq : q.Spans x p.c ∧ q.d = halfGap p ∧ q.e = halfGap p ∨
      q.Spans x p.b ∧ q.d = x - p.b ∧ q.e = x - p.b) : Phase tol n 0 q := by
  have hg : |halfGap p| ≤ 2 ^ n * tol := by
    have hgap := h.gap
    rw [pow_succ] at hgap
    rw [abs_halfGap]
    linarith
  rcases hq with ⟨hs, hd, he⟩ | ⟨hs, hd, he⟩
  · refine .of_le ?_ (by rwa [hd]) (by rwa [he])
    have habs := abs_nonneg (p.c - p.b)
    have hrest := abs_sub_of_toward hdir (by rw [hx, abs_halfGap]; linarith)
    rw [sub_sub_sub_cancel_right, hx, abs_halfGap] at hrest
    rw [abs_halfGap] at hg
    rw [hs.abs_sub_eq, hrest]
    linarith
  · rw [← hx] at hg
    exact .of_le (by rwa [hs.abs_sub_eq, abs_sub_comm]) (by rwa [hd]) (by rwa [he])

theorem interpolate {d : Rat} (h : Phase tol n k p) (hd : 2 * |d| < |p.e|)
    (hgap : |q.c - q.b| < |p.c - p.b|) (hqd : q.d = d) (hqe : q.e = p.d) :
    Phase tol n (k + 1) q := by
  refine ⟨hgap.le.trans h.gap, ?_, ?_⟩
  · rw [hqd]
    exact h.before.half hd
  · rw [hqe]
    exact h.last

/-- A new start of the steps after more than a minimum step begins a phase. -/
theorem restart {d : Rat} (h : Phase tol (n + 1) k p) (hd : 2 * |d| < |p.e|)
    (hx : |x - p.b| = |d|) (hq : q.Spans x p.b) (hqd : q.d = x - p.b) (hqe : q.e = x - p.b) :
    Phase tol n 0 q := by
  have he := h.before.le (abs_nonneg p.e)
  rw [pow_succ] at he
  have hlen : |x - p.b| ≤ 2 ^ n * tol := by
    rw [hx]
    linarith
  exact .of_le (by rwa [hq.abs_sub_eq, abs_sub_comm]) (by rwa [hqd]) (by rwa [hqe])

theorem pass_of_bisect (h : Phase tol (n + 1) k p) (htol : 0 < tol) (hp : Pass value tol done p x q)
    (hd : chooseStep Rat tol p = .ok (halfGap p, halfGap p)) : Phase tol n 0 q := by
  have hr := hp.resolution_lt
  have hg : halfGap p ≠ 0 := abs_pos.1 ((resolution_pos htol p).trans hr)
  obtain ⟨d, e, hd', hx, hq⟩ := hp.step_spans
  cases hd.symm.trans hd'
  have hlen := (advance_sub htol hg (mul_self_nonneg (halfGap p))).2
  rw [← hx, max_eq_left hr.le] at hlen
  exact h.bisect hlen (hp.toward htol).1 hq

/-- A pass after which the steps start anew closes the bracket or halves the bound on it. -/
theorem pass_of_restart (h : Phase tol (n + 1) k p) (htol : 0 < tol)
    (hp : Pass value tol done p x q) (hs : q.Spans x p.b) (hqd : q.d = x - p.b)
    (hqe : q.e = x - p.b) :
    k ≤ 2 * n + 3 ∧ isClosed Rat tol q = true ∨ Phase tol n 0 q := by
  have hg : halfGap p ≠ 0 := abs_pos.1 ((resolution_pos htol p).trans hp.resolution_lt)
  obtain ⟨d, e, hd, hx, -⟩ := hp.step_spans
  rcases chooseStep_cases hd with ⟨rfl, rfl⟩ | ⟨hre, rfl, h0, -, hde⟩
  · exact .inr (h.pass_of_bisect htol hp hd)
  · have hlen := (advance_sub htol hg h0).2
    rw [← hx] at hlen
    by_cases hmin : resolution tol p < |d|
    · rw [max_eq_left hmin.le] at hlen
      exact .inr (h.restart hde hlen hs hqd hqe)
    · rw [max_eq_right (not_lt.1 hmin)] at hlen
      exact .inl ⟨h.before.age_le htol ((half_tol_le_resolution tol p).trans hre),
        isClosed_of_gap_le htol hs hlen.le⟩

/-- A pass closes the bracket, keeps an interpolation or halves the bound on the bracket. -/
theorem pass (h : Phase tol (n + 1) k p) (htol : 0 < tol) (hp : Pass value tol done p x q) :
    k ≤ 2 * n + 3 ∧ (isClosed Rat tol q = true ∨ Phase tol (n + 1) (k + 1) q) ∨
      Phase tol n 0 q := by
  obtain ⟨d, e, hd, hx, hq⟩ := hp.step_spans
  rcases hq with ⟨-, hqd, hqe⟩ | ⟨hs, hqd, hqe⟩
  · rcases chooseStep_cases hd with ⟨rfl, rfl⟩ | ⟨hre, rfl, h0, -, hde⟩
    · exact .inr (h.pass_of_bisect htol hp hd)
    · exact .inl ⟨h.before.age_le htol ((half_tol_le_resolution tol p).trans hre),
        .inr (h.interpolate hde (hp.abs_sub_lt htol) hqd hqe)⟩
  · exact (h.pass_of_restart htol hp hs hqd hqe).imp_left (And.imp_right .inl)

end Phase

/-- Each stage of a search is closed within the budget or in a phase that has left enough of it. -/
theorem Reached.phase {calls : List Rat} {N : Nat}
    (hr : Reached value tol lower upper done calls p) (htol : 0 < tol)
    (hN : |upper - lower| ≤ 2 ^ N * tol) :
    isClosed Rat tol p = true ∧ done ≤ budget N ∨
      ∃ n k, Phase tol n k p ∧ k ≤ 2 * n + 2 ∧ k ≤ budget n ∧
        done + budget n ≤ budget N + k := by
  induction hr with
  | start _ =>
    right
    refine ⟨N, 0, .of_le ?_ ?_ ?_, by omega, by omega, by omega⟩
    · rw [(Points.ordered_spans _).abs_sub_eq, abs_sub_comm]
      exact hN
    · rw [Points.ordered_d]
      exact hN
    · rw [Points.ordered_e]
      exact hN
  | pass hr hp ih =>
    rcases ih with ⟨hc, -⟩ | ⟨n, k, hph, hk, -, hb⟩
    · rw [hp.1] at hc
      cases hc
    · obtain ⟨m, rfl⟩ := hph.exists_succ hp.1
      have hpos := le_budget_of_pos (by omega : 0 < m + 1)
      rcases hph.pass htol hp with ⟨hage, hclosed | hnext⟩ | hnext
      · exact .inl ⟨hclosed, by omega⟩
      · exact .inr ⟨m + 1, k + 1, hnext, by omega, by omega, by omega⟩
      · rw [budget_succ] at hb
        exact .inr ⟨m, 0, hnext, by omega, by omega, by omega⟩

/-- No stage is beyond the budget, and one at the end of it is closed. -/
theorem Reached.le_budget {calls : List Rat} {N : Nat}
    (hr : Reached value tol lower upper done calls p) (htol : 0 < tol)
    (hN : |upper - lower| ≤ 2 ^ N * tol) :
    done ≤ budget N ∧ (done = budget N → isClosed Rat tol p = true) := by
  rcases hr.phase htol hN with ⟨hc, hd⟩ | ⟨n, k, hph, hk, hkb, hb⟩
  · exact ⟨hd, fun _ => hc⟩
  · refine ⟨by omega, ?_⟩
    intro hd
    by_contra hc
    obtain ⟨m, rfl⟩ := hph.exists_succ (Bool.not_eq_true _ ▸ hc)
    have := le_budget_of_pos (by omega : 0 < m + 1)
    omega

/-- A search over exact fractions closes its bracket within a number of passes that is quadratic in
the number of halvings that would close it, so a limit of as many passes is never exceeded. No
interpolation on the way divides by zero. -/
theorem search_within_budget {N : Nat} (htol : 0 < tol) (hN : |upper - lower| ≤ 2 ^ N * tol)
    (hsign : ¬0 < value 0 lower * value 1 upper) :
    (∀ done calls p, Reached value tol lower upper done calls p →
      done ≤ N ^ 2 + 4 * N ∧ (done = N ^ 2 + 4 * N → isClosed Rat tol p = true) ∧
        (isClosed Rat tol p = false → |p.fb| < |p.fa| → p.fa ≠ 0 ∧ p.fc ≠ 0)) ∧
    ∀ (limit : Nat) (shown : Note (Rat × Rat) → Bool), N ^ 2 + 4 * N ≤ limit →
      ∃ x iterations, iterations ≤ N ^ 2 + 4 * N ∧
        ((search limit tol lower upper).run
          (answering value fun note => .ok (shown note))).outcome = .ok (.root x iterations) := by
  refine ⟨fun done calls p hr => ?_, ?_⟩
  · obtain ⟨hle, hend⟩ := hr.le_budget htol hN
    exact ⟨hle, hend, hr.divisors_ne_zero⟩
  intro limit shown hl
  have hends : Reading.productPositive Rat (value 0 lower) (value 1 upper) = .ok false :=
    congrArg Except.ok (decide_eq_false hsign)
  obtain ⟨done, calls, p, ending, hr, he, ho, -⟩ := exists_ended hends shown rfl
  have hdone : done ≤ N ^ 2 + 4 * N := (hr.le_budget htol hN).1
  cases he with
  | root hc hle => exact ⟨p.b, done, hdone, ho⟩
  | exhausted hle => omega

/-- The square root of two between zero and two, to within a half: two halvings of the bracket. -/
theorem search_within_budget_square :
    ∃ x iterations, iterations ≤ 12 ∧
      ((search 12 (1 / 2) 0 2).run
        (answering (fun _ (x : Rat) => x * x - 2) fun _ => .ok false)).outcome =
          .ok (.root x iterations) :=
  (search_within_budget (N := 2) (by norm_num) (by norm_num) (by norm_num)).2 12 (fun _ => false)
    (by norm_num)

end RootFinding.Brent
