import RootFinding.Proofs.Bracketing.Passes
import Mathlib.Tactic.Linarith
import Mathlib.Tactic.Ring
import Mathlib.Tactic.FieldSimp
import Mathlib.Tactic.Positivity
import Mathlib.Algebra.Order.Ring.Rat
import Mathlib.Algebra.Order.Field.Basic
import Mathlib.Order.Interval.Set.UnorderedInterval

/-!
# The shrinking bracket

Over exact fractions each pass moves from the best estimate toward the far end, by no less than the
resolution and by less than three quarters of the gap. The new point and one of the two old ends
are the next bracket.
-/
namespace RootFinding.Brent

theorem abs_eq (x : Rat) : Scalar.abs x = |x| := by
  change (if x < 0 then -x else x) = |x|
  split_ifs with h
  · rw [abs_of_neg h]
  · rw [abs_of_nonneg (not_lt.1 h)]

theorem halfGap_eq (p : Points Rat Rat) : halfGap p = (p.c - p.b) / 2 := by
  change (1 / 2 : Rat) * (p.c - p.b) = _
  ring

theorem resolution_eq (tol : Rat) (p : Points Rat Rat) :
    resolution tol p = |p.b| / 2 ^ 51 + tol / 2 := by
  change (2 : Rat) * (1 / 2 ^ 52) * Scalar.abs p.b + (1 / 2 : Rat) * tol = _
  rw [abs_eq]
  ring

theorem isClosed_eq_false_iff (tol : Rat) (p : Points Rat Rat) :
    isClosed Rat tol p = false ↔ resolution tol p < |halfGap p| ∧ p.fb ≠ 0 := by
  change (decide (Scalar.abs (halfGap p) ≤ resolution tol p) || p.fb == 0) = false ↔ _
  rw [abs_eq]
  simp

theorem oriented_nonneg (pq : Rat × Rat) : 0 ≤ (oriented pq).1 := by
  obtain ⟨u, v⟩ := pq
  change 0 ≤ (if (0 : Rat) < u then (u, -v) else (-u, v)).1
  split_ifs with h
  · exact h.le
  · change 0 ≤ -u
    linarith

theorem acceptable_iff (tol1 xm e u v : Rat) :
    acceptable tol1 xm e (u, v) = true ↔
      2 * u < 3 * xm * v - |tol1 * v| ∧ u < |e| / 2 * |v| := by
  change (decide ((2 : Rat) * u < 3 * xm * v - Scalar.abs (tol1 * v)) &&
    decide (u < Scalar.abs ((1 / 2 : Rat) * e * v))) = true ↔ _
  have he : |(1 / 2 : Rat) * e * v| = |e| / 2 * |v| := by
    rw [abs_mul, abs_mul, abs_of_pos (by norm_num : (0 : Rat) < 1 / 2)]
    ring
  rw [abs_eq, abs_eq, he, Bool.and_eq_true, decide_eq_true_iff, decide_eq_true_iff]

theorem denominator_ne_zero {tol1 xm e u v : Rat} (hu : 0 ≤ u)
    (h : acceptable tol1 xm e (u, v) = true) : v ≠ 0 := by
  rintro rfl
  have he := ((acceptable_iff ..).1 h).2
  rw [abs_zero, mul_zero] at he
  exact absurd he (not_lt.2 hu)

theorem quotient_bounds {tol1 xm e u v : Rat} (hu : 0 ≤ u)
    (h : acceptable tol1 xm e (u, v) = true) :
    0 ≤ u / v * xm ∧ 2 * |u / v| < 3 * |xm| ∧ 2 * |u / v| < |e| := by
  obtain ⟨h3, he⟩ := (acceptable_iff ..).1 h
  have hv : 0 < |v| := abs_pos.2 (denominator_ne_zero hu h)
  have hxv : 2 * u < 3 * (xm * v) := by linarith [abs_nonneg (tol1 * v)]
  have hxv' : 2 * u < 3 * (|xm| * |v|) := by
    rw [← abs_mul]
    linarith [le_abs_self (xm * v)]
  have habs : |u / v| = u / |v| := by rw [abs_div, abs_of_nonneg hu]
  refine ⟨?_, ?_, ?_⟩
  · have hs : u / v * xm = u * (xm * v) / (v * v) := by
      have : v ≠ 0 := abs_pos.1 hv
      field_simp
    rw [hs]
    exact div_nonneg (mul_nonneg hu (by linarith)) (mul_self_nonneg v)
  · rw [habs, ← mul_div_assoc, div_lt_iff₀ hv]
    linarith
  · rw [habs, ← mul_div_assoc, div_lt_iff₀ hv]
    linarith

/-- The next step is a bisection, or an interpolated one toward the far end. -/
theorem chooseStep_cases {tol d e : Rat} {p : Points Rat Rat}
    (h : chooseStep Rat tol p = .ok (d, e)) :
    d = halfGap p ∧ e = halfGap p ∨
      resolution tol p ≤ |p.e| ∧ e = p.d ∧ 0 ≤ d * halfGap p ∧
        2 * |d| < 3 * |halfGap p| ∧ 2 * |d| < |p.e| := by
  rcases bisects_or_accepts h with hb | ⟨hre, pq, -, ha, rfl, rfl⟩
  · exact .inl hb
  · rw [abs_eq] at hre
    exact .inr ⟨hre, rfl, quotient_bounds (oriented_nonneg pq) ha⟩

variable {value : Nat → Rat → Rat} {tol lower upper x y d e : Rat} {done : Nat}
  {p q : Points Rat Rat}

theorem resolution_pos (htol : 0 < tol) (p : Points Rat Rat) : 0 < resolution tol p := by
  rw [resolution_eq]
  positivity

/-- A step of length `d` in the direction of the far end. -/
theorem advance_sub (htol : 0 < tol) (hg : halfGap p ≠ 0) (h : 0 ≤ d * halfGap p) :
    0 < (advance tol p d - p.b) * halfGap p ∧
      |advance tol p d - p.b| = max |d| (resolution tol p) := by
  have hr := resolution_pos htol p
  unfold advance
  dsimp only
  rw [abs_eq]
  by_cases hd : resolution tol p < |d|
  · rw [if_pos hd, add_sub_cancel_left, max_eq_left hd.le]
    refine ⟨lt_of_le_of_ne h ?_, rfl⟩
    have : d ≠ 0 := abs_pos.1 (hr.trans hd)
    positivity
  · rw [if_neg hd, max_eq_right (not_lt.1 hd)]
    by_cases hc : 0 < halfGap p
    · rw [if_pos hc, add_sub_cancel_left, abs_of_pos hr]
      exact ⟨mul_pos hr hc, rfl⟩
    · rw [if_neg hc, sub_sub_cancel_left, abs_neg, abs_of_pos hr]
      exact ⟨mul_pos_of_neg_of_neg (neg_lt_zero.2 hr) (lt_of_le_of_ne (not_lt.1 hc) hg), rfl⟩

/-- The ends of the bracket, in either order. -/
def Points.Spans (q : Points Rat Rat) (x y : Rat) : Prop :=
  q.b = x ∧ q.c = y ∨ q.b = y ∧ q.c = x

theorem Points.ordered_spans (s : Points Rat Rat) : (s.ordered Rat).Spans s.b s.c := by
  unfold Points.ordered
  split
  · exact .inr ⟨rfl, rfl⟩
  · exact .inl ⟨rfl, rfl⟩

theorem Points.ordered_least (s : Points Rat Rat) :
    |(s.ordered Rat).fb| ≤ |(s.ordered Rat).fc| := by
  have hs : Reading.smaller Rat s.fc s.fb = true ↔ |s.fc| < |s.fb| := by
    rw [← abs_eq, ← abs_eq]
    exact decide_eq_true_iff
  unfold Points.ordered
  by_cases h : |s.fc| < |s.fb|
  · rw [if_pos (hs.2 h)]
    exact h.le
  · rw [if_neg (mt hs.1 h)]
    exact not_lt.1 h

theorem Reached.divisors_ne_zero {calls : List Rat}
    (hr : Reached value tol lower upper done calls p) (hopen : isClosed Rat tol p = false)
    (hless : |p.fb| < |p.fa|) : p.fa ≠ 0 ∧ p.fc ≠ 0 := by
  have hleast : |p.fb| ≤ |p.fc| := by
    cases hr with
    | start _ => exact Points.ordered_least _
    | pass _ hp =>
      obtain ⟨-, d, e, s, -, -, -, rfl⟩ := hp
      exact Points.ordered_least s
  have hb := abs_pos.2 ((isClosed_eq_false_iff ..).1 hopen).2
  exact ⟨abs_pos.1 (hb.trans hless), abs_pos.1 (hb.trans_le hleast)⟩

namespace Points.Spans

theorem uIcc_eq (h : q.Spans x y) : Set.uIcc q.b q.c = Set.uIcc x y := by
  rcases h with ⟨hb, hc⟩ | ⟨hb, hc⟩
  · rw [hb, hc]
  · rw [hb, hc, Set.uIcc_comm]

theorem uIoo_eq (h : q.Spans x y) : Set.uIoo q.b q.c = Set.uIoo x y := by
  rcases h with ⟨hb, hc⟩ | ⟨hb, hc⟩
  · rw [hb, hc]
  · rw [hb, hc, Set.uIoo_comm]

theorem abs_sub_eq (h : q.Spans x y) : |q.c - q.b| = |y - x| := by
  rcases h with ⟨hb, hc⟩ | ⟨hb, hc⟩
  · rw [hb, hc]
  · rw [hb, hc, abs_sub_comm]

end Points.Spans

/-- A pass keeps one end of the bracket: the far one, or the best one, and then the lengths of the
steps start anew. -/
theorem Pass.step_spans (hp : Pass value tol done p x q) :
    ∃ d e, chooseStep Rat tol p = .ok (d, e) ∧ x = advance tol p d ∧
      (q.Spans x p.c ∧ q.d = d ∧ q.e = e ∨
        q.Spans x p.b ∧ q.d = x - p.b ∧ q.e = x - p.b) := by
  obtain ⟨-, d, e, s, hd, hx, hs, rfl⟩ := hp
  refine ⟨d, e, hd, hx, ?_⟩
  obtain ⟨same, -, rfl⟩ := settle_eq_ok_iff.1 hs
  rw [Points.ordered_d, Points.ordered_e]
  cases same with
  | false => exact .inl ⟨Points.ordered_spans _, rfl, rfl⟩
  | true => exact .inr ⟨Points.ordered_spans _, rfl, rfl⟩

theorem Pass.resolution_lt (hp : Pass value tol done p x q) : resolution tol p < |halfGap p| :=
  ((isClosed_eq_false_iff ..).1 hp.1).1

theorem abs_halfGap (p : Points Rat Rat) : |halfGap p| = |p.c - p.b| / 2 := by
  rw [halfGap_eq, abs_div, abs_two]

/-- The new point of a pass lies toward the far end, by no less than the resolution and by less than
three quarters of the gap. -/
theorem Pass.toward (hp : Pass value tol done p x q) (htol : 0 < tol) :
    0 < (x - p.b) * (p.c - p.b) ∧ resolution tol p ≤ |x - p.b| ∧
      4 * |x - p.b| < 3 * |p.c - p.b| := by
  have hr := hp.resolution_lt
  have hr0 := resolution_pos htol p
  have hg : halfGap p ≠ 0 := abs_pos.1 (hr0.trans hr)
  obtain ⟨d, e, hd, rfl, -⟩ := hp.step_spans
  have hstep : 0 ≤ d * halfGap p ∧ 2 * |d| < 3 * |halfGap p| := by
    rcases chooseStep_cases hd with ⟨rfl, -⟩ | ⟨-, -, h0, h3, -⟩
    · exact ⟨mul_self_nonneg _, by linarith⟩
    · exact ⟨h0, h3⟩
  obtain ⟨hdir, hlen⟩ := advance_sub htol hg hstep.1
  have hgap := abs_halfGap p
  refine ⟨?_, hlen ▸ le_max_right _ _, ?_⟩
  · rw [halfGap_eq] at hdir
    linarith
  · rw [hlen]
    rcases max_choice |d| (resolution tol p) with h | h <;> rw [h] <;> linarith

theorem abs_sub_of_toward {u g : Rat} (h : 0 < u * g) (hu : |u| ≤ |g|) : |g - u| = |g| - |u| := by
  rcases pos_and_pos_or_neg_and_neg_of_mul_pos h with ⟨h1, h2⟩ | ⟨h1, h2⟩
  · rw [abs_of_pos h1, abs_of_pos h2] at hu ⊢
    rw [abs_of_nonneg (by linarith)]
  · rw [abs_of_neg h1, abs_of_neg h2] at hu ⊢
    rw [abs_of_nonpos (by linarith)]
    ring

theorem Pass.mem_uIoo (hp : Pass value tol done p x q) (htol : 0 < tol) :
    x ∈ Set.uIoo p.b p.c := by
  obtain ⟨hdir, -, hlen⟩ := hp.toward htol
  have habs := abs_nonneg (x - p.b)
  have hle : |x - p.b| ≤ |p.c - p.b| := by linarith
  have hrest := abs_sub_of_toward hdir hle
  rcases pos_and_pos_or_neg_and_neg_of_mul_pos hdir with ⟨h1, h2⟩ | ⟨h1, h2⟩
  · rw [abs_of_pos h1, abs_of_pos h2] at hlen
    exact Set.mem_uIoo_of_lt (by linarith) (by linarith)
  · rw [abs_of_neg h1, abs_of_neg h2] at hlen
    exact Set.mem_uIoo_of_gt (by linarith) (by linarith)

/-- The next bracket runs from the new point to one of the old ends. -/
theorem Pass.exists_spans (hp : Pass value tol done p x q) :
    ∃ y, (y = p.c ∨ y = p.b) ∧ q.Spans x y := by
  obtain ⟨d, e, -, -, ⟨h, -⟩ | ⟨h, -⟩⟩ := hp.step_spans
  · exact ⟨p.c, .inl rfl, h⟩
  · exact ⟨p.b, .inr rfl, h⟩

theorem mem_uIcc_of_end (hy : y = p.c ∨ y = p.b) : y ∈ Set.uIcc p.b p.c := by
  rcases hy with rfl | rfl
  · exact Set.right_mem_uIcc
  · exact Set.left_mem_uIcc

theorem Pass.uIcc_subset (hp : Pass value tol done p x q) (htol : 0 < tol) :
    Set.uIcc q.b q.c ⊆ Set.uIcc p.b p.c := by
  obtain ⟨y, hy, hq⟩ := hp.exists_spans
  rw [hq.uIcc_eq]
  exact Set.uIcc_subset_uIcc (Set.uIoo_subset_uIcc_self (hp.mem_uIoo htol)) (mem_uIcc_of_end hy)

theorem Pass.uIoo_subset (hp : Pass value tol done p x q) (htol : 0 < tol) :
    Set.uIoo q.b q.c ⊆ Set.uIoo p.b p.c := by
  obtain ⟨y, hy, hq⟩ := hp.exists_spans
  rw [hq.uIoo_eq]
  exact Set.uIoo_subset_Ioo (Set.uIoo_subset_uIcc_self (hp.mem_uIoo htol)) (mem_uIcc_of_end hy)

theorem Pass.abs_sub_lt (hp : Pass value tol done p x q) (htol : 0 < tol) :
    |q.c - q.b| < |p.c - p.b| := by
  obtain ⟨hdir, hr, hlen⟩ := hp.toward htol
  have hr0 := resolution_pos htol p
  obtain ⟨y, rfl | rfl, hq⟩ := hp.exists_spans
  · have hrest := abs_sub_of_toward hdir (by linarith)
    rw [sub_sub_sub_cancel_right] at hrest
    rw [hq.abs_sub_eq, hrest]
    linarith
  · rw [hq.abs_sub_eq, abs_sub_comm]
    linarith

theorem Pass.notMem_uIoo (hp : Pass value tol done p x q) : x ∉ Set.uIoo q.b q.c := by
  obtain ⟨y, -, hq⟩ := hp.exists_spans
  rw [hq.uIoo_eq]
  exact Set.left_notMem_uIoo

/-- The calls made so far: each at a point of its own between the bounds, and none of them inside
the bracket, which lies between the bounds as well. -/
structure Explored (lower upper : Rat) (calls : List Rat) (p : Points Rat Rat) : Prop where
  nodup : calls.Nodup
  within : ∀ x ∈ calls, x ∈ Set.uIcc lower upper
  outside : ∀ x ∈ calls, x ∉ Set.uIoo p.b p.c
  inside : Set.uIcc p.b p.c ⊆ Set.uIcc lower upper

theorem Explored.start (h : lower ≠ upper) (fl fu : Rat) :
    Explored lower upper [lower, upper] ((Points.start lower upper fl fu).ordered Rat) := by
  have hs : ((Points.start lower upper fl fu).ordered Rat).Spans upper lower :=
    Points.ordered_spans _
  refine ⟨by simpa using h, ?_, ?_, ?_⟩
  · simp
  · rw [hs.uIoo_eq]
    simp
  · rw [hs.uIcc_eq, Set.uIcc_comm]

theorem Explored.pass {calls : List Rat} (he : Explored lower upper calls p)
    (hp : Pass value tol done p x q) (htol : 0 < tol) : Explored lower upper (calls ++ [x]) q := by
  have hx := hp.mem_uIoo htol
  refine ⟨?_, ?_, ?_, (hp.uIcc_subset htol).trans he.inside⟩
  · have hnew : x ∉ calls := fun hm => he.outside x hm hx
    exact List.nodup_append.2 ⟨he.nodup, List.nodup_singleton x, by
      rintro y hy z hz rfl
      exact hnew (List.mem_singleton.1 hz ▸ hy)⟩
  · intro y hy
    rcases List.mem_append.1 hy with hy | hy
    · exact he.within y hy
    · rw [List.mem_singleton.1 hy]
      exact he.inside (Set.uIoo_subset_uIcc_self hx)
  · intro y hy
    rcases List.mem_append.1 hy with hy | hy
    · exact fun hm => he.outside y hy (hp.uIoo_subset htol hm)
    · rw [List.mem_singleton.1 hy]
      exact hp.notMem_uIoo

theorem Reached.explored {calls : List Rat} (hr : Reached value tol lower upper done calls p)
    (htol : 0 < tol) (h : lower ≠ upper) : Explored lower upper calls p := by
  induction hr with
  | start _ => exact .start h _ _
  | pass _ hp ih => exact ih.pass hp htol

/-- A new point strictly inside the bracket and clear of the best estimate, after which the bracket
lies inside the old one and is narrower. -/
structure Shrinks (tol : Rat) (p : Points Rat Rat) (x : Rat) (q : Points Rat Rat) : Prop where
  between : x ∈ Set.uIoo p.b p.c
  clear : resolution tol p ≤ |x - p.b|
  nested : Set.uIcc q.b q.c ⊆ Set.uIcc p.b p.c
  narrower : |q.c - q.b| < |p.c - p.b|

theorem Pass.shrinks (hp : Pass value tol done p x q) (htol : 0 < tol) : Shrinks tol p x q :=
  ⟨hp.mem_uIoo htol, (hp.toward htol).2.1, hp.uIcc_subset htol, hp.abs_sub_lt htol⟩

/-- Every run calls the function at its endpoints and then only inside ever narrower brackets, never
twice at one point. -/
theorem search_shrinks (htol : 0 < tol) (h : lower ≠ upper)
    (hsign : ¬0 < value 0 lower * value 1 upper) (limit : Nat)
    (shown : Note (Rat × Rat) → Bool) {calls : List Rat}
    (hcalls : ((search limit tol lower upper).run
      (answering value fun note => .ok (shown note))).evaluations.toList = calls) :
    calls.take 2 = [lower, upper] ∧
      (∀ n x, calls[n + 2]? = some x → ∃ p q,
        Reached value tol lower upper n (calls.take (n + 2)) p ∧ Pass value tol n p x q ∧
          Shrinks tol p x q) ∧
      (∀ x ∈ calls, x ∈ Set.uIcc lower upper) ∧ calls.Nodup := by
  have hends : Reading.productPositive Rat (value 0 lower) (value 1 upper) = .ok false :=
    congrArg Except.ok (decide_eq_false hsign)
  obtain ⟨done, calls', p, ending, hr, -, -, he⟩ := exists_ended hends shown rfl
  have heq : calls = calls' := by rw [← hcalls, he]
  subst heq
  have hex := hr.explored htol h
  refine ⟨hr.take_calls, ?_, hex.within, hex.nodup⟩
  intro n x hx
  obtain ⟨p, q, hr', hp⟩ := hr.exists_pass hx
  exact ⟨p, q, hr', hp, hp.shrinks htol⟩

/-- The second step of a search for the square root of two, a secant. -/
theorem search_shrinks_square :
    ∃ p q, Pass (fun _ x => x * x - 2) (1 / 1000) 1 p (4 / 3) q ∧
      Shrinks (1 / 1000) p (4 / 3) q := by
  have hcalls : ((search 1 (1 / 1000) 0 2).run
      (answering (fun _ (x : Rat) => x * x - 2) fun _ => .ok false)).evaluations.toList =
        [0, 2, 1, 4 / 3] := by
    decide +kernel
  obtain ⟨-, hpass, -⟩ := search_shrinks (by norm_num) (by norm_num) (by norm_num) 1
    (fun _ => false) hcalls
  obtain ⟨p, q, -, hp, hs⟩ := hpass 1 (4 / 3) rfl
  exact ⟨p, q, hp, hs⟩

end RootFinding.Brent
