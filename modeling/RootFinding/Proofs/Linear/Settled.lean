import Mathlib.Data.List.Perm.Basic
import Mathlib.Tactic.FieldSimp
import Mathlib.Tactic.LinearCombination
import RootFinding.Linear.Solve
import RootFinding.Proofs.Bracketing.Shrinking
import RootFinding.Proofs.FixedPoint.Vectors

/-!
# Systems of equations over exact fractions

Elimination and substitution take an unknown out of the other equations. That keeps the solutions,
with the equation for the unknown beside them, and those of the equations without their right-hand
sides. Over exact fractions each way to solve a system therefore gives its only solution, or finds
that some vector besides zero is mapped to zero.
-/
namespace RootFinding

namespace Vec
variable (a b : ℚ) (x y z : List ℚ)

theorem dot_eq_sum : dot x y = (List.zipWith (· * ·) x y).sum := sum_eq _

@[simp] theorem dot_nil_left : dot [] y = (0 : ℚ) := rfl

@[simp] theorem dot_cons : dot (a :: x) (b :: y) = a * b + dot x y := by
  simp [dot_eq_sum]

theorem dot_of_zeros {x : List ℚ} (h : ∀ a ∈ x, a = 0) : dot x y = 0 := by
  induction x generalizing y with
  | nil => rfl
  | cons a x ih =>
    cases y with
    | nil => rfl
    | cons b y =>
      rw [dot_cons, h a List.mem_cons_self, ih y fun c hc => h c (List.mem_cons_of_mem a hc)]
      ring

theorem dot_replicate_zero (n : ℕ) : dot x (List.replicate n 0) = 0 := by
  induction n generalizing x with
  | zero => cases x <;> rfl
  | succ n ih =>
    cases x with
    | nil => rfl
    | cons a x => rw [List.replicate_succ, dot_cons, ih, mul_zero, add_zero]

theorem dot_sub_scale (m : ℚ) {x z : List ℚ} (h : x.length = z.length) :
    dot (sub x (scale m z)) y = dot x y - m * dot z y := by
  induction x generalizing y z with
  | nil =>
    obtain rfl := List.length_eq_zero_iff.1 h.symm
    simp [sub]
  | cons a x ih =>
    cases z with
    | nil => cases h
    | cons c z =>
      cases y with
      | nil => simp [dot, mul, sum]
      | cons b y =>
        have ih := ih y (Nat.succ.inj h)
        simp only [sub, scale] at ih ⊢
        rw [List.map_cons, List.zipWith_cons_cons, dot_cons, dot_cons, dot_cons, ih]
        ring

end Vec

namespace Linear
open Vec

theorem remainder_eq (r : ℚ) (ps xs : List ℚ) : remainder r ps xs = r - dot ps xs := by
  induction ps generalizing r xs with
  | nil => simp [remainder]
  | cons a ps ih =>
    cases xs with
    | nil => simp [remainder, dot, mul, sum]
    | cons b xs =>
      have ih := ih (r - a * b) xs
      simp only [remainder, List.zip_cons_cons, List.foldl_cons] at ih ⊢
      rw [ih, dot_cons]
      ring

theorem remainderFromLast_eq (r : ℚ) (ps xs : List ℚ) :
    remainderFromLast r ps xs = r - dot ps xs := by
  induction ps generalizing xs with
  | nil => simp [remainderFromLast]
  | cons a ps ih =>
    cases xs with
    | nil => simp [remainderFromLast, dot, mul, sum]
    | cons b xs =>
      have ih := ih xs
      simp only [remainderFromLast, List.zip_cons_cons, List.foldr_cons] at ih ⊢
      rw [ih, dot_cons]
      ring

/-- A list of numbers that solves equations with a multiple of their right-hand sides: a solution
for one, and a list that is mapped to zero for none of them. -/
def Solves (c : ℚ) (rows : List (Equation ℚ)) (y : List ℚ) : Prop :=
  ∀ row ∈ rows, dot row.1 y = c * row.2

/-- What solving equations with `n` unknowns comes to: their only solution, or the finding that some
numbers that are not all zero are mapped to zero. -/
inductive Settled (n : ℕ) (rows : List (Equation ℚ)) : Except Failure (List ℚ) → Prop
  | unique {x} (hx : x.length = n) (h : ∀ y, y.length = n → (Solves 1 rows y ↔ y = x)) :
    Settled n rows (.ok x)
  | singular {y} (hy : y.length = n) (hne : ∃ a ∈ y, a ≠ 0) (h : Solves 0 rows y) :
    Settled n rows (.error .singular)

variable {n : ℕ} {rows reduced others : List (Equation ℚ)} {p r : ℚ} {ps : List ℚ}
  {result : Except Failure (List ℚ)}

theorem Settled.of_perm (h : Settled n rows result) (hp : rows.Perm others) :
    Settled n others result := by
  have hiff : ∀ c y, Solves c rows y ↔ Solves c others y := by
    intro c y
    unfold Solves
    simp only [hp.mem_iff]
  cases h with
  | unique hx h => exact .unique hx fun y hy => (hiff 1 y).symm.trans (h y hy)
  | singular hy hne h => exact .singular hy hne ((hiff 0 _).1 h)

/-- Where the first unknown follows from the others by one equation and the others from equations
without it, these settle all. -/
theorem Settled.cons (h : Settled n reduced result) (hp : p ≠ 0)
    (hred : ∀ c y₀ y, y.length = n →
      (Solves c rows (y₀ :: y) ↔ p * y₀ + dot ps y = c * r ∧ Solves c reduced y)) :
    Settled (n + 1) rows (do let xs ← result; return (r - dot ps xs) / p :: xs) := by
  cases h with
  | @unique x hx h =>
    refine .unique (by simp [hx]) ?_
    intro y hy
    obtain ⟨y₀, y, rfl⟩ := List.exists_of_length_succ y hy
    have hy := Nat.succ.inj hy
    rw [hred 1 y₀ y hy, h y hy, List.cons.injEq]
    constructor
    · rintro ⟨hfirst, rfl⟩
      refine ⟨?_, rfl⟩
      field_simp
      linear_combination hfirst
    · rintro ⟨rfl, rfl⟩
      refine ⟨?_, rfl⟩
      field_simp
      ring
  | @singular y hy hne h =>
    refine .singular (y := -dot ps y / p :: y) (by simp [hy]) ?_ ?_
    · obtain ⟨a, ha, hne⟩ := hne
      exact ⟨a, List.mem_cons_of_mem _ ha, hne⟩
    · rw [hred 0 _ y hy]
      refine ⟨?_, h⟩
      field_simp
      ring

/-- Each coefficient list has `n` entries. -/
def Wide (n : ℕ) (rows : List (Equation ℚ)) : Prop := ∀ row ∈ rows, row.1.length = n

/-- Where no equation has a first coefficient, the first unknown is free. -/
theorem Settled.of_free (hw : Wide (n + 1) rows) (h : ∀ row ∈ rows, row.1.headD 0 = 0) :
    Settled (n + 1) rows (.error .singular) := by
  refine .singular (y := 1 :: List.replicate n 0) (by simp) ⟨1, by simp⟩ ?_
  intro row hrow
  obtain ⟨a, as, has⟩ := List.exists_of_length_succ row.1 (hw row hrow)
  have ha := h row hrow
  rw [has] at ha ⊢
  rw [dot_cons, dot_replicate_zero, show a = 0 from ha]
  ring

section Reduction
variable (hps : ps.length = n) (hp : p ≠ 0)

include hps hp in
theorem solves_reduce_iff {c y₀ : ℚ} {y : List ℚ} {row : Equation ℚ} (hrow : row.1.length = n + 1)
    (hpivot : p * y₀ + dot ps y = c * r) :
    dot row.1 (y₀ :: y) = c * row.2 ↔
      dot (reduce p ps r row).1 y = c * (reduce p ps r row).2 := by
  obtain ⟨a, as, has⟩ := List.exists_of_length_succ row.1 hrow
  have hlen : as.length = ps.length := by
    rw [has] at hrow
    exact (Nat.succ.inj hrow).trans hps.symm
  simp only [reduce, has, List.headD_cons, List.tail_cons, dot_cons]
  rw [dot_sub_scale y _ hlen]
  have hmultiple : a * y₀ = a / p * (c * r - dot ps y) := by
    rw [← hpivot]
    field_simp
    ring
  constructor
  · intro h
    linear_combination h - hmultiple
  · intro h
    linear_combination h + hmultiple

include hps hp in
theorem solves_cons_iff (hw : Wide (n + 1) others) (c y₀ : ℚ) (y : List ℚ) :
    Solves c ((p :: ps, r) :: others) (y₀ :: y) ↔
      p * y₀ + dot ps y = c * r ∧ Solves c (others.map (reduce p ps r)) y := by
  unfold Solves
  rw [List.forall_mem_cons, List.forall_mem_map, dot_cons]
  apply and_congr_right
  intro hpivot
  apply forall₂_congr
  intro row hrow
  exact solves_reduce_iff hps hp (hw row hrow) hpivot

include hps in
theorem wide_reduce (hw : Wide (n + 1) others) : Wide n (others.map (reduce p ps r)) := by
  unfold Wide
  rw [List.forall_mem_map]
  intro row hrow
  simp [reduce, hw row hrow, hps]

end Reduction

/-- What the search for the heaviest equation keeps: the greatest weight so far and its place. -/
theorem foldl_heaviest (tail : List (Equation ℚ × ℕ)) (best : ℕ × ℚ) :
    ∃ i w, tail.foldl (fun best (next, i) =>
        if best.2 < weight next then (i, weight next) else best) best = (i, w) ∧
      best.2 ≤ w ∧ (∀ next ∈ tail, weight next.1 ≤ w) ∧
      ((i, w) = best ∨ ∃ next, (next, i) ∈ tail ∧ weight next = w) := by
  induction tail generalizing best with
  | nil => exact ⟨best.1, best.2, rfl, le_rfl, by simp, .inl rfl⟩
  | cons next tail ih =>
    obtain ⟨i, w, heq, hle, hall, hcases⟩ :=
      ih (if best.2 < weight next.1 then (next.2, weight next.1) else best)
    refine ⟨i, w, heq, ?_⟩
    split at hle
    · rename_i hlt
      rw [if_pos hlt] at hcases
      refine ⟨hlt.le.trans hle, List.forall_mem_cons.2 ⟨hle, hall⟩, .inr ?_⟩
      rcases hcases with h | ⟨next', hmem, hw⟩
      · cases h
        exact ⟨next.1, List.mem_cons_self, rfl⟩
      · exact ⟨next', List.mem_cons_of_mem _ hmem, hw⟩
    · rename_i hlt
      rw [if_neg hlt] at hcases
      refine ⟨hle, List.forall_mem_cons.2 ⟨(not_lt.1 hlt).trans hle, hall⟩, ?_⟩
      rcases hcases with h | ⟨next', hmem, hw⟩
      · exact .inl h
      · exact .inr ⟨next', List.mem_cons_of_mem _ hmem, hw⟩

/-- The heaviest equation is the first one, or a later one at its place; none weighs more. -/
theorem heaviest_cases (first : Equation ℚ) (rest : List (Equation ℚ)) :
    (heaviest (first :: rest) = 0 ∧ ∀ row ∈ first :: rest, weight row ≤ weight first) ∨
      ∃ i pivot, heaviest (first :: rest) = i + 1 ∧ rest[i]? = some pivot ∧
        ∀ row ∈ first :: rest, weight row ≤ weight pivot := by
  obtain ⟨i, w, heq, hle, hall, hcases⟩ := foldl_heaviest (rest.zipIdx 1) (0, weight first)
  have hi : heaviest (first :: rest) = i := congrArg Prod.fst heq
  have hweight : ∀ row ∈ first :: rest, weight row ≤ w := by
    rw [List.forall_mem_cons]
    refine ⟨hle, fun row hrow => ?_⟩
    rw [← List.zipIdx_map_fst 1 rest, List.mem_map] at hrow
    obtain ⟨next, hnext, rfl⟩ := hrow
    exact hall next hnext
  rcases hcases with h | ⟨pivot, hmem, rfl⟩
  · cases h
    exact .inl ⟨hi, hweight⟩
  · obtain ⟨hpos, hget⟩ := List.mk_mem_zipIdx_iff_le_and_getElem?_sub.1 hmem
    obtain ⟨k, rfl⟩ := Nat.exists_eq_add_of_le' hpos
    exact .inr ⟨k, pivot, hi, hget, hweight⟩

/-- The pivot is one of the equations, the others stay, and none weighs more. -/
theorem exists_takePivot (first : Equation ℚ) (rest : List (Equation ℚ)) :
    ∃ pivot others, takePivot (first :: rest) = some (pivot, others) ∧
      (first :: rest).Perm (pivot :: others) ∧
      ∀ row ∈ first :: rest, weight row ≤ weight pivot := by
  rcases heaviest_cases first rest with ⟨hi, hweight⟩ | ⟨i, pivot, hi, hget, hweight⟩
  · exact ⟨first, rest, by simp only [takePivot, hi], .refl _, hweight⟩
  · refine ⟨pivot, rest.set i first, by simp only [takePivot, hi, hget, Option.map_some], ?_,
      hweight⟩
    obtain ⟨hlt, rfl⟩ := List.getElem?_eq_some_iff.1 hget
    have hrest := (List.getElem_cons_eraseIdx_perm hlt).symm.cons first
    have hset := (List.set_perm_cons_eraseIdx hlt first).symm.cons rest[i]
    exact hrest.trans ((List.Perm.swap ..).trans hset)

/-- A pivot without a first coefficient leaves none to the other equations. -/
theorem headD_eq_zero {row pivot : Equation ℚ} (h : weight row ≤ weight pivot)
    (hp : pivot.1.headD 0 = 0) : row.1.headD 0 = 0 := by
  rw [weight, weight, hp, Brent.abs_eq, Brent.abs_eq, abs_zero] at h
  exact abs_nonpos_iff.1 h

/-- Elimination settles as many equations as there are unknowns. -/
theorem settled_eliminate {rows : List (Equation ℚ)} (hlen : rows.length = n) (hw : Wide n rows) :
    Settled n rows (eliminate n rows) := by
  induction n generalizing rows with
  | zero =>
    obtain rfl := List.length_eq_zero_iff.1 hlen
    refine .unique rfl fun y hy => ?_
    obtain rfl := List.length_eq_zero_iff.1 hy
    simp [Solves]
  | succ n ih =>
    obtain ⟨first, rest, rfl⟩ := List.exists_of_length_succ rows hlen
    obtain ⟨pivot, others, htake, hperm, hweight⟩ := exists_takePivot first rest
    have hw' : Wide (n + 1) (pivot :: others) := fun row hrow => hw row (hperm.mem_iff.2 hrow)
    obtain ⟨coefficients, r⟩ := pivot
    obtain ⟨hpivot, hothers⟩ := List.forall_mem_cons.1 hw'
    obtain ⟨p, ps, rfl⟩ := List.exists_of_length_succ coefficients hpivot
    have hps : ps.length = n := Nat.succ.inj hpivot
    rw [eliminate, htake]
    dsimp only
    split
    · rename_i hp
      refine .of_free hw fun row hrow => headD_eq_zero (hweight row hrow) ?_
      exact eq_of_beq hp
    · rename_i hp
      have hp : p ≠ 0 := fun h => hp (beq_iff_eq.2 h)
      have hlen' : (others.map (reduce p ps r)).length = n := by
        rw [List.length_map]
        exact Nat.succ.inj (hperm.length_eq.symm.trans hlen)
      have hsettled := (ih hlen' (wide_reduce hps hothers)).cons hp
        fun c y₀ y _ => solves_cons_iff hps hp hothers c y₀ y
      simp only [remainder_eq]
      exact hsettled.of_perm hperm.symm

/-- An equation without coefficients leaves too few others for a unique solution. -/
theorem Settled.of_zeros {zeros : List ℚ} (hlen : rows.length = n)
    (hw : Wide (n + 1) ((zeros, r) :: rows)) (hz : ∀ a ∈ zeros, a = 0) :
    Settled (n + 1) ((zeros, r) :: rows) (.error .singular) := by
  have hw' : Wide (n + 1) ((zeros, 1) :: rows) := by
    rw [Wide, List.forall_mem_cons] at hw ⊢
    exact hw
  have hsettled := settled_eliminate (by simp [hlen]) hw'
  generalize eliminate (n + 1) ((zeros, 1) :: rows) = result at hsettled
  cases hsettled with
  | @unique x hx h =>
    have hzero := (h x hx).2 rfl (zeros, 1) List.mem_cons_self
    rw [dot_of_zeros x hz] at hzero
    norm_num at hzero
  | @singular y hy hne h =>
    refine .singular hy hne ?_
    unfold Solves at h ⊢
    rw [List.forall_mem_cons] at h ⊢
    exact ⟨by rw [dot_of_zeros y hz, zero_mul], h.2⟩

def StartAtDiagonal (rows : List (Equation ℚ)) : Prop :=
  ∀ i (row : Equation ℚ), rows[i]? = some row → ∀ a ∈ row.1.take i, a = 0

def EndAtDiagonal (rows : List (Equation ℚ)) : Prop :=
  ∀ i (row : Equation ℚ), rows[i]? = some row → ∀ a ∈ row.1.drop (i + 1), a = 0

section Triangular
variable {first : Equation ℚ}

theorem StartAtDiagonal.headD_eq_zero (h : StartAtDiagonal (first :: rows)) :
    ∀ row ∈ rows, row.1.headD 0 = 0 := by
  intro row hrow
  obtain ⟨i, hi⟩ := List.mem_iff_getElem?.1 hrow
  have hzero := h (i + 1) row hi
  cases hrow : row.1 with
  | nil => rfl
  | cons a as =>
    rw [hrow] at hzero
    exact hzero a (by simp)

theorem StartAtDiagonal.tail (h : StartAtDiagonal (first :: rows)) :
    StartAtDiagonal (rows.map dropUnknown) := by
  intro i row hrow a ha
  rw [List.getElem?_map, Option.map_eq_some_iff] at hrow
  obtain ⟨row, hi, rfl⟩ := hrow
  refine h (i + 1) row hi a ?_
  rw [dropUnknown] at ha
  cases hrow : row.1 with
  | nil => simp [hrow] at ha
  | cons b bs =>
    rw [hrow] at ha
    exact List.mem_cons_of_mem b ha

theorem EndAtDiagonal.tail (h : EndAtDiagonal (first :: rows)) (x : ℚ) :
    EndAtDiagonal (rows.map (settle x)) := by
  intro i row hrow a ha
  rw [List.getElem?_map, Option.map_eq_some_iff] at hrow
  obtain ⟨row, hi, rfl⟩ := hrow
  refine h (i + 1) row hi a ?_
  rwa [settle, List.drop_tail] at ha

end Triangular

theorem solves_dropUnknown_iff {row : Equation ℚ} (hrow : row.1.length = n + 1)
    (hzero : row.1.headD 0 = 0) (c y₀ : ℚ) (y : List ℚ) :
    dot row.1 (y₀ :: y) = c * row.2 ↔ dot (dropUnknown row).1 y = c * (dropUnknown row).2 := by
  obtain ⟨a, as, has⟩ := List.exists_of_length_succ row.1 hrow
  rw [has] at hzero
  obtain rfl : a = 0 := hzero
  simp [dropUnknown, has]

theorem settled_backward {rows : List (Equation ℚ)} (hlen : rows.length = n) (hw : Wide n rows)
    (hd : StartAtDiagonal rows) : Settled n rows (backward n rows) := by
  induction n generalizing rows with
  | zero =>
    obtain rfl := List.length_eq_zero_iff.1 hlen
    exact settled_eliminate rfl hw
  | succ n ih =>
    obtain ⟨⟨coefficients, r⟩, rest, rfl⟩ := List.exists_of_length_succ rows hlen
    obtain ⟨hfirst, hrest⟩ := List.forall_mem_cons.1 hw
    obtain ⟨p, ps, rfl⟩ := List.exists_of_length_succ coefficients hfirst
    have hfree := hd.headD_eq_zero
    rw [backward]
    split
    · rename_i hp
      refine .of_free hw (List.forall_mem_cons.2 ⟨eq_of_beq hp, hfree⟩)
    · rename_i hp
      have hp : p ≠ 0 := fun h => hp (beq_iff_eq.2 h)
      have hwide : Wide n (rest.map dropUnknown) := by
        rw [Wide, List.forall_mem_map]
        intro row hrow
        simp [dropUnknown, hrest row hrow]
      have hsettled := ih (by simpa using hlen) hwide hd.tail
      simp only [remainderFromLast_eq]
      refine hsettled.cons hp fun c y₀ y hy => ?_
      unfold Solves
      rw [List.forall_mem_cons, List.forall_mem_map, dot_cons]
      apply and_congr_right
      intro _
      apply forall₂_congr
      intro row hrow
      exact solves_dropUnknown_iff (hrest row hrow) (hfree row hrow) c y₀ y

theorem solves_settle_iff {row : Equation ℚ} (hrow : row.1.length = n + 1) {c y₀ x₀ : ℚ}
    (hx : y₀ = c * x₀) (y : List ℚ) :
    dot row.1 (y₀ :: y) = c * row.2 ↔ dot (settle x₀ row).1 y = c * (settle x₀ row).2 := by
  obtain ⟨a, as, has⟩ := List.exists_of_length_succ row.1 hrow
  simp only [settle, has, List.headD_cons, List.tail_cons, dot_cons, hx]
  constructor
  · intro h
    linear_combination h
  · intro h
    linear_combination h

theorem settled_forward {rows : List (Equation ℚ)} (hlen : rows.length = n) (hw : Wide n rows)
    (hd : EndAtDiagonal rows) : Settled n rows (forward n rows) := by
  induction n generalizing rows with
  | zero =>
    obtain rfl := List.length_eq_zero_iff.1 hlen
    exact settled_eliminate rfl hw
  | succ n ih =>
    obtain ⟨⟨coefficients, r⟩, rest, rfl⟩ := List.exists_of_length_succ rows hlen
    obtain ⟨hfirst, hrest⟩ := List.forall_mem_cons.1 hw
    obtain ⟨p, ps, rfl⟩ := List.exists_of_length_succ coefficients hfirst
    have hzeros : ∀ a ∈ ps, a = 0 := hd 0 (p :: ps, r) rfl
    rw [forward]
    split
    · rename_i hp
      refine .of_zeros (by simpa using hlen) hw (List.forall_mem_cons.2 ⟨eq_of_beq hp, hzeros⟩)
    · rename_i hp
      have hp : p ≠ 0 := fun h => hp (beq_iff_eq.2 h)
      have hwide : Wide n (rest.map (settle (r / p))) := by
        rw [Wide, List.forall_mem_map]
        intro row hrow
        simp [settle, hrest row hrow]
      have hiff : ∀ c y₀ y, y.length = n → (Solves c ((p :: ps, r) :: rest) (y₀ :: y) ↔
          p * y₀ + dot ps y = c * r ∧ Solves c (rest.map (settle (r / p))) y) := by
        intro c y₀ y hy
        unfold Solves
        rw [List.forall_mem_cons, List.forall_mem_map, dot_cons, dot_of_zeros y hzeros, add_zero]
        apply and_congr_right
        intro hpivot
        have hx : y₀ = c * (r / p) := by
          rw [← mul_div_assoc, ← hpivot, mul_div_cancel_left₀ _ hp]
        apply forall₂_congr
        intro row hrow
        exact solves_settle_iff (hrest row hrow) hx y
      have hsettled := (ih (by simpa using hlen) hwide (hd.tail (r / p))).cons hp hiff
      simpa only [dot_of_zeros _ hzeros, sub_zero] using hsettled

end Linear
end RootFinding
