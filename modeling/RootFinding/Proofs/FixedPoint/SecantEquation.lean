import RootFinding.Proofs.FixedPoint.ZeroSteps

/-!
# The secant equation of Broyden's method

Over exact fractions the estimate after each call of the main loop maps the last change of the
residual to the last change of the point, and vectors at right angles to the former to what they
were mapped to before. So where the residual has always changed at right angles to its earlier
changes, the estimate has forgotten none of them.
-/
namespace RootFinding.Broyden
open Iteration Search Matrix

section Matrices
variable {n : ℕ} (H : Matrix (Fin n) (Fin n) ℚ) (dx : Fin n → ℚ) {dg v : Fin n → ℚ}

theorem corrected_mulVec_eq (dg v : Fin n → ℚ) : corrected H dx dg *ᵥ v =
    H *ᵥ v + ((dg ⬝ᵥ v) / (dg ⬝ᵥ dg)) • (dx - H *ᵥ dg) := by
  rw [corrected, add_mulVec, smul_mulVec, vecMulVec_mulVec, op_smul_eq_smul, smul_smul,
    div_eq_inv_mul]

/-- The corrected matrix maps the change of the residual to that of the point. -/
theorem corrected_mulVec_change (hd : dg ⬝ᵥ dg ≠ 0) : corrected H dx dg *ᵥ dg = dx := by
  rw [corrected_mulVec_eq, div_self hd, one_smul, add_sub_cancel]

theorem corrected_mulVec_of_orthogonal (ho : dg ⬝ᵥ v = 0) : corrected H dx dg *ᵥ v = H *ᵥ v := by
  rw [corrected_mulVec_eq, ho, zero_div, zero_smul, add_zero]

/-- The slopes of two plain steps map the change of the residual between them to the first one. -/
theorem diagonal_slopes_mulVec {x y z : Fin n → ℚ} (hd : ∀ i, (y - z - (x - y)) i ≠ 0) :
    diagonal ((y - x) / ((fun i => 2 * y i) - x - z)) *ᵥ (y - z - (x - y)) = y - x := by
  have hdiff : (fun i => 2 * y i) - x - z = y - z - (x - y) := by
    ext i
    simp only [Pi.sub_apply]
    ring
  ext i
  rw [hdiff, mulVec_diagonal, Pi.div_apply, div_mul_cancel₀ _ (hd i)]

end Matrices

/-- The changes of the point and of the residual from one of these calls to the next. -/
def Change (answer : ℕ → List ℚ → Except Failure (List ℚ)) (calls : List (List ℚ)) (j : ℕ)
    (dx dg : List ℚ) : Prop :=
  ∃ p q y z, calls[j]? = some p ∧ calls[j + 1]? = some q ∧
    answer j p = .ok y ∧ answer (j + 1) q = .ok z ∧
    dx = Vec.sub q p ∧ dg = Vec.sub (Vec.sub q z) (Vec.sub p y)

def Conjugate (answer : ℕ → List ℚ → Except Failure (List ℚ)) (calls : List (List ℚ)) : Prop :=
  ∀ j k dx dg dx' dg', j < k → Change answer calls j dx dg → Change answer calls k dx' dg' →
    Vec.dot dg dg' = 0

/-- A change of the residual is divided by: the first one in each component, and each later one as
its square. -/
def Divisible : ℕ → List ℚ → Prop
  | 0, dg => ∀ d ∈ dg, d ≠ 0
  | _ + 1, dg => Vec.dot dg dg ≠ 0

section Changes
variable {answer : ℕ → List ℚ → Except Failure (List ℚ)} {calls more : List (List ℚ)} {j : ℕ}
  {dx dg q : List ℚ}

theorem Change.append (h : Change answer calls j dx dg) :
    Change answer (calls ++ more) j dx dg := by
  obtain ⟨p, q, y, z, hp, hq, hrest⟩ := h
  exact ⟨p, q, y, z, getElem?_prefix_eq_some (List.prefix_append ..) hp,
    getElem?_prefix_eq_some (List.prefix_append ..) hq, hrest⟩

theorem Conjugate.of_append (h : Conjugate answer (calls ++ more)) : Conjugate answer calls :=
  fun j k _ _ _ _ hjk hc hc' => h j k _ _ _ _ hjk hc.append hc'.append

theorem Change.succ_lt_length (h : Change answer calls j dx dg) : j + 1 < calls.length := by
  obtain ⟨p, q, y, z, hp, hq, hrest⟩ := h
  exact (List.getElem?_eq_some_iff.1 hq).1

theorem Change.unique {dx' dg' : List ℚ} (h : Change answer calls j dx dg)
    (h' : Change answer calls j dx' dg') : dx = dx' ∧ dg = dg' := by
  obtain ⟨p, q, y, z, hp, hq, hy, hz, rfl, rfl⟩ := h
  obtain ⟨p', q', y', z', hp', hq', hy', hz', rfl, rfl⟩ := h'
  cases hp.symm.trans hp'
  cases hq.symm.trans hq'
  cases hy.symm.trans hy'
  cases hz.symm.trans hz'
  exact ⟨rfl, rfl⟩

/-- A change over more calls by one is an earlier change or the last one. -/
theorem Change.of_concat (h : Change answer (calls ++ [q]) j dx dg) :
    Change answer calls j dx dg ∨ j = calls.length - 1 := by
  have hlt := h.succ_lt_length
  obtain ⟨p, q', y, z, hp, hq, hrest⟩ := h
  rw [List.length_append, List.length_singleton] at hlt
  rcases Nat.lt_or_ge (j + 1) calls.length with hj | hj
  · rw [List.getElem?_append_left (by omega)] at hp hq
    exact .inl ⟨p, q', y, z, hp, hq, hrest⟩
  · exact .inr (by omega)

end Changes

section Stages
variable {answer : ℕ → List ℚ → Except Failure (List ℚ)}
  (hanswer : ∀ i z y, answer i z = .ok y → y.length = z.length) {tol : List (Tolerance ℚ)}
  {x : List ℚ} {calls : List (List ℚ)} {s : Estimate ℚ} {n : ℕ} {u : Fin n → ℚ}

include hanswer in
theorem exists_answer {i : ℕ} {p : Fin n → ℚ} {y : List ℚ} (hy : answer i (List.ofFn p) = .ok y) :
    ∃ q : Fin n → ℚ, y = List.ofFn q :=
  exists_eq_ofFn (by rw [hanswer i _ y hy, List.length_ofFn])

include hanswer in
theorem Reached.exact (h : Reached answer tol (List.ofFn u) calls s) :
    ∃ p q H, s = .exact (n := n) p q H := by
  induction h with
  | steps hy hyx hz hzy =>
    obtain ⟨v, rfl⟩ := exists_answer hanswer hy
    obtain ⟨w, rfl⟩ := exists_answer hanswer hz
    exact ⟨_, _, _, ofSteps_exact u v w⟩
  | pass hr ht hy ih =>
    obtain ⟨p, q, H, rfl⟩ := ih
    rw [propose_exact] at hy ⊢
    obtain ⟨q', rfl⟩ := exists_answer hanswer hy
    exact ⟨_, _, _, observe_exact ..⟩

include hanswer in
theorem Reached.length_of_mem (h : Reached answer tol (List.ofFn u) calls s) {p : List ℚ}
    (hp : p ∈ calls) : p.length = n := by
  induction h with
  | steps hy hyx hz hzy =>
    simp only [List.mem_cons, List.not_mem_nil, or_false] at hp
    rcases hp with rfl | rfl
    · exact List.length_ofFn
    · rw [hanswer _ _ _ hy, List.length_ofFn]
  | @pass calls s y hr ht hy ih =>
    rcases List.mem_append.1 hp with hp | hp
    · exact ih hp
    · cases List.mem_singleton.1 hp
      rw [(hr.sized fun h => hanswer _ _ _ h).length_propose, List.length_ofFn]

include hanswer in
theorem Reached.exists_change (h : Reached answer tol (List.ofFn u) calls s) {j : ℕ}
    {dx dg : List ℚ} (hc : Change answer calls j dx dg) : ∃ v : Fin n → ℚ, dg = List.ofFn v := by
  obtain ⟨p, q, y, z, hp, hq, hy, hz, rfl, rfl⟩ := hc
  have hp := h.length_of_mem hanswer (List.mem_of_getElem? hp)
  have hq := h.length_of_mem hanswer (List.mem_of_getElem? hq)
  have hy := hanswer _ _ _ hy
  have hz := hanswer _ _ _ hz
  refine exists_eq_ofFn ?_
  simp [hy, hz, hp, hq]

theorem Reached.change_last (h : Reached answer tol x calls s) {y : List ℚ}
    (hy : answer calls.length s.propose = .ok y) :
    Change answer (calls ++ [s.propose]) (calls.length - 1) (Vec.sub s.propose s.point)
      (residualChange s s.propose y) := by
  have hmin := h.two_le_length
  have hlen : calls.length - 1 + 1 = calls.length := by omega
  refine ⟨s.point, s.propose, s.value, y, ?_, ?_, h.answer_eq, hlen ▸ hy, rfl, rfl⟩
  · rw [List.getElem?_append_left (by omega), ← List.getLast?_eq_getElem?, h.getLast?]
  · rw [hlen, List.getElem?_concat_length]

/-- The estimate after one more call maps the change to there as the secant equation tells, and what
is at right angles to the change of the residual as before. -/
theorem apply_observe {p q p' q' : Fin n → ℚ} {H : Matrix (Fin n) (Fin n) ℚ} {x y dg : List ℚ}
    (hs : s = .exact p q H) (hx : x = List.ofFn p') (hy : y = List.ofFn q')
    (hdg : dg = residualChange s x y) :
    (Vec.dot dg dg ≠ 0 → Vec.apply (s.observe x y).inverse dg = Vec.sub x s.point) ∧
      ∀ v : Fin n → ℚ, Vec.dot (List.ofFn v) dg = 0 →
        Vec.apply (s.observe x y).inverse (List.ofFn v) = Vec.apply s.inverse (List.ofFn v) := by
  subst hs hx hy hdg
  rw [observe_exact]
  simp only [Estimate.exact, residualChange, Vec.sub_ofFn, Vec.dot_ofFn, Vec.apply_rows]
  refine ⟨fun hd => ?_, fun v ho => ?_⟩
  · rw [corrected_mulVec_change H _ hd]
  · rw [dotProduct_comm] at ho
    rw [corrected_mulVec_of_orthogonal H _ ho]

include hanswer in
/-- The estimate after two plain steps maps the first change of the residual to the first step. -/
theorem apply_ofSteps {y z : List ℚ} (hy : answer 0 (List.ofFn u) = .ok y)
    (hz : answer 1 y = .ok z)
    (hd : ∀ d ∈ Vec.sub (Vec.sub y z) (Vec.sub (List.ofFn u) y), d ≠ 0) :
    Vec.apply (Estimate.ofSteps (List.ofFn u) y z).inverse
        (Vec.sub (Vec.sub y z) (Vec.sub (List.ofFn u) y)) =
      Vec.sub y (List.ofFn u) := by
  obtain ⟨v, rfl⟩ := exists_answer hanswer hy
  obtain ⟨w, rfl⟩ := exists_answer hanswer hz
  simp only [Vec.sub_ofFn, List.forall_mem_ofFn_iff] at hd
  simp only [ofSteps_exact, Estimate.exact, Vec.sub_ofFn, Vec.apply_rows]
  rw [diagonal_slopes_mulVec hd]

include hanswer in
/-- Where all changes of the residual are at right angles to each other, the estimate maps every one
that can be divided by to the change of the point that goes with it. -/
theorem Reached.apply_change (h : Reached answer tol (List.ofFn u) calls s)
    (ho : Conjugate answer calls) {j : ℕ} {dx dg : List ℚ} (hc : Change answer calls j dx dg)
    (hd : Divisible j dg) : Vec.apply s.inverse dg = dx := by
  induction h with
  | @steps y z hy hyx hz hzy =>
    obtain ⟨p, q, y', z', hp, hq, hy', hz', rfl, rfl⟩ := hc
    obtain rfl : j = 0 := by
      have hlt : j + 1 < 2 := (List.getElem?_eq_some_iff.1 hq).1
      omega
    cases hp
    cases hq
    cases hy.symm.trans hy'
    cases hz.symm.trans hz'
    exact apply_ofSteps hanswer hy hz hd
  | @pass calls s y hr ht hy ih =>
    obtain ⟨p, q, H, hs⟩ := hr.exact hanswer
    have hx : s.propose = List.ofFn (H *ᵥ (q - p) + p) := by rw [hs, propose_exact]
    obtain ⟨q', hq'⟩ := exists_answer hanswer (hx ▸ hy)
    obtain ⟨hchange, hkeeps⟩ := apply_observe hs hx hq' rfl
    have hlast := hr.change_last hy
    have hmin := hr.two_le_length
    rcases hc.of_concat with hc' | hj
    · obtain ⟨v, rfl⟩ := hr.exists_change hanswer hc'
      have hlt := hc'.succ_lt_length
      rw [hkeeps v (ho _ _ _ _ _ _ (by omega) hc hlast), ih ho.of_append hc']
    · obtain ⟨k, rfl⟩ : ∃ k, j = k + 1 := ⟨j - 1, by omega⟩
      obtain ⟨rfl, rfl⟩ := hc.unique (hj ▸ hlast)
      exact hchange hd

/-- What an estimate `h` becomes over one more call is in accord with the changes between all calls
made. -/
structure Secant (answer : ℕ → List ℚ → Except Failure (List ℚ)) (n : ℕ)
    (calls : List (List ℚ)) (h h' : List (List ℚ)) : Prop where
  /-- It maps the last change, and nothing at right angles to it is mapped otherwise than before. -/
  last : ∃ dx dg, Change answer calls (calls.length - 2) dx dg ∧ (Vec.dot dg dg ≠ 0 →
    Vec.apply h' dg = dx ∧
      ∀ v, v.length = n → Vec.dot v dg = 0 → Vec.apply h' v = Vec.apply h v)
  /-- It maps each change, where they are at right angles to each other. -/
  all : Conjugate answer calls → ∀ j dx dg, Change answer calls j dx dg → Divisible j dg →
    Vec.apply h' dg = dx

include hanswer in
theorem Reached.secant (h : Reached answer tol x calls s)
    (ht : calls.length = 2 ∨ Tolerance.within tol s.propose s.point = false) {y : List ℚ}
    (hy : answer calls.length s.propose = .ok y) :
    Secant answer x.length (calls ++ [s.propose]) s.inverse
      (s.observe s.propose y).inverse := by
  generalize hn : x.length = n
  obtain ⟨u, rfl⟩ := exists_eq_ofFn hn
  refine ⟨?_, fun ho j dx dg hc hd => (h.pass ht hy).apply_change hanswer ho hc hd⟩
  obtain ⟨p, q, H, hs⟩ := h.exact hanswer
  have hx : s.propose = List.ofFn (H *ᵥ (q - p) + p) := by rw [hs, propose_exact]
  obtain ⟨q', hq'⟩ := exists_answer hanswer (hx ▸ hy)
  have hlast := h.change_last hy
  have hlen : (calls ++ [s.propose]).length - 2 = calls.length - 1 := by simp
  obtain ⟨hchange, hkeeps⟩ := apply_observe hs hx hq' rfl
  refine ⟨_, _, hlen ▸ hlast, fun hd => ⟨hchange hd, fun v hv ho => ?_⟩⟩
  obtain ⟨w, rfl⟩ := exists_eq_ofFn hv
  exact hkeeps w ho

theorem Reached.unique {s' : Estimate ℚ} (h : Reached answer tol x calls s)
    (h' : Reached answer tol x calls s') : s = s' := by
  induction h generalizing s' with
  | @steps y z hy hyx hz hzy =>
    generalize hcalls : [x, y] = calls at h'
    cases h' with
    | steps hy' hyx' hz' hzy' =>
      cases hcalls
      cases hz.symm.trans hz'
      rfl
    | pass hr =>
      have hmin := hr.two_le_length
      have hlen := congrArg List.length hcalls
      rw [List.length_append] at hlen
      simp at hlen
      omega
  | @pass calls s y hr ht hy ih =>
    generalize hcalls : calls ++ [s.propose] = calls' at h'
    cases h' with
    | steps hy' hyx' hz' hzy' =>
      have hmin := hr.two_le_length
      have hlen := congrArg List.length hcalls
      rw [List.length_append] at hlen
      simp at hlen
      omega
    | @pass calls' s' y' hr' ht' hy' =>
      obtain ⟨rfl, -⟩ := List.append_inj' hcalls rfl
      obtain rfl := ih hr'
      cases hy.symm.trans hy'
      rfl

end Stages

section Runs
variable {caller : Caller (List ℚ) (Grid ℚ) Empty Empty (List ℚ)} {tol : List (Tolerance ℚ)}
  {x : List ℚ} {limit : ℕ} {trace : Trace (List ℚ) Empty (List ℚ) (Ending (List ℚ))}
  {evals : Array (List ℚ)} {slopes : Array Empty} {notes : Array (Note (List ℚ))}

/-- A stage whose proposal is called next. -/
structure Calls (caller : Caller (List ℚ) (Grid ℚ) Empty Empty (List ℚ)) (tol : List (Tolerance ℚ))
    (x : List ℚ) (calls : List (List ℚ)) (s : Estimate ℚ) (q : List ℚ) : Prop where
  reached : Reached (reply caller) tol x calls s
  goes : calls.length = 2 ∨ Tolerance.within tol s.propose s.point = false
  proposes : s.propose = q

/-- The calls from some place on are those of the main loop. -/
def Looping (caller : Caller (List ℚ) (Grid ℚ) Empty Empty (List ℚ)) (tol : List (Tolerance ℚ))
    (x : List ℚ) (start : ℕ) (evals : Array (List ℚ)) : Prop :=
  ∀ i q, start ≤ i → evals[i]? = some q → ∃ s, Calls caller tol x (evals.toList.take i) s q

theorem looping_of_size_le {start : ℕ} (h : trace.evaluations.size ≤ start) :
    Looping caller tol x start trace.evaluations := by
  intro i q hi hq
  have hlt := (Array.getElem?_eq_some_iff.1 hq).1
  omega

theorem looping_report {start : ℕ} {note : Note (List ℚ)} {next : Searching ℚ}
    (hrun : runFrom caller evals slopes notes (.report note next) = trace)
    (hsize : evals.size ≤ start)
    (h : ∀ notes', runFrom caller evals slopes notes' next = trace →
      Looping caller tol x start trace.evaluations) :
    Looping caller tol x start trace.evaluations := by
  rw [runFrom] at hrun
  split at hrun
  · exact h _ hrun
  · exact h _ hrun
  · subst hrun
    exact looping_of_size_le hsize

theorem looping_measure {start : ℕ} {p : List ℚ} {next : List ℚ → Searching ℚ}
    (hrun : runFrom caller evals slopes notes (measure p next) = trace)
    (hsize : evals.size + 1 ≤ start)
    (h : ∀ y, reply caller evals.size p = .ok y →
      runFrom caller (evals.push p) slopes notes (next y) = trace →
      Looping caller tol x start trace.evaluations) :
    Looping caller tol x start trace.evaluations := by
  cases hy : reply caller evals.size p with
  | ok y =>
    rw [runFrom_measure_ok hy] at hrun
    exact h y hy hrun
  | error cause =>
    rw [runFrom_measure_error hy] at hrun
    subst hrun
    exact looping_of_size_le (by rwa [Array.size_push])

/-- The first call from a stage on, if there is one, is that of its proposal. -/
theorem Looping.of_next {calls : List (List ℚ)} {s : Estimate ℚ}
    (hs : Calls caller tol x calls s s.propose)
    (hstart : calls ++ [s.propose] <+: trace.evaluations.toList)
    (h : Looping caller tol x (calls.length + 1) trace.evaluations) :
    Looping caller tol x calls.length trace.evaluations := by
  intro i q hi hq
  rcases hi.lt_or_eq with hlt | rfl
  · exact h i q hlt hq
  · have hlast := getElem?_prefix_eq_some hstart (List.getElem?_concat_length ..)
    rw [Array.getElem?_toList, hq] at hlast
    cases hlast
    have htake := List.prefix_iff_eq_take.1 ((List.prefix_append ..).trans hstart)
    rw [← htake]
    exact ⟨s, hs⟩

/-- A run that stands at a stage before its next call goes on in the main loop. -/
theorem looping_iterate {left done : ℕ} {calls : List (List ℚ)} {s : Estimate ℚ}
    (hs : Calls caller tol x calls s s.propose)
    (hrun : runFrom caller calls.toArray slopes notes (iterate tol left done s s.propose) = trace) :
    Looping caller tol x calls.length trace.evaluations := by
  induction left generalizing done calls s notes with
  | zero =>
    refine looping_report hrun (Nat.le_refl _) fun notes' hrun => ?_
    subst hrun
    exact looping_of_size_le (Nat.le_refl _)
  | succ left ih =>
    have hstart : calls ++ [s.propose] <+: trace.evaluations.toList := by
      rw [← hrun]
      exact prefix_evaluate s.propose _
    refine .of_next hs hstart ?_
    refine looping_measure hrun (Nat.le_refl _) fun y hy hrun => ?_
    rw [List.push_toArray] at hrun
    have hlen : (calls ++ [s.propose]).length = calls.length + 1 := by simp
    rw [← hlen]
    refine looping_report hrun (Nat.le_refl _) fun notes' hrun => ?_
    cases hc : Tolerance.within tol (s.observe s.propose y).propose s.propose with
    | true =>
      simp only [hc, if_true] at hrun
      refine looping_report hrun (Nat.le_refl _) fun notes'' hrun => ?_
      subst hrun
      exact looping_of_size_le (Nat.le_refl _)
    | false =>
      simp only [hc, Bool.false_eq_true, if_false] at hrun
      exact ih ⟨hs.reached.pass hs.goes hy, .inr hc, rfl⟩ hrun

theorem looping_search (hrun : (search limit tol x).run caller = trace) :
    Looping caller tol x 2 trace.evaluations := by
  refine looping_report hrun (Nat.zero_le _) fun notes hrun => ?_
  refine looping_measure hrun (by simp) fun y hy hrun => ?_
  cases hyx : Tolerance.within tol y x with
  | true =>
    simp only [hyx, if_true] at hrun
    refine looping_report hrun (by simp) fun notes' hrun => ?_
    subst hrun
    exact looping_of_size_le (Nat.le_succ 1)
  | false =>
    simp only [hyx, Bool.false_eq_true, if_false] at hrun
    refine looping_measure hrun (by simp) fun z hz hrun => ?_
    cases hzy : Tolerance.within tol z y with
    | true =>
      simp only [hzy, if_true] at hrun
      refine looping_report hrun (by simp) fun notes' hrun => ?_
      subst hrun
      exact looping_of_size_le (Nat.le_refl 2)
    | false =>
      simp only [hzy, Bool.false_eq_true, if_false] at hrun
      refine looping_report hrun (by simp) fun notes' hrun => ?_
      exact looping_iterate ⟨.steps hy hyx hz hzy, .inl rfl, rfl⟩ hrun

/-- In a run with any function, what the estimate becomes over a call of the main loop is in accord
with the last change of the residual and, where these are at right angles, with all of them. The
next call, if there is one, is at what it proposes. -/
theorem secant_equation (hrun : (search limit tol x).run caller = trace) {i : ℕ} {q z : List ℚ}
    (hq : trace.evaluations[i + 2]? = some q) (hz : reply caller (i + 2) q = .ok z) :
    ∃ s, Reached (reply caller) tol x (trace.evaluations.toList.take (i + 2)) s ∧ s.propose = q ∧
      Reached (reply caller) tol x (trace.evaluations.toList.take (i + 3)) (s.observe q z) ∧
      Secant (reply caller) x.length (trace.evaluations.toList.take (i + 3)) s.inverse
        (s.observe q z).inverse ∧
      ∀ r, trace.evaluations[i + 3]? = some r → r = (s.observe q z).propose := by
  obtain ⟨s, hs⟩ := looping_search hrun (i + 2) q (Nat.le_add_left 2 i) hq
  obtain rfl := hs.proposes
  have hlen : (trace.evaluations.toList.take (i + 2)).length = i + 2 := by
    have hlt := (Array.getElem?_eq_some_iff.1 hq).1
    rw [List.length_take, Array.length_toList]
    omega
  have htake : trace.evaluations.toList.take (i + 3) =
      trace.evaluations.toList.take (i + 2) ++ [s.propose] := by
    rw [List.take_add_one, Array.getElem?_toList, hq, Option.toList_some]
  have hnext := hs.reached.pass hs.goes (hlen.symm ▸ hz)
  have hsecant := hs.reached.secant (fun _ _ _ => length_of_reply) hs.goes (hlen.symm ▸ hz)
  rw [← htake] at hnext hsecant
  refine ⟨s, hs.reached, rfl, hnext, hsecant, fun r hr => ?_⟩
  obtain ⟨s', hs'⟩ := looping_search hrun (i + 3) r (Nat.le_add_left 2 (i + 1)) hr
  rw [← hs'.proposes, hs'.reached.unique hnext]

/-- A map under which the residual changes at right angles to its first change. -/
def conjugating : List ℚ → List ℚ :=
  plane (fun a b => 1 - a / 2 + b / 2) fun a b => 1 + a / 2 + 3 * b / 2

theorem change_plain {f : List ℚ → List ℚ} {calls : List (List ℚ)} {j : ℕ}
    {p q dx dg : List ℚ} (hp : calls[j]? = some p) (hq : calls[j + 1]? = some q)
    (hdx : dx = Vec.sub q p) (hdg : dg = Vec.sub (Vec.sub q (f q)) (Vec.sub p (f p))) :
    Change (plain f) calls j dx dg :=
  ⟨p, q, f p, f q, hp, hq, rfl, rfl, hdx, hdg⟩

theorem secant_equation_conjugating : ∃ s h,
    Reached (plain conjugating) planeTolerance [0, 0] [[0, 0], [1, 1]] s ∧
      Vec.apply h [1, -1] = [1, 1] ∧ Vec.apply h [1, 1] = [0, -2] ∧
      Secant (plain conjugating) 2 [[0, 0], [1, 1], [1, -1]] s.inverse h := by
  have hcalls : (planeRun conjugating [0, 0]).evaluations = #[[0, 0], [1, 1], [1, -1]] := by
    decide +kernel
  have hq : (planeRun conjugating [0, 0]).evaluations[2]? = some ([1, -1] : List ℚ) := by
    rw [hcalls]
    rfl
  have hreply : reply (plainCaller conjugating fun _ => false) = plain conjugating :=
    reply_plainCaller (length_plane _ _) _
  have hz : reply (plainCaller conjugating fun _ => false) 2 [1, -1] =
      .ok (conjugating [1, -1]) := by rw [hreply]; rfl
  have hfirst : Change (plain conjugating) [[0, 0], [1, 1], [1, -1]] 0 [1, 1] [1, -1] :=
    change_plain rfl rfl (by decide +kernel) (by decide +kernel)
  have hsecond : Change (plain conjugating) [[0, 0], [1, 1], [1, -1]] 1 [0, -2] [1, 1] :=
    change_plain rfl rfl (by decide +kernel) (by decide +kernel)
  have ho : Conjugate (plain conjugating) [[0, 0], [1, 1], [1, -1]] := by
    intro j k dx dg dx' dg' hjk hc hc'
    have hlt : k + 1 < 3 := hc'.succ_lt_length
    obtain rfl : j = 0 := by omega
    obtain rfl : k = 1 := by omega
    obtain ⟨rfl, rfl⟩ := hc.unique hfirst
    obtain ⟨rfl, rfl⟩ := hc'.unique hsecond
    decide +kernel
  obtain ⟨s, hs, -, -, hsecant, -⟩ := secant_equation (rfl : planeRun conjugating [0, 0] = _) hq hz
  rw [hreply, hcalls] at hs hsecant
  exact ⟨s, _, hs, hsecant.all ho _ _ _ hfirst (by unfold Divisible; decide +kernel),
    hsecant.all ho _ _ _ hsecond (by unfold Divisible; decide +kernel), hsecant⟩

end Runs
end RootFinding.Broyden
