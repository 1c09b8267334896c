import RootFinding.FixedPoint.Closeness
import RootFinding.Proofs.Grid.Integers
import RootFinding.Proofs.Value.Leaves

/-!
# Closeness of integers

Integers are read as signed or unsigned words where these hold all of them, as they are where some
are beyond words, and otherwise as doubles. Words wrap around, so that the test is that on exact
differences only where no difference leaves the words or another one decides.
-/
namespace RootFinding
namespace Closeness
open Typed Kind
variable {δ : Type} {p : Grid δ} {k k' : Kind} {l r : δ → ℤ} {x y : Value} {t : ℤ}

theorem bound_whole (hk : k.Integral) (hp : k ≠ .any ∨ p.shape ≠ []) (ht : Holds k t)
    (n : δ → ℤ) : ∃ m, bound (.int t) (.int 0) (whole k n p) = .ok (whole k m p) ∧
      ∀ q, k.wrap (m q) = k.wrap t := by
  have hscaled := apply_int_whole (p := p) lawful_multiplication hk (holds_zero hk) n
  refine ⟨fun q => k.wrap t + k.wrap (k.wrap 0 * k.wrap (n q)), ?_, fun q => ?_⟩
  · change (do
      let scaled ← apply multiplication (.int 0) (.grid (whole k n p))
      apply addition (.int t) (loosen scaled)) = _
    rw [hscaled]
    change apply addition (.int t) (loosen _) = _
    rw [loosen_whole hp, apply_int_whole lawful_addition hk ht]
    rfl
  · simp only [wrap_zero, zero_mul, add_zero, wrap_wrap]

theorem bound_of_not_holds (hk : k.Integral) (hp : k ≠ .any ∨ p.shape ≠ []) (ht : ¬Holds k t)
    (n : δ → ℤ) : bound (.int t) (.int 0) (whole k n p) = .error .tooLarge := by
  have hscaled := apply_int_whole (p := p) lawful_multiplication hk (holds_zero hk) n
  change (apply multiplication (.int 0) (.grid (whole k n p)) >>= fun scaled =>
    apply addition (.int t) (loosen scaled)) = _
  rw [hscaled]
  change apply addition (.int t) (loosen _) = _
  rw [loosen_whole hp, apply, settle, kind_whole, adapt_of_not_holds hk ht]
  rfl

/-- What the test compares for integers that meet in a kind, where none of them is a lone one of any
kind. -/
theorem within_eq (hx : Typed.ofValue x = .ok (whole k l p))
    (hy : Typed.ofValue y = .ok (whole k' r p)) (hk : k.Integral) (hk' : k'.Integral)
    (hj : (k.join k').Integral) (hp : k.join k' ≠ .any ∨ p.shape ≠ []) :
    ∃ m, within x y (.int t) (.int 0) =
      (do
        let limit ← bound (.int t) (.int 0) (whole (k.join k') m p)
        let below ← less (whole (k.join k') (fun q =>
          (k.join k').size (k.wrap (l q) - k'.wrap (r q))) p) limit
        .ok (below.entries.all id)) := by
  have hpk : k ≠ .any ∨ p.shape ≠ [] := hp.imp_left fun h hc => h (by rw [hc]; rfl)
  have hpk' : k' ≠ .any ∨ p.shape ≠ [] := hp.imp_left fun h hc => h (by rw [hc, join_any])
  obtain ⟨m, hlarger⟩ := exists_larger_whole (zips_self p) hk hk' hj
    (fun q => k.size (l q)) fun q => k'.size (r q)
  refine ⟨m, ?_⟩
  rw [within, hx, hy]
  simp only [bind, Except.bind, magnitude_whole hk, magnitude_whole hk', loosen_whole hpk,
    loosen_whole hpk', settle, hlarger, combine_whole (zips_self p) lawful_subtraction hk hk' hj,
    narrow_loosen_whole hp, magnitude_whole hj]
  rfl

theorem within_of_holds (hx : Typed.ofValue x = .ok (whole k l p))
    (hy : Typed.ofValue y = .ok (whole k' r p)) (hk : k.Integral) (hk' : k'.Integral)
    (hj : (k.join k').Integral) (hp : k.join k' ≠ .any ∨ p.shape ≠ [])
    (ht : Holds (k.join k') t) :
    within x y (.int t) (.int 0) = .ok (p.entries.all fun q =>
      decide ((k.join k').gap (k.wrap (l q) - k'.wrap (r q)) < (k.join k').wrap t)) := by
  obtain ⟨m, hwithin⟩ := within_eq (t := t) hx hy hk hk' hj hp
  obtain ⟨limit, hbound, hlimit⟩ := bound_whole hj hp ht m
  have hless := less_whole (zips_self p) hj hj
    (fun q => (k.join k').size (k.wrap (l q) - k'.wrap (r q))) limit
  simp only [hlimit] at hless
  rw [hwithin, hbound]
  change (less (whole (k.join k') (fun q => (k.join k').size (k.wrap (l q) - k'.wrap (r q))) p)
    (whole (k.join k') limit p) >>= fun below => .ok (below.entries.all id)) = _
  rw [hless]
  exact congrArg Except.ok List.all_map

theorem within_of_not_holds (hx : Typed.ofValue x = .ok (whole k l p))
    (hy : Typed.ofValue y = .ok (whole k' r p)) (hk : k.Integral) (hk' : k'.Integral)
    (hj : (k.join k').Integral) (hp : k.join k' ≠ .any ∨ p.shape ≠ [])
    (ht : ¬Holds (k.join k') t) : within x y (.int t) (.int 0) = .error .tooLarge := by
  obtain ⟨m, hwithin⟩ := within_eq (t := t) hx hy hk hk' hj hp
  rw [hwithin, bound_of_not_holds hj hp ht]
  rfl

/-- Two lone integers, or two lists of equally many, with the integers of the one and the other in
pairs. -/
inductive Paired : Grid (ℤ × ℤ) → Value → Value → Prop
  | lone (a b : ℤ) : Paired (.single (a, b)) (.int a) (.int b)
  | lists (ps : List (ℤ × ℤ)) :
    Paired (.vector ps) (.list (ps.map fun q => .int q.1)) (.list (ps.map fun q => .int q.2))

def close (t : ℤ) (p : Grid (ℤ × ℤ)) : Bool := p.entries.all fun q => |q.1 - q.2| < t

namespace Paired
variable {p : Grid (ℤ × ℤ)}

theorem left (h : Paired p x y) : x.toLeaves = .ok (p.map fun q => .int q.1) := by
  cases h with
  | lone a b => rfl
  | lists ps => exact Value.toLeaves_list_map (fun _ => ⟨rfl, rfl⟩) ps

theorem right (h : Paired p x y) : y.toLeaves = .ok (p.map fun q => .int q.2) := by
  cases h with
  | lone a b => rfl
  | lists ps => exact Value.toLeaves_list_map (fun _ => ⟨rfl, rfl⟩) ps

end Paired

theorem ofValue_of_toLeaves (h : x.toLeaves = .ok (p.map fun q => .int (l q)))
    (hk : ofLeaves ((p.entries.map l).map .int) = k) : Typed.ofValue x = .ok (whole k l p) := by
  subst hk
  rw [Typed.ofValue, h]
  change Except.ok (ofKind (ofLeaves (p.entries.map fun q => .int (l q))) _) = _
  rw [List.map_map]
  rfl

theorem wrap_of_word {n : ℤ} (h : Word n) : Kind.signed.wrap n = n := by
  obtain ⟨hlow, hhigh⟩ := h
  exact Int.bmod_eq_of_le (by norm_num; omega) (by norm_num; omega)

theorem gap_of_lt {d : ℤ} (h : |d| < 2 ^ 63) : Kind.signed.gap d = |d| := by
  have habs := abs_lt.1 h
  have hd : Word d := ⟨habs.1.le, habs.2⟩
  have hpos := abs_nonneg d
  have hsize : Word |d| := ⟨by omega, h⟩
  change Kind.signed.wrap |Kind.signed.wrap d| = |d|
  rw [wrap_of_word hd, wrap_of_word hsize]

/-- Wrapped differences of words are below a bound where the differences are, unless one of those
that leave the words is below it by chance, and every other difference is. -/
theorem all_gap_signed_iff {ps : List (ℤ × ℤ)} (ht : Word t) :
    (ps.all fun q => decide (Kind.signed.gap (q.1 - q.2) < t)) =
        (ps.all fun q => decide (|q.1 - q.2| < t)) ↔
      (∀ q ∈ ps, |q.1 - q.2| < 2 ^ 63) ∨ ∃ q ∈ ps, t ≤ Kind.signed.gap (q.1 - q.2) := by
  rw [Bool.eq_iff_iff]
  simp only [List.all_eq_true, decide_eq_true_iff]
  constructor
  · intro h
    by_cases hall : ∀ q ∈ ps, Kind.signed.gap (q.1 - q.2) < t
    · exact .inl fun q hq => (h.1 hall q hq).trans ht.2
    · exact .inr (by simpa using hall)
  · rintro (hlt | ⟨q, hq, hle⟩)
    · exact forall₂_congr fun q hq => by rw [gap_of_lt (hlt q hq)]
    · refine iff_of_false (fun h => (h q hq).not_ge hle) fun h => ?_
      have hq := h q hq
      rw [gap_of_lt (hq.trans ht.2)] at hle
      exact hq.not_ge hle

theorem wrap_of_unsigned {n : ℤ} (h0 : 0 ≤ n) (h : n < 2 ^ 64) : Kind.unsigned.wrap n = n :=
  Int.emod_eq_of_lt h0 h

/-- A difference of high words keeps its magnitude unless it is negative, and then becomes larger.
-/
theorem gap_unsigned {q : ℤ × ℤ} (h : HighWord q.1 ∧ HighWord q.2) :
    Kind.unsigned.gap (q.1 - q.2) =
      if q.2 ≤ q.1 then |q.1 - q.2| else 2 ^ 64 - |q.1 - q.2| := by
  obtain ⟨⟨h1, h1'⟩, h2, h2'⟩ := h
  change (q.1 - q.2) % 2 ^ 64 = _
  split_ifs with hle
  · rw [abs_of_nonneg (by omega)]
    omega
  · rw [abs_of_neg (by omega)]
    omega

/-- Wrapped differences of high words are below a bound where the differences are, unless one of
them is negative and gets too large. -/
theorem all_gap_unsigned_iff {ps : List (ℤ × ℤ)} (h : ∀ q ∈ ps, HighWord q.1 ∧ HighWord q.2) :
    (ps.all fun q => decide (Kind.unsigned.gap (q.1 - q.2) < t)) =
        (ps.all fun q => decide (|q.1 - q.2| < t)) ↔
      (∀ q ∈ ps, q.1 < q.2 → 2 ^ 64 - |q.1 - q.2| < t) ∨ ∃ q ∈ ps, t ≤ |q.1 - q.2| := by
  have hle : ∀ q ∈ ps, |q.1 - q.2| ≤ Kind.unsigned.gap (q.1 - q.2) := by
    intro q hq
    rw [gap_unsigned (h q hq)]
    obtain ⟨⟨h1, h1'⟩, h2, h2'⟩ := h q hq
    have habs : |q.1 - q.2| < 2 ^ 63 := abs_lt.2 ⟨by omega, by omega⟩
    split_ifs <;> omega
  rw [Bool.eq_iff_iff]
  simp only [List.all_eq_true, decide_eq_true_iff]
  constructor
  · intro hiff
    by_cases hall : ∀ q ∈ ps, |q.1 - q.2| < t
    · refine .inl fun q hq hlt => ?_
      have hgap := hiff.2 hall q hq
      rwa [gap_unsigned (h q hq), if_neg (not_le.2 hlt)] at hgap
    · exact .inr (by simpa using hall)
  · rintro (hneg | ⟨q, hq, hge⟩)
    · refine ⟨fun hall q hq => (hle q hq).trans_lt (hall q hq), fun hall q hq => ?_⟩
      rw [gap_unsigned (h q hq)]
      split_ifs with hq'
      · exact hall q hq
      · exact hneg q hq (not_le.1 hq')
    · exact iff_of_false (fun hall => ((hle q hq).trans_lt (hall q hq)).not_ge hge)
        fun hall => (hall q hq).not_ge hge

theorem wrap_of_holds (ht : Holds k t) (hk : k.Integral) : k.wrap t = t := by
  rcases hk with rfl | rfl | rfl
  · exact wrap_of_word ht
  · exact wrap_of_unsigned ht.1 ht.2
  · rfl

theorem all_congr_mem {ps : List δ} {f g : δ → Bool} (h : ∀ q ∈ ps, f q = g q) :
    ps.all f = ps.all g := by
  rw [Bool.eq_iff_iff, List.all_eq_true, List.all_eq_true]
  exact forall₂_congr fun q hq => by rw [h q hq]

/-- A value of integers that is read in a kind which holds them. -/
structure Read (x : Value) (k : Kind) (l : δ → ℤ) (p : Grid δ) : Prop where
  value : Typed.ofValue x = .ok (whole k l p)
  integral : k.Integral
  holds : ∀ q ∈ p.entries, Holds k (l q)

/-- The test on integers that are held by the kinds in which they are read. -/
theorem Read.within (hx : Read x k l p) (hy : Read y k' r p) (hj : (k.join k').Integral)
    (hp : k.join k' ≠ .any ∨ p.shape ≠ []) (ht : Holds (k.join k') t) :
    Closeness.within x y (.int t) (.int 0) =
      .ok (p.entries.all fun q => (k.join k').gap (l q - r q) < t) := by
  rw [within_of_holds hx.value hy.value hx.integral hy.integral hj hp ht]
  refine congrArg Except.ok (all_congr_mem fun q hq => ?_)
  rw [wrap_of_holds (hx.holds q hq) hx.integral, wrap_of_holds (hy.holds q hq) hy.integral,
    wrap_of_holds ht hj]

theorem Read.within_error (hx : Read x k l p) (hy : Read y k' r p) (hj : (k.join k').Integral)
    (hp : k.join k' ≠ .any ∨ p.shape ≠ []) (ht : ¬Holds (k.join k') t) :
    Closeness.within x y (.int t) (.int 0) = .error .tooLarge :=
  within_of_not_holds hx.value hy.value hx.integral hy.integral hj hp ht

theorem read_signed (hx : x.toLeaves = .ok (p.map fun q => .int (l q))) (hne : p.entries ≠ [])
    (hl : ∀ q ∈ p.entries, Word (l q)) : Read x .signed l p := by
  refine ⟨ofValue_of_toLeaves hx (ofLeaves_of_forall rfl (by simpa using hne) fun n hn => ?_),
    .inl rfl, hl⟩
  obtain ⟨q, hq, rfl⟩ := List.mem_map.1 hn
  exact ofLeaf_of_word (hl q hq)

theorem read_unsigned (hx : x.toLeaves = .ok (p.map fun q => .int (l q))) (hne : p.entries ≠ [])
    (hl : ∀ q ∈ p.entries, HighWord (l q)) : Read x .unsigned l p := by
  refine ⟨ofValue_of_toLeaves hx (ofLeaves_of_forall rfl (by simpa using hne) fun n hn => ?_),
    .inr (.inl rfl), fun q hq => ⟨le_trans (by norm_num) (hl q hq).1, (hl q hq).2⟩⟩
  obtain ⟨q, hq, rfl⟩ := List.mem_map.1 hn
  exact ofLeaf_of_highWord (hl q hq)

theorem read_any (hx : x.toLeaves = .ok (p.map fun q => .int (l q)))
    (hl : ∃ q ∈ p.entries, Beyond (l q)) : Read x .any l p := by
  obtain ⟨q, hq, hbeyond⟩ := hl
  exact ⟨ofValue_of_toLeaves hx (ofLeaves_of_exists ⟨_, List.mem_map_of_mem hq, hbeyond⟩),
    .inr (.inr rfl), fun _ _ => trivial⟩

/-- Integers of one kind, or some of them beyond words, are read as they are. -/
theorem exists_read (hx : x.toLeaves = .ok (p.map fun q => .int (l q)))
    (hl : (∃ q ∈ p.entries, Beyond (l q)) ∨ (∀ q ∈ p.entries, Word (l q)) ∧ p.entries ≠ [] ∨
      (∀ q ∈ p.entries, HighWord (l q)) ∧ p.entries ≠ []) :
    ∃ k, Read x k l p ∧ ((∃ q ∈ p.entries, Beyond (l q)) → k = .any) := by
  by_cases hbeyond : ∃ q ∈ p.entries, Beyond (l q)
  · exact ⟨_, read_any hx hbeyond, fun _ => rfl⟩
  · rcases hl with hl | ⟨hl, hne⟩ | ⟨hl, hne⟩
    · exact (hbeyond hl).elim
    · exact ⟨_, read_signed hx hne hl, fun hc => (hbeyond hc).elim⟩
    · exact ⟨_, read_unsigned hx hne hl, fun hc => (hbeyond hc).elim⟩

section Pairs
variable {p : Grid (ℤ × ℤ)}

/-- Signed words are compared rightly where the bound is one and no difference leaves the words, or
one of them is not below the bound in any case. -/
theorem within_signed_iff (h : Paired p x y) (hne : p.entries ≠ [])
    (hw : ∀ q ∈ p.entries, Word q.1 ∧ Word q.2) :
    within x y (.int t) (.int 0) = .ok (close t p) ↔
      Word t ∧ ((∀ q ∈ p.entries, |q.1 - q.2| < 2 ^ 63) ∨
        ∃ q ∈ p.entries, t ≤ Kind.signed.gap (q.1 - q.2)) := by
  have hx := read_signed h.left hne fun q hq => (hw q hq).1
  have hy := read_signed h.right hne fun q hq => (hw q hq).2
  have hp : Kind.signed ≠ .any ∨ p.shape ≠ [] := .inl (by decide)
  by_cases ht : Word t
  · rw [hx.within hy (.inl rfl) hp ht, Except.ok.injEq, ← all_gap_signed_iff ht]
    exact (and_iff_right ht).symm
  · rw [hx.within_error hy (.inl rfl) hp ht]
    exact iff_of_false (fun hc => by cases hc) fun hc => ht hc.1

/-- High words are compared rightly where the bound is an unsigned word and no negative difference
gets too large, or another one is too large in any case. -/
theorem within_unsigned_iff (h : Paired p x y) (hne : p.entries ≠ [])
    (hw : ∀ q ∈ p.entries, HighWord q.1 ∧ HighWord q.2) :
    within x y (.int t) (.int 0) = .ok (close t p) ↔ (0 ≤ t ∧ t < 2 ^ 64) ∧
      ((∀ q ∈ p.entries, q.1 < q.2 → 2 ^ 64 - |q.1 - q.2| < t) ∨
        ∃ q ∈ p.entries, t ≤ |q.1 - q.2|) := by
  have hx := read_unsigned h.left hne fun q hq => (hw q hq).1
  have hy := read_unsigned h.right hne fun q hq => (hw q hq).2
  have hp : Kind.unsigned ≠ .any ∨ p.shape ≠ [] := .inl (by decide)
  by_cases ht : 0 ≤ t ∧ t < 2 ^ 64
  · rw [hx.within hy (.inr (.inl rfl)) hp ht, Except.ok.injEq, ← all_gap_unsigned_iff hw]
    exact (and_iff_right ht).symm
  · rw [hx.within_error hy (.inr (.inl rfl)) hp ht]
    exact iff_of_false (fun hc => by cases hc) fun hc => ht hc.1

/-- Lists are compared rightly where one of them has an integer beyond words, if neither of them
becomes one of doubles. -/
theorem within_lists (h : Paired p x y) (hp : p.shape ≠ [])
    (hx : (∃ q ∈ p.entries, Beyond q.1) ∨ (∀ q ∈ p.entries, Word q.1) ∨
      ∀ q ∈ p.entries, HighWord q.1)
    (hy : (∃ q ∈ p.entries, Beyond q.2) ∨ (∀ q ∈ p.entries, Word q.2) ∨
      ∀ q ∈ p.entries, HighWord q.2)
    (hbeyond : ∃ q ∈ p.entries, Beyond q.1 ∨ Beyond q.2) :
    within x y (.int t) (.int 0) = .ok (close t p) := by
  have hne : p.entries ≠ [] := by
    obtain ⟨q, hq, -⟩ := hbeyond
    exact List.ne_nil_of_mem hq
  obtain ⟨k, hx, hk⟩ := exists_read h.left (hx.imp_right (Or.imp (⟨·, hne⟩) (⟨·, hne⟩)))
  obtain ⟨k', hy, hk'⟩ := exists_read h.right (hy.imp_right (Or.imp (⟨·, hne⟩) (⟨·, hne⟩)))
  have hj : k.join k' = .any := by
    obtain ⟨q, hq, hb | hb⟩ := hbeyond
    · rw [hk ⟨q, hq, hb⟩]
      rfl
    · rw [hk' ⟨q, hq, hb⟩, join_any]
  have hwithin := hx.within (t := t) hy (hj ▸ .inr (.inr rfl)) (.inr hp) (hj ▸ trivial)
  rw [hj] at hwithin
  exact hwithin

end Pairs

section Lone
variable {a b : ℤ} {c : δ}

theorem within_of_settle_error {x y : Value} {p : Grid δ} {e : Failure}
    (hx : Typed.ofValue x = .ok (whole k l p)) (hy : Typed.ofValue y = .ok (whole k' r p))
    (hk : k.Integral) (hk' : k'.Integral)
    (hs : settle (loosen (whole k (fun q => k.size (l q)) p))
      (loosen (whole k' (fun q => k'.size (r q)) p)) = .error e) (absolute relative : Value) :
    within x y absolute relative = .error e := by
  rw [within, hx, hy]
  simp only [bind, Except.bind, magnitude_whole hk, magnitude_whole hk', hs]

/-- The difference of lone integers of any kind is exact, and so is its comparison with a word. -/
theorem within_lone_of_settle {m n : ℤ × ℤ → ℤ}
    (hx : Read x k Prod.fst (.single (a, b))) (hy : Read y k' Prod.snd (.single (a, b)))
    (hj : k.join k' = .any) (hd : Beyond (a - b))
    (hs : settle (loosen (whole k (fun q => k.size q.1) (.single (a, b))))
      (loosen (whole k' (fun q => k'.size q.2) (.single (a, b)))) =
        .ok (whole .unsigned m (.single (a, b)), whole .unsigned n (.single (a, b)))) :
    within x y (.int t) (.int 0) = .ok (close t (.single (a, b))) ↔ 0 ≤ t ∧ t < 2 ^ 64 := by
  have hu : Kind.unsigned.Integral := .inr (.inl rfl)
  have hany : Kind.any.Integral := .inr (.inr rfl)
  have hp : Kind.unsigned ≠ .any ∨ (Grid.single (a, b)).shape ≠ [] := .inl (by decide)
  obtain ⟨larger, hlarger⟩ := exists_larger_whole (zips_self (.single (a, b))) hu hu hu m n
  rw [join_self hu] at hlarger
  have hcombine := combine_whole (zips_self (.single (a, b))) lawful_subtraction hx.integral
    hy.integral (hj ▸ hany) Prod.fst Prod.snd
  have hdiff : narrow (loosen (whole (k.join k') (fun q => subtraction.int (k.wrap (id q).1)
      (k'.wrap q.2)) (.single (a, b)))) = .ok (whole .any (fun q => q.1 - q.2) (.single (a, b))) := by
    have ha := wrap_of_holds (hx.holds (a, b) (List.mem_singleton_self _)) hx.integral
    have hb := wrap_of_holds (hy.holds (a, b) (List.mem_singleton_self _)) hy.integral
    rw [hj]
    change narrow (.int (k.wrap a - k'.wrap b)) = _
    rw [ha, hb]
    exact ofValue_of_toLeaves (p := .single (a, b)) rfl
      (ofLeaves_of_exists ⟨_, List.mem_singleton_self _, hd⟩)
  rw [within, hx.value, hy.value]
  simp only [bind, Except.bind, magnitude_whole hx.integral, magnitude_whole hy.integral, hs,
    hlarger, hcombine, hdiff, magnitude_whole hany]
  by_cases ht : Holds .unsigned t
  · obtain ⟨limit, hbound, hlimit⟩ := bound_whole hu hp ht larger
    have hless := less_whole (zips_self (.single (a, b))) hany hu
      (fun q => Kind.any.size (q.1 - q.2)) limit
    simp only [hlimit, wrap_of_unsigned ht.1 ht.2] at hless
    rw [hbound]
    refine iff_of_true ?_ ht
    dsimp only
    rw [hless]
    rfl
  · rw [bound_of_not_holds hu hp ht]
    exact iff_of_false (fun hc => by cases hc) ht

theorem read_lone_any (h : Beyond (l c)) : Read (.int (l c)) .any l (.single c) :=
  read_any rfl ⟨c, List.mem_singleton_self c, h⟩

theorem read_lone_signed (h : Word (l c)) : Read (.int (l c)) .signed l (.single c) :=
  read_signed rfl (List.cons_ne_nil c []) (List.forall_mem_singleton.2 h)

theorem read_lone_unsigned (h : HighWord (l c)) : Read (.int (l c)) .unsigned l (.single c) :=
  read_unsigned rfl (List.cons_ne_nil c []) (List.forall_mem_singleton.2 h)

theorem not_word_abs {n : ℤ} (h : Beyond n) : ¬Word |n| := fun hw => by
  have habs := abs_lt.1 hw.2
  unfold Beyond at h
  omega

theorem not_beyond_of_highWord {n : ℤ} (h : HighWord n) : ¬Beyond n := fun hb => by
  obtain ⟨hlow, hhigh⟩ := h
  unfold Beyond at hb
  omega

/-- An integer beyond words of a small magnitude is negative, and far from each high word. -/
theorem beyond_sub {m n : ℤ} (hm : Beyond m) (hn : HighWord n) (hlt : |m| < 2 ^ 64) :
    Beyond (m - n) ∧ Beyond (n - m) := by
  have habs := abs_lt.1 hlt
  obtain ⟨hlow, hhigh⟩ := hn
  unfold Beyond at hm ⊢
  omega

/-- The magnitude of an integer beyond words has to be a word of the kind that it meets. -/
theorem settle_beyond {n : ℤ} (hk : k.Integral) (hn : ¬Holds k n) (m : δ → ℤ) (p : Grid δ) :
    settle (.int n) (.grid (whole k m p)) = .error .tooLarge ∧
      settle (.grid (whole k m p)) (.int n) = .error .tooLarge := by
  simp only [settle, kind_whole, adapt_of_not_holds hk hn, bind, Except.bind, and_self]

theorem settle_unsigned {n : ℤ} (hn : Holds .unsigned n) (m : δ → ℤ) (c : δ) :
    settle (.int n) (.grid (whole .unsigned m (.single c))) =
        .ok (whole .unsigned (fun _ => n) (.single c), whole .unsigned m (.single c)) ∧
      settle (.grid (whole .unsigned m (.single c))) (.int n) =
        .ok (whole .unsigned m (.single c), whole .unsigned (fun _ => n) (.single c)) := by
  simp only [settle, kind_whole, adapt_of_holds (.inr (.inl rfl)) hn, bind, Except.bind]
  exact ⟨rfl, rfl⟩

/-- Lone integers of which one is beyond words are compared rightly where the other one is a high
word, and the magnitudes and the bound are below the next power of two. -/
theorem within_lone_iff (h : Beyond a ∨ Beyond b) :
    within (.int a) (.int b) (.int t) (.int 0) = .ok (close t (.single (a, b))) ↔
      (HighWord a ∧ |b| < 2 ^ 64 ∨ HighWord b ∧ |a| < 2 ^ 64) ∧ 0 ≤ t ∧ t < 2 ^ 64 := by
  have hu : Kind.unsigned.Integral := .inr (.inl rfl)
  have hsmall {n : ℤ} : Holds .unsigned |n| ↔ |n| < 2 ^ 64 := and_iff_right (abs_nonneg n)
  by_cases ha : Beyond a
  · have hx := read_lone_any (l := Prod.fst) (c := (a, b)) ha
    have hhigh : ¬HighWord a := fun hh => not_beyond_of_highWord hh ha
    by_cases hb : Beyond b
    · have hy := read_lone_any (l := Prod.snd) (c := (a, b)) hb
      have hhigh' : ¬HighWord b := fun hh => not_beyond_of_highWord hh hb
      have hs : settle (.int |a|) (.int |b|) = .error .tooLarge := by
        simp only [settle, adapt_of_not_holds (.inl rfl) (not_word_abs ha), bind, Except.bind]
      rw [within_of_settle_error hx.value hy.value hx.integral hy.integral hs]
      exact iff_of_false (fun hc => by cases hc) fun hc => by tauto
    · rcases word_or_highWord hb with hb | hb
      · have hy := read_lone_signed (l := Prod.snd) (c := (a, b)) hb
        have hhigh' : ¬HighWord b := fun hh => hb.2.not_ge hh.1
        have hs := (settle_beyond (.inl rfl) (not_word_abs ha)
          (fun q => Kind.signed.size q.2) (.single (a, b))).1
        rw [within_of_settle_error hx.value hy.value hx.integral hy.integral hs]
        exact iff_of_false (fun hc => by cases hc) fun hc => by tauto
      · have hy := read_lone_unsigned (l := Prod.snd) (c := (a, b)) hb
        by_cases hlt : Holds .unsigned |a|
        · have hs := (settle_unsigned hlt (fun q => Kind.unsigned.size q.2) (a, b)).1
          rw [within_lone_of_settle hx hy rfl (beyond_sub ha hb (hsmall.1 hlt)).1 hs]
          exact (and_iff_right (.inr ⟨hb, hsmall.1 hlt⟩)).symm
        · have hs := (settle_beyond hu hlt (fun q => Kind.unsigned.size q.2) (.single (a, b))).1
          rw [within_of_settle_error hx.value hy.value hx.integral hy.integral hs]
          rw [hsmall] at hlt
          exact iff_of_false (fun hc => by cases hc) fun hc => by tauto
  · have hb := h.resolve_left ha
    have hy := read_lone_any (l := Prod.snd) (c := (a, b)) hb
    have hhigh' : ¬HighWord b := fun hh => not_beyond_of_highWord hh hb
    rcases word_or_highWord ha with ha | ha
    · have hx := read_lone_signed (l := Prod.fst) (c := (a, b)) ha
      have hhigh : ¬HighWord a := fun hh => ha.2.not_ge hh.1
      have hs := (settle_beyond (.inl rfl) (not_word_abs hb)
        (fun q => Kind.signed.size q.1) (.single (a, b))).2
      rw [within_of_settle_error hx.value hy.value hx.integral hy.integral hs]
      exact iff_of_false (fun hc => by cases hc) fun hc => by tauto
    · have hx := read_lone_unsigned (l := Prod.fst) (c := (a, b)) ha
      by_cases hlt : Holds .unsigned |b|
      · have hs := (settle_unsigned hlt (fun q => Kind.unsigned.size q.1) (a, b)).2
        rw [within_lone_of_settle hx hy rfl (beyond_sub hb ha (hsmall.1 hlt)).2 hs]
        exact (and_iff_right (.inl ⟨ha, hsmall.1 hlt⟩)).symm
      · have hs := (settle_beyond hu hlt (fun q => Kind.unsigned.size q.1) (.single (a, b))).2
        rw [within_of_settle_error hx.value hy.value hx.integral hy.integral hs]
        rw [hsmall] at hlt
        exact iff_of_false (fun hc => by cases hc) fun hc => by tauto

end Lone

section Reals
open Number

theorem two_pow_le {j : ℕ} (h : 64 ≤ j) : 2 ^ 64 ≤ (2 ^ 54 - 1) * 2 ^ j :=
  (Nat.pow_le_pow_right two_pos h).trans (Nat.le_mul_of_pos_left _ (by decide))

theorem isFinite_double {n : ℤ} (h : |n| < 2 ^ 64) : (double (.int n)).isFinite = true := by
  have habs : n.natAbs < 2 ^ 64 := by
    rw [Int.abs_eq_natAbs] at h
    omega
  exact isFinite_nearest (habs.trans_le (two_pow_le (by decide))) _

/-- A grid of words or doubles that meets others as one of certain finite doubles. -/
structure Reals (a : Typed) (d : δ → Float) (p : Grid δ) : Prop where
  kind : a.kind = .signed ∨ a.kind = .unsigned ∨ a.kind = .real
  leaves : ofKind .real a.leaves = .real (p.map d)
  finite : ∀ q ∈ p.entries, (d q).isFinite = true

theorem Reals.loosen {a : Typed} {d : δ → Float} (h : Reals a d p) : Typed.loosen a = .grid a := by
  cases a with
  | any a => rcases h.kind with h | h | h <;> cases h
  | _ => rfl

theorem reals_real {d : δ → Float} (h : ∀ q ∈ p.entries, (d q).isFinite = true) :
    Reals (.real (p.map d)) d p := by
  refine ⟨.inr (.inr rfl), ?_, h⟩
  simp only [leaves, ofKind, map_map]
  rfl

theorem map_congr_mem {β : Type} {f g : δ → β} (h : ∀ q ∈ p.entries, f q = g q) :
    p.map f = p.map g := by
  simp only [Grid.map, List.map_congr_left h]

/-- Words of one kind, or words that became doubles. -/
def Mixed (k : Kind) (l : δ → ℤ) (p : Grid δ) : Prop :=
  k = .signed ∧ (∀ q ∈ p.entries, Word (l q)) ∨ k = .unsigned ∧ (∀ q ∈ p.entries, HighWord (l q)) ∨
    k = .real ∧ ∀ q ∈ p.entries, ¬Beyond (l q)

theorem abs_lt_of_not_beyond {n : ℤ} (h : ¬Beyond n) : |n| < 2 ^ 64 := by
  unfold Beyond at h
  exact abs_lt.2 ⟨by omega, by omega⟩

/-- Words are read as finite doubles, whatever integers they stand for. -/
theorem reals_words (hk : k = .signed ∨ k = .unsigned) (n : δ → ℤ) :
    Reals (whole k n p) (fun q => double (.int (k.wrap (n q)))) p := by
  have hi : k.Integral := hk.imp_right .inl
  refine ⟨?_, ?_, fun q _ => isFinite_double ?_⟩
  · rw [kind_whole]
    exact hk.imp_right .inl
  · rw [leaves_whole hi]
    simp only [ofKind, map_map]
    rfl
  · rcases hk with rfl | rfl
    · have hlow : -(2 ^ 64 / 2) ≤ (n q).bmod (2 ^ 64) := Int.le_bmod (by decide)
      have hhigh : (n q).bmod (2 ^ 64) < (2 ^ 64 + 1) / 2 := Int.bmod_lt (by decide)
      exact abs_lt.2 ⟨by change _ < (n q).bmod _; omega, by change (n q).bmod _ < _; omega⟩
    · have hlow : 0 ≤ n q % 2 ^ 64 := Int.emod_nonneg _ (by decide)
      have hhigh : n q % 2 ^ 64 < 2 ^ 64 := Int.emod_lt_of_pos _ (by decide)
      exact abs_lt.2 ⟨by change _ < n q % _; omega, hhigh⟩

theorem reals_whole (h : Mixed k l p) : Reals (whole k l p) (fun q => double (.int (l q))) p := by
  have hread (hk : k = .signed ∨ k = .unsigned) (hl : ∀ q ∈ p.entries, k.wrap (l q) = l q) :
      Reals (whole k l p) (fun q => double (.int (l q))) p := by
    obtain ⟨hkind, hleaves, hfinite⟩ := reals_words (p := p) hk l
    refine ⟨hkind, hleaves.trans ?_, fun q hq => hl q hq ▸ hfinite q hq⟩
    exact congrArg Typed.real (map_congr_mem fun q hq => by rw [hl q hq])
  rcases h with ⟨rfl, h⟩ | ⟨rfl, h⟩ | ⟨rfl, h⟩
  · exact hread (.inl rfl) fun q hq => wrap_of_word (h q hq)
  · exact hread (.inr rfl) fun q hq =>
      wrap_of_unsigned (le_trans (by norm_num) (h q hq).1) (h q hq).2
  · have hwhole : whole .real l p = .real (p.map fun q => double (.int (l q))) := by
      simp only [whole, ofKind, map_map]
      rfl
    rw [hwhole]
    exact reals_real fun q hq => isFinite_double (abs_lt_of_not_beyond (h q hq))

theorem exists_magnitude_reals (h : Mixed k l p) :
    ∃ a d, magnitude (whole k l p) = .ok a ∧ a.kind = k ∧ Reals a d p := by
  rcases h with ⟨rfl, h⟩ | ⟨rfl, h⟩ | ⟨rfl, h⟩
  · exact ⟨_, _, magnitude_whole (.inl rfl) l p, rfl, reals_words (.inl rfl) _⟩
  · exact ⟨_, _, magnitude_whole (.inr (.inl rfl)) l p, rfl, reals_words (.inr rfl) _⟩
  · refine ⟨_, fun q => (double (.int (l q))).abs, rfl, rfl, ?_⟩
    rw [map_map, map_map]
    exact reals_real fun q hq =>
      (isFinite_abs _).trans (isFinite_double (abs_lt_of_not_beyond (h q hq)))

theorem leaves_real (d : δ → Float) (p : Grid δ) :
    ofKind .real (Typed.real (p.map d)).leaves = .real (p.map d) := by
  simp only [leaves, ofKind, map_map]
  rfl

theorem combine_reals {ε : Type} {q : Grid ε} {left : δ → ε} (hz : Zips q p left) {a b : Typed}
    {d : ε → Float} {e : δ → Float} (op : Arithmetic)
    (ha : ofKind .real a.leaves = .real (q.map d)) (hb : ofKind .real b.leaves = .real (p.map e))
    (hj : a.kind.join b.kind = .real) :
    combine op a b = .ok (.real (p.map fun x => op.real (d (left x)) (e x))) := by
  rw [combine, meet, hj, ha, hb]
  change (do return Typed.real (← zip op.real (q.map d) (p.map e))) = _
  rw [hz]
  rfl

theorem larger_reals {a b : Typed} {d e : δ → Float} (ha : Reals a d p) (hb : Reals b e p)
    (hj : a.kind.join b.kind = .real) :
    larger a b = .ok (.real (p.map fun q => largerFloat (d q) (e q))) := by
  rw [larger, meet, hj, ha.leaves, hb.leaves]
  change (do return Typed.real (← zip largerFloat (p.map d) (p.map e))) = _
  rw [zips_self p]
  rfl

theorem less_reals (d e : δ → Float) (p : Grid δ) :
    less (.real (p.map d)) (.real (p.map e)) = .ok (p.map fun q => decide (d q < e q)) := by
  have hjoin : Kind.real.join .real = .real := rfl
  simp only [less, kind, meet, hjoin, leaves_real]
  exact zips_self p _ d e

theorem bound_reals (d : δ → Float) (p : Grid δ) : bound (.int t) (.int 0) (.real (p.map d)) =
    (do
      let limit ← Value.roundInt t
      return .real (p.map fun q => limit + 0 * d q)) := by
  have hzero : Value.roundInt 0 = .ok 0 := rfl
  have hsingle {n : ℤ} {x : Float} (hn : Value.roundInt n = .ok x) (op : Arithmetic)
      (e : δ → Float) : apply op (.int n) (.grid (.real (p.map e))) =
        .ok (.real (p.map fun q => op.real x (e q))) := by
    have hcombine := combine_reals (zips_single () p) (d := fun _ => x) op
      (leaves_real _ _) (leaves_real e p) rfl
    have hadapt : adapt n .real = .ok (.real ((Grid.single ()).map fun _ => x)) := by
      rw [adapt, hn]
      rfl
    simp only [apply, settle, kind, hadapt, bind, Except.bind]
    exact hcombine
  change (apply multiplication (.int 0) (.grid (.real (p.map d))) >>= fun scaled =>
    apply addition (.int t) (loosen scaled)) = _
  rw [hsingle hzero]
  change apply addition (.int t) (.grid (.real (p.map fun q => 0 * d q))) = _
  cases ht : Value.roundInt t with
  | error e => simp only [apply, settle, kind, adapt, ht, bind, Except.bind]
  | ok limit =>
    rw [hsingle ht]
    rfl

theorem within_reals (hx : Typed.ofValue x = .ok (whole k l p))
    (hy : Typed.ofValue y = .ok (whole k' r p)) (hk : Mixed k l p) (hk' : Mixed k' r p)
    (hj : k.join k' = .real) :
    within x y (.int t) (.int 0) = (Value.roundInt t).map fun limit => p.entries.all fun q =>
      (double (.int (l q)) - double (.int (r q))).abs < limit := by
  obtain ⟨ma, da, hma, hka, hra⟩ := exists_magnitude_reals hk
  obtain ⟨mb, db, hmb, hkb, hrb⟩ := exists_magnitude_reals hk'
  have hja : ma.kind.join mb.kind = .real := by rw [hka, hkb, hj]
  have hjw : (whole k l p).kind.join (whole k' r p).kind = .real := by
    rw [kind_whole, kind_whole, hj]
  have hdiff := combine_reals (zips_self p) subtraction (reals_whole hk).leaves
    (reals_whole hk').leaves hjw
  rw [within, hx, hy]
  simp only [bind, Except.bind, hma, hmb, hra.loosen, hrb.loosen, settle, larger_reals hra hrb hja,
    bound_reals, hdiff]
  cases ht : Value.roundInt t with
  | error e => rfl
  | ok limit =>
    change (less (.real ((p.map _).map Float.abs)) (.real (p.map _)) >>= fun below =>
      Except.ok (below.entries.all id)) = _
    rw [map_map, less_reals]
    refine congrArg Except.ok (List.all_map.trans (all_congr_mem fun q hq => ?_))
    have hfinite : (largerFloat (da q) (db q)).isFinite = true := by
      unfold largerFloat
      split
      · exact hra.finite q hq
      · exact hrb.finite q hq
    exact decide_eq_decide.2 (lt_add_zero_mul_iff hfinite _ _)

end Reals

end Closeness
end RootFinding
