import RootFinding.Proofs.Grid.Closeness

/-!
# The test of closeness on integers

Lists of which one has an integer beyond words and the other became doubles are compared entry by
entry: an integer and a double differ as doubles, and the bound is a double as well where the double
is the larger one. With this, what the test gives is known for all pairs of integers.
-/
namespace RootFinding
namespace Closeness
open Typed Kind Number
variable {δ : Type} {p : Grid δ} {k k' : Kind} {l r : δ → ℤ} {x y : Value} {t : ℤ}

theorem roundInt_eq_ok_or (n : ℤ) :
    (∃ a, Value.roundInt n = .ok a) ∨ Value.roundInt n = .error .tooLarge := by
  unfold Value.roundInt
  cases ofInt? n with
  | some a => exact .inl ⟨a, rfl⟩
  | none => exact .inr rfl

section Crossings
variable {a b : Typed} {v w v' w' : δ → Value} {n : δ → ℤ} {d : δ → Float} {exact : δ → Bool}
  {difference : δ → Float → Float}

/-- The test on an integer and a double, which differ as doubles do. The bound is exact or a double
as well. -/
def crossing (t : ℤ) (exact : Bool) (n : ℤ) (difference : Float → Float) : Except Failure Bool := do
  let distance := (difference (← Value.roundInt n)).abs
  if exact then Value.isBelow (.ofFloat distance) (.int t)
  else return distance < (← Value.roundInt t)

/-- A grid with its entries as values, and their magnitudes. -/
structure Entries (a : Typed) (v v' : δ → Value) (p : Grid δ) : Prop where
  leaves : a.leaves = p.map v
  magnitude : ∃ b, Typed.magnitude a = .ok b ∧ b.kind = a.kind ∧ b.leaves = p.map v' ∧
    loosen b = .grid b

theorem loosen_any {g : Grid Value} (h : g.shape ≠ []) : loosen (.any g) = .grid (.any g) := by
  rw [loosen]
  split
  · exact (h ‹_›).elim
  · exact (h ‹_›).elim
  · rfl

theorem entries_any (hp : p.shape ≠ []) (n : δ → ℤ) :
    Entries (whole .any n p) (fun q => .int (n q)) (fun q => .int |n q|) p :=
  ⟨rfl, _, magnitude_whole (.inr (.inr rfl)) n p, rfl, rfl, loosen_any hp⟩

theorem entries_real (n : δ → ℤ) : Entries (whole .real n p)
    (fun q => .ofFloat (double (.int (n q)))) (fun q => .ofFloat (double (.int (n q))).abs) p := by
  refine ⟨?_, _, rfl, rfl, ?_, rfl⟩
  · simp only [whole, ofKind, leaves, map_map]
    rfl
  · simp only [leaves, map_map]
    rfl

theorem combine_any (hj : a.kind.join b.kind = .any) (op : Arithmetic) :
    combine op a b = (zipM (applyAny op) a.leaves b.leaves).map .any := by
  rw [combine, meet, hj]
  rfl

theorem larger_any (hj : a.kind.join b.kind = .any) :
    larger a b = (zipM largerAny a.leaves b.leaves).map .any := by
  rw [larger, meet, hj]
  rfl

theorem toFloat_int (m : ℤ) : (Value.int m).toFloat = Value.roundInt m := by
  rw [Value.toFloat, Value.toDouble]
  cases Value.roundInt m <;> rfl

theorem applyAny_int_real (op : Arithmetic) (m : ℤ) (d : Float) :
    applyAny op (.int m) (.ofFloat d) =
      (Value.roundInt m).map fun a => .ofFloat (op.real a d) := by
  change (do return Value.ofFloat (op.real (← (Value.int m).toFloat) d)) = _
  rw [toFloat_int]
  cases Value.roundInt m <;> rfl

theorem applyAny_real_int (op : Arithmetic) (d : Float) (m : ℤ) :
    applyAny op (.ofFloat d) (.int m) =
      (Value.roundInt m).map fun a => .ofFloat (op.real d a) := by
  change (do return Value.ofFloat (op.real d (← (Value.int m).toFloat))) = _
  rw [toFloat_int]
  cases Value.roundInt m <;> rfl

theorem apply_int_any (op : Arithmetic) (m : ℤ) (w : δ → Value) :
    apply op (.int m) (.grid (.any (p.map w))) =
      (gather p fun q => applyAny op (.int m) (w q)).map .any := by
  have hcombine : combine op (.any (.single (.int m))) (.any (p.map w)) = _ := combine_any rfl op
  exact hcombine.trans (congrArg _ (Zips.zipM_eq (zips_single () p) (applyAny op) (fun _ => .int m) w))

def limit (t : ℤ) (exact : Bool) (d : Float) : Except Failure Value :=
  if exact then .ok (.int t) else (Value.roundInt t).map fun bound => .ofFloat (bound + 0 * d.abs)

theorem bound_any (hp : p.shape ≠ []) : bound (.int t) (.int 0)
      (.any (p.map fun q => if exact q then .int |n q| else .ofFloat (d q).abs)) =
    (gather p fun q => limit t (exact q) (d q)).map .any := by
  have hscaled : (gather p fun q => applyAny multiplication (.int 0)
      (if exact q then .int |n q| else .ofFloat (d q).abs)) =
        .ok (p.map fun q => if exact q then .int 0 else .ofFloat (0 * (d q).abs)) := by
    refine gather_eq_ok fun q _ => ?_
    cases exact q with
    | true => exact congrArg (fun m => Except.ok (Value.int m)) (zero_mul _)
    | false => rfl
  change (apply multiplication (.int 0) (.grid (.any _)) >>= fun scaled =>
    apply addition (.int t) (loosen scaled)) = _
  rw [apply_int_any, hscaled]
  change apply addition (.int t) (loosen (.any _)) = _
  rw [loosen_any hp, apply_int_any]
  congr 2
  funext q
  cases exact q with
  | true => exact congrArg (fun m => Except.ok (Value.int m)) (add_zero t)
  | false =>
    exact applyAny_int_real addition t (0 * (d q).abs)

theorem isBelow_real (c d : Float) :
    Value.isBelow (.ofFloat c) (.ofFloat d) = .ok (decide (c < d)) := by
  change Except.ok ((if c < d then some Ordering.lt else _) == some .lt) = _
  by_cases h : c < d
  · rw [if_pos h, decide_eq_true h]
    rfl
  · rw [if_neg h, decide_eq_false h]
    split
    · rfl
    · split <;> rfl

section Entry
variable {exact : Bool} {n : ℤ} {d z : Float} {difference : Float → Float} {bound : Value}

theorem limit_eq_ok_or (t : ℤ) (exact : Bool) (d : Float) :
    (∃ bound, limit t exact d = .ok bound) ∨ limit t exact d = .error .tooLarge := by
  cases exact with
  | true => exact .inl ⟨_, rfl⟩
  | false =>
    rcases roundInt_eq_ok_or t with ⟨c, hc⟩ | hc
    · exact .inl ⟨_, congrArg (Except.map _) hc⟩
    · exact .inr (congrArg (Except.map _) hc)

theorem crossing_eq (hz : Value.roundInt n = .ok z) (hl : limit t exact d = .ok bound)
    (hd : d.isFinite = true) :
    crossing t exact n difference = Value.isBelow (.ofFloat (difference z).abs) bound := by
  simp only [crossing, hz]
  cases exact with
  | true =>
    cases hl
    rfl
  | false =>
    obtain ⟨c, hc, rfl⟩ := exists_of_map_eq_ok hl
    have hiff := lt_add_zero_mul_iff ((isFinite_abs d).trans hd) (difference z).abs c
    rw [isBelow_real, decide_eq_decide.2 hiff]
    simp only [hc, bind, Except.bind]
    rfl

theorem exists_crossing_eq_ok (hz : Value.roundInt n = .ok z) (hl : limit t exact d = .ok bound) :
    ∃ c, crossing t exact n difference = .ok c := by
  simp only [crossing, hz]
  cases exact with
  | true => exact ⟨_, rfl⟩
  | false =>
    obtain ⟨c, hc, -⟩ := exists_of_map_eq_ok hl
    simp only [hc, bind, Except.bind]
    exact ⟨_, rfl⟩

theorem crossing_eq_error
    (h : Value.roundInt n = .error .tooLarge ∨ limit t exact d = .error .tooLarge) :
    crossing t exact n difference = .error .tooLarge := by
  rcases roundInt_eq_ok_or n with ⟨z, hz⟩ | hz
  · have hl := h.resolve_left fun hc => by cases hz.symm.trans hc
    cases exact with
    | true => cases hl
    | false =>
      rcases roundInt_eq_ok_or t with ⟨c, hc⟩ | hc
      · cases hl.symm.trans (congrArg (Except.map _) hc)
      · simp only [crossing, hz, hc]
        rfl
  · rw [crossing, hz]
    rfl

theorem crossing_eq_ok_or (t : ℤ) (exact : Bool) (n : ℤ) (difference : Float → Float) :
    (∃ c, crossing t exact n difference = .ok c) ∨
      crossing t exact n difference = .error .tooLarge := by
  rcases roundInt_eq_ok_or n with ⟨z, hz⟩ | hz
  · rcases limit_eq_ok_or t exact 0 with ⟨bound, hl⟩ | hl
    · exact .inl (exists_crossing_eq_ok hz hl)
    · exact .inr (crossing_eq_error (.inr hl))
  · exact .inr (crossing_eq_error (d := 0) (.inl hz))

end Entry

theorem magnitude_doubles (f : δ → Float) (p : Grid δ) :
    magnitude (.any (p.map fun q => .ofFloat (f q))) =
      .ok (.any (p.map fun q => .ofFloat (f q).abs)) := by
  have hentries : ((p.map fun q => Value.ofFloat (f q)).entries).mapM absAny =
      .ok (p.entries.map fun q => .ofFloat (f q).abs) := by
    change (p.entries.map fun q => Value.ofFloat (f q)).mapM absAny = _
    rw [List.mapM_map]
    exact mapM_eq_ok fun q _ => rfl
  simp only [magnitude, hentries, bind, Except.bind, Grid.shape_map, ofEntries?_map]
  rfl

theorem shape_of_gather {β : Type} {f : δ → Except Failure β} {g : Grid β}
    (h : gather p f = .ok g) : g.shape = p.shape := by
  obtain ⟨entries, -, h⟩ := exists_of_bind_eq_ok h
  unfold Grid.ofEntries? at h
  split_ifs at h
  cases h
  rfl

variable (hp : p.shape ≠ []) (hx : Typed.ofValue x = .ok a) (hy : Typed.ofValue y = .ok b)
  (ha : Entries a v v' p) (hb : Entries b w w' p) (hj : a.kind.join b.kind = .any)
  (hlarger : ∀ q ∈ p.entries, largerAny (v' q) (w' q) =
    .ok (if exact q then .int |n q| else .ofFloat (d q).abs))
  (hdifference : ∀ q ∈ p.entries, applyAny subtraction (v q) (w q) =
    (Value.roundInt (n q)).map fun z => .ofFloat (difference q z))

include hp hx hy ha hb hj hlarger in
theorem within_any : within x y (.int t) (.int 0) =
    (do
      let limits ← gather p fun q => limit t (exact q) (d q)
      let differences ← gather p fun q => applyAny subtraction (v q) (w q)
      let below ← less (← magnitude (.any differences)) (.any limits)
      .ok (below.entries.all id)) := by
  obtain ⟨a', hma, hka, hla, ha'⟩ := ha.magnitude
  obtain ⟨b', hmb, hkb, hlb, hb'⟩ := hb.magnitude
  have hlarger' : larger a' b' = .ok (.any (p.map fun q =>
      if exact q then .int |n q| else .ofFloat (d q).abs)) := by
    rw [larger_any (by rw [hka, hkb, hj]), hla, hlb]
    exact congrArg (Except.map _) (Zips.zipM (zips_self p) hlarger)
  have hcombine : combine subtraction a b =
      (gather p fun q => applyAny subtraction (v q) (w q)).map .any := by
    rw [combine_any hj, ha.leaves, hb.leaves]
    exact congrArg (Except.map _) (Zips.zipM_eq (zips_self p) ..)
  rw [within, hx, hy]
  simp only [bind, Except.bind, hma, hmb, ha', hb', settle, hlarger', bound_any hp, hcombine]
  cases gather p fun q => limit t (exact q) (d q) with
  | error cause => rfl
  | ok limits =>
    cases hg : gather p fun q => applyAny subtraction (v q) (w q) with
    | error cause => rfl
    | ok differences =>
      have hshape : differences.shape ≠ [] := by rwa [shape_of_gather hg]
      simp only [Except.map, loosen_any hshape]
      rfl

include hp hx hy ha hb hj hlarger hdifference in
/-- Where an integer and a double are at each place, the test is that on these. -/
theorem within_crossing (hd : ∀ q ∈ p.entries, (d q).isFinite = true) :
    within x y (.int t) (.int 0) = (p.entries.mapM fun q =>
      crossing t (exact q) (n q) (difference q)).map fun below => below.all id := by
  rw [within_any hp hx hy ha hb hj hlarger]
  by_cases hfails : ∃ q ∈ p.entries,
    Value.roundInt (n q) = .error .tooLarge ∨ limit t (exact q) (d q) = .error .tooLarge
  · rw [mapM_eq_error (fun q _ => crossing_eq_ok_or ..)
      (hfails.imp fun q hq => ⟨hq.1, crossing_eq_error hq.2⟩)]
    by_cases hlimit : ∃ q ∈ p.entries, limit t (exact q) (d q) = .error .tooLarge
    · rw [gather_eq_error (fun q _ => limit_eq_ok_or ..) hlimit]
      rfl
    · have hbound : ∀ q ∈ p.entries, ∃ bound, limit t (exact q) (d q) = .ok bound :=
        fun q hq => (limit_eq_ok_or ..).resolve_right fun hc => hlimit ⟨q, hq, hc⟩
      choose! bound hbound using hbound
      have hdifferences : gather p (fun q => applyAny subtraction (v q) (w q)) =
          .error .tooLarge := by
        refine gather_eq_error (fun q hq => ?_) ?_
        · rw [hdifference q hq]
          rcases roundInt_eq_ok_or (n q) with ⟨z, hz⟩ | hz
          · exact .inl ⟨_, congrArg (Except.map _) hz⟩
          · exact .inr (congrArg (Except.map _) hz)
        · obtain ⟨q, hq, hround | hc⟩ := hfails
          · exact ⟨q, hq, (hdifference q hq).trans (congrArg (Except.map _) hround)⟩
          · exact (hlimit ⟨q, hq, hc⟩).elim
      rw [gather_eq_ok hbound, hdifferences]
      rfl
  · have hall : ∀ q ∈ p.entries, ∃ z bound, Value.roundInt (n q) = .ok z ∧
        limit t (exact q) (d q) = .ok bound := by
      intro q hq
      obtain ⟨z, hz⟩ := (roundInt_eq_ok_or (n q)).resolve_right fun hc => hfails ⟨q, hq, .inl hc⟩
      obtain ⟨bound, hbound⟩ := (limit_eq_ok_or t (exact q) (d q)).resolve_right
        fun hc => hfails ⟨q, hq, .inr hc⟩
      exact ⟨z, bound, hz, hbound⟩
    choose! z bound hz hbound using hall
    have hcrossing : ∀ q ∈ p.entries, ∃ c, crossing t (exact q) (n q) (difference q) = .ok c :=
      fun q hq => exists_crossing_eq_ok (hz q hq) (hbound q hq)
    choose! c hc using hcrossing
    have hdifferences : gather p (fun q => applyAny subtraction (v q) (w q)) =
        .ok (p.map fun q => .ofFloat (difference q (z q))) :=
      gather_eq_ok fun q hq => (hdifference q hq).trans (congrArg (Except.map _) (hz q hq))
    have hless : zipM Value.isBelow (p.map fun q => .ofFloat (difference q (z q)).abs)
        (p.map bound) = .ok (p.map c) := Zips.zipM (zips_self p) fun q hq =>
      (crossing_eq (hz q hq) (hbound q hq) (hd q hq)).symm.trans (hc q hq)
    rw [gather_eq_ok hbound, hdifferences, mapM_eq_ok hc]
    simp only [bind, Except.bind, magnitude_doubles]
    change (zipM Value.isBelow (p.map _) (p.map bound) >>= fun below =>
      Except.ok (below.entries.all id)) = _
    rw [hless]
    rfl

/-- An integer in front of a double is the larger one where their magnitudes are equal. -/
theorem largerAny_int_real (n : ℤ) (d : Float) : largerAny (.int n) (.ofFloat d) =
    .ok (if (compareInt n d).any Ordering.isGE then .int n else .ofFloat d) := by
  change Except.ok (if (compareInt n d).map Ordering.swap == some .lt ||
    (compareInt n d).map Ordering.swap == some .eq then _ else _) = _
  rcases compareInt n d with - | - | - | - <;> rfl

theorem largerAny_real_int (d : Float) (n : ℤ) : largerAny (.ofFloat d) (.int n) =
    .ok (if !(compareInt n d).any Ordering.isLE then .int n else .ofFloat d) := by
  change Except.ok (if compareInt n d == some .lt || compareInt n d == some .eq then _ else _) = _
  rcases compareInt n d with - | - | - | - <;> rfl

end Crossings

theorem exists_mixed (hx : x.toLeaves = .ok (p.map fun q => .int (l q)))
    (h : ∀ q ∈ p.entries, ¬Beyond (l q)) :
    ∃ k, Typed.ofValue x = .ok (whole k l p) ∧ Mixed k l p ∧ (k ≠ .real → p.entries ≠ []) := by
  have hmap {P : ℤ → Prop} : (∀ n ∈ p.entries.map l, P n) ↔ ∀ q ∈ p.entries, P (l q) :=
    List.forall_mem_map
  rcases ofLeaves_of_words (hmap.2 h) with hk | ⟨hk, hne, hw⟩ | ⟨hk, hne, hw⟩
  · exact ⟨_, ofValue_of_toLeaves hx hk, .inr (.inr ⟨rfl, h⟩), fun hc => (hc rfl).elim⟩
  · exact ⟨_, ofValue_of_toLeaves hx hk, .inl ⟨rfl, hmap.1 hw⟩, fun _ => by simpa using hne⟩
  · exact ⟨_, ofValue_of_toLeaves hx hk, .inr (.inl ⟨rfl, hmap.1 hw⟩),
      fun _ => by simpa using hne⟩

theorem ofValue_of_both (hx : x.toLeaves = .ok (p.map fun q => .int (l q)))
    (h : ∀ q ∈ p.entries, ¬Beyond (l q)) (hw : ¬∀ q ∈ p.entries, Word (l q))
    (hh : ¬∀ q ∈ p.entries, HighWord (l q)) : Typed.ofValue x = .ok (whole .real l p) := by
  obtain ⟨k, hx, ⟨rfl, hl⟩ | ⟨rfl, hl⟩ | ⟨rfl, -⟩, -⟩ := exists_mixed hx h
  · exact (hw hl).elim
  · exact (hh hl).elim
  · exact hx

section Pairs
variable {p : Grid (ℤ × ℤ)}

theorem within_any_real (h : Paired p x y) (hp : p.shape ≠ []) (hx : ∃ q ∈ p.entries, Beyond q.1)
    (hy : ∀ q ∈ p.entries, ¬Beyond q.2) (hw : ¬∀ q ∈ p.entries, Word q.2)
    (hh : ¬∀ q ∈ p.entries, HighWord q.2) :
    within x y (.int t) (.int 0) = (p.entries.mapM fun q =>
      crossing t ((compareInt |q.1| (double (.int q.2)).abs).any Ordering.isGE) q.1
        (· - double (.int q.2))).map fun below => below.all id :=
  within_crossing hp (read_any h.left hx).value (ofValue_of_both h.right hy hw hh)
    (entries_any hp _) (entries_real _) rfl (fun _ _ => largerAny_int_real ..)
    (fun _ _ => applyAny_int_real ..)
    fun q hq => isFinite_double (abs_lt_of_not_beyond (hy q hq))

theorem within_real_any (h : Paired p x y) (hp : p.shape ≠ []) (hy : ∃ q ∈ p.entries, Beyond q.2)
    (hx : ∀ q ∈ p.entries, ¬Beyond q.1) (hw : ¬∀ q ∈ p.entries, Word q.1)
    (hh : ¬∀ q ∈ p.entries, HighWord q.1) :
    within x y (.int t) (.int 0) = (p.entries.mapM fun q =>
      crossing t (!(compareInt |q.2| (double (.int q.1)).abs).any Ordering.isLE) q.2
        (double (.int q.1) - ·)).map fun below => below.all id :=
  within_crossing hp (ofValue_of_both h.left hx hw hh) (read_any h.right hy).value
    (entries_real _) (entries_any hp _) rfl (fun _ _ => largerAny_real_int ..)
    (fun _ _ => applyAny_real_int ..)
    fun q hq => isFinite_double (abs_lt_of_not_beyond (hx q hq))

end Pairs

/-- What the test on pairs of integers gives, by where they lie. -/
structure Tested (p : Grid (ℤ × ℤ)) (t : ℤ) (result : Except Failure Bool) : Prop where
  /-- Signed words are compared rightly where the bound is one and no difference leaves the words,
  or one of them, as it is wrapped around, is not below the bound. -/
  signed : p.entries ≠ [] → (∀ q ∈ p.entries, Word q.1 ∧ Word q.2) →
    (result = .ok (close t p) ↔ Word t ∧ ((∀ q ∈ p.entries, |q.1 - q.2| < 2 ^ 63) ∨
      ∃ q ∈ p.entries, t ≤ Kind.signed.gap (q.1 - q.2)))
  /-- High words are compared rightly where the bound is an unsigned word and no negative difference
  gets too large as it is wrapped around, or some difference is not below the bound. -/
  unsigned : p.entries ≠ [] → (∀ q ∈ p.entries, HighWord q.1 ∧ HighWord q.2) →
    (result = .ok (close t p) ↔ (0 ≤ t ∧ t < 2 ^ 64) ∧
      ((∀ q ∈ p.entries, q.1 < q.2 → 2 ^ 64 - |q.1 - q.2| < t) ∨
        ∃ q ∈ p.entries, t ≤ |q.1 - q.2|))
  /-- Words of both kinds are compared as doubles, for which the bound must not be too large. -/
  doubles : (∀ q ∈ p.entries, ¬Beyond q.1 ∧ ¬Beyond q.2) →
    (p.entries ≠ [] → ¬∀ q ∈ p.entries, Word q.1 ∧ Word q.2) →
    (p.entries ≠ [] → ¬∀ q ∈ p.entries, HighWord q.1 ∧ HighWord q.2) →
    result = (Value.roundInt t).map fun limit => p.entries.all fun q =>
      (double (.int q.1) - double (.int q.2)).abs < limit
  /-- Lists with an integer beyond words are compared rightly if none of them became doubles. -/
  lists : p.shape ≠ [] → (∃ q ∈ p.entries, Beyond q.1 ∨ Beyond q.2) →
    ((∃ q ∈ p.entries, Beyond q.1) ∨ (∀ q ∈ p.entries, Word q.1) ∨
      ∀ q ∈ p.entries, HighWord q.1) →
    ((∃ q ∈ p.entries, Beyond q.2) ∨ (∀ q ∈ p.entries, Word q.2) ∨
      ∀ q ∈ p.entries, HighWord q.2) →
    result = .ok (close t p)
  /-- A list with an integer beyond words in front of one that became doubles is compared with these
  entry by entry. The bound is exact unless the double is the larger one. -/
  anyReal : p.shape ≠ [] → (∃ q ∈ p.entries, Beyond q.1) → (∀ q ∈ p.entries, ¬Beyond q.2) →
    (¬∀ q ∈ p.entries, Word q.2) → (¬∀ q ∈ p.entries, HighWord q.2) →
    result = (p.entries.mapM fun q =>
      crossing t ((compareInt |q.1| (double (.int q.2)).abs).any Ordering.isGE) q.1
        (· - double (.int q.2))).map fun below => below.all id
  /-- Behind one that became doubles, the bound is exact only where the integer is the larger one.
  -/
  realAny : p.shape ≠ [] → (∃ q ∈ p.entries, Beyond q.2) → (∀ q ∈ p.entries, ¬Beyond q.1) →
    (¬∀ q ∈ p.entries, Word q.1) → (¬∀ q ∈ p.entries, HighWord q.1) →
    result = (p.entries.mapM fun q =>
      crossing t (!(compareInt |q.2| (double (.int q.1)).abs).any Ordering.isLE) q.2
        (double (.int q.1) - ·)).map fun below => below.all id
  /-- Lone integers of which one is beyond words are compared rightly only where the other one is a
  high word, and magnitudes and bound are below the next power of two. -/
  lone : ∀ a b, p = .single (a, b) → Beyond a ∨ Beyond b →
    (result = .ok (close t p) ↔
      (HighWord a ∧ |b| < 2 ^ 64 ∨ HighWord b ∧ |a| < 2 ^ 64) ∧ 0 ≤ t ∧ t < 2 ^ 64)

/-- The test on pairs of integers and any bound, without a relative tolerance. -/
theorem within_integers {p : Grid (ℤ × ℤ)} (h : Paired p x y) (t : ℤ) :
    Tested p t (within x y (.int t) (.int 0)) := by
  refine ⟨within_signed_iff h, within_unsigned_iff h, fun hb hw hh => ?_,
    fun hp hbeyond hx hy => within_lists h hp hx hy hbeyond, within_any_real h, within_real_any h,
    ?_⟩
  · obtain ⟨k, hx, hk, hne⟩ := exists_mixed h.left fun q hq => (hb q hq).1
    obtain ⟨k', hy, hk', hne'⟩ := exists_mixed h.right fun q hq => (hb q hq).2
    refine within_reals hx hy hk hk' ?_
    rcases hk with ⟨rfl, hl⟩ | ⟨rfl, hl⟩ | ⟨rfl, -⟩ <;>
      rcases hk' with ⟨rfl, hr⟩ | ⟨rfl, hr⟩ | ⟨rfl, -⟩ <;> try rfl
    · exact (hw (hne (by decide)) fun q hq => ⟨hl q hq, hr q hq⟩).elim
    · exact (hh (hne (by decide)) fun q hq => ⟨hl q hq, hr q hq⟩).elim
  · intro a b hp hbeyond
    cases h with
    | lone a' b' =>
      obtain ⟨rfl, rfl⟩ : a' = a ∧ b' = b := by
        have hentries := congrArg Grid.entries hp
        simpa [Grid.single] using hentries
      exact within_lone_iff hbeyond
    | lists ps => cases congrArg Grid.shape hp

theorem highWord_two_pow : HighWord (2 ^ 63) ∧ HighWord (2 ^ 63 + 1) := by
  unfold HighWord
  norm_num

/-- Whether two neighbours are close depends on which of them comes first. -/
theorem within_integers_neighbours :
    within (.int (2 ^ 63 + 1)) (.int (2 ^ 63)) (.int 2) (.int 0) = .ok true ∧
      within (.int (2 ^ 63)) (.int (2 ^ 63 + 1)) (.int 2) (.int 0) ≠ .ok true := by
  obtain ⟨hlow, hhigh⟩ := highWord_two_pow
  have hdown := (within_integers (.lone (2 ^ 63 + 1) (2 ^ 63)) 2).unsigned (List.cons_ne_nil _ [])
    (List.forall_mem_singleton.2 ⟨hhigh, hlow⟩)
  have hup := (within_integers (.lone (2 ^ 63) (2 ^ 63 + 1)) 2).unsigned (List.cons_ne_nil _ [])
    (List.forall_mem_singleton.2 ⟨hlow, hhigh⟩)
  simp only [Grid.single, List.mem_singleton, forall_eq, exists_eq_left] at hdown hup
  refine ⟨hdown.2 ⟨by norm_num, .inl fun hc => by norm_num at hc⟩, fun hc => ?_⟩
  have hright := hup.1 hc
  norm_num at hright

/-- The greatest and the least signed word are close to each other, and a high word is close to the
next one in one order only. -/
theorem far_words_close :
    within (.int (2 ^ 63 - 1)) (.int (-2 ^ 63)) (.int 2) (.int 0) = .ok true ∧
      ¬|(2 ^ 63 - 1) - (-2 ^ 63 : ℤ)| < 2 ∧
      within (.int (2 ^ 63)) (.int (2 ^ 63 + 1)) (.int 2) (.int 0) = .ok false ∧
      |(2 ^ 63) - (2 ^ 63 + 1 : ℤ)| < 2 ∧
      within (.int (2 ^ 63 + 1)) (.int (2 ^ 63)) (.int 2) (.int 0) = .ok true :=
  ⟨rfl, by norm_num, rfl, by norm_num, rfl⟩

end Closeness
end RootFinding
