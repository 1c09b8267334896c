import RootFinding.Proofs.Grid.Paired
import RootFinding.Proofs.Number.Integers

/-!
# Grids of integers

A grid of signed or unsigned words, or of integers of any size, is read as integers. Sums,
differences and products of such grids are those of the integers read, up to multiples of a power
of two where these are words.
-/
namespace RootFinding

/-- A signed word of 64 bits. -/
def Word (n : ℤ) : Prop := -2 ^ 63 ≤ n ∧ n < 2 ^ 63

/-- An unsigned word of 64 bits that is no signed one. -/
def HighWord (n : ℤ) : Prop := 2 ^ 63 ≤ n ∧ n < 2 ^ 64

/-- An integer that is no word of either kind. -/
def Beyond (n : ℤ) : Prop := n < -2 ^ 63 ∨ 2 ^ 64 ≤ n

namespace Kind

/-- A kind of integers that are added and multiplied like integers, up to multiples of a power of
two. -/
def Integral (k : Kind) : Prop := k = .signed ∨ k = .unsigned ∨ k = .any

def wrap : Kind → ℤ → ℤ
  | .signed, n => n.bmod (2 ^ 64)
  | .unsigned, n => n % 2 ^ 64
  | _, n => n

/-- The magnitude of an entry of a kind. That of the least signed word is itself. -/
def size (k : Kind) (n : ℤ) : ℤ :=
  match k with
  | .unsigned => n
  | _ => |k.wrap n|

def gap (k : Kind) (n : ℤ) : ℤ := k.wrap (k.size n)

theorem join_any (k : Kind) : k.join .any = .any := by
  cases k <;> rfl

theorem join_self {k : Kind} (hk : k.Integral) : k.join k = k := by
  rcases hk with rfl | rfl | rfl <;> rfl

@[simp] theorem wrap_zero (k : Kind) : k.wrap 0 = 0 := by
  cases k <;> rfl

@[simp] theorem wrap_wrap (k : Kind) (n : ℤ) : k.wrap (k.wrap n) = k.wrap n := by
  cases k with
  | signed => exact Int.bmod_bmod
  | unsigned => exact Int.emod_emod ..
  | _ => rfl

theorem word_iff (n : ℤ) : (Int64.minValue.toInt ≤ n && n ≤ Int64.maxValue.toInt) = true ↔
    Word n := by
  have hmin : Int64.minValue.toInt = -2 ^ 63 := rfl
  have hmax : Int64.maxValue.toInt = 2 ^ 63 - 1 := rfl
  rw [Bool.and_eq_true, decide_eq_true_iff, decide_eq_true_iff, hmin, hmax, Int.le_sub_one_iff]
  rfl

theorem unsigned_iff (n : ℤ) : (0 ≤ n && n < UInt64.size) = true ↔ 0 ≤ n ∧ n < 2 ^ 64 := by
  have hsize : (UInt64.size : ℤ) = 2 ^ 64 := rfl
  rw [Bool.and_eq_true, decide_eq_true_iff, decide_eq_true_iff, hsize]

theorem ofLeaf_of_word {n : ℤ} (h : Word n) : ofLeaf (.int n) = .signed :=
  if_pos ((word_iff n).2 h)

theorem ofLeaf_of_highWord {n : ℤ} (h : HighWord n) : ofLeaf (.int n) = .unsigned := by
  have hlow : ¬Word n := fun hw => by
    have h1 := hw.2
    have h2 := h.1
    omega
  have hpos : 0 ≤ n := le_trans (by norm_num) h.1
  exact (if_neg (mt (word_iff n).1 hlow)).trans (if_pos ((unsigned_iff n).2 ⟨hpos, h.2⟩))

theorem ofLeaf_of_beyond {n : ℤ} (h : Beyond n) : ofLeaf (.int n) = .any := by
  have hlow : ¬Word n := fun hw => by
    have h1 := hw.1
    have h2 := hw.2
    unfold Beyond at h
    omega
  have hhigh : ¬(0 ≤ n ∧ n < 2 ^ 64) := fun hw => by
    unfold Beyond at h
    omega
  exact (if_neg (mt (word_iff n).1 hlow)).trans (if_neg (mt (unsigned_iff n).1 hhigh))

theorem word_or_highWord {n : ℤ} (h : ¬Beyond n) : Word n ∨ HighWord n := by
  unfold Beyond at h
  unfold Word HighWord
  omega

theorem word_of_ofLeaf {n : ℤ} (hn : ¬Beyond n) (h : ofLeaf (.int n) = .signed) : Word n := by
  refine (word_or_highWord hn).resolve_right fun hh => ?_
  rw [ofLeaf_of_highWord hh] at h
  cases h

theorem highWord_of_ofLeaf {n : ℤ} (hn : ¬Beyond n) (h : ofLeaf (.int n) = .unsigned) :
    HighWord n := by
  refine (word_or_highWord hn).resolve_left fun hw => ?_
  rw [ofLeaf_of_word hw] at h
  cases h

theorem ofLeaves_of_forall {k : Kind} (hk : k.join k = k) {ns : List ℤ} (hne : ns ≠ [])
    (h : ∀ n ∈ ns, ofLeaf (.int n) = k) : ofLeaves (ns.map .int) = k := by
  obtain ⟨n, ns, rfl⟩ := List.exists_cons_of_ne_nil hne
  rw [List.forall_mem_cons] at h
  change (ns.map Value.int).foldl (fun l w => l.join (ofLeaf w)) (ofLeaf (.int n)) = k
  rw [h.1]
  obtain ⟨-, h⟩ := h
  clear hne
  induction ns with
  | nil => rfl
  | cons n ns ih =>
    rw [List.forall_mem_cons] at h
    rw [List.map_cons, List.foldl_cons, h.1, hk]
    exact ih h.2

theorem ofLeaves_of_exists {ns : List ℤ} (h : ∃ n ∈ ns, Beyond n) :
    ofLeaves (ns.map .int) = .any := by
  have hfold (ns : List ℤ) (k : Kind) (h : k = .any ∨ ∃ n ∈ ns, Beyond n) :
      (ns.map Value.int).foldl (fun l w => l.join (ofLeaf w)) k = .any := by
    induction ns generalizing k with
    | nil => exact h.resolve_right (by simp)
    | cons n ns ih =>
      refine ih _ ?_
      rw [List.exists_mem_cons_iff] at h
      rcases h with rfl | h | h
      · exact .inl rfl
      · exact .inl ((congrArg k.join (ofLeaf_of_beyond h)).trans (join_any k))
      · exact .inr h
  obtain ⟨n, ns, rfl⟩ := List.exists_cons_of_ne_nil (fun hnil => by simp [hnil] at h : ns ≠ [])
  rw [List.exists_mem_cons_iff] at h
  exact hfold ns _ (h.imp_left ofLeaf_of_beyond)

/-- Words keep a kind as long as they are of it, and else meet in the doubles. -/
theorem foldl_join_words {ns : List ℤ} (h : ∀ n ∈ ns, ¬Beyond n) {k : Kind}
    (hk : k = .signed ∨ k = .unsigned ∨ k = .real) :
    (ns.map Value.int).foldl (fun l w => l.join (ofLeaf w)) k = .real ∨
      (ns.map Value.int).foldl (fun l w => l.join (ofLeaf w)) k = k ∧
        ∀ n ∈ ns, ofLeaf (.int n) = k := by
  induction ns generalizing k with
  | nil => exact .inr ⟨rfl, by simp⟩
  | cons n ns ih =>
    rw [List.forall_mem_cons] at h
    have hleaf : ofLeaf (.int n) = .signed ∨ ofLeaf (.int n) = .unsigned :=
      (word_or_highWord h.1).imp ofLeaf_of_word ofLeaf_of_highWord
    rw [List.map_cons, List.foldl_cons, List.forall_mem_cons]
    by_cases heq : ofLeaf (.int n) = k
    · have hself : k.join k = k := by rcases hk with rfl | rfl | rfl <;> rfl
      rw [heq, hself]
      exact (ih h.2 hk).imp_right fun hkeep => ⟨hkeep.1, rfl, hkeep.2⟩
    · have hreal : k.join (ofLeaf (.int n)) = .real := by
        rcases hk with rfl | rfl | rfl <;> rcases hleaf with hl | hl <;> rw [hl] at heq ⊢ <;>
          first | rfl | exact absurd rfl heq
      rw [hreal]
      exact .inl ((ih h.2 (.inr (.inr rfl))).elim id And.left)

/-- The kind of words is that of all of them, or they become doubles. -/
theorem ofLeaves_of_words {ns : List ℤ} (h : ∀ n ∈ ns, ¬Beyond n) :
    ofLeaves (ns.map .int) = .real ∨
      ofLeaves (ns.map .int) = .signed ∧ ns ≠ [] ∧ (∀ n ∈ ns, Word n) ∨
      ofLeaves (ns.map .int) = .unsigned ∧ ns ≠ [] ∧ (∀ n ∈ ns, HighWord n) := by
  cases ns with
  | nil => exact .inl rfl
  | cons n ns =>
    have hrest := List.forall_mem_cons.1 h
    have hfold {k : Kind} (hk : k = .signed ∨ k = .unsigned) (hn : ofLeaf (.int n) = k) :
        ofLeaves ((n :: ns).map .int) = .real ∨
          ofLeaves ((n :: ns).map .int) = k ∧ ∀ m ∈ n :: ns, ofLeaf (.int m) = k := by
      subst hn
      rw [List.forall_mem_cons]
      exact (foldl_join_words hrest.2 (hk.imp_right .inl)).imp_right fun h => ⟨h.1, rfl, h.2⟩
    rcases word_or_highWord hrest.1 with hw | hw
    · refine (hfold (.inl rfl) (ofLeaf_of_word hw)).imp_right fun hkeep => .inl ?_
      exact ⟨hkeep.1, by simp, fun m hm => word_of_ofLeaf (h m hm) (hkeep.2 m hm)⟩
    · refine (hfold (.inr rfl) (ofLeaf_of_highWord hw)).imp_right fun hkeep => .inr ?_
      exact ⟨hkeep.1, by simp, fun m hm => highWord_of_ofLeaf (h m hm) (hkeep.2 m hm)⟩

end Kind

namespace Typed
open Kind
variable {δ : Type} {p : Grid δ} {k l : Kind} {m n : δ → ℤ}

def whole (k : Kind) (n : δ → ℤ) (p : Grid δ) : Typed := ofKind k (p.map fun x => .int (n x))

theorem kind_whole (k : Kind) (n : δ → ℤ) (p : Grid δ) : kind (whole k n p) = k := by
  cases k <;> rfl

theorem map_map {α β γ : Type} (f : β → γ) (g : α → β) (p : Grid α) :
    (p.map g).map f = p.map (f ∘ g) := by
  simp [Grid.map]

theorem toNat_ofInt (n : ℤ) : ((UInt64.ofInt n).toNat : ℤ) = n % 2 ^ 64 := by
  have hlt : (n % 2 ^ 64).toNat < 2 ^ 64 := by omega
  rw [UInt64.ofInt, UInt64.toNat_ofNat', Nat.mod_eq_of_lt hlt]
  omega

theorem ofInt_toNat (w : UInt64) : UInt64.ofInt w.toNat = w := by
  have h := toNat_ofInt w.toNat
  have hlt := w.toNat_lt
  exact UInt64.toNat_inj.1 (by omega)

theorem isAtMost_int (m n : ℤ) : Value.isAtMost (.int m) (.int n) = .ok (decide (m ≤ n)) := by
  change Except.ok (some (compare m n) == some .lt || some (compare m n) == some .eq) = _
  rcases lt_trichotomy m n with h | rfl | h
  · simp [Int.compare_eq_lt.2 h, h.le]
  · simp
  · simp [Int.compare_eq_gt.2 h, h.not_ge]

theorem isBelow_int (m n : ℤ) : Value.isBelow (.int m) (.int n) = .ok (decide (m < n)) := by
  change Except.ok (some (compare m n) == some .lt) = _
  rcases lt_trichotomy m n with h | rfl | h
  · simp [Int.compare_eq_lt.2 h, h]
  · simp
  · simp [Int.compare_eq_gt.2 h, h.not_gt]

theorem largerAny_int (m n : ℤ) :
    largerAny (.int m) (.int n) = .ok (.int (if n ≤ m then m else n)) := by
  rw [largerAny, isAtMost_int]
  by_cases h : n ≤ m
  · simp [h, bind, Except.bind, pure, Except.pure]
  · simp [h, bind, Except.bind, pure, Except.pure]

theorem leaves_whole (hk : k.Integral) (n : δ → ℤ) (p : Grid δ) :
    (whole k n p).leaves = p.map fun x => .int (k.wrap (n x)) := by
  rcases hk with rfl | rfl | rfl
  · simp only [whole, ofKind, leaves, map_map]
    congr 1
    funext x
    exact congrArg Value.int Int64.toInt_ofInt
  · simp only [whole, ofKind, leaves, map_map]
    congr 1
    funext x
    exact congrArg Value.int (toNat_ofInt (n x))
  · rfl

/-- The magnitude of a signed word, which wraps around where it is that of the least one. -/
theorem magnitude_ofInt (n : ℤ) : (if Int64.ofInt n < 0 then -Int64.ofInt n else .ofInt n) =
    Int64.ofInt |Kind.signed.wrap n| := by
  have hread : Int64.ofInt (Kind.signed.wrap n) = .ofInt n := by
    have h := Int64.ofInt_toInt (.ofInt n)
    rwa [Int64.toInt_ofInt] at h
  have hneg : Int64.ofInt n < 0 ↔ Kind.signed.wrap n < 0 := by
    rw [Int64.lt_iff_toInt_lt, Int64.toInt_ofInt]
    rfl
  split_ifs with h
  · rw [abs_of_neg (hneg.1 h), Int64.ofInt_neg, hread]
  · rw [abs_of_nonneg (not_lt.1 fun hc => h (hneg.2 hc)), hread]

/-- Operations that wrap around with words. -/
structure Arithmetic.Lawful (op : Arithmetic) : Prop where
  signed : ∀ m n, Int64.ofInt (op.int m n) = op.signed (.ofInt m) (.ofInt n)
  unsigned : ∀ m n, UInt64.ofInt (op.int m n) = op.unsigned (.ofInt m) (.ofInt n)

theorem lawful_addition : addition.Lawful := ⟨Int64.ofInt_add, UInt64.ofInt_add⟩

theorem lawful_subtraction : subtraction.Lawful := by
  refine ⟨Int64.ofInt_sub, fun m n => ?_⟩
  change UInt64.ofInt (m - n) = .ofInt m - .ofInt n
  rw [Int.sub_eq_add_neg, UInt64.ofInt_add, UInt64.ofInt_neg, UInt64.sub_eq_add_neg]

theorem lawful_multiplication : multiplication.Lawful := ⟨Int64.ofInt_mul, UInt64.ofInt_mul⟩

/-- The entries of one grid are combined with those of another, place by place. -/
def Zips {ε : Type} (q : Grid ε) (p : Grid δ) (left : δ → ε) : Prop :=
  ∀ {α β : Type} (f : α → α → β) (g : ε → α) (h : δ → α),
    zip f (q.map g) (p.map h) = .ok (p.map fun x => f (g (left x)) (h x))

theorem zips_self (p : Grid δ) : Zips p p id := by
  intro α β f g h
  rw [zip, Grid.zipWith?_map]
  rfl

theorem zips_single {ε : Type} (c : ε) (p : Grid δ) : Zips (.single c) p fun _ => c := by
  intro α β f g h
  change zip f (.single (g c)) (p.map h) = _
  rw [zip, Grid.zipWith?_single]
  exact congrArg Except.ok (map_map _ _ p)

section Failing
variable {α β : Type} {f : α → Except Failure β} {xs : List α}

theorem mapM_eq_ok {g : α → β} (h : ∀ x ∈ xs, f x = .ok (g x)) : xs.mapM f = .ok (xs.map g) := by
  induction xs with
  | nil => rfl
  | cons x xs ih =>
    rw [List.forall_mem_cons] at h
    rw [List.mapM_cons, h.1, ih h.2]
    rfl

/-- Where all entries that fail do so for the same cause, and some do, all together fail for it. -/
theorem mapM_eq_error {cause : Failure} (h : ∀ x ∈ xs, (∃ y, f x = .ok y) ∨ f x = .error cause)
    (hx : ∃ x ∈ xs, f x = .error cause) : xs.mapM f = .error cause := by
  induction xs with
  | nil => simp at hx
  | cons x xs ih =>
    rw [List.forall_mem_cons] at h
    rw [List.exists_mem_cons_iff] at hx
    rw [List.mapM_cons]
    rcases h.1 with ⟨y, hy⟩ | hy
    · have hrest := hx.resolve_left fun hc => by cases hy.symm.trans hc
      rw [hy, ih h.2 hrest]
      rfl
    · rw [hy]
      rfl

end Failing

theorem ofEntries?_map {α β : Type} (r : α → β) (p : Grid α) :
    Grid.ofEntries? p.shape (p.entries.map r) = some (p.map r) :=
  dif_pos (by rw [List.length_map, p.length_entries])

/-- A grid of results at the places of another, unless one of them fails. -/
def gather {β : Type} (p : Grid δ) (f : δ → Except Failure β) : Except Failure (Grid β) := do
  let entries ← p.entries.mapM f
  match Grid.ofEntries? p.shape entries with
  | some c => .ok c
  | none => .error .incompatibleShapes

section Gather
variable {β : Type} {f : δ → Except Failure β}

theorem gather_eq_ok {g : δ → β} (h : ∀ x ∈ p.entries, f x = .ok (g x)) :
    gather p f = .ok (p.map g) := by
  rw [gather, mapM_eq_ok h]
  simp only [bind, Except.bind, ofEntries?_map]

theorem gather_eq_error {cause : Failure}
    (h : ∀ x ∈ p.entries, (∃ y, f x = .ok y) ∨ f x = .error cause)
    (hx : ∃ x ∈ p.entries, f x = .error cause) : gather p f = .error cause := by
  rw [gather, mapM_eq_error h hx]
  rfl

end Gather

section Whole
variable {ε : Type} {q : Grid ε} {left : δ → ε}

theorem Zips.zipM_eq (hz : Zips q p left) {α β : Type} (f : α → α → Except Failure β) (g : ε → α)
    (h : δ → α) : zipM f (q.map g) (p.map h) = gather p fun x => f (g (left x)) (h x) := by
  rw [zipM, hz]
  change (do
    let entries ← (p.entries.map fun x => f (g (left x)) (h x)).mapM id
    match Grid.ofEntries? p.shape entries with
    | some c => .ok c
    | none => .error .incompatibleShapes) = _
  rw [List.mapM_map]
  rfl

theorem Zips.zipM (hz : Zips q p left) {α β : Type} {f : α → α → Except Failure β} {g : ε → α}
    {h : δ → α} {r : δ → β} (hr : ∀ x ∈ p.entries, f (g (left x)) (h x) = .ok (r x)) :
    Typed.zipM f (q.map g) (p.map h) = .ok (p.map r) := by
  rw [hz.zipM_eq, gather_eq_ok hr]

theorem meet_whole (hk : k.Integral) (hl : l.Integral) (m : ε → ℤ) (n : δ → ℤ) :
    meet (whole k m q) (whole l n p) =
      (whole (k.join l) (fun x => k.wrap (m x)) q, whole (k.join l) (fun x => l.wrap (n x)) p) := by
  rw [meet, kind_whole, kind_whole, leaves_whole hk, leaves_whole hl]
  rfl

/-- Lawful operations on integers of any kinds are those on the integers read off. -/
theorem combine_whole (hz : Zips q p left) {op : Arithmetic} (hop : op.Lawful) (hk : k.Integral)
    (hl : l.Integral) (hj : (k.join l).Integral) (m : ε → ℤ) (n : δ → ℤ) :
    combine op (whole k m q) (whole l n p) =
      .ok (whole (k.join l) (fun x => op.int (k.wrap (m (left x))) (l.wrap (n x))) p) := by
  rw [combine, meet_whole hk hl]
  generalize k.join l = j at hj ⊢
  rcases hj with rfl | rfl | rfl
  · simp only [whole, ofKind, map_map]
    rw [hz]
    exact congrArg (fun f => Except.ok (signed (p.map f))) (funext fun x => (hop.signed _ _).symm)
  · simp only [whole, ofKind, map_map]
    rw [hz]
    exact congrArg (fun f => Except.ok (unsigned (p.map f)))
      (funext fun x => (hop.unsigned _ _).symm)
  · simp only [whole, ofKind]
    rw [hz.zipM fun x _ => rfl]
    rfl

theorem exists_larger_whole (hz : Zips q p left) (hk : k.Integral) (hl : l.Integral)
    (hj : (k.join l).Integral) (m : ε → ℤ) (n : δ → ℤ) :
    ∃ r, larger (whole k m q) (whole l n p) = .ok (whole (k.join l) r p) := by
  rw [larger, meet_whole hk hl]
  generalize k.join l = j at hj ⊢
  rcases hj with rfl | rfl | rfl
  · refine ⟨fun x => (max (Int64.ofInt (k.wrap (m (left x)))) (.ofInt (l.wrap (n x)))).toInt, ?_⟩
    simp only [whole, ofKind, map_map]
    rw [hz]
    refine congrArg (fun f => Except.ok (signed (p.map f))) (funext fun x => ?_)
    exact (Int64.ofInt_toInt _).symm
  · refine ⟨fun x => (max (UInt64.ofInt (k.wrap (m (left x)))) (.ofInt (l.wrap (n x)))).toNat, ?_⟩
    simp only [whole, ofKind, map_map]
    rw [hz]
    refine congrArg (fun f => Except.ok (unsigned (p.map f))) (funext fun x => ?_)
    exact (ofInt_toNat _).symm
  · refine ⟨fun x => if l.wrap (n x) ≤ k.wrap (m (left x)) then k.wrap (m (left x))
      else l.wrap (n x), ?_⟩
    simp only [whole, ofKind]
    rw [hz.zipM fun x _ => largerAny_int _ _]
    rfl

theorem less_whole (hz : Zips q p left) (hk : k.Integral) (hl : l.Integral) (m : ε → ℤ)
    (n : δ → ℤ) : less (whole k m q) (whole l n p) =
      .ok (p.map fun x => decide (k.wrap (m (left x)) < l.wrap (n x))) := by
  have hleaves : zipM Value.isBelow (whole k m q).leaves (whole l n p).leaves =
      .ok (p.map fun x => decide (k.wrap (m (left x)) < l.wrap (n x))) := by
    rw [leaves_whole hk, leaves_whole hl, hz.zipM fun x _ => isBelow_int _ _]
  have hmet {j : Kind} (hj : j.Integral) :
      zipM Value.isBelow (whole j (fun x => k.wrap (m x)) q).leaves
        (whole j (fun x => l.wrap (n x)) p).leaves =
          .ok (p.map fun x => decide (j.wrap (k.wrap (m (left x))) < j.wrap (l.wrap (n x)))) := by
    rw [leaves_whole hj, leaves_whole hj, hz.zipM fun x _ => isBelow_int _ _]
  have hsigned := hmet (j := .signed) (.inl rfl)
  have hunsigned := hmet (j := .unsigned) (.inr (.inl rfl))
  have hany := hmet (j := .any) (.inr (.inr rfl))
  rw [less, kind_whole, kind_whole, meet_whole hk hl]
  rcases hk with rfl | rfl | rfl <;> rcases hl with rfl | rfl | rfl
  · simp only [wrap_wrap] at hsigned
    exact hsigned
  · exact hleaves
  · exact hany
  · exact hleaves
  · simp only [wrap_wrap] at hunsigned
    exact hunsigned
  · exact hany
  · exact hany
  · exact hany
  · exact hany

theorem magnitude_whole (hk : k.Integral) (n : δ → ℤ) (p : Grid δ) :
    magnitude (whole k n p) = .ok (whole k (fun x => k.size (n x)) p) := by
  rcases hk with rfl | rfl | rfl
  · simp only [whole, ofKind, map_map, magnitude]
    exact congrArg (fun f => Except.ok (signed (p.map f))) (funext fun x => magnitude_ofInt (n x))
  · rfl
  · have hentries : ((p.map fun x => Value.int (n x)).entries).mapM absAny =
        .ok (p.entries.map fun x => .int |n x|) := by
      change (p.entries.map fun x => Value.int (n x)).mapM absAny = _
      rw [List.mapM_map]
      refine mapM_eq_ok fun x _ => ?_
      exact congrArg (fun m => Except.ok (Value.int m)) (Int.abs_eq_natAbs (n x)).symm
    simp only [whole, ofKind, magnitude, hentries, bind, Except.bind, Grid.shape_map,
      ofEntries?_map]
    rfl

def Holds (k : Kind) (n : ℤ) : Prop :=
  match k with
  | .signed => Word n
  | .unsigned => 0 ≤ n ∧ n < 2 ^ 64
  | _ => True

theorem adapt_of_holds (hk : k.Integral) {n : ℤ} (hn : Holds k n) :
    adapt n k = .ok (whole k (fun _ => n) (.single ())) := by
  rcases hk with rfl | rfl | rfl
  · exact if_pos ((Kind.word_iff n).2 hn)
  · exact if_pos ((Kind.unsigned_iff n).2 hn)
  · rfl

theorem adapt_of_not_holds {n : ℤ} (hk : k.Integral) (hn : ¬Holds k n) :
    adapt n k = .error .tooLarge := by
  rcases hk with rfl | rfl | rfl
  · exact if_neg (mt (Kind.word_iff n).1 hn)
  · exact if_neg (mt (Kind.unsigned_iff n).1 hn)
  · exact (hn trivial).elim

end Whole

/-- A grid stays one unless it is a lone entry of any kind. -/
theorem loosen_whole (h : k ≠ .any ∨ p.shape ≠ []) (n : δ → ℤ) :
    loosen (whole k n p) = .grid (whole k n p) := by
  cases k with
  | any =>
    have hshape : p.shape ≠ [] := h.resolve_left fun hk => hk rfl
    simp only [whole, ofKind, loosen]
    split
    · exact (hshape ‹_›).elim
    · exact (hshape ‹_›).elim
    · rfl
  | _ => rfl

theorem narrow_loosen_whole (h : k ≠ .any ∨ p.shape ≠ []) (n : δ → ℤ) :
    narrow (loosen (whole k n p)) = .ok (whole k n p) := by
  rw [loosen_whole h]
  rfl

/-- Integers without a kind of their own meet a grid of integers as entries of its kind. -/
theorem apply_int_whole {op : Arithmetic} (hop : op.Lawful) (hk : k.Integral) {t : ℤ}
    (ht : Holds k t) (n : δ → ℤ) :
    apply op (.int t) (.grid (whole k n p)) =
      .ok (whole k (fun x => op.int (k.wrap t) (k.wrap (n x))) p) := by
  have hself := join_self hk
  have hcombine := combine_whole (zips_single () p) hop hk hk (by rwa [hself]) (fun _ => t) n
  rw [hself] at hcombine
  rw [apply, settle, kind_whole, adapt_of_holds hk ht]
  exact hcombine

theorem holds_zero (hk : k.Integral) : Holds k 0 := by
  rcases hk with rfl | rfl | rfl
  · exact ⟨by decide, by decide⟩
  · exact ⟨by decide, by decide⟩
  · trivial

end Typed

end RootFinding
