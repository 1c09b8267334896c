import Mathlib.Data.Finset.Card
import Mathlib.Data.Finset.Range
import RootFinding.Style.Basic

/-!
# Chains of print styles

The chain of a style runs from it through its parents up to the top. A style that has a chain has
its length as level and can be applied, and hanging a style anew concerns those chains alone that
pass through it.
-/
namespace RootFinding.Style.Forest

/-- The places from a style up to the top. -/
inductive Chain (forest : Forest) : Nat → List Nat → Prop
  | top {place : Nat} {node : Node} (h : forest[place]? = some node) (hp : node.parent = none) :
      Chain forest place [place]
  | up {place parent : Nat} {node : Node} {ps : List Nat} (h : forest[place]? = some node)
      (hp : node.parent = some parent) (hps : Chain forest parent ps) :
      Chain forest place (place :: ps)

variable {forest forest' : Forest} {place other : Nat} {ps qs : List Nat}

namespace Chain

theorem mem_self (h : Chain forest place ps) : place ∈ ps := by
  cases h <;> exact List.mem_cons_self ..

theorem unique (h : Chain forest place ps) (h' : Chain forest place qs) : ps = qs := by
  induction h generalizing qs with
  | top hnode hp =>
    cases h' with
    | top => rfl
    | up hnode' hp' _ =>
      rw [hnode, Option.some_inj] at hnode'
      rw [hnode', hp'] at hp
      cases hp
  | up hnode hp _ ih =>
    cases h' with
    | top hnode' hp' =>
      rw [hnode, Option.some_inj] at hnode'
      rw [hnode', hp'] at hp
      cases hp
    | up hnode' hp' h' =>
      rw [hnode, Option.some_inj] at hnode'
      rw [hnode', hp', Option.some_inj] at hp
      subst hp
      rw [ih h']

theorem exists_suffix (h : Chain forest place ps) (hother : other ∈ ps) :
    ∃ qs, Chain forest other qs ∧ qs <:+ ps := by
  induction h with
  | top hnode hp =>
    rw [List.mem_singleton] at hother
    subst hother
    exact ⟨_, .top hnode hp, List.suffix_refl _⟩
  | up hnode hp hps ih =>
    rcases List.mem_cons.1 hother with rfl | hother
    · exact ⟨_, .up hnode hp hps, List.suffix_refl _⟩
    · obtain ⟨qs, hqs, hsuffix⟩ := ih hother
      exact ⟨qs, hqs, hsuffix.trans (List.suffix_cons ..)⟩

theorem nodup (h : Chain forest place ps) : ps.Nodup := by
  induction h with
  | top => exact List.nodup_singleton _
  | @up place parent node ps hnode hp hps ih =>
    refine List.nodup_cons.2 ⟨fun hmem => ?_, ih⟩
    obtain ⟨qs, hqs, hsuffix⟩ := hps.exists_suffix hmem
    have hlen : (place :: ps).length ≤ ps.length := by
      rw [unique (.up hnode hp hps) hqs]
      exact hsuffix.length_le
    exact absurd hlen (by simp)

theorem lt_size (h : Chain forest place ps) : ∀ q ∈ ps, q < forest.size := by
  intro q hq
  obtain ⟨qs, hqs, -⟩ := h.exists_suffix hq
  cases hqs with
  | top hnode => exact (Array.getElem?_eq_some_iff.1 hnode).1
  | up hnode => exact (Array.getElem?_eq_some_iff.1 hnode).1

theorem length_le (h : Chain forest place ps) : ps.length ≤ forest.size := by
  calc ps.length = ps.toFinset.card := (List.toFinset_card_of_nodup h.nodup).symm
    _ ≤ (Finset.range forest.size).card := by
      refine Finset.card_le_card fun q hq => ?_
      exact Finset.mem_range.2 (h.lt_size q (List.mem_toFinset.1 hq))
    _ = forest.size := Finset.card_range _

theorem congr (h : Chain forest place ps) (hsame : ∀ q ∈ ps, forest'[q]? = forest[q]?) :
    Chain forest' place ps := by
  induction h with
  | top hnode hp => exact .top ((hsame _ (List.mem_cons_self ..)).trans hnode) hp
  | up hnode hp _ ih =>
    exact .up ((hsame _ (List.mem_cons_self ..)).trans hnode) hp
      (ih fun q hq => hsame q (List.mem_cons_of_mem _ hq))

end Chain

theorem levelWithin_of_chain (h : Chain forest place ps) {fuel : Nat} (hfuel : ps.length ≤ fuel) :
    levelWithin forest fuel place = .ok ps.length := by
  induction h generalizing fuel with
  | top hnode hp =>
    obtain ⟨fuel, rfl⟩ := Nat.exists_eq_add_of_le' hfuel
    simp [levelWithin, hnode, hp]
  | @up place parent node ps hnode hp hps ih =>
    obtain ⟨fuel, rfl⟩ := Nat.exists_eq_add_of_le' ((Nat.le_add_left 1 ps.length).trans hfuel)
    rw [List.length_cons] at hfuel
    simp only [levelWithin, hnode, hp, ih (Nat.le_of_succ_le_succ hfuel)]
    rfl

theorem level_of_chain (h : Chain forest place ps) : forest.level place = .ok ps.length :=
  levelWithin_of_chain h (h.length_le.trans (Nat.le_succ _))

theorem exists_chain_of_levelWithin {fuel n : Nat} (h : levelWithin forest fuel place = .ok n) :
    ∃ ps, Chain forest place ps ∧ ps.length = n := by
  induction fuel generalizing place n with
  | zero => cases h
  | succ fuel ih =>
    rw [levelWithin] at h
    cases hnode : forest[place]? with
    | none => rw [hnode] at h; cases h
    | some node =>
      cases hp : node.parent with
      | none =>
        simp only [hnode, hp, Except.ok.injEq] at h
        exact ⟨_, .top hnode hp, h⟩
      | some parent =>
        simp only [hnode, hp] at h
        cases hlevel : levelWithin forest fuel parent with
        | error cause => simp [hlevel, bind, Except.bind] at h
        | ok m =>
          obtain ⟨ps, hps, rfl⟩ := ih hlevel
          simp only [hlevel, bind, Except.bind, pure, Except.pure, Except.ok.injEq] at h
          exact ⟨_, .up hnode hp hps, h⟩

theorem level_eq_ok_iff {n : Nat} :
    forest.level place = .ok n ↔ ∃ ps, Chain forest place ps ∧ ps.length = n := by
  refine ⟨exists_chain_of_levelWithin, ?_⟩
  rintro ⟨ps, hps, rfl⟩
  exact level_of_chain hps

theorem exists_applyWithin_text (h : Chain forest place ps) {fuel : Nat}
    (hfuel : ps.length ≤ fuel) (s : String) :
    ∃ t, applyWithin forest fuel place (.text s) = .ok (.text t) := by
  induction h generalizing fuel s with
  | @top place node hnode hp =>
    obtain ⟨fuel, rfl⟩ := Nat.exists_eq_add_of_le' hfuel
    cases hd : node.decoration <;> exact ⟨s, by simp [applyWithin, hnode, hp, hd]⟩
  | @up place parent node ps hnode hp hps ih =>
    obtain ⟨fuel, rfl⟩ := Nat.exists_eq_add_of_le' ((Nat.le_add_left 1 ps.length).trans hfuel)
    rw [List.length_cons] at hfuel
    cases hd : node.decoration with
    | plain => exact ⟨s, by simp [applyWithin, hnode, hp, hd]⟩
    | tab =>
      obtain ⟨t, ht⟩ := ih (Nat.le_of_succ_le_succ hfuel) (Decoration.tab.lead ++ s)
      exact ⟨t, by simp only [applyWithin, hnode, hp, hd]; exact ht⟩
    | dots =>
      obtain ⟨t, ht⟩ := ih (Nat.le_of_succ_le_succ hfuel) (Decoration.dots.lead ++ s)
      exact ⟨t, by simp only [applyWithin, hnode, hp, hd]; exact ht⟩

theorem exists_apply_text (h : Chain forest place ps) (s : String) :
    ∃ t, forest.apply place (.text s) = .ok (.text t) :=
  exists_applyWithin_text h (h.length_le.trans (Nat.le_succ _)) s

theorem applyWithin_congr (h : Chain forest place ps)
    (hsame : ∀ q ∈ ps, forest'[q]? = forest[q]?) (fuel : Nat) (v : Value) :
    applyWithin forest' fuel place v = applyWithin forest fuel place v := by
  induction h generalizing fuel v with
  | @top place node hnode hp =>
    cases fuel with
    | zero => rfl
    | succ fuel =>
      rw [applyWithin, applyWithin, hsame _ (List.mem_cons_self ..), hnode]
      cases hd : node.decoration <;> simp [hp, hd]
  | @up place parent node ps hnode hp hps ih =>
    cases fuel with
    | zero => rfl
    | succ fuel =>
      rw [applyWithin, applyWithin, hsame _ (List.mem_cons_self ..), hnode]
      simp only [hp]
      cases node.decoration with
      | plain => rfl
      | _ => exact bind_congr fun w => ih (fun q hq => hsame q (List.mem_cons_of_mem _ hq)) fuel w

/-- Where the styles of its chain are the same, a style has the same effect. -/
theorem apply_congr (h : Chain forest place ps) (hsame : ∀ q ∈ ps, forest'[q]? = forest[q]?)
    (hsize : forest'.size = forest.size) (v : Value) :
    forest'.apply place v = forest.apply place v := by
  rw [apply, apply, hsize]
  exact applyWithin_congr h hsame _ v

theorem getElem?_hang_self {node : Node} (h : forest[place]? = some node) (parent : Option Nat) :
    (forest.hang place parent)[place]? = some { node with parent } := by
  obtain ⟨hlt, -⟩ := Array.getElem?_eq_some_iff.1 h
  rw [hang, h]
  exact Array.getElem?_setIfInBounds_self_of_lt hlt

theorem Chain.hang_of_notMem (h : Chain forest place ps) (hother : other ∉ ps)
    (parent : Option Nat) : Chain (forest.hang other parent) place ps :=
  h.congr fun _ hq => getElem?_hang_of_ne forest parent fun heq => hother (heq ▸ hq)

/-- Below a parent whose chain does not pass through it, the style has a chain again. -/
theorem exists_chain_hang {node : Node} (h : forest[place]? = some node) {parent : Option Nat}
    (hparent : ∀ p ∈ parent, ∃ ps, Chain forest p ps ∧ place ∉ ps) :
    ∃ ps, Chain (forest.hang place parent) place ps := by
  have hnode := getElem?_hang_self h parent
  cases parent with
  | none => exact ⟨_, .top hnode rfl⟩
  | some p =>
    obtain ⟨ps, hps, hnot⟩ := hparent p rfl
    exact ⟨_, .up hnode rfl (hps.hang_of_notMem hnot _)⟩

theorem Chain.exists_hang {parent : Option Nat} {new old : List Nat}
    (h : Chain forest place ps) (hother : other ∈ ps) (hold : Chain forest other old)
    (hnew : Chain (forest.hang other parent) other new) :
    ∃ qs, Chain (forest.hang other parent) place qs ∧
      qs.length + old.length = ps.length + new.length := by
  induction h with
  | top hnode hp =>
    rw [List.mem_singleton] at hother
    subst hother
    exact ⟨new, hnew, by rw [hold.unique (.top hnode hp)]; omega⟩
  | @up place above node ps hnode hp hps ih =>
    by_cases heq : other = place
    · subst heq
      exact ⟨new, hnew, by rw [hold.unique (.up hnode hp hps)]; omega⟩
    · obtain ⟨qs, hqs, hlen⟩ := ih (List.mem_of_ne_of_mem heq hother)
      have hnode' := (getElem?_hang_of_ne forest parent heq).trans hnode
      refine ⟨place :: qs, .up hnode' hp hqs, ?_⟩
      rw [List.length_cons, List.length_cons]
      omega

end RootFinding.Style.Forest
