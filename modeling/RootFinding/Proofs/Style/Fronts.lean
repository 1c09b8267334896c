import RootFinding.Proofs.Style.Chains

/-!
# What styles put in front of a text

Applying a style puts one text in front, whatever it is applied to. That text is read off the chain
of the style: the leads of the decorating styles on the way up, the outermost one first, as far as
the first style that is plain or at the top.
-/
namespace RootFinding.Style.Forest

/-- Whether the style at a place decorates a text and hands it on to a parent. -/
def decorates (forest : Forest) (place : Nat) : Bool :=
  match forest[place]? with
  | some node => node.parent.isSome && node.decoration != .plain
  | none => false

/-- What the style at a place puts in front of a text. -/
def leadAt (forest : Forest) (place : Nat) : String :=
  match forest[place]? with
  | some node => node.decoration.lead
  | none => ""

/-- What the styles of a chain put in front of a text together. -/
def front (forest : Forest) (ps : List Nat) : String :=
  String.join ((ps.takeWhile forest.decorates).reverse.map forest.leadAt)

variable {forest : Forest} {place parent : Nat} {node : Node} {ps : List Nat}

theorem decorates_eq (h : forest[place]? = some node) :
    forest.decorates place = (node.parent.isSome && node.decoration != .plain) := by
  rw [decorates, h]

theorem leadAt_eq (h : forest[place]? = some node) :
    forest.leadAt place = node.decoration.lead := by
  rw [leadAt, h]

theorem front_of_not_decorates (h : forest.decorates place = false) :
    forest.front (place :: ps) = "" := by
  rw [front, List.takeWhile_cons_of_neg (by simp [h])]
  rfl

/-- A decorating style puts its lead behind what the styles above it put in front. -/
theorem front_of_decorates (h : forest.decorates place = true) :
    forest.front (place :: ps) = forest.front ps ++ forest.leadAt place := by
  have hlead : String.join [forest.leadAt place] = forest.leadAt place := String.empty_append
  rw [front, List.takeWhile_cons_of_pos h, List.reverse_cons, List.map_append, String.join_append,
    List.map_singleton, hlead, front]

theorem applyWithin_of_not_decorates (hnode : forest[place]? = some node)
    (h : forest.decorates place = false) (fuel : Nat) (v : Value) :
    applyWithin forest (fuel + 1) place v = .ok v := by
  obtain ⟨decoration, above⟩ := node
  rw [decorates_eq hnode] at h
  cases decoration with
  | plain => simp [applyWithin, hnode]
  | _ =>
    cases above with
    | none => simp [applyWithin, hnode]
    | some parent => cases h

/-- A decorating style hands a text on to its parent with its lead in front. -/
theorem applyWithin_of_decorates (hnode : forest[place]? = some node)
    (hp : node.parent = some parent) (h : forest.decorates place = true) (fuel : Nat) (s : String) :
    applyWithin forest (fuel + 1) place (.text s) =
      applyWithin forest fuel parent (.text (forest.leadAt place ++ s)) := by
  obtain ⟨decoration, above⟩ := node
  rw [decorates_eq hnode] at h
  rw [leadAt_eq hnode]
  cases (hp : above = some parent)
  cases decoration with
  | plain => cases h
  | _ =>
    simp only [applyWithin, hnode]
    rfl

theorem applyWithin_eq_front (h : Chain forest place ps) {fuel : Nat} (hfuel : ps.length ≤ fuel)
    (s : String) :
    applyWithin forest fuel place (.text s) = .ok (.text (forest.front ps ++ s)) := by
  induction h generalizing fuel s with
  | @top place node hnode hp =>
    obtain ⟨fuel, rfl⟩ : ∃ k, fuel = k + 1 := Nat.exists_eq_add_of_le' hfuel
    have hnot : forest.decorates place = false := by simp [decorates_eq hnode, hp]
    rw [applyWithin_of_not_decorates hnode hnot, front_of_not_decorates hnot, String.empty_append]
  | @up place parent node ps hnode hp hps ih =>
    obtain ⟨fuel, rfl⟩ := Nat.exists_eq_add_of_le' ((Nat.le_add_left 1 ps.length).trans hfuel)
    rw [List.length_cons] at hfuel
    cases hd : forest.decorates place with
    | false =>
      rw [applyWithin_of_not_decorates hnode hd, front_of_not_decorates hd, String.empty_append]
    | true =>
      rw [applyWithin_of_decorates hnode hp hd, ih (Nat.le_of_succ_le_succ hfuel),
        front_of_decorates hd, String.append_assoc]

/-- No style of these is plain. -/
def AllDecorate (forest : Forest) (ps : List Nat) : Prop :=
  ∀ p ∈ ps, ∀ node, forest[p]? = some node → node.decoration ≠ .plain

theorem length_leadAt (hnode : forest[place]? = some node) (h : node.decoration ≠ .plain) :
    (forest.leadAt place).length = 4 := by
  rw [leadAt_eq hnode]
  cases hd : node.decoration with
  | plain => exact absurd hd h
  | _ => rfl

/-- Without plain styles there are four characters for each style below the top. -/
theorem length_front (h : Chain forest place ps) (hall : forest.AllDecorate ps) :
    (forest.front ps).length = 4 * (ps.length - 1) := by
  induction h with
  | @top place node hnode hp =>
    have hnot : forest.decorates place = false := by simp [decorates_eq hnode, hp]
    rw [front_of_not_decorates hnot]
    rfl
  | @up place parent node ps hnode hp hps ih =>
    have hplain := hall place (List.mem_cons_self ..) node hnode
    have hd : forest.decorates place = true := by simp [decorates_eq hnode, hp, hplain]
    have hpos : 0 < ps.length := List.length_pos_of_mem hps.mem_self
    rw [front_of_decorates hd, String.length_append, length_leadAt hnode hplain,
      ih fun p hmem => hall p (List.mem_cons_of_mem _ hmem), List.length_cons]
    omega

/-- Applying a style puts the leads of its chain in front of any text, and no style of a chain
without plain ones adds anything but its four characters for each level below the first. -/
theorem apply_eq_front (h : Chain forest place ps) :
    (∀ s, forest.apply place (.text s) = .ok (.text (forest.front ps ++ s))) ∧
      forest.level place = .ok ps.length ∧
      (forest.AllDecorate ps → (forest.front ps).length = 4 * (ps.length - 1)) :=
  ⟨applyWithin_eq_front h (h.length_le.trans (Nat.le_succ _)), level_of_chain h, length_front h⟩

/-- Dots below a tab below a style at the top, and dots below a plain style below that tab. -/
def tree : Forest := #[⟨.dots, none⟩, ⟨.tab, some 0⟩, ⟨.dots, some 1⟩, ⟨.plain, some 1⟩,
  ⟨.dots, some 3⟩]

theorem apply_eq_front_tree :
    Chain tree 2 [2, 1, 0] ∧ tree.AllDecorate [2, 1, 0] ∧
      (∀ s, tree.apply 2 (.text s) = .ok (.text ("    ... " ++ s))) ∧
      tree.level 2 = .ok 3 ∧ (tree.front [2, 1, 0]).length = 8 ∧
      Chain tree 4 [4, 3, 1, 0] ∧ tree.level 4 = .ok 4 ∧
      ∀ s, tree.apply 4 (.text s) = .ok (.text ("... " ++ s)) := by
  have htab : Chain tree 1 [1, 0] := .up rfl rfl (.top rfl rfl)
  have hdots : Chain tree 2 [2, 1, 0] := .up rfl rfl htab
  have hplain : Chain tree 4 [4, 3, 1, 0] := .up rfl rfl (.up rfl rfl htab)
  have hall : tree.AllDecorate [2, 1, 0] := by
    unfold AllDecorate
    simp [tree]
  obtain ⟨happly, hlevel, hlength⟩ := apply_eq_front hdots
  obtain ⟨happly', hlevel', -⟩ := apply_eq_front hplain
  exact ⟨hdots, hall, happly, hlevel, hlength hall, hplain, hlevel', happly'⟩

end RootFinding.Style.Forest
