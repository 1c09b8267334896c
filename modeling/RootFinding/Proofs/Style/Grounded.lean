import RootFinding.Style.Registry
import RootFinding.Proofs.Runs
import RootFinding.Proofs.Style.Chains

/-!
# Grounded registries

As long as no style is hung below itself, every style has a chain, whatever is done with styles
and collections. Adding a style hangs it anew: the names that are known already keep their
levels and texts, unless their chains pass through that style and its parent is another than
before; then all their levels move by as much as its own.
-/
namespace RootFinding.Style
open Forest

/-- Every style has a chain, and every name a style. -/
structure Registry.Grounded (r : Registry) : Prop where
  chains : ∀ place < r.forest.size, ∃ ps, Chain r.forest place ps
  styles : ∀ (i : Nat) (c : Collection), r.collections[i]? = some c →
    ∀ entry ∈ c.named, entry.2 < r.forest.size

namespace Collection
variable {c : Collection} {name : Value} {style : Nat}

theorem mem_of_find? (h : c.find? name = .ok (some style)) :
    ∃ known, (known, style) ∈ c.named := by
  unfold find? at h
  split at h
  case isFalse => cases h
  case isTrue =>
    rw [Except.ok.injEq, Option.map_eq_some_iff] at h
    obtain ⟨⟨known, place⟩, hfind, rfl⟩ := h
    exact ⟨known, List.mem_of_find?_eq_some hfind⟩

theorem find?_append (h : c.find? name = .ok (some style)) (entry : Value × Nat) :
    { c with named := c.named ++ [entry] }.find? name = .ok (some style) := by
  unfold find? at *
  split at h
  case isFalse => cases h
  case isTrue hname =>
    rw [Except.ok.injEq, Option.map_eq_some_iff] at h
    obtain ⟨found, hfind, rfl⟩ := h
    rw [if_pos hname, List.find?_append, hfind]
    rfl

end Collection

namespace Registry
variable {r : Registry} {place style : Nat} {name : Value} {options : AddOptions}

def run (r : Registry) (operations : List Operation) : Registry :=
  operations.foldl (fun r operation => (r.perform operation).1) r

/-- An operation that hangs no style below itself or below a style that hangs below it. -/
def Permits (r : Registry) : Operation → Prop
  | .add place name style options => ∀ c parent ps,
    r.prepareAdd place name style options = .ok (c, some parent) → Chain r.forest parent ps →
      style ∉ ps
  | _ => True

/-- Operations none of which hangs a style below itself. -/
def Careful (r : Registry) : List Operation → Prop
  | [] => True
  | operation :: rest => r.Permits operation ∧ (r.perform operation).1.Careful rest

theorem collection_eq_ok_iff {c : Collection} :
    r.collection place = .ok c ↔ r.collections[place]? = some c := by
  unfold collection
  cases r.collections[place]? <;> simp

theorem lt_size_of_checkStyle (h : r.checkStyle style = .ok ()) : style < r.forest.size := by
  unfold checkStyle at h
  split at h
  case isTrue hlt => exact hlt
  case isFalse => cases h

theorem mem_of_parentOf {c : Collection} {v : Value} {parent : Nat}
    (h : parentOf c v = .ok (some parent)) : ∃ known, (known, parent) ∈ c.named := by
  obtain ⟨holds, -, h⟩ := exists_of_bind_eq_ok h
  split at h
  case isFalse => cases h
  case isTrue =>
    obtain ⟨found, hfind, h⟩ := exists_of_bind_eq_ok h
    cases found with
    | none =>
      obtain ⟨shown, -, h⟩ := exists_of_bind_eq_ok h
      cases h
    | some known =>
      cases h
      exact Collection.mem_of_find? hfind

theorem of_prepareAdd {c : Collection} {parent : Option Nat}
    (h : r.prepareAdd place name style options = .ok (c, parent)) :
    r.collections[place]? = some c ∧ style < r.forest.size ∧
      parentOf c options.parent = .ok parent := by
  obtain ⟨found, hc, h⟩ := exists_of_bind_eq_ok h
  obtain ⟨⟨⟩, hstyle, h⟩ := exists_of_bind_eq_ok h
  split at h
  case isTrue => cases h
  case isFalse =>
    obtain ⟨known, hname, h⟩ := exists_of_bind_eq_ok h
    split at h
    case isTrue =>
      obtain ⟨shown, -, h⟩ := exists_of_bind_eq_ok h
      cases h
    case isFalse =>
      obtain ⟨found, hparent, h⟩ := exists_of_bind_eq_ok h
      cases h
      exact ⟨collection_eq_ok_iff.1 hc, lt_size_of_checkStyle hstyle, hparent⟩

theorem add_of_prepareAdd {c : Collection} {parent : Option Nat}
    (h : r.prepareAdd place name style options = .ok (c, parent)) :
    r.add place name style options =
      ({ forest := r.forest.hang style parent,
         collections := r.collections.setIfInBounds place
          { c with named := c.named ++ [(name, style)] } }, {}) := by
  rw [add, h]
  rfl

theorem exists_prepareAdd {v : Value} (h : (r.add place name style options).2.result = .ok v) :
    ∃ c parent, r.prepareAdd place name style options = .ok (c, parent) := by
  cases hprepare : r.prepareAdd place name style options with
  | error cause => rw [add, hprepare] at h; cases h
  | ok found => exact ⟨found.1, found.2, rfl⟩

theorem chain_push {forest : Forest} {p : Nat} {ps : List Nat} (h : Chain forest p ps)
    (node : Node) : Chain (forest.push node) p ps :=
  h.congr fun q hq => by rw [Array.getElem?_push, if_neg (h.lt_size q hq).ne]

namespace Grounded

/-- A collection put in place of another has styles for its names. -/
theorem setCollection (h : r.Grounded) {c : Collection} (i : Nat)
    (hc : ∀ entry ∈ c.named, entry.2 < r.forest.size) : (r.setCollection i c).Grounded where
  chains := h.chains
  styles j d hd := by
    rw [Registry.setCollection, Array.getElem?_setIfInBounds] at hd
    split at hd
    case isTrue =>
      split at hd
      case isTrue => cases hd; exact hc
      case isFalse => cases hd
    case isFalse => exact h.styles j d hd

theorem newCollection (h : r.Grounded) (arguments : List Value) :
    (r.newCollection arguments).1.Grounded := by
  unfold Registry.newCollection
  split
  case h_3 => exact h
  all_goals
    refine ⟨h.chains, fun i c hc entry hentry => ?_⟩
    rw [Array.getElem?_push] at hc
    split at hc
    · cases hc
      cases hentry
    · exact h.styles i c hc entry hentry

theorem newStyle (h : r.Grounded) (decoration : Decoration) (parent : Option Nat) :
    (r.newStyle decoration parent).1.Grounded := by
  unfold Registry.newStyle
  split
  case h_2 => exact h
  case h_1 hcheck =>
    have hsize : (r.forest.push ⟨decoration, parent⟩).size = r.forest.size + 1 :=
      Array.size_push ..
    have hnew : (r.forest.push ⟨decoration, parent⟩)[r.forest.size]? =
        some ⟨decoration, parent⟩ := Array.getElem?_push_size
    refine ⟨fun p hp => ?_, fun i c hc entry hentry => ?_⟩
    · rcases (Nat.lt_succ_iff_lt_or_eq.1 (hp.trans_eq hsize)) with hlt | rfl
      · obtain ⟨ps, hps⟩ := h.chains p hlt
        exact ⟨ps, chain_push hps _⟩
      · cases parent with
        | none => exact ⟨_, .top hnew rfl⟩
        | some q =>
          obtain ⟨qs, hqs⟩ := h.chains q (lt_size_of_checkStyle hcheck)
          exact ⟨_, .up hnew rfl (chain_push hqs _)⟩
    · exact (h.styles i c hc entry hentry).trans (by rw [hsize]; omega)

/-- A style that is not hung below itself has a chain again, and so has every other. -/
theorem add (h : r.Grounded) (hp : r.Permits (.add place name style options)) :
    (r.add place name style options).1.Grounded := by
  cases hprepare : r.prepareAdd place name style options with
  | error cause => rw [Registry.add, hprepare]; exact h
  | ok found =>
    obtain ⟨c, parent⟩ := found
    obtain ⟨hc, hstyle, hparent⟩ := of_prepareAdd hprepare
    have hnode : r.forest[style]? = some r.forest[style] := Array.getElem?_eq_getElem hstyle
    have habove : ∀ p ∈ parent, ∃ ps, Chain r.forest p ps ∧ style ∉ ps := by
      rintro p rfl
      obtain ⟨known, hknown⟩ := mem_of_parentOf hparent
      obtain ⟨ps, hps⟩ := h.chains p (h.styles place c hc _ hknown)
      exact ⟨ps, hps, hp c p ps hprepare hps⟩
    obtain ⟨new, hnew⟩ := exists_chain_hang hnode habove
    obtain ⟨old, hold⟩ := h.chains style hstyle
    have hsize := size_hang r.forest style parent
    rw [add_of_prepareAdd hprepare]
    have hhung : ({ r with forest := r.forest.hang style parent } : Registry).Grounded := by
      refine ⟨fun p hlt => ?_, fun i d hd entry hentry => ?_⟩
      · obtain ⟨ps, hps⟩ := h.chains p (hlt.trans_eq hsize)
        by_cases hmem : style ∈ ps
        · obtain ⟨qs, hqs, -⟩ := hps.exists_hang hmem hold hnew
          exact ⟨qs, hqs⟩
        · exact ⟨ps, hps.hang_of_notMem hmem _⟩
      · exact (h.styles i d hd entry hentry).trans_eq hsize.symm
    refine hhung.setCollection place fun entry hentry => ?_
    rcases List.mem_append.1 hentry with hentry | hentry
    · exact (h.styles place c hc entry hentry).trans_eq hsize.symm
    · rw [List.mem_singleton.1 hentry]
      exact hstyle.trans_eq hsize.symm

theorem perform (h : r.Grounded) {operation : Operation} (hp : r.Permits operation) :
    (r.perform operation).1.Grounded := by
  cases operation with
  | newCollection arguments => exact h.newCollection arguments
  | newStyle decoration parent => exact h.newStyle decoration parent
  | add place name style options => exact h.add hp
  | setDisplay place level =>
    rw [Registry.perform, Registry.setDisplay]
    split
    case h_1 c hc =>
      exact h.setCollection place (h.styles place c (collection_eq_ok_iff.1 hc))
    case h_2 => exact h
  | _ => exact h

theorem run (h : r.Grounded) {operations : List Operation} (hc : r.Careful operations) :
    (r.run operations).Grounded := by
  induction operations generalizing r with
  | nil => exact h
  | cons operation rest ih => exact ih (h.perform hc.1) hc.2

theorem empty : ({} : Registry).Grounded where
  chains p hp := absurd hp (Nat.not_lt_zero p)
  styles i c hc := by cases hc

end Grounded

def Knows (r : Registry) (i : Nat) (name : Value) (p : Nat) : Prop :=
  ∃ c, r.collections[i]? = some c ∧ c.find? name = .ok (some p)

variable {i p : Nat} {known : Value}

theorem apply_of_knows (h : r.Knows i known p) (v : Value) :
    r.apply i known v = r.forest.apply p v := by
  obtain ⟨c, hc, hfind⟩ := h
  rw [apply, collection_eq_ok_iff.2 hc]
  change (c.find? known).bind _ = _
  rw [hfind]
  rfl

theorem Knows.add (h : r.Knows i known p) : (r.add place name style options).1.Knows i known p := by
  cases hprepare : r.prepareAdd place name style options with
  | error cause => rw [Registry.add, hprepare]; exact h
  | ok found =>
    obtain ⟨c, parent⟩ := found
    obtain ⟨hc, -, -⟩ := of_prepareAdd hprepare
    obtain ⟨d, hd, hfind⟩ := h
    rw [add_of_prepareAdd hprepare]
    by_cases hi : place = i
    · subst hi
      rw [hc, Option.some_inj] at hd
      subst hd
      obtain ⟨hlt, -⟩ := Array.getElem?_eq_some_iff.1 hc
      exact ⟨_, Array.getElem?_setIfInBounds_self_of_lt hlt, Collection.find?_append hfind _⟩
    · exact ⟨d, (Array.getElem?_setIfInBounds_ne hi).trans hd, hfind⟩

theorem Grounded.exists_chain (h : r.Grounded) (hknows : r.Knows i known p) :
    ∃ ps, Chain r.forest p ps := by
  obtain ⟨c, hc, hfind⟩ := hknows
  obtain ⟨known, hentry⟩ := Collection.mem_of_find? hfind
  exact h.chains p (h.styles i c hc _ hentry)

theorem getElem?_add_of_ne {v : Value} (h : (r.add place name style options).2.result = .ok v)
    {q : Nat} (hq : q ≠ style) :
    (r.add place name style options).1.forest[q]? = r.forest[q]? := by
  obtain ⟨c, parent, hprepare⟩ := exists_prepareAdd h
  rw [add_of_prepareAdd hprepare]
  exact getElem?_hang_of_ne r.forest parent hq.symm

theorem size_add {v : Value} (h : (r.add place name style options).2.result = .ok v) :
    (r.add place name style options).1.forest.size = r.forest.size := by
  obtain ⟨c, parent, hprepare⟩ := exists_prepareAdd h
  rw [add_of_prepareAdd hprepare]
  exact size_hang r.forest style parent

/-- A style whose chain keeps its styles keeps its level and its effect. -/
theorem add_of_kept {v : Value} (h : (r.add place name style options).2.result = .ok v)
    {ps : List Nat} (hps : Chain r.forest p ps)
    (hkept : style ∈ ps → (r.add place name style options).1.forest[style]? = r.forest[style]?) :
    (r.add place name style options).1.forest.level p = r.forest.level p ∧
      ∀ text, (r.add place name style options).1.forest.apply p text =
        r.forest.apply p text := by
  have hsame : ∀ q ∈ ps, (r.add place name style options).1.forest[q]? = r.forest[q]? := by
    intro q hq
    by_cases heq : q = style
    · subst heq
      exact hkept hq
    · exact getElem?_add_of_ne h heq
  exact ⟨(level_of_chain (hps.congr hsame)).trans (level_of_chain hps).symm,
    apply_congr hps hsame (size_add h)⟩

/-- A style whose chain passes through the added one moves by as many levels. -/
theorem Grounded.add_of_moved (hr : r.Grounded)
    (hp : r.Permits (.add place name style options)) {v : Value}
    (h : (r.add place name style options).2.result = .ok v)
    {ps : List Nat} (hps : Chain r.forest p ps) (hmem : style ∈ ps) :
    ∃ level level' moved moved',
      r.forest.level p = .ok level ∧
      (r.add place name style options).1.forest.level p = .ok level' ∧
      r.forest.level style = .ok moved ∧
      (r.add place name style options).1.forest.level style = .ok moved' ∧
      level' + moved = level + moved' := by
  obtain ⟨c, parent, hprepare⟩ := exists_prepareAdd h
  obtain ⟨-, hstyle, -⟩ := of_prepareAdd hprepare
  have hforest : (r.add place name style options).1.forest = r.forest.hang style parent := by
    rw [add_of_prepareAdd hprepare]
  have hlt : style < (r.add place name style options).1.forest.size :=
    hstyle.trans_eq (size_add h).symm
  obtain ⟨new, hnew⟩ := (hr.add hp).chains style hlt
  obtain ⟨old, hold⟩ := hr.chains style hstyle
  rw [hforest] at hnew ⊢
  obtain ⟨qs, hqs, hlen⟩ := hps.exists_hang hmem hold hnew
  exact ⟨_, _, _, _, level_of_chain hps, level_of_chain hqs, level_of_chain hold,
    level_of_chain hnew, hlen⟩

/-- As long as no addition hangs a style below itself, every known style has a chain, a level and
an effect on texts. An addition keeps the level and the effect of every name known before, unless
the name's chain passes through the added style and that hangs elsewhere than before; then the
level moves by as much as that of the added style. -/
theorem forest_run {operations : List Operation}
    (hcareful : ({} : Registry).Careful operations) {r : Registry}
    (hr : ({} : Registry).run operations = r) :
    (∀ i name p, r.Knows i name p →
      ∃ ps, Chain r.forest p ps ∧ r.forest.level p = .ok ps.length ∧
        ∀ s, ∃ t, r.apply i name (.text s) = .ok (.text t)) ∧
    ∀ place name style options v, (r.add place name style options).2.result = .ok v →
      ∀ r', (r.add place name style options).1 = r' →
      ∀ i known p ps, r.Knows i known p → Chain r.forest p ps →
        r'.Knows i known p ∧
        ((style ∈ ps → r'.forest[style]? = r.forest[style]?) →
          r'.forest.level p = r.forest.level p ∧
          ∀ text, r'.apply i known text = r.apply i known text) ∧
        (r.Permits (.add place name style options) → style ∈ ps →
          ∃ level level' moved moved',
            r.forest.level p = .ok level ∧ r'.forest.level p = .ok level' ∧
            r.forest.level style = .ok moved ∧ r'.forest.level style = .ok moved' ∧
            level' + moved = level + moved') := by
  have hgrounded : r.Grounded := hr ▸ Grounded.empty.run hcareful
  refine ⟨fun i name p hknows => ?_, ?_⟩
  · obtain ⟨ps, hps⟩ := hgrounded.exists_chain hknows
    refine ⟨ps, hps, level_of_chain hps, fun s => ?_⟩
    rw [apply_of_knows hknows]
    exact exists_apply_text hps s
  · rintro place name style options v hadd r' rfl i known p ps hknows hps
    refine ⟨hknows.add, fun hkept => ?_, fun hp hmem => hgrounded.add_of_moved hp hadd hps hmem⟩
    obtain ⟨hlevel, happly⟩ := add_of_kept hadd hps hkept
    refine ⟨hlevel, fun text => ?_⟩
    rw [apply_of_knows hknows, apply_of_knows hknows.add, happly]

def nested : List Operation := [.newCollection [], .newStyle .tab none, .newStyle .dots none,
  .newStyle .dots none, .add 0 (.text "solver") 0 {},
  .add 0 (.text "iteration") 1 { parent := .text "solver" }]

theorem careful_nested : ({} : Registry).Careful nested := by
  refine ⟨trivial, trivial, trivial, trivial, fun c parent ps h _ => ?_,
    fun c parent ps h hps => ?_, trivial⟩
  · cases h
  · cases h
    rw [hps.unique (.top rfl rfl)]
    decide

/-- Naming the third style below the second changes nothing for that. -/
theorem forest_run_nested :
    ({} : Registry).Careful nested ∧
      (({} : Registry).run nested).Knows 0 (.text "iteration") 1 ∧
      Chain (({} : Registry).run nested).forest 1 [1, 0] ∧
      ((({} : Registry).run nested).add 0 (.text "detail") 2
        { parent := .text "iteration" }).1.forest.level 1 = .ok 2 ∧
      ((({} : Registry).run nested).add 0 (.text "detail") 2
        { parent := .text "iteration" }).1.apply 0 (.text "iteration") (.text "x") =
          (({} : Registry).run nested).apply 0 (.text "iteration") (.text "x") := by
  have hknows : (({} : Registry).run nested).Knows 0 (.text "iteration") 1 := ⟨_, rfl, rfl⟩
  have hchain : Chain (({} : Registry).run nested).forest 1 [1, 0] :=
    .up rfl rfl (.top rfl rfl)
  obtain ⟨-, hkept, -⟩ := (forest_run careful_nested rfl).2 0 (.text "detail") 2
    { parent := .text "iteration" } .nothing rfl _ rfl 0 (.text "iteration") 1 [1, 0] hknows hchain
  obtain ⟨hlevel, happly⟩ := hkept (by decide)
  exact ⟨careful_nested, hknows, hchain, hlevel.trans (level_of_chain hchain), happly _⟩

def looped : List Operation := [.newCollection [], .newStyle .tab none,
  .add 0 (.text "a") 0 {}, .add 0 (.text "b") 0 { parent := .text "a" }]

def paired : List Operation := [.newCollection [], .newStyle .tab none, .newStyle .dots none,
  .add 0 (.text "a") 0 {}, .add 0 (.text "b") 1 {}]

/-- A style added a second time below its own name has no chain, and one added a second time below
another moves under its first name, too. -/
theorem hung_anew :
    ((({} : Registry).run looped).Knows 0 (.text "a") 0 ∧
      (¬∃ ps, Chain (({} : Registry).run looped).forest 0 ps) ∧
      (({} : Registry).run looped).forest.level 0 = .error .cyclicStyles ∧
      (({} : Registry).run looped).apply 0 (.text "a") (.text "x") = .error .cyclicStyles) ∧
    ∃ r, ({} : Registry).run paired = r ∧ r.Knows 0 (.text "b") 1 ∧
      ∃ r', r.add 0 (.text "c") 1 { parent := .text "a" } = (r', {}) ∧
        r.forest.level 1 = .ok 1 ∧ r'.forest.level 1 = .ok 2 ∧
        r.apply 0 (.text "b") (.text "x") = .ok (.text "x") ∧
        r'.apply 0 (.text "b") (.text "x") = .ok (.text "... x") := by
  refine ⟨⟨⟨_, rfl, rfl⟩, ?_, rfl, rfl⟩, _, rfl, ⟨_, rfl, rfl⟩, _, rfl, rfl, rfl, rfl, rfl⟩
  rintro ⟨ps, hps⟩
  cases level_eq_ok_iff.2 ⟨ps, hps, rfl⟩

end Registry
end RootFinding.Style
