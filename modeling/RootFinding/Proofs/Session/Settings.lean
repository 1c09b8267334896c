import RootFinding.Session.Basic
import RootFinding.Proofs.Runs
import RootFinding.Proofs.Number.Integers

/-!
# Settings of a solver

A limit is a whole number from one on and a tolerance a number above zero, whatever kind of value
they are given as. A solver is what is created from its own settings, and a copy with one setting
changed is what is created from them with that one replaced.
-/
namespace RootFinding
open Number

namespace Value

def Positive : Value → Prop
  | .int n => 0 < n
  | .truth b => b = true
  | .real x => 0 < x
  | _ => False

/-- A number that is not above zero, such as an undefined one. -/
def NotPositive : Value → Prop
  | .int n => n ≤ 0
  | .truth b => b = false
  | .real x => ¬0 < x
  | _ => False

/-- An integer that lies beyond the doubles. -/
def Oversized : Value → Prop
  | .int n => (2 ^ 54 - 1) * 2 ^ 970 ≤ n.natAbs
  | _ => False

theorem isBelow_real (x : Double) : isBelow (.int 0) (.real x) = .ok (decide (0 < x)) := by
  have hiff : (compareInt 0 x.value == some .lt) = decide (0 < x) := by
    rw [Bool.eq_iff_iff, beq_iff_eq, compareInt_zero_iff, decide_eq_true_iff]
    rfl
  exact congrArg Except.ok hiff

theorem isBelow_int (n : Int) : isBelow (.int 0) (.int n) = .ok (decide (0 < n)) := by
  have hiff : (some (compare 0 n) == some .lt) = decide (0 < n) := by
    rw [Bool.eq_iff_iff, beq_iff_eq, Option.some_inj, Int.compare_eq_lt, decide_eq_true_iff]
  exact congrArg Except.ok hiff

theorem Positive.isBelow {v : Value} (h : v.Positive) : Value.isBelow (.int 0) v = .ok true := by
  cases v with
  | int n => rw [isBelow_int, decide_eq_true (show 0 < n from h)]
  | truth b =>
    cases (h : b = true)
    rfl
  | real x => rw [isBelow_real, decide_eq_true (show 0 < x from h)]
  | _ => exact h.elim

theorem NotPositive.isBelow {v : Value} (h : v.NotPositive) :
    Value.isBelow (.int 0) v = .ok false := by
  cases v with
  | int n => rw [isBelow_int, decide_eq_false (not_lt.2 h)]
  | truth b =>
    cases (h : b = false)
    rfl
  | real x => rw [isBelow_real, decide_eq_false h]
  | _ => exact h.elim

theorem positive_of_isBelow {v : Value} (h : Value.isBelow (.int 0) v = .ok true) :
    v.Positive := by
  cases v with
  | int n =>
    rw [isBelow_int] at h
    exact of_decide_eq_true (p := 0 < n) (Except.ok.inj h)
  | truth b =>
    cases b with
    | true => rfl
    | false => cases (NotPositive.isBelow (v := .truth false) rfl).symm.trans h
  | real x =>
    rw [isBelow_real] at h
    exact of_decide_eq_true (p := 0 < x) (Except.ok.inj h)
  | _ => cases h

theorem Oversized.toFloat {v : Value} (h : v.Oversized) : v.toFloat = .error .tooLarge := by
  cases v with
  | int n =>
    have hnone : ofInt? n = none := (ofInt?_eq_none_iff n).2 h
    simp [Value.toFloat, toDouble, roundInt, hnone]
  | _ => exact h.elim

theorem exists_toFloat_int {n : Int} (h : ¬(Value.int n).Oversized) :
    ∃ x, ofInt? n = some x ∧ (Value.int n).toFloat = .ok x := by
  obtain ⟨x, hx⟩ := Option.ne_none_iff_exists'.1 (mt (ofInt?_eq_none_iff n).1 h)
  refine ⟨x, hx, ?_⟩
  simp [Value.toFloat, toDouble, roundInt, hx]
  rfl

theorem NotPositive.exists_toFloat {v : Value} (h : v.NotPositive) (hv : ¬v.Oversized) :
    ∃ x, v.toFloat = .ok x := by
  cases v with
  | int n =>
    obtain ⟨x, -, hx⟩ := exists_toFloat_int hv
    exact ⟨x, hx⟩
  | truth b => exact ⟨_, rfl⟩
  | real x => exact ⟨_, rfl⟩
  | _ => exact h.elim

theorem Positive.exists_toFloat {v : Value} (h : v.Positive) (hv : ¬v.Oversized) :
    ∃ x, v.toFloat = .ok x ∧ 0 < x := by
  cases v with
  | int n =>
    obtain ⟨x, hround, hx⟩ := exists_toFloat_int hv
    exact ⟨x, hx, pos_of_ofInt? h hround⟩
  | truth b =>
    cases (h : b = true)
    exact ⟨_, rfl, by decide⟩
  | real x => exact ⟨_, rfl, h⟩
  | _ => exact h.elim

end Value

namespace Limit

theorem ofValue_eq_ok_iff {v : Value} {limit : Limit} :
    ofValue v = .ok limit ↔ v.toInt = .ok (limit.count : Int) := by
  constructor
  · intro h
    obtain ⟨n, hn, h⟩ := exists_of_bind_eq_ok h
    split at h
    case isTrue hpos =>
      cases h
      rw [hn, Int.toNat_of_nonneg (by omega)]
    case isFalse => cases h
  · intro h
    rw [ofValue, h]
    exact dif_pos limit.positive

theorem exists_ofValue {v : Value} {n : Int} (hv : v.toInt = .ok n) (h : 1 ≤ n) :
    ∃ limit : Limit, (limit.count : Int) = n ∧ ofValue v = .ok limit := by
  have hn : (n.toNat : Int) = n := Int.toNat_of_nonneg (by omega)
  exact ⟨⟨n.toNat, by omega⟩, hn, ofValue_eq_ok_iff.2 (by rw [hv, hn])⟩

theorem ofValue_of_lt {v : Value} {n : Int} (hv : v.toInt = .ok n) (h : n < 1) :
    ofValue v = .error .limitTooSmall := by
  rw [ofValue, hv]
  exact dif_neg (by omega)

theorem ofValue_count (limit : Limit) : ofValue (.int limit.count) = .ok limit :=
  ofValue_eq_ok_iff.2 rfl

end Limit

namespace RootTolerance

/-- A tolerance is read from a number above zero, which it is up to rounding. -/
theorem ofValue_eq_ok_iff {v : Value} {tol : RootTolerance} :
    ofValue v = .ok tol ↔ v.Positive ∧ v.toFloat = .ok tol.value := by
  constructor
  · intro h
    obtain ⟨below, hbelow, h⟩ := exists_of_bind_eq_ok h
    split at h
    case isTrue htrue =>
      obtain ⟨x, hx, h⟩ := exists_of_bind_eq_ok h
      split at h
      case isTrue => cases h; exact ⟨Value.positive_of_isBelow (htrue ▸ hbelow), hx⟩
      case isFalse => cases h
    case isFalse => cases h
  · rintro ⟨hpos, hx⟩
    rw [ofValue, hpos.isBelow, hx]
    exact dif_pos tol.positive

/-- Every number above zero is one, unless it lies beyond the doubles. -/
theorem exists_ofValue {v : Value} (h : v.Positive) (hv : ¬v.Oversized) :
    ∃ tol : RootTolerance, v.toFloat = .ok tol.value ∧ ofValue v = .ok tol := by
  obtain ⟨x, hx, hpos⟩ := h.exists_toFloat hv
  exact ⟨⟨x, hpos⟩, hx, ofValue_eq_ok_iff.2 ⟨h, hx⟩⟩

theorem ofValue_of_notPositive {v : Value} (h : v.NotPositive) :
    ofValue v = .error (refusal v) := by
  rw [ofValue, h.isBelow]
  rfl

theorem refusal_of_toFloat {v : Value} {x : Float} (hx : v.toFloat = .ok x) :
    refusal v = .toleranceTooSmall (some (Decimal.generalText x)) := by
  rw [refusal, hx]
  rfl

theorem refusal_of_oversized {v : Value} (hv : v.Oversized) :
    refusal v = .toleranceTooSmall none := by
  rw [refusal, hv.toFloat]
  rfl

theorem ofValue_value (tol : RootTolerance) : ofValue (.ofFloat tol.value) = .ok tol :=
  ofValue_eq_ok_iff.2 ⟨tol.positive, rfl⟩

end RootTolerance

namespace Method

def functions : Method → Functions
  | .brent _ => {}
  | .newton f g | .sand f g => { value := some f, slope := some g }
  | .broyden f | .steffensen f | .wegstein f => { value := some f }

theorem exists_of_family_brent {method : Method} (h : method.family = .brent) :
    ∃ tol, method = .brent tol := by
  cases method with
  | brent tol => exact ⟨tol, rfl⟩
  | _ => cases h

end Method

namespace Solver

def settings (s : Solver) : SolverOptions where
  limit := some (.int s.limit.count)
  tolerance := s.method.tolerance?.map fun tol => .ofFloat tol.value
  display := some s.display

/-- A copy with another limit is what is created from the settings with that limit. -/
theorem withLimit_eq_create (s : Solver) (v : Value) :
    s.withLimit v =
      create s.method.family { s.settings with limit := some v } s.method.functions := by
  obtain ⟨method, limit, display⟩ := s
  cases method with
  | brent tol =>
    have hread := RootTolerance.ofValue_value tol
    change (Limit.ofValue v).bind _ = (Limit.ofValue v).bind fun limit =>
      ((RootTolerance.ofValue (.ofFloat tol.value)).bind _).bind _
    rw [hread]
    rfl
  | _ => rfl

/-- A copy with another tolerance is what is created from the settings with that tolerance. -/
theorem withTolerance_eq_create {s : Solver} {tol : RootTolerance} (h : s.method = .brent tol)
    (v : Value) :
    s.withTolerance v =
      create s.method.family { s.settings with tolerance := some v } s.method.functions := by
  obtain ⟨method, limit, display⟩ := s
  cases h
  have hread := Limit.ofValue_count limit
  change (RootTolerance.ofValue v).bind _ = (Limit.ofValue (.int limit.count)).bind fun limit =>
    ((RootTolerance.ofValue v).bind _).bind _
  rw [hread]
  cases RootTolerance.ofValue v <;> rfl

end Solver
end RootFinding
