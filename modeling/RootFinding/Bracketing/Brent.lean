import RootFinding.Bracketing.Reading
import RootFinding.Search

/-!
# Brent's method

A root of a scalar function between two points where its sign differs. Each step interpolates with a
secant or an inverse parabola through the last points where that stays well inside the bracket and
shrinks faster than bisection, and bisects otherwise; it never moves by less than the tolerance.
-/
namespace RootFinding.Brent

/-- The points of a bracketing search: `b` is the best estimate, `a` the one before it, and `c` lies
across the root. `d` is the last step and `e` the one before. -/
structure Points (α ρ : Type) where
  a : α
  fa : ρ
  b : α
  fb : ρ
  c : α
  fc : ρ
  d : α
  e : α

inductive Ending (α ρ : Type) where
  | root (x : α) (iterations : Nat)
  | exhausted (a b : α) (fa fb : ρ) (iterations : Nat)

def evaluations (iterations : Nat) : Nat := iterations + 2

variable {Raw ρ α : Type} [Scalar α] [Reading Raw ρ α]

/-- A search by Brent's method. Its notes show the new point and its value. -/
abbrev Searching (Raw ρ α : Type) : Type :=
  Search α Raw Empty Empty (α × ρ) (Ending α ρ)

namespace Points
variable (Raw)

/-- Two points to start from; the first one also closes the bracket. -/
def start (a b : α) (fa fb : ρ) : Points α ρ :=
  { a, fa, b, fb, c := a, fc := fa, d := b - a, e := b - a }

/-- Exchange the ends of the bracket where the far one has the smaller value. -/
def ordered (s : Points α ρ) : Points α ρ :=
  if Reading.smaller Raw s.fc s.fb then
    { s with a := s.b, fa := s.fb, b := s.c, fb := s.fc, c := s.b, fc := s.fb }
  else s

def restarted (s : Points α ρ) : Points α ρ :=
  { s with c := s.a, fc := s.fa, d := s.b - s.a, e := s.b - s.a }

end Points

/-- Half the width of the bracket, with its direction. -/
def halfGap (s : Points α ρ) : α := Scalar.half * (s.c - s.b)

/-- The length below which the bracket counts as closed. -/
def resolution (tol : α) (s : Points α ρ) : α :=
  2 * Scalar.epsilon * Scalar.abs s.b + Scalar.half * tol

def isClosed (Raw : Type) [Reading Raw ρ α] (tol : α) (s : Points α ρ) : Bool :=
  Scalar.abs (halfGap s) ≤ resolution tol s || Reading.isZero Raw s.fb

/-- The interpolated step as numerator and denominator: a secant through two points, or an inverse
parabola through three. -/
def interpolation (Raw : Type) [Reading Raw ρ α] (s : Points α ρ) : Except Failure (α × α) := do
  let xm := halfGap s
  let sb : α ← Reading.quotient Raw s.fb s.fa
  if s.a == s.c then
    return (2 * xm * sb, 1 - sb)
  else
    let q : α ← Reading.quotient Raw s.fa s.fc
    let r : α ← Reading.quotient Raw s.fb s.fc
    return (sb * (2 * xm * q * (q - r) - (s.b - s.a) * (r - 1)), (q - 1) * (r - 1) * (sb - 1))

/-- Make the numerator positive, so that the quotient keeps its direction only with a turned
denominator. -/
def oriented (pq : α × α) : α × α :=
  if 0 < pq.1 then (pq.1, -pq.2) else (-pq.1, pq.2)

/-- Whether a step stays within three quarters of the bracket and under half of `e`. -/
def acceptable (tol1 xm e : α) (pq : α × α) : Bool :=
  2 * pq.1 < 3 * xm * pq.2 - Scalar.abs (tol1 * pq.2) &&
    pq.1 < Scalar.abs (Scalar.half * e * pq.2)

/-- Choose the next step: its length and the one to compare the next but one with. -/
def chooseStep (Raw : Type) [Reading Raw ρ α] (tol : α) (s : Points α ρ) :
    Except Failure (α × α) := do
  let xm := halfGap s
  let tol1 := resolution tol s
  if tol1 ≤ Scalar.abs s.e && Reading.smaller Raw s.fb s.fa then
    let pq := oriented (← interpolation Raw s)
    return if acceptable tol1 xm s.e pq then (pq.1 / pq.2, s.d) else (xm, xm)
  else
    return (xm, xm)

/-- The next point: a step of length `d`, but at least the resolution toward the far end. -/
def advance (tol : α) (s : Points α ρ) (d : α) : α :=
  let tol1 := resolution tol s
  if tol1 < Scalar.abs d then s.b + d
  else if 0 < halfGap s then s.b + tol1
  else s.b - tol1

/-- Take the value at the new point in, and close the bracket with the previous point where the new
one lies on the side of the far end. -/
def settle (Raw : Type) [Reading Raw ρ α] (s : Points α ρ) (x : α) (fx : ρ) (d e : α) :
    Except Failure (Points α ρ) := do
  let moved : Points α ρ := { s with a := s.b, fa := s.fb, b := x, fb := fx, d, e }
  return if ← Reading.sameSide Raw fx s.fc then moved.restarted else moved

/-- The main loop, with `left` new evaluations to go after `done` iterations. -/
def iterate (tol : α) : (left done : Nat) → Points α ρ → Searching Raw ρ α
  | 0, done, s =>
    let s := s.ordered Raw
    .report .exhausted (.done (.exhausted s.a s.b s.fa s.fb done))
  | left + 1, done, s =>
    let s := s.ordered Raw
    if isClosed Raw tol s then .report .converged (.done (.root s.b done))
    else
      .attempt (chooseStep Raw tol s) fun (d, e) =>
        let x := advance tol s d
        .evaluate x fun raw =>
          .attempt (Reading.accept raw) fun fx =>
            .report (.iteration (done + 1) (x, fx)) <|
              .attempt (settle Raw s x fx d e) fun s => iterate tol left (done + 1) s

/-- Search for a root between two points. The values there must differ in sign, unless one of them
is zero. -/
def search (limit : Nat) (tol lower upper : α) : Searching Raw ρ α :=
  .evaluate lower fun rawLower => .evaluate upper fun rawUpper =>
    .attempt (Reading.ends rawLower rawUpper) fun (fa, fb) =>
      .attempt (Reading.productPositive Raw fa fb) fun same =>
        if same then .fail .sameSign
        else
          .report (.heading none) <|
            iterate tol (limit + 1) 0 (.start lower upper fa fb)

end RootFinding.Brent
