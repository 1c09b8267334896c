import RootFinding.Proofs.Iteration.Endings

/-!
# The questions of a search in their order

A run keeps the arguments of the calls for values and of those for slopes apart. Here they stand in
one list, in the order in which they were asked. A search whose values are all measured asks at
points of one length, and a value that is refused is the last one that it asks for.
-/
namespace RootFinding

/-- A question of a search: for the value or for the slope at a point. -/
inductive Question (Point Site : Type) where
  | value (x : Point)
  | slope (x : Site)

namespace Question
variable {Point Site : Type}

def value? : Question Point Site → Option Point
  | .value x => some x
  | .slope _ => none

def slope? : Question Point Site → Option Site
  | .value _ => none
  | .slope x => some x

/-- A question at a point with a property, which depends on what is asked for. -/
def At (points : Point → Prop) (sites : Site → Prop) : Question Point Site → Prop
  | .value x => points x
  | .slope x => sites x

@[simp] theorem value?_value (x : Point) : (.value x : Question Point Site).value? = some x := rfl

@[simp] theorem value?_slope (x : Site) : (.slope x : Question Point Site).value? = none := rfl

@[simp] theorem slope?_value (x : Point) : (.value x : Question Point Site).slope? = none := rfl

@[simp] theorem slope?_slope (x : Site) : (.slope x : Question Point Site).slope? = some x := rfl

end Question

namespace Search
variable {Point Reading Site Slope Detail Answer : Type}

/-- The questions that a search asks its caller, who was asked for so many values and slopes
before. -/
def asked (caller : Caller Point Reading Site Slope Detail) : (values slopes : Nat) →
    Search Point Reading Site Slope Detail Answer → List (Question Point Site)
  | values, slopes, .evaluate x next =>
    .value x :: match caller.value values x with
      | .ok y => asked caller (values + 1) slopes (next y)
      | .error _ => []
  | values, slopes, .slope x next =>
    .slope x :: match caller.slope slopes x with
      | .ok y => asked caller values (slopes + 1) (next y)
      | .error _ => []
  | values, slopes, .report note next =>
    match caller.shows note with
    | .ok _ => asked caller values slopes next
    | .error _ => []
  | _, _, .fail _ => []
  | _, _, .done _ => []

variable {caller : Caller Point Reading Site Slope Detail} {evals : Array Point}
  {slopes : Array Site} {notes : Array (Note Detail)}

/-- What a run keeps are its questions for values and its questions for slopes. -/
theorem toList_asked (search : Search Point Reading Site Slope Detail Answer) :
    (runFrom caller evals slopes notes search).evaluations.toList = evals.toList ++
        (asked caller evals.size slopes.size search).filterMap Question.value? ∧
      (runFrom caller evals slopes notes search).slopes.toList = slopes.toList ++
        (asked caller evals.size slopes.size search).filterMap Question.slope? := by
  induction search generalizing evals slopes notes with
  | evaluate x next ih =>
    rw [runFrom, asked]
    cases caller.value evals.size x with
    | ok y => simpa [List.filterMap_cons] using @ih y (evals.push x) slopes notes
    | error cause => simp [List.filterMap_cons]
  | slope x next ih =>
    rw [runFrom, asked]
    cases caller.slope slopes.size x with
    | ok y => simpa [List.filterMap_cons] using @ih y evals (slopes.push x) notes
    | error cause => simp [List.filterMap_cons]
  | report note next ih =>
    rw [runFrom, asked]
    cases caller.shows note with
    | ok shown => cases shown <;> exact ih
    | error cause => simp
  | fail cause => simp [runFrom, asked]
  | done answer => simp [runFrom, asked]

/-- A search that begins with a question. -/
def Begins (search : Search Point Reading Site Slope Detail Answer) : Question Point Site → Prop
  | .value x => ∃ next, search = .evaluate x next
  | .slope x => ∃ next, search = .slope x next

/-- A property of searches that stays with what is left of them after each answer and note, as long
as the slopes that they are given are allowed. -/
structure Stays (allowed : Slope → Prop)
    (P : Search Point Reading Site Slope Detail Answer → Prop) : Prop where
  evaluate : ∀ {x next}, P (.evaluate x next) → ∀ y, P (next y)
  slope : ∀ {x next}, P (.slope x next) → ∀ y, allowed y → P (next y)
  report : ∀ {note next}, P (.report note next) → P next

variable (evals slopes notes) in
/-- A run comes to each of its questions by a search that begins with it and has the properties that
stay. -/
theorem Stays.exists_begins {allowed : Slope → Prop}
    {P : Search Point Reading Site Slope Detail Answer → Prop} (hP : Stays allowed P)
    {search : Search Point Reading Site Slope Detail Answer} (h : P search)
    {before after : List (Question Point Site)} {q : Question Point Site}
    (hasked : asked caller evals.size slopes.size search = before ++ q :: after)
    (hallowed : ∀ (j : Nat) x y, (before.filterMap Question.slope?)[j]? = some x →
      caller.slope (slopes.size + j) x = .ok y → allowed y) :
    ∃ (rest : Search Point Reading Site Slope Detail Answer) (evals' : Array Point)
      (slopes' : Array Site) (notes' : Array (Note Detail)), P rest ∧ Begins rest q ∧
      runFrom caller evals slopes notes search = runFrom caller evals' slopes' notes' rest ∧
      asked caller evals'.size slopes'.size rest = q :: after ∧
      evals'.size = evals.size + (before.filterMap Question.value?).length ∧
      slopes'.size = slopes.size + (before.filterMap Question.slope?).length := by
  induction search generalizing evals slopes notes before with
  | evaluate x next ih =>
    cases before with
    | nil =>
      obtain rfl : q = .value x := by
        rw [asked] at hasked
        exact (List.cons.inj hasked).1.symm
      exact ⟨_, evals, slopes, notes, h, ⟨next, rfl⟩, rfl, hasked, rfl, rfl⟩
    | cons p before =>
      rw [asked, List.cons_append, List.cons.injEq] at hasked
      obtain ⟨rfl, hasked⟩ := hasked
      rw [runFrom]
      cases hv : caller.value evals.size x with
      | error cause => simp [hv] at hasked
      | ok y =>
        simp only [hv, ← Array.size_push x] at hasked
        obtain ⟨rest, evals', slopes', notes', hrest, hbegins, hrun, hafter, hcalls, hplaces⟩ :=
          ih y (evals.push x) slopes notes (hP.evaluate h y) hasked hallowed
        refine ⟨rest, evals', slopes', notes', hrest, hbegins, hrun, hafter, ?_, hplaces⟩
        simp [hcalls, Nat.add_assoc, Nat.add_comm 1]
  | slope x next ih =>
    cases before with
    | nil =>
      obtain rfl : q = .slope x := by
        rw [asked] at hasked
        exact (List.cons.inj hasked).1.symm
      exact ⟨_, evals, slopes, notes, h, ⟨next, rfl⟩, rfl, hasked, rfl, rfl⟩
    | cons p before =>
      rw [asked, List.cons_append, List.cons.injEq] at hasked
      obtain ⟨rfl, hasked⟩ := hasked
      rw [runFrom]
      cases hs : caller.slope slopes.size x with
      | error cause => simp [hs] at hasked
      | ok y =>
        simp only [hs, ← Array.size_push x] at hasked
        obtain ⟨rest, evals', slopes', notes', hrest, hbegins, hrun, hafter, hcalls, hplaces⟩ :=
          ih y evals (slopes.push x) notes (hP.slope h y (hallowed 0 x y rfl hs)) hasked
            fun j z w hz hw => hallowed (j + 1) z w hz (by
              rwa [Array.size_push, Nat.add_assoc, Nat.add_comm 1] at hw)
        refine ⟨rest, evals', slopes', notes', hrest, hbegins, hrun, hafter, hcalls, ?_⟩
        simp [hplaces, Nat.add_assoc, Nat.add_comm 1]
  | report note next ih =>
    rw [asked] at hasked
    rw [runFrom]
    cases hs : caller.shows note with
    | error cause => simp [hs] at hasked
    | ok shown =>
      rw [hs] at hasked
      cases shown <;> exact ih _ _ _ (hP.report h) hasked hallowed
  | fail cause => simp [asked] at hasked
  | done answer => simp [asked] at hasked

end Search

namespace Iteration
open Search
variable {α Site Slope Detail : Type}

variable {caller : Caller (List α) (Grid α) Site Slope Detail} {n : Nat} {sites : Site → Prop}
  {search : Searching α Site Slope Detail} {evals : Array (List α)} {slopes : Array Site}
  {notes : Array (Note Detail)}

theorem asked_measure (values places : Nat) (x : List α)
    (next : List α → Searching α Site Slope Detail) :
    asked caller values places (measure x next) =
      .value x :: match reply caller values x with
        | .ok y => asked caller (values + 1) places (next y)
        | .error _ => [] := by
  unfold reply
  rw [measure, asked]
  cases caller.value values x with
  | error cause => rfl
  | ok y =>
    dsimp only
    by_cases hy : y.shape = [x.length]
    · simp only [hy, if_true]
    · simp only [hy, if_false, asked]

theorem Measured.exists_measure {x : List α} {next : Grid α → Searching α Site Slope Detail}
    (h : Measured n sites (.evaluate x next)) :
    x.length = n ∧ ∃ f, Search.evaluate x next = Iteration.measure x f ∧
      ∀ y : List α, y.length = n → Measured n sites (f y) := by
  generalize hs : Search.evaluate x next = search at h
  cases h with
  | @measure z f hz hf =>
    obtain rfl : x = z := (Search.evaluate.inj hs).1
    exact ⟨hz, f, rfl, hf⟩
  | slope => cases hs
  | report => cases hs
  | fail => cases hs
  | done => cases hs

theorem stays_measured :
    Stays (fun _ => True) (Measured n sites : Searching α Site Slope Detail → Prop) where
  evaluate h y := by
    obtain ⟨hx, f, hf, hnext⟩ := h.exists_measure
    rw [(Search.evaluate.inj hf).2]
    dsimp only
    split
    · rename_i hy
      exact hnext _ ((Grid.length_of_shape hy).trans hx)
    · exact .fail
  slope h y _ := by
    cases h with
    | slope _ hnext => exact hnext y
  report h := by
    cases h with
    | report hnext => exact hnext

/-- All values are asked for at vectors of one length, and all slopes at the sites of the search. -/
theorem Measured.at (h : Measured n sites search) {q : Question (List α) Site}
    (hq : q ∈ asked caller 0 0 search) : q.At (fun x => x.length = n) sites := by
  obtain ⟨before, after, hasked⟩ := List.append_of_mem hq
  obtain ⟨rest, -, -, -, hrest, hbegins, -⟩ :=
    stays_measured.exists_begins #[] #[] #[] h hasked fun _ _ _ _ _ => trivial
  cases q with
  | value x =>
    obtain ⟨next, rfl⟩ := hbegins
    exact hrest.exists_measure.1
  | slope x =>
    obtain ⟨next, rfl⟩ := hbegins
    cases hrest with
    | slope hx => exact hx

variable (evals slopes notes) in
/-- A value that is refused is the last one asked for, and the run fails for that cause. -/
theorem Measured.last_of_error (h : Measured n sites search) {before after : List (Question _ _)}
    {x : List α} {cause : Failure}
    (hasked : asked caller evals.size slopes.size search = before ++ .value x :: after)
    (hreply : reply caller (evals.size + (before.filterMap Question.value?).length) x =
      .error cause) :
    after = [] ∧ (runFrom caller evals slopes notes search).outcome = .error cause := by
  obtain ⟨rest, evals', slopes', notes', hrest, ⟨next, rfl⟩, hrun, hafter, hcalls, -⟩ :=
    stays_measured.exists_begins evals slopes notes h hasked fun _ _ _ _ _ => trivial
  obtain ⟨-, f, hf, -⟩ := hrest.exists_measure
  rw [← hcalls] at hreply
  rw [hf, asked_measure, hreply] at hafter
  rw [hrun, hf, runFrom_measure_error hreply]
  exact ⟨(List.cons.inj hafter).2.symm, rfl⟩

end Iteration
end RootFinding
