import Mathlib.Logic.Basic

/-!
Contract: structured programs over a machine whose steps may fail.

Owns:
- straight-line blocks, sequencing and test-first loops over any instruction
  type;
- an executable evaluator with fuel for the loops, and its monotonicity;
- the fuel-free judgement `Yields` with its composition rules;
- static effects: a family of state shapes that every step moves along, and
  what it says about a program that completes.

Does not own: any instruction set, any state layout, or any error type. A
program that runs out of fuel for every bound yields nothing, so a statement
about `Yields` is a statement about termination as well.
-/

namespace MidenWorkspace.Library.Structured

universe u v w

/-- A sequence of fallible computations succeeds through a success of the first. -/
theorem bind_eq_ok_iff {ε : Type u} {α β : Type v} {first : Except ε α} {next : α → Except ε β}
    {result : β} :
    first >>= next = .ok result ↔ ∃ value, first = .ok value ∧ next value = .ok result := by
  cases first with
  | error failure => simp [bind, Except.bind]
  | ok value => simp [bind, Except.bind]

theorem exists_of_mem_mapM_eq_ok {ε : Type u} {α : Type w} {β : Type v} {step : α → Except ε β}
    {items : List α} {results : List β} (result : items.mapM step = .ok results) {value : β}
    (member : value ∈ results) : ∃ item ∈ items, step item = .ok value := by
  induction items generalizing results with
  | nil =>
      obtain rfl := Except.ok.inj result
      cases member
  | cons item others inductionHypothesis =>
      rw [List.mapM_cons] at result
      obtain ⟨first, stepped, further⟩ := bind_eq_ok_iff.mp result
      obtain ⟨rest, mapped, collected⟩ := bind_eq_ok_iff.mp further
      obtain rfl := Except.ok.inj collected
      rcases List.mem_cons.mp member with rfl | later
      · exact ⟨item, .head _, stepped⟩
      · obtain ⟨other, among, found⟩ := inductionHypothesis mapped later
        exact ⟨other, .tail _ among, found⟩

/-- What every step of a loop that succeeds keeps. -/
theorem foldlM_invariant {ε : Type u} {σ : Type v} {α : Type w} {step : σ → α → Except ε σ}
    (Kept : σ → Prop) {items : List α} {start final : σ}
    (keeps : ∀ {state item next}, item ∈ items → Kept state → step state item = .ok next →
      Kept next)
    (kept : Kept start) (result : items.foldlM step start = .ok final) : Kept final := by
  induction items generalizing start with
  | nil =>
      obtain rfl := Except.ok.inj result
      exact kept
  | cons item others inductionHypothesis =>
      rw [List.foldlM_cons] at result
      obtain ⟨next, first, rest⟩ := bind_eq_ok_iff.mp result
      exact inductionHypothesis (fun member => keeps (.tail _ member))
        (keeps (.head _) kept first) rest

/-- What an instruction does to a state, and how a loop takes its condition
off the state. -/
structure Machine (ι : Type u) (σ : Type v) (ε : Type w) where
  step : ι → σ → Except ε σ
  test : σ → Except ε (Bool × σ)

inductive Code (ι : Type u) where
  | block (instructions : List ι)
  | seq (first second : Code ι)
  | whileTrue (body : Code ι)

namespace Machine

variable {ι : Type u} {σ : Type v} {ε : Type w} (m : Machine ι σ ε)

/-- Execute a block from left to right, stopping at the first error. -/
def runBlock : List ι → σ → Except ε σ
  | [], state => .ok state
  | instruction :: rest, state =>
      match m.step instruction state with
      | .ok next => runBlock rest next
      | .error failure => .error failure

/-- Repeat `body` while the test holds, at most `fuel` tests. -/
def iterate (body : σ → Option (Except ε σ)) :
    Nat → σ → Option (Except ε σ)
  | 0, _ => none
  | fuel + 1, state =>
      match m.test state with
      | .error failure => some (.error failure)
      | .ok (false, after) => some (.ok after)
      | .ok (true, after) =>
          match body after with
          | some (.ok next) => iterate body fuel next
          | other => other

/-- Evaluate a program; `none` means that some loop used up the fuel. -/
def run (fuel : Nat) : Code ι → σ → Option (Except ε σ)
  | .block instructions, state => some (m.runBlock instructions state)
  | .seq first second, state =>
      match run fuel first state with
      | some (.ok middle) => run fuel second middle
      | other => other
  | .whileTrue body, state => m.iterate (run fuel body) fuel state

/-- The program stops on `state` with the given result. -/
def Yields (code : Code ι) (state : σ) (result : Except ε σ) : Prop :=
  ∃ fuel, m.run fuel code state = some result

/-- The program stops on `state` without an error, in `final`. -/
abbrev Completes (code : Code ι) (state final : σ) : Prop :=
  m.Yields code state (.ok final)

/-- The program stops on `state` with an error. -/
abbrev Aborts (code : Code ι) (state : σ) (failure : ε) : Prop :=
  m.Yields code state (.error failure)

variable {m}

/-! ### Blocks -/

@[simp] theorem runBlock_nil (state : σ) : m.runBlock [] state = .ok state := rfl

theorem runBlock_cons_ok {instruction : ι} {rest : List ι} {state next : σ}
    (stepped : m.step instruction state = .ok next) :
    m.runBlock (instruction :: rest) state = m.runBlock rest next := by
  simp [runBlock, stepped]

theorem runBlock_cons_error {instruction : ι} {rest : List ι} {state : σ} {failure : ε}
    (stepped : m.step instruction state = .error failure) :
    m.runBlock (instruction :: rest) state = .error failure := by
  simp [runBlock, stepped]

/-- A step that answers with a fallible value hands it to the instructions after it. -/
theorem runBlock_cons_map {α : Type*} {instruction : ι} {state : σ} {value : Except ε α}
    {answer : α → σ} (stepped : m.step instruction state = value.map answer) (rest : List ι) :
    m.runBlock (instruction :: rest) state =
      value.bind fun result => m.runBlock rest (answer result) := by
  cases value with
  | error failure => exact runBlock_cons_error stepped
  | ok result => exact runBlock_cons_ok stepped

theorem runBlock_append (before after : List ι) (state : σ) :
    m.runBlock (before ++ after) state = m.runBlock before state >>= m.runBlock after := by
  induction before generalizing state with
  | nil => rfl
  | cons instruction rest inductionHypothesis =>
      cases stepped : m.step instruction state with
      | error failure =>
          rw [List.cons_append, runBlock_cons_error stepped, runBlock_cons_error stepped]
          rfl
      | ok next =>
          rw [List.cons_append, runBlock_cons_ok stepped, runBlock_cons_ok stepped,
            inductionHypothesis]

/-- A block that runs to the end hands its final state to the block after it. -/
theorem runBlock_append_ok {before after : List ι} {state middle : σ}
    (ran : m.runBlock before state = .ok middle) :
    m.runBlock (before ++ after) state = m.runBlock after middle := by
  rw [runBlock_append, ran]
  rfl

/-! ### More fuel never changes a result -/

private theorem iterate_mono {body larger : σ → Option (Except ε σ)}
    (refines : ∀ state result, body state = some result → larger state = some result)
    {fuel more : Nat} (le : fuel ≤ more) {state : σ} {result : Except ε σ}
    (ran : m.iterate body fuel state = some result) :
    m.iterate larger more state = some result := by
  induction fuel generalizing more state with
  | zero => simp [iterate] at ran
  | succ fuel inductionHypothesis =>
      obtain ⟨extra, rfl⟩ : ∃ extra, more = extra + 1 := ⟨more - 1, by omega⟩
      simp only [iterate] at ran ⊢
      cases tested : m.test state with
      | error failure => simpa [tested] using ran
      | ok outcome =>
          obtain ⟨flag, after⟩ := outcome
          cases flag with
          | false => simpa [tested] using ran
          | true =>
              simp only [tested] at ran ⊢
              cases ranBody : body after with
              | none => simp [ranBody] at ran
              | some bodyResult =>
                  rw [refines after bodyResult ranBody]
                  rw [ranBody] at ran
                  cases bodyResult with
                  | error failure => exact ran
                  | ok next => exact inductionHypothesis (by omega) ran

theorem run_mono {fuel more : Nat} (le : fuel ≤ more) (code : Code ι) {state : σ}
    {result : Except ε σ} (ran : m.run fuel code state = some result) :
    m.run more code state = some result := by
  induction code generalizing state result with
  | block instructions => exact ran
  | seq first second firstHypothesis secondHypothesis =>
      simp only [run] at ran ⊢
      cases ranFirst : m.run fuel first state with
      | none => simp [ranFirst] at ran
      | some firstResult =>
          rw [firstHypothesis ranFirst]
          rw [ranFirst] at ran
          cases firstResult with
          | error failure => exact ran
          | ok middle => exact secondHypothesis ran
  | whileTrue body bodyHypothesis =>
      exact iterate_mono (fun _ _ => bodyHypothesis) le ran

/-- A program has at most one result. -/
theorem Yields.unique {code : Code ι} {state : σ} {left right : Except ε σ}
    (first : m.Yields code state left) (second : m.Yields code state right) :
    left = right := by
  obtain ⟨leftFuel, ranLeft⟩ := first
  obtain ⟨rightFuel, ranRight⟩ := second
  have large := run_mono (Nat.le_max_left leftFuel rightFuel) code ranLeft
  rw [run_mono (Nat.le_max_right leftFuel rightFuel) code ranRight] at large
  exact (Option.some.inj large).symm

/-! ### Composition rules -/

theorem yields_block {instructions : List ι} {state : σ} :
    m.Yields (.block instructions) state (m.runBlock instructions state) :=
  ⟨0, rfl⟩

theorem yields_block_iff {instructions : List ι} {state : σ} {result : Except ε σ} :
    m.Yields (.block instructions) state result ↔
      m.runBlock instructions state = result := by
  constructor
  · rintro ⟨fuel, ran⟩
    exact Option.some.inj ran
  · rintro rfl
    exact yields_block

theorem Completes.seq {first second : Code ι} {state middle : σ} {result : Except ε σ}
    (ranFirst : m.Completes first state middle)
    (ranSecond : m.Yields second middle result) :
    m.Yields (.seq first second) state result := by
  obtain ⟨firstFuel, ranFirst⟩ := ranFirst
  obtain ⟨secondFuel, ranSecond⟩ := ranSecond
  refine ⟨max firstFuel secondFuel, ?_⟩
  simp only [run, run_mono (Nat.le_max_left firstFuel secondFuel) first ranFirst]
  exact run_mono (Nat.le_max_right firstFuel secondFuel) second ranSecond

theorem Aborts.seq {first second : Code ι} {state : σ} {failure : ε}
    (ranFirst : m.Aborts first state failure) :
    m.Aborts (.seq first second) state failure := by
  obtain ⟨fuel, ranFirst⟩ := ranFirst
  exact ⟨fuel, by simp only [run, ranFirst]⟩

theorem completes_while_of_exit {body : Code ι} {state after : σ}
    (tested : m.test state = .ok (false, after)) :
    m.Completes (.whileTrue body) state after :=
  ⟨1, by simp [run, iterate, tested]⟩

/-- One turn of a loop whose body completes. -/
theorem Completes.while_turn {body : Code ι} {state entered next : σ} {result : Except ε σ}
    (tested : m.test state = .ok (true, entered))
    (ranBody : m.Completes body entered next)
    (ranRest : m.Yields (.whileTrue body) next result) :
    m.Yields (.whileTrue body) state result := by
  obtain ⟨bodyFuel, ranBody⟩ := ranBody
  obtain ⟨restFuel, ranRest⟩ := ranRest
  refine ⟨max bodyFuel restFuel + 1, ?_⟩
  have bodyLarge := run_mono (by omega : bodyFuel ≤ max bodyFuel restFuel + 1) body ranBody
  have restLarge : m.iterate (m.run (max bodyFuel restFuel + 1) body)
      (max bodyFuel restFuel) next = some result :=
    iterate_mono (fun _ _ => run_mono (by omega) body) (Nat.le_max_right _ _) ranRest
  simp only [run, iterate, tested, bodyLarge, restLarge]

/-- `count` turns of a loop, one after the other; the test that would end it is
left to the caller. -/
inductive Turns (m : Machine ι σ ε) (body : Code ι) (start : σ) : Nat → σ → Prop
  | none : Turns m body start 0 start
  | next {count : Nat} {state entered final : σ} :
      Turns m body start count state → m.test state = .ok (true, entered) →
        m.Completes body entered final → Turns m body start (count + 1) final

/-- What the loop does after some turns, it does as a whole. -/
theorem Turns.then_loop {body : Code ι} {start state : σ} {count : Nat} {result : Except ε σ}
    (turned : m.Turns body start count state) (rest : m.Yields (.whileTrue body) state result) :
    m.Yields (.whileTrue body) start result := by
  induction turned with
  | none => exact rest
  | next _ tested ranBody inductionHypothesis =>
      apply inductionHypothesis
      exact Completes.while_turn tested ranBody rest

/-- One turn of a loop whose body fails. -/
theorem Aborts.while_turn {body : Code ι} {state entered : σ} {failure : ε}
    (tested : m.test state = .ok (true, entered))
    (ranBody : m.Aborts body entered failure) :
    m.Aborts (.whileTrue body) state failure := by
  obtain ⟨fuel, ranBody⟩ := ranBody
  refine ⟨fuel + 1, ?_⟩
  simp only [run, iterate, tested, run_mono (Nat.le_succ fuel) body ranBody]

end Machine

/-! ### Static effects -/

variable {ι : Type u} {σ : Type v} {ε : Type w} {τ : Type*}

/-- The index at which a program ends, computed from the index moved by each
instruction. A loop must come back to the index at which it was tested. -/
def Code.effect [DecidableEq τ] (instruction : ι → τ → Option τ) (condition : τ → Option τ) :
    Code ι → τ → Option τ
  | .block instructions, index => instructions.foldlM (fun now next => instruction next now) index
  | .seq first second, index =>
      (effect instruction condition first index).bind (effect instruction condition second)
  | .whileTrue body, index =>
      (condition index).bind fun inside =>
        if effect instruction condition body inside = some index then some inside else none

/-- Every step and every test moves the shapes as the static effects say. -/
structure Machine.Respects (m : Machine ι σ ε) (Shape : τ → σ → Prop)
    (instruction : ι → τ → Option τ) (condition : τ → Option τ) : Prop where
  step : ∀ {next index after state final}, instruction next index = some after →
    Shape index state → m.step next state = .ok final → Shape after final
  test : ∀ {index after state flag final}, condition index = some after →
    Shape index state → m.test state = .ok (flag, final) → Shape after final

namespace Machine.Respects

variable {m : Machine ι σ ε} {Shape : τ → σ → Prop} {instruction : ι → τ → Option τ}
  {condition : τ → Option τ}

theorem block (respects : m.Respects Shape instruction condition) {instructions : List ι}
    {index after : τ} {state final : σ}
    (moved : instructions.foldlM (fun now next => instruction next now) index = some after)
    (shape : Shape index state) (ran : m.runBlock instructions state = .ok final) :
    Shape after final := by
  induction instructions generalizing index state with
  | nil =>
      obtain rfl : index = after := by simpa using moved
      obtain rfl : state = final := by simpa [runBlock] using ran
      exact shape
  | cons next rest inductionHypothesis =>
      simp only [List.foldlM_cons, Option.bind_eq_bind, Option.bind_eq_some_iff] at moved
      obtain ⟨middle, movedNext, movedRest⟩ := moved
      simp only [runBlock] at ran
      cases stepped : m.step next state with
      | error failure => simp [stepped] at ran
      | ok reached =>
          rw [stepped] at ran
          exact inductionHypothesis movedRest (respects.step movedNext shape stepped) ran

private theorem iterate (respects : m.Respects Shape instruction condition)
    {body : σ → Option (Except ε σ)} {index inside : τ} (entered : condition index = some inside)
    (keeps : ∀ state final, Shape inside state → body state = some (.ok final) → Shape index final)
    {fuel : Nat} {state final : σ} (shape : Shape index state)
    (ran : m.iterate body fuel state = some (.ok final)) : Shape inside final := by
  induction fuel generalizing state with
  | zero => simp [Machine.iterate] at ran
  | succ fuel inductionHypothesis =>
      simp only [Machine.iterate] at ran
      cases tested : m.test state with
      | error failure => simp [tested] at ran
      | ok outcome =>
          obtain ⟨flag, reached⟩ := outcome
          have shapeInside := respects.test entered shape tested
          cases flag with
          | false =>
              obtain rfl : reached = final := by simpa [tested] using ran
              exact shapeInside
          | true =>
              simp only [tested] at ran
              cases ranBody : body reached with
              | none => simp [ranBody] at ran
              | some result =>
                  cases result with
                  | error failure => simp [ranBody] at ran
                  | ok next =>
                      rw [ranBody] at ran
                      exact inductionHypothesis (keeps reached next shapeInside ranBody) ran

theorem run [DecidableEq τ] (respects : m.Respects Shape instruction condition) (code : Code ι)
    {fuel : Nat} {index after : τ} {state final : σ}
    (moved : code.effect instruction condition index = some after)
    (shape : Shape index state) (ran : m.run fuel code state = some (.ok final)) :
    Shape after final := by
  induction code generalizing index after state final with
  | block instructions =>
      exact respects.block moved shape (Option.some.inj ran)
  | seq first second firstHypothesis secondHypothesis =>
      simp only [Code.effect, Option.bind_eq_some_iff] at moved
      obtain ⟨middle, movedFirst, movedSecond⟩ := moved
      simp only [Machine.run] at ran
      cases ranFirst : m.run fuel first state with
      | none => simp [ranFirst] at ran
      | some result =>
          cases result with
          | error failure => simp [ranFirst] at ran
          | ok reached =>
              rw [ranFirst] at ran
              exact secondHypothesis movedSecond (firstHypothesis movedFirst shape ranFirst) ran
  | whileTrue body bodyHypothesis =>
      simp only [Code.effect, Option.bind_eq_some_iff, Option.ite_none_right_eq_some,
        Option.some.injEq] at moved
      obtain ⟨inside, entered, movedBody, rfl⟩ := moved
      exact iterate respects entered
        (fun _ _ insideShape ranBody => bodyHypothesis movedBody insideShape ranBody) shape ran

/-- A program that completes ends in the shape its static effect names. -/
theorem completes [DecidableEq τ] (respects : m.Respects Shape instruction condition)
    {code : Code ι} {index after : τ} {state final : σ}
    (moved : code.effect instruction condition index = some after)
    (shape : Shape index state) (ran : m.Completes code state final) : Shape after final := by
  obtain ⟨fuel, ran⟩ := ran
  exact respects.run code moved shape ran

end Machine.Respects

/-! ### Invariants -/

private theorem Code.effect_const (code : Code ι) :
    code.effect (fun _ _ => some ()) some () = some () := by
  induction code with
  | block instructions =>
      induction instructions with
      | nil => rfl
      | cons _ _ inductionHypothesis => exact inductionHypothesis
  | seq first second firstHypothesis secondHypothesis =>
      simp only [effect, firstHypothesis, Option.bind_some, secondHypothesis]
  | whileTrue body bodyHypothesis => simp [effect, bodyHypothesis]

/-- What every step and every test keep, a completing program keeps. -/
theorem Machine.Completes.invariant {m : Machine ι σ ε} (Kept : σ → Prop)
    (step : ∀ {next state final}, Kept state → m.step next state = .ok final → Kept final)
    (test : ∀ {state flag final}, Kept state → m.test state = .ok (flag, final) → Kept final)
    {code : Code ι} {state final : σ} (kept : Kept state) (ran : m.Completes code state final) :
    Kept final :=
  have respects : m.Respects (fun _ : Unit => Kept) (fun _ _ => some ()) some :=
    ⟨fun _ => step, fun _ => test⟩
  respects.completes (Code.effect_const code) kept ran

end MidenWorkspace.Library.Structured
