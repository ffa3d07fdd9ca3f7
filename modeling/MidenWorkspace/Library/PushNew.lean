import Mathlib.Data.Finset.Card

/-!
Contract: a list to which a value is added unless it is like one that is there.

Owns the fold, how it commutes with a map of the values, and its members and length
where "like" is equality. Does not assume that "like" is an equivalence: what a fold
keeps then depends on the order.
-/

namespace MidenWorkspace.Library.PushNew

variable {Value Code : Type*}

/-- `if (!kept.some(old => like(old, value))) kept.push(value)` -/
def pushNew (like : Value → Value → Bool) (kept : List Value) (value : Value) : List Value :=
  if kept.any (like · value) then kept else kept ++ [value]

def pushAll (like : Value → Value → Bool) (kept values : List Value) : List Value :=
  values.foldl (pushNew like) kept

/-- If the test only looks at images, so does the fold. -/
theorem pushAll_map {like : Value → Value → Bool} {alike : Code → Code → Bool}
    {image : Code → Value}
    (same : ∀ first second, like (image first) (image second) = alike first second)
    (kept values : List Code) :
    pushAll like (kept.map image) (values.map image) = (pushAll alike kept values).map image := by
  induction values generalizing kept with
  | nil => rfl
  | cons value rest inductionHypothesis =>
      have tested : (kept.map image).any (like · (image value)) = kept.any (alike · value) := by
        rw [List.any_map]
        exact congrArg kept.any (funext fun old => same old value)
      show pushAll like (pushNew like (kept.map image) (image value)) (rest.map image) =
        (pushAll alike (pushNew alike kept value) rest).map image
      rw [← inductionHypothesis, pushNew, pushNew, tested]
      cases kept.any (alike · value) with
      | true => rfl
      | false => simp

section Equality

variable [DecidableEq Code]

theorem mem_pushNew {kept : List Code} {first value : Code} :
    value ∈ pushNew (fun first second => decide (first = second)) kept first ↔
      value ∈ kept ∨ value = first := by
  by_cases present : first ∈ kept
  · have known : value = first → value ∈ kept := fun same => same ▸ present
    simpa [pushNew, present] using known
  · simp [pushNew, present]

theorem mem_pushAll {kept values : List Code} {value : Code} :
    value ∈ pushAll (fun first second => decide (first = second)) kept values ↔
      value ∈ kept ∨ value ∈ values := by
  induction values generalizing kept with
  | nil => simp [pushAll]
  | cons first rest inductionHypothesis =>
      rw [List.mem_cons, ← or_assoc, ← mem_pushNew]
      exact inductionHypothesis

theorem nodup_pushAll {kept values : List Code} (nodup : kept.Nodup) :
    (pushAll (fun first second => decide (first = second)) kept values).Nodup := by
  induction values generalizing kept with
  | nil => exact nodup
  | cons first rest inductionHypothesis =>
      apply inductionHypothesis
      by_cases present : first ∈ kept
      · simpa [pushNew, present] using nodup
      · have fresh : ∀ old ∈ kept, old ≠ first := fun old member same => present (same ▸ member)
        simpa [pushNew, present, List.nodup_append] using ⟨nodup, fresh⟩

/-- What is kept of a list from the start is counted without repetitions. -/
theorem length_pushAll_nil (values : List Code) :
    (pushAll (fun first second => decide (first = second)) [] values).length =
      values.toFinset.card := by
  rw [← List.toFinset_card_of_nodup (nodup_pushAll List.nodup_nil)]
  congr 1
  ext value
  simp [mem_pushAll]

end Equality

end MidenWorkspace.Library.PushNew
