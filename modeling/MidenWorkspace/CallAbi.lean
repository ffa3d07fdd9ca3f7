import MidenWorkspace.Sealed.Contract
import MidenWorkspace.Syndex.Contract

/-!
Contract: the operand-stack depth at which exported procedures return.

`call` demands sixteen cells on return. `compute_reputation_score` hands one
result and `pull_model` five results back on top of the caller's cells, as their
comments say; `prove_threshold` takes its threshold and returns at the depth that
`call` demands.
-/

namespace MidenWorkspace

open MidenWorkspace.Vm
open MidenWorkspace.Protocol
open MidenWorkspace.Library.Structured

section Depths

variable {σ : Type} (merkle : MerkleLibrary σ)

theorem computeReputationScore_depth {state final : State StorageSlotId σ}
    (ran : (machine (kernelEnvironment merkle)).Completes Sealed.computeReputationScore state final) :
    final.stack.depth = 1 + state.stack.depth :=
  (completes_framed (kernelEnvironment_framed merkle) (by rfl) ran).depth

theorem pullModel_depth {state final : Syndex.SyndexState}
    (ran : Syndex.syndexMachine.runBlock Syndex.pullModel state = .ok final) :
    final.stack.depth = 5 + state.stack.depth :=
  (completes_framed (indexedEnvironment_framed MerkleLibrary.empty) (by rfl)
    (Machine.yields_block_iff.mpr ran)).depth

theorem proveThreshold_depth {state final : State StorageSlotId σ}
    (ran : (machine (kernelEnvironment merkle)).Completes Sealed.proveThreshold state final) :
    final.stack.depth = max minStackDepth (state.stack.depth - 1) := by
  obtain ⟨stack, tape, store, storage⟩ := state
  have outcome := ran.unique (Sealed.yields_proveThreshold merkle stack store storage tape)
  match scored : Sealed.scoreOfTape tape with
  | none => simp [scored] at outcome
  | some (total, rest) =>
      by_cases enough : total ≤ stack.get 0
      · simp only [scored, enough, if_true, Except.ok.injEq] at outcome
        rw [outcome]
        exact OperandStack.drop_depth stack
      · simp [scored, enough] at outcome

end Depths

/-- The depth on return of every exported procedure whose results are documented,
entered with sixteen cells: one more for the scorer, five more for the model,
and sixteen for the threshold proof. -/
theorem exported_depth_on_return {σ : Type} (merkle : MerkleLibrary σ) (store : σ)
    (caller : OperandStack) (entered : caller.depth = minStackDepth) (tape : List Felt) :
    (∀ storage final,
      (machine (kernelEnvironment merkle)).Completes Sealed.computeReputationScore
        ⟨caller, tape, store, storage⟩ final → final.stack.depth = minStackDepth + 1) ∧
    (∀ storage final,
      (machine (kernelEnvironment merkle)).Completes Sealed.proveThreshold
        ⟨caller, tape, store, storage⟩ final → final.stack.depth = minStackDepth) ∧
    (∀ storage final,
      Syndex.syndexMachine.runBlock Syndex.pullModel ⟨caller, tape, (), storage⟩ = .ok final →
        final.stack.depth = minStackDepth + 5) := by
  refine ⟨?_, ?_, ?_⟩
  · intro storage final ran
    rw [computeReputationScore_depth merkle ran, entered, Nat.add_comm]
  · intro storage final ran
    rw [proveThreshold_depth merkle ran, entered]
    decide
  · intro storage final ran
    rw [pullModel_depth ran, entered, Nat.add_comm]

theorem exported_depth_on_return_zeros :
    (∀ storage final,
      (machine (kernelEnvironment MerkleLibrary.empty)).Completes Sealed.computeReputationScore
        ⟨.zeros, [0, 0], (), storage⟩ final → final.stack.depth = minStackDepth + 1) ∧
    (∀ storage final,
      (machine (kernelEnvironment MerkleLibrary.empty)).Completes Sealed.proveThreshold
        ⟨.zeros, [0, 0], (), storage⟩ final → final.stack.depth = minStackDepth) ∧
    (∀ storage final,
      Syndex.syndexMachine.runBlock Syndex.pullModel ⟨.zeros, [0, 0], (), storage⟩ = .ok final →
        final.stack.depth = minStackDepth + 5) :=
  exported_depth_on_return MerkleLibrary.empty () .zeros rfl [0, 0]

/-- Scoring an empty list of credentials returns with seventeen cells. -/
theorem computeReputationScore_returns_deeper :
    ∃ final, (machine (kernelEnvironment MerkleLibrary.empty)).Completes
        Sealed.computeReputationScore ⟨.zeros, [0, 0], (), fun _ => none⟩ final ∧
      final.stack.depth ≠ minStackDepth := by
  refine ⟨_, Sealed.yields_computeReputationScore MerkleLibrary.empty .zeros () (fun _ => none)
    [0, 0], ?_⟩
  decide

end MidenWorkspace
