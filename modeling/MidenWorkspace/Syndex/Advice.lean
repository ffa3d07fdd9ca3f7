import MidenWorkspace.Frontend.SubmitPage
import MidenWorkspace.Syndex.Contract
import MidenWorkspace.Syndex.Sdk

/-!
Contract: the advice format of a gradient submission.

Owns the decoder that `submit_gradient_update` applies to its tape, the format of
the submit page, and the comparison of both with `generate_advice_stack`.

The contract pops gradient, proof and institution id, and the page encodes them
in that order. The SDK puts the id first.
-/

namespace MidenWorkspace.Syndex

open MidenWorkspace.Frontend
open MidenWorkspace.Vm
open MidenWorkspace.Protocol
open MidenWorkspace.Library.Structured

/-- Gradient, proof and id from the front of a tape, and what is left of it. -/
def decodeUpdate {α : Type} (tape : List α) : Option ((Vector α 4 × Vector α 4 × α) × List α) :=
  match tape with
  | g0 :: g1 :: g2 :: g3 :: p0 :: p1 :: p2 :: p3 :: id :: rest =>
      some ((#v[g0, g1, g2, g3], #v[p0, p1, p2, p3], id), rest)
  | _ => none

/-- The decoder is what the advice reads of the contract do. -/
theorem runBlock_readUpdate (caller : OperandStack) (tape : List Felt) (storage : Storage Felt) :
    syndexMachine.runBlock readUpdate ⟨.above [] caller, tape, (), storage⟩ =
      match decodeUpdate tape with
      | some ((gradient, proof, id), rest) =>
          .ok ⟨.above (id :: (proof.toList.reverse ++ gradient.toList.reverse)) caller, rest, (), storage⟩
      | none => .error .adviceStackReadFailed := by
  match tape with
  | _ :: _ :: _ :: _ :: _ :: _ :: _ :: _ :: _ :: _ => rfl
  | [] | [_] | [_, _] | [_, _, _] | [_, _, _, _] => rfl
  | [_, _, _, _, _] | [_, _, _, _, _, _] | [_, _, _, _, _, _, _] | [_, _, _, _, _, _, _, _] => rfl

/-- Three texts of the submit page that stand for the parts of an update. -/
structure PageTexts (update : GradientUpdate) (generatedHash proofHash instId : JsString) : Prop where
  gradient : hexToFelts generatedHash =
    some (update.gradientHash.toList.map fun word => (word.toNat : Int))
  proof : hexToFelts proofHash =
    some (update.validityProofHash.toList.map fun word => (word.toNat : Int))
  institution : bigInt (if instId = [] then js "0" else instId) =
    some (update.institutionId.toNat : Int)

/-- The words of the page's advice. -/
def pageAdvice (generatedHash proofHash instId : JsString) : Option (List UInt64) :=
  (advice generatedHash proofHash instId).map (List.map littleEndian)

theorem pageAdvice_eq {update : GradientUpdate} {generatedHash proofHash instId : JsString}
    (texts : PageTexts update generatedHash proofHash instId) :
    pageAdvice generatedHash proofHash instId =
      some (update.gradientHash.toList ++ update.validityProofHash.toList ++
        [update.institutionId]) := by
  have encoded : ∀ words : List UInt64,
      (words.map fun word => (word.toNat : Int)).map (littleEndian ∘ setBigUint64) = words := by
    intro words
    rw [List.map_map]
    have same : ((littleEndian ∘ setBigUint64) ∘ fun word : UInt64 => (word.toNat : Int)) = id :=
      funext littleEndian_setBigUint64_word
    rw [same, List.map_id]
  have numbers : (update.gradientHash.toList.map fun word => (word.toNat : Int)) ++
      (update.validityProofHash.toList.map fun word => (word.toNat : Int)) ++
        [(update.institutionId.toNat : Int)] =
      (update.gradientHash.toList ++ update.validityProofHash.toList ++ [update.institutionId]).map
        fun word => (word.toNat : Int) := by
    simp only [List.map_append, List.map_cons, List.map_nil]
  rw [pageAdvice, advice, texts.gradient, texts.proof, texts.institution]
  simp only [Option.bind_eq_bind, Option.bind_some, Option.pure_def, Option.map_some]
  rw [numbers, List.map_map, encoded]

private theorem vector_four {α : Type} (hash : Vector α 4) :
    ∃ h0 h1 h2 h3, hash = #v[h0, h1, h2, h3] := by
  refine ⟨hash[0], hash[1], hash[2], hash[3], Vector.ext fun index bound => ?_⟩
  have : index = 0 ∨ index = 1 ∨ index = 2 ∨ index = 3 := by omega
  rcases this with rfl | rfl | rfl | rfl <;> rfl

/-- Moving the id from the front of an update to its end changes the nine words,
unless they are all equal. -/
theorem adviceWords_ne {gradient proof : Vector UInt64 4} (id : UInt64)
    (differ : proof ≠ gradient) :
    [id] ++ gradient.toList ++ proof.toList ≠ gradient.toList ++ proof.toList ++ [id] := by
  obtain ⟨g0, g1, g2, g3, rfl⟩ := vector_four gradient
  obtain ⟨p0, p1, p2, p3, rfl⟩ := vector_four proof
  intro same
  obtain ⟨rfl, rfl, rfl, rfl, rfl, rfl, rfl, rfl, -⟩ : id = g0 ∧ g0 = g1 ∧ g1 = g2 ∧ g2 = g3 ∧
      g3 = p0 ∧ p0 = p1 ∧ p1 = p2 ∧ p2 = p3 ∧ p3 = id := by simpa using same
  exact differ rfl

theorem decodeUpdate_eq_some_iff {α : Type} (words : List α) (gradient proof : Vector α 4) (id : α)
    (rest : List α) :
    decodeUpdate words = some ((gradient, proof, id), rest) ↔
      words = gradient.toList ++ proof.toList ++ [id] ++ rest := by
  obtain ⟨g0, g1, g2, g3, rfl⟩ := vector_four gradient
  obtain ⟨p0, p1, p2, p3, rfl⟩ := vector_four proof
  constructor
  · intro decoded
    match words with
    | _ :: _ :: _ :: _ :: _ :: _ :: _ :: _ :: _ :: _ =>
        cases decoded
        rfl
  · rintro rfl
    rfl

theorem generateAdviceStack_of_last {client : SyndexClient} {update : GradientUpdate}
    (last : client.gradientHistory.getLast? = some update) :
    client.generateAdviceStack =
      [update.institutionId] ++ update.gradientHash.toList ++ update.validityProofHash.toList := by
  simp only [SyndexClient.generateAdviceStack, last]

/-- In no reachable state does the SDK's advice stack decode to the last update,
or equal the advice of the submit page for it. -/
theorem generateAdviceStack_disagrees (accountId start : UInt64) (calls : List ClientCall)
    (update : GradientUpdate)
    (last : (SyndexClient.reached accountId start calls).gradientHistory.getLast? = some update) :
    (∀ rest, decodeUpdate (SyndexClient.reached accountId start calls).generateAdviceStack ≠
      some ((update.gradientHash, update.validityProofHash, update.institutionId), rest)) ∧
    ∀ generatedHash proofHash instId, PageTexts update generatedHash proofHash instId →
      pageAdvice generatedHash proofHash instId ≠
        some (SyndexClient.reached accountId start calls).generateAdviceStack := by
  have valid := (SyndexClient.reached_consistent accountId start calls).history_valid update
    (List.mem_of_getLast? last)
  obtain ⟨_, -, -, -, -, -, differ⟩ := (SyndexClient.verifyGradientValidity_iff _ update).mp valid
  have moved := adviceWords_ne update.institutionId differ
  rw [generateAdviceStack_of_last last]
  constructor
  · intro rest decoded
    have words := (decodeUpdate_eq_some_iff _ _ _ _ _).mp decoded
    have nothing : rest = [] := by
      have lengths := congrArg List.length words
      simp only [List.length_append, Vector.length_toList, List.length_singleton] at lengths
      exact List.eq_nil_of_length_eq_zero (by omega)
    rw [nothing, List.append_nil] at words
    exact moved words
  · intro generatedHash proofHash instId texts same
    rw [pageAdvice_eq texts] at same
    exact moved (Option.some.inj same).symm

theorem generateAdviceStack_disagrees_one_update :
    let calls : List ClientCall := [.registerInstitution 42 #v[1, 2, 3, 4] 0,
      .submitGradientUpdate #v[10, 20, 30, 40] #v[50, 60, 70, 80] 0]
    let update : GradientUpdate := ⟨42, #v[10, 20, 30, 40], #v[50, 60, 70, 80], 0⟩
    (SyndexClient.reached 1 0 calls).gradientHistory.getLast? = some update ∧
      ∀ generatedHash proofHash instId, PageTexts update generatedHash proofHash instId →
        pageAdvice generatedHash proofHash instId ≠
          some (SyndexClient.reached 1 0 calls).generateAdviceStack := by
  intro calls update
  have last : (SyndexClient.reached 1 0 calls).gradientHistory.getLast? = some update := by decide +kernel
  exact ⟨last, (generateAdviceStack_disagrees 1 0 calls update last).2⟩

/-- The contract reads the id as the first element of the gradient, and the last element of
the proof as the id. -/
theorem generateAdviceStack_misread :
    let calls : List ClientCall := [.registerInstitution 42 #v[1, 2, 3, 4] 0,
      .submitGradientUpdate #v[10, 20, 30, 40] #v[50, 60, 70, 80] 0]
    decodeUpdate (SyndexClient.reached 1 0 calls).generateAdviceStack =
        some ((#v[42, 10, 20, 30], #v[40, 50, 60, 70], 80), []) ∧
      (∀ caller storage, syndexMachine.runBlock readUpdate ⟨.above [] caller,
          (SyndexClient.reached 1 0 calls).generateAdviceStack.map (Felt.new ·.toNat), (),
          storage⟩ =
        .ok ⟨.above [80, 70, 60, 50, 40, 30, 20, 10, 42] caller, [], (), storage⟩) ∧
      pageAdvice (hexOfHash #v[10, 20, 30, 40]) (hexOfHash #v[50, 60, 70, 80]) (js "42") =
        some [10, 20, 30, 40, 50, 60, 70, 80, 42] := by
  have texts : PageTexts ⟨42, #v[10, 20, 30, 40], #v[50, 60, 70, 80], 0⟩
      (hexOfHash #v[10, 20, 30, 40]) (hexOfHash #v[50, 60, 70, 80]) (js "42") :=
    ⟨hexToFelts_hexOfHash 10 20 30 40, hexToFelts_hexOfHash 50 60 70 80, by decide⟩
  intro calls
  have words : (SyndexClient.reached 1 0 calls).generateAdviceStack =
      [42, 10, 20, 30, 40, 50, 60, 70, 80] := by decide +kernel
  refine ⟨by rw [words]; rfl, fun caller storage => ?_, pageAdvice_eq texts⟩
  rw [words, runBlock_readUpdate]
  rfl

end MidenWorkspace.Syndex
