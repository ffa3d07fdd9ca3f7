import Mathlib.Data.List.Infix
import Mathlib.Data.List.Pairwise
import Mathlib.Data.Set.Basic

/-!
Contract: removing the matches of a pattern from a text, each time the leftmost one,
and going on after it: `text.replace(/pattern/g, '')`.

Owns the relation between a text and what is left of it, for a pattern given as the
set of texts it matches, and the pattern of an opening mark, anything but the closing
mark, and the closing mark.

Does not own: how a program finds a match, or which of several matches at one
position a pattern prefers. `PrefixFree` patterns have at most one.
-/

namespace MidenWorkspace.Library.ReplaceAll

variable {Symbol : Type*}

def MatchFree (Matches : Set (List Symbol)) (text : List Symbol) : Prop :=
  ∀ matched ∈ Matches, ¬ matched <:+: text

/-- No match is a proper initial part of another. -/
def PrefixFree (Matches : Set (List Symbol)) : Prop :=
  ∀ first ∈ Matches, ∀ second ∈ Matches, first <+: second → first = second

/-- `RemovesAll Matches text result`: removing the matches leaves `result`. What a
removal brings together is not looked at again: `before` is kept as it is and the
search goes on in `after`. -/
inductive RemovesAll (Matches : Set (List Symbol)) : List Symbol → List Symbol → Prop
  | unmatched {text : List Symbol} (free : MatchFree Matches text) : RemovesAll Matches text text
  | removed (before : List Symbol) {matched after result : List Symbol} (isMatch : matched ∈ Matches)
      (leftmost : ∀ left inner right, before ++ matched ++ after = left ++ inner ++ right →
        inner ∈ Matches → before.length ≤ left.length)
      (rest : RemovesAll Matches after result) :
      RemovesAll Matches (before ++ matched ++ after) (before ++ result)

namespace RemovesAll

variable {Matches : Set (List Symbol)} {text result other : List Symbol}

theorem sublist (removes : RemovesAll Matches text result) : result.Sublist text := by
  induction removes with
  | unmatched => exact List.Sublist.refl _
  | @removed before matched after result _ _ _ inductionHypothesis =>
      rw [List.append_assoc]
      exact (inductionHypothesis.trans (List.sublist_append_right matched after)).append_left before

theorem eq_of_matchFree (removes : RemovesAll Matches text result)
    (free : MatchFree Matches text) : result = text := by
  cases removes with
  | unmatched => rfl
  | @removed before matched after _ isMatch =>
      exact absurd ⟨before, after, rfl⟩ (free matched isMatch)

/-- The relation is a function of the text. -/
theorem unique (prefixFree : PrefixFree Matches) (removes : RemovesAll Matches text result)
    (again : RemovesAll Matches text other) : result = other := by
  induction removes generalizing other with
  | unmatched free => exact (again.eq_of_matchFree free).symm
  | @removed before matched after result isMatch leftmost rest inductionHypothesis =>
      generalize same : before ++ matched ++ after = whole at again
      cases again with
      | unmatched free => exact absurd ⟨before, after, same⟩ (free matched isMatch)
      | @removed left inner right remaining isInner innerLeftmost restAgain =>
          -- Each of the two matches is leftmost, so they start at one position.
          have lengths : before.length = left.length :=
            Nat.le_antisymm (leftmost left inner right same isInner)
              (innerLeftmost before matched after same.symm isMatch)
          rw [List.append_assoc, List.append_assoc] at same
          obtain ⟨sameBefore, sameTail⟩ := List.append_inj same lengths
          have sameMatch : matched = inner := by
            have matchedFirst : matched <+: inner ++ right := ⟨after, sameTail⟩
            have innerFirst : inner <+: inner ++ right := ⟨right, rfl⟩
            rcases List.prefix_or_prefix_of_prefix matchedFirst innerFirst with shorter | longer
            · exact prefixFree matched isMatch inner isInner shorter
            · exact (prefixFree inner isInner matched isMatch longer).symm
          have sameAfter : after = right := List.append_cancel_left (sameMatch ▸ sameTail)
          rw [sameBefore, inductionHypothesis (sameAfter ▸ restAgain)]

end RemovesAll

section Delimited

variable {opening closing : Symbol} {text result body : List Symbol}

/-- The pattern of an opening mark, anything but the closing mark, and the closing mark. -/
def delimited (opening closing : Symbol) : Set (List Symbol) :=
  {matched | ∃ body, closing ∉ body ∧ matched = opening :: (body ++ [closing])}

/-- No opening mark has a closing mark anywhere after it. -/
def Unclosed (opening closing : Symbol) (text : List Symbol) : Prop :=
  text.Pairwise fun first second => first = opening → second ≠ closing

theorem delimited_prefixFree : PrefixFree (delimited opening closing) := by
  rintro _ ⟨first, _, rfl⟩ _ ⟨second, plain, rfl⟩ initial
  have bodies : first ++ [closing] <+: second ++ [closing] := (List.cons_prefix_cons.mp initial).2
  rcases List.prefix_concat_iff.mp bodies with same | inside
  · rw [same]
  · exact absurd (inside.subset (by simp)) plain

/-- The first closing mark after an opening one ends a match. -/
theorem exists_delimited (opening : Symbol) {after : List Symbol} (closed : closing ∈ after) :
    ∃ matched ∈ delimited opening closing, matched <+: opening :: after := by
  obtain ⟨body, right, rfl, plain⟩ := List.eq_append_cons_of_mem closed
  exact ⟨opening :: (body ++ [closing]), ⟨body, plain, rfl⟩, right, by simp⟩

theorem unclosed_iff_matchFree :
    Unclosed opening closing text ↔ MatchFree (delimited opening closing) text := by
  constructor
  · rintro unclosed _ ⟨body, _, rfl⟩ within
    have inMatch := List.Pairwise.sublist within.sublist unclosed
    exact List.rel_of_pairwise_cons inMatch (by simp) rfl rfl
  · intro free
    induction text with
    | nil => exact List.Pairwise.nil
    | cons symbol rest inductionHypothesis =>
        refine List.Pairwise.cons ?_ (inductionHypothesis fun matched isMatch within =>
          free matched isMatch (List.infix_cons within))
        rintro second member rfl rfl
        obtain ⟨matched, isMatch, initial⟩ := exists_delimited symbol member
        exact free matched isMatch initial.isInfix

theorem unclosed_of_not_mem_opening (plain : opening ∉ text) : Unclosed opening closing text :=
  List.pairwise_of_forall_mem_list fun _ member _ _ same => absurd (same ▸ member) plain

theorem Unclosed.take (unclosed : Unclosed opening closing text) (count : Nat) :
    Unclosed opening closing (text.take count) :=
  List.Pairwise.sublist (List.take_sublist count text) unclosed

theorem Unclosed.append {before : List Symbol} (plain : opening ∉ before)
    (unclosed : Unclosed opening closing text) : Unclosed opening closing (before ++ text) := by
  refine List.pairwise_append.mpr ⟨unclosed_of_not_mem_opening plain, unclosed, ?_⟩
  intro first member second _ same
  exact absurd (same ▸ member) plain

namespace RemovesAll

/-- A match that is leftmost has no opening mark before it: the mark would start an
earlier match, one that ends at the latest where this one does. -/
theorem not_mem_before {before matched after : List Symbol}
    (isMatch : matched ∈ delimited opening closing)
    (leftmost : ∀ left inner right, before ++ matched ++ after = left ++ inner ++ right →
      inner ∈ delimited opening closing → before.length ≤ left.length) :
    opening ∉ before := by
  intro member
  obtain ⟨left, between, rfl⟩ := List.append_of_mem member
  have closed : closing ∈ between ++ matched ++ after := by
    obtain ⟨body, _, rfl⟩ := isMatch
    simp
  obtain ⟨inner, isInner, right, split⟩ := exists_delimited opening closed
  have earlier : left ++ opening :: between ++ matched ++ after = left ++ inner ++ right := by
    rw [List.append_assoc left inner, split]
    simp
  have bound := leftmost left inner right earlier isInner
  rw [List.length_append, List.length_cons] at bound
  omega

/-- What survives is complete: an opening mark stays only if nothing closes it. -/
theorem unclosed (removes : RemovesAll (delimited opening closing) text result) :
    Unclosed opening closing result := by
  induction removes with
  | unmatched free => exact unclosed_iff_matchFree.mpr free
  | removed _ isMatch leftmost _ inductionHypothesis =>
      exact inductionHypothesis.append (not_mem_before isMatch leftmost)

/-- A symbol that opens nothing is kept. -/
theorem keep {symbol : Symbol} (other : symbol ≠ opening)
    (removes : RemovesAll (delimited opening closing) text result) :
    RemovesAll (delimited opening closing) (symbol :: text) (symbol :: result) := by
  cases removes with
  | unmatched free =>
      refine unmatched (unclosed_iff_matchFree.mp ?_)
      exact (unclosed_iff_matchFree.mpr free).append (List.mem_singleton.not.mpr other.symm)
  | @removed before matched after result isMatch leftmost rest =>
      refine removed (symbol :: before) isMatch ?_ rest
      intro left inner right split isInner
      cases left with
      | nil =>
          obtain ⟨body, _, rfl⟩ := isInner
          exact absurd (List.cons.inj split).1 other
      | cons first left =>
          have bound := leftmost left inner right (List.cons.inj split).2 isInner
          exact Nat.succ_le_succ bound

/-- A mark that is closed is removed up to the first closing one. -/
theorem skip (plain : closing ∉ body)
    (removes : RemovesAll (delimited opening closing) text result) :
    RemovesAll (delimited opening closing) (opening :: (body ++ closing :: text)) result := by
  have isMatch : opening :: (body ++ [closing]) ∈ delimited opening closing := ⟨body, plain, rfl⟩
  have atStart := removed [] isMatch (fun left _ _ _ _ => Nat.zero_le left.length) removes
  simpa using atStart

/-- A mark that nothing closes is kept, and so is all that follows it. -/
theorem keep_open (plain : closing ∉ body) :
    RemovesAll (delimited opening closing) (opening :: body) (opening :: body) := by
  have unclosing : ∀ second ∈ body, second ≠ closing := fun _ member same => plain (same ▸ member)
  refine unmatched (unclosed_iff_matchFree.mp (List.Pairwise.cons ?_ ?_))
  · intro second member _
    exact unclosing second member
  · exact List.pairwise_of_forall_mem_list fun _ _ second member _ => unclosing second member

end RemovesAll

end Delimited

end MidenWorkspace.Library.ReplaceAll
