import MidenWorkspace.Frontend.Js
import MidenWorkspace.Library.ReplaceAll

/-!
Contract: the two sanitisers, `sanitize` of the shared store and `sanitizeText` of
the update route.

Owns `stripTags`, the regular expression `/<[^>]*>/g` that both apply, that it
removes the leftmost matches in turn, and the laws of the two sanitisers: what they
leave, and that they leave it alone when they meet it again.
-/

namespace MidenWorkspace.Frontend

open Library.ReplaceAll

/-- Remove every `<…>`. A match starts at the first `<` and ends at the next `>`,
so `pending` holds what has been read since a `<` that is still open; a `<` that is
never closed is no match and stays. -/
def stripTagsFrom : Option JsString → JsString → JsString
  | none, [] => []
  | some pending, [] => pending
  | none, unit :: rest =>
      if unit = 60 then stripTagsFrom (some [60]) rest else unit :: stripTagsFrom none rest
  | some pending, unit :: rest =>
      if unit = 62 then stripTagsFrom none rest else stripTagsFrom (some (pending ++ [unit])) rest

/-- `text.replace(/<[^>]*>/g, '')` -/
def stripTags (text : JsString) : JsString := stripTagsFrom none text

example : stripTags (js "a<b<c>d>e<f") = js "ad>e<f" := by decide

/-- The client's sanitiser. -/
def sanitize : JsValue → JsString
  | .json (.str text) => (stripTags text).take 2000
  | _ => []

/-- None of `<`, `>`, `"`, `'`, `&`. -/
def isHarmless (unit : UInt16) : Bool := unit ∉ [60, 62, 34, 39, 38]

/-- The server's sanitiser. -/
def sanitizeText : Json → JsString
  | .str text => ((stripTags text).filter isHarmless).take 2000
  | _ => []

/-- `/<[^>]*>/` -/
def tag : Set JsString := delimited 60 62

-- Both states of the scan at once, by induction on the text: `some` stands for a `<`
-- and what follows it, with no `>` so far.
theorem stripTagsFrom_removesAll (text : JsString) :
    RemovesAll tag text (stripTagsFrom none text) ∧
      ∀ body, 62 ∉ body →
        RemovesAll tag (60 :: (body ++ text)) (stripTagsFrom (some (60 :: body)) text) := by
  induction text with
  | nil =>
      constructor
      · exact .unmatched (unclosed_iff_matchFree.mp List.Pairwise.nil)
      · intro body plain
        rw [List.append_nil]
        exact RemovesAll.keep_open plain
  | cons unit rest inductionHypothesis =>
      obtain ⟨outside, inside⟩ := inductionHypothesis
      constructor
      · by_cases opened : unit = 60
        · rw [stripTagsFrom, if_pos opened, opened]
          exact inside [] List.not_mem_nil
        · rw [stripTagsFrom, if_neg opened]
          exact outside.keep opened
      · intro body plain
        by_cases closed : unit = 62
        · rw [stripTagsFrom, if_pos closed, closed]
          exact outside.skip plain
        · have longer : 62 ∉ body ++ [unit] := by
            simpa [plain] using Ne.symm closed
          rw [stripTagsFrom, if_neg closed, List.append_cons]
          exact inside (body ++ [unit]) longer

theorem stripTags_removesAll (text : JsString) : RemovesAll tag text (stripTags text) :=
  (stripTagsFrom_removesAll text).1

/-- The scan computes the replacement: it leaves what removing the leftmost matches
one after the other leaves, and nothing else is left by that. -/
theorem stripTags_eq_iff {text result : JsString} :
    stripTags text = result ↔ RemovesAll tag text result := by
  constructor
  · rintro rfl
    exact stripTags_removesAll text
  · exact (stripTags_removesAll text).unique delimited_prefixFree

theorem stripTags_of_unclosed {text : JsString} (unclosed : Unclosed 60 62 text) :
    stripTags text = text :=
  stripTags_eq_iff.mpr (.unmatched (unclosed_iff_matchFree.mp unclosed))

theorem stripTags_of_not_mem {text : JsString} (plain : 60 ∉ text) : stripTags text = text :=
  stripTags_of_unclosed (unclosed_of_not_mem_opening plain)

/-- A text as the client leaves it. -/
structure IsStripped (text : JsString) : Prop where
  unclosed : Unclosed 60 62 text
  short : text.length ≤ 2000

theorem sanitize_isStripped (text : JsString) : IsStripped (sanitize (.json (.str text))) where
  unclosed := (stripTags_removesAll text).unclosed.take 2000
  short := List.length_take_le 2000 _

theorem IsStripped.sanitize_eq {text : JsString} (stripped : IsStripped text) :
    sanitize (.json (.str text)) = text := by
  rw [sanitize, stripTags_of_unclosed stripped.unclosed, List.take_of_length_le stripped.short]

theorem sanitize_sublist (text : JsString) : (sanitize (.json (.str text))).Sublist text :=
  (List.take_sublist 2000 (stripTags text)).trans (stripTags_removesAll text).sublist

/-- A text as the server leaves it. -/
structure IsClean (text : JsString) : Prop where
  harmless : ∀ unit ∈ text, isHarmless unit = true
  short : text.length ≤ 2000

theorem sanitizeText_isClean (value : Json) : IsClean (sanitizeText value) := by
  cases value with
  | str text =>
      constructor
      · intro unit member
        exact (List.mem_filter.mp (List.mem_of_mem_take member)).2
      · exact List.length_take_le 2000 _
  | _ => exact ⟨by simp [sanitizeText], Nat.zero_le 2000⟩

theorem IsClean.sanitizeText_eq {text : JsString} (clean : IsClean text) :
    sanitizeText (.str text) = text := by
  have plain : 60 ∉ text := fun opened => absurd (clean.harmless 60 opened) (by decide)
  rw [sanitizeText, stripTags_of_not_mem plain, List.filter_eq_self.mpr clean.harmless,
    List.take_of_length_le clean.short]

theorem sanitizeText_idempotent (value : Json) :
    sanitizeText (.str (sanitizeText value)) = sanitizeText value :=
  (sanitizeText_isClean value).sanitizeText_eq

/-- All that the server does to a text from the client is drop units. -/
theorem IsStripped.sanitizeText_eq_filter {text : JsString} (stripped : IsStripped text) :
    sanitizeText (.str text) = text.filter isHarmless := by
  have short : (text.filter isHarmless).length ≤ 2000 :=
    (List.length_filter_le isHarmless text).trans stripped.short
  rw [sanitizeText, stripTags_of_unclosed stripped.unclosed, List.take_of_length_le short]

/-- What the two sanitisers make of a text. -/
structure SanitisingLaw (text : JsString) : Prop where
  /-- No `<` has a `>` anywhere after it. -/
  stripped : (sanitize (.json (.str text))).Pairwise fun first second => first = 60 → second ≠ 62
  clientShort : (sanitize (.json (.str text))).length ≤ 2000
  clientStable : sanitize (.json (.str (sanitize (.json (.str text))))) =
    sanitize (.json (.str text))
  harmless : ∀ unit ∈ js "<>\"'&", unit ∉ sanitizeText (.str text)
  serverShort : (sanitizeText (.str text)).length ≤ 2000
  serverStable : sanitizeText (.str (sanitizeText (.str text))) = sanitizeText (.str text)
  subsequence : (sanitizeText (.str (sanitize (.json (.str text))))).Sublist text

theorem sanitizers_complete_and_stable (text : JsString) : SanitisingLaw text where
  stripped := (sanitize_isStripped text).unclosed
  clientShort := (sanitize_isStripped text).short
  clientStable := (sanitize_isStripped text).sanitize_eq
  harmless := by
    intro unit listed member
    have marks : js "<>\"'&" = [60, 62, 34, 39, 38] := by decide
    have kept : unit ∉ [60, 62, 34, 39, 38] :=
      of_decide_eq_true ((sanitizeText_isClean (.str text)).harmless unit member)
    exact kept (marks ▸ listed)
  serverShort := (sanitizeText_isClean (.str text)).short
  serverStable := sanitizeText_idempotent (.str text)
  subsequence := by
    rw [(sanitize_isStripped text).sanitizeText_eq_filter]
    exact List.filter_sublist.trans (sanitize_sublist text)

end MidenWorkspace.Frontend
