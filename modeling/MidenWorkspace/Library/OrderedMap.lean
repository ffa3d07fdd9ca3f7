import Mathlib.Data.List.Basic
import Mathlib.Data.List.Perm.Subperm

/-!
Contract: finite maps that are walked in the order of their keys.

Owns the values of a map in key order, maps collected from a list, and a count that goes
down when values are replaced. Lookup and update are those of `Std.ExtTreeMap`.
-/

namespace MidenWorkspace.Library

abbrev OrderedMap (κ ν : Type) [Ord κ] := Std.ExtTreeMap κ ν compare

namespace OrderedMap

variable {κ ν : Type} [Ord κ] [Std.TransOrd κ]

def values (entries : OrderedMap κ ν) : List ν := entries.toList.map Prod.snd

def countP (holds : ν → Bool) (entries : OrderedMap κ ν) : Nat := entries.values.countP holds

/-- Later entries of the list replace earlier ones with the same key. -/
def collect (entries : List (κ × ν)) : OrderedMap κ ν :=
  entries.foldl (fun collected entry => collected.insert entry.1 entry.2) ∅

theorem countP_eq (holds : ν → Bool) (entries : OrderedMap κ ν) :
    entries.countP holds = (entries.toList.filter fun entry => holds entry.2).length := by
  rw [countP, values, List.countP_map, List.countP_eq_length_filter]
  rfl

section Lookup

variable [Std.LawfulEqOrd κ]

theorem mem_values {entries : OrderedMap κ ν} {value : ν} :
    value ∈ entries.values ↔ ∃ key : κ, entries[key]? = some value := by
  simp only [values, List.mem_map, Prod.exists, exists_eq_right,
    Std.ExtTreeMap.mem_toList_iff_getElem?_eq_some]

theorem getElem?_insert [DecidableEq κ] (entries : OrderedMap κ ν) (key other : κ) (value : ν) :
    (entries.insert key value)[other]? = if key = other then some value else entries[other]? := by
  simp only [Std.ExtTreeMap.getElem?_insert, Std.compare_eq_iff_eq]

theorem getElem?_map (entries : OrderedMap κ ν) (change : κ → ν → ν) (key : κ) :
    (entries.map change)[key]? = entries[key]?.map (change key) :=
  Std.ExtTreeMap.getElem?_map

theorem nodup_toList (entries : OrderedMap κ ν) : entries.toList.Nodup := by
  refine entries.distinct_keys_toList.imp fun different => ?_
  rintro rfl
  exact different Std.ReflCmp.compare_self

section Shrinking

variable {before after : OrderedMap κ ν} {holds : ν → Bool}

/-- The values that are counted after are among those that are counted before. -/
def Shrinks (holds : ν → Bool) (before after : OrderedMap κ ν) : Prop :=
  ∀ (key : κ) (value : ν), after[key]? = some value → holds value = true →
    before[key]? = some value

theorem Shrinks.subset (shrinks : Shrinks holds before after) :
    (after.toList.filter fun entry => holds entry.2) ⊆
      before.toList.filter fun entry => holds entry.2 := by
  rintro ⟨key, value⟩ member
  obtain ⟨found, counted⟩ := List.mem_filter.mp member
  rw [Std.ExtTreeMap.mem_toList_iff_getElem?_eq_some] at found
  refine List.mem_filter.mpr ⟨?_, counted⟩
  exact Std.ExtTreeMap.mem_toList_iff_getElem?_eq_some.mpr (shrinks key value found counted)

theorem Shrinks.countP_le (shrinks : Shrinks holds before after) :
    after.countP holds ≤ before.countP holds := by
  rw [countP_eq, countP_eq]
  exact (List.subperm_of_subset ((nodup_toList after).filter _) shrinks.subset).length_le

theorem Shrinks.countP_lt (shrinks : Shrinks holds before after) {key : κ} {value : ν}
    (found : before[key]? = some value) (counted : holds value = true)
    (replaced : after[key]? ≠ some value) : after.countP holds < before.countP holds := by
  classical
  rw [countP_eq, countP_eq]
  have member : (key, value) ∈ before.toList.filter fun entry => holds entry.2 :=
    List.mem_filter.mpr ⟨Std.ExtTreeMap.mem_toList_iff_getElem?_eq_some.mpr found, counted⟩
  have subset : (after.toList.filter fun entry => holds entry.2) ⊆
      (before.toList.filter fun entry => holds entry.2).erase (key, value) := by
    intro entry inAfter
    have different : entry ≠ (key, value) := by
      rintro rfl
      exact replaced (Std.ExtTreeMap.mem_toList_iff_getElem?_eq_some.mp
        (List.mem_filter.mp inAfter).1)
    exact (List.mem_erase_of_ne different).mpr (shrinks.subset inAfter)
  have fewer := (List.subperm_of_subset ((nodup_toList after).filter _) subset).length_le
  rw [List.length_erase_of_mem member] at fewer
  have positive := List.length_pos_of_mem member
  omega

end Shrinking

theorem foldl_insert_cases {list : List (κ × ν)} {start : OrderedMap κ ν} {key : κ} {value : ν}
    (found : (list.foldl (fun collected entry => collected.insert entry.1 entry.2) start)[key]? =
      some value) : start[key]? = some value ∨ (key, value) ∈ list := by
  classical
  induction list generalizing start with
  | nil => exact .inl found
  | cons first others inductionHypothesis =>
      rcases inductionHypothesis found with earlier | member
      · rw [getElem?_insert] at earlier
        split at earlier
        · rename_i sameKey
          obtain rfl := Option.some.inj earlier
          exact .inr (sameKey ▸ .head _)
        · exact .inl earlier
      · exact .inr (.tail _ member)

theorem mem_of_getElem?_collect {list : List (κ × ν)} {key : κ} {value : ν}
    (found : (collect list)[key]? = some value) : (key, value) ∈ list := by
  refine (foldl_insert_cases found).resolve_left ?_
  simp

/-- The keys of a map collected from keyed values are their own keys. -/
theorem getElem?_collect_key {keyOf : ν → κ} {list : List ν} {key : κ} {value : ν}
    (found : (collect (list.map fun value => (keyOf value, value)))[key]? = some value) :
    value ∈ list ∧ keyOf value = key := by
  obtain ⟨own, member, same⟩ := List.mem_map.mp (mem_of_getElem?_collect found)
  obtain ⟨sameKey, rfl⟩ := Prod.mk.inj same
  exact ⟨member, sameKey⟩

theorem exists_getElem?_collect {list : List (κ × ν)} {key : κ} {value : ν}
    (member : (key, value) ∈ list) : ∃ other, (collect list)[key]? = some other := by
  classical
  suffices general : ∀ start : OrderedMap κ ν, (∃ other, start[key]? = some other) ∨
      (key, value) ∈ list → ∃ other, (list.foldl
        (fun collected entry => collected.insert entry.1 entry.2) start)[key]? = some other from
    general ∅ (.inr member)
  clear member
  induction list with
  | nil => exact fun start present => present.resolve_right List.not_mem_nil
  | cons first others inductionHypothesis =>
      intro start present
      refine inductionHypothesis _ ?_
      rw [getElem?_insert]
      split
      · exact .inl ⟨first.2, rfl⟩
      · rename_i different
        rcases present with already | listed
        · exact .inl already
        · refine .inr ((List.mem_cons.mp listed).resolve_left ?_)
          rintro rfl
          exact different rfl

/-- A list of the entries of a map, in any order, is collected to the map. -/
theorem collect_eq {list : List (κ × ν)} {entries : OrderedMap κ ν}
    (listed : ∀ (key : κ) (value : ν), (key, value) ∈ list ↔ entries[key]? = some value) :
    collect list = entries := by
  refine Std.ExtTreeMap.ext_getElem? fun key => Option.ext fun value => ?_
  rw [← listed]
  refine ⟨mem_of_getElem?_collect, fun member => ?_⟩
  obtain ⟨other, found⟩ := exists_getElem?_collect member
  have same := ((listed key value).mp member).symm.trans
    ((listed key other).mp (mem_of_getElem?_collect found))
  rw [found, same]

theorem nodup_keys (entries : OrderedMap κ ν) : (entries.toList.map Prod.fst).Nodup := by
  refine List.pairwise_map.mpr (entries.distinct_keys_toList.imp fun different same => ?_)
  exact different (same ▸ Std.ReflCmp.compare_self)

omit [Std.LawfulEqOrd κ] in
/-- Changes at different keys, one after the other, do not meet. -/
theorem getElem?_foldl {ε : Type} (step : OrderedMap κ ν → ε → OrderedMap κ ν) (keyOf : ε → κ)
    (action : ε → Option ν → Option ν) [DecidableEq κ]
    (pointwise : ∀ (entries : OrderedMap κ ν) (change : ε) (key : κ),
      (step entries change)[key]? =
        if keyOf change = key then action change entries[key]? else entries[key]?)
    {changes : List ε} (distinct : (changes.map keyOf).Nodup) (start : OrderedMap κ ν) (key : κ) :
    (∀ change ∈ changes, keyOf change = key →
      (changes.foldl step start)[key]? = action change start[key]?) ∧
    ((∀ change ∈ changes, keyOf change ≠ key) → (changes.foldl step start)[key]? = start[key]?) := by
  induction changes generalizing start with
  | nil => exact ⟨fun _ member => absurd member List.not_mem_nil, fun _ => rfl⟩
  | cons first others inductionHypothesis =>
      obtain ⟨unlike, distinctOthers⟩ := List.nodup_cons.mp distinct
      obtain ⟨changed, unchanged⟩ := inductionHypothesis distinctOthers (step start first)
      constructor
      · intro change member sameKey
        rcases List.mem_cons.mp member with rfl | later
        · have unlikeOthers : ∀ other ∈ others, keyOf other ≠ key := by
            rintro other inOthers same
            exact unlike (sameKey.trans same.symm ▸ List.mem_map_of_mem inOthers)
          rw [List.foldl_cons, unchanged unlikeOthers, pointwise, if_pos sameKey]
        · have different : keyOf first ≠ key := by
            rintro same
            exact unlike (same.trans sameKey.symm ▸ List.mem_map_of_mem later)
          rw [List.foldl_cons, changed change later sameKey, pointwise, if_neg different]
      · intro unlikeAll
        rw [List.foldl_cons, unchanged fun other member => unlikeAll other (.tail _ member),
          pointwise, if_neg (unlikeAll first (.head _))]

end Lookup

end OrderedMap

end MidenWorkspace.Library
