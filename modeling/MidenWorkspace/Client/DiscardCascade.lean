import MidenWorkspace.Client.TransactionTracker

/-!
Contract: which transactions one discarding reaches.

`Doomed` is the reach of a predicate along chains of account states; `Swept` says that
exactly the doomed transactions were discarded, with which cause. Owns the proof that the
cascade of the tracker sweeps, from any transactions and for any predicate.
-/

namespace MidenWorkspace.Client

open Vm (Word)
open Library (OrderedMap)

namespace TransactionRecord

theorem isPending_iff {transaction : TransactionRecord} :
    transaction.isPending = true ↔ transaction.status = .pending := by
  rw [isPending]
  split <;> simp_all

/-- The record with the status that discarding gives it. -/
def discarded (cause : DiscardCause) (transaction : TransactionRecord) : TransactionRecord :=
  { transaction with status := .discarded cause }

theorem discardTransaction_of_pending {transaction : TransactionRecord}
    (pending : transaction.status = .pending) (cause : DiscardCause) :
    transaction.discardTransaction cause = (transaction.discarded cause, true) := by
  rw [discardTransaction, pending]
  rfl

theorem discarded_status_ne (cause : DiscardCause) (transaction : TransactionRecord) :
    (transaction.discarded cause).status ≠ .pending := nofun

end TransactionRecord

/-! ### The reach of a predicate -/

/-- A pending transaction is doomed if it satisfies the predicate, or if it starts from the
account state that a doomed one would have left behind. -/
inductive Doomed (predicate : TransactionRecord → Prop) (transactions : Transactions) :
    TransactionId → Prop
  | selected {key : TransactionId} {transaction : TransactionRecord}
      (found : transactions[key]? = some transaction) (pending : transaction.status = .pending)
      (satisfies : predicate transaction) : Doomed predicate transactions key
  | follows {key earlier : TransactionId} {transaction previous : TransactionRecord}
      (doomed : Doomed predicate transactions earlier)
      (foundPrevious : transactions[earlier]? = some previous)
      (found : transactions[key]? = some transaction) (pending : transaction.status = .pending)
      (chained : transaction.details.initAccountState = previous.details.finalAccountState) :
      Doomed predicate transactions key

/-- What the entry of a doomed transaction becomes. -/
def Sentenced (predicate : TransactionRecord → Prop) (cause : DiscardCause)
    (transaction after : TransactionRecord) : Prop :=
  predicate transaction ∧ after = transaction.discarded cause ∨
    ¬ predicate transaction ∧ after = transaction.discarded .discardedInitialState

/-- Exactly the doomed transactions are discarded: with the cause if they satisfy the
predicate themselves, for their initial state otherwise. -/
structure Swept (predicate : TransactionRecord → Prop) (cause : DiscardCause)
    (before after : Transactions) : Prop where
  doomed : ∀ key transaction, Doomed predicate before key → before[key]? = some transaction →
    ∃ discarded, after[key]? = some discarded ∧ Sentenced predicate cause transaction discarded
  spared : ∀ key, ¬ Doomed predicate before key → after[key]? = before[key]?

section Reach

variable {predicate other : TransactionRecord → Prop} {cause : DiscardCause}
  {transactions before middle after : Transactions} {key : TransactionId}
  {transaction changed : TransactionRecord}

theorem Doomed.pending (doomed : Doomed predicate transactions key) :
    ∃ transaction, transactions[key]? = some transaction ∧ transaction.status = .pending := by
  cases doomed with
  | selected found pending => exact ⟨_, found, pending⟩
  | follows _ _ found pending => exact ⟨_, found, pending⟩

theorem Sentenced.not_pending (sentenced : Sentenced predicate cause transaction changed) :
    changed.status ≠ .pending := by
  rcases sentenced with ⟨_, rfl⟩ | ⟨_, rfl⟩
  · exact transaction.discarded_status_ne _
  · exact transaction.discarded_status_ne _

/-- The pending transactions of the second map are pending in the first one. -/
abbrev Fewer (before after : Transactions) : Prop :=
  OrderedMap.Shrinks TransactionRecord.isPending before after

theorem Fewer.found (fewer : Fewer before after) (found : after[key]? = some transaction)
    (pending : transaction.status = .pending) : before[key]? = some transaction :=
  fewer key transaction found (TransactionRecord.isPending_iff.mpr pending)

/-- What is pending after a sweep was not doomed, and has not changed. -/
theorem Swept.of_pending (swept : Swept predicate cause before after)
    (found : after[key]? = some transaction) (pending : transaction.status = .pending) :
    ¬ Doomed predicate before key ∧ before[key]? = some transaction := by
  have spared : ¬ Doomed predicate before key := by
    intro doomed
    obtain ⟨previous, foundPrevious, _⟩ := doomed.pending
    obtain ⟨discarded, foundAfter, sentenced⟩ := swept.doomed key previous doomed foundPrevious
    rw [found] at foundAfter
    exact sentenced.not_pending (Option.some.inj foundAfter ▸ pending)
  exact ⟨spared, swept.spared key spared ▸ found⟩

theorem Swept.fewer (swept : Swept predicate cause before after) : Fewer before after :=
  fun _ _ found pending =>
    (swept.of_pending found (TransactionRecord.isPending_iff.mp pending)).2

/-- A predicate that holds more often reaches more, and so does one among more transactions. -/
theorem Doomed.mono (fewer : Fewer before after)
    (weaker : ∀ transaction, predicate transaction → other transaction)
    (doomed : Doomed predicate after key) : Doomed other before key := by
  induction doomed with
  | selected found pending satisfies =>
      exact .selected (fewer.found found pending) pending (weaker _ satisfies)
  | follows doomed foundPrevious found pending chained inductionHypothesis =>
      obtain ⟨previous, foundAgain, pendingPrevious⟩ := doomed.pending
      rw [foundPrevious] at foundAgain
      cases foundAgain
      exact .follows inductionHypothesis (fewer.found foundPrevious pendingPrevious)
        (fewer.found found pending) pending chained

/-- Two sweeps for the initial state, one after the other. What the second predicate reaches
in the first map is either gone after the first sweep or still reached in what remains. -/
theorem Swept.doomed_cases (swept : Swept predicate cause before middle)
    (doomed : Doomed (fun transaction => predicate transaction ∨ other transaction) before key) :
    Doomed predicate before key ∨ Doomed other middle key := by
  induction doomed with
  | @selected key transaction found pending satisfies =>
      by_cases first : Doomed predicate before key
      · exact .inl first
      · rcases satisfies with satisfies | satisfies
        · exact .inl (.selected found pending satisfies)
        · exact .inr (.selected ((swept.spared key first).trans found) pending satisfies)
  | @follows key earlier transaction previous _ foundPrevious found pending chained
      inductionHypothesis =>
      by_cases first : Doomed predicate before key
      · exact .inl first
      · rcases inductionHypothesis with earlierGone | earlierDoomed
        · exact .inl (.follows earlierGone foundPrevious found pending chained)
        · obtain ⟨same, foundMiddle, pendingMiddle⟩ := earlierDoomed.pending
          have unchanged := (swept.of_pending foundMiddle pendingMiddle).2
          rw [foundPrevious] at unchanged
          cases unchanged
          exact .inr (.follows earlierDoomed foundMiddle
            ((swept.spared key first).trans found) pending chained)

theorem sentenced_initialState :
    Sentenced predicate .discardedInitialState transaction
      (transaction.discarded .discardedInitialState) := by
  by_cases satisfies : predicate transaction
  · exact .inl ⟨satisfies, rfl⟩
  · exact .inr ⟨satisfies, rfl⟩

theorem Sentenced.initialState
    (sentenced : Sentenced predicate .discardedInitialState transaction changed) :
    changed = transaction.discarded .discardedInitialState := by
  rcases sentenced with ⟨_, same⟩ | ⟨_, same⟩
  · exact same
  · exact same

theorem Swept.union (first : Swept predicate .discardedInitialState before middle)
    (second : Swept other .discardedInitialState middle after) :
    Swept (fun transaction => predicate transaction ∨ other transaction) .discardedInitialState
      before after := by
  constructor
  · intro key transaction doomed found
    by_cases gone : Doomed predicate before key
    · obtain ⟨discarded, foundMiddle, sentenced⟩ := first.doomed key transaction gone found
      have settled : ¬ Doomed other middle key := by
        intro again
        obtain ⟨same, foundAgain, pending⟩ := again.pending
        rw [foundMiddle] at foundAgain
        exact sentenced.not_pending (Option.some.inj foundAgain ▸ pending)
      rw [sentenced.initialState] at foundMiddle
      exact ⟨_, (second.spared key settled).trans foundMiddle, sentenced_initialState⟩
    · have reached := (first.doomed_cases doomed).resolve_left gone
      obtain ⟨discarded, foundAfter, sentenced⟩ :=
        second.doomed key transaction reached ((first.spared key gone).trans found)
      rw [sentenced.initialState] at foundAfter
      exact ⟨_, foundAfter, sentenced_initialState⟩
  · intro key spared
    have notFirst : ¬ Doomed predicate before key := fun doomed =>
      spared (doomed.mono (fun _ _ found _ => found) fun _ => .inl)
    have notSecond : ¬ Doomed other middle key := fun doomed =>
      spared (doomed.mono first.fewer fun _ => .inr)
    exact (second.spared key notSecond).trans (first.spared key notFirst)

theorem Swept.unique {first second : Transactions} (one : Swept predicate cause before first)
    (two : Swept predicate cause before second) : first = second := by
  refine Std.ExtTreeMap.ext_getElem? fun key => ?_
  by_cases doomed : Doomed predicate before key
  · obtain ⟨transaction, found, _⟩ := doomed.pending
    obtain ⟨changed, foundFirst, sentenced⟩ := one.doomed key transaction doomed found
    obtain ⟨changedAlso, foundSecond, sentencedAlso⟩ := two.doomed key transaction doomed found
    rw [foundFirst, foundSecond]
    rcases sentenced with ⟨satisfies, rfl⟩ | ⟨fails, rfl⟩
    · rcases sentencedAlso with ⟨_, rfl⟩ | ⟨fails, _⟩
      · rfl
      · exact absurd satisfies fails
    · rcases sentencedAlso with ⟨satisfies, _⟩ | ⟨_, rfl⟩
      · exact absurd satisfies fails
      · rfl
  · rw [one.spared key doomed, two.spared key doomed]

/-- A predicate that selects nothing changes nothing. -/
theorem Swept.nothing (never : ∀ transaction, ¬ predicate transaction)
    (transactions : Transactions) : Swept predicate cause transactions transactions := by
  have spared : ∀ key, ¬ Doomed predicate transactions key := by
    intro key doomed
    induction doomed with
    | selected _ _ satisfies => exact never _ satisfies
    | follows _ _ _ _ _ inductionHypothesis => exact inductionHypothesis
  exact ⟨fun key _ doomed => absurd doomed (spared key), fun _ _ => rfl⟩

end Reach

/-! ### The cascade of the tracker -/

section Pass

variable {predicate : TransactionRecord → Bool} {cause : DiscardCause}
  {transactions after : Transactions} {key : TransactionId}
  {transaction : TransactionRecord}

theorem discardPending_selected (found : transactions[key]? = some transaction)
    (pending : transaction.status = .pending) (satisfies : predicate transaction = true) :
    (discardPending predicate cause transactions).1[key]? = some (transaction.discarded cause) := by
  rw [discardPending, OrderedMap.getElem?_map, found, Option.map_some,
    TransactionRecord.isPending_iff.mpr pending, satisfies,
    TransactionRecord.discardTransaction_of_pending pending]
  rfl

theorem discardPending_kept (kept : ∀ transaction, transactions[key]? = some transaction →
      transaction.status = .pending → predicate transaction = false) :
    (discardPending predicate cause transactions).1[key]? = transactions[key]? := by
  rw [discardPending, OrderedMap.getElem?_map]
  cases found : transactions[key]? with
  | none => rfl
  | some transaction =>
      rw [Option.map_some]
      split
      · rename_i selected
        obtain ⟨pending, satisfies⟩ := Bool.and_eq_true_iff.mp selected
        rw [kept transaction found (TransactionRecord.isPending_iff.mp pending)] at satisfies
        cases satisfies
      · rfl

theorem mem_discardPending {state : Word} :
    state ∈ (discardPending predicate cause transactions).2 ↔
      ∃ (key : TransactionId) (transaction : TransactionRecord),
        transactions[key]? = some transaction ∧ transaction.status = .pending ∧
          predicate transaction = true ∧ transaction.details.finalAccountState = state := by
  simp only [discardPending, List.mem_map, List.mem_filter, OrderedMap.mem_values,
    TransactionRecord.isPending_iff, Bool.and_eq_true]
  constructor
  · rintro ⟨transaction, ⟨⟨⟨key, found⟩, pending⟩, satisfies, _⟩, final⟩
    exact ⟨key, transaction, found, pending, satisfies, final⟩
  · rintro ⟨key, transaction, found, pending, satisfies, final⟩
    refine ⟨transaction, ⟨⟨⟨key, found⟩, pending⟩, satisfies, ?_⟩, final⟩
    rw [TransactionRecord.discardTransaction_of_pending pending]

/-- What is pending after the pass did not satisfy the predicate, and has not changed. -/
theorem discardPending_pending
    (found : (discardPending predicate cause transactions).1[key]? = some transaction)
    (pending : transaction.status = .pending) :
    transactions[key]? = some transaction ∧ predicate transaction = false := by
  by_cases kept : ∀ transaction, transactions[key]? = some transaction →
      transaction.status = .pending → predicate transaction = false
  · rw [discardPending_kept kept] at found
    exact ⟨found, kept transaction found pending⟩
  · simp only [not_forall, Bool.not_eq_false] at kept
    obtain ⟨previous, foundPrevious, pendingPrevious, satisfies⟩ := kept
    rw [discardPending_selected foundPrevious pendingPrevious satisfies] at found
    exact absurd pending (Option.some.inj found ▸ previous.discarded_status_ne cause)

theorem discardPending_fewer : Fewer transactions (discardPending predicate cause transactions).1 :=
  fun _ _ found pending =>
    (discardPending_pending found (TransactionRecord.isPending_iff.mp pending)).1

theorem discardPending_kept_of_not (found : transactions[key]? = some transaction)
    (fails : predicate transaction ≠ true) :
    (discardPending predicate cause transactions).1[key]? = some transaction := by
  rw [discardPending_kept, found]
  intro same foundSame _
  rw [found] at foundSame
  exact Option.some.inj foundSame ▸ Bool.eq_false_of_not_eq_true fails

/-- A transaction that builds on the states of the pass is reached in what remains. -/
theorem discardPending_reaches
    (doomed : Doomed (predicate · = true) transactions key)
    (found : transactions[key]? = some transaction) (fails : predicate transaction ≠ true) :
    Doomed (·.details.initAccountState ∈ (discardPending predicate cause transactions).2)
      (discardPending predicate cause transactions).1 key := by
  induction doomed generalizing transaction with
  | selected foundSame _ satisfies =>
      rw [found] at foundSame
      exact absurd (Option.some.inj foundSame ▸ satisfies) fails
  | @follows key earlier same previous doomed foundPrevious foundSame pending chained
      inductionHypothesis =>
      rw [found] at foundSame
      cases foundSame
      have kept : (discardPending predicate cause transactions).1[key]? = some same :=
        discardPending_kept_of_not found fails
      by_cases satisfies : predicate previous = true
      · obtain ⟨again, foundAgain, pendingPrevious⟩ := doomed.pending
        rw [foundPrevious] at foundAgain
        cases foundAgain
        refine .selected kept pending (mem_discardPending.mpr ?_)
        exact ⟨earlier, previous, foundPrevious, pendingPrevious, satisfies, chained.symm⟩
      · exact .follows (inductionHypothesis foundPrevious satisfies)
          (discardPending_kept_of_not foundPrevious satisfies) kept pending chained

/-- What the remaining sweep reaches builds on something that the pass discarded. -/
theorem discardPending_doomed
    (reached : Doomed (·.details.initAccountState ∈ (discardPending predicate cause transactions).2)
      (discardPending predicate cause transactions).1 key) :
    Doomed (predicate · = true) transactions key := by
  induction reached with
  | selected found pending builds =>
      obtain ⟨earlier, previous, foundPrevious, pendingPrevious, satisfies, final⟩ :=
        mem_discardPending.mp builds
      exact .follows (.selected foundPrevious pendingPrevious satisfies) foundPrevious
        (discardPending_pending found pending).1 pending final.symm
  | follows reached foundPrevious found pending chained inductionHypothesis =>
      obtain ⟨again, foundAgain, pendingPrevious⟩ := reached.pending
      rw [foundPrevious] at foundAgain
      cases foundAgain
      exact .follows inductionHypothesis (discardPending_pending foundPrevious pendingPrevious).1
        (discardPending_pending found pending).1 pending chained

/-- The pass, and then a sweep from the states that it returns. -/
theorem swept_of_discardPending
    (rest : Swept (·.details.initAccountState ∈ (discardPending predicate cause transactions).2)
      .discardedInitialState (discardPending predicate cause transactions).1 after) :
    Swept (predicate · = true) cause transactions after := by
  constructor
  · intro key transaction doomed found
    by_cases satisfies : predicate transaction = true
    · obtain ⟨same, foundSame, pending⟩ := doomed.pending
      rw [found] at foundSame
      cases foundSame
      have discarded : (discardPending predicate cause transactions).1[key]? =
          some (transaction.discarded cause) := discardPending_selected found pending satisfies
      have settled : ¬ Doomed
          (·.details.initAccountState ∈ (discardPending predicate cause transactions).2)
          (discardPending predicate cause transactions).1 key := by
        intro again
        obtain ⟨same, foundAgain, pendingAgain⟩ := again.pending
        rw [discarded] at foundAgain
        exact transaction.discarded_status_ne cause (Option.some.inj foundAgain ▸ pendingAgain)
      exact ⟨_, (rest.spared key settled).trans discarded, .inl ⟨satisfies, rfl⟩⟩
    · obtain ⟨discarded, foundAfter, sentenced⟩ := rest.doomed key transaction
        (discardPending_reaches doomed found satisfies) (discardPending_kept_of_not found satisfies)
      exact ⟨discarded, foundAfter, .inr ⟨satisfies, sentenced.initialState⟩⟩
  · intro key spared
    rw [rest.spared key fun reached => spared (discardPending_doomed reached)]
    refine discardPending_kept fun transaction found pending => ?_
    exact Bool.eq_false_of_not_eq_true fun satisfies => spared (.selected found pending satisfies)

theorem pendingCount_discardPending {state : Word}
    (selects : state ∈ (discardPending predicate cause transactions).2) :
    pendingCount (discardPending predicate cause transactions).1 < pendingCount transactions := by
  obtain ⟨key, transaction, found, pending, satisfies, _⟩ := mem_discardPending.mp selects
  refine discardPending_fewer.countP_lt found (TransactionRecord.isPending_iff.mpr pending) ?_
  intro same
  rw [discardPending_selected found pending satisfies] at same
  exact transaction.discarded_status_ne cause (Option.some.inj same ▸ pending)

end Pass

/-- The calls that a pass makes for the states of its transactions, one after the other, each
in what the ones before have left. -/
theorem swept_of_states {depth : Nat}
    (calls : ∀ (predicate : TransactionRecord → Bool) (remaining : Transactions),
      pendingCount remaining < depth → ∃ after,
        discardCascade depth predicate .discardedInitialState remaining = some after ∧
          Swept (predicate · = true) .discardedInitialState remaining after)
    {states : List Word} {remaining : Transactions}
    (enough : ∀ state ∈ states, pendingCount remaining < depth) :
    ∃ after, states.foldlM (fun current state =>
        discardCascade depth (fun transaction => transaction.details.initAccountState = state)
          .discardedInitialState current) remaining = some after ∧
      Swept (·.details.initAccountState ∈ states) .discardedInitialState remaining after := by
  induction states generalizing remaining with
  | nil => exact ⟨remaining, rfl, .nothing (fun _ => List.not_mem_nil) remaining⟩
  | cons state others inductionHypothesis =>
      have bound := enough state List.mem_cons_self
      obtain ⟨middle, called, first⟩ :=
        calls (fun transaction => transaction.details.initAccountState = state) remaining bound
      obtain ⟨after, folded, rest⟩ :=
        inductionHypothesis fun _ _ => first.fewer.countP_le.trans_lt bound
      refine ⟨after, ?_, ?_⟩
      · rw [List.foldlM_cons, called]
        exact folded
      · simpa only [List.mem_cons, decide_eq_true_eq] using first.union rest

/-- The cascade ends within as many nested calls as there are pending transactions, and is
exact. -/
theorem discardCascade_swept {depth : Nat} (predicate : TransactionRecord → Bool)
    (cause : DiscardCause) (transactions : Transactions)
    (enough : pendingCount transactions < depth) :
    ∃ after, discardCascade depth predicate cause transactions = some after ∧
      Swept (predicate · = true) cause transactions after := by
  induction depth generalizing predicate cause transactions with
  | zero => exact absurd enough (Nat.not_lt_zero _)
  | succ depth inductionHypothesis =>
      have fewer : ∀ state ∈ (discardPending predicate cause transactions).2,
          pendingCount (discardPending predicate cause transactions).1 < depth :=
        fun state member =>
          (pendingCount_discardPending member).trans_le (Nat.le_of_lt_succ enough)
      obtain ⟨after, folded, rest⟩ := swept_of_states
        (fun predicate remaining bound =>
          inductionHypothesis predicate .discardedInitialState remaining bound) fewer
      exact ⟨after, folded, swept_of_discardPending rest⟩

end MidenWorkspace.Client
