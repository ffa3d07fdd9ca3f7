import Mathlib.Data.List.Induction
import MidenWorkspace.Library.Runs

/-!
Contract: clients that read a shared state and later write it as a whole.

Owns the interleaved run of reads and writes, and the invariant rule for schedules
in which no write falls between a client's read and its write: each write then
starts from the current state, so what holds of a serial write holds of the run.

What a write makes of the state is a parameter, and so is what a read sees of it.
-/

namespace MidenWorkspace.Library.ReadModifyWrite

open MidenWorkspace.Library.Runs

inductive Event (Client : Type*) where
  | read (client : Client)
  | write (client : Client)
deriving DecidableEq

namespace Event

variable {Client : Type*}

def client : Event Client → Client
  | .read client | .write client => client

def writer : Event Client → Option Client
  | .read _ => none
  | .write client => some client

end Event

/-! ### Schedules -/

section Schedule

variable {Client : Type*}

/-- The clients that write, in order. -/
def writers (schedule : List (Event Client)) : List Client := schedule.filterMap Event.writer

/-- Every write comes after a read of its client, with nothing but reads of other
clients in between. -/
def Undisturbed (schedule : List (Event Client)) : Prop :=
  ∀ before client later, schedule = before ++ .write client :: later →
    ∃ earlier between, before = earlier ++ .read client :: between ∧
      ∀ event ∈ between, ∃ other, other ≠ client ∧ event = .read other

/-- No write falls between a client's read and its write. -/
def NoWriteBetween (schedule : List (Event Client)) : Prop :=
  ∀ before client between later,
    schedule = before ++ .read client :: (between ++ .write client :: later) →
    ∀ other, .write other ∉ between

variable [DecidableEq Client]

/-- Each of `clients`, and nobody else, reads once and then writes once. -/
def Interleaves (clients : List Client) (schedule : List (Event Client)) : Prop :=
  ∀ client, schedule.filter (·.client = client) =
    if client ∈ clients then [.read client, .write client] else []

theorem Interleaves.mem_writers_iff {clients : List Client} {schedule : List (Event Client)}
    (interleaves : Interleaves clients schedule) (client : Client) :
    client ∈ writers schedule ↔ client ∈ clients := by
  have occurs : client ∈ writers schedule ↔
      .write client ∈ schedule.filter (·.client = client) := by
    rw [writers, List.mem_filterMap, List.mem_filter]
    constructor
    · rintro ⟨event, member, writes⟩
      cases event with
      | read other => cases writes
      | write other =>
          obtain rfl := Option.some.inj writes
          exact ⟨member, by simp [Event.client]⟩
    · rintro ⟨member, -⟩
      exact ⟨_, member, rfl⟩
  rw [occurs, interleaves client]
  by_cases takesPart : client ∈ clients
  · simp [takesPart]
  · simp [takesPart]

/-- Before a client's write lies its read, and no other event of it. -/
theorem Interleaves.filter_before {clients : List Client} {before later : List (Event Client)}
    {client : Client} (interleaves : Interleaves clients (before ++ .write client :: later)) :
    before.filter (·.client = client) = [.read client] := by
  have own := interleaves client
  rw [List.filter_append, List.filter_cons_of_pos (by simp [Event.client])] at own
  have takesPart : client ∈ clients := by
    by_contra absent
    simp [absent] at own
  rw [if_pos takesPart] at own
  cases front : before.filter (·.client = client) with
  | nil =>
      rw [front] at own
      cases own
  | cons event rest =>
      rw [front, List.cons_append, List.cons.injEq] at own
      have lengths := congrArg List.length own.2
      simp only [List.length_append, List.length_cons, List.length_nil] at lengths
      rw [own.1, List.eq_nil_of_length_eq_zero (show rest.length = 0 by omega)]

theorem Interleaves.not_mem_writers {clients : List Client} {before later : List (Event Client)}
    {client : Client} (interleaves : Interleaves clients (before ++ .write client :: later)) :
    client ∉ writers before := by
  intro wrote
  obtain ⟨event, member, writes⟩ := List.mem_filterMap.mp wrote
  cases event with
  | read other => cases writes
  | write other =>
      obtain rfl := Option.some.inj writes
      have own : .write other ∈ before.filter (·.client = other) :=
        List.mem_filter.mpr ⟨member, by simp [Event.client]⟩
      rw [interleaves.filter_before] at own
      simp at own

theorem Interleaves.undisturbed {clients : List Client} {schedule : List (Event Client)}
    (interleaves : Interleaves clients schedule) (quiet : NoWriteBetween schedule) :
    Undisturbed schedule := by
  rintro before client later rfl
  obtain ⟨earlier, between, rfl, -, -, rest⟩ := List.filter_eq_cons_iff.mp interleaves.filter_before
  refine ⟨earlier, between, rfl, ?_⟩
  intro event member
  have foreign : event.client ≠ client := by
    intro same
    have kept : event ∈ between.filter (·.client = client) := List.mem_filter.mpr ⟨member, by simp [same]⟩
    rw [rest] at kept
    cases kept
  cases event with
  | read other => exact ⟨other, foreign, rfl⟩
  | write other => exact absurd member (quiet earlier client between later (by simp) other)

end Schedule

/-! ### Runs -/

/-- The shared state, and what each client has read last. -/
structure System (Client Shared Value : Type*) where
  shared : Shared
  copies : Client → Option Value

section Run

variable {Client Shared Value : Type*} [DecidableEq Client]
variable (observe : Shared → Value) (write : Client → Value → Shared → Shared)

/-- A client that has read nothing does not write. -/
def step (system : System Client Shared Value) : Event Client → System Client Shared Value
  | .read client =>
      { system with copies := Function.update system.copies client (some (observe system.shared)) }
  | .write client =>
      match system.copies client with
      | none => system
      | some copy => { system with shared := write client copy system.shared }

def run (start : Shared) (schedule : List (Event Client)) : System Client Shared Value :=
  after (step observe write) ⟨start, fun _ => none⟩ schedule

/-- Reads of other clients leave the shared state and a client's copy alone. -/
theorem after_reads (system : System Client Shared Value) {client : Client}
    {events : List (Event Client)}
    (reads : ∀ event ∈ events, ∃ other, other ≠ client ∧ event = .read other) :
    (after (step observe write) system events).shared = system.shared ∧
      (after (step observe write) system events).copies client = system.copies client := by
  induction events generalizing system with
  | nil => exact ⟨rfl, rfl⟩
  | cons event rest inductionHypothesis =>
      obtain ⟨other, different, rfl⟩ := reads event List.mem_cons_self
      obtain ⟨shared, copies⟩ := inductionHypothesis (step observe write system (.read other))
        fun event member => reads event (List.mem_cons_of_mem _ member)
      refine ⟨shared, copies.trans ?_⟩
      exact Function.update_of_ne different.symm _ _

/-- Where nothing but other clients' reads has happened since a client's read, its
copy is current. -/
theorem copy_current (start : Shared) {client : Client} (earlier : List (Event Client))
    {between : List (Event Client)}
    (reads : ∀ event ∈ between, ∃ other, other ≠ client ∧ event = .read other) :
    (run observe write start (earlier ++ .read client :: between)).copies client =
      some (observe (run observe write start (earlier ++ .read client :: between)).shared) := by
  unfold run
  rw [after_append, after_cons]
  obtain ⟨shared, copies⟩ := after_reads observe write (step observe write
    (after (step observe write) ⟨start, fun _ => none⟩ earlier) (.read client)) reads
  rw [shared, copies]
  exact Function.update_self ..

/-- What one write from the current state keeps, an undisturbed schedule keeps.
`Kept` speaks of the clients that have written so far and of the shared state. -/
theorem undisturbed_invariant (Kept : List Client → Shared → Prop) {start : Shared}
    {schedule : List (Event Client)} (undisturbed : Undisturbed schedule) (initial : Kept [] start)
    (keeps : ∀ before client later, schedule = before ++ .write client :: later →
      let system := run observe write start before
      system.copies client = some (observe system.shared) →
      Kept (writers before) system.shared →
      Kept (writers before ++ [client]) (write client (observe system.shared) system.shared)) :
    Kept (writers schedule) (run observe write start schedule).shared := by
  induction schedule using List.reverseRecOn with
  | nil => exact initial
  | append_singleton schedule event inductionHypothesis =>
      have extend : ∀ {before client later}, schedule = before ++ .write client :: later →
          schedule ++ [event] = before ++ .write client :: (later ++ [event]) := by
        rintro before client later rfl
        simp
      have kept := inductionHypothesis
        (fun before client later cut => undisturbed before client _ (extend cut))
        (fun before client later cut => keeps before client _ (extend cut))
      have last : run observe write start (schedule ++ [event]) =
          step observe write (run observe write start schedule) event := by
        rw [run, after_append]
        rfl
      rw [last, writers, List.filterMap_append]
      cases event with
      | read client => exact (List.append_nil (writers schedule)).symm ▸ kept
      | write client =>
          obtain ⟨earlier, between, rfl, reads⟩ := undisturbed schedule client [] rfl
          have copied := copy_current observe write start earlier reads
          simp only [step, copied]
          exact keeps _ client [] rfl copied kept

end Run

end MidenWorkspace.Library.ReadModifyWrite
