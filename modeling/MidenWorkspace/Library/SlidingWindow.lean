import Mathlib.Algebra.Order.Group.Defs
import Mathlib.Algebra.Order.Sub.Basic
import Mathlib.Logic.Function.Basic
import MidenWorkspace.Library.Runs

/-!
Contract: a limiter that logs the recent requests of each key.

Owns the log, which is pruned at every request of a key to the times less than
`width` before it; the answers along a run; and what they are in terms of the whole
history: a request is limited exactly if `limit` earlier requests of its key are
still recent, so every window of length `width` holds at most `limit` requests that
are let through, and no key sees the requests of another.

The clock of a run never goes back. Limited requests are logged too.
-/

namespace MidenWorkspace.Library.SlidingWindow

open MidenWorkspace.Library.Runs

structure Request (Key Time : Type*) where
  key : Key
  time : Time
deriving DecidableEq

abbrev Log (Key Time : Type*) := Key → List Time

structure Answer (Key Time : Type*) where
  request : Request Key Time
  limited : Bool

variable {Key Time : Type*}

/-- The answers of a run, request by request. -/
def answered (limiter : Log Key Time → Request Key Time → Bool × Log Key Time) :
    Log Key Time → List (Request Key Time) → List (Answer Key Time)
  | _, [] => []
  | log, request :: rest =>
      ⟨request, (limiter log request).1⟩ :: answered limiter (limiter log request).2 rest

/-- The log after all requests. -/
def logAfter (limiter : Log Key Time → Request Key Time → Bool × Log Key Time) :
    Log Key Time → List (Request Key Time) → Log Key Time :=
  after fun log request => (limiter log request).2

theorem answered_concat (limiter : Log Key Time → Request Key Time → Bool × Log Key Time)
    (log : Log Key Time) (requests : List (Request Key Time)) (request : Request Key Time) :
    answered limiter log (requests ++ [request]) =
      answered limiter log requests ++
        [⟨request, (limiter (logAfter limiter log requests) request).1⟩] := by
  induction requests generalizing log with
  | nil => rfl
  | cons first rest inductionHypothesis =>
      rw [List.cons_append, answered, inductionHypothesis]
      rfl

variable [DecidableEq Key]

/-- The times of the requests with this key. -/
def timesOf (key : Key) (requests : List (Request Key Time)) : List Time :=
  (requests.filter fun request => request.key = key).map (·.time)

theorem timesOf_concat (key : Key) (requests : List (Request Key Time))
    (request : Request Key Time) :
    timesOf key (requests ++ [request]) =
      timesOf key requests ++ if request.key = key then [request.time] else [] := by
  rw [timesOf, List.filter_append, List.map_append]
  by_cases same : request.key = key
  · simp [timesOf, same]
  · simp [timesOf, same]

/-! ### The limiter -/

variable [AddCommGroup Time] [LinearOrder Time]

/-- The times less than `width` before `now`. -/
def recent (width now : Time) (times : List Time) : List Time :=
  times.filter fun time => now - time < width

def consider (width : Time) (limit : Nat) (log : Log Key Time) (request : Request Key Time) :
    Bool × Log Key Time :=
  let kept := recent width request.time (log request.key) ++ [request.time]
  (limit < kept.length, Function.update log request.key kept)

/-- No key has any times. -/
def emptyLog : Log Key Time := fun _ => []

variable (width : Time) (limit : Nat)

theorem consider_log_self (log : Log Key Time) (request : Request Key Time) :
    (consider width limit log request).2 request.key =
      recent width request.time (log request.key) ++ [request.time] :=
  Function.update_self ..

theorem consider_log_of_ne (log : Log Key Time) (request : Request Key Time) {key : Key}
    (other : key ≠ request.key) : (consider width limit log request).2 key = log key :=
  Function.update_of_ne other ..

/-! ### The log and the history -/

theorem recent_append (now : Time) (first second : List Time) :
    recent width now (first ++ second) = recent width now first ++ recent width now second :=
  List.filter_append first second

theorem logAfter_concat (log : Log Key Time) (requests : List (Request Key Time))
    (request : Request Key Time) :
    logAfter (consider width limit) log (requests ++ [request]) =
      (consider width limit (logAfter (consider width limit) log requests) request).2 :=
  after_append _ log requests [request]

variable [IsOrderedAddMonoid Time]

/-- What has been pruned before is not recent later. -/
theorem recent_recent {earlier now : Time} (le : earlier ≤ now) (times : List Time) :
    recent width now (recent width earlier times) = recent width now times := by
  rw [recent, recent, List.filter_filter]
  apply List.filter_congr
  intro time _
  rw [Bool.and_eq_left_iff_imp, decide_eq_true_eq, decide_eq_true_eq]
  intro still
  exact (sub_le_sub_right le time).trans_lt still

/-- For every later time the log has the same recent times as the history. -/
theorem recent_logAfter (key : Key) {now : Time} {requests : List (Request Key Time)}
    (past : ∀ request ∈ requests, request.time ≤ now) :
    recent width now (logAfter (consider width limit) emptyLog requests key) =
      recent width now (timesOf key requests) := by
  induction requests using List.reverseRecOn with
  | nil => rfl
  | append_singleton requests request inductionHypothesis =>
      have earlier := inductionHypothesis fun other member =>
        past other (List.mem_append_left _ member)
      have le := past request (List.mem_append_right _ (List.mem_singleton_self request))
      rw [logAfter_concat, timesOf_concat, recent_append, ← earlier]
      by_cases same : request.key = key
      · rw [if_pos same, ← same, consider_log_self, recent_append, recent_recent width le]
      · rw [if_neg same, consider_log_of_ne width limit _ _ (Ne.symm same)]
        exact (List.append_nil _).symm

/-- A request is limited exactly if enough earlier ones of its key are recent. -/
theorem limited_iff {earlier : List (Request Key Time)} {request : Request Key Time}
    (past : ∀ other ∈ earlier, other.time ≤ request.time) :
    (consider width limit (logAfter (consider width limit) emptyLog earlier) request).1 = true ↔
      limit ≤ (recent width request.time (timesOf request.key earlier)).length := by
  rw [consider, decide_eq_true_eq, List.length_append, List.length_singleton,
    recent_logAfter width limit request.key past, Nat.lt_succ_iff]

/-! ### The answers of a run -/

/-- The answer lets a request of `key` through in the window that opens at `opening`. -/
def passesIn (key : Key) (opening : Time) (answer : Answer Key Time) : Bool :=
  answer.request.key = key ∧ answer.limited = false ∧ opening ≤ answer.request.time ∧
    answer.request.time < opening + width

/-- At the end of the window, all that has passed in it is recent. -/
theorem length_passesIn_le_recent (key : Key) {opening now : Time} (closing : now < opening + width)
    (log : Log Key Time) (requests : List (Request Key Time)) :
    ((answered (consider width limit) log requests).filter (passesIn width key opening)).length ≤
      (recent width now (timesOf key requests)).length := by
  induction requests generalizing log with
  | nil => exact Nat.le_refl 0
  | cons request rest inductionHypothesis =>
      have later := inductionHypothesis (consider width limit log request).2
      rw [answered]
      by_cases passes : passesIn width key opening ⟨request, (consider width limit log request).1⟩
      · rw [List.filter_cons_of_pos passes, List.length_cons]
        simp only [passesIn, decide_eq_true_eq] at passes
        have still : now - request.time < width := by
          rw [sub_lt_iff_lt_add']
          exact closing.trans_le (add_le_add_left passes.2.2.1 width)
        simpa [timesOf, recent, passes.1, still] using later
      · rw [List.filter_cons_of_neg passes]
        refine later.trans ?_
        apply List.Sublist.length_le
        apply List.Sublist.filter
        apply List.Sublist.map
        apply List.Sublist.filter
        exact List.sublist_cons_self request rest

theorem length_passesIn_le (key : Key) (opening : Time) {requests : List (Request Key Time)}
    (ordered : requests.Pairwise fun earlier later => earlier.time ≤ later.time) :
    ((answered (consider width limit) emptyLog requests).filter (passesIn width key opening)).length ≤
      limit := by
  induction requests using List.reverseRecOn with
  | nil => exact Nat.zero_le limit
  | append_singleton requests request inductionHypothesis =>
      have inOrder := List.pairwise_append.mp ordered
      have past : ∀ other ∈ requests, other.time ≤ request.time := fun other member =>
        inOrder.2.2 other member request (List.mem_singleton_self request)
      rw [answered_concat, List.filter_append, List.length_append]
      by_cases passes : passesIn width key opening
          ⟨request, (consider width limit (logAfter (consider width limit) emptyLog requests) request).1⟩
      · rw [List.filter_cons_of_pos passes, List.filter_nil, List.length_singleton]
        simp only [passesIn, decide_eq_true_eq] at passes
        obtain ⟨rfl, free, -, closing⟩ := passes
        have room := mt (limited_iff width limit past).mpr (by rw [free]; exact Bool.false_ne_true)
        have held := length_passesIn_le_recent width limit request.key closing emptyLog requests
        omega
      · rw [List.filter_cons_of_neg passes, List.filter_nil, List.length_nil, Nat.add_zero]
        exact inductionHypothesis inOrder.1

omit [IsOrderedAddMonoid Time] in
/-- The answers to one key are those of a run without the other keys. -/
theorem answered_filter_key (key : Key) {log other : Log Key Time} (agree : log key = other key)
    (requests : List (Request Key Time)) :
    (answered (consider width limit) log requests).filter (fun answer => answer.request.key = key) =
      answered (consider width limit) other (requests.filter fun request => request.key = key) := by
  induction requests generalizing log other with
  | nil => rfl
  | cons request rest inductionHypothesis =>
      rw [answered]
      by_cases same : request.key = key
      · subst same
        have answer : (consider width limit log request).1 = (consider width limit other request).1 := by
          rw [consider, consider, agree]
        have next : (consider width limit log request).2 request.key =
            (consider width limit other request).2 request.key := by
          rw [consider_log_self, consider_log_self, agree]
        rw [List.filter_cons_of_pos (by simp), List.filter_cons_of_pos (by simp), answered, answer,
          inductionHypothesis next]
      · rw [List.filter_cons_of_neg (by simpa using same),
          List.filter_cons_of_neg (by simpa using same)]
        apply inductionHypothesis
        rw [consider_log_of_ne width limit log request (Ne.symm same), agree]

end MidenWorkspace.Library.SlidingWindow
