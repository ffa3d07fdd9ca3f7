import Mathlib.Algebra.Order.Group.Int
import MidenWorkspace.Frontend.Document
import MidenWorkspace.Library.SlidingWindow

/-!
Contract: what the rate limiter of the update route lets through.

Owns the runs of `isRateLimited` from an empty log and the law of their answers.

The log is pruned relative to the request at hand, while the bound is about every
window of a run. `Library.SlidingWindow` ties the two together; here the window is
a minute and the limit ten.
-/

namespace MidenWorkspace.Frontend

open MidenWorkspace.Library
open MidenWorkspace.Library.SlidingWindow

/-- A request as the limiter sees it: an address and the clock. -/
abbrev LimiterRequest := Request JsString Int

def limiter (requestLog : RequestLog) (request : LimiterRequest) : Bool × RequestLog :=
  isRateLimited requestLog request.key request.time

/-- The answers of the limiter along a run that starts with an empty log. -/
def limiterAnswers (requests : List LimiterRequest) : List (Answer JsString Int) :=
  answered limiter emptyLog requests

theorem limiter_eq_consider : limiter = consider windowMs rateLimit := rfl

/-- What holds of the answers in every run whose clock does not go back. -/
structure LimiterLaw (requests : List LimiterRequest) : Prop where
  -- at most ten requests of an address pass in any window of a minute
  bounded : ∀ key opening, ((limiterAnswers requests).filter fun answer =>
    answer.request.key = key ∧ answer.limited = false ∧ opening ≤ answer.request.time ∧
      answer.request.time < opening + 60000).length ≤ 10
  -- an address gets the answers it would get alone
  separate : ∀ key, (limiterAnswers requests).filter (fun answer => answer.request.key = key) =
    limiterAnswers (requests.filter fun request => request.key = key)
  -- a request with fewer than ten others of its address in the last minute passes
  passes : ∀ earlier request, earlier ++ [request] <+: requests →
    (earlier.filter fun other =>
      other.key = request.key ∧ request.time - other.time < 60000).length < 10 →
    (limiter (logAfter limiter emptyLog earlier) request).1 = false

theorem length_recent_timesOf (now : Int) (key : JsString) (requests : List LimiterRequest) :
    (recent windowMs now (timesOf key requests)).length =
      (requests.filter fun other => other.key = key ∧ now - other.time < 60000).length := by
  rw [recent, timesOf, List.filter_map, List.length_map, List.filter_filter]
  congr 1
  apply List.filter_congr
  intro other _
  rw [Bool.decide_and, Bool.and_comm]
  rfl

theorem limiterAnswers_law {requests : List LimiterRequest}
    (ordered : requests.Pairwise fun earlier later => earlier.time ≤ later.time) :
    LimiterLaw requests where
  bounded := fun key opening => length_passesIn_le windowMs rateLimit key opening ordered
  separate := fun key => answered_filter_key windowMs rateLimit key rfl requests
  passes := by
    intro earlier request within few
    obtain ⟨rest, rfl⟩ := within
    have inOrder := (List.pairwise_append.mp (List.pairwise_append.mp ordered).1).2.2
    have past : ∀ other ∈ earlier, other.time ≤ request.time := fun other member =>
      inOrder other member request (List.mem_singleton_self request)
    have free := mt (limited_iff windowMs rateLimit past).mp (by
      rw [length_recent_timesOf]
      exact Nat.not_le.mpr few)
    rw [limiter_eq_consider]
    exact Bool.eq_false_iff.mpr free

/-- Eleven requests in a minute and one a minute after the first. -/
theorem limiterAnswers_law_twelve_requests :
    let requests : List LimiterRequest := (List.range 11).map (fun time => ⟨js "a", time⟩) ++
      [⟨js "a", 60000⟩]
    LimiterLaw requests ∧
      (limiterAnswers requests).map (·.limited) = List.replicate 10 false ++ [true, true] := by
  refine ⟨limiterAnswers_law ?_, ?_⟩
  · decide
  · decide

end MidenWorkspace.Frontend
