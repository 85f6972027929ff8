import LmsPlayer.LmsProto.Basic
import LmsPlayer.Library.Iteration
import Mathlib.Algebra.BigOperators.Group.List.Basic

/-!
# Vibe.Resolve — looking up a host again and again

`resolve_with_retry` against a resolver and a clock that it does not control.  A lookup takes any
time, and a sleep any time from what was asked for; the instructions in between are counted to the
lookup before them.  Whatever the clock does, as long as it does not run backwards, is given by how
long the lookups take and by how much longer than asked the sleeps are.

The loop keeps an account of its sleeps (`Slept`), which nothing in the code reads.  As far as it
was asked for, every sleep ends at the deadline or before it, so the time left shrinks by at least
as much as is slept.  `OnTime` is this account; the time left is the rank by which the loop ends.
-/

namespace LmsPlayer
namespace Vibe

open Iteration

/-- Delay before the first retry; doubles after each failure. -/
def RESOLVE_INITIAL_DELAY : Duration := Duration.fromMillis 50

def RESOLVE_MAX_DELAY : Duration := Duration.fromSecs 5

/-! ## The resolver and the clock -/

inductive IpAddr where
  | v4 (ip : Ipv4Addr)
  | v6
  deriving DecidableEq, Repr

inductive LookupErrorKind where
  | again
  | other
  deriving DecidableEq, Repr

structure LookupError where
  kind : LookupErrorKind
  text : String
  inner : IoError
  deriving DecidableEq, Repr

/-- One `lookup_host`, and the sleep behind it if there is one. -/
structure Attempt where
  outcome : Except LookupError (List IpAddr)
  took : Duration
  overslept : Duration

inductive ResolveError where
  | timedOut (message : String)
  | lookup (e : IoError)
  deriving DecidableEq, Repr

/-! ## The loop -/

structure RetryDelay where
  val : Duration
  initial_le : RESOLVE_INITIAL_DELAY ≤ val
  le_max : val ≤ RESOLVE_MAX_DELAY
  deriving DecidableEq

namespace RetryDelay

def initial : RetryDelay :=
  { val := RESOLVE_INITIAL_DELAY
    initial_le := le_rfl
    le_max := by decide }

/-- `(delay * 2).min(RESOLVE_MAX_DELAY)` -/
def next (delay : RetryDelay) : RetryDelay :=
  { val := min (delay.val * 2) RESOLVE_MAX_DELAY
    initial_le := by
      refine le_min (le_trans delay.initial_le ?_) (by decide)
      exact Nat.le_mul_of_pos_right _ (by decide)
    le_max := min_le_right _ _ }

theorem pos (delay : RetryDelay) : 0 < delay.val :=
  lt_of_lt_of_le (by decide) delay.initial_le

end RetryDelay

/-- A sleep: when it was begun, and how long it was asked to be. -/
structure Slept where
  since : Instant
  dur : Duration
  deriving DecidableEq, Repr

structure Resolving where
  now : Instant
  delay : RetryDelay
  /-- One less than the number of the attempt, without the saturation at `u64::MAX`. -/
  failed : Nat
  slept : List Slept

/-- What the loop returns, with the time at the end of the last lookup and the sleeps. -/
structure Resolved where
  result : Except ResolveError (Option SocketAddrV4)
  now : Instant
  failed : Nat
  slept : List Slept

section

variable (host : String) (port : UInt16) (deadline : Option Instant) (attempts : Nat → Attempt)

def firstV4 (addrs : List IpAddr) : Option SocketAddrV4 :=
  addrs.findSome? fun
    | .v4 ip => some { ip := ip, port := port }
    | .v6 => none

/-- `attempt`, a `u64` that saturates. -/
def attemptNumber (failed : Nat) : Nat := min (failed + 1) (2 ^ 64 - 1)

def timedOutMessage (failed : Nat) (e : LookupError) : String :=
  "timed out resolving " ++ host ++ " after " ++ toString (attemptNumber failed) ++
    " attempt(s): " ++ e.text

def Resolving.retry (s : Resolving) (now : Instant) (sleepFor overslept : Duration) : Resolving :=
  { now := now + sleepFor + overslept
    delay := s.delay.next
    failed := s.failed + 1
    slept := s.slept ++ [{ since := now, dur := sleepFor }] }

def resolveRound (s : Resolving) : Resolving ⊕ Resolved :=
  let attempt := attempts s.failed
  let now := s.now + attempt.took
  let ret (result : Except ResolveError (Option SocketAddrV4)) : Resolving ⊕ Resolved :=
    .inr
      { result := result
        now := now
        failed := s.failed
        slept := s.slept }
  match attempt.outcome with
  | .ok addrs => ret (.ok (firstV4 port addrs))
  | .error e =>
      if e.kind = .again then
        match deadline with
        | some deadline =>
            -- Never sleep past the deadline; make one last attempt at it.
            let remaining := deadline - now
            if remaining = 0 then ret (.error (.timedOut (timedOutMessage host s.failed e)))
            else .inl (s.retry now (min s.delay.val remaining) attempt.overslept)
        | none => .inl (s.retry now s.delay.val attempt.overslept)
      else ret (.error (.lookup e.inner))

def Resolving.start (now : Instant) : Resolving :=
  { now := now
    delay := .initial
    failed := 0
    slept := [] }

/-! ## One round -/

def Again : Except LookupError (List IpAddr) → Prop
  | .ok _ => False
  | .error e => e.kind = .again

instance : DecidablePred Again
  | .ok _ => isFalse id
  | .error e => inferInstanceAs (Decidable (e.kind = .again))

/-- What is returned at once for an outcome other than a temporary failure. -/
def answer : Except LookupError (List IpAddr) → Except ResolveError (Option SocketAddrV4)
  | .ok addrs => .ok (firstV4 port addrs)
  | .error e => .error (.lookup e.inner)

/-- What a round can do: sleep, within the time left; give up, with no time left; or return what the
lookup says. -/
inductive RoundCases (s : Resolving) : Resolving ⊕ Resolved → Prop where
  | retry (sleepFor : Duration) (hagain : Again (attempts s.failed).outcome) (hpos : 0 < sleepFor)
      (hmax : sleepFor ≤ RESOLVE_MAX_DELAY)
      (hleft : ∀ d, deadline = some d → s.now + (attempts s.failed).took + sleepFor ≤ d) :
      RoundCases s
        (.inl (s.retry (s.now + (attempts s.failed).took) sleepFor (attempts s.failed).overslept))
  | timedOut (e : LookupError) (d : Instant) (houtcome : (attempts s.failed).outcome = .error e)
      (hkind : e.kind = .again) (hdeadline : deadline = some d)
      (hlate : d ≤ s.now + (attempts s.failed).took) :
      RoundCases s
        (.inr
          { result := .error (.timedOut (timedOutMessage host s.failed e))
            now := s.now + (attempts s.failed).took
            failed := s.failed
            slept := s.slept })
  | answered (hagain : ¬Again (attempts s.failed).outcome) :
      RoundCases s
        (.inr
          { result := answer port (attempts s.failed).outcome
            now := s.now + (attempts s.failed).took
            failed := s.failed
            slept := s.slept })

theorem resolveRound_cases (s : Resolving) :
    RoundCases host port deadline attempts s (resolveRound host port deadline attempts s) := by
  have hanswered := @RoundCases.answered host port deadline attempts s
  have htimedOut := @RoundCases.timedOut host port deadline attempts s
  have hretry := @RoundCases.retry host port deadline attempts s
  unfold resolveRound
  dsimp only
  cases houtcome : (attempts s.failed).outcome with
  | ok addrs =>
      rw [houtcome] at hanswered
      exact hanswered id
  | error e =>
      rw [houtcome] at hanswered htimedOut hretry
      dsimp only
      by_cases hagain : e.kind = .again
      · rw [if_pos hagain]
        cases deadline with
        | none => exact hretry s.delay.val hagain s.delay.pos s.delay.le_max nofun
        | some d =>
            dsimp only
            by_cases hlate : d - (s.now + (attempts s.failed).took) = 0
            · rw [if_pos hlate]
              exact htimedOut e d rfl hagain rfl (Nat.sub_eq_zero_iff_le.1 hlate)
            · -- There is time left, and the sleep does not go beyond it.
              rw [if_neg hlate]
              refine hretry _ hagain (lt_min s.delay.pos (Nat.pos_of_ne_zero hlate))
                (le_trans (min_le_left _ _) s.delay.le_max) ?_
              rintro d' ⟨rfl⟩
              exact calc
                s.now + (attempts s.failed).took +
                      min s.delay.val (d - (s.now + (attempts s.failed).took))
                    ≤ s.now + (attempts s.failed).took + (d - (s.now + (attempts s.failed).took)) :=
                      Nat.add_le_add_left (min_le_right _ _) _
                _ = d := Nat.add_sub_cancel' (le_of_lt (Nat.lt_of_sub_ne_zero hlate))
      · rw [if_neg hagain]
        exact hanswered hagain

/-! ## The account of the sleeps -/

def sleepTime (slept : List Slept) : Duration := (slept.map Slept.dur).sum

def Slept.Within (z : Slept) : Prop :=
  z.dur ≤ RESOLVE_MAX_DELAY ∧ ∀ d, deadline = some d → z.since + z.dur ≤ d

/-- The account of a loop that was begun at the time `start`. -/
structure OnTime (start now : Instant) (failed : Nat) (slept : List Slept) : Prop where
  again : ∀ k < failed, Again (attempts k).outcome
  length : slept.length = failed
  within : ∀ z ∈ slept, z.Within deadline
  passed : start + sleepTime slept ≤ now
  budget : ∀ d, deadline = some d → start ≤ d → start + sleepTime slept ≤ d

variable {deadline attempts}

theorem OnTime.init (start : Instant) : OnTime deadline attempts start start 0 [] :=
  ⟨nofun, rfl, nofun, le_rfl, fun _ _ hle => hle⟩

theorem OnTime.later {start now now' : Instant} {failed : Nat} {slept : List Slept}
    (h : OnTime deadline attempts start now failed slept) (hle : now ≤ now') :
    OnTime deadline attempts start now' failed slept :=
  ⟨h.again, h.length, h.within, le_trans h.passed hle, h.budget⟩

theorem OnTime.sleep {start now later : Instant} {failed : Nat} {slept : List Slept}
    {sleepFor : Duration}
    (h : OnTime deadline attempts start now failed slept) (hagain : Again (attempts failed).outcome)
    (hmax : sleepFor ≤ RESOLVE_MAX_DELAY) (hleft : ∀ d, deadline = some d → now + sleepFor ≤ d)
    (hlater : now + sleepFor ≤ later) :
    OnTime deadline attempts start later (failed + 1)
      (slept ++ [{ since := now, dur := sleepFor }]) := by
  have hsum : sleepTime (slept ++ [{ since := now, dur := sleepFor }]) =
      sleepTime slept + sleepFor := by
    simp [sleepTime]
  have hpassed : start + (sleepTime slept + sleepFor) ≤ now + sleepFor := by
    rw [← Nat.add_assoc]
    exact Nat.add_le_add_right h.passed _
  refine ⟨?_, ?_, ?_, ?_, ?_⟩
  · intro k hk
    rcases Nat.lt_succ_iff_lt_or_eq.1 hk with hlt | rfl
    · exact h.again k hlt
    · exact hagain
  · rw [List.length_append, h.length]
    rfl
  · intro z hz
    rcases List.mem_append.1 hz with hold | hnew
    · exact h.within z hold
    · rw [List.mem_singleton.1 hnew]
      exact ⟨hmax, hleft⟩
  · rw [hsum]
    exact le_trans hpassed hlater
  · intro d hd _
    rw [hsum]
    exact le_trans hpassed (hleft d hd)

variable {host port}

theorem onTime_of_round {start : Instant} {a b : Resolving}
    (ha : OnTime deadline attempts start a.now a.failed a.slept)
    (hround : resolveRound host port deadline attempts a = .inl b) :
    OnTime deadline attempts start b.now b.failed b.slept := by
  have hcases := resolveRound_cases host port deadline attempts a
  rw [hround] at hcases
  cases hcases with
  | retry sleepFor hagain hpos hmax hleft =>
      exact (ha.later (Nat.le_add_right _ _)).sleep hagain hmax hleft (Nat.le_add_right _ _)

/-! ## How it ends -/

structure EndsOnTime (deadline : Option Instant) (attempts : Nat → Attempt) (host : String)
    (port : UInt16) (start : Instant) (r : Resolved) : Prop where
  onTime : OnTime deadline attempts start r.now r.failed r.slept
  answered : ¬Again (attempts r.failed).outcome →
    r.result = answer port (attempts r.failed).outcome
  timedOut : ∀ message, r.result = .error (.timedOut message) →
    Again (attempts r.failed).outcome ∧ ∃ d, deadline = some d ∧ d ≤ r.now
  /-- A temporary failure is the last outcome only when the time is up. -/
  gaveUp : ∀ e, (attempts r.failed).outcome = .error e → e.kind = .again →
    r.result = .error (.timedOut (timedOutMessage host r.failed e)) ∧
      ∃ d, deadline = some d ∧ d ≤ r.now

theorem answer_ne_timedOut (outcome : Except LookupError (List IpAddr)) (message : String) :
    answer port outcome ≠ .error (.timedOut message) := by
  cases outcome <;> exact nofun

theorem endsOnTime_of_round {start : Instant} {a : Resolving} {r : Resolved}
    (ha : OnTime deadline attempts start a.now a.failed a.slept)
    (hround : resolveRound host port deadline attempts a = .inr r) :
    EndsOnTime deadline attempts host port start r := by
  have hcases := resolveRound_cases host port deadline attempts a
  rw [hround] at hcases
  have honTime := ha.later (Nat.le_add_right a.now (attempts a.failed).took)
  cases hcases with
  | timedOut e d houtcome hkind hdeadline hlate =>
      have hagain : Again (attempts a.failed).outcome := by
        rw [houtcome]
        exact hkind
      refine ⟨honTime, fun h => absurd hagain h, fun _ _ => ⟨hagain, d, hdeadline, hlate⟩, ?_⟩
      intro e' houtcome' _
      obtain rfl : e = e' := Except.error.inj (houtcome.symm.trans houtcome')
      exact ⟨rfl, d, hdeadline, hlate⟩
  | answered hagain =>
      refine ⟨honTime, fun _ => rfl, fun message h => absurd h (answer_ne_timedOut _ message), ?_⟩
      intro e houtcome hkind
      rw [houtcome] at hagain
      exact absurd hkind hagain

theorem endsOnTime {start : Instant} {r : Resolved}
    (h : Returns (resolveRound host port deadline attempts) (.start start) r) :
    EndsOnTime deadline attempts host port start r := by
  refine Returns.invariant (fun s => OnTime deadline attempts start s.now s.failed s.slept)
    (EndsOnTime deadline attempts host port start) h (OnTime.init start) ?_ ?_
  · intro a b ha hround
    exact onTime_of_round ha hround
  · intro a r ha hround
    exact endsOnTime_of_round ha hround

variable (host port attempts) in
/-- With a deadline it ends: every sleep takes away from the time left. -/
theorem terminates_resolve (d : Instant) (s : Resolving) :
    Terminates (resolveRound host port (some d) attempts) s := by
  refine Terminates.of_rank (fun s => d - s.now) ?_ s
  intro a b hround
  have hcases := resolveRound_cases host port (some d) attempts a
  rw [hround] at hcases
  cases hcases with
  | retry sleepFor hagain hpos hmax hleft =>
      have hlt : a.now < a.now + (attempts a.failed).took + sleepFor :=
        lt_of_le_of_lt (Nat.le_add_right _ _) (Nat.lt_add_of_pos_right hpos)
      exact Nat.sub_lt_sub_left (lt_of_lt_of_le hlt (hleft d rfl))
        (lt_of_lt_of_le hlt (Nat.le_add_right _ _))

theorem failed_of_round {s t : Resolving}
    (h : resolveRound host port deadline attempts s = .inl t) :
    Again (attempts s.failed).outcome ∧ t.failed = s.failed + 1 := by
  have hcases := resolveRound_cases host port deadline attempts s
  rw [h] at hcases
  cases hcases with
  | retry _ hagain _ _ _ => exact ⟨hagain, rfl⟩

/-- Without a deadline it comes by every lookup before the first that does not fail temporarily. -/
theorem terminates_of_not_again {k : Nat} (h : ¬Again (attempts k).outcome) (start : Instant) :
    Terminates (resolveRound host port none attempts) (.start start) := by
  refine Terminates.of_count Resolving.failed (fun j => Again (attempts j).outcome) ?_ h
    (Nat.zero_le k)
  intro s t hround
  exact failed_of_round hround

end

/-- **The budget is kept**: with a timeout the resolution ends, whatever the resolver and the clock
do.  It sleeps for no longer than the timeout in all, and each time for no longer than five seconds
and than the time left.  The first lookup that does not fail temporarily is the last one, and its
answer is returned; if there is none before the time is up, the last one has failed temporarily and
is over at the deadline or later, and the error says so.  Without a timeout it never gives up: it
ends if some lookup does not fail temporarily, and with the answer of the first. -/
theorem resolve_in_budget (host : String) (port : UInt16) (attempts : Nat → Attempt)
    (start : Instant) :
    (∀ timeout, ∃ r, Returns (resolveRound host port (some (start + timeout)) attempts)
        (.start start) r ∧
      sleepTime r.slept ≤ timeout ∧
      (∀ z ∈ r.slept, z.dur ≤ RESOLVE_MAX_DELAY ∧ z.since + z.dur ≤ start + timeout) ∧
      (∀ message, r.result = .error (.timedOut message) →
        Again (attempts r.failed).outcome ∧ start + timeout ≤ r.now) ∧
      (∀ e, (attempts r.failed).outcome = .error e → e.kind = .again →
        r.result = .error (.timedOut (timedOutMessage host r.failed e)) ∧
          start + timeout ≤ r.now) ∧
      r.slept.length = r.failed ∧ (∀ k < r.failed, Again (attempts k).outcome) ∧
      (¬Again (attempts r.failed).outcome →
        r.result = answer port (attempts r.failed).outcome)) ∧
    ((∃ k, ¬Again (attempts k).outcome) →
      Terminates (resolveRound host port none attempts) (.start start)) ∧
    ∀ r, Returns (resolveRound host port none attempts) (.start start) r →
      (∀ message, r.result ≠ .error (.timedOut message)) ∧
      (∀ k < r.failed, Again (attempts k).outcome) ∧ ¬Again (attempts r.failed).outcome ∧
      r.result = answer port (attempts r.failed).outcome ∧
      r.slept.length = r.failed ∧ ∀ z ∈ r.slept, z.dur ≤ RESOLVE_MAX_DELAY := by
  refine ⟨?_, ?_, ?_⟩
  · intro timeout
    rcases terminates_resolve host port attempts (start + timeout) (.start start) with ⟨r, hreturns⟩
    have hends := endsOnTime hreturns
    have hbudget := hends.onTime.budget _ rfl (Nat.le_add_right start timeout)
    refine ⟨r, hreturns, Nat.le_of_add_le_add_left hbudget, ?_, ?_, ?_, hends.onTime.length,
      hends.onTime.again, hends.answered⟩
    · intro z hz
      exact ⟨(hends.onTime.within z hz).1, (hends.onTime.within z hz).2 _ rfl⟩
    · intro message hresult
      rcases hends.timedOut message hresult with ⟨hagain, d, ⟨rfl⟩, hlate⟩
      exact ⟨hagain, hlate⟩
    · intro e houtcome hkind
      rcases hends.gaveUp e houtcome hkind with ⟨hresult, d, ⟨rfl⟩, hlate⟩
      exact ⟨hresult, hlate⟩
  · rintro ⟨k, hk⟩
    exact terminates_of_not_again hk start
  · intro r hreturns
    have hends := endsOnTime hreturns
    have hlast : ¬Again (attempts r.failed).outcome := by
      cases houtcome : (attempts r.failed).outcome with
      | ok addrs => exact id
      | error e =>
          intro hkind
          rcases hends.gaveUp e houtcome hkind with ⟨-, d, hdeadline, -⟩
          cases hdeadline
    refine ⟨?_, hends.onTime.again, hlast, hends.answered hlast, hends.onTime.length, ?_⟩
    · intro message hresult
      exact hlast (hends.timedOut message hresult).1
    · intro z hz
      exact (hends.onTime.within z hz).1

/-- A budget of 60 milliseconds: the second sleep is cut to what is left, and the third lookup is
the last one. -/
example :
    let attempts : Nat → Attempt := fun _ =>
      { outcome := .error { kind := .again, text := "again", inner := ⟨.other, "again"⟩ }
        took := 0
        overslept := 0 }
    (run (resolveRound "lms" 3483 (some (Duration.fromMillis 60)) attempts) 3 (.start 0)).map
        (fun r => r.slept.map Slept.dur) =
      some [Duration.fromMillis 50, Duration.fromMillis 10] := by
  decide

end Vibe
end LmsPlayer
