import Mathlib.Algebra.BigOperators.Intervals
import Mathlib.Algebra.Order.Ring.Cast
import Mathlib.Tactic.Linarith
import Mathlib.Tactic.Ring
import Mpsystemd.Watchdog

/-! When the watchdog task pings, and how far apart the pings are that reach the
manager. -/

namespace Mpsystemd

theorem watchdogPeriodMs_eq {intervalUs divisor : Int} (hdivisor : 1 ≤ divisor) :
    watchdogPeriodMs intervalUs divisor = .ok (max 1 (intervalUs / divisor / 1000)) := by
  have hperiod : (intervalUs.fdiv divisor).fdiv 1000 = intervalUs / divisor / 1000 := by
    rw [Int.fdiv_eq_ediv_of_nonneg intervalUs (by omega), Int.fdiv_eq_ediv_of_nonneg _ (by decide)]
  rw [watchdogPeriodMs, if_neg (by omega)]
  simp only [usecPerMs, minPeriodMs, hperiod]
  congr 1
  split
  · omega
  · omega

theorem watchdogPeriodMs_mono {i i' d d' : Int} (hi : 0 < i) (hle : i ≤ i') (hd' : 1 ≤ d') (hd : d' ≤ d) :
    ∃ p p', watchdogPeriodMs i d = .ok p ∧ watchdogPeriodMs i' d' = .ok p' ∧ p ≤ p' := by
  refine ⟨_, _, watchdogPeriodMs_eq (by omega), watchdogPeriodMs_eq hd', ?_⟩
  have hquotient : i / d ≤ i' / d' :=
    calc i / d ≤ i' / d := Int.ediv_le_ediv (by omega) hle
      _ ≤ i' / d' := by
        apply Int.le_ediv_of_mul_le (by omega)
        have hprod : i' / d * d ≤ i' := Int.ediv_mul_le _ (by omega)
        have hnonneg : 0 ≤ i' / d := Int.ediv_nonneg (by omega) (by omega)
        have hshrink : i' / d * d' ≤ i' / d * d := Int.mul_le_mul_of_nonneg_left hd hnonneg
        exact hshrink.trans hprod
  have hperiod : i / d / 1000 ≤ i' / d' / 1000 := Int.ediv_le_ediv (by decide) hquotient
  omega

/-- From `1000 * divisor` on the floor of one millisecond is not taken. -/
theorem watchdogPeriodMs_bounds {intervalUs divisor : Int} (hdivisor : 1 ≤ divisor)
    (hinterval : 1000 * divisor ≤ intervalUs) :
    ∃ p, watchdogPeriodMs intervalUs divisor = .ok p ∧ 1000 * divisor * p ≤ intervalUs ∧
      intervalUs < 1000 * divisor * (p + 1) := by
  have hq : intervalUs / divisor / 1000 = intervalUs / (divisor * 1000) :=
    Int.ediv_ediv_of_nonneg (by omega)
  have hcomm : divisor * 1000 = 1000 * divisor := Int.mul_comm _ _
  have hpos : 0 < 1000 * divisor := by omega
  have hfloor : 1 ≤ intervalUs / (1000 * divisor) := Int.le_ediv_of_mul_le hpos (by omega)
  refine ⟨intervalUs / (1000 * divisor), ?_, ?_, ?_⟩
  · rw [watchdogPeriodMs_eq hdivisor, hq, hcomm, max_eq_right hfloor]
  · exact Int.mul_ediv_self_le (by omega)
  · have hnext := @Int.lt_mul_ediv_self_add intervalUs _ hpos
    rwa [mul_add, mul_one]

namespace WatchdogTask

variable {T : Type} [CommRing T]

/-- What passes in the period of a task, which ends late by a delay. In microseconds. -/
def slept (delay : T) : WatchdogTask → T
  | asleep loop _ => (1000 * loop.periodMs : Int) + delay
  | ended _ _ => 0

def clock (rt : Runtime) (task : WatchdogTask) (found : Nat → Notifier × World) (delay : Nat → T) : Nat → T
  | 0 => 0
  | n + 1 => clock rt task found delay n + slept (delay n) (after rt task found n)

/-- Two pings that arrive, with none between them that does. -/
structure Consecutive (lost : Nat → Prop) (i j : Nat) : Prop where
  before : i < j
  received : ¬ lost i ∧ ¬ lost j
  between : ∀ k, i < k → k < j → lost k

theorem Consecutive.length_le {lost : Nat → Prop} {i j : Nat} {divisor : Int} (h : Consecutive lost i j)
    (hlost : ∀ first length : Nat, (∀ k < length, lost (first + k)) → (length : Int) ≤ divisor - 1) :
    ((j - i : Nat) : Int) ≤ divisor := by
  have hbefore := h.before
  have hgap := hlost (i + 1) (j - (i + 1)) fun k hk => h.between (i + 1 + k) (by omega) (by omega)
  omega

theorem clock_sub {rt : Runtime} {task : WatchdogTask} {found : Nat → Notifier × World} {delay : Nat → T}
    {periodMs : Int}
    (hasleep : ∀ n, ∃ loop, after rt task found n = asleep loop (n + 1) ∧ loop.periodMs = periodMs)
    {i j : Nat} (hij : i ≤ j) :
    clock rt task found delay j - clock rt task found delay i =
      ((j - i : Nat) * (1000 * periodMs) : Int) + ∑ k ∈ Finset.Ico i j, delay k := by
  induction j, hij using Nat.le_induction with
  | base => simp
  | succ j hij ih =>
    obtain ⟨loop, hloop, hperiod⟩ := hasleep j
    have hlength : ((j + 1 - i : Nat) : Int) = (j - i : Nat) + 1 := by omega
    rw [clock, hloop, slept, hperiod, Finset.sum_Ico_succ_top hij, hlength, add_sub_right_comm, ih]
    push_cast
    ring

variable [LinearOrder T] [IsStrictOrderedRing T]

/-- The period leaves room for lost pings and late ones: up to `divisor - 1` lost
in a row, and as late in all as the rest of the division. -/
theorem pings_in_time (rt : Runtime) (intervalUs divisor : Int) (hdivisor : 1 ≤ divisor)
    (hinterval : 1000 * divisor ≤ intervalUs) :
    (∀ i i' d d' : Int, 0 < i → i ≤ i' → 1 ≤ d' → d' ≤ d →
      ∃ p p', watchdogPeriodMs i d = .ok p ∧ watchdogPeriodMs i' d' = .ok p' ∧ p ≤ p') ∧
    ∃ p, watchdogPeriodMs intervalUs divisor = .ok p ∧
      1000 * divisor * p ≤ intervalUs ∧ intervalUs < 1000 * divisor * (p + 1) ∧
      ∀ (interval : Option Int) (notifier : Option Notifier) (w w' : World) (found : Nat → Notifier × World),
        HasInterval rt interval w intervalUs w' → Uses notifier w' (found 0) → (found 0).1.available = true →
        (∀ i, PingEnds rt none (found i)) →
        ∀ (delay : Nat → T) (lost : Nat → Prop),
        (∀ first length : Nat, (∀ k < length, lost (first + k)) → (length : Int) ≤ divisor - 1) →
        let task := start rt interval divisor notifier w
        let later := fun i => found (i + 1)
        (∀ n, (after rt task later n).pings = n + 1) ∧
        ∀ i j, Consecutive lost i j →
          ∑ k ∈ Finset.Ico i j, delay k ≤ (intervalUs - 1000 * divisor * p : Int) →
          clock rt task later delay j - clock rt task later delay i ≤ (intervalUs : T) := by
  refine ⟨fun i i' d d' hi hle hd' hd => watchdogPeriodMs_mono hi hle hd' hd, ?_⟩
  obtain ⟨p, hp, hlow, hhigh⟩ := watchdogPeriodMs_bounds hdivisor hinterval
  refine ⟨p, hp, hlow, hhigh, ?_⟩
  intro interval notifier w w' found hgiven huses havailable hends delay lost hlost task later
  obtain ⟨loop, hstart, hperiod⟩ := start_eq_ping hgiven (by omega) hdivisor huses havailable
  rw [hp] at hperiod
  obtain ⟨loop', hping, hperiod'⟩ := @ping_of_success rt loop (found 0) 0 (hends 0)
  have hfirst : ∃ loop, task = asleep loop 1 ∧ loop.periodMs = p :=
    ⟨loop', hstart.trans hping, hperiod'.trans (Except.ok.inj hperiod).symm⟩
  let outcome : Nat → Option Errno := fun _ => none
  have hlater : ∀ i, PingEnds rt (outcome (i + 1)) (later i) := fun i => hends (i + 1)
  have hasleep : ∀ n, ∃ loop, after rt task later n = asleep loop (n + 1) ∧ loop.periodMs = p :=
    fun n => after_successes hfirst hlater n fun _ _ => rfl
  constructor
  · intro n
    obtain ⟨loop, hn, -⟩ := hasleep n
    rw [hn, pings]
  · intro i j hij hdelay
    -- At most `divisor` periods lie between two pings that arrive.
    have hcount := hij.length_le hlost
    have hperiods : ((j - i : Nat) : Int) * (1000 * p) ≤ 1000 * divisor * p := by
      have hfloor : 0 ≤ 1000 * p := by nlinarith
      calc ((j - i : Nat) : Int) * (1000 * p) ≤ divisor * (1000 * p) := mul_le_mul_of_nonneg_right hcount hfloor
        _ = 1000 * divisor * p := by ring
    have hcast : ((((j - i : Nat) : Int) * (1000 * p) : Int) : T) ≤ ((1000 * divisor * p : Int) : T) :=
      Int.cast_le.mpr hperiods
    rw [clock_sub hasleep hij.before.le]
    rw [Int.cast_sub] at hdelay
    linarith

/-- Every second ping is lost. -/
theorem pings_in_time_alternate :
    let found := answering fun _ => none
    let task := start .unixPort (some 30000000) 2 (some (found 0).1) (found 0).2
    let later := fun i => found (i + 1)
    clock .unixPort task later (fun _ => (0 : Int)) 2 - clock .unixPort task later (fun _ => 0) 0 ≤
      30000000 := by
  intro found task later
  obtain ⟨-, p, hp, hlow, -, hrun⟩ := pings_in_time (T := Int) .unixPort 30000000 2 (by decide) (by decide)
  have hlost : ∀ first length : Nat, (∀ k < length, (first + k) % 2 = 1) → (length : Int) ≤ 2 - 1 := by
    intro first length hodd
    by_contra hlong
    have h0 := hodd 0 (by omega)
    have h1 := hodd 1 (by omega)
    omega
  have hconsecutive : Consecutive (fun k => k % 2 = 1) 0 2 := ⟨by decide, by decide, fun k _ _ => by omega⟩
  apply (hrun (some 30000000) (some (found 0).1) (found 0).2 (found 0).2 found rfl rfl rfl
    (pingEnds_answering .unixPort fun _ => none)
    (fun _ => 0) (fun k => k % 2 = 1) hlost).2 0 2 hconsecutive
  simpa using hlow

end WatchdogTask

end Mpsystemd
