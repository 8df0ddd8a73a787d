import CobraProxy.Lib.FiniteMap
import CobraProxy.Lib.Text

/-! `CircuitBreaker`: the failures of destinations, in a bounded map. An entry that has reached the threshold is
open until its cooldown ends; the first request that is let through then leaves it one failure short. -/

namespace Cobra

open Text

/-- Instants are nanoseconds since some start. -/
structure BreakerEntry where
  failures : ℕ
  openUntil : Option ℕ
  lastUsed : ℕ

/-- The bounds are those that `new` asserts, and that of the counter's type. -/
structure CircuitBreaker where
  entries : Finmap fun _ : Str => BreakerEntry
  capacity : ℕ
  failureThreshold : ℕ
  cooldown : ℕ
  capacity_pos : 0 < capacity
  threshold_pos : 0 < failureThreshold
  threshold_lt : failureThreshold < 2 ^ 64

/-- `saturating_add` on a 64-bit `usize`. -/
def saturatingAdd (m n : ℕ) : ℕ := min (m + n) (2 ^ 64 - 1)

namespace CircuitBreaker

def new (capacity failureThreshold cooldown : ℕ) (hcapacity : 0 < capacity) (hpos : 0 < failureThreshold)
    (hlt : failureThreshold < 2 ^ 64) : CircuitBreaker :=
  ⟨∅, capacity, failureThreshold, cooldown, hcapacity, hpos, hlt⟩

def set (b : CircuitBreaker) (destination : Str) (entry : BreakerEntry) : CircuitBreaker :=
  { b with entries := b.entries.insert destination entry }

def allowAt (b : CircuitBreaker) (destination : Str) (now : ℕ) : Bool × CircuitBreaker :=
  match b.entries.lookup destination with
  | none => (true, b)
  | some entry =>
    match entry.openUntil with
    | some openUntil =>
      if now < openUntil then (false, b.set destination { entry with lastUsed := now })
      else (true, b.set destination ⟨b.failureThreshold - 1, none, now⟩)
    | none => (true, b.set destination { entry with lastUsed := now })

/-- `oldest` is what the search for the entry used longest ago returns. -/
def recordFailureAt (b : CircuitBreaker) (destination : Str) (now : ℕ) (oldest : Option Str) : CircuitBreaker :=
  let entries := if destination ∈ b.entries then b.entries else b.entries.makeRoom b.capacity oldest
  let entry := (entries.lookup destination).getD ⟨0, none, now⟩
  let failures := saturatingAdd entry.failures 1
  let openUntil := if b.failureThreshold ≤ failures then some (now + b.cooldown) else entry.openUntil
  { b with entries := entries.insert destination ⟨failures, openUntil, now⟩ }

def recordSuccess (b : CircuitBreaker) (destination : Str) : CircuitBreaker :=
  { b with entries := b.entries.erase destination }

end CircuitBreaker

/-- A call, with the answer that it got. -/
inductive BreakerEvent
  | allow (destination : Str) (time : ℕ) (answer : Bool)
  | failure (destination : Str) (time : ℕ)
  | success (destination : Str)
  deriving DecidableEq

/-- The breaker and the time of its last call. -/
structure TimedBreaker where
  breaker : CircuitBreaker
  now : ℕ

/-- A call at a time that is not before the last one. -/
inductive TimedBreaker.Step (s : TimedBreaker) : BreakerEvent → TimedBreaker → Prop
  | allow (destination : Str) (time : ℕ) (htime : s.now ≤ time) :
      Step s (.allow destination time (s.breaker.allowAt destination time).1)
        ⟨(s.breaker.allowAt destination time).2, time⟩
  | failure (destination : Str) (time : ℕ) (oldest : Option Str) (htime : s.now ≤ time)
      (holdest : s.breaker.entries.IsMinBy BreakerEntry.lastUsed oldest) :
      Step s (.failure destination time) ⟨s.breaker.recordFailureAt destination time oldest, time⟩
  | success (destination : Str) : Step s (.success destination) ⟨s.breaker.recordSuccess destination, s.now⟩

end Cobra
