import Mathlib.Algebra.Order.Floor.Ring
import Mathlib.Data.Rat.Floor
import Mathlib.Logic.Function.Basic

/-! The in-process rate limiter, on a clock of exact rationals.
A dictionary is the function that looks its keys up.
-/
namespace RateLimit

/-- A rate as `parse_rate` admits it. -/
structure Rate where
  count : Nat
  windowSeconds : Nat
  positive : 1 ≤ count

structure InMemoryRateLimiter where
  hits : String → Option (List ℚ)
  maxWindow : String → Option Nat
  calls : Nat

def InMemoryRateLimiter.init : InMemoryRateLimiter := ⟨fun _ => none,fun _ => none,0⟩

def purgeBucket (s : InMemoryRateLimiter) (now : ℚ) (key : String) (bucket : List ℚ) : List ℚ :=
  bucket.dropWhile fun time => time ≤ now - (s.maxWindow key).getD 0

/-- The bucket of a key after a purge, if it is kept. -/
def purged (s : InMemoryRateLimiter) (now : ℚ) (key : String) : Option (List ℚ) :=
  match s.hits key with
  | none => none
  | some bucket => if purgeBucket s now key bucket = [] then none else some (purgeBucket s now key bucket)

def purge (s : InMemoryRateLimiter) (now : ℚ) : InMemoryRateLimiter :=
  { s with
    hits := purged s now
    maxWindow := fun key => if (s.hits key).isSome && (purged s now key).isNone then none else s.maxWindow key }

/-- The hit proper, after the call has been counted. -/
def record (s : InMemoryRateLimiter) (now : ℚ) (key : String) (rate : Rate) : Option ℤ × InMemoryRateLimiter :=
  let maxWindow := Function.update s.maxWindow key (some (max ((s.maxWindow key).getD 0) rate.windowSeconds))
  let bucket := ((s.hits key).getD []).dropWhile fun time => time ≤ now - rate.windowSeconds
  if full : rate.count ≤ bucket.length then
    let first := bucket.head (List.ne_nil_of_length_pos (Nat.le_trans rate.positive full))
    (some (max 1 ⌈first + rate.windowSeconds - now⌉),⟨Function.update s.hits key (some bucket),maxWindow,s.calls⟩)
  else (none,⟨Function.update s.hits key (some (bucket ++ [now])),maxWindow,s.calls⟩)

/-- `none` if the hit is allowed, else the seconds until a retry. -/
def hit (s : InMemoryRateLimiter) (now : ℚ) (key : String) (rate : Rate) : Option ℤ × InMemoryRateLimiter :=
  let s := { s with calls := s.calls + 1 }
  let s := if s.calls % 1000 = 0 then purge s now else s
  record s now key rate

structure Hit where
  key : String
  time : ℚ

def answer (rates : String → Rate) (s : InMemoryRateLimiter) (h : Hit) : Option ℤ := (hit s h.time h.key (rates h.key)).1

def next (rates : String → Rate) (s : InMemoryRateLimiter) (h : Hit) : InMemoryRateLimiter :=
  (hit s h.time h.key (rates h.key)).2

def after (rates : String → Rate) (s : InMemoryRateLimiter) (hits : List Hit) : InMemoryRateLimiter :=
  hits.foldl (next rates) s

def answers (rates : String → Rate) : InMemoryRateLimiter → List Hit → List (Option ℤ)
  | _,[] => []
  | s,h :: rest => answer rates s h :: answers rates (next rates s h) rest

/-- The hits of a sequence that are allowed. -/
def allowed (rates : String → Rate) : InMemoryRateLimiter → List Hit → List Hit
  | _,[] => []
  | s,h :: rest =>
    if answer rates s h = none then h :: allowed rates (next rates s h) rest else allowed rates (next rates s h) rest

/-- The clock does not go back. -/
def Nondecreasing (hits : List Hit) : Prop := hits.Pairwise fun first second => first.time ≤ second.time

/-- Of the given hits, those with the key of `h` in the window that ends with it. -/
def inWindow (rates : String → Rate) (hits : List Hit) (h : Hit) : List Hit :=
  hits.filter fun other => other.key = h.key && h.time - (rates h.key).windowSeconds < other.time && other.time ≤ h.time

end RateLimit
