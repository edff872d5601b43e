import Mathlib.Algebra.Order.Field.Rat
import Mathlib.Data.List.TakeWhile
import Mathlib.Tactic.Linarith
import SasBackend.Library.Queue
import SasBackend.Semantics.RateLimit

/-! The rate limiter answers as if it kept every allowed hit and counted those in the window.
-/
namespace RateLimit

variable {rates : String → Rate} {s : InMemoryRateLimiter} {now t : ℚ} {key : String} {h : Hit} {history hits : List Hit}

/-- The times of a key in a history of allowed hits. -/
def times (history : List Hit) (key : String) : List ℚ := (history.filter fun h => h.key = key).map (·.time)

/-- Those that count against a hit at the time. -/
def recent (rates : String → Rate) (history : List Hit) (key : String) (t : ℚ) : List ℚ :=
  (times history key).filter fun time => t - (rates key).windowSeconds < time

/-- The answer that the history of allowed hits calls for. -/
def expected (rates : String → Rate) (history : List Hit) (h : Hit) : Option ℤ :=
  if (recent rates history h.key h.time).length < (rates h.key).count then none
  else some (max 1 ⌈(recent rates history h.key h.time).head?.getD 0 + (rates h.key).windowSeconds - h.time⌉)

def remember (rates : String → Rate) (history : List Hit) (h : Hit) : List Hit :=
  if expected rates history h = none then history ++ [h] else history

/-- What the limiter holds at a time of the hits it has allowed. -/
structure Tracks (rates : String → Rate) (now : ℚ) (history : List Hit) (s : InMemoryRateLimiter) : Prop where
  past : ∀ h ∈ history, h.time ≤ now
  ordered : Nondecreasing history
  window : ∀ key, s.maxWindow key = if (s.hits key).isSome then some (rates key).windowSeconds else none
  bucket : ∀ key, ∃ old, times history key = old ++ (s.hits key).getD [] ∧
    ∀ time ∈ old, time ≤ now - (rates key).windowSeconds
  bounded : ∀ key, (recent rates history key now).length ≤ (rates key).count

theorem times_append (first second : List Hit) (key : String) :
    times (first ++ second) key = times first key ++ times second key := by
  simp [times]

theorem Tracks.times_ordered (tracks : Tracks rates now history s) (key : String) :
    (times history key).Pairwise (· ≤ ·) :=
  List.pairwise_map.mpr (tracks.ordered.filter _)

theorem Tracks.init : Tracks rates now [] .init where
  past := by simp
  ordered := .nil
  window := by simp [InMemoryRateLimiter.init]
  bucket := fun key => ⟨[],by simp [times,InMemoryRateLimiter.init],by simp⟩
  bounded := by simp [recent,times]

theorem Tracks.later (tracks : Tracks rates now history s) (ahead : now ≤ t) : Tracks rates t history s where
  past := fun h member => le_trans (tracks.past h member) ahead
  ordered := tracks.ordered
  window := tracks.window
  bucket := by
    intro key
    obtain ⟨old,split,gone⟩ := tracks.bucket key
    refine ⟨old,split,fun time member => ?_⟩
    have before := gone time member
    linarith
  bounded := by
    intro key
    refine le_trans (List.Sublist.length_le (List.monotone_filter_right _ fun time inside => ?_)) (tracks.bounded key)
    simp only [decide_eq_true_eq] at inside ⊢
    linarith

theorem Tracks.dropped (tracks : Tracks rates now history s) (key : String) :
    (((s.hits key).getD []).dropWhile fun time => decide (time ≤ now - (rates key).windowSeconds)) =
      recent rates history key now := by
  obtain ⟨old,split,gone⟩ := tracks.bucket key
  have ordered := tracks.times_ordered key
  rw [split] at ordered
  have forgotten : (old.filter fun time => now - (rates key).windowSeconds < time) = [] := by
    apply List.filter_eq_nil_iff.mpr
    intro time member
    simpa using gone time member
  rw [Queue.dropWhile_le (List.pairwise_append.mp ordered).2.1,recent,split,List.filter_append,forgotten,List.nil_append]

theorem recent_split (ordered : (times history key).Pairwise (· ≤ ·)) :
    ∃ old, times history key = old ++ recent rates history key t ∧ ∀ time ∈ old, time ≤ t - (rates key).windowSeconds := by
  refine ⟨(times history key).takeWhile fun time => decide (time ≤ t - (rates key).windowSeconds),?_,?_⟩
  · rw [recent,← Queue.dropWhile_le ordered,List.takeWhile_append_dropWhile]
  · intro time member
    simpa using List.mem_takeWhile_imp member

theorem purgeBucket_eq {bucket : List ℚ} (tracks : Tracks rates now history s) (there : s.hits key = some bucket) :
    purgeBucket s now key bucket = recent rates history key now := by
  rw [← tracks.dropped key,there]
  simp [purgeBucket,tracks.window key,there]

theorem purged_getD (tracks : Tracks rates now history s) {bucket : List ℚ} (there : s.hits key = some bucket) :
    (purged s now key).getD [] = recent rates history key now := by
  rw [← purgeBucket_eq tracks there]
  unfold purged
  rw [there]
  by_cases empty : purgeBucket s now key bucket = [] <;> simp [empty]

theorem Tracks.purge (tracks : Tracks rates now history s) : Tracks rates now history (purge s now) where
  past := tracks.past
  ordered := tracks.ordered
  window := by
    intro key
    cases there : s.hits key with
    | none => simp [RateLimit.purge,purged,there,tracks.window key]
    | some bucket =>
      by_cases empty : purgeBucket s now key bucket = []
      · simp [RateLimit.purge,purged,there,empty]
      · simp [RateLimit.purge,purged,there,empty,tracks.window key]
  bucket := by
    intro key
    cases there : s.hits key with
    | none => simpa [RateLimit.purge,purged,there] using tracks.bucket key
    | some bucket =>
      simp only [RateLimit.purge,purged_getD tracks there]
      exact recent_split (tracks.times_ordered key)
  bounded := tracks.bounded

theorem expected_none : expected rates history h = none ↔
    (recent rates history h.key h.time).length < (rates h.key).count := by
  unfold expected
  split <;> simp_all

theorem recent_snoc (h : Hit) (key : String) (t : ℚ) : recent rates (history ++ [h]) key t =
    recent rates history key t ++ (if h.key = key ∧ t - (rates key).windowSeconds < h.time then [h.time] else []) := by
  rw [recent,times_append,List.filter_append,recent]
  by_cases same : h.key = key
  · by_cases inside : t - (rates key).windowSeconds < h.time
    · simp [times,same,inside]
    · simp [times,same,inside]
  · simp [times,same]

/-- An allowed hit is remembered. -/
theorem Tracks.allow {later : InMemoryRateLimiter} (tracks : Tracks rates h.time history s)
    (room : (recent rates history h.key h.time).length < (rates h.key).count)
    (hits : later.hits = Function.update s.hits h.key (some (recent rates history h.key h.time ++ [h.time])))
    (window : later.maxWindow = Function.update s.maxWindow h.key (some (rates h.key).windowSeconds)) :
    Tracks rates h.time (history ++ [h]) later where
  past := by
    intro other member
    rcases List.mem_append.mp member with old | new
    · exact tracks.past other old
    · rw [List.mem_singleton.mp new]
  ordered := by
    refine List.pairwise_append.mpr ⟨tracks.ordered,List.pairwise_singleton _ _,fun other old new member => ?_⟩
    rw [List.mem_singleton.mp member]
    exact tracks.past other old
  window := by
    intro key
    rw [window,hits]
    by_cases same : key = h.key
    · subst same
      simp
    · simp only [Function.update_of_ne same]
      exact tracks.window key
  bucket := by
    intro key
    rw [hits,times_append]
    by_cases same : key = h.key
    · subst same
      obtain ⟨old,split,gone⟩ := recent_split (tracks.times_ordered h.key)
      refine ⟨old,?_,gone⟩
      rw [split]
      simp [times]
    · obtain ⟨old,split,gone⟩ := tracks.bucket key
      refine ⟨old,?_,gone⟩
      rw [Function.update_of_ne same,split]
      simp [times,Ne.symm same]
  bounded := by
    intro key
    rw [recent_snoc]
    split
    · next here =>
      obtain ⟨rfl,_⟩ := here
      rw [List.length_append,List.length_singleton]
      exact room
    · simpa using tracks.bounded key

/-- A denied one only lets what is out of the window go. -/
theorem Tracks.deny {later : InMemoryRateLimiter} (tracks : Tracks rates h.time history s)
    (hits : later.hits = Function.update s.hits h.key (some (recent rates history h.key h.time)))
    (window : later.maxWindow = Function.update s.maxWindow h.key (some (rates h.key).windowSeconds)) :
    Tracks rates h.time history later where
  past := tracks.past
  ordered := tracks.ordered
  window := by
    intro key
    rw [window,hits]
    by_cases same : key = h.key
    · subst same
      simp
    · simp only [Function.update_of_ne same]
      exact tracks.window key
  bucket := by
    intro key
    rw [hits]
    by_cases same : key = h.key
    · subst same
      rw [Function.update_self]
      exact recent_split (tracks.times_ordered h.key)
    · rw [Function.update_of_ne same]
      exact tracks.bucket key
  bounded := tracks.bounded

theorem Tracks.record (tracks : Tracks rates h.time history s) :
    (record s h.time h.key (rates h.key)).1 = expected rates history h ∧
      Tracks rates h.time (remember rates history h) (record s h.time h.key (rates h.key)).2 := by
  have window : max ((s.maxWindow h.key).getD 0) (rates h.key).windowSeconds = (rates h.key).windowSeconds := by
    rw [tracks.window h.key]
    split <;> simp
  unfold RateLimit.record
  simp only [window,tracks.dropped h.key]
  split
  · next full =>
    have denied : ¬(recent rates history h.key h.time).length < (rates h.key).count := Nat.not_lt.mpr full
    constructor
    · rw [expected,if_neg denied]
      simp [List.head?_eq_some_head (List.ne_nil_of_length_pos (Nat.le_trans (rates h.key).positive full))]
    · rw [remember,if_neg (expected_none.not.mpr denied)]
      exact tracks.deny rfl rfl
  · next room =>
    have admitted := Nat.not_le.mp room
    constructor
    · exact (expected_none.mpr admitted).symm
    · rw [remember,if_pos (expected_none.mpr admitted)]
      exact tracks.allow admitted rfl rfl

theorem Tracks.hit (tracks : Tracks rates now history s) (ahead : now ≤ h.time) :
    answer rates s h = expected rates history h ∧ Tracks rates h.time (remember rates history h) (next rates s h) := by
  have counted : Tracks rates h.time history { s with calls := s.calls + 1 } :=
    let later := tracks.later ahead
    ⟨later.past,later.ordered,later.window,later.bucket,later.bounded⟩
  unfold answer next RateLimit.hit
  dsimp only
  split
  · exact counted.purge.record
  · exact counted.record

/-- What has been allowed after a sequence of hits. -/
def remembered (rates : String → Rate) (history hits : List Hit) : List Hit := hits.foldl (remember rates) history

/-- The hits come after the time, one after the other. -/
def From (now : ℚ) (hits : List Hit) : Prop := Nondecreasing hits ∧ ∀ h ∈ hits, now ≤ h.time

theorem From.cons (ahead : From now (h :: hits)) : now ≤ h.time ∧ From h.time hits := by
  obtain ⟨least,ordered⟩ := List.pairwise_cons.mp ahead.1
  exact ⟨ahead.2 h List.mem_cons_self,ordered,least⟩

/-- The time after a sequence of hits. -/
def lastTime (now : ℚ) (hits : List Hit) : ℚ := hits.foldl (fun _ h => h.time) now

theorem Tracks.after (tracks : Tracks rates now history s) (ahead : From now hits) :
    Tracks rates (lastTime now hits) (remembered rates history hits) (after rates s hits) := by
  induction hits generalizing now history s with
  | nil => exact tracks
  | cons h rest induction =>
    obtain ⟨first,ahead⟩ := ahead.cons
    exact induction (tracks.hit first).2 ahead

theorem Tracks.allowed (tracks : Tracks rates now history s) (ahead : From now hits) :
    history ++ allowed rates s hits = remembered rates history hits := by
  induction hits generalizing now history s with
  | nil => exact List.append_nil history
  | cons h rest induction =>
    obtain ⟨first,ahead⟩ := ahead.cons
    obtain ⟨answered,kept⟩ := tracks.hit first
    rw [remembered,List.foldl_cons,← remembered,← induction kept ahead,RateLimit.allowed,answered,remember]
    split <;> simp

theorem Tracks.answers {other : InMemoryRateLimiter} (tracks : Tracks rates now history s)
    (alike : Tracks rates now history other) (ahead : From now hits) : answers rates s hits = answers rates other hits := by
  induction hits generalizing now history s other with
  | nil => rfl
  | cons h rest induction =>
    obtain ⟨first,ahead⟩ := ahead.cons
    obtain ⟨one,kept⟩ := tracks.hit first
    obtain ⟨two,same⟩ := alike.hit first
    rw [RateLimit.answers,RateLimit.answers,one,two,induction kept same ahead]

theorem remembered_times (others : ∀ h ∈ hits, h.key ≠ key) :
    times (remembered rates history hits) key = times history key := by
  induction hits generalizing history with
  | nil => rfl
  | cons h rest induction =>
    have here := others h List.mem_cons_self
    rw [remembered,List.foldl_cons,← remembered,induction fun other member => others other (List.mem_cons_of_mem h member)]
    unfold remember
    split
    · rw [times_append]
      simp [times,here]
    · rfl

/-- A denied hit is told to wait until the oldest hit in the window leaves it. -/
theorem expected_wait {wait later : ℤ} (tracks : Tracks rates h.time history s) (told : expected rates history h = some wait)
    (positive : 1 ≤ later) : (recent rates history h.key (h.time + later)).length < (rates h.key).count ↔ wait ≤ later := by
  have full : ¬(recent rates history h.key h.time).length < (rates h.key).count := by
    intro room
    rw [expected_none.mpr room] at told
    cases told
  have exact : (recent rates history h.key h.time).length = (rates h.key).count :=
    Nat.le_antisymm (tracks.bounded h.key) (Nat.not_lt.mp full)
  have ordered : (recent rates history h.key h.time).Pairwise (· ≤ ·) := (tracks.times_ordered h.key).filter _
  have narrower : recent rates history h.key (h.time + later) =
      (recent rates history h.key h.time).filter fun time => h.time + later - (rates h.key).windowSeconds < time := by
    have ahead : (1 : ℚ) ≤ later := by exact_mod_cast positive
    rw [recent,recent,List.filter_filter]
    apply List.filter_congr
    intro time _
    by_cases inside : h.time + later - (rates h.key).windowSeconds < time
    · have still : h.time - (rates h.key).windowSeconds < time := by linarith
      simp [inside,still]
    · simp [inside]
  rw [expected,if_neg full,Option.some.injEq] at told
  rw [narrower,← exact,List.length_filter_lt_length_iff_exists,← told]
  cases window : recent rates history h.key h.time with
  | nil =>
    rw [window,List.length_nil] at exact
    exact absurd (rates h.key).positive (by omega)
  | cons oldest rest =>
    rw [window] at ordered
    have leaves : (∃ time ∈ oldest :: rest, time ≤ h.time + later - (rates h.key).windowSeconds) ↔
        oldest ≤ h.time + later - (rates h.key).windowSeconds := Queue.exists_le_iff_head ordered
    simp only [decide_eq_true_eq,not_lt,leaves,List.head?_cons,Option.getD_some]
    constructor
    · intro gone
      refine max_le positive (Int.ceil_le.mpr ?_)
      linarith
    · intro waited
      have ceiling := Int.ceil_le.mp (le_trans (le_max_right _ _) waited)
      linarith

theorem lastTime_le (ahead : now ≤ t) (past : ∀ h ∈ hits, h.time ≤ t) : lastTime now hits ≤ t := by
  induction hits generalizing now with
  | nil => exact ahead
  | cons h rest induction =>
    exact induction (past h List.mem_cons_self) fun other member => past other (List.mem_cons_of_mem h member)

theorem tracks_after (ordered : Nondecreasing hits) (past : ∀ h ∈ hits, h.time ≤ t) :
    Tracks rates t (allowed rates .init hits) (after rates .init hits) := by
  cases hits with
  | nil => exact .init
  | cons h rest =>
    have ahead : From h.time (h :: rest) := by
      refine ⟨ordered,fun other member => ?_⟩
      rcases List.mem_cons.mp member with rfl | later
      · exact le_rfl
      · exact (List.pairwise_cons.mp ordered).1 other later
    have start : Tracks rates h.time [] .init := .init
    have tracks := start.after ahead
    rw [← start.allowed ahead,List.nil_append] at tracks
    exact tracks.later (lastTime_le (past h List.mem_cons_self) past)

theorem inWindow_length (past : ∀ other ∈ history, other.time ≤ h.time) :
    (inWindow rates history h).length = (recent rates history h.key h.time).length := by
  rw [recent,times,List.filter_map,List.length_map,List.filter_filter,inWindow]
  congr 1
  apply List.filter_congr
  intro other member
  simp [past other member,Bool.and_comm]

theorem retry_after {wait later : ℤ} {between : List Hit} (tracks : Tracks rates h.time history s)
    (told : answer rates s h = some wait) (positive : 1 ≤ later) (others : ∀ other ∈ between, other.key ≠ h.key)
    (ordered : Nondecreasing (h :: between ++ [⟨h.key,h.time + later⟩])) :
    answer rates (after rates s (h :: between)) ⟨h.key,h.time + later⟩ = none ↔ wait ≤ later := by
  obtain ⟨answered,kept⟩ := tracks.hit le_rfl
  rw [told] at answered
  have denied : remember rates history h = history := by simp [remember,← answered]
  rw [denied] at kept
  obtain ⟨inside,_,before⟩ := List.pairwise_append.mp ordered
  obtain ⟨least,apart⟩ := List.pairwise_cons.mp inside
  have moved := kept.after ⟨apart,least⟩
  have reached : lastTime h.time between ≤ h.time + later :=
    lastTime_le (before h List.mem_cons_self _ (List.mem_singleton_self _)) fun other member =>
      before other (List.mem_cons_of_mem h member) _ (List.mem_singleton_self _)
  have last : answer rates (after rates s (h :: between)) ⟨h.key,h.time + later⟩ = _ := (moved.hit reached).1
  rw [last,expected_none]
  simp only [recent,remembered_times others]
  exact expected_wait tracks answered.symm positive

/-- A hit is allowed while fewer than `count` allowed hits are in its window; a denied one is told the least wait; and a purge
changes no later answer. -/
theorem sliding_window (rates : String → Rate) (hits : List Hit) (h : Hit) (ordered : Nondecreasing (hits ++ [h])) :
    (answer rates (after rates .init hits) h = none ↔
        (inWindow rates (allowed rates .init hits) h).length < (rates h.key).count) ∧
      (∀ wait, answer rates (after rates .init hits) h = some wait → 1 ≤ wait ∧
        ∀ (later : ℤ) (between : List Hit), 1 ≤ later → (∀ other ∈ between, other.key ≠ h.key) →
          Nondecreasing (h :: between ++ [⟨h.key,h.time + later⟩]) →
            (answer rates (after rates .init (hits ++ h :: between)) ⟨h.key,h.time + later⟩ = none ↔ wait ≤ later)) ∧
      ∀ (now : ℚ) (later : List Hit), (∀ other ∈ hits, other.time ≤ now) → Nondecreasing later →
        (∀ other ∈ later, now ≤ other.time) →
          answers rates (purge (after rates .init hits) now) later = answers rates (after rates .init hits) later := by
  obtain ⟨earlier,_,before⟩ := List.pairwise_append.mp ordered
  have past : ∀ other ∈ hits, other.time ≤ h.time := fun other member => before other member h (List.mem_singleton_self h)
  have tracks : Tracks rates h.time _ _ := tracks_after earlier past
  refine ⟨?_,fun wait told => ⟨?_,fun later between positive others order => ?_⟩,fun now later old order new => ?_⟩
  · rw [(tracks.hit le_rfl).1,expected_none,inWindow_length tracks.past]
  · rw [(tracks.hit le_rfl).1,expected] at told
    split at told
    · cases told
    · rw [← Option.some.inj told]
      exact le_max_left _ _
  · rw [after,List.foldl_append,← after,← after]
    exact retry_after tracks told positive others order
  · have held : Tracks rates now _ _ := tracks_after earlier old
    exact held.purge.answers held ⟨order,new⟩

def minutely : String → Rate := fun _ => ⟨1,60,le_rfl⟩

/-- One hit a minute: the second is told to wait the thirty seconds that are left. -/
theorem sliding_window_minutely : answer minutely (after minutely .init [⟨"a",0⟩]) ⟨"a",30⟩ = some 30 ∧
    (answer minutely (after minutely .init ([⟨"a",0⟩] ++ ⟨"a",30⟩ :: [⟨"b",40⟩])) ⟨"a",30 + (30 : ℤ)⟩ = none ↔ (30 : ℤ) ≤ 30) := by
  have ordered : Nondecreasing ([⟨"a",0⟩] ++ [⟨"a",30⟩]) := by simp [Nondecreasing]
  have told : answer minutely (after minutely .init [⟨"a",0⟩]) ⟨"a",30⟩ = some 30 := by decide +kernel
  refine ⟨told,((sliding_window minutely _ _ ordered).2.1 30 told).2 30 _ (by simp) (by simp) ?_⟩
  simp [Nondecreasing]
  norm_num

end RateLimit
