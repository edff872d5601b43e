import SasBackend.Semantics.DocumentNumbers

/-! The committed numbers of a business, prefix and local day are 1 to n.
A draw continues the range of its counter in the view of its transaction; counters that two transactions changed
differ, so a commit continues the committed range and leaves everyone else's alone.
-/
namespace DocumentNumbers
open Digits Histories Overlay Transition

variable {env : Environment} {s after : State env} {t : Nat} {history : List Work} {work other : Work}
  {counters : CounterKey → Option Nat} {issued : List Drawn} {counter : CounterKey} {drawn : Drawn}

theorem key_injective : Function.Injective Date.key := by
  intro first second same
  have digits := String.ofList_injective same
  obtain ⟨years,rest⟩ := List.append_inj digits (by
    rw [length_padded (by omega) first.year_four.2,length_padded (by omega) second.year_four.2])
  obtain ⟨months,days⟩ := List.append_inj rest (by
    rw [length_padded (by omega) first.month_two,length_padded (by omega) second.month_two])
  cases first
  cases second
  simp only [Date.mk.injEq]
  exact ⟨padded_injective 4 years,padded_injective 2 months,padded_injective 2 days⟩

theorem number_injective (documentPrefix dateKey : String) :
    Function.Injective fun sequence : Nat =>
      documentPrefix ++ "-" ++ dateKey ++ "-" ++ String.ofList (padded 4 sequence) := by
  intro first second same
  have digits := congrArg String.toList same
  simp only [String.toList_append,List.append_cancel_left_eq,String.toList_ofList] at digits
  exact padded_injective 4 digits

/-- The sequences drawn from a counter. -/
def sequences (counter : CounterKey) (drawn : List Drawn) : List Nat :=
  (drawn.filter (·.counter = counter)).map Drawn.sequence

theorem sequences_append (counter : CounterKey) (first second : List Drawn) :
    sequences counter (first ++ second) = sequences counter first ++ sequences counter second := by
  simp [sequences]

theorem sequences_eq_nil (absent : ∀ drawn ∈ issued, drawn.counter ≠ counter) : sequences counter issued = [] := by
  simpa [sequences] using absent

/-- The day of the counter is the local day of the business at the moment of the draw. -/
def Drawn.Dated (env : Environment) (drawn : Drawn) : Prop :=
  drawn.counter.dateKey = (env.localDate (env.zoneOf drawn.counter.businessId) drawn.moment).key

/-- In the view of the transaction every counter has counted its draws. -/
structure Sound (env : Environment) (counters : CounterKey → Option Nat) (issued : List Drawn) (work : Work) : Prop where
  counted : ∀ counter, sequences counter (issued ++ work.drawn) =
    List.range' 1 ((overlaid counters work.counters counter).getD 0)
  touched : ∀ drawn ∈ work.drawn, work.counters drawn.counter ≠ none
  dated : ∀ drawn ∈ work.drawn, drawn.Dated env

def Alone (work other : Work) : Prop := Apart work.counters other.counters

theorem alone_symm (work other : Work) (alone : Alone work other) : Alone other work := Apart.symm alone

theorem alone_empty (other : Work) : Alone .empty other := (apart_untouched _).symm

theorem Sound.untouched (sound : Sound env counters issued work) (free : work.counters counter = none) :
    sequences counter work.drawn = [] := by
  apply sequences_eq_nil
  intro drawn member same
  exact sound.touched drawn member (same ▸ free)

theorem upsert_some {last : Option Nat} {sequence : Nat} (drew : upsert last = some sequence) :
    sequence = last.getD 0 + 1 := by
  simp only [upsert,Option.ite_none_right_eq_some,Option.some.injEq] at drew
  rw [← drew.2]
  cases last <;> rfl

theorem Sound.draw (sound : Sound env counters issued work) {sequence : Nat}
    (drew : upsert (overlaid counters work.counters drawn.counter) = some drawn.sequence) (dated : drawn.Dated env)
    (same : sequence = drawn.sequence) : Sound env counters issued
      ⟨Overlay.set work.counters drawn.counter (some sequence),work.drawn ++ [drawn]⟩ := by
  subst same
  refine ⟨?_,?_,?_⟩
  · intro counter
    rw [← List.append_assoc,sequences_append,sound.counted counter,overlaid_set]
    by_cases here : counter = drawn.counter
    · subst here
      have next_one := upsert_some drew
      rw [Function.update_self,next_one,Option.getD_some,List.range'_1_concat]
      simp [sequences,next_one,Nat.add_comm]
    · simp [sequences,Function.update_of_ne here,Ne.symm here]
  · intro each member
    rcases List.mem_append.mp member with old | new
    · by_cases here : each.counter = drawn.counter
      · simp [Overlay.set,here]
      · simpa [Overlay.set,Function.update_of_ne here] using sound.touched each old
    · simp [List.mem_singleton.mp new,Overlay.set]
  · intro each member
    rcases List.mem_append.mp member with old | new
    · exact sound.dated each old
    · exact List.mem_singleton.mp new ▸ dated

theorem Sound.commit (sound : Sound env counters issued work) (finished : Sound env counters issued other)
    (alone : Alone work other) : Sound env (overlaid counters other.counters) (issued ++ other.drawn) work := by
  refine ⟨?_,sound.touched,sound.dated⟩
  intro counter
  have mine := sound.counted counter
  have theirs := finished.counted counter
  simp only [sequences_append] at mine theirs ⊢
  rcases alone counter with free | free
  · simp only [sound.untouched free,List.append_nil,theirs]
    simp [overlaid,free]
  · simp only [finished.untouched free,List.append_nil,mine]
    simp [overlaid,free]

theorem Sound.committed (sound : Sound env counters issued work) :
    Sound env (overlaid counters work.counters) (issued ++ work.drawn) .empty := by
  refine ⟨?_,by simp [Work.empty],by simp [Work.empty]⟩
  intro counter
  simpa [Work.empty] using sound.counted counter

structure Invariant (s : State env) : Prop where
  zones : ∀ worker businessId entry, s.caches worker businessId = some entry → entry.2 = env.zoneOf businessId
  dated : ∀ drawn ∈ s.issued, drawn.Dated env
  committed : Sound env s.counters s.issued .empty
  open_ : Kept (Sound env s.counters s.issued) Alone s.transactions

theorem Invariant.zone (holds : Invariant s) (worker monotonic businessId : Nat) :
    (getBusinessTz env (s.caches worker businessId) monotonic businessId).2 = env.zoneOf businessId := by
  unfold getBusinessTz
  split
  next expires zone found =>
    split
    · exact holds.zones worker businessId (expires,zone) found
    · rfl
  next => rfl

theorem Invariant.cache (holds : Invariant s) {worker businessId : Nat} {entry : Nat × env.Zone}
    (zone : entry.2 = env.zoneOf businessId) : Invariant (s.cache worker businessId entry) := by
  refine ⟨?_,holds.dated,holds.committed,holds.open_⟩
  intro other business found there
  by_cases here : other = worker
  · subst here
    by_cases same : business = businessId
    · subst same
      simp only [State.cache,Function.update_self,Option.some.injEq] at there
      exact there ▸ zone
    · simp only [State.cache,Function.update_self,Function.update_of_ne same] at there
      exact holds.zones other business found there
  · simp only [State.cache,Function.update_of_ne here] at there
    exact holds.zones other business found there

theorem Invariant.forget (holds : Invariant s) (worker businessId : Nat) : Invariant
    { s with caches := Function.update s.caches worker (Function.update (s.caches worker) businessId none) } := by
  refine ⟨?_,holds.dated,holds.committed,holds.open_⟩
  intro other business found there
  by_cases here : other = worker
  · subst here
    by_cases same : business = businessId
    · simp [same] at there
    · simp only [Function.update_self,Function.update_of_ne same] at there
      exact holds.zones other business found there
  · simp only [Function.update_of_ne here] at there
    exact holds.zones other business found there

theorem Invariant.put (holds : Invariant s)
    (new : Fits (Sound env s.counters s.issued) Alone s.transactions t history) : Invariant (s.put t history) :=
  ⟨holds.zones,holds.dated,holds.committed,holds.open_.set alone_symm new⟩

theorem Invariant.draw (holds : Invariant s) (there : s.transactions[t]? = some history)
    (drew : upsert (overlaid s.counters (now .empty history).counters drawn.counter) = some drawn.sequence)
    (dated : drawn.Dated env)
    (granted : free s.transactions t (fun work => (work.counters drawn.counter).isSome) = true) :
    Invariant (s.put t (⟨Overlay.set (now .empty history).counters drawn.counter (some drawn.sequence),
      (now .empty history).drawn ++ [drawn]⟩ :: history)) := by
  apply holds.put
  apply (holds.open_.fits there).push
  · exact (holds.open_.now there holds.committed).draw drew dated rfl
  · intro u others beside different other member
    have alone := holds.open_.now_apart there beside different alone_empty other member
    have unlocked := others_free granted beside different other member
    exact Apart.set alone (by simpa using unlocked) _

theorem Invariant.commit (holds : Invariant s) (there : s.transactions[t]? = some history) :
    Invariant { s.put t [] with
      counters := overlaid s.counters (now .empty history).counters
      issued := s.issued ++ (now .empty history).drawn } := by
  have sound := holds.open_.now there holds.committed
  have emptied := holds.put (t := t) .nil
  refine ⟨holds.zones,?_,sound.committed,emptied.open_.imp ?_⟩
  · intro each member
    rcases List.mem_append.mp member with old | new
    · exact holds.dated each old
    · exact sound.dated each new
  · intro u others beside work member kept
    rcases set_cases beside with ⟨rfl,rfl⟩ | ⟨different,beside⟩
    · simp at member
    · have alone := holds.open_.now_apart there beside (Ne.symm different) alone_empty work member
      exact kept.commit sound (alone_symm _ _ alone)

theorem Invariant.step {a : Action} (holds : Invariant s) (taken : next env s a = some after) : Invariant after := by
  cases a with
  | begin_ =>
    cases taken
    exact ⟨holds.zones,holds.dated,holds.committed,holds.open_.append⟩
  | draw t worker monotonic businessId documentPrefix moment =>
    simp only [next,Option.bind_eq_bind,Option.bind_eq_some_iff,Option.ite_none_right_eq_some,Option.some.injEq] at taken
    obtain ⟨history,there,_,_,sequence,drew,granted,rfl⟩ := taken
    have zone := holds.zone worker monotonic businessId
    have dated : Drawn.Dated env ⟨⟨businessId,documentPrefix,localDateKey env
        (getBusinessTz env (s.caches worker businessId) monotonic businessId).2 moment⟩,moment,sequence⟩ := by
      rw [zone]
      rfl
    exact (holds.draw there drew dated granted).cache zone
  | today worker monotonic businessId =>
    cases taken
    exact holds.cache (holds.zone worker monotonic businessId)
  | forget worker businessId =>
    cases taken
    exact holds.forget worker businessId
  | rollback t statements =>
    simp only [next,Option.bind_eq_bind,Option.bind_eq_some_iff,Option.some.injEq] at taken
    obtain ⟨history,there,rfl⟩ := taken
    exact holds.put ((holds.open_.fits there).sub fun work inside => List.mem_of_mem_drop inside)
  | commit t =>
    simp only [next,Option.bind_eq_bind,Option.bind_eq_some_iff,Option.some.injEq] at taken
    obtain ⟨history,there,rfl⟩ := taken
    exact holds.commit there

theorem Initial.invariant (initial : Initial s) : Invariant s := by
  obtain ⟨bare,unissued,none_open,uncached⟩ := initial
  refine ⟨by simp [uncached],by simp [unissued],?_,none_open ▸ .nil⟩
  exact ⟨by simp [Work.empty,unissued,bare,sequences],by simp [Work.empty],by simp [Work.empty]⟩

theorem Invariant.issuedOn_eq (holds : Invariant s) (businessId : Nat) (documentPrefix : String) (day : Date) :
    issuedOn s businessId documentPrefix day = s.issued.filter (·.counter = ⟨businessId,documentPrefix,day.key⟩) := by
  unfold issuedOn
  apply List.filter_congr
  intro drawn member
  have dated := holds.dated drawn member
  obtain ⟨⟨business,code,dateKey⟩,moment,sequence⟩ := drawn
  simp only [Drawn.Dated] at dated
  by_cases same : business = businessId
  · subst same
    rw [Bool.eq_iff_iff]
    simp [dated,key_injective.eq_iff]
  · simp [same]

/-- The committed numbers of a business, prefix and local day are 1 to n in the order of the commits, and their texts
differ. -/
theorem document_numbers_gapless (env : Environment) (s : State env) (reached : Reachable Initial (OfNext (next env)) s)
    (businessId : Nat) (documentPrefix : String) (day : Date) :
    (∃ n, (issuedOn s businessId documentPrefix day).map Drawn.sequence = List.range' 1 n) ∧
      ((issuedOn s businessId documentPrefix day).map Drawn.number).Nodup := by
  have holds : Invariant s := reached.invariant (fun s initial => initial.invariant) fun s a t kept taken => kept.step taken
  rw [holds.issuedOn_eq]
  have counted := holds.committed.counted ⟨businessId,documentPrefix,day.key⟩
  simp only [sequences,Work.empty,List.append_nil,overlaid_untouched] at counted
  refine ⟨⟨_,counted⟩,?_⟩
  have texts : (s.issued.filter (·.counter = ⟨businessId,documentPrefix,day.key⟩)).map Drawn.number =
      ((s.issued.filter (·.counter = ⟨businessId,documentPrefix,day.key⟩)).map Drawn.sequence).map fun sequence =>
        documentPrefix ++ "-" ++ day.key ++ "-" ++ String.ofList (padded 4 sequence) := by
    rw [List.map_map]
    apply List.map_congr_left
    intro drawn member
    have counter : drawn.counter = ⟨businessId,documentPrefix,day.key⟩ := by simpa using (List.mem_filter.mp member).2
    simp [Drawn.number,counter]
  rw [texts,counted]
  exact (List.nodup_range' 1).map (number_injective documentPrefix day.key)

/-- January 2026 in a zone five hours ahead; moments are hours. -/
def january : Environment where
  Zone := Nat
  zoneInfo name := if name = defaultTimezone then some 5 else none
  defaultZone := 5
  localDate zone now := ⟨2026,1,1 + (now + zone) / 24 % 31,by omega,by omega,by omega⟩
  timezone businessId := if businessId = 0 then some defaultTimezone else none

def januaryDay (day : Fin 31) : Date := ⟨2026,1,day + 1,by omega,by omega,by omega⟩

def freshCounters : State january := ⟨fun _ => none,[],[],fun _ _ => none⟩

/-- The first draw of a day rolls back and is drawn again, the next transaction goes on, and then over midnight. -/
def drawsOverMidnight : List Action :=
  [.begin_,.begin_,.draw 0 0 10 0 "INV" 1,.rollback 0 1,.draw 1 1 11 0 "INV" 2,.rollback 1 1,.draw 0 0 12 0 "INV" 3,
    .commit 0,.draw 1 1 400000 0 "INV" 18,.draw 1 1 400001 0 "INV" 19,.commit 1]

theorem document_numbers_gapless_midnight : ∃ s : State january, Reachable Initial (OfNext (next january)) s ∧
    (∃ n, (issuedOn s 0 "INV" (januaryDay 0)).map Drawn.sequence = List.range' 1 n) ∧
    (issuedOn s 0 "INV" (januaryDay 0)).map Drawn.number = ["INV-20260101-0001","INV-20260101-0002"] ∧
    (issuedOn s 0 "INV" (januaryDay 1)).map Drawn.number = ["INV-20260102-0001"] := by
  have initial : Initial freshCounters := ⟨fun _ => rfl,rfl,rfl,fun _ _ => rfl⟩
  obtain ⟨s,reached,numbers⟩ := reachable_of_execute (next january)
    (fun s : State january => ((issuedOn s 0 "INV" (januaryDay 0)).map Drawn.number,
      (issuedOn s 0 "INV" (januaryDay 1)).map Drawn.number)) drawsOverMidnight initial
    (show _ = some (["INV-20260101-0001","INV-20260101-0002"],["INV-20260102-0001"]) by decide +kernel)
  simp only [Prod.mk.injEq] at numbers
  exact ⟨s,reached,(document_numbers_gapless january s reached 0 "INV" (januaryDay 0)).1,numbers.1,numbers.2⟩

end DocumentNumbers
