import Mathlib.Algebra.Group.Submonoid.BigOperators
import SasBackend.Library.Outcome
import SasBackend.Semantics.JournalEntries

/-! A posted entry is balanced and stays as it is while the status that an update or a deletion checks is still stored at its write.
The post validates the lines under the lock it holds to its commit.
-/
namespace JournalEntries
open RowLocks Transition
open Outcome (refuseIf_ok)

variable {s t : State} {x : Transaction} {entry row later : JournalEntry} {u v : Nat}

structure Same (entry later : JournalEntry) : Prop where
  lines : later.lines = entry.lines
  entryDate : later.entryDate = entry.entryDate
  description : later.description = entry.description
  deletedAt : later.deletedAt = entry.deletedAt

theorem Same.refl (entry : JournalEntry) : Same entry entry := ⟨rfl,rfl,rfl,rfl⟩

theorem Same.trans {last : JournalEntry} (first : Same entry row) (second : Same row last) : Same entry last :=
  ⟨second.lines.trans first.lines,second.entryDate.trans first.entryDate,
    second.description.trans first.description,second.deletedAt.trans first.deletedAt⟩

def InCents (entry : JournalEntry) : Prop :=
  ∀ line ∈ entry.lines, line.debitAmount ∈ Decimal.grid 2 ∧ line.creditAmount ∈ Decimal.grid 2

theorem newLines_inCents (ids : Nat → Nat) (lines : List JournalLineInput) :
    ∀ line ∈ newLines ids lines, line.debitAmount ∈ Decimal.grid 2 ∧ line.creditAmount ∈ Decimal.grid 2 := by
  intro line member
  obtain ⟨index,inside,rfl⟩ := List.mem_mapIdx.mp member
  exact ⟨Decimal.quantize_mem_grid _ _,Decimal.quantize_mem_grid _ _⟩

theorem totals_inCents (cents : InCents entry) :
    (lineTotals entry.lines).1 ∈ Decimal.grid 2 ∧ (lineTotals entry.lines).2 ∈ Decimal.grid 2 := by
  constructor <;> apply list_sum_mem <;> intro amount member <;>
    obtain ⟨line,inside,rfl⟩ := List.mem_map.mp member
  · exact (cents line inside).1
  · exact (cents line inside).2

theorem assertDraft_ok {action : String} {done : Unit} (passed : assertDraft entry action = .ok done) :
    entry.status = .draft := by
  simpa [assertDraft,refuseIf_ok] using passed

theorem assertBalanced_ok {done : Unit} (passed : assertBalancedForPost entry.lines = .ok done) (cents : InCents entry) :
    Balanced entry := by
  obtain ⟨_,enough,equal⟩ := Outcome.bind_ok_iff.mp passed
  have two := refuseIf_ok.mp enough
  have same := refuseIf_ok.mp equal
  obtain ⟨debit,credit⟩ := totals_inCents cents
  simp only [decide_eq_false_iff_not,not_not] at same
  simp only [decide_eq_false_iff_not,not_lt] at two
  refine ⟨two,?_⟩
  calc (lineTotals entry.lines).1 = Decimal.halfEven 2 (lineTotals entry.lines).1 :=
        (Decimal.halfEven_of_mem_grid debit).symm
    _ = Decimal.halfEven 2 (lineTotals entry.lines).2 := same
    _ = (lineTotals entry.lines).2 := Decimal.halfEven_of_mem_grid credit

theorem getJournalEntryRow_ok {entries : List JournalEntry} {entryId businessId : Nat}
    (found : getJournalEntryRow entries entryId businessId = .ok entry) :
    entries[entryId]? = some entry ∧ entry.deletedAt = none := by
  unfold getJournalEntryRow at found
  split at found
  · next kept =>
    cases found
    obtain ⟨there,passed⟩ := Option.filter_eq_some_iff.mp kept
    simp only [Bool.and_eq_true,Option.isNone_iff_eq_none] at passed
    exact ⟨there,passed.2⟩
  · cases found

theorem change_status (now : Int) (loaded entry : JournalEntry) {request : Request} (notPost : request ≠ .post) :
    (request.change now loaded entry).status = entry.status := by
  cases request with
  | update data => rfl
  | delete => rfl
  | post => exact absurd rfl notPost

theorem change_inCents (now : Int) (loaded : JournalEntry) (request : Request) (cents : InCents entry) :
    InCents (request.change now loaded entry) := by
  cases request <;> exact cents

theorem change_same (now : Int) (loaded entry : JournalEntry) {request : Request} (quiet : request.alters = false) :
    Same entry (request.change now loaded entry) := by
  cases request with
  | update data =>
    simp only [Request.alters,Bool.or_eq_false_iff,Option.isSome_eq_false_iff,Option.isNone_iff_eq_none] at quiet
    obtain ⟨⟨_,date⟩,text⟩ := quiet
    exact ⟨rfl,by simp [Request.change,UpdateJournalEntryRequest.change,date],
      by simp [Request.change,UpdateJournalEntryRequest.change,text],rfl⟩
  | delete => cases quiet
  | post => exact ⟨rfl,rfl,rfl,rfl⟩

theorem lock_cases {id : Nat} {mode : Option Mode} (locked : s.lock v id mode = some t) :
    t.entries = s.entries ∧ t.transactions = s.transactions ∧ (Compatible s.locks → Compatible t.locks) ∧
      ∀ u entryId, Owns t.locks u entryId ↔ Owns s.locks u entryId ∨ u = v ∧ entryId = id ∧ mode.any Mode.exclusive = true := by
  cases mode with
  | none =>
    cases locked
    simp
  | some mode =>
    simp only [State.lock,Option.ite_none_right_eq_some,Option.some.injEq] at locked
    obtain ⟨granted,rfl⟩ := locked
    exact ⟨rfl,rfl,fun compatible => compatible.acquire _ _ _,fun u entryId => owns_acquire granted⟩

/-- A post under way: its row is as it was locked, and once the lines are read they are validated. -/
structure Posting (x : Transaction) (entry : JournalEntry) : Prop where
  status : x.loaded.status = entry.status
  standing : entry.deletedAt = none
  validated : .readLines ∈ x.todo ∨ entry.status = .draft ∧ Balanced entry

structure Sound (entries : List JournalEntry) (owns : Prop) (x : Transaction) : Prop where
  there : ∃ entry, entries[x.call.entryId]? = some entry
  cents : ∀ entry, InCents entry → InCents (x.own entry)
  status : x.call.request ≠ .post → ∀ entry, (x.own entry).status = entry.status
  same : x.call.request.alters = false → ∀ entry, Same entry (x.own entry)
  quiet : x.call.request.alters = false → .deleteLines ∉ x.todo ∧ .insertLines ∉ x.todo
  locked : owns ∨ .updateEntry ∈ x.todo
  drafted : x.call.request.alters = true → x.loaded.status = .draft
  guarded : owns → x.call.request.alters = true → ∀ entry, entries[x.call.entryId]? = some entry → entry.status ≠ .posted
  posting : x.call.request = .post → owns ∧ ∀ entry, entries[x.call.entryId]? = some entry → Posting x entry

structure Invariant (s : State) : Prop where
  compatible : Compatible s.locks
  posted : ∀ entry ∈ s.entries, entry.status = .posted → Balanced entry ∧ entry.deletedAt = none
  cents : ∀ entry ∈ s.entries, InCents entry
  sound : ∀ u x, s.transactions u = some x → Sound s.entries (Owns s.locks u x.call.entryId) x

theorem Sound.frame {entries others : List JournalEntry} {owns held : Prop} (sound : Sound entries owns x)
    (locks : held ↔ owns) (there : ∃ entry, others[x.call.entryId]? = some entry)
    (rows : owns → others[x.call.entryId]? = entries[x.call.entryId]?) : Sound others held x := by
  refine ⟨there,sound.cents,sound.status,sound.same,sound.quiet,?_,sound.drafted,?_,?_⟩
  · rw [locks]
    exact sound.locked
  · intro mine alters entry found
    rw [rows (locks.mp mine)] at found
    exact sound.guarded (locks.mp mine) alters entry found
  · intro post
    obtain ⟨mine,posting⟩ := sound.posting post
    rw [rows mine]
    exact ⟨locks.mpr mine,posting⟩

theorem Invariant.put (holds : Invariant s) (entries : t.entries = s.entries) (transactions : t.transactions = s.transactions)
    (compatible : Compatible t.locks) (others : ∀ w entryId, w ≠ u → (Owns t.locks w entryId ↔ Owns s.locks w entryId))
    (sound : Sound s.entries (Owns t.locks u x.call.entryId) x) : Invariant (t.put u x) := by
  refine ⟨compatible,?_,?_,fun w y found => ?_⟩
  · simpa [State.put,entries] using holds.posted
  · simpa [State.put,entries] using holds.cents
  · by_cases mine : w = u
    · subst mine
      simp only [State.put,Function.update_self,Option.some.injEq] at found
      subst found
      simpa [State.put,entries] using sound
    · simp only [State.put,Function.update_of_ne mine,transactions] at found
      have kept := holds.sound w y found
      simp only [State.put,entries]
      exact kept.frame (others w _ mine) kept.there fun _ => rfl

theorem start_sound {entries : List JournalEntry} {call : Call} {owns : Prop} (started : start entries call = .ok x)
    (posts : call.request = .post → owns) : x.call = call ∧ Sound entries owns x := by
  obtain ⟨entry,got,rest⟩ := Outcome.bind_ok_iff.mp started
  obtain ⟨there,standing⟩ := getJournalEntryRow_ok got
  have row : ∀ other, entries[call.entryId]? = some other → other = entry := by
    intro other found
    exact Option.some.inj (found.symm.trans there)
  split at rest
  · next data update =>
    obtain ⟨_,draft,done⟩ := Outcome.bind_ok_iff.mp rest
    cases done
    refine ⟨rfl,⟨entry,there⟩,fun _ cents => cents,fun _ _ => rfl,fun _ entry => .refl entry,?_,?_,?_,?_,?_⟩
    · intro quiet
      simp only [update,Request.alters,Bool.or_eq_false_iff] at quiet
      simp [updateStatements,quiet.1.1]
    · exact .inr (by simp [updateStatements])
    · exact fun _ => assertDraft_ok draft
    · intro _ _ other found
      rw [row other found,assertDraft_ok draft]
      simp
    · simp [update]
  · next delete =>
    obtain ⟨_,draft,done⟩ := Outcome.bind_ok_iff.mp rest
    cases done
    refine ⟨rfl,⟨entry,there⟩,fun _ cents => cents,fun _ _ => rfl,fun _ entry => .refl entry,?_,?_,?_,?_,?_⟩
    · simp [delete,Request.alters]
    · exact .inr (by simp)
    · exact fun _ => assertDraft_ok draft
    · intro _ _ other found
      rw [row other found,assertDraft_ok draft]
      simp
    · simp [delete]
  · next post =>
    cases rest
    refine ⟨rfl,⟨entry,there⟩,fun _ cents => cents,fun _ _ => rfl,fun _ entry => .refl entry,?_,?_,?_,?_,?_⟩
    · simp
    · exact .inr (by simp)
    · simp [post,Request.alters]
    · simp [post,Request.alters]
    · intro _
      refine ⟨posts post,fun other found => ?_⟩
      rw [row other found]
      exact ⟨rfl,standing,.inl (by simp)⟩

theorem perform_call {around : Surroundings} {statement : Statement} {y : Transaction}
    (done : perform row around x statement = .ok y) : y.call = x.call ∧ y.todo = x.todo := by
  cases statement with
  | readLines =>
    obtain ⟨_,_,rest⟩ := Outcome.bind_ok_iff.mp done
    obtain ⟨_,_,rest⟩ := Outcome.bind_ok_iff.mp rest
    cases rest
    exact ⟨rfl,rfl⟩
  | validateAccounts | verifyBranch =>
    obtain ⟨_,_,rest⟩ := Outcome.bind_ok_iff.mp done
    cases rest
    exact ⟨rfl,rfl⟩
  | updateEntry | findLines | deleteLines | insertLines =>
    cases done
    exact ⟨rfl,rfl⟩

/-- The lines an update writes in place of the old ones. -/
def added (x : Transaction) : List JournalLine :=
  match x.call.request with
  | .update data => newLines x.call.ids (data.lines.getD [])
  | _ => []

theorem added_inCents : ∀ line ∈ added x, line.debitAmount ∈ Decimal.grid 2 ∧ line.creditAmount ∈ Decimal.grid 2 := by
  intro line member
  unfold added at member
  split at member
  · exact newLines_inCents _ _ line member
  · cases member

/-- What a statement does to the transaction's own writes. -/
theorem perform_own {around : Surroundings} {statement : Statement} {y : Transaction}
    (done : perform row around x statement = .ok y) :
    ∃ change : JournalEntry → JournalEntry, y.own = change ∘ x.own ∧ (∀ entry, InCents entry → InCents (change entry)) ∧
      (x.call.request ≠ .post → ∀ entry, (change entry).status = entry.status) ∧
      (x.call.request.alters = false → statement ≠ .deleteLines → statement ≠ .insertLines → ∀ entry, Same entry (change entry)) := by
  cases statement with
  | readLines =>
    obtain ⟨_,_,rest⟩ := Outcome.bind_ok_iff.mp done
    obtain ⟨_,_,rest⟩ := Outcome.bind_ok_iff.mp rest
    cases rest
    exact ⟨id,rfl,fun _ cents => cents,fun _ _ => rfl,fun _ _ _ entry => .refl entry⟩
  | validateAccounts | verifyBranch =>
    obtain ⟨_,_,rest⟩ := Outcome.bind_ok_iff.mp done
    cases rest
    exact ⟨id,rfl,fun _ cents => cents,fun _ _ => rfl,fun _ _ _ entry => .refl entry⟩
  | findLines =>
    cases done
    exact ⟨id,rfl,fun _ cents => cents,fun _ _ => rfl,fun _ _ _ entry => .refl entry⟩
  | updateEntry =>
    cases done
    exact ⟨x.call.request.change around.now x.loaded,rfl,fun entry => change_inCents _ _ _,
      fun notPost entry => change_status _ _ _ notPost,fun quiet _ _ entry => change_same _ _ _ quiet⟩
  | deleteLines =>
    cases done
    refine ⟨fun entry => { entry with lines := entry.lines.filter fun line => !x.found.contains line.id },rfl,?_,
      fun _ _ => rfl,fun _ absent => absurd rfl absent⟩
    intro entry cents line member
    exact cents line (List.mem_of_mem_filter member)
  | insertLines =>
    cases done
    refine ⟨fun entry => { entry with lines := entry.lines ++ added x },rfl,?_,fun _ _ => rfl,
      fun _ _ absent => absurd rfl absent⟩
    intro entry cents line member
    rcases List.mem_append.mp member with old | new
    · exact cents line old
    · exact added_inCents line new

theorem perform_loaded {around : Surroundings} {statement : Statement} {y : Transaction}
    (done : perform row around x statement = .ok y) : y.loaded.status = x.loaded.status := by
  cases statement with
  | readLines =>
    obtain ⟨_,_,rest⟩ := Outcome.bind_ok_iff.mp done
    obtain ⟨_,_,rest⟩ := Outcome.bind_ok_iff.mp rest
    cases rest
    rfl
  | validateAccounts | verifyBranch =>
    obtain ⟨_,_,rest⟩ := Outcome.bind_ok_iff.mp done
    cases rest
    rfl
  | updateEntry | findLines | deleteLines | insertLines =>
    cases done
    rfl

theorem readLines_ok {around : Surroundings} {y : Transaction} (done : perform row around x .readLines = .ok y)
    (cents : InCents row) : x.loaded.status = .draft ∧ Balanced row := by
  obtain ⟨_,draft,rest⟩ := Outcome.bind_ok_iff.mp done
  obtain ⟨_,balanced,_⟩ := Outcome.bind_ok_iff.mp rest
  exact ⟨assertDraft_ok draft,assertBalanced_ok balanced cents⟩

theorem Same.balanced (same : Same entry later) : Balanced later ↔ Balanced entry := by
  rw [Balanced,Balanced,same.lines]

theorem Posting.perform {around : Surroundings} {statement : Statement} {y : Transaction} {rest : List Statement}
    (posting : Posting x entry) (done : perform row around x statement = .ok y) (todo : x.todo = statement :: rest)
    (same : Same entry row) (cents : InCents entry) : Posting { y with todo := rest } entry := by
  refine ⟨(perform_loaded done).trans posting.status,posting.standing,?_⟩
  by_cases reads : statement = .readLines
  · subst reads
    have inside : InCents row := by
      intro line member
      exact cents line (same.lines ▸ member)
    obtain ⟨draft,balanced⟩ := readLines_ok done inside
    exact .inr ⟨posting.status.symm.trans draft,same.balanced.mp balanced⟩
  · rcases posting.validated with pending | validated
    · rw [todo] at pending
      exact .inl ((List.mem_cons.mp pending).resolve_left (Ne.symm reads))
    · exact .inr validated

theorem current_row {around : Surroundings} (allowed : current s (.execute u around) = true)
    (running : s.transactions u = some x) (head : x.todo.head? = some .updateEntry)
    (alters : x.call.request.alters = true) (there : s.entries[x.call.entryId]? = some entry) :
    entry.status = x.loaded.status := by
  simpa [current,running,head,alters,there] using allowed

theorem Invariant.execute {around : Surroundings} (holds : Invariant s) (allowed : current s (.execute u around) = true)
    (taken : next s (.execute u around) = some t) : Invariant t := by
  simp only [next,Option.bind_eq_bind,Option.bind_eq_some_iff,Outcome.toOption_eq_some,Option.some.injEq] at taken
  obtain ⟨x,running,statement,head,row,there,middle,locked,y,done,rfl⟩ := taken
  obtain ⟨rest,todo⟩ := List.head?_eq_some_iff.mp head
  obtain ⟨entries,transactions,compatible,owns⟩ := lock_cases locked
  obtain ⟨call,kept⟩ := perform_call done
  rw [todo] at kept
  obtain ⟨change,own,cents,status,same⟩ := perform_own done
  have sound := holds.sound u x running
  have inside : InCents row := holds.cents row (List.mem_of_getElem? there)
  have firm : statement.mode.any Mode.exclusive = true ↔ statement = .updateEntry := by
    cases statement <;> simp [Statement.mode,Mode.exclusive]
  have mine : Owns middle.locks u x.call.entryId ↔ Owns s.locks u x.call.entryId ∨ statement = .updateEntry := by
    rw [owns,firm]
    simp
  refine holds.put entries transactions (compatible holds.compatible) ?_ ?_
  · intro w entryId other
    rw [owns]
    simp [other]
  · simp only [call,kept,List.tail_cons]
    refine ⟨⟨row,there⟩,?_,?_,?_,?_,?_,fun alters => (perform_loaded done).trans (sound.drafted alters),?_,?_⟩
    · intro entry whole
      rw [own]
      exact cents _ (sound.cents entry whole)
    · intro notPost entry
      rw [own]
      exact (status notPost _).trans (sound.status notPost entry)
    · intro quiet entry
      obtain ⟨noDelete,noInsert⟩ := sound.quiet quiet
      have absent : statement ≠ .deleteLines ∧ statement ≠ .insertLines := by
        rw [todo] at noDelete noInsert
        grind
      rw [own]
      exact (sound.same quiet entry).trans (same quiet absent.1 absent.2 _)
    · intro quiet
      have none := sound.quiet quiet
      rw [todo] at none
      grind
    · rw [mine]
      have pending := sound.locked
      rw [todo] at pending
      grind
    · intro held alters entry found
      rcases mine.mp held with old | rfl
      · exact sound.guarded old alters entry found
      · rw [current_row allowed running head alters found,sound.drafted alters]
        simp
    · intro post
      obtain ⟨held,posting⟩ := sound.posting post
      refine ⟨mine.mpr (.inl held),fun entry found => ?_⟩
      cases there.symm.trans found
      have quiet : x.call.request.alters = false := by
        rw [post]
        rfl
      have after := (posting row there).perform done todo (sound.same quiet row) inside
      exact ⟨after.status,after.standing,after.validated⟩

theorem Invariant.start {call : Call} (holds : Invariant s) (taken : next s (.start u call) = some t) : Invariant t := by
  simp only [next,Option.bind_eq_bind,Option.bind_eq_some_iff,Option.ite_none_right_eq_some,Outcome.toOption_eq_some,
    Option.some.injEq] at taken
  obtain ⟨_,middle,locked,x,started,rfl⟩ := taken
  obtain ⟨entries,transactions,compatible,owns⟩ := lock_cases locked
  have posts : call.request = .post → Owns middle.locks u call.entryId := by
    intro post
    rw [owns,post]
    simp [Request.mode,Mode.exclusive]
  obtain ⟨called,sound⟩ := start_sound started posts
  refine holds.put entries transactions (compatible holds.compatible) ?_ ?_
  · intro w entryId other
    rw [owns]
    simp [other]
  · rw [called]
    exact sound

theorem createJournalEntry_ok {businessId : Nat} {data : CreateJournalEntryRequest} {ids : Nat → Nat}
    {around : Surroundings} (created : createJournalEntry businessId data ids around = .ok entry) :
    entry.status = .draft ∧ InCents entry := by
  obtain ⟨_,_,rest⟩ := Outcome.bind_ok_iff.mp created
  obtain ⟨_,_,rest⟩ := Outcome.bind_ok_iff.mp rest
  cases rest
  exact ⟨rfl,newLines_inCents _ _⟩

theorem Invariant.create {businessId : Nat} {data : CreateJournalEntryRequest} {ids : Nat → Nat} {around : Surroundings}
    (holds : Invariant s) (taken : next s (.create businessId data ids around) = some t) : Invariant t := by
  simp only [next,Option.map_eq_some_iff,Outcome.toOption_eq_some] at taken
  obtain ⟨entry,created,rfl⟩ := taken
  obtain ⟨draft,cents⟩ := createJournalEntry_ok created
  refine ⟨holds.compatible,?_,?_,fun w x found => ?_⟩
  · intro other member posted
    rcases List.mem_append.mp member with old | new
    · exact holds.posted other old posted
    · rw [List.mem_singleton.mp new,draft] at posted
      cases posted
  · intro other member
    rcases List.mem_append.mp member with old | new
    · exact holds.cents other old
    · exact List.mem_singleton.mp new ▸ cents
  · have sound := holds.sound w x found
    obtain ⟨row,there⟩ := sound.there
    have kept : (s.entries ++ [entry])[x.call.entryId]? = s.entries[x.call.entryId]? := by
      rw [List.getElem?_append_left (List.getElem?_eq_some_iff.mp there).1]
    exact sound.frame Iff.rfl ⟨row,kept.trans there⟩ fun _ => kept

theorem Invariant.finish {entries : List JournalEntry} (holds : Invariant s)
    (posted : ∀ entry ∈ entries, entry.status = .posted → Balanced entry ∧ entry.deletedAt = none)
    (cents : ∀ entry ∈ entries, InCents entry) (length : entries.length = s.entries.length)
    (rows : ∀ w, w ≠ u → ∀ entryId, Owns s.locks w entryId → entries[entryId]? = s.entries[entryId]?) :
    Invariant (s.finish u entries) := by
  refine ⟨holds.compatible.releaseAll u,posted,cents,fun w x found => ?_⟩
  by_cases mine : w = u
  · subst mine
    simp [State.finish] at found
  · simp only [State.finish,Function.update_of_ne mine] at found
    have sound := holds.sound w x found
    obtain ⟨row,there⟩ := sound.there
    have inside : x.call.entryId < entries.length := by
      rw [length]
      exact (List.getElem?_eq_some_iff.mp there).1
    exact sound.frame (owns_releaseAll mine) ⟨_,List.getElem?_eq_getElem inside⟩ (rows w mine _)

/-- The committed row: posted only when validated, and a posted one as it was. -/
theorem Sound.commit {entries : List JournalEntry} {owns : Prop} (sound : Sound entries owns x) (ended : x.todo = [])
    (there : entries[x.call.entryId]? = some row)
    (posted : row.status = .posted → Balanced row ∧ row.deletedAt = none) :
    ((x.own row).status = .posted → Balanced (x.own row) ∧ (x.own row).deletedAt = none) ∧
      (row.status = .posted → (x.own row).status = .posted ∧ Same row (x.own row)) := by
  have held : owns := by
    simpa [ended] using sound.locked
  by_cases alters : x.call.request.alters = true
  · have free := sound.guarded held alters row there
    have notPost : x.call.request ≠ .post := by
      intro post
      rw [post] at alters
      cases alters
    rw [sound.status notPost]
    exact ⟨fun fixed => absurd fixed free,fun fixed => absurd fixed free⟩
  · have same := sound.same (Bool.eq_false_iff.mpr alters) row
    by_cases post : x.call.request = .post
    · obtain ⟨_,standing,validated⟩ := (sound.posting post).2 row there
      obtain ⟨draft,balanced⟩ := validated.resolve_left (by simp [ended])
      refine ⟨fun _ => ⟨same.balanced.mpr balanced,same.deletedAt.trans standing⟩,fun fixed => ?_⟩
      rw [draft] at fixed
      cases fixed
    · rw [sound.status post]
      refine ⟨fun fixed => ?_,fun fixed => ⟨fixed,same⟩⟩
      obtain ⟨balanced,standing⟩ := posted fixed
      exact ⟨same.balanced.mpr balanced,same.deletedAt.trans standing⟩

theorem modify_cases {entries : List JournalEntry} {id : Nat} {change : JournalEntry → JournalEntry}
    (member : later ∈ entries.modify id change) :
    later ∈ entries ∨ ∃ entry, entries[id]? = some entry ∧ later = change entry := by
  obtain ⟨place,there⟩ := List.mem_iff_getElem?.mp member
  rw [List.getElem?_modify] at there
  obtain ⟨entry,found,rfl⟩ := Option.map_eq_some_iff.mp there
  split
  · next here =>
    subst here
    exact .inr ⟨entry,found,rfl⟩
  · exact .inl (List.mem_of_getElem? found)

theorem Invariant.commit (holds : Invariant s) (taken : next s (.commit u) = some t) : Invariant t := by
  simp only [next,Option.bind_eq_bind,Option.bind_eq_some_iff,Option.ite_none_right_eq_some,Option.some.injEq] at taken
  obtain ⟨x,running,ended,rfl⟩ := taken
  have sound := holds.sound u x running
  refine holds.finish ?_ ?_ (List.length_modify ..) ?_
  · intro later member fixed
    rcases modify_cases member with old | ⟨row,there,rfl⟩
    · exact holds.posted later old fixed
    · exact (sound.commit ended there (holds.posted row (List.mem_of_getElem? there))).1 fixed
  · intro later member
    rcases modify_cases member with old | ⟨row,there,rfl⟩
    · exact holds.cents later old
    · exact sound.cents row (holds.cents row (List.mem_of_getElem? there))
  · intro w other entryId held
    have mine : Owns s.locks u x.call.entryId := by
      simpa [ended] using sound.locked
    have apart : x.call.entryId ≠ entryId := by
      intro same
      exact other (held.same_tx holds.compatible (same ▸ mine))
    simp [apart]

theorem Invariant.step {a : Action} (holds : Invariant s) (allowed : current s a = true) (taken : next s a = some t) :
    Invariant t := by
  cases a with
  | create businessId data ids around => exact holds.create taken
  | start u call => exact holds.start taken
  | execute u around => exact holds.execute allowed taken
  | commit u => exact holds.commit taken
  | abort u =>
    simp only [next,Option.bind_eq_bind,Option.bind_eq_some_iff,Option.some.injEq] at taken
    obtain ⟨x,_,rfl⟩ := taken
    exact holds.finish holds.posted holds.cents rfl fun _ _ _ _ => rfl

theorem next_entries {a : Action} (taken : next s a = some t) :
    (∃ added, t.entries = s.entries ++ added) ∨
      ∃ u x, s.transactions u = some x ∧ x.todo = [] ∧ t.entries = s.entries.modify x.call.entryId x.own := by
  cases a with
  | create businessId data ids around =>
    simp only [next,Option.map_eq_some_iff] at taken
    obtain ⟨entry,_,rfl⟩ := taken
    exact .inl ⟨[entry],rfl⟩
  | start u call =>
    simp only [next,Option.bind_eq_bind,Option.bind_eq_some_iff,Option.ite_none_right_eq_some,Option.some.injEq] at taken
    obtain ⟨_,middle,locked,x,_,rfl⟩ := taken
    exact .inl ⟨[],by simpa [State.put] using (lock_cases locked).1⟩
  | execute u around =>
    simp only [next,Option.bind_eq_bind,Option.bind_eq_some_iff,Option.some.injEq] at taken
    obtain ⟨_,_,_,_,_,_,middle,locked,_,_,rfl⟩ := taken
    exact .inl ⟨[],by simpa [State.put] using (lock_cases locked).1⟩
  | commit u =>
    simp only [next,Option.bind_eq_bind,Option.bind_eq_some_iff,Option.ite_none_right_eq_some,Option.some.injEq] at taken
    obtain ⟨x,running,ended,rfl⟩ := taken
    exact .inr ⟨u,x,running,ended,rfl⟩
  | abort u =>
    simp only [next,Option.bind_eq_bind,Option.bind_eq_some_iff,Option.some.injEq] at taken
    obtain ⟨x,_,rfl⟩ := taken
    exact .inl ⟨[],by simp [State.finish]⟩

theorem Invariant.posted_step {a : Action} (holds : Invariant s) (taken : next s a = some t) {id : Nat}
    (there : s.entries[id]? = some entry) (posted : entry.status = .posted) :
    ∃ later, t.entries[id]? = some later ∧ later.status = .posted ∧ Same entry later := by
  rcases next_entries taken with ⟨added,entries⟩ | ⟨u,x,running,ended,entries⟩
  · have inside := (List.getElem?_eq_some_iff.mp there).1
    exact ⟨entry,by rw [entries,List.getElem?_append_left inside,there],posted,.refl entry⟩
  · by_cases here : x.call.entryId = id
    · subst here
      have kept := ((holds.sound u x running).commit ended there (holds.posted entry (List.mem_of_getElem? there))).2 posted
      exact ⟨x.own entry,by simp [entries,there],kept⟩
    · exact ⟨entry,by simp [entries,here,there],posted,.refl entry⟩

theorem Invariant.posted_run {labels : List Action} (run : Run (OfNext (within current next)) s labels t)
    (holds : Invariant s) {id : Nat} (there : s.entries[id]? = some entry) (posted : entry.status = .posted) :
    ∃ later, t.entries[id]? = some later ∧ later.status = .posted ∧ Same entry later := by
  induction run generalizing entry with
  | nil s => exact ⟨entry,there,posted,.refl entry⟩
  | cons taken _ induction =>
    obtain ⟨allowed,moved⟩ := within_eq_some.mp taken
    obtain ⟨middle,found,still,first⟩ := holds.posted_step moved there posted
    obtain ⟨later,last,final,second⟩ := induction (holds.step allowed moved) found still
    exact ⟨later,last,final,first.trans second⟩

theorem Initial.invariant (initial : Initial s) : Invariant s := by
  obtain ⟨entries,locks,transactions⟩ := initial
  refine ⟨?_,?_,?_,?_⟩
  · rw [locks]
    exact compatible_nil
  · simp [entries]
  · simp [entries]
  · simp [transactions]

/-- Posted entries are balanced, and stay as they are from the commit of the post on. -/
theorem posted_entries_kept {labels : List Action} (reached : Reachable Initial (OfNext (within current next)) s)
    (run : Run (OfNext (within current next)) s labels t) {id : Nat} (there : s.entries[id]? = some entry)
    (posted : entry.status = .posted) :
    Balanced entry ∧ ∃ later, t.entries[id]? = some later ∧ later.status = .posted ∧ Unchanged entry later := by
  have holds : Invariant s := reached.invariant (fun s initial => initial.invariant)
    fun s a t kept taken => kept.step (within_eq_some.mp taken).1 (within_eq_some.mp taken).2
  obtain ⟨balanced,standing⟩ := holds.posted entry (List.mem_of_getElem? there) posted
  obtain ⟨later,found,still,same⟩ := holds.posted_run run there posted
  exact ⟨balanced,later,found,still,same.lines,same.entryDate,same.description,same.deletedAt.trans standing⟩

def books : Surroundings := ⟨[1,2],[],0,0⟩

def sale : CreateJournalEntryRequest := ⟨none,none,none,[⟨1,100,0,none,0⟩,⟨2,0,100,none,0⟩]⟩

def overwriting : UpdateJournalEntryRequest := ⟨none,none,none,some [⟨1,5,0,none,0⟩]⟩

/-- An update reads the draft; a post of it runs meanwhile. -/
def postRun : List Action :=
  [.create 7 sale (fun index => index) books,.start 0 ⟨0,7,.update overwriting,fun index => index + 2⟩,
    .start 1 ⟨0,7,.post,fun index => index⟩,.execute 1 books,.execute 1 books,.execute 1 books,.commit 1]

/-- The update goes on. -/
def overwriteRun : List Action :=
  [.execute 0 books,.execute 0 books,.execute 0 books,.execute 0 books,.execute 0 books,.commit 0]

def sampleView (s : State) : List (JournalEntryStatus × Nat) × Bool :=
  (s.entries.map fun entry => (entry.status,entry.lines.length),(s.transactions 0).isSome)

theorem empty_initial : Initial ⟨[],[],fun _ => none⟩ := ⟨rfl,rfl,rfl⟩

/-- The posted entry stays as it was when the update is rolled back. -/
theorem posted_entries_kept_rollback :
    ∃ (s t : State) (entry later : JournalEntry), s.entries[0]? = some entry ∧ entry.status = .posted ∧
      Balanced entry ∧ t.entries[0]? = some later ∧ Unchanged entry later ∧ t.transactions 0 = none := by
  obtain ⟨s,reached,view⟩ : ∃ s, Reachable Initial (OfNext (within current next)) s ∧
      sampleView s = ([(.posted,2)],true) :=
    reachable_of_execute (within current next) sampleView postRun empty_initial (by decide +kernel)
  obtain ⟨entries,pending⟩ := Prod.ext_iff.mp view
  obtain ⟨entry,rest,listed,shown,_⟩ := List.map_eq_cons_iff.mp entries
  obtain ⟨x,running⟩ := Option.isSome_iff_exists.mp pending
  have taken : OfNext (within current next) s (.abort 0) (s.finish 0 s.entries) := by
    simp [OfNext,within,current,next,running]
  have there : s.entries[0]? = some entry := by
    simp [listed]
  have posted : entry.status = .posted := (Prod.ext_iff.mp shown).1
  obtain ⟨balanced,later,found,_,kept⟩ := posted_entries_kept reached (.cons taken (.nil _)) there posted
  exact ⟨s,_,entry,later,there,posted,balanced,found,kept,by simp [State.finish]⟩

/-- The update replaces the lines of the posted entry. -/
theorem posted_entry_overwritten :
    ¬∀ s, Reachable Initial (OfNext next) s → ∀ entry ∈ s.entries, entry.status = .posted → Balanced entry := by
  intro claim
  obtain ⟨s,reached,view⟩ : ∃ s, Reachable Initial (OfNext next) s ∧ sampleView s = ([(.posted,1)],false) :=
    reachable_of_execute next sampleView (postRun ++ overwriteRun) empty_initial (by decide +kernel)
  obtain ⟨entry,rest,listed,shown,_⟩ := List.map_eq_cons_iff.mp (Prod.ext_iff.mp view).1
  obtain ⟨posted,single⟩ := Prod.ext_iff.mp shown
  obtain ⟨two,_⟩ := claim s reached entry (by simp [listed]) posted
  simp only at single
  omega

end JournalEntries
