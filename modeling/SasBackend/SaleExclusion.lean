import Mathlib.Tactic.Linarith
import SasBackend.Semantics.SaleExclusion

/-! Returns, voids and cancels of one sale exclude each other through the locks on its lines.
A return that names only products holds no line lock: it stays outside unless the sale is still open when
it inserts its first row, whose foreign key then holds off every void.
-/
namespace SaleExclusion
open RowLocks SasBackend Transition

variable {sale : Sale} {s u : State} {t : Nat}

def HoldsLine (s : State) (t id : Nat) : Prop := ⟨t,.line id,.update⟩ ∈ s.locks

def Open (status : SaleStatus) : Prop := status ≠ .voided ∧ status ≠ .cancelled

def linked (lines : List RequestLine) : List Nat := lines.filterMap RequestLine.saleLineId

def inserts (lines : List ReturnLine) : List Nat := lines.filterMap ReturnLine.saleLineId

/-- The quantities that count against a sale line have the scale of its column. -/
def Scaled (lines : List RequestLine) : Prop := ∀ line ∈ lines, line.saleLineId ≠ none → line.qty ∈ Decimal.grid 4

structure Admitted (sale : Sale) (s : State) (t : Nat) (data : ReturnRequest) : Prop where
  scaled : Scaled data.lines
  ours : ∀ id ∈ data.lineIds, id ∈ sale.lineIds
  held : ∀ id ∈ data.lineIds, HoldsLine s t id

/-- Returned so far, plus some more, stays within what was sold on the listed lines. -/
def Fits (sale : Sale) (s : State) (ids : List Nat) (more : Nat → ℚ) : Prop :=
  ∀ line ∈ sale.lines, line.id ∈ ids → returnedQty s.returnLines line.id + more line.id ≤ line.qty

/-- What a transaction relies on at each point of its run. -/
def Position (sale : Sale) (s : State) (t : Nat) : Phase → Prop
  | .absent | .ended => True
  | .lockingLines request todo =>
    (∀ data, request = .createSaleReturn data → Scaled data.lines) ∧
      ∀ id ∈ request.lineIds sale, id ∉ todo → HoldsLine s t id
  | .readingSale data => Admitted sale s t data
  | .checkingLines data todo pending => Admitted sale s t data ∧ (data.lineIds ≠ [] → Open s.status) ∧
      (∀ id, requestedQty data.lines id = requestedQty pending id + requestedQty todo id) ∧
      (∀ id ∈ linked pending, id ∈ data.lineIds) ∧ (∀ id ∈ linked todo, id ∈ data.lineIds) ∧
      (∀ id ∈ data.lineIds, id ∈ linked pending ∨ id ∈ linked todo) ∧
      Fits sale s (linked pending) (requestedQty pending)
  | .insertingReturn data => Admitted sale s t data ∧ (data.lineIds ≠ [] → Open s.status) ∧
      Fits sale s data.lineIds (requestedQty data.lines)
  | .insertingLines todo inserted => ⟨t,.sale,.keyShare⟩ ∈ s.locks ∧ Open s.status ∧ Scaled todo ∧
      (∀ id, id ∈ linked todo ∨ id ∈ inserts inserted → HoldsLine s t id) ∧
      Fits sale s (linked todo ++ inserts inserted) fun id => returnedQty inserted id + requestedQty todo id
  | .lockingSale _ => ∀ id ∈ sale.lineIds, HoldsLine s t id
  | .countingReturns _ => (∀ id ∈ sale.lineIds, HoldsLine s t id) ∧ ⟨t,.sale,.update⟩ ∈ s.locks
  | .verifyingShift | .updatingStatus _ =>
    (∀ id ∈ sale.lineIds, HoldsLine s t id) ∧ ⟨t,.sale,.update⟩ ∈ s.locks ∧ s.returnLines = []

structure Invariant (sale : Sale) (s : State) : Prop where
  exclusive : Exclusive sale s
  compatible : Compatible s.locks
  position : ∀ t, Position sale s t (s.phase t)

/-- What a step of another transaction leaves to `t`. -/
structure Keeps (sale : Sale) (t : Nat) (s u : State) : Prop where
  locks : ∀ h ∈ s.locks, h.tx = t → h ∈ u.locks
  lineOpen : ∀ id ∈ sale.lineIds, HoldsLine s t id → Open s.status → Open u.status
  saleOpen : ⟨t,.sale,.keyShare⟩ ∈ s.locks → Open s.status → Open u.status
  lineReturned : ∀ id, HoldsLine s t id → returnedQty u.returnLines id = returnedQty s.returnLines id
  saleReturned : ⟨t,.sale,.update⟩ ∈ s.locks → u.returnLines = s.returnLines

theorem Keeps.holds (keeps : Keeps sale t s u) {id : Nat} (held : HoldsLine s t id) : HoldsLine u t id :=
  keeps.locks _ held rfl

theorem Admitted.keep {data : ReturnRequest} (admitted : Admitted sale s t data) (keeps : Keeps sale t s u) :
    Admitted sale u t data :=
  { admitted with held := fun id member => keeps.holds (admitted.held id member) }

private theorem Admitted.stillOpen {data : ReturnRequest} (admitted : Admitted sale s t data)
    (keeps : Keeps sale t s u) (open_ : data.lineIds ≠ [] → Open s.status) (some_ : data.lineIds ≠ []) :
    Open u.status := by
  obtain ⟨id,member⟩ := List.exists_mem_of_ne_nil _ some_
  exact keeps.lineOpen id (admitted.ours id member) (admitted.held id member) (open_ some_)

private theorem Fits.keep {ids : List Nat} {more : Nat → ℚ} (fits : Fits sale s ids more)
    (keeps : Keeps sale t s u) (held : ∀ id ∈ ids, HoldsLine s t id) : Fits sale u ids more := by
  intro line member listed
  rw [keeps.lineReturned line.id (held line.id listed)]
  exact fits line member listed

theorem Position.keep {phase : Phase} (position : Position sale s t phase) (keeps : Keeps sale t s u) :
    Position sale u t phase := by
  cases phase with
  | absent | ended => trivial
  | lockingLines request todo =>
    exact ⟨position.1,fun id member gone => keeps.holds (position.2 id member gone)⟩
  | readingSale data => exact Admitted.keep position keeps
  | checkingLines data todo pending =>
    obtain ⟨admitted,open_,split,inside,todoInside,covered,fits⟩ := position
    exact ⟨admitted.keep keeps,admitted.stillOpen keeps open_,split,inside,todoInside,covered,
      fits.keep keeps fun id member => admitted.held id (inside id member)⟩
  | insertingReturn data =>
    obtain ⟨admitted,open_,fits⟩ := position
    exact ⟨admitted.keep keeps,admitted.stillOpen keeps open_,fits.keep keeps admitted.held⟩
  | insertingLines todo inserted =>
    obtain ⟨share,open_,scaled,held,fits⟩ := position
    refine ⟨keeps.locks _ share rfl,keeps.saleOpen share open_,scaled,fun id member => keeps.holds (held id member),?_⟩
    exact fits.keep keeps fun id member => held id (List.mem_append.mp member)
  | lockingSale request => exact fun id member => keeps.holds (position id member)
  | countingReturns request =>
    exact ⟨fun id member => keeps.holds (position.1 id member),keeps.locks _ position.2 rfl⟩
  | verifyingShift | updatingStatus =>
    obtain ⟨held,lock,empty⟩ := position
    exact ⟨fun id member => keeps.holds (held id member),keeps.locks _ lock rfl,
      (keeps.saleReturned lock).trans empty⟩

private theorem Invariant.move (locks : List (Held Row)) {phase : Phase} (invariant : Invariant sale s)
    (compatible : Compatible locks) (kept : ∀ h ∈ s.locks, h.tx ≠ t → h ∈ locks)
    (position : Position sale ({ s with locks := locks }.goto t phase) t phase) :
    Invariant sale ({ s with locks := locks }.goto t phase) := by
  refine ⟨invariant.exclusive,compatible,fun other => ?_⟩
  by_cases same : other = t
  · rw [same]
    simpa [State.goto] using position
  · have keeps : Keeps sale other s ({ s with locks := locks }.goto t phase) :=
      ⟨fun h member mine => kept h member (mine ▸ same),fun _ _ _ => id,fun _ => id,fun _ _ => rfl,fun _ => rfl⟩
    have place : ({ s with locks := locks }.goto t phase).phase other = s.phase other := by
      simp [State.goto,same]
    rw [place]
    exact (invariant.position other).keep keeps

private theorem Invariant.finish (invariant : Invariant sale s) (t : Nat) : Invariant sale (s.finish t) := by
  refine invariant.move _ (invariant.compatible.releaseAll t) (fun h member other => ?_) trivial
  exact mem_releaseAll.mpr ⟨member,other⟩

private theorem Invariant.goto {phase : Phase} (invariant : Invariant sale s)
    (position : Position sale s t phase) : Invariant sale (s.goto t phase) := by
  refine invariant.move s.locks invariant.compatible (fun _ member _ => member) (position.keep ?_)
  exact ⟨fun _ member _ => member,fun _ _ _ => id,fun _ => id,fun _ _ => rfl,fun _ => rfl⟩

private theorem Invariant.lock {row : Row} {mode : Mode} {phase : Phase} (invariant : Invariant sale s)
    (locked : s.lock t row mode phase = some u)
    (position : grantable s.locks t row mode = true →
      Position sale ({ s with locks := acquire s.locks t row mode }.goto t phase) t phase) : Invariant sale u := by
  rw [State.lock] at locked
  split at locked
  · next granted =>
    cases locked
    refine invariant.move _ (invariant.compatible.acquire t row mode) (fun h member _ => ?_) (position granted)
    exact (mem_acquire granted).mpr (.inr member)
  · cases locked

theorem requestedQty_cons (line : RequestLine) (rest : List RequestLine) (id : Nat) :
    requestedQty (line :: rest) id = (if line.saleLineId = some id then line.qty else 0) + requestedQty rest id := by
  rw [requestedQty,List.filter_cons]
  by_cases same : line.saleLineId = some id <;> simp [same,requestedQty]

theorem returnedQty_append (first second : List ReturnLine) (id : Nat) :
    returnedQty (first ++ second) id = returnedQty first id + returnedQty second id := by
  rw [returnedQty,List.filter_append,List.map_append,List.sum_append]
  rfl

theorem returnedQty_of_notMem {lines : List ReturnLine} {id : Nat} (absent : id ∉ inserts lines) :
    returnedQty lines id = 0 := by
  have none_ : lines.filter (·.saleLineId = some id) = [] := by
    rw [List.filter_eq_nil_iff]
    intro line member same
    exact absent (List.mem_filterMap.mpr ⟨line,member,of_decide_eq_true same⟩)
  rw [returnedQty,none_]
  rfl

theorem requestedQty_nil (id : Nat) : requestedQty [] id = 0 := rfl

theorem mem_lineIds {data : ReturnRequest} {id : Nat} : id ∈ data.lineIds ↔ id ∈ linked data.lines := by
  rw [ReturnRequest.lineIds,List.mem_insertionSort,List.mem_dedup,linked]

private theorem found_unique {id : Nat} {original line : SaleLine} (found : sale.lines.find? (·.id = id) = some original)
    (member : line ∈ sale.lines) (same : line.id = id) : line = original := by
  have named : original.id = id := by simpa using List.find?_some found
  exact List.inj_on_of_nodup_map sale.distinct member (List.mem_of_find?_eq_some found) (same.trans named.symm)

private theorem Fits.check {pending : List RequestLine} {line : RequestLine} {id : Nat} {original : SaleLine}
    (fits : Fits sale s (linked pending) (requestedQty pending)) (names : line.saleLineId = some id)
    (found : sale.lines.find? (·.id = id) = some original)
    (enough : line.qty ≤ original.qty - returnedQty s.returnLines id - requestedQty pending id) :
    Fits sale s (linked (line :: pending)) (requestedQty (line :: pending)) := by
  intro other member listed
  rw [requestedQty_cons,names]
  by_cases same : other.id = id
  · have equal : other.qty = original.qty := by rw [found_unique found member same]
    rw [if_pos (by rw [same]),same,equal]
    linarith
  · rw [if_neg fun equal => same (Option.some.inj equal).symm,zero_add]
    refine fits other member ?_
    rw [linked,List.filterMap_cons_some names,List.mem_cons] at listed
    exact listed.resolve_left same

private theorem inserted_balance {line : RequestLine} (rest : List RequestLine) (inserted : List ReturnLine)
    (scaled : line.saleLineId ≠ none → line.qty ∈ Decimal.grid 4) (id : Nat) :
    returnedQty (inserted ++ [insertLine line]) id + requestedQty rest id =
      returnedQty inserted id + requestedQty (line :: rest) id := by
  rw [returnedQty_append,requestedQty_cons]
  by_cases same : line.saleLineId = some id
  · have stored : Decimal.quantize 4 line.qty = line.qty :=
      Decimal.quantize_of_mem_grid (scaled (by simp [same]))
    rw [if_pos same]
    simp [returnedQty,insertLine,same,stored,add_assoc]
  · rw [if_neg same]
    simp [returnedQty,insertLine,same]

private theorem mem_inserted {line : RequestLine} {rest : List RequestLine} {inserted : List ReturnLine} {id : Nat} :
    id ∈ linked rest ∨ id ∈ inserts (inserted ++ [insertLine line]) ↔
      id ∈ linked (line :: rest) ∨ id ∈ inserts inserted := by
  simp only [linked,inserts,List.filterMap_append,List.mem_append,List.mem_filterMap,List.mem_cons,insertLine,
    exists_eq_or_imp,exists_eq_left,List.not_mem_nil,or_false]
  rw [← or_assoc,or_comm,or_assoc]

private theorem contains_of_all {data : ReturnRequest} (all : data.lineIds.all (sale.lineIds.contains ·) = true) :
    ∀ id ∈ data.lineIds, id ∈ sale.lineIds := by
  intro id member
  simpa using List.all_eq_true.mp all id member

private theorem open_of_returnable {status : SaleStatus} (accepted : returnable status = true) : Open status := by
  cases status <;> simp_all [returnable,Open]

theorem Fits.nil : Fits sale s (linked []) (requestedQty []) := by
  intro line _ listed
  cases listed

private theorem keeps_returned {inserted : List ReturnLine} {locks : List (Held Row)} {other : Nat} {phase : Phase}
    (compatible : Compatible s.locks) (share : ⟨t,.sale,.keyShare⟩ ∈ s.locks)
    (held : ∀ id ∈ inserts inserted, HoldsLine s t id) (different : other ≠ t)
    (kept : ∀ h ∈ s.locks, h.tx = other → h ∈ locks) :
    Keeps sale other s ({ s with returnLines := s.returnLines ++ inserted, locks := locks }.goto t phase) := by
  refine ⟨kept,fun _ _ _ => id,fun _ => id,fun id mine => ?_,fun mine => ?_⟩
  · have absent : id ∉ inserts inserted := by
      intro member
      exact different (compatible.same_tx mine (held id member) rfl rfl)
    change returnedQty (s.returnLines ++ inserted) id = _
    rw [returnedQty_append,returnedQty_of_notMem absent,add_zero]
  · exact absurd (compatible.same_tx mine share rfl rfl) different

private theorem keeps_status {status : SaleStatus} {locks : List (Held Row)} {other : Nat} {phase : Phase}
    (compatible : Compatible s.locks) (lock : ⟨t,.sale,.update⟩ ∈ s.locks)
    (held : ∀ id ∈ sale.lineIds, HoldsLine s t id) (different : other ≠ t)
    (kept : ∀ h ∈ s.locks, h.tx = other → h ∈ locks) :
    Keeps sale other s ({ s with status := status, locks := locks }.goto t phase) := by
  refine ⟨kept,fun id ours mine => ?_,fun mine => ?_,fun _ _ => rfl,fun _ => rfl⟩
  · exact absurd (compatible.same_tx mine (held id ours) rfl rfl) different
  · exact absurd (compatible.same_tx mine lock rfl rfl) different

private theorem Position.lockedLine {request : Request} {id : Nat} {rest : List Nat} {locks : List (Held Row)}
    {phase : Phase} (position : Position sale s t (.lockingLines request (id :: rest)))
    (mine : ⟨t,.line id,.update⟩ ∈ locks) (kept : ∀ h ∈ s.locks, h ∈ locks) :
    Position sale ({ s with locks := locks }.goto t phase) t (.lockingLines request rest) := by
  refine ⟨position.1,fun other member gone => ?_⟩
  by_cases same : other = id
  · rw [same]
    exact mine
  · exact kept _ (position.2 other member (List.not_mem_cons_of_ne_of_not_mem same gone))

private theorem Position.admitted {data : ReturnRequest}
    (position : Position sale s t (.lockingLines (.createSaleReturn data) []))
    (all : data.lineIds.all (sale.lineIds.contains ·) = true) : Admitted sale s t data :=
  ⟨position.1 data rfl,contains_of_all all,fun id member => position.2 id member List.not_mem_nil⟩

private theorem Admitted.checking {data : ReturnRequest} (admitted : Admitted sale s t data)
    (accepted : returnable s.status = true) : Position sale s t (.checkingLines data data.lines []) := by
  refine ⟨admitted,fun _ => open_of_returnable accepted,fun id => ?_,nofun,fun id => mem_lineIds.mpr,
    fun id member => .inr (mem_lineIds.mp member),Fits.nil⟩
  rw [requestedQty_nil,zero_add]

private theorem Position.skipped {data : ReturnRequest} {line : RequestLine} {rest pending : List RequestLine}
    (position : Position sale s t (.checkingLines data (line :: rest) pending)) (unlinked : line.saleLineId = none) :
    Position sale s t (.checkingLines data rest pending) := by
  obtain ⟨admitted,open_,split,inside,todoInside,covered,fits⟩ := position
  have same : linked (line :: rest) = linked rest := List.filterMap_cons_none unlinked
  rw [same] at todoInside covered
  refine ⟨admitted,open_,fun id => ?_,inside,todoInside,covered,fits⟩
  rw [split,requestedQty_cons,unlinked,if_neg nofun,zero_add]

private theorem Position.checked {data : ReturnRequest} {line : RequestLine} {rest pending : List RequestLine}
    {id : Nat} {original : SaleLine} (position : Position sale s t (.checkingLines data (line :: rest) pending))
    (names : line.saleLineId = some id) (found : sale.lines.find? (·.id = id) = some original)
    (enough : line.qty ≤ original.qty - returnedQty s.returnLines id - requestedQty pending id) :
    Position sale s t (.checkingLines data rest (line :: pending)) := by
  obtain ⟨admitted,open_,split,inside,todoInside,covered,fits⟩ := position
  have todo : linked (line :: rest) = id :: linked rest := List.filterMap_cons_some names
  have done : linked (line :: pending) = id :: linked pending := List.filterMap_cons_some names
  rw [todo] at todoInside covered
  refine ⟨admitted,open_,fun other => ?_,?_,?_,?_,fits.check names found enough⟩
  · rw [split,requestedQty_cons,requestedQty_cons]
    ring
  · rw [done]
    exact List.forall_mem_cons.mpr ⟨todoInside id List.mem_cons_self,inside⟩
  · exact fun other member => todoInside other (List.mem_cons_of_mem id member)
  · intro other member
    rw [done]
    have place := covered other member
    simp only [List.mem_cons] at place ⊢
    tauto

private theorem Position.allChecked {data : ReturnRequest} {pending : List RequestLine}
    (position : Position sale s t (.checkingLines data [] pending)) :
    Position sale s t (.insertingReturn data) := by
  obtain ⟨admitted,open_,split,inside,-,covered,fits⟩ := position
  refine ⟨admitted,open_,fun line member listed => ?_⟩
  rw [split,requestedQty_nil,add_zero]
  exact fits line member ((covered line.id listed).resolve_right List.not_mem_nil)

private theorem Position.inserting {data : ReturnRequest} {locks : List (Held Row)} {phase : Phase}
    (position : Position sale s t (.insertingReturn data)) (named : data.lineIds = [] → Open s.status)
    (mine : ⟨t,.sale,.keyShare⟩ ∈ locks) (kept : ∀ h ∈ s.locks, h ∈ locks) :
    Position sale ({ s with locks := locks }.goto t phase) t (.insertingLines data.lines []) := by
  obtain ⟨admitted,open_,fits⟩ := position
  refine ⟨mine,?_,admitted.scaled,fun id member => ?_,fun line member listed => ?_⟩
  · by_cases none_ : data.lineIds = []
    · exact named none_
    · exact open_ none_
  · rcases member with member | member
    · exact kept _ (admitted.held id (mem_lineIds.mpr member))
    · cases member
  · have stays := fits line member
    rw [inserts,List.filterMap_nil,List.append_nil,← mem_lineIds] at listed
    change _ + (0 + _) ≤ _
    rw [zero_add]
    exact stays listed

private theorem Position.insertedLine {line : RequestLine} {rest : List RequestLine} {inserted : List ReturnLine}
    (position : Position sale s t (.insertingLines (line :: rest) inserted)) :
    Position sale s t (.insertingLines rest (inserted ++ [insertLine line])) := by
  obtain ⟨share,open_,scaled,held,fits⟩ := position
  refine ⟨share,open_,fun other member => scaled other (List.mem_cons_of_mem line member),fun id member => ?_,?_⟩
  · exact held id (mem_inserted.mp member)
  · intro original member listed
    beta_reduce
    rw [inserted_balance rest inserted (scaled line List.mem_cons_self)]
    rw [List.mem_append,mem_inserted,← List.mem_append] at listed
    exact fits original member listed

private theorem Invariant.commitReturn {inserted : List ReturnLine} (invariant : Invariant sale s)
    (position : Position sale s t (.insertingLines [] inserted)) :
    Invariant sale ({ s with returnLines := s.returnLines ++ inserted }.finish t) := by
  obtain ⟨share,open_,-,held,fits⟩ := position
  have locked : ∀ id ∈ inserts inserted, HoldsLine s t id := fun id member => held id (.inr member)
  refine ⟨⟨fun gone => ?_,fun line member => ?_⟩,invariant.compatible.releaseAll t,fun other => ?_⟩
  · exact absurd gone (not_or.mpr open_)
  · change returnedQty (s.returnLines ++ inserted) line.id ≤ line.qty
    rw [returnedQty_append]
    by_cases listed : line.id ∈ inserts inserted
    · have bound := fits line member (List.mem_append_right _ listed)
      beta_reduce at bound
      rwa [requestedQty_nil,add_zero] at bound
    · rw [returnedQty_of_notMem listed,add_zero]
      exact invariant.exclusive.2 line member
  · by_cases same : other = t
    · simp [State.finish,State.goto,same,Position]
    · have place : ({ s with returnLines := s.returnLines ++ inserted }.finish t).phase other = s.phase other := by
        simp [State.finish,State.goto,same]
      rw [place]
      refine (invariant.position other).keep (keeps_returned invariant.compatible share locked same fun h member mine => ?_)
      exact mem_releaseAll.mpr ⟨member,mine ▸ same⟩

private theorem Invariant.commitStatus {status : SaleStatus} (invariant : Invariant sale s)
    (position : Position sale s t (.updatingStatus status)) :
    Invariant sale ({ s with status := status }.finish t) := by
  obtain ⟨held,lock,empty⟩ := position
  refine ⟨⟨fun _ => empty,invariant.exclusive.2⟩,invariant.compatible.releaseAll t,fun other => ?_⟩
  by_cases same : other = t
  · simp [State.finish,State.goto,same,Position]
  · have place : ({ s with status := status }.finish t).phase other = s.phase other := by
      simp [State.finish,State.goto,same]
    rw [place]
    refine (invariant.position other).keep (keeps_status invariant.compatible lock held same fun h member mine => ?_)
    exact mem_releaseAll.mpr ⟨member,mine ▸ same⟩

theorem Invariant.advance (invariant : Invariant sale s)
    (named : ∀ data, s.phase t = .insertingReturn data → data.lineIds = [] → Open s.status)
    (stepped : advance sale s t = some u) : Invariant sale u := by
  have position := invariant.position t
  unfold SaleExclusion.advance at stepped
  split at stepped <;> rename_i at_ <;> rw [at_] at position
  case h_1 =>
    refine invariant.lock stepped fun granted => position.lockedLine ?_ fun h member => ?_
    · exact (mem_acquire granted).mpr (.inl rfl)
    · exact (mem_acquire granted).mpr (.inr member)
  case h_2 =>
    split at stepped <;> cases stepped
    · next all => exact invariant.goto (position.admitted all)
    · exact invariant.finish t
  case h_3 request linked_ =>
    cases stepped
    refine invariant.goto fun id member => ?_
    cases request with
    | createSaleReturn data => exact absurd rfl (linked_ data)
    | voidSale | cancelSale => exact position.2 id member List.not_mem_nil
  case h_4 =>
    split at stepped <;> cases stepped
    · next accepted => exact invariant.goto (Admitted.checking position accepted)
    · exact invariant.finish t
  case h_5 =>
    cases stepped
    exact invariant.goto position.allChecked
  case h_6 =>
    split at stepped
    · next unlinked =>
      cases stepped
      exact invariant.goto (position.skipped unlinked)
    · next names =>
      split at stepped
      · cases stepped
        exact invariant.finish t
      · next found =>
        dsimp only at stepped
        split at stepped <;> cases stepped
        · exact invariant.finish t
        · next enough => exact invariant.goto (position.checked names found (not_lt.mp enough))
  case h_7 data =>
    refine invariant.lock stepped fun granted => position.inserting (named data at_) ?_ fun h member => ?_
    · exact (mem_acquire granted).mpr (.inl rfl)
    · exact (mem_acquire granted).mpr (.inr member)
  case h_8 =>
    split at stepped <;> cases stepped
    · exact invariant.finish t
    · exact invariant.goto position.insertedLine
  case h_9 =>
    cases stepped
    exact invariant.commitReturn position
  case h_10 =>
    split at stepped
    · split at stepped
      · cases stepped
        exact invariant.finish t
      · refine invariant.lock stepped fun granted => ⟨fun id member => ?_,?_⟩
        · exact (mem_acquire granted).mpr (.inr (position id member))
        · exact (mem_acquire granted).mpr (.inl rfl)
    · cases stepped
  case h_11 =>
    split at stepped
    · cases stepped
      exact invariant.finish t
    · next empty =>
      have none_ : s.returnLines = [] := not_not.mp empty
      split at stepped <;> cases stepped
      · exact invariant.goto ⟨position.1,position.2,none_⟩
      · exact invariant.goto ⟨position.1,position.2,none_⟩
  case h_12 =>
    split at stepped <;> cases stepped
    · exact invariant.goto position
    · exact invariant.finish t
  case h_13 =>
    cases stepped
    exact invariant.commitStatus position
  all_goals cases stepped

/-- The quantities of linked lines fit the column, and a return that names no line of the sale finds it
neither voided nor cancelled when it inserts its first row. -/
def sound (s : State) : Action → Bool
  | .begin _ (.createSaleReturn data) =>
    data.lines.all fun line => line.saleLineId = none || line.qty ∈ Decimal.grid 4
  | .advance t => match s.phase t with
    | .insertingReturn data => !data.lineIds.isEmpty || (s.status ≠ .voided && s.status ≠ .cancelled)
    | _ => true
  | _ => true

theorem Invariant.next {action : Action} (invariant : Invariant sale s) (allowed : sound s action = true)
    (stepped : next sale s action = some u) : Invariant sale u := by
  cases action with
  | begin t request =>
    rw [SaleExclusion.next] at stepped
    split at stepped <;> cases stepped
    refine invariant.goto ⟨fun data is_ line member linked_ => ?_,fun id member gone => absurd member gone⟩
    subst is_
    have fine := List.all_eq_true.mp allowed line member
    simpa [linked_] using fine
  | advance t =>
    refine invariant.advance (fun data at_ unlinked => ?_) stepped
    simp only [sound,at_,unlinked] at allowed
    simpa [Open] using allowed
  | fail t =>
    rw [SaleExclusion.next] at stepped
    split at stepped <;> cases stepped
    exact invariant.finish t
  | shift isOpen =>
    cases stepped
    refine ⟨invariant.exclusive,invariant.compatible,fun t => (invariant.position t).keep ?_⟩
    exact ⟨fun _ member _ => member,fun _ _ _ => id,fun _ => id,fun _ _ => rfl,fun _ => rfl⟩

theorem Invariant.initial (start : Initial sale s) : Invariant sale s := by
  obtain ⟨exclusive,locks,phases⟩ := start
  refine ⟨exclusive,locks ▸ compatible_nil,fun t => ?_⟩
  rw [phases t]
  trivial

/-- Void, cancel and return exclude each other. -/
theorem exclusive_when_named_open (sale : Sale)
    (reached : Reachable (Initial sale) (OfNext (within sound (next sale))) s) : Exclusive sale s := by
  have invariant : Invariant sale s := by
    refine reached.invariant (fun _ => Invariant.initial) fun u action w invariant taken => ?_
    obtain ⟨allowed,stepped⟩ := within_eq_some.mp taken
    exact invariant.next allowed stepped
  exact invariant.exclusive

private def twoSold : Sale := ⟨[⟨1,2⟩],some 1,by decide⟩

private def completed : State := ⟨.completed,[],true,[],fun _ => .absent⟩

private theorem completed_initial : Initial twoSold completed := by
  refine ⟨⟨fun gone => ?_,fun line member => ?_⟩,rfl,fun _ => rfl⟩
  · cases gone <;> contradiction
  · obtain rfl := List.mem_singleton.mp member
    decide

private def returnOf (line : RequestLine) : Request := .createSaleReturn ⟨true,[line]⟩

/-- A void that waits for the line of a return in progress finds the return. -/
theorem exclusive_void_after_return :
    ∃ s, (s.status = .completed ∧ s.returnLines = [⟨some 1,1⟩]) ∧ Exclusive twoSold s := by
  obtain ⟨s,reached,view⟩ := reachable_of_execute (within sound (next twoSold))
    (fun s => (s.status,s.returnLines))
    ([.begin 0 (returnOf ⟨some 1,1⟩),.begin 1 .voidSale] ++ List.replicate 8 (.advance 0) ++
      List.replicate 4 (.advance 1))
    completed_initial (b := (.completed,[⟨some 1,1⟩])) (by decide +kernel)
  exact ⟨s,⟨congrArg Prod.fst view,congrArg Prod.snd view⟩,exclusive_when_named_open twoSold reached⟩

/-- A return of a product reads the completed sale, the void commits, the return commits. -/
theorem voided_sale_returned : ∃ s, Reachable (Initial twoSold) (OfNext (next twoSold)) s ∧
    (s.status = .voided ∧ s.returnLines = [⟨none,1⟩]) ∧ ¬Exclusive twoSold s := by
  obtain ⟨s,reached,view⟩ := reachable_of_execute (next twoSold) (fun s => (s.status,s.returnLines))
    ([.begin 0 (returnOf ⟨none,1⟩),.advance 0,.advance 0,.begin 1 .voidSale] ++
      List.replicate 6 (.advance 1) ++ List.replicate 5 (.advance 0))
    completed_initial (b := (.voided,[⟨none,1⟩])) (by decide +kernel)
  have status : s.status = .voided := congrArg Prod.fst view
  have lines : s.returnLines = [⟨none,1⟩] := congrArg Prod.snd view
  refine ⟨s,reached,⟨status,lines⟩,fun exclusive => ?_⟩
  have empty := exclusive.1 (.inl status)
  rw [lines] at empty
  cases empty

end SaleExclusion
