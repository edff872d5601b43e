import SasBackend.Semantics.PurchaseOrders

/-! A purchase order under any interleaving of its receipts and status changes: when its status follows its lines.
-/
namespace PurchaseOrders
open RowLocks SasBackend Transition
open Stock (PurchaseOrderStatus ReceiptLineRequest allowedTransition round4)

variable {s s' : State} {t : Nat} {a : Action} {data : CreatePurchaseReceiptRequest} {lines : List PurchaseLine}

/-- Quantities have the scale of their columns, and no line has received more than was ordered. -/
def LinesSound (lines : List PurchaseLine) : Prop :=
  ∀ line ∈ lines, line.orderedQty ∈ Decimal.grid 4 ∧ line.receivedQty ∈ Decimal.grid 4 ∧ line.receivedQty ≤ line.orderedQty

/-- The sums of the session stay within the lines. -/
def Fits (data : CreatePurchaseReceiptRequest) (lines : List PurchaseLine) : Prop :=
  ∀ (id : Nat) line, lines[id]? = some line → line.receivedQty + added data.lines id ≤ line.orderedQty

theorem stored_of_scaled {line : PurchaseLine} (scaled : line.receivedQty ∈ Decimal.grid 4) : stored line = line := by
  simp [stored,round4,Decimal.quantize_of_mem_grid scaled]

theorem refresh_self (ids : List Nat) (lines : List PurchaseLine) : refresh ids lines lines = lines := by
  apply List.ext_getElem?
  intro id
  rw [refresh,List.getElem?_mapIdx]
  cases there : lines[id]? <;> simp

theorem added_eq_zero {id : Nat} (unnamed : id ∉ data.lineIds) : added data.lines id = 0 := by
  apply Tally.tally_eq_zero
  intro line member named
  exact unnamed ((List.mem_insertionSort _).mpr (List.mem_dedup.mpr (List.mem_filterMap.mpr ⟨line,member,named⟩)))

theorem refresh_received (sound : LinesSound lines) :
    refresh data.lineIds ((received data lines).map stored) lines = (received data lines).map stored := by
  apply List.ext_getElem?
  intro id
  rw [refresh,List.getElem?_mapIdx,List.getElem?_map,received,List.getElem?_mapIdx]
  cases there : lines[id]? with
  | none => rfl
  | some line =>
    by_cases named : id ∈ data.lineIds
    · simp [named]
    · have same := stored_of_scaled (sound line (List.mem_of_getElem? there)).2.1
      simp [named,added_eq_zero named,same]

theorem fits_of_accepted (rest pending : List ReceiptLineRequest) (accepted : linesAccepted lines pending rest = true)
    (fits : ∀ (id : Nat) line, lines[id]? = some line → line.receivedQty + added pending id ≤ line.orderedQty) :
    ∀ (id : Nat) line, lines[id]? = some line → line.receivedQty + added (pending ++ rest) id ≤ line.orderedQty := by
  induction rest generalizing pending with
  | nil => rwa [List.append_nil]
  | cons first rest induction =>
    obtain ⟨firstAccepted,restAccepted⟩ := Bool.and_eq_true_iff.mp accepted
    have more := induction (pending ++ [first]) restAccepted ?_
    · rwa [List.append_assoc,List.singleton_append] at more
    · intro id line there
      have before := fits id line there
      rw [added,Tally.tally_append,Tally.tally_singleton]
      unfold added at before
      split
      · next named =>
        simp only [lineAccepted,named,there,Option.any_some,Bool.and_eq_true,decide_eq_true_eq,added] at firstAccepted
        linarith [of_decide_eq_true firstAccepted.2]
      · linarith

theorem fits (sound : LinesSound lines) (accepted : linesAccepted lines [] data.lines = true) : Fits data lines :=
  fits_of_accepted data.lines [] accepted fun id line there => by
    simpa [added] using (sound line (List.mem_of_getElem? there)).2.2

theorem sound_stored (sound : LinesSound lines) (fits : Fits data lines) :
    LinesSound ((received data lines).map stored) := by
  intro line member
  obtain ⟨session,inside,rfl⟩ := List.mem_map.mp member
  obtain ⟨id,there⟩ := List.mem_iff_getElem?.mp inside
  rw [received,List.getElem?_mapIdx] at there
  obtain ⟨before,old,rfl⟩ := Option.map_eq_some_iff.mp there
  have scaled := (sound before (List.mem_of_getElem? old)).1
  have within := Decimal.quantize_mono (p := 4) (fits id before old)
  rw [Decimal.quantize_of_mem_grid scaled] at within
  exact ⟨scaled,Decimal.quantize_mem_grid 4 _,within⟩

theorem full_stored (scaled : ∀ line ∈ lines, line.orderedQty ∈ Decimal.grid 4) (filled : full lines = true) :
    full (lines.map stored) = true := by
  rw [full,List.all_eq_true] at filled ⊢
  intro line member
  obtain ⟨session,inside,rfl⟩ := List.mem_map.mp member
  have reached := Decimal.quantize_mono (p := 4) (of_decide_eq_true (filled session inside))
  rw [Decimal.quantize_of_mem_grid (scaled session inside)] at reached
  exact decide_eq_true reached

/-- The order's status says whether it has a receipt, and then follows its lines. -/
structure Sound (order : PurchaseOrder) : Prop where
  some_line : order.lines ≠ []
  lines : LinesSound order.lines
  status : order.receipts ≠ [] → order.status = if full order.lines then .received else .partiallyReceived
  before : order.receipts = [] → order.status ≠ .partiallyReceived ∧ order.status ≠ .received

theorem Sound.inOrder {order : PurchaseOrder} (sound : Sound order) : InOrder order where
  within line member := (sound.lines line member).2.2
  status := sound.status
  kept goods := by
    rw [sound.status goods]
    split <;> simp

/-- What a session that holds the lock of the order has read is what is stored. -/
def PhaseSound (s : State) (t : Nat) : Phase → Prop
  | .readingOrder _ => Owns s.locks t .order
  | .lockingLines _ session => Owns s.locks t .order ∧ session = s.order.lines
  | .receiving data session => Owns s.locks t .order ∧ session = received data s.order.lines ∧ Fits data s.order.lines
  | .updatingStatus target => target = .ordered ∨ target = .cancelled
  | .absent | .lockingOrder _ | .readingStatus _ | .ended => True

structure Invariant (s : State) : Prop where
  order : Sound s.order
  compatible : Compatible s.locks
  phases : ∀ t, PhaseSound s t (s.phase t)

theorem PhaseSound.keep {phase : Phase} (ok : PhaseSound s t phase) (lines : Owns s.locks t .order → s'.order.lines = s.order.lines)
    (locks : Owns s.locks t .order → Owns s'.locks t .order) : PhaseSound s' t phase := by
  cases phase with
  | absent | lockingOrder | readingStatus | ended => trivial
  | readingOrder data => exact locks ok
  | lockingLines data session => exact ⟨locks ok.1,ok.2.trans (lines ok.1).symm⟩
  | receiving data session =>
    obtain ⟨owns,same,fits⟩ := ok
    exact ⟨locks owns,(lines owns).symm ▸ same,(lines owns).symm ▸ fits⟩
  | updatingStatus target => exact ok

theorem Invariant.moved (invariant : Invariant s) {phase : Phase} (order : Sound s'.order) (compatible : Compatible s'.locks)
    (moved : s'.phase = Function.update s.phase t phase) (mine : PhaseSound s' t phase)
    (lines : ∀ u ≠ t, Owns s.locks u .order → s'.order.lines = s.order.lines)
    (locks : ∀ u ≠ t, Owns s.locks u .order → Owns s'.locks u .order) : Invariant s' := by
  refine ⟨order,compatible,fun u => ?_⟩
  rw [moved]
  by_cases same : u = t
  · subst same
    rwa [Function.update_self]
  · rw [Function.update_of_ne same]
    exact (invariant.phases u).keep (lines u same) (locks u same)

theorem Invariant.goto (invariant : Invariant s) {phase : Phase} (mine : PhaseSound s t phase) : Invariant (s.goto t phase) :=
  invariant.moved invariant.order invariant.compatible rfl (mine.keep (fun _ => rfl) fun owns => owns) (fun _ _ _ => rfl)
    fun _ _ owns => owns

theorem Invariant.finish (invariant : Invariant s) {order : PurchaseOrder} (sound : Sound order)
    (lines : Owns s.locks t .order ∨ order.lines = s.order.lines) : Invariant ({ s with order := order }.finish t) := by
  refine invariant.moved sound (invariant.compatible.releaseAll t) rfl (show PhaseSound _ t .ended from trivial) ?_ ?_
  · intro u other owns
    rcases lines with mine | same
    · exact absurd (mine.same_tx invariant.compatible owns) other.symm
    · exact same
  · exact fun u other owns => (owns_releaseAll other).mpr owns

theorem Sound.receive {order : PurchaseOrder} (sound : Sound order) (fits : Fits data order.lines)
    (timely : ¬FilledByRounding order data) : Sound (order.receive data (received data order.lines)) := by
  have written : refresh data.lineIds ((received data order.lines).map stored) order.lines = (received data order.lines).map stored :=
    refresh_received sound.lines
  have some_session : received data order.lines ≠ [] := by simpa [received] using sound.some_line
  have scaled : ∀ line ∈ received data order.lines, line.orderedQty ∈ Decimal.grid 4 := by
    intro line member
    have kept := sound_stored sound.lines fits (stored line) (List.mem_map_of_mem member)
    exact kept.1
  refine ⟨?_,?_,fun _ => ?_,fun none => ?_⟩
  · simpa [PurchaseOrder.receive,written] using some_session
  · simpa [PurchaseOrder.receive,written] using sound_stored sound.lines fits
  · simp only [PurchaseOrder.receive,written,List.isEmpty_iff,some_session,if_false]
    cases session : full (received data order.lines) with
    | true => rw [full_stored scaled session]
    | false =>
      cases rounded : full ((received data order.lines).map stored) with
      | true => exact absurd ⟨rounded,session⟩ timely
      | false => rfl
  · simp [PurchaseOrder.receive] at none

theorem Sound.setStatus {order : PurchaseOrder} {target : PurchaseOrderStatus} (sound : Sound order)
    (early : order.status ≠ .partiallyReceived ∧ order.status ≠ .received) (allowed : target = .ordered ∨ target = .cancelled) :
    Sound { order with status := target } := by
  have none_received : order.receipts = [] := by
    by_contra some_receipt
    have follows := sound.status some_receipt
    split at follows
    · exact early.2 follows
    · exact early.1 follows
  refine ⟨sound.some_line,sound.lines,fun goods => absurd none_received goods,fun _ => ?_⟩
  rcases allowed with rfl | rfl <;> simp

theorem target_of_allowed {current target : PurchaseOrderStatus} (allowed : allowedTransition current target = true) :
    target = .ordered ∨ target = .cancelled := by
  cases current <;> cases target <;> simp_all [allowedTransition]

theorem Invariant.advance (invariant : Invariant s) (taken : advance s t = some s') (timely : Timely s (.advance t)) :
    Invariant s' := by
  have mine := invariant.phases t
  unfold PurchaseOrders.advance at taken
  split at taken
  · next data at_ =>
    split at taken
    · next granted =>
      cases taken
      refine invariant.moved invariant.order (invariant.compatible.acquire t .order .update) rfl ?_ (fun _ _ _ => rfl) ?_
      · exact (owns_acquire granted).mpr (.inr ⟨rfl,rfl,rfl⟩)
      · exact fun u _ owns => (owns_acquire granted).mpr (.inl owns)
    · cases taken
  · next data at_ =>
    rw [at_] at mine
    split at taken
    · cases taken
      exact invariant.goto ⟨mine,rfl⟩
    · cases taken
      exact invariant.finish invariant.order (.inl mine)
  · next data session at_ =>
    rw [at_] at mine
    obtain ⟨owns,rfl⟩ := mine
    obtain ⟨locks,locked,moved⟩ := Option.map_eq_some_iff.mp taken
    rw [refresh_self] at moved
    dsimp only at moved
    split at moved
    · next accepted =>
      subst moved
      refine invariant.moved invariant.order (invariant.compatible.acquireAll locked) rfl ?_ (fun _ _ _ => rfl) ?_
      · exact ⟨(owns_acquireAll locked).mpr (.inl owns),rfl,fits invariant.order.lines accepted⟩
      · exact fun u _ owns => (owns_acquireAll locked).mpr (.inl owns)
    · subst moved
      exact invariant.finish invariant.order (.inl owns)
  · next data session at_ =>
    rw [at_] at mine
    obtain ⟨owns,rfl,fits⟩ := mine
    simp only [Timely,at_] at timely
    cases taken
    exact invariant.finish (invariant.order.receive fits timely) (.inl owns)
  · next target at_ =>
    split at taken
    · next allowed =>
      cases taken
      exact invariant.goto (target_of_allowed allowed)
    · cases taken
      exact invariant.finish invariant.order (.inr rfl)
  · next target at_ =>
    rw [at_] at mine
    simp only [Timely,at_] at timely
    split at taken
    · cases taken
      exact invariant.finish (invariant.order.setStatus timely mine) (.inr rfl)
    · cases taken
  · cases taken
  · cases taken

theorem Invariant.next (invariant : Invariant s) (taken : next s a = some s') (timely : Timely s a) : Invariant s' := by
  cases a with
  | begin t request =>
    simp only [PurchaseOrders.next] at taken
    split at taken
    · cases taken
      cases request <;> exact invariant.goto trivial
    · cases taken
  | fail t =>
    simp only [PurchaseOrders.next] at taken
    split at taken
    · cases taken
    · cases taken
      exact invariant.finish invariant.order (.inr rfl)
  | advance t => exact invariant.advance taken timely

theorem Initial.invariant (initial : Initial s) : Invariant s := by
  obtain ⟨⟨draft,some_line,no_receipt,fresh⟩,unlocked,idle⟩ := initial
  refine ⟨⟨some_line,fun line member => ?_,fun goods => absurd no_receipt goods,fun _ => by simp [draft]⟩,?_,fun t => ?_⟩
  · obtain ⟨positive,scaled,nothing⟩ := fresh line member
    exact ⟨scaled,by simp [nothing,zero_mem],nothing.trans_le positive.le⟩
  · rw [unlocked]
    exact compatible_nil
  · rw [idle t]
    trivial

/-- The states of runs in which every status is set in time and no receipt fills the lines by rounding alone. -/
def Reached : State → Prop := Reachable Initial (Restricted Timely (OfNext next))

theorem Reached.invariant (reached : Reached s) : Invariant s :=
  Reachable.invariant reached (fun _ => Initial.invariant) fun _ _ _ invariant taken => invariant.next taken.2 taken.1

/-- A step that is not timely leaves an order whose status does not follow its lines. -/
theorem Invariant.not_inOrder (invariant : Invariant s) (taken : PurchaseOrders.advance s t = some s') (late : ¬Timely s (.advance t)) :
    ¬InOrder s'.order := by
  have mine := invariant.phases t
  intro inOrder
  simp only [Timely] at late
  split at late
  · next target at_ =>
    rw [at_] at mine
    have some_receipt : s.order.receipts ≠ [] := fun none => late (invariant.order.before none)
    simp only [PurchaseOrders.advance,at_] at taken
    split at taken
    · cases taken
      obtain ⟨cancelled,_,ordered⟩ := inOrder.kept some_receipt
      exact mine.elim ordered cancelled
    · cases taken
  · next data session at_ =>
    rw [at_] at mine
    obtain ⟨_,rfl,_⟩ := mine
    obtain ⟨rounded,short⟩ := not_not.mp late
    simp only [PurchaseOrders.advance,at_,Option.some.injEq] at taken
    subst taken
    have some_session : received data s.order.lines ≠ [] := by simpa [received] using invariant.order.some_line
    have follows := inOrder.status (by simp [State.finish,State.goto,PurchaseOrder.receive])
    simp [State.finish,State.goto,PurchaseOrder.receive,refresh_received invariant.order.lines,some_session,short,
      rounded] at follows
  · exact late trivial

/-- An order of ten pieces, as it is created. -/
def drafted : State :=
  ⟨⟨1,1,.draft,[⟨1,none,10,0⟩],[]⟩,[],fun _ => .absent⟩

theorem drafted_initial : Initial drafted := by
  refine ⟨⟨rfl,by simp [drafted],rfl,fun line member => ?_⟩,rfl,fun _ => rfl⟩
  cases List.mem_singleton.mp member
  exact ⟨by norm_num,Decimal.mem_grid.mpr ⟨100000,by norm_num⟩,rfl⟩

def receive (qty : ℚ) : Request := .createPurchaseReceipt ⟨1,1,[⟨1,none,some 0,qty,5⟩]⟩

end PurchaseOrders
