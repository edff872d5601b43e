import SasBackend.ReturnProration
import SasBackend.Semantics.SplitReturns

/-! The amounts of return lines submitted together and one at a time.
Both go through the same lines side by side: as long as nothing has told them apart, the requests before have put on
record what the one request holds in memory.
-/
namespace Refunds
open SasBackend Pricing Tally Transition

variable {s t : State} {pending items : List Prepared} {lines earlier : List ReturnLineRequest} {line : ReturnLineRequest}
  {item : Prepared} {id : LineId} {original : SaleLine} {count : ℚ → ℚ}

def ReturnLine.Scaled (line : ReturnLine) : Prop :=
  line.qty ∈ Decimal.grid 4 ∧ line.discountAmount ∈ Decimal.grid 2 ∧ line.taxAmount ∈ Decimal.grid 2

/-- Quantities are kept in four decimals, and discount and tax in two. -/
structure Columns (s : State) : Prop where
  sold : ∀ id original, s.line id = some original → original.qty ∈ Decimal.grid 4
  returned : ∀ line ∈ returnedLines s, line.Scaled

theorem store_scaled (item : Prepared) : item.store.Scaled :=
  ⟨Decimal.quantize_mem_grid 4 _,Decimal.quantize_mem_grid 2 _,Decimal.quantize_mem_grid 2 _⟩

theorem columns_of_reachable (reached : Reachable Initial (OfNext next) s)
    (sold : ∀ id original, s.line id = some original → original.qty ∈ Decimal.grid 4) : Columns s := by
  have returned : ∀ line ∈ returnedLines s, line.Scaled := by
    apply reached.invariant
    case base =>
      intro s none
      rw [returnedLines,none]
      exact List.forall_mem_nil _
    intro s action t scaled taken
    cases action with
    | createSale data =>
      obtain ⟨sale,-,rfl⟩ := Option.map_eq_some_iff.mp taken
      exact scaled
    | createSaleReturn data =>
      obtain ⟨r,created,rfl⟩ := Option.map_eq_some_iff.mp taken
      obtain ⟨items,accepted⟩ := createSaleReturn_ok (Outcome.toOption_eq_some.mp created)
      rw [returnedLines_snoc,accepted.lines]
      exact List.forall_mem_append.mpr ⟨scaled,List.forall_mem_map.mpr fun item _ => store_scaled item⟩
  exact ⟨sold,returned⟩

theorem Columns.amounts (columns : Columns s) (id : LineId) : (alreadyReturnedAmounts s id).qty ∈ Decimal.grid 4 ∧
    (alreadyReturnedAmounts s id).discount ∈ Decimal.grid 2 ∧ (alreadyReturnedAmounts s id).tax ∈ Decimal.grid 2 :=
  ⟨tally_mem fun line member => (columns.returned line member).1,tally_mem fun line member => (columns.returned line member).2.1,
    tally_mem fun line member => (columns.returned line member).2.2⟩

theorem returnedLines_file (s : State) (items : List Prepared) : returnedLines (s.file items) = returnedLines s ++ items.map Prepared.store := by
  rw [State.file,returnedLines_snoc]

theorem Columns.file (columns : Columns s) (items : List Prepared) : Columns (s.file items) := by
  refine ⟨columns.sold,?_⟩
  rw [returnedLines_file]
  exact List.forall_mem_append.mpr ⟨columns.returned,List.forall_mem_map.mpr fun item _ => store_scaled item⟩

/-- What the one request holds in memory is on record, and the sale lines are the same. -/
structure Files (s : State) (pending : List Prepared) (t : State) : Prop where
  found : ∀ id, t.line id = s.line id
  returned : returnedLines t = returnedLines s ++ pending.map Prepared.store

theorem Files.start (s : State) : Files s [] s := ⟨fun _ => rfl,by simp⟩

theorem Files.file (files : Files s pending t) (item : Prepared) : Files s (pending ++ [item]) (t.file [item]) := by
  refine ⟨files.found,?_⟩
  rw [returnedLines_file,files.returned,List.append_assoc,List.map_append]

theorem Files.amounts (files : Files s pending t) (id : LineId) : alreadyReturnedAmounts t id =
    ⟨(alreadyReturnedAmounts s id).qty +
        tally ReturnLineRequest.saleLineId (fun other => Decimal.quantize 4 other.qty) (some id) (pending.map Prepared.request),
      (alreadyReturnedAmounts s id).discount + tally Prepared.saleLineId (fun item => item.store.discountAmount) (some id) pending,
      (alreadyReturnedAmounts s id).tax + tally Prepared.saleLineId (fun item => item.store.taxAmount) (some id) pending⟩ := by
  simp only [alreadyReturnedAmounts,files.returned,tally_append,tally_map]
  rfl

theorem Files.askedFor (files : Files s pending t) (line : ReturnLineRequest) (id : LineId) :
    t.askedFor (fun qty => qty) [] line id = s.askedFor (Decimal.quantize 4) (pending.map Prepared.request) line id := by
  simp only [State.askedFor,files.amounts,tally_nil,add_zero]

theorem Files.fits (files : Files s pending t) (line : ReturnLineRequest) (id : LineId) (original : SaleLine) :
    Refunds.fits t (fun qty => qty) [] line id original =
      Refunds.fits s (Decimal.quantize 4) (pending.map Prepared.request) line id original := by
  simp only [Refunds.fits,files.askedFor]

/-- A line that passes its checks gets what is due to it. -/
def State.prepared (s : State) (earlier : List ReturnLineRequest) (line : ReturnLineRequest) (id : LineId) (original : SaleLine) : Prepared :=
  ⟨line,original.unitPrice,
    s.due (fun qty => qty) earlier line id original original.discountAmount (alreadyReturnedAmounts s id).discount,
    s.due (fun qty => qty) earlier line id original original.taxAmount (alreadyReturnedAmounts s id).tax⟩

theorem compute_eq_due (s : State) (earlier : List ReturnLineRequest) (line : ReturnLineRequest) (id : LineId) (original : SaleLine) :
    computeReturnLineAmounts line.qty original { alreadyReturnedAmounts s id with
        qty := (alreadyReturnedAmounts s id).qty + requestedQty id earlier } =
      ((s.prepared earlier line id original).discount,(s.prepared earlier line id original).tax) := by
  have asked : s.askedFor (fun qty => qty) earlier line id = (alreadyReturnedAmounts s id).qty + requestedQty id earlier + line.qty := rfl
  simp only [computeReturnLineAmounts,State.prepared,State.due,asked,ge_iff_le,share_eq]
  by_cases leaves : (alreadyReturnedAmounts s id).qty + requestedQty id earlier + line.qty < original.qty
  · rw [if_neg leaves.not_ge,if_pos leaves,if_pos leaves]
    rfl
  · rw [if_pos (not_lt.mp leaves),if_neg leaves,if_neg leaves]

/-- A linked line passes its checks exactly when it fits. -/
theorem prepareLine_ok_iff (named : line.saleLineId = some id) (found : s.line id = some original) :
    prepareLine s pending line = .ok item ↔ fits s (fun qty => qty) (pending.map Prepared.request) line id original = true ∧
      item = s.prepared (pending.map Prepared.request) line id original := by
  have asked : s.askedFor (fun qty => qty) (pending.map Prepared.request) line id =
      (alreadyReturnedAmounts s id).qty + requestedQty id (pending.map Prepared.request) + line.qty := rfl
  have product : line.productId.any (· ≠ original.productId) = !line.productId.all (· = original.productId) := by
    cases line.productId <;> simp
  have variation : (line.variationId.isSome && line.variationId ≠ original.variationId) =
      !(line.variationId.isNone || line.variationId = original.variationId) := by
    cases line.variationId <;> simp
  have enough : decide ((alreadyReturnedAmounts s id).qty + requestedQty id (pending.map Prepared.request) + line.qty ≤ original.qty) =
      !decide (line.qty > original.qty - (alreadyReturnedAmounts s id).qty - requestedQty id (pending.map Prepared.request)) := by
    rw [← decide_not,decide_eq_decide,not_lt]
    constructor <;> intro le <;> linarith
  rw [prepareLine,named]
  dsimp only
  rw [found]
  dsimp only
  rw [prepareLinked,product,variation,fits,asked,enough,← requestedQty_map,compute_eq_due]
  cases line.productId.all (· = original.productId) with
  | false => simp
  | true =>
    cases (line.variationId.isNone || line.variationId = original.variationId : Bool) with
    | false => simp
    | true =>
      by_cases more : line.qty > original.qty - (alreadyReturnedAmounts s id).qty - requestedQty id (pending.map Prepared.request)
      · simp [more]
      · simp [more,eq_comm,State.prepared]

theorem prepareLine_isOk (named : line.saleLineId = some id) (found : s.line id = some original) :
    (∃ item, prepareLine s pending line = .ok item) ↔ fits s (fun qty => qty) (pending.map Prepared.request) line id original = true := by
  simp only [prepareLine_ok_iff named found]
  exact ⟨fun ⟨_,fit,_⟩ => fit,fun fit => ⟨_,fit,rfl⟩⟩

theorem prepareAlone_ok_iff (named : line.saleLineId = some id) (found : s.line id = some original) :
    prepareLine s [] line = .ok item ↔ fits s (fun qty => qty) [] line id original = true ∧ item = s.prepared [] line id original := by
  have alone : prepareLine s [] line = .ok item ↔ fits s (fun qty => qty) (List.map Prepared.request []) line id original = true ∧
      item = s.prepared (List.map Prepared.request []) line id original := prepareLine_ok_iff named found
  rwa [List.map_nil] at alone

/-- Every line is linked to a line that was sold. -/
def Linked (s : State) (lines : List ReturnLineRequest) : Prop := ∀ line ∈ lines, ∃ id original, line.saleLineId = some id ∧ s.line id = some original

theorem everyLine_cons {check : List ReturnLineRequest → ReturnLineRequest → LineId → SaleLine → Bool}
    (named : line.saleLineId = some id) (found : s.line id = some original) :
    everyLine s check earlier (line :: lines) = true ↔ check earlier line id original = true ∧ everyLine s check (earlier ++ [line]) lines = true := by
  rw [everyLine,named,Option.all_some,found,Option.all_some,Bool.and_eq_true]

theorem requests_snoc (requested : item.request = line) :
    (pending ++ [item]).map Prepared.request = pending.map Prepared.request ++ [line] := by
  rw [List.map_append,List.map_singleton,requested]

theorem together_accepted (linked : Linked s lines) : (∃ items, prepareLines s pending lines = .ok items) ↔
    everyLine s (fits s fun qty => qty) (pending.map Prepared.request) lines = true := by
  induction lines generalizing pending with
  | nil => exact iff_of_true ⟨pending,rfl⟩ rfl
  | cons line lines induction =>
    obtain ⟨⟨id,original,named,found⟩,linked⟩ := List.forall_mem_cons.mp linked
    rw [everyLine_cons named found,← prepareLine_isOk named found]
    constructor
    · rintro ⟨items,prepared⟩
      obtain ⟨item,first,rest⟩ := Outcome.bind_ok_iff.mp prepared
      have later := (induction linked).mp ⟨items,rest⟩
      rw [requests_snoc (prepareLine_request first)] at later
      exact ⟨⟨item,first⟩,later⟩
    · rintro ⟨⟨item,first⟩,later⟩
      rw [← requests_snoc (prepareLine_request first)] at later
      obtain ⟨items,rest⟩ := (induction linked).mpr later
      exact ⟨items,Outcome.bind_ok_iff.mpr ⟨item,first,rest⟩⟩

theorem prepareApart_cons (line : ReturnLineRequest) (lines : List ReturnLineRequest) (items : List Prepared) :
    prepareApart s (line :: lines) = .ok items ↔ ∃ item others, prepareLine s [] line = .ok item ∧
      prepareApart (s.file [item]) lines = .ok others ∧ items = item :: others := by
  rw [prepareApart]
  simp only [prepareLines,Outcome.bind_ok_iff]
  constructor
  · rintro ⟨one,⟨item,first,same⟩,others,rest,last⟩
    cases same
    exact ⟨item,others,first,rest,(Except.ok.inj last).symm⟩
  · rintro ⟨item,others,first,rest,rfl⟩
    exact ⟨[item],⟨item,first,rfl⟩,others,rest,rfl⟩

theorem prepareApart_requests (prepared : prepareApart s lines = .ok items) : items.map Prepared.request = lines := by
  induction lines generalizing s items with
  | nil =>
    cases prepared
    rfl
  | cons line lines induction =>
    obtain ⟨item,others,first,rest,rfl⟩ := (prepareApart_cons line lines items).mp prepared
    rw [List.map_cons,prepareLine_request first,induction rest]

theorem apart_accepted (files : Files s pending t) (linked : Linked s lines) : (∃ items, prepareApart t lines = .ok items) ↔
    everyLine s (fits s (Decimal.quantize 4)) (pending.map Prepared.request) lines = true := by
  induction lines generalizing pending t with
  | nil => exact iff_of_true ⟨[],rfl⟩ rfl
  | cons line lines induction =>
    obtain ⟨⟨id,original,named,found⟩,linked⟩ := List.forall_mem_cons.mp linked
    have there : t.line id = some original := (files.found id).trans found
    rw [everyLine_cons named found,← files.fits]
    constructor
    · rintro ⟨items,prepared⟩
      obtain ⟨item,others,first,rest,-⟩ := (prepareApart_cons line lines items).mp prepared
      have later := (induction (files.file item) linked).mp ⟨others,rest⟩
      rw [requests_snoc (prepareLine_request first)] at later
      exact ⟨((prepareAlone_ok_iff named there).mp first).1,later⟩
    · rintro ⟨fit,later⟩
      have first := (prepareAlone_ok_iff named there).mpr ⟨fit,rfl⟩
      rw [← requests_snoc (prepareLine_request first)] at later
      obtain ⟨others,rest⟩ := (induction (files.file _) linked).mpr later
      exact ⟨_ :: others,(prepareApart_cons line lines _).mpr ⟨_,others,first,rest,rfl⟩⟩

/-- Lines so far got their parts of every sale line of which units are left. -/
def InParts (s : State) (pending : List Prepared) : Prop :=
  ∀ id original, s.line id = some original →
    (alreadyReturnedAmounts s id).qty + requestedQty id (pending.map Prepared.request) < original.qty →
    tally Prepared.saleLineId (fun item => item.store.discountAmount) (some id) pending =
        partsBefore SaleLine.discountAmount (pending.map Prepared.request) id original ∧
      tally Prepared.saleLineId (fun item => item.store.taxAmount) (some id) pending =
        partsBefore SaleLine.taxAmount (pending.map Prepared.request) id original

theorem InParts.nil (s : State) : InParts s [] := by
  intro id original _ _
  simp [partsBefore]

theorem partsBefore_snoc (amount : SaleLine → ℚ) (earlier : List ReturnLineRequest) (line : ReturnLineRequest) (id : LineId)
    (original : SaleLine) : partsBefore amount (earlier ++ [line]) id original =
      partsBefore amount earlier id original + if line.saleLineId = some id then original.part (amount original) line.qty else 0 := by
  rw [partsBefore,tally_append,tally_singleton,partsBefore]

theorem requestedQty_snoc (id : LineId) (earlier : List ReturnLineRequest) (line : ReturnLineRequest) : requestedQty id (earlier ++ [line]) =
    requestedQty id earlier + if line.saleLineId = some id then line.qty else 0 := by
  rw [requestedQty,tally_append,tally_singleton,requestedQty]

theorem part_scaled (original : SaleLine) (amount qty : ℚ) : Decimal.quantize 2 (original.part amount qty) = original.part amount qty :=
  Decimal.quantize_of_mem_grid (Decimal.quantize_mem_grid 2 _)

theorem InParts.snoc (parts : InParts s pending) (named : line.saleLineId = some id) (found : s.line id = some original)
    (positive : 0 < line.qty) (prepared : prepareLine s pending line = .ok item) : InParts s (pending ++ [item]) := by
  obtain ⟨-,rfl⟩ := (prepareLine_ok_iff named found).mp prepared
  intro other sold there less
  rw [requests_snoc (prepareLine_request prepared),requestedQty_snoc,named] at less
  rw [requests_snoc (prepareLine_request prepared),partsBefore_snoc,partsBefore_snoc,tally_append,tally_append,tally_singleton,
    tally_singleton,named]
  have linked : Prepared.saleLineId (s.prepared (pending.map Prepared.request) line id original) = some id := named
  rw [linked]
  by_cases same : some id = some other
  · cases same
    cases found.symm.trans there
    rw [if_pos rfl] at less
    simp only [if_pos]
    have leaves : s.askedFor (fun qty => qty) (pending.map Prepared.request) line id < original.qty := by
      have asked : s.askedFor (fun qty => qty) (pending.map Prepared.request) line id =
          (alreadyReturnedAmounts s id).qty + requestedQty id (pending.map Prepared.request) + line.qty := rfl
      rw [asked,add_assoc]
      exact less
    obtain ⟨discount,tax⟩ := parts id original found (by linarith)
    have both (amount given : ℚ) : Decimal.quantize 2 (s.due (fun qty => qty) (pending.map Prepared.request) line id original amount given) =
        original.part amount line.qty := by
      rw [State.due,if_pos leaves,part_scaled]
    rw [discount,tax]
    exact ⟨congrArg _ (both _ _),congrArg _ (both _ _)⟩
  · rw [if_neg same,add_zero] at less
    simp only [if_neg same,add_zero]
    exact parts other sold there less

theorem Files.alike_iff (files : Files s pending t) (parts : InParts s pending) (found : s.line id = some original) (positive : 0 < line.qty)
    (fit : Refunds.fits s (fun qty => qty) (pending.map Prepared.request) line id original = true) :
    s.prepared (pending.map Prepared.request) line id original = t.prepared [] line id original ↔
      clearsAlike s (pending.map Prepared.request) line id original = true := by
  simp only [Refunds.fits,Bool.and_eq_true,decide_eq_true_eq] at fit
  have asked : s.askedFor (fun qty => qty) (pending.map Prepared.request) line id =
      (alreadyReturnedAmounts s id).qty + requestedQty id (pending.map Prepared.request) + line.qty := rfl
  have less := fit.2
  rw [asked] at less
  obtain ⟨discount,tax⟩ := parts id original found (by linarith)
  have due (amount given : ℚ) : t.due (fun qty => qty) [] line id original amount given =
      s.due (Decimal.quantize 4) (pending.map Prepared.request) line id original amount given := by
    rw [State.due,files.askedFor,State.due]
  simp only [State.prepared,Prepared.mk.injEq,true_and,clearsAlike,Bool.and_eq_true,decide_eq_true_eq,due,files.amounts,discount,tax]

theorem exhausted (found : s.line id = some original) (positive : ∀ line ∈ lines, 0 < line.qty)
    (taken : original.qty ≤ (alreadyReturnedAmounts s id).qty + tally ReturnLineRequest.saleLineId (fun other => count other.qty) (some id) earlier)
    (fit : everyLine s (fits s count) earlier lines = true) : ∀ line ∈ lines, line.saleLineId ≠ some id := by
  induction lines generalizing earlier with
  | nil => exact List.forall_mem_nil _
  | cons line lines induction =>
    obtain ⟨here,positive⟩ := List.forall_mem_cons.mp positive
    rw [everyLine,Bool.and_eq_true] at fit
    have other : line.saleLineId ≠ some id := by
      intro named
      have asked := fit.1
      rw [named,Option.all_some,found,Option.all_some,fits,Bool.and_eq_true,decide_eq_true_eq,State.askedFor] at asked
      linarith [asked.2]
    refine List.forall_mem_cons.mpr ⟨other,induction positive ?_ fit.2⟩
    rw [tally_append,tally_singleton,if_neg other,add_zero]
    exact taken

theorem takes_stored (columns : Columns s) (found : s.line id = some original)
    (fit : fits s (Decimal.quantize 4) earlier line id original = true) (named : line.saleLineId = some id)
    (takes : ¬ s.askedFor (Decimal.quantize 4) earlier line id < original.qty) :
    original.qty ≤ (alreadyReturnedAmounts s id).qty +
      tally ReturnLineRequest.saleLineId (fun other => Decimal.quantize 4 other.qty) (some id) (earlier ++ [line]) := by
  simp only [Refunds.fits,Bool.and_eq_true,decide_eq_true_eq] at fit
  have all := le_antisymm (not_lt.mp takes) fit.2
  rw [State.askedFor] at all
  have before : tally ReturnLineRequest.saleLineId (fun other => Decimal.quantize 4 other.qty) (some id) earlier ∈ Decimal.grid 4 :=
    tally_mem fun other _ => Decimal.quantize_mem_grid 4 other.qty
  have scaled : line.qty ∈ Decimal.grid 4 := by
    have rest := sub_mem (columns.sold id original found) (add_mem (columns.amounts id).1 before)
    rwa [all,add_sub_cancel_left] at rest
  rw [tally_append,tally_singleton,if_pos named,Decimal.quantize_of_mem_grid scaled,all,add_assoc]

theorem totals_filter {others : List Prepared} (same : items.filter (fun item => item.saleLineId = some id) =
    others.filter fun item => item.saleLineId = some id) : totals id items = totals id others := by
  simp only [totals,tally,same]

theorem totals_free (first : List Prepared) {more : List Prepared} (free : ∀ item ∈ more, item.saleLineId ≠ some id) :
    totals id (first ++ more) = totals id first := by
  simp only [totals,tally_append,tally_eq_zero free,add_zero]

theorem due_scaled {amount given : ℚ} (whole : amount ∈ Decimal.grid 2) (back : given ∈ Decimal.grid 2) :
    s.due count earlier line id original amount given ∈ Decimal.grid 2 := by
  unfold State.due
  split
  · exact Decimal.quantize_mem_grid 2 _
  · rcases max_choice (amount - given) 0 with same | same <;> rw [same]
    · exact sub_mem whole back
    · exact zero_mem _

theorem prepared_stored (columns : Columns s) (earlier : List ReturnLineRequest) (line : ReturnLineRequest) (id : LineId) (original : SaleLine) :
    (s.prepared earlier line id original).store.discountAmount = (s.prepared earlier line id original).discount ∧
      (s.prepared earlier line id original).store.taxAmount = (s.prepared earlier line id original).tax := by
  obtain ⟨-,discount,tax⟩ := columns.amounts id
  exact ⟨Decimal.quantize_of_mem_grid (due_scaled original.discountScaled discount),
    Decimal.quantize_of_mem_grid (due_scaled original.taxScaled tax)⟩

theorem Files.last (columns : Columns s) (files : Files s pending t) (named : line.saleLineId = some id) (found : s.line id = some original)
    (positive : ∀ line ∈ lines, 0 < line.qty) (differs : s.prepared (pending.map Prepared.request) line id original ≠ t.prepared [] line id original)
    (together : everyLine s (Refunds.fits s fun qty => qty) (pending.map Prepared.request) (line :: lines) = true)
    (apart : everyLine s (Refunds.fits s (Decimal.quantize 4)) (pending.map Prepared.request) (line :: lines) = true) :
    ∀ line ∈ lines, line.saleLineId ≠ some id := by
  obtain ⟨-,together⟩ := (everyLine_cons named found).mp together
  obtain ⟨fit,apart⟩ := (everyLine_cons named found).mp apart
  by_cases leaves : s.askedFor (fun qty => qty) (pending.map Prepared.request) line id < original.qty
  · by_cases leavesAlone : s.askedFor (Decimal.quantize 4) (pending.map Prepared.request) line id < original.qty
    · refine absurd ?_ differs
      simp only [State.prepared,State.due,files.askedFor,if_pos leaves,if_pos leavesAlone]
    · exact exhausted found positive (takes_stored columns found fit named leavesAlone) apart
  · refine exhausted found positive ?_ together
    rw [tally_append,tally_singleton,if_pos named,← add_assoc]
    exact not_lt.mp leaves

theorem totals_snoc (pending : List Prepared) (named : item.saleLineId = some id) :
    (totals id (pending ++ [item])).discount = (totals id pending).discount + item.store.discountAmount ∧
      (totals id (pending ++ [item])).tax = (totals id pending).tax + item.store.taxAmount := by
  simp only [totals,tally_append,tally_singleton,named,if_pos,and_self]

/-- Lines accepted in either place come to the same exactly when no parts are counted that take something off another line. -/
theorem amounts_iff (columns : Columns s) (recorded : Columns t) (files : Files s pending t) (parts : InParts s pending) (linked : Linked s lines)
    (positive : ∀ line ∈ lines, 0 < line.qty) {others : List Prepared} (together : prepareLines s pending lines = .ok items)
    (apart : prepareApart t lines = .ok others) : (∀ id, totals id items = totals id (pending ++ others)) ↔
      everyLine s (clearsAlike s) (pending.map Prepared.request) lines = true := by
  have fitTogether := (together_accepted linked).mp ⟨items,together⟩
  have fitApart := (apart_accepted files linked).mp ⟨others,apart⟩
  induction lines generalizing pending t others with
  | nil =>
    cases together
    cases apart
    exact iff_of_true (fun id => by rw [List.append_nil]) rfl
  | cons line lines induction =>
    obtain ⟨⟨id,original,named,found⟩,linkedLater⟩ := List.forall_mem_cons.mp linked
    obtain ⟨here,positiveLater⟩ := List.forall_mem_cons.mp positive
    have there : t.line id = some original := (files.found id).trans found
    obtain ⟨item,first,rest⟩ := Outcome.bind_ok_iff.mp together
    obtain ⟨alone,more,single,later,rfl⟩ := (prepareApart_cons line lines others).mp apart
    obtain ⟨fit,computed⟩ := (prepareLine_ok_iff named found).mp first
    obtain ⟨-,computedAlone⟩ := (prepareAlone_ok_iff named there).mp single
    rw [everyLine_cons named found,← files.alike_iff parts found here fit,← requests_snoc (prepareLine_request first),← computed,← computedAlone]
    by_cases same : item = alone
    · rw [and_iff_right same]
      rw [← same] at later ⊢
      have snoc : (pending ++ [item]).map Prepared.request = pending.map Prepared.request ++ [line] := requests_snoc (prepareLine_request first)
      have onward := induction (recorded.file [item]) (files.file item) (parts.snoc named found here first) linkedLater positiveLater rest later
        (snoc ▸ ((everyLine_cons named found).mp fitTogether).2) (snoc ▸ ((everyLine_cons named found).mp fitApart).2)
      rwa [List.append_assoc,List.singleton_append] at onward
    · refine iff_of_false (fun equal => same ?_) fun both => same both.1
      have free := files.last columns named found positiveLater (computed ▸ computedAlone ▸ same) fitTogether fitApart
      have before : totals id items = totals id (pending ++ [item]) :=
        totals_filter (prepareLines_without (List.filter_eq_nil_iff.mpr (by simpa using free)) rest)
      have after : totals id (pending ++ alone :: more) = totals id (pending ++ [alone]) := by
        rw [← List.singleton_append,← List.append_assoc]
        refine totals_free (pending ++ [alone]) fun item member => ?_
        exact free _ (prepareApart_requests later ▸ List.mem_map_of_mem member)
      have equal := (before.symm.trans (equal id)).trans after
      have linkedItem : item.saleLineId = some id := by rw [Prepared.saleLineId,prepareLine_request first,named]
      have linkedAlone : alone.saleLineId = some id := by rw [Prepared.saleLineId,prepareLine_request single,named]
      have discount := congrArg Totals.discount equal
      have tax := congrArg Totals.tax equal
      rw [(totals_snoc pending linkedItem).1,(totals_snoc pending linkedAlone).1,add_right_inj] at discount
      rw [(totals_snoc pending linkedItem).2,(totals_snoc pending linkedAlone).2,add_right_inj] at tax
      obtain ⟨storedDiscount,storedTax⟩ := prepared_stored columns (pending.map Prepared.request) line id original
      obtain ⟨aloneDiscount,aloneTax⟩ := prepared_stored recorded [] line id original
      rw [computed,computedAlone,storedDiscount,aloneDiscount] at discount
      rw [computed,computedAlone,storedTax,aloneTax] at tax
      rw [computed,computedAlone]
      simp only [State.prepared,Prepared.mk.injEq,true_and]
      exact ⟨discount,tax⟩

end Refunds
