import SasBackend.Semantics.SaleReplay
import SasBackend.SyncPush

/-! What a device may conclude when its sale is answered as already applied. -/
namespace SaleReplay
open SasBackend SyncPush

variable {ρ η : Type} [DecidableEq η] {businessId : Nat} {acceptance : Acceptance ρ} {store : Store ρ}
  {p : SaleCreatePayload} {sale : Sale}

/-- The stored sale has the op's content, in whatever order its rows are read. -/
structure SameContent (sale : Sale) (p : SaleCreatePayload) : Prop where
  branch : sale.branchId = p.branchId
  customer : sale.customerId = p.customerId
  lines : (sale.lines.map fun line => (line.productId,line.variationId,line.qty,line.unitPrice,line.discountAmount,
    line.taxAmount)).Perm (p.lines.map fun line => (line.productId,line.variationId,line.qty,line.unitPrice,
      line.discountAmount,line.taxAmount))
  payments : (sale.payments.map fun payment => (payment.paymentMethod,payment.amount)).Perm
    (p.payments.map fun payment => (payment.paymentMethod,payment.amount))

/-- A sale with the op's id, or of the business with its receipt number. -/
def Present (businessId : Nat) (store : Store ρ) (p : SaleCreatePayload) : Prop :=
  ∃ sale ∈ store.sales, sale.id = p.id ∨ sale.businessId = businessId ∧ sale.clientReceiptNo = some p.clientReceiptNo

/-- Sales are replayed by the handler above. -/
def Replays (businessId : Nat) (acceptance : Acceptance ρ) (world : World (Store ρ) Payload) : Prop :=
  ∀ op rows p, op.type = "sale.create" → op.payload = .saleCreate p →
    world.handler op rows = hSaleCreate businessId acceptance p rows

/-- Under an op id of its own, whoever pushes it and whatever else the server is set to, a sale that the
server has is accepted only with the content of the stored sale that the answer names. -/
def AcknowledgesSame (η : Type) [DecidableEq η] (businessId : Nat) (acceptance : Acceptance ρ) (store : Store ρ)
    (p : SaleCreatePayload) : Prop :=
  ∀ (server : Server Payload η) (world : World (Store ρ) Payload) (op : OpEnvelope Payload)
    (ops : Nat → Option (SyncOp η)), Replays businessId acceptance world → op.type = "sale.create" →
    op.payload = .saleCreate p → ops op.opId = none → Present businessId store p →
    (runOp server world op ⟨store,ops⟩).result.accepted = true →
      ∃ sale ∈ store.sales, (runOp server world op ⟨store,ops⟩).result.serverId = some sale.id ∧ SameContent sale p

omit [DecidableEq η] in
theorem existing_isSome (present : Present businessId store p) : (existing businessId store p).isSome := by
  obtain ⟨sale,member,byId_ | ⟨business,receipt⟩⟩ := present
  · have found : (byId store p).isSome := List.find?_isSome.mpr ⟨sale,member,decide_eq_true byId_⟩
    rw [existing,Option.isSome_or,found,Bool.true_or]
  · have found : (byReceipt businessId store p).isSome :=
      List.find?_isSome.mpr ⟨sale,member,by simp [business,receipt]⟩
    rw [existing,Option.isSome_or,found,Bool.or_true]

theorem byId_eq_some (member : sale ∈ store.sales) (same : sale.id = p.id) : byId store p = some sale := by
  cases found : byId store p with
  | none => exact absurd (decide_eq_true same) (List.find?_eq_none.mp found sale member)
  | some other =>
    have named : other.id = p.id := by simpa using List.find?_some found
    exact congrArg some
      (List.inj_on_of_nodup_map store.distinct (List.mem_of_find?_eq_some found) member (named.trans same.symm))

/-- A present sale is answered from its stored row or refused. -/
theorem hSaleCreate_present (present : Present businessId store p) :
    (∃ sale ∈ store.sales, sale.businessId = businessId ∧ sameSale sale p = true ∧
        hSaleCreate businessId acceptance p store = .done ⟨some sale.id,some sale.saleNumber,sale.syncFlags,true⟩ store) ∨
      ∃ rejection, hSaleCreate businessId acceptance p store = .reject rejection := by
  obtain ⟨sale,found⟩ := Option.isSome_iff_exists.mp (existing_isSome present)
  unfold hSaleCreate
  split
  · exact .inr ⟨_,rfl⟩
  · next own =>
    split
    · next other known =>
      rw [found] at known
      cases known
      split
      · next same =>
        refine .inl ⟨sale,?_,?_,same,rfl⟩
        · rcases Option.or_eq_some_iff.mp found with byId_ | ⟨-,receipt⟩
          · exact List.mem_of_find?_eq_some byId_
          · exact List.mem_of_find?_eq_some receipt
        · rcases Option.or_eq_some_iff.mp found with byId_ | ⟨-,receipt⟩
          · rw [byId_] at own
            simpa using own
          · have passes := List.find?_some receipt
            simp only [Bool.and_eq_true,decide_eq_true_eq] at passes
            exact passes.1
      · exact .inr ⟨_,rfl⟩
    · next unknown =>
      rw [found] at unknown
      cases unknown

omit [DecidableEq η] in
theorem evaluate_ok {π σ : Type} {server : Server π η} {world : World σ π} {op : OpEnvelope π} {rows changed : σ}
    {outcome : Outcome} (evaluated : evaluate server world op rows = .ok (outcome,changed)) :
    world.handler op rows = .done outcome changed := by
  unfold evaluate at evaluated
  split at evaluated
  · cases evaluated
  · split at evaluated
    · cases evaluated
    · split at evaluated
      · next done =>
        cases evaluated
        exact done
      · cases evaluated
      · cases evaluated
      · cases evaluated

omit [DecidableEq η] in
theorem finishRejected_accepted {π σ : Type} (server : Server π η) (op : OpEnvelope π) (rejection : OpReject)
    (s : State σ η) : (finishRejected server op rejection s).result.accepted = false := by
  have refused : (refusal (some op.opId) rejection.status ⟨rejection.code,rejection.message,rejection.retryable⟩).accepted =
      false := by
    unfold OpReject.status
    split <;> rfl
  unfold finishRejected
  dsimp only
  split <;> exact refused

/-- An accepted op that the log did not know was accepted by its handler. -/
theorem accepted_done {π σ : Type} {server : Server π η} {world : World σ π} {op : OpEnvelope π} {s : State σ η}
    (new : s.ops op.opId = none) (accepted : (runOp server world op s).result.accepted = true) :
    ∃ outcome rows, world.handler op s.rows = .done outcome rows ∧
      (runOp server world op s).result.serverId = outcome.serverId := by
  rcases attempts_cases server world op s [0,1,2] with same | ⟨message,same⟩
  · rw [runOp,same,runOpOnce,new] at accepted ⊢
    dsimp only at accepted ⊢
    cases evaluated : evaluate server world op s.rows with
    | error rejection =>
      rw [evaluated] at accepted
      dsimp only at accepted
      rw [finishRejected_accepted] at accepted
      cases accepted
    | ok changed =>
      obtain ⟨outcome,rows⟩ := changed
      refine ⟨outcome,rows,evaluate_ok evaluated,?_⟩
      unfold finishApplied
      dsimp only
      split <;> rfl
  · rw [runOp,same] at accepted
    cases accepted

/-- A device that may push sales, on a server that refuses nothing. -/
private def willing (businessId : Nat) (acceptance : Acceptance ρ) : World (Store ρ) Payload where
  ctx := ⟨.active,0,["sales.create"]⟩
  validate := fun _ _ => none
  handler := fun op rows => match op.payload with
    | .saleCreate p => hSaleCreate businessId acceptance p rows
    | .other _ => .httpException 500 ""
  interrupt := fun _ _ _ => none
  others := fun _ rows => rows

omit [DecidableEq η] in
private theorem willing_replays (businessId : Nat) (acceptance : Acceptance ρ) :
    Replays businessId acceptance (willing businessId acceptance) := by
  intro op rows p _ payload
  simp only [willing,payload]

private def plain [Inhabited η] : Server Payload η := ⟨14,65536,fun _ => 0,fun _ _ _ => default⟩

private theorem willing_acknowledges [Inhabited η] (member : sale ∈ store.sales)
    (own : sale.businessId = businessId) (same : sameSale sale p = true) :
    (runOp (η := η) plain (willing businessId acceptance) ⟨0,"sale.create",0,.saleCreate p,[]⟩ ⟨store,fun _ => none⟩).result =
      ⟨some 0,.duplicate,some sale.id,some sale.saleNumber,sale.syncFlags,none,some .applied⟩ := by
  have found : byId store p = some sale := byId_eq_some member (by
    simp only [sameSale,Bool.and_eq_true,decide_eq_true_eq] at same
    exact same.1.1)
  have done : hSaleCreate businessId acceptance p store =
      .done ⟨some sale.id,some sale.saleNumber,sale.syncFlags,true⟩ store := by
    have known : existing businessId store p = some sale := by rw [existing,found,Option.some_or]
    unfold hSaleCreate
    rw [if_neg (by simp [found,own])]
    split
    · next other known' =>
      rw [known] at known'
      cases known'
      rw [if_pos same]
    · next unknown =>
      rw [known] at unknown
      cases unknown
  unfold runOp
  rw [attempts]
  dsimp only [willing]
  rw [runOpOnce]
  dsimp only
  have evaluated : evaluate (η := η) plain (willing businessId acceptance) ⟨0,"sale.create",0,.saleCreate p,[]⟩ store =
      .ok (⟨some sale.id,some sale.saleNumber,sale.syncFlags,true⟩,store) := by
    unfold evaluate
    rw [show gate (η := η) plain (willing businessId acceptance).ctx ⟨0,"sale.create",0,.saleCreate p,[]⟩ = none by rfl]
    dsimp only [willing]
    rw [done]
  unfold willing at evaluated
  rw [evaluated]
  rfl

/-- Stored sales that repeat the op's id, receipt number and branch repeat its content. -/
def RepeatsContent (businessId : Nat) (store : Store ρ) (p : SaleCreatePayload) : Prop :=
  ∀ sale ∈ store.sales, sale.businessId = businessId → sale.id = p.id → sale.clientReceiptNo = some p.clientReceiptNo →
    sale.branchId = p.branchId → SameContent sale p

theorem AcknowledgesSame.repeats [Inhabited η] (acknowledges : AcknowledgesSame η businessId acceptance store p) :
    RepeatsContent businessId store p := by
  intro sale member own id receipt branch
  have same : sameSale sale p = true := by simp [sameSale,id,receipt,branch]
  have answer : (runOp (η := η) plain (willing businessId acceptance) ⟨0,"sale.create",0,.saleCreate p,[]⟩
      ⟨store,fun _ => none⟩).result = _ := willing_acknowledges member own same
  obtain ⟨other,listed,named,content⟩ := acknowledges plain (willing businessId acceptance)
    ⟨0,"sale.create",0,.saleCreate p,[]⟩ (fun _ => none) (willing_replays businessId acceptance) rfl rfl rfl
    ⟨sale,member,.inl id⟩ (by rw [answer]; rfl)
  rw [answer] at named
  have equal : other = sale := List.inj_on_of_nodup_map store.distinct listed member (Option.some.inj named).symm
  exact equal ▸ content

theorem RepeatsContent.acknowledges (repeats : RepeatsContent businessId store p) :
    AcknowledgesSame η businessId acceptance store p := by
  intro server world op ops replays type payload new present accepted
  obtain ⟨outcome,rows,done,named⟩ := accepted_done new accepted
  rw [replays op store p type payload] at done
  obtain ⟨sale,member,own,same,answer⟩ | ⟨rejection,answer⟩ := hSaleCreate_present present
  · rw [answer] at done
    cases done
    simp only [sameSale,Bool.and_eq_true,decide_eq_true_eq] at same
    exact ⟨sale,member,named,repeats sale member own same.1.1 same.1.2 same.2⟩
  · rw [answer] at done
    cases done

/-- A device may drop an acknowledged sale exactly when a repeated id, receipt number and branch always come
with the stored customer, lines and payments. -/
theorem acknowledged_same_iff [Inhabited η] (businessId : Nat) (acceptance : Acceptance ρ) (store : Store ρ)
    (p : SaleCreatePayload) :
    AcknowledgesSame η businessId acceptance store p ↔ RepeatsContent businessId store p :=
  ⟨AcknowledgesSame.repeats,RepeatsContent.acknowledges⟩

private def ten : SaleCreatePayload := ⟨7,"T1-000123",1,none,[⟨3,none,10,100,0,0⟩],[⟨.cash,1000⟩]⟩

private def one : SaleCreatePayload := { ten with lines := [⟨3,none,1,100,0,0⟩], payments := [⟨.cash,100⟩] }

private def recorded : Store Unit := ⟨[one.sale 1 "INV-20261029-0001" []],(),by decide⟩

private def unconditional : Acceptance Unit := ⟨fun _ _ => none,fun _ _ => ("INV-20261029-0002",[],())⟩

/-- Ten units under the id and receipt number of a stored sale of one unit are acknowledged. -/
theorem larger_sale_acknowledged : ¬AcknowledgesSame Unit 1 unconditional recorded ten := by
  intro acknowledges
  have content := acknowledges.repeats _ List.mem_cons_self rfl rfl rfl rfl
  exact absurd content.payments (by decide +kernel)

end SaleReplay
