import Taper.NoLostUpdate
import Taper.LockOrder

set_option autoImplicit false

/-!
# Stock transactions do not deadlock

A request claims its key first and then its rows, in the order of the sorted
lines. All requests keep to that order, so no circle of them can wait.
-/
namespace Taper.DeadlockFree
open Messages LockOrder StockConservation StockScripts NoLostUpdate Relation
open Platform hiding execTxWithTenant
open StockTables (StockLocation StockLevel StockEvent StockOutboxEvent)
open StockHandlers (Movement sortedLines lineLocation)

def rowLess (a b : StockLocation) : Prop :=
  textLess a.skuID.toList b.skuID.toList = true ∨
    (a.skuID = b.skuID ∧ textLess a.warehouseID.toList b.warehouseID.toList = true)

def before : Resource → Resource → Prop
  | .key _ _, .row _ => True
  | .row a, .row b => rowLess a b
  | _, _ => False

theorem rowLess_irrefl (a : StockLocation) : ¬rowLess a a := by
  rintro (less | ⟨-, less⟩)
  · rw [textLess_irrefl] at less
    cases less
  · rw [textLess_irrefl] at less
    cases less

theorem rowLess_trans {a b c : StockLocation} (ab : rowLess a b) (bc : rowLess b c) :
    rowLess a c := by
  rcases ab with ab | ⟨same, ab⟩
  · rcases bc with bc | ⟨same, -⟩
    · exact .inl (textLess_trans ab bc)
    · exact .inl (same ▸ ab)
  · rcases bc with bc | ⟨same', bc⟩
    · exact .inl (same ▸ bc)
    · exact .inr ⟨same.trans same', textLess_trans ab bc⟩

instance : IsStrictOrder Resource before where
  irrefl k := by
    cases k with
    | key t key => exact id
    | row loc => exact rowLess_irrefl loc
  trans a b c ab bc := by
    cases a with
    | key t key =>
      cases b with
      | key t' key' => exact ab.elim
      | row loc =>
        cases c with
        | key t' key' => exact bc.elim
        | row loc' => trivial
    | row loc =>
      cases b with
      | key t' key' => exact ab.elim
      | row loc' =>
        cases c with
        | key t' key' => exact bc.elim
        | row loc'' => exact rowLess_trans ab bc

instance : PartialOrder Resource := partialOrderOfSO before

def rows (rt : Runtime) (t : UUID) : StockCall → List Resource
  | .adjustStock req => [.row (StockLocation.stored ⟨t, req.skuId, req.warehouseId⟩)]
  | .unlockStockForAudit req => [.row ⟨t, req.skuId, req.warehouseId⟩]
  | call => (sortedLines rt call.lines).map fun l => .row (lineLocation t l)

def keyClaim (t : UUID) (key : String) : List Resource :=
  if key = "" then [] else [.key t (column 255 key)]

def claims (rt : Runtime) (call : StockCall) : List Resource :=
  match rt.scan call.tenantId with
  | none => []
  | some t => keyClaim t call.idempotencyKey ++ rows rt t call

variable {t : UUID} {rt : Runtime}

theorem line_le {a b : StockLine} (le : lineLe a b) :
    (Resource.row (lineLocation t a)) ≤ .row (lineLocation t b) := by
  rcases (lineLe_iff a b).1 le with less | ⟨same, least⟩
  · exact .inr (.inl less)
  · by_cases less : textLess a.warehouseId.toList b.warehouseId.toList = true
    · exact .inr (.inr ⟨same, less⟩)
    · have warehouse := textLess_connected (Bool.eq_false_iff.2 less) least
      refine .inl ?_
      rw [lineLocation, lineLocation, same, String.toList_inj.1 warehouse]

theorem rows_sorted (rt : Runtime) (t : UUID) (call : StockCall) :
    (rows rt t call).Pairwise (· ≤ ·) := by
  have lines : ((sortedLines rt call.lines).map fun l => Resource.row (lineLocation t l)).Pairwise
      (· ≤ ·) := List.pairwise_map.2 ((rt.sortSlice_sorted call.lines).imp line_le)
  cases call with
  | adjustStock req => exact List.pairwise_singleton ..
  | unlockStockForAudit req => exact List.pairwise_singleton ..
  | _ => exact lines

theorem rows_are_rows {call : StockCall} {k : Resource} (mem : k ∈ rows rt t call) :
    ∃ loc, k = .row loc := by
  have lines : k ∈ (sortedLines rt call.lines).map (fun l => Resource.row (lineLocation t l)) →
      ∃ loc, k = .row loc := by
    intro mem
    obtain ⟨l, -, rfl⟩ := List.mem_map.1 mem
    exact ⟨_, rfl⟩
  cases call with
  | adjustStock req => exact ⟨_, List.mem_singleton.1 mem⟩
  | unlockStockForAudit req => exact ⟨_, List.mem_singleton.1 mem⟩
  | _ => exact lines mem

theorem claims_sorted (rt : Runtime) (call : StockCall) : (claims rt call).Pairwise (· ≤ ·) := by
  unfold claims
  split
  · exact .nil
  · rename_i t parse
    unfold keyClaim
    split
    · exact rows_sorted rt t call
    · refine .cons (fun k mem => ?_) (rows_sorted rt t call)
      obtain ⟨loc, rfl⟩ := rows_are_rows mem
      exact .inr trivial

section Along

variable {α β : Type} {held : Resource → Prop} {left rest : List Resource} {loc : StockLocation}

theorem absent_ahead {k : Resource} (ahead : k :: rest <:+ left) (left' : List Resource)
    (either : left' = left ∨ left' = k :: rest) : rest <:+ left' := by
  rcases either with rfl | rfl
  · exact (List.suffix_cons k rest).trans ahead
  · exact List.suffix_cons k rest

theorem along_get {Q : (Resource → Prop) → List Resource → Option StockLevel → Prop}
    (ahead : loc.stored = loc → .row loc :: rest <:+ left)
    (absent : ∀ left', left' = left ∨ left' = .row loc :: rest → Q held left' none)
    (found : ∀ level, Q (locked loc held) rest (some level)) :
    Along (getStockLevelForUpdate loc) held left Q := by
  refine along_bind (along_require ?_)
  split
  · rename_i within
    refine .inr ⟨rest, ahead within, fun (cell : Option StockLevel) => ?_⟩
    cases cell with
    | none => exact ⟨fun _ => absent _ (.inr rfl), fun read => absurd rfl read⟩
    | some level => exact ⟨fun read => absurd read (Option.some_ne_none _), fun _ => found level⟩
  · exact absent left (.inl rfl)

theorem along_get_own {Q : (Resource → Prop) → List Resource → Option StockLevel → Prop}
    (own : loc.stored = loc → held (.row loc)) (absent : Q held left none)
    (found : loc.stored = loc → ∀ level, Q held left (some level)) :
    Along (getStockLevelForUpdate loc) held left Q := by
  refine along_bind (along_require ?_)
  split
  · rename_i within
    refine .inl ⟨own within, fun (cell : Option StockLevel) => ?_⟩
    cases cell with
    | none => exact absent
    | some level => exact found within level
  · exact absent

variable {Q : (Resource → Prop) → List Resource → Unit → Prop} {orderID : String} {l : StockLine}

theorem along_write {old new : StockLevel} (done : Q held left ()) :
    Along (writeLevel old new).2 held left Q := by
  unfold writeLevel
  cases new.check with
  | error e => trivial
  | ok u => exact done

theorem along_update {level : StockLevel} (own : held (.row loc)) (done : Q held left ()) :
    Along (updateStockLevel loc level) held left Q := by
  refine .inl ⟨own, fun (cell : Option StockLevel) => ?_⟩
  cases cell with
  | none => trivial
  | some old => exact along_write done

theorem along_event {e : StockEvent} (done : Q held left ()) :
    Along (insertStockEvent e) held left Q :=
  along_bind (along_require done)

theorem along_outbox {e : StockOutboxEvent} (done : Q held left ()) :
    Along (insertOutboxEvent e) held left Q :=
  along_bind (along_require done)

theorem along_upsert {availableQty : Int32} (ahead : .row loc.stored :: rest <:+ left)
    (done : Q (locked loc.stored held) rest ()) :
    Along (upsertStockLevel loc availableQty) held left Q := by
  refine along_bind (along_require ?_)
  simp only
  split
  · trivial
  · refine .inr ⟨rest, ahead, fun (cell : Option StockLevel) => ?_⟩
    cases cell with
    | none => exact ⟨fun read => absurd read (Option.some_ne_none _), fun _ => done⟩
    | some level =>
      simp only [addAvailable]
      split
      · refine ⟨fun read => absurd read ?_, fun _ => along_write done⟩
        unfold writeLevel
        cases StockTables.StockLevel.check _ with
        | error e => exact Option.some_ne_none _
        | ok u => exact Option.some_ne_none _
      · exact ⟨fun read => absurd read (Option.some_ne_none _), fun _ => trivial⟩

theorem along_key {key hash : String} {Q : (Resource → Prop) → List Resource → Bool → Prop}
    (ahead : .key t (column 255 key) :: rest <:+ left)
    (done : ∀ held left new, rest <:+ left → Q held left new) :
    Along (checkAndInsertIdempotencyKey t key hash) held left Q := by
  refine along_bind (along_require (.inr ⟨rest, ahead, fun (cell : Option String) => ?_⟩))
  cases cell with
  | none =>
    exact ⟨fun read => absurd read (Option.some_ne_none _), fun _ => done _ _ _ List.suffix_rfl⟩
  | some h => exact ⟨fun _ => done _ _ _ (List.suffix_cons ..), fun read => absurd rfl read⟩

theorem along_keyed {key : String} {msg : Message} {again work : Statements α}
    (dup : ∀ held left, rest <:+ left → Along again held left fun _ _ _ => True)
    (new : ∀ held left, rest <:+ left → Along work held left fun _ _ _ => True) :
    Along (keyed rt t key msg again work) held (keyClaim t key ++ rest) fun _ _ _ => True := by
  have branch : ∀ held left (repeated : Bool), rest <:+ left →
      Along (if repeated then again else work) held left fun _ _ _ => True := by
    intro held left repeated ahead
    cases repeated with
    | true => exact dup held left ahead
    | false => exact new held left ahead
  refine along_bind ?_
  unfold tryIdempotency keyClaim
  split
  · exact branch held _ false List.suffix_rfl
  · exact along_bind (along_key List.suffix_rfl fun held left new ahead =>
      branch held left (!new) ahead)

theorem along_moveLine {m : Movement} {level : StockLevel} (own : held (.row (lineLocation t l)))
    (done : Q held left ()) :
    Along (moveLine m t orderID l level) held left Q :=
  along_bind (along_update own (along_bind (along_event (along_outbox done))))

theorem along_reserveLine (ahead : .row (lineLocation t l) :: rest <:+ left) :
    Along (reserveLine t orderID l) held left fun _ left _ => rest <:+ left := by
  refine along_bind (along_get (fun _ => ahead) (absent_ahead ahead) fun level => ?_)
  simp only
  split
  · exact List.suffix_rfl
  · exact along_bind (along_moveLine (.inl rfl) List.suffix_rfl)

theorem along_releaseLine {reason : String} (ahead : .row (lineLocation t l) :: rest <:+ left) :
    Along (releaseLine t orderID reason l) held left fun _ left _ => rest <:+ left :=
  along_bind (along_get (fun _ => ahead) (absent_ahead ahead) fun _ =>
    along_bind (along_moveLine (.inl rfl) List.suffix_rfl))

theorem along_requiredLine {m : Movement} {report : StockLevel → β}
    (ahead : .row (lineLocation t l) :: rest <:+ left) :
    Along (requiredLine m report t orderID l) held left fun _ left _ => rest <:+ left :=
  along_bind (along_get (fun _ => ahead) (fun _ _ => trivial) fun _ =>
    along_bind (along_moveLine (.inl rfl) List.suffix_rfl))

theorem along_lines {lines : List StockLine} {visit : StockLine → Statements (Option β)}
    {rest : List β → Statements α}
    (each : ∀ l rest held left, .row (lineLocation t l) :: rest <:+ left →
      Along (visit l) held left fun _ left _ => rest <:+ left)
    (later : ∀ held left out, Along (rest out) held left fun _ _ _ => True)
    (ahead : (sortedLines rt lines).map (fun l => .row (lineLocation t l)) <:+ left) :
    Along (TwoPhase.Script.collect visit (sortedLines rt lines) >>= rest) held left
      fun _ _ _ => True :=
  along_bind (along_mono (fun _ own => own) (fun _ held left out _ _ => later held left out)
    (along_collect each ahead))

theorem along_execTx {tenantId : String} {m : Statements α}
    (inner : Along m held left fun _ _ _ => True) :
    Along (execTxWithTenant rt tenantId m) held left fun _ _ _ => True := by
  unfold execTxWithTenant
  split
  · trivial
  · split
    · trivial
    · exact inner

theorem along_adjust {req : AdjustStockRequest} :
    Along (adjust rt t req) held
      (keyClaim t req.idempotencyKey ++
        [.row (StockLocation.stored ⟨t, req.skuId, req.warehouseId⟩)])
      fun _ _ _ => True := by
  refine along_keyed (fun held left ahead => ?_) fun held left ahead => ?_
  · exact along_bind (along_get (fun within => within ▸ ahead) (fun _ _ => trivial)
      fun _ => trivial)
  · have own (within : StockLocation.stored ⟨t, req.skuId, req.warehouseId⟩ =
        ⟨t, req.skuId, req.warehouseId⟩) : locked (StockLocation.stored ⟨t, req.skuId,
          req.warehouseId⟩) held (.row ⟨t, req.skuId, req.warehouseId⟩) :=
      .inl (congrArg Resource.row within.symm)
    refine along_bind (along_upsert ahead (along_bind
      (along_get_own own trivial fun within level => ?_)))
    refine along_bind (along_update (own within) (along_bind (along_event ?_)))
    refine along_bind (along_outbox ?_)
    split
    · exact along_bind (along_outbox trivial)
    · trivial

theorem along_unlock {req : UnlockStockForAuditRequest}
    (ahead : [.row ⟨t, req.skuId, req.warehouseId⟩] <:+ left) :
    Along (unlock t req) held left fun _ _ _ => True := by
  refine along_bind (along_get (fun _ => ahead) (fun _ _ => trivial) fun level => ?_)
  refine along_bind (.inl ⟨.inl rfl, fun (cell : Option StockLevel) => ?_⟩)
  cases cell with
  | none => exact along_bind (along_event trivial)
  | some level => exact along_bind (along_event trivial)

end Along

theorem along_script {call : StockCall} {m : RequestScript} (h : script rt call = some m) :
    Along m (fun _ => False) (claims rt call) fun _ _ _ => True := by
  have rpc : ∀ {α : Type} {context : String} {answer : Except Failure α → StockReplays.StockAnswer}
      {fn : UUID → Statements α}, (∀ t, Along (fn t) (fun _ => False)
        (keyClaim t call.idempotencyKey ++ rows rt t call) fun _ _ _ => True) →
      Along (tenantRpc rt call.tenantId context answer fn) (fun _ => False) (claims rt call)
        fun _ _ _ => True := by
    intro α context answer fn inner
    unfold tenantRpc parseUUID claims
    cases rt.scan call.tenantId with
    | none => trivial
    | some t => exact along_report (along_execTx (inner t))
  cases call with
  | adjustStock req =>
    cases h
    exact rpc fun t => along_adjust
  | reserveStock req =>
    cases h
    unfold reserveStock parseUUID claims
    cases parse : rt.scan req.tenantId with
    | none => trivial
    | some t =>
      simp only [StockCall.tenantId, parse]
      split
      · trivial
      · refine along_report (along_execTx (along_keyed (fun _ _ _ => trivial) fun _ _ ahead => ?_))
        refine along_lines (fun _ _ _ _ => along_reserveLine) (fun _ _ out => ?_) ahead
        split
        · trivial
        · trivial
  | releaseStock req =>
    cases h
    refine rpc fun t => along_keyed (fun _ _ _ => trivial) fun _ _ ahead => ?_
    exact along_lines (fun _ _ _ _ => along_releaseLine) (fun _ _ _ => trivial) ahead
  | confirmStockAllocation req =>
    cases h
    refine rpc fun t => along_keyed (fun _ _ _ => trivial) fun _ _ ahead => ?_
    exact along_lines (fun _ _ _ _ => along_requiredLine) (fun _ _ _ => trivial) ahead
  | fulfillStock req =>
    cases h
    refine rpc fun t => along_keyed (fun _ _ _ => trivial) fun _ _ ahead => ?_
    exact along_lines (fun _ _ _ _ => along_requiredLine) (fun _ _ _ => trivial) ahead
  | unlockStockForAudit req =>
    cases h
    exact rpc fun t => along_unlock List.suffix_rfl
  | reconcile => cases h

def orders (rt : Runtime) (calls : List StockCall) (i : ℕ) : List Resource :=
  (calls[i]?.map (claims rt)).getD []

theorem orders_sorted (rt : Runtime) (calls : List StockCall) (i : ℕ) :
    (orders rt calls i).Pairwise (· ≤ ·) := by
  unfold orders
  cases calls[i]? with
  | none => exact .nil
  | some call => exact claims_sorted rt call

/-- In no state that requests can reach at the same time do some of them wait
for each other in a circle: neither where each makes its claims one by one, nor
where each runs its statements. -/
theorem stock_never_deadlocks (rt : Runtime) (calls : List StockCall) :
    (∀ s, Reachable (orders rt calls) s → ∀ i, ¬TransGen (Waits s) i i) ∧
    ∀ db schedule st, concurrently rt calls schedule db = some st →
      ∀ i, ¬TransGen (Blocked st) i i := by
  refine ⟨fun s reach i => no_circle_of_waits reach (orders_sorted rt calls) i,
    fun db schedule st run i => scripts_no_circle (orders_sorted rt calls) ?_ run i⟩
  intro i m task
  obtain ⟨call, at_, found⟩ := Option.bind_eq_some_iff.1 task
  have along := along_script found
  rwa [show claims rt call = orders rt calls i by simp [orders, at_]] at along

def crossed : List StockCall :=
  [.reserveStock ⟨sampleTenant.text, "O1", "", [⟨"SKU", "W1", 1⟩, ⟨"SKU", "W2", 1⟩]⟩,
    .reserveStock ⟨sampleTenant.text, "O2", "", [⟨"SKU", "W2", 1⟩, ⟨"SKU", "W1", 1⟩]⟩]

theorem stock_never_deadlocks_crossed :
    ∃ st, concurrently (reference []) crossed [0] fiveUnits = some st ∧
      st.holder (.row sampleLocation) = some 0 ∧ Blocked st 1 0 ∧ ¬TransGen (Blocked st) 1 1 := by
  refine ⟨_, rfl, rfl, ⟨_, _, _, _, rfl, rfl, by decide⟩, ?_⟩
  exact (stock_never_deadlocks (reference []) crossed).2 fiveUnits [0] _ rfl 1

end Taper.DeadlockFree
