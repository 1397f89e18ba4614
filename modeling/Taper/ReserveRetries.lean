import Taper.ConfirmedBacked

set_option autoImplicit false

/-!
# Reserve requests that are sent again

An attempt takes the hold, writes the rows, and gives the hold back when they
cannot be written. The stock service knows the key of the hold from then on, so
a retry is told that the units are held when they are not.
-/
namespace Taper.ReserveRetries
open Messages Platform Ledger StockTables StockHandlers StockConservation StockRuns
open StockForward ReservationTables ReservationSteps ReservationRuns Program ServiceStack Services
open StackSteps HandlerRuns OrderRows ConfirmedBacked
open StockSteps (Seen Moved)

def attempt (rt : Runtime) (req : ReserveRequest) (choices : List Choice) (s : Stack) :
    Option (Except Failure ReserveResponse × Stack) :=
  runWith (machine rt) 0 (fun _ _ _ => true) choices (reserve rt req) s

def attempts (rt : Runtime) (req : ReserveRequest) : List (List Choice) → Stack → Option Stack
  | [], s => some s
  | choices :: rest, s => do
    let out ← attempt rt req choices s
    attempts rt req rest out.2

def undoKey (req : ReserveRequest) : String := compensationKey req.tenantId req.orderId

/-- No attempt begins with the key of the hold and the order's compensation
key both recorded at the stock service. -/
def Uncompensated (rt : Runtime) (t : UUID) (req : ReserveRequest) :
    List (List Choice) → Stack → Prop
  | [], _ => True
  | choices :: rest, s =>
    ¬(Seen s.stock t req.idempotencyKey ∧ Seen s.stock t (undoKey req)) ∧
    ∀ out, attempt rt req choices s = some out → Uncompensated rt t req rest out.2

def wantedLines (req : ReserveRequest) : List StockLine := req.items.map itemLine

structure Untried (t : UUID) (req : ReserveRequest) (s : Stack) : Prop where
  checked : Checked s.stock
  unheld : ¬Seen s.stock t req.idempotencyKey
  unrecorded : ¬Recorded reservationKeys s.reservation t req.idempotencyKey
  noRows : NoActive s t (column 255 req.orderId)

/-- The active rows are units that were available at the start and are
reserved now; under a key, no others are. -/
structure Backed (t : UUID) (req : ReserveRequest) (start s : Stack) : Prop where
  covered : ∀ loc, quantityAt t loc (activeLines s t (column 255 req.orderId)) ≤
    (held s.stock loc).2.1 - (held start.stock loc).2.1
  same : req.idempotencyKey ≠ "" → ∀ loc, held s.stock loc =
    held start.stock loc + quantityAt t loc (activeLines s t (column 255 req.orderId)) • (-1, 1, 0)

/-- The hold was taken `n` times and the rows were written `m` times. -/
structure Tally (t : UUID) (req : ReserveRequest) (start : Stack) (n m : ℕ) (s : Stack) :
    Prop where
  checked : Checked s.stock
  hold : ∀ loc, held s.stock loc =
    held start.stock loc + (n * quantityAt t loc (wantedLines req)) • (-1, 1, 0)
  rows : ∀ loc, quantityAt t loc (activeLines s t (column 255 req.orderId)) =
    m * quantityAt t loc (wantedLines req)
  le : m ≤ n
  whole : 1 ≤ n → (wantedLines req).map cutLine = wantedLines req
  positive : 1 ≤ m → ∀ loc, 0 ≤ quantityAt t loc (wantedLines req)
  seen : Seen s.stock t req.idempotencyKey → n = 1
  unseen : req.idempotencyKey ≠ "" → ¬Seen s.stock t req.idempotencyKey → n = 0
  recorded : Recorded reservationKeys s.reservation t req.idempotencyKey → m = 1
  unrecorded : req.idempotencyKey ≠ "" →
    ¬Recorded reservationKeys s.reservation t req.idempotencyKey → m = 0

section Attempt

variable {rt : Runtime} {t : UUID} {req : ReserveRequest} {start s s' : Stack} {n m : ℕ}
  {c : Choice}

theorem Untried.tally (untried : Untried t req start) : Tally t req start 0 0 start where
  checked := untried.checked
  hold loc := by simp
  rows loc := by
    rw [activeLines_none untried.noRows]
    simp [quantityAt]
  le := le_rfl
  whole none_ := by omega
  positive none_ := by omega
  seen seen := absurd seen untried.unheld
  unseen _ _ := rfl
  recorded found := absurd found untried.unrecorded
  unrecorded _ _ := rfl

theorem Tally.frame (tally : Tally t req start n m s) (stock : s'.stock = s.stock)
    (reservation : s'.reservation = s.reservation) : Tally t req start n m s' := by
  have lines : activeLines s' t (column 255 req.orderId) =
      activeLines s t (column 255 req.orderId) := by
    unfold activeLines
    rw [reservation]
  refine ⟨stock ▸ tally.checked, stock ▸ tally.hold, lines ▸ tally.rows, tally.le, tally.whole,
    tally.positive, stock ▸ tally.seen, stock ▸ tally.unseen, ?_, ?_⟩
  · rw [reservation]
    exact tally.recorded
  · rw [reservation]
    exact tally.unrecorded

/-- Rows that were written under a key are exactly the units held. -/
theorem Tally.backed (tally : Tally t req start n m s) (some_ : 1 ≤ m)
    (keyed : req.idempotencyKey ≠ "" → n = m) : Backed t req start s where
  covered loc := by
    have more : (m : ℤ) * quantityAt t loc (wantedLines req) ≤
        n * quantityAt t loc (wantedLines req) :=
      mul_le_mul_of_nonneg_right (by exact_mod_cast tally.le) (tally.positive some_ loc)
    rw [tally.rows loc, tally.hold loc]
    simp only [Prod.smul_mk, smul_eq_mul, mul_one, Prod.snd_add, Prod.fst_add]
    omega
  same key loc := by rw [tally.hold loc, tally.rows loc, keyed key]

/-- What `Reserve` has in hand when the stock service said yes. -/
structure Ready (t : UUID) (req : ReserveRequest) (start : Stack) (n m : ℕ) (s : Stack) :
    Prop where
  tally : Tally t req start n m s
  keyed : req.idempotencyKey ≠ "" → n = 1
  bare : req.idempotencyKey = "" → m + 1 ≤ n ∧
    ∀ l ∈ wantedLines req, s.stock.stockLevels (lineLocation t l) ≠ none

def stockRequest (req : ReserveRequest) : ReserveStockRequest :=
  ⟨req.tenantId, req.orderId, req.idempotencyKey, wantedLines req⟩

theorem Tally.reserve {resp : ReserveStockResponse} (tally : Tally t req start n m s)
    (parse : rt.scan req.tenantId = some t) (success : resp.success = true)
    (run : exec rt 0 (.reserveStock (stockRequest req)) c s = some (.ok resp, s')) :
    ∃ n', Ready t req start n' m s' := by
  rcases exec_reserveStock run with ⟨u, db, parse', -, moved, rfl⟩ | ⟨failed, -⟩
  · cases parse'.symm.trans parse
    have rows : ∀ loc, quantityAt t loc (activeLines (Stack.withStock s db) t
        (column 255 req.orderId)) = m * quantityAt t loc (wantedLines req) := tally.rows
    by_cases seen : Seen s.stock t req.idempotencyKey
    · cases moved with
      | duplicate _ same =>
        subst same
        exact ⟨n, tally, fun _ => tally.seen seen, fun empty => absurd empty seen.1⟩
      | fresh unseen _ _ => exact absurd seen unseen
    · have located := (exec_reserve_first parse success run).2 seen
      have taken : ∀ loc, held db loc =
          held s.stock loc + quantityAt t loc (wantedLines req) • (-1, 1, 0) := by
        intro loc
        have after := moved_held (reserveMove_along _) moved tally.checked
          (fun l member => (located l member).1) loc
        rwa [if_neg (show ¬Seen s.stock t (stockRequest req).idempotencyKey from seen)] at after
      have keyed : req.idempotencyKey ≠ "" → n = 0 := fun key => tally.unseen key seen
      have le := tally.le
      have checked := moved_checked moved tally.checked
      refine ⟨n + 1, ⟨checked, fun loc => ?_, rows, by omega, fun _ => ?_, tally.positive,
        fun seen' => ?_, fun key unseen' => ?_, tally.recorded, tally.unrecorded⟩,
        fun key => ?_, fun _ => ⟨?_, fun l member => ?_⟩⟩
      · change held db loc = _
        rw [taken loc, tally.hold loc, add_assoc, ← add_smul, Nat.cast_add, Nat.cast_one, add_mul,
          one_mul]
      · exact cut_located tally.checked fun l member => (located l member).1
      · have := keyed seen'.1
        omega
      · exact absurd (moved_self moved key) unseen'
      · have := keyed key
        omega
      · omega
      · exact moved_located moved (located l member).1
  · have no := failed resp rfl
    rw [success] at no
    cases no

theorem quantityAt_append (loc : StockLocation) (xs ys : List StockLine) :
    quantityAt t loc (xs ++ ys) = quantityAt t loc xs + quantityAt t loc ys := by
  simp [quantityAt]

theorem Ready.insert {expiresAt : ℤ} {first : Option ℕ} (ready : Ready t req start n m s)
    (run : exec rt 0 (.insertReservations t req expiresAt) c s = some (.ok first, s')) :
    Tally t req start n (m + 1) s' ∧ (req.idempotencyKey ≠ "" → n = m + 1) := by
  have tally := ready.tally
  rcases exec_insert run with ⟨first', -, new, fits, after⟩ | ⟨⟨e, eq⟩, -⟩
  · have keyed_ := keyed_rows t req.idempotencyKey (rt.payloadHash (.reserve req)) s.reservation
    have appended : s'.reservation.reservations = s.reservation.reservations ++
        newRows t req.orderId expiresAt s.reservation.nextID req.items := by
      rw [after]
      simp only [inserted, keyed_.1, keyed_.2]
    have stock : s'.stock = s.stock := by rw [after]
    have none_ : req.idempotencyKey ≠ "" → m = 0 := fun key => tally.unrecorded key new
    have le : m + 1 ≤ n := by
      by_cases key : req.idempotencyKey = ""
      · exact (ready.bare key).1
      · rw [none_ key, ready.keyed key]
    refine ⟨⟨stock ▸ tally.checked, stock ▸ tally.hold, fun loc => ?_, le, tally.whole,
      fun _ loc => ?_,
      stock ▸ tally.seen, stock ▸ tally.unseen, fun found => ?_, fun key missing => ?_⟩,
      fun key => ?_⟩
    · rw [activeLines_inserted appended, if_pos rfl, quantityAt_append, tally.rows loc,
        Nat.cast_add, Nat.cast_one, add_mul, one_mul]
      exact congrArg (_ + quantityAt t loc ·) (tally.whole (by omega))
    · refine quantityAt_nonneg fun l member => ?_
      obtain ⟨it, here, rfl⟩ := List.mem_map.1 member
      have fit := fits it here
      simp only [itemFits, Bool.and_eq_true, decide_eq_true_eq] at fit
      exact (Int32.lt_iff_toInt_lt.1 fit.1.2).le
    · rw [none_ found.1]
    · exact absurd (insert_answered key run (.inl ⟨first, rfl⟩)) missing
    · rw [none_ key, ready.keyed key]
  · cases eq

/-- What an attempt leaves: holds for the rows there are, unless a keyed hold
was given back; and rows that are backed when it answers yes. -/
def Leaves (t : UUID) (req : ReserveRequest) (start : Stack) (r : Except Failure ReserveResponse)
    (s : Stack) : Prop :=
  ((Seen s.stock t req.idempotencyKey ∧ Seen s.stock t (undoKey req)) ∨
      ∃ n m, Tally t req start n m s) ∧
    ∀ resp, r = .ok resp → resp.success = true → Backed t req start s

variable {e : Failure} {adm : Op → Choice → Stack → Prop}

theorem Tally.fails (tally : Tally t req start n m s) :
    Leaves t req start (.error e) s :=
  ⟨.inr ⟨n, m, tally⟩, fun resp eq => by cases eq⟩

/-- A hold without a key is given back at most as often as it was taken. -/
theorem Ready.undo {reason : String} {msg : Message} {db : StockDb}
    (ready : Ready t req start n m s)
    (moved : Moved rt (releaseMove req.orderId reason) t req.orderId (undoKey req) msg
      (wantedLines req) s.stock db) :
    Leaves t req start (.error e) (Stack.withStock s db) := by
  refine ⟨?_, fun resp eq => by cases eq⟩
  have tally := ready.tally
  by_cases key : req.idempotencyKey = ""
  · have unkeyed : ∀ db : StockDb, ¬Seen db t req.idempotencyKey := fun db seen => seen.1 key
    obtain ⟨more, located⟩ := ready.bare key
    have given := moved_held (releaseMove_along _ _) moved tally.checked located
    refine .inr ⟨if Seen s.stock t (undoKey req) then n else n - 1, m,
      moved_checked moved tally.checked, fun loc => ?_, tally.rows, ?_,
      fun _ => tally.whole (by omega), tally.positive,
      fun seen => absurd seen (unkeyed db), fun some_ => absurd key some_, tally.recorded,
      tally.unrecorded⟩
    · change held db loc = _
      rw [given loc, tally.hold loc, add_assoc]
      congr 1
      split
      · rw [zero_smul, add_zero]
      · have opposite : ((1, -1, 0) : Buckets) = (-1 : ℤ) • (-1, 1, 0) := by decide
        rw [opposite, smul_smul, ← add_smul, Nat.cast_sub (by omega)]
        congr 1
        push_cast
        ring
    · split <;> omega
  · have keyed : Seen s.stock t req.idempotencyKey := by
      by_contra unseen
      have none_ := tally.unseen key unseen
      have one := ready.keyed key
      omega
    exact .inl ⟨moved_seen moved keyed, moved_self moved (compensationKey_ne _ _)⟩

theorem undo_leaves (ready : Ready t req start n m s) (parse : rt.scan req.tenantId = some t) :
    Reaches rt adm (fun _ => True) (Leaves t req start) (do
      let _ ← rpc .undoReserve (ask (.releaseStock ⟨req.tenantId, req.orderId, "reserve_failure",
        compensationKey req.tenantId req.orderId, wantedLines req⟩ []))
      pure (.error e)) s := by
  refine reaches_then (Q := fun _ s₁ => Leaves t req start (.error e) s₁) ?_ fun _ _ after => after
  refine reaches_rpc trivial (fun _ _ _ => ready.tally.fails)
    (reaches_last (o := .releaseStock _ _) trivial fun c answer s₁ ok run => ⟨trivial, ?_⟩)
  have left : Leaves t req start (.error e) s₁ := by
    rcases exec_releaseStock run with ⟨u, resp, db, parse', rfl, moved, rfl⟩ | ⟨-, rfl⟩
    · cases parse'.symm.trans parse
      exact ready.undo moved
    · exact ready.tally.fails
  exact fun _ _ => ⟨fun _ => left, fun _ => left⟩

theorem hold_leaves (tally : Tally t req start n m s) (parse : rt.scan req.tenantId = some t) :
    Reaches rt adm (fun _ => True) (fun r s₁ => ∃ n, Tally t req start n m s₁ ∧
        ∀ resp, r = .ok resp → resp.success = true → Ready t req start n m s₁)
      (rpc .reserveStock (ask (.reserveStock (stockRequest req)))) s := by
  refine reaches_rpc trivial (fun _ _ _ => ⟨n, tally, fun resp eq => by cases eq⟩)
    (reaches_last (o := .reserveStock _) trivial fun c answer s₁ ok run => ⟨trivial, ?_⟩)
  have left : ∃ n, Tally t req start n m s₁ ∧
      ∀ resp, answer = .ok resp → resp.success = true → Ready t req start n m s₁ := by
    by_cases yes : ∃ resp, answer = .ok resp ∧ resp.success = true
    · obtain ⟨resp, rfl, success⟩ := yes
      obtain ⟨n', ready⟩ := tally.reserve parse success run
      exact ⟨n', ready.tally, fun _ _ _ => ready⟩
    · rcases exec_reserveStock run with ⟨u, db, -, rfl, -, -⟩ | ⟨-, rfl⟩
      · exact absurd ⟨_, rfl, rfl⟩ yes
      · exact ⟨n, tally, fun resp eq success => absurd ⟨resp, eq, success⟩ yes⟩
  obtain ⟨n', tally', ready⟩ := left
  exact fun _ _ => ⟨fun _ => ⟨n', tally', ready⟩, fun _ => ⟨n', tally', fun resp eq => by cases eq⟩⟩

theorem reserve_leaves (tally : Tally t req start n m s) (parse : rt.scan req.tenantId = some t) :
    Reaches rt adm (fun _ => True) (Leaves t req start) (reserve rt req) s := by
  unfold reserve
  simp only [parseUUID, parse]
  split
  · exact tally.fails
  refine reaches_then (hold_leaves tally parse) ?_
  rintro answer s₁ ⟨n', tally, ready⟩
  cases answer with
  | error e => exact tally.fails
  | ok stockResp =>
    dsimp only
    split
    · refine ⟨.inr ⟨n', m, tally⟩, fun resp eq success => ?_⟩
      cases eq
      cases success
    · rename_i success
      replace ready := ready stockResp rfl (by simpa using success)
      refine reaches_ask trivial fun c now s₂ ok run => ?_
      cases run
      refine reaches_ask trivial fun c answer s₃ ok run => ?_
      cases answer with
      | ok id =>
        obtain ⟨tally, keyed⟩ := ready.insert run
        exact ⟨.inr ⟨n', m + 1, tally⟩, fun _ _ _ => tally.backed (by omega) keyed⟩
      | error e =>
        have same : s₃ = s₁ := by
          rcases exec_insert run with ⟨first, eq, -⟩ | ⟨-, same⟩
          · cases eq
          · exact same
        subst same
        cases e with
        | alreadyProcessed =>
          have found := insert_repeated run
          have one := tally.recorded found
          refine reaches_ask trivial fun c id s₄ ok run => ?_
          refine reaches_ask trivial fun c' u s₅ ok' close => ?_
          replace tally := (tally.frame ((exec_frame run).stock rfl)
            ((exec_frame run).reservation rfl)).frame ((exec_frame close).stock rfl)
              ((exec_frame close).reservation rfl)
          exact ⟨.inr ⟨n', m, tally⟩, fun _ _ _ => tally.backed (by omega) fun key => by
            rw [one, ready.keyed key]⟩
        | _ => exact undo_leaves ready parse

end Attempt

section Runs

variable {rt : Runtime} {t : UUID} {req : ReserveRequest} {start s : Stack}

theorem attempt_leaves {n m : ℕ} {choices : List Choice}
    {out : Except Failure ReserveResponse × Stack}
    (tally : Tally t req start n m s) (parse : rt.scan req.tenantId = some t)
    (run : attempt rt req choices s = some out) : Leaves t req start out.1 out.2 :=
  wp_returns (Q := Leaves t req start) (exec_of_runWith _ _ run) (reserve_leaves tally parse)

/-- The last attempt of a run that was not compensated begins with a hold for
every row. -/
theorem attempts_tally {earlier : List (List Choice)} {last : List Choice} {s' : Stack}
    (parse : rt.scan req.tenantId = some t)
    (held_ : (Seen s.stock t req.idempotencyKey ∧ Seen s.stock t (undoKey req)) ∨
      ∃ n m, Tally t req start n m s)
    (fresh : Uncompensated rt t req (earlier ++ [last]) s)
    (run : attempts rt req earlier s = some s') : ∃ n m, Tally t req start n m s' := by
  induction earlier generalizing s with
  | nil =>
    cases run
    exact held_.resolve_left fresh.1
  | cons choices rest ih =>
    obtain ⟨n, m, tally⟩ := held_.resolve_left fresh.1
    obtain ⟨out, one, more⟩ := Option.bind_eq_some_iff.1 run
    exact ih (attempt_leaves tally parse one).1 (fresh.2 out one) more

/-- A successful attempt leaves rows that are backed by units taken and not
given back, however the earlier attempts failed, as long as none began with the
hold's key and the compensation key both recorded. -/
theorem successful_reserve_backed (rt : Runtime) (t : UUID) (req : ReserveRequest)
    (start s s' : Stack) (earlier : List (List Choice)) (last : List Choice)
    (resp : ReserveResponse)
    (parse : rt.scan req.tenantId = some t) (untried : Untried t req start)
    (fresh : Uncompensated rt t req (earlier ++ [last]) start)
    (run : attempts rt req earlier start = some s)
    (answered : attempt rt req last s = some (.ok resp, s')) (success : resp.success = true) :
    Backed t req start s' := by
  obtain ⟨n, m, tally⟩ := attempts_tally parse (.inr ⟨0, 0, untried.tally⟩) fresh run
  exact (attempt_leaves tally parse answered).2 resp rfl success

end Runs

def stored : List Choice := List.replicate 5 .healthy

/-- The rows cannot be written, and the release is lost or takes effect. -/
def unstored (returned : Bool) : List Choice :=
  List.replicate 4 .healthy ++ ⟨true, true, 0, [], ""⟩ ::
    if returned then List.replicate 3 .healthy else [⟨false, false, 0, [], ""⟩]

theorem sample_untried : Untried sampleTenant (sampleReserve "R") sampleStack :=
  ⟨sampleStack_checked, by decide, by decide, fun row member => by cases member⟩

def observed (out : Except Failure ReserveResponse × Stack) : Bool × List StockLine × Buckets :=
  (match out.1 with
    | .ok resp => resp.success
    | .error _ => false,
    activeLines out.2 sampleTenant "O1", held out.2.stock ⟨sampleTenant, "SKU", "W1"⟩)

theorem successful_reserve_backed_retried : ∃ s s' resp,
    attempts (reference []) (sampleReserve "R") [unstored false] sampleStack = some s ∧
      attempt (reference []) (sampleReserve "R") stored s = some (.ok resp, s') ∧
      observed (.ok resp, s') = (true, [⟨"SKU", "W1", 2⟩], (3, 2, 0)) ∧
      Backed sampleTenant (sampleReserve "R") sampleStack s' := by
  obtain ⟨first, one, unsent⟩ := Option.map_eq_some_iff.1 (show
    (attempt (reference []) (sampleReserve "R") (unstored false) sampleStack).map
      (fun out => decide (Seen out.2.stock sampleTenant (undoKey (sampleReserve "R")))) =
        some false by
    rw [reference_recognizing]
    decide +kernel)
  have run : attempts (reference []) (sampleReserve "R") [unstored false] sampleStack =
      some first.2 := by
    rw [attempts, one]
    rfl
  have again : ((attempts (reference []) (sampleReserve "R") [unstored false] sampleStack).bind
      (attempt (reference []) (sampleReserve "R") stored)).map observed =
        some (true, [⟨"SKU", "W1", 2⟩], (3, 2, 0)) := by
    rw [reference_recognizing]
    decide +kernel
  rw [run] at again
  obtain ⟨⟨answer, s'⟩, two, seen⟩ := Option.map_eq_some_iff.1 again
  have success := congrArg Prod.fst seen
  cases answer with
  | error e => cases success
  | ok resp =>
    refine ⟨first.2, s', resp, run, two, seen, ?_⟩
    refine successful_reserve_backed (reference []) sampleTenant (sampleReserve "R") sampleStack
      first.2 s' [unstored false] stored resp rfl sample_untried ⟨by decide, fun out same => ?_⟩
      run two success
    cases one.symm.trans same
    exact ⟨fun both => of_decide_eq_false unsent both.2, fun _ _ => trivial⟩

/-- The first attempt gives the hold back; the second is told that it holds the
units, writes the rows and answers yes. -/
theorem returned_hold_answered_as_held :
    ((attempts (reference []) (sampleReserve "R") [unstored true] sampleStack).bind
        (attempt (reference []) (sampleReserve "R") stored)).map observed =
      some (true, [⟨"SKU", "W1", 2⟩], (5, 0, 0)) := by
  rw [reference_recognizing]
  decide +kernel

end Taper.ReserveRetries
