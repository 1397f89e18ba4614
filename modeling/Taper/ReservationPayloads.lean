import Taper.Json
import Taper.ReservationRuns

set_option autoImplicit false

/-!
# The payloads of reservation events

The service puts its events together from the ids as they are: a quote ends a
string early and lets an id bring in members of its own.
-/
namespace Taper.ReservationPayloads
open Messages Platform ReservationTables ReservationSteps ReservationRuns Program ServiceStack
open Services StackSteps Json

structure Ids where
  orderID : String
  skuID : Option String
  deriving DecidableEq

def Ids.payload : Ids → String
  | ⟨orderID, none⟩ => orderPayload orderID
  | ⟨orderID, some skuID⟩ => linePayload orderID skuID

def Ids.fields : Ids → List (String × String)
  | ⟨orderID, none⟩ => [("order_id", orderID)]
  | ⟨orderID, some skuID⟩ => [("order_id", orderID), ("sku_id", skuID)]

def Clean (s : String) : Prop := ∀ c ∈ s.toList, Plain c

instance (s : String) : Decidable (Clean s) := List.decidableBAll Plain s.toList

def Ids.Clean (x : Ids) : Prop :=
  ReservationPayloads.Clean x.orderID ∧ ∀ s, x.skuID = some s → ReservationPayloads.Clean s

def Tells (payload : String) (fields : List (String × String)) : Prop :=
  ∃ ms, parse payload = some (.obj ms) ∧ ∀ k, field ms k = (fields.lookup k).map Value.str

section Texts

theorem clean_escaped {s : String} (clean : Clean s) : s.toList.flatMap escaped = s.toList := by
  have each : ∀ cs : List Char, (∀ c ∈ cs, Plain c) → cs.flatMap escaped = cs := by
    intro cs
    induction cs with
    | nil => exact fun _ => rfl
    | cons c cs ih =>
      intro plain
      obtain ⟨⟨quote, backslash, printable⟩, rest⟩ := List.forall_mem_cons.1 plain
      rw [List.flatMap_cons, ih rest, escaped, if_neg (not_or.2 ⟨quote, backslash⟩),
        if_pos printable]
      rfl
  exact each s.toList clean

theorem opening_toList :
    "\x7b\"order_id\":\"".toList = '\x7b' :: (quoted "order_id" ++ [':', '\x22']) := by
  decide +kernel

theorem closing_toList : "\"\x7d".toList = ['\x22', '\x7d'] := by decide +kernel

theorem enclosed_toList {a b : String} {as bs : List Char} (first : a.toList = as)
    (last : b.toList = bs) (o : String) : (a ++ o ++ b).toList = as ++ (o.toList ++ bs) := by
  rw [String.toList_append, String.toList_append, first, last, List.append_assoc]

theorem orderPayload_toList (o : String) : (orderPayload o).toList =
    '\x7b' :: (quoted "order_id" ++ ':' :: '\x22' :: (o.toList ++ ['\x22', '\x7d'])) := by
  refine (enclosed_toList opening_toList closing_toList o).trans ?_
  simp only [List.cons_append, List.append_assoc, List.nil_append]

theorem linePayload_toList (o s : String) : (linePayload o s).toList =
    '\x7b' :: (quoted "order_id" ++ ':' :: '\x22' :: (o.toList ++ '\x22' :: ',' ::
      (quoted "sku_id" ++ ':' :: '\x22' :: (s.toList ++ ['\x22', '\x7d'])))) := by
  have between : "\",\"sku_id\":\"".toList =
      '\x22' :: ',' :: (quoted "sku_id" ++ [':', '\x22']) := by decide +kernel
  refine (enclosed_toList (enclosed_toList opening_toList between o) closing_toList s).trans ?_
  simp only [List.cons_append, List.append_assoc, List.nil_append]

theorem clean_quoted {s : String} (clean : Clean s) :
    quoted s = '\x22' :: (s.toList ++ ['\x22']) := by
  rw [quoted, clean_escaped clean]
  rfl

theorem payload_written {x : Ids} (clean : x.Clean) :
    x.payload = .ofList (write (.obj (x.fields.map fun f => (f.1, .str f.2)))) := by
  obtain ⟨orderID, skuID⟩ := x
  refine String.toList_injective ?_
  rw [String.toList_ofList]
  cases skuID with
  | none =>
    rw [Ids.payload, orderPayload_toList]
    simp [Ids.fields, write, writeMembers, clean_quoted clean.1]
  | some s =>
    rw [Ids.payload, linePayload_toList]
    simp [Ids.fields, write, writeMembers, clean_quoted clean.1, clean_quoted (clean.2 s rfl)]

theorem tells_of_clean {x : Ids} (clean : x.Clean) : Tells x.payload x.fields := by
  refine ⟨_, by rw [payload_written clean, parse_write], fun k => ?_⟩
  obtain ⟨orderID, skuID⟩ := x
  have apart : ¬"sku_id" = "order_id" := by decide
  cases skuID with
  | none =>
    by_cases order : k = "order_id"
    · simp [Ids.fields, field, order]
    · simp [Ids.fields, field, List.lookup_cons, beq_false_of_ne order, Ne.symm order]
  | some s =>
    by_cases order : k = "order_id"
    · simp [Ids.fields, field, order, apart]
    · by_cases sku : k = "sku_id"
      · simp [Ids.fields, field, List.lookup_cons, sku]
      · simp [Ids.fields, field, List.lookup_cons, beq_false_of_ne order, beq_false_of_ne sku,
          Ne.symm order, Ne.symm sku]

theorem last_clean {n : ℕ} {k s : String} {ms : List (String × Value)} {rest : List Char}
    (h : members n (quoted k ++ ':' :: '\x22' :: (s.toList ++ ['\x22', '\x7d'])) = some (ms, rest))
    (own : field ms k = some (.str s)) : Clean s := by
  obtain ⟨v, after, read, ends⟩ := members_text h
  obtain ⟨room, tight⟩ := text_length read
  rw [List.length_append, List.length_cons, List.length_singleton] at room tight
  rcases ends with ⟨brace, rfl⟩ | ⟨m, after', ms', comma, more, rfl⟩
  · have shorter := skip_cons_length brace
    have same : v = s := by simpa [field] using own
    subst same
    exact (tight (by omega)).2
  · have shorter := skip_cons_length comma
    have fits := members_length more
    rw [field, Option.or_eq_some_iff] at own
    rcases own with later | ⟨-, first⟩
    · have heavy := weight_mem (field_mem later)
      rw [Value.size] at heavy
      omega
    · have same : v = s := by simpa using first
      subst same
      have empty : after' = [] := List.eq_nil_of_length_eq_zero (by omega)
      rw [empty, members_nil] at more
      cases more

theorem parse_object {payload : String} {k : String} {cs : List Char}
    (text : payload.toList = '\x7b' :: (quoted k ++ cs)) {ms : List (String × Value)}
    (h : parse payload = some (.obj ms)) :
    ∃ n rest, members n (quoted k ++ cs) = some (ms, rest) := by
  unfold parse at h
  split at h
  · rename_i v rest read
    rw [text] at read
    obtain ⟨m, ms', rfl, run⟩ := value_object read
    obtain ⟨-, eq⟩ := Option.ite_none_right_eq_some.1 h
    cases eq
    exact ⟨m, rest, run⟩
  · cases h

theorem order_clean {o : String} (tells : Tells (orderPayload o) [("order_id", o)]) : Clean o := by
  obtain ⟨ms, read, fields⟩ := tells
  obtain ⟨n, rest, run⟩ := parse_object (orderPayload_toList o) read
  exact last_clean run (by simpa using fields "order_id")

theorem line_clean {o s : String}
    (tells : Tells (linePayload o s) [("order_id", o), ("sku_id", s)]) : Clean o ∧ Clean s := by
  obtain ⟨ms, parsed, fields⟩ := tells
  obtain ⟨n, rest, run⟩ := parse_object (linePayload_toList o s) parsed
  have order : field ms "order_id" = some (.str o) := by simpa using fields "order_id"
  have sku : field ms "sku_id" = some (.str s) := by simpa [List.lookup_cons] using fields "sku_id"
  obtain ⟨v, after, read, ends⟩ := members_text run
  obtain ⟨room, tight⟩ := text_length read
  have quotedLength : (quoted "sku_id").length = 8 := by decide +kernel
  have orderLength : "order_id".toList.length = 8 := by decide +kernel
  have skuLength : "sku_id".toList.length = 6 := by decide +kernel
  simp only [List.length_append, List.length_cons, List.length_nil, quotedLength] at room tight
  rcases ends with ⟨-, rfl⟩ | ⟨m, after', ms', comma, more, rfl⟩
  · simp [field] at sku
  · have shorter := skip_cons_length comma
    have fits := members_length more
    have later : field ms' "sku_id" = some (.str s) := by simpa [field] using sku
    have heavy := weight_mem (field_mem later)
    rw [Value.size, skuLength] at heavy
    rw [field, Option.or_eq_some_iff] at order
    rcases order with again | ⟨-, first⟩
    -- both ids again would not fit
    · have heavier := weight_pair (by decide) (field_mem again) (field_mem later)
      rw [Value.size, Value.size, orderLength, skuLength] at heavier
      omega
    · have same : v = o := by simpa using first
      subst same
      obtain ⟨whole, clean⟩ := tight (by omega)
      have left := (List.cons.inj (List.append_cancel_left whole)).2
      rw [← left, skip_cons (by decide)] at comma
      rw [← (List.cons.inj comma).2] at more
      exact ⟨clean, last_clean more later⟩

/-- A payload says what it should exactly where its ids need no escape. -/
theorem tells_iff (x : Ids) : Tells x.payload x.fields ↔ x.Clean := by
  refine ⟨fun tells => ?_, tells_of_clean⟩
  obtain ⟨orderID, skuID⟩ := x
  cases skuID with
  | none => exact ⟨order_clean tells, nofun⟩
  | some s =>
    obtain ⟨order, sku⟩ := line_clean tells
    refine ⟨order, fun s' same => ?_⟩
    cases same
    exact sku

end Texts

/-- What an operation that commits puts into its events. -/
def written : (op : Op) → Resp op → List Ids
  | .insertReservations _ req _, .ok _ => req.items.map fun it => ⟨req.orderId, some it.skuId⟩
  | .commitRelease _ req rows, .ok _ => rows.map fun _ => ⟨req.orderId, none⟩
  | .allocate _ req, .ok count => List.replicate count ⟨req.orderId, none⟩
  | .expiredEvent row, .ok _ => [⟨row.orderID, some row.skuID⟩]
  | _, _ => []

def told (rt : Runtime) (pool : StackPool) : Move Handler Choice → List Ids
  | .step i c =>
    match pool.threads i with
    | some (.step op _) =>
      match exec rt i op c pool.state with
      | some (r, _) => written op r
      | none => []
    | _ => []
  | _ => []

def Carry (events : List ReservationOutboxEvent) (ids : List Ids) : Prop :=
  List.Forall₂ (fun e x => e.payload = x.payload) events ids

section Runs

variable {rt : Runtime} {me : ℕ} {op : Op} {c : Choice} {s s' : Stack} {r : Resp op}

theorem keyed_outbox (t : UUID) (key hash : String) (db : ReservationDb) :
    (keyed t key hash db).outbox = db.outbox := by
  unfold keyed Ledger.claimed
  split
  · rfl
  · rfl

theorem marked_carry (t : UUID) (o eventType : String) (rows : List Reservation) :
    Carry (rows.map fun _ => (reservationEvent t o eventType (orderPayload o)).stored)
      (rows.map fun _ => ⟨o, none⟩) := by
  unfold Carry
  rw [List.forall₂_map_left_iff, List.forall₂_map_right_iff]
  exact List.forall₂_same.2 fun _ _ => rfl

theorem exec_carry (h : exec rt me op c s = some (r, s')) :
    ∃ events, s'.reservation.outbox = s.reservation.outbox ++ events ∧
      Carry events (written op r) := by
  have quiet (same : s'.reservation.outbox = s.reservation.outbox) (none : written op r = []) :
      ∃ events, s'.reservation.outbox = s.reservation.outbox ++ events ∧
        Carry events (written op r) := by
    refine ⟨[], by rw [same, List.append_nil], ?_⟩
    rw [none]
    exact .nil
  cases op with
  | insertReservations t req expiresAt =>
    simp only [exec] at h
    split at h
    · cases h
    · rcases reservationTx_some h with ⟨first, db, rfl, run, rfl⟩ | ⟨⟨e, rfl⟩, rfl⟩
      · obtain ⟨-, -, -, -, rfl⟩ := insertReservations_ok_iff.1 run
        refine ⟨_, congrArg (· ++ _) (keyed_outbox ..), ?_⟩
        unfold Carry written
        rw [List.forall₂_map_left_iff, List.forall₂_map_right_iff]
        exact List.forall₂_same.2 fun _ _ => rfl
      · exact quiet rfl rfl
  | commitRelease t req rows =>
    rcases commitRelease_some h with ⟨_, db, rfl, run, rfl⟩ | ⟨⟨e, rfl⟩, rfl⟩
    · obtain ⟨-, -, -, rfl⟩ := releaseMark_ok_iff.1 run
      exact ⟨_, congrArg (· ++ _) (keyed_outbox ..), marked_carry ..⟩
    · exact quiet rfl rfl
  | allocate t req =>
    simp only [exec] at h
    split at h
    · cases h
    · rcases reservationTx_some h with ⟨count, db, rfl, run, rfl⟩ | ⟨⟨e, rfl⟩, rfl⟩
      · obtain ⟨-, ⟨-, rfl, rfl⟩ | ⟨-, -, -, rfl, rfl⟩⟩ := allocateTx_ok_iff.1 run
        · exact quiet rfl rfl
        · refine ⟨_, congrArg (· ++ _) (keyed_outbox ..), ?_⟩
          rw [written, ← List.map_const']
          exact marked_carry ..
      · exact quiet rfl rfl
  | expiredEvent row =>
    rcases sweeperTx_some h with ⟨_, db, rfl, run, rfl⟩ | ⟨⟨e, rfl⟩, rfl⟩
    · obtain ⟨-, rfl⟩ := insertOutbox_ok_iff.1 run
      exact ⟨_, rfl, .cons rfl .nil⟩
    · exact quiet rfl rfl
  | beginRelease t req =>
    refine quiet ?_ rfl
    rcases exec_reservation_cases h with same | write
    · rw [same]
    · generalize s'.reservation = db at write ⊢
      cases write
      exact keyed_outbox ..
  | markExpired row =>
    refine quiet ?_ rfl
    rcases exec_reservation_cases h with same | write
    · rw [same]
    · generalize s'.reservation = db at write ⊢
      cases write
      rfl
  | _ => exact quiet (congrArg _ ((exec_frame h).reservation rfl)) rfl

variable {start : Stack} {past : List Ids} {pool after : StackPool} {m : Move Handler Choice}

def Inv (start : Stack) (past : List Ids) (pool : StackPool) : Prop :=
  ∃ events, pool.state.reservation.outbox = start.reservation.outbox ++ events ∧ Carry events past

theorem next_inv (inv : Inv start past pool)
    (next : pool.next (machine rt) (Handler.code rt) m = some after) :
    Inv start (past ++ told rt pool m) after := by
  obtain ⟨events, outbox, carry⟩ := inv
  rcases Pool.next_cases next with ⟨i, x, rfl, -, rfl⟩ | ⟨i, c, op, k, r, t, rfl, at_, run, rfl⟩ |
    ⟨i, rfl, -, rfl⟩
  · rw [show told rt pool (.spawn i x) = [] from rfl, List.append_nil]
    exact ⟨events, outbox, carry⟩
  · have tells : told rt pool (.step i c) = written op r := by
      simp only [told, at_]
      rw [show exec rt i op c pool.state = some (r, t) from run]
    obtain ⟨more, appended, carry'⟩ := exec_carry run
    rw [tells]
    refine ⟨events ++ more, ?_, List.rel_append carry carry'⟩
    rw [← List.append_assoc, ← outbox]
    exact appended
  · rw [show told rt pool (.stop i) = [] from rfl, List.append_nil]
    exact ⟨events, outbox, carry⟩

end Runs

/-- In every run of the handlers, the events appended to the reservation outbox
tell exactly the ids they are written for where these need no escape. -/
theorem events_tell_iff (rt : Runtime) (start : Stack) (moves : List (Move Handler Choice))
    (pool : StackPool)
    (run : Pool.run (machine rt) (Handler.code rt) moves (idle start) = some pool) :
    ∃ events, pool.state.reservation.outbox = start.reservation.outbox ++ events ∧
      List.Forall₂ (fun e x => Tells e.payload x.fields ↔ x.Clean) events
        (Pool.trace (machine rt) (Handler.code rt) (told rt) moves (idle start)) := by
  have begin_ : Inv start [] (idle start) := ⟨[], (List.append_nil _).symm, .nil⟩
  obtain ⟨events, outbox, carry⟩ :=
    Pool.trace_kept (Inv start) (fun _ _ _ _ inv next => next_inv inv next) run begin_
  refine ⟨events, outbox, carry.imp fun e x same => ?_⟩
  rw [same]
  exact tells_iff x

/-- The payload column takes JSON texts only. -/
def checked : Runtime := { reference [] with jsonb := fun s => (parse s).isSome }

def reserveFor (orderID : String) : List (Move Handler Choice) :=
  .spawn 0 (.reserve ⟨sampleTenant.text, orderID, "key-1:reserve", [⟨"SKU", "W1", 2⟩], 900⟩) ::
    List.replicate 5 (.step 0 .healthy)

def reserved (orderID : String) : Option StackPool :=
  Pool.run (machine checked) (Handler.code checked) (reserveFor orderID) (idle sampleStack)

theorem events_tell_plain : ∃ pool e, reserved "ord-1" = some pool ∧
    pool.state.reservation.outbox = [e] ∧
      Tells e.payload [("order_id", "ord-1"), ("sku_id", "SKU")] := by
  have ends : (reserved "ord-1").isSome = true := by decide +kernel
  obtain ⟨pool, run⟩ := Option.isSome_iff_exists.1 ends
  have ids : Pool.trace (machine checked) (Handler.code checked) (told checked)
      (reserveFor "ord-1") (idle sampleStack) = [⟨"ord-1", some "SKU"⟩] := by decide +kernel
  obtain ⟨events, outbox, tell⟩ := events_tell_iff checked sampleStack (reserveFor "ord-1") pool run
  rw [ids] at tell
  cases tell with
  | cons first rest =>
    cases rest
    refine ⟨pool, _, run, outbox, first.2 ⟨?_, ?_⟩⟩
    · decide +kernel
    · rintro s eq
      cases eq
      decide +kernel

theorem extra_field_stored :
    (reserved "x\",\"extra\":\"y").map (fun pool =>
      pool.state.reservation.outbox.map (·.payload)) =
        some ["\x7b\"order_id\":\"x\",\"extra\":\"y\",\"sku_id\":\"SKU\"\x7d"] ∧
    parse "\x7b\"order_id\":\"x\",\"extra\":\"y\",\"sku_id\":\"SKU\"\x7d" =
      some (.obj [("order_id", .str "x"), ("extra", .str "y"), ("sku_id", .str "SKU")]) := by
  have text : String.ofList (write (.obj [("order_id", .str "x"), ("extra", .str "y"),
      ("sku_id", .str "SKU")])) =
        "\x7b\"order_id\":\"x\",\"extra\":\"y\",\"sku_id\":\"SKU\"\x7d" := by
    decide +kernel
  refine ⟨by decide +kernel, ?_⟩
  rw [← text, parse_write]

end Taper.ReservationPayloads
