import Taper.ReservationRuns
import Taper.HandlerRuns
import Taper.StockRuns
import Taper.StockConservation

set_option autoImplicit false

/-!
# What the sweeper returns

The stock service takes a second release under an order's stored compensation
key for a repetition, so the units returned are those of the rows marked only if
no key is used twice.
-/
namespace Taper.SweepExact
open Messages Transaction Platform StockTables StockHandlers StockSteps StockConservation
open StockRuns ReservationTables ReservationSteps ReservationRuns Program ServiceStack Services
open StackSteps

def quantityHere (loc : StockLocation) (row : Reservation) : ℤ :=
  if rowLocation row = loc then row.quantity.toInt else 0

def expiredHere (loc : StockLocation) (row : Reservation) : ℤ :=
  if row.status = .expired then quantityHere loc row else 0

def expiredUnits (s : Stack) (loc : StockLocation) : ℤ :=
  (s.reservation.reservations.map (expiredHere loc)).sum

def orderKey (row : Reservation) : String := compensationKey row.tenantID.text row.orderID

/-- No two orders of the rows have one stored compensation key. -/
def Apart (rows : List Reservation) : Prop :=
  ∀ row ∈ rows, ∀ other ∈ rows, row.tenantID = other.tenantID →
    column 255 (orderKey row) = column 255 (orderKey other) → groupKey row = groupKey other

instance (rows : List Reservation) : Decidable (Apart rows) :=
  inferInstanceAs (Decidable (∀ row ∈ rows, ∀ other ∈ rows, _))

/-- Every service answers, and the orders that are fetched have compensation keys
of their own, none of which the stock service has recorded. -/
def admits (op : Op) (c : Choice) (s : Stack) : Bool :=
  !c.fault && c.pass &&
    match op with
    | .getExpiredReservations now _ =>
      let rows := (expiredRows now s.locked s.reservation).filter fun row => row.id ∈ c.picks
      decide (Apart rows) && rows.all fun row => !decide (Seen s.stock row.tenantID (orderKey row))
    | _ => true

def Located (s : Stack) : Prop :=
  ∀ row ∈ s.reservation.reservations, row.status = .active →
    s.stock.stockLevels (rowLocation row) ≠ none

theorem expiredHere_withStatus (loc : StockLocation) (row : Reservation) :
    expiredHere loc (withStatus .expired row) = quantityHere loc row := by
  unfold expiredHere
  rw [if_pos (show (withStatus .expired row).status = .expired from rfl)]
  rfl

variable {rows : List Reservation} {row : Reservation} {t : UUID}

theorem sum_marked (loc : StockLocation) (once : (rows.map (·.id)).Nodup) (member : row ∈ rows)
    (active : row.status = .active) :
    ((rows.map fun r => if r.id = row.id then withStatus .expired r else r).map
      (expiredHere loc)).sum = (rows.map (expiredHere loc)).sum + quantityHere loc row := by
  induction rows with
  | nil => cases member
  | cons first rest ih =>
    rw [List.map_cons, List.nodup_cons] at once
    simp only [List.map_cons, List.sum_cons]
    by_cases same : first.id = row.id
    · have head : row = first := by
        rcases List.mem_cons.1 member with rfl | later
        · rfl
        · exact absurd (List.mem_map.2 ⟨row, later, same.symm⟩) once.1
      subst head
      have others :
          (rest.map fun r => if r.id = row.id then withStatus .expired r else r) = rest := by
        refine (List.map_congr_left fun r hr => ?_).trans (List.map_id rest)
        have differs : r.id ≠ row.id := fun eq => once.1 (List.mem_map.2 ⟨r, hr, eq⟩)
        rw [if_neg differs]
        rfl
      have before : expiredHere loc row = 0 := by simp [expiredHere, active]
      rw [if_pos rfl, others, expiredHere_withStatus, before]
      ring
    · have later : row ∈ rest := by
        rcases List.mem_cons.1 member with rfl | later
        · exact absurd rfl same
        · exact later
      rw [if_neg same, ih once.2 later]
      ring

theorem quantityAt_rows (loc : StockLocation) (own : ∀ row ∈ rows, row.tenantID = t) :
    quantityAt t loc (rows.map rowLine) = (rows.map (quantityHere loc)).sum := by
  induction rows with
  | nil => rfl
  | cons row rest ih =>
    have here : lineLocation t (rowLine row) = rowLocation row := by
      rw [← own row List.mem_cons_self]
      rfl
    rw [List.map_cons, quantityAt_cons, ih fun x hx => own x (List.mem_cons_of_mem row hx), here]
    rfl

section Steps

variable {rt : Runtime} {me : ℕ} {c : Choice} {s s' : Stack}

theorem exec_markExpired {answer : Except Failure Unit} (healthy : c.fault = false)
    (unlocked : s.openTxs = []) (present : row ∈ s.reservation.reservations)
    (h : exec rt me (.markExpired row) c s = some (answer, s')) :
    answer = .ok () ∧ s' = { s with reservation := s.reservation.setStatus row.id .expired } := by
  have run : (updateReservationStatus row.id .expired).run s.reservation =
      .ok ((), s.reservation.setStatus row.id .expired) :=
    updateStatus_ok_iff.2 ⟨⟨row, present, rfl⟩, rfl⟩
  have free : row.id ∉ s.locked := by
    unfold Stack.locked
    rw [unlocked]
    exact List.not_mem_nil
  simp only [exec, if_neg free, sweeperTx, healthy, Bool.false_eq_true, if_false,
    Tx.commit_of_ok run, Option.some.injEq, Prod.mk.injEq] at h
  exact ⟨h.1.symm, h.2.symm⟩

theorem exec_expiredEvent {answer : Except Failure Unit}
    (h : exec rt me (.expiredEvent row) c s = some (answer, s')) :
    s'.stock = s.stock ∧ s'.openTxs = s.openTxs ∧
      s'.reservation.reservations = s.reservation.reservations ∧
      s'.reservation.nextID = s.reservation.nextID := by
  rcases sweeperTx_some h with ⟨_, db, -, run, rfl⟩ | ⟨-, rfl⟩
  · obtain ⟨-, rfl⟩ := ReservationSteps.insertOutbox_ok_iff.1 run
    exact ⟨rfl, rfl, rfl, rfl⟩
  · exact ⟨rfl, rfl, rfl, rfl⟩

end Steps

/-- Where the sweeper stands: `pending` are the rows whose stock has been
returned and which are not marked yet. -/
structure Swept (start : Stack) (pending : List Reservation) (s : Stack) : Prop where
  numbered : Numbered s.reservation
  checked : Checked s.stock
  unlocked : s.openTxs = []
  located : Located s
  exact_ : ∀ loc, held s.stock loc = held start.stock loc +
    (expiredUnits s loc + (pending.map (quantityHere loc)).sum - expiredUnits start loc) •
      ((1, -1, 0) : Buckets)

structure Waiting (fetched : List Reservation) (todo : List GroupKey) (s : Stack) : Prop where
  there : ∀ row ∈ fetched, groupKey row ∈ todo →
    row ∈ s.reservation.reservations ∧ row.status = .active
  unseen : ∀ row ∈ fetched, groupKey row ∈ todo → ¬Seen s.stock row.tenantID (orderKey row)

theorem groupKey_eq {o : String} (h : groupKey row = ⟨t.text, o⟩) :
    row.tenantID = t ∧ row.orderID = o := by
  simp only [groupKey, GroupKey.mk.injEq] at h
  refine ⟨?_, h.2⟩
  cases same : row.tenantID
  cases t
  simp_all

section Passes

variable {rt : Runtime} {start : Stack} {fetched : List Reservation}

abbrev Reaches {α : Type} (rt : Runtime) (Q : α → Stack → Prop) (p : Code α) (s : Stack) : Prop :=
  Wp (machine rt) 0 (fun op c s => admits op c s = true) (fun _ => True) Q p s

theorem admits_healthy {op : Op} {c : Choice} {s : Stack} (h : admits op c s = true) :
    c.fault = false ∧ c.pass = true := by
  unfold admits at h
  simp only [Bool.and_eq_true, Bool.not_eq_true'] at h
  exact ⟨h.1.1, h.1.2⟩

theorem reaches_ask {α : Type} {op : Op} {f : Resp op → Code α} {Q : α → Stack → Prop} {s : Stack}
    (h : ∀ c r t, admits op c s = true → exec rt 0 op c s = some (r, t) → Reaches rt Q (f r) t) :
    Reaches rt Q (ask op >>= f) s := wp_bind (wp_perform trivial h)

theorem marked_swept {s s' : Stack} {rest : List Reservation}
    (swept : Swept start (row :: rest) s) (there : row ∈ s.reservation.reservations)
    (active : row.status = .active) (stock : s'.stock = s.stock)
    (unlocked : s'.openTxs = s.openTxs)
    (rows : s'.reservation.reservations = (s.reservation.setStatus row.id .expired).reservations)
    (next : s'.reservation.nextID = s.reservation.nextID) : Swept start rest s' := by
  have same : (s.reservation.setStatus row.id .expired).reservations =
      s.reservation.reservations.map fun r =>
        if r.id = row.id then withStatus .expired r else r := rfl
  have marked := numbered_setStatus swept.numbered row.id .expired
  refine ⟨⟨rows ▸ marked.once, rows ▸ next ▸ marked.below⟩, stock ▸ swept.checked,
    unlocked.trans swept.unlocked, ?_, fun loc => ?_⟩
  · intro r member status
    rw [rows, same] at member
    obtain ⟨old, was, rfl⟩ := List.mem_map.1 member
    rw [stock]
    split at status
    · cases status
    · rename_i other
      rw [if_neg other]
      exact swept.located old was status
  · have units : expiredUnits s' loc = expiredUnits s loc + quantityHere loc row := by
      unfold expiredUnits
      rw [rows, same]
      exact sum_marked loc swept.numbered.once there active
    rw [stock, swept.exact_ loc, units, List.map_cons, List.sum_cons]
    congr 2
    ring

theorem kept_row {s s' : Stack} {other : Reservation}
    (rows : s'.reservation.reservations = (s.reservation.setStatus row.id .expired).reservations)
    (there : other ∈ s.reservation.reservations) (differs : other.id ≠ row.id) :
    other ∈ s'.reservation.reservations := by
  rw [rows]
  refine List.mem_map.2 ⟨other, there, ?_⟩
  rw [if_neg differs]

variable {todo : List GroupKey}

theorem markRows_reaches {pending : List Reservation} {s : Stack}
    (ids : (fetched.map (·.id)).Nodup) (swept : Swept start pending s)
    (waiting : Waiting fetched todo s) (once : (pending.map (·.id)).Nodup)
    (own : ∀ row ∈ pending, row ∈ fetched ∧ groupKey row ∉ todo ∧
      row ∈ s.reservation.reservations ∧ row.status = .active) :
    Reaches rt (fun _ t => Swept start [] t ∧ Waiting fetched todo t)
      (Prog.forEach markExpired pending) s := by
  induction pending generalizing s with
  | nil => exact ⟨swept, waiting⟩
  | cons row rest ih =>
    rw [List.map_cons, List.nodup_cons] at once
    obtain ⟨taken, done, there, active⟩ := own row List.mem_cons_self
    have after : ∀ t : Stack, t.stock = s.stock → t.openTxs = s.openTxs →
        t.reservation.reservations = (s.reservation.setStatus row.id .expired).reservations →
        t.reservation.nextID = s.reservation.nextID →
        Reaches rt (fun _ t => Swept start [] t ∧ Waiting fetched todo t)
          (Prog.forEach markExpired rest) t := by
      intro t stock unlocked rows next
      have next' := marked_swept swept there active stock unlocked rows next
      refine ih next' ⟨fun other member group => ?_, fun other member group => ?_⟩ once.2
        fun other member => ?_
      · obtain ⟨here, status⟩ := waiting.there other member group
        refine ⟨kept_row rows here fun same => ?_, status⟩
        have equal : other = row := List.inj_on_of_nodup_map ids member taken same
        exact done (equal ▸ group)
      · rw [stock]
        exact waiting.unseen other member group
      · obtain ⟨taken', done', there', active'⟩ := own other (List.mem_cons_of_mem row member)
        refine ⟨taken', done', kept_row rows there' fun same => ?_, active'⟩
        exact once.1 (List.mem_map.2 ⟨other, member, same⟩)
    refine wp_bind (reaches_ask fun c answer t ok run => ?_)
    obtain ⟨rfl, rfl⟩ := exec_markExpired (admits_healthy ok).1 swept.unlocked there run
    refine reaches_ask fun c answer t ok run => ?_
    obtain ⟨stock, unlocked, rows, next⟩ := exec_expiredEvent run
    exact after t stock unlocked rows next

theorem Waiting.tail {k : GroupKey} {s : Stack} (waiting : Waiting fetched (k :: todo) s) :
    Waiting fetched todo s :=
  ⟨fun row member group => waiting.there row member (List.mem_cons_of_mem k group),
    fun row member group => waiting.unseen row member (List.mem_cons_of_mem k group)⟩

theorem group_returned {s : Stack} {db : StockDb} {o reason key : String} {msg : Message}
    (swept : Swept start [] s) (own : ∀ row ∈ rows, row.tenantID = t)
    (there : ∀ row ∈ rows, row ∈ s.reservation.reservations ∧ row.status = .active)
    (unseen : ¬Seen s.stock t key)
    (moved : Moved rt (releaseMove o reason) t o key msg (rows.map rowLine) s.stock db) :
    Swept start rows (Stack.withStock s db) := by
  have located : ∀ l ∈ rows.map rowLine, s.stock.stockLevels (lineLocation t l) ≠ none := by
    intro l member
    obtain ⟨row, taken, rfl⟩ := List.mem_map.1 member
    rw [← own row taken]
    exact swept.located row (there row taken).1 (there row taken).2
  refine ⟨swept.numbered, moved_checked moved swept.checked, swept.unlocked, ?_, fun loc => ?_⟩
  · intro row member active
    exact moved_located moved (swept.located row member active)
  · have units := moved_held (releaseMove_along _ _) moved swept.checked located loc
    rw [if_neg unseen, quantityAt_rows loc own] at units
    have before := swept.exact_ loc
    rw [List.map_nil, List.sum_nil, add_zero] at before
    have same : expiredUnits (Stack.withStock s db) loc = expiredUnits s loc := rfl
    change held db loc = _
    rw [units, before, same, add_assoc, ← add_smul]
    congr 2
    ring

/-- One order of the batch: its release is the first under its key, so it
returns what is then marked. -/
theorem sweepGroup_reaches {k : GroupKey} {s : Stack} (ids : (fetched.map (·.id)).Nodup)
    (apart : Apart fetched) (last : k ∉ todo) (some_ : ∃ row ∈ fetched, groupKey row = k)
    (swept : Swept start [] s) (waiting : Waiting fetched (k :: todo) s) :
    Reaches rt (fun _ t => Swept start [] t ∧ Waiting fetched todo t)
      (sweepGroup k (fetched.filter fun row => groupKey row = k)) s := by
  obtain ⟨first, inBatch, rfl⟩ := some_
  have group : ∀ row ∈ fetched.filter fun row => groupKey row = groupKey first,
      row ∈ fetched ∧ groupKey row = groupKey first := by
    intro row member
    obtain ⟨taken, same⟩ := List.mem_filter.1 member
    exact ⟨taken, of_decide_eq_true same⟩
  have own : ∀ row ∈ fetched.filter fun row => groupKey row = groupKey first,
      row.tenantID = first.tenantID := fun row member => (groupKey_eq (group row member).2).1
  have there : ∀ row ∈ fetched.filter fun row => groupKey row = groupKey first,
      row ∈ s.reservation.reservations ∧ row.status = .active := fun row member =>
    waiting.there row (group row member).1 ((group row member).2 ▸ List.mem_cons_self)
  refine wp_bind (HandlerRuns.reaches_call trivial (fun _ _ ok => (admits_healthy ok).2)
    (fun _ _ ok => (admits_healthy ok).2) ?_)
  refine HandlerRuns.reaches_last (o := .releaseStock _ _) trivial
    fun c res t ok run => ⟨trivial, ?_⟩
  rcases exec_releaseStock run with ⟨u, resp, db, parse, rfl, moved, rfl⟩ | ⟨⟨e, rfl⟩, rfl⟩
  · have tenant : u = first.tenantID :=
      Option.some.inj (parse.symm.trans (rt.scan_text first.tenantID))
    subst tenant
    have returned := group_returned swept own there
      (waiting.unseen first inBatch List.mem_cons_self) moved
    refine markRows_reaches ids returned ⟨waiting.tail.there, fun row member here => ?_⟩ ?_
      fun row member => ?_
    · -- The recorded key is the one of this order only.
      refine moved_unseen moved (or_iff_not_imp_left.2 fun same => ?_)
        (waiting.tail.unseen row member here)
      intro key
      have equal := apart row member first inBatch (not_ne_iff.1 same) key
      exact last (equal ▸ here)
    · exact (List.filter_sublist.map _).nodup ids
    · obtain ⟨taken, key⟩ := group row member
      exact ⟨taken, key ▸ last, there row member⟩
  · exact ⟨swept, waiting.tail⟩

theorem fetched_waiting {me : ℕ} {now : ℤ} {limit : Int32} {c : Choice} {s s' : Stack}
    {answer : Except Failure (List Reservation)}
    (ok : admits (.getExpiredReservations now limit) c s = true)
    (run : exec rt me (.getExpiredReservations now limit) c s = some (answer, s')) :
    s' = s ∧ ∀ rows, answer = .ok rows →
      (rows.map (·.id)).Nodup ∧ Apart rows ∧ ∀ todo, Waiting rows todo s := by
  have healthy := (admits_healthy ok).1
  simp only [exec, healthy, Bool.false_eq_true, if_false] at run
  split at run
  · cases run
    exact ⟨rfl, fun rows eq => (by cases eq)⟩
  · obtain ⟨out, limit, eq⟩ := Option.map_eq_some_iff.1 run
    cases eq
    refine ⟨rfl, fun rows eq => ?_⟩
    cases eq
    obtain ⟨ids, once⟩ := limited_ids limit
    have from_ : ∀ row ∈ out, row ∈ expiredRows now s.locked s.reservation :=
      fun row member => mem_limited limit member
    have picked : ∀ row ∈ out,
        row ∈ (expiredRows now s.locked s.reservation).filter fun row => row.id ∈ c.picks := by
      intro row member
      refine List.mem_filter.2 ⟨from_ row member, decide_eq_true ?_⟩
      rw [← ids]
      exact List.mem_map.2 ⟨row, member, rfl⟩
    unfold admits at ok
    simp only [Bool.and_eq_true, List.all_eq_true, Bool.not_eq_true', decide_eq_true_eq,
      decide_eq_false_iff_not] at ok
    refine ⟨ids ▸ once, fun row member other among => ?_,
      fun todo => ⟨fun row member _ => ?_, fun row member _ => ok.2.2 row (picked row member)⟩⟩
    · exact ok.2.1 row (picked row member) other (picked other among)
    · have spec := List.mem_filter.1 (from_ row member)
      simp only [decide_eq_true_eq] at spec
      exact ⟨spec.1, spec.2.2.1⟩

theorem sweepOnce_reaches {batch : Int32} {s : Stack} (swept : Swept start [] s) :
    Reaches rt (fun _ t => Swept start [] t) (sweepOnce batch) s := by
  refine reaches_ask fun c now t ok run => ?_
  cases run
  refine reaches_ask fun c answer t ok run => ?_
  obtain ⟨rfl, rows⟩ := fetched_waiting ok run
  cases answer with
  | error e => exact swept
  | ok fetched =>
    obtain ⟨ids, apart, waiting⟩ := rows fetched rfl
    refine reaches_ask fun c keys t' ok run => ?_
    obtain ⟨out, order, eq⟩ := Option.map_eq_some_iff.1 run
    cases eq
    have perm := ranged_perm order
    have groups : (groupByOrder fetched).map (·.1) = (fetched.map groupKey).dedup := by
      unfold groupByOrder
      rw [List.map_map]
      exact List.map_id _
    rw [groups] at perm
    have once : keys.Nodup := perm.nodup_iff.2 (List.nodup_dedup _)
    have named : ∀ k ∈ keys, ∃ row ∈ fetched, groupKey row = k := fun k member =>
      List.mem_map.1 (List.mem_dedup.1 (perm.mem_iff.1 member))
    have loop : Reaches rt (fun _ u => Swept start [] u ∧ Waiting fetched [] u ∧
        ([] : List GroupKey).Nodup ∧ ∀ k ∈ ([] : List GroupKey), ∃ row ∈ fetched, groupKey row = k)
        (Prog.forEach (fun k => sweepGroup k (fetched.filter fun r => groupKey r = k)) keys) t := by
      refine wp_forEach (J := fun todo u => Swept start [] u ∧ Waiting fetched todo u ∧
        todo.Nodup ∧ ∀ k ∈ todo, ∃ row ∈ fetched, groupKey row = k)
        ⟨swept, waiting keys, once, named⟩ fun k rest u here => ?_
      obtain ⟨swept, waiting, once, named⟩ := here
      rw [List.nodup_cons] at once
      refine wp_mono (fun _ v after => ⟨after.1, after.2, once.2, fun x hx => ?_⟩)
        (sweepGroup_reaches ids apart once.1 (named k List.mem_cons_self) swept waiting)
      exact named x (List.mem_cons_of_mem k hx)
    exact wp_mono (fun _ _ after => after.1) loop

end Passes

/-- After any number of passes with any limits, over any rows and whichever rows
each limit leaves, the units returned at each location are those of the rows
marked expired. -/
theorem sweep_returns_marked (rt : Runtime) (s s' : Stack) (batches : List Int32)
    (choices : List Choice) (numbered : Numbered s.reservation) (checked : Checked s.stock)
    (unlocked : s.openTxs = []) (located : Located s)
    (run : runWith (machine rt) 0 admits choices (Prog.forEach sweepOnce batches) s =
      some ((), s')) (loc : StockLocation) :
    held s'.stock loc = held s.stock loc +
      (expiredUnits s' loc - expiredUnits s loc) • ((1, -1, 0) : Buckets) := by
  have start : Swept s [] s := by
    refine ⟨numbered, checked, unlocked, located, fun loc => ?_⟩
    rw [List.map_nil, List.sum_nil, add_zero, sub_self, zero_smul, add_zero]
  have passes : Reaches rt (fun _ t => Swept s [] t) (Prog.forEach sweepOnce batches) s :=
    wp_forEach (J := fun _ t => Swept s [] t) start fun _ _ _ here => sweepOnce_reaches here
  have done := (wp_returns (exec_of_runWith _ _ run) passes).exact_ loc
  rwa [List.map_nil, List.sum_nil, add_zero] at done

def twoRowsHeld : Stack :=
  { Stack.stocked (fun loc =>
      if loc = ⟨sampleTenant, "SKU", "W1"⟩ then some ⟨3, 2, 0, false⟩
      else if loc = ⟨sampleTenant, "SKU", "W2"⟩ then some ⟨0, 1, 0, false⟩
      else none) with
    reservation := ⟨[⟨0, sampleTenant, "ord-1", "SKU", "W1", 2, .active, 0⟩,
      ⟨1, sampleTenant, "ord-1", "SKU", "W2", 1, .active, 0⟩], [], fun _ _ => none, 2⟩ }

theorem twoRowsHeld_checked : Checked twoRowsHeld.stock := by
  intro loc level row
  simp only [twoRowsHeld, Stack.stocked] at row
  split at row
  · rename_i here
    cases row
    exact ⟨here ▸ rfl, rfl⟩
  · split at row
    · rename_i here
      cases row
      exact ⟨here ▸ rfl, rfl⟩
    · cases row

def passOver (rows : List ℕ) : List Choice :=
  [{ Choice.healthy with now := 1 }, { Choice.healthy with picks := rows },
    { Choice.healthy with picks := [0] }] ++ List.replicate (3 + 2 * rows.length) Choice.healthy

theorem sweep_returns_marked_together :
    (runWith (machine (reference [])) 0 admits (passOver [0, 1])
      (Prog.forEach sweepOnce [10]) twoRowsHeld).map (fun out =>
        held out.2.stock ⟨sampleTenant, "SKU", "W2"⟩) = some (1, 0, 0) := by
  have ends : ((runWith (machine (reference [])) 0 admits (passOver [0, 1])
      (Prog.forEach sweepOnce [10]) twoRowsHeld).map fun out =>
        expiredUnits out.2 ⟨sampleTenant, "SKU", "W2"⟩) = some 1 := by
    rw [reference_recognizing]
    decide +kernel
  obtain ⟨out, run, units⟩ := Option.map_eq_some_iff.1 ends
  have returned := sweep_returns_marked (reference []) twoRowsHeld out.2 [10] (passOver [0, 1])
    ⟨by decide, by decide⟩ twoRowsHeld_checked rfl (by unfold Located; decide) run
    ⟨sampleTenant, "SKU", "W2"⟩
  have before : expiredUnits twoRowsHeld ⟨sampleTenant, "SKU", "W2"⟩ = 0 := by decide
  have start : held twoRowsHeld.stock ⟨sampleTenant, "SKU", "W2"⟩ = (0, 1, 0) := by decide
  rw [run, Option.map_some, returned, units, before, start]
  rfl

/-- Two passes with limit one: the second release of the order is taken for a
repetition, its row is marked and its unit stays reserved. -/
theorem split_order_keeps_hold :
    (runWith (machine (reference [])) 0 (fun _ c _ => !c.fault && c.pass)
      (passOver [0] ++ passOver [1]) (Prog.forEach sweepOnce [1, 1]) twoRowsHeld).map (fun out =>
        (expiredUnits out.2 ⟨sampleTenant, "SKU", "W2"⟩,
          held out.2.stock ⟨sampleTenant, "SKU", "W2"⟩)) = some (1, (0, 1, 0)) := by
  rw [reference_recognizing]
  decide +kernel

end Taper.SweepExact
