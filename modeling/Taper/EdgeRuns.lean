import Taper.Edge

set_option autoImplicit false

/-!
# What reaches the services

A service is called only as a verified token permits, for the tenant of that
token, and not while its breaker cools down. What the tokens do not name stays as
it is.
-/
namespace Taper.Edge
open Auth Gateway Messages Platform Program RateLimit Utf8
open CircuitBreaker (Breaker)
open Confinement (Untouched)
open OrderRoutes (Incoming byID decode decodeBody)
open ReservationTenants (own)
open ServiceStack (Stack)
open TenantRuns (neighbour reference_neighbours)

section Messages

variable {t t' k k' o o' : String → String}

@[simp] theorem edit_tenantID (rpc : Rpc) : (rpc.edit t k o).tenantID = t rpc.tenantID := by
  cases rpc <;> rfl

@[simp] theorem edit_handler (rpc : Rpc) : (rpc.edit t k o).handler = rpc.handler := by
  cases rpc <;> rfl

@[simp] theorem edit_edit (rpc : Rpc) :
    (rpc.edit t k o).edit t' k' o' = rpc.edit (t' ∘ t) (k' ∘ k) (o' ∘ o) := by
  cases rpc <;> rfl

@[simp] theorem zero_handler (h : Handler) : (Rpc.zero h).handler = h := by
  cases h <;> rfl

variable {w : Wiring} {r : Incoming} {claims : Claims} {msg out : Rpc} {h : Handler}

theorem decodeBody_handler (same : msg.handler = h)
    (ok : decodeBody (ofHandler w h) r msg = .ok out) : out.handler = h := by
  unfold decodeBody at ok
  split at ok
  · cases ok
  · cases ok
    exact same
  · split at ok
    · cases ok
    · rename_i read
      cases ok
      exact w.unmarshal_handler read

structure Made (r : Incoming) (claims : Claims) (h : Handler) (out : Rpc) : Prop where
  handler : out.handler = h
  tenant : out.tenantID = claims.tenantID
  keyed : r.idempotencyKey ≠ "" → out.setIdempotencyKey r.idempotencyKey = out

theorem decode_made (same : msg.handler = h)
    (ok : decode (ofHandler w h) r claims msg = .ok out) : Made r claims h out := by
  unfold decode at ok
  split at ok
  · cases ok
  · rename_i read
    have kept := decodeBody_handler same read
    dsimp only [ofHandler] at ok
    split_ifs at ok with other keyed
    · cases ok
      exact ⟨by simpa using kept, by simp, fun _ => edit_edit _⟩
    · cases ok
      exact ⟨by simpa using kept, by simp, fun key => absurd key keyed⟩

theorem route_made (ok : route w h r = .ok out) :
    ∃ claims, r.claims = some claims ∧ Made r claims h out := by
  unfold route at ok
  split at ok
  · cases ok
  · rename_i claims ctx
    exact ⟨claims, ctx, decode_made (zero_handler h) ok⟩

theorem byID_made (ok : byID (ofHandler w h) r = .ok out) :
    ∃ claims, r.claims = some claims ∧ Made r claims h out ∧
      (h = .cancelOrder ∨ h = .fulfillOrder → out.setOrderID r.id = out) := by
  unfold byID at ok
  split_ifs at ok
  split at ok
  · cases ok
  · rename_i claims ctx
    cases read : decode (ofHandler w h) r claims (ofHandler w h).zero with
    | error e =>
      rw [read] at ok
      cases ok
    | ok rpc =>
      rw [read] at ok
      cases ok
      have made := decode_made (zero_handler h) read
      dsimp only [ofHandler]
      refine ⟨claims, ctx, ⟨by simp [made.handler], by simp [made.tenant], fun key => ?_⟩,
        fun _ => edit_edit rpc⟩
      have keyed := congrArg (Rpc.setOrderID r.id) (made.keyed key)
      simpa [Function.comp_def] using keyed

theorem get_made (ok : OrderRoutes.get (ofHandler w .getOrder) r = .ok out) :
    ∃ claims, r.claims = some claims ∧ Made r claims .getOrder out := by
  unfold OrderRoutes.get at ok
  split_ifs at ok
  split at ok
  · cases ok
  · rename_i claims ctx
    exact ⟨claims, ctx, decode_made rfl ok⟩

theorem message_made (ok : message w h r = .ok out) :
    ∃ claims, r.claims = some claims ∧ Made r claims h out ∧
      (h = .cancelOrder ∨ h = .fulfillOrder → out.setOrderID r.id = out) := by
  cases h with
  | cancelOrder => exact byID_made ok
  | fulfillOrder => exact byID_made ok
  | getOrder =>
    obtain ⟨claims, ctx, made⟩ := get_made ok
    exact ⟨claims, ctx, made, by rintro (same | same) <;> cases same⟩
  | _ =>
    obtain ⟨claims, ctx, made⟩ := route_made ok
    exact ⟨claims, ctx, made, by rintro (same | same) <;> cases same⟩

end Messages

section Passing

variable {w : Wiring} {now : ℤ} {d : Decision} {claims : Claims}

/-- Claims are put into the context only if the limiter lets their tenant through. -/
theorem middleware_limited {r : Gateway.Request}
    (next : (coreAt w now d).middleware r = .next (some claims)) :
    limitKey w now r = some claims.tenantID ∧ d.allowed = true := by
  unfold Core.middleware at next
  unfold limitKey
  split_ifs at next ⊢ with probe login
  · cases next
  · split at next <;> cases next
  · have same : (coreAt w now ⟨true, 0⟩).authorize r = (coreAt w now d).authorize r := rfl
    rw [same]
    cases auth : (coreAt w now d).authorize r with
    | error e =>
      rw [auth] at next
      cases next
    | ok found =>
      rw [auth] at next
      dsimp only at next ⊢
      split_ifs at next ⊢ with refused
      cases limit : Core.admit (coreAt w now d) found.tenantID with
      | some refusal =>
        rw [limit] at next
        cases next
      | none =>
        rw [limit] at next
        cases next
        unfold Core.admit at limit
        dsimp only at limit
        split_ifs at limit with free
        exact ⟨rfl, free⟩

structure Permits (w : Wiring) (now : ℤ) (r : HttpRequest) (rpc : Rpc) : Prop where
  routed : w.mux.dispatch r.head.method r.head.url.escapedPath = some rpc.handler
  verified : ∃ claims, w.verify now (trimPrefix r.head.authorization "Bearer ") = some claims ∧
    claims.allows (rpc.handler.operation r.head.method) = true ∧ rpc.tenantID = claims.tenantID
  keyed : r.idempotencyKey ≠ "" → rpc.setIdempotencyKey r.idempotencyKey = rpc
  addressed : rpc.handler = .cancelOrder ∨ rpc.handler = .fulfillOrder → rpc.setOrderID r.id = rpc

theorem pass_permits {r : HttpRequest} {h : Handler} {ctx : Option Claims} {rpc : Rpc}
    (next : (coreAt w now d).middleware r.head = .next ctx)
    (routed : w.mux.dispatch r.head.method r.head.url.escapedPath = some h)
    (ok : message w h ⟨r.id, r.body, r.idempotencyKey, ctx⟩ = .ok rpc) :
    Permits w now r rpc ∧ limitKey w now r.head = some rpc.tenantID ∧ d.allowed = true := by
  obtain ⟨claims, same, made, order⟩ := message_made ok
  obtain rfl : ctx = some claims := same
  have runs : serve (coreAt w now d) w.mux r.head = .handled h (some claims) := by
    rw [serve, next]
    dsimp only
    rw [routed]
  obtain ⟨found, eq, auth, allowed⟩ := middleware_next next (serve_handled runs).2
  cases eq
  obtain ⟨key, free⟩ := middleware_limited next
  obtain ⟨rfl, tenant, keyed⟩ := made
  rw [← tenant] at key
  exact ⟨⟨routed, ⟨claims, authorize_verifies auth, allowed, tenant⟩, keyed, order⟩, key, free⟩

end Passing

def Op.outer : Op → Bool
  | .clock | .take _ | .allow _ | .recordSuccess _ | .recordFailure _ | .breakerState _
  | .receive _ => true
  | _ => false

def Op.served : Op → Bool
  | .accept _ | .reply _ _ | .transact _ | .look | .inside _ => true
  | _ => false

section Programs

variable {w : Wiring} {ok : (o : Op) → Resp o → Prop} {bad : Op → Prop} {rpc : Rpc}

theorem ask_safe {o : Op} (good : ¬bad o) : Safe ok bad (fun _ => True) (ask o) :=
  ⟨good, fun _ _ => trivial⟩

theorem invoke_safe (outer : ∀ o, o.outer = true → ¬bad o) (send : ¬bad (.send rpc)) :
    Safe ok bad (fun _ => True) (invoke w rpc) := by
  refine safe_interpret_all (fun o => ?_) _
  cases o with
  | call =>
    exact safe_bind (ask_safe send) fun _ _ => safe_bind (ask_safe (outer _ rfl)) fun _ _ => trivial
  | _ => exact ask_safe (outer _ rfl)

theorem middleware_safe (clock : ¬bad .clock) (take : ∀ key, ¬bad (.take key))
    (r : Gateway.Request) :
    Safe ok bad (fun passage => ∃ now d, ok .clock now ∧ (coreAt w now d).middleware r = passage)
      (middleware w r) := by
  refine ⟨clock, fun now read => ?_⟩
  show Safe ok bad _ (limited w now r (limitKey w now r))
  cases limitKey w now r with
  | none => exact ⟨now, _, read, rfl⟩
  | some key => exact ⟨take key, fun d _ => ⟨now, d, read, rfl⟩⟩

/-- A request makes no call but one that it may make when it reads the clock. -/
theorem handle_safe (clock : ¬bad .clock) (take : ∀ key, ¬bad (.take key)) {r : HttpRequest}
    (calls : ∀ now rpc, ok .clock now → Permits w now r rpc →
      Safe ok bad (fun _ => True) (invoke w rpc)) :
    Safe ok bad (fun _ => True) (handle w r) := by
  refine safe_bind (middleware_safe clock take r.head) fun passage reached => ?_
  obtain ⟨now, d, read, next⟩ := reached
  cases passage with
  | refused refusal => trivial
  | next ctx =>
    unfold pass
    dsimp only
    cases routed : w.mux.dispatch r.head.method r.head.url.escapedPath with
    | none => trivial
    | some h =>
      dsimp only
      cases made : message w h ⟨r.id, r.body, r.idempotencyKey, ctx⟩ with
      | error e => trivial
      | ok rpc =>
        have permits := (pass_permits next routed made).1
        exact safe_bind (calls now rpc read permits) fun _ _ => trivial

theorem inside_safe (served : ∀ o, o.served = true → ¬bad o) {α : Type}
    (p : ServiceStack.Code α) : Safe ok bad (fun _ => True) (inside p) :=
  safe_interpret_all (fun o => ask_safe (served (.inside o) rfl)) p

theorem run_safe (served : ∀ o, o.served = true → ¬bad o) (rt : Runtime) (rpc : Rpc) :
    Safe ok bad (fun _ => True) (rpc.run rt) := by
  cases rpc with
  | reserve req => exact safe_bind (inside_safe served _) fun _ _ => trivial
  | release req => exact safe_bind (inside_safe served _) fun _ _ => trivial
  | allocateReservation req => exact safe_bind (inside_safe served _) fun _ _ => trivial
  | createOrder req => exact safe_bind (inside_safe served _) fun _ _ => trivial
  | cancelOrder req => exact safe_bind (inside_safe served _) fun _ _ => trivial
  | getOrder req =>
    have look : Safe ok bad (fun _ => True) (ask .look) := ask_safe (served .look rfl)
    have reads : Safe ok bad (fun _ => True) (getOrder rt req) := by
      refine safe_bind look fun first _ => safe_bind look fun second _ =>
        safe_bind look fun third _ => ?_
      cases first <;> cases second <;> cases third <;> trivial
    exact safe_bind reads fun _ _ => trivial
  | _ => exact ask_safe (served _ rfl)

theorem task_safe (clock : ¬bad .clock) (take : ∀ key, ¬bad (.take key))
    (served : ∀ o, o.served = true → ¬bad o) {task : Task}
    (calls : ∀ r, task = .http r → ∀ now rpc, ok .clock now → Permits w now r rpc →
      Safe ok bad (fun _ => True) (invoke w rpc)) :
    Safe ok bad (fun _ => True) (task.code w) := by
  cases task with
  | http r => exact safe_bind (handle_safe clock take (calls r rfl)) fun _ _ => trivial
  | call number =>
    refine safe_bind (ask_safe (served (.accept number) rfl)) fun rpc _ => ?_
    exact safe_bind (run_safe served w.rt rpc) fun res _ =>
      ask_safe (served (.reply number res) rfl)
  | sweepOnce batch => exact inside_safe served _
  | resumePendingSagas limit => exact safe_bind (inside_safe served _) fun _ _ => trivial

end Programs

section Execution

variable {w : Wiring} {me : ℕ} {o : Op} {c : Choice} {s s' : Shared} {r : Resp o}

def Op.sent : Op → List Rpc
  | .send rpc => [rpc]
  | _ => []

def Op.asks (now : ℤ) (order : Order) : Op → List RateLimit.Call
  | .take key => [⟨key, now, order⟩]
  | _ => []

def Op.tells (now : ℤ) (b : Area → Breaker) : Op → Area → Breaker
  | .allow a => Function.update b a ((b a).allow now).2
  | .recordSuccess a => Function.update b a (b a).recordSuccess
  | .recordFailure a => Function.update b a ((b a).recordFailure now)
  | _ => b

def Shared.messages (s : Shared) : List Rpc := s.calls.map (·.rpc)

theorem set_rpc {calls : List Call} {number : ℕ} {call call' : Call}
    (here : calls[number]? = some call) (same : call'.rpc = call.rpc) :
    (calls.set number call').map (·.rpc) = calls.map (·.rpc) := by
  obtain ⟨bound, at_⟩ := List.getElem?_eq_some_iff.1 here
  rw [List.map_set]
  refine List.ext_getElem (by simp) fun n _ _ => ?_
  rw [List.getElem_set]
  split_ifs with place
  · subst place
    simp [at_, same]
  · rfl

/-- Time passes, calls are added by sending them and never withdrawn, and the
limiter and the breakers change by what they are asked and told. -/
theorem exec_effect (h : (machine w).exec me o c s = some (r, s')) :
    s'.now = s.now + c.elapsed ∧ s'.messages = s.messages ++ o.sent ∧
      s'.limiter = s.limiter.after w.conv (o.asks (s.now + c.elapsed) c.order) ∧
      s'.breakers = o.tells (s.now + c.elapsed) s.breakers := by
  simp only [machine] at h
  cases o with
  | send rpc =>
    cases h
    exact ⟨rfl, List.map_append, rfl, rfl⟩
  | receive number =>
    simp only [execNow] at h
    split at h
    · cases h
      exact ⟨rfl, (List.append_nil _).symm, rfl, rfl⟩
    · obtain ⟨res, -, eq⟩ := Option.map_eq_some_iff.1 h
      cases eq
      exact ⟨rfl, (List.append_nil _).symm, rfl, rfl⟩
  | accept number =>
    simp only [execNow] at h
    split at h
    · rename_i here
      cases h
      refine ⟨rfl, Eq.trans (set_rpc here ?_) (List.append_nil _).symm, rfl, rfl⟩
      rfl
    · cases h
  | reply number res =>
    simp only [execNow] at h
    split at h
    · rename_i here
      cases h
      refine ⟨rfl, Eq.trans (set_rpc here ?_) (List.append_nil _).symm, rfl, rfl⟩
      rfl
    · cases h
  | transact rpc =>
    simp only [execNow] at h
    split_ifs at h
    · cases h
      exact ⟨rfl, (List.append_nil _).symm, rfl, rfl⟩
    · cases h
      exact ⟨rfl, (List.append_nil _).symm, rfl, rfl⟩
  | inside o =>
    obtain ⟨out, -, eq⟩ := Option.map_eq_some_iff.1 h
    cases eq
    exact ⟨rfl, (List.append_nil _).symm, rfl, rfl⟩
  | _ =>
    cases h
    exact ⟨rfl, (List.append_nil _).symm, rfl, rfl⟩

def Added (P : Rpc → Prop) (start s : Shared) : Prop :=
  ∃ added, s.messages = start.messages ++ added ∧ ∀ rpc ∈ added, P rpc

theorem added_none (P : Rpc → Prop) (s : Shared) : Added P s s :=
  ⟨[], (List.append_nil _).symm, fun rpc none_ => by cases none_⟩

theorem exec_added {P : Rpc → Prop} {start : Shared}
    (h : (machine w).exec me o c s = some (r, s')) (sends : ∀ rpc, o = .send rpc → P rpc)
    (inv : Added P start s) : Added P start s' := by
  obtain ⟨added, before, each⟩ := inv
  refine ⟨added ++ o.sent, ?_, fun rpc there => ?_⟩
  · rw [(exec_effect h).2.1, before, List.append_assoc]
  · rcases List.mem_append.1 there with old | new_
    · exact each rpc old
    · cases o with
      | send sent =>
        obtain rfl := List.mem_singleton.1 new_
        exact sends rpc rfl
      | _ => cases new_

theorem machine_forward (w : Wiring) : (machine w).Forward fun s t => s.now ≤ t.now where
  refl _ := le_refl _
  trans := le_trans
  exec ran := by
    have passed := (exec_effect ran).1
    omega
  stop _ _ := le_refl _

end Execution

section Authorized

def Read (first last : ℤ) : (o : Op) → Resp o → Prop
  | .clock, now => first ≤ now ∧ now ≤ last
  | _, _ => True

/-- A request of the run may make the call at some time of the run. -/
def Asked (w : Wiring) (moves : List (Move Task Choice)) (first last : ℤ) (rpc : Rpc) : Prop :=
  ∃ i r now, Move.spawn i (.http r) ∈ moves ∧ first ≤ now ∧ now ≤ last ∧ Permits w now r rpc

def Unasked (w : Wiring) (moves : List (Move Task Choice)) (first last : ℤ) : Op → Prop
  | .send rpc => ¬Asked w moves first last rpc
  | _ => False

variable {w : Wiring} {moves : List (Move Task Choice)} {first last : ℤ}

theorem task_asked {i : ℕ} {task : Task} (member : Move.spawn i task ∈ moves) :
    Safe (Read first last) (Unasked w moves first last) (fun _ => True) (task.code w) := by
  refine task_safe id (fun _ => id) (fun o mine => ?_) fun r http now rpc read permits =>
    invoke_safe (fun o mine => ?_) ?_
  · cases o with
    | send rpc => cases mine
    | _ => exact id
  · cases o with
    | send rpc => cases mine
    | _ => exact id
  · subst http
    exact not_not.2 ⟨i, r, now, member, read.1, read.2, permits⟩

structure Accounted (w : Wiring) (moves : List (Move Task Choice)) (start : Shared) (last : ℤ)
    (s : Shared) : Prop where
  forward : start.now ≤ s.now
  asked : Added (Asked w moves start.now last) start s

theorem exec_accounted {start s s' : Shared} {me : ℕ} {o : Op} {c : Choice} {r : Resp o}
    (h : (machine w).exec me o c s = some (r, s')) (until_ : s'.now ≤ last)
    (good : ¬Unasked w moves start.now last o) (inv : Accounted w moves start last s) :
    Accounted w moves start last s' ∧ Read start.now last o r := by
  have later : start.now ≤ s'.now := inv.forward.trans ((machine_forward w).exec h)
  refine ⟨⟨later, exec_added h (fun rpc sent => ?_) inv.asked⟩, ?_⟩
  · subst sent
    exact not_not.1 good
  · cases o with
    | clock =>
      cases h
      exact ⟨later, until_⟩
    | _ => trivial

end Authorized

/-- However the requests interleave, whichever of them are abandoned and whatever
the network loses: every call that reached a service after the start was made by a
request of the run, under a token that was verified during the run, covers the
operation and names the tenant of the call. -/
theorem calls_authorized (w : Wiring) (start : Shared) (moves : List (Move Task Choice))
    (pool : EdgePool)
    (run : Pool.run (machine w) (Task.code w) moves (idle start) = some pool) :
    Added (fun rpc => ∃ i r now, Move.spawn i (.http r) ∈ moves ∧ start.now ≤ now ∧
      now ≤ pool.state.now ∧ Permits w now r rpc) start pool.state := by
  have inv : Accounted w moves start pool.state.now pool.state := by
    refine (machine_forward w).run_safe (J := Accounted w moves start pool.state.now)
      (fun i task member => task_asked member)
      (fun i o c s r t ran until_ good kept => exec_accounted ran until_ good kept)
      (fun i s kept => ⟨kept.forward, kept.asked⟩) (fun i p here => ?_)
      ⟨le_refl _, added_none _ start⟩ run
    cases here
  exact inv.asked

/-- A gateway that knows one token, of the neighbour, and reads every body as three
units more. -/
def wiringOn (rt : Runtime) : Wiring where
  rt := rt
  conv := lowest
  verify _ token :=
    if token = "ops" then some ⟨neighbour.text, 900, "ops", roleReadWrite, [], 0, 0⟩ else none
  splitHostPort _ := none
  durationText _ := "0s"
  mux := .routes
  unmarshal h _ := .ok (if h = .adjustStock then
    .adjustStock ⟨"", "SKU", "W1", 3, "restock", "manual", ""⟩ else .zero h)
  unmarshal_handler := by
    intro h body rpc read
    cases read
    split_ifs with same
    · exact same.symm
    · exact zero_handler h
  marshal _ := some "ok"

def sampleWiring : Wiring := wiringOn (reference [])

def sampleRequest : HttpRequest where
  head := ⟨"POST", ⟨ascii "/v1/stock/adjust", ascii "/v1/stock/adjust", by decide +kernel⟩,
    "Bearer ops", "10.0.0.1:4000"⟩
  id := ""
  body := some (ascii "three more")
  idempotencyKey := "key-1"

def sampleStart : Shared where
  limiter := new 10 3
  breakers _ := CircuitBreaker.new ⟨0, 0⟩
  calls := []
  stack := StackSteps.sampleStack
  now := 0

def tick : Choice := ⟨100000000, stored, none, .healthy⟩

/-- The request makes its call, the service takes it up and answers, and the
request goes on. -/
def sampleMoves : List (Move Task Choice) :=
  [.spawn 0 (.http sampleRequest), .step 0 tick, .step 0 tick, .step 0 tick, .step 0 tick,
    .spawn 1 (.call 0), .step 1 tick, .step 1 tick, .step 1 tick, .step 0 tick, .step 0 tick,
    .step 0 tick]

def Shared.seen (s : Shared) : List Rpc × List (Option StockTables.StockLevel) :=
  (s.messages, [s.stack.stock.stockLevels ⟨sampleTenant, "SKU", "W1"⟩,
    s.stack.stock.stockLevels ⟨neighbour, "SKU", "W1"⟩])

theorem sampleMoves_run :
    (Pool.run (machine sampleWiring) (Task.code sampleWiring) sampleMoves (idle sampleStart)).map
      (·.state.seen) =
    some ([.adjustStock ⟨neighbour.text, "SKU", "W1", 3, "restock", "manual", "key-1"⟩],
      [some ⟨5, 0, 0, false⟩, some ⟨3, 0, 0, false⟩]) := by
  rw [sampleWiring, reference_neighbours]
  decide +kernel

theorem calls_authorized_adjust : ∃ pool,
    Pool.run (machine sampleWiring) (Task.code sampleWiring) sampleMoves (idle sampleStart) =
      some pool ∧ pool.state.messages.length = 1 ∧
    Added (fun rpc => ∃ i r now, Move.spawn i (.http r) ∈ sampleMoves ∧ sampleStart.now ≤ now ∧
      now ≤ pool.state.now ∧ Permits sampleWiring now r rpc) sampleStart pool.state := by
  obtain ⟨pool, run, seen⟩ := Option.map_eq_some_iff.1 sampleMoves_run
  have messages := congrArg Prod.fst seen
  refine ⟨pool, run, ?_, calls_authorized sampleWiring sampleStart sampleMoves pool run⟩
  exact congrArg List.length messages

section Confined

variable (w : Wiring) (v : UUID) (held : ℕ → Prop)

def Told (first last : ℤ) : (o : Op) → Resp o → Prop
  | .clock, now => first ≤ now ∧ now ≤ last
  | .accept _, rpc => w.rt.scan rpc.tenantID ≠ some v
  | .inside o, r => Confinement.Given held o r
  | _, _ => True

def Touches : Op → Prop
  | .send rpc => w.rt.scan rpc.tenantID = some v
  | .transact rpc => w.rt.scan rpc.tenantID = some v
  | .inside o => Confinement.Concerns w.rt v held o
  | _ => False

variable {w v held} {first last : ℤ}

theorem inside_apart {α : Type} {p : ServiceStack.Code α}
    (foreign : Confinement.Foreign w.rt v held p) :
    Safe (Told w v held first last) (Touches w v held) (fun _ => True) (inside p) := by
  refine safe_interpret (fun o good => ?_) foreign
  exact ⟨good, fun _ given => given⟩

theorem run_apart {rpc : Rpc} (apart : w.rt.scan rpc.tenantID ≠ some v) :
    Safe (Told w v held first last) (Touches w v held) (fun _ => True) (rpc.run w.rt) := by
  cases rpc with
  | reserve req =>
    exact safe_bind (inside_apart (Confinement.reserve_foreign apart)) fun _ _ => trivial
  | release req =>
    exact safe_bind (inside_apart (Confinement.release_foreign apart)) fun _ _ => trivial
  | allocateReservation req =>
    exact safe_bind (inside_apart (Confinement.allocateReservation_foreign apart))
      fun _ _ => trivial
  | createOrder req =>
    exact safe_bind (inside_apart (Confinement.createOrder_foreign apart)) fun _ _ => trivial
  | cancelOrder req =>
    exact safe_bind (inside_apart (Confinement.cancelOrder_foreign apart)) fun _ _ => trivial
  | getOrder req =>
    refine safe_bind (Q := fun _ => True) ?_ fun _ _ => trivial
    refine ⟨id, fun first _ => ⟨id, fun second _ => ⟨id, fun third _ => ?_⟩⟩⟩
    cases first <;> cases second <;> cases third <;> trivial
  | _ => exact ⟨apart, fun _ _ => trivial⟩

def Task.onRequest : Task → Bool
  | .http _ | .call _ => true
  | _ => false

theorem task_apart {task : Task} (asked : task.onRequest = true)
    (tokens : ∀ r, task = .http r → ∀ now claims, first ≤ now → now ≤ last →
      w.verify now (trimPrefix r.head.authorization "Bearer ") = some claims →
      w.rt.scan claims.tenantID ≠ some v) :
    Safe (Told w v held first last) (Touches w v held) (fun _ => True) (task.code w) := by
  cases task with
  | http r =>
    refine safe_bind (handle_safe id (fun _ => id) fun now rpc read permits =>
      invoke_safe (fun o mine => ?_) ?_) fun _ _ => trivial
    · cases o with
      | send rpc => cases mine
      | transact rpc => cases mine
      | inside o => cases mine
      | _ => exact id
    · obtain ⟨claims, verified, -, tenant⟩ := permits.verified
      have other := tokens r rfl now claims read.1 read.2 verified
      rw [← tenant] at other
      exact other
  | call number =>
    have accepted : Safe (Told w v held first last) (Touches w v held)
        (fun rpc => w.rt.scan rpc.tenantID ≠ some v) (ask (.accept number)) :=
      safe_perform id fun _ apart => apart
    refine safe_bind accepted fun rpc apart => ?_
    exact safe_bind (run_apart apart) fun res _ => ⟨id, fun _ _ => trivial⟩
  | sweepOnce batch => cases asked
  | resumePendingSagas limit => cases asked

theorem transact_apart {rt : Runtime} {v : UUID} {rpc : Rpc}
    (apart : rt.scan rpc.tenantID ≠ some v) (s : Stack) :
    Untouched v s (transact rt rpc s).2 := by
  have stock : ∀ call : StockConservation.StockCall, call ≠ .reconcile →
      rt.scan call.tenantId ≠ some v →
      Untouched v s { s with stock := call.apply rt s.stock } :=
    fun call request other =>
      ⟨Confinement.apply_apart request other, ⟨rfl, rfl, rfl⟩, .refl v _⟩
  cases rpc with
  | adjustStock req => exact stock (.adjustStock req) (by simp) apart
  | reserveStock req => exact stock (.reserveStock req) (by simp) apart
  | releaseStock req => exact stock (.releaseStock req) (by simp) apart
  | confirmStockAllocation req => exact stock (.confirmStockAllocation req) (by simp) apart
  | fulfillStock req => exact stock (.fulfillStock req) (by simp) apart
  | unlockStockForAudit req => exact stock (.unlockStockForAudit req) (by simp) apart
  | fulfillOrder req =>
    exact ⟨.refl v _, ⟨rfl, rfl, rfl⟩, Confinement.fulfillOrder_apart apart s.order⟩
  | _ => exact .refl v s

def heldBy (v : UUID) (s : Stack) (id : ℕ) : Prop :=
  ∃ row ∈ own v s.reservation, row.id = id

structure Apart (w : Wiring) (v : UUID) (start s : Shared) : Prop where
  numbered : ReservationRuns.Numbered s.stack.reservation
  untouched : Untouched v start.stack s.stack
  waiting : ∀ call ∈ s.calls, call.taken = true ∨ w.rt.scan call.rpc.tenantID ≠ some v
  forward : start.now ≤ s.now

variable {start s s' : Shared} {me : ℕ} {o : Op} {c : Choice} {r : Resp o}

theorem transact_reservation (rt : Runtime) (rpc : Rpc) (s : Stack) :
    (transact rt rpc s).2.reservation = s.reservation := by
  cases rpc <;> rfl

theorem exec_apart (h : (machine w).exec me o c s = some (r, s')) (inv : Apart w v start s)
    (good : ¬Touches w v (heldBy v start.stack) o) (until_ : s'.now ≤ last) :
    Apart w v start s' ∧ Told w v (heldBy v start.stack) start.now last o r := by
  have forward : start.now ≤ s'.now := by
    have passed := (exec_effect h).1
    have before := inv.forward
    omega
  have rows : own v start.stack.reservation = own v s.stack.reservation :=
    inv.untouched.reservation.rows
  simp only [machine] at h
  cases o with
  | clock =>
    cases h
    exact ⟨{ inv with forward }, forward, until_⟩
  | send rpc =>
    cases h
    refine ⟨⟨inv.numbered, inv.untouched, fun call member => ?_, forward⟩, trivial⟩
    rcases List.mem_append.1 member with old | new_
    · exact inv.waiting call old
    · rw [List.mem_singleton.1 new_]
      exact .inr good
  | receive number =>
    simp only [execNow] at h
    split at h
    · cases h
      exact ⟨{ inv with forward }, trivial⟩
    · obtain ⟨res, -, eq⟩ := Option.map_eq_some_iff.1 h
      cases eq
      exact ⟨{ inv with forward }, trivial⟩
  | accept number =>
    simp only [execNow] at h
    split at h
    · rename_i here
      cases h
      refine ⟨⟨inv.numbered, inv.untouched, fun call member => ?_, forward⟩, ?_⟩
      · rcases List.mem_or_eq_of_mem_set member with old | rfl
        · exact inv.waiting call old
        · exact .inl rfl
      · exact (inv.waiting _ (List.mem_of_getElem? here)).resolve_left Bool.false_ne_true
    · cases h
  | reply number res =>
    simp only [execNow] at h
    split at h
    · rename_i old here
      cases h
      refine ⟨⟨inv.numbered, inv.untouched, fun call member => ?_, forward⟩, trivial⟩
      rcases List.mem_or_eq_of_mem_set member with kept | rfl
      · exact inv.waiting call kept
      · exact inv.waiting old (List.mem_of_getElem? here)
    · cases h
  | transact rpc =>
    simp only [execNow] at h
    split_ifs at h
    · cases h
      exact ⟨{ inv with forward }, trivial⟩
    · cases h
      have kept := transact_apart good s.stack
      have numbered := (transact_reservation w.rt rpc s.stack).symm ▸ inv.numbered
      exact ⟨⟨numbered, inv.untouched.trans kept, inv.waiting, forward⟩, trivial⟩
  | inside o =>
    obtain ⟨out, ran, eq⟩ := Option.map_eq_some_iff.1 h
    obtain ⟨a, t⟩ := out
    cases eq
    have kept := Confinement.exec_untouched ran inv.numbered
      (fun row member => ⟨row, rows ▸ member, rfl⟩) good
    have given := Confinement.exec_given ran inv.numbered (fun id mine => rows ▸ mine) good
    exact ⟨⟨ReservationRuns.exec_numbered ran inv.numbered, inv.untouched.trans kept, inv.waiting,
      forward⟩, given⟩
  | _ =>
    cases h
    exact ⟨{ inv with forward }, trivial⟩

end Confined

/-- No row of a tenant is changed on requests, in any of the three databases, as
long as none of their tokens names the tenant: whatever their bodies say, however
they interleave and whichever are abandoned. -/
theorem unnamed_untouched (w : Wiring) (v : UUID) (start : Shared)
    (numbered : ReservationRuns.Numbered start.stack.reservation)
    (settled : ∀ call ∈ start.calls, call.taken = true) (moves : List (Move Task Choice))
    (pool : EdgePool) (requests : ∀ i task, Move.spawn i task ∈ moves → task.onRequest = true)
    (tokens : ∀ i r, Move.spawn i (.http r) ∈ moves → ∀ now claims, start.now ≤ now →
      now ≤ pool.state.now →
      w.verify now (trimPrefix r.head.authorization "Bearer ") = some claims →
      w.rt.scan claims.tenantID ≠ some v)
    (run : Pool.run (machine w) (Task.code w) moves (idle start) = some pool) :
    Untouched v start.stack pool.state.stack := by
  have inv : Apart w v start pool.state := by
    refine (machine_forward w).run_safe (J := Apart w v start) (fun i task member => ?_)
      (fun i o c s r t ran until_ good kept => exec_apart ran kept good until_)
      (fun i s kept => ?_) (fun i p here => ?_)
      ⟨numbered, .refl v _, fun call member => .inl (settled call member), le_refl _⟩ run
    · refine task_apart (requests i task member) fun r http => ?_
      subst http
      exact tokens i r member
    · have closed : Untouched v s.stack (s.stack.close i) :=
        ⟨.refl v _, ⟨rfl, rfl, rfl⟩, .refl v _⟩
      exact { kept with untouched := kept.untouched.trans closed }
    · cases here
  exact inv.untouched

theorem sampleWiring_tokens {now : ℤ} {token : String} {claims : Claims}
    (verified : sampleWiring.verify now token = some claims) :
    sampleWiring.rt.scan claims.tenantID ≠ some sampleTenant := by
  have known : (if token = "ops" then
      some (⟨neighbour.text, 900, "ops", roleReadWrite, [], 0, 0⟩ : Claims) else none) =
      some claims := verified
  split_ifs at known
  cases known
  rw [show sampleWiring.rt.scan neighbour.text = some neighbour from
    (reference []).scan_text neighbour]
  decide

theorem unnamed_untouched_adjust : ∃ pool,
    Pool.run (machine sampleWiring) (Task.code sampleWiring) sampleMoves (idle sampleStart) =
      some pool ∧
    pool.state.stack.stock.stockLevels ⟨neighbour, "SKU", "W1"⟩ = some ⟨3, 0, 0, false⟩ ∧
    Untouched sampleTenant sampleStart.stack pool.state.stack := by
  obtain ⟨pool, run, seen⟩ := Option.map_eq_some_iff.1 sampleMoves_run
  have level := congrArg (fun out => out.2[1]?) seen
  refine ⟨pool, run, Option.some.inj level, ?_⟩
  refine unnamed_untouched sampleWiring sampleTenant sampleStart ReservationRuns.numbered_empty ?_
    sampleMoves pool ?_ ?_ run
  · intro call none_
    cases none_
  · intro i task member
    simp only [sampleMoves, List.mem_cons, List.not_mem_nil, or_false, Move.spawn.injEq,
      reduceCtorEq, false_or] at member
    rcases member with ⟨-, rfl⟩ | ⟨-, rfl⟩ <;> rfl
  · intro i r _ now claims _ _ verified
    exact sampleWiring_tokens verified

section Shielded

def Refuses (a : Area) : (o : Op) → Resp o → Prop
  | .allow b, answer => b = a → answer ≠ none
  | _, _ => True

/-- The operations that only a request performs which was let through. -/
def Reaches (a : Area) : Op → Prop
  | .send rpc => rpc.handler.area = a
  | .recordSuccess b => b = a
  | .recordFailure b => b = a
  | _ => False

variable {w : Wiring} {a : Area} {start : Shared} {b : Breaker}

theorem invoke_shielded (rpc : Rpc) :
    Safe (Refuses a) (Reaches a) (fun _ => True) (invoke w rpc) := by
  refine ⟨id, fun refused answer => ?_⟩
  cases refused with
  | some err => exact ⟨id, fun _ _ => trivial⟩
  | none =>
    have other : rpc.handler.area ≠ a := fun same => answer same rfl
    refine safe_interpret_all (fun o => ?_) _
    cases o with
    | call => exact ⟨other, fun _ _ => ⟨id, fun _ _ => trivial⟩⟩
    | recordSuccess => exact ⟨other, fun _ _ => trivial⟩
    | recordFailure => exact ⟨other, fun _ _ => trivial⟩
    | _ => exact ⟨id, fun _ _ => trivial⟩

theorem task_shielded (task : Task) :
    Safe (Refuses a) (Reaches a) (fun _ => True) (task.code w) := by
  refine task_safe id (fun _ => id) (fun o mine => ?_) fun _ _ _ rpc _ _ => invoke_shielded rpc
  cases o with
  | send rpc => cases mine
  | recordSuccess b => cases mine
  | recordFailure b => cases mine
  | _ => exact id

structure Cools (b : Breaker) (last : ℤ) : Prop where
  opened : b.state = .opened
  cooldown : 0 < b.cfg.cooldown.toInt
  early : last < b.openedAt + b.cfg.cooldown.toInt

theorem exec_shielded {me : ℕ} {o : Op} {c : Choice} {s s' : Shared} {r : Resp o} {last : ℤ}
    (h : (machine w).exec me o c s = some (r, s')) (here : s.breakers a = b) (cools : Cools b last)
    (good : ¬Reaches a o) (until_ : s'.now ≤ last) : s'.breakers a = b ∧ Refuses a o r := by
  obtain ⟨now, -, -, breakers⟩ := exec_effect h
  rw [breakers]
  cases o with
  | allow d =>
    by_cases same : d = a
    · subst same
      have refuses : (s.breakers d).allow (s.now + c.elapsed) =
          (some CircuitBreaker.errOpen, s.breakers d) := by
        obtain ⟨opened, cooldown, early⟩ := here ▸ cools
        exact BreakerCalls.allow_refuses cooldown opened (by omega)
      cases h
      refine ⟨?_, fun _ none_ => ?_⟩
      · rw [Op.tells, Function.update_self, refuses]
        exact here
      · cases none_.symm.trans (congrArg Prod.fst refuses)
    · exact ⟨(Function.update_of_ne (Ne.symm same) _ _).trans here, fun eq => absurd eq same⟩
  | recordSuccess d => exact ⟨(Function.update_of_ne (Ne.symm good) _ _).trans here, trivial⟩
  | recordFailure d => exact ⟨(Function.update_of_ne (Ne.symm good) _ _).trans here, trivial⟩
  | _ => exact ⟨here, trivial⟩

end Shielded

/-- While a breaker cools down and nothing is under way, no request reaches the
service behind it, whatever else the gateway does, and the breaker stays as it is. -/
theorem open_breaker_shields (w : Wiring) (a : Area) (start : Shared)
    (moves : List (Move Task Choice)) (pool : EdgePool)
    (cools : Cools (start.breakers a) pool.state.now)
    (run : Pool.run (machine w) (Task.code w) moves (idle start) = some pool) :
    pool.state.breakers a = start.breakers a ∧
      Added (fun rpc => rpc.handler.area ≠ a) start pool.state := by
  refine (machine_forward w).run_safe (J := fun s => s.breakers a = start.breakers a ∧
      Added (fun rpc => rpc.handler.area ≠ a) start s)
    (fun i task _ => task_shielded (a := a) task) (fun i o c s r t ran until_ good kept => ?_)
    (fun i s kept => kept) (fun i p here => ?_) ⟨rfl, added_none _ start⟩ run
  · obtain ⟨breaker, refuses⟩ := exec_shielded ran kept.1 cools good until_
    refine ⟨⟨breaker, exec_added ran (fun rpc sent => ?_) kept.2⟩, refuses⟩
    subst sent
    exact good
  · cases here

def sampleTripped : Shared :=
  { sampleStart with breakers := fun _ => ⟨⟨5, 30000000000⟩, .opened, 5, 0⟩ }

theorem open_breaker_shields_adjust : ∃ pool,
    Pool.run (machine sampleWiring) (Task.code sampleWiring) (sampleMoves.take 5)
      (idle sampleTripped) = some pool ∧ pool.state.now = 400000000 ∧
    pool.state.breakers .stock = sampleTripped.breakers .stock ∧
    Added (fun rpc => rpc.handler.area ≠ .stock) sampleTripped pool.state := by
  have runs : (Pool.run (machine sampleWiring) (Task.code sampleWiring) (sampleMoves.take 5)
      (idle sampleTripped)).map (·.state.now) = some 400000000 := by
    rw [sampleWiring, reference_neighbours]
    decide +kernel
  obtain ⟨pool, run, now⟩ := Option.map_eq_some_iff.1 runs
  refine ⟨pool, run, now, open_breaker_shields sampleWiring .stock sampleTripped _ pool ?_ run⟩
  rw [now]
  exact ⟨rfl, by decide, by decide⟩

end Taper.Edge
