import Mathlib.Data.List.Nodup

set_option autoImplicit false

/-!
# Transactions that keep their locks to the end

A script is a sequence of statements, each of which reads one resource and may
write it, or appends an entry to a log. What a transaction has written is seen
by the others only after its commit. Whatever the interleaving, the transactions
that have ended have done what they do one at a time, in the order in which they
ended.
-/
namespace Taper.TwoPhase

/-- A value is the end that commits, an error the end that rolls back. `write`
gives back `none` where the statement takes no lock. -/
inductive Script (κ : Type) (ν : κ → Type) (ε φ α : Type) : Type where
  | pure (a : α)
  | fail (e : φ)
  | access (k : κ) (write : ν k → Option (ν k)) (next : ν k → Script κ ν ε φ α)
  | emit (k : κ) (e : ε) (next : Script κ ν ε φ α)

namespace Script

variable {κ : Type} {ν : κ → Type} {ε φ α β : Type}

def bind : Script κ ν ε φ α → (α → Script κ ν ε φ β) → Script κ ν ε φ β
  | pure a, f => f a
  | fail e, _ => fail e
  | access k write next, f => access k write fun v => (next v).bind f
  | emit k e next, f => emit k e (next.bind f)

instance : Monad (Script κ ν ε φ) where
  pure := pure
  bind := bind

def statement (k : κ) (run : ν k → Option (ν k) × Script κ ν ε φ α) : Script κ ν ε φ α :=
  access k (fun v => (run v).1) fun v => (run v).2

def require (b : Bool) (e : φ) : Script κ ν ε φ Unit := if b then pure () else fail e

def collect (visit : α → Script κ ν ε φ (Option β)) : List α → Script κ ν ε φ (List β)
  | [] => pure []
  | a :: rest => do
    let found ← visit a
    let later ← collect visit rest
    pure (found.toList ++ later)

/-- The same statements, with the end reported through `answer`. -/
def report (answer : Except φ α → β) : Script κ ν ε φ α → Script κ ν ε β β
  | pure a => pure (answer (.ok a))
  | fail e => fail (answer (.error e))
  | access k write next => access k write fun v => (next v).report answer
  | emit k e next => emit k e (next.report answer)

end Script

variable {κ : Type} {ν : κ → Type} {ε φ α β ι : Type}

abbrev Store (ν : κ → Type) := (k : κ) → ν k

abbrev Overlay (ν : κ → Type) := (k : κ) → Option (ν k)

def Overlay.over (o : Overlay ν) (s : Store ν) : Store ν := fun k => (o k).getD (s k)

def entriesAt [DecidableEq κ] (k : κ) (log : List (κ × ε)) : List ε :=
  (log.filter (·.1 = k)).map (·.2)

theorem entriesAt_append [DecidableEq κ] (k : κ) (log more : List (κ × ε)) :
    entriesAt k (log ++ more) = entriesAt k log ++ entriesAt k more := by
  rw [entriesAt, List.filter_append, List.map_append]
  rfl

section Alone

variable [DecidableEq κ]

def put (s : Store ν) (k : κ) : Option (ν k) → Store ν
  | some v => Function.update s k v
  | none => s

def exec : Script κ ν ε φ α → Store ν → List (κ × ε) → Except φ (α × Store ν × List (κ × ε))
  | .pure a, s, log => .ok (a, s, log)
  | .fail e, _, _ => .error e
  | .access k write next, s, log => exec (next (s k)) (put s k (write (s k))) log
  | .emit k e next, s, log => exec next s (log ++ [(k, e)])

theorem exec_bind (m : Script κ ν ε φ α) (f : α → Script κ ν ε φ β) (s : Store ν)
    (log : List (κ × ε)) : exec (m >>= f) s log =
      match exec m s log with
      | .ok (a, t, log') => exec (f a) t log'
      | .error e => .error e := by
  induction m generalizing s log with
  | pure a => rfl
  | fail e => rfl
  | access k write next ih => exact ih (s k) _ log
  | emit k e next ih => exact ih s _

theorem exec_report (answer : Except φ α → β) (m : Script κ ν ε φ α) (s : Store ν)
    (log : List (κ × ε)) : exec (m.report answer) s log =
      match exec m s log with
      | .ok (a, t, log') => .ok (answer (.ok a), t, log')
      | .error e => .error (answer (.error e)) := by
  induction m generalizing s log with
  | pure a => rfl
  | fail e => rfl
  | access k write next ih => exact ih (s k) _ log
  | emit k e next ih => exact ih s _

def solo (m : Script κ ν ε φ α) (s : Store ν) : Except φ α × Store ν × List (κ × ε) :=
  match exec m s [] with
  | .ok (a, t, log) => (.ok a, t, log)
  | .error e => (.error e, s, [])

def serial : List (Script κ ν ε φ α) → Store ν → List (Except φ α) × Store ν × List (κ × ε)
  | [], s => ([], s, [])
  | m :: rest, s =>
    let first := solo m s
    let later := serial rest first.2.1
    (first.1 :: later.1, later.2.1, first.2.2 ++ later.2.2)

theorem serial_snoc (ms : List (Script κ ν ε φ α)) (m : Script κ ν ε φ α) (s : Store ν) :
    serial (ms ++ [m]) s =
      let before := serial ms s
      let last := solo m before.2.1
      (before.1 ++ [last.1], last.2.1, before.2.2 ++ last.2.2) := by
  induction ms generalizing s with
  | nil => simp [serial]
  | cons first rest ih => simp [serial, ih, List.append_assoc]

end Alone

section Together

structure Thread (κ : Type) (ν : κ → Type) (ε φ α : Type) where
  rest : Script κ ν ε φ α
  overlay : Overlay ν

/-- `log` holds the entries of transactions that run or have committed, in the
order they were appended; `finished` the ends, in their order. -/
structure State (ι κ : Type) (ν : κ → Type) (ε φ α : Type) where
  store : Store ν
  holder : κ → Option ι
  threads : ι → Option (Thread κ ν ε φ α)
  log : List (ι × κ × ε)
  finished : List (ι × Except φ α)

def start (tasks : ι → Option (Script κ ν ε φ α)) (s : Store ν) : State ι κ ν ε φ α where
  store := s
  holder _ := none
  threads i := (tasks i).map fun m => ⟨m, fun _ => none⟩
  log := []
  finished := []

variable [DecidableEq κ] [DecidableEq ι]

def State.resume (st : State ι κ ν ε φ α) (i : ι) (th : Thread κ ν ε φ α) : State ι κ ν ε φ α :=
  { st with threads := Function.update st.threads i (some th) }

def State.close (st : State ι κ ν ε φ α) (i : ι) (outcome : Except φ α) : State ι κ ν ε φ α :=
  { st with
    holder := fun k => if st.holder k = some i then none else st.holder k
    threads := Function.update st.threads i none
    finished := st.finished ++ [(i, outcome)] }

/-- The next statement of a transaction, or its end; `none` when it has ended
or has to wait. -/
def State.step (st : State ι κ ν ε φ α) (i : ι) : Option (State ι κ ν ε φ α) :=
  match st.threads i with
  | none => none
  | some ⟨.pure a, o⟩ => some { st.close i (.ok a) with store := o.over st.store }
  | some ⟨.fail e, _⟩ => some { st.close i (.error e) with log := st.log.filter (·.1 ≠ i) }
  | some ⟨.access k write next, o⟩ =>
    if st.holder k = none ∨ st.holder k = some i then
      let v := o.over st.store k
      match write v with
      | none => some (st.resume i ⟨next v, o⟩)
      | some v' => some
        { st.resume i ⟨next v, Function.update o k (some v')⟩ with
          holder := Function.update st.holder k (some i) }
    else none
  | some ⟨.emit k e next, o⟩ => some { st.resume i ⟨next, o⟩ with log := st.log ++ [(i, k, e)] }

def State.run : List ι → State ι κ ν ε φ α → Option (State ι κ ν ε φ α)
  | [], st => some st
  | i :: rest, st => (st.step i).bind (run rest)

inductive Stepped (st : State ι κ ν ε φ α) (i : ι) : State ι κ ν ε φ α → Prop where
  | commit {a : α} {o : Overlay ν} (at_ : st.threads i = some ⟨.pure a, o⟩) :
    Stepped st i { st.close i (.ok a) with store := o.over st.store }
  | rollback {e : φ} {o : Overlay ν} (at_ : st.threads i = some ⟨.fail e, o⟩) :
    Stepped st i { st.close i (.error e) with log := st.log.filter (·.1 ≠ i) }
  | pass {k : κ} {write : ν k → Option (ν k)} {next : ν k → Script κ ν ε φ α} {o : Overlay ν}
    (at_ : st.threads i = some ⟨.access k write next, o⟩)
    (free : st.holder k = none ∨ st.holder k = some i) (read : write (o.over st.store k) = none) :
    Stepped st i (st.resume i ⟨next (o.over st.store k), o⟩)
  | keep {k : κ} {write : ν k → Option (ν k)} {next : ν k → Script κ ν ε φ α} {o : Overlay ν}
    {v : ν k} (at_ : st.threads i = some ⟨.access k write next, o⟩)
    (free : st.holder k = none ∨ st.holder k = some i)
    (read : write (o.over st.store k) = some v) :
    Stepped st i
      { st.resume i ⟨next (o.over st.store k), Function.update o k (some v)⟩ with
        holder := Function.update st.holder k (some i) }
  | emit {k : κ} {e : ε} {next : Script κ ν ε φ α} {o : Overlay ν}
    (at_ : st.threads i = some ⟨.emit k e next, o⟩) :
    Stepped st i { st.resume i ⟨next, o⟩ with log := st.log ++ [(i, k, e)] }

theorem step_stepped {st st' : State ι κ ν ε φ α} {i : ι} (h : st.step i = some st') :
    Stepped st i st' := by
  unfold State.step at h
  split at h
  · cases h
  · cases h
    exact .commit ‹_›
  · cases h
    exact .rollback ‹_›
  · split at h
    · rename_i free
      simp only at h
      split at h
      · cases h
        exact .pass ‹_› free ‹_›
      · cases h
        exact .keep ‹_› free ‹_›
    · cases h
  · cases h
    exact .emit ‹_›

end Together

section Discipline

variable (Good Fixed : (k : κ) → ν k → Prop)

/-- On good values the script keeps them good and never changes a fixed one.
A resource it does not lock shows it a fixed value, and it appends entries
only at resources it has locked. `Q` holds of the locks and the value at the
end. -/
def Sound : Script κ ν ε φ α → (κ → Prop) → ((κ → Prop) → α → Prop) → Prop
  | .pure a, held, Q => Q held a
  | .fail _, _, _ => True
  | .access k write next, held, Q => ∀ v, Good k v →
    (write v = none → (held k ∨ Fixed k v) ∧ Sound (next v) held Q) ∧
    ∀ v', write v = some v' →
      Good k v' ∧ (Fixed k v → v' = v) ∧ Sound (next v) (fun j => j = k ∨ held j) Q
  | .emit k _ next, held, Q => held k ∧ Sound next held Q

variable {Good Fixed}

theorem sound_bind {m : Script κ ν ε φ α} {f : α → Script κ ν ε φ β} {held : κ → Prop}
    {Q : (κ → Prop) → β → Prop}
    (h : Sound Good Fixed m held fun held a => Sound Good Fixed (f a) held Q) :
    Sound Good Fixed (m >>= f) held Q := by
  induction m generalizing held with
  | pure a => exact h
  | fail e => trivial
  | access k write next ih =>
    intro v good
    obtain ⟨pass, keep⟩ := h v good
    refine ⟨fun read => ⟨(pass read).1, ih v (pass read).2⟩, fun v' read => ?_⟩
    obtain ⟨good', fixed, later⟩ := keep v' read
    exact ⟨good', fixed, ih v later⟩
  | emit k e next ih => exact ⟨h.1, ih h.2⟩

theorem sound_mono {m : Script κ ν ε φ α} {held held' : κ → Prop}
    {Q Q' : (κ → Prop) → α → Prop} (more : ∀ k, held k → held' k)
    (weaker : ∀ (h h' : κ → Prop) a, (∀ k, h k → h' k) → Q h a → Q' h' a)
    (h : Sound Good Fixed m held Q) : Sound Good Fixed m held' Q' := by
  induction m generalizing held held' with
  | pure a => exact weaker held held' a more h
  | fail e => trivial
  | access k write next ih =>
    intro v good
    obtain ⟨pass, keep⟩ := h v good
    refine ⟨fun read => ?_, fun v' read => ?_⟩
    · obtain ⟨safe, later⟩ := pass read
      exact ⟨safe.imp_left (more k), ih v more later⟩
    · obtain ⟨good', fixed, later⟩ := keep v' read
      exact ⟨good', fixed, ih v (fun j => Or.imp_right (more j)) later⟩
  | emit k e next ih => exact ⟨more k h.1, ih more h.2⟩

theorem sound_report {answer : Except φ α → β} {m : Script κ ν ε φ α} {held : κ → Prop}
    (h : Sound Good Fixed m held fun _ _ => True) :
    Sound Good Fixed (m.report answer) held fun _ _ => True := by
  induction m generalizing held with
  | pure a => trivial
  | fail e => trivial
  | access k write next ih =>
    intro v good
    obtain ⟨pass, keep⟩ := h v good
    refine ⟨fun read => ⟨(pass read).1, ih v (pass read).2⟩, fun v' read => ?_⟩
    obtain ⟨good', fixed, later⟩ := keep v' read
    exact ⟨good', fixed, ih v later⟩
  | emit k e next ih => exact ⟨h.1, ih h.2⟩

theorem sound_require {b : Bool} {e : φ} {held : κ → Prop} {Q : (κ → Prop) → Unit → Prop}
    (h : Q held ()) : Sound Good Fixed (Script.require b e : Script κ ν ε φ Unit) held Q := by
  cases b with
  | false => trivial
  | true => exact h

theorem sound_collect {visit : α → Script κ ν ε φ (Option β)} {items : List α}
    (each : ∀ a ∈ items, ∀ held, Sound Good Fixed (visit a) held fun _ _ => True)
    (held : κ → Prop) :
    Sound Good Fixed (Script.collect visit items) held fun _ _ => True := by
  induction items generalizing held with
  | nil => trivial
  | cons a rest ih =>
    refine sound_bind (sound_mono (fun _ h => h) ?_ (each a (List.mem_cons_self ..) held))
    intro _ held' found _ _
    exact sound_bind (sound_mono (fun _ h => h) (fun _ _ _ _ _ => trivial)
      (ih (fun b mem => each b (List.mem_cons_of_mem a mem)) held'))

end Discipline

section Serializable

variable [DecidableEq κ]

theorem over_update (o : Overlay ν) (s : Store ν) (k : κ) (v : ν k) :
    Overlay.over (Function.update o k (some v)) s = Function.update (o.over s) k v := by
  funext j
  by_cases same : j = k
  · subst same
    simp [Overlay.over]
  · simp [Overlay.over, Function.update_of_ne same]

variable (Fixed : (k : κ) → ν k → Prop)

/-- From the committed store, the script reaches `rest` with what it has
written in the overlay and its entries in the log. What it has read without a
lock is fixed. -/
inductive Follows (s : Store ν) (m : Script κ ν ε φ α) :
    Script κ ν ε φ α → Overlay ν → List (κ × ε) → Prop where
  | start : Follows s m m (fun _ => none) []
  | pass {k : κ} {write : ν k → Option (ν k)} {next : ν k → Script κ ν ε φ α} {o : Overlay ν}
    {log : List (κ × ε)} (before : Follows s m (.access k write next) o log)
    (read : write (o.over s k) = none) (safe : o k ≠ none ∨ Fixed k (s k)) :
    Follows s m (next (o.over s k)) o log
  | keep {k : κ} {write : ν k → Option (ν k)} {next : ν k → Script κ ν ε φ α} {o : Overlay ν}
    {log : List (κ × ε)} {v : ν k} (before : Follows s m (.access k write next) o log)
    (read : write (o.over s k) = some v) :
    Follows s m (next (o.over s k)) (Function.update o k (some v)) log
  | emit {k : κ} {e : ε} {next : Script κ ν ε φ α} {o : Overlay ν} {log : List (κ × ε)}
    (before : Follows s m (.emit k e next) o log) : Follows s m next o (log ++ [(k, e)])

variable {Fixed}

theorem Follows.exec_eq {s : Store ν} {m rest : Script κ ν ε φ α} {o : Overlay ν}
    {log : List (κ × ε)} (h : Follows Fixed s m rest o log) :
    exec m s [] = exec rest (o.over s) log := by
  induction h with
  | start => rfl
  | pass before read safe ih => rw [ih, exec, read, put]
  | keep before read ih => rw [ih, exec, read, put, over_update]
  | emit before ih => rw [ih, exec]

/-- Commits of others change neither what is locked nor what is fixed. -/
theorem Follows.move {s s' : Store ν} {m rest : Script κ ν ε φ α} {o : Overlay ν}
    {log : List (κ × ε)} (h : Follows Fixed s m rest o log)
    (locked : ∀ k, o k ≠ none → s' k = s k) (fixed : ∀ k, Fixed k (s k) → s' k = s k) :
    Follows Fixed s' m rest o log := by
  have look : ∀ {o : Overlay ν} {k : κ}, (o k = none → s' k = s k) →
      o.over s' k = o.over s k := by
    intro o k same
    unfold Overlay.over
    cases at_ : o k with
    | none => simpa using same at_
    | some v => rfl
  induction h with
  | start => exact .start
  | @pass k write next o log before read safe ih =>
    have same : s' k = s k := safe.elim (locked k) (fixed k)
    have seen := look (o := o) fun _ => same
    rw [← seen] at read ⊢
    exact .pass (ih locked) read (by rwa [same])
  | @keep k write next o log v before read ih =>
    have same : s' k = s k := locked k (by rw [Function.update_self]; exact Option.some_ne_none v)
    have seen := look (o := o) fun _ => same
    rw [← seen] at read ⊢
    refine .keep (ih fun j held => locked j ?_) read
    by_cases eq : j = k
    · subst eq
      rw [Function.update_self]
      exact Option.some_ne_none v
    · rwa [Function.update_of_ne eq]
  | emit before ih => exact .emit (ih locked)

end Serializable

section Logs

variable [DecidableEq ι]

def emitted (i : ι) (log : List (ι × κ × ε)) : List (κ × ε) := (log.filter (·.1 = i)).map (·.2)

theorem emitted_append_self (i : ι) (log : List (ι × κ × ε)) (k : κ) (e : ε) :
    emitted i (log ++ [(i, k, e)]) = emitted i log ++ [(k, e)] := by
  simp [emitted]

theorem emitted_append_other {i j : ι} (ne : i ≠ j) (log : List (ι × κ × ε)) (k : κ) (e : ε) :
    emitted j (log ++ [(i, k, e)]) = emitted j log := by
  simp [emitted, ne]

theorem emitted_filter_other {i j : ι} (ne : i ≠ j) (log : List (ι × κ × ε)) :
    emitted j (log.filter (·.1 ≠ i)) = emitted j log := by
  unfold emitted
  rw [List.filter_filter]
  congr 1
  refine List.filter_congr fun x _ => ?_
  by_cases same : x.1 = j
  · simp [same, ne.symm]
  · simp [same]

theorem filter_holder {i : ι} {current : List (ι × κ × ε)} {owner : Option ι}
    (holds : ∀ x ∈ current, owner = some x.1) :
    current.filter (·.1 = i) = if owner = some i then current else [] := by
  by_cases own : owner = some i
  · rw [if_pos own, List.filter_eq_self]
    intro x mem
    have := (holds x mem).symm.trans own
    simpa using this
  · rw [if_neg own, List.filter_eq_nil_iff]
    intro x mem same
    exact own ((holds x mem).trans (by simpa using same))

variable [DecidableEq κ]

def logAt (k : κ) (log : List (ι × κ × ε)) : List (ι × κ × ε) := log.filter (·.2.1 = k)

theorem entriesAt_emitted (k : κ) (i : ι) (log : List (ι × κ × ε)) :
    entriesAt k (emitted i log) = ((logAt k log).filter (·.1 = i)).map (·.2.2) := by
  simp only [entriesAt, emitted, logAt, List.filter_map, List.filter_filter, List.map_map]
  congr 1
  exact List.filter_congr fun x _ => Bool.and_comm ..

/-- At a resource the entries of committed transactions come first, as `log`
has them, and the others are those of the one that holds the lock. -/
def Ordered (st : State ι κ ν ε φ α) (log : List (κ × ε)) (k : κ) : Prop :=
  ∃ done current, logAt k st.log = done ++ current ∧ (∀ x ∈ done, st.threads x.1 = none) ∧
    (∀ x ∈ current, st.holder k = some x.1) ∧ done.map (·.2.2) = entriesAt k log

variable {st st' : State ι κ ν ε φ α} {log : List (κ × ε)} {i : ι} {k : κ}
  {th th' : Thread κ ν ε φ α}

theorem Ordered.resume (h : Ordered st log k) (at_ : st.threads i = some th)
    (threads : st'.threads = Function.update st.threads i (some th'))
    (locks : ∀ j, st.holder k = some j → st'.holder k = some j) (same : st'.log = st.log) :
    Ordered st' log k := by
  obtain ⟨done, current, split, ended, holds, entries⟩ := h
  refine ⟨done, current, by rw [same, split], fun x mem => ?_,
    fun x mem => locks _ (holds x mem), entries⟩
  rw [threads, Function.update_of_ne]
  · exact ended x mem
  · rintro rfl
    rw [ended x mem] at at_
    cases at_

theorem Ordered.append {k' : κ} {e : ε} (h : Ordered st log k) (at_ : st.threads i = some th)
    (holder : st.holder k' = some i) :
    Ordered { st.resume i th' with log := st.log ++ [(i, k', e)] } log k := by
  have before : Ordered (st.resume i th') log k := h.resume at_ rfl (fun _ held => held) rfl
  obtain ⟨done, current, split, ended, holds, entries⟩ := before
  change logAt k st.log = done ++ current at split
  by_cases same : k' = k
  · subst same
    refine ⟨done, current ++ [(i, k', e)], ?_, ended, fun x mem => ?_, entries⟩
    · simp only [logAt, List.filter_append] at split ⊢
      rw [split]
      simp
    · rcases List.mem_append.1 mem with old | new
      · exact holds x old
      · rw [List.mem_singleton.1 new]
        exact holder
  · refine ⟨done, current, ?_, ended, holds, entries⟩
    simp only [logAt, List.filter_append] at split ⊢
    rw [split]
    simp [same]

theorem Ordered.commit {a : α} {s : Store ν} (h : Ordered st log k)
    (at_ : st.threads i = some th) :
    Ordered { st.close i (.ok a) with store := s } (log ++ emitted i st.log) k := by
  obtain ⟨done, current, split, ended, holds, entries⟩ := h
  have old : ∀ x ∈ done, x.1 ≠ i := by
    rintro x mem rfl
    rw [ended x mem] at at_
    cases at_
  have mine : entriesAt k (emitted i st.log) =
      if st.holder k = some i then current.map (·.2.2) else [] := by
    have none_ : done.filter (·.1 = i) = [] := by
      simpa [List.filter_eq_nil_iff] using old
    rw [entriesAt_emitted, split, List.filter_append, none_, List.nil_append,
      filter_holder holds]
    split <;> rfl
  have closed : ∀ x ∈ done, (st.close i (.ok a)).threads x.1 = none := by
    intro x mem
    exact (Function.update_of_ne (old x mem) ..).trans (ended x mem)
  by_cases own : st.holder k = some i
  · refine ⟨done ++ current, [], by rw [List.append_nil]; exact split, fun x mem => ?_,
      fun x mem => absurd mem (List.not_mem_nil), ?_⟩
    · rcases List.mem_append.1 mem with mem | mem
      · exact closed x mem
      · have same : x.1 = i := Option.some.inj ((holds x mem).symm.trans own)
        rw [same]
        exact Function.update_self ..
    · rw [entriesAt_append, mine, if_pos own, List.map_append, entries]
  · refine ⟨done, current, split, closed, fun x mem => ?_, ?_⟩
    · exact (if_neg own).trans (holds x mem)
    · rw [entriesAt_append, mine, if_neg own, List.append_nil, entries]

theorem Ordered.rollback {e : φ} (h : Ordered st log k) (at_ : st.threads i = some th) :
    Ordered { st.close i (.error e) with log := st.log.filter (·.1 ≠ i) } log k := by
  obtain ⟨done, current, split, ended, holds, entries⟩ := h
  have old : ∀ x ∈ done, x.1 ≠ i := by
    rintro x mem rfl
    rw [ended x mem] at at_
    cases at_
  have rest : logAt k (st.log.filter (·.1 ≠ i)) = done ++ current.filter (·.1 ≠ i) := by
    have keep : done.filter (·.1 ≠ i) = done := by
      simpa [List.filter_eq_self] using old
    calc logAt k (st.log.filter (·.1 ≠ i)) = (logAt k st.log).filter (·.1 ≠ i) := by
          simp only [logAt, List.filter_filter]
          exact List.filter_congr fun x _ => Bool.and_comm ..
      _ = done ++ current.filter (·.1 ≠ i) := by rw [split, List.filter_append, keep]
  refine ⟨done, _, rest, fun x mem => ?_, fun x mem => ?_, entries⟩
  · exact (Function.update_of_ne (old x mem) ..).trans (ended x mem)
  · obtain ⟨mem, other⟩ := List.mem_filter.1 mem
    have holder := holds x mem
    have ne : st.holder k ≠ some i := by
      rw [holder]
      simpa using other
    exact (if_neg ne).trans holder

end Logs

section Invariant

variable [DecidableEq ι]

structure Counted (tasks : ι → Option (Script κ ν ε φ α)) (st : State ι κ ν ε φ α) : Prop where
  nodup : (st.finished.map (·.1)).Nodup
  ended : ∀ i ∈ st.finished.map (·.1), st.threads i = none
  total : ∀ i, (tasks i).isSome ↔ (st.threads i).isSome ∨ i ∈ st.finished.map (·.1)

variable {tasks : ι → Option (Script κ ν ε φ α)} {s : Store ν}
  {st st' : State ι κ ν ε φ α} {i j : ι} {th th' : Thread κ ν ε φ α}

theorem Counted.resume (h : Counted tasks st) (at_ : st.threads i = some th)
    (ends : st'.finished = st.finished)
    (threads : st'.threads = Function.update st.threads i (some th')) : Counted tasks st' := by
  have still : ∀ j, (st'.threads j).isSome ↔ (st.threads j).isSome := by
    intro j
    rw [threads]
    by_cases same : j = i
    · subst same
      simp [at_]
    · rw [Function.update_of_ne same]
  refine ⟨by rw [ends]; exact h.nodup, fun j mem => ?_, fun j => ?_⟩
  · rw [ends] at mem
    rw [← Option.not_isSome_iff_eq_none, still, Option.not_isSome_iff_eq_none]
    exact h.ended j mem
  · rw [still, ends]
    exact h.total j

theorem Counted.close (h : Counted tasks st) (at_ : st.threads i = some th)
    {outcome : Except φ α} (ends : st'.finished = st.finished ++ [(i, outcome)])
    (threads : st'.threads = Function.update st.threads i none) : Counted tasks st' := by
  have new : i ∉ st.finished.map (·.1) := fun mem => by
    rw [h.ended i mem] at at_
    cases at_
  have ids : st'.finished.map (·.1) = (st.finished.map (·.1)).concat i := by
    rw [ends, List.map_append, List.concat_eq_append]
    rfl
  refine ⟨?_, fun j mem => ?_, fun j => ?_⟩
  · rw [ids]
    exact List.Nodup.concat new h.nodup
  · rw [threads]
    by_cases same : j = i
    · subst same
      exact Function.update_self ..
    · rw [Function.update_of_ne same]
      rw [ids, List.concat_eq_append, List.mem_append] at mem
      exact h.ended j (mem.resolve_right fun h => same (List.mem_singleton.1 h))
  · rw [h.total j, threads, ids, List.concat_eq_append, List.mem_append]
    by_cases same : j = i
    · subst same
      simp [at_]
    · rw [Function.update_of_ne same]
      simp [same]

variable [DecidableEq κ] (Good Fixed : (k : κ) → ν k → Prop)

structure Running (tasks : ι → Option (Script κ ν ε φ α)) (st : State ι κ ν ε φ α) (i : ι)
    (th : Thread κ ν ε φ α) : Prop where
  owns : ∀ k v, th.overlay k = some v →
    st.holder k = some i ∧ Good k v ∧ (Fixed k (st.store k) → v = st.store k)
  sound : Sound Good Fixed th.rest (fun k => th.overlay k ≠ none) fun _ _ => True
  follows : ∃ m, tasks i = some m ∧
    Follows Fixed st.store m th.rest th.overlay (emitted i st.log)

structure Inv (tasks : ι → Option (Script κ ν ε φ α)) (s : Store ν) (st : State ι κ ν ε φ α) :
    Prop where
  good : ∀ k, Good k (st.store k)
  active : ∀ k i, st.holder k = some i → (st.threads i).isSome
  running : ∀ i th, st.threads i = some th → Running Good Fixed tasks st i th
  counted : Counted tasks st
  serial : ∃ log, serial (st.finished.filterMap (tasks ·.1)) s =
      (st.finished.map (·.2), st.store, log) ∧ ∀ k, Ordered st log k

variable {Good Fixed}

theorem Running.move (h : Running Good Fixed tasks st j th)
    (locks : ∀ k, st.holder k = some j → st'.holder k = some j ∧ st'.store k = st.store k)
    (fixed : ∀ k, Fixed k (st.store k) → st'.store k = st.store k)
    (log : emitted j st'.log = emitted j st.log) : Running Good Fixed tasks st' j th := by
  obtain ⟨m, task, follows⟩ := h.follows
  refine ⟨fun k v at_ => ?_, h.sound, m, task, ?_⟩
  · obtain ⟨holds, good, fix⟩ := h.owns k v at_
    obtain ⟨holds', same⟩ := locks k holds
    rw [same]
    exact ⟨holds', good, fix⟩
  · rw [log]
    refine follows.move (fun k held => ?_) fixed
    obtain ⟨v, at_⟩ := Option.ne_none_iff_exists'.1 held
    exact (locks k (h.owns k v at_).1).2

theorem Running.owns_write (h : Running Good Fixed tasks st i th) {k : κ} {v : ν k}
    (good : Good k v)
    (fixed : Fixed k (th.overlay.over st.store k) → v = th.overlay.over st.store k) (k' : κ)
    (v' : ν k') (own : Function.update th.overlay k (some v) k' = some v') :
    (st.holder k' = some i ∨ k' = k) ∧ Good k' v' ∧
      (Fixed k' (st.store k') → v' = st.store k') := by
  by_cases same : k' = k
  · subst same
    rw [Function.update_self] at own
    cases own
    refine ⟨.inr rfl, good, fun fix => ?_⟩
    have seen : th.overlay.over st.store k' = st.store k' := by
      cases own : th.overlay k' with
      | none => simp [Overlay.over, own]
      | some w => simpa [Overlay.over, own] using (h.owns k' w own).2.2 fix
    rw [seen] at fixed
    exact fixed fix
  · rw [Function.update_of_ne same] at own
    obtain ⟨holds, rest⟩ := h.owns k' v' own
    exact ⟨.inl holds, rest⟩

theorem Inv.good_over (inv : Inv Good Fixed tasks s st) (at_ : st.threads i = some th) (k : κ) :
    Good k (th.overlay.over st.store k) := by
  unfold Overlay.over
  cases own : th.overlay k with
  | none => exact inv.good k
  | some v => exact ((inv.running i th at_).owns k v own).2.1

/-- A statement leaves the committed store alone, and with it what the other
transactions have done. -/
theorem Inv.resume (inv : Inv Good Fixed tasks s st) (at_ : st.threads i = some th)
    (store : st'.store = st.store) (ends : st'.finished = st.finished)
    (threads : st'.threads = Function.update st.threads i (some th'))
    (mine : Running Good Fixed tasks st' i th')
    (locks : ∀ k j, j ≠ i → (st'.holder k = some j ↔ st.holder k = some j))
    (logs : ∀ j, j ≠ i → emitted j st'.log = emitted j st.log)
    (ordered : ∀ log k, Ordered st log k → Ordered st' log k) :
    Inv Good Fixed tasks s st' := by
  refine ⟨by rw [store]; exact inv.good, fun k j held => ?_, fun j t at_' => ?_,
    inv.counted.resume at_ ends threads, ?_⟩
  · rw [threads]
    by_cases same : j = i
    · subst same
      simp
    · rw [Function.update_of_ne same]
      exact inv.active k j ((locks k j same).1 held)
  · rw [threads] at at_'
    by_cases same : j = i
    · subst same
      rw [Function.update_self] at at_'
      cases at_'
      exact mine
    · rw [Function.update_of_ne same] at at_'
      refine (inv.running j t at_').move (fun k held => ⟨(locks k j same).2 held, ?_⟩)
        (fun k _ => ?_) (logs j same)
      · rw [store]
      · rw [store]
  · obtain ⟨log, run, order⟩ := inv.serial
    rw [ends, store]
    exact ⟨log, run, fun k => ordered log k (order k)⟩

theorem Inv.close (inv : Inv Good Fixed tasks s st) (at_ : st.threads i = some th)
    {outcome : Except φ α} (log' : List (κ × ε))
    (ends : st'.finished = st.finished ++ [(i, outcome)])
    (threads : st'.threads = Function.update st.threads i none)
    (holder : ∀ k, st'.holder k = if st.holder k = some i then none else st.holder k)
    (store : ∀ k, st'.store k = st.store k ∨ ∃ v, th.overlay k = some v ∧ st'.store k = v)
    (logs : ∀ j, j ≠ i → emitted j st'.log = emitted j st.log)
    (ran : ∀ m, tasks i = some m → solo m st.store = (outcome, st'.store, log'))
    (ordered : ∀ log k, Ordered st log k → Ordered st' (log ++ log') k) :
    Inv Good Fixed tasks s st' := by
  have me := inv.running i th at_
  have kept : ∀ j, j ≠ i → ∀ k, st.holder k = some j → st'.holder k = some j := by
    intro j ne k held
    have other : st.holder k ≠ some i := by
      rw [held]
      exact fun same => ne (Option.some.inj same)
    rw [holder, if_neg other]
    exact held
  refine ⟨fun k => ?_, fun k j held => ?_, fun j t at_' => ?_,
    inv.counted.close at_ ends threads, ?_⟩
  · rcases store k with same | ⟨v, own, same⟩
    · rw [same]
      exact inv.good k
    · rw [same]
      exact (me.owns k v own).2.1
  · rw [holder] at held
    split at held
    · cases held
    · rename_i other
      have ne : j ≠ i := fun same => other (same ▸ held)
      rw [threads, Function.update_of_ne ne]
      exact inv.active k j held
  · have ne : j ≠ i := by
      rintro rfl
      rw [threads, Function.update_self] at at_'
      cases at_'
    rw [threads, Function.update_of_ne ne] at at_'
    refine (inv.running j t at_').move (fun k held => ⟨kept j ne k held, ?_⟩) (fun k fixed => ?_)
      (logs j ne)
    · rcases store k with same | ⟨v, own, -⟩
      · exact same
      · have := (me.owns k v own).1
        exact absurd (Option.some.inj (held.symm.trans this)) ne
    · rcases store k with same | ⟨v, own, same⟩
      · exact same
      · rw [same]
        exact (me.owns k v own).2.2 fixed
  · obtain ⟨log, run, order⟩ := inv.serial
    obtain ⟨m, task, -⟩ := me.follows
    refine ⟨log ++ log', ?_, fun k => ordered log k (order k)⟩
    have last : List.filterMap (fun x => tasks x.1) [(i, outcome)] = [m] :=
      List.filterMap_cons_some task
    rw [ends, List.filterMap_append, last, serial_snoc, run]
    simp only [ran m task, List.map_append, List.map_cons, List.map_nil]

theorem Inv.step (inv : Inv Good Fixed tasks s st) (h : st.step i = some st') :
    Inv Good Fixed tasks s st' := by
  cases step_stepped h with
  | @commit a o at_ =>
    refine inv.close at_ (emitted i st.log) rfl rfl (fun _ => rfl) (fun k => ?_)
      (fun _ _ => rfl) (fun m task => ?_) (fun log k order => order.commit at_)
    · change (o k).getD (st.store k) = _ ∨ _
      cases own : o k with
      | none => exact .inl rfl
      | some v => exact .inr ⟨v, own, by simp [Overlay.over, own]⟩
    · obtain ⟨m', task', follows⟩ := (inv.running i _ at_).follows
      cases task.symm.trans task'
      simp only [solo, follows.exec_eq, exec]
  | @rollback e o at_ =>
    refine inv.close at_ [] rfl rfl (fun _ => rfl) (fun k => .inl rfl)
      (fun j ne => emitted_filter_other ne.symm st.log) (fun m task => ?_)
      (fun log k order => ?_)
    · obtain ⟨m', task', follows⟩ := (inv.running i _ at_).follows
      cases task.symm.trans task'
      simp only [solo, follows.exec_eq, exec]
      rfl
    · rw [List.append_nil]
      exact order.rollback at_
  | @pass k write next o at_ free read =>
    have me := inv.running i _ at_
    obtain ⟨m, task, follows⟩ := me.follows
    obtain ⟨safe, sound⟩ := (me.sound _ (inv.good_over at_ k)).1 read
    refine inv.resume at_ rfl rfl rfl ⟨me.owns, sound, m, task, ?_⟩ (fun _ _ _ => .rfl)
      (fun _ _ => rfl) (fun log k order => order.resume at_ rfl (fun _ held => held) rfl)
    refine follows.pass read ?_
    by_cases own : o k = none
    · refine .inr ?_
      have fixed := safe.resolve_left fun held => held own
      simpa [Overlay.over, own] using fixed
    · exact .inl own
  | @keep k write next o v at_ free read =>
    have me := inv.running i _ at_
    obtain ⟨m, task, follows⟩ := me.follows
    obtain ⟨good, fixed, sound⟩ := (me.sound _ (inv.good_over at_ k)).2 v read
    have locks : ∀ k' j, Function.update st.holder k (some i) k' = some j ↔
        st.holder k' = some j ∨ (k' = k ∧ j = i) := by
      intro k' j
      by_cases same : k' = k
      · subst same
        rcases free with free | free <;> simp [free, eq_comm]
      · simp [same]
    refine inv.resume at_ rfl rfl rfl ⟨fun k' v' own => ?_, ?_, m, task, follows.keep read⟩
      (fun k' j ne => (locks k' j).trans (or_iff_left fun h => ne h.2)) (fun _ _ => rfl)
      (fun log k' order => order.resume at_ rfl (fun j held => (locks k' j).2 (.inl held)) rfl)
    · obtain ⟨holds, rest⟩ := me.owns_write good fixed k' v' own
      exact ⟨(locks k' i).2 (holds.imp_right fun same => ⟨same, rfl⟩), rest⟩
    · refine sound_mono (fun k' held => ?_) (fun _ _ _ _ _ => trivial) sound
      by_cases same : k' = k
      · subst same
        simp
      · simpa [same] using held.resolve_left same
  | @emit k e next o at_ =>
    have me := inv.running i _ at_
    obtain ⟨m, task, follows⟩ := me.follows
    obtain ⟨held, sound⟩ := me.sound
    obtain ⟨v, own⟩ := Option.ne_none_iff_exists'.1 held
    refine inv.resume at_ rfl rfl rfl ⟨me.owns, sound, m, task, ?_⟩ (fun _ _ _ => .rfl)
      (fun j ne => emitted_append_other ne.symm st.log k e)
      (fun log j order => order.append at_ (me.owns k v own).1)
    have later := follows.emit
    rw [← emitted_append_self] at later
    exact later

theorem inv_start (good : ∀ k, Good k (s k))
    (sound : ∀ i m, tasks i = some m → Sound Good Fixed m (fun _ => False) fun _ _ => True) :
    Inv Good Fixed tasks s (start tasks s) := by
  refine ⟨good, ?_, fun i th at_ => ?_, ⟨List.nodup_nil, ?_, fun i => ?_⟩, [], rfl, fun k => ?_⟩
  · intro k i held
    cases held
  · obtain ⟨m, task, rfl⟩ := Option.map_eq_some_iff.1 at_
    refine ⟨?_, ?_, m, task, .start⟩
    · intro k v own
      cases own
    · exact sound_mono (fun _ => False.elim) (fun _ _ _ _ _ => trivial) (sound i m task)
  · intro i mem
    cases mem
  · simp [start]
  · refine ⟨[], [], rfl, ?_, ?_, rfl⟩
    · intro x mem
      cases mem
    · intro x mem
      cases mem

theorem run_inv {schedule : List ι} (inv : Inv Good Fixed tasks s st)
    (h : State.run schedule st = some st') : Inv Good Fixed tasks s st' := by
  induction schedule generalizing st with
  | nil =>
    cases h
    exact inv
  | cons i rest ih =>
    obtain ⟨mid, step, later⟩ := Option.bind_eq_some_iff.1 h
    exact ih (inv.step step) later

/-- When all transactions have ended, each has ended once; store, answers and
the entries at every resource are those of the serial run in the order in
which they ended. -/
theorem serializable {schedule : List ι} (good : ∀ k, Good k (s k))
    (sound : ∀ i m, tasks i = some m → Sound Good Fixed m (fun _ => False) fun _ _ => True)
    (h : State.run schedule (start tasks s) = some st)
    (ended : ∀ i, (tasks i).isSome → st.threads i = none) :
    (st.finished.map (·.1)).Nodup ∧ (∀ i, i ∈ st.finished.map (·.1) ↔ (tasks i).isSome) ∧
      ∃ log, serial (st.finished.filterMap (tasks ·.1)) s =
          (st.finished.map (·.2), st.store, log) ∧
        ∀ k, entriesAt k (st.log.map (·.2)) = entriesAt k log := by
  have inv := run_inv (inv_start good sound) h
  obtain ⟨log, run, ordered⟩ := inv.serial
  have idle : ∀ i, st.threads i = none := fun i => by
    by_contra active
    have task := (inv.counted.total i).2 (.inl (Option.isSome_iff_ne_none.2 active))
    exact active (ended i task)
  refine ⟨inv.counted.nodup, fun i => ?_, log, run, fun k => ?_⟩
  · simp [inv.counted.total i, idle i]
  · obtain ⟨done, current, split, -, holds, entries⟩ := ordered k
    have none_ : current = [] := by
      refine List.eq_nil_iff_forall_not_mem.2 fun x mem => ?_
      have active := inv.active k x.1 (holds x mem)
      rw [idle] at active
      cases active
    rw [none_, List.append_nil] at split
    rw [← entries, ← split]
    simp [entriesAt, logAt, List.filter_map, Function.comp_def]

end Invariant

end Taper.TwoPhase
