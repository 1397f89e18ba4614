import Mathlib.Data.List.Perm.Basic
import Mathlib.Data.List.Range

set_option autoImplicit false

/-!
# Shutdown

Cleanups are registered at the back (`Defer`) or at the front (`DeferFirst`) of
one list, and `Cleanup` walks the list from the back.
-/
namespace Taper.Shutdown

structure Cleanup (φ : Type) where
  number : ℕ
  func : φ

structure Closer (φ : Type) where
  defers : List (Cleanup φ)
  cleaned : Bool
  /-- The root context has been cancelled. -/
  cancelled : Bool

variable {φ ω ε : Type}

def newCloser : Closer φ := ⟨[], false, false⟩

def Closer.defer (c : Closer φ) (f : Cleanup φ) : Closer φ := { c with defers := c.defers ++ [f] }

def Closer.deferFirst (c : Closer φ) (f : Cleanup φ) : Closer φ :=
  { c with defers := [f] ++ c.defers }

structure Process (φ ω ε : Type) where
  call : φ → ω → Option ε × ω
  expired : ω → Bool

inductive Line (ε : Type) where
  | exceeded (i n : ℕ) (e : ε)
  | failed (i n : ℕ) (e : ε)
  | complete

/-- The state of the loop; `results` has the calls with what they returned. -/
structure Drain (ω ε : Type) where
  world : ω
  code : ℕ
  log : List (Line ε)
  results : List (ℕ × Option ε)

def Drain.call (p : Process φ ω ε) (n i : ℕ) (f : Cleanup φ) (d : Drain ω ε) : Drain ω ε :=
  let out := p.call f.func d.world
  let results := d.results ++ [(f.number, out.1)]
  match out.1 with
  | none => { d with world := out.2, results := results }
  | some e =>
    let line : Line ε := if p.expired out.2 then .exceeded (i + 1) n e else .failed (i + 1) n e
    ⟨out.2, 1, d.log ++ [line], results⟩

def Drain.loop (p : Process φ ω ε) (defers : List (Cleanup φ)) : ℕ → Drain ω ε → Drain ω ε
  | 0, d => d
  | i + 1, d =>
    match defers[i]? with
    | none => loop p defers i d
    | some f => loop p defers i (d.call p defers.length i f)

/-- The second call and every later one finds nothing to do. -/
def Closer.cleanup (p : Process φ ω ε) (c : Closer φ) (w : ω) : Drain ω ε × Closer φ :=
  if c.cleaned then (⟨w, 0, [], []⟩, c)
  else
    let d := Drain.loop p c.defers c.defers.length ⟨w, 0, [], []⟩
    let log := if d.code = 0 then d.log ++ [.complete] else d.log
    ({ d with log := log }, ⟨[], true, true⟩)

inductive Registration (φ : Type) where
  | defer (f : φ)
  | deferFirst (f : φ)

def Closer.register (c : Closer φ) (r : Registration φ × ℕ) : Closer φ :=
  match r.1 with
  | .defer f => c.defer ⟨r.2, f⟩
  | .deferFirst f => c.deferFirst ⟨r.2, f⟩

def registered (regs : List (Registration φ)) : Closer φ :=
  regs.zipIdx.foldl Closer.register newCloser

section Walk

variable (p : Process φ ω ε)

theorem call_results (n i : ℕ) (f : Cleanup φ) (d : Drain ω ε) :
    ∃ r, (d.call p n i f).results = d.results ++ [(f.number, r)] ∧
      (d.call p n i f).code = if r.isSome then 1 else d.code := by
  refine ⟨(p.call f.func d.world).1, ?_⟩
  unfold Drain.call
  cases out : (p.call f.func d.world).1 with
  | none => simp [out]
  | some e => simp [out]

theorem loop_results (defers : List (Cleanup φ)) (i : ℕ) (bound : i ≤ defers.length)
    (d : Drain ω ε) : ∃ rs : List (ℕ × Option ε),
      (d.loop p defers i).results = d.results ++ rs ∧
      rs.map (·.1) = ((defers.take i).map (·.number)).reverse ∧
      (d.loop p defers i).code = if rs.any (·.2.isSome) then 1 else d.code := by
  induction i generalizing d with
  | zero => exact ⟨[], by simp [Drain.loop], by simp, by simp [Drain.loop]⟩
  | succ i ih =>
    have here : defers[i]? = some defers[i] := List.getElem?_eq_getElem bound
    obtain ⟨r, appended, code⟩ := call_results p defers.length i defers[i] d
    obtain ⟨rs, later, order, ends⟩ := ih (by omega) (d.call p defers.length i defers[i])
    refine ⟨(defers[i].number, r) :: rs, ?_, ?_, ?_⟩
    · simp only [Drain.loop, here, later, appended, List.append_assoc, List.singleton_append]
    · rw [List.map_cons, order, List.take_add_one, here, List.map_append, List.reverse_append]
      rfl
    · simp only [Drain.loop, here, ends, code, List.any_cons]
      cases r with
      | none => rfl
      | some e => simp

end Walk

def Drain.ran (d : Drain ω ε) : List ℕ := d.results.map (·.1)

theorem cleanup_results (p : Process φ ω ε) (c : Closer φ) (fresh : c.cleaned = false) (w : ω) :
    (c.cleanup p w).1.ran = (c.defers.map (·.number)).reverse ∧
      (c.cleanup p w).1.code = if (c.cleanup p w).1.results.any (·.2.isSome) then 1 else 0 := by
  obtain ⟨rs, results, order, code⟩ := loop_results p c.defers _ le_rfl ⟨w, 0, [], []⟩
  rw [List.nil_append] at results
  rw [List.take_length] at order
  simp only [Closer.cleanup, fresh, Bool.false_eq_true, if_false, Drain.ran, results, code]
  exact ⟨order, trivial⟩

section Order

def Registration.isFirst : Registration φ → Bool
  | .defer _ => false
  | .deferFirst _ => true

def numbered (first : Bool) (regs : List (Registration φ × ℕ)) : List ℕ :=
  (regs.filter fun r => r.1.isFirst = first).map (·.2)

theorem register_defers (regs : List (Registration φ × ℕ)) (c : Closer φ) :
    (regs.foldl Closer.register c).cleaned = c.cleaned ∧
      (regs.foldl Closer.register c).defers.map (·.number) =
        (numbered true regs).reverse ++ c.defers.map (·.number) ++ numbered false regs := by
  induction regs generalizing c with
  | nil => simp [numbered]
  | cons r rest ih =>
    obtain ⟨kind, n⟩ := r
    rw [List.foldl_cons]
    obtain ⟨kept, later⟩ := ih (c.register (kind, n))
    cases kind with
    | defer f =>
      refine ⟨kept, ?_⟩
      rw [later]
      simp [Closer.register, Closer.defer, numbered, Registration.isFirst]
    | deferFirst f =>
      refine ⟨kept, ?_⟩
      rw [later]
      simp [Closer.register, Closer.deferFirst, numbered, Registration.isFirst]

variable (regs : List (Registration φ))

def Registers (first : Bool) (i : ℕ) : Prop := ∃ r, regs[i]? = some r ∧ r.isFirst = first

theorem mem_numbered {first : Bool} {i : ℕ} :
    i ∈ numbered first regs.zipIdx ↔ Registers regs first i := by
  simp only [numbered, List.mem_map, List.mem_filter, decide_eq_true_eq, Prod.exists,
    List.mem_zipIdx_iff_getElem?, Registers]
  constructor
  · rintro ⟨r, n, ⟨at_, kind⟩, rfl⟩
    exact ⟨r, at_, kind⟩
  · rintro ⟨r, at_, kind⟩
    exact ⟨r, i, ⟨at_, kind⟩, rfl⟩

theorem numbered_ascending (first : Bool) : (numbered first regs.zipIdx).Pairwise (· < ·) := by
  have all : (regs.zipIdx.map (·.2)).Pairwise (· < ·) := by
    rw [List.zipIdx_map_snd]
    exact List.pairwise_lt_range'
  exact all.sublist (List.filter_sublist.map _)

theorem numbered_perm :
    ((numbered false regs.zipIdx).reverse ++ numbered true regs.zipIdx).Perm
      (List.range regs.length) := by
  have split := (List.filter_append_perm
    (fun r : Registration φ × ℕ => decide (r.1.isFirst = false))
    regs.zipIdx).map (·.2)
  rw [List.zipIdx_map_snd, List.map_append, ← List.range_eq_range'] at split
  refine ((List.reverse_perm _).append_right _).trans (List.Perm.trans (List.Perm.of_eq ?_) split)
  simp [numbered]

/-- Of two numbers in a list without the other order, the first comes first. -/
theorem sublist_of_pairwise {R : ℕ → ℕ → Prop} {l : List ℕ} (sorted : l.Pairwise R) {i j : ℕ}
    (hi : i ∈ l) (hj : j ∈ l) (ne : i ≠ j) (not : ¬R j i) : [i, j].Sublist l := by
  obtain ⟨a, b, rfl⟩ := List.append_of_mem hi
  have after : j ∈ b := by
    rcases List.mem_append.1 hj with before | here
    · exact absurd ((List.pairwise_append.1 sorted).2.2 j before i List.mem_cons_self) not
    · exact (List.mem_cons.1 here).resolve_left ne.symm
  exact (List.singleton_sublist.2 after |>.cons_cons i).trans (List.sublist_append_right a _)

/-- What comes before what at shutdown: a function from the back before one from
the front, of the back the later one first, of the front the earlier one. -/
def Precedes (i j : ℕ) : Prop :=
  (Registers regs false i ∧ Registers regs true j) ∨
  (Registers regs false i ∧ Registers regs false j ∧ j < i) ∨
  (Registers regs true i ∧ Registers regs true j ∧ i < j)

theorem ran_precedes :
    ((numbered false regs.zipIdx).reverse ++ numbered true regs.zipIdx).Pairwise
      (Precedes regs) := by
  have back := List.pairwise_reverse.2 ((numbered_ascending regs false).imp_of_mem
    (S := fun i j => Precedes regs j i) fun hi hj lt => .inr (.inl ⟨(mem_numbered regs).1 hj,
      (mem_numbered regs).1 hi, lt⟩))
  have front := (numbered_ascending regs true).imp_of_mem (S := Precedes regs)
    fun hi hj lt => .inr (.inr ⟨(mem_numbered regs).1 hi, (mem_numbered regs).1 hj, lt⟩)
  refine List.pairwise_append.2 ⟨back, front, fun i hi j hj => .inl ⟨?_, ?_⟩⟩
  · exact (mem_numbered regs).1 (List.mem_reverse.1 hi)
  · exact (mem_numbered regs).1 hj

theorem registers_one {first other : Bool} {i : ℕ} (h : Registers regs first i)
    (h' : Registers regs other i) : first = other := by
  obtain ⟨r, at_, kind⟩ := h
  obtain ⟨r', at', kind'⟩ := h'
  rw [at_] at at'
  cases at'
  exact kind.symm.trans kind'

end Order

/-- `Cleanup` calls every function once, those of `Defer` in the reverse of their
order, and returns 1 exactly if one of them failed. The functions of `DeferFirst`
come before those of `Defer` only if there are none of one kind. -/
theorem shutdown_order_iff (p : Process φ ω ε) (w : ω) (regs : List (Registration φ)) :
    let d := ((registered regs).cleanup p w).1
    d.ran.Perm (List.range regs.length) ∧
    (∀ i j, Registers regs false i → Registers regs false j → i < j → [j, i].Sublist d.ran) ∧
    (d.code = 1 ↔ ∃ r ∈ d.results, r.2 ≠ none) ∧ (d.code = 0 ∨ d.code = 1) ∧
    ((∀ i j, Registers regs true i → Registers regs false j → [i, j].Sublist d.ran) ↔
      (∀ i, ¬Registers regs true i) ∨ ∀ j, ¬Registers regs false j) := by
  obtain ⟨fresh, defers⟩ := register_defers regs.zipIdx newCloser
  obtain ⟨ran, code⟩ := cleanup_results p (registered regs) fresh w
  have order : ((registered regs).cleanup p w).1.ran =
      (numbered false regs.zipIdx).reverse ++ numbered true regs.zipIdx := by
    rw [ran, registered, defers]
    simp [newCloser]
  have sorted := ran_precedes regs
  rw [← order] at sorted
  have mem : ∀ {first i}, Registers regs first i →
      i ∈ ((registered regs).cleanup p w).1.ran := by
    intro first i h
    rw [order, List.mem_append, List.mem_reverse]
    cases first with
    | false => exact .inl ((mem_numbered regs).2 h)
    | true => exact .inr ((mem_numbered regs).2 h)
  refine ⟨?_, fun i j hi hj lt => ?_, ?_, ?_, ?_⟩
  · rw [order]
    exact numbered_perm regs
  · refine sublist_of_pairwise sorted (mem hj) (mem hi) (by omega) ?_
    rintro (⟨-, first⟩ | ⟨-, -, less⟩ | ⟨first, -, -⟩)
    · exact absurd (registers_one regs hj first) (by decide)
    · omega
    · exact absurd (registers_one regs hi first) (by decide)
  · rw [code]
    simp [List.any_eq_true, Option.isSome_iff_ne_none]
  · rw [code]
    split
    · exact .inr rfl
    · exact .inl rfl
  · constructor
    · intro before
      by_contra both
      simp only [not_or, not_forall, not_not] at both
      obtain ⟨⟨i, hi⟩, ⟨j, hj⟩⟩ := both
      have pair := (sorted.sublist (before i j hi hj))
      have wrong : Precedes regs i j := by simpa using pair
      rcases wrong with ⟨back, -⟩ | ⟨back, -, -⟩ | ⟨-, front, -⟩
      · exact absurd (registers_one regs hi back) (by decide)
      · exact absurd (registers_one regs hi back) (by decide)
      · exact absurd (registers_one regs hj front) (by decide)
    · rintro (none | none) i j hi hj
      · exact absurd hi (none i)
      · exact absurd hj (none j)

def sampleRegistrations : List (Registration String) :=
  [.defer "close pool", .deferFirst "stop server"]

def sampleProcess : Process String (List String) Unit where
  call f w := (none, w ++ [f])
  expired _ := false

theorem server_stops_last :
    Registers sampleRegistrations true 1 ∧ Registers sampleRegistrations false 0 ∧
    ¬[1, 0].Sublist ((registered sampleRegistrations).cleanup sampleProcess []).1.ran ∧
    ((registered sampleRegistrations).cleanup sampleProcess []).1.world =
      ["close pool", "stop server"] := by
  refine ⟨⟨_, rfl, rfl⟩, ⟨_, rfl, rfl⟩, by decide, by decide⟩

end Taper.Shutdown
