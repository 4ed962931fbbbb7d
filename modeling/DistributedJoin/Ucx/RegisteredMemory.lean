import DistributedJoin.Spmd.Interleaving
import Mathlib.Data.Finset.Basic
import Mathlib.Data.Set.Function

/-!
# Memory that is registered for communication

`registered_memory_resource` registers all memory that it allocates and remembers the
handles by address. An entry is never erased, so an address that has been freed keeps a
handle that is no longer valid until it is allocated again.
-/

namespace DistributedJoin

namespace RegisteredMemory

open Spmd

variable {Address Handle : Type}

/-- Registrations and their ends, with the resource that asks for them. -/
inductive Event (Address Handle : Type)
  | registered (object : Nat) (p : Address) (memory_handle : Handle)
  | deregistered (object : Nat) (p : Address) (memory_handle : Handle)

/-- The handles that have been registered, latest first. -/
def issued (log : List (Event Address Handle)) : List Handle :=
  log.filterMap fun event =>
    match event with
    | .registered _ _ memory_handle => some memory_handle
    | .deregistered .. => none

/-- The handles that have been deregistered, latest first. -/
def deregistered (log : List (Event Address Handle)) : List Handle :=
  log.filterMap fun event =>
    match event with
    | .registered .. => none
    | .deregistered _ _ memory_handle => some memory_handle

/-- The handles that are registered. -/
def outstanding (log : List (Event Address Handle)) : Set Handle :=
  fun memory_handle => memory_handle ∈ issued log ∧ memory_handle ∉ deregistered log

section Log

variable (object : Nat) (p : Address) (memory_handle : Handle) (log : List (Event Address Handle))

@[simp] theorem issued_registered :
    issued (.registered object p memory_handle :: log) = memory_handle :: issued log := rfl

@[simp] theorem issued_deregistered :
    issued (.deregistered object p memory_handle :: log) = issued log := rfl

@[simp] theorem deregistered_registered :
    deregistered (.registered object p memory_handle :: log) = deregistered log := rfl

@[simp] theorem deregistered_deregistered :
    deregistered (.deregistered object p memory_handle :: log) =
      memory_handle :: deregistered log := rfl

end Log

theorem mem_issued
    {object : Nat}
    {p : Address}
    {memory_handle : Handle}
    {log : List (Event Address Handle)}
    (member : .registered object p memory_handle ∈ log) :
    memory_handle ∈ issued log :=
  List.mem_filterMap.mpr ⟨_, member, rfl⟩

variable [DecidableEq Address]

/-- The latest allocation of an address: the resource and the handle. -/
def latest (p : Address) (log : List (Event Address Handle)) : Option (Nat × Handle) :=
  log.findSome? fun event =>
    match event with
    | .registered object address memory_handle =>
        if address = p then some (object, memory_handle) else none
    | .deregistered .. => none

section Latest

variable (object : Nat) (p : Address) (memory_handle : Handle) (log : List (Event Address Handle))

@[simp] theorem latest_registered :
    latest p (.registered object p memory_handle :: log) = some (object, memory_handle) := by
  simp [latest]

theorem latest_registered_of_ne {q : Address} (different : q ≠ p) :
    latest q (.registered object p memory_handle :: log) = latest q log := by
  simp [latest, different.symm]

@[simp] theorem latest_deregistered (q : Address) :
    latest q (.deregistered object p memory_handle :: log) = latest q log := rfl

end Latest

/-- The memory resources of a process that share a communicator. -/
structure State (Address Handle : Type) where
  /-- By resource, the handles by address. -/
  registered_handles : Nat → Address → Option Handle
  live : Finset Address
  /-- What has happened, latest first. -/
  log : List (Event Address Handle)

/-- New resources. -/
def State.start : State Address Handle where
  registered_handles := fun _ _ => none
  live := ∅
  log := []

/-- Allocate memory at an address that `cudaMalloc` returns, with a handle that
`register_buffer` returns. -/
def do_allocate
    (object : Nat)
    (p : Address)
    (memory_handle : Handle)
    (state : State Address Handle) : State Address Handle where
  registered_handles := Function.update state.registered_handles object
    (Function.update (state.registered_handles object) p (some memory_handle))
  live := insert p state.live
  log := .registered object p memory_handle :: state.log

section Entries

variable (object : Nat) (p : Address) (memory_handle : Handle) (state : State Address Handle)

@[simp] theorem log_do_allocate :
    (do_allocate object p memory_handle state).log =
      .registered object p memory_handle :: state.log := rfl

@[simp] theorem live_do_allocate :
    (do_allocate object p memory_handle state).live = insert p state.live := rfl

@[simp] theorem registered_handles_do_allocate :
    (do_allocate object p memory_handle state).registered_handles object p =
      some memory_handle := by
  simp [do_allocate]

theorem registered_handles_do_allocate_of_ne
    {other : Nat}
    {q : Address}
    (different : other ≠ object ∨ q ≠ p) :
    (do_allocate object p memory_handle state).registered_handles other q =
      state.registered_handles other q := by
  by_cases same : other = object
  · subst same
    simp [do_allocate, different.resolve_left (not_not.mpr rfl)]
  · simp [do_allocate, same]

end Entries

/-- Free memory. Without an entry for the address the behaviour is undefined. -/
def do_deallocate
    (object : Nat)
    (p : Address)
    (state : State Address Handle) : Option (State Address Handle) :=
  (state.registered_handles object p).map fun memory_handle =>
    { state with
      live := state.live.erase p
      log := .deregistered object p memory_handle :: state.log }

/-- The entries of live pointers of a resource are their registrations. The other
entries may be stale. -/
structure Consistent (object : Nat) (state : State Address Handle) : Prop where
  current : ∀ p ∈ state.live, ∃ memory_handle,
    state.registered_handles object p = some memory_handle ∧
      latest p state.log = some (object, memory_handle) ∧
      memory_handle ∈ outstanding state.log
  injective : ∀ p ∈ state.live, ∀ q ∈ state.live,
    state.registered_handles object p = state.registered_handles object q → p = q
  covered : ∀ memory_handle ∈ outstanding state.log, ∃ p ∈ state.live,
    state.registered_handles object p = some memory_handle
  /-- No handle is deregistered twice. -/
  once : (deregistered state.log).Nodup
  deregistered_issued : ∀ memory_handle ∈ deregistered state.log, memory_handle ∈ issued state.log

theorem consistent_start (object : Nat) :
    Consistent object (State.start : State Address Handle) where
  current := fun p alive => absurd alive (Finset.notMem_empty p)
  injective := fun p alive => absurd alive (Finset.notMem_empty p)
  covered := fun _ registered => absurd registered.1 List.not_mem_nil
  once := List.nodup_nil
  deregistered_issued := fun _ member => absurd member List.not_mem_nil

namespace Consistent

variable {object : Nat} {state : State Address Handle} (consistent : Consistent object state)
include consistent

theorem do_allocate
    {p : Address}
    {memory_handle : Handle}
    (free : p ∉ state.live)
    (fresh : memory_handle ∉ issued state.log) :
    Consistent object (do_allocate object p memory_handle state) := by
  have other : ∀ q, q ∈ state.live → q ≠ p := fun q alive same => free (same ▸ alive)
  have kept : ∀ q, q ∈ state.live →
      (RegisteredMemory.do_allocate object p memory_handle state).registered_handles object q =
        state.registered_handles object q := fun q alive =>
    registered_handles_do_allocate_of_ne object p memory_handle state (.inr (other q alive))
  have distinct : ∀ q, q ∈ state.live →
      state.registered_handles object q ≠ some memory_handle := by
    intro q alive same
    obtain ⟨found, entry, _, registered⟩ := consistent.current q alive
    rw [entry] at same
    exact fresh (Option.some.inj same ▸ registered.1)
  constructor
  case current =>
    intro q alive
    rcases Finset.mem_insert.mp alive with rfl | before
    · refine ⟨memory_handle, registered_handles_do_allocate _ _ _ _, latest_registered .., ?_⟩
      exact ⟨List.mem_cons_self, fun ended => fresh (consistent.deregistered_issued _ ended)⟩
    · obtain ⟨found, entry, newest, registered⟩ := consistent.current q before
      refine ⟨found, (kept q before).trans entry, ?_, ?_⟩
      · exact (latest_registered_of_ne _ _ _ _ (other q before)).trans newest
      · exact ⟨List.mem_cons_of_mem _ registered.1, registered.2⟩
  case injective =>
    intro q alive r otherAlive same
    rcases Finset.mem_insert.mp alive with rfl | before
    · rcases Finset.mem_insert.mp otherAlive with rfl | otherBefore
      · rfl
      · rw [registered_handles_do_allocate, kept r otherBefore] at same
        exact absurd same.symm (distinct r otherBefore)
    · rcases Finset.mem_insert.mp otherAlive with rfl | otherBefore
      · rw [registered_handles_do_allocate, kept q before] at same
        exact absurd same (distinct q before)
      · rw [kept q before, kept r otherBefore] at same
        exact consistent.injective q before r otherBefore same
  case covered =>
    intro registered outstanding
    rcases List.mem_cons.mp outstanding.1 with rfl | earlier
    · exact ⟨p, Finset.mem_insert_self .., registered_handles_do_allocate _ _ _ _⟩
    · obtain ⟨q, alive, entry⟩ := consistent.covered registered ⟨earlier, outstanding.2⟩
      exact ⟨q, Finset.mem_insert_of_mem alive, (kept q alive).trans entry⟩
  case once => exact consistent.once
  case deregistered_issued =>
    exact fun ended member => List.mem_cons_of_mem _ (consistent.deregistered_issued ended member)

theorem do_deallocate
    {p : Address}
    {memory_handle : Handle}
    (alive : p ∈ state.live)
    (found : state.registered_handles object p = some memory_handle) :
    Consistent object { state with
      live := state.live.erase p
      log := .deregistered object p memory_handle :: state.log } := by
  obtain ⟨entered, entry, _, registered⟩ := consistent.current p alive
  obtain rfl : entered = memory_handle := Option.some.inj (entry.symm.trans found)
  constructor
  case current =>
    intro q otherAlive
    obtain ⟨different, before⟩ := Finset.mem_erase.mp otherAlive
    obtain ⟨other, otherEntry, newest, otherRegistered⟩ := consistent.current q before
    refine ⟨other, otherEntry, newest, otherRegistered.1, fun ended => ?_⟩
    rcases List.mem_cons.mp ended with rfl | earlier
    · exact different (consistent.injective q before p alive (otherEntry.trans found.symm))
    · exact otherRegistered.2 earlier
  case injective =>
    intro q qAlive r rAlive
    exact consistent.injective q (Finset.mem_of_mem_erase qAlive) r (Finset.mem_of_mem_erase rAlive)
  case covered =>
    intro other outstanding
    have kept : other ∉ entered :: deregistered state.log := outstanding.2
    obtain ⟨q, qAlive, qEntry⟩ := consistent.covered other
      ⟨outstanding.1, fun ended => kept (List.mem_cons_of_mem _ ended)⟩
    refine ⟨q, Finset.mem_erase.mpr ⟨fun same => kept ?_, qAlive⟩, qEntry⟩
    subst same
    rw [Option.some.inj (qEntry.symm.trans found)]
    exact List.mem_cons_self
  case once => exact List.nodup_cons.mpr ⟨registered.2, consistent.once⟩
  case deregistered_issued =>
    intro ended member
    rcases List.mem_cons.mp member with rfl | earlier
    · exact registered.1
    · exact consistent.deregistered_issued ended earlier

end Consistent

/-- A call with the answers of `cudaMalloc` and `register_buffer`. -/
inductive Call (Address Handle : Type)
  | do_allocate (p : Address) (memory_handle : Handle)
  | do_deallocate (p : Address)

variable [DecidableEq Handle]

/-- A call on a resource. `cudaMalloc` returns an address that is not live,
`register_buffer` a handle it has not returned before, and only live pointers are
deallocated. -/
def step
    (component : Nat × Call Address Handle)
    (state : State Address Handle) : Option (State Address Handle) :=
  match component.2 with
  | .do_allocate p memory_handle =>
      if p ∉ state.live ∧ memory_handle ∉ issued state.log then
        some (do_allocate component.1 p memory_handle state)
      else none
  | .do_deallocate p => if p ∈ state.live then do_deallocate component.1 p state else none

/-- A call on one resource. -/
def own_step (object : Nat) (call : Call Address Handle) :
    State Address Handle → Option (State Address Handle) :=
  step (object, call)

/-- What a call can do: an allocation registers a fresh handle, a deallocation
deregisters the handle that is found. -/
theorem step_cases
    {component : Nat × Call Address Handle}
    {state next : State Address Handle}
    (taken : step component state = some next) :
    (∃ p memory_handle, p ∉ state.live ∧ memory_handle ∉ issued state.log ∧
        next = do_allocate component.1 p memory_handle state) ∨
      ∃ p memory_handle, p ∈ state.live ∧
        state.registered_handles component.1 p = some memory_handle ∧
        next = { state with
          live := state.live.erase p
          log := .deregistered component.1 p memory_handle :: state.log } := by
  obtain ⟨object, call⟩ := component
  cases call with
  | do_allocate p memory_handle =>
      simp only [step] at taken
      split at taken
      · rename_i fresh
        exact .inl ⟨p, memory_handle, fresh.1, fresh.2, (Option.some.inj taken).symm⟩
      · contradiction
  | do_deallocate p =>
      simp only [step] at taken
      split at taken
      · rename_i alive
        obtain ⟨memory_handle, found, rfl⟩ := Option.map_eq_some_iff.mp taken
        exact .inr ⟨p, memory_handle, alive, found, rfl⟩
      · contradiction

/-- Every call on a resource keeps its entries consistent. -/
theorem consistent_of_reaches
    {object : Nat}
    {state : State Address Handle}
    (reached : Reaches (own_step object) State.start state) :
    Consistent object state := by
  refine reached.invariant (consistent_start object) fun call state next consistent taken => ?_
  obtain ⟨_, _, free, fresh, rfl⟩ | ⟨_, _, alive, found, rfl⟩ := step_cases taken
  · exact consistent.do_allocate free fresh
  · exact consistent.do_deallocate alive found

/-- In every run of one resource the deallocation of a live pointer finds the handle of
its latest allocation, which is still registered, no handle is deregistered twice, and
the handles that are registered are those of the live pointers. -/
theorem registrations_undone_once
    (object : Nat)
    {state : State Address Handle}
    (reached : Reaches (own_step object) State.start state) :
    (∀ p ∈ state.live, ∃ memory_handle next,
        do_deallocate object p state = some next ∧
          next.log = .deregistered object p memory_handle :: state.log ∧
          latest p state.log = some (object, memory_handle) ∧
          memory_handle ∈ outstanding state.log) ∧
      (deregistered state.log).Nodup ∧
      Set.BijOn (state.registered_handles object) state.live
        (some '' outstanding state.log) := by
  have consistent := consistent_of_reaches reached
  refine ⟨fun p alive => ?_, consistent.once, ?_, ?_, ?_⟩
  · obtain ⟨memory_handle, entry, newest, registered⟩ := consistent.current p alive
    refine ⟨memory_handle, { state with
      live := state.live.erase p
      log := .deregistered object p memory_handle :: state.log }, ?_, rfl, newest, registered⟩
    rw [do_deallocate, entry, Option.map_some]
  · intro p alive
    obtain ⟨memory_handle, entry, _, registered⟩ := consistent.current p alive
    exact ⟨memory_handle, registered, entry.symm⟩
  · exact fun p alive q otherAlive same => consistent.injective p alive q otherAlive same
  · rintro _ ⟨memory_handle, registered, rfl⟩
    exact consistent.covered memory_handle registered

/-- An address that has been freed and allocated again. -/
def reused : State Nat Nat :=
  do_allocate 0 7 2 { do_allocate 0 7 1 .start with
    live := ∅
    log := [.deregistered 0 7 1, .registered 0 7 1] }

theorem reaches_reused : Reaches (own_step 0) State.start reused := by
  have first : own_step 0 (.do_allocate 7 1) State.start = some (do_allocate 0 7 1 State.start) := rfl
  have freed : own_step 0 (.do_deallocate 7) (do_allocate 0 7 1 (State.start : State Nat Nat)) = some
      { do_allocate 0 7 1 .start with
        live := ∅
        log := [.deregistered 0 7 1, .registered 0 7 1] } := rfl
  have again : own_step 0 (.do_allocate 7 2)
      ({ do_allocate 0 7 1 .start with
        live := ∅
        log := [.deregistered 0 7 1, .registered 0 7 1] } : State Nat Nat) = some reused := rfl
  exact (Reaches.single first).trans ((Reaches.single freed).trans (.single again))

/-- The stale handle of the address has been replaced. -/
theorem registrations_undone_once_reused :
    (∀ p ∈ reused.live, ∃ memory_handle next,
        do_deallocate 0 p reused = some next ∧
          next.log = .deregistered 0 p memory_handle :: reused.log ∧
          latest p reused.log = some (0, memory_handle) ∧
          memory_handle ∈ outstanding reused.log) ∧
      (deregistered reused.log).Nodup ∧
      Set.BijOn (reused.registered_handles 0) reused.live (some '' outstanding reused.log) :=
  registrations_undone_once 0 reaches_reused

/-- A memory resource as another one sees it. -/
inductive MemoryResource
  | registered_memory_resource (object : Nat)
  | other_memory_resource

/-- Compare a `registered_memory_resource` to another resource. -/
def do_is_equal : MemoryResource → Bool
  | .registered_memory_resource _ => true
  | .other_memory_resource => false

/-- The entries of all resources come from their own registrations, and a live pointer
has the entry of its latest allocation. -/
structure Separate (state : State Address Handle) : Prop where
  own : ∀ object p memory_handle, state.registered_handles object p = some memory_handle →
    .registered object p memory_handle ∈ state.log
  /-- A handle is registered once. -/
  unique : ∀ object p other q memory_handle,
    .registered object p memory_handle ∈ state.log →
    .registered other q memory_handle ∈ state.log → object = other
  current : ∀ p ∈ state.live, ∀ object memory_handle,
    latest p state.log = some (object, memory_handle) →
      state.registered_handles object p = some memory_handle
  logged : ∀ p object memory_handle, latest p state.log = some (object, memory_handle) →
    .registered object p memory_handle ∈ state.log

theorem separate_of_reaches
    {state : State Address Handle}
    (reached : Reaches step State.start state) :
    Separate state := by
  refine reached.invariant ?_ fun component state next separate taken => ?_
  · constructor
    case own => exact fun _ _ _ found => nomatch found
    case unique => exact fun _ _ _ _ _ member => absurd member List.not_mem_nil
    case current => exact fun p alive => absurd alive (Finset.notMem_empty p)
    case logged => exact fun _ _ _ found => nomatch found
  obtain ⟨p, fresh, free, unused, rfl⟩ | ⟨p, found, alive, entry, rfl⟩ := step_cases taken
  · constructor
    case own =>
      intro object q memory_handle entered
      by_cases here : object = component.1 ∧ q = p
      · obtain ⟨rfl, rfl⟩ := here
        rw [registered_handles_do_allocate] at entered
        rw [log_do_allocate, Option.some.inj entered]
        exact List.mem_cons_self
      · rw [registered_handles_do_allocate_of_ne _ _ _ _ (not_and_or.mp here)] at entered
        exact List.mem_cons_of_mem _ (separate.own object q memory_handle entered)
    case unique =>
      intro object q other r memory_handle first second
      rcases List.mem_cons.mp first with equal | earlier
      · rcases List.mem_cons.mp second with otherEqual | otherEarlier
        · injection equal with equalObject
          injection otherEqual with otherObject
          exact equalObject.trans otherObject.symm
        · injection equal with _ _ equalHandle
          exact absurd (equalHandle ▸ mem_issued otherEarlier) unused
      · rcases List.mem_cons.mp second with otherEqual | otherEarlier
        · injection otherEqual with _ _ equalHandle
          exact absurd (equalHandle ▸ mem_issued earlier) unused
        · exact separate.unique object q other r memory_handle earlier otherEarlier
    case current =>
      intro q qAlive object memory_handle newest
      by_cases here : q = p
      · subst here
        rw [log_do_allocate, latest_registered] at newest
        obtain ⟨rfl, rfl⟩ := Prod.mk.inj (Option.some.inj newest)
        exact registered_handles_do_allocate _ _ _ _
      · rw [log_do_allocate, latest_registered_of_ne _ _ _ _ here] at newest
        rw [registered_handles_do_allocate_of_ne _ _ _ _ (.inr here)]
        exact separate.current q ((Finset.mem_insert.mp qAlive).resolve_left here) object
          memory_handle newest
    case logged =>
      intro q object memory_handle newest
      by_cases here : q = p
      · subst here
        rw [log_do_allocate, latest_registered] at newest
        obtain ⟨rfl, rfl⟩ := Prod.mk.inj (Option.some.inj newest)
        exact List.mem_cons_self
      · rw [log_do_allocate, latest_registered_of_ne _ _ _ _ here] at newest
        exact List.mem_cons_of_mem _ (separate.logged q object memory_handle newest)
  · constructor
    case own =>
      exact fun object q memory_handle entered =>
        List.mem_cons_of_mem _ (separate.own object q memory_handle entered)
    case unique =>
      intro object q other r memory_handle first second
      rcases List.mem_cons.mp first with equal | earlier
      · contradiction
      · rcases List.mem_cons.mp second with otherEqual | otherEarlier
        · contradiction
        · exact separate.unique object q other r memory_handle earlier otherEarlier
    case current =>
      exact fun q qAlive => separate.current q (Finset.mem_of_mem_erase qAlive)
    case logged =>
      exact fun q object memory_handle newest =>
        List.mem_cons_of_mem _ (separate.logged q object memory_handle newest)

/-- A resource can deallocate a pointer in the place of the one that has allocated it:
it deregisters the handle of the allocation, and the same handles stay registered. -/
def Interchangeable
    (allocator other : Nat)
    (p : Address)
    (memory_handle : Handle)
    (state : State Address Handle) : Prop :=
  ∃ next expected, do_deallocate other p state = some next ∧
    do_deallocate allocator p state = some expected ∧
    next.log = .deregistered other p memory_handle :: state.log ∧
    outstanding next.log = outstanding expected.log

/-- Resources that are built on their own, without copies of each other, compare equal. But
exactly the one that has allocated a pointer can deallocate it. -/
theorem interchangeable_iff
    {state : State Address Handle}
    (reached : Reaches step State.start state)
    {allocator : Nat}
    {p : Address}
    {memory_handle : Handle}
    (alive : p ∈ state.live)
    (allocated : latest p state.log = some (allocator, memory_handle))
    (other : Nat) :
    do_is_equal (.registered_memory_resource other) = true ∧
      (Interchangeable allocator other p memory_handle state ↔ other = allocator) := by
  have separate := separate_of_reaches reached
  have entry := separate.current p alive allocator memory_handle allocated
  refine ⟨rfl, ?_, ?_⟩
  · rintro ⟨next, _, deallocated, _, logged, _⟩
    obtain ⟨found, otherEntry, rfl⟩ := Option.map_eq_some_iff.mp deallocated
    obtain rfl : found = memory_handle := by
      injection (List.cons.inj logged).1
    exact separate.unique other p allocator p found (separate.own other p found otherEntry)
      (separate.own allocator p found entry)
  · rintro rfl
    have deallocated : do_deallocate other p state = some { state with
        live := state.live.erase p
        log := .deregistered other p memory_handle :: state.log } := by
      rw [do_deallocate, entry, Option.map_some]
    exact ⟨_, _, deallocated, deallocated, rfl, rfl⟩

/-- The resource of the allocation deallocates the pointer. -/
theorem interchangeable_self :
    Interchangeable 0 0 7 1 (do_allocate 0 7 1 (State.start : State Nat Nat)) := by
  have allocated : step (0, .do_allocate 7 1) State.start =
      some (do_allocate 0 7 1 (State.start : State Nat Nat)) := rfl
  exact (interchangeable_iff (.single allocated) (Finset.mem_insert_self ..)
    (latest_registered ..) 0).2.mpr rfl

/-- Another resource, that compares equal, finds no entry. -/
theorem not_interchangeable_other :
    do_is_equal (.registered_memory_resource 1) = true ∧
      Reaches step State.start (do_allocate 0 7 1 (State.start : State Nat Nat)) ∧
      do_deallocate 1 7 (do_allocate 0 7 1 (State.start : State Nat Nat)) = none ∧
      ¬ Interchangeable 0 1 7 1 (do_allocate 0 7 1 (State.start : State Nat Nat)) := by
  have allocated : step (0, .do_allocate 7 1) State.start =
      some (do_allocate 0 7 1 (State.start : State Nat Nat)) := rfl
  have undefined : do_deallocate 1 7 (do_allocate 0 7 1 (State.start : State Nat Nat)) = none := rfl
  refine ⟨rfl, .single allocated, undefined, ?_⟩
  rintro ⟨_, _, deallocated, _⟩
  rw [undefined] at deallocated
  contradiction

end RegisteredMemory

end DistributedJoin
