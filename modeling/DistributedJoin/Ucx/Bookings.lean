import DistributedJoin.Ucx.Sides

/-!
# Outstanding transfers

The handles that have been returned are those of the transfers in the ledger. Transfers of a
rank have different handles and different variables, and what one of them writes is not used
by any other.
-/

namespace DistributedJoin

namespace Ucx

open Device

/-- The information of a handle describes the same transfer. -/
structure CommInfo.Alike (before after : CommInfo) : Prop where
  types : after.types = before.types
  send_buffer : after.send_buffer = before.send_buffer
  recv_buffer : after.recv_buffer = before.recv_buffer
  count : after.count = before.count
  element_size : after.element_size = before.element_size
  peer : after.peer = before.peer
  user_tag : after.user_tag = before.user_tag

namespace CommInfo

theorem Alike.of_eq {before after : CommInfo} (same : after = before) : before.Alike after := by
  subst same
  exact ⟨rfl, rfl, rfl, rfl, rfl, rfl, rfl⟩

theorem Alike.trans
    {first second third : CommInfo}
    (alike : first.Alike second)
    (later : second.Alike third) :
    first.Alike third where
  types := later.types.trans alike.types
  send_buffer := later.send_buffer.trans alike.send_buffer
  recv_buffer := later.recv_buffer.trans alike.recv_buffer
  count := later.count.trans alike.count
  element_size := later.element_size.trans alike.element_size
  peer := later.peer.trans alike.peer
  user_tag := later.user_tag.trans alike.user_tag

end CommInfo

variable {channel : Channel} {before after : CommInfo}

theorem Sending.Describes.of_alike
    {sending : Sending}
    (describes : sending.Describes channel before)
    (alike : before.Alike after) :
    sending.Describes channel after where
  types := alike.types.trans describes.types
  send_buffer := alike.send_buffer.trans describes.send_buffer
  count := alike.count.trans describes.count
  element_size := alike.element_size.trans describes.element_size
  peer := alike.peer.trans describes.peer
  user_tag := alike.user_tag.trans describes.user_tag

theorem Receiving.Describes.of_alike
    {receiving : Receiving}
    {element_size : Int}
    (describes : receiving.Describes channel element_size before)
    (alike : before.Alike after) :
    receiving.Describes channel element_size after where
  types := alike.types.trans describes.types
  recv_buffer := alike.recv_buffer.trans describes.recv_buffer
  count := alike.count.trans describes.count
  element_size := alike.element_size.trans describes.element_size
  peer := alike.peer.trans describes.peer
  user_tag := alike.user_tag.trans describes.user_tag

/-- An outstanding send has a handle and a variable of its own. -/
structure Sending.Booked
    (n : Nat)
    (rank : Rank)
    (channel : Channel)
    (sending : Sending) : Prop where
  valid : channel.Valid n
  returned : sending.handle ∈ rank.returned
  describes : sending.Describes channel (rank.info sending.handle)
  counter : ∃ index < rank.malloced, sending.counter = .malloced index

/-- An outstanding receive has a handle, and its variables exist. -/
structure Receiving.Booked
    (n : Nat)
    (agreed : Agreement)
    (rank : Rank)
    (channel : Channel)
    (receiving : Receiving) : Prop where
  valid : channel.Valid n
  returned : receiving.handle ∈ rank.returned
  describes : receiving.Describes channel (agreed channel receiving.round).element_size
    (rank.info receiving.handle)
  counter : ∀ index, receiving.counter = .malloced index → index < rank.malloced
  pointer : ∀ index, receiving.pointer = .malloced index → index < rank.malloced
  given : ∀ buf, receiving.buffer = .given buf → rank.pointers receiving.pointer = some buf

section Mono

variable {n : Nat} {agreed : Agreement} {rank later : Rank}

/-- A send stays as it is booked while its handle and its variable do. -/
theorem Sending.Booked.mono
    {sending : Sending}
    (booked : sending.Booked n rank channel)
    (returned : sending.handle ∈ later.returned)
    (alike : (rank.info sending.handle).Alike (later.info sending.handle))
    (malloced : rank.malloced ≤ later.malloced) :
    sending.Booked n later channel where
  valid := booked.valid
  returned := returned
  describes := booked.describes.of_alike alike
  counter := by
    obtain ⟨index, bound, counter⟩ := booked.counter
    exact ⟨index, bound.trans_le malloced, counter⟩

/-- A receive stays as it is booked while its handle and its variables do. -/
theorem Receiving.Booked.mono
    {receiving : Receiving}
    (booked : receiving.Booked n agreed rank channel)
    (returned : receiving.handle ∈ later.returned)
    (alike : (rank.info receiving.handle).Alike (later.info receiving.handle))
    (malloced : rank.malloced ≤ later.malloced)
    (pointer : later.pointers receiving.pointer = rank.pointers receiving.pointer) :
    receiving.Booked n agreed later channel where
  valid := booked.valid
  returned := returned
  describes := booked.describes.of_alike alike
  counter := fun index same => (booked.counter index same).trans_le malloced
  pointer := fun index same => (booked.pointer index same).trans_le malloced
  given := fun buf same => pointer.trans (booked.given buf same)

/-- What a buffer covers depends on the pointer to it. -/
theorem Receiving.covers_congr
    {receiving : Receiving}
    {size : Nat}
    {address : Int}
    (pointer : later.pointers receiving.pointer = rank.pointers receiving.pointer) :
    receiving.Covers later size address ↔ receiving.Covers rank size address := by
  rw [Receiving.Covers, pointer]
  rfl

end Mono

namespace Traffic

/-- The transfers in the ledger are those of the handles that have been returned, and none of
them uses what another one writes. -/
structure Booked
    (n : Nat)
    (comm_buffer_size : Int)
    (buffers : Nat → List Int)
    (agreed : Agreement)
    (traffic : Traffic) : Prop where
  sending : ∀ channel sending, traffic.ledger.sending channel = some sending →
    sending.Booked n (traffic.world channel.source) channel
  receiving : ∀ channel receiving, traffic.ledger.receiving channel = some receiving →
    receiving.Booked n agreed (traffic.world channel.dest) channel
  received : ∀ channel receiving, traffic.ledger.receiving channel = some receiving →
    receiving.round + 1 = traffic.ledger.received channel
  covered : ∀ rank, ∀ handle ∈ (traffic.world rank).returned,
    (∃ channel sending, channel.source = rank ∧
      traffic.ledger.sending channel = some sending ∧ sending.handle = handle) ∨
    ∃ channel receiving, channel.dest = rank ∧
      traffic.ledger.receiving channel = some receiving ∧ receiving.handle = handle
  reads : ∀ rank address, traffic.Reads rank address →
    (∀ buffer ∈ buffers rank, ¬ InBuffer comm_buffer_size buffer address) ∧
      ¬ traffic.Writes agreed rank address
  writes : ∀ rank address, traffic.Writes agreed rank address →
    ∀ buffer ∈ buffers rank, ¬ InBuffer comm_buffer_size buffer address
  counters : ∀ channel sending other receiving, channel.source = other.dest →
    traffic.ledger.sending channel = some sending →
    traffic.ledger.receiving other = some receiving →
    sending.counter ≠ receiving.counter
  distinct : ∀ first second receiving other, first.dest = second.dest → first ≠ second →
    traffic.ledger.receiving first = some receiving →
    traffic.ledger.receiving second = some other →
    receiving.counter ≠ other.counter ∧ receiving.pointer ≠ other.pointer ∧
      ∀ address,
        receiving.Covers (traffic.world first.dest) (agreed first receiving.round).size address →
        ¬ other.Covers (traffic.world first.dest) (agreed second other.round).size address

variable {n : Nat} {comm_buffer_size : Int} {buffers : Nat → List Int} {agreed : Agreement}
  {traffic : Traffic} {after : World}

namespace Booked

variable (booked : traffic.Booked n comm_buffer_size buffers agreed)
include booked

/-- A rank has one send at most with a handle. -/
theorem sending_inj
    {first second : Channel}
    {sending other : Sending}
    (source : first.source = second.source)
    (outstanding : traffic.ledger.sending first = some sending)
    (others : traffic.ledger.sending second = some other)
    (same : sending.handle = other.handle) :
    first = second := by
  have describes := (booked.sending first sending outstanding).describes
  have again := (booked.sending second other others).describes
  rw [← source, ← same] at again
  cases first
  cases second
  obtain rfl := source
  obtain rfl := describes.peer.symm.trans again.peer
  obtain rfl := describes.user_tag.symm.trans again.user_tag
  rfl

/-- A rank has one receive at most with a handle. -/
theorem receiving_inj
    {first second : Channel}
    {receiving other : Receiving}
    (dest : first.dest = second.dest)
    (outstanding : traffic.ledger.receiving first = some receiving)
    (others : traffic.ledger.receiving second = some other)
    (same : receiving.handle = other.handle) :
    first = second := by
  have describes := (booked.receiving first receiving outstanding).describes
  have again := (booked.receiving second other others).describes
  rw [← dest, ← same] at again
  cases first
  cases second
  obtain rfl := dest
  obtain rfl := describes.peer.symm.trans again.peer
  obtain rfl := describes.user_tag.symm.trans again.user_tag
  rfl

/-- A send and a receive of a rank have different handles. -/
theorem handles_ne
    {first second : Channel}
    {sending : Sending}
    {receiving : Receiving}
    (rank : first.source = second.dest)
    (sends : traffic.ledger.sending first = some sending)
    (receives : traffic.ledger.receiving second = some receiving) :
    sending.handle ≠ receiving.handle := by
  intro same
  have describes := (booked.sending first sending sends).describes
  have again := (booked.receiving second receiving receives).describes
  rw [← rank, ← same] at again
  have types := describes.types.symm.trans again.types
  contradiction

/-- Transfers stay as they are booked while handles, variables and pointers do. -/
theorem congr
    (returned : ∀ rank, (after rank).returned = (traffic.world rank).returned)
    (alike : ∀ rank, ∀ handle ∈ (traffic.world rank).returned,
      ((traffic.world rank).info handle).Alike ((after rank).info handle))
    (malloced : ∀ rank, (after rank).malloced = (traffic.world rank).malloced)
    (pointers : ∀ rank, (after rank).pointers = (traffic.world rank).pointers) :
    Booked n comm_buffer_size buffers agreed ⟨after, traffic.ledger⟩ := by
  have pointer : ∀ rank cell, (after rank).pointers cell = (traffic.world rank).pointers cell :=
    fun rank cell => by rw [pointers rank]
  have writes : ∀ rank address, Writes ⟨after, traffic.ledger⟩ agreed rank address →
      traffic.Writes agreed rank address := by
    rintro rank address ⟨channel, receiving, dest, outstanding, covered⟩
    exact ⟨channel, receiving, dest, outstanding,
      (Receiving.covers_congr (pointer _ _)).mp covered⟩
  constructor
  case sending =>
    intro channel sending outstanding
    have before := booked.sending channel sending outstanding
    exact before.mono ((returned _).symm ▸ before.returned) (alike _ _ before.returned)
      (malloced _).symm.le
  case receiving =>
    intro channel receiving outstanding
    have before := booked.receiving channel receiving outstanding
    exact before.mono ((returned _).symm ▸ before.returned) (alike _ _ before.returned)
      (malloced _).symm.le (pointer _ _)
  case received => exact booked.received
  case covered =>
    intro rank handle member
    exact booked.covered rank handle (returned rank ▸ member)
  case reads =>
    intro rank address read
    obtain ⟨outside, unwritten⟩ := booked.reads rank address read
    exact ⟨outside, fun written => unwritten (writes rank address written)⟩
  case writes => exact fun rank address written => booked.writes rank address (writes _ _ written)
  case counters => exact booked.counters
  case distinct =>
    intro first second receiving other dest different outstanding others
    obtain ⟨counter, cell, apart⟩ :=
      booked.distinct first second receiving other dest different outstanding others
    exact ⟨counter, cell, fun address covered again => apart address
      ((Receiving.covers_congr (pointer _ _)).mp covered)
      ((Receiving.covers_congr (pointer _ _)).mp again)⟩

end Booked

/-- A rank returns one more handle. -/
structure Returns (caller : Nat) (handle : Handle) (before after : World) : Prop where
  returned : (after caller).returned = (before caller).returned ++ [handle]
  info : ∀ other ∈ (before caller).returned, (after caller).info other = (before caller).info other
  malloced : (before caller).malloced ≤ (after caller).malloced
  others : ∀ other, other ≠ caller →
    ∃ outgoing, after other = { before other with outgoing := outgoing }

namespace Returns

variable {caller : Nat} {handle : Handle} (returns : Returns caller handle traffic.world after)
include returns

/-- Handles that have been returned before stay as they are. -/
theorem keeps {rank : Nat} {other : Handle} (member : other ∈ (traffic.world rank).returned) :
    other ∈ (after rank).returned ∧
      ((traffic.world rank).info other).Alike ((after rank).info other) ∧
      (traffic.world rank).malloced ≤ (after rank).malloced := by
  by_cases here : rank = caller
  · subst here
    refine ⟨?_, .of_eq (returns.info other member), returns.malloced⟩
    rw [returns.returned]
    exact List.mem_append_left _ member
  · obtain ⟨outgoing, same⟩ := returns.others rank here
    rw [same]
    exact ⟨member, .of_eq rfl, le_rfl⟩

/-- All handles that have been returned. -/
theorem cases {rank : Nat} {other : Handle} (member : other ∈ (after rank).returned) :
    other ∈ (traffic.world rank).returned ∨ rank = caller ∧ other = handle := by
  by_cases here : rank = caller
  · subst here
    rw [returns.returned] at member
    rcases List.mem_append.mp member with before | last
    · exact .inl before
    · exact .inr ⟨rfl, List.mem_singleton.mp last⟩
  · obtain ⟨outgoing, same⟩ := returns.others rank here
    rw [same] at member
    exact .inl member

end Returns

namespace Booked

variable (booked : traffic.Booked n comm_buffer_size buffers agreed)
include booked

/-- A send begins. -/
theorem send
    {channel : Channel}
    {sending : Sending}
    (returns : Returns channel.source sending.handle traffic.world after)
    (valid : channel.Valid n)
    (none : traffic.ledger.sending channel = none)
    (describes : sending.Describes channel ((after channel.source).info sending.handle))
    (counter : sending.counter = .malloced (traffic.world channel.source).malloced)
    (malloced : (traffic.world channel.source).malloced < (after channel.source).malloced)
    (pointers : (after channel.source).pointers = (traffic.world channel.source).pointers)
    (region : ∀ address, sending.region.Covers address →
      (∀ buffer ∈ buffers channel.source, ¬ InBuffer comm_buffer_size buffer address) ∧
        ¬ traffic.Writes agreed channel.source address) :
    Booked n comm_buffer_size buffers agreed ⟨after, traffic.ledger.send channel sending⟩ := by
  have pointer : ∀ rank cell, (after rank).pointers cell =
      (traffic.world rank).pointers cell := by
    intro rank cell
    by_cases here : rank = channel.source
    · rw [here, pointers]
    · obtain ⟨outgoing, same⟩ := returns.others rank here
      rw [same]
  have writes : ∀ rank address,
      Writes ⟨after, traffic.ledger.send channel sending⟩ agreed rank address →
        traffic.Writes agreed rank address := by
    rintro rank address ⟨other, receiving, dest, outstanding, covered⟩
    exact ⟨other, receiving, dest, outstanding, (Receiving.covers_congr (pointer _ _)).mp covered⟩
  constructor
  case sending =>
    intro other found outstanding
    rcases Ledger.sending_send_iff.mp outstanding with ⟨rfl, rfl⟩ | ⟨_, before⟩
    · refine ⟨valid, ?_, describes, _, malloced, counter⟩
      change found.handle ∈ (after other.source).returned
      rw [returns.returned]
      exact List.mem_append_right _ (List.mem_singleton_self _)
    · have earlier := booked.sending other found before
      obtain ⟨member, alike, le⟩ := returns.keeps earlier.returned
      exact earlier.mono member alike le
  case receiving =>
    intro other receiving outstanding
    have earlier := booked.receiving other receiving outstanding
    obtain ⟨member, alike, le⟩ := returns.keeps earlier.returned
    exact earlier.mono member alike le (pointer _ _)
  case received => exact booked.received
  case covered =>
    intro rank handle member
    rcases returns.cases member with before | ⟨rfl, rfl⟩
    · rcases booked.covered rank handle before with
        ⟨other, found, source, outstanding, same⟩ | receives
      · have different : other ≠ channel := by
          rintro rfl
          rw [none] at outstanding
          contradiction
        exact .inl ⟨other, found, source,
          Ledger.sending_send_iff.mpr (.inr ⟨different, outstanding⟩), same⟩
      · exact .inr receives
    · exact .inl ⟨channel, sending, rfl, Ledger.sending_send_iff.mpr (.inl ⟨rfl, rfl⟩), rfl⟩
  case reads =>
    rintro rank address ⟨other, found, source, outstanding, covers⟩
    rcases Ledger.sending_send_iff.mp outstanding with ⟨rfl, rfl⟩ | ⟨_, before⟩
    · subst source
      exact ⟨(region address covers).1, fun written =>
        (region address covers).2 (writes _ _ written)⟩
    · obtain ⟨outside, unwritten⟩ :=
        booked.reads rank address ⟨other, found, source, before, covers⟩
      exact ⟨outside, fun written => unwritten (writes _ _ written)⟩
  case writes => exact fun rank address written => booked.writes rank address (writes _ _ written)
  case counters =>
    intro other found receiver receiving rank outstanding receives
    rcases Ledger.sending_send_iff.mp outstanding with ⟨rfl, rfl⟩ | ⟨_, before⟩
    · intro same
      have bound := (booked.receiving receiver receiving receives).counter _
        (same.symm.trans counter)
      rw [rank] at bound
      exact absurd bound (Nat.lt_irrefl _)
    · exact booked.counters other found receiver receiving rank before receives
  case distinct =>
    intro first second receiving other dest different outstanding others
    obtain ⟨counters, cells, apart⟩ :=
      booked.distinct first second receiving other dest different outstanding others
    exact ⟨counters, cells, fun address covered again => apart address
      ((Receiving.covers_congr (pointer _ _)).mp covered)
      ((Receiving.covers_congr (pointer _ _)).mp again)⟩

/-- A receive begins. -/
theorem recv
    {channel : Channel}
    {receiving : Receiving}
    (returns : Returns channel.dest receiving.handle traffic.world after)
    (valid : channel.Valid n)
    (none : traffic.ledger.receiving channel = none)
    (round : receiving.round = traffic.ledger.received channel)
    (receives : receiving.Booked n agreed (after channel.dest) channel)
    (pointers : ∀ cell, cell ≠ receiving.pointer →
      (after channel.dest).pointers cell = (traffic.world channel.dest).pointers cell)
    (counters : ∀ other sending, other.source = channel.dest →
      traffic.ledger.sending other = some sending → sending.counter ≠ receiving.counter)
    (cells : ∀ other found, other.dest = channel.dest →
      traffic.ledger.receiving other = some found →
        found.counter ≠ receiving.counter ∧ found.pointer ≠ receiving.pointer)
    (region : ∀ address, receiving.Covers (after channel.dest)
        (agreed channel receiving.round).size address →
      ¬ traffic.InUse agreed channel.dest address (buffers channel.dest) comm_buffer_size) :
    Booked n comm_buffer_size buffers agreed ⟨after, traffic.ledger.recv channel receiving⟩ := by
  have pointer : ∀ {other found}, traffic.ledger.receiving other = some found →
      (after other.dest).pointers found.pointer =
        (traffic.world other.dest).pointers found.pointer := by
    intro other found outstanding
    by_cases here : other.dest = channel.dest
    · rw [here]
      exact pointers _ (cells other found here outstanding).2
    · obtain ⟨outgoing, same⟩ := returns.others other.dest here
      rw [same]
  have writes : ∀ rank address,
      Writes ⟨after, traffic.ledger.recv channel receiving⟩ agreed rank address →
        traffic.Writes agreed rank address ∨
          rank = channel.dest ∧ receiving.Covers (after channel.dest)
            (agreed channel receiving.round).size address := by
    rintro rank address ⟨other, found, dest, outstanding, covered⟩
    rcases Ledger.receiving_recv_iff.mp outstanding with ⟨rfl, rfl⟩ | ⟨_, before⟩
    · subst dest
      exact .inr ⟨rfl, covered⟩
    · subst dest
      exact .inl ⟨other, found, rfl, before, (Receiving.covers_congr (pointer before)).mp covered⟩
  constructor
  case sending =>
    intro other sending outstanding
    have earlier := booked.sending other sending outstanding
    obtain ⟨member, alike, le⟩ := returns.keeps earlier.returned
    exact earlier.mono member alike le
  case receiving =>
    intro other found outstanding
    rcases Ledger.receiving_recv_iff.mp outstanding with ⟨rfl, rfl⟩ | ⟨_, before⟩
    · exact receives
    · have earlier := booked.receiving other found before
      obtain ⟨member, alike, le⟩ := returns.keeps earlier.returned
      exact earlier.mono member alike le (pointer before)
  case received =>
    intro other found outstanding
    change _ = Function.update traffic.ledger.received channel _ other
    rcases Ledger.receiving_recv_iff.mp outstanding with ⟨rfl, rfl⟩ | ⟨different, before⟩
    · rw [Function.update_self, round]
    · rw [Function.update_of_ne different]
      exact booked.received other found before
  case covered =>
    intro rank handle member
    rcases returns.cases member with before | ⟨rfl, rfl⟩
    · rcases booked.covered rank handle before with
        sends | ⟨other, found, dest, outstanding, same⟩
      · exact .inl sends
      · have different : other ≠ channel := by
          rintro rfl
          rw [none] at outstanding
          contradiction
        exact .inr ⟨other, found, dest,
          Ledger.receiving_recv_iff.mpr (.inr ⟨different, outstanding⟩), same⟩
    · exact .inr ⟨channel, receiving, rfl, Ledger.receiving_recv_iff.mpr (.inl ⟨rfl, rfl⟩), rfl⟩
  case reads =>
    intro rank address read
    obtain ⟨outside, unwritten⟩ := booked.reads rank address read
    refine ⟨outside, fun written => ?_⟩
    rcases writes rank address written with before | ⟨rfl, covered⟩
    · exact unwritten before
    · exact region address covered (.inr (.inl read))
  case writes =>
    intro rank address written buffer member inside
    rcases writes rank address written with before | ⟨rfl, covered⟩
    · exact booked.writes rank address before buffer member inside
    · exact region address covered (.inl ⟨buffer, member, inside⟩)
  case counters =>
    intro other sending receiver found rank outstanding received
    rcases Ledger.receiving_recv_iff.mp received with ⟨rfl, rfl⟩ | ⟨_, before⟩
    · exact counters other sending rank outstanding
    · exact booked.counters other sending receiver found rank outstanding before
  case distinct =>
    intro first second one other dest different outstanding others
    rcases Ledger.receiving_recv_iff.mp outstanding with ⟨rfl, rfl⟩ | ⟨_, before⟩
    · rcases Ledger.receiving_recv_iff.mp others with ⟨rfl, rfl⟩ | ⟨_, again⟩
      · contradiction
      · obtain ⟨counter, cell⟩ := cells second other dest.symm again
        refine ⟨counter.symm, cell.symm, fun address covered overlap => ?_⟩
        refine region address covered (.inr (.inr ⟨second, other, dest.symm, again, ?_⟩))
        rw [dest] at overlap ⊢
        exact (Receiving.covers_congr (pointer again)).mp overlap
    · rcases Ledger.receiving_recv_iff.mp others with ⟨rfl, rfl⟩ | ⟨_, again⟩
      · obtain ⟨counter, cell⟩ := cells first one dest before
        refine ⟨counter, cell, fun address covered overlap => ?_⟩
        refine region address (dest ▸ overlap) (.inr (.inr ⟨first, one, dest, before, ?_⟩))
        rw [← dest]
        exact (Receiving.covers_congr (pointer before)).mp covered
      · obtain ⟨counter, cell, apart⟩ :=
          booked.distinct first second one other dest different before again
        refine ⟨counter, cell, fun address covered overlap => apart address
          ((Receiving.covers_congr (pointer before)).mp covered) ?_⟩
        rw [dest] at overlap ⊢
        exact (Receiving.covers_congr (pointer again)).mp overlap

/-- Handles have been waited for. -/
theorem waitall
    {caller : Nat}
    {handles : List Handle}
    (returned : ∀ rank handle, handle ∈ (after rank).returned ↔
      handle ∈ (traffic.world rank).returned ∧ ¬ (rank = caller ∧ handle ∈ handles))
    (info : ∀ rank handle, handle ∈ (after rank).returned →
      (after rank).info handle = (traffic.world rank).info handle)
    (malloced : ∀ rank, (after rank).malloced = (traffic.world rank).malloced)
    (pointers : ∀ rank, (after rank).pointers = (traffic.world rank).pointers) :
    Booked n comm_buffer_size buffers agreed ⟨after, traffic.ledger.waitall caller handles⟩ := by
  have pointer : ∀ rank cell, (after rank).pointers cell = (traffic.world rank).pointers cell :=
    fun rank cell => by rw [pointers rank]
  have writes : ∀ rank address,
      Writes ⟨after, traffic.ledger.waitall caller handles⟩ agreed rank address →
        traffic.Writes agreed rank address := by
    rintro rank address ⟨channel, receiving, dest, outstanding, covered⟩
    exact ⟨channel, receiving, dest, (Ledger.receiving_waitall_iff.mp outstanding).1,
      (Receiving.covers_congr (pointer _ _)).mp covered⟩
  constructor
  case sending =>
    intro channel sending outstanding
    obtain ⟨before, remains⟩ := Ledger.sending_waitall_iff.mp outstanding
    have earlier := booked.sending channel sending before
    have member := (returned _ _).mpr ⟨earlier.returned, remains⟩
    exact earlier.mono member (.of_eq (info _ _ member)) (malloced _).symm.le
  case receiving =>
    intro channel receiving outstanding
    obtain ⟨before, remains⟩ := Ledger.receiving_waitall_iff.mp outstanding
    have earlier := booked.receiving channel receiving before
    have member := (returned _ _).mpr ⟨earlier.returned, remains⟩
    exact earlier.mono member (.of_eq (info _ _ member)) (malloced _).symm.le (pointer _ _)
  case received =>
    intro channel receiving outstanding
    exact booked.received channel receiving (Ledger.receiving_waitall_iff.mp outstanding).1
  case covered =>
    intro rank handle member
    obtain ⟨before, remains⟩ := (returned rank handle).mp member
    rcases booked.covered rank handle before with
      ⟨channel, sending, rfl, outstanding, rfl⟩ | ⟨channel, receiving, rfl, outstanding, rfl⟩
    · exact .inl ⟨channel, sending, rfl,
        Ledger.sending_waitall_iff.mpr ⟨outstanding, remains⟩, rfl⟩
    · exact .inr ⟨channel, receiving, rfl,
        Ledger.receiving_waitall_iff.mpr ⟨outstanding, remains⟩, rfl⟩
  case reads =>
    rintro rank address ⟨channel, sending, source, outstanding, covers⟩
    obtain ⟨outside, unwritten⟩ := booked.reads rank address
      ⟨channel, sending, source, (Ledger.sending_waitall_iff.mp outstanding).1, covers⟩
    exact ⟨outside, fun written => unwritten (writes _ _ written)⟩
  case writes => exact fun rank address written => booked.writes rank address (writes _ _ written)
  case counters =>
    intro channel sending other receiving rank outstanding received
    exact booked.counters channel sending other receiving rank
      (Ledger.sending_waitall_iff.mp outstanding).1 (Ledger.receiving_waitall_iff.mp received).1
  case distinct =>
    intro first second receiving other dest different outstanding others
    obtain ⟨counter, cell, apart⟩ := booked.distinct first second receiving other dest different
      (Ledger.receiving_waitall_iff.mp outstanding).1 (Ledger.receiving_waitall_iff.mp others).1
    exact ⟨counter, cell, fun address covered again => apart address
      ((Receiving.covers_congr (pointer _ _)).mp covered)
      ((Receiving.covers_congr (pointer _ _)).mp again)⟩

/-- A buffer is allocated for a receive. -/
theorem allocate
    {channel : Channel}
    {receiving : Receiving}
    (outstanding : traffic.ledger.receiving channel = some receiving)
    (returned : ∀ rank, (after rank).returned = (traffic.world rank).returned)
    (alike : ∀ rank, ∀ handle ∈ (traffic.world rank).returned,
      ((traffic.world rank).info handle).Alike ((after rank).info handle))
    (malloced : ∀ rank, (after rank).malloced = (traffic.world rank).malloced)
    (pointers : ∀ rank cell, ¬ (rank = channel.dest ∧ cell = receiving.pointer) →
      (after rank).pointers cell = (traffic.world rank).pointers cell)
    (unknown : (traffic.world channel.dest).pointers receiving.pointer = none)
    (region : ∀ address, receiving.Covers (after channel.dest)
        (agreed channel receiving.round).size address →
      ¬ traffic.InUse agreed channel.dest address (buffers channel.dest) comm_buffer_size) :
    Booked n comm_buffer_size buffers agreed ⟨after, traffic.ledger⟩ := by
  have pointer : ∀ {other found}, other ≠ channel → traffic.ledger.receiving other = some found →
      (after other.dest).pointers found.pointer =
        (traffic.world other.dest).pointers found.pointer := by
    intro other found different before
    refine pointers _ _ fun same => ?_
    exact (booked.distinct other channel found receiving same.1 different before outstanding).2.1
      same.2
  have writes : ∀ rank address, Writes ⟨after, traffic.ledger⟩ agreed rank address →
      traffic.Writes agreed rank address ∨
        rank = channel.dest ∧ receiving.Covers (after channel.dest)
          (agreed channel receiving.round).size address := by
    rintro rank address ⟨other, found, rfl, before, covered⟩
    by_cases same : other = channel
    · subst same
      obtain rfl := Option.some.inj (outstanding.symm.trans before)
      exact .inr ⟨rfl, covered⟩
    · exact .inl ⟨other, found, rfl, before,
        (Receiving.covers_congr (pointer same before)).mp covered⟩
  constructor
  case sending =>
    intro other sending before
    have earlier := booked.sending other sending before
    exact earlier.mono ((returned _).symm ▸ earlier.returned) (alike _ _ earlier.returned)
      (malloced _).symm.le
  case receiving =>
    intro other found before
    have earlier := booked.receiving other found before
    have member := (returned other.dest).symm ▸ earlier.returned
    by_cases same : other = channel
    · subst same
      obtain rfl := Option.some.inj (outstanding.symm.trans before)
      exact {
        valid := earlier.valid
        returned := member
        describes := earlier.describes.of_alike (alike _ _ earlier.returned)
        counter := (malloced other.dest).symm ▸ earlier.counter
        pointer := (malloced other.dest).symm ▸ earlier.pointer
        given := by
          intro buf given
          have pointed := earlier.given buf given
          rw [unknown] at pointed
          contradiction }
    · exact earlier.mono member (alike _ _ earlier.returned) (malloced _).symm.le
        (pointer same before)
  case received => exact booked.received
  case covered =>
    intro rank handle member
    exact booked.covered rank handle (returned rank ▸ member)
  case reads =>
    intro rank address read
    obtain ⟨outside, unwritten⟩ := booked.reads rank address read
    refine ⟨outside, fun written => ?_⟩
    rcases writes rank address written with before | ⟨rfl, covered⟩
    · exact unwritten before
    · exact region address covered (.inr (.inl read))
  case writes =>
    intro rank address written buffer member inside
    rcases writes rank address written with before | ⟨rfl, covered⟩
    · exact booked.writes rank address before buffer member inside
    · exact region address covered (.inl ⟨buffer, member, inside⟩)
  case counters => exact booked.counters
  case distinct =>
    intro first second one other dest different before again
    obtain ⟨counter, cell, apart⟩ :=
      booked.distinct first second one other dest different before again
    refine ⟨counter, cell, fun address covered overlap => ?_⟩
    by_cases here : first = channel
    · subst here
      obtain rfl := Option.some.inj (outstanding.symm.trans before)
      refine region address covered (.inr (.inr ⟨second, other, dest.symm, again, ?_⟩))
      rw [dest] at overlap ⊢
      exact (Receiving.covers_congr (pointer different.symm again)).mp overlap
    · have earlier := (Receiving.covers_congr (pointer here before)).mp covered
      by_cases there : second = channel
      · subst there
        obtain rfl := Option.some.inj (outstanding.symm.trans again)
        exact region address (dest ▸ overlap)
          (.inr (.inr ⟨first, one, dest, before, dest ▸ earlier⟩))
      · refine apart address earlier ?_
        rw [dest] at overlap ⊢
        exact (Receiving.covers_congr (pointer there again)).mp overlap

end Booked

end Traffic

end Ucx

end DistributedJoin
