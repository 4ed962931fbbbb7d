import DistributedJoin.Ucx.Termination

/-!
# Transfers in groups

What ranks transfer that communicate in groups. Groups of different ranks may overlap, and a rank
sends and receives in a group in any order. The transfers that are outstanding at a rank are those
of its group, so that groups keep to the rules of the ledger without further provision: when `stop`
returns every receive of the group has its data, and `stop` does return once the other ranks have
made their calls.
-/

namespace DistributedJoin

namespace Ucx

open Device

/-- `MPILikeCommunicator::reserved_tag` -/
def reserved_tag : Int := -1

theorem reserved_tag_bounds : -2 ^ 31 ≤ reserved_tag ∧ reserved_tag < 2 ^ 31 := by decide

/-- What a call is for the ranks. -/
def Call.event : Call → World.Event
  | .send self buf count element_size dest tag custom request =>
      .send self buf count element_size dest tag custom request
  | .recv self buffer element_size source tag request inside =>
      .recv self buffer element_size source tag request inside

/-- Ranks that communicate in groups, and what they transfer. -/
structure Session where
  groups : Groups
  ledger : Ledger

namespace Session

/-- The ranks and what they transfer. -/
def traffic (session : Session) : Traffic := ⟨session.groups.world, session.ledger⟩

/-- The ledger after an event. -/
def record (session : Session) : Groups.Event → Ledger
  | .start _ => session.ledger
  | .call call => session.traffic.record call.event
  | .stop self =>
      session.traffic.record (.waitall self (session.groups.group self).pending_requests)
  | .other event => session.traffic.record event

/-- The state after an event, if it can happen. -/
def step (session : Session) (event : Groups.Event) : Option Session :=
  (session.groups.step event).map fun after => ⟨after, session.record event⟩

section Programs

variable
  (n : Nat)
  (comm_buffer_size : Int)
  (buffers : Nat → List Int)
  (agreed : Agreement)
  (session : Session)

/-- `MPILikeCommunicator::send` and `recv` use the reserved tag, and the buffer of a receive is
given. Both sides agree on sizes, and buffers that transfers are to be written to are not used
otherwise. -/
def Obeys : Groups.Event → Prop
  | .start _ => True
  | .call (.send self buf count element_size dest tag _ _) =>
      let channel : Channel := ⟨self, dest, tag⟩
      let extent : Extent := ⟨count, element_size⟩
      self < n ∧ tag = reserved_tag ∧
        agreed channel (session.ledger.sent channel).length = extent ∧
        extent.Sized comm_buffer_size ∧ extent.number comm_buffer_size < 2 ^ 31 ∧
        ∀ address, (Region.mk buf extent.size).Covers address →
          (∀ buffer ∈ buffers self, ¬ InBuffer comm_buffer_size buffer address) ∧
            ¬ session.traffic.Writes agreed self address
  | .call (.recv self buffer element_size source tag _ _) =>
      let channel : Channel := ⟨source, self, tag⟩
      let extent := agreed channel (session.ledger.received channel)
      self < n ∧ tag = reserved_tag ∧ extent.element_size = element_size ∧
        ∃ buf, buffer = .given buf ∧
          ∀ address, (Region.mk buf extent.size).Covers address →
            ¬ session.traffic.InUse agreed self address (buffers self) comm_buffer_size
  | .stop _ => True
  | .other event => session.traffic.Obeys n comm_buffer_size buffers agreed event

/-- Groups are started and stopped in turn, and keep to the rules. -/
def Permits (event : Groups.Event) : Prop :=
  session.groups.Permits n event ∧ session.Obeys n comm_buffer_size buffers agreed event

end Programs

/-- The states that are reached by events of a kind. -/
inductive Reaches (Permits : Session → Groups.Event → Prop) (start : Session) : Session → Prop
  | start : Reaches Permits start start
  | step
      {session after : Session}
      {event : Groups.Event}
      (reached : Reaches Permits start session)
      (permitted : Permits session event)
      (stepped : session.step event = some after) :
      Reaches Permits start after

/-- The transfers that are outstanding at a rank are those of its group. -/
structure Grouped (session : Session) : Prop where
  sends : ∀ channel, (∃ sending, session.ledger.sending channel = some sending) ↔
    channel.tag = reserved_tag ∧ (session.groups.group channel.source).in_group = true ∧
      channel.dest ∈ (session.groups.group channel.source).dests
  receives : ∀ channel, (∃ receiving, session.ledger.receiving channel = some receiving) ↔
    channel.tag = reserved_tag ∧ (session.groups.group channel.dest).in_group = true ∧
      channel.source ∈ (session.groups.group channel.dest).sources
  given : ∀ channel receiving, session.ledger.receiving channel = some receiving →
    ∃ buf, receiving.buffer = .given buf

/-- Ranks that communicate in groups, with consistent transfers. -/
structure Sound
    (n : Nat)
    (comm_buffer_size : Int)
    (buffers : Nat → List Int)
    (agreed : Agreement)
    (session : Session) : Prop where
  groups : session.groups.Sound n buffers comm_buffer_size
  traffic : session.traffic.Consistent n comm_buffer_size buffers agreed
  grouped : session.Grouped

/-- A call is an event of the ranks. -/
theorem step_call (world : World) (call : Call) :
    world.step call.event = (world.call call).map (·.2) := by
  cases call with
  | send self buf count element_size dest tag custom request =>
      rw [World.call, Option.map_map]
      rfl
  | recv self buffer element_size source tag request inside => rfl

section Steps

variable {n : Nat} {comm_buffer_size : Int} {buffers : Nat → List Int} {agreed : Agreement}
  {session after : Session}
  (sound : session.Sound n comm_buffer_size buffers agreed)
  (enough : ∀ rank, (buffers rank).length = 2 * n)
include sound

include enough

/-- A call that is allowed finds a buffer. -/
theorem Sound.buffer_cache_ne_nil
    {call : Call}
    (allowed : (session.groups.group call.self).Allows n call) :
    (session.groups.world call.self).buffer_cache ≠ [] := by
  intro empty
  have fewer := (sound.groups.group call.self).length_returned_lt allowed
  have total := (sound.groups.world call.self).length_buffer_cache
  rw [empty, List.length_nil, enough call.self] at total
  omega

/-- Ranks that communicate in groups keep to the rules of the ledger. -/
theorem Sound.permits
    {event : Groups.Event}
    (permitted : session.Permits n comm_buffer_size buffers agreed event)
    (stepped : session.step event = some after) :
    after.traffic = session.traffic ∨
      ∃ happened, session.traffic.Permits n comm_buffer_size buffers agreed happened ∧
        session.traffic.step happened = some after.traffic := by
  obtain ⟨allowed, obeys⟩ := permitted
  obtain ⟨groups, happened, rfl⟩ := Option.map_eq_some_iff.mp stepped
  cases event with
  | start self =>
      dsimp only [Groups.step] at happened
      split at happened
      · obtain rfl := Option.some.inj happened
        exact .inl rfl
      · contradiction
  | call call =>
      have cache := sound.buffer_cache_ne_nil enough allowed
      obtain ⟨⟨outcome, world⟩, called, rfl⟩ := Option.map_eq_some_iff.mp happened
      have moved : session.traffic.step call.event =
          some ⟨world, session.traffic.record call.event⟩ := by
        rw [Traffic.step, step_call, show session.traffic.world.call call = _ from called]
        rfl
      refine .inr ⟨call.event, ?_, moved⟩
      cases call with
      | send self buf count element_size dest tag custom request =>
          obtain ⟨selfBound, rfl, agrees, sized, countable, apart⟩ := obeys
          refine ⟨⟨⟨selfBound, allowed.2.1, reserved_tag_bounds⟩, ?_, agrees, sized, apart⟩,
            cache, countable⟩
          refine Option.eq_none_iff_forall_ne_some.mpr fun sending outstanding => ?_
          exact allowed.2.2 ((sound.grouped.sends _).mp ⟨sending, outstanding⟩).2.2
      | recv self buffer element_size source tag request inside =>
          obtain ⟨selfBound, rfl, agrees, buf, rfl, apart⟩ := obeys
          refine ⟨⟨⟨allowed.2.1, selfBound, reserved_tag_bounds⟩, ?_, agrees, apart⟩, cache⟩
          refine Option.eq_none_iff_forall_ne_some.mpr fun receiving outstanding => ?_
          exact allowed.2.2 ((sound.grouped.receives _).mp ⟨receiving, outstanding⟩).2.2
  | stop self =>
      obtain ⟨rank, waited, rfl⟩ := Option.map_eq_some_iff.mp happened
      obtain ⟨pending, _⟩ := (sound.groups.group self).inside allowed
      refine .inr ⟨.waitall self (session.groups.group self).pending_requests, ⟨⟨?_, ?_⟩, trivial⟩,
        ?_⟩
      · exact pending ▸ (sound.groups.world self).distinct
      · intro handle member
        exact (show (session.traffic.world self).returned = _ from pending) ▸ member
      · refine Option.map_eq_some_iff.mpr ⟨_, ?_, rfl⟩
        exact Option.map_eq_some_iff.mpr ⟨rank, waited, rfl⟩
  | other event =>
      obtain ⟨world, moved, rfl⟩ := Option.map_eq_some_iff.mp happened
      refine .inr ⟨event, ⟨obeys, ?_⟩, Option.map_eq_some_iff.mpr ⟨world, moved, rfl⟩⟩
      cases event with
      | send | recv | waitall => contradiction
      | compute | progress | send_handler | recv_handler | transmit | deliver => trivial

/-- The transfers that are outstanding stay those of groups. -/
theorem Sound.grouped_step
    {event : Groups.Event}
    (permitted : session.Permits n comm_buffer_size buffers agreed event)
    (stepped : session.step event = some after) :
    after.Grouped := by
  obtain ⟨sends, receives, given⟩ := sound.grouped
  obtain ⟨allowed, obeys⟩ := permitted
  obtain ⟨groups, happened, rfl⟩ := Option.map_eq_some_iff.mp stepped
  cases event with
  | start self =>
      dsimp only [Groups.step] at happened
      split at happened
      · obtain rfl := Option.some.inj happened
        have outside : (session.groups.group self).in_group = false := allowed
        refine ⟨fun channel => (sends channel).trans ?_, fun channel => (receives channel).trans ?_,
          given⟩
        · by_cases here : channel.source = self
          · simp [here, outside, Group.started]
          · simp [here]
        · by_cases here : channel.dest = self
          · simp [here, outside, Group.started]
          · simp [here]
      · contradiction
  | call call =>
      obtain ⟨⟨outcome, world⟩, called, rfl⟩ := Option.map_eq_some_iff.mp happened
      obtain ⟨handle, _, rfl, _⟩ := sound.groups.returns enough allowed called
      cases call with
      | send self buf count element_size dest tag custom request =>
          obtain ⟨_, rfl, _⟩ := obeys
          obtain ⟨⟨_, rank⟩, sent, same⟩ := Option.map_eq_some_iff.mp called
          obtain ⟨rfl, rfl⟩ := Prod.mk.inj same
          have recorded : session.record
              (.call (.send self buf count element_size dest reserved_tag custom request)) =
            session.ledger.send ⟨self, dest, reserved_tag⟩
              (Traffic.begun (session.groups.world self) handle buf count element_size) := by
            change session.traffic.record (.send self buf count element_size dest reserved_tag custom
              request) = _
            have again : (session.traffic.world self).send buf count element_size dest reserved_tag
              custom request = some (.returned handle, rank) := sent
            simp only [Traffic.record, again]
            rfl
          have inside : (session.groups.group self).in_group = true := allowed.1
          rw [recorded]
          refine ⟨fun channel => ?_, fun channel => (receives channel).trans ?_, given⟩
          · rw [Ledger.exists_sending_send, sends]
            obtain ⟨source, target, tag⟩ := channel
            by_cases here : source = self
            · simp [here, Group.push, Call.self, inside]
              tauto
            · simp [here, Call.self]
          · by_cases here : channel.dest = self
            · simp [here, Group.push, Call.self]
            · simp [here, Call.self]
      | recv self buffer element_size source tag request inside =>
          obtain ⟨_, rfl, _, buf, rfl, _⟩ := obeys
          have recorded : session.record
              (.call (.recv self (.given buf) element_size source reserved_tag request inside)) =
            session.ledger.recv ⟨source, self, reserved_tag⟩
              (Traffic.awaited (session.groups.world self) handle
                (session.ledger.received ⟨source, self, reserved_tag⟩) (.given buf)) := by
            change session.traffic.record (.recv self (.given buf) element_size source reserved_tag
              request inside) = _
            have again : session.traffic.world.recv self (.given buf) element_size source
              reserved_tag request inside = some (.returned handle, world) := called
            simp only [Traffic.record, again]
            rfl
          have inside : (session.groups.group self).in_group = true := allowed.1
          rw [recorded]
          refine ⟨fun channel => (sends channel).trans ?_, fun channel => ?_, ?_⟩
          · by_cases here : channel.source = self
            · simp [here, Group.push, Call.self]
            · simp [here, Call.self]
          · rw [Ledger.exists_receiving_recv, receives]
            obtain ⟨origin, target, tag⟩ := channel
            by_cases here : target = self
            · simp [here, Group.push, Call.self, inside]
              tauto
            · simp [here, Call.self]
          · intro channel receiving outstanding
            rcases Ledger.receiving_recv_iff.mp outstanding with ⟨_, rfl⟩ | ⟨_, before⟩
            · exact ⟨buf, rfl⟩
            · exact given channel receiving before
  | stop self =>
      obtain ⟨rank, waited, rfl⟩ := Option.map_eq_some_iff.mp happened
      obtain ⟨pending, _⟩ := (sound.groups.group self).inside allowed
      have booked := sound.traffic.booked
      change Grouped ⟨_, session.ledger.waitall self (session.groups.group self).pending_requests⟩
      refine ⟨fun channel => ?_, fun channel => ?_, fun channel receiving outstanding => ?_⟩
      · simp only [Ledger.sending_waitall_iff]
        by_cases here : channel.source = self
        · refine iff_of_false ?_ (by simp [here])
          rintro ⟨sending, outstanding, remains⟩
          have returned := (booked.sending channel sending outstanding).returned
          exact remains ⟨here, pending ▸ here ▸ returned⟩
        · simpa [here] using sends channel
      · simp only [Ledger.receiving_waitall_iff]
        by_cases here : channel.dest = self
        · refine iff_of_false ?_ (by simp [here])
          rintro ⟨receiving, outstanding, remains⟩
          have returned := (booked.receiving channel receiving outstanding).returned
          exact remains ⟨here, pending ▸ here ▸ returned⟩
        · simpa [here] using receives channel
      · exact given channel receiving (Ledger.receiving_waitall_iff.mp outstanding).1
  | other event =>
      obtain ⟨world, moved, rfl⟩ := Option.map_eq_some_iff.mp happened
      have kept : session.record (.other event) = session.ledger := by
        cases event with
        | send | recv | waitall => contradiction
        | compute | progress | send_handler | recv_handler | transmit | deliver => rfl
      rw [kept]
      exact ⟨sends, receives, given⟩

/-- Every event of a program that communicates in groups keeps transfers consistent. -/
theorem Sound.step
    {event : Groups.Event}
    (ranks : n ≤ 2 ^ 31)
    (memory : comm_buffer_size ≤ 2 ^ 57)
    (permitted : session.Permits n comm_buffer_size buffers agreed event)
    (stepped : session.step event = some after) :
    after.Sound n comm_buffer_size buffers agreed where
  groups := by
    obtain ⟨groups, happened, rfl⟩ := Option.map_eq_some_iff.mp stepped
    exact sound.groups.step enough permitted.1 happened
  traffic := by
    rcases sound.permits enough permitted stepped with same | ⟨event, permits, happened⟩
    · rw [same]
      exact sound.traffic
    · exact sound.traffic.step ranks memory permits happened
  grouped := sound.grouped_step enough permitted stepped

end Steps

/-- Ranks that have set up two communication buffers for every rank. -/
def set_up
    (n : Nat)
    (heap : Nat → Heap)
    (cache_start_addr : Nat → Int)
    (buffer_size : Int) : Session where
  groups := .set_up n heap cache_start_addr buffer_size
  ledger := .empty

section Runs

variable {n : Nat} {agreed : Agreement} {heap : Nat → Heap} {cache_start_addr : Nat → Int}
  {buffer_size : Int} {session : Session}

/-- Ranks that have set up their buffers have transferred nothing. -/
theorem sound_set_up (positive : 0 < buffer_size) :
    (set_up n heap cache_start_addr buffer_size).Sound n buffer_size
      (Traffic.set_up_buffers cache_start_addr (2 * n) buffer_size) agreed where
  groups := Groups.sound_set_up heap cache_start_addr buffer_size
  traffic := Traffic.consistent_set_up positive
  grouped := by
    constructor
    case given =>
      intros
      contradiction
    all_goals
      intro channel
      refine iff_of_false ?_ fun inside => absurd inside.2.1 Bool.false_ne_true
      rintro ⟨_, outstanding⟩
      contradiction

/-- Transfers are consistent in every state that is reached. -/
theorem Reaches.sound
    (ranks : n ≤ 2 ^ 31)
    (positive : 0 < buffer_size)
    (memory : buffer_size ≤ 2 ^ 57)
    (reached : Reaches (Permits n buffer_size
        (Traffic.set_up_buffers cache_start_addr (2 * n) buffer_size) agreed)
      (set_up n heap cache_start_addr buffer_size) session) :
    session.Sound n buffer_size (Traffic.set_up_buffers cache_start_addr (2 * n) buffer_size)
      agreed := by
  have enough : ∀ rank,
      (Traffic.set_up_buffers cache_start_addr (2 * n) buffer_size rank).length = 2 * n :=
    fun rank => by rw [Traffic.set_up_buffers, carved, List.length_map, List.length_range]
  induction reached with
  | start => exact sound_set_up positive
  | step reached permitted stepped inductionHypothesis =>
      exact inductionHypothesis.step enough ranks memory permitted stepped

/-- UCX and callbacks go on with the transfers of groups. -/
theorem Reaches.settles
    {comm_buffer_size : Int}
    {buffers : Nat → List Int}
    {start : Session}
    {count : Nat}
    {traffic : Traffic}
    (reached : Reaches (Permits n comm_buffer_size buffers agreed) start session)
    (settles : Traffic.Settles n comm_buffer_size buffers agreed session.traffic count traffic) :
    Reaches (Permits n comm_buffer_size buffers agreed) start
      ⟨⟨traffic.world, session.groups.group⟩, traffic.ledger⟩ := by
  induction settles with
  | start => exact reached
  | @step count traffic after event settled advances obeys stepped inductionHypothesis =>
      obtain ⟨world, happened, rfl⟩ := Option.map_eq_some_iff.mp stepped
      refine @Reaches.step _ _ _ _ (.other event) inductionHypothesis ⟨?_, obeys⟩ ?_
      · cases event with
        | send | recv | waitall | compute => contradiction
        | progress | send_handler | recv_handler | transmit | deliver => trivial
      · refine Option.map_eq_some_iff.mpr ⟨⟨world, session.groups.group⟩, ?_, rfl⟩
        exact Option.map_eq_some_iff.mpr ⟨world, happened, rfl⟩

/-- The rank that a rank sends to in its group has posted receives for all rounds. -/
def Awaited (session : Session) (rank dest : Nat) : Prop :=
  (session.ledger.sent ⟨rank, dest, reserved_tag⟩).length ≤
    session.ledger.received ⟨rank, dest, reserved_tag⟩

/-- The rank that a rank receives from in its group has sent all rounds. -/
def Answered (session : Session) (rank source : Nat) : Prop :=
  session.ledger.received ⟨source, rank, reserved_tag⟩ ≤
    (session.ledger.sent ⟨source, rank, reserved_tag⟩).length

/-- A buffer that a rank has passed to `recv` in its group has the bytes that have been sent. -/
def Copied (session : Session) (rank source : Nat) (heap : Heap) : Prop :=
  ∃ receiving buf round,
    session.ledger.receiving ⟨source, rank, reserved_tag⟩ = some receiving ∧
      receiving.buffer = .given buf ∧
      receiving.round + 1 = session.ledger.received ⟨source, rank, reserved_tag⟩ ∧
      (session.ledger.sent ⟨source, rank, reserved_tag⟩)[receiving.round]? = some round ∧
      heap.read buf round.bytes.length = round.bytes

/-- In every run of groups: when `stop` returns, all receives of the group have their data, and
`stop` does return when UCX and the callbacks have gone on for as long as they can, if the other
ranks have made their calls. -/
theorem groups_deliver
    (ranks : n ≤ 2 ^ 31)
    (positive : 0 < buffer_size)
    (memory : buffer_size ≤ 2 ^ 57)
    (reached : Reaches (Permits n buffer_size
        (Traffic.set_up_buffers cache_start_addr (2 * n) buffer_size) agreed)
      (set_up n heap cache_start_addr buffer_size) session)
    (rank : Nat)
    (inside : (session.groups.group rank).in_group = true) :
    (∀ after, session.step (.stop rank) = some after →
      ∀ source ∈ (session.groups.group rank).sources,
        session.Copied rank source (after.groups.world rank).heap) ∧
    ((∀ dest ∈ (session.groups.group rank).dests, session.Awaited rank dest) →
      (∀ source ∈ (session.groups.group rank).sources, session.Answered rank source) →
      ∀ count traffic,
        Traffic.Settles n buffer_size (Traffic.set_up_buffers cache_start_addr (2 * n) buffer_size)
          agreed session.traffic count traffic →
        traffic.Quiet n buffer_size (Traffic.set_up_buffers cache_start_addr (2 * n) buffer_size)
          agreed →
        ∃ after, Session.step ⟨⟨traffic.world, session.groups.group⟩, traffic.ledger⟩
          (.stop rank) = some after) := by
  have sound := reached.sound ranks positive memory
  constructor
  · intro after stopped source member
    obtain ⟨groups, happened, rfl⟩ := Option.map_eq_some_iff.mp stopped
    obtain ⟨later, waited, rfl⟩ := Option.map_eq_some_iff.mp happened
    obtain ⟨receiving, outstanding⟩ :=
      (sound.grouped.receives ⟨source, rank, reserved_tag⟩).mpr ⟨rfl, inside, member⟩
    obtain ⟨buf, given⟩ := sound.grouped.given _ receiving outstanding
    have booked := sound.traffic.booked.receiving _ receiving outstanding
    unfold Rank.waitall at waited
    split at waited
    · rename_i finished
      obtain rfl := Option.some.inj waited
      obtain ⟨_, _, _, _, released, _⟩ := (session.groups.world rank).release_all_eq
        (session.groups.group rank).pending_requests
      have completed := finished.2 receiving.handle
        (((sound.groups.group rank).inside inside).1 ▸ booked.returned)
      obtain ⟨round, delivered⟩ := sound.traffic.delivered outstanding completed
      refine ⟨receiving, buf, round, outstanding, given, sound.traffic.booked.received _ _ outstanding,
        delivered.sent, ?_⟩
      change ((session.groups.world.set rank _) rank).heap.read buf _ = _
      rw [World.set_self, released]
      by_cases empty : round.bytes = []
      · rw [empty]
        rfl
      · obtain ⟨start, pointer, stored⟩ := delivered.buffer empty
        obtain rfl := Option.some.inj ((delivered.given buf given).symm.trans pointer)
        exact stored
    · contradiction
  · intro awaited answered count traffic settles quiet
    have settled := (reached.settles settles).sound ranks positive memory
    have consistent := settled.traffic
    have ledger : traffic.ledger = session.ledger := settles.ledger_eq
    have idle := consistent.control_user quiet rank
    suffices completed : ∀ handle ∈ (session.groups.group rank).pending_requests,
        ((traffic.world rank).info handle).completed = true by
      have waited : (traffic.world rank).waitall
          (session.groups.group rank).pending_requests =
            some ((session.groups.group rank).pending_requests.foldl Rank.release_handle
              (traffic.world rank)) :=
        if_pos ⟨idle, completed⟩
      have stopped : ∃ groups,
          Groups.step ⟨traffic.world, session.groups.group⟩ (.stop rank) = some groups :=
        ⟨_, Option.map_eq_some_iff.mpr ⟨_, waited, rfl⟩⟩
      obtain ⟨groups, stepped⟩ := stopped
      exact ⟨_, Option.map_eq_some_iff.mpr ⟨groups, stepped, rfl⟩⟩
    intro handle pending
    have returned : handle ∈ (traffic.world rank).returned :=
      ((settled.groups.group rank).inside inside).1 ▸ pending
    rcases consistent.booked.covered rank handle returned with
      ⟨channel, sending, rfl, outstanding, rfl⟩ | ⟨channel, receiving, rfl, outstanding, rfl⟩
    · obtain ⟨reserved, _, member⟩ := (settled.grouped.sends channel).mp ⟨sending, outstanding⟩
      have posted := awaited channel.dest member
      rw [Awaited, ← reserved, ← ledger] at posted
      exact consistent.send_completed quiet outstanding posted
    · obtain ⟨reserved, _, member⟩ :=
        (settled.grouped.receives channel).mp ⟨receiving, outstanding⟩
      have sent := answered channel.source member
      have number := consistent.booked.received channel receiving outstanding
      rw [Answered, ← reserved, ← ledger] at sent
      exact consistent.receive_completed quiet outstanding
        (Nat.lt_of_succ_le (number.le.trans sent))

end Runs

/-- `recv_handler` does not allocate the buffer of a receive of a group. -/
theorem permits_recv_handler
    {n : Nat}
    {comm_buffer_size : Int}
    {buffers : Nat → List Int}
    {agreed : Agreement}
    {session : Session}
    {self request : Nat}
    {handle : Handle}
    {outer : List Handle}
    {start address : Int}
    {inside : Option Nat}
    (control : (session.groups.world self).control = .receiving handle outer)
    (pointed : (session.groups.world self).pointers
      ((session.groups.world self).info handle).recv_buffer = some start) :
    session.Permits n comm_buffer_size buffers agreed
      (.other (.recv_handler self address request inside)) := by
  have obeys : session.traffic.Obeys n comm_buffer_size buffers agreed
      (.recv_handler self address request inside) :=
    Traffic.obeys_of_pointed control pointed
  exact ⟨trivial, obeys⟩

/-- One rank whose memory holds its addresses. -/
def alone : Session := set_up 1 (fun _ address => UInt8.ofNat address.toNat) (fun _ => 0) 64

/-- The rank sends two elements to itself in a group in two batches, and receives them. -/
theorem reaches_loopback :
    ∃ session after,
      Reaches (Permits 1 64 (Traffic.set_up_buffers (fun _ => 0) 2 64) fun _ _ => ⟨2, 40⟩) alone
          session ∧
        (session.groups.group 0).in_group = true ∧ (session.groups.group 0).dests = [0] ∧
        (session.groups.group 0).sources = [0] ∧ session.Awaited 0 0 ∧ session.Answered 0 0 ∧
        session.traffic.Idle ∧ session.step (.stop 0) = some after := by
  have sized : (Extent.mk 2 40).Sized 64 := ⟨by decide, by decide, by decide, by decide⟩
  have started := @Reaches.step (Permits 1 64 (Traffic.set_up_buffers (fun _ => 0) 2 64)
    fun _ _ => ⟨2, 40⟩) alone _ _ (.start 0) .start ⟨rfl, trivial⟩ rfl
  have sent := @Reaches.step _ _ _ _
    (.call (.send 0 512 2 40 0 reserved_tag 0 none)) started
    ⟨⟨rfl, by decide, by decide⟩, by decide, rfl, rfl, sized, by decide, fun address covers => ⟨
      Traffic.not_in_carved ((by decide : (128 : Int) ≤ 512).trans covers.1), by
        rintro ⟨_, _, _, outstanding, _⟩
        contradiction⟩⟩ rfl
  have first := @Reaches.step _ _ _ _ (.other (.send_handler 0 none)) sent ⟨trivial, trivial⟩ rfl
  have second := @Reaches.step _ _ _ _ (.other (.send_handler 0 none)) first ⟨trivial, trivial⟩ rfl
  have ended := @Reaches.step _ _ _ _ (.other (.send_handler 0 none)) second ⟨trivial, trivial⟩ rfl
  have announced := @Reaches.step _ _ _ _
    (.call (.recv 0 (.given 1024) 40 0 reserved_tag 0 (some 0))) ended
    ⟨⟨rfl, by decide, by decide⟩, by decide, rfl, rfl, 1024, rfl, fun address covers => by
      have lower : 1024 ≤ address := covers.1
      rintro (⟨buffer, member, within⟩ | ⟨channel, sending, _, outstanding, _, upper⟩ |
        ⟨_, _, _, outstanding, _⟩)
      · exact Traffic.not_in_carved (by omega) buffer member within
      · rcases Ledger.sending_send_iff.mp outstanding with ⟨_, rfl⟩ | ⟨_, before⟩
        · change address < 512 + (((Rank.heap _).read 512 80).length : Int) at upper
          rw [Heap.length_read] at upper
          omega
        · contradiction
      · contradiction⟩ rfl
  have posted := @Reaches.step _ _ _ _ (.other (.recv_handler 0 0 1 (some 0))) announced
    (permits_recv_handler rfl rfl) rfl
  have copied := @Reaches.step _ _ _ _ (.other (.recv_handler 0 0 2 (some 0))) posted
    (permits_recv_handler rfl rfl) rfl
  have completed := @Reaches.step _ _ _ _ (.other (.recv_handler 0 0 3 none)) copied
    (permits_recv_handler rfl rfl) rfl
  refine ⟨_, _, completed, rfl, rfl, rfl, Nat.le_refl 1, Nat.le_refl 1, fun rank => ?_, rfl⟩
  cases rank with
  | zero => exact ⟨rfl, rfl, rfl, fun dest => by cases dest <;> rfl⟩
  | succ rank => exact ⟨rfl, rfl, rfl, fun _ => rfl⟩

theorem groups_deliver_loopback :
    ∃ session after : Session, session.step (.stop 0) = some after ∧
      session.Copied 0 0 (after.groups.world 0).heap := by
  obtain ⟨session, _, reached, inside, dests, sources, awaited, answered, idle, _⟩ :=
    reaches_loopback
  obtain ⟨copies, returns⟩ :=
    groups_deliver (by decide) (by decide) (by decide) reached 0 inside
  rw [dests, sources] at returns
  obtain ⟨after, stopped⟩ := returns (by simpa using awaited) (by simpa using answered) 0
    session.traffic .start idle.quiet
  exact ⟨session, after, stopped, copies after stopped 0 (sources ▸ List.mem_singleton_self 0)⟩

end Session

end Ucx

end DistributedJoin
