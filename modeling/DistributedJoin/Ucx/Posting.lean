import DistributedJoin.Ucx.Arrivals

/-!
# Receives that are posted

A receive that is posted waits for the next message of its channel, or it gets this message at
once. In both cases no other channel changes.
-/

namespace DistributedJoin

namespace Ucx

open Device

namespace World

variable {world posted : World} {self : Nat} {before : Rank}

/-- Which message is received depends on the messages only. -/
theorem receive_set
    {source dest : Nat}
    {tag : Tag}
    {bytes : List Byte}
    {received : World}
    (outgoing : before.outgoing = (world self).outgoing)
    (taken : (world.set self before).receive source dest tag = some (bytes, received)) :
    ∃ other, world.receive source dest tag = some (bytes, other) ∧
      ∀ rank, (received rank).outgoing = (other rank).outgoing := by
  have same : ∀ rank, (world.set self before rank).outgoing = (world rank).outgoing := by
    intro rank
    by_cases here : rank = self
    · subst here
      rw [set_self, outgoing]
    · rw [set_of_ne _ here]
  obtain ⟨rest, message, rfl⟩ := receive_cases taken
  rw [same] at message
  refine ⟨_, by rw [receive, message]; rfl, fun rank => ?_⟩
  by_cases here : rank = source
  · subst here
    rw [set_self, set_self, same]
  · rw [set_of_ne _ here, set_of_ne _ here, same]

/-- A receive has been posted: it waits for a message, or a message has been written to its
place. -/
inductive Receives
    (world after : World)
    (self : Nat)
    (tag : Tag)
    (place : Place)
    (handle : Handle)
    (before : Rank) : Option Nat → Prop
  | later
      (listed : (after self).posted = (world self).posted ++ [⟨tag, place, handle⟩])
      (heap : (after self).heap = before.heap)
      (counters : (after self).counters = before.counters)
      (outgoing : ∀ rank, (after rank).outgoing = (world rank).outgoing) :
      Receives world after self tag place handle before none
  | at_once
      {source : Nat}
      {bytes : List Byte}
      {received : World}
      (listed : (after self).posted = (world self).posted)
      (taken : world.receive source self tag = some (bytes, received))
      (heap : (after self).heap = (before.write bytes place).heap)
      (counters : (after self).counters = (before.write bytes place).counters)
      (outgoing : ∀ rank, (after rank).outgoing = (received rank).outgoing) :
      Receives world after self tag place handle before (some source)

/-- Only the place of a receive is written to. -/
theorem Receives.memory
    {after : World}
    {tag : Tag}
    {place : Place}
    {handle : Handle}
    {inside : Option Nat}
    (receives : Receives world after self tag place handle before inside) :
    (∀ receive ∈ (world self).posted, receive ∈ (after self).posted) ∧
      (∀ address, ¬ place.Covers address → (after self).heap address = before.heap address) ∧
      ∀ cell, ¬ place.Holds cell → (after self).counters cell = before.counters cell := by
  cases receives with
  | later listed heap counters outgoing =>
      rw [listed, heap, counters]
      exact ⟨fun _ => List.mem_append_left _, fun _ _ => rfl, fun _ _ => rfl⟩
  | at_once listed taken heap counters outgoing =>
      rw [listed, heap, counters]
      obtain ⟨_, _, written, heap_same, counters_same⟩ := before.write_same _ place
      rw [written]
      exact ⟨fun _ => id, heap_same, counters_same⟩

/-- Posting a receive sends no messages. -/
theorem Receives.messages
    {after : World}
    {tag : Tag}
    {place : Place}
    {handle : Handle}
    {inside : Option Nat}
    (receives : Receives world after self tag place handle before inside)
    (rank other : Nat) :
    ∀ message ∈ (after rank).outgoing other, message ∈ (world rank).outgoing other := by
  intro message member
  cases receives with
  | later listed heap counters outgoing =>
      rw [outgoing] at member
      exact member
  | at_once listed taken heap counters outgoing =>
      rw [outgoing] at member
      exact outgoing_of_receive taken rank other message member

/-- A receive that is posted is one of those before, or the new one. -/
theorem Receives.listed
    {after : World}
    {tag : Tag}
    {place : Place}
    {handle : Handle}
    {inside : Option Nat}
    (receives : Receives world after self tag place handle before inside) :
    ∀ receive ∈ (after self).posted,
      receive ∈ (world self).posted ∨ receive.request = handle := by
  intro receive member
  cases receives with
  | later listed heap counters outgoing =>
      rw [listed] at member
      rcases List.mem_append.mp member with before | last
      · exact .inl before
      · exact .inr (congrArg Posted.request (List.mem_singleton.mp last))
  | at_once listed taken heap counters outgoing =>
      rw [listed] at member
      exact .inl member

/-- What posting a receive changes. -/
theorem recv_nb_eq
    {place : Place}
    {tag : Tag}
    {index : Nat}
    {inside : Option Nat}
    (receives : (world.set self before).ucp_tag_recv_nb self place tag index inside =
      some posted)
    (outgoing : before.outgoing = (world self).outgoing)
    (listed : before.posted = (world self).posted)
    (null : (before.info (.request index)).orig_info = .null) :
    (∃ heap counters info outgoing listed allocated,
      posted self =
        { before with
          heap := heap
          counters := counters
          info := info
          outgoing := outgoing
          posted := listed
          allocated := allocated }) ∧
      Receives world posted self tag place (.request index) before inside := by
  obtain ⟨_, ⟨rfl, same⟩ | ⟨source, bytes, received, rfl, _, taken, rfl⟩⟩ :=
    ucp_tag_recv_nb_cases receives
  · rw [set_self] at same
    subst same
    rw [set_self]
    refine ⟨⟨before.heap, before.counters, before.info, before.outgoing, _, _, rfl⟩, ?_⟩
    refine .later ?_ (by rw [set_self]; rfl) (by rw [set_self]; rfl) ?_
    · rw [set_self]
      exact congrArg (· ++ _) listed
    · intro rank
      by_cases here : rank = self
      · subst here
        rw [set_self]
        exact outgoing
      · rw [set_of_ne _ here, set_of_ne _ here]
  · have same : received self = { before with outgoing := (received self).outgoing } := by
      obtain ⟨rest, _, rfl⟩ := receive_cases taken
      by_cases here : self = source
      · subst here
        rw [set_self, set_self]
      · rw [set_of_ne _ here, set_self]
    obtain ⟨heap, counters, written⟩ := Rank.write_eq
      ((received self).allocate (.request index)) bytes place
    have called : (((received self).allocate (.request index)).write bytes place).call_inside
        (.request index) =
          (((received self).allocate (.request index)).write bytes place).setInfo
            (.request index) { before.info (.request index) with orig_info := .called } := by
      rw [written, same]
      simp [Rank.call_inside, Rank.allocate, null]
    obtain ⟨heap_written, counters_written⟩ := Rank.write_congr
      ((received self).allocate (.request index)) before (by rw [same]; rfl) (by rw [same]; rfl)
      bytes place
    rw [called]
    obtain ⟨found, taken_before, messages⟩ := receive_set outgoing taken
    refine ⟨⟨heap, counters, Function.update before.info (.request index)
        { before.info (.request index) with orig_info := .called }, (received self).outgoing,
      before.posted, Function.update before.allocated (.request index) true, ?_⟩,
      .at_once ?_ taken_before ?_ ?_ fun rank => ?_⟩
    · rw [set_self, written, same]
      rfl
    · rw [set_self, written, same, listed]
      rfl
    · rw [set_self]
      exact heap_written
    · rw [set_self]
      exact counters_written
    · by_cases here : rank = self
      · subst here
        rw [set_self, written]
        exact messages rank
      · rw [set_of_ne _ here]
        exact messages rank

/-- The rank that has posted a receive changes, but not its messages. -/
theorem Receives.set
    {tag : Tag}
    {place : Place}
    {handle : Handle}
    {inside : Option Nat}
    (receives : Receives world posted self tag place handle before inside)
    (later : Rank)
    (listed : later.posted = (posted self).posted)
    (heap : later.heap = (posted self).heap)
    (counters : later.counters = (posted self).counters)
    (outgoing : later.outgoing = (posted self).outgoing) :
    Receives world (posted.set self later) self tag place handle before inside := by
  have messages : ∀ rank, (posted.set self later rank).outgoing = (posted rank).outgoing := by
    intro rank
    by_cases here : rank = self
    · subst here
      rw [set_self, outgoing]
    · rw [set_of_ne _ here]
  cases receives with
  | later posts same_heap same_counters same_outgoing =>
      refine .later ?_ ?_ ?_ fun rank => (messages rank).trans (same_outgoing rank)
      · rw [set_self, listed, posts]
      · rw [set_self, heap, same_heap]
      · rw [set_self, counters, same_counters]
  | at_once posts taken same_heap same_counters same_outgoing =>
      refine .at_once ?_ taken ?_ ?_ fun rank => (messages rank).trans (same_outgoing rank)
      · rw [set_self, listed, posts]
      · rw [set_self, heap, same_heap]
      · rw [set_self, counters, same_counters]

end World

/-- A receive has posted its header and has returned its handle. -/
structure RecvBegins
    (n : Nat)
    (channel : Channel)
    (element_size : Int)
    (receiving : Receiving)
    (rank later : Rank) : Prop where
  inactive : receiving.handle ∉ rank.active n
  unreturned : receiving.handle ∉ rank.returned
  frame : Frame n
    { Footprint.only receiving.handle with
      counters := (· = receiving.counter)
      pointers := (· = receiving.pointer) } rank later
  returned : later.returned = rank.returned ++ [receiving.handle]
  info : ∀ other, other ≠ receiving.handle → later.info other = rank.info other
  goes_on : receiving.GoesOn channel element_size later receiving.handle 0
  pointer : later.pointers receiving.pointer = receiving.buffer.start
  malloced : later.malloced = rank.malloced + receiving.buffer.mallocs
  due : later.due = rank.due
  sends : ∀ other loop, later.control ≠ .sending other loop
  receives : ∀ other outer, later.control = .receiving other outer → other = receiving.handle
  alive : later.control ≠ .crashed

/-- The rank that returns the handle of a receive. -/
theorem RecvBuffer.fill_pointed
    (buffer : RecvBuffer)
    (rank : Rank)
    (handle : Handle)
    (info : CommInfo)
    (rest : List Int)
    (control : Control) :
    (buffer.pointed rank).fill handle info rest control =
      { rank with
        buffer_cache := rest
        pointers := (buffer.pointed rank).pointers
        malloced := (buffer.pointed rank).malloced
        info := Function.update rank.info handle info
        returned := rank.returned ++ [handle]
        control := control } := by
  cases buffer <;> rfl

/-- A call of `recv` that returns a handle. -/
theorem World.Sound.recv_begins
    {n : Nat}
    {carved : Nat → List Int}
    {world after : World}
    {self source request : Nat}
    {buffer : RecvBuffer}
    {element_size tag : Int}
    {inside : Option Nat}
    {handle : Handle}
    (sound : world.Sound n carved)
    (received : world.recv self buffer element_size source tag request inside =
      some (.returned handle, after))
    (round : Nat) :
    let receiving := Traffic.awaited (world self) handle round buffer
    RecvBegins n ⟨source, self, tag⟩ element_size receiving (world self) (after self) ∧
      World.Receives world after self (get_comm_tag tag source) (.counter receiving.counter) handle
        (buffer.counted (world self)) inside ∧
      (inside ≠ none → handle ∈ (after self).pending) ∧
      ∀ other, other ≠ self → ∃ outgoing, after other = { world other with outgoing := outgoing } ∧
        sendsOf n outgoing = sendsOf n (world other).outgoing := by
  intro receiving
  obtain ⟨idle, recved_count, posted, header, filled⟩ := World.recv_cases received
  obtain ⟨rfl, receives⟩ := World.post_count_eq header
  have ready : (buffer.counted (world self)).Sound n (carved self) (world self).control.outer := by
    rw [buffer.counted_eq]
    exact (sound self).remember _ _ _ _
  have posts := World.posts_of_recv_nb (by rw [World.set_self]; exact ready) receives
  rw [World.set_self] at posts
  have counted := buffer.counted_eq (world self)
  obtain ⟨⟨heap, counters, infos, outgoing, listed, allocated, same⟩, takes⟩ :=
    World.recv_nb_eq receives (by rw [counted]) (by rw [counted]) (ready.idle request posts.free).1
  rcases filled with ⟨_, threw⟩ |
    ⟨comm_buffer, rest, info, control, queue, same_outcome, rfl, filled, onward⟩
  · contradiction
  obtain rfl := Rank.Outcome.returned.inj same_outcome
  obtain ⟨pointer, pointers, malloced⟩ := buffer.pointed_counted (world self)
    (posted self) (by rw [same]) (by rw [same])
  have pointed := buffer.pointed_eq (posted self)
  have free : (world self).allocated (.request request) = false := by
    have unused := posts.free
    rwa [counted] at unused
  obtain ⟨inactive, unreturned, _⟩ := (sound self).fresh free
  let later := (buffer.pointed (posted self)).fill (.request request) info rest control
  have info_handle : later.info (.request request) = info := Function.update_self _ _ _
  have info_other : ∀ other, other ≠ .request request →
      later.info other = (world self).info other := by
    intro other different
    refine (Function.update_of_ne different _ _).trans ?_
    rw [pointed]
    have kept := posts.info other different
    rwa [counted] at kept
  have next : control = if inside = none then .user else .receiving (.request request) [] := by
    have user := posts.control
    rw [counted] at user
    rw [onward, user]
    by_cases waits : inside = none
    · rw [if_pos waits, if_pos (posts.called.mpr waits)]
      exact idle
    · rw [if_neg waits, if_neg (fun null => waits (posts.called.mp null))]
  have shape : later = _ := buffer.fill_pointed (posted self) (.request request) info rest control
  have due : later.due = (world self).due := by
    rw [shape]
    exact posts.due.trans (by rw [counted])
  have operations : ∀ operation ∈ (world self).operations n, operation ∈ later.operations n := by
    intro operation member
    have before : operation ∈ (buffer.counted (world self)).operations n := by
      rw [counted]
      exact member
    have posted_operations : later.operations n = (posted self).operations n := by
      rw [shape]
      rfl
    rw [posted_operations, posts.operations]
    split
    · exact Multiset.mem_cons_of_mem before
    · exact before
  have running : (world self).control.running = 0 := by
    rw [idle]
    rfl
  have receiver : later.control = control := by rw [shape]
  have final := takes.set later (by rw [shape]) (by rw [shape]) (by rw [shape])
    (by rw [shape])
  have sends : ∀ other loop, later.control ≠ .sending other loop := by
    rw [receiver, next]
    split <;> exact fun _ _ => Control.noConfusion
  obtain ⟨remains, heap_same, counters_same⟩ := final.memory
  rw [World.set_self] at remains heap_same counters_same
  have later_pointers : later.pointers = (buffer.pointed (posted self)).pointers := by rw [shape]
  refine ⟨?_, ?_, ?_, ?_⟩
  · rw [World.set_self]
    constructor
    case inactive => exact inactive
    case unreturned => exact unreturned
    case frame =>
      exact {
        mpi_rank := by
          change later.mpi_rank = _
          rw [shape, same, counted]
        info := by
          rintro other (before | before) _
          · exact info_other other fun equal => inactive (equal ▸ before)
          · exact info_other other fun equal => unreturned (equal ▸ before)
        returned := by
          intro other before _
          change other ∈ later.returned
          rw [shape, posts.returned, counted]
          exact List.mem_append_left _ before
        active := by
          intro other before _
          rcases Rank.active_cases before with ⟨place, member⟩ | ⟨callback, member, rfl⟩ | executed
          · exact Rank.mem_active_of_operation (operations _ member)
          · exact Rank.mem_active_of_due (due ▸ member)
          · rw [running] at executed
            exact absurd executed (Multiset.notMem_zero _)
        pending := by
          intro other before _
          rw [Rank.pending, running, add_zero, ← due] at before
          exact Multiset.mem_add.mpr (.inl before)
        posted := fun receive before _ => remains receive before
        loop := by
          intro other _ _
          refine (Rank.loop_of_not_sending sends other).trans (Eq.symm ?_)
          exact Rank.loop_of_not_sending (by rw [idle]; exact fun _ _ => Control.noConfusion) other
        heap := by
          intro address _
          rw [heap_same address id, counted]
        counters := by
          intro cell outside
          rw [counters_same cell outside, counted]
        pointers := by
          intro cell outside
          change later.pointers cell = _
          rw [later_pointers, pointers]
          exact Function.update_of_ne outside _ _ }
    case returned =>
      change later.returned = _
      rw [shape, posts.returned, counted]
      rfl
    case info => exact info_other
    case goes_on =>
      refine ⟨?_, ?_, ?_⟩
      · change (later.info (.request request)).orig_info = _
        rw [info_handle, filled]
        rfl
      · change receiving.Describes _ _ (later.info (.request request))
        rw [info_handle, filled]
        exact ⟨rfl, pointer, rfl, rfl, rfl, rfl⟩
      · change (later.info (.request request)).ibatch = _
        rw [info_handle, filled]
        rfl
    case pointer =>
      change later.pointers _ = _
      rw [later_pointers, pointers]
      exact Function.update_self _ _ _
    case malloced =>
      change later.malloced = _
      rw [shape]
      exact malloced
    case due => exact due
    case sends => exact sends
    case alive =>
      change later.control ≠ _
      rw [receiver, next]
      split <;> exact Control.noConfusion
    case receives =>
      intro other outer control_eq
      change later.control = _ at control_eq
      rw [receiver, next] at control_eq
      split at control_eq
      · contradiction
      · exact (Control.receiving.inj control_eq).1.symm
  · exact final
  · intro called
    rw [World.set_self]
    change _ ∈ later.pending
    refine Multiset.mem_add.mpr (.inr ?_)
    rw [receiver, next, if_neg called]
    exact Multiset.mem_singleton_self _
  · intro other different
    rw [World.set_of_ne _ different]
    obtain ⟨messages, kept, sends, _⟩ := World.of_recv_nb different
      (by rw [World.set_of_ne _ different]; exact (sound other).within) receives
    rw [World.set_of_ne _ different] at kept sends
    exact ⟨messages, kept, sends⟩

namespace Traffic.Consistent

variable {n : Nat} {comm_buffer_size : Int} {buffers : Nat → List Int} {agreed : Agreement}
  {traffic : Traffic} {after : World}
  (consistent : traffic.Consistent n comm_buffer_size buffers agreed)
include consistent

/-- The sizes that are agreed on for a receive are those of its round. -/
theorem element_size_eq
    {channel : Channel}
    {index : Nat}
    {round : Round}
    (found : (traffic.ledger.sent channel)[index]? = some round) :
    (agreed channel index).element_size = round.element_size :=
  congrArg Extent.element_size (consistent.agree channel index round found)

/-- Ranks of which at most the messages change when a receive is posted. -/
theorem located_other
    {self rank : Nat}
    {tag : Tag}
    {place : Place}
    {handle : Handle}
    {before : Rank}
    {inside : Option Nat}
    (receives : traffic.world.Receives after self tag place handle before inside)
    (same : ∃ outgoing, after rank = { traffic.world rank with outgoing := outgoing }) :
    (after rank).Located n rank := by
  have located := consistent.located rank
  have messages := receives.messages rank
  obtain ⟨outgoing, same⟩ := same
  rw [same] at messages ⊢
  exact located.of_alike (consistent.sound rank).within (fun _ _ => .of_eq rfl)
    (fun other message member => .inl (messages other message member)) (fun _ => .inl)
    (fun _ => .inl) (fun _ => .inl) located.sending located.receiving located.alive

/-- The channel of a receive that has been posted, and all others. -/
theorem received
    {channel : Channel}
    {receiving : Receiving}
    {footprint : Footprint}
    {place : Place}
    {handle : Handle}
    {before : Rank}
    {inside : Option Nat}
    {count : Nat}
    {taken unsent : List (List Byte)}
    (frames : World.Frames n channel.dest footprint traffic.world after)
    (clear : traffic.Clear n comm_buffer_size agreed channel.dest footprint)
    (quiet : traffic.SparesMessages channel.dest footprint)
    (ranks : n ≤ 2 ^ 31)
    (valid : channel.Valid n)
    (receives : traffic.world.Receives after channel.dest channel.comm_tag place handle before
      inside)
    (waits : Waits comm_buffer_size
      { after channel.dest with heap := before.heap, counters := before.counters } channel
      (traffic.ledger.sent channel) receiving taken place handle)
    (flow : taken ++ (traffic.world.queue channel ++ unsent) =
      Round.streams comm_buffer_size (traffic.ledger.sent channel))
    (sizes : ((after channel.dest).info receiving.handle).element_size =
      (agreed channel receiving.round).element_size)
    (pending : inside ≠ none → handle ∈ (after channel.dest).pending)
    (apart : ∀ address, receiving.Covers (after channel.dest)
        (agreed channel receiving.round).size address → ¬ place.Covers address) :
    (∃ more, more ++ (after.queue channel ++ unsent) =
        Round.streams comm_buffer_size (traffic.ledger.sent channel) ∧
      ReceiverSide comm_buffer_size (after channel.dest) channel (traffic.ledger.sent channel)
        count (some receiving) more) ∧
      ∀ other, other.Valid n → other ≠ channel →
        after.queue other = traffic.world.queue other := by
  cases receives with
  | later listed heap counters outgoing =>
      have queue : ∀ other, after.queue other = traffic.world.queue other := fun other =>
        consistent.queue_kept frames clear quiet (congrFun (outgoing other.source) other.dest)
      rw [← heap, ← counters] at waits
      refine ⟨⟨taken, (queue channel).symm ▸ flow, waits.posted ?_⟩, fun other _ _ => queue other⟩
      rw [listed]
      exact List.mem_append_right _ (List.mem_singleton_self _)
  | at_once listed message heap counters outgoing =>
      obtain ⟨rest, first, same⟩ := World.receive_cases message
      obtain rfl := consistent.source_of_message ranks valid first
      obtain ⟨next, others⟩ := consistent.queue_take frames clear quiet ranks valid first
        ((outgoing _).trans (by rw [same, World.set_self]))
        fun other different => (outgoing other).trans (by rw [same, World.set_of_ne _ different])
      rw [next] at flow
      obtain ⟨heap_written, counters_written⟩ := Rank.write_congr before
        { after channel.dest with heap := before.heap, counters := before.counters } rfl rfl _ place
      refine ⟨⟨_, ?_, waits.arrives flow (consistent.fits channel) ?_ rfl
        (pending (Option.some_ne_none _)) rfl (counters.trans counters_written)
        (heap.trans heap_written) ?_⟩, others⟩
      · rw [List.append_assoc]
        exact flow
      · exact fun round found => sizes.trans (consistent.element_size_eq found)
      · intro round address found covers
        refine apart address ?_
        rw [consistent.size_eq found]
        exact covers

end Traffic.Consistent

end Ucx

end DistributedJoin
