import DistributedJoin.Ucx.Posting

/-!
# Receives that begin

A call of `recv` waits for the header of the next round of its channel, with a handle and
variables that no other transfer uses.
-/

namespace DistributedJoin

namespace Ucx

open Device

namespace Traffic.Consistent

variable {n : Nat} {comm_buffer_size : Int} {buffers : Nat → List Int} {agreed : Agreement}
  {traffic : Traffic} {after : World}
  (consistent : traffic.Consistent n comm_buffer_size buffers agreed)
include consistent

/-- A receive begins. -/
theorem recv_call
    {self source request : Nat}
    {buffer : RecvBuffer}
    {element_size tag : Int}
    {inside : Option Nat}
    {handle : Handle}
    (ranks : n ≤ 2 ^ 31)
    (obeys : traffic.Obeys n comm_buffer_size buffers agreed
      (.recv self buffer element_size source tag request inside))
    (returned : traffic.world.recv self buffer element_size source tag request inside =
      some (.returned handle, after)) :
    Consistent n comm_buffer_size buffers agreed
      ⟨after, traffic.ledger.recv ⟨source, self, tag⟩
        (awaited (traffic.world self) handle (traffic.ledger.received ⟨source, self, tag⟩)
          buffer)⟩ := by
  obtain ⟨valid, vacant, sizes, usage⟩ := obeys
  let channel : Channel := ⟨source, self, tag⟩
  let receiving := awaited (traffic.world self) handle (traffic.ledger.received channel) buffer
  have sound := consistent.sound self
  have located := consistent.located self
  obtain ⟨begins, receives, pending, others⟩ := consistent.sound.recv_begins returned
    (traffic.ledger.received channel)
  obtain ⟨handles, record, kept⟩ : ∃ handles record,
      World.Keeps n buffers traffic.world after handles record := by
    rcases consistent.sound.recv valid.1 returned with ⟨_, threw⟩ | ⟨_, _, kept⟩
    · contradiction
    · exact ⟨_, _, kept⟩
  have frames : World.Frames n self _ traffic.world after := ⟨begins.frame, others⟩
  -- The variables of the receive are not those of any other transfer.
  have counters : ∀ other found, other.source = self →
      traffic.ledger.sending other = some found → found.counter ≠ receiving.counter := by
    rintro other found rfl outstanding same
    obtain ⟨index, bound, counter⟩ := (consistent.booked.sending other found outstanding).counter
    rw [counter] at same
    cases buffer with
    | given buf => exact absurd (Cell.malloced.inj same) bound.ne
    | unknown buf count =>
        obtain ⟨_, ⟨_, rfl⟩, _⟩ := usage
        exact Cell.noConfusion same
  have cells : ∀ other found, other.dest = self →
      traffic.ledger.receiving other = some found →
      found.counter ≠ receiving.counter ∧ found.pointer ≠ receiving.pointer := by
    rintro other found rfl outstanding
    have booked := consistent.booked.receiving other found outstanding
    cases buffer with
    | given buf =>
        refine ⟨fun same => ?_, fun same => ?_⟩
        · exact Nat.lt_irrefl _ (booked.counter _ same)
        · have bound := booked.pointer _ same
          exact Nat.lt_irrefl _ (Nat.lt_of_succ_lt bound)
    | unknown buf count =>
        obtain ⟨pointer, counter⟩ := usage.2.2 other found rfl outstanding
        exact ⟨counter, pointer⟩
  have bounds : ∀ index,
      receiving.counter = .malloced index ∨ receiving.pointer = .malloced index →
        index < (after self).malloced := by
    intro index same
    rw [begins.malloced]
    cases buffer with
    | given buf =>
        rcases same with counter | pointer
        · obtain rfl := Cell.malloced.inj counter
          exact Nat.lt_add_of_pos_right Nat.two_pos
        · obtain rfl := Cell.malloced.inj pointer
          exact Nat.lt_succ_self _
    | unknown buf count =>
        obtain ⟨⟨_, rfl⟩, ⟨_, rfl⟩, _⟩ := usage
        rcases same with counter | pointer <;> contradiction
  have region : ∀ address, receiving.Covers (after self) (agreed channel receiving.round).size
      address → ¬ traffic.InUse agreed self address (buffers self) comm_buffer_size := by
    rintro address ⟨start, pointed, covers⟩
    have pointer := begins.pointer
    rw [pointed] at pointer
    cases buffer with
    | given buf =>
        obtain rfl := Option.some.inj pointer
        exact usage address covers
    | unknown buf count => contradiction
  have clear : traffic.Clear n comm_buffer_size agreed self
      { Footprint.only receiving.handle with
        counters := (· = receiving.counter)
        pointers := (· = receiving.pointer) } :=
    consistent.clear_of (fun _ => False.elim)
      (fun other found source outstanding _ => counters other found source outstanding)
      fun other found dest outstanding _ => cells other found dest outstanding
  have fresh : ∀ other found, traffic.ledger.sending other = some found →
      other.source = self → found.handle ≠ handle := by
    rintro other found outstanding rfl same
    exact begins.unreturned (same ▸ (consistent.booked.sending other found outstanding).returned)
  have fresh_receiving : ∀ other found, traffic.ledger.receiving other = some found →
      other.dest = self → found.handle ≠ handle := by
    rintro other found outstanding rfl same
    exact begins.unreturned (same ▸ (consistent.booked.receiving other found outstanding).returned)
  have quiet : traffic.SparesMessages self
      { Footprint.only receiving.handle with
        counters := (· = receiving.counter)
        pointers := (· = receiving.pointer) } := by
    intro dest message member place other waiting
    have active := Rank.mem_active_of_operation
      (Rank.operation_of_outgoing sound.within member waiting)
    obtain ⟨orig, orig_returned, origin, _⟩ := (sound.engaged other active).origin
    exact ⟨orig, origin, fun same => begins.unreturned (same ▸ orig_returned)⟩
  have types : ((after self).info handle).types = .RECV := begins.goes_on.describes.types
  obtain ⟨taken, unsent, flow, sends, receives_before⟩ := consistent.flows channel valid
  rw [vacant] at receives_before
  cases receives_before with
  | idle le =>
      obtain ⟨⟨more, more_flow, side⟩, queue⟩ := consistent.received frames clear quiet ranks valid
        receives (.header le (begins.goes_on.frame rfl)) flow
        (begins.goes_on.describes.element_size.trans sizes.symm) pending fun _ _ => id
      refine consistent.of_keeps frames kept ?located ?booked consistent.fits consistent.agree
        ?flows
      case located =>
        intro rank
        by_cases here : rank = self
        · subst here
          refine located.of_alike sound.within
            ?alike ?outgoing ?listed ?sends ?receives ?sending ?receiving begins.alive
          case alike =>
            exact fun other active =>
              .of_eq (begins.info other fun same => begins.inactive (same ▸ active))
          case outgoing =>
            exact fun other message member => .inl (receives.messages rank other message member)
          case listed =>
            intro receive member
            rcases receives.listed receive member with before | same
            · exact .inl before
            · exact .inr (same ▸ types)
          case sends =>
            exact fun other member => .inl (begins.due ▸ member)
          case receives =>
            exact fun other member => .inl (begins.due ▸ member)
          case sending =>
            exact fun other loop sends => absurd sends (begins.sends other loop)
          case receiving =>
            intro other outer receiving_control
            rw [begins.receives other outer receiving_control]
            exact types
        · obtain ⟨outgoing, same, _⟩ := others rank here
          exact consistent.located_other receives ⟨outgoing, same⟩
      case booked =>
        refine consistent.booked.recv ?_ valid vacant rfl ?_ ?_ counters cells region
        · exact {
            returned := begins.returned
            info := fun other member =>
              begins.info other fun same => begins.unreturned (same ▸ member)
            malloced := by
              rw [begins.malloced]
              exact Nat.le_add_right _ _
            others := fun other different => by
              obtain ⟨outgoing, same, _⟩ := others other different
              exact ⟨outgoing, same⟩ }
        · exact {
            valid := valid
            returned := by
              change handle ∈ (after self).returned
              rw [begins.returned]
              exact List.mem_append_right _ (List.mem_singleton_self _)
            describes := { begins.goes_on.describes with
              element_size := begins.goes_on.describes.element_size.trans sizes.symm }
            counter := fun index same => bounds index (.inl same)
            pointer := fun index same => bounds index (.inr same)
            given := fun buf same => begins.pointer.trans (congrArg RecvBuffer.start same) }
        · exact fun cell different => begins.frame.pointers cell different
      case flows =>
        refine consistent.flows_kept frames clear (· = channel) ?_ ?_ queue ?_
        · exact fun other _ => ⟨fun found outstanding source =>
            fresh other found outstanding source, fun found outstanding dest =>
              fresh_receiving other found outstanding dest⟩
        · exact fun other different => ⟨rfl, rfl, Ledger.received_recv_of_ne different _,
            Ledger.receiving_recv_of_ne different _⟩
        · rintro other _ rfl
          refine ⟨more, unsent, more_flow, ?_, ?_⟩
          · exact consistent.sender_kept frames clear
              (fun found outstanding source => fresh channel found outstanding source) sends
          · change ReceiverSide comm_buffer_size (after channel.dest) channel
              (traffic.ledger.sent channel) _ (Ledger.receiving _ channel) _
            rw [Ledger.receiving_recv]
            exact side

end Traffic.Consistent

end Ucx

end DistributedJoin
