import DistributedJoin.Comm.Sizes

/-!
# Repeated size exchanges

Every rank calls `communicate_sizes` any number of times, each time in a group
of its own choosing, as long as all ranks make the same calls. The log keeps
what each call returns.
-/

namespace DistributedJoin

open Spmd

/-- One collective call of `communicate_sizes`: the groups it uses and the
offsets every rank passes. -/
structure SizesCall (n : Nat) where
  layout : Layout n
  send_offset : Nat → List Int

/-- The calls made by one rank, one after the other. -/
def communicateRounds
    {n : Nat}
    (calls : List (SizesCall n))
    (rank : Nat) : Process ranks (List (List Int)) :=
  calls.mapM fun call => do
    let recv_offset ← communicate_sizes (call.send_offset rank)
      (CommunicationGroup.create rank call.layout.grid_size call.layout.stride)
    Process.observe (I := ranks) (.returned recv_offset)
    pure recv_offset

/-- A size exchange that has returned, if the event is one. -/
def returnedOffset : Event ranks → Option (List Int)
  | .noted (.returned recv_offset) => some recv_offset
  | _ => none

/-- What the size exchanges of a rank have returned so far. -/
def returnedOffsets (log : List (Event ranks)) : List (List Int) :=
  log.filterMap returnedOffset

/-- What a rank does during one call. -/
def roundEvents {n : Nat} (call : SizesCall n) (rank : Nat) : List (Event ranks) :=
  call.layout.sizesEvents call.send_offset rank ++
    [.noted (.returned (call.layout.exchanged call.send_offset rank))]

theorem phase_communicateRounds
    {n : Nat}
    {eager : Eagerness ranks}
    (calls : List (SizesCall n)) :
    Phase n eager (Arrivals.none ranks) (communicateRounds calls)
      (Arrivals.none ranks)
      (.ok fun rank => calls.map fun call =>
        call.layout.exchanged call.send_offset rank)
      (fun rank => calls.flatMap fun call => roundEvents call rank) := by
  refine Phase.mapM calls fun call _ => ?_
  have exchange : Phase n eager (Arrivals.none ranks) _ _ _ _ :=
    phase_communicate_sizes call.layout call.send_offset rfl
  have recorded : Phase n eager (Arrivals.none ranks)
      (fun rank => Process.observe (I := ranks)
        (.returned (call.layout.exchanged call.send_offset rank)) >>= fun _ =>
          Process.pure (call.layout.exchanged call.send_offset rank))
      _ _ _ :=
    (Phase.observe (I := ranks) fun rank =>
      .returned (call.layout.exchanged call.send_offset rank)).map
        fun rank _ => call.layout.exchanged call.send_offset rank
  exact exchange.bind recorded

/-- The calls leave their results in the log in order. -/
theorem returnedOffsets_roundEvents
    {n : Nat}
    (calls : List (SizesCall n))
    (rank : Nat) :
    returnedOffsets (calls.flatMap fun call => roundEvents call rank) =
      calls.map fun call => call.layout.exchanged call.send_offset rank := by
  induction calls with
  | nil => rfl
  | cons call rest inductionHypothesis =>
      have silent : (call.layout.sizesEvents call.send_offset rank).filterMap
          returnedOffset = [] := by
        rw [List.filterMap_eq_nil_iff]
        intro event member
        simp only [Layout.sizesEvents, List.mem_append, List.mem_map,
          List.mem_singleton] at member
        rcases member with (⟨_, _, rfl⟩ | ⟨_, _, rfl⟩) | rfl <;> rfl
      unfold returnedOffsets at inductionHypothesis ⊢
      rw [List.flatMap_cons, List.filterMap_append, inductionHypothesis,
        roundEvents, List.filterMap_append, silent]
      rfl

/-- Whatever order the ranks run in, and however many calls they are apart: the
`k`-th call of a rank returns exactly the counts that the members of its group
pass to their `k`-th calls. All calls return on all ranks. -/
theorem communicate_sizes_rounds
    {n : Nat}
    (eager : Eagerness ranks)
    (calls : List (SizesCall n))
    (state : Configuration ranks (List (List Int)))
    (reached : Reaches (Configuration.step n eager)
      (Configuration.start (communicateRounds calls)) state) :
    (∀ rank, rank < n → ∀ (k : Nat) (recv_offset : List Int),
      (returnedOffsets (state rank).log)[k]? = some recv_offset →
      ∃ call : SizesCall n, calls[k]? = some call ∧
        recv_offset.length = (call.layout.group rank).size + 1 ∧
        recv_offset[0]? = some 0 ∧
        ∀ i, i < (call.layout.group rank).size →
          recv_offset.getD (i + 1) 0 - recv_offset.getD i 0 =
            (call.send_offset ((call.layout.group rank).get_global_rank i)).getD
                ((call.layout.group rank).get_local_idx + 1) 0 -
              (call.send_offset ((call.layout.group rank).get_global_rank i)).getD
                (call.layout.group rank).get_local_idx 0) ∧
    ∃ finish, Reaches (Configuration.step n eager) state finish ∧
      ∀ rank, rank < n →
        (returnedOffsets (finish rank).log).length = calls.length ∧
          ∃ results, (finish rank).process = .pure results := by
  have settles : Settles n eager (communicateRounds calls) _ _ :=
    Settles.of_returning (phase_communicateRounds calls)
  constructor
  · intro rank rankBound k recv_offset returned
    have grown := (settles.log_grows reached rankBound).filterMap returnedOffset
    obtain ⟨later, complete⟩ := grown
    have position : k < (returnedOffsets (state rank).log).length :=
      (List.getElem?_eq_some_iff.mp returned).1
    have found : (calls.map fun call =>
        call.layout.exchanged call.send_offset rank)[k]? = some recv_offset := by
      rw [← returnedOffsets_roundEvents calls rank, returnedOffsets, ← complete]
      exact (List.getElem?_append_left position).trans returned
    rw [List.getElem?_map] at found
    obtain ⟨call, callFound, rfl⟩ := Option.map_eq_some_iff.mp found
    refine ⟨call, callFound, by simp, rfl, fun i indexBound => ?_⟩
    exact call.layout.countAt_exchanged call.send_offset rank indexBound
  · obtain ⟨finish, tail, finished⟩ := settles.reaches_final reached
    refine ⟨finish, tail, fun rank rankBound => ⟨?_, ?_⟩⟩
    · rw [(finished rank rankBound).2, returnedOffsets_roundEvents, List.length_map]
    · exact ⟨_, (finished rank rankBound).1⟩

/-- The pairs of four ranks. -/
def pairs : Layout 4 := ⟨2, 1, Nat.succ_pos 3, by decide, by decide⟩

/-- All four ranks exchange sizes, and then each pair of them. -/
def pairedCalls : List (SizesCall 4) :=
  [⟨.whole 4 (Nat.succ_pos 3), fun rank => [0, 1, 3, 6, 10 * rank]⟩, ⟨pairs, fun _ => [0, 2, 5]⟩]

/-- The calls return on all ranks, with the sums of the sizes of four ranks first, and then
with those of two. -/
theorem communicate_sizes_rounds_paired :
    ∃ finish, Reaches (Configuration.step 4 fun _ _ _ _ => false)
      (Configuration.start (communicateRounds pairedCalls)) finish ∧
      ∀ rank, rank < 4 → (∃ results, (finish rank).process = .pure results) ∧
        ∃ whole pair, returnedOffsets (finish rank).log = [whole, pair] ∧
          whole.length = 5 ∧ pair.length = 3 ∧ whole[0]? = some 0 ∧ pair[0]? = some 0 ∧
          (∀ i, i < 4 → whole.getD (i + 1) 0 - whole.getD i 0 =
            ([0, 1, 3, 6, 10 * i] : List Int).getD (rank + 1) 0 -
              ([0, 1, 3, 6, 10 * i] : List Int).getD rank 0) ∧
          ∀ i, i < 2 → pair.getD (i + 1) 0 - pair.getD i 0 =
            ([0, 2, 5] : List Int).getD (pairs.local_idx rank + 1) 0 -
              ([0, 2, 5] : List Int).getD (pairs.local_idx rank) 0 := by
  have applied := communicate_sizes_rounds (fun _ _ _ _ => false) pairedCalls
  obtain ⟨finish, reached, returned⟩ := (applied _ (.refl _)).2
  refine ⟨finish, reached, fun rank rankBound => ?_⟩
  obtain ⟨length, results⟩ := returned rank rankBound
  obtain ⟨whole, pair, offsets⟩ := List.length_eq_two.mp length
  obtain ⟨first, firstCall, wholeLength, wholeHead, wholeSizes⟩ :=
    (applied finish reached).1 rank rankBound 0 whole (by rw [offsets]; rfl)
  obtain ⟨second, secondCall, pairLength, pairHead, pairSizes⟩ :=
    (applied finish reached).1 rank rankBound 1 pair (by rw [offsets]; rfl)
  obtain rfl := Option.some.inj firstCall
  obtain rfl := Option.some.inj secondCall
  simp only [Layout.size_group, Layout.group_size_whole, Layout.get_global_rank_group,
    Layout.get_local_idx_group, Layout.local_idx_whole (Nat.succ_pos 3) rankBound,
    Layout.member_whole (Nat.succ_pos 3) rankBound] at wholeLength wholeSizes pairLength pairSizes
  exact ⟨results, whole, pair, offsets, wholeLength, pairLength, wholeHead, pairHead, wholeSizes,
    pairSizes⟩

end DistributedJoin
