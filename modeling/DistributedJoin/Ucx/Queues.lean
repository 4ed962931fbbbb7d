import DistributedJoin.Ucx.BufferCommunicator

/-!
# Queues of messages

The messages of one tag that are on the way from one rank to another, by their bytes. Messages
are added at the end and taken from the front; that UCX reads the bytes of a message does not
change them.
-/

namespace DistributedJoin

namespace Ucx

open Device

namespace Rank

variable (rank : Rank)

/-- The bytes of a message. -/
def content (message : Message) : List Byte :=
  match message.payload with
  | .taken bytes => bytes
  | .pending place _ => rank.read place

/-- The bytes of messages with a tag. -/
def contents (tag : Tag) (messages : List Message) : List (List Byte) :=
  (messages.filter fun message => message.tag = tag).map rank.content

/-- The messages of a tag to a rank that have not been received. -/
def queue (dest : Nat) (tag : Tag) : List (List Byte) := rank.contents tag (rank.outgoing dest)

@[simp] theorem contents_append (tag : Tag) (messages others : List Message) :
    rank.contents tag (messages ++ others) =
      rank.contents tag messages ++ rank.contents tag others := by
  rw [contents, List.filter_append, List.map_append]
  rfl

theorem contents_single (message : Message) :
    rank.contents message.tag [message] = [rank.content message] := by
  simp [contents]

theorem contents_single_of_ne {tag : Tag} {message : Message} (different : message.tag ≠ tag) :
    rank.contents tag [message] = [] := by
  simp [contents, different]

/-- The bytes of messages depend on what is read for those that are pending. -/
theorem contents_congr
    {rank other : Rank}
    {messages : List Message}
    (same : ∀ message ∈ messages, ∀ place request,
      message.payload = .pending place request → rank.read place = other.read place)
    (tag : Tag) :
    rank.contents tag messages = other.contents tag messages := by
  apply List.map_congr_left
  intro message member
  obtain ⟨inside, _⟩ := List.mem_filter.mp member
  unfold content
  split
  · rfl
  · rename_i place request payload
    exact same message inside place request payload

/-- The message that is taken is the first of its tag, and no others change. -/
theorem contents_takeMessage
    {tag : Tag}
    {messages rest : List Message}
    {bytes : List Byte}
    (taken : takeMessage tag messages = some (bytes, rest)) :
    rank.contents tag messages = bytes :: rank.contents tag rest ∧
      ∀ other, other ≠ tag → rank.contents other rest = rank.contents other messages := by
  induction messages generalizing rest with
  | nil => contradiction
  | cons message messages inductionHypothesis =>
      unfold takeMessage at taken
      split at taken
      · rename_i same
        split at taken
        · rename_i payload
          obtain ⟨rfl, rfl⟩ := by simpa using taken
          refine ⟨?_, fun other different => ?_⟩
          · simp [contents, same, content, payload]
          · have apart : message.tag ≠ other := fun equal => different (equal.symm.trans same)
            simp [contents, apart]
        · contradiction
      · rename_i different
        obtain ⟨⟨found, others⟩, inner, same⟩ := Option.map_eq_some_iff.mp taken
        obtain ⟨rfl, rfl⟩ := by simpa using same
        obtain ⟨first, kept⟩ := inductionHypothesis inner
        refine ⟨?_, fun other apart => ?_⟩
        · simpa [contents, different] using first
        · have tail := kept other apart
          simp only [contents, List.filter_cons] at tail ⊢
          split
          · rw [List.map_cons, List.map_cons, tail]
          · exact tail

/-- Reading the bytes of a message keeps the bytes of all. -/
theorem contents_takeOver
    {position : Nat}
    {messages rest : List Message}
    {request : Handle}
    (taken : takeOver rank.read position messages = some (request, rest))
    (tag : Tag) :
    rank.contents tag rest = rank.contents tag messages := by
  induction messages generalizing position rest with
  | nil => cases position <;> contradiction
  | cons message messages inductionHypothesis =>
      cases position with
      | zero =>
          unfold takeOver at taken
          split at taken
          · contradiction
          · rename_i place found payload
            obtain ⟨rfl, rfl⟩ := by simpa using taken
            simp only [contents, List.filter_cons]
            split
            · rw [List.map_cons, List.map_cons]
              simp [content, payload]
            · rfl
      | succ position =>
          obtain ⟨⟨found, others⟩, inner, same⟩ := Option.map_eq_some_iff.mp taken
          obtain ⟨rfl, rfl⟩ := by simpa using same
          have tail := inductionHypothesis inner
          simp only [contents, List.filter_cons] at tail ⊢
          split
          · rw [List.map_cons, List.map_cons, tail]
          · exact tail

end Rank

/-- Reading the bytes of a message changes only this message. -/
theorem mem_takeOver
    {read : Place → List Byte}
    {position : Nat}
    {messages rest : List Message}
    {request : Handle}
    (taken : takeOver read position messages = some (request, rest)) :
    (∃ message ∈ messages, ∃ place, message.payload = .pending place request) ∧
      ∀ message ∈ rest, message ∈ messages ∨
        ∃ old ∈ messages, ∃ bytes, message = ⟨old.tag, .taken bytes⟩ := by
  induction messages generalizing position rest with
  | nil => cases position <;> contradiction
  | cons message messages inductionHypothesis =>
      cases position with
      | zero =>
          unfold takeOver at taken
          split at taken
          · contradiction
          · rename_i place found payload
            obtain ⟨rfl, rfl⟩ := by simpa using taken
            refine ⟨⟨message, List.mem_cons_self, place, payload⟩, fun other member => ?_⟩
            rcases List.mem_cons.mp member with rfl | later
            · exact .inr ⟨message, List.mem_cons_self, _, rfl⟩
            · exact .inl (List.mem_cons_of_mem _ later)
      | succ position =>
          obtain ⟨⟨found, others⟩, inner, same⟩ := Option.map_eq_some_iff.mp taken
          obtain ⟨rfl, rfl⟩ := by simpa using same
          obtain ⟨⟨sent, inside, pending⟩, kept⟩ := inductionHypothesis inner
          refine ⟨⟨sent, List.mem_cons_of_mem _ inside, pending⟩, fun other member => ?_⟩
          rcases List.mem_cons.mp member with rfl | later
          · exact .inl List.mem_cons_self
          · rcases kept other later with before | ⟨old, before, bytes⟩
            · exact .inl (List.mem_cons_of_mem _ before)
            · exact .inr ⟨old, List.mem_cons_of_mem _ before, bytes⟩

/-- Taking a message leaves the others. -/
theorem mem_takeMessage
    {tag : Tag}
    {messages rest : List Message}
    {bytes : List Byte}
    (taken : takeMessage tag messages = some (bytes, rest)) :
    (∃ message ∈ messages, message.tag = tag) ∧ ∀ message ∈ rest, message ∈ messages := by
  induction messages generalizing rest with
  | nil => contradiction
  | cons message messages inductionHypothesis =>
      unfold takeMessage at taken
      split at taken
      · rename_i same
        split at taken
        · obtain ⟨rfl, rfl⟩ := by simpa using taken
          exact ⟨⟨message, List.mem_cons_self, same⟩,
            fun other member => List.mem_cons_of_mem _ member⟩
        · contradiction
      · obtain ⟨⟨found, others⟩, inner, same⟩ := Option.map_eq_some_iff.mp taken
        obtain ⟨rfl, rfl⟩ := by simpa using same
        obtain ⟨⟨first, member, tagged⟩, kept⟩ := inductionHypothesis inner
        refine ⟨⟨first, List.mem_cons_of_mem _ member, tagged⟩, fun other present => ?_⟩
        rcases List.mem_cons.mp present with rfl | later
        · exact List.mem_cons_self
        · exact List.mem_cons_of_mem _ (kept other later)

/-- The first posted receive of a tag is taken. -/
theorem tag_of_takePosted
    {tag : Tag}
    {receives rest : List Posted}
    {posted : Posted}
    (taken : takePosted tag receives = some (posted, rest)) :
    posted.tag = tag := by
  induction receives generalizing rest with
  | nil => contradiction
  | cons receive receives inductionHypothesis =>
      unfold takePosted at taken
      split at taken
      · rename_i same
        obtain ⟨rfl, _⟩ := by simpa using taken
        exact same
      · obtain ⟨⟨found, others⟩, inner, same⟩ := Option.map_eq_some_iff.mp taken
        obtain ⟨rfl, _⟩ := by simpa using same
        exact inductionHypothesis inner

/-- The value of a tag: the user tag is in the upper half, and the rank in the lower half. -/
theorem toNat_get_comm_tag (tag : Int) {rank : Nat} (bound : rank < 2 ^ 32) :
    ((get_comm_tag tag rank).toNat : Int) = tag % 2 ^ 32 * 2 ^ 32 + rank := by
  have user : (BitVec.ofInt 64 tag <<< 32).toNat = (tag % 2 ^ 32).toNat <<< 32 := by
    rw [BitVec.toNat_shiftLeft, BitVec.toNat_ofInt, Nat.shiftLeft_eq, Nat.shiftLeft_eq]
    push_cast
    omega
  have source : (BitVec.ofNat 64 rank).toNat = rank := by
    rw [BitVec.toNat_ofNat]
    omega
  rw [get_comm_tag, BitVec.toNat_or, user, source, ← Nat.shiftLeft_add_eq_or_of_lt bound,
    Nat.shiftLeft_eq]
  push_cast
  omega

/-- Tags of different channels are different. -/
theorem get_comm_tag_inj
    {firstTag secondTag : Int}
    {firstRank secondRank : Nat}
    (firstLower : -2 ^ 31 ≤ firstTag)
    (firstUpper : firstTag < 2 ^ 31)
    (secondLower : -2 ^ 31 ≤ secondTag)
    (secondUpper : secondTag < 2 ^ 31)
    (firstBound : firstRank < 2 ^ 32)
    (secondBound : secondRank < 2 ^ 32)
    (same : get_comm_tag firstTag firstRank = get_comm_tag secondTag secondRank) :
    firstTag = secondTag ∧ firstRank = secondRank := by
  have first := toNat_get_comm_tag firstTag firstBound
  have second := toNat_get_comm_tag secondTag secondBound
  rw [same] at first
  omega

end Ucx

end DistributedJoin
