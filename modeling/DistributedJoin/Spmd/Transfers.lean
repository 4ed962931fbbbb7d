import DistributedJoin.Spmd.Collective

/-!
# Rounds of transfers

A round in which every rank sends and posts receives on one channel, in an order
of its own. Messages and receives of one pair of ranks are matched in order, so
the round can be completed if each pair has as many receives as messages.
-/

namespace Spmd

/-- An interface with one channel and no notes. -/
abbrev Interface.single (Message Request : Type) : Interface where
  Channel := Unit
  Message := fun _ => Message
  Request := fun _ => Request
  Note := Empty

/-- A send or a posted receive on one channel. -/
inductive Action (I : Interface) (channel : I.Channel) : Type
  | send (dest : Nat) (message : I.Message channel)
  | post (source : Nat) (request : I.Request channel)

variable {I : Interface} {α : Type} {channel : I.Channel}

namespace Action

/-- What an action leaves in the log. -/
def event : Action I channel → Event I
  | .send dest message => .sent channel dest message
  | .post source request => .posted channel source request

/-- The message that an action sends to a rank. -/
def messageTo (dest : Nat) : Action I channel → Option (I.Message channel)
  | .send peer message => if peer = dest then some message else none
  | .post _ _ => none

/-- The rank that an action posts a receive for, and the receive. -/
def posted : Action I channel → Option (Nat × I.Request channel)
  | .send _ _ => none
  | .post source request => some (source, request)

/-- The rank that an action involves. -/
def peer : Action I channel → Nat
  | .send dest _ => dest
  | .post source _ => source

end Action

/-- Perform actions in order. -/
def Process.perform : List (Action I channel) → Process I Unit
  | [] => .pure ()
  | .send dest message :: rest => .send channel dest message (perform rest)
  | .post source request :: rest => .post channel source request (perform rest)

/-- Number the items of every key, from given first numbers on. -/
def numbered {ν : Type} (first : Nat → Nat) : List (Nat × ν) → List (Nat × Nat × ν)
  | [] => []
  | (key, value) :: rest =>
      (key, first key, value) :: numbered (Function.update first key (first key + 1)) rest

section Numbered

variable {ν : Type}

/-- The numbers of the items of a key are consecutive. -/
theorem bounds_of_mem_numbered
    {first : Nat → Nat}
    {items : List (Nat × ν)}
    {key number : Nat}
    {value : ν}
    (member : (key, number, value) ∈ numbered first items) :
    first key ≤ number ∧
      number < first key + (items.filter fun item => item.1 = key).length := by
  induction items generalizing first with
  | nil => simp [numbered] at member
  | cons head tail inductionHypothesis =>
      obtain ⟨headKey, headValue⟩ := head
      rcases List.mem_cons.mp member with equal | rest
      · obtain ⟨rfl, rfl, rfl⟩ := by simpa using equal
        simp
      · obtain ⟨lower, upper⟩ := inductionHypothesis rest
        by_cases same : headKey = key
        · subst same
          rw [Function.update_self] at lower upper
          simp only [decide_true, List.filter_cons_of_pos, List.length_cons]
          omega
        · rw [Function.update_of_ne (Ne.symm same)] at lower upper
          simpa [same] using ⟨lower, upper⟩

/-- Items keep their keys. -/
theorem key_of_mem_numbered
    {first : Nat → Nat}
    {items : List (Nat × ν)}
    {key number : Nat}
    {value : ν}
    (member : (key, number, value) ∈ numbered first items) :
    (key, value) ∈ items := by
  induction items generalizing first with
  | nil => simp [numbered] at member
  | cons head tail inductionHypothesis =>
      rcases List.mem_cons.mp member with equal | rest
      · obtain ⟨rfl, _, rfl⟩ := by simpa using equal
        simp
      · exact List.mem_cons_of_mem _ (inductionHypothesis rest)

/-- Numbering from other first numbers moves the numbers. -/
theorem numbered_eq_map
    (first : Nat → Nat)
    (items : List (Nat × ν)) :
    numbered first items = (numbered (fun _ => 0) items).map fun item =>
      (item.1, first item.1 + item.2.1, item.2.2) := by
  suffices general : ∀ start : Nat → Nat,
      numbered (fun key => first key + start key) items =
        (numbered start items).map fun item =>
          (item.1, first item.1 + item.2.1, item.2.2) from general fun _ => 0
  induction items with
  | nil => exact fun _ => rfl
  | cons head tail inductionHypothesis =>
      intro start
      have moved : Function.update (fun key => first key + start key) head.1
            (first head.1 + start head.1 + 1) =
          fun key => first key +
            Function.update start head.1 (start head.1 + 1) key := by
        funext key
        by_cases same : key = head.1
        · subst same
          simp only [Function.update_self]
          omega
        · simp only [Function.update_of_ne same]
      rw [numbered, numbered, List.map_cons, moved, inductionHypothesis]

end Numbered

/-- The messages to a rank among some actions. -/
def messagesTo (dest : Nat) (actions : List (Action I channel)) :
    List (I.Message channel) :=
  actions.filterMap (Action.messageTo dest)

/-- The receives among some actions. -/
def receives (actions : List (Action I channel)) : List (Nat × I.Request channel) :=
  actions.filterMap Action.posted

@[simp] theorem receives_nil : receives ([] : List (Action I channel)) = [] := rfl

@[simp] theorem receives_send
    (dest : Nat)
    (message : I.Message channel)
    (rest : List (Action I channel)) :
    receives (.send dest message :: rest) = receives rest := rfl

@[simp] theorem receives_post
    (source : Nat)
    (request : I.Request channel)
    (rest : List (Action I channel)) :
    receives (.post source request :: rest) = (source, request) :: receives rest := rfl

/-- A numbered receive has been posted. -/
theorem post_of_mem_numbered
    {first : Nat → Nat}
    {actions : List (Action I channel)}
    {source number : Nat}
    {request : I.Request channel}
    (member : (source, number, request) ∈ numbered first (receives actions)) :
    .post source request ∈ actions := by
  obtain ⟨action, actionMember, posted⟩ :=
    List.mem_filterMap.mp (key_of_mem_numbered member)
  cases action with
  | send dest message => simp [Action.posted] at posted
  | post peer other =>
      obtain ⟨rfl, rfl⟩ := by simpa [Action.posted] using posted
      exact actionMember

/-- What arrives for the receives of a rank: for each receive the message of its
source with the same number. -/
def deliveries
    (actions : Nat → List (Action I channel))
    (rank : Nat) : List (I.Request channel × I.Message channel) :=
  (numbered (fun _ => 0) (receives (actions rank))).filterMap fun item =>
    (messagesTo rank (actions item.1))[item.2.1]?.map fun message =>
      (item.2.2, message)

/-- Each pair of ranks has as many receives as messages. -/
structure Matched (n : Nat) (actions : Nat → List (Action I channel)) : Prop where
  bounded : ∀ rank, rank < n → ∀ action ∈ actions rank, action.peer < n
  balanced : ∀ source dest, source < n → dest < n →
    (messagesTo dest (actions source)).length =
      ((receives (actions dest)).filter fun item => item.1 = source).length

namespace Port

/-- Record one action. -/
def act (port : Port I) : Action I channel → Port I
  | .send dest message => port.send channel dest message
  | .post source request => port.post channel source request

/-- Record a list of actions. -/
def perform (port : Port I) (actions : List (Action I channel)) : Port I :=
  actions.foldl act port

@[simp] theorem perform_nil (port : Port I) :
    port.perform ([] : List (Action I channel)) = port := rfl

@[simp] theorem perform_cons
    (port : Port I)
    (action : Action I channel)
    (rest : List (Action I channel)) :
    port.perform (action :: rest) = (port.act action).perform rest := rfl

theorem act_sent (port : Port I) (action : Action I channel) (dest : Nat) :
    (port.act action).sent channel dest =
      port.sent channel dest ++ (action.messageTo dest).toList := by
  cases action with
  | send peer message =>
      by_cases same : peer = dest
      · subst same
        simp [act, send, Action.messageTo]
      · simp [act, send, Action.messageTo, same, Ne.symm same]
  | post source request => simp [act, post, Action.messageTo]

theorem perform_sent (port : Port I) (actions : List (Action I channel)) (dest : Nat) :
    (port.perform actions).sent channel dest =
      port.sent channel dest ++ messagesTo dest actions := by
  induction actions generalizing port with
  | nil => simp [messagesTo]
  | cons action rest inductionHypothesis =>
      rw [perform_cons, inductionHypothesis, act_sent, List.append_assoc]
      cases found : action.messageTo dest with
      | none => simp [messagesTo, found]
      | some message => simp [messagesTo, found]

theorem perform_posted
    (port : Port I)
    (actions : List (Action I channel))
    (source : Nat) :
    (port.perform actions).posted channel source =
      port.posted channel source +
        ((receives actions).filter fun item => item.1 = source).length := by
  induction actions generalizing port with
  | nil => simp
  | cons action rest inductionHypothesis =>
      rw [perform_cons, inductionHypothesis]
      cases action with
      | send dest message => simp [act, send]
      | post peer request =>
          by_cases same : peer = source
          · subst same
            simp [act, post]
            omega
          · simp [act, post, same, Ne.symm same]

theorem perform_receiving (port : Port I) (actions : List (Action I channel)) :
    (port.perform actions).receiving channel =
      port.receiving channel ++ numbered (port.posted channel) (receives actions) := by
  induction actions generalizing port with
  | nil => simp [numbered]
  | cons action rest inductionHypothesis =>
      rw [perform_cons, inductionHypothesis]
      cases action with
      | send dest message => simp [act, send]
      | post source request => simp [act, post, numbered]

/-- The sends not yet waited for are among the messages sent. -/
theorem lt_of_mem_perform_sending
    {port : Port I}
    {actions : List (Action I channel)}
    {pending : Nat × Nat}
    (member : pending ∈ (port.perform actions).sending channel) :
    pending ∈ port.sending channel ∨
      (∃ message, .send pending.1 message ∈ actions) ∧
        pending.2 < ((port.perform actions).sent channel pending.1).length := by
  induction actions generalizing port with
  | nil => exact .inl member
  | cons action rest inductionHypothesis =>
      rcases inductionHypothesis member with earlier | ⟨⟨message, later⟩, bound⟩
      · cases action with
        | post source request => exact .inl earlier
        | send dest message =>
            simp only [act, send, Function.update_self, List.mem_append,
              List.mem_singleton] at earlier
            rcases earlier with old | rfl
            · exact .inl old
            · refine .inr ⟨⟨message, by simp⟩, ?_⟩
              rw [perform_sent]
              simp [messagesTo, Action.messageTo]
      · exact .inr ⟨⟨message, List.mem_cons_of_mem _ later⟩, bound⟩

theorem perform_of_ne
    (port : Port I)
    {other : I.Channel}
    (different : other ≠ channel)
    (actions : List (Action I channel)) :
    (port.perform actions).sent other = port.sent other ∧
      (port.perform actions).posted other = port.posted other ∧
      (port.perform actions).sending other = port.sending other ∧
      (port.perform actions).receiving other = port.receiving other := by
  induction actions generalizing port with
  | nil => exact ⟨rfl, rfl, rfl, rfl⟩
  | cons action rest inductionHypothesis =>
      obtain ⟨sent, posted, sending, receiving⟩ := inductionHypothesis (port.act action)
      rw [perform_cons, sent, posted, sending, receiving]
      cases action with
      | send dest message => simp [act, send, different]
      | post source request => simp [act, post, different]

end Port

/-- A rank can perform its actions on its own. -/
theorem Configuration.drives_perform
    {n : Nat}
    {eager : Eagerness I}
    {rank : Nat}
    (rankBound : rank < n)
    (actions : List (Action I channel))
    (continuation : Unit → Process I α)
    (configuration : Configuration I α)
    (atStart : (configuration rank).process =
      Process.perform actions >>= continuation) :
    Drives n eager configuration rank
      ⟨continuation (), (configuration rank).port.perform actions,
        (configuration rank).log ++ actions.map Action.event⟩ := by
  induction actions generalizing configuration with
  | nil =>
      have finished : configuration rank =
          ⟨continuation (),
            (configuration rank).port.perform ([] : List (Action I channel)),
            (configuration rank).log ++ []⟩ := by
        rw [List.append_nil]
        exact congrArg
          (Endpoint.mk · (configuration rank).port (configuration rank).log)
          atStart
      rw [List.map_nil, ← finished]
      exact .refl configuration rank
  | cons action rest inductionHypothesis =>
      let next : Endpoint I α :=
        ⟨Process.perform rest >>= continuation, (configuration rank).port.act action,
          (configuration rank).log ++ [action.event]⟩
      have moved : advance eager configuration rank = some next := by
        unfold advance
        rw [atStart]
        cases action <;> rfl
      refine (Drives.of_advance rankBound moved).trans ?_
      have others := inductionHypothesis (Function.update configuration rank next)
        (by simp [next])
      simpa [next] using others

/-- The messages of matched actions are delivered. -/
theorem map_arrival_numbered
    {n : Nat}
    {actions : Nat → List (Action I channel)}
    (matched : Matched n actions)
    {configuration final : Configuration I α}
    {arrivals : Arrivals I}
    (resolved : Resolved n configuration arrivals)
    (sent : ∀ source, source < n → ∀ dest,
      (final source).port.sent channel dest =
        (configuration source).port.sent channel dest ++
          messagesTo dest (actions source))
    {rank : Nat}
    (rankBound : rank < n) :
    (numbered ((configuration rank).port.posted channel) (receives (actions rank))).map
        (final.arrival rank channel) =
      (deliveries actions rank).map some := by
  let found : Nat × Nat × I.Request channel →
      Option (I.Request channel × I.Message channel) := fun item =>
    (messagesTo rank (actions item.1))[item.2.1]?.map fun message => (item.2.2, message)
  have sources : ∀ item ∈ numbered (fun _ => 0) (receives (actions rank)),
      item.1 < n := by
    rintro ⟨source, number, request⟩ member
    exact matched.bounded rank rankBound _ (post_of_mem_numbered member)
  have present : ∀ item ∈ numbered (fun _ => 0) (receives (actions rank)),
      (found item).isSome := by
    rintro ⟨source, number, request⟩ member
    obtain ⟨_, upper⟩ := bounds_of_mem_numbered member
    rw [← matched.balanced source rank (sources _ member) rankBound,
      Nat.zero_add] at upper
    simp [found, upper]
  have looked : ∀ item ∈ numbered (fun _ => 0) (receives (actions rank)),
      final.arrival rank channel
        (item.1, (configuration rank).port.posted channel item.1 + item.2.1, item.2.2) =
          found item := by
    intro item member
    have sourceBound := sources item member
    unfold Configuration.arrival
    rw [sent item.1 sourceBound, ← resolved.balanced channel item.1 rank sourceBound
      rankBound, List.getElem?_append_right (Nat.le_add_right _ _), Nat.add_sub_cancel_left]
  rw [numbered_eq_map, List.map_map]
  calc
    _ = (numbered (fun _ => 0) (receives (actions rank))).map found :=
      List.map_congr_left looked
    _ = (deliveries actions rank).map some := by
      change _ = (List.filterMap found _).map some
      generalize numbered (fun _ => 0) (receives (actions rank)) = items at present
      induction items with
      | nil => rfl
      | cons head tail inductionHypothesis =>
          obtain ⟨value, valueEquality⟩ := Option.isSome_iff_exists.mp
            (present head (by simp))
          rw [List.map_cons, List.filterMap_cons_some valueEquality, List.map_cons,
            valueEquality, inductionHypothesis fun item member =>
              present item (by simp [member])]

section Renaming

variable {J : Interface} {other : J.Channel}

/-- Rename what an action carries. -/
def Action.map
    (message : I.Message channel → J.Message other)
    (request : I.Request channel → J.Request other) :
    Action I channel → Action J other
  | .send dest value => .send dest (message value)
  | .post source value => .post source (request value)

variable
  (message : I.Message channel → J.Message other)
  (request : I.Request channel → J.Request other)

theorem messagesTo_map (dest : Nat) (actions : List (Action I channel)) :
    messagesTo dest (actions.map (Action.map message request)) =
      (messagesTo dest actions).map message := by
  unfold messagesTo
  rw [List.filterMap_map, List.map_filterMap]
  apply List.filterMap_congr
  intro action _
  cases action with
  | send peer value =>
      by_cases same : peer = dest
      · simp [Action.map, Action.messageTo, same]
      · simp [Action.map, Action.messageTo, same]
  | post source value => rfl

theorem receives_map (actions : List (Action I channel)) :
    receives (actions.map (Action.map message request)) =
      (receives actions).map fun item => (item.1, request item.2) := by
  unfold receives
  rw [List.filterMap_map, List.map_filterMap]
  apply List.filterMap_congr
  intro action _
  cases action <;> rfl

theorem numbered_map
    {ν μ : Type}
    (change : ν → μ)
    (first : Nat → Nat)
    (items : List (Nat × ν)) :
    numbered first (items.map fun item => (item.1, change item.2)) =
      (numbered first items).map fun item => (item.1, item.2.1, change item.2.2) := by
  induction items generalizing first with
  | nil => rfl
  | cons head tail inductionHypothesis =>
      simp only [List.map_cons, numbered, inductionHypothesis]

/-- Renamed messages arrive for renamed receives. -/
theorem deliveries_map (actions : Nat → List (Action I channel)) (rank : Nat) :
    deliveries (fun peer => (actions peer).map (Action.map message request)) rank =
      (deliveries actions rank).map fun pair => (request pair.1, message pair.2) := by
  unfold deliveries
  rw [receives_map, numbered_map, List.filterMap_map, List.map_filterMap]
  apply List.filterMap_congr
  intro item _
  rw [Function.comp_apply, messagesTo_map, List.getElem?_map, Option.map_map, Option.map_map]
  rfl

/-- Renaming keeps every message matched. -/
theorem Matched.map
    {n : Nat}
    {actions : Nat → List (Action I channel)}
    (matched : Matched n actions) :
    Matched n fun rank => (actions rank).map (Action.map message request) where
  bounded := by
    intro rank rankBound action member
    obtain ⟨original, originalMember, rfl⟩ := List.mem_map.mp member
    have bound := matched.bounded rank rankBound original originalMember
    cases original <;> exact bound
  balanced := by
    intro source dest sourceBound destBound
    rw [messagesTo_map, receives_map, List.length_map, List.filter_map, List.length_map]
    exact matched.balanced source dest sourceBound destBound

end Renaming

/-- The number of an item is its position among the items of its key. -/
theorem getElem?_of_mem_numbered
    {ν : Type}
    {first : Nat → Nat}
    {items : List (Nat × ν)}
    {key number : Nat}
    {value : ν}
    (member : (key, number, value) ∈ numbered first items) :
    (items.filter fun item => item.1 = key)[number - first key]? = some (key, value) := by
  induction items generalizing first with
  | nil => simp [numbered] at member
  | cons head tail inductionHypothesis =>
      obtain ⟨headKey, headValue⟩ := head
      rcases List.mem_cons.mp member with equal | rest
      · obtain ⟨rfl, rfl, rfl⟩ := by simpa using equal
        simp
      · have later := inductionHypothesis rest
        obtain ⟨lower, _⟩ := bounds_of_mem_numbered rest
        by_cases same : headKey = key
        · subst same
          rw [Function.update_self] at later lower
          have position : number - first headKey = number - (first headKey + 1) + 1 := by
            omega
          rw [List.filter_cons_of_pos (by simp), position, List.getElem?_cons_succ]
          exact later
        · rw [Function.update_of_ne (Ne.symm same)] at later
          rw [List.filter_cons_of_neg (by simpa using same)]
          exact later

/-- What arrives has been sent to the rank. -/
theorem mem_deliveries
    {actions : Nat → List (Action I channel)}
    {rank : Nat}
    {pair : I.Request channel × I.Message channel}
    (member : pair ∈ deliveries actions rank) :
    ∃ source, .post source pair.1 ∈ actions rank ∧ .send rank pair.2 ∈ actions source := by
  obtain ⟨⟨source, number, request⟩, itemMember, arrived⟩ := List.mem_filterMap.mp member
  obtain ⟨message, found, rfl⟩ := Option.map_eq_some_iff.mp arrived
  obtain ⟨sent, sentMember, sends⟩ := List.mem_filterMap.mp (List.mem_of_getElem? found)
  refine ⟨source, post_of_mem_numbered itemMember, ?_⟩
  cases sent with
  | post peer other => simp [Action.messageTo] at sends
  | send dest other =>
      obtain ⟨rfl, rfl⟩ := by simpa [Action.messageTo] using sends
      exact sentMember

/-- The values that messages and receives of each pair of ranks carry agree, one
by one. -/
structure Agrees
    {κ : Type}
    (n : Nat)
    (sent : I.Message channel → κ)
    (expected : I.Request channel → κ)
    (actions : Nat → List (Action I channel)) : Prop where
  bounded : ∀ rank, rank < n → ∀ action ∈ actions rank, action.peer < n
  agree : ∀ source dest, source < n → dest < n →
    (messagesTo dest (actions source)).map sent =
      ((receives (actions dest)).filter fun item => item.1 = source).map
        fun item => expected item.2

namespace Agrees

variable {κ : Type} {n : Nat} {sent : I.Message channel → κ}
  {expected : I.Request channel → κ} {actions : Nat → List (Action I channel)}

theorem matched (agrees : Agrees n sent expected actions) : Matched n actions where
  bounded := agrees.bounded
  balanced := by
    intro source dest sourceBound destBound
    have lengths := congrArg List.length (agrees.agree source dest sourceBound destBound)
    rwa [List.length_map, List.length_map] at lengths

/-- Values that agree after renaming agree before. -/
theorem of_map
    {J : Interface}
    {other : J.Channel}
    {message : I.Message channel → J.Message other}
    {request : I.Request channel → J.Request other}
    {sent : J.Message other → κ}
    {expected : J.Request other → κ}
    (agrees : Agrees n sent expected fun rank =>
      (actions rank).map (Action.map message request)) :
    Agrees n (fun value => sent (message value)) (fun value => expected (request value))
      actions where
  bounded := by
    intro rank rankBound action member
    have bound := agrees.bounded rank rankBound _ (List.mem_map_of_mem member)
    cases action <;> exact bound
  agree := by
    intro source dest sourceBound destBound
    have same := agrees.agree source dest sourceBound destBound
    rw [messagesTo_map, receives_map, List.filter_map, List.map_map, List.map_map] at same
    exact same

/-- A message that arrives carries what the receive expects. -/
theorem expected_eq
    (agrees : Agrees n sent expected actions)
    {rank : Nat}
    (rankBound : rank < n)
    {pair : I.Request channel × I.Message channel}
    (member : pair ∈ deliveries actions rank) :
    sent pair.2 = expected pair.1 := by
  obtain ⟨⟨source, number, request⟩, itemMember, arrived⟩ := List.mem_filterMap.mp member
  obtain ⟨message, found, rfl⟩ := Option.map_eq_some_iff.mp arrived
  have sourceBound : source < n :=
    agrees.bounded rank rankBound _ (post_of_mem_numbered itemMember)
  have position := getElem?_of_mem_numbered itemMember
  rw [Nat.sub_zero] at position
  have both := congrArg (fun values : List κ => values[number]?)
    (agrees.agree source rank sourceBound rankBound)
  simp only [List.getElem?_map, found, position, Option.map_some] at both
  exact Option.some.inj both

end Agrees

/-- Every receive gets a message. -/
theorem Matched.deliveries_fst
    {n : Nat}
    {actions : Nat → List (Action I channel)}
    (matched : Matched n actions)
    {rank : Nat}
    (rankBound : rank < n) :
    (deliveries actions rank).map (·.1) = (receives (actions rank)).map (·.2) := by
  have present : ∀ item ∈ numbered (fun _ => 0) (receives (actions rank)),
      ∃ message, (messagesTo rank (actions item.1))[item.2.1]? = some message := by
    rintro ⟨source, number, request⟩ member
    obtain ⟨_, upper⟩ := bounds_of_mem_numbered member
    have sourceBound : source < n :=
      matched.bounded rank rankBound _ (post_of_mem_numbered member)
    rw [← matched.balanced source rank sourceBound rankBound, Nat.zero_add] at upper
    exact ⟨_, List.getElem?_eq_getElem upper⟩
  have requests : ∀ (first : Nat → Nat) (items : List (Nat × I.Request channel)),
      (numbered first items).map (·.2.2) = items.map (·.2) := by
    intro first items
    induction items generalizing first with
    | nil => rfl
    | cons head tail inductionHypothesis =>
        rw [numbered, List.map_cons, List.map_cons, inductionHypothesis]
  rw [← requests (fun _ => 0), deliveries, List.map_filterMap, ← List.filterMap_eq_map]
  apply List.filterMap_congr
  intro item member
  obtain ⟨message, found⟩ := present item member
  rw [found]
  rfl

/-- Every rank performs its own actions. -/
theorem Phase.perform
    {n : Nat}
    {eager : Eagerness I}
    {before : Arrivals I}
    {actions : Nat → List (Action I channel)}
    (matched : Matched n actions) :
    Phase n eager before (fun rank => Process.perform (actions rank))
      (before.deliver channel (deliveries actions)) (.ok fun _ => ())
      (fun rank => (actions rank).map Action.event) := by
  intro β continuation configuration resolved atStart
  have drives : ∀ rank, rank < n →
      Configuration.Drives n eager configuration rank
        ⟨continuation rank (), (configuration rank).port.perform (actions rank),
          (configuration rank).log ++ (actions rank).map Action.event⟩ :=
    fun rank rankBound => Configuration.drives_perform rankBound (actions rank)
      (continuation rank) configuration (atStart rank rankBound)
  obtain ⟨final, reached, moved, _⟩ := Configuration.reaches_all drives
  have extended := Configuration.extends_of_reaches reached
  have sent : ∀ source, source < n → ∀ dest,
      (final source).port.sent channel dest =
        (configuration source).port.sent channel dest ++
          messagesTo dest (actions source) := by
    intro source sourceBound dest
    rw [moved source sourceBound, Port.perform_sent]
  have posted : ∀ dest, dest < n → ∀ source,
      (final dest).port.posted channel source =
        (configuration dest).port.posted channel source +
          ((receives (actions dest)).filter fun item => item.1 = source).length := by
    intro dest destBound source
    rw [moved dest destBound, Port.perform_posted]
  have balanced : ∀ source dest, source < n → dest < n →
      ((final source).port.sent channel dest).length =
        (final dest).port.posted channel source := by
    intro source dest sourceBound destBound
    rw [sent source sourceBound, posted dest destBound, List.length_append,
      resolved.balanced channel source dest sourceBound destBound,
      matched.balanced source dest sourceBound destBound]
  refine ⟨final, reached, ⟨?_, ?_, ?_⟩, fun rank rankBound => ?_⟩
  · intro other source dest sourceBound destBound
    by_cases same : other = channel
    · subst same
      exact balanced source dest sourceBound destBound
    · rw [moved source sourceBound, moved dest destBound,
        (Port.perform_of_ne _ same _).1, (Port.perform_of_ne _ same _).2.1]
      exact resolved.balanced other source dest sourceBound destBound
  · intro other rank rankBound pending member
    by_cases same : other = channel
    · subst same
      rw [moved rank rankBound] at member
      rcases Port.lt_of_mem_perform_sending member with earlier | ⟨⟨message, sends⟩, bound⟩
      · exact (resolved.sends_matched other rank rankBound pending
          earlier).trans_le ((extended pending.1).2 other rank)
      · have destBound : pending.1 < n := matched.bounded rank rankBound _ sends
        rw [← balanced rank pending.1 rankBound destBound, moved rank rankBound]
        exact bound
    · rw [moved rank rankBound, (Port.perform_of_ne _ same _).2.2.1] at member
      exact (resolved.sends_matched other rank rankBound pending
        member).trans_le ((extended pending.1).2 other rank)
  · intro other rank rankBound
    by_cases same : other = channel
    · subst same
      rw [moved rank rankBound, Port.perform_receiving, List.map_append,
        map_arrival_numbered matched resolved sent rankBound,
        Configuration.arrivals_mono extended
          (resolved.receives_matched other rank rankBound), ← List.map_append]
      simp only [Arrivals.deliver, Function.update_self]
    · rw [moved rank rankBound, (Port.perform_of_ne _ same _).2.2.2]
      simp only [Arrivals.deliver, Function.update_of_ne same]
      exact Configuration.arrivals_mono extended
        (resolved.receives_matched other rank rankBound)
  · rw [moved rank rankBound]
    exact ⟨rfl, rfl⟩

/-- Every rank performs its own actions and waits for what it has posted. -/
theorem Phase.perform_await
    {n : Nat}
    {eager : Eagerness I}
    {before : Arrivals I}
    {actions : Nat → List (Action I channel)}
    (matched : Matched n actions)
    (quiet : before channel = fun _ => []) :
    Phase n eager before
      (fun rank => Process.perform (actions rank) >>= fun _ => Process.await channel)
      before (.ok (deliveries actions))
      (fun rank => (actions rank).map Action.event ++ [.waited channel]) := by
  have waiting : Phase n eager (before.deliver channel (deliveries actions))
      (fun _ => Process.await channel) _ _ _ := Phase.await channel
  rw [Arrivals.settle_deliver quiet, Arrivals.deliver_quiet quiet] at waiting
  exact (Phase.perform matched).bind waiting

section Rooted

variable (n : Nat) (message : Nat → I.Message channel) (request : Nat → I.Request channel)

/-- All ranks but the root. -/
def workers : List Nat := List.range' 1 (n - 1)

/-- The root sends a message to every worker. -/
def scatter (rank : Nat) : List (Action I channel) :=
  if rank = 0 then (workers n).map fun worker => .send worker (message worker)
  else [.post 0 (request rank)]

/-- Every worker sends a message to the root. -/
def gather (rank : Nat) : List (Action I channel) :=
  if rank = 0 then (workers n).map fun worker => .post worker (request worker)
  else [.send 0 (message rank)]

variable {n}

theorem mem_workers {rank : Nat} : rank ∈ workers n ↔ rank ≠ 0 ∧ rank < n := by
  rw [workers, List.mem_range'_1]
  omega

theorem nodup_workers : (workers n).Nodup := List.nodup_range' 1 Nat.one_pos

/-- The root and the workers are all ranks. -/
theorem cons_workers (n_pos : 0 < n) : 0 :: workers n = List.range n := by
  obtain ⟨count, rfl⟩ := Nat.exists_eq_succ_of_ne_zero (Nat.pos_iff_ne_zero.mp n_pos)
  rw [List.range_eq_range', List.range'_succ]
  rfl

/-- Of a family, the member with a given index. -/
theorem filterMap_of_nodup
    {κ ν : Type}
    [DecidableEq κ]
    {keys : List κ}
    (distinct : keys.Nodup)
    (value : κ → ν)
    (key : κ) :
    (keys.filterMap fun other => if other = key then some (value other) else none) =
      if key ∈ keys then [value key] else [] := by
  induction keys with
  | nil => rfl
  | cons head tail inductionHypothesis =>
      rw [List.nodup_cons] at distinct
      by_cases same : head = key
      · subst same
        simp [inductionHypothesis distinct.2, distinct.1]
      · simp [same, Ne.symm same, inductionHypothesis distinct.2]

theorem numbered_of_nodup
    {ν : Type}
    (first : Nat → Nat)
    {items : List (Nat × ν)}
    (distinct : (items.map (·.1)).Nodup) :
    numbered first items = items.map fun item => (item.1, first item.1, item.2) := by
  induction items generalizing first with
  | nil => rfl
  | cons head tail inductionHypothesis =>
      rw [List.map_cons, List.nodup_cons] at distinct
      rw [numbered, inductionHypothesis _ distinct.2, List.map_cons]
      congr 1
      apply List.map_congr_left
      intro item member
      have different : item.1 ≠ head.1 := fun same =>
        distinct.1 (same ▸ List.mem_map_of_mem member)
      rw [Function.update_of_ne different]

/-- Only what the root sends and what a worker receives matters. -/
theorem scatter_congr
    {message other : Nat → I.Message channel}
    {request otherRequest : Nat → I.Request channel}
    {rank : Nat}
    (sends : rank = 0 → message = other)
    (posts : rank ≠ 0 → request rank = otherRequest rank) :
    scatter n message request rank = scatter n other otherRequest rank := by
  unfold scatter
  split
  · rename_i root
    rw [sends root]
  · rename_i worker
    rw [posts worker]

/-- Only what a worker sends and what the root receives matters. -/
theorem gather_congr
    {message other : Nat → I.Message channel}
    {request otherRequest : Nat → I.Request channel}
    {rank : Nat}
    (sends : rank ≠ 0 → message rank = other rank)
    (posts : rank = 0 → request = otherRequest) :
    gather n message request rank = gather n other otherRequest rank := by
  unfold gather
  split
  · rename_i root
    rw [posts root]
  · rename_i worker
    rw [sends worker]

theorem messagesTo_scatter_root (dest : Nat) :
    messagesTo dest (scatter n message request 0) =
      if dest ∈ workers n then [message dest] else [] := by
  rw [scatter, if_pos rfl, messagesTo, List.filterMap_map]
  exact filterMap_of_nodup nodup_workers message dest

theorem receives_scatter_root : receives (scatter n message request 0) = [] := by
  rw [scatter, if_pos rfl, receives, List.filterMap_map, List.filterMap_eq_nil_iff]
  intro worker _
  rfl

/-- The messages of the root can be received. -/
theorem matched_scatter (n_pos : 0 < n) : Matched n (scatter n message request) where
  bounded := by
    intro rank rankBound action member
    unfold scatter at member
    split at member
    · obtain ⟨worker, workerMember, rfl⟩ := List.mem_map.mp member
      exact (mem_workers.mp workerMember).2
    · obtain rfl := List.mem_singleton.mp member
      exact n_pos
  balanced := by
    intro source dest sourceBound destBound
    by_cases fromRoot : source = 0
    · subst fromRoot
      rw [messagesTo_scatter_root]
      by_cases toRoot : dest = 0
      · subst toRoot
        rw [receives_scatter_root, if_neg (by simp [mem_workers])]
        rfl
      · rw [if_pos (mem_workers.mpr ⟨toRoot, destBound⟩), scatter, if_neg toRoot]
        rfl
    · rw [scatter, if_neg fromRoot]
      by_cases toRoot : dest = 0
      · subst toRoot
        rw [receives_scatter_root]
        rfl
      · rw [scatter, if_neg toRoot]
        simp [messagesTo, Action.messageTo, Ne.symm fromRoot]

theorem deliveries_scatter {rank : Nat} (rankBound : rank < n) :
    deliveries (scatter n message request) rank =
      if rank = 0 then [] else [(request rank, message rank)] := by
  unfold deliveries
  by_cases root : rank = 0
  · subst root
    rw [receives_scatter_root, if_pos rfl]
    rfl
  · have posted : receives (scatter n message request rank) = [(0, request rank)] := by
      rw [scatter, if_neg root]
      rfl
    rw [posted, if_neg root]
    simp [numbered, messagesTo_scatter_root, mem_workers, root, rankBound]

theorem receives_gather_root :
    receives (gather n message request 0) =
      (workers n).map fun worker => (worker, request worker) := by
  rw [gather, if_pos rfl, receives, List.filterMap_map, ← List.filterMap_eq_map]
  rfl

theorem messagesTo_gather_root (dest : Nat) :
    messagesTo dest (gather n message request 0) = [] := by
  rw [gather, if_pos rfl, messagesTo, List.filterMap_map, List.filterMap_eq_nil_iff]
  intro worker _
  rfl

theorem messagesTo_gather_worker
    {rank : Nat}
    (worker : rank ≠ 0)
    (dest : Nat) :
    messagesTo dest (gather n message request rank) =
      if dest = 0 then [message rank] else [] := by
  rw [gather, if_neg worker]
  by_cases root : dest = 0
  · subst root
    rfl
  · simp [messagesTo, Action.messageTo, root, Ne.symm root]

/-- The messages of the workers can be received. -/
theorem matched_gather (n_pos : 0 < n) : Matched n (gather n message request) where
  bounded := by
    intro rank rankBound action member
    unfold gather at member
    split at member
    · obtain ⟨worker, workerMember, rfl⟩ := List.mem_map.mp member
      exact (mem_workers.mp workerMember).2
    · obtain rfl := List.mem_singleton.mp member
      exact n_pos
  balanced := by
    intro source dest sourceBound destBound
    by_cases toRoot : dest = 0
    · subst toRoot
      rw [receives_gather_root]
      by_cases fromRoot : source = 0
      · subst fromRoot
        rw [messagesTo_gather_root, filter_map_pair_of_notMem _ (by simp [mem_workers])]
        rfl
      · rw [messagesTo_gather_worker message request fromRoot, if_pos rfl,
          filter_map_pair_of_mem nodup_workers _ (mem_workers.mpr ⟨fromRoot, sourceBound⟩)]
        rfl
    · have silent : receives (gather n message request dest) = [] := by
        rw [gather, if_neg toRoot]
        rfl
      rw [silent]
      by_cases fromRoot : source = 0
      · subst fromRoot
        rw [messagesTo_gather_root]
        rfl
      · rw [messagesTo_gather_worker message request fromRoot, if_neg toRoot]
        rfl

theorem deliveries_gather {rank : Nat} :
    deliveries (gather n message request) rank =
      if rank = 0 then (workers n).map fun worker => (request worker, message worker)
      else [] := by
  unfold deliveries
  by_cases root : rank = 0
  · subst root
    have keys : ((workers n).map fun worker => (worker, request worker)).map (·.1) =
        workers n := by
      simp [Function.comp_def]
    rw [receives_gather_root, if_pos rfl, numbered_of_nodup _ (by
      rw [keys]
      exact nodup_workers), List.map_map, List.filterMap_map, ← List.filterMap_eq_map]
    apply List.filterMap_congr
    intro worker member
    simp [messagesTo_gather_worker message request (mem_workers.mp member).1]
  · have silent : receives (gather n message request rank) = [] := by
      rw [gather, if_neg root]
      rfl
    rw [silent, if_neg root]
    rfl

end Rooted

end Spmd
