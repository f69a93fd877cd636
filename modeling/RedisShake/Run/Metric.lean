import RedisShake.Run.Delay

set_option autoImplicit false

namespace RedisShake.Run

/-! ### The metric's traffic and reply counters in every interleaving -/

/-- What the sender's and the receiver's counters mean: `forward` and `AddNetworkFlow` count
the commands passed to `c.Send` and their bytes; with metrics on the receiver has read no
more replies than commands have reached the target, but for the error that stops it, each
reply read is counted once, as a success or as a failure, and with metrics off none is; and
a failure is counted only by the receiver's panics. -/
structure Metered (o : Configuration) (s : Stream) : Prop where
  forwarded : s.forward = s.sent.length
  flow : s.networkFlow = (s.sent.map CmdDetail.length).sum
  wire : s.transmitted ≤ s.sent.length
  behind : o.metric = true → s.recvId ≤ s.transmitted + s.failCmdCount
  replies : s.successCmdCount + s.failCmdCount = if o.metric then s.recvId else 0
  failed : s.failCmdCount =
    if s.panicked = some .errorReply ∨ s.panicked = some .netErrorWhileReceive then 1 else 0

/-- The receiver's delay bookkeeping: the pending ids are increasing and none is past the
last `sendId`; a sample waiting for its non-blocking send is that id, above every pending and
recorded one; `delayChannel` stays within its capacity; every recorded delay compared a node
with the reply of the same receive id, in increasing order, below every id still pending;
and with metrics off nothing is queued, recorded or compared, and the receiver never panics. -/
structure Measured (o : Configuration) (s : Stream) : Prop where
  sorted : s.pending.Pairwise (· < ·)
  issued : ∀ n ∈ s.pending, n ≤ s.sendId
  sampling : ∀ n, s.sender = .enqueue n → o.metric = true ∧ n = s.sendId ∧
    (∀ m ∈ s.pending, m < n) ∧ ∀ d ∈ s.delays, d.1 < n
  bounded : s.delayChannel.length ≤ o.senderDelayChannelSize
  matched : ∀ d ∈ s.delays, d.1 = d.2 ∧ d.2 ≤ s.recvId ∧ d.1 ≤ s.sendId
  once : (s.delays.map Prod.fst).Pairwise (· < ·)
  before : ∀ d ∈ s.delays, ∀ n ∈ s.pending, d.1 < n
  quiet : o.metric = false → s.pending = [] ∧ s.delays = [] ∧ s.receiver = .receive ∧
    ∀ p, s.panicked = some p → p.byReceiver = false

section Steps

variable {co : Collaborators} {o : Configuration} {id : Nat} {s s' : Stream}

theorem Stream.settle_cases (h : s.settle = some s') :
    s.receiver = .settle ∧ ∃ node queue delays panicked,
      s' = { s with receiver := .receive, node := node, delayChannel := queue, delays := delays,
                    panicked := panicked } ∧
      queue.length ≤ s.delayChannel.length ∧
      (panicked = s.panicked ∨ ∃ n, panicked = some (.idInvalid n s.recvId)) ∧
      ((s'.pending = s.pending ∧ delays = s.delays) ∨
        (s.pending = s.recvId :: s'.pending ∧ delays = s.delays ++ [(s.recvId, s.recvId)])) := by
  obtain ⟨settling, rfl⟩ := Stream.settle_some h
  refine ⟨settling, ?_⟩
  obtain ⟨split, drained⟩ := s.pick_pending
  -- the non-blocking receive takes at most the head of `delayChannel`
  have shorter : s.pick.2.length ≤ s.delayChannel.length := by
    unfold Stream.pick
    split
    next queue => simp [queue]
    next => exact le_refl _
  generalize s.pick = picked at split drained shorter ⊢
  obtain ⟨node, rest⟩ := picked
  cases node with
  | none =>
    obtain rfl : rest = [] := drained rfl
    exact ⟨none, [], s.delays, s.panicked, rfl, shorter, .inl rfl, .inl ⟨split.symm, rfl⟩⟩
  | some n =>
    simp only [Stream.compare]
    by_cases same : n = s.recvId
    next =>
      subst same
      simp only [if_true]
      exact ⟨none, rest, _, s.panicked, rfl, shorter, .inl rfl, .inr ⟨split, rfl⟩⟩
    next =>
      simp only [if_neg same]
      split
      next => exact ⟨some n, rest, s.delays, _, rfl, shorter, .inr ⟨n, rfl⟩, .inl ⟨split.symm, rfl⟩⟩
      next => exact ⟨some n, rest, s.delays, _, rfl, shorter, .inl rfl, .inl ⟨split.symm, rfl⟩⟩

theorem metered_init (input : List CmdDetail) : Metered o (Stream.init input) :=
  ⟨rfl, rfl, le_refl _, fun _ => Nat.zero_le _, by split <;> rfl, rfl⟩

theorem metered_step {a : Act} (inv : Metered o s) (h : s.step co o id a = some s') :
    Metered o s' := by
  obtain ⟨alive, h⟩ := Stream.step_some h
  -- nothing has panicked yet, so no failure has been counted
  have unfailed : s.failCmdCount = 0 := by simpa [alive] using inv.failed
  cases a with
  | parse =>
    obtain ⟨-, c, rest, -, (⟨e, -, rfl⟩ | ⟨st, v, -, rfl⟩)⟩ := Stream.parse_some h
    · exact { inv with failed := by simp [unfailed] }
    · cases v <;> exact { inv with }
  | push => obtain ⟨x, -, -, rfl⟩ := Stream.push_some h; exact { inv with }
  | take => obtain ⟨x, rest, -, -, rfl⟩ := Stream.take_some h; exact { inv with }
  | send ok =>
    obtain ⟨x, -, rfl⟩ := Stream.send_some h
    cases ok
    next => exact { inv with failed := by simp [unfailed] }
    next =>
      rw [if_pos rfl]
      exact { inv with
        forwarded := by simp [inv.forwarded]
        flow := by simp [inv.flow]
        wire := by have := inv.wire; simp only [List.length_append, List.length_singleton]; omega }
  | count => obtain ⟨-, rfl⟩ := Stream.count_some h; exact { inv with }
  | enqueue => obtain ⟨n, -, rfl⟩ := Stream.enqueue_some h; exact { inv with }
  | flush ok =>
    obtain ⟨-, rfl⟩ := Stream.flush_some h
    split
    next =>
      cases ok
      next => exact { inv with failed := by simp [unfailed] }
      next =>
        exact { inv with
          wire := le_refl _
          behind := fun metric => (inv.behind metric).trans (Nat.add_le_add_right inv.wire _) }
    next => exact { inv with }
  | transmit =>
    obtain ⟨room, rfl⟩ := Stream.transmit_some h
    exact { inv with
      wire := room
      behind := fun metric => by have := inv.behind metric; dsimp only; omega }
  | receive r =>
    obtain ⟨-, ready, rfl⟩ := Stream.receive_some h
    have replies := inv.replies
    split
    next metric =>
      simp only [metric, if_true] at replies
      have behind := inv.behind metric
      cases r with
      | ok =>
        have ready := ready.resolve_left nofun
        exact { inv with
          behind := fun _ => by dsimp only [Stream.replied]; omega
          replies := by simp [metric, Stream.replied]; omega }
      | errorReply | netError =>
        exact { inv with
          behind := fun _ => by dsimp only [Stream.replied]; omega
          replies := by simp [metric, Stream.replied]; omega
          failed := by simp [Stream.replied, unfailed] }
    next metric =>
      simp only [Bool.not_eq_true] at metric
      exact { inv with
        behind := fun metered => by simp [metric] at metered
        replies := by simpa [metric] using replies }
  | settle =>
    obtain ⟨-, node, queue, delays, panicked, rfl, -, panic, -⟩ := Stream.settle_cases h
    refine { inv with failed := ?_ }
    rcases panic with rfl | ⟨n, rfl⟩ <;> simp [unfailed, alive]

theorem Reach.metered {input : List CmdDetail} {allowed : Act → Prop}
    (reach : Reach co o id input allowed s) : Metered o s := by
  induction reach with
  | init => exact metered_init input
  | step _ _ _ stepped ih => exact metered_step ih stepped

theorem measured_init (input : List CmdDetail) : Measured o (Stream.init input) where
  sorted := .nil
  issued := fun _ member => by cases member
  sampling := fun _ pc => by cases pc
  bounded := Nat.zero_le _
  matched := fun _ member => by cases member
  once := .nil
  before := fun _ member => by cases member
  quiet := fun _ => ⟨rfl, rfl, rfl, fun _ panic => by cases panic⟩

theorem measured_enqueue (inv : Measured o s) (h : s.enqueue o = some s') : Measured o s' := by
  obtain ⟨n, pc, rfl⟩ := Stream.enqueue_some h
  obtain ⟨metric, rfl, behind, recorded⟩ := inv.sampling n pc
  by_cases room : s.delayChannel.length < o.senderDelayChannelSize
  next =>
    have grown : ({ s with sender := .flush, delayChannel := s.delayChannel ++ [s.sendId] } :
        Stream).pending = s.pending ++ [s.sendId] := by simp [Stream.pending]
    simp only [room, if_true]
    exact {
      sorted := grown ▸ List.pairwise_append.mpr ⟨inv.sorted, List.pairwise_singleton _ _,
        fun a ha b hb => (List.mem_singleton.mp hb) ▸ behind a ha⟩
      issued := grown ▸ List.forall_mem_append.mpr
        ⟨inv.issued, List.forall_mem_singleton.mpr (le_refl _)⟩
      sampling := fun _ pc => by cases pc
      bounded := by simp only [List.length_append, List.length_singleton]; omega
      matched := inv.matched
      once := inv.once
      before := fun d member => grown ▸ List.forall_mem_append.mpr
        ⟨inv.before d member, List.forall_mem_singleton.mpr (recorded d member)⟩
      quiet := fun off => by simp [metric] at off }
  next =>
    simp only [room, if_false]
    exact { inv with sampling := fun _ pc => by cases pc }

theorem measured_settle (inv : Measured o s) (h : s.settle = some s') : Measured o s' := by
  obtain ⟨settling, node, queue, delays, panicked, rfl, shorter, -, cases⟩ :=
    Stream.settle_cases h
  -- a reply was counted, so metrics are on
  have loud : o.metric = false → False := fun off => by
    have := (inv.quiet off).2.2.1
    rw [settling] at this
    cases this
  rcases cases with ⟨kept, rfl⟩ | ⟨dropped, rfl⟩
  next =>
    exact {
      sorted := kept ▸ inv.sorted
      issued := kept ▸ inv.issued
      sampling := kept ▸ inv.sampling
      bounded := shorter.trans inv.bounded
      matched := inv.matched
      once := inv.once
      before := kept ▸ inv.before
      quiet := fun off => (loud off).elim }
  next =>
    -- the head of the pending ids is the receive id, and the rest is what is left
    have head : s.recvId ∈ s.pending := dropped ▸ List.mem_cons_self _ _
    have tail {m : Nat} (member : m ∈ Stream.pending _) : m ∈ s.pending :=
      dropped ▸ List.mem_cons_of_mem _ member
    have above : ∀ m ∈ Stream.pending _, s.recvId < m :=
      (List.pairwise_cons.mp (dropped ▸ inv.sorted)).1
    exact {
      sorted := (List.pairwise_cons.mp (dropped ▸ inv.sorted)).2
      issued := fun m member => inv.issued m (tail member)
      sampling := fun n pc => by
        obtain ⟨metric, same, behind, recorded⟩ := inv.sampling n pc
        exact ⟨metric, same, fun m member => behind m (tail member),
          List.forall_mem_append.mpr ⟨recorded, List.forall_mem_singleton.mpr (behind _ head)⟩⟩
      bounded := shorter.trans inv.bounded
      matched := List.forall_mem_append.mpr
        ⟨inv.matched, List.forall_mem_singleton.mpr ⟨rfl, le_refl _, inv.issued _ head⟩⟩
      once := by
        rw [List.map_append]
        refine List.pairwise_append.mpr ⟨inv.once, List.pairwise_singleton _ _, ?_⟩
        intro a old b new
        obtain ⟨d, member, rfl⟩ := List.mem_map.mp old
        simp only [List.map_cons, List.map_nil, List.mem_singleton] at new
        exact new ▸ inv.before d member _ head
      before := List.forall_mem_append.mpr
        ⟨fun d old m pending => inv.before d old m (tail pending),
          List.forall_mem_singleton.mpr above⟩
      quiet := fun off => (loud off).elim }

theorem measured_step {a : Act} (inv : Measured o s) (h : s.step co o id a = some s') :
    Measured o s' := by
  obtain ⟨-, h⟩ := Stream.step_some h
  cases a with
  | parse =>
    obtain ⟨-, c, rest, -, (⟨e, -, rfl⟩ | ⟨st, v, -, rfl⟩)⟩ := Stream.parse_some h
    · exact { inv with
        quiet := fun off =>
          let ⟨empty, unrecorded, waiting, _⟩ := inv.quiet off
          ⟨empty, unrecorded, waiting, fun _ panic => by cases panic; rfl⟩ }
    · cases v <;> exact { inv with }
  | push => obtain ⟨x, -, -, rfl⟩ := Stream.push_some h; exact { inv with }
  | take =>
    obtain ⟨x, rest, -, -, rfl⟩ := Stream.take_some h
    exact { inv with sampling := fun _ pc => by cases pc }
  | send ok =>
    obtain ⟨x, pc, rfl⟩ := Stream.send_some h
    cases ok
    next =>
      exact { inv with
        sampling := fun _ held => by cases pc.symm.trans held
        quiet := fun off =>
          let ⟨empty, unrecorded, waiting, _⟩ := inv.quiet off
          ⟨empty, unrecorded, waiting, fun _ panic => by cases panic; rfl⟩ }
    next => exact { inv with sampling := fun _ pc => by cases pc }
  | count =>
    obtain ⟨-, rfl⟩ := Stream.count_some h
    exact { inv with
      issued := fun m member => Nat.le_succ_of_le (inv.issued m member)
      matched := fun d member =>
        let ⟨same, seen, issued⟩ := inv.matched d member
        ⟨same, seen, Nat.le_succ_of_le issued⟩
      sampling := fun n pc => by
        simp only at pc
        split at pc
        next sample =>
          cases pc
          simp only [Bool.and_eq_true] at sample
          exact ⟨sample.1, rfl, fun m member => Nat.lt_succ_of_le (inv.issued m member),
            fun d member => Nat.lt_succ_of_le (inv.matched d member).2.2⟩
        next => cases pc }
  | enqueue => exact measured_enqueue inv h
  | flush ok =>
    obtain ⟨pc, rfl⟩ := Stream.flush_some h
    split
    next =>
      cases ok
      next =>
        exact { inv with
          sampling := fun _ held => by cases pc.symm.trans held
          quiet := fun off =>
            let ⟨empty, unrecorded, waiting, _⟩ := inv.quiet off
            ⟨empty, unrecorded, waiting, fun _ panic => by cases panic; rfl⟩ }
      next => exact { inv with sampling := fun _ pc => by cases pc }
    next => exact { inv with sampling := fun _ pc => by cases pc }
  | transmit => obtain ⟨-, rfl⟩ := Stream.transmit_some h; exact { inv with }
  | receive r =>
    obtain ⟨-, -, rfl⟩ := Stream.receive_some h
    have matched : ∀ d ∈ s.delays, d.1 = d.2 ∧ d.2 ≤ s.recvId + 1 ∧ d.1 ≤ s.sendId :=
      fun d member =>
        let ⟨same, seen, issued⟩ := inv.matched d member
        ⟨same, Nat.le_succ_of_le seen, issued⟩
    split
    next metric =>
      have loud : o.metric = false → False := fun off => by simp [off] at metric
      cases r <;> exact { inv with matched, quiet := fun off => (loud off).elim }
    next => exact { inv with matched }
  | settle => exact measured_settle inv h

theorem Reach.measured {input : List CmdDetail} {allowed : Act → Prop}
    (reach : Reach co o id input allowed s) : Measured o s := by
  induction reach with
  | init => exact measured_init input
  | step _ _ _ stepped ih => exact measured_step ih stepped

end Steps

/-- The receiver's delay records in every interleaving of the goroutines and the connection:
the nodes waiting for their reply, the one the receiver holds and then those in
`delayChannel`, have strictly increasing ids none past `sendId`, and `delayChannel` never
holds more than its capacity; a delay is recorded only for a node whose id is the receive id
of the reply just read, at most once per id, in increasing order, and below every id still
waiting; and with metrics off no node is ever queued or recorded and the receiver never
panics. -/
theorem delays_recorded_once_in_order (co : Collaborators) (o : Configuration) (id : Nat)
    (input : List CmdDetail) (s : Stream) (reach : Reachable co o id input s) :
    s.pending.Pairwise (· < ·) ∧ (∀ n ∈ s.pending, n ≤ s.sendId) ∧
      s.delayChannel.length ≤ o.senderDelayChannelSize ∧
      (∀ d ∈ s.delays, d.1 = d.2 ∧ d.2 ≤ s.recvId) ∧ (s.delays.map Prod.fst).Pairwise (· < ·) ∧
      (∀ d ∈ s.delays, ∀ n ∈ s.pending, d.1 < n) ∧
      (o.metric = false → s.pending = [] ∧ s.delays = [] ∧
        ∀ p, s.panicked = some p → p.byReceiver = false) :=
  let inv := reach.measured
  ⟨inv.sorted, inv.issued, inv.bounded, fun d member => ⟨(inv.matched d member).1,
    (inv.matched d member).2.1⟩, inv.once, inv.before,
    fun off => let ⟨empty, unrecorded, _, parser⟩ := inv.quiet off; ⟨empty, unrecorded, parser⟩⟩

theorem delays_recorded_once_in_order_on_one :
    ∃ s, Reachable .permissive { Configuration.plain with metric := true } 0
        [⟨"set", ["a", "1"]⟩] s ∧
      s.delays = [(1, 1)] ∧ ∀ d ∈ s.delays, d.1 = d.2 ∧ d.2 ≤ s.recvId := by
  obtain ⟨s, reach, final⟩ := Reach.of_run .permissive { Configuration.plain with metric := true }
    0 [⟨"set", ["a", "1"]⟩] (fun _ => True)
    [.parse, .push, .take, .send true, .count, .enqueue, .flush true, .receive .ok, .settle]
    (fun s => s.delays == [(1, 1)]) (by simp) (by decide)
  exact ⟨s, reach, by simpa using final,
    (delays_recorded_once_in_order _ _ _ _ s reach).2.2.2.1⟩

end RedisShake.Run
