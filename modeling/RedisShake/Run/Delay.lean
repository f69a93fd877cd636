import RedisShake.Run.Flush

set_option autoImplicit false

namespace RedisShake.Run

variable {co : Collaborators} {o : Configuration} {id : Nat} {input : List CmdDetail}

/-! ### Delay sampling against the replies -/

/-- With metrics on, `set a 1` goes out of the connection's buffer at `c.Send` and its reply
is read before the sender runs `sendId.Incr()`: the receiver finds `delayChannel` empty,
the sender then queues node 1, and the reply to `set b 2`, receive id 2, dequeues it. -/
theorem early_reply_reaches_id_panic :
    ∃ s, Reachable .permissive { Configuration.plain with metric := true } 0
        [⟨"set", ["a", "1"]⟩, ⟨"set", ["b", "2"]⟩] s ∧
      s.panicked = some (.idInvalid 1 2) ∧
      Panic.message 0 (.idInvalid 1 2) = "dbSyncer[0] receive id invalid: node-id[1] < receive-id[2]" := by
  obtain ⟨s, reach, final⟩ := Reach.of_run .permissive { Configuration.plain with metric := true }
    0 [⟨"set", ["a", "1"]⟩, ⟨"set", ["b", "2"]⟩] (fun _ => True)
    [.parse, .push, .parse, .push, .take, .send true, .transmit, .receive .ok, .settle, .count,
      .enqueue, .flush true, .take, .send true, .count, .enqueue, .flush true, .receive .ok,
      .settle]
    (fun s => s.panicked == some (.idInvalid 1 2)) (by simp) (by decide)
  exact ⟨s, reach, by simpa using final, by decide⟩

/-- The ids still waiting for their reply: the node the receiver holds, then `delayChannel`. -/
def Stream.pending (s : Stream) : List Nat := s.node.toList ++ s.delayChannel

theorem Stream.pick_pending (s : Stream) :
    s.pending = s.pick.1.toList ++ s.pick.2 ∧ (s.pick.1 = none → s.pick.2 = []) := by
  unfold Stream.pick Stream.pending
  split
  next unheld queue => simp [unheld, queue]
  next neither =>
    refine ⟨rfl, fun unheld => ?_⟩
    cases queue : s.delayChannel with
    | nil => rfl
    | cons n rest => exact absurd queue (neither n rest unheld)

theorem Stream.settle_ahead {s s' : Stream} (h : s.settle = some s')
    (sorted : s.pending.Pairwise (· < ·)) (ahead : ∀ n ∈ s.pending, s.recvId ≤ n) :
    s'.pending <:+ s.pending ∧ (∀ n ∈ s'.pending, s.recvId < n) ∧
      s'.panicked = s.panicked ∧ s'.receiver = .receive ∧ s'.recvId = s.recvId ∧
      s'.sendId = s.sendId ∧ s'.sent = s.sent ∧ s'.flushed = s.flushed ∧
      s'.transmitted = s.transmitted ∧ s'.sender = s.sender := by
  obtain ⟨-, rfl⟩ := Stream.settle_some h
  obtain ⟨split, drained⟩ := s.pick_pending
  generalize s.pick = picked at split drained ⊢
  obtain ⟨node, rest⟩ := picked
  cases node with
  | none =>
    obtain rfl : rest = [] := drained rfl
    simp [Stream.compare, Stream.pending]
  | some n =>
    simp only [Option.toList_some, List.singleton_append] at split
    rw [split] at sorted ahead ⊢
    obtain ⟨after, -⟩ := List.pairwise_cons.mp sorted
    have first := ahead n (List.mem_cons_self _ _)
    simp only [Stream.compare]
    by_cases same : n = s.recvId
    next =>
      -- the awaited reply: the node is dropped and its delay recorded
      simp only [if_pos same, and_true]
      refine ⟨by simp [Stream.pending], fun m member => ?_⟩
      simp only [Stream.pending, Option.toList_none, List.nil_append] at member
      have := after m member; omega
    next =>
      -- an earlier reply: the node is kept for a later one
      simp only [if_neg same, if_neg (show ¬ n < s.recvId by omega), and_true]
      refine ⟨by simp [Stream.pending], fun m member => ?_⟩
      simp only [Stream.pending, Option.toList_some, List.singleton_append,
        List.mem_cons] at member
      rcases member with rfl | member
      · omega
      · have := after m member; omega

/-! ### Replies that come back for flushed commands only -/

/-- What holds while sent commands reach the target only at a `Flush`: the receiver's
counter stays behind the flushed commands, and every queued node is ahead of it. -/
structure FlushOnly (o : Configuration) (s : Stream) : Prop where
  wire : s.transmitted = s.flushed
  flushedLe : s.flushed ≤ s.sent.length
  unflushed : s.sender ≠ .recv → s.sender.holding = none → s.flushed < s.sent.length
  counted : s.sent.length = s.sendId + if s.sender = .count then 1 else 0
  replied : o.metric = true → s.panicked = none → s.recvId ≤ s.transmitted
  sorted : s.pending.Pairwise (· < ·)
  issued : ∀ n ∈ s.pending, n ≤ s.sendId
  sampling : ∀ n, s.sender = .enqueue n →
    o.metric = true ∧ n = s.sendId ∧ ∀ m ∈ s.pending, m < n
  waiting : s.panicked = none → s.receiver = .receive → ∀ n ∈ s.pending, s.recvId < n
  settling : s.receiver = .settle → ∀ n ∈ s.pending, s.recvId ≤ n
  quiet : o.metric = false → s.pending = []
  noIdPanic : ∀ n r, s.panicked ≠ some (.idInvalid n r)

theorem flushOnly_init (input : List CmdDetail) : FlushOnly o (Stream.init input) where
  wire := rfl
  flushedLe := Nat.zero_le _
  unflushed := fun idle => absurd rfl idle
  counted := rfl
  replied := fun _ _ => Nat.zero_le _
  sorted := List.Pairwise.nil
  issued := fun _ member => by simp [Stream.pending, Stream.init] at member
  sampling := fun _ pc => by cases pc
  waiting := fun _ _ _ member => by simp [Stream.pending, Stream.init] at member
  settling := fun pc => by cases pc
  quiet := fun _ => rfl
  noIdPanic := fun _ _ panic => by cases panic

theorem flushOnly_enqueue {s s' : Stream} (inv : FlushOnly o s) (alive : s.panicked = none)
    (h : s.enqueue o = some s') : FlushOnly o s' := by
  obtain ⟨n, pc, rfl⟩ := Stream.enqueue_some h
  obtain ⟨metric, rfl, behind⟩ := inv.sampling n pc
  have counted : s.sent.length = s.sendId := by simpa [pc] using inv.counted
  -- the receiver has read no further than the flushed commands, which miss the last one sent
  have ahead : s.recvId < s.sendId :=
    calc s.recvId ≤ s.transmitted := inv.replied metric alive
      _ = s.flushed := inv.wire
      _ < s.sent.length := inv.unflushed (by simp [pc]) (by simp [pc, SenderPc.holding])
      _ = s.sendId := counted
  by_cases room : s.delayChannel.length < o.senderDelayChannelSize
  next =>
    have grown : ({ s with sender := .flush, delayChannel := s.delayChannel ++ [s.sendId] } :
        Stream).pending = s.pending ++ [s.sendId] := by simp [Stream.pending]
    -- what holds of every pending node and of the new one holds of the grown queue
    have extend {P : Nat → Prop} (old : ∀ m ∈ s.pending, P m) (new : P s.sendId) :
        ∀ m ∈ s.pending ++ [s.sendId], P m := fun m member => by
      rcases List.mem_append.mp member with member | member
      · exact old m member
      · exact (List.mem_singleton.mp member) ▸ new
    simp only [room, if_true]
    exact { inv with
      unflushed := fun _ _ => inv.unflushed (by simp [pc]) (by simp [pc, SenderPc.holding])
      counted := by simpa [pc] using inv.counted
      sorted := by
        rw [grown]
        exact List.pairwise_append.mpr ⟨inv.sorted, by simp, fun a ha b hb => by
          simp only [List.mem_singleton] at hb; exact hb ▸ behind a ha⟩
      issued := grown ▸ extend inv.issued (le_refl _)
      sampling := fun _ pc => by cases pc
      waiting := fun quiet idle => grown ▸ extend (inv.waiting quiet idle) ahead
      settling := fun busy => grown ▸ extend (inv.settling busy) ahead.le
      quiet := fun off => by simp [metric] at off }
  next =>
    simp only [room, if_false]
    exact { inv with
      unflushed := fun _ _ => inv.unflushed (by simp [pc]) (by simp [pc, SenderPc.holding])
      counted := by simpa [pc] using inv.counted
      sampling := fun _ pc => by cases pc }

theorem flushOnly_receive {s s' : Stream} {r : Reply} (inv : FlushOnly o s)
    (alive : s.panicked = none) (h : s.receive o r = some s') : FlushOnly o s' := by
  obtain ⟨idle, behind, rfl⟩ := Stream.receive_some h
  have ahead := inv.waiting alive idle
  by_cases metric : o.metric = true
  next =>
    rw [if_pos metric]
    cases r with
    | ok =>
      have behind : s.recvId < s.transmitted := behind.resolve_left nofun
      exact { inv with
        replied := fun _ _ => behind
        waiting := fun _ busy => by cases busy
        settling := fun _ m member => ahead m member }
    | errorReply | netError =>
      exact { inv with
        replied := fun _ panic => by cases panic
        waiting := fun panic => by cases panic
        settling := fun busy => by rw [idle] at busy; cases busy
        noIdPanic := fun _ _ panic => by cases panic }
  next =>
    rw [if_neg metric]
    have empty := inv.quiet (by simpa using metric)
    exact { inv with
      replied := fun metered => absurd metered metric
      waiting := fun _ _ m member => absurd (show m ∈ s.pending from member) (by simp [empty])
      settling := fun _ m member => absurd (show m ∈ s.pending from member) (by simp [empty]) }

theorem flushOnly_settle {s s' : Stream} (inv : FlushOnly o s) (h : s.settle = some s') :
    FlushOnly o s' := by
  obtain ⟨busy, -⟩ := Stream.settle_some h
  obtain ⟨suffix, ahead, panic, idle, recv, sendId, sent, flushed, transmitted, sender⟩ :=
    Stream.settle_ahead h inv.sorted (inv.settling busy)
  have kept : ∀ m ∈ s'.pending, m ∈ s.pending := fun m member => suffix.subset member
  exact {
    wire := by rw [transmitted, flushed]; exact inv.wire
    flushedLe := by rw [flushed, sent]; exact inv.flushedLe
    unflushed := by rw [flushed, sent, sender]; exact inv.unflushed
    counted := by rw [sent, sendId, sender]; exact inv.counted
    replied := by rw [recv, transmitted, panic]; exact inv.replied
    sorted := inv.sorted.sublist suffix.sublist
    issued := fun m member => sendId ▸ inv.issued m (kept m member)
    sampling := fun n pc => by
      obtain ⟨metric, same, before⟩ := inv.sampling n (sender ▸ pc)
      exact ⟨metric, sendId ▸ same, fun m member => before m (kept m member)⟩
    waiting := fun _ _ m member => recv ▸ ahead m member
    settling := fun pc => by rw [idle] at pc; cases pc
    quiet := fun off => List.eq_nil_of_sublist_nil (inv.quiet off ▸ suffix.sublist)
    noIdPanic := panic ▸ inv.noIdPanic }

theorem flushOnly_step {s s' : Stream} {a : Act} (inv : FlushOnly o s) (wired : a ≠ .transmit)
    (h : s.step co o id a = some s') : FlushOnly o s' := by
  obtain ⟨alive, h⟩ := Stream.step_some h
  cases a with
  | parse =>
    obtain ⟨-, c, rest, -, (⟨e, -, rfl⟩ | ⟨st, v, -, rfl⟩)⟩ := Stream.parse_some h
    · exact { inv with
        replied := fun _ panic => by cases panic
        waiting := fun panic => by cases panic
        noIdPanic := fun _ _ panic => by cases panic }
    · cases v <;> exact { inv with }
  | push => obtain ⟨x, -, -, rfl⟩ := Stream.push_some h; exact { inv with }
  | take =>
    obtain ⟨x, rest, pc, -, rfl⟩ := Stream.take_some h
    exact { inv with
      unflushed := fun _ held => by cases held
      counted := by simpa [pc] using inv.counted
      sampling := fun _ pc => by cases pc }
  | send ok =>
    obtain ⟨x, pc, rfl⟩ := Stream.send_some h
    cases ok
    next =>
      rw [if_neg nofun]
      exact { inv with
        replied := fun _ panic => by cases panic
        waiting := fun panic => by cases panic
        noIdPanic := fun _ _ panic => by cases panic }
    next =>
      rw [if_pos rfl]
      have counted : s.sent.length = s.sendId := by simpa [pc] using inv.counted
      have flushedLe := inv.flushedLe
      exact { inv with
        flushedLe := by simp only [List.length_append, List.length_singleton]; omega
        unflushed := fun _ _ => by simp only [List.length_append, List.length_singleton]; omega
        counted := by simp [counted]
        replied := inv.replied
        sampling := fun _ pc => by cases pc }
  | count =>
    obtain ⟨pc, rfl⟩ := Stream.count_some h
    have counted := inv.counted
    simp only [pc, if_true] at counted
    exact { inv with
      unflushed := fun _ _ => inv.unflushed (by simp [pc]) (by simp [pc, SenderPc.holding])
      counted := by split <;> simp [counted]
      issued := fun m member => Nat.le_succ_of_le (inv.issued m member)
      sampling := fun n enqueued => by
        split at enqueued
        next sample =>
          cases enqueued
          simp only [Bool.and_eq_true] at sample
          exact ⟨sample.1, rfl, fun m member => Nat.lt_succ_of_le (inv.issued m member)⟩
        next => cases enqueued }
  | enqueue => exact flushOnly_enqueue inv alive h
  | flush ok =>
    obtain ⟨pc, rfl⟩ := Stream.flush_some h
    have counted := inv.counted
    simp only [pc] at counted
    by_cases due : flushDue o s = true
    next =>
      rw [if_pos due]
      cases ok
      next =>
        exact { inv with
          replied := fun _ panic => by cases panic
          waiting := fun panic => by cases panic
          noIdPanic := fun _ _ panic => by cases panic }
      next =>
        have flushed : s.recvId ≤ s.transmitted → s.recvId ≤ s.sent.length := fun replied => by
          have := inv.wire; have := inv.flushedLe; omega
        exact { inv with
          wire := rfl
          flushedLe := le_refl _
          unflushed := fun idle => absurd rfl idle
          counted := by simpa using counted
          replied := fun metered quiet => flushed (inv.replied metered quiet)
          sampling := fun _ pc => by cases pc }
    next =>
      rw [if_neg due]
      exact { inv with
        unflushed := fun idle => absurd rfl idle
        counted := by simpa using counted
        sampling := fun _ pc => by cases pc }
  | transmit => exact absurd rfl wired
  | receive r => exact flushOnly_receive inv alive h
  | settle => exact flushOnly_settle inv h

/-- If the target connection puts sent commands on the wire only at `Flush`, the receiver
never reaches its `node.id < id` panic, whatever the interleaving. -/
theorem flushed_replies_keep_nodes_ahead (co : Collaborators) (o : Configuration) (id : Nat)
    (input : List CmdDetail) (s : Stream) (reach : Reach co o id input (· ≠ .transmit) s)
    (n r : Nat) : s.panicked ≠ some (.idInvalid n r) := by
  have inv : FlushOnly o s := by
    induction reach with
    | init => exact flushOnly_init input
    | step a _ wired stepped ih => exact flushOnly_step ih wired stepped
  exact inv.noIdPanic n r

theorem flushed_replies_keep_nodes_ahead_on_two :
    ∃ s, Reach .permissive { Configuration.plain with metric := true } 0
        [⟨"set", ["a", "1"]⟩, ⟨"set", ["b", "2"]⟩] (· ≠ .transmit) s ∧
      s.delays = [(1, 1), (2, 2)] ∧ s.panicked ≠ some (.idInvalid 1 2) := by
  obtain ⟨s, reach, final⟩ := Reach.of_run .permissive { Configuration.plain with metric := true }
    0 [⟨"set", ["a", "1"]⟩, ⟨"set", ["b", "2"]⟩] (· ≠ .transmit)
    [.parse, .push, .parse, .push, .take, .send true, .count, .enqueue, .flush true, .take,
      .send true, .count, .enqueue, .flush true, .receive .ok, .settle, .receive .ok, .settle]
    (fun s => s.delays == [(1, 1), (2, 2)]) (by decide) (by decide)
  exact ⟨s, reach, by simpa using final,
    flushed_replies_keep_nodes_ahead .permissive _ 0 _ s reach 1 2⟩

end RedisShake.Run
