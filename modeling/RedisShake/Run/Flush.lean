import RedisShake.Run.Sender

set_option autoImplicit false

namespace RedisShake.Run

variable {co : Collaborators} {o : Configuration} {id : Nat} {input : List CmdDetail}
  {allowed : Act → Prop}

/-! ### When the sender flushes -/

/-- At the top of the sender's loop nothing passed to `c.Send` is left unflushed unless
`sendBuf` still holds commands, and `noFlushCount` is within `sender.count`. -/
def FlushedAtTop (o : Configuration) (s : Stream) : Prop :=
  s.sender = .recv →
    (s.sendBuf ≠ [] ∨ s.noFlushCount = 0 ∧ s.flushed = s.sent.length) ∧
      s.noFlushCount ≤ o.senderCount

theorem flushedAtTop_step {s s' : Stream} {a : Act} (inv : FlushedAtTop o s)
    (h : s.step co o id a = some s') : FlushedAtTop o s' := by
  obtain ⟨-, h⟩ := Stream.step_some h
  cases a with
  | parse =>
    obtain ⟨-, c, rest, -, (⟨e, -, rfl⟩ | ⟨st, v, -, rfl⟩)⟩ := Stream.parse_some h
    · exact inv
    · cases v <;> exact inv
  | push =>
    obtain ⟨x, -, -, rfl⟩ := Stream.push_some h
    intro top
    exact ⟨.inl (by simp), (inv top).2⟩
  | take =>
    obtain ⟨_, _, -, -, rfl⟩ := Stream.take_some h
    intro top; cases top
  | send ok =>
    obtain ⟨_, pc, rfl⟩ := Stream.send_some h
    intro top; cases ok <;> simp [pc] at top
  | count =>
    obtain ⟨-, rfl⟩ := Stream.count_some h
    intro top; dsimp only at top; split at top <;> cases top
  | enqueue =>
    obtain ⟨_, -, rfl⟩ := Stream.enqueue_some h
    intro top; cases top
  | flush ok =>
    obtain ⟨pc, rfl⟩ := Stream.flush_some h
    intro top
    by_cases due : flushDue o s = true
    next =>
      rw [if_pos due] at top ⊢
      cases ok
      next => simp [pc] at top
      next => exact ⟨.inr ⟨rfl, rfl⟩, Nat.zero_le _⟩
    next =>
      rw [if_neg due]
      simp only [flushDue, Bool.or_eq_true, decide_eq_true_eq, beq_iff_eq, not_or,
        Nat.not_lt, List.length_eq_zero] at due
      exact ⟨.inl due.2, due.1.1⟩
  | transmit => obtain ⟨-, rfl⟩ := Stream.transmit_some h; exact inv
  | receive r =>
    obtain ⟨_, _, _, _, _, _, _, _, rfl⟩ := Stream.receiver_frame (.inr ⟨r, rfl⟩) h; exact inv
  | settle =>
    obtain ⟨_, _, _, _, _, _, _, _, rfl⟩ := Stream.receiver_frame (.inl rfl) h; exact inv

theorem Reach.flushedAtTop {s : Stream} (reach : Reach co o id input allowed s) :
    FlushedAtTop o s := by
  induction reach with
  | init => intro _; exact ⟨.inr ⟨rfl, rfl⟩, Nat.zero_le _⟩
  | step _ _ _ stepped ih => exact flushedAtTop_step ih stepped

/-- The sender never strands a command: whenever it waits on an empty `sendBuf`, every
command it passed to `c.Send` has been flushed and `noFlushCount` is `0`; and at the end of
every iteration `noFlushCount ≤ sender.count`. -/
theorem sender_flushes_before_blocking (co : Collaborators) (o : Configuration) (id : Nat)
    (input : List CmdDetail) (s : Stream) (reach : Reachable co o id input s)
    (waiting : s.sender = .recv) :
    (s.sendBuf = [] → s.noFlushCount = 0 ∧ s.flushed = s.sent.length) ∧
      s.noFlushCount ≤ o.senderCount := by
  obtain ⟨pending, bound⟩ := reach.flushedAtTop waiting
  exact ⟨fun empty => pending.resolve_left (by simpa using empty), bound⟩

theorem sender_flushes_before_blocking_after_one :
    ∃ s, Reachable .permissive .plain 0 [⟨"set", ["a", "1"]⟩] s ∧ s.sender = .recv ∧
      s.sent = [⟨"set", ["a", "1"]⟩] ∧ s.sendBuf = [] ∧
      ((s.sendBuf = [] → s.noFlushCount = 0 ∧ s.flushed = s.sent.length) ∧
        s.noFlushCount ≤ Configuration.plain.senderCount) := by
  obtain ⟨s, reach, final⟩ := Reach.of_run .permissive .plain 0 [⟨"set", ["a", "1"]⟩]
    (fun _ => True) [.parse, .push, .take, .send true, .count, .flush true]
    (fun s => s.sender == .recv && s.sent == [⟨"set", ["a", "1"]⟩] && s.sendBuf.isEmpty)
    (by simp) (by decide)
  simp only [Bool.and_eq_true, beq_iff_eq, List.isEmpty_iff] at final
  exact ⟨s, reach, final.1.1, final.1.2, final.2,
    sender_flushes_before_blocking .permissive .plain 0 _ s reach final.1.1⟩

/-- With `sender.size` = 4 and a second command already queued, the sender ends its first
iteration without a flush although the 5 bytes of `set a 1` are unflushed. -/
theorem sender_exceeds_size_unflushed :
    ∃ s, Reachable .permissive { Configuration.plain with senderSize := 4 } 0
        [⟨"set", ["a", "1"]⟩, ⟨"set", ["b", "2"]⟩] s ∧
      s.sender = .recv ∧ ((s.sent.drop s.flushed).map CmdDetail.length).sum = 5 ∧
      ({ Configuration.plain with senderSize := 4 } : Configuration).senderSize < 5 := by
  obtain ⟨s, reach, final⟩ := Reach.of_run .permissive { Configuration.plain with senderSize := 4 }
    0 [⟨"set", ["a", "1"]⟩, ⟨"set", ["b", "2"]⟩] (fun _ => True)
    [.parse, .push, .parse, .push, .take, .send true, .count, .flush true]
    (fun s => s.sender == .recv && ((s.sent.drop s.flushed).map CmdDetail.length).sum == 5)
    (by simp) (by decide)
  simp only [Bool.and_eq_true, beq_iff_eq] at final
  exact ⟨s, reach, final.1, final.2, by decide⟩

end RedisShake.Run
