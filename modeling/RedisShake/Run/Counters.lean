import RedisShake.Run.Pipeline

set_option autoImplicit false

namespace RedisShake.Run

/-! ### The counters of the stream phase -/

/-- The parser's and the sender's counters: each command `c.Send` has taken is forwarded and
pushed; the metric's bypass counter counts some of `nbypass`; and while no goroutine has
panicked, `PullCmdCount` counts the commands taken from the stream, and each of them is
forwarded, counted in `nbypass`, waiting in `sendBuf`, in the parser's hand, or in the
sender's hand across `c.Send`. -/
structure Counted (input : List CmdDetail) (s : Stream) : Prop where
  pushed : s.pushCmdCount = s.forward
  bypassed : s.bypassCmdCount ≤ s.nbypass
  conserved : s.panicked = none → s.pullCmdCount + s.input.length = input.length ∧
    s.forward + s.nbypass + s.sendBuf.length + s.parserOut.toList.length +
      s.sender.holding.toList.length = s.pullCmdCount

section Steps

variable {co : Collaborators} {o : Configuration} {id : Nat} {input : List CmdDetail}
  {s s' : Stream}

theorem counted_init : Counted input (Stream.init input) :=
  ⟨rfl, le_refl _, fun _ => ⟨by simp [Stream.init], rfl⟩⟩

theorem counted_parse (inv : Counted input s) (alive : s.panicked = none)
    (h : s.parse co o id = some s') : Counted input s' := by
  obtain ⟨out, c, rest, hin, (⟨e, -, rfl⟩ | ⟨st, v, -, rfl⟩)⟩ := Stream.parse_some h
  · -- a malformed `select`: pulled, then the parser panics
    exact { inv with conserved := fun panicked => by cases panicked }
  · obtain ⟨pulled, conserved⟩ := inv.conserved alive
    simp only [hin, List.length_cons] at pulled
    simp only [out, Option.toList_none, List.length_nil, Nat.add_zero] at conserved
    cases v with
    | push x =>
      exact { inv with
        conserved := fun _ => ⟨by simp only [Stream.parsed]; omega,
          by simp [Stream.parsed, ← conserved]; omega⟩ }
    | bypass m =>
      exact { inv with
        bypassed := by simp only [Stream.parsed]; have := inv.bypassed; split <;> omega
        conserved := fun _ => ⟨by simp only [Stream.parsed]; omega,
          by simp [Stream.parsed, out, ← conserved]; omega⟩ }

theorem counted_step {a : Act} (inv : Counted input s) (h : s.step co o id a = some s') :
    Counted input s' := by
  obtain ⟨alive, h⟩ := Stream.step_some h
  obtain ⟨pulled, conserved⟩ := inv.conserved alive
  cases a with
  | parse => exact counted_parse inv alive h
  | push =>
    obtain ⟨x, out, -, rfl⟩ := Stream.push_some h
    exact { inv with
      conserved := fun _ => ⟨pulled, by simp [out] at conserved ⊢; omega⟩ }
  | take =>
    obtain ⟨x, rest, pc, buf, rfl⟩ := Stream.take_some h
    exact { inv with
      conserved := fun _ => ⟨pulled, by
        simp [buf, pc, SenderPc.holding] at conserved ⊢; omega⟩ }
  | send ok =>
    obtain ⟨x, pc, rfl⟩ := Stream.send_some h
    cases ok
    · exact { inv with conserved := fun panicked => by cases panicked }
    · exact { inv with
        pushed := by simp [inv.pushed]
        conserved := fun _ => ⟨pulled, by
          simp [pc, SenderPc.holding] at conserved ⊢; omega⟩ }
  | count =>
    obtain ⟨pc, rfl⟩ := Stream.count_some h
    exact { inv with
      conserved := fun _ => ⟨pulled, by
        simp only [pc, SenderPc.holding] at conserved; split <;> simpa [SenderPc.holding]⟩ }
  | enqueue =>
    obtain ⟨n, pc, rfl⟩ := Stream.enqueue_some h
    exact { inv with
      conserved := fun _ => ⟨pulled, by simpa [pc, SenderPc.holding] using conserved⟩ }
  | flush ok =>
    obtain ⟨pc, rfl⟩ := Stream.flush_some h
    have same : s.forward + s.nbypass + s.sendBuf.length + s.parserOut.toList.length =
        s.pullCmdCount := by simpa [pc, SenderPc.holding] using conserved
    split
    · cases ok
      · exact { inv with conserved := fun panicked => by cases panicked }
      · exact { inv with conserved := fun _ => ⟨pulled, by simpa [SenderPc.holding] using same⟩ }
    · exact { inv with conserved := fun _ => ⟨pulled, by simpa [SenderPc.holding] using same⟩ }
  | transmit => obtain ⟨-, rfl⟩ := Stream.transmit_some h; exact { inv with }
  | receive r =>
    obtain ⟨_, _, _, _, _, _, _, _, rfl⟩ := Stream.receiver_frame (.inr ⟨r, rfl⟩) h
    exact { inv with conserved := fun _ => ⟨pulled, conserved⟩ }
  | settle =>
    obtain ⟨_, _, _, _, _, _, _, _, rfl⟩ := Stream.receiver_frame (.inl rfl) h
    exact { inv with conserved := fun _ => ⟨pulled, conserved⟩ }

theorem Reach.counted {allowed : Act → Prop} (reach : Reach co o id input allowed s) :
    Counted input s := by
  induction reach with
  | init => exact counted_init
  | step _ _ _ stepped ih => exact counted_step ih stepped

end Steps

/-- The stream phase's counters over every interleaving: `PushCmdCount` equals `forward`, the
metric's bypass counter never exceeds `nbypass`, and while nothing has panicked
`PullCmdCount` counts the commands taken from the stream and each of them is forwarded, in
`nbypass`, in `sendBuf`, in the parser's hand or in the sender's hand across `c.Send`; so
once these three are empty, `forward + nbypass` is the number of commands parsed. -/
theorem stream_counters_balance (co : Collaborators) (o : Configuration) (id : Nat)
    (input : List CmdDetail) (s : Stream) (reach : Reachable co o id input s) :
    s.pushCmdCount = s.forward ∧ s.bypassCmdCount ≤ s.nbypass ∧
      (s.panicked = none → s.pullCmdCount + s.input.length = input.length ∧
        s.forward + s.nbypass + s.sendBuf.length + s.parserOut.toList.length +
          s.sender.holding.toList.length = s.pullCmdCount) :=
  let inv := reach.counted
  ⟨inv.pushed, inv.bypassed, inv.conserved⟩

theorem stream_counters_balance_on_two :
    ∃ s, Reachable .permissive .plain 0 [⟨"set", ["a", "1"]⟩, ⟨"ping", []⟩] s ∧
      s.input = [] ∧ s.sendBuf = [] ∧ s.parserOut = none ∧ s.sender.holding = none ∧
      s.panicked = none ∧ s.forward + s.nbypass = s.pullCmdCount := by
  obtain ⟨s, reach, final⟩ := Reach.of_run .permissive .plain 0
    [⟨"set", ["a", "1"]⟩, ⟨"ping", []⟩] (fun _ => True)
    [.parse, .push, .take, .send true, .count, .flush true, .parse, .push, .take, .send true]
    (fun s => s.input.isEmpty && s.sendBuf.isEmpty && s.parserOut.isNone &&
      s.sender.holding.isNone && s.panicked.isNone)
    (by simp) (by decide)
  simp only [Bool.and_eq_true, List.isEmpty_iff, Option.isNone_iff_eq_none] at final
  obtain ⟨⟨⟨⟨done, empty⟩, out⟩, idle⟩, alive⟩ := final
  have balance := ((stream_counters_balance .permissive .plain 0 _ s reach).2.2 alive).2
  simp only [empty, out, idle, List.length_nil, Option.toList_none, Nat.add_zero] at balance
  exact ⟨s, reach, done, empty, out, idle, alive, balance⟩

/-- With `filter.key` = `a` and `set` registered, the key filter drops `set b 1`: the parser
counts it in `nbypass` but not in the metric's bypass counter, so once the stream is drained
`PullCmdCount` is 1 while `PushCmdCount + BypassCmdCount` is 0. -/
theorem key_filtered_command_skips_bypass_metric :
    ∃ s, Reachable .prefixMatching { Configuration.plain with filterKey := ["a"] } 0
        [⟨"set", ["b", "1"]⟩] s ∧
      s.input = [] ∧ s.sendBuf = [] ∧ s.parserOut = none ∧ s.panicked = none ∧
      s.forward + s.nbypass = 1 ∧ s.pullCmdCount = 1 ∧ s.pushCmdCount + s.bypassCmdCount = 0 := by
  obtain ⟨s, reach, final⟩ := Reach.of_run .prefixMatching
    { Configuration.plain with filterKey := ["a"] } 0 [⟨"set", ["b", "1"]⟩] (fun _ => True)
    [.parse]
    (fun s => s.input.isEmpty && s.sendBuf.isEmpty && s.parserOut.isNone && s.panicked.isNone &&
      s.forward + s.nbypass == 1 && s.pullCmdCount == 1 && s.pushCmdCount + s.bypassCmdCount == 0)
    (by simp) (by decide)
  simp only [Bool.and_eq_true, List.isEmpty_iff, Option.isNone_iff_eq_none, beq_iff_eq] at final
  obtain ⟨⟨⟨⟨⟨⟨done, empty⟩, out⟩, alive⟩, forwarded⟩, pulled⟩, metric⟩ := final
  exact ⟨s, reach, done, empty, out, alive, forwarded, pulled, metric⟩

end RedisShake.Run
