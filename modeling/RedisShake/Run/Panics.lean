import RedisShake.Run.Metric

set_option autoImplicit false

namespace RedisShake.Run

/-! ### The parser's panic in the stream phase -/

section Steps

variable {co : Collaborators} {o : Configuration} {id : Nat} {input : List CmdDetail}
  {allowed : Act → Prop} {s s' : Stream}

theorem Stream.step_panicked {a : Act} (h : s.step co o id a = some s') :
    s.panicked = none ∧ (s'.panicked = none ∨
      (∃ c rest e, s.input = c :: rest ∧ parseCommand co o id s.parser c = .error e ∧
        s'.input = s.input ∧ s'.parser = s.parser ∧ s'.panicked = some (.parse e)) ∨
      ∃ p, s'.panicked = some p ∧ ∀ e, p ≠ .parse e) := by
  obtain ⟨alive, h⟩ := Stream.step_some h
  refine ⟨alive, ?_⟩
  cases a with
  | parse =>
    obtain ⟨-, c, rest, hin, (⟨e, failed, rfl⟩ | ⟨st, v, -, rfl⟩)⟩ := Stream.parse_some h
    · exact .inr (.inl ⟨c, rest, e, hin, failed, rfl, rfl, rfl⟩)
    · cases v <;> exact .inl alive
  | push => obtain ⟨x, -, -, rfl⟩ := Stream.push_some h; exact .inl alive
  | take => obtain ⟨x, rest, -, -, rfl⟩ := Stream.take_some h; exact .inl alive
  | send ok =>
    obtain ⟨x, -, rfl⟩ := Stream.send_some h
    cases ok
    next => exact .inr (.inr ⟨_, rfl, nofun⟩)
    next => exact .inl alive
  | count => obtain ⟨-, rfl⟩ := Stream.count_some h; exact .inl alive
  | enqueue => obtain ⟨n, -, rfl⟩ := Stream.enqueue_some h; exact .inl alive
  | flush ok =>
    obtain ⟨-, rfl⟩ := Stream.flush_some h
    split
    next =>
      cases ok
      next => exact .inr (.inr ⟨_, rfl, nofun⟩)
      next => exact .inl alive
    next => exact .inl alive
  | transmit => obtain ⟨-, rfl⟩ := Stream.transmit_some h; exact .inl alive
  | receive r =>
    obtain ⟨-, -, rfl⟩ := Stream.receive_some h
    split
    next =>
      cases r
      next => exact .inl alive
      all_goals exact .inr (.inr ⟨_, rfl, nofun⟩)
    next => exact .inl alive
  | settle =>
    obtain ⟨-, node, queue, delays, panicked, rfl, -, panic, -⟩ := Stream.settle_cases h
    rcases panic with rfl | ⟨n, rfl⟩
    · exact .inl alive
    · exact .inr (.inr ⟨_, rfl, nofun⟩)

theorem Reach.parse_panic (reach : Reach co o id input allowed s) {e : String}
    (panicked : s.panicked = some (.parse e)) :
    ∃ c rest, s.input = c :: rest ∧ parseCommand co o id s.parser c = .error e := by
  induction reach with
  | init => cases panicked
  | step _ _ _ stepped _ =>
    rcases (Stream.step_panicked stepped).2 with
      quiet | ⟨c, rest, e', hin, failed, input, parser, panic⟩ | ⟨p, panic, other⟩
    · rw [quiet] at panicked; cases panicked
    · rw [panic] at panicked
      cases panicked
      exact ⟨c, rest, input ▸ hin, parser ▸ failed⟩
    · rw [panic] at panicked; cases panicked; exact absurd rfl (other e)

end Steps

/-- The parser's panic. The parser loop, on any stream and from any state, panics exactly
with the message of the stream's first `select` that does not name a db by one integer; and
in the stream phase some interleaving reaches a parse panic with message `e` exactly when
`e` is that message for the source stream: no other command makes the parser panic, and the
commands before it never stop it. -/
theorem parse_panics_at_first_malformed_select (co : Collaborators) (o : Configuration)
    (id : Nat) (input : List CmdDetail) :
    (∀ st e, parseStream co o id st input = .error e ↔ input.findSome? (panicOf id) = some e) ∧
    ∀ e, (∃ s, Reachable co o id input s ∧ s.panicked = some (.parse e)) ↔
      input.findSome? (panicOf id) = some e := by
  refine ⟨fun st e => parseStream_eq_error co o id st input e, fun e => ⟨?_, fun first => ?_⟩⟩
  · rintro ⟨s, reach, panicked⟩
    obtain ⟨c, rest, hin, failed⟩ := reach.parse_panic panicked
    obtain ⟨pre, vs, split, parsed, -⟩ := reach.fifo
    -- the commands before the panic were all parsed
    have clean : pre.findSome? (panicOf id) = none := by
      cases panic : pre.findSome? (panicOf id) with
      | none => rfl
      | some e' => rw [← parseStream_eq_error co o id .init, parsed] at panic; cases panic
    rw [split, hin, List.findSome?_append, clean, Option.none_or, List.findSome?_cons,
      (parseCommand_eq_error co o id _ c e).mp failed]
  · obtain ⟨pre, c, rest, split, panic, clean⟩ := List.findSome?_eq_some_iff.mp first
    -- the parser accepts every command before `c`, and some interleaving takes it there
    obtain ⟨⟨st, vs⟩, parsed⟩ : ∃ r, parseStream co o id .init pre = .ok r := by
      cases h : parseStream co o id .init pre with
      | error e' => rw [parseStream_eq_error, List.findSome?_eq_none_iff.mpr clean] at h; cases h
      | ok r => exact ⟨r, rfl⟩
    obtain ⟨s, reach, quiet, hin, parser⟩ :=
      drains_prefix pre (c :: rest) (Stream.init input) st vs .init ⟨rfl, rfl, rfl, rfl⟩ split
        parsed
    have failed : parseCommand co o id s.parser c = .error e :=
      (parseCommand_eq_error co o id _ c e).mpr panic
    have panics : s.act co o id .parse =
        some { s with pullCmdCount := s.pullCmdCount + 1, panicked := some (.parse e) } := by
      simp [Stream.act, Stream.parse, quiet.out, hin, failed]
    exact ⟨_, reach.act quiet.alive trivial panics, rfl⟩

end RedisShake.Run
