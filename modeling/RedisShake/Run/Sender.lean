import RedisShake.Run.Pipeline
import RedisShake.Run.Routing

set_option autoImplicit false

namespace RedisShake.Run

open Go

variable {co : Collaborators} {o : Configuration} {id : Nat} {input : List CmdDetail}
  {allowed : Act → Prop}

theorem parseStream_snoc (c : CmdDetail) :
    ∀ (pre : List CmdDetail) (st st1 : ParserState) (vs : List Verdict),
      parseStream co o id st pre = .ok (st1, vs) →
      ∀ st2 v, parseCommand co o id st1 c = .ok (st2, v) →
      parseStream co o id st (pre ++ [c]) = .ok (st2, vs ++ [v])
  | [], st, st1, vs, parsed, st2, v, handled => by
    simp only [parseStream, Except.ok.injEq, Prod.mk.injEq] at parsed
    obtain ⟨rfl, rfl⟩ := parsed
    simp [parseStream, handled]
  | d :: pre, st, st1, vs, parsed, st2, v, handled => by
    simp only [parseStream] at parsed
    split at parsed
    next => cases parsed
    next sd w hd =>
      split at parsed
      next => cases parsed
      next st3 ws rest =>
        simp only [Except.ok.injEq, Prod.mk.injEq] at parsed
        obtain ⟨rfl, rfl⟩ := parsed
        simp [parseStream, hd, parseStream_snoc c pre sd _ ws rest st2 v handled]

/-! ### Order: the sender passes to `c.Send` exactly the parser's pushes -/

/-- The parser has run over a prefix of the input, and what it pushed is, in order, what was
passed to `c.Send`, then the command the sender holds, then what waits in `sendBuf`, then the
command the parser is blocked sending. -/
def Fifo (co : Collaborators) (o : Configuration) (id : Nat) (input : List CmdDetail)
    (s : Stream) : Prop :=
  ∃ pre vs, input = pre ++ s.input ∧ parseStream co o id .init pre = .ok (s.parser, vs) ∧
    s.sent ++ s.sender.holding.toList ++ s.sendBuf ++ s.parserOut.toList = pushed vs

theorem Stream.producer_frame {s s' : Stream} {a : Act} (h : s.act co o id a = some s')
    (other : a ≠ .parse ∧ a ≠ .push ∧ a ≠ .take ∧ a ≠ .send true) :
    s'.input = s.input ∧ s'.parser = s.parser ∧ s'.parserOut = s.parserOut ∧
      s'.sendBuf = s.sendBuf ∧ s'.sent = s.sent ∧ s'.sender.holding = s.sender.holding := by
  cases a with
  | parse | push | take => simp at other
  | send ok =>
    obtain ⟨x, -, rfl⟩ := Stream.send_some h
    cases ok
    · simp
    · simp at other
  | count =>
    obtain ⟨pc, rfl⟩ := Stream.count_some h
    refine ⟨rfl, rfl, rfl, rfl, rfl, ?_⟩
    dsimp only
    split <;> simp [pc, SenderPc.holding]
  | enqueue => obtain ⟨_, pc, rfl⟩ := Stream.enqueue_some h; simp [pc, SenderPc.holding]
  | flush ok =>
    obtain ⟨pc, rfl⟩ := Stream.flush_some h
    split <;> (try split) <;> simp [pc, SenderPc.holding]
  | transmit => obtain ⟨-, rfl⟩ := Stream.transmit_some h; simp
  | receive r =>
    obtain ⟨_, _, _, _, _, _, _, _, rfl⟩ := Stream.receiver_frame (.inr ⟨r, rfl⟩) h; simp
  | settle => obtain ⟨_, _, _, _, _, _, _, _, rfl⟩ := Stream.receiver_frame (.inl rfl) h; simp

theorem fifo_step {s s' : Stream} {a : Act} (fifo : Fifo co o id input s)
    (h : s.step co o id a = some s') : Fifo co o id input s' := by
  obtain ⟨-, h⟩ := Stream.step_some h
  obtain ⟨pre, vs, split, parsed, order⟩ := fifo
  by_cases other : a ≠ .parse ∧ a ≠ .push ∧ a ≠ .take ∧ a ≠ .send true
  next =>
    obtain ⟨same1, same2, same3, same4, same5, same6⟩ := Stream.producer_frame h other
    exact ⟨pre, vs, same1 ▸ split, same2 ▸ parsed, by rw [same3, same4, same5, same6]; exact order⟩
  simp only [ne_eq, not_and, not_not] at other
  by_cases parse : a = .parse
  next =>
    subst parse
    obtain ⟨quiet, c, rest, hin, (⟨e, -, rfl⟩ | ⟨st, v, handled, rfl⟩)⟩ := Stream.parse_some h
    next => exact ⟨pre, vs, split, parsed, order⟩
    next =>
      have snoc := parseStream_snoc c pre _ _ vs parsed st v handled
      cases v <;> exact ⟨pre ++ [c], _, by simp [Stream.parsed, split, hin], snoc,
        by simp_all [Stream.parsed, pushed_append]⟩
  by_cases push : a = .push
  next =>
    subst push
    obtain ⟨x, hx, -, rfl⟩ := Stream.push_some h
    exact ⟨pre, vs, split, parsed, by simpa [hx] using order⟩
  by_cases take : a = .take
  next =>
    subst take
    obtain ⟨x, rest, pc, hbuf, rfl⟩ := Stream.take_some h
    exact ⟨pre, vs, split, parsed, by simpa [pc, hbuf, SenderPc.holding] using order⟩
  obtain rfl : a = .send true := other parse push take
  obtain ⟨x, pc, rfl⟩ := Stream.send_some h
  exact ⟨pre, vs, split, parsed, by simpa [pc, SenderPc.holding] using order⟩

theorem Reach.fifo {s : Stream} (reach : Reach co o id input allowed s) :
    Fifo co o id input s := by
  induction reach with
  | init => exact ⟨[], [], rfl, rfl, rfl⟩
  | step _ _ _ stepped ih => exact fifo_step ih stepped

/-! ### Every stream the parser accepts is drained by some run -/

/-- Nothing between the parser and the connection: the parser is not blocked, `sendBuf` is
empty, the sender waits and no goroutine has panicked. -/
structure Quiet (s : Stream) : Prop where
  out : s.parserOut = none
  empty : s.sendBuf = []
  waiting : s.sender = .recv
  alive : s.panicked = none

theorem Reach.act {s s' : Stream} {a : Act} (reach : Reach co o id input allowed s)
    (alive : s.panicked = none) (fine : allowed a) (h : s.act co o id a = some s') :
    Reach co o id input allowed s' :=
  Reach.step a reach fine (by simp [Stream.step, alive, h])

theorem sender_flushes {s : Stream} (reach : Reachable co o id input s)
    (alive : s.panicked = none) (flushing : s.sender = .flush) :
    ∃ s', Reachable co o id input s' ∧ s'.sender = .recv ∧ s'.panicked = none ∧
      s'.input = s.input ∧ s'.parser = s.parser ∧ s'.parserOut = s.parserOut ∧
      s'.sendBuf = s.sendBuf := by
  by_cases due : flushDue o s = true
  next =>
    have h : s.act co o id (.flush true) =
        some { s with sender := .recv, noFlushCount := 0, cachedSize := 0,
                      flushed := s.sent.length, transmitted := s.sent.length } := by
      simp [Stream.act, Stream.flush, flushing, due]
    exact ⟨_, reach.act alive trivial h, rfl, alive, rfl, rfl, rfl, rfl⟩
  next =>
    have h : s.act co o id (.flush true) = some { s with sender := .recv } := by
      simp [Stream.act, Stream.flush, flushing, due]
    exact ⟨_, reach.act alive trivial h, rfl, alive, rfl, rfl, rfl, rfl⟩

theorem sender_enqueues {s : Stream} {n : Nat} (reach : Reachable co o id input s)
    (alive : s.panicked = none) (sampling : s.sender = .enqueue n) :
    ∃ s', Reachable co o id input s' ∧ s'.sender = .recv ∧ s'.panicked = none ∧
      s'.input = s.input ∧ s'.parser = s.parser ∧ s'.parserOut = s.parserOut ∧
      s'.sendBuf = s.sendBuf := by
  obtain ⟨s1, h⟩ : ∃ s1, s.act co o id .enqueue = some s1 := by
    simp only [Stream.act, Stream.enqueue, sampling]; exact ⟨_, rfl⟩
  have reach1 := reach.act alive trivial h
  obtain ⟨_, -, rfl⟩ := Stream.enqueue_some h
  obtain ⟨t, r, h1, h2, h3, h4, h5, h6⟩ := sender_flushes reach1 alive rfl
  exact ⟨t, r, h1, h2, h3, h4, h5, h6⟩

theorem sender_completes {s : Stream} (reach : Reachable co o id input s)
    (alive : s.panicked = none) (counting : s.sender = .count) :
    ∃ s', Reachable co o id input s' ∧ s'.sender = .recv ∧ s'.panicked = none ∧
      s'.input = s.input ∧ s'.parser = s.parser ∧ s'.parserOut = s.parserOut ∧
      s'.sendBuf = s.sendBuf := by
  obtain ⟨s1, h1⟩ : ∃ s1, s.act co o id .count = some s1 := by
    simp only [Stream.act, Stream.count, counting]; exact ⟨_, rfl⟩
  have reach1 := reach.act alive trivial h1
  obtain ⟨-, rfl⟩ := Stream.count_some h1
  split at reach1
  next =>
    obtain ⟨t, r, h1, h2, h3, h4, h5, h6⟩ := sender_enqueues reach1 alive rfl
    exact ⟨t, r, h1, h2, h3, h4, h5, h6⟩
  next =>
    obtain ⟨t, r, h1, h2, h3, h4, h5, h6⟩ := sender_flushes reach1 alive rfl
    exact ⟨t, r, h1, h2, h3, h4, h5, h6⟩

theorem handed_over {s : Stream} {x : CmdDetail} (reach : Reachable co o id input s)
    (alive : s.panicked = none) (out : s.parserOut = some x) (empty : s.sendBuf = [])
    (waiting : s.sender = .recv) :
    ∃ s', Reachable co o id input s' ∧ s'.sender = .count ∧ s'.panicked = none ∧
      s'.input = s.input ∧ s'.parser = s.parser ∧ s'.parserOut = none ∧ s'.sendBuf = [] := by
  have pushed : s.act co o id .push = some { s with parserOut := none, sendBuf := [x] } := by
    simp [Stream.act, Stream.push, out, empty, waiting]
  have taken : Stream.act co o id { s with parserOut := none, sendBuf := [x] } .take =
      some { s with parserOut := none, sendBuf := [], sender := .send x } := by
    simp [Stream.act, Stream.take, waiting]
  obtain ⟨s3, sent⟩ : ∃ s3,
      Stream.send { s with parserOut := none, sendBuf := [], sender := .send x } true = some s3 :=
    ⟨_, rfl⟩
  have reach3 := ((reach.act alive trivial pushed).act alive trivial taken).act alive trivial
    (show Stream.act co o id _ (.send true) = some s3 from sent)
  obtain ⟨_, -, rfl⟩ := Stream.send_some sent
  exact ⟨_, reach3, rfl, alive, rfl, rfl, rfl, rfl⟩

theorem drains_prefix : ∀ (pre post : List CmdDetail) (s : Stream) (st : ParserState)
    (vs : List Verdict), Reachable co o id input s → Quiet s → s.input = pre ++ post →
    parseStream co o id s.parser pre = .ok (st, vs) →
    ∃ s', Reachable co o id input s' ∧ Quiet s' ∧ s'.input = post ∧ s'.parser = st
  | [], post, s, _, _, reach, quiet, hin, parsed => by
    simp only [parseStream, Except.ok.injEq, Prod.mk.injEq] at parsed
    exact ⟨s, reach, quiet, hin, parsed.1⟩
  | c :: cs, post, s, st, vs, reach, quiet, hin, parsed => by
    simp only [parseStream] at parsed
    split at parsed
    next => cases parsed
    next st1 v handled =>
      split at parsed
      next => cases parsed
      next st2 ws later =>
        obtain ⟨rfl, -⟩ := Prod.mk.inj (Except.ok.inj parsed)
        have parse : s.act co o id .parse = some (s.parsed (cs ++ post) st1 v) := by
          simp [Stream.act, Stream.parse, quiet.out, hin, handled]
        have reach1 := reach.act quiet.alive trivial parse
        cases v with
        | bypass m =>
          exact drains_prefix cs post _ _ ws reach1
            ⟨quiet.out, quiet.empty, quiet.waiting, quiet.alive⟩ rfl later
        | push x =>
          obtain ⟨s2, reach2, counting, alive, same1, same2, out, empty⟩ :=
            handed_over reach1 quiet.alive rfl quiet.empty quiet.waiting
          obtain ⟨s3, reach3, waiting, alive3, same3, same4, same5, same6⟩ :=
            sender_completes reach2 alive counting
          exact drains_prefix cs post s3 _ ws reach3
            ⟨same5.trans out, same6.trans empty, waiting, alive3⟩
            (same3.trans same1) (by rw [same4, same2]; exact later)

theorem drains : ∀ (rest : List CmdDetail) (s : Stream) (st : ParserState) (vs : List Verdict),
    Reachable co o id input s → Quiet s → s.input = rest →
    parseStream co o id s.parser rest = .ok (st, vs) →
    ∃ s', Reachable co o id input s' ∧ Quiet s' ∧ s'.input = [] :=
  fun rest s st vs reach quiet hin parsed =>
    let ⟨s', reach', quiet', done, _⟩ :=
      drains_prefix rest [] s st vs reach quiet (by rw [hin, List.append_nil]) parsed
    ⟨s', reach', quiet', done⟩

/-- The forwarding theorem of the stream phase. For a stream whose every `select` names a db
and whose data commands all follow a `select`, with `filter.key` unset or `select` absent
from the command registry, some interleaving drains the whole stream; and in every
interleaving that has drained it, the commands passed to `c.Send`, replayed on a target that
starts in db 0, run exactly the source's data commands in accepted dbs that the key filter
keeps, in source order, each in `int32(target.db)` under an override and in its source db
otherwise. -/
theorem stream_forwards_routed_commands (co : Collaborators) (o : Configuration) (id : Nat)
    (input : List CmdDetail) (unfiltered : SelectUnfiltered co o)
    (wellFormed : selectsWellFormed input = true) (first : selectFirst input = true) :
    (∃ s, Reachable co o id input s ∧ s.input = [] ∧ s.sendBuf = [] ∧ s.parserOut = none ∧
      s.sender.holding = none) ∧
    ∀ s, Reachable co o id input s → s.input = [] → s.sendBuf = [] → s.parserOut = none →
      s.sender.holding = none → replay 0 s.sent = routing co o (toInt32 o.targetDB) none input := by
  obtain ⟨st, vs, parsed, routed⟩ :=
    parseStream_routes co o id unfiltered input .init 0 none ⟨rfl, rfl⟩ wellFormed
      fun _ => first
  constructor
  next =>
    obtain ⟨s, reach, quiet, done⟩ :=
      drains input (Stream.init input) st vs Reach.init ⟨rfl, rfl, rfl, rfl⟩ rfl parsed
    exact ⟨s, reach, done, quiet.empty, quiet.out, by rw [quiet.waiting]; rfl⟩
  next =>
    intro s reach done empty out idle
    obtain ⟨pre, ws, split, parsedPre, order⟩ := reach.fifo
    rw [done, List.append_nil] at split
    subst split
    rw [parsed] at parsedPre
    cases parsedPre
    simpa [empty, out, idle, ← routed] using congrArg (replay 0) order

theorem stream_forwards_routed_commands_on_override :
    SelectUnfiltered .permissive { Configuration.plain with targetDB := 3 } ∧
    selectsWellFormed [⟨"select", ["0"]⟩, ⟨"set", ["a", "1"]⟩] = true ∧
    selectFirst [⟨"select", ["0"]⟩, ⟨"set", ["a", "1"]⟩] = true ∧
    ∃ s, Reachable .permissive { Configuration.plain with targetDB := 3 } 0
        [⟨"select", ["0"]⟩, ⟨"set", ["a", "1"]⟩] s ∧
      s.input = [] ∧ s.sendBuf = [] ∧ s.parserOut = none ∧ s.sender.holding = none ∧
      replay 0 s.sent = [(⟨"set", ["a", "1"]⟩, 3)] := by
  have result := stream_forwards_routed_commands .permissive
    { Configuration.plain with targetDB := 3 } 0 [⟨"select", ["0"]⟩, ⟨"set", ["a", "1"]⟩]
    (.inl rfl) (by decide) (by decide)
  obtain ⟨s, reach, done, empty, out, idle⟩ := result.1
  exact ⟨.inl rfl, by decide, by decide, s, reach, done, empty, out, idle,
    (result.2 s reach done empty out idle).trans (by decide)⟩

/-- What reaches `c.Send` in every interleaving of the stream phase, for every stream and
filter: each command passed to it stands for its own command of the source stream, at
strictly increasing positions, that is not an `opinfo`, that the key filter keeps, and whose
db, the one the last `select` up to it names, is accepted; it goes out as the override
`SELECT` for a `select`, or with the filter's arguments. -/
theorem sent_only_from_accepted_dbs (co : Collaborators) (o : Configuration) (id : Nat)
    (input : List CmdDetail) (s : Stream) (reach : Reachable co o id input s) :
    ∃ idx : List Nat, idx.length = s.sent.length ∧ idx.Pairwise (· < ·) ∧
      ∀ (j : Nat) (x : CmdDetail), s.sent[j]? = some x →
        ∃ (i : Nat) (c : CmdDetail), idx[j]? = some i ∧ input[i]? = some c ∧
          (∀ d, lastSelectDb (input.take (i + 1)) = some d → co.acceptDB (toUint32 d) = true) ∧
          SentFor co o c x := by
  obtain ⟨pre, vs, split, parsed, order⟩ := reach.fifo
  obtain ⟨-, idx, sized, sorted, aligned⟩ := parseStream_bypass .init pre _ vs parsed
  -- what was passed to `c.Send` is a prefix of what the parser pushed
  have prefixed : s.sent <+: pushed vs :=
    ⟨s.sender.holding.toList ++ s.sendBuf ++ s.parserOut.toList, by rw [← order]; simp⟩
  have shorter : s.sent.length ≤ idx.length := sized ▸ prefixed.length_le
  refine ⟨idx.take s.sent.length, by simp [shorter], sorted.sublist (List.take_sublist _ _),
    fun j x found => ?_⟩
  have inside : j < s.sent.length := (List.getElem?_eq_some_iff.mp found).1
  obtain ⟨i, c, place, found', clear, allowed⟩ :=
    aligned j x (by rw [← order, List.append_assoc, List.append_assoc,
      List.getElem?_append_left inside, found])
  have before : i < pre.length := (List.getElem?_eq_some_iff.mp found').1
  refine ⟨i, c, by rw [List.getElem?_take_of_lt inside]; exact place,
    by rw [split, List.getElem?_append_left before]; exact found', fun d last => ?_, allowed⟩
  rw [split, List.take_append_of_le_length before] at last
  simpa [bypassAfter, last] using clear

theorem sent_only_from_accepted_dbs_on_two :
    ∃ s, Reachable .permissive .plain 0 [⟨"select", ["0"]⟩, ⟨"set", ["a", "1"]⟩] s ∧
      s.sent = [⟨"select", ["0"]⟩, ⟨"set", ["a", "1"]⟩] ∧
      ∃ idx : List Nat, idx.length = 2 ∧ idx.Pairwise (· < ·) := by
  obtain ⟨s, reach, final⟩ := Reach.of_run .permissive .plain 0
    [⟨"select", ["0"]⟩, ⟨"set", ["a", "1"]⟩] (fun _ => True)
    [.parse, .push, .take, .send true, .count, .flush true, .parse, .push, .take, .send true]
    (fun s => s.sent == [⟨"select", ["0"]⟩, ⟨"set", ["a", "1"]⟩]) (by simp) (by decide)
  have sent : s.sent = [⟨"select", ["0"]⟩, ⟨"set", ["a", "1"]⟩] := by simpa using final
  obtain ⟨idx, sized, sorted, -⟩ := sent_only_from_accepted_dbs _ _ _ _ s reach
  exact ⟨s, reach, sent, idx, by rw [sized, sent]; rfl, sorted⟩

end RedisShake.Run
