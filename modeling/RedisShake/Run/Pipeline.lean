import RedisShake.Run.Parser
import RedisShake.Schedule

set_option autoImplicit false

namespace RedisShake.Run

/-- Where the sender goroutine of `syncCommand` is in its loop. -/
inductive SenderPc where
  /-- blocked in `range ds.sendBuf` -/
  | recv
  /-- holding the command `range ds.sendBuf` gave it, in `c.Send` -/
  | send (item : CmdDetail)
  /-- after `c.Send`: `sendId.Incr()` and `addDelayChan`'s sampling decision next -/
  | count
  /-- `addDelayChan` samples this id: its non-blocking send next -/
  | enqueue (id : Nat)
  /-- the flush check next -/
  | flush
deriving DecidableEq, Repr

/-- The command the sender holds across `c.Send`. -/
def SenderPc.holding : SenderPc → Option CmdDetail
  | .send x => some x
  | _ => none

/-- Where the receiver goroutine is: blocked in `c.Receive()`, or past a counted reply with
the delay bookkeeping next. -/
inductive ReceiverPc where
  | receive
  | settle
deriving DecidableEq, Repr

/-- Why a goroutine of the stream phase panicked. -/
inductive Panic where
  /-- the parser's `log.Panicf` on a malformed `select`, with its text -/
  | parse (message : String)
  /-- the sender's `Event:SendToTargetFail` on an error of `c.Send` -/
  | sendToTargetFail
  /-- the sender's `Event:NetErrorWhileFlush` on a network error of `c.Flush` -/
  | netErrorWhileFlush
  /-- the receiver's `Event:NetErrorWhileReceive` -/
  | netErrorWhileReceive
  /-- the receiver's `Event:ErrorReply` -/
  | errorReply
  /-- the receiver's `node.id < id` check -/
  | idInvalid (node recv : Nat)
deriving DecidableEq, Repr

/-- The text `log.Panicf` prints for a panic of syncer `id`, up to the configuration's `Id`
and the error's text, which the model does not carry. -/
def Panic.message (id : Nat) : Panic → String
  | .parse m => m
  | .sendToTargetFail => s!"dbSyncer[{id}] Event:SendToTargetFail"
  | .netErrorWhileFlush => s!"dbSyncer[{id}] Event:NetErrorWhileFlush"
  | .netErrorWhileReceive => s!"dbSyncer[{id}] Event:NetErrorWhileReceive"
  | .errorReply => s!"dbSyncer[{id}] Event:ErrorReply"
  | .idInvalid n r => s!"dbSyncer[{id}] receive id invalid: node-id[{n}] < receive-id[{r}]"

/-- The panics of the receiver goroutine. -/
def Panic.byReceiver : Panic → Bool
  | .netErrorWhileReceive | .errorReply | .idInvalid _ _ => true
  | _ => false

/-- What `c.Receive()` returns: the reply to the oldest command on the wire, an error reply
to it, or a network error, which comes with no command outstanding as well. -/
inductive Reply where
  | ok
  | errorReply
  | netError
deriving DecidableEq, Repr

/-- The stream phase of one syncer: the parser, `sendBuf`, the sender, the target
connection, the receiver and `delayChannel`, with the syncer's and the metric's counters.
`parserOut` is a command the parser is blocked sending into `sendBuf`, and the sender's
place carries the command it holds across `c.Send`; `flushed` and
`transmitted` count the commands of `sent` before the last `Flush` and those that have
reached the target. Delay nodes carry their id only: their timestamps are wall-clock
time, and a recorded delay is kept as the pair of ids it compared. -/
structure Stream where
  input : List CmdDetail
  parser : ParserState
  parserOut : Option CmdDetail
  sendBuf : List CmdDetail
  sender : SenderPc
  noFlushCount : Nat
  cachedSize : Nat
  sendId : Nat
  sent : List CmdDetail
  flushed : Nat
  transmitted : Nat
  recvId : Nat
  receiver : ReceiverPc
  node : Option Nat
  delayChannel : List Nat
  forward : Nat
  nbypass : Nat
  pullCmdCount : Nat
  pushCmdCount : Nat
  bypassCmdCount : Nat
  networkFlow : Nat
  successCmdCount : Nat
  failCmdCount : Nat
  delays : List (Nat × Nat)
  panicked : Option Panic
deriving Repr

def Stream.init (input : List CmdDetail) : Stream where
  input := input
  parser := .init
  parserOut := none
  sendBuf := []
  sender := .recv
  noFlushCount := 0
  cachedSize := 0
  sendId := 0
  sent := []
  flushed := 0
  transmitted := 0
  recvId := 0
  receiver := .receive
  node := none
  delayChannel := []
  forward := 0
  nbypass := 0
  pullCmdCount := 0
  pushCmdCount := 0
  bypassCmdCount := 0
  networkFlow := 0
  successCmdCount := 0
  failCmdCount := 0
  delays := []
  panicked := none

/-- One step of one goroutine, or of the connection. -/
inductive Act where
  /-- the parser handles the next decoded command -/
  | parse
  /-- the parser's blocked send into `sendBuf` completes -/
  | push
  /-- `range ds.sendBuf` hands the sender the head of `sendBuf` -/
  | take
  /-- `c.Send` returns, without an error or with one -/
  | send (ok : Bool)
  | count
  | enqueue
  /-- the flush check; a due `c.Flush` returns without an error or with a network error -/
  | flush (ok : Bool)
  /-- the connection's write buffer puts one more sent command on the wire -/
  | transmit
  /-- `c.Receive()` returns -/
  | receive (r : Reply)
  | settle
deriving DecidableEq, Repr

/-- `addDelayChan`'s sampling rule on the free room `used` of the delay channel. -/
def sampled (used id : Nat) : Bool :=
  4096 ≤ used || 1024 ≤ used && id % 10 == 0 || 128 ≤ used && id % 100 == 0 || id % 1000 == 0

/-- The flush condition at the end of a sender iteration. -/
def flushDue (o : Configuration) (s : Stream) : Bool :=
  o.senderCount < s.noFlushCount || o.senderSize < s.cachedSize || s.sendBuf.length == 0

section Steps

variable (co : Collaborators) (o : Configuration) (id : Nat) (s : Stream)

/-- The state once the parser has handled a command with verdict `v`. -/
def Stream.parsed (rest : List CmdDetail) (st : ParserState) : Verdict → Stream
  | .push x =>
    { s with input := rest, parser := st, parserOut := some x,
             pullCmdCount := s.pullCmdCount + 1 }
  | .bypass m =>
    { s with input := rest, parser := st, nbypass := s.nbypass + 1,
             pullCmdCount := s.pullCmdCount + 1,
             bypassCmdCount := s.bypassCmdCount + if m then 1 else 0 }

def Stream.parse : Option Stream :=
  match s.parserOut, s.input with
  | none, c :: rest =>
    match parseCommand co o id s.parser c with
    | .error e => some { s with pullCmdCount := s.pullCmdCount + 1, panicked := some (.parse e) }
    | .ok (st, v) => some (s.parsed rest st v)
  | _, _ => none

/-- `ds.sendBuf <- x`: room in the buffer, or, for an unbuffered channel, the sender
waiting on an empty one. -/
def Stream.push : Option Stream :=
  match s.parserOut with
  | some x =>
    if s.sendBuf.length < o.senderCount ∨ (s.sendBuf = [] ∧ s.sender = .recv) then
      some { s with parserOut := none, sendBuf := s.sendBuf ++ [x] }
    else none
  | none => none

def Stream.take : Option Stream :=
  match s.sender, s.sendBuf with
  | .recv, x :: rest => some { s with sendBuf := rest, sender := .send x }
  | _, _ => none

def Stream.send (ok : Bool) : Option Stream :=
  match s.sender with
  | .send x =>
    if ok then
      some { s with sent := s.sent ++ [x], sender := .count,
                    noFlushCount := (s.noFlushCount + 1) % 2 ^ 64,
                    forward := s.forward + 1, pushCmdCount := s.pushCmdCount + 1,
                    networkFlow := s.networkFlow + x.length }
    else some { s with panicked := some .sendToTargetFail }
  | _ => none

def Stream.count : Option Stream :=
  match s.sender with
  | .count =>
    some { s with sendId := s.sendId + 1,
                  sender := if o.metric && sampled (o.senderDelayChannelSize -
                      s.delayChannel.length) (s.sendId + 1)
                    then .enqueue (s.sendId + 1) else .flush }
  | _ => none

/-- The non-blocking send into `delayChannel`; a full channel drops the sample. -/
def Stream.enqueue : Option Stream :=
  match s.sender with
  | .enqueue n =>
    some { s with sender := .flush,
                  delayChannel := if s.delayChannel.length < o.senderDelayChannelSize
                    then s.delayChannel ++ [n] else s.delayChannel }
  | _ => none

def Stream.flush (ok : Bool) : Option Stream :=
  match s.sender with
  | .flush =>
    if flushDue o s then
      if ok then
        some { s with sender := .recv, noFlushCount := 0, cachedSize := 0,
                      flushed := s.sent.length, transmitted := s.sent.length }
      else some { s with noFlushCount := 0, cachedSize := 0, panicked := some .netErrorWhileFlush }
    else some { s with sender := .recv }
  | _ => none

def Stream.transmit : Option Stream :=
  if s.transmitted < s.sent.length then some { s with transmitted := s.transmitted + 1 }
  else none

/-- The metric's count of what `c.Receive()` returned, and its panics. -/
def Stream.replied : Reply → Stream
  | .ok => { s with successCmdCount := s.successCmdCount + 1, receiver := .settle }
  | .errorReply => { s with failCmdCount := s.failCmdCount + 1, panicked := some .errorReply }
  | .netError =>
    { s with failCmdCount := s.failCmdCount + 1, panicked := some .netErrorWhileReceive }

/-- `c.Receive()` returns, `recvId.Incr()` counts it, and with metrics off the loop goes on. -/
def Stream.receive (r : Reply) : Option Stream :=
  if s.receiver = .receive ∧ (r = .netError ∨ s.recvId < s.transmitted) then
    let s := { s with recvId := s.recvId + 1 }
    some (if o.metric then s.replied r else s)
  else none

/-- The node the receiver compares: the one it holds, or else the head of `delayChannel`,
which the non-blocking receive takes. -/
def Stream.pick : Option Nat × List Nat :=
  match s.node, s.delayChannel with
  | none, n :: rest => (some n, rest)
  | node, queue => (node, queue)

/-- The id comparison against the node picked. -/
def Stream.compare : Option Nat → Stream
  | none => { s with node := none }
  | some n =>
    if n = s.recvId then { s with node := none, delays := s.delays ++ [(n, s.recvId)] }
    else if n < s.recvId then { s with node := some n, panicked := some (.idInvalid n s.recvId) }
    else { s with node := some n }

/-- The receiver's lazy dequeue and the id comparison. -/
def Stream.settle : Option Stream :=
  if s.receiver = .settle then
    some (({ s with delayChannel := s.pick.2, receiver := .receive } : Stream).compare s.pick.1)
  else none

/-- One step of one goroutine, or of the connection. -/
def Stream.act : Act → Option Stream
  | .parse => s.parse co o id
  | .push => s.push o
  | .take => s.take
  | .send ok => s.send ok
  | .count => s.count o
  | .enqueue => s.enqueue o
  | .flush ok => s.flush o ok
  | .transmit => s.transmit
  | .receive r => s.receive o r
  | .settle => s.settle

/-- One step of the stream phase; a panic stops every goroutine. -/
def Stream.step (a : Act) : Option Stream :=
  if s.panicked.isSome then none else s.act co o id a

/-! ### What each step can do -/

variable {co o id s} {s' : Stream}

theorem Stream.step_some {a : Act} (h : s.step co o id a = some s') :
    s.panicked = none ∧ s.act co o id a = some s' := by
  unfold Stream.step at h
  split at h
  next => cases h
  next quiet => exact ⟨Option.not_isSome_iff_eq_none.mp quiet, h⟩

theorem Stream.parse_some (h : s.parse co o id = some s') :
    s.parserOut = none ∧ ∃ c rest, s.input = c :: rest ∧
      ((∃ e, parseCommand co o id s.parser c = .error e ∧
          s' = { s with pullCmdCount := s.pullCmdCount + 1, panicked := some (.parse e) }) ∨
       (∃ st v, parseCommand co o id s.parser c = .ok (st, v) ∧ s' = s.parsed rest st v)) := by
  unfold Stream.parse at h
  split at h
  next out c rest hout hin =>
    refine ⟨hout, c, rest, hin, ?_⟩
    split at h
    next e he => exact .inl ⟨e, he, (Option.some.inj h).symm⟩
    next st v hv => exact .inr ⟨st, v, hv, (Option.some.inj h).symm⟩
  next => cases h

theorem Stream.push_some (h : s.push o = some s') :
    ∃ x, s.parserOut = some x ∧
      (s.sendBuf.length < o.senderCount ∨ (s.sendBuf = [] ∧ s.sender = .recv)) ∧
      s' = { s with parserOut := none, sendBuf := s.sendBuf ++ [x] } := by
  unfold Stream.push at h
  split at h
  next x hx =>
    split at h
    next room => exact ⟨x, hx, room, (Option.some.inj h).symm⟩
    next => cases h
  next => cases h

theorem Stream.take_some (h : s.take = some s') :
    ∃ x rest, s.sender = .recv ∧ s.sendBuf = x :: rest ∧
      s' = { s with sendBuf := rest, sender := .send x } := by
  unfold Stream.take at h
  split at h
  next x rest hpc hbuf => exact ⟨x, rest, hpc, hbuf, (Option.some.inj h).symm⟩
  next => cases h

theorem Stream.send_some {ok : Bool} (h : s.send ok = some s') :
    ∃ x, s.sender = .send x ∧
      s' = if ok then
          { s with sent := s.sent ++ [x], sender := .count,
                   noFlushCount := (s.noFlushCount + 1) % 2 ^ 64,
                   forward := s.forward + 1, pushCmdCount := s.pushCmdCount + 1,
                   networkFlow := s.networkFlow + x.length }
        else { s with panicked := some .sendToTargetFail } := by
  unfold Stream.send at h
  split at h
  next x hpc => exact ⟨x, hpc, by cases ok <;> simpa using h.symm⟩
  next => cases h

theorem Stream.count_some (h : s.count o = some s') :
    s.sender = .count ∧
      s' = { s with sendId := s.sendId + 1,
                    sender := if o.metric && sampled (o.senderDelayChannelSize -
                        s.delayChannel.length) (s.sendId + 1)
                      then .enqueue (s.sendId + 1) else .flush } := by
  unfold Stream.count at h
  split at h
  next hpc => exact ⟨hpc, (Option.some.inj h).symm⟩
  next => cases h

theorem Stream.enqueue_some (h : s.enqueue o = some s') :
    ∃ n, s.sender = .enqueue n ∧
      s' = { s with sender := .flush,
                    delayChannel := if s.delayChannel.length < o.senderDelayChannelSize
                      then s.delayChannel ++ [n] else s.delayChannel } := by
  unfold Stream.enqueue at h
  split at h
  next n hpc => exact ⟨n, hpc, (Option.some.inj h).symm⟩
  next => cases h

theorem Stream.flush_some {ok : Bool} (h : s.flush o ok = some s') :
    s.sender = .flush ∧
      s' = if flushDue o s then
          if ok then
            { s with sender := .recv, noFlushCount := 0, cachedSize := 0,
                     flushed := s.sent.length, transmitted := s.sent.length }
          else { s with noFlushCount := 0, cachedSize := 0, panicked := some .netErrorWhileFlush }
        else { s with sender := .recv } := by
  unfold Stream.flush at h
  split at h
  next hpc =>
    refine ⟨hpc, ?_⟩
    by_cases due : flushDue o s = true <;> cases ok <;> simp_all
  next => cases h

theorem Stream.transmit_some (h : s.transmit = some s') :
    s.transmitted < s.sent.length ∧ s' = { s with transmitted := s.transmitted + 1 } := by
  unfold Stream.transmit at h
  split at h
  next room => exact ⟨room, (Option.some.inj h).symm⟩
  next => cases h

theorem Stream.receive_some {r : Reply} (h : s.receive o r = some s') :
    s.receiver = .receive ∧ (r = .netError ∨ s.recvId < s.transmitted) ∧
      s' = if o.metric then ({ s with recvId := s.recvId + 1 } : Stream).replied r
        else { s with recvId := s.recvId + 1 } := by
  unfold Stream.receive at h
  split at h
  next ready => exact ⟨ready.1, ready.2, (Option.some.inj h).symm⟩
  next => cases h

theorem Stream.settle_some (h : s.settle = some s') :
    s.receiver = .settle ∧
      s' = ({ s with delayChannel := s.pick.2, receiver := .receive } : Stream).compare
        s.pick.1 := by
  unfold Stream.settle at h
  split at h
  next ready => exact ⟨ready, (Option.some.inj h).symm⟩
  next => cases h

theorem Stream.receiver_frame {a : Act} (receiver : a = .settle ∨ ∃ r, a = .receive r)
    (h : s.act co o id a = some s') :
    ∃ recvId rpc node queue delays success fail panicked,
      s' = { s with recvId := recvId, receiver := rpc, node := node, delayChannel := queue,
                    delays := delays, successCmdCount := success, failCmdCount := fail,
                    panicked := panicked } := by
  rcases receiver with rfl | ⟨r, rfl⟩
  next =>
    obtain ⟨-, rfl⟩ := Stream.settle_some h
    unfold Stream.compare
    split
    next => exact ⟨_, _, _, _, _, _, _, _, rfl⟩
    next n =>
      split
      next => exact ⟨_, _, _, _, _, _, _, _, rfl⟩
      next => split <;> exact ⟨_, _, _, _, _, _, _, _, rfl⟩
  next =>
    obtain ⟨-, -, rfl⟩ := Stream.receive_some h
    split
    next => cases r <;> exact ⟨_, _, _, _, _, _, _, _, rfl⟩
    next => exact ⟨_, _, _, _, _, _, _, _, rfl⟩

end Steps

/-- The states a run reaches from `Stream.init input` through steps whose actions satisfy
`allowed`: every interleaving of the goroutines and of the connection. -/
inductive Reach (co : Collaborators) (o : Configuration) (id : Nat) (input : List CmdDetail)
    (allowed : Act → Prop) : Stream → Prop where
  | init : Reach co o id input allowed (Stream.init input)
  | step {s s' : Stream} (a : Act) : Reach co o id input allowed s → allowed a →
      s.step co o id a = some s' → Reach co o id input allowed s'

/-- Every interleaving, with sent commands reaching the target at any moment. -/
abbrev Reachable (co : Collaborators) (o : Configuration) (id : Nat) (input : List CmdDetail) :
    Stream → Prop :=
  Reach co o id input fun _ => True

/-- Replay a schedule from a state. -/
def Stream.run (co : Collaborators) (o : Configuration) (id : Nat) :
    Stream → List Act → Option Stream :=
  runSchedule fun s a => s.step co o id a

theorem Reach.run {co : Collaborators} {o : Configuration} {id : Nat}
    {input : List CmdDetail} {allowed : Act → Prop} {s s' : Stream} {as : List Act}
    (reach : Reach co o id input allowed s) (fine : ∀ a ∈ as, allowed a)
    (ran : s.run co o id as = some s') : Reach co o id input allowed s' :=
  runSchedule_closed (Reach co o id input allowed) allowed
    (fun reach fine stepped => .step _ reach fine stepped) reach fine ran

theorem Reach.of_run (co : Collaborators) (o : Configuration) (id : Nat)
    (input : List CmdDetail) (allowed : Act → Prop) (as : List Act) (p : Stream → Bool)
    (fine : ∀ a ∈ as, allowed a) (ran : ((Stream.init input).run co o id as).map p = some true) :
    ∃ s, Reach co o id input allowed s ∧ p s = true :=
  exists_of_runSchedule (Reach co o id input allowed) allowed
    (fun reach fine stepped => .step _ reach fine stepped) p .init fine ran

end RedisShake.Run
