import RedisShake.Configure

set_option autoImplicit false

namespace RedisShake.Run

open Go

/-! ### The `GetFakeSlaveOffset` goroutine of `syncCommand` -/

/-- How `utils.GetFakeSlaveOffset` fails: end of stream, a `net.Error`, or another error. -/
inductive ProbeError where
  | eof
  | net
  | other
deriving DecidableEq, Repr

/-- The goroutine's state: `ds.sourceOffset`, and how many times `srcConn` was opened. -/
structure Probe where
  sourceOffset : Int
  connections : Nat
deriving DecidableEq, Repr

/-- One tick. A failed probe is logged and reopens `srcConn` after end of stream or a network
error; a reply is stored by `ds.sourceOffset, err = strconv.ParseInt(offset, 10, 64)`, which
assigns the value `ParseInt` returns whether or not it also returns an error. -/
def Probe.tick (p : Probe) : Except ProbeError String → Probe
  | .error .eof | .error .net => { p with connections := p.connections + 1 }
  | .error .other => p
  | .ok offset => { p with sourceOffset := (parseInt offset).1 }

/-- The goroutine over the outcomes of its ticks, from a syncer whose `sourceOffset` is still
0; with `psync` off it returns before opening `srcConn`. -/
def fakeOffsetProbe (o : Configuration) (outcomes : List (Except ProbeError String)) : Probe :=
  if o.psync then outcomes.foldl Probe.tick ⟨0, 1⟩ else ⟨0, 0⟩

/-- The reply of the last probe that did not fail. -/
def lastReply (outcomes : List (Except ProbeError String)) : Option String :=
  (outcomes.filterMap Except.toOption).getLast?

theorem lastReply_cons (x : Except ProbeError String) (xs : List (Except ProbeError String)) :
    lastReply (x :: xs) = (lastReply xs).or x.toOption := by
  cases x with
  | error e => simp [lastReply, Except.toOption]
  | ok r =>
    simp only [lastReply, List.filterMap_cons, Except.toOption, List.getLast?_cons]
    cases (xs.filterMap Except.toOption).getLast? <;> rfl

theorem foldl_tick_sourceOffset (outcomes : List (Except ProbeError String)) (p : Probe) :
    (outcomes.foldl Probe.tick p).sourceOffset =
      ((lastReply outcomes).map fun r => (parseInt r).1).getD p.sourceOffset := by
  induction outcomes generalizing p with
  | nil => rfl
  | cons x xs ih =>
    rw [List.foldl_cons, ih, lastReply_cons]
    cases lastReply xs with
    | some r => rfl
    | none =>
      cases x with
      | error e => cases e <;> rfl
      | ok r => rfl

/-- After every tick `sourceOffset` holds what `strconv.ParseInt` returned for the last reply,
read or not, and 0 before the first one: a failed probe never changes it. -/
theorem probe_offset_follows_last_reply (o : Configuration)
    (outcomes : List (Except ProbeError String)) :
    (fakeOffsetProbe o outcomes).sourceOffset =
      if o.psync then ((lastReply outcomes).map fun r => (parseInt r).1).getD 0 else 0 := by
  unfold fakeOffsetProbe
  split
  next => exact foldl_tick_sourceOffset outcomes _
  next => rfl

/-- A reply `ParseInt` cannot read, after one it could: the stored offset drops from 100 to
0, the value `ParseInt` returns with its syntax error. -/
theorem unparsable_reply_resets_offset :
    (fakeOffsetProbe .plain [.ok "100"]).sourceOffset = 100 ∧
      (fakeOffsetProbe .plain [.ok "100", .ok "abc"]).sourceOffset = 0 := by
  decide

end RedisShake.Run
