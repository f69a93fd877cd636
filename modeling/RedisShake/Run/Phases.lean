import RedisShake.Run.Sender
import RedisShake.Run.Restore

set_option autoImplicit false

namespace RedisShake.Run

open Go

/-! ### The snapshot phase against the stream phase -/

theorem route_data (co : Collaborators) (o : Configuration) (st : ParserState) (c : CmdDetail)
    (notPing : c.cmd ≠ "ping") :
    route co o st false false c = (st, if st.bypass then .bypass true
      else if (keyFilter co o c).2 then .push ⟨c.cmd, (keyFilter co o c).1⟩ else .bypass false) := by
  have go : (c.cmd != "ping") = true := by simpa using notPing
  cases hb : st.bypass <;> cases hk : (keyFilter co o c).2 <;> simp [route, go, hb, hk]

theorem parseCommand_data_pushes (co : Collaborators) (o : Configuration) (id : Nat)
    (st : ParserState) (c : CmdDetail) (data : c.isData = true) :
    (∃ st' x, parseCommand co o id st c = .ok (st', .push x)) ↔
      st.bypass = false ∧ (keyFilter co o c).2 = true := by
  obtain ⟨notPing, notSelect, notOpinfo⟩ : c.cmd ≠ "ping" ∧ c.isSelect = false ∧
      c.isOpinfo = false := by
    simpa [CmdDetail.isData, and_assoc] using data
  rw [parseCommand_other co o id st c notPing notSelect, notOpinfo, route_data co o st c notPing]
  cases st.bypass <;> cases (keyFilter co o c).2 <;> simp

/-- The snapshot's filter and the stream's filter agree on a registered single-key write
when `filter.key` is set or `filter.slot` is not: once the parser has handled any prefix of
the stream whose last `select` names db `d`, it sends a write on `k` into `sendBuf` exactly
when the finished restorer pool has restored the snapshot's record of `k` in `d`. -/
theorem snapshot_and_stream_filters_agree (co : Collaborators) (o : Configuration) (id : Nat)
    (records : List Entry) (i : Nat) (d : UInt32) (k : String) (c : CmdDetail)
    (record : records[i]? = some ⟨d, k⟩) (write : c.isData = true)
    (registered : co.redisCommands c.cmd = true) (keyed : c.args.head? = some k)
    (matchKeys : o.filterKey ≠ [] → ((co.getMatchKeys c.cmd c.args o.filterKey).2 = true ↔
      ∃ f ∈ o.filterKey, f.toList <+: k.toList))
    (slotsUnset : o.filterKey ≠ [] ∨ o.filterSlot = [])
    (pre : List CmdDetail) (n : Int) (selected : lastSelectDb pre = some n)
    (named : toUint32 n = d) (st : ParserState) (vs : List Verdict)
    (parsed : parseStream co o id .init pre = .ok (st, vs))
    (p : Pool) (reach : PoolReach co o records p) (done : p.Done) :
    (∃ st' x, parseCommand co o id st c = .ok (st', .push x)) ↔
      i ∈ p.restored.map Prod.fst := by
  -- the last `select` of the prefix left `bypass` at the verdict on `d`
  have bypass : st.bypass = !co.acceptDB d := by
    rw [(parseStream_bypass .init pre st vs parsed).1]
    simp [bypassAfter, selected, named]
  rw [parseCommand_data_pushes co o id st c write, bypass, reach.restored_iff done]
  simp only [Bool.not_eq_false', wanted_iff]
  have args : c.args ≠ [] := fun empty => by simp [empty] at keyed
  constructor
  next =>
    rintro ⟨accepted, kept⟩
    refine ⟨⟨d, k⟩, record, accepted, ?_⟩
    by_cases keys : o.filterKey = []
    next => exact .inr (.inr ⟨keys, slotsUnset.resolve_left (not_not.mpr keys)⟩)
    next =>
      simp only [keyFilter, keys, registered, args, ne_eq, not_false_eq_true, and_self,
        if_true] at kept
      exact .inl ⟨keys, (matchKeys keys).mp kept⟩
  next =>
    rintro ⟨e, found, accepted, filters⟩
    obtain rfl : e = ⟨d, k⟩ := Option.some.inj (found.symm.trans record)
    refine ⟨accepted, ?_⟩
    rcases filters with ⟨keys, prefixed⟩ | ⟨keys, slots, -⟩ | ⟨keys, -⟩
    · simp only [keyFilter, keys, registered, args, ne_eq, not_false_eq_true, and_self,
        if_true]
      exact (matchKeys keys).mpr prefixed
    · exact absurd keys (slotsUnset.resolve_right slots)
    · simp [keyFilter, keys]

theorem snapshot_and_stream_filters_agree_on_prefix :
    ∃ p, PoolReach .prefixMatching { Configuration.plain with filterKey := ["a"] } [⟨0, "a"⟩] p ∧
      p.Done ∧
      ((∃ st' x, parseCommand .prefixMatching { Configuration.plain with filterKey := ["a"] } 0
          ⟨0, false⟩ ⟨"set", ["a", "1"]⟩ = .ok (st', .push x)) ↔
        0 ∈ p.restored.map Prod.fst) := by
  obtain ⟨p, reach, final⟩ := PoolReach.of_run .prefixMatching
    { Configuration.plain with filterKey := ["a"] } [⟨0, "a"⟩] [.take 0, .process 0]
    (fun p => decide p.Done) (by decide)
  have done := of_decide_eq_true final
  exact ⟨p, reach, done, snapshot_and_stream_filters_agree .prefixMatching
    { Configuration.plain with filterKey := ["a"] } 0 [⟨0, "a"⟩] 0 0 "a" ⟨"set", ["a", "1"]⟩ rfl
    (by decide) rfl rfl (fun _ => by decide) (.inl (by decide)) [⟨"select", ["0"]⟩] 0 rfl rfl
    ⟨0, false⟩ [.push ⟨"select", ["0"]⟩] rfl p reach done⟩

/-- With `filter.slot` = ["1"] and no key filter, the parser forwards `set a 1` issued in
db 0, whereas the restorers skip the snapshot's record of `a` in db 0, whose slot is 0: the
stream phase has no slot filter. -/
theorem slot_filter_splits_phases :
    (∃ st v0 x, parseStream .prefixMatching { Configuration.plain with filterSlot := ["1"] } 0
        .init [⟨"select", ["0"]⟩, ⟨"set", ["a", "1"]⟩] = .ok (st, [v0, .push x])) ∧
      ∃ p, PoolReach .prefixMatching { Configuration.plain with filterSlot := ["1"] }
        [⟨0, "a"⟩] p ∧ p.Done ∧ p.restored = [] := by
  obtain ⟨p, reach, final⟩ := PoolReach.of_run .prefixMatching
    { Configuration.plain with filterSlot := ["1"] } [⟨0, "a"⟩] [.take 0, .process 0]
    (fun p => decide p.Done && p.restored.isEmpty) (by decide)
  simp only [Bool.and_eq_true, decide_eq_true_eq, List.isEmpty_iff] at final
  exact ⟨⟨_, _, _, rfl⟩, p, reach, final⟩

/-- With `target.db` = 2^31 and every db accepted, the parser converts the override with
`int32` and sends `SELECT -2147483648`, so `set a 1` runs in db -2^31 of the target where
routing to db `target.db` puts it in db 2^31; the snapshot's restorer, converting with
`uint32`, restores the same key in db 2^31. -/
theorem override_past_int32_misroutes :
    SelectUnfiltered .permissive { Configuration.plain with targetDB := 2 ^ 31 } ∧
    selectsWellFormed [⟨"select", ["0"]⟩, ⟨"set", ["a", "1"]⟩] = true ∧
    selectFirst [⟨"select", ["0"]⟩, ⟨"set", ["a", "1"]⟩] = true ∧
    (∃ s, Reachable .permissive { Configuration.plain with targetDB := 2 ^ 31 } 0
        [⟨"select", ["0"]⟩, ⟨"set", ["a", "1"]⟩] s ∧
      s.input = [] ∧ s.sendBuf = [] ∧ s.parserOut = none ∧ s.sender.holding = none ∧
      replay 0 s.sent = [(⟨"set", ["a", "1"]⟩, -2 ^ 31)]) ∧
    routing .permissive { Configuration.plain with targetDB := 2 ^ 31 } (2 ^ 31) none
      [⟨"select", ["0"]⟩, ⟨"set", ["a", "1"]⟩] = [(⟨"set", ["a", "1"]⟩, 2 ^ 31)] ∧
    ∃ p, PoolReach .permissive { Configuration.plain with targetDB := 2 ^ 31 } [⟨0, "a"⟩] p ∧
      p.Done ∧ p.restored = [(0, 2147483648)] := by
  obtain ⟨s, reach, final⟩ := Reach.of_run .permissive
    { Configuration.plain with targetDB := 2 ^ 31 } 0 [⟨"select", ["0"]⟩, ⟨"set", ["a", "1"]⟩]
    (fun _ => True) [.parse, .push, .take, .send true, .count, .flush true, .parse, .push, .take,
      .send true, .count, .flush true]
    (fun s => s.input.isEmpty && s.sendBuf.isEmpty && s.parserOut.isNone &&
      s.sender.holding.isNone && replay 0 s.sent == [(⟨"set", ["a", "1"]⟩, -2 ^ 31)])
    (by simp) (by decide)
  simp only [Bool.and_eq_true, List.isEmpty_iff, Option.isNone_iff_eq_none, beq_iff_eq] at final
  obtain ⟨⟨⟨⟨done, empty⟩, out⟩, idle⟩, replayed⟩ := final
  obtain ⟨p, pool, restored⟩ := PoolReach.of_run .permissive
    { Configuration.plain with targetDB := 2 ^ 31 } [⟨0, "a"⟩] [.take 0, .process 0]
    (fun p => decide p.Done && p.restored == [(0, 2147483648)]) (by decide)
  simp only [Bool.and_eq_true, decide_eq_true_eq, beq_iff_eq] at restored
  exact ⟨.inl rfl, by decide, by decide, ⟨s, reach, done, empty, out, idle, replayed⟩, by decide,
    p, pool, restored⟩

end RedisShake.Run
