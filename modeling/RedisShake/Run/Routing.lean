import RedisShake.Run.Parser

set_option autoImplicit false

namespace RedisShake.Run

open Go

/-- The db a `select` switches a connection to. Source and target read the argument as the
parser does. -/
def selectTarget (c : CmdDetail) : Option Int :=
  match c.args with
  | [s] =>
    match atoi s with
    | (n, none) => some n
    | (_, some _) => none
  | _ => none

theorem selectDB_ok (id : Nat) (c : CmdDetail) (n : Int) (named : selectTarget c = some n) :
    selectDB id c.args = .ok n := by
  unfold selectTarget at named
  unfold selectDB
  split at named
  next s _ =>
    split at named
    next m _ _ => simp_all
    next => simp at named
  next => simp at named

theorem selectTarget_of_selectDB {id : Nat} {c : CmdDetail} {n : Int}
    (named : selectDB id c.args = .ok n) : selectTarget c = some n := by
  unfold selectDB at named
  unfold selectTarget
  split at named
  next s =>
    split at named
    next m _ => cases named; simp_all
    next => cases named
  next => cases named

/-! ### A connection that runs what it is sent -/

/-- The db after a command: a `select` the connection can read switches it. -/
def nextDb (db : Int) (c : CmdDetail) : Int :=
  if c.isSelect then (selectTarget c).getD db else db

/-- Each data command a connection runs, with the db it runs in. -/
def replay : Int → List CmdDetail → List (CmdDetail × Int)
  | _, [] => []
  | db, c :: cs => (if c.isData then [(c, db)] else []) ++ replay (nextDb db c) cs

theorem replay_append (db : Int) (xs ys : List CmdDetail) :
    replay db (xs ++ ys) = replay db xs ++ replay (xs.foldl nextDb db) ys := by
  induction xs generalizing db with
  | nil => rfl
  | cons x xs ih => simp [replay, ih]

/-! ### The routing the stream phase is meant to do -/

/-- The source's current db after a command: the argument of the latest `select`. -/
def sourceDb (db : Option Int) (c : CmdDetail) : Option Int :=
  if c.isSelect then selectTarget c else db

/-- What reaches the target for one source command: a data command in an accepted db that
the key filter keeps, with its filtered arguments and the db it must run in, which is
`target` under an override and the source's db otherwise. -/
def routeOne (co : Collaborators) (o : Configuration) (target : Int) (db : Option Int)
    (c : CmdDetail) : List (CmdDetail × Int) :=
  match db with
  | some d =>
    if c.isData ∧ co.acceptDB (toUint32 d) ∧ (keyFilter co o c).2 then
      [(⟨c.cmd, (keyFilter co o c).1⟩, if o.targetDB = -1 then d else target)]
    else []
  | none => []

def routing (co : Collaborators) (o : Configuration) (target : Int) :
    Option Int → List CmdDetail → List (CmdDetail × Int)
  | _, [] => []
  | db, c :: cs => routeOne co o target db c ++ routing co o target (sourceDb db c) cs

/-- Every `select` has one argument that `strconv.Atoi` reads. -/
def selectsWellFormed (cs : List CmdDetail) : Bool :=
  cs.all fun c => !c.isSelect || (selectTarget c).isSome

/-- No data command comes before the first `select`. -/
def selectFirst : List CmdDetail → Bool
  | [] => true
  | c :: cs => c.isSelect || (!c.isData && selectFirst cs)

/-- `filter.key` is unset, or `command.RedisCommands` has no entry for `select`. -/
def SelectUnfiltered (co : Collaborators) (o : Configuration) : Prop :=
  o.filterKey = [] ∨ ∀ name, equalFold name "select" = true → co.redisCommands name = false

theorem keyFilter_select (co : Collaborators) (o : Configuration) (c : CmdDetail)
    (unfiltered : SelectUnfiltered co o) (select : c.isSelect = true) :
    keyFilter co o c = (c.args, true) := by
  rcases unfiltered with empty | unregistered
  · simp [keyFilter, empty]
  · simp [keyFilter, unregistered c.cmd select]

/-! ### The parser keeps the target in step with the source -/

/-- How the parser's variables follow the target's db `tdb` and the source's db `sdb`
(`none` before the first `select`): `bypass` says whether the source db is refused, an
accepted source db has the target in the right db, and under an override `lastdb` is the
target's db. -/
def Tracks (co : Collaborators) (o : Configuration) (st : ParserState) (tdb : Int) :
    Option Int → Prop
  | none => st = .init ∧ tdb = 0
  | some d =>
    st.bypass = !co.acceptDB (toUint32 d) ∧
    (o.targetDB ≠ -1 → tdb = st.lastdb ∧ (st.lastdb = 0 ∨ st.lastdb = toInt32 o.targetDB)) ∧
    (st.bypass = false → tdb = if o.targetDB = -1 then d else toInt32 o.targetDB)

section Step

variable (co : Collaborators) (o : Configuration) (id : Nat) (st : ParserState) (tdb : Int)
  (c : CmdDetail)

/-- The verdict's commands replayed on the target, and where that leaves its db. -/
def Lands (v : Verdict) (tdb' : Int) (out : List (CmdDetail × Int)) : Prop :=
  (pushed [v]).foldl nextDb tdb = tdb' ∧ replay tdb (pushed [v]) = out

theorem select_emitted_lands (target : Int) :
    Lands tdb (.push ⟨"SELECT", [toString (toInt32 target)]⟩) (toInt32 target) [] := by
  obtain ⟨low, high⟩ := toInt32_bounds target
  have read := atoi_toString (toInt32 target) (by omega) (by omega)
  have select : CmdDetail.isSelect ⟨"SELECT", [toString (toInt32 target)]⟩ = true := by
    simp only [CmdDetail.isSelect]; decide
  simp [Lands, replay, nextDb, select, selectTarget, read, CmdDetail.isData]

theorem lands_bypass (m : Bool) : Lands tdb (.bypass m) tdb [] := ⟨rfl, rfl⟩

theorem lands_push_inert (x : CmdDetail) (notSelect : x.isSelect = false)
    (notData : x.isData = false) : Lands tdb (.push x) tdb [] := by
  simp [Lands, replay, nextDb, notSelect, notData]

theorem lands_push_data (x : CmdDetail) (data : x.isData = true) :
    Lands tdb (.push x) tdb [(x, tdb)] := by
  have notSelect : x.isSelect = false := by
    simp only [CmdDetail.isData, Bool.and_eq_true, Bool.not_eq_true'] at data; exact data.1.2
  simp [Lands, replay, nextDb, notSelect, data]

theorem Tracks.override {st : ParserState} {tdb : Int} {sdb : Option Int}
    (tracks : Tracks co o st tdb sdb) (set : o.targetDB ≠ -1) :
    tdb = st.lastdb ∧ (st.lastdb = 0 ∨ st.lastdb = toInt32 o.targetDB) := by
  cases sdb with
  | none => obtain ⟨rfl, rfl⟩ := tracks; exact ⟨rfl, .inl rfl⟩
  | some d => exact tracks.2.1 set

theorem tracks_ping (sdb : Option Int) (tracks : Tracks co o st tdb sdb)
    (ping : c.cmd = "ping") :
    ∃ st' v tdb', parseCommand co o id st c = .ok (st', v) ∧
      Lands tdb v tdb' (routeOne co o (toInt32 o.targetDB) sdb c) ∧
      Tracks co o st' tdb' (sourceDb sdb c) := by
  have notSelect := isSelect_of_ping c ping
  have notData : c.isData = false := by simp [CmdDetail.isData, ping]
  have quiet : routeOne co o (toInt32 o.targetDB) sdb c = [] := by
    cases sdb <;> simp [routeOne, notData]
  refine ⟨st, _, tdb, parseCommand_ping co o id st c ping, ?_, by simpa [sourceDb, notSelect]⟩
  rw [quiet]
  split
  · exact lands_bypass tdb false
  · exact lands_push_inert tdb _ notSelect notData

theorem tracks_select (sdb : Option Int) (tracks : Tracks co o st tdb sdb)
    (unfiltered : SelectUnfiltered co o) (select : c.isSelect = true) (n : Int)
    (named : selectTarget c = some n) :
    ∃ st' v tdb', parseCommand co o id st c = .ok (st', v) ∧
      Lands tdb v tdb' (routeOne co o (toInt32 o.targetDB) sdb c) ∧
      Tracks co o st' tdb' (sourceDb sdb c) := by
  have notPing : c.cmd ≠ "ping" := fun ping => by simp [isSelect_of_ping c ping] at select
  have notData : c.isData = false := by simp [CmdDetail.isData, select]
  have quiet : routeOne co o (toInt32 o.targetDB) sdb c = [] := by
    cases sdb <;> simp [routeOne, notData]
  have kept := keyFilter_select co o c unfiltered select
  rw [parseCommand_select co o id st c select n (selectDB_ok id c n named), quiet]
  simp only [sourceDb, select, if_true, named]
  by_cases accepted : co.acceptDB (toUint32 n) = true
  next =>
    simp only [accepted, Bool.not_true]
    by_cases set : o.targetDB = -1
    next =>
      have decided : route co o { st with bypass := false } true false c =
          ({ st with bypass := false }, .push ⟨c.cmd, c.args⟩) := by
        simp [route, notPing, kept, set]
      have land : Lands tdb (.push ⟨c.cmd, c.args⟩) n [] := by
        simp [Lands, replay, nextDb, select, named, notData]
      exact ⟨_, _, n, by rw [decided], land, by simp [Tracks, accepted, set]⟩
    next =>
      obtain ⟨same, last⟩ := tracks.override co o set
      by_cases moved : o.targetDB = st.lastdb
      next =>
        have stays : tdb = toInt32 o.targetDB := by
          rcases last with zero | wrapped
          · rw [same, zero, moved, zero]; decide
          · rw [same, wrapped]
        have decided : route co o { st with bypass := false } true false c =
            ({ st with bypass := false }, .bypass true) := by
          have notNeg : st.lastdb ≠ -1 := moved ▸ set
          simp [route, notPing, kept, set, moved, notNeg]
        refine ⟨_, _, tdb, by rw [decided], lands_bypass tdb true, ?_⟩
        exact ⟨by simp [accepted], fun _ => ⟨same, last⟩, fun _ => by simp [set, stays]⟩
      next =>
        have decided : route co o { st with bypass := false } true false c =
            ({ st with bypass := false, lastdb := toInt32 o.targetDB },
              .push ⟨"SELECT", [toString (toInt32 o.targetDB)]⟩) := by
          simp [route, notPing, kept, set, moved]
        refine ⟨_, _, _, by rw [decided], select_emitted_lands tdb o.targetDB, ?_⟩
        simp [Tracks, accepted, set]
  next =>
    have decided : route co o { st with bypass := !co.acceptDB (toUint32 n) } true false c =
        ({ st with bypass := true }, .bypass true) := by
      simp [route, notPing, accepted]
    refine ⟨_, _, tdb, by rw [decided], lands_bypass tdb true, ?_⟩
    simpa [Tracks, accepted] using tracks.override co o

theorem tracks_other (sdb : Option Int) (tracks : Tracks co o st tdb sdb)
    (notPing : c.cmd ≠ "ping") (notSelect : c.isSelect = false)
    (first : sdb = none → c.isData = false) :
    ∃ st' v tdb', parseCommand co o id st c = .ok (st', v) ∧
      Lands tdb v tdb' (routeOne co o (toInt32 o.targetDB) sdb c) ∧
      Tracks co o st' tdb' (sourceDb sdb c) := by
  rw [parseCommand_other co o id st c notPing notSelect]
  simp only [sourceDb, notSelect]
  by_cases opinfo : c.isOpinfo = true
  next =>
    have notData : c.isData = false := by simp [CmdDetail.isData, opinfo]
    have quiet : routeOne co o (toInt32 o.targetDB) sdb c = [] := by
      cases sdb <;> simp [routeOne, notData]
    exact ⟨st, _, tdb, by simp [route, notPing, opinfo], quiet ▸ lands_bypass tdb true,
      tracks⟩
  next =>
    have data : c.isData = true := by simp [CmdDetail.isData, notPing, notSelect, opinfo]
    cases sdb with
    | none => simp [first rfl] at data
    | some d =>
      obtain ⟨refused, over, lands⟩ := tracks
      by_cases bypass : st.bypass = true
      next =>
        have quiet : routeOne co o (toInt32 o.targetDB) (some d) c = [] := by
          simp [bypass] at refused
          simp [routeOne, refused]
        exact ⟨st, _, tdb, by simp [route, notPing, bypass], quiet ▸ lands_bypass tdb true,
          ⟨refused, over, lands⟩⟩
      next =>
        have accepted : co.acceptDB (toUint32 d) = true := by simpa [refused] using bypass
        have quietInfo : c.isOpinfo = false := by simpa using opinfo
        by_cases kept : (keyFilter co o c).2 = true
        next =>
          have decided : route co o st false c.isOpinfo c =
              (st, .push ⟨c.cmd, (keyFilter co o c).1⟩) := by
            simp [route, notPing, bypass, quietInfo, kept]
          have routed : routeOne co o (toInt32 o.targetDB) (some d) c =
              [(⟨c.cmd, (keyFilter co o c).1⟩, tdb)] := by
            simp [routeOne, data, accepted, kept, lands (by simpa using bypass)]
          exact ⟨st, _, tdb, by rw [decided],
            routed ▸ lands_push_data tdb ⟨c.cmd, (keyFilter co o c).1⟩ data,
            ⟨refused, over, lands⟩⟩
        next =>
          have decided : route co o st false c.isOpinfo c = (st, .bypass false) := by
            simp [route, notPing, bypass, quietInfo, kept]
          have quiet : routeOne co o (toInt32 o.targetDB) (some d) c = [] := by
            simp [routeOne, kept]
          exact ⟨st, _, tdb, by rw [decided], quiet ▸ lands_bypass tdb false,
            ⟨refused, over, lands⟩⟩

theorem parseCommand_tracks (sdb : Option Int) (tracks : Tracks co o st tdb sdb)
    (unfiltered : SelectUnfiltered co o)
    (wellFormed : c.isSelect = true → (selectTarget c).isSome = true)
    (first : sdb = none → c.isSelect = true ∨ c.isData = false) :
    ∃ st' v tdb', parseCommand co o id st c = .ok (st', v) ∧
      Lands tdb v tdb' (routeOne co o (toInt32 o.targetDB) sdb c) ∧
      Tracks co o st' tdb' (sourceDb sdb c) := by
  by_cases ping : c.cmd = "ping"
  next => exact tracks_ping co o id st tdb c sdb tracks ping
  by_cases select : c.isSelect = true
  next =>
    obtain ⟨n, named⟩ := Option.isSome_iff_exists.mp (wellFormed select)
    exact tracks_select co o id st tdb c sdb tracks unfiltered select n named
  next =>
    exact tracks_other co o id st tdb c sdb tracks ping (by simpa using select)
      fun unselected => by simpa [select] using first unselected

end Step

theorem parseStream_routes (co : Collaborators) (o : Configuration) (id : Nat)
    (unfiltered : SelectUnfiltered co o) (cs : List CmdDetail) :
    ∀ (st : ParserState) (tdb : Int) (sdb : Option Int), Tracks co o st tdb sdb →
      selectsWellFormed cs = true → (sdb = none → selectFirst cs = true) →
      ∃ st' vs, parseStream co o id st cs = .ok (st', vs) ∧
        replay tdb (pushed vs) = routing co o (toInt32 o.targetDB) sdb cs := by
  induction cs with
  | nil => intro st tdb sdb _ _ _; exact ⟨st, [], rfl, rfl⟩
  | cons c cs ih =>
    intro st tdb sdb tracks wellFormed first
    simp only [selectsWellFormed, List.all_cons, Bool.and_eq_true] at wellFormed
    have head : c.isSelect = true → (selectTarget c).isSome = true := by
      intro select; simpa [select] using wellFormed.1
    have started : sdb = none → c.isSelect = true ∨ c.isData = false := by
      intro unselected
      have := first unselected
      simp only [selectFirst, Bool.or_eq_true, Bool.and_eq_true, Bool.not_eq_true'] at this
      exact this.imp (fun select => select) fun later => later.1
    obtain ⟨st1, v, tdb1, parsed, ⟨moved, out⟩, tracks1⟩ :=
      parseCommand_tracks co o id st tdb c sdb tracks unfiltered head started
    have later : sourceDb sdb c = none → selectFirst cs = true := by
      intro unselected
      by_cases select : c.isSelect = true
      next => simp [sourceDb, select] at unselected; simp [unselected, select] at head
      next =>
        have := first (by simpa [sourceDb, select] using unselected)
        simp_all [selectFirst]
    obtain ⟨st2, vs, rest, routed⟩ := ih st1 tdb1 _ tracks1 wellFormed.2 later
    refine ⟨st2, v :: vs, by simp [parseStream, parsed, rest], ?_⟩
    rw [show v :: vs = [v] ++ vs from rfl, pushed_append, replay_append, out, moved, routed]
    rfl

/-! ### What the parser never sends -/

/-- The db a command switches the stream to: the one a readable `select` names. -/
def selectedDb (c : CmdDetail) : Option Int := if c.isSelect then selectTarget c else none

/-- The db the last `select` of a stream names. -/
def lastSelectDb (cs : List CmdDetail) : Option Int := (cs.filterMap selectedDb).getLast?

theorem lastSelectDb_cons (c : CmdDetail) (cs : List CmdDetail) :
    lastSelectDb (c :: cs) = (lastSelectDb cs).or (selectedDb c) := by
  unfold lastSelectDb
  rw [show c :: cs = [c] ++ cs from rfl, List.filterMap_append, List.getLast?_append]
  cases h : selectedDb c <;> simp [h]

/-- What the parser may send into `sendBuf` for a command `c`: never an `opinfo`, only what
the key filter keeps, and either the override `SELECT` for a `select` or `c` with the
filter's arguments. -/
def SentFor (co : Collaborators) (o : Configuration) (c x : CmdDetail) : Prop :=
  c.isOpinfo = false ∧ (keyFilter co o c).2 = true ∧
    ((c.isSelect = true ∧ x = ⟨"SELECT", [toString (toInt32 o.targetDB)]⟩) ∨
      x = ⟨c.cmd, (keyFilter co o c).1⟩)

/-- The parser's `bypass` after a stream, from `b`: what the last `select` set. -/
def bypassAfter (co : Collaborators) (b : Bool) (cs : List CmdDetail) : Bool :=
  (lastSelectDb cs).elim b fun d => !co.acceptDB (toUint32 d)

theorem bypassAfter_cons (co : Collaborators) (b : Bool) (c : CmdDetail) (cs : List CmdDetail) :
    bypassAfter co b (c :: cs) = bypassAfter co (bypassAfter co b [c]) cs := by
  unfold bypassAfter
  rw [lastSelectDb_cons, lastSelectDb_cons]
  cases lastSelectDb cs <;> simp [lastSelectDb]

section Pass

variable {co : Collaborators} {o : Configuration} {id : Nat} {st st' : ParserState}
  {c : CmdDetail} {v : Verdict}

theorem parseCommand_bypass (parsed : parseCommand co o id st c = .ok (st', v)) :
    st'.bypass = bypassAfter co st.bypass [c] ∧
      ∀ x, v = .push x → st'.bypass = false ∧ SentFor co o c x := by
  by_cases ping : c.cmd = "ping"
  next =>
    rw [parseCommand_ping co o id st c ping] at parsed
    obtain ⟨rfl, rfl⟩ := Prod.mk.inj (Except.ok.inj parsed)
    have notSelect := isSelect_of_ping c ping
    refine ⟨by simp [bypassAfter, lastSelectDb, selectedDb, notSelect], fun x pushed => ?_⟩
    split at pushed
    next => cases pushed
    next kept =>
      cases pushed
      simp only [Bool.or_eq_true, Bool.not_eq_true', not_or, Bool.not_eq_false] at kept
      exact ⟨by simpa using kept.1, isOpinfo_of_ping c ping, kept.2, .inr rfl⟩
  by_cases select : c.isSelect = true
  next =>
    cases named : selectDB id c.args with
    | error e =>
      simp [parseCommand, classify, ping, select, named] at parsed
    | ok n =>
      rw [parseCommand_select co o id st c select n named] at parsed
      have target := selectTarget_of_selectDB named
      have after : bypassAfter co st.bypass [c] = !co.acceptDB (toUint32 n) := by
        simp [bypassAfter, lastSelectDb, selectedDb, select, target]
      have notOpinfo := isOpinfo_of_isSelect c select
      unfold route at parsed
      split_ifs at parsed with first second third fourth <;>
        obtain ⟨rfl, rfl⟩ := Prod.mk.inj (Except.ok.inj parsed) <;>
        refine ⟨after.symm, fun x pushed => ?_⟩ <;> cases pushed
      all_goals
        simp only [Bool.or_false, Bool.or_eq_true, Bool.not_eq_true', not_or,
          Bool.not_eq_false] at second
        refine ⟨by simpa using second.1, notOpinfo, second.2, ?_⟩
      exacts [.inl ⟨select, rfl⟩, .inr rfl]
  next =>
    rw [parseCommand_other co o id st c ping (by simpa using select)] at parsed
    have after : bypassAfter co st.bypass [c] = st.bypass := by
      simp [bypassAfter, lastSelectDb, selectedDb, select]
    unfold route at parsed
    split_ifs at parsed with first second third <;>
      obtain ⟨rfl, rfl⟩ := Prod.mk.inj (Except.ok.inj parsed) <;>
      refine ⟨after.symm, fun x pushed => ?_⟩ <;> cases pushed
    · simp at third
    · simp only [Bool.or_eq_true, Bool.not_eq_true', not_or, Bool.not_eq_false] at second
      exact ⟨by simpa using second.1.1, by simpa using second.1.2, second.2, .inr rfl⟩

theorem parseStream_bypass : ∀ (st : ParserState) (cs : List CmdDetail) (st' : ParserState)
    (vs : List Verdict), parseStream co o id st cs = .ok (st', vs) →
    st'.bypass = bypassAfter co st.bypass cs ∧
      ∃ idx : List Nat, idx.length = (pushed vs).length ∧ idx.Pairwise (· < ·) ∧
        ∀ (j : Nat) (x : CmdDetail), (pushed vs)[j]? = some x →
          ∃ (i : Nat) (c : CmdDetail), idx[j]? = some i ∧ cs[i]? = some c ∧
            bypassAfter co st.bypass (cs.take (i + 1)) = false ∧ SentFor co o c x
  | st, [], st', vs, parsed => by
    simp only [parseStream, Except.ok.injEq, Prod.mk.injEq] at parsed
    obtain ⟨rfl, rfl⟩ := parsed
    exact ⟨rfl, [], rfl, .nil, fun j x found => by simp at found⟩
  | st, c :: cs, st', vs, parsed => by
    simp only [parseStream] at parsed
    split at parsed
    next => cases parsed
    next st1 v handled =>
      split at parsed
      next => cases parsed
      next st2 ws rest =>
        obtain ⟨rfl, rfl⟩ := Prod.mk.inj (Except.ok.inj parsed)
        obtain ⟨set, sent⟩ := parseCommand_bypass handled
        obtain ⟨kept, idx, sized, sorted, later⟩ := parseStream_bypass st1 cs st2 ws rest
        refine ⟨by rw [bypassAfter_cons, ← set, kept], ?_⟩
        -- the command at `i` of the rest of the stream is at `i + 1` of the whole
        have shifted (j : Nat) (x : CmdDetail) (found : (pushed ws)[j]? = some x) :
            ∃ (i : Nat) (c' : CmdDetail), (idx.map (· + 1))[j]? = some i ∧ (c :: cs)[i]? = some c' ∧
              bypassAfter co st.bypass ((c :: cs).take (i + 1)) = false ∧ SentFor co o c' x := by
          obtain ⟨i, c', place, found', clear, allowed⟩ := later j x found
          refine ⟨i + 1, c', by simp [place], by simpa using found', ?_, allowed⟩
          rw [List.take_succ_cons, bypassAfter_cons, ← set]
          exact clear
        have spaced : (idx.map (· + 1)).Pairwise (· < ·) :=
          List.pairwise_map.mpr (sorted.imp fun lt => Nat.succ_lt_succ lt)
        cases v with
        | bypass m => exact ⟨idx.map (· + 1), by simp [sized], spaced, shifted⟩
        | push y =>
          obtain ⟨clear, allowed⟩ := sent y rfl
          refine ⟨0 :: idx.map (· + 1), by simp [sized],
            List.pairwise_cons.mpr ⟨fun i member => by simp at member; omega, spaced⟩,
            fun j x found => ?_⟩
          cases j with
          | zero =>
            obtain rfl : y = x := by simpa using found
            exact ⟨0, c, by simp, by simp,
              by rw [List.take_succ_cons, List.take_zero, ← set]; exact clear, allowed⟩
          | succ j => simpa using shifted j x (by simpa using found)

end Pass

end RedisShake.Run
