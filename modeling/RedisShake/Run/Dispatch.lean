import RedisShake.Run.Restore
import Mathlib.Data.List.Nodup

set_option autoImplicit false

namespace RedisShake.Run

/-! ### `CmdSync.Main`: the dispatch of sources to syncers -/

/-- `syncNode`: what `Main` queues for each source. -/
structure SyncNode where
  id : Nat
  source : String
  sourcePassword : String
  target : String
  targetPassword : String
deriving DecidableEq, Repr

/-- The fields of a `dbSyncer` that `NewDbSyncer` sets and `GetExtraInfo` reads. -/
structure DbSyncer where
  id : Nat
  source : String
  sourcePassword : String
  target : String
  targetPassword : String
deriving DecidableEq, Repr

def newDbSyncer (nd : SyncNode) : DbSyncer :=
  ⟨nd.id, nd.source, nd.sourcePassword, nd.target, nd.targetPassword⟩

/-- What `GetExtraInfo` reads of a running syncer at the moment of the call besides its
addresses: `len(ds.sendBuf)`, `len(ds.delayChannel)`, `ds.targetOffset.Get()` and
`ds.sourceOffset`, which the syncer's own goroutines move. -/
structure Gauges where
  sendBufLen : Nat
  delayChannelLen : Nat
  targetOffset : Int
  sourceOffset : Int
deriving DecidableEq, Repr

/-- The map `GetExtraInfo` returns. -/
structure ExtraInfo where
  sourceAddress : String
  targetAddress : String
  senderBufCount : Nat
  processingCmdCount : Nat
  targetDBOffset : Int
  sourceDBOffset : Int
deriving DecidableEq, Repr

def DbSyncer.getExtraInfo (ds : DbSyncer) (g : Gauges) : ExtraInfo :=
  ⟨ds.source, ds.target, g.sendBufLen, g.delayChannelLen, g.targetOffset, g.sourceOffset⟩

/-- `GetDetailedInfo`, with `gauges i` what syncer `i` reports at the call: `none` is the
nil dereference of an entry no worker has assigned. -/
def getDetailedInfo (gauges : Nat → Gauges) (dbSyncers : List (Option DbSyncer)) :
    Option (List ExtraInfo) :=
  dbSyncers.mapM fun syncer => syncer.map fun ds => ds.getExtraInfo (gauges ds.id)

/-- The node `Main` queues for source `i`; `targetOf i` is the target
`PickTargetRoundRobin` picks for it. -/
def syncNodeOf (o : Configuration) (targetOf : Nat → String) (i : Nat) : SyncNode :=
  ⟨i, o.sourceAddressList.getD i "", o.sourcePasswordRaw, targetOf i, o.targetPasswordRaw⟩

/-- Where `Main` is. -/
inductive MainPc where
  /-- `cmd.dbSyncers = make(...)` next -/
  | alloc
  /-- `syncChan <- nd` for source `i` next -/
  | enqueue (i : Nat)
  /-- in `wg.Wait()` -/
  | wait
  /-- past `close(syncChan)` -/
  | done
deriving DecidableEq, Repr

/-- Where a dispatch worker is. -/
inductive WorkerPc where
  /-- `<-syncChan` next -/
  | idle
  /-- `NewDbSyncer` next -/
  | holding (nd : SyncNode)
  /-- `cmd.dbSyncers[nd.id] = ds` and `go ds.sync()` next -/
  | built (ds : DbSyncer)
  /-- in `<-ds.waitFull` -/
  | waiting (id : Nat)
  /-- left its loop on the closed `syncChan` -/
  | exited
deriving DecidableEq, Repr

def WorkerPc.holdingId : WorkerPc → Option Nat
  | .holding nd => some nd.id
  | _ => none

/-- The syncer a worker has constructed and not yet seen finish its full sync. -/
def WorkerPc.busyId : WorkerPc → Option Nat
  | .built ds => some ds.id
  | .waiting i => some i
  | _ => none

def WorkerPc.waitingId : WorkerPc → Option Nat
  | .waiting i => some i
  | _ => none

/-- `Main`, its workers and the syncers' `waitFull`; with the ids received from `syncChan`,
passed to `NewDbSyncer`, assigned into `dbSyncers`, whose `waitFull` is closed, and whose
`wg.Done()` has run, as logs. -/
structure Dispatch where
  main : MainPc
  syncChan : List SyncNode
  closed : Bool
  dbSyncers : Option (List (Option DbSyncer))
  wg : Nat
  workers : List WorkerPc
  taken : List Nat
  constructed : List Nat
  assigned : List Nat
  fullDone : List Nat
  released : List Nat
deriving Repr

def Dispatch.init : Dispatch := ⟨.alloc, [], false, none, 0, [], [], [], [], [], []⟩

/-- `GetDetailedInfo` on `cmd.dbSyncers`, a nil slice until `Main` allocates it. -/
def Dispatch.detailedInfo (gauges : Nat → Gauges) (d : Dispatch) : Option (List ExtraInfo) :=
  getDetailedInfo gauges (d.dbSyncers.getD [])

inductive DispatchAct where
  | alloc
  | enqueue
  /-- `wg.Add(n)` and the `SourceParallel` workers start -/
  | spawn
  /-- `wg.Wait()` returns and `close(syncChan)` -/
  | wait
  | recv (w : Nat)
  | build (w : Nat)
  | assign (w : Nat)
  /-- syncer `i`'s `sync` closes `waitFull` -/
  | finish (i : Nat)
  /-- worker `w` sees `waitFull` closed and runs `wg.Done()` -/
  | release (w : Nat)
deriving DecidableEq, Repr

/-- One step of `Main`, a worker, or a syncer, for `GetTotalLink()` = `total`. -/
def Dispatch.step (o : Configuration) (total : Nat) (targetOf : Nat → String) (d : Dispatch) :
    DispatchAct → Option Dispatch
  | .alloc =>
    if d.main = .alloc then
      some { d with main := .enqueue 0, dbSyncers := some (List.replicate total none) }
    else none
  | .enqueue =>
    match d.main with
    | .enqueue i =>
      if i < o.sourceAddressList.length ∧ d.syncChan.length < total then
        some { d with main := .enqueue (i + 1), syncChan := d.syncChan ++ [syncNodeOf o targetOf i] }
      else none
    | _ => none
  | .spawn =>
    match d.main with
    | .enqueue i =>
      if i = o.sourceAddressList.length then
        some { d with main := .wait, wg := d.wg + o.sourceAddressList.length,
                      workers := List.replicate o.sourceParallel .idle }
      else none
    | _ => none
  | .wait => if d.main = .wait ∧ d.wg = 0 then some { d with main := .done, closed := true } else none
  | .recv w =>
    match d.workers[w]?, d.syncChan with
    | some .idle, nd :: rest =>
      some { d with syncChan := rest, workers := d.workers.set w (.holding nd),
                    taken := d.taken ++ [nd.id] }
    | some .idle, [] => if d.closed then some { d with workers := d.workers.set w .exited } else none
    | _, _ => none
  | .build w =>
    match d.workers[w]? with
    | some (.holding nd) =>
      some { d with workers := d.workers.set w (.built (newDbSyncer nd)),
                    constructed := d.constructed ++ [nd.id] }
    | _ => none
  | .assign w =>
    match d.workers[w]?, d.dbSyncers with
    | some (.built ds), some l =>
      if ds.id < l.length then
        some { d with dbSyncers := some (l.set ds.id (some ds)),
                      workers := d.workers.set w (.waiting ds.id), assigned := d.assigned ++ [ds.id] }
      else none
    | _, _ => none
  | .finish i =>
    if i ∈ d.assigned ∧ i ∉ d.fullDone then some { d with fullDone := d.fullDone ++ [i] } else none
  | .release w =>
    match d.workers[w]? with
    | some (.waiting i) =>
      if i ∈ d.fullDone then
        some { d with wg := d.wg - 1, workers := d.workers.set w .idle,
                      released := d.released ++ [i] }
      else none
    | _ => none

/-- The states of every interleaving of `Main`, its workers and the syncers. -/
inductive DispatchReach (o : Configuration) (total : Nat) (targetOf : Nat → String) :
    Dispatch → Prop where
  | init : DispatchReach o total targetOf Dispatch.init
  | step {d d' : Dispatch} (a : DispatchAct) : DispatchReach o total targetOf d →
      d.step o total targetOf a = some d' → DispatchReach o total targetOf d'

def Dispatch.run (o : Configuration) (total : Nat) (targetOf : Nat → String) :
    Dispatch → List DispatchAct → Option Dispatch :=
  runSchedule fun d a => d.step o total targetOf a

theorem DispatchReach.run {o : Configuration} {total : Nat} {targetOf : Nat → String}
    {d d' : Dispatch} {as : List DispatchAct} (reach : DispatchReach o total targetOf d)
    (ran : d.run o total targetOf as = some d') : DispatchReach o total targetOf d' :=
  runSchedule_closed (DispatchReach o total targetOf) (fun _ => True)
    (fun reach _ stepped => .step _ reach stepped) reach (fun _ _ => trivial) ran

theorem DispatchReach.of_run (o : Configuration) (total : Nat) (targetOf : Nat → String)
    (as : List DispatchAct) (q : Dispatch → Bool)
    (ran : (Dispatch.init.run o total targetOf as).map q = some true) :
    ∃ d, DispatchReach o total targetOf d ∧ q d = true :=
  exists_of_runSchedule (DispatchReach o total targetOf) (fun _ => True)
    (fun reach _ stepped => .step _ reach stepped) q .init (fun _ _ => trivial) ran

/-- With one source and one worker, the metrics endpoint calls `GetDetailedInfo` after
the worker has constructed the syncer and before it has stored it into `dbSyncers`. -/
theorem detailed_info_reads_nil_syncer :
    ∃ d, DispatchReach .plain 1 (fun _ => "127.0.0.1:6380") d ∧
      d.workers = [.built (newDbSyncer (syncNodeOf .plain (fun _ => "127.0.0.1:6380") 0))] ∧
      d.dbSyncers = some [none] ∧ ∀ gauges, d.detailedInfo gauges = none := by
  obtain ⟨d, reach, final⟩ := DispatchReach.of_run .plain 1 (fun _ => "127.0.0.1:6380")
    [.alloc, .enqueue, .spawn, .recv 0, .build 0]
    (fun d => d.workers == [.built (newDbSyncer (syncNodeOf .plain
      (fun _ => "127.0.0.1:6380") 0))] && d.dbSyncers == some [none]) (by decide)
  simp only [Bool.and_eq_true, beq_iff_eq] at final
  exact ⟨d, reach, final.1, final.2, fun _ => by simp [Dispatch.detailedInfo, final.2]; rfl⟩

/-! ### What every run keeps -/

/-- How many sources `Main` has queued. -/
def enqueued (o : Configuration) : MainPc → Nat
  | .alloc => 0
  | .enqueue i => i
  | .wait | .done => o.sourceAddressList.length

/-- `dbSyncers` once allocated: the syncer of every assigned source, nil elsewhere. -/
def syncerTable (o : Configuration) (total : Nat) (targetOf : Nat → String)
    (assigned : List Nat) : List (Option DbSyncer) :=
  (List.range total).map fun i =>
    if i ∈ assigned then some (newDbSyncer (syncNodeOf o targetOf i)) else none

/-- A worker carries the node `Main` queued for its id, and builds the syncer of that node. -/
def WorkerPc.Faithful (o : Configuration) (targetOf : Nat → String) : WorkerPc → Prop
  | .holding nd => nd = syncNodeOf o targetOf nd.id
  | .built ds => ds = newDbSyncer (syncNodeOf o targetOf ds.id)
  | _ => True

/-- What every reachable state satisfies: the ids received from `syncChan` and the ones
still in it are those queued, in order; each received id is held by a worker, or
constructed; each constructed one is busy in a worker or released; each assigned one is
awaited by a worker or released; a released id has finished; `dbSyncers` holds exactly the
assigned syncers; and the wait group counts the sources not yet released. -/
structure DispatchInv (o : Configuration) (total : Nat) (targetOf : Nat → String)
    (d : Dispatch) : Prop where
  queued : d.taken ++ d.syncChan.map SyncNode.id = List.range (enqueued o d.main)
  nodes : ∀ nd ∈ d.syncChan, nd = syncNodeOf o targetOf nd.id
  faithful : ∀ w ∈ d.workers, w.Faithful o targetOf
  takenSplit : d.taken.Perm (d.workers.filterMap WorkerPc.holdingId ++ d.constructed)
  constructedSplit : d.constructed.Perm (d.workers.filterMap WorkerPc.busyId ++ d.released)
  assignedSplit : d.assigned.Perm (d.workers.filterMap WorkerPc.waitingId ++ d.released)
  finished : ∀ i ∈ d.fullDone, i ∈ d.assigned
  fullDoneNodup : d.fullDone.Nodup
  releasedDone : ∀ i ∈ d.released, i ∈ d.fullDone
  unallocated : d.main = .alloc → d.dbSyncers = none
  table : d.main ≠ .alloc → d.dbSyncers = some (syncerTable o total targetOf d.assigned)
  before : d.main = .alloc ∨ (∃ i, d.main = .enqueue i) →
    d.workers = [] ∧ d.wg = 0 ∧ d.taken = [] ∧ enqueued o d.main ≤ o.sourceAddressList.length
  after : d.main = .wait ∨ d.main = .done →
    d.workers.length = o.sourceParallel ∧ d.wg + d.released.length = o.sourceAddressList.length
  quiet : d.main = .done → d.wg = 0

theorem waitingId_sublist (ws : List WorkerPc) :
    (ws.filterMap WorkerPc.waitingId).Sublist (ws.filterMap WorkerPc.busyId) := by
  induction ws with
  | nil => exact .slnil
  | cons w ws ih =>
    cases w <;> simp only [List.filterMap_cons, WorkerPc.waitingId, WorkerPc.busyId]
    all_goals first | exact ih | exact ih.cons _ | exact ih.cons₂ _

theorem filterMap_set_count {α : Type} (f : α → Option Nat) (l : List α) (w : Nat)
    (old new : α) (h : l[w]? = some old) (a : Nat) :
    ((l.set w new).filterMap f).count a + (f old).toList.count a =
      (l.filterMap f).count a + (f new).toList.count a := by
  simpa [List.count_append] using (filterMap_set_perm f l w old new h).count_eq a

theorem split_set {f : WorkerPc → Option Nat} {ws : List WorkerPc} {w : Nat} {old : WorkerPc}
    (held : ws[w]? = some old) (new : WorkerPc) {l rest : List Nat}
    (split : l.Perm (ws.filterMap f ++ rest)) :
    (l ++ (f new).toList).Perm ((ws.set w new).filterMap f ++ (rest ++ (f old).toList)) :=
  List.perm_iff_count.mpr fun a => by
    have before := split.count_eq a
    have moved := filterMap_set_count f ws w old new held a
    simp only [List.count_append] at before ⊢
    omega

theorem split_set_same {f : WorkerPc → Option Nat} {ws : List WorkerPc} {w : Nat}
    {old new : WorkerPc} (held : ws[w]? = some old) {l rest : List Nat}
    (split : l.Perm (ws.filterMap f ++ rest)) (same : f old = f new) :
    l.Perm ((ws.set w new).filterMap f ++ rest) :=
  List.perm_iff_count.mpr fun a => by
    have before := split.count_eq a
    have moved := filterMap_set_count f ws w old new held a
    rw [same] at moved
    simp only [List.count_append] at before ⊢
    omega

section Steps

variable {o : Configuration} {total : Nat} {targetOf : Nat → String} {d d' : Dispatch}

theorem DispatchInv.counts (inv : DispatchInv o total targetOf d) (a : Nat) :
    d.taken.count a ≤ 1 ∧ d.constructed.count a ≤ 1 ∧ d.assigned.count a ≤ 1 ∧
      (d.workers.filterMap WorkerPc.busyId).count a + d.released.count a ≤ 1 ∧
      (d.workers.filterMap WorkerPc.holdingId).count a + d.constructed.count a ≤ 1 := by
  have queued := congrArg (List.count a) inv.queued
  have range := List.nodup_iff_count_le_one.mp (List.nodup_range (enqueued o d.main)) a
  have taken := inv.takenSplit.count_eq a
  have constructed := inv.constructedSplit.count_eq a
  have assigned := inv.assignedSplit.count_eq a
  have waiting := (waitingId_sublist d.workers).count_le a
  simp only [List.count_append] at queued taken constructed assigned
  omega

theorem DispatchInv.quiet_before (inv : DispatchInv o total targetOf d)
    (early : d.main = .alloc ∨ (∃ i, d.main = .enqueue i)) :
    d.constructed = [] ∧ d.assigned = [] ∧ d.released = [] := by
  obtain ⟨idle, -, untaken, -⟩ := inv.before early
  have taken := inv.takenSplit
  have constructed := inv.constructedSplit
  have assigned := inv.assignedSplit
  simp only [idle, untaken, List.filterMap_nil, List.nil_append] at taken constructed assigned
  have c : d.constructed = [] := List.Perm.eq_nil taken.symm
  rw [c] at constructed
  have r : d.released = [] := List.Perm.eq_nil constructed.symm
  rw [r] at assigned
  exact ⟨c, List.Perm.eq_nil assigned, r⟩

theorem DispatchInv.assigned_lt (inv : DispatchInv o total targetOf d)
    (late : d.main = .wait ∨ d.main = .done) {i : Nat} (member : i ∈ d.assigned) :
    i < o.sourceAddressList.length := by
  have queued := congrArg (List.count i) inv.queued
  have taken := inv.takenSplit.count_eq i
  have constructed := inv.constructedSplit.count_eq i
  have assigned := inv.assignedSplit.count_eq i
  have waiting := (waitingId_sublist d.workers).count_le i
  have present := List.count_pos_iff.mpr member
  have enqueued : enqueued o d.main = o.sourceAddressList.length := by
    rcases late with late | late <;> simp [late, enqueued]
  simp only [List.count_append, enqueued] at queued taken constructed assigned
  have inRange : 0 < (List.range o.sourceAddressList.length).count i := by omega
  simpa using List.count_pos_iff.mp inRange

theorem syncerTable_nil : syncerTable o total targetOf [] = List.replicate total none := by
  simp [syncerTable, List.map_const']

theorem syncerTable_set (assigned : List Nat) (i : Nat) (ds : DbSyncer)
    (built : ds = newDbSyncer (syncNodeOf o targetOf i)) :
    (syncerTable o total targetOf assigned).set i (some ds) =
      syncerTable o total targetOf (assigned ++ [i]) := by
  subst built
  apply List.ext_getElem (by simp [syncerTable])
  intro j _ _
  by_cases same : i = j
  · subst same; simp [syncerTable]
  · simp [syncerTable, List.getElem_set, same, Ne.symm same]

theorem dispatchInv_init : DispatchInv o total targetOf Dispatch.init where
  queued := rfl
  nodes := fun _ member => by cases member
  faithful := fun _ member => by cases member
  takenSplit := .nil
  constructedSplit := .nil
  assignedSplit := .nil
  finished := fun _ member => by cases member
  fullDoneNodup := List.nodup_nil
  releasedDone := fun _ member => by cases member
  unallocated := fun _ => rfl
  table := fun early => absurd rfl early
  before := fun _ => ⟨rfl, rfl, rfl, Nat.zero_le _⟩
  after := fun late => by rcases late with late | late <;> cases late
  quiet := fun late => by cases late

/-! The steps of `Main`. -/

theorem dispatchInv_alloc (inv : DispatchInv o total targetOf d)
    (h : d.step o total targetOf .alloc = some d') : DispatchInv o total targetOf d' := by
  simp only [Dispatch.step, Option.ite_none_right_eq_some, Option.some.injEq] at h
  obtain ⟨pc, rfl⟩ := h
  obtain ⟨idle, wg, untaken, -⟩ := inv.before (.inl pc)
  obtain ⟨-, assigned, -⟩ := inv.quiet_before (.inl pc)
  exact { inv with
    queued := by have queued := inv.queued; rw [pc] at queued; exact queued
    unallocated := fun pc => by cases pc
    table := fun _ => by simp [assigned, syncerTable_nil]
    before := fun _ => ⟨idle, wg, untaken, Nat.zero_le _⟩
    after := fun late => by rcases late with late | late <;> cases late
    quiet := fun late => by cases late }

theorem dispatchInv_enqueue (inv : DispatchInv o total targetOf d)
    (h : d.step o total targetOf .enqueue = some d') : DispatchInv o total targetOf d' := by
  simp only [Dispatch.step] at h
  split at h
  next i pc =>
    simp only [Option.ite_none_right_eq_some, Option.some.injEq] at h
    obtain ⟨⟨fresh, -⟩, rfl⟩ := h
    obtain ⟨idle, wg, untaken, -⟩ := inv.before (.inr ⟨i, pc⟩)
    have queued := inv.queued
    rw [pc] at queued
    exact { inv with
      queued := by
        rw [List.map_append, ← List.append_assoc, queued]
        simp [enqueued, List.range_succ, syncNodeOf]
      nodes := fun nd member => by
        rcases List.mem_append.mp member with old | new
        · exact inv.nodes nd old
        · simp only [List.mem_singleton] at new; subst new; rfl
      unallocated := fun pc => by cases pc
      table := fun _ => inv.table (by simp [pc])
      before := fun _ => ⟨idle, wg, untaken, fresh⟩
      after := fun late => by rcases late with late | late <;> cases late
      quiet := fun late => by cases late }
  next => cases h

theorem dispatchInv_spawn (inv : DispatchInv o total targetOf d)
    (h : d.step o total targetOf .spawn = some d') : DispatchInv o total targetOf d' := by
  simp only [Dispatch.step] at h
  split at h
  next i pc =>
    simp only [Option.ite_none_right_eq_some, Option.some.injEq] at h
    obtain ⟨all, rfl⟩ := h
    obtain ⟨idle, wg, untaken, -⟩ := inv.before (.inr ⟨i, pc⟩)
    obtain ⟨constructed, assigned, released⟩ := inv.quiet_before (.inr ⟨i, pc⟩)
    have queued := inv.queued
    rw [pc] at queued
    have fresh : ∀ f : WorkerPc → Option Nat, f .idle = none →
        (List.replicate o.sourceParallel WorkerPc.idle).filterMap f = [] := fun f blank =>
      List.filterMap_eq_nil_iff.mpr fun w member => (List.eq_of_mem_replicate member) ▸ blank
    exact { inv with
      queued := by simpa [enqueued, all] using queued
      faithful := fun w member => (List.eq_of_mem_replicate member) ▸ trivial
      takenSplit := by simp [fresh WorkerPc.holdingId rfl, untaken, constructed]
      constructedSplit := by simp [fresh WorkerPc.busyId rfl, constructed, released]
      assignedSplit := by simp [fresh WorkerPc.waitingId rfl, assigned, released]
      unallocated := fun pc => by cases pc
      table := fun _ => inv.table (by simp [pc])
      before := fun early => by simp at early
      after := fun _ => by simp [wg, released]
      quiet := fun late => by cases late }
  next => cases h

theorem dispatchInv_wait (inv : DispatchInv o total targetOf d)
    (h : d.step o total targetOf .wait = some d') : DispatchInv o total targetOf d' := by
  simp only [Dispatch.step, Option.ite_none_right_eq_some, Option.some.injEq] at h
  obtain ⟨⟨pc, zero⟩, rfl⟩ := h
  have queued := inv.queued
  rw [pc] at queued
  exact { inv with
    queued := queued
    unallocated := fun pc => by cases pc
    table := fun _ => inv.table (by simp [pc])
    before := fun early => by simp at early
    after := fun _ => inv.after (.inl pc)
    quiet := fun _ => zero }

/-! The steps of the workers and the syncers. -/

@[simp] theorem newDbSyncer_id (nd : SyncNode) : (newDbSyncer nd).id = nd.id := rfl

theorem DispatchInv.late (inv : DispatchInv o total targetOf d) {w : Nat} {x : WorkerPc}
    (held : d.workers[w]? = some x) : d.main = .wait ∨ d.main = .done := by
  cases pc : d.main with
  | alloc => simp [(inv.before (.inl pc)).1] at held
  | enqueue i => simp [(inv.before (.inr ⟨i, pc⟩)).1] at held
  | wait => exact .inl rfl
  | done => exact .inr rfl

theorem not_before {main : MainPc} (late : main = .wait ∨ main = .done) :
    ¬(main = .alloc ∨ ∃ i, main = .enqueue i) := by
  rcases late with rfl | rfl <;> simp

theorem DispatchInv.faithful_set (inv : DispatchInv o total targetOf d) (w : Nat) (x : WorkerPc)
    (fx : x.Faithful o targetOf) : ∀ v ∈ d.workers.set w x, v.Faithful o targetOf :=
  fun v member => (List.mem_or_eq_of_mem_set member).elim (inv.faithful v) (fun same => same ▸ fx)

theorem dispatchInv_recv {w : Nat} (inv : DispatchInv o total targetOf d)
    (h : d.step o total targetOf (.recv w) = some d') : DispatchInv o total targetOf d' := by
  simp only [Dispatch.step] at h
  split at h
  next nd rest held chan =>
    cases h
    have late := inv.late held
    exact { inv with
      queued := by rw [← inv.queued, chan]; simp
      nodes := fun nd' member => inv.nodes nd' (by rw [chan]; exact List.mem_cons_of_mem _ member)
      faithful := inv.faithful_set w _ (inv.nodes nd (by simp [chan]))
      takenSplit := by simpa [WorkerPc.holdingId] using split_set held (.holding nd) inv.takenSplit
      constructedSplit := split_set_same held inv.constructedSplit (by rfl)
      assignedSplit := split_set_same held inv.assignedSplit (by rfl)
      before := fun early => absurd early (not_before late)
      after := fun late => by simpa using inv.after late }
  next held chan =>
    split at h
    next =>
      cases h
      have late := inv.late held
      -- a worker that leaves its loop carries no id
      exact { inv with
        faithful := inv.faithful_set w _ trivial
        takenSplit := split_set_same held inv.takenSplit (by rfl)
        constructedSplit := split_set_same held inv.constructedSplit (by rfl)
        assignedSplit := split_set_same held inv.assignedSplit (by rfl)
        before := fun early => absurd early (not_before late)
        after := fun late => by simpa using inv.after late }
    next => cases h
  next => cases h

theorem dispatchInv_build {w : Nat} (inv : DispatchInv o total targetOf d)
    (h : d.step o total targetOf (.build w) = some d') : DispatchInv o total targetOf d' := by
  simp only [Dispatch.step] at h
  split at h
  next nd held =>
    cases h
    have late := inv.late held
    have node : nd = syncNodeOf o targetOf nd.id := inv.faithful _ (List.getElem?_mem held)
    exact { inv with
      faithful := inv.faithful_set w _ (congrArg newDbSyncer node)
      takenSplit := by
        simpa [WorkerPc.holdingId] using split_set held (.built (newDbSyncer nd)) inv.takenSplit
      constructedSplit := by
        simpa [WorkerPc.busyId] using split_set held (.built (newDbSyncer nd)) inv.constructedSplit
      assignedSplit := split_set_same held inv.assignedSplit (by rfl)
      before := fun early => absurd early (not_before late)
      after := fun late => by simpa using inv.after late }
  next => cases h

theorem dispatchInv_assign {w : Nat} (inv : DispatchInv o total targetOf d)
    (h : d.step o total targetOf (.assign w) = some d') : DispatchInv o total targetOf d' := by
  simp only [Dispatch.step] at h
  split at h
  next ds l held stored =>
    simp only [Option.ite_none_right_eq_some, Option.some.injEq] at h
    obtain ⟨-, rfl⟩ := h
    have late := inv.late held
    have built : ds = newDbSyncer (syncNodeOf o targetOf ds.id) :=
      inv.faithful _ (List.getElem?_mem held)
    have table : l = syncerTable o total targetOf d.assigned :=
      Option.some.inj (stored.symm.trans (inv.table (by rcases late with pc | pc <;> simp [pc])))
    exact { inv with
      faithful := inv.faithful_set w _ trivial
      takenSplit := split_set_same held inv.takenSplit (by rfl)
      constructedSplit := split_set_same held inv.constructedSplit (by rfl)
      assignedSplit := by
        simpa [WorkerPc.waitingId] using split_set held (.waiting ds.id) inv.assignedSplit
      finished := fun i member => List.mem_append_left _ (inv.finished i member)
      unallocated := fun pc => absurd (.inl pc) (not_before late)
      table := fun _ => by rw [table, syncerTable_set _ _ _ built]
      before := fun early => absurd early (not_before late)
      after := fun late => by simpa using inv.after late }
  next => cases h

theorem dispatchInv_finish {i : Nat} (inv : DispatchInv o total targetOf d)
    (h : d.step o total targetOf (.finish i) = some d') : DispatchInv o total targetOf d' := by
  simp only [Dispatch.step, Option.ite_none_right_eq_some, Option.some.injEq] at h
  obtain ⟨⟨assigned, fresh⟩, rfl⟩ := h
  exact { inv with
    finished := fun j member => by
      rcases List.mem_append.mp member with old | new
      · exact inv.finished j old
      · simp only [List.mem_singleton] at new; exact new ▸ assigned
    fullDoneNodup := by simpa [List.nodup_append, fresh] using inv.fullDoneNodup
    releasedDone := fun j member => List.mem_append_left _ (inv.releasedDone j member) }

theorem DispatchInv.wg_pos (inv : DispatchInv o total targetOf d) {w i : Nat}
    (held : d.workers[w]? = some (.waiting i)) : 0 < d.wg := by
  have late := inv.late held
  have nodup : d.assigned.Nodup := List.nodup_iff_count_le_one.mpr fun a => (inv.counts a).2.2.1
  have bounded := (List.subperm_of_subset nodup fun j member =>
    List.mem_range.mpr (inv.assigned_lt late member)).length_le
  have waiting : 0 < (d.workers.filterMap WorkerPc.waitingId).length :=
    List.length_pos_of_mem (List.mem_filterMap.mpr ⟨_, List.getElem?_mem held, rfl⟩)
  have split := inv.assignedSplit.length_eq
  have counted := (inv.after late).2
  simp only [List.length_append, List.length_range] at split bounded
  omega

theorem dispatchInv_release {w : Nat} (inv : DispatchInv o total targetOf d)
    (h : d.step o total targetOf (.release w) = some d') : DispatchInv o total targetOf d' := by
  simp only [Dispatch.step] at h
  split at h
  next i held =>
    simp only [Option.ite_none_right_eq_some, Option.some.injEq] at h
    obtain ⟨done, rfl⟩ := h
    have late := inv.late held
    have positive := inv.wg_pos held
    exact { inv with
      faithful := inv.faithful_set w _ trivial
      takenSplit := split_set_same held inv.takenSplit (by rfl)
      constructedSplit := by simpa [WorkerPc.busyId] using split_set held .idle inv.constructedSplit
      assignedSplit := by simpa [WorkerPc.waitingId] using split_set held .idle inv.assignedSplit
      releasedDone := fun j member => by
        rcases List.mem_append.mp member with old | new
        · exact inv.releasedDone j old
        · simp only [List.mem_singleton] at new; exact new ▸ done
      before := fun early => absurd early (not_before late)
      after := fun late => by
        have := inv.after late
        simp only [List.length_set, List.length_append, List.length_singleton] at this ⊢
        omega
      quiet := fun finished => absurd (inv.quiet finished) (by omega) }
  next => cases h

theorem dispatchInv_step {a : DispatchAct} (inv : DispatchInv o total targetOf d)
    (h : d.step o total targetOf a = some d') : DispatchInv o total targetOf d' := by
  cases a with
  | alloc => exact dispatchInv_alloc inv h
  | enqueue => exact dispatchInv_enqueue inv h
  | spawn => exact dispatchInv_spawn inv h
  | wait => exact dispatchInv_wait inv h
  | recv w => exact dispatchInv_recv inv h
  | build w => exact dispatchInv_build inv h
  | assign w => exact dispatchInv_assign inv h
  | finish i => exact dispatchInv_finish inv h
  | release w => exact dispatchInv_release inv h

theorem DispatchReach.inv (reach : DispatchReach o total targetOf d) :
    DispatchInv o total targetOf d := by
  induction reach with
  | init => exact dispatchInv_init
  | step _ _ stepped ih => exact dispatchInv_step ih stepped

/-! ### Consequences over whole runs -/

theorem DispatchInv.entry (inv : DispatchInv o total targetOf d) {l : List (Option DbSyncer)}
    (stored : d.dbSyncers = some l) {i : Nat} {ds : DbSyncer} (found : l[i]? = some (some ds)) :
    ds = newDbSyncer (syncNodeOf o targetOf i) ∧ i ∈ d.assigned := by
  by_cases pc : d.main = .alloc
  · rw [inv.unallocated pc] at stored; cases stored
  · rw [inv.table pc, Option.some.injEq] at stored
    subst stored
    simp only [syncerTable, List.getElem?_map] at found
    obtain ⟨j, index, entry⟩ := Option.map_eq_some'.mp found
    obtain ⟨_, same⟩ := List.getElem?_eq_some_iff.mp index
    simp only [List.getElem_range] at same
    subst same
    by_cases assigned : i ∈ d.assigned
    · simp only [assigned, if_true, Option.some.injEq] at entry
      exact ⟨entry.symm, assigned⟩
    · simp [assigned] at entry

theorem DispatchInv.constructed_bound (inv : DispatchInv o total targetOf d) :
    (d.constructed.filter (· ∉ d.fullDone)).length ≤ o.sourceParallel := by
  have nodup := (List.nodup_iff_count_le_one.mpr fun a => (inv.counts a).2.1).filter
    (fun i => decide (i ∉ d.fullDone))
  have busy : d.constructed.filter (· ∉ d.fullDone) ⊆ d.workers.filterMap WorkerPc.busyId :=
    fun j member => by
      simp only [List.mem_filter, decide_eq_true_eq] at member
      rcases List.mem_append.mp (inv.constructedSplit.subset member.1) with held | released
      · exact held
      · exact absurd (inv.releasedDone j released) member.2
  have workers : d.workers.length ≤ o.sourceParallel := by
    cases pc : d.main with
    | alloc => simp [(inv.before (.inl pc)).1]
    | enqueue i => simp [(inv.before (.inr ⟨i, pc⟩)).1]
    | wait => exact (inv.after (.inl pc)).1.le
    | done => exact (inv.after (.inr pc)).1.le
  calc _ ≤ (d.workers.filterMap WorkerPc.busyId).length :=
        (List.subperm_of_subset nodup busy).length_le
    _ ≤ d.workers.length := List.length_filterMap_le _ _
    _ ≤ o.sourceParallel := workers

theorem DispatchInv.released_all (inv : DispatchInv o total targetOf d) (done : d.main = .done) :
    d.released.Perm (List.range o.sourceAddressList.length) := by
  have counted := (inv.after (.inr done)).2
  have zero := inv.quiet done
  have nodup : d.released.Nodup := List.nodup_iff_count_le_one.mpr fun a => by
    have := (inv.counts a).2.2.2.1; omega
  have inRange : d.released ⊆ List.range o.sourceAddressList.length := fun j member =>
    List.mem_range.mpr (inv.assigned_lt (.inr done)
      (inv.assignedSplit.symm.subset (List.mem_append_right _ member)))
  exact (List.subperm_of_subset nodup inRange).perm_of_length_le (by simp; omega)

theorem DispatchInv.perm_range (inv : DispatchInv o total targetOf d) (done : d.main = .done)
    {ids : List Nat} (nodup : ids.Nodup) (inRange : ∀ j ∈ ids, j < o.sourceAddressList.length)
    (covers : ∀ j ∈ d.released, j ∈ ids) : ids.Perm (List.range o.sourceAddressList.length) :=
  (List.perm_ext_iff_of_nodup nodup (List.nodup_range _)).mpr fun j =>
    ⟨fun member => List.mem_range.mpr (inRange j member),
     fun member => covers j ((inv.released_all done).symm.subset member)⟩

/-! ### A run in which `wg.Wait()` returns -/

theorem DispatchReach.cycle (sized : total = o.sourceAddressList.length)
    (reach : DispatchReach o total targetOf d) (pc : d.main = .wait)
    (idle : ∀ v ∈ d.workers, v = .idle) (first : d.workers[0]? = some .idle)
    {nd : SyncNode} {rest : List SyncNode} (chan : d.syncChan = nd :: rest) :
    ∃ d', DispatchReach o total targetOf d' ∧ d'.main = .wait ∧ (∀ v ∈ d'.workers, v = .idle) ∧
      d'.workers.length = d.workers.length ∧ d'.syncChan = rest := by
  have inv := reach.inv
  have queued := inv.queued
  rw [pc, chan] at queued
  -- the head is queued once, so no worker has received it yet
  have once := congrArg (List.count nd.id) queued
  have range := List.nodup_iff_count_le_one.mp (List.nodup_range (enqueued o .wait)) nd.id
  have taken := inv.takenSplit.count_eq nd.id
  have constructed := inv.constructedSplit.count_eq nd.id
  have assigned := inv.assignedSplit.count_eq nd.id
  have waiting := (waitingId_sublist d.workers).count_le nd.id
  simp only [List.count_append, List.map_cons, List.count_cons_self] at once taken
  simp only [List.count_append] at constructed assigned
  have unassigned : nd.id ∉ d.assigned := fun member => by
    have := List.count_pos_iff.mpr member; omega
  have unfinished : nd.id ∉ d.fullDone := fun member => unassigned (inv.finished _ member)
  have lt : nd.id < total := by
    have inRange : 0 < (List.range (enqueued o .wait)).count nd.id := by omega
    simpa [enqueued, sized] using List.count_pos_iff.mp inRange
  have table := inv.table (by simp [pc])
  have len : 0 < d.workers.length := (List.getElem?_eq_some_iff.mp first).1
  have ran : d.run o total targetOf [.recv 0, .build 0, .assign 0, .finish nd.id, .release 0] =
      some { d with syncChan := rest, workers := d.workers.set 0 .idle,
                    taken := d.taken ++ [nd.id], constructed := d.constructed ++ [nd.id],
                    dbSyncers := some ((syncerTable o total targetOf d.assigned).set nd.id
                      (some (newDbSyncer nd))),
                    assigned := d.assigned ++ [nd.id], fullDone := d.fullDone ++ [nd.id],
                    wg := d.wg - 1, released := d.released ++ [nd.id] } := by
    simp [Dispatch.run, runSchedule, Dispatch.step, first, chan, len, table, syncerTable, lt,
      unfinished]
  refine ⟨_, DispatchReach.run reach ran, pc, fun v member => ?_, List.length_set _ _ _, rfl⟩
  exact (List.mem_or_eq_of_mem_set member).elim (idle v) id

theorem DispatchReach.enqueue_all (sized : total = o.sourceAddressList.length) :
    ∀ (k : Nat) (d : Dispatch), DispatchReach o total targetOf d →
      d.main = .enqueue (o.sourceAddressList.length - k) → k ≤ o.sourceAddressList.length →
      ∃ d', DispatchReach o total targetOf d' ∧ d'.main = .enqueue o.sourceAddressList.length := by
  intro k
  induction k with
  | zero => intro d reach pc _; exact ⟨d, reach, pc⟩
  | succ k ih =>
    intro d reach pc bound
    have inv := reach.inv
    have queued := inv.queued
    obtain ⟨-, -, untaken, -⟩ := inv.before (.inr ⟨_, pc⟩)
    rw [pc, untaken] at queued
    have length := congrArg List.length queued
    simp only [List.nil_append, List.length_map, enqueued, List.length_range] at length
    have stepped : d.step o total targetOf .enqueue = some { d with
        main := .enqueue (o.sourceAddressList.length - (k + 1) + 1),
        syncChan := d.syncChan ++
          [syncNodeOf o targetOf (o.sourceAddressList.length - (k + 1))] } := by
      simp only [Dispatch.step, pc]
      rw [if_pos ⟨by omega, by omega⟩]
    exact ih _ (.step .enqueue reach stepped) (by simp only; congr 1; omega) (by omega)

theorem DispatchReach.drain (sized : total = o.sourceAddressList.length) :
    ∀ (k : Nat) (d : Dispatch), DispatchReach o total targetOf d → d.main = .wait →
      (∀ v ∈ d.workers, v = .idle) → 0 < d.workers.length → d.syncChan.length = k →
      ∃ d', DispatchReach o total targetOf d' ∧ d'.main = .done := by
  intro k
  induction k with
  | zero =>
    intro d reach pc idle _ empty
    have inv := reach.inv
    have blank (f : WorkerPc → Option Nat) (carries : f .idle = none) :
        d.workers.filterMap f = [] :=
      List.filterMap_eq_nil_iff.mpr fun v member => (idle v member) ▸ carries
    have queued := congrArg List.length inv.queued
    have taken := inv.takenSplit.length_eq
    have constructed := inv.constructedSplit.length_eq
    have counted := (inv.after (.inl pc)).2
    rw [blank _ rfl] at taken constructed
    simp only [List.length_eq_zero.mp empty, pc, enqueued, List.map_nil, List.append_nil,
      List.length_range, List.nil_append] at queued taken constructed
    have stepped :
        d.step o total targetOf .wait = some { d with main := .done, closed := true } := by
      simp only [Dispatch.step, pc]
      rw [if_pos ⟨trivial, by omega⟩]
    exact ⟨_, .step .wait reach stepped, rfl⟩
  | succ k ih =>
    intro d reach pc idle len size
    obtain ⟨nd, rest, chan⟩ : ∃ nd rest, d.syncChan = nd :: rest := by
      cases h : d.syncChan with
      | nil => simp [h] at size
      | cons nd rest => exact ⟨nd, rest, rfl⟩
    have first : d.workers[0]? = some .idle := by
      rw [List.getElem?_eq_getElem len, idle _ (List.getElem_mem len)]
    obtain ⟨d', reach', pc', idle', same, rest'⟩ := reach.cycle sized pc idle first chan
    exact ih d' reach' pc' idle' (same ▸ len) (by simp [rest', chan] at size ⊢; omega)

theorem DispatchReach.completes (sized : total = o.sourceAddressList.length)
    (parallel : 1 ≤ o.sourceParallel) :
    ∃ d, DispatchReach o total targetOf d ∧ d.main = .done := by
  have allocated : Dispatch.init.step o total targetOf .alloc =
      some { Dispatch.init with main := .enqueue 0,
                                dbSyncers := some (List.replicate total none) } := rfl
  obtain ⟨d, reach, pc⟩ := DispatchReach.enqueue_all sized o.sourceAddressList.length _
    (.step .alloc .init allocated) (by simp) (le_refl _)
  have spawned : d.step o total targetOf .spawn =
      some { d with main := .wait, wg := d.wg + o.sourceAddressList.length,
                    workers := List.replicate o.sourceParallel .idle } := by
    simp [Dispatch.step, pc]
  have reach' := DispatchReach.step .spawn reach spawned
  exact DispatchReach.drain sized _ _ reach' rfl (fun v member => List.eq_of_mem_replicate member)
    (by simp; omega) rfl

end Steps

/-- `Main`'s dispatch of `n` sources to `SourceParallel` workers, over every interleaving of
`Main`, the workers and the syncers, with `GetTotalLink()` = `n`: a run in which `wg.Wait()`
returns exists; every source is received from `syncChan` and assigned into `dbSyncers` at
most once, and entry `i` holds a syncer with id `i` and source `i`; at most `SourceParallel`
syncers are constructed and have not closed `waitFull`; and once `wg.Wait()` has returned,
every source has been received and assigned exactly once and every syncer has closed
`waitFull`. -/
theorem dispatcher_syncs_each_source_once (o : Configuration) (total : Nat)
    (targetOf : Nat → String) (sized : total = o.sourceAddressList.length)
    (parallel : 1 ≤ o.sourceParallel) :
    (∃ d, DispatchReach o total targetOf d ∧ d.main = .done) ∧
    ∀ d, DispatchReach o total targetOf d →
      d.taken.Nodup ∧ d.assigned.Nodup ∧
      (∀ l, d.dbSyncers = some l → ∀ i ds, l[i]? = some (some ds) →
        ds.id = i ∧ ds.source = o.sourceAddressList.getD i "") ∧
      (d.constructed.filter (· ∉ d.fullDone)).length ≤ o.sourceParallel ∧
      (d.main = .done → d.taken.Perm (List.range o.sourceAddressList.length) ∧
        d.assigned.Perm (List.range o.sourceAddressList.length) ∧
        ∀ i < o.sourceAddressList.length, i ∈ d.fullDone) := by
  refine ⟨DispatchReach.completes sized parallel, fun d reach => ?_⟩
  have inv := reach.inv
  have takenNodup : d.taken.Nodup := List.nodup_iff_count_le_one.mpr fun a => (inv.counts a).1
  have assignedNodup : d.assigned.Nodup :=
    List.nodup_iff_count_le_one.mpr fun a => (inv.counts a).2.2.1
  refine ⟨takenNodup, assignedNodup, fun l stored i ds found => ?_, inv.constructed_bound,
    fun done => ⟨inv.perm_range done takenNodup (fun j member => ?_) (fun j member => ?_),
      inv.perm_range done assignedNodup (fun j member => inv.assigned_lt (.inr done) member)
        (fun j member => inv.assignedSplit.symm.subset (List.mem_append_right _ member)),
      fun i lt => inv.releasedDone i
        ((inv.released_all done).symm.subset (List.mem_range.mpr lt))⟩⟩
  · obtain ⟨rfl, -⟩ := inv.entry stored found
    exact ⟨rfl, rfl⟩
  · have queued := inv.queued
    rw [done] at queued
    exact List.mem_range.mp (queued ▸ List.mem_append_left _ member)
  · exact inv.takenSplit.symm.subset (List.mem_append_right _
      (inv.constructedSplit.symm.subset (List.mem_append_right _ member)))

theorem dispatcher_syncs_each_source_once_on_two :
    ∃ d, DispatchReach { Configuration.plain with
        sourceAddressList := ["127.0.0.1:6379", "127.0.0.1:6479"] } 2 (fun _ => "127.0.0.1:6380") d ∧
      d.main = .done ∧ d.taken.Perm (List.range 2) := by
  have result := dispatcher_syncs_each_source_once
    { Configuration.plain with sourceAddressList := ["127.0.0.1:6379", "127.0.0.1:6479"] } 2
    (fun _ => "127.0.0.1:6380") rfl (by decide)
  obtain ⟨d, reach, done⟩ := result.1
  exact ⟨d, reach, done, ((result.2 d reach).2.2.2.2 done).1⟩

theorem getDetailedInfo_map_some (gauges : Nat → Gauges) (syncers : List DbSyncer) :
    getDetailedInfo gauges (syncers.map some) =
      some (syncers.map fun ds => ds.getExtraInfo (gauges ds.id)) := by
  induction syncers with
  | nil => rfl
  | cons ds rest ih =>
    simp only [getDetailedInfo] at ih ⊢
    rw [List.map_cons, List.mapM_cons, ih]
    rfl

/-- Once `wg.Wait()` has returned, `GetDetailedInfo` reports for each source `i`, in order,
the addresses of source `i`'s syncer and the gauges syncer `i` shows at the call. -/
theorem detailed_info_after_full_syncs (o : Configuration) (total : Nat)
    (targetOf : Nat → String) (sized : total = o.sourceAddressList.length) (d : Dispatch)
    (reach : DispatchReach o total targetOf d) (done : d.main = .done) (gauges : Nat → Gauges) :
    d.detailedInfo gauges = some ((List.range o.sourceAddressList.length).map
      fun i => (newDbSyncer (syncNodeOf o targetOf i)).getExtraInfo (gauges i)) := by
  have inv := reach.inv
  have assigned := inv.perm_range done
    (List.nodup_iff_count_le_one.mpr fun a => (inv.counts a).2.2.1)
    (fun j member => inv.assigned_lt (.inr done) member)
    (fun j member => inv.assignedSplit.symm.subset (List.mem_append_right _ member))
  have full : syncerTable o total targetOf d.assigned =
      ((List.range total).map fun i => newDbSyncer (syncNodeOf o targetOf i)).map some := by
    rw [List.map_map]
    exact List.map_congr_left fun i member => by
      rw [if_pos (assigned.symm.subset (sized ▸ member))]
      rfl
  rw [Dispatch.detailedInfo, inv.table (by simp [done]), Option.getD_some, full,
    getDetailedInfo_map_some, List.map_map, sized]
  rfl

theorem detailed_info_after_full_syncs_on_one :
    ∃ d, DispatchReach .plain 1 (fun _ => "127.0.0.1:6380") d ∧ d.main = .done ∧
      d.detailedInfo (fun _ => ⟨1, 2, 3, 4⟩) =
        some [⟨"127.0.0.1:6379", "127.0.0.1:6380", 1, 2, 3, 4⟩] := by
  obtain ⟨d, reach, done⟩ : ∃ d, DispatchReach .plain 1 (fun _ => "127.0.0.1:6380") d ∧
      d.main = .done := DispatchReach.completes rfl (by decide)
  exact ⟨d, reach, done, detailed_info_after_full_syncs .plain 1 _ rfl d reach done _⟩

/-! ### When `Main` never returns -/

section Stalls

variable {o : Configuration} {total : Nat} {targetOf : Nat → String} {d d' : Dispatch}

theorem Dispatch.step_main {a : DispatchAct} (h : d.step o total targetOf a = some d') :
    d'.main = d.main ∨ (d.main = .alloc ∧ d'.main = .enqueue 0) ∨
      (∃ i, d.main = .enqueue i ∧ d.syncChan.length < total ∧ d'.main = .enqueue (i + 1)) ∨
      (d.main = .enqueue o.sourceAddressList.length ∧ d'.main = .wait ∧
        d'.workers = List.replicate o.sourceParallel .idle) ∨
      (d.main = .wait ∧ d.wg = 0 ∧ d'.main = .done) := by
  cases a
  case alloc =>
    simp only [Dispatch.step, Option.ite_none_right_eq_some, Option.some.injEq] at h
    obtain ⟨pc, rfl⟩ := h
    exact .inr (.inl ⟨pc, rfl⟩)
  case enqueue =>
    simp only [Dispatch.step] at h
    split at h
    next i pc =>
      simp only [Option.ite_none_right_eq_some, Option.some.injEq] at h
      obtain ⟨⟨-, room⟩, rfl⟩ := h
      exact .inr (.inr (.inl ⟨i, pc, room, rfl⟩))
    next => cases h
  case spawn =>
    simp only [Dispatch.step] at h
    split at h
    next i pc =>
      simp only [Option.ite_none_right_eq_some, Option.some.injEq] at h
      obtain ⟨rfl, rfl⟩ := h
      exact .inr (.inr (.inr (.inl ⟨pc, rfl, rfl⟩)))
    next => cases h
  case wait =>
    simp only [Dispatch.step, Option.ite_none_right_eq_some, Option.some.injEq] at h
    obtain ⟨⟨pc, zero⟩, rfl⟩ := h
    exact .inr (.inr (.inr (.inr ⟨pc, zero, rfl⟩)))
  all_goals
    refine .inl ?_
    simp only [Dispatch.step] at h
    repeat' split at h
    all_goals (cases h <;> rfl)

theorem Dispatch.step_released {a : DispatchAct} (h : d.step o total targetOf a = some d') :
    d'.released = d.released ∨ ∃ (w i : Nat), d.workers[w]? = some (.waiting i) := by
  cases a
  case release w =>
    simp only [Dispatch.step] at h
    split at h
    next i held => exact .inr ⟨w, i, held⟩
    next => cases h
  all_goals
    refine .inl ?_
    simp only [Dispatch.step] at h
    repeat' split at h
    all_goals (cases h <;> rfl)

theorem DispatchInv.workers_nil (inv : DispatchInv o total targetOf d)
    (noWorkers : o.sourceParallel = 0) : d.workers = [] := by
  cases pc : d.main with
  | alloc => exact (inv.before (.inl pc)).1
  | enqueue i => exact (inv.before (.inr ⟨i, pc⟩)).1
  | wait => exact List.length_eq_zero.mp ((inv.after (.inl pc)).1.trans noWorkers)
  | done => exact List.length_eq_zero.mp ((inv.after (.inr pc)).1.trans noWorkers)

theorem DispatchReach.unreleased (noWorkers : o.sourceParallel = 0)
    (reach : DispatchReach o total targetOf d) : d.released = [] := by
  induction reach with
  | init => rfl
  | step a reach stepped ih =>
    rcases Dispatch.step_released stepped with same | ⟨w, i, held⟩
    · exact same.trans ih
    · rw [reach.inv.workers_nil noWorkers] at held; cases held

theorem DispatchReach.stalled (short : total < o.sourceAddressList.length)
    (reach : DispatchReach o total targetOf d) :
    d.main = .alloc ∨ ∃ i ≤ total, d.main = .enqueue i := by
  induction reach with
  | init => exact .inl rfl
  | step a reach stepped ih =>
    rcases Dispatch.step_main stepped with same | ⟨-, pc⟩ | ⟨i, pc, room, pc'⟩ | ⟨pc, -⟩ | ⟨pc, -⟩
    · rw [same]; exact ih
    · exact .inr ⟨0, Nat.zero_le _, pc⟩
    · -- nothing has been received yet, so `syncChan` holds the `i` sources queued
      have inv := reach.inv
      obtain ⟨-, -, untaken, -⟩ := inv.before (.inr ⟨i, pc⟩)
      have queued := congrArg List.length inv.queued
      simp only [untaken, pc, enqueued, List.nil_append, List.length_map, List.length_range]
        at queued
      exact .inr ⟨i + 1, by omega, pc'⟩
    · rcases ih with early | ⟨i, bound, early⟩ <;> rw [pc] at early <;> cases early
      omega
    · rcases ih with early | ⟨i, -, early⟩ <;> rw [pc] at early <;> cases early

theorem getDetailedInfo_replicate_none (gauges : Nat → Gauges) (n : Nat) :
    getDetailedInfo gauges (List.replicate n none) = if n = 0 then some [] else none := by
  cases n <;> rfl

theorem DispatchInv.detailedInfo_unassigned (inv : DispatchInv o total targetOf d)
    (unassigned : d.assigned = []) (gauges : Nat → Gauges) :
    d.detailedInfo gauges = if d.main = .alloc ∨ total = 0 then some [] else none := by
  by_cases pc : d.main = .alloc
  · simp only [Dispatch.detailedInfo, inv.unallocated pc, pc, true_or, if_true]; rfl
  · rw [Dispatch.detailedInfo, inv.table pc, unassigned, syncerTable_nil, Option.getD_some,
      getDetailedInfo_replicate_none]
    simp [pc]

end Stalls

/-- `Main` with `GetTotalLink()` below the number of sources, in every interleaving: it never
leaves its sends into `syncChan`, whose buffer fills before the last source, so no worker is
started, nothing is received, no syncer is constructed or stored, and `wg.Wait()` is never
reached; and `GetDetailedInfo` returns an empty list before `dbSyncers` is allocated or when
`GetTotalLink()` is 0, and otherwise dereferences a nil syncer. -/
theorem main_blocks_when_total_below_sources (o : Configuration) (total : Nat)
    (targetOf : Nat → String) (short : total < o.sourceAddressList.length) (d : Dispatch)
    (reach : DispatchReach o total targetOf d) :
    (d.main = .alloc ∨ ∃ i ≤ total, d.main = .enqueue i) ∧ d.workers = [] ∧ d.taken = [] ∧
      d.constructed = [] ∧ d.assigned = [] ∧
      ∀ gauges, d.detailedInfo gauges = if d.main = .alloc ∨ total = 0 then some [] else none := by
  have inv := reach.inv
  have stalled := reach.stalled short
  have early : d.main = .alloc ∨ ∃ i, d.main = .enqueue i := by
    rcases stalled with pc | ⟨i, -, pc⟩
    exacts [.inl pc, .inr ⟨i, pc⟩]
  obtain ⟨idle, -, untaken, -⟩ := inv.before early
  obtain ⟨constructed, assigned, -⟩ := inv.quiet_before early
  exact ⟨stalled, idle, untaken, constructed, assigned, inv.detailedInfo_unassigned assigned⟩

theorem main_blocks_when_total_below_sources_on_two :
    ∃ d, DispatchReach { Configuration.plain with
        sourceAddressList := ["127.0.0.1:6379", "127.0.0.1:6479"] } 1 (fun _ => "127.0.0.1:6380") d ∧
      d.main = .enqueue 1 ∧ d.workers = [] ∧ d.detailedInfo (fun _ => ⟨0, 0, 0, 0⟩) = none := by
  obtain ⟨d, reach, final⟩ := DispatchReach.of_run { Configuration.plain with
      sourceAddressList := ["127.0.0.1:6379", "127.0.0.1:6479"] } 1 (fun _ => "127.0.0.1:6380")
    [.alloc, .enqueue] (fun d => d.main == .enqueue 1) (by decide)
  have pc : d.main = .enqueue 1 := by simpa using final
  have blocked := main_blocks_when_total_below_sources _ 1 _ (by decide) d reach
  exact ⟨d, reach, pc, blocked.2.1, by rw [blocked.2.2.2.2.2, pc]; rfl⟩

/-- `Main` with `SourceParallel` = 0 and at least one source, in every interleaving: no node
is ever received from `syncChan`, no syncer is stored into `dbSyncers`, and `wg.Wait()` never
returns; and `GetDetailedInfo` returns an empty list before `dbSyncers` is allocated or when
`GetTotalLink()` is 0, and otherwise dereferences a nil syncer. -/
theorem main_waits_forever_without_workers (o : Configuration) (total : Nat)
    (targetOf : Nat → String) (noWorkers : o.sourceParallel = 0)
    (sources : 0 < o.sourceAddressList.length) (d : Dispatch)
    (reach : DispatchReach o total targetOf d) :
    d.main ≠ .done ∧ d.taken = [] ∧ d.assigned = [] ∧
      ∀ gauges, d.detailedInfo gauges = if d.main = .alloc ∨ total = 0 then some [] else none := by
  have inv := reach.inv
  have idle := inv.workers_nil noWorkers
  have released := reach.unreleased noWorkers
  have taken := inv.takenSplit
  have constructed := inv.constructedSplit
  have assigned := inv.assignedSplit
  simp only [idle, released, List.filterMap_nil, List.nil_append, List.append_nil]
    at taken constructed assigned
  have unassigned : d.assigned = [] := List.Perm.eq_nil assigned
  refine ⟨fun done => ?_, List.Perm.eq_nil (taken.trans constructed), unassigned,
    inv.detailedInfo_unassigned unassigned⟩
  -- the wait group still counts every source
  have counted := (inv.after (.inr done)).2
  have zero := inv.quiet done
  simp only [released, List.length_nil, Nat.add_zero] at counted
  omega

theorem main_waits_forever_without_workers_on_one :
    ∃ d, DispatchReach { Configuration.plain with sourceParallel := 0 } 1
        (fun _ => "127.0.0.1:6380") d ∧
      d.main = .wait ∧ d.main ≠ .done ∧ d.detailedInfo (fun _ => ⟨0, 0, 0, 0⟩) = none := by
  obtain ⟨d, reach, final⟩ := DispatchReach.of_run { Configuration.plain with sourceParallel := 0 }
    1 (fun _ => "127.0.0.1:6380") [.alloc, .enqueue, .spawn] (fun d => d.main == .wait)
    (by decide)
  have pc : d.main = .wait := by simpa using final
  have stuck := main_waits_forever_without_workers _ 1 _ rfl (by decide) d reach
  exact ⟨d, reach, pc, stuck.1, by rw [stuck.2.2.2, pc]; rfl⟩

end RedisShake.Run
