import Mathlib.Data.List.Infix
import RedisShake.Schedule

set_option autoImplicit false

namespace RedisShake.Run

/-! ### The psync handshake, the copy goroutine and `base.Status` -/

/-- Where `sync` is. -/
inductive SyncPc where
  /-- `base.Status = "waitfull"` next -/
  | start
  /-- `sendPSyncCmd`'s handshake next -/
  | handshake
  /-- `base.Status = "full"` next -/
  | full
  /-- in `syncRDBFile` -/
  | load
  /-- past `close(ds.waitFull)` -/
  | incr
deriving DecidableEq, Repr

/-- Where the copy goroutine of `sendPSyncCmd` is. -/
inductive CopyPc where
  | idle
  /-- copying the snapshot with `rdbsize` bytes left -/
  | rdb (remaining : Nat)
  /-- `br.Read` in `pSyncPipeCopy` -/
  | reading
  /-- `n` bytes written into `pipew`, `nread.Add(n)` next -/
  | counting (n : Nat)
  /-- `base.Status = "reopen"` next -/
  | reopen
  /-- `OpenNetConnSoft` next -/
  | opening
  /-- `SendPSyncContinue` next -/
  | resume
deriving DecidableEq, Repr

/-- Inside `pSyncPipeCopy`, where the ack goroutine of the live connection runs. -/
def CopyPc.live : CopyPc → Bool
  | .reading | .counting _ => true
  | _ => false

inductive Writer where
  | sync
  | copy
deriving DecidableEq, Repr

/-- A `REPLCONF ACK` sent on the live source connection: its value, whether `waitFull` was
closed, and the bytes written into `pipew` by then. -/
structure Ack where
  value : Nat
  afterFull : Bool
  written : Nat
deriving DecidableEq, Repr

/-- The psync side of one syncer: the places of `sync` and of the copy goroutine,
`waitFull`, `targetOffset`, the copy goroutine's `offset` and the live `pSyncPipeCopy`'s
`nread`, the bytes written into `pipew`; and, as logs, every value written to
`base.Status` with its writer, every ack, and every offset passed to `SendPSyncContinue`
with the bytes then in `pipew`. -/
structure Psync where
  sync : SyncPc
  copy : CopyPc
  waitFull : Bool
  targetOffset : Nat
  offset : Nat
  nread : Nat
  pipe : List UInt8
  writes : List (Writer × String)
  acks : List Ack
  continues : List (Nat × Nat)
deriving Repr

def Psync.init : Psync := ⟨.start, .idle, false, 0, 0, 0, [], [], [], []⟩

inductive PsyncAct where
  | waitfull
  | handshake
  | full
  /-- `syncRDBFile` returns: `base.Status = "incr"` and `close(ds.waitFull)` -/
  | loaded
  /-- one `Iocopy` of the snapshot, of `k` bytes -/
  | iocopy (k : Nat)
  /-- `br.Read` returns `n` bytes, written into `pipew` -/
  | read (n : Nat)
  | count
  /-- `br.Read` fails: `pSyncPipeCopy` returns `nread`, added to `offset` and stored -/
  | fail
  | reopen
  /-- `OpenNetConnSoft` fails, or succeeds and `base.Status = "incr"` -/
  | opened (ok : Bool)
  | resume
  /-- the ack goroutine of the live connection sends `REPLCONF ACK` -/
  | ack
deriving DecidableEq, Repr

/-- `n` bytes of the replication stream `S` from offset `o`. -/
def streamFrom (S : Nat → UInt8) (o n : Nat) : List UInt8 := (List.range n).map fun x => S (o + x)

/-- One step of `sync` or of the copy goroutine, for the snapshot `rdb` and the source's
replication stream `S` after `FULLRESYNC` at offset `o0`. -/
def Psync.step (rdb : List UInt8) (S : Nat → UInt8) (o0 : Nat) (s : Psync) :
    PsyncAct → Option Psync
  | .waitfull =>
    if s.sync = .start then
      some { s with sync := .handshake, writes := s.writes ++ [(.sync, "waitfull")] }
    else none
  | .handshake =>
    -- `sendPSyncCmd` waits for a nonzero `nsize`
    if s.sync = .handshake ∧ rdb.length ≠ 0 then
      some { s with sync := .full, targetOffset := o0, offset := o0, copy := .rdb rdb.length }
    else none
  | .full =>
    if s.sync = .full then some { s with sync := .load, writes := s.writes ++ [(.sync, "full")] }
    else none
  | .loaded =>
    -- the loader has read the whole snapshot out of the pipe
    if s.sync = .load ∧ rdb.length ≤ s.pipe.length then
      some { s with sync := .incr, waitFull := true, writes := s.writes ++ [(.sync, "incr")] }
    else none
  | .iocopy k =>
    match s.copy with
    | .rdb r =>
      if 1 ≤ k ∧ k ≤ r then
        some { s with pipe := s.pipe ++ (rdb.drop (rdb.length - r)).take k,
                      copy := if r - k = 0 then .reading else .rdb (r - k) }
      else none
    | _ => none
  | .read n =>
    if s.copy = .reading ∧ 1 ≤ n ∧ n ≤ 8192 then
      some { s with pipe := s.pipe ++ streamFrom S (s.offset + s.nread) n, copy := .counting n }
    else none
  | .count =>
    match s.copy with
    | .counting n => some { s with nread := s.nread + n, copy := .reading }
    | _ => none
  | .fail =>
    if s.copy = .reading then
      some { s with offset := s.offset + s.nread, targetOffset := s.offset + s.nread, nread := 0,
                    copy := .reopen }
    else none
  | .reopen =>
    if s.copy = .reopen then
      some { s with copy := .opening, writes := s.writes ++ [(.copy, "reopen")] }
    else none
  | .opened ok =>
    if s.copy = .opening then
      if ok then some { s with copy := .resume, writes := s.writes ++ [(.copy, "incr")] }
      else some { s with copy := .reopen }
    else none
  | .resume =>
    if s.copy = .resume then
      some { s with copy := .reading, continues := s.continues ++ [(s.offset, s.pipe.length)] }
    else none
  | .ack =>
    if s.copy.live then
      some { s with acks := s.acks ++
        [⟨if s.waitFull then s.offset + s.nread else 0, s.waitFull, s.pipe.length⟩] }
    else none

/-- The states of every interleaving of `sync` and the copy goroutine, every split of the
snapshot into `Iocopy` calls, and every length and break of each source connection. -/
inductive PsyncReach (rdb : List UInt8) (S : Nat → UInt8) (o0 : Nat) : Psync → Prop where
  | init : PsyncReach rdb S o0 Psync.init
  | step {s s' : Psync} (a : PsyncAct) : PsyncReach rdb S o0 s → s.step rdb S o0 a = some s' →
      PsyncReach rdb S o0 s'

def Psync.run (rdb : List UInt8) (S : Nat → UInt8) (o0 : Nat) :
    Psync → List PsyncAct → Option Psync :=
  runSchedule fun s a => s.step rdb S o0 a

theorem PsyncReach.of_run (rdb : List UInt8) (S : Nat → UInt8) (o0 : Nat) (as : List PsyncAct)
    (q : Psync → Bool) (ran : (Psync.init.run rdb S o0 as).map q = some true) :
    ∃ s, PsyncReach rdb S o0 s ∧ q s = true :=
  exists_of_runSchedule (PsyncReach rdb S o0) (fun _ => True)
    (fun reach _ stepped => .step _ reach stepped) q .init (fun _ _ => trivial) ran

/-- The source connection breaks right after the snapshot is copied, while the restorers are
still loading it: the copy goroutine writes `reopen` and then `incr` before `sync` has closed
`waitFull` or written its own `incr`. -/
theorem reopen_before_snapshot_loaded :
    ∃ s, PsyncReach [1] (fun _ => 0) 0 s ∧ s.waitFull = false ∧
      s.writes.map Prod.snd = ["waitfull", "full", "reopen", "incr"] := by
  obtain ⟨s, reach, final⟩ := PsyncReach.of_run [1] (fun _ => 0) 0
    [.waitfull, .handshake, .full, .iocopy 1, .fail, .reopen, .opened true]
    (fun s => !s.waitFull && s.writes.map Prod.snd == ["waitfull", "full", "reopen", "incr"])
    (by decide)
  simp only [Bool.and_eq_true, Bool.not_eq_true', beq_iff_eq] at final
  exact ⟨s, reach, final.1, final.2⟩

/-! ### What every run keeps -/

/-- The bytes one uninterrupted connection delivers after `FULLRESYNC`: the snapshot, then
the replication stream from `o0`. -/
def ideal (rdb : List UInt8) (S : Nat → UInt8) (o0 j : Nat) : UInt8 :=
  if j < rdb.length then rdb.getD j 0 else S (o0 + (j - rdb.length))

/-- The words of `(reopen⁺ incr)* reopen*`: `blocks` holds one less than the length of each
run of `reopen` that an `incr` closes, `tail` counts the `reopen`s after the last `incr`. -/
def reopenWord (blocks : List Nat) (tail : Nat) : List String :=
  (blocks.map fun k => List.replicate (k + 1) "reopen" ++ ["incr"]).flatten ++
    List.replicate tail "reopen"

theorem reopenWord_reopen (blocks : List Nat) (tail : Nat) :
    reopenWord blocks tail ++ ["reopen"] = reopenWord blocks (tail + 1) := by
  simp [reopenWord, List.replicate_succ']

theorem reopenWord_incr (blocks : List Nat) (tail : Nat) :
    reopenWord blocks (tail + 1) ++ ["incr"] = reopenWord (blocks ++ [tail]) 0 := by
  simp [reopenWord, List.replicate_succ', List.flatten_append]

/-- The values a writer has written to `base.Status`, in order. -/
def writtenBy (w : Writer) (writes : List (Writer × String)) : List String :=
  (writes.filter (·.1 == w)).map Prod.snd

@[simp] theorem writtenBy_nil (w : Writer) : writtenBy w [] = [] := rfl

@[simp] theorem writtenBy_write (w w' : Writer) (writes : List (Writer × String)) (x : String) :
    writtenBy w (writes ++ [(w', x)]) = writtenBy w writes ++ if w' = w then [x] else [] := by
  by_cases same : w' = w <;> simp [writtenBy, same]

theorem writes_eq_nil {writes : List (Writer × String)} (sync : writtenBy .sync writes = [])
    (copy : writtenBy .copy writes = []) : writes = [] := by
  simp only [writtenBy, List.map_eq_nil_iff, List.filter_eq_nil_iff, beq_iff_eq] at sync copy
  exact List.eq_nil_iff_forall_not_mem.mpr fun x member => by
    cases h : x.1
    · exact sync x member h
    · exact copy x member h

def CopyPc.pending : CopyPc → Nat
  | .counting n => n
  | _ => 0

/-- What holds at each place of the copy goroutine: where the source stream stands against
the bytes in `pipew`, and how the goroutine's `base.Status` writes end. -/
def copyFacts (rdb : List UInt8) (o0 : Nat) (s : Psync) : Prop :=
  match s.copy with
  | .idle => s.pipe = [] ∧ s.nread = 0 ∧ writtenBy .copy s.writes = []
  | .rdb r => 0 < r ∧ s.pipe.length + r = rdb.length ∧ s.offset = o0 ∧ s.nread = 0 ∧
      s.targetOffset = o0 ∧ writtenBy .copy s.writes = []
  | .reading | .counting _ => rdb.length ≤ s.pipe.length ∧
      s.offset + s.nread + s.copy.pending = o0 + (s.pipe.length - rdb.length) ∧
      s.targetOffset = s.offset ∧ ∃ blocks, writtenBy .copy s.writes = reopenWord blocks 0
  | .reopen => rdb.length ≤ s.pipe.length ∧ s.offset = o0 + (s.pipe.length - rdb.length) ∧
      s.nread = 0 ∧ s.targetOffset = s.offset ∧
      ∃ blocks tail, writtenBy .copy s.writes = reopenWord blocks tail
  | .opening => rdb.length ≤ s.pipe.length ∧ s.offset = o0 + (s.pipe.length - rdb.length) ∧
      s.nread = 0 ∧ s.targetOffset = s.offset ∧
      ∃ blocks tail, writtenBy .copy s.writes = reopenWord blocks (tail + 1)
  | .resume => rdb.length ≤ s.pipe.length ∧ s.offset = o0 + (s.pipe.length - rdb.length) ∧
      s.nread = 0 ∧ s.targetOffset = s.offset ∧
      ∃ blocks, writtenBy .copy s.writes = reopenWord blocks 0

/-- What holds at each place of `sync`: its `base.Status` writes so far and `waitFull`. -/
def syncFacts (s : Psync) : Prop :=
  match s.sync with
  | .start => writtenBy .sync s.writes = [] ∧ s.waitFull = false
  | .handshake | .full => writtenBy .sync s.writes = ["waitfull"] ∧ s.waitFull = false
  | .load => writtenBy .sync s.writes = ["waitfull", "full"] ∧ s.waitFull = false
  | .incr => writtenBy .sync s.writes = ["waitfull", "full", "incr"] ∧ s.waitFull = true

/-- What every reachable state satisfies. -/
structure PsyncInv (rdb : List UInt8) (S : Nat → UInt8) (o0 : Nat) (s : Psync) : Prop where
  faithful : s.pipe = (List.range s.pipe.length).map (ideal rdb S o0)
  copying : copyFacts rdb o0 s
  syncing : syncFacts s
  spawned : s.copy = .idle ↔ s.sync = .start ∨ s.sync = .handshake
  first : s.writes ≠ [] → s.writes.head? = some (.sync, "waitfull")
  resumed : ∀ c ∈ s.continues, rdb.length ≤ c.2 ∧ c.1 = o0 + (c.2 - rdb.length)
  acked : ∀ a ∈ s.acks, (a.afterFull = false → a.value = 0) ∧
    (a.afterFull = true → rdb.length ≤ a.written ∧ a.value ≤ o0 + (a.written - rdb.length))
  acksBelow : ∀ a ∈ s.acks, a.value ≤ if s.waitFull then s.offset + s.nread else 0
  acksSorted : (s.acks.map Ack.value).Pairwise (· ≤ ·)

section Steps

variable {rdb : List UInt8} {S : Nat → UInt8} {o0 : Nat} {s s' : Psync}

theorem copyFacts_congr {t : Psync} (h : copyFacts rdb o0 s) (copy : t.copy = s.copy)
    (pipe : t.pipe = s.pipe) (offset : t.offset = s.offset) (nread : t.nread = s.nread)
    (target : t.targetOffset = s.targetOffset)
    (written : writtenBy .copy t.writes = writtenBy .copy s.writes) : copyFacts rdb o0 t := by
  unfold copyFacts at h ⊢
  rw [copy, pipe, offset, nread, target, written]
  exact h

theorem syncFacts_congr {t : Psync} (h : syncFacts s) (sync : t.sync = s.sync)
    (waitFull : t.waitFull = s.waitFull)
    (written : writtenBy .sync t.writes = writtenBy .sync s.writes) : syncFacts t := by
  unfold syncFacts at h ⊢
  rw [sync, waitFull, written]
  exact h

theorem copyFacts_live (facts : copyFacts rdb o0 s) (live : s.copy.live = true) :
    rdb.length ≤ s.pipe.length ∧ s.offset + s.nread ≤ o0 + (s.pipe.length - rdb.length) := by
  unfold copyFacts at facts
  cases hc : s.copy <;>
    simp only [hc, CopyPc.live, CopyPc.pending, Bool.false_eq_true] at live facts
  all_goals exact ⟨facts.1, by omega⟩

theorem PsyncInv.writes_ne_nil (inv : PsyncInv rdb S o0 s) (running : s.copy ≠ .idle) :
    s.writes ≠ [] := by
  intro empty
  have facts := inv.syncing
  have later : ¬(s.sync = .start ∨ s.sync = .handshake) :=
    fun early => running (inv.spawned.mpr early)
  unfold syncFacts at facts
  split at facts <;> simp_all

theorem PsyncInv.first_write (inv : PsyncInv rdb S o0 s) (running : s.copy ≠ .idle)
    (x : Writer × String) :
    s.writes ++ [x] ≠ [] → (s.writes ++ [x]).head? = some (.sync, "waitfull") := fun _ => by
  rw [List.head?_append, inv.first (inv.writes_ne_nil running)]
  rfl

theorem PsyncInv.spawned_copy (inv : PsyncInv rdb S o0 s) (running : s.copy ≠ .idle)
    {t : Psync} (sync : t.sync = s.sync) (still : t.copy ≠ .idle) :
    t.copy = .idle ↔ t.sync = .start ∨ t.sync = .handshake := by
  rw [sync, ← inv.spawned]
  simp [running, still]

theorem map_range_append {α : Type} (f : Nat → α) (l more : List α)
    (faithful : l = (List.range l.length).map f)
    (next : more = (List.range more.length).map fun x => f (l.length + x)) :
    l ++ more = (List.range (l ++ more).length).map f := by
  rw [List.length_append, List.range_add, List.map_append, List.map_map]
  exact congrArg₂ _ faithful next

theorem take_drop_eq_map (rdb : List UInt8) (m k : Nat) (fits : m + k ≤ rdb.length) :
    (rdb.drop m).take k = (List.range k).map fun x => rdb.getD (m + x) 0 := by
  apply List.ext_getElem
  · simp; omega
  · intro i _ inside
    simp only [List.getElem_take, List.getElem_drop, List.getElem_map, List.getElem_range,
      List.getD_eq_getElem?_getD]
    rw [List.getElem?_eq_getElem (by simp at inside; omega)]
    rfl

theorem psyncInv_init : PsyncInv rdb S o0 Psync.init where
  faithful := rfl
  copying := ⟨rfl, rfl, rfl⟩
  syncing := ⟨rfl, rfl⟩
  spawned := by simp [Psync.init]
  first := fun written => absurd rfl written
  resumed := fun _ member => by cases member
  acked := fun _ member => by cases member
  acksBelow := fun _ member => by cases member
  acksSorted := List.Pairwise.nil

/-! The steps of `sync`. -/

theorem psyncInv_waitfull (inv : PsyncInv rdb S o0 s) (h : s.step rdb S o0 .waitfull = some s') :
    PsyncInv rdb S o0 s' := by
  simp only [Psync.step, Option.ite_none_right_eq_some, Option.some.injEq] at h
  obtain ⟨pc, rfl⟩ := h
  have idle := inv.spawned.mpr (.inl pc)
  have facts := inv.copying
  have early := inv.syncing
  simp only [copyFacts, idle] at facts
  simp only [syncFacts, pc] at early
  have empty := writes_eq_nil early.1 facts.2.2
  exact { inv with
    copying := by simp only [copyFacts, idle]; simp [facts]
    syncing := by simp [syncFacts, early]
    spawned := by simp [idle]
    first := fun _ => by simp [empty] }

theorem psyncInv_handshake (inv : PsyncInv rdb S o0 s)
    (h : s.step rdb S o0 .handshake = some s') : PsyncInv rdb S o0 s' := by
  simp only [Psync.step, Option.ite_none_right_eq_some, Option.some.injEq] at h
  obtain ⟨⟨pc, nonempty⟩, rfl⟩ := h
  have idle := inv.spawned.mpr (.inr pc)
  have facts := inv.copying
  have early := inv.syncing
  simp only [copyFacts, idle] at facts
  simp only [syncFacts, pc] at early
  exact { inv with
    copying := by simp [copyFacts, facts, Nat.pos_of_ne_zero nonempty]
    syncing := early
    spawned := by simp
    acksBelow := by simpa [early.2] using inv.acksBelow }

theorem psyncInv_full (inv : PsyncInv rdb S o0 s) (h : s.step rdb S o0 .full = some s') :
    PsyncInv rdb S o0 s' := by
  simp only [Psync.step, Option.ite_none_right_eq_some, Option.some.injEq] at h
  obtain ⟨pc, rfl⟩ := h
  have early := inv.syncing
  simp only [syncFacts, pc] at early
  have running : s.copy ≠ .idle := by simpa [pc] using inv.spawned
  exact { inv with
    copying := copyFacts_congr inv.copying rfl rfl rfl rfl rfl (by simp)
    syncing := by simp [syncFacts, early]
    spawned := by simpa [pc] using inv.spawned
    first := inv.first_write running _ }

theorem psyncInv_loaded (inv : PsyncInv rdb S o0 s) (h : s.step rdb S o0 .loaded = some s') :
    PsyncInv rdb S o0 s' := by
  simp only [Psync.step, Option.ite_none_right_eq_some, Option.some.injEq] at h
  obtain ⟨⟨pc, -⟩, rfl⟩ := h
  have early := inv.syncing
  simp only [syncFacts, pc] at early
  have running : s.copy ≠ .idle := by simpa [pc] using inv.spawned
  exact { inv with
    copying := copyFacts_congr inv.copying rfl rfl rfl rfl rfl (by simp)
    syncing := by simp [syncFacts, early]
    spawned := by simpa [pc] using inv.spawned
    first := inv.first_write running _
    acksBelow := fun a member => by
      have := inv.acksBelow a member
      simp [early.2] at this
      simp [this] }

/-! The steps of the copy goroutine. -/

theorem psyncInv_iocopy {k : Nat} (inv : PsyncInv rdb S o0 s)
    (h : s.step rdb S o0 (.iocopy k) = some s') : PsyncInv rdb S o0 s' := by
  simp only [Psync.step] at h
  split at h
  next r pc =>
    simp only [Option.ite_none_right_eq_some, Option.some.injEq] at h
    obtain ⟨⟨one, le⟩, rfl⟩ := h
    have facts := inv.copying
    simp only [copyFacts, pc] at facts
    obtain ⟨pos, size, offset, nread, target, written⟩ := facts
    -- the chunk is the next `k` bytes of the snapshot
    have chunk : (rdb.drop (rdb.length - r)).take k =
        (List.range k).map fun x => ideal rdb S o0 (s.pipe.length + x) := by
      rw [take_drop_eq_map rdb _ k (by omega)]
      refine List.map_congr_left fun x member => ?_
      have inside : s.pipe.length + x < rdb.length := by simp at member; omega
      simp only [ideal, inside, if_true]
      congr 1; omega
    have faithful := map_range_append _ _ ((rdb.drop (rdb.length - r)).take k) inv.faithful
      (by rw [chunk]; simp)
    have running : s.copy ≠ .idle := by simp [pc]
    by_cases done : r - k = 0
    next =>
      simp only [done, if_true]
      exact { inv with
        faithful := faithful
        copying := ⟨by simp; omega, by simp [CopyPc.pending]; omega, by simp [offset, target],
          [], by simpa [reopenWord] using written⟩
        spawned := inv.spawned_copy running rfl (by simp) }
    next =>
      simp only [done, if_false]
      exact { inv with
        faithful := faithful
        copying := ⟨by omega, by simp; omega, offset, nread, target, written⟩
        spawned := inv.spawned_copy running rfl (by simp) }
  next => cases h

theorem psyncInv_read {n : Nat} (inv : PsyncInv rdb S o0 s)
    (h : s.step rdb S o0 (.read n) = some s') : PsyncInv rdb S o0 s' := by
  simp only [Psync.step, Option.ite_none_right_eq_some, Option.some.injEq] at h
  obtain ⟨⟨pc, -, -⟩, rfl⟩ := h
  have facts := inv.copying
  simp only [copyFacts, pc, CopyPc.pending] at facts
  obtain ⟨enough, position, target, blocks, written⟩ := facts
  -- the connection delivers the stream from where `pipew` stands
  have chunk : streamFrom S (s.offset + s.nread) n =
      (List.range n).map fun x => ideal rdb S o0 (s.pipe.length + x) := by
    refine List.map_congr_left fun x _ => ?_
    have beyond : ¬ s.pipe.length + x < rdb.length := by omega
    simp only [ideal, beyond, if_false]
    congr 1; omega
  exact { inv with
    faithful := map_range_append _ _ (streamFrom S (s.offset + s.nread) n) inv.faithful
      (by rw [chunk]; simp)
    copying := ⟨by simp; omega, by simp [CopyPc.pending, streamFrom]; omega, target, blocks,
      written⟩
    spawned := inv.spawned_copy (by simp [pc]) rfl (by simp) }

theorem psyncInv_count (inv : PsyncInv rdb S o0 s) (h : s.step rdb S o0 .count = some s') :
    PsyncInv rdb S o0 s' := by
  simp only [Psync.step] at h
  split at h
  next n pc =>
    cases h
    have facts := inv.copying
    simp only [copyFacts, pc, CopyPc.pending] at facts
    obtain ⟨enough, position, target, blocks, written⟩ := facts
    exact { inv with
      copying := ⟨enough, by simp [CopyPc.pending]; omega, target, blocks, written⟩
      spawned := inv.spawned_copy (by simp [pc]) rfl (by simp)
      acksBelow := fun a member => by
        have := inv.acksBelow a member
        split at this <;> simp_all; omega }
  next => cases h

theorem psyncInv_fail (inv : PsyncInv rdb S o0 s) (h : s.step rdb S o0 .fail = some s') :
    PsyncInv rdb S o0 s' := by
  simp only [Psync.step, Option.ite_none_right_eq_some, Option.some.injEq] at h
  obtain ⟨pc, rfl⟩ := h
  have facts := inv.copying
  simp only [copyFacts, pc, CopyPc.pending] at facts
  obtain ⟨enough, position, -, blocks, written⟩ := facts
  exact { inv with
    copying := ⟨enough, by simp; omega, rfl, rfl, blocks, 0, written⟩
    spawned := inv.spawned_copy (by simp [pc]) rfl (by simp)
    acksBelow := by simpa using inv.acksBelow }

theorem psyncInv_reopen (inv : PsyncInv rdb S o0 s) (h : s.step rdb S o0 .reopen = some s') :
    PsyncInv rdb S o0 s' := by
  simp only [Psync.step, Option.ite_none_right_eq_some, Option.some.injEq] at h
  obtain ⟨pc, rfl⟩ := h
  have facts := inv.copying
  simp only [copyFacts, pc] at facts
  obtain ⟨enough, position, nread, target, blocks, tail, written⟩ := facts
  have running : s.copy ≠ .idle := by simp [pc]
  exact { inv with
    copying := ⟨enough, position, nread, target, blocks, tail,
      by simp [written, reopenWord_reopen]⟩
    syncing := syncFacts_congr inv.syncing rfl rfl (by simp)
    spawned := inv.spawned_copy running rfl (by simp)
    first := inv.first_write running _ }

theorem psyncInv_opened {ok : Bool} (inv : PsyncInv rdb S o0 s)
    (h : s.step rdb S o0 (.opened ok) = some s') : PsyncInv rdb S o0 s' := by
  simp only [Psync.step, Option.ite_none_right_eq_some] at h
  obtain ⟨pc, h⟩ := h
  have facts := inv.copying
  simp only [copyFacts, pc] at facts
  obtain ⟨enough, position, nread, target, blocks, tail, written⟩ := facts
  have running : s.copy ≠ .idle := by simp [pc]
  split at h <;> cases h
  next =>
    exact { inv with
      copying := ⟨enough, position, nread, target, blocks ++ [tail],
        by simp [written, reopenWord_incr]⟩
      syncing := syncFacts_congr inv.syncing rfl rfl (by simp)
      spawned := inv.spawned_copy running rfl (by simp)
      first := inv.first_write running _ }
  next =>
    exact { inv with
      copying := ⟨enough, position, nread, target, blocks, tail + 1, written⟩
      spawned := inv.spawned_copy running rfl (by simp) }

theorem psyncInv_resume (inv : PsyncInv rdb S o0 s) (h : s.step rdb S o0 .resume = some s') :
    PsyncInv rdb S o0 s' := by
  simp only [Psync.step, Option.ite_none_right_eq_some, Option.some.injEq] at h
  obtain ⟨pc, rfl⟩ := h
  have facts := inv.copying
  simp only [copyFacts, pc] at facts
  obtain ⟨enough, position, nread, target, written⟩ := facts
  exact { inv with
    copying := ⟨enough, by simp [CopyPc.pending, nread, position], target, written⟩
    spawned := inv.spawned_copy (by simp [pc]) rfl (by simp)
    resumed := fun c member => by
      rcases List.mem_append.mp member with old | fresh
      · exact inv.resumed c old
      · simp only [List.mem_singleton] at fresh; subst fresh; exact ⟨enough, position⟩ }

theorem psyncInv_ack (inv : PsyncInv rdb S o0 s) (h : s.step rdb S o0 .ack = some s') :
    PsyncInv rdb S o0 s' := by
  simp only [Psync.step, Option.ite_none_right_eq_some, Option.some.injEq] at h
  obtain ⟨live, rfl⟩ := h
  obtain ⟨enough, behind⟩ := copyFacts_live inv.copying live
  -- the value sent is the one every earlier ack is bounded by
  have fresh (a : Ack) (member : a ∈ s.acks ++
      [⟨if s.waitFull then s.offset + s.nread else 0, s.waitFull, s.pipe.length⟩]) :
      a ∈ s.acks ∨ a = ⟨if s.waitFull then s.offset + s.nread else 0, s.waitFull,
        s.pipe.length⟩ := by
    simpa using member
  exact { inv with
    acked := fun a member => by
      rcases fresh a member with old | rfl
      · exact inv.acked a old
      · cases s.waitFull <;> simp [enough, behind]
    acksBelow := fun a member => by
      rcases fresh a member with old | rfl
      · exact inv.acksBelow a old
      · exact le_refl _
    acksSorted := by
      simp only [List.map_append, List.map_cons, List.map_nil]
      exact List.pairwise_append.mpr ⟨inv.acksSorted, List.pairwise_singleton _ _,
        fun v old w new => by
          simp only [List.mem_singleton] at new
          obtain ⟨a, member, rfl⟩ := List.mem_map.mp old
          exact new ▸ inv.acksBelow a member⟩ }

theorem psyncInv_step {a : PsyncAct} (inv : PsyncInv rdb S o0 s)
    (h : s.step rdb S o0 a = some s') : PsyncInv rdb S o0 s' := by
  cases a with
  | waitfull => exact psyncInv_waitfull inv h
  | handshake => exact psyncInv_handshake inv h
  | full => exact psyncInv_full inv h
  | loaded => exact psyncInv_loaded inv h
  | iocopy k => exact psyncInv_iocopy inv h
  | read n => exact psyncInv_read inv h
  | count => exact psyncInv_count inv h
  | fail => exact psyncInv_fail inv h
  | reopen => exact psyncInv_reopen inv h
  | opened ok => exact psyncInv_opened inv h
  | resume => exact psyncInv_resume inv h
  | ack => exact psyncInv_ack inv h

theorem PsyncReach.inv (reach : PsyncReach rdb S o0 s) : PsyncInv rdb S o0 s := by
  induction reach with
  | init => exact psyncInv_init
  | step _ _ stepped ih => exact psyncInv_step ih stepped

theorem snapshot_prefix {pipe : List UInt8}
    (faithful : pipe = (List.range pipe.length).map (ideal rdb S o0))
    (enough : rdb.length ≤ pipe.length) : rdb <+: pipe := by
  have front : pipe.take rdb.length = (List.range rdb.length).map (ideal rdb S o0) := by
    conv_lhs => rw [faithful]
    rw [← List.map_take, List.take_range, Nat.min_eq_left enough]
  rw [List.prefix_iff_eq_take, front]
  apply List.ext_getElem (by simp)
  intro i inside _
  simp [ideal, inside, List.getD_eq_getElem?_getD, List.getElem?_eq_getElem inside]

end Steps

/-- Psync's resume loses and repeats nothing: `pipew` holds a prefix of the snapshot
followed by the replication stream from `o0`; between a break and the `SendPSyncContinue`
after it, `offset` and `targetOffset` are `o0` plus the stream bytes in `pipew`, the offset
every `SendPSyncContinue` is passed; every ack is 0 before `waitFull` is closed and at most
`o0` plus the stream bytes in `pipew` after; and the acks never decrease. -/
theorem psync_resume_keeps_stream (rdb : List UInt8) (S : Nat → UInt8) (o0 : Nat) (s : Psync)
    (reach : PsyncReach rdb S o0 s) :
    s.pipe = (List.range s.pipe.length).map (ideal rdb S o0) ∧
    (s.copy = .reopen ∨ s.copy = .opening ∨ s.copy = .resume →
      rdb.length ≤ s.pipe.length ∧ s.targetOffset = o0 + (s.pipe.length - rdb.length) ∧
        s.offset = s.targetOffset) ∧
    (∀ c ∈ s.continues, rdb.length ≤ c.2 ∧ c.1 = o0 + (c.2 - rdb.length)) ∧
    (∀ a ∈ s.acks, (a.afterFull = false → a.value = 0) ∧
      (a.afterFull = true → rdb.length ≤ a.written ∧ a.value ≤ o0 + (a.written - rdb.length))) ∧
    (s.acks.map Ack.value).Pairwise (· ≤ ·) := by
  have inv := reach.inv
  refine ⟨inv.faithful, fun broken => ?_, inv.resumed, inv.acked, inv.acksSorted⟩
  have facts := inv.copying
  rcases broken with pc | pc | pc <;> simp only [copyFacts, pc] at facts <;>
    exact ⟨facts.1, by omega, by omega⟩

theorem psync_resume_keeps_stream_after_break :
    ∃ s, PsyncReach [1] (fun _ => 7) 100 s ∧ s.continues = [(102, 3)] ∧
      s.pipe = [1, 7, 7, 7] ∧ s.pipe = (List.range s.pipe.length).map (ideal [1] (fun _ => 7) 100) := by
  obtain ⟨s, reach, final⟩ := PsyncReach.of_run [1] (fun _ => 7) 100
    [.waitfull, .handshake, .full, .iocopy 1, .read 2, .count, .ack, .fail, .reopen,
      .opened true, .resume, .read 1]
    (fun s => s.continues == [(102, 3)] && s.pipe == [1, 7, 7, 7]) (by decide)
  simp only [Bool.and_eq_true, beq_iff_eq] at final
  exact ⟨s, reach, final.1, final.2, (psync_resume_keeps_stream _ _ _ s reach).1⟩

/-- The values written to `base.Status`: `sync` writes a prefix of `waitfull full incr`, the
copy goroutine a word of `(reopen⁺ incr)* reopen*`, `waitfull` is the first value written,
and the copy goroutine writes only once the whole snapshot is in `pipew`. -/
theorem status_writes_interleave (rdb : List UInt8) (S : Nat → UInt8) (o0 : Nat) (s : Psync)
    (reach : PsyncReach rdb S o0 s) :
    writtenBy .sync s.writes <+: ["waitfull", "full", "incr"] ∧
    (∃ blocks tail, writtenBy .copy s.writes = reopenWord blocks tail) ∧
    (s.writes ≠ [] → s.writes.head? = some (.sync, "waitfull")) ∧
    (writtenBy .copy s.writes ≠ [] → rdb <+: s.pipe) := by
  have inv := reach.inv
  have facts := inv.copying
  have early := inv.syncing
  refine ⟨?_, ?_, inv.first, fun written => snapshot_prefix inv.faithful ?_⟩
  · unfold syncFacts at early
    split at early <;> rw [early.1]
    · exact List.nil_prefix
    all_goals exact ⟨_, rfl⟩
  · unfold copyFacts at facts
    cases hc : s.copy <;> simp only [hc] at facts
    next => exact ⟨[], 0, facts.2.2⟩
    next => exact ⟨[], 0, facts.2.2.2.2.2⟩
    next => obtain ⟨blocks, word⟩ := facts.2.2.2; exact ⟨blocks, 0, word⟩
    next => obtain ⟨blocks, word⟩ := facts.2.2.2; exact ⟨blocks, 0, word⟩
    next => obtain ⟨blocks, tail, word⟩ := facts.2.2.2.2; exact ⟨blocks, tail, word⟩
    next => obtain ⟨blocks, tail, word⟩ := facts.2.2.2.2; exact ⟨blocks, tail + 1, word⟩
    next => obtain ⟨blocks, word⟩ := facts.2.2.2.2; exact ⟨blocks, 0, word⟩
  · unfold copyFacts at facts
    cases hc : s.copy <;> simp only [hc] at facts
    next => exact absurd facts.2.2 written
    next => exact absurd facts.2.2.2.2.2 written
    all_goals exact facts.1

theorem status_writes_interleave_after_break :
    ∃ s, PsyncReach [1] (fun _ => 0) 0 s ∧
      s.writes.map Prod.snd = ["waitfull", "full", "reopen", "incr", "incr"] ∧
      writtenBy .copy s.writes = reopenWord [0] 0 ∧
      writtenBy .sync s.writes <+: ["waitfull", "full", "incr"] := by
  obtain ⟨s, reach, final⟩ := PsyncReach.of_run [1] (fun _ => 0) 0
    [.waitfull, .handshake, .full, .iocopy 1, .fail, .reopen, .opened true, .loaded]
    (fun s => s.writes.map Prod.snd == ["waitfull", "full", "reopen", "incr", "incr"] &&
      writtenBy .copy s.writes == reopenWord [0] 0) (by decide)
  simp only [Bool.and_eq_true, beq_iff_eq] at final
  exact ⟨s, reach, final.1, final.2, (status_writes_interleave _ _ _ s reach).1⟩

/-! ### The reported target offset -/

section Offsets

variable {rdb : List UInt8} {S : Nat → UInt8} {o0 : Nat} {s s' : Psync}

theorem Psync.step_targetOffset {a : PsyncAct} (h : s.step rdb S o0 a = some s') :
    (a = .handshake ∧ s.sync = .handshake ∧ s'.copy ≠ .idle ∧ s'.targetOffset = o0) ∨
    (a = .fail ∧ s.copy = .reading ∧ s'.copy ≠ .idle ∧ s'.targetOffset = s.offset + s.nread) ∨
    (a ≠ .handshake ∧ a ≠ .fail ∧ s'.targetOffset = s.targetOffset ∧
      (s'.copy = .idle → s.copy = .idle)) := by
  cases a
  case handshake =>
    simp only [Psync.step, Option.ite_none_right_eq_some, Option.some.injEq] at h
    obtain ⟨⟨pc, -⟩, rfl⟩ := h
    exact .inl ⟨rfl, pc, nofun, rfl⟩
  case fail =>
    simp only [Psync.step, Option.ite_none_right_eq_some, Option.some.injEq] at h
    obtain ⟨pc, rfl⟩ := h
    exact .inr (.inl ⟨rfl, pc, nofun, rfl⟩)
  all_goals
    refine .inr (.inr ⟨nofun, nofun, ?_⟩)
    simp only [Psync.step] at h
    repeat' split at h
    all_goals cases h
    -- `copy` is kept, or set to a place of the running goroutine
    all_goals first | exact ⟨rfl, id⟩ | exact ⟨rfl, nofun⟩

theorem PsyncReach.targetOffset_unset (reach : PsyncReach rdb S o0 s) (idle : s.copy = .idle) :
    s.targetOffset = 0 := by
  induction reach with
  | init => rfl
  | step _ _ stepped ih =>
    rcases Psync.step_targetOffset stepped with ⟨-, -, running, -⟩ | ⟨-, -, running, -⟩ |
      ⟨-, -, same, stays⟩
    · exact absurd idle running
    · exact absurd idle running
    · exact same.trans (ih (stays idle))

theorem PsyncReach.targetOffset_le (reach : PsyncReach rdb S o0 s) :
    s.targetOffset ≤ o0 + (s.pipe.length - rdb.length) := by
  have facts := reach.inv.copying
  unfold copyFacts at facts
  split at facts
  next idle => rw [reach.targetOffset_unset idle]; omega
  all_goals omega

theorem PsyncReach.targetOffset_step {a : PsyncAct} (reach : PsyncReach rdb S o0 s)
    (h : s.step rdb S o0 a = some s') : s.targetOffset ≤ s'.targetOffset := by
  have inv := reach.inv
  rcases Psync.step_targetOffset h with ⟨-, pc, -, set⟩ | ⟨-, pc, -, set⟩ | ⟨-, -, same, -⟩
  · rw [reach.targetOffset_unset (inv.spawned.mpr (.inr pc)), set]; omega
  · have facts := inv.copying
    simp only [copyFacts, pc] at facts
    rw [set, facts.2.2.1]; omega
  · exact same.ge

theorem PsyncReach.run {s s' : Psync} {as : List PsyncAct} (reach : PsyncReach rdb S o0 s)
    (ran : s.run rdb S o0 as = some s') : PsyncReach rdb S o0 s' :=
  runSchedule_closed (PsyncReach rdb S o0) (fun _ => True)
    (fun reach _ stepped => .step _ reach stepped) reach (fun _ _ => trivial) ran

theorem PsyncReach.run_targetOffset : ∀ {s s' : Psync} {as : List PsyncAct},
    PsyncReach rdb S o0 s → s.run rdb S o0 as = some s' →
    s.targetOffset ≤ s'.targetOffset ∧ (s.copy ≠ .idle → .fail ∉ as → s'.targetOffset = s.targetOffset)
  | _, _, [], _, ran => by cases ran; simp
  | s, _, a :: as, reach, ran => by
    simp only [Psync.run, runSchedule_cons] at ran
    cases stepped : s.step rdb S o0 a with
    | none => simp [stepped] at ran
    | some s1 =>
      simp only [stepped, Option.bind_some] at ran
      obtain ⟨grows, stays⟩ := PsyncReach.run_targetOffset (.step a reach stepped) ran
      refine ⟨(reach.targetOffset_step stepped).trans grows, fun running unbroken => ?_⟩
      rw [List.mem_cons, not_or] at unbroken
      rcases Psync.step_targetOffset stepped with ⟨-, pc, -⟩ | ⟨fail, -⟩ | ⟨-, -, same, idle⟩
      · exact absurd (reach.inv.spawned.mpr (.inr pc)) running
      · exact absurd fail.symm unbroken.1
      · exact (stays (fun stopped => running (idle stopped)) unbroken.2).trans same

end Offsets

/-- The target offset that `GetExtraInfo` reports as `TargetDBOffset`, over any stretch of a
run: it never decreases, it is never ahead of `o0` plus the stream bytes copied into
`pipew`, and once the copy goroutine runs it moves only when the source connection breaks,
so that while a connection copies the stream it stays at the offset the connection began at. -/
theorem target_offset_moves_only_on_break (rdb : List UInt8) (S : Nat → UInt8) (o0 : Nat)
    (s : Psync) (reach : PsyncReach rdb S o0 s) (as : List PsyncAct) (s' : Psync)
    (ran : s.run rdb S o0 as = some s') :
    s.targetOffset ≤ s'.targetOffset ∧ s'.targetOffset ≤ o0 + (s'.pipe.length - rdb.length) ∧
    (s.copy ≠ .idle → .fail ∉ as → s'.targetOffset = s.targetOffset) :=
  have moved := reach.run_targetOffset ran
  ⟨moved.1, (reach.run ran).targetOffset_le, moved.2⟩

theorem target_offset_moves_only_on_break_on_one :
    ∃ s', Psync.init.run [1] (fun _ => 7) 100
        [.waitfull, .handshake, .full, .iocopy 1, .read 2, .count, .fail] = some s' ∧
      s'.targetOffset = 102 ∧ s'.targetOffset ≤ 100 + (s'.pipe.length - 1) :=
  ⟨_, rfl, rfl, (target_offset_moves_only_on_break [1] (fun _ => 7) 100 Psync.init .init
    [.waitfull, .handshake, .full, .iocopy 1, .read 2, .count, .fail] _ rfl).2.1⟩

/-! ### Waiting for the snapshot size -/

/-- What ends a wait of the `select` on the snapshot size: a size received from `wait`, or
`time.After(time.Second)`. -/
inductive SizeEvent where
  | size (n : Int)
  | second
deriving DecidableEq, Repr

/-- `sendSyncCmd`'s loop over the events it sees: the size it returns, once one is nonzero,
and the lines it logs before. -/
def sendSyncWait (id : Nat) : List SizeEvent → Option Int × List String
  | [] => (none, [])
  | .size n :: rest =>
    if n = 0 then
      let r := sendSyncWait id rest
      (r.1, s!"dbSyncer[{id}] +" :: r.2)
    else (some n, [])
  | .second :: rest =>
    let r := sendSyncWait id rest
    (r.1, s!"dbSyncer[{id}] -" :: r.2)

/-- `sendPSyncCmd`'s loop `for nsize == 0` over the events it sees, from the value `nsize`
holds. -/
def pSyncWait (id : Nat) : Int → List SizeEvent → Option Int × List String
  | nsize, [] => if nsize ≠ 0 then (some nsize, []) else (none, [])
  | nsize, e :: rest =>
    if nsize ≠ 0 then (some nsize, [])
    else
      match e with
      | .size n =>
        let r := pSyncWait id n rest
        (r.1, if n = 0 then s!"dbSyncer[{id}] +" :: r.2 else r.2)
      | .second =>
        let r := pSyncWait id nsize rest
        (r.1, s!"dbSyncer[{id}] -" :: r.2)

/-- The first nonzero size among the events. -/
def firstSize (events : List SizeEvent) : Option Int :=
  events.findSome? fun
    | .size n => if n ≠ 0 then some n else none
    | .second => none

theorem firstSize_ne_zero {events : List SizeEvent} {n : Int} (first : firstSize events = some n) :
    n ≠ 0 := by
  obtain ⟨e, -, hit⟩ := List.exists_of_findSome?_eq_some first
  cases e with
  | size m => by_cases zero : m = 0 <;> simp_all
  | second => cases hit

/-- The two paths of `sync` wait for the snapshot size alike: on every sequence of sizes from
`wait` and one-second timeouts, `sendPSyncCmd`'s loop, from `nsize` = 0, returns and logs
exactly what `sendSyncCmd`'s loop does, which is the first nonzero size, or nothing while
none has arrived; so the size `sync` passes to `syncRDBFile`, which divides its progress, is
never 0. -/
theorem sync_paths_wait_alike (id : Nat) (events : List SizeEvent) :
    pSyncWait id 0 events = sendSyncWait id events ∧
      (sendSyncWait id events).1 = firstSize events ∧
      ∀ n, (sendSyncWait id events).1 = some n → n ≠ 0 := by
  suffices same : pSyncWait id 0 events = sendSyncWait id events ∧
      (sendSyncWait id events).1 = firstSize events from
    ⟨same.1, same.2, fun n returned => firstSize_ne_zero (same.2 ▸ returned)⟩
  induction events with
  | nil => simp [pSyncWait, sendSyncWait, firstSize]
  | cons e rest ih =>
    cases e with
    | size n =>
      by_cases zero : n = 0
      · subst zero
        obtain ⟨same, first⟩ := ih
        exact ⟨by simp [pSyncWait, sendSyncWait, same],
          by simpa [sendSyncWait, firstSize, List.findSome?_cons] using first⟩
      · cases rest <;> simp [pSyncWait, sendSyncWait, firstSize, List.findSome?_cons, zero]
    | second =>
      obtain ⟨same, first⟩ := ih
      exact ⟨by simp [pSyncWait, sendSyncWait, same],
        by simpa [sendSyncWait, firstSize, List.findSome?_cons] using first⟩

example : sendSyncWait 0 [.size 0, .second, .size 5] = (some 5, ["dbSyncer[0] +", "dbSyncer[0] -"]) := by decide

end RedisShake.Run
