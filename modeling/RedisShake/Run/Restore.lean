import RedisShake.Run.Parser
import RedisShake.Schedule

set_option autoImplicit false

namespace RedisShake.Run

open Go

/-- A record of the snapshot as the restorers of `syncRDBFile` read it: its db and its key. -/
structure Entry where
  db : UInt32
  key : String
deriving DecidableEq, Repr

/-- A restorer goroutine of `syncRDBFile`: its `lastdb`, the db selected on its connection
`c`, and the record, with its index, it has received from `pipe` and not yet handled. -/
structure Restorer where
  lastdb : UInt32
  db : UInt32
  hand : Option (Nat × Entry)
deriving DecidableEq, Repr

def Restorer.init : Restorer := ⟨0, 0, none⟩

/-- The `SelectDB` calls of the loop body on a record of an accepted db. -/
def Restorer.selectFor (o : Configuration) (r : Restorer) (e : Entry) : Restorer :=
  if o.targetDB != -1 then
    if o.targetDB != (r.lastdb.toNat : Int) then
      { r with lastdb := toUint32 o.targetDB, db := toUint32 o.targetDB }
    else r
  else if e.db != r.lastdb then { r with lastdb := e.db, db := e.db }
  else r

/-- A filter loop of the body: one `RestoreRdbEntry` at the first entry that matches, then
`break`. -/
def firstMatch {α : Type} (hit : α → Bool) : List α → Nat
  | [] => 0
  | a :: rest => if hit a then 1 else firstMatch hit rest

/-- How many times the body calls `RestoreRdbEntry` on a record of an accepted db. -/
def restoreCalls (co : Collaborators) (o : Configuration) (e : Entry) : Nat :=
  if o.filterKey.length != 0 then firstMatch (fun f => hasPrefix e.key f) o.filterKey
  else if o.filterSlot.length > 0 then
    firstMatch (fun slot => ((co.keyToSlot e.key).toNat : Int) == (atoi slot).1) o.filterSlot
  else 1

/-- The restorer pool of `syncRDBFile`: the records still in `pipe`, each with its index, the
`Parallel` restorers, the counters, and every `RestoreRdbEntry` call with the index of its
record and the db selected on the calling restorer's connection. -/
structure Pool where
  pipe : List (Nat × Entry)
  restorers : List Restorer
  ignore : Nat
  nentry : Nat
  restored : List (Nat × UInt32)
deriving Repr

def Pool.init (o : Configuration) (records : List Entry) : Pool :=
  ⟨records.enum, List.replicate o.parallel .init, 0, 0, []⟩

inductive PoolAct where
  /-- restorer `w` receives the next record from `pipe` -/
  | take (w : Nat)
  /-- restorer `w` runs the loop body on the record it received -/
  | process (w : Nat)
deriving DecidableEq, Repr

def Pool.take (p : Pool) (w : Nat) : Option Pool :=
  match p.restorers[w]?, p.pipe with
  | some r, x :: rest =>
    if r.hand = none then
      some { p with pipe := rest, restorers := p.restorers.set w { r with hand := some x } }
    else none
  | _, _ => none

def Pool.process (co : Collaborators) (o : Configuration) (p : Pool) (w : Nat) : Option Pool :=
  match p.restorers[w]? with
  | some r =>
    match r.hand with
    | some (i, e) =>
      if co.acceptDB e.db then
        some { p with nentry := p.nentry + 1,
                      restorers := p.restorers.set w { r.selectFor o e with hand := none },
                      restored := p.restored ++
                        List.replicate (restoreCalls co o e) (i, (r.selectFor o e).db) }
      else
        some { p with ignore := p.ignore + 1,
                      restorers := p.restorers.set w { r with hand := none } }
    | none => none
  | none => none

def Pool.step (co : Collaborators) (o : Configuration) (p : Pool) : PoolAct → Option Pool
  | .take w => p.take w
  | .process w => p.process co o w

/-- `wg.Wait` returns: `pipe` is drained and every restorer has left its loop. -/
def Pool.Done (p : Pool) : Prop := p.pipe = [] ∧ ∀ r ∈ p.restorers, r.hand = none

instance : DecidablePred Pool.Done := fun p =>
  inferInstanceAs (Decidable (p.pipe = [] ∧ ∀ r ∈ p.restorers, r.hand = none))

/-- The pool states of every distribution of the records and every interleaving. -/
inductive PoolReach (co : Collaborators) (o : Configuration) (records : List Entry) :
    Pool → Prop where
  | init : PoolReach co o records (Pool.init o records)
  | step {p p' : Pool} (a : PoolAct) : PoolReach co o records p → p.step co o a = some p' →
      PoolReach co o records p'

def Pool.run (co : Collaborators) (o : Configuration) : Pool → List PoolAct → Option Pool :=
  runSchedule fun p a => p.step co o a

theorem PoolReach.run {co : Collaborators} {o : Configuration} {records : List Entry}
    {p p' : Pool} {as : List PoolAct} (reach : PoolReach co o records p)
    (ran : p.run co o as = some p') : PoolReach co o records p' :=
  runSchedule_closed (PoolReach co o records) (fun _ => True)
    (fun reach _ stepped => .step _ reach stepped) reach (fun _ _ => trivial) ran

theorem PoolReach.of_run (co : Collaborators) (o : Configuration) (records : List Entry)
    (as : List PoolAct) (q : Pool → Bool)
    (ran : ((Pool.init o records).run co o as).map q = some true) :
    ∃ p, PoolReach co o records p ∧ q p = true :=
  exists_of_runSchedule (PoolReach co o records) (fun _ => True)
    (fun reach _ stepped => .step _ reach stepped) q .init (fun _ _ => trivial) ran

/-! ### What one restorer does with one record -/

/-- Whether the body restores a record: its db is accepted and a filter loop calls
`RestoreRdbEntry`. -/
def wanted (co : Collaborators) (o : Configuration) (e : Entry) : Bool :=
  co.acceptDB e.db && restoreCalls co o e == 1

/-- The db a restore runs in: `uint32(target.db)` under an override, the record's own db
otherwise. -/
def restoreDb (o : Configuration) (e : Entry) : UInt32 :=
  if o.targetDB ≠ -1 then toUint32 o.targetDB else e.db

theorem firstMatch_eq {α : Type} (hit : α → Bool) (l : List α) :
    firstMatch hit l = if l.any hit then 1 else 0 := by
  induction l with
  | nil => rfl
  | cons a rest ih => by_cases h : hit a <;> simp [firstMatch, h, ih]

theorem restoreCalls_le_one (co : Collaborators) (o : Configuration) (e : Entry) :
    restoreCalls co o e ≤ 1 := by
  unfold restoreCalls
  split
  next => rw [firstMatch_eq]; split <;> omega
  split
  next => rw [firstMatch_eq]; split <;> omega
  next => exact le_refl 1

theorem toUint32_toNat (d : UInt32) : toUint32 (d.toNat : Int) = d := by
  have bound : d.toNat < 2 ^ 32 := d.toBitVec.isLt
  have fits : (d.toNat : Int) % 2 ^ 32 = d.toNat := Int.emod_eq_of_lt (by omega) (by omega)
  simp only [toUint32, fits, Int.toNat_ofNat]
  cases d; simp [UInt32.ofNat, UInt32.toNat]

theorem Restorer.selectFor_db (o : Configuration) (r : Restorer) (e : Entry)
    (selected : r.db = r.lastdb) :
    (r.selectFor o e).db = restoreDb o e ∧ (r.selectFor o e).db = (r.selectFor o e).lastdb := by
  unfold Restorer.selectFor restoreDb
  by_cases override : o.targetDB = -1
  next =>
    by_cases same : e.db = r.lastdb <;> simp [override, same, selected]
  next =>
    by_cases moved : o.targetDB = (r.lastdb.toNat : Int)
    next => simp [override, moved, selected, toUint32_toNat]
    next => simp [override, moved]

/-! ### What each step can do -/

/-- The records received and not yet handled: those in `pipe`, then those the restorers
hold. -/
def Pool.inFlight (p : Pool) : List (Nat × Entry) := p.pipe ++ p.restorers.filterMap Restorer.hand

theorem filterMap_set_perm {α β : Type} (f : α → Option β) :
    ∀ (l : List α) (w : Nat) (a b : α), l[w]? = some a →
      ((l.set w b).filterMap f ++ (f a).toList).Perm (l.filterMap f ++ (f b).toList)
  | [], _, _, _, h => by simp at h
  | x :: l, 0, a, b, h => by
    simp only [List.getElem?_cons_zero, Option.some.injEq] at h
    subst h
    cases fx : f x <;> cases fb : f b <;>
      simp only [List.set_cons_zero, List.filterMap_cons, fx, fb, Option.toList_none,
        Option.toList_some, List.append_nil, List.cons_append]
    next => exact List.Perm.refl _
    next vb => exact (List.perm_append_singleton vb _).symm
    next vx => exact List.perm_append_singleton vx _
    next vx vb =>
      calc (vb :: (l.filterMap f ++ [vx])).Perm (vb :: vx :: l.filterMap f) :=
            (List.perm_append_singleton vx _).cons vb
        List.Perm _ (vx :: vb :: l.filterMap f) := List.Perm.swap vx vb _
        List.Perm _ (vx :: (l.filterMap f ++ [vb])) :=
          ((List.perm_append_singleton vb _).symm).cons vx
  | x :: l, w + 1, a, b, h => by
    have ih := filterMap_set_perm f l w a b (by simpa using h)
    cases fx : f x <;> simp [List.filterMap_cons, fx, ih]

theorem Pool.take_some {p p' : Pool} {w : Nat} (h : p.take w = some p') :
    p'.inFlight.Perm p.inFlight ∧ p'.restored = p.restored ∧
      (∀ r ∈ p'.restorers, ∃ x ∈ p.restorers, r.db = x.db ∧ r.lastdb = x.lastdb) ∧
      p'.restorers.length = p.restorers.length ∧ p'.ignore = p.ignore ∧ p'.nentry = p.nentry := by
  unfold Pool.take at h
  split at h
  next r x rest held hpipe =>
    split at h
    next idle =>
      cases h
      have moved := filterMap_set_perm Restorer.hand p.restorers w r { r with hand := some x } held
      simp only [idle, Option.toList_none, List.append_nil, Option.toList_some] at moved
      refine ⟨?_, rfl, fun r' member => ?_, List.length_set _ _ _, rfl, rfl⟩
      · simp only [Pool.inFlight, hpipe]
        exact (moved.append_left rest).trans
          (by rw [← List.append_assoc]; exact List.perm_append_singleton x _)
      · rcases List.mem_or_eq_of_mem_set member with kept | rfl
        · exact ⟨r', kept, rfl, rfl⟩
        · exact ⟨r, List.getElem?_mem held, rfl, rfl⟩
    next => cases h
  next => cases h

theorem Pool.process_some {co : Collaborators} {o : Configuration} {p p' : Pool} {w : Nat}
    (h : p.process co o w = some p') (selected : ∀ r ∈ p.restorers, r.db = r.lastdb) :
    ∃ i e, (p'.inFlight ++ [(i, e)]).Perm p.inFlight ∧
      p'.restored = p.restored ++ (if wanted co o e then [(i, restoreDb o e)] else []) ∧
      (∀ r ∈ p'.restorers, r.db = r.lastdb) ∧ p'.restorers.length = p.restorers.length ∧
      p'.pipe = p.pipe ∧
      if co.acceptDB e.db then p'.ignore = p.ignore ∧ p'.nentry = p.nentry + 1
      else p'.ignore = p.ignore + 1 ∧ p'.nentry = p.nentry := by
  unfold Pool.process at h
  split at h
  next r held =>
    split at h
    next i e hand =>
      -- the restorer drops the record it held and keeps its connection's db in `lastdb`
      have moved (r' : Restorer) (idle : r'.hand = none) :
          ((p.pipe ++ (p.restorers.set w r').filterMap Restorer.hand) ++ [(i, e)]).Perm
            p.inFlight := by
        have := filterMap_set_perm Restorer.hand p.restorers w r r' held
        simp only [hand, idle, Option.toList_some, Option.toList_none, List.append_nil] at this
        simp only [Pool.inFlight, List.append_assoc]
        exact this.append_left p.pipe
      have kept (r' : Restorer) (same : r'.db = r'.lastdb) :
          ∀ x ∈ p.restorers.set w r', x.db = x.lastdb := fun x member =>
        (List.mem_or_eq_of_mem_set member).elim (selected x) (fun was => was ▸ same)
      split at h
      next accepted =>
        cases h
        obtain ⟨db, same⟩ := r.selectFor_db o e (selected r (List.getElem?_mem held))
        refine ⟨i, e, moved _ rfl, ?_, kept _ same, List.length_set _ _ _, rfl, by simp [accepted]⟩
        rcases Nat.le_one_iff_eq_zero_or_eq_one.mp (restoreCalls_le_one co o e) with zero | one
        · simp [wanted, zero]
        · simp [wanted, accepted, one, db]
      next refused =>
        cases h
        exact ⟨i, e, moved _ rfl, by simp [wanted, refused], kept _ (selected r
          (List.getElem?_mem held)), List.length_set _ _ _, rfl, by simp [refused]⟩
    next => cases h
  next => cases h

theorem nodup_of_settled {l l' r r' : List Nat} {i : Nat} (perm : (l' ++ [i]).Perm l)
    (grown : r' = r ∨ r' = r ++ [i]) (nodup : (l ++ r).Nodup) : (l' ++ r').Nodup := by
  have whole : (l' ++ [i] ++ r).Nodup := (perm.append_right r).nodup_iff.mpr nodup
  rcases grown with same | same <;> rw [same]
  · exact whole.sublist ((List.sublist_append_left l' [i]).append_right r)
  · rw [List.append_assoc] at whole
    exact ((List.perm_append_comm.append_left l').nodup_iff.mpr whole)

/-! ### The pool over a whole run -/

/-- What every reachable pool satisfies: the records in flight are the snapshot's and each
index is in flight or restored at most once; a restored record is one the body restores, in
the db `restoreDb` names; a record the body restores is in flight or restored; and every
restorer's connection is in its `lastdb`. -/
structure PoolInv (co : Collaborators) (o : Configuration) (records : List Entry) (p : Pool) :
    Prop where
  genuine : ∀ x ∈ p.inFlight, records[x.1]? = some x.2
  distinct : (p.inFlight.map Prod.fst ++ p.restored.map Prod.fst).Nodup
  restoredWanted : ∀ x ∈ p.restored, ∃ e, records[x.1]? = some e ∧ wanted co o e = true ∧
    x.2 = restoreDb o e
  accounted : ∀ i e, records[i]? = some e → wanted co o e = true →
    i ∈ p.inFlight.map Prod.fst ∨ i ∈ p.restored.map Prod.fst
  selected : ∀ r ∈ p.restorers, r.db = r.lastdb
  sized : p.restorers.length = o.parallel

variable {co : Collaborators} {o : Configuration} {records : List Entry}

theorem Pool.init_inFlight : (Pool.init o records).inFlight = records.enum := by
  simp [Pool.inFlight, Pool.init, Restorer.init]

theorem poolInv_init : PoolInv co o records (Pool.init o records) where
  genuine := fun ⟨_, _⟩ member => List.mk_mem_enum_iff_getElem?.mp (Pool.init_inFlight ▸ member)
  distinct := by
    rw [Pool.init_inFlight, List.enum_map_fst]; simpa [Pool.init] using List.nodup_range _
  restoredWanted := fun _ member => by simp [Pool.init] at member
  accounted := fun i _ found _ => .inl (by
    rw [Pool.init_inFlight, List.enum_map_fst]
    exact List.mem_range.mpr (List.getElem?_eq_some_iff.mp found).1)
  selected := fun r member => by
    simp only [Pool.init, List.eq_of_mem_replicate member]; rfl
  sized := List.length_replicate _ _

theorem poolInv_take {p p' : Pool} {w : Nat} (inv : PoolInv co o records p)
    (h : p.take w = some p') : PoolInv co o records p' := by
  obtain ⟨moved, same, kept, sized, -⟩ := Pool.take_some h
  have ids := moved.map Prod.fst
  exact {
    genuine := fun x member => inv.genuine x (moved.subset member)
    distinct := by rw [same]; exact (ids.append_right _).nodup_iff.mpr inv.distinct
    restoredWanted := same ▸ inv.restoredWanted
    accounted := fun i e found want => by
      rw [same, ids.mem_iff]; exact inv.accounted i e found want
    selected := fun r member => by
      obtain ⟨x, was, db, lastdb⟩ := kept r member
      rw [db, lastdb]; exact inv.selected x was
    sized := sized.trans inv.sized }

theorem poolInv_process {p p' : Pool} {w : Nat} (inv : PoolInv co o records p)
    (h : p.process co o w = some p') : PoolInv co o records p' := by
  obtain ⟨i, e, moved, grown, selected, sized, -⟩ := Pool.process_some h inv.selected
  have ids := moved.map Prod.fst
  simp only [List.map_append, List.map_cons, List.map_nil] at ids
  have found : records[i]? = some e := inv.genuine (i, e) (moved.subset (by simp))
  exact {
    genuine := fun x member => inv.genuine x (moved.subset (List.mem_append_left _ member))
    distinct := nodup_of_settled ids (by rw [grown]; split <;> simp) inv.distinct
    restoredWanted := fun x member => by
      rw [grown, List.mem_append] at member
      rcases member with old | fresh
      · exact inv.restoredWanted x old
      · split at fresh
        next want =>
          simp only [List.mem_singleton] at fresh
          exact ⟨e, fresh ▸ found, want, by rw [fresh]⟩
        next => simp at fresh
    accounted := fun j e' found' want => by
      rw [grown]
      rcases inv.accounted j e' found' want with flight | done
      · rw [← ids.mem_iff, List.mem_append, List.mem_singleton] at flight
        rcases flight with flight | rfl
        · exact .inl flight
        · have : e' = e := Option.some.inj (found'.symm.trans found)
          subst this
          exact .inr (by simp [want])
      · exact .inr (by simp [done])
    selected := selected
    sized := sized.trans inv.sized }

theorem PoolReach.inv {p : Pool} (reach : PoolReach co o records p) : PoolInv co o records p := by
  induction reach with
  | init => exact poolInv_init
  | step a _ stepped ih =>
    cases a with
    | take w => exact poolInv_take ih stepped
    | process w => exact poolInv_process ih stepped

/-! ### Finishing -/

theorem Pool.Done.inFlight_nil {p : Pool} (done : p.Done) : p.inFlight = [] := by
  simp [Pool.inFlight, done.1, List.filterMap_eq_nil_iff.mpr done.2]

theorem wanted_iff (co : Collaborators) (o : Configuration) (e : Entry) :
    wanted co o e = true ↔ co.acceptDB e.db = true ∧
      ((o.filterKey ≠ [] ∧ ∃ f ∈ o.filterKey, f.toList <+: e.key.toList) ∨
       (o.filterKey = [] ∧ o.filterSlot ≠ [] ∧
         ∃ slot ∈ o.filterSlot, ((co.keyToSlot e.key).toNat : Int) = (atoi slot).1) ∨
       (o.filterKey = [] ∧ o.filterSlot = [])) := by
  unfold wanted restoreCalls
  by_cases keys : o.filterKey = []
  next =>
    by_cases slots : o.filterSlot = []
    next => simp [keys, slots]
    next =>
      have nonempty : 0 < o.filterSlot.length := List.length_pos.mpr slots
      simp [keys, slots, nonempty, firstMatch_eq]
  next =>
    have nonempty : o.filterKey.length ≠ 0 := fun zero => keys (List.length_eq_zero.mp zero)
    simp [keys, nonempty, firstMatch_eq, hasPrefix_iff]

theorem PoolReach.restored_iff {p : Pool} (reach : PoolReach co o records p) (done : p.Done)
    (i : Nat) : i ∈ p.restored.map Prod.fst ↔ ∃ e, records[i]? = some e ∧ wanted co o e = true := by
  have inv := reach.inv
  constructor
  next =>
    intro member
    obtain ⟨⟨j, d⟩, restored, rfl⟩ := List.mem_map.mp member
    obtain ⟨e, found, want, -⟩ := inv.restoredWanted _ restored
    exact ⟨e, found, want⟩
  next =>
    rintro ⟨e, found, want⟩
    have flight := inv.accounted i e found want
    rwa [done.inFlight_nil, List.map_nil, List.mem_nil_iff, false_or] at flight

theorem PoolReach.counts {p : Pool} (reach : PoolReach co o records p) :
    p.ignore + p.inFlight.countP (fun x => !co.acceptDB x.2.db) =
        records.countP (fun e => !co.acceptDB e.db) ∧
      p.nentry + p.inFlight.countP (fun x => co.acceptDB x.2.db) =
        records.countP (fun e => co.acceptDB e.db) ∧
      p.restored.length + p.inFlight.countP (fun x => wanted co o x.2) =
        records.countP (wanted co o) := by
  induction reach with
  | init =>
    have enum (f : Entry → Bool) : records.enum.countP (fun x => f x.2) = records.countP f := by
      conv_rhs => rw [← List.enum_map_snd records]
      rw [List.countP_map]; rfl
    rw [Pool.init_inFlight, enum (fun e => !co.acceptDB e.db), enum (fun e => co.acceptDB e.db),
      enum (wanted co o)]
    simp [Pool.init]
  | step a reach stepped ih =>
    obtain ⟨ignored, entered, restored⟩ := ih
    cases a with
    | take w =>
      obtain ⟨moved, same, -, -, ignore, nentry⟩ := Pool.take_some stepped
      simp only [ignore, nentry, same, moved.countP_eq]
      exact ⟨ignored, entered, restored⟩
    | process w =>
      obtain ⟨i, e, moved, grown, -, -, -, counters⟩ := Pool.process_some stepped reach.inv.selected
      simp only [← moved.countP_eq, List.countP_append, List.countP_singleton, grown,
        List.length_append] at ignored entered restored ⊢
      by_cases accepted : co.acceptDB e.db = true
      next =>
        simp only [accepted, if_true] at counters
        by_cases want : wanted co o e = true <;>
          simp [accepted, want] at ignored entered restored ⊢ <;> omega
      next =>
        have unwanted : wanted co o e = false := by simp [wanted, accepted]
        simp only [accepted, if_false, Bool.false_eq_true] at counters
        simp [accepted, unwanted] at ignored entered restored ⊢; omega

/-- When `syncRDBFile`'s restorers have all returned, `ignore` is the number of records of
refused dbs and `nentry` the number of records of accepted dbs, so the two add up to the
records consumed; the restores are the records the body restores. -/
theorem snapshot_counters_at_return (co : Collaborators) (o : Configuration)
    (records : List Entry) (p : Pool) (reach : PoolReach co o records p) (done : p.Done) :
    p.ignore = records.countP (fun e => !co.acceptDB e.db) ∧
      p.nentry = records.countP (fun e => co.acceptDB e.db) ∧
      p.ignore + p.nentry = records.length ∧
      p.restored.length = records.countP (wanted co o) := by
  obtain ⟨ignored, entered, restored⟩ := reach.counts
  simp only [done.inFlight_nil, List.countP_nil, Nat.add_zero] at ignored entered restored
  refine ⟨ignored, entered, ?_, restored⟩
  rw [ignored, entered, List.length_eq_countP_add_countP (fun e => co.acceptDB e.db) records]
  simp [Nat.add_comm]

theorem snapshot_counters_at_return_on_two :
    ∃ p, PoolReach .permissive { Configuration.plain with filterKey := ["a"] }
        [⟨0, "a"⟩, ⟨0, "b"⟩] p ∧ p.Done ∧ p.ignore + p.nentry = 2 ∧ p.restored.length = 1 := by
  obtain ⟨p, reach, final⟩ := PoolReach.of_run .permissive
    { Configuration.plain with filterKey := ["a"] } [⟨0, "a"⟩, ⟨0, "b"⟩]
    [.take 0, .process 0, .take 0, .process 0] (fun p => decide p.Done) (by decide)
  have done := of_decide_eq_true final
  obtain ⟨-, -, total, restored⟩ := snapshot_counters_at_return .permissive
    { Configuration.plain with filterKey := ["a"] } [⟨0, "a"⟩, ⟨0, "b"⟩] p reach done
  exact ⟨p, reach, done, total, restored.trans (by decide)⟩

/-- With `filter.key` = `a`, the record `b` of db 0 is counted in `nentry` but not restored:
`nentry` is incremented before the filter loops run. -/
theorem filtered_record_counts_as_entry :
    ∃ p, PoolReach .permissive { Configuration.plain with filterKey := ["a"] } [⟨0, "b"⟩] p ∧
      p.Done ∧ p.nentry = 1 ∧ p.ignore = 0 ∧ p.restored = [] := by
  obtain ⟨p, reach, final⟩ := PoolReach.of_run .permissive
    { Configuration.plain with filterKey := ["a"] } [⟨0, "b"⟩] [.take 0, .process 0]
    (fun p => decide p.Done && p.nentry == 1 && p.ignore == 0 && p.restored.isEmpty) (by decide)
  simp only [Bool.and_eq_true, decide_eq_true_eq, beq_iff_eq, List.isEmpty_iff] at final
  obtain ⟨⟨⟨done, entered⟩, ignored⟩, restored⟩ := final
  exact ⟨p, reach, done, entered, ignored, restored⟩

end RedisShake.Run
