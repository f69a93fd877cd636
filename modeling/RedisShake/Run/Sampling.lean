import RedisShake.Run.Pipeline

set_option autoImplicit false

namespace RedisShake.Run

/-! ### `addDelayChan`'s sampling rate -/

/-- The period of `addDelayChan`'s sampling for `free` slots left in `delayChannel`: every
id, every tenth, every hundredth or every thousandth. -/
def samplingModulus (free : Nat) : Nat :=
  if 4096 ≤ free then 1 else if 1024 ≤ free then 10 else if 128 ≤ free then 100 else 1000

theorem sampled_iff_dvd (free id : Nat) : sampled free id = true ↔ samplingModulus free ∣ id := by
  unfold sampled samplingModulus
  split_ifs <;> simp [Nat.dvd_iff_mod_eq_zero, *] <;> omega

/-- The steps of a schedule replayed from a state: each state, the action, and the state after
it, up to the first action that cannot run. -/
def Stream.trace (co : Collaborators) (o : Configuration) (id : Nat) :
    Stream → List Act → List (Stream × Act × Stream)
  | _, [] => []
  | s, a :: as =>
    match s.step co o id a with
    | some s' => (s, a, s') :: s'.trace co o id as
    | none => []

/-- The delay nodes the `enqueue` steps of a trace put into `delayChannel`, in order. -/
def enqueuedNodes : List (Stream × Act × Stream) → List Nat
  | [] => []
  | (s, a, s') :: rest =>
    (if a = .enqueue then s'.delayChannel.drop s.delayChannel.length else []) ++
      enqueuedNodes rest

/-! The sender's steps, as far as `sendId` and the pending sample go. -/

section Steps

variable {co : Collaborators} {o : Configuration} {id : Nat} {s s' : Stream} {a : Act}

theorem Stream.step_sendId (h : s.step co o id a = some s') :
    s'.sendId = s.sendId + if a = .count then 1 else 0 := by
  obtain ⟨-, h⟩ := Stream.step_some h
  cases a with
  | parse =>
    obtain ⟨-, c, rest, -, (⟨e, -, rfl⟩ | ⟨st, v, -, rfl⟩)⟩ := Stream.parse_some h
    · rfl
    · cases v <;> rfl
  | push => obtain ⟨x, -, -, rfl⟩ := Stream.push_some h; rfl
  | take => obtain ⟨x, rest, -, -, rfl⟩ := Stream.take_some h; rfl
  | send ok => obtain ⟨x, -, rfl⟩ := Stream.send_some h; cases ok <;> rfl
  | count => obtain ⟨-, rfl⟩ := Stream.count_some h; rfl
  | enqueue => obtain ⟨n, -, rfl⟩ := Stream.enqueue_some h; rfl
  | flush ok =>
    obtain ⟨-, rfl⟩ := Stream.flush_some h
    rw [if_neg (show Act.flush ok ≠ .count by simp), Nat.add_zero]
    split <;> (try split) <;> rfl
  | transmit => obtain ⟨-, rfl⟩ := Stream.transmit_some h; rfl
  | receive r =>
    obtain ⟨_, _, _, _, _, _, _, _, rfl⟩ := Stream.receiver_frame (.inr ⟨r, rfl⟩) h; rfl
  | settle => obtain ⟨_, _, _, _, _, _, _, _, rfl⟩ := Stream.receiver_frame (.inl rfl) h; rfl

theorem Stream.step_pending (h : s.step co o id a = some s') {n : Nat}
    (pending : s'.sender = .enqueue n) :
    (a = .count ∧ n = s'.sendId ∧
      sampled (o.senderDelayChannelSize - s.delayChannel.length) n = true) ∨
    (a ≠ .count ∧ s.sender = .enqueue n) := by
  obtain ⟨-, h⟩ := Stream.step_some h
  cases a with
  | parse =>
    obtain ⟨-, c, rest, -, (⟨e, -, rfl⟩ | ⟨st, v, -, rfl⟩)⟩ := Stream.parse_some h
    · exact .inr ⟨by simp, pending⟩
    · cases v <;> exact .inr ⟨by simp, pending⟩
  | push => obtain ⟨x, -, -, rfl⟩ := Stream.push_some h; exact .inr ⟨by simp, pending⟩
  | take => obtain ⟨x, rest, -, -, rfl⟩ := Stream.take_some h; cases pending
  | send ok =>
    obtain ⟨x, pc, rfl⟩ := Stream.send_some h
    cases ok
    · rw [pc] at pending; cases pending
    · cases pending
  | count =>
    obtain ⟨-, rfl⟩ := Stream.count_some h
    simp only at pending
    split at pending
    next drawn =>
      cases pending
      exact .inl ⟨rfl, rfl, by simp only [Bool.and_eq_true] at drawn; exact drawn.2⟩
    next => cases pending
  | enqueue => obtain ⟨n, -, rfl⟩ := Stream.enqueue_some h; cases pending
  | flush ok =>
    obtain ⟨pc, rfl⟩ := Stream.flush_some h
    split at pending
    · split at pending
      · cases pending
      · rw [pc] at pending; cases pending
    · cases pending
  | transmit => obtain ⟨-, rfl⟩ := Stream.transmit_some h; exact .inr ⟨by simp, pending⟩
  | receive r =>
    obtain ⟨_, _, _, _, _, _, _, _, rfl⟩ := Stream.receiver_frame (.inr ⟨r, rfl⟩) h
    exact .inr ⟨by simp, pending⟩
  | settle =>
    obtain ⟨_, _, _, _, _, _, _, _, rfl⟩ := Stream.receiver_frame (.inl rfl) h
    exact .inr ⟨by simp, pending⟩

theorem Stream.step_enqueued (h : s.step co o id .enqueue = some s') :
    ∃ n, s.sender = .enqueue n ∧ s'.sender = .flush ∧
      (s'.delayChannel.drop s.delayChannel.length).Sublist [n] := by
  obtain ⟨-, h⟩ := Stream.step_some h
  obtain ⟨n, pending, rfl⟩ := Stream.enqueue_some h
  refine ⟨n, pending, rfl, ?_⟩
  split <;> simp

theorem Reach.pending_sendId {input : List CmdDetail} {allowed : Act → Prop}
    (reach : Reach co o id input allowed s) {n : Nat} (pending : s.sender = .enqueue n) :
    n = s.sendId := by
  induction reach generalizing n with
  | init => cases pending
  | step a _ _ stepped ih =>
    rcases Stream.step_pending stepped pending with ⟨-, same, -⟩ | ⟨other, before⟩
    · exact same
    · rw [Stream.step_sendId stepped, if_neg other, Nat.add_zero]; exact ih before

theorem Stream.step_queued {input : List CmdDetail} {allowed : Act → Prop}
    (reach : Reach co o id input allowed s) (h : s.step co o id a = some s') :
    (if a = .enqueue then s'.delayChannel.drop s.delayChannel.length else []).Pairwise (· < ·) ∧
      ∀ y ∈ (if a = .enqueue then s'.delayChannel.drop s.delayChannel.length else []),
        y = s.sendId ∧ s.sender = .enqueue y ∧ s'.sendId = s.sendId ∧ s'.sender = .flush := by
  split
  next enq =>
    subst enq
    obtain ⟨n, pending, flushing, sub⟩ := Stream.step_enqueued h
    refine ⟨(List.pairwise_singleton _ n).sublist sub, fun y member => ?_⟩
    obtain rfl := List.mem_singleton.mp (sub.subset member)
    exact ⟨reach.pending_sendId pending, pending, by simpa using Stream.step_sendId h, flushing⟩
  next => exact ⟨.nil, fun _ member => by cases member⟩

end Steps

theorem length_mul_le_of_multiples {m hi : Nat} :
    ∀ (l : List Nat) (lo : Nat), l.Pairwise (· < ·) → (∀ y ∈ l, lo < y ∧ y ≤ hi ∧ m ∣ y) →
      l.length * m ≤ hi - lo + m - 1
  | [], _, _, _ => by simp
  | x :: rest, lo, sorted, bounded => by
    obtain ⟨above, below, dvd⟩ := bounded x (List.mem_cons_self _ _)
    have positive : 0 < m := Nat.pos_of_ne_zero fun zero => by
      subst zero; simp at dvd; omega
    obtain ⟨after, sorted⟩ := List.pairwise_cons.mp sorted
    -- every later multiple is at least `x + m`
    have spaced : ∀ y ∈ rest, x + m - 1 < y ∧ y ≤ hi ∧ m ∣ y := fun y member => by
      obtain ⟨-, ymax, ydvd⟩ := bounded y (List.mem_cons_of_mem _ member)
      have gap := Nat.le_of_dvd (by have := after y member; omega) (Nat.dvd_sub' ydvd dvd)
      have := after y member
      exact ⟨by omega, ymax, ydvd⟩
    have ih := length_mul_le_of_multiples rest (x + m - 1) sorted spaced
    rw [List.length_cons, Nat.succ_mul]
    cases rest with
    | nil => simp only [List.length_nil, Nat.zero_mul, Nat.zero_add]; omega
    | cons y ys =>
      have := spaced y (List.mem_cons_self _ _)
      generalize (y :: ys).length * m = r at ih ⊢
      omega

theorem enqueuedNodes_window {co : Collaborators} {o : Configuration} {id : Nat}
    {input : List CmdDetail} (m : Nat) :
    ∀ (as : List Act) (s s' : Stream), Reachable co o id input s → s.run co o id as = some s' →
      (∀ x ∈ s.trace co o id as, x.2.1 = .count →
        samplingModulus (o.senderDelayChannelSize - x.1.delayChannel.length) = m) →
      s.sendId ≤ s'.sendId ∧ (enqueuedNodes (s.trace co o id as)).Pairwise (· < ·) ∧
        ∀ y ∈ enqueuedNodes (s.trace co o id as), y ≤ s'.sendId ∧
          (s.sendId < y ∧ m ∣ y ∨ s.sender = .enqueue y)
  | [], s, s', _, ran, _ => by
    cases ran
    simp [Stream.trace, enqueuedNodes]
  | a :: as, s, s', reach, ran, band => by
    simp only [Stream.run, runSchedule_cons] at ran
    cases stepped : s.step co o id a with
    | none => simp [stepped] at ran
    | some s1 =>
      simp only [stepped, Option.bind_some] at ran
      have trace : s.trace co o id (a :: as) = (s, a, s1) :: s1.trace co o id as := by
        simp [Stream.trace, stepped]
      rw [trace] at band ⊢
      obtain ⟨grows, sorted, later⟩ := enqueuedNodes_window m as s1 s'
        (.step a reach trivial stepped) ran fun x member => band x (List.mem_cons_of_mem _ member)
      obtain ⟨single, queued⟩ := Stream.step_queued reach stepped
      have moved := Stream.step_sendId stepped
      simp only [enqueuedNodes]
      refine ⟨by omega, List.pairwise_append.mpr ⟨single, sorted, fun x xin y yin => ?_⟩,
        fun y member => ?_⟩
      · obtain ⟨rfl, -, same, flushing⟩ := queued x xin
        rcases (later y yin).2 with ⟨beyond, -⟩ | pending
        · omega
        · rw [flushing] at pending; cases pending
      · rcases List.mem_append.mp member with mine | theirs
        · obtain ⟨rfl, pending, same, -⟩ := queued y mine
          exact ⟨by omega, .inr pending⟩
        · obtain ⟨bound, ⟨beyond, dvd⟩ | pending⟩ := later y theirs
          · exact ⟨bound, .inl ⟨by omega, dvd⟩⟩
          · refine ⟨bound, ?_⟩
            rcases Stream.step_pending stepped pending with ⟨counted, rfl, drawn⟩ | ⟨-, before⟩
            · -- drawn by this `count` step, against a free room of modulus `m`
              have modulus := band _ (List.mem_cons_self _ _) counted
              rw [sampled_iff_dvd, modulus] at drawn
              subst counted
              exact .inl ⟨by simp at moved; omega, drawn⟩
            · exact .inr before

/-- `addDelayChan` samples an id exactly when `samplingModulus` of the free room divides it;
and over any run from a reachable state, in any interleaving, whose samplings all see a free
room in the band of modulus `m`, the delay nodes queued for the `k` sends of the run are at
most `⌈k / m⌉`. -/
theorem delay_sampling_rate (co : Collaborators) (o : Configuration) (id : Nat)
    (input : List CmdDetail) :
    (∀ free n, sampled free n = true ↔ samplingModulus free ∣ n) ∧
    ∀ (s : Stream) (as : List Act) (s' : Stream) (m : Nat), Reachable co o id input s →
      s.run co o id as = some s' →
      (∀ x ∈ s.trace co o id as, x.2.1 = .count →
        samplingModulus (o.senderDelayChannelSize - x.1.delayChannel.length) = m) →
      ((enqueuedNodes (s.trace co o id as)).filter (s.sendId < ·)).length ≤
        (s'.sendId - s.sendId + m - 1) / m := by
  refine ⟨sampled_iff_dvd, fun s as s' m reach ran band => ?_⟩
  obtain ⟨-, sorted, bounded⟩ := enqueuedNodes_window m as s s' reach ran band
  -- the ids queued for this run's sends: multiples of `m` above the starting `sendId`
  have window : ∀ y ∈ (enqueuedNodes (s.trace co o id as)).filter (s.sendId < ·),
      s.sendId < y ∧ y ≤ s'.sendId ∧ m ∣ y := fun y member => by
    obtain ⟨member, above⟩ := List.mem_filter.mp member
    have above : s.sendId < y := by simpa using above
    obtain ⟨bound, ⟨-, dvd⟩ | pending⟩ := bounded y member
    · exact ⟨above, bound, dvd⟩
    · have := reach.pending_sendId pending; omega
  have counted := length_mul_le_of_multiples _ s.sendId
    (sorted.sublist (List.filter_sublist _)) window
  rcases Nat.eq_zero_or_pos m with zero | positive
  · subst zero
    cases filtered : (enqueuedNodes (s.trace co o id as)).filter (s.sendId < ·) with
    | nil => simp
    | cons y ys =>
      obtain ⟨above, -, dvd⟩ := window y (by simp [filtered])
      simp at dvd; omega
  · exact (Nat.le_div_iff_mul_le positive).mpr counted

theorem delay_sampling_rate_on_one :
    ∃ s', (Stream.init [⟨"set", ["a", "1"]⟩]).run .permissive
        { Configuration.plain with metric := true } 0
        [.parse, .push, .take, .send true, .count, .enqueue, .flush true] = some s' ∧
      enqueuedNodes ((Stream.init [⟨"set", ["a", "1"]⟩]).trace .permissive
        { Configuration.plain with metric := true } 0
        [.parse, .push, .take, .send true, .count, .enqueue, .flush true]) = [1] ∧
      ((enqueuedNodes ((Stream.init [⟨"set", ["a", "1"]⟩]).trace .permissive
        { Configuration.plain with metric := true } 0
        [.parse, .push, .take, .send true, .count, .enqueue, .flush true])).filter (0 < ·)).length ≤
        (s'.sendId - 0 + 1 - 1) / 1 := by
  have ran : ((Stream.init [⟨"set", ["a", "1"]⟩]).run .permissive
      { Configuration.plain with metric := true } 0
      [.parse, .push, .take, .send true, .count, .enqueue, .flush true]).isSome = true := by decide
  obtain ⟨s', ran⟩ := Option.isSome_iff_exists.mp ran
  exact ⟨s', ran, by decide, (delay_sampling_rate .permissive
    { Configuration.plain with metric := true } 0 [⟨"set", ["a", "1"]⟩]).2 _ _ s' 1 .init ran
    (by decide)⟩

end RedisShake.Run
