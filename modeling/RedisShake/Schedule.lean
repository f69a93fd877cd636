set_option autoImplicit false

namespace RedisShake

/-- A schedule of actions replayed through a step function, which is undefined on an action
that its state does not enable. -/
def runSchedule {σ α : Type} (step : σ → α → Option σ) : σ → List α → Option σ
  | s, [] => some s
  | s, a :: as => (step s a).bind fun s' => runSchedule step s' as

@[simp] theorem runSchedule_nil {σ α : Type} (step : σ → α → Option σ) (s : σ) :
    runSchedule step s [] = some s := rfl

theorem runSchedule_cons {σ α : Type} (step : σ → α → Option σ) (s : σ) (a : α)
    (as : List α) :
    runSchedule step s (a :: as) = (step s a).bind fun s' => runSchedule step s' as := rfl

section Closed

variable {σ α : Type} {step : σ → α → Option σ} (P : σ → Prop) (allowed : α → Prop)

theorem runSchedule_closed
    (closed : ∀ {s s' : σ} {a : α}, P s → allowed a → step s a = some s' → P s') :
    ∀ {s s' : σ} {as : List α}, P s → (∀ a ∈ as, allowed a) →
      runSchedule step s as = some s' → P s'
  | _, _, [], start, _, ran => by cases ran; exact start
  | s, _, a :: as, start, fine, ran => by
    cases stepped : step s a with
    | none => simp [runSchedule_cons, stepped] at ran
    | some s1 =>
      simp only [runSchedule_cons, stepped, Option.bind_some] at ran
      exact runSchedule_closed closed (closed start (fine a (List.mem_cons_self _ _)) stepped)
        (fun b member => fine b (List.mem_cons_of_mem _ member)) ran

theorem exists_of_runSchedule
    (closed : ∀ {s s' : σ} {a : α}, P s → allowed a → step s a = some s' → P s')
    {s : σ} {as : List α} (q : σ → Bool) (start : P s)
    (fine : ∀ a ∈ as, allowed a) (ran : (runSchedule step s as).map q = some true) :
    ∃ s', P s' ∧ q s' = true := by
  cases h : runSchedule step s as with
  | none => simp [h] at ran
  | some s' =>
    simp only [h, Option.map_some', Option.some.injEq] at ran
    exact ⟨s', runSchedule_closed P allowed closed start fine h, ran⟩

end Closed

end RedisShake
