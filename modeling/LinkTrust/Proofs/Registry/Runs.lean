import LinkTrust.Proofs.Collections
import LinkTrust.Proofs.Registry.Outcome

/-! # Rows of calls

What holds in every state that a row of calls goes through, and what holds of every call in the
state in which it is made. If a call keeps an invariant exactly under a condition, a row of calls
goes through nothing but states with the invariant exactly if all its calls meet the condition.
-/

namespace LinkTrust.Registry

variable {s : Registry} {call : Call} {calls : List Call} {I : Registry → Prop}
  {P : Registry → Call → Prop}

/-- The property holds before, between and after the calls of a row that starts in `s`. -/
def Always (s : Registry) (calls : List Call) (I : Registry → Prop) : Prop :=
  ∀ earlier later : List Call, calls = earlier ++ later → I (s.after earlier)

/-- The property holds of each call of a row that starts in `s`, in the state in which it is
made. -/
def Throughout (s : Registry) (calls : List Call) (P : Registry → Call → Prop) : Prop :=
  ∀ (earlier : List Call) (call : Call) (later : List Call),
    calls = earlier ++ call :: later → P (s.after earlier) call

/-- A condition that looks at the call alone holds throughout if each call of the row meets it. -/
theorem throughout_iff_forall_mem {Q : Call → Prop} :
    s.Throughout calls (fun _ call => Q call) ↔ ∀ call ∈ calls, Q call := by
  constructor
  · intro h call hc
    obtain ⟨earlier, later, he⟩ := List.append_of_mem hc
    exact h earlier call later he
  · rintro h earlier call later rfl
    exact h call (List.mem_append_right _ List.mem_cons_self)

/-- A row of calls keeps an invariant all the way exactly if each of its calls keeps it. -/
theorem always_iff_throughout (h : I s)
    (step : ∀ s call, I s → (I (s.perform call).registry ↔ P s call)) :
    s.Always calls I ↔ s.Throughout calls P :=
  Collections.forall_beginnings_iff (J := fun earlier => I (s.after earlier)) h
    fun earlier call _ _ hI => by
      rw [after_append]
      exact step (s.after earlier) call hI

/-- What each call of a row keeps is kept all the way. -/
theorem always_of_throughout (h : I s) (hp : s.Throughout calls P)
    (step : ∀ s call, I s → P s call → I (s.perform call).registry) : s.Always calls I := by
  refine (Collections.forall_beginnings_iff (J := fun earlier => I (s.after earlier))
    (P := fun _ _ => True) h fun earlier call later he hI => ?_).mpr fun _ _ _ _ => trivial
  rw [after_append]
  exact iff_of_true (step (s.after earlier) call hI (hp earlier call later he)) trivial

section Answers

/-- What the calls of a row answer, in their order. -/
def answers (s : Registry) : List Call → List Answer
  | [] => []
  | call :: calls => (s.perform call).result :: (s.perform call).registry.answers calls

@[simp] theorem answers_nil : s.answers [] = [] := rfl

@[simp] theorem answers_cons : s.answers (call :: calls) =
    (s.perform call).result :: (s.perform call).registry.answers calls := rfl

end Answers

section Frames

@[simp] theorem agent_conclude (events : List Event) (asked? : Option String) :
    (s.conclude events asked?).registry.agent =
      match asked? with
      | some name => s.agent.send (.ofList [name])
      | none => s.agent := by
  cases asked? <;> rfl

/-- No call changes what the platform vouches for. -/
theorem platform_perform (call : Call) : (s.perform call).registry.platform = s.platform :=
  (outcome_perform call).platform_eq

theorem platform_after (calls : List Call) : (s.after calls).platform = s.platform :=
  after_induction (P := fun t => t.platform = s.platform) calls rfl fun _ call h =>
    (platform_perform call).trans h

end Frames

end LinkTrust.Registry
