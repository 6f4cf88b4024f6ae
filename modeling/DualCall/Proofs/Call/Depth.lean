import DualCall.Call.Execution

namespace DualCall

/-- Wherever one computation ends, another ends in the same way. -/
def Effect.Refines {α : Type} (e e' : Effect α) : Prop :=
  ∀ before r, e.run before = .ok r → e'.run before = .ok r

namespace Effect.Refines

theorem refl {α : Type} (e : Effect α) : e.Refines e := fun _ _ h => h

theorem trans {α : Type} {e e' e'' : Effect α} (h : e.Refines e') (h' : e'.Refines e'') :
    e.Refines e'' :=
  fun before r hr => h' before r (h before r hr)

theorem throw {α : Type} (cause : Abort) (e : Effect α) : (throw cause : Effect α).Refines e :=
  fun _ _ h => nomatch h

theorem bind {α β : Type} {e e' : Effect α} {next next' : α → Effect β} (h : e.Refines e')
    (hnext : ∀ a, (next a).Refines (next' a)) : (e >>= next).Refines (e' >>= next') := by
  intro before r hr
  rw [StateT.run_bind] at hr ⊢
  cases he : e.run before with
  | error cause =>
    rw [he] at hr
    cases hr
  | ok result =>
    rw [he] at hr
    rw [h before result he]
    exact hnext result.1 result.2 r hr

end Effect.Refines

theorem followRoutine_refines {call call' : Procedure → List Value → Effect Outcome}
    (hcall : ∀ p args, (call p args).Refines (call' p args)) (run : RoutineRun) :
    (followRoutine call run).Refines (followRoutine call' run) := by
  induction run with
  | finish outcome => exact .refl _
  | call p args resume ih =>
    rw [followRoutine, followRoutine]
    refine .bind (hcall p args) fun outcome => ?_
    cases outcome with
    | value v => exact ih (.ok v)
    | failure e => exact ih (.error e)
    | panic => exact .refl _

theorem enterRoutine_refines {call call' : Procedure → List Value → Effect Outcome}
    (hcall : ∀ p args, (call p args).Refines (call' p args)) (name : String) (routine : Routine)
    (args : List Value) :
    (enterRoutine call name routine args).Refines (enterRoutine call' name routine args) := by
  have hrun : (do
      let activity ← get
      followRoutine call (routine.run args activity.memory) : Effect Outcome).Refines (do
      let activity ← get
      followRoutine call' (routine.run args activity.memory)) :=
    .bind (.refl _) fun _ => followRoutine_refines hcall _
  unfold enterRoutine
  split
  · exact .bind (.refl _) fun _ => hrun
  · exact hrun

theorem followNative_refines {enter enter' : UInt64 → List Scalar → Effect UInt64}
    (henter : ∀ address scalars, (enter address scalars).Refines (enter' address scalars))
    (run : NativeRun UInt64) : (followNative enter run).Refines (followNative enter' run) := by
  induction run with
  | finish slot memory => exact .refl _
  | call address args memory resume ih =>
    refine .bind (.refl _) fun _ => .bind (henter address args) fun slot => ?_
    exact .bind (.refl _) fun activity => ih slot activity.memory

namespace Machine

variable (s : Machine)

/-- One more level of depth changes no call that ends, and no entry into native code. -/
theorem refines_succ (depth : Nat) :
    (∀ p args, (s.call depth p args).Refines (s.call (depth + 1) p args)) ∧
    ∀ address scalars, (s.enter depth address scalars).Refines
      (s.enter (depth + 1) address scalars) := by
  induction depth with
  | zero =>
    constructor <;> intros <;> exact .throw _ _
  | succ depth ih =>
    obtain ⟨hcall, henter⟩ := ih
    constructor
    · intro p args
      rw [call, call]
      cases p.body with
      | routine captured =>
        exact enterRoutine_refines hcall _ _ _
      | adapter raw arity optional =>
        dsimp only
        split
        · exact hcall _ _
        · exact .refl _
      | invoker ret pointer types =>
        cases s.backend with
        | inMemory =>
          simp only [invokeInMemory]
          split
          · exact .refl _
          · split
            · exact .refl _
            · split
              · exact hcall _ _
              · exact .refl _
        | native =>
          simp only [invokeNative]
          split
          · exact .refl _
          · split
            · exact .refl _
            · exact .bind (henter _ _) fun slot => .refl _
    · intro address scalars
      rw [enter, enter]
      cases s.code? address with
      | some code => exact .bind (hcall _ _) fun outcome => .refl _
      | none =>
        cases s.functions address with
        | some f => exact .bind (.refl _) fun activity => followNative_refines henter _
        | none => exact .refl _

/-- A call that ends within a depth ends in the same way within a greater one. -/
theorem call_refines {depth more : Nat} (hmore : depth ≤ more) (p : Procedure) (args : List Value) :
    (s.call depth p args).Refines (s.call more p args) := by
  induction hmore with
  | refl => exact .refl _
  | step _ ih => exact ih.trans ((refines_succ s _).1 p args)

end Machine

end DualCall
