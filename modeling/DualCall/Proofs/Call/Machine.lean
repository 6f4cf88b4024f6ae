import DualCall.Call.Machine
import Mathlib.Algebra.Group.Nat.Defs
import Mathlib.Data.List.Nodup

namespace DualCall

theorem run_bind_of_ok {σ α β : Type} {x : StateT σ (Except Abort) α} {s s' : σ} {a : α}
    (hx : x.run s = .ok (a, s')) (next : α → StateT σ (Except Abort) β) :
    (x >>= next).run s = (next a).run s' := by
  rw [StateT.run_bind, hx]
  rfl

theorem run_bind_eq_ok {σ ε α β : Type} {x : StateT σ (Except ε) α}
    {next : α → StateT σ (Except ε) β} {s : σ} {result : β × σ}
    (hrun : (x >>= next).run s = .ok result) :
    ∃ a s', x.run s = .ok (a, s') ∧ (next a).run s' = .ok result := by
  rw [StateT.run_bind] at hrun
  cases hx : x.run s with
  | error cause =>
    rw [hx] at hrun
    cases hrun
  | ok first =>
    rw [hx] at hrun
    exact ⟨first.1, first.2, rfl, hrun⟩

namespace Machine

/-- The addresses that codes get one after the other. -/
def successive (start : UInt64) (count : Nat) : List UInt64 :=
  (List.range count).map fun i => start + UInt64.ofNat i * addressStep

theorem successive_succ (start : UInt64) (count : Nat) :
    successive start (count + 1) = start :: successive (start + addressStep) count := by
  rw [successive, List.range_succ_eq_map, List.map_cons, List.map_map]
  refine congrArg₂ List.cons (by simp) (List.map_congr_left fun i _ => ?_)
  have hstep : UInt64.ofNat (i + 1) = 1 + UInt64.ofNat i := by
    rw [Nat.add_comm, UInt64.ofNat_add]
    rfl
  simp only [Function.comp_apply, hstep, UInt64.add_mul, UInt64.one_mul, UInt64.add_assoc]

/-- Addresses do not come back before the whole range of a word is used up. -/
theorem nodup_successive (start : UInt64) {count : Nat} (hcount : count ≤ 2 ^ 60) :
    (successive start count).Nodup := by
  refine List.Nodup.map_on (fun i hi j hj heq => ?_) List.nodup_range
  rw [List.mem_range] at hi hj
  have hoffset := congrArg UInt64.toNat ((UInt64.add_right_inj start).mp heq)
  simp only [addressStep, UInt64.toNat_mul, UInt64.toNat_ofNat', UInt64.reduceToNat] at hoffset
  omega

theorem successive_add_one (start : UInt64) (count : Nat) :
    successive start (count + 1) =
      successive start count ++ [start + UInt64.ofNat count * addressStep] := by
  simp [successive, List.range_succ]

variable {s : Machine}

/-- On native code nothing is locked; in memory the registry has to be free, and it is locked in the
    meantime. -/
theorem run_guarded_cases {α : Type} (action : Act α) (s : Machine) :
    s.backend = .native ∧ (guarded action).run s = action.run s ∨
    s.backend = .inMemory ∧ s.locked = true ∧ (guarded action).run s = .error .deadlock ∨
    s.backend = .inMemory ∧ s.locked = false ∧
      (guarded action).run s = (action.run { s with locked := true }).map
        fun result => (result.1, { result.2 with locked := false }) := by
  obtain ⟨backend, codes, nextAddress, requests, locked, nextIdentity, routines, functions⟩ := s
  cases backend with
  | native => exact .inl ⟨rfl, rfl⟩
  | inMemory =>
    cases locked with
    | true => exact .inr (.inl ⟨rfl, rfl, rfl⟩)
    | false =>
      refine .inr (.inr ⟨rfl, rfl, ?_⟩)
      let s : Machine := ⟨.inMemory, codes, nextAddress, requests, true, nextIdentity, routines,
        functions⟩
      have hrun : (guarded action).run { s with locked := false } = (do
          let result ← action
          modify fun s => { s with locked := false }
          return result : Act α).run s := rfl
      rw [hrun, StateT.run_bind]
      cases action.run s <;> rfl

/-- While the registry is free, putting code there always succeeds. -/
theorem run_insert (hfree : s.locked = false) (code : Code) :
    (insert code).run s = .ok (s.nextAddress, { s with
      codes := (s.nextAddress, code) :: s.codes
      nextAddress := s.nextAddress + addressStep }) := by
  obtain ⟨backend, codes, nextAddress, requests, locked, nextIdentity, routines, functions⟩ := s
  obtain rfl : locked = false := hfree
  cases backend <;> rfl

end Machine

end DualCall
