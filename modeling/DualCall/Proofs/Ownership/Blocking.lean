import DualCall.Proofs.Ownership.Registry

namespace DualCall

/-- A computation that can only fail for the depth of its calls. -/
def Effect.OnlyExhausts {α : Type} (x : Effect α) : Prop :=
  ∀ before cause, x.run before = .error cause → cause = .exhausted

namespace Effect.OnlyExhausts

theorem of_ok {α : Type} {x : Effect α} (hx : ∀ before, ∃ result, x.run before = .ok result) :
    OnlyExhausts x := by
  intro before cause herror
  obtain ⟨result, hok⟩ := hx before
  cases hok.symm.trans herror

theorem bind {α β : Type} {x : Effect α} {next : α → Effect β} (hx : OnlyExhausts x)
    (hnext : ∀ a, OnlyExhausts (next a)) : OnlyExhausts (x >>= next) := by
  intro before cause herror
  rw [StateT.run_bind] at herror
  cases hrun : x.run before with
  | error other =>
    rw [hrun] at herror
    cases herror
    exact hx before _ hrun
  | ok result =>
    rw [hrun] at herror
    exact hnext result.1 result.2 cause herror

theorem followRoutine {call : Procedure → List Value → Effect Outcome}
    (hcall : ∀ p args, OnlyExhausts (call p args)) (run : RoutineRun) :
    OnlyExhausts (followRoutine call run) := by
  induction run with
  | finish outcome => exact .of_ok fun before => ⟨_, rfl⟩
  | call p args resume ih =>
    rw [DualCall.followRoutine]
    refine (hcall p args).bind fun outcome => ?_
    cases outcome with
    | value v => exact ih (.ok v)
    | failure e => exact ih (.error e)
    | panic => exact .of_ok fun before => ⟨_, rfl⟩

theorem enterRoutine {call : Procedure → List Value → Effect Outcome}
    (hcall : ∀ p args, OnlyExhausts (call p args)) (name : String) (routine : Routine)
    (args : List Value) : OnlyExhausts (enterRoutine call name routine args) := by
  unfold DualCall.enterRoutine
  have hrest : OnlyExhausts (do
      let activity ← get
      DualCall.followRoutine call (routine.run args activity.memory)) :=
    bind (.of_ok fun before => ⟨_, rfl⟩) fun activity => followRoutine hcall _
  split
  · exact bind (.of_ok fun before => ⟨_, rfl⟩) fun _ => hrest
  · exact hrest

end Effect.OnlyExhausts

namespace Machine

variable {s : Machine}

/-- In memory a call never waits for a free registry, whatever it leads to. -/
theorem call_onlyExhausts (hmemory : s.backend = .inMemory) (hfree : s.locked = false)
    (depth : Nat) (p : Procedure) (args : List Value) : (s.call depth p args).OnlyExhausts := by
  induction depth generalizing p args with
  | zero =>
    intro before cause herror
    rw [call] at herror
    cases herror
    rfl
  | succ depth ih =>
    rw [call]
    split
    · exact .enterRoutine ih _ _ _
    · split
      · exact ih _ _
      · exact .of_ok fun before => ⟨_, rfl⟩
    · simp only [hmemory, invokeInMemory, hfree]
      split
      · exact .of_ok fun before => ⟨_, rfl⟩
      · simp only [Bool.false_eq_true, if_false]
        split
        · exact ih _ _
        · exact .of_ok fun before => ⟨_, rfl⟩

section

variable {nested : List UInt64 → List UInt64 → Act Unit} {outside owners : List UInt64}

theorem run_releaseEach_of_all_kept
    (hkept : ∀ a ∈ owners, a ∈ outside ∨ HeldByCode s.codes a) :
    (releaseEach nested outside owners).run s = .ok ((), s) := by
  induction owners with
  | nil => rfl
  | cons a rest ih =>
    rw [run_releaseEach_of_kept ((hkept a List.mem_cons_self).imp_right .inr)]
    exact ih fun b hb => hkept b (List.mem_cons_of_mem _ hb)

/-- While the registry is locked, the first owner that is the last one of its code blocks. -/
theorem run_releaseEach_of_locked (hmemory : s.backend = .inMemory) (hlocked : s.locked = true)
    (hcodes : ∀ a ∈ owners, ∃ code, s.code? a = some code) {b : UInt64} (hb : b ∈ owners)
    (houtside : b ∉ outside) (hheld : ¬ HeldByCode s.codes b) :
    (releaseEach nested outside owners).run s = .error .deadlock := by
  induction owners with
  | nil => cases hb
  | cons a rest ih =>
    have hrest (c : UInt64) (hc : c ∈ rest) := hcodes c (List.mem_cons_of_mem _ hc)
    by_cases hkept : a ∈ outside ∨ a ∈ rest ∨ HeldByCode s.codes a
    · rw [run_releaseEach_of_kept hkept]
      obtain rfl | hb := List.mem_cons.mp hb
      · exact ih hrest ((hkept.resolve_left houtside).resolve_right hheld)
      · exact ih hrest hb
    · obtain ⟨houtside', hrest', hheld'⟩ : a ∉ outside ∧ a ∉ rest ∧ ¬ HeldByCode s.codes a := by
        simpa [not_or] using hkept
      obtain ⟨code, hcode⟩ := hcodes a List.mem_cons_self
      rw [run_releaseEach_of_last hcode houtside' hrest' hheld', StateT.run_bind]
      obtain ⟨hnative, -⟩ | ⟨-, -, hblocked⟩ | ⟨-, hfree, -⟩ := run_guarded_cases (do
          remove a
          nested (outside ++ rest) code.procedure.owned) s
      · cases hnative.symm.trans hmemory
      · rw [hblocked]
        rfl
      · cases hfree.symm.trans hlocked

end

theorem run_guarded_of_free (hmemory : s.backend = .inMemory) (hfree : s.locked = false)
    {α : Type} (action : Act α) : (guarded action).run s =
      (action.run { s with locked := true }).map
        fun result => (result.1, { result.2 with locked := false }) := by
  obtain ⟨hnative, -⟩ | ⟨-, hlocked, -⟩ | ⟨-, -, hrun⟩ := run_guarded_cases action s
  · cases hnative.symm.trans hmemory
  · cases hlocked.symm.trans hfree
  · exact hrun

theorem run_releaseUpTo_of_all_kept {depth : Nat} {outside owners : List UInt64}
    (hkept : ∀ a ∈ owners, a ∈ outside ∨ HeldByCode s.codes a) :
    (releaseUpTo depth outside owners).run s = .ok ((), s) := by
  cases depth with
  | zero => rfl
  | succ depth => exact run_releaseEach_of_all_kept hkept

theorem run_releaseUpTo_of_locked (hmemory : s.backend = .inMemory) (hlocked : s.locked = true)
    {depth : Nat} (hdepth : s.codes.length ≤ depth) {outside owners : List UInt64}
    (hbalanced : Balanced s.codes (outside ++ owners)) {b : UInt64} (hb : b ∈ owners)
    (houtside : b ∉ outside) (hheld : ¬ HeldByCode s.codes b) :
    (releaseUpTo depth outside owners).run s = .error .deadlock := by
  have hcodes (a : UInt64) (ha : a ∈ owners) : ∃ code, s.code? a = some code := by
    obtain ⟨code, hmem, -⟩ := hbalanced.generated a (List.mem_append_right _ ha)
    exact ⟨code, code?_of_mem hbalanced.nodup hmem⟩
  cases depth with
  | zero =>
    obtain ⟨code, hcode⟩ := hcodes b hb
    have hpositive := List.length_pos_of_mem (mem_of_code? hcode)
    omega
  | succ depth => exact run_releaseEach_of_locked hmemory hlocked hcodes hb houtside hheld

/-- Owners are given up without blocking exactly when the codes go in order. -/
theorem releaseEach_completes_iff (hmemory : s.backend = .inMemory) (hfree : s.locked = false)
    {depth : Nat} (hdepth : s.codes.length ≤ depth + 1) {outside owners : List UInt64}
    (hbalanced : Balanced s.codes (outside ++ owners)) :
    (∃ s', (releaseEach (releaseUpTo depth) outside owners).run s = .ok ((), s')) ↔
      InOrder s.codes outside owners := by
  induction owners generalizing s with
  | nil =>
    refine iff_of_true ⟨s, rfl⟩ fun b hb => absurd ?_ hb.2
    exact (List.append_nil outside ▸ hbalanced).live_iff.mpr hb.1
  | cons address rest ih =>
    have hfirst : Balanced s.codes (address :: (outside ++ rest)) :=
      hbalanced.of_mem_iff fun a => by simp [or_left_comm]
    by_cases hkept : address ∈ outside ∨ address ∈ rest ∨ HeldByCode s.codes address
    · rw [run_releaseEach_of_kept hkept, inOrder_cons_of_kept hkept]
      exact ih hmemory hfree hdepth (hfirst.of_kept (by simpa [or_assoc] using hkept))
    · obtain ⟨houtside, hrest, hheld⟩ : address ∉ outside ∧ address ∉ rest ∧
          ¬ HeldByCode s.codes address := by simpa [not_or] using hkept
      obtain ⟨code, hmem, hgenerated⟩ := hfirst.generated address List.mem_cons_self
      have hnodup := hfirst.nodup
      have hremoved : Balanced (removeCode s.codes address)
          (outside ++ rest ++ code.procedure.owned) :=
        hfirst.of_last hmem (by simp [houtside, hrest]) hheld
      have hfewer : (removeCode s.codes address).length < s.codes.length :=
        List.length_filter_lt_length_iff_exists.mpr ⟨_, hmem, by simp⟩
      have hinner : (do
          remove address
          releaseUpTo depth (outside ++ rest) code.procedure.owned : Act Unit).run
            { s with locked := true } =
          (releaseUpTo depth (outside ++ rest) code.procedure.owned).run
            { s with codes := removeCode s.codes address, locked := true } := by
        rw [run_bind_of_ok (run_remove _ _)]
      rw [run_releaseEach_of_last (code?_of_mem hnodup hmem) houtside hrest hheld, StateT.run_bind,
        run_guarded_of_free hmemory hfree, hinner]
      by_cases hall : ∀ b ∈ code.procedure.owned,
          b ∈ outside ++ rest ∨ HeldByCode (removeCode s.codes address) b
      · rw [run_releaseUpTo_of_all_kept hall,
          inOrder_cons_of_last hnodup hmem hgenerated houtside hheld hrest]
        exact ih (s := { s with codes := removeCode s.codes address, locked := false }) hmemory rfl
          (Nat.le_trans (Nat.le_of_lt hfewer) hdepth) (hremoved.of_all_kept hall)
      · push Not at hall
        obtain ⟨b, hb, hkeptnot, hheldnot⟩ := hall
        refine iff_of_false ?_ fun horder => ?_
        · rintro ⟨s', hrun⟩
          have hblocked := run_releaseUpTo_of_locked
            (s := { s with codes := removeCode s.codes address, locked := true }) hmemory rfl
            (Nat.le_of_lt_succ (Nat.lt_of_lt_of_le hfewer hdepth)) hremoved hb hkeptnot hheldnot
          rw [hblocked] at hrun
          cases hrun
        · obtain hkept | hkept :=
            horder.kept hnodup hmem hgenerated houtside hheld hfirst.layered hb
          · exact hkeptnot hkept
          · exact hheldnot hkept

theorem release_completes_iff (hmemory : s.backend = .inMemory) (hfree : s.locked = false)
    {outside owners : List UInt64} (hbalanced : Balanced s.codes (outside ++ owners)) :
    (∃ s', (release outside owners).run s = .ok ((), s')) ↔ InOrder s.codes outside owners := by
  have hrun : (release outside owners).run s =
      (releaseUpTo s.codes.length outside owners).run s := rfl
  rw [hrun]
  cases hlength : s.codes.length with
  | zero =>
    refine iff_of_true ⟨s, rfl⟩ fun b hb => ?_
    obtain ⟨⟨code, hmem, -⟩, -⟩ := hb
    rw [List.eq_nil_of_length_eq_zero hlength] at hmem
    cases hmem
  | succ depth => exact releaseEach_completes_iff hmemory hfree (Nat.le_of_eq hlength) hbalanced

end Machine

namespace Program

/-- When a handle is given up, the owners in it go in such an order that no code takes another one
    with it: the handle itself holds an owner of every code that goes, and gives it up only after
    the codes that go and hold an owner of it are gone. -/
def GoesInOrder (p : Program) (place : Nat) (h : Handle) : Prop :=
  ∀ b, p.ReachesOwner b → ¬ (p.without place).ReachesOwner b → b ∈ h.owned ∧
    ∀ a code, p.machine.code? a = some code → p.ReachesOwner a →
      ¬ (p.without place).ReachesOwner a → b ∈ code.procedure.owned → After h.owned a b

variable {machine : Machine} {p : Program} {place : Nat} {h : Handle}

theorem Sound.inOrder_iff (hp : Sound machine p) :
    InOrder p.machine.codes (heldBy (p.handles.eraseIdx place)) h.owned ↔
      p.GoesInOrder place h := by
  have hnodup := hp.balanced.nodup
  have hdead (a : UInt64) : Dead p.machine.codes (heldBy (p.handles.eraseIdx place)) a ↔
      p.ReachesOwner a ∧ ¬ (p.without place).ReachesOwner a := by
    have hlive : (p.without place).ReachesOwner a ↔
        Live p.machine.codes (heldBy (p.handles.eraseIdx place)) a :=
      reachesOwner_iff_live hnodup
    rw [Dead, hp.reachesOwner_iff, hlive]
  constructor
  · intro horder b hb hgone
    obtain ⟨hmem, hafter⟩ := horder b ((hdead b).mpr ⟨hb, hgone⟩)
    exact ⟨hmem, fun a code hcode ha hgone' =>
      hafter a code (Machine.mem_of_code? hcode) ((hdead a).mpr ⟨ha, hgone'⟩)⟩
  · intro horder b hb
    obtain ⟨hb, hgone⟩ := (hdead b).mp hb
    obtain ⟨hmem, hafter⟩ := horder b hb hgone
    exact ⟨hmem, fun a code hcode ha =>
      hafter a code (Machine.code?_of_mem hnodup hcode) ((hdead a).mp ha).1 ((hdead a).mp ha).2⟩

/-- Giving up a handle blocks exactly when the codes do not go in order. -/
theorem Sound.perform_drop_iff (hp : Sound machine p) (hmemory : p.machine.backend = .inMemory)
    (hplace : p.handles[place]? = some h) :
    p.perform (.drop place) = .error .deadlock ↔ ¬ p.GoesInOrder place h := by
  rw [← hp.inOrder_iff,
    ← Machine.release_completes_iff hmemory hp.free (hp.balanced_eraseIdx hplace), perform_eq,
    Operation.act_drop hplace]
  obtain ⟨s', hrun, -⟩ | ⟨-, hrun⟩ := hp.releases hplace
  · rw [hrun]
    refine iff_of_false (fun herror => ?_) fun hnot => hnot ⟨s', rfl⟩
    cases herror
  · rw [hrun]
    exact iff_of_true rfl fun ⟨s', hok⟩ => nomatch hok

/-- An operation gives up a handle: one that is dropped, or a behavior that is handed over to a
    request that fails. -/
inductive GivesUp (p : Program) : Operation → Nat → Handle → Prop where
  | drop {place : Nat} {h : Handle} (hplace : p.handles[place]? = some h) :
    GivesUp p (.drop place) place h
  | unifyTaken {ret : NativeType} {place : Nat} {specs : List ArgSpec} {behavior : Behavior}
    {e : CallError} {s' : Machine} (hplace : p.handles[place]? = some behavior.handle)
    (hfails : (Machine.unify ret behavior specs).run p.machine = .ok (.error e, s')) :
    GivesUp p (.unifyTaken ret place specs) place behavior.handle

namespace Sound

variable {op : Operation} (hp : Sound machine p) (hmemory : p.machine.backend = .inMemory)
  (hfresh : p.machine.nextAddress ∉ p.machine.codes.map Prod.fst)
include hp hfresh

/-- What is given up is dropped, on a machine with the same codes. -/
theorem exists_drop_of_givesUp (hgives : p.GivesUp op place h) :
    p.handles[place]? = some h ∧ ∃ s', Sound machine { p with machine := s' } ∧
      s'.backend = p.machine.backend ∧ s'.codes = p.machine.codes ∧
      p.perform op = { p with machine := s' }.perform (.drop place) := by
  cases hgives with
  | drop hplace => exact ⟨hplace, p.machine, hp, rfl, rfl, rfl⟩
  | @unifyTaken ret _ specs behavior _ s' hplace hfails =>
    obtain ⟨result, s'', hunify, hunified⟩ := Machine.run_unify hp.free ret behavior specs
    cases hunify.symm.trans hfails
    obtain ⟨hgrows⟩ := hunified
    exact ⟨hplace, s', hp.extend hfresh (.of_grows hgrows), hgrows.backend, hgrows.codes,
      perform_unifyTaken_of_error hplace hfails hgrows.codes⟩

include hmemory

/-- What neither drops a handle nor hands over a behavior in vain completes, unless it is a call
    that is nested too deep. -/
theorem perform_of_not_givesUp (hinputs : ∀ h ∈ op.inputs, p.Available h)
    (hnone : ∀ place h, ¬ p.GivesUp op place h) :
    (∃ p', p.perform op = .ok p') ∨
      ∃ depth q args before, op = .call depth q args before ∧
        p.perform op = .error .exhausted := by
  by_cases hmakes : op.makes = true
  · obtain ⟨received, new, s', hperform, -⟩ :=
      hp.perform_makes hfresh hmakes fun h hh => hp.usable_of_available (hinputs h hh)
    exact .inl ⟨_, hperform⟩
  · cases op with
    | call depth q args before =>
      have hperform := perform_call p depth q args before
      have honly := Machine.call_onlyExhausts hmemory hp.free depth q args before
      cases hcall : (p.machine.call depth q args).run before with
      | ok result =>
        rw [hcall] at hperform
        exact .inl ⟨p, hperform⟩
      | error cause =>
        obtain rfl := honly cause hcall
        rw [hcall] at hperform
        exact .inr ⟨depth, q, args, before, rfl, hperform⟩
    | unifyTaken ret place specs =>
      obtain hperform | ⟨behavior, result, s', hplace, hunify, -⟩ :=
        perform_unifyTaken_cases hp.free ret place specs
      · exact .inl ⟨p, hperform⟩
      cases result with
      | ok c => exact .inl ⟨_, perform_unifyTaken_of_ok hplace hunify⟩
      | error e => exact absurd (.unifyTaken hplace hunify) (hnone place _)
    | drop place =>
      cases hplace : p.handles[place]? with
      | none => exact .inl ⟨p, perform_drop_of_none hplace⟩
      | some h => exact absurd (.drop hplace) (hnone place h)
    | _ => exact absurd rfl hmakes

theorem perform_of_givesUp (hgives : p.GivesUp op place h) :
    ((∃ p', p.perform op = .ok p') ∨ p.perform op = .error .deadlock) ∧
      (p.perform op = .error .deadlock ↔ ¬ p.GoesInOrder place h) := by
  obtain ⟨hplace, s', hq, hbackend, hcodes, hperform⟩ := hp.exists_drop_of_givesUp hfresh hgives
  have hmemory' : s'.backend = .inMemory := hbackend.trans hmemory
  refine ⟨?_, ?_⟩
  · rw [hperform]
    obtain ⟨s'', hok, -⟩ | ⟨-, hblocks⟩ := hq.perform_drop hplace
    · exact .inl ⟨_, hok⟩
    · exact .inr hblocks
  · rw [hperform, hq.perform_drop_iff hmemory' hplace, ← hq.inOrder_iff, ← hp.inOrder_iff]
    dsimp only
    rw [hcodes]

end Sound

/-- The registry in memory is free whenever an operation begins. The operation blocks exactly when
    it gives up a handle and the codes that go with it do not go in order. Otherwise it completes,
    unless it is a call that is nested too deep. -/
theorem Run.perform_blocks_iff {ops : List Operation} (hrun : Run (start .inMemory) ops p)
    (hcount : p.issued.length < 2 ^ 60) (op : Operation)
    (hinputs : ∀ h ∈ op.inputs, (p.keeping op).Available h) :
    p.machine.locked = false ∧
      (p.perform op = .error .deadlock ↔
        ∃ place h, p.GivesUp op place h ∧ ¬ p.GoesInOrder place h) ∧
      (p.perform op ≠ .error .deadlock → (∃ p', p.Step op p') ∨
        ∃ depth q args before, op = .call depth q args before ∧
          p.perform op = .error .exhausted) := by
  obtain ⟨hp, -⟩ := hrun.sound rfl rfl fun _ => hcount
  have hmemory : p.machine.backend = .inMemory := hp.backend
  have hfresh := hp.fresh_next rfl hcount
  have hstep : (∃ p', p.perform op = .ok p') → ∃ p', p.Step op p' := fun ⟨p', hperform⟩ =>
    ⟨p', .of_perform hmemory hinputs hperform⟩
  refine ⟨hp.free, ?_⟩
  by_cases hgives : ∃ place h, p.GivesUp op place h
  · obtain ⟨place, h, hgives⟩ := hgives
    obtain ⟨hends, hblocks⟩ := hp.perform_of_givesUp hmemory hfresh hgives
    refine ⟨⟨fun herror => ⟨place, h, hgives, hblocks.mp herror⟩, ?_⟩, fun hnot => ?_⟩
    · rintro ⟨place', h', hgives', horder⟩
      exact (hp.perform_of_givesUp hmemory hfresh hgives').2.mpr horder
    · exact .inl (hstep (hends.resolve_right hnot))
  · have hnone (place : Nat) (h : Handle) : ¬ p.GivesUp op place h :=
      fun hgives' => hgives ⟨place, h, hgives'⟩
    have hends := hp.perform_of_not_givesUp hmemory hfresh
      (fun h hh => (hinputs h hh).of_keeping) hnone
    refine ⟨iff_of_false (fun herror => ?_) ?_, fun _ => hends.imp_left hstep⟩
    · obtain ⟨p', hperform⟩ | ⟨depth, q, args, before, -, hperform⟩ := hends
      · cases herror.symm.trans hperform
      · cases herror.symm.trans hperform
    · exact fun ⟨place, h, hgives', _⟩ => hnone place h hgives'

namespace DerivedTwice

def base : Procedure := ⟨0, "f", .routine []⟩

def inner : NativePointer := ⟨0x1000, some (.generated 0x1000)⟩

def raw : Procedure := ⟨1, "native@" ++ inner.display, .invoker .i32 inner []⟩

def outer : NativePointer := ⟨0x1010, some (.generated 0x1010)⟩

/-- A pointer is derived for a procedure, and a second one for an invoker of the first. -/
def operations : List Operation :=
  [.routine "f" [] .null, .derive .i32 base [], .invoker .i32 inner [], .derive .i32 raw []]

def codes : List (UInt64 × Code) :=
  [(0x1010, ⟨raw, .i32, [], false⟩), (0x1000, ⟨base, .i32, [], false⟩)]

def program : Program where
  machine := { Machine.inMemory with
    codes := codes
    nextAddress := 0x1020
    requests := 1
    nextIdentity := 2
    routines := fun identity => if identity = 0 then .null else .null }
  handles := [.pointer outer, .value (.procedure raw), .pointer inner, .value (.procedure base)]
  issued := codes

theorem run : Run (start .inMemory) operations program := by
  let s : Machine := { program.machine with
    codes := codes.drop 1
    nextAddress := 0x1010 }
  let p₁ : Program :=
    { machine := { s with codes := [], nextAddress := 0x1000, requests := 0, nextIdentity := 1 }
      handles := program.handles.drop 3
      issued := [] }
  let p₂ : Program := ⟨{ s with requests := 0, nextIdentity := 1 }, program.handles.drop 2, s.codes⟩
  let p₃ : Program := ⟨s, program.handles.drop 1, s.codes⟩
  have hfirst {q : Program} {h : Handle} (hmem : h ∈ q.handles.take 1) : q.Available h :=
    .reached (.held (List.mem_of_mem_take hmem))
  have hroutine : (start .inMemory).Step (.routine "f" [] .null) p₁ :=
    .of_perform rfl (fun h hh => nomatch hh) rfl
  have hinner : p₁.Step (.derive .i32 base []) p₂ := .of_perform rfl (fun h hh => hfirst hh) rfl
  have hinvoker : p₂.Step (.invoker .i32 inner []) p₃ :=
    .of_perform rfl (fun h hh => hfirst hh) rfl
  have houter : p₃.Step (.derive .i32 raw []) program :=
    .of_perform rfl (fun h hh => hfirst hh) rfl
  exact .cons hroutine (.cons hinner (.cons hinvoker (.cons houter .refl)))

end DerivedTwice

/-- The second pointer goes in order while the invoker is still held. -/
theorem Run.perform_blocks_iff_held :
    Run (start .inMemory) DerivedTwice.operations DerivedTwice.program ∧
      DerivedTwice.program.issued.length < 2 ^ 60 ∧
      DerivedTwice.program.perform (.drop 0) ≠ .error .deadlock ∧
      DerivedTwice.program.GoesInOrder 0 (.pointer DerivedTwice.outer) := by
  have hcount : DerivedTwice.program.issued.length < 2 ^ 60 := by decide
  obtain ⟨-, hblocks, -⟩ :=
    Run.perform_blocks_iff DerivedTwice.run hcount (.drop 0) fun h hh => nomatch hh
  have hcompletes : ∃ p, DerivedTwice.program.perform (.drop 0) = .ok p := ⟨_, rfl⟩
  have hok : DerivedTwice.program.perform (.drop 0) ≠ .error .deadlock := fun herror => by
    obtain ⟨p, hp⟩ := hcompletes
    cases hp.symm.trans herror
  refine ⟨DerivedTwice.run, hcount, hok, ?_⟩
  by_contra horder
  exact hok (hblocks.mpr ⟨0, _, .drop rfl, horder⟩)

/-- When the first pointer and the invoker are given up before, giving up the second pointer waits
    for the registry for ever. -/
theorem Run.perform_drop_blocks :
    ∃ p, Run (start .inMemory) (DerivedTwice.operations ++ [.drop 2, .drop 1]) p ∧
      p.handles[0]? = some (.pointer DerivedTwice.outer) ∧ p.machine.locked = false ∧
      p.perform (.drop 0) = .error .deadlock := by
  let p₁ : Program :=
    { DerivedTwice.program with handles := DerivedTwice.program.handles.eraseIdx 2 }
  let p₂ : Program := { DerivedTwice.program with handles := p₁.handles.eraseIdx 1 }
  have hinner : DerivedTwice.program.Step (.drop 2) p₁ :=
    .of_perform rfl (fun h hh => nomatch hh) rfl
  have hinvoker : p₁.Step (.drop 1) p₂ := .of_perform rfl (fun h hh => nomatch hh) rfl
  exact ⟨p₂, DerivedTwice.run.trans (.cons hinner (.cons hinvoker .refl)), rfl, rfl, rfl⟩

end Program

end DualCall
