import DualCall.Proofs.Ownership.Unification
import DualCall.Proofs.Session.Terms

namespace DualCall

theorem NativePointer.owner_of_ofAddress? {address : UInt64} {q : NativePointer}
    (hfound : ofAddress? address = some q) : q.owner = none := by
  unfold ofAddress? at hfound
  split at hfound <;> cases hfound
  rfl

theorem Samples.owner_of_lookup? {name : String} {q : NativePointer}
    (hfound : lookup? name = some q) : q.owner = none := by
  obtain ⟨address, -, rfl⟩ := Option.map_eq_some_iff.mp hfound
  rfl

theorem Library.owner_of_lookup {name : String} {library : Option String} {q : NativePointer}
    (hfound : lookup name library = .ok q) : q.owner = none := by
  unfold lookup at hfound
  cases library with
  | none =>
    dsimp only at hfound
    split at hfound <;> cases hfound
    rfl
  | some path =>
    dsimp only at hfound
    split at hfound
    · cases hfound
    · split at hfound
      · cases hfound
      · split at hfound <;> cases hfound
        rfl

namespace Session

variable {session session' : Session} {given : List Handle}

theorem held_eq (session : Session) : session.held = heldBy (session.registers.map Prod.snd) := by
  rw [held, heldBy, List.flatMap_map]

theorem run_onMachine {α : Type} (act : Act α) (session : Session) :
    (onMachine act).run session = match act.run session.machine with
      | .error cause => .error (.abort cause)
      | .ok (a, machine) => .ok (a, { session with machine := machine }) := by
  rw [onMachine]
  simp only [StateT.run_bind, StateT.run_get, pure_bind]
  cases act.run session.machine <;> rfl

theorem run_onMachine_eq_ok {α : Type} {act : Act α} {a : α}
    (hrun : (onMachine act).run session = .ok (a, session')) :
    ∃ machine, act.run session.machine = .ok (a, machine) ∧
      session' = { session with machine := machine } := by
  rw [run_onMachine] at hrun
  cases hact : act.run session.machine with
  | error cause =>
    rw [hact] at hrun
    cases hrun
  | ok result =>
    rw [hact] at hrun
    cases hrun
    exact ⟨_, rfl, rfl⟩

theorem run_release (owners : List UInt64) (session : Session) :
    (release owners).run session = (onMachine
      (Machine.release (heldBy (session.registers.map Prod.snd)) owners)).run session := by
  rw [← held_eq]
  rfl

theorem run_release_eq_ok {owners : List UInt64} {u : Unit}
    (hrun : (release owners).run session = .ok (u, session')) :
    ∃ machine, (Machine.release (heldBy (session.registers.map Prod.snd)) owners).run
        session.machine = .ok ((), machine) ∧ session' = { session with machine := machine } := by
  rw [run_release] at hrun
  exact run_onMachine_eq_ok hrun

/-- The registers apart from one. -/
def others (session : Session) (name : String) : List (String × Handle) :=
  session.registers.filter fun entry => entry.1 ≠ name

theorem others_of_none {name : String} (hregister : session.register? name = none) :
    session.others name = session.registers := by
  have hnone := List.find?_eq_none.mp (Option.map_eq_none_iff.mp hregister)
  exact List.filter_eq_self.mpr fun entry hentry => by simpa using hnone entry hentry

/-- What a register holds has a place among what all of them hold. -/
theorem exists_place {registers : List (String × Handle)} {name : String} {h : Handle}
    (hnames : (registers.map Prod.fst).Nodup)
    (hregister : (registers.find? fun entry => entry.1 = name).map (·.2) = some h) :
    ∃ place, (registers.map Prod.snd)[place]? = some h ∧
      (registers.map Prod.snd).eraseIdx place =
        (registers.filter fun entry => entry.1 ≠ name).map Prod.snd := by
  induction registers with
  | nil => cases hregister
  | cons entry rest ih =>
    obtain ⟨hnew, hrest⟩ := List.nodup_cons.mp hnames
    by_cases hname : entry.1 = name
    · have hothers : (rest.filter fun entry => entry.1 ≠ name) = rest := by
        refine List.filter_eq_self.mpr fun other hother => decide_eq_true fun hsame => hnew ?_
        rw [hname, ← hsame]
        exact List.mem_map_of_mem hother
      rw [List.find?_cons_of_pos (by simpa using hname)] at hregister
      refine ⟨0, hregister, ?_⟩
      rw [List.filter_cons_of_neg (by simpa using hname), hothers]
      rfl
    · rw [List.find?_cons_of_neg (by simpa using hname)] at hregister
      obtain ⟨place, hplace, herase⟩ := ih hrest hregister
      refine ⟨place + 1, by simpa using hplace, ?_⟩
      rw [List.filter_cons_of_pos (by simpa using hname), List.map_cons, List.map_cons,
        List.eraseIdx_cons_succ, herase]

theorem exists_place_program {front : List Handle} {issued : List (UInt64 × Code)} {name : String}
    {h : Handle} (hnames : (session.registers.map Prod.fst).Nodup)
    (hregister : session.register? name = some h) :
    ∃ place, (session.program front issued).handles[place]? = some h ∧
      (session.program front issued).handles.eraseIdx place =
        front ++ (session.others name).map Prod.snd := by
  obtain ⟨place, hplace, herase⟩ := exists_place hnames hregister
  refine ⟨front.length + place, ?_, ?_⟩
  · rw [program, List.getElem?_append_right (Nat.le_add_right _ _), Nat.add_sub_cancel_left,
      hplace]
  · rw [program, List.eraseIdx_append_of_length_le (Nat.le_add_right _ _),
      Nat.add_sub_cancel_left, herase]
    rfl

/-- A register is emptied. -/
theorem leads_others {front : List Handle} {issued : List (UInt64 × Code)} {name : String}
    {h : Handle} {machine : Machine} (hp : Program.Sound .inMemory (session.program front issued))
    (hnames : (session.registers.map Prod.fst).Nodup) (hregister : session.register? name = some h)
    (hrun : (Machine.release (heldBy (front ++ (session.others name).map Prod.snd)) h.owned).run
      session.machine = .ok ((), machine)) :
    (session.program front issued).Leads
      ⟨machine, front ++ (session.others name).map Prod.snd, issued⟩ := by
  obtain ⟨place, hplace, herase⟩ := exists_place_program hnames hregister
  have hperform : (session.program front issued).perform (.drop place) =
      .ok ((session.program front issued).after
        (front ++ (session.others name).map Prod.snd) machine) := by
    have hmachine : (session.program front issued).machine = session.machine := rfl
    rw [Program.perform_eq, Operation.act_drop hplace, herase, hmachine, hrun]
    rfl
  obtain ⟨s', hdrop, -⟩ | ⟨-, hdrop⟩ := hp.perform_drop hplace
  · have hsame := Except.ok.inj (hperform.symm.trans hdrop)
    obtain rfl : machine = s' := congrArg Program.machine hsame
    have hstep : (session.program front issued).Step (.drop place) _ :=
      .of_perform hp.backend (fun h hh => nomatch hh) hdrop
    rw [herase] at hstep
    exact .of_step hstep
  · cases hperform.symm.trans hdrop

/-- A handle is put into a register, and what the register held is given up. -/
theorem leads_store {left : List Handle} {issued : List (UInt64 × Code)} {name : String}
    {h : Handle} {u : Unit} (hp : Program.Sound .inMemory (session.program (h :: left) issued))
    (hnames : (session.registers.map Prod.fst).Nodup) (hfree : ∀ h ∈ left, h.owned = [])
    (hcount : issued.length < 2 ^ 60) (hrun : (store name h).run session = .ok (u, session')) :
    (session'.registers.map Prod.fst).Nodup ∧
      (session.program (h :: left) issued).Leads (session'.program [] issued) := by
  have hclean : (session.program (h :: left) issued).Leads (session.program [h] issued) :=
    Program.leads_drop_free hp.backend [h] left _ issued hfree
  have hp' := hclean.sound hp fun _ => hcount
  have hothers : (((name, h) :: session.others name).map Prod.fst).Nodup := by
    refine List.nodup_cons.mpr ⟨?_, hnames.sublist (List.filter_sublist.map _)⟩
    simp [others]
  obtain ⟨s, s', hget, hrun⟩ := run_bind_eq_ok hrun
  cases hget
  obtain ⟨_, s', hset, hrun⟩ := run_bind_eq_ok hrun
  cases hset
  cases hregister : session.register? name with
  | none =>
    rw [hregister] at hrun
    cases hrun
    have hsame : session.program [h] issued =
        ⟨session.machine, h :: (session.others name).map Prod.snd, issued⟩ := by
      rw [others_of_none hregister]
      rfl
    rw [hsame] at hclean
    exact ⟨hothers, hclean⟩
  | some old =>
    rw [hregister] at hrun
    obtain ⟨machine, hrelease, rfl⟩ := run_release_eq_ok hrun
    exact ⟨hothers, hclean.trans (leads_others hp' hnames hregister hrelease)⟩

/-- What holds before the last part of a step, which may need a word for the address of a code. -/
structure Ready (session : Session) (left : List Handle) (issued : List (UInt64 × Code)) :
    Prop where
  sound : Program.Sound .inMemory (session.program left issued)
  names : (session.registers.map Prod.fst).Nodup
  free : ∀ h ∈ left, h.owned = []
  count : issued.length + 1 < 2 ^ 60

/-- A computation that ends a step: nothing is left over, and at most one code was issued. -/
def Finishes {α : Type} (given : List Handle) (x : SessionM α) : Prop :=
  ∀ session left issued, Ready session left issued →
    (∀ h ∈ given, (session.program left issued).Available h) →
    ∀ a session', x.run session = .ok (a, session') →
      ∃ issued', issued'.length ≤ issued.length + 1 ∧
        (session'.registers.map Prod.fst).Nodup ∧
        (session.program left issued).Leads (session'.program [] issued')

namespace Finishes

variable {α β : Type}

theorem of_bind {x : SessionM α} {next : α → SessionM β} {first : α → List Handle}
    (hx : Evaluates given x first) (hnext : ∀ a, Finishes (first a ++ given) (next a)) :
    Finishes given (x >>= next) := by
  intro session left issued hready hgiven b session' hrun
  obtain ⟨a, session₁, hfirst, hsecond⟩ := run_bind_eq_ok hrun
  obtain ⟨hreads, made, hfree, hleads, hyields⟩ :=
    hx session left issued hready.sound.backend hgiven a session₁ hfirst
  have hready' : Ready session₁ (made ++ left) issued := {
    sound := hleads.sound hready.sound fun _ => Nat.lt_of_succ_lt hready.count
    names := hreads.registers ▸ hready.names
    free := fun h hh => (List.mem_append.mp hh).elim (hfree h) (hready.free h)
    count := hready.count }
  have hgiven' (h : Handle) (hh : h ∈ first a ++ given) :
      (session₁.program (made ++ left) issued).Available h :=
    (List.mem_append.mp hh).elim (hyields h) fun hh => hreads.available (hgiven h hh)
  obtain ⟨issued', hcount, hnames, hleads'⟩ :=
    hnext a session₁ (made ++ left) issued hready' hgiven' b session' hsecond
  exact ⟨issued', hcount, hnames, hleads.trans hleads'⟩

theorem map {x : SessionM α} (hx : Finishes given x) (f : α → β) :
    Finishes given (do return f (← x)) := by
  intro session left issued hready hgiven b session' hrun
  obtain ⟨a, session₁, hfirst, hsecond⟩ := run_bind_eq_ok hrun
  cases hsecond
  exact hx session left issued hready hgiven a _ hfirst

theorem pure (a : α) : Finishes given (Pure.pure a) := by
  intro session left issued hready _ a session' hrun
  cases hrun
  exact ⟨issued, Nat.le_succ _, hready.names,
    Program.leads_drop_free hready.sound.backend [] left _ issued hready.free⟩

theorem stop (why : Stop) : Finishes given (throw why : SessionM α) := by
  intro session left issued _ _ a session' hrun
  cases hrun

theorem answer (reply : Reply) : Finishes given (answer reply) :=
  .pure _

/-- A call of a procedure is an operation of its own, which leaves the program as it is. -/
theorem callProcedure {p : Procedure} {args : List Value}
    (hinputs : .value (.procedure p) :: args.map .value ⊆ given) :
    Finishes given (callProcedure p args) := by
  intro session left issued hready hgiven a session' hrun
  obtain ⟨s, s', hget, hrun⟩ := run_bind_eq_ok hrun
  cases hget
  let before : Activity := { memory := session.memory }
  have hclean : (session.program left issued).Leads (session.program [] issued) :=
    Program.leads_drop_free hready.sound.backend [] left _ issued hready.free
  cases hcall : (session.machine.call Machine.callDepth p args).run before with
  | error cause =>
    rw [hcall] at hrun
    cases hrun
  | ok result =>
    rw [hcall] at hrun
    cases hrun
    have hperform := Program.perform_call (session.program left issued) Machine.callDepth p args
      before
    have hmachine : (session.program left issued).machine = session.machine := rfl
    rw [hmachine, hcall] at hperform
    have hstep : (session.program left issued).Step (.call Machine.callDepth p args before)
        (session.program left issued) :=
      .of_perform hready.sound.backend (fun h hh => hgiven h (hinputs hh)) hperform
    exact ⟨issued, Nat.le_succ _, hready.names, (Program.Leads.of_step hstep).trans hclean⟩

/-- Something that is available is put into a register. -/
theorem store {result : Except CallError α} {handle : α → Handle} (into : String)
    (havailable : ∀ a, result = .ok a → ∀ p : Program, (∀ h ∈ given, p.Available h) →
      p.Available (handle a)) : Finishes given (storeResult into handle result) := by
  cases result with
  | error e => exact .pure _
  | ok a =>
    intro session left issued hready hgiven b session' hrun
    obtain ⟨u, session₁, hstore, hrun⟩ := run_bind_eq_ok hrun
    cases hrun
    have hstep : (session.program left issued).Step (.copy (handle a))
        (session.program (handle a :: left) issued) := by
      refine .of_perform hready.sound.backend (fun h hh => ?_) (Program.perform_copy _ _)
      obtain rfl := List.mem_singleton.mp hh
      exact havailable a rfl _ hgiven
    have hcount := Nat.lt_of_succ_lt hready.count
    have hcopy := Program.Leads.of_step hstep
    obtain ⟨hnames, hleads⟩ := leads_store (hcopy.sound hready.sound fun _ => hcount) hready.names
      hready.free hcount hstore
    exact ⟨issued, Nat.le_succ _, hnames, hcopy.trans hleads⟩

/-- What an operation of the program makes is put into a register. -/
theorem make {act : Act β} {handle : α → Handle} (result : β → Except CallError α) (op : Operation)
    (hact : ∀ handles, op.act handles = do
      return Operation.receive handle handles (result (← act)))
    (htakes : op.place? = none) (hinputs : op.inputs ⊆ given) (into : String) :
    Finishes given (do storeResult into handle (result (← onMachine act))) := by
  intro session left issued hready hgiven b session' hrun
  obtain ⟨made, session₁, hfirst, hrun⟩ := run_bind_eq_ok hrun
  obtain ⟨machine, hmade, rfl⟩ := run_onMachine_eq_ok hfirst
  let handles := Operation.receive handle (left ++ session.registers.map Prod.snd) (result made)
  have hperform : (session.program left issued).perform op =
      .ok ((session.program left issued).after handles machine) := by
    have hmachine : (session.program left issued).machine = session.machine := rfl
    rw [Program.perform_eq, hact, hmachine, run_bind_of_ok hmade]
    rfl
  have hkeeping := (session.program left issued).keeping_of_none htakes
  have hstep := Program.Step.of_perform hready.sound.backend
    (fun h hh => hkeeping.symm ▸ hgiven h (hinputs hh)) hperform
  have hleads := Program.Leads.of_step hstep
  obtain ⟨hp, new, hissues, -⟩ := hready.sound.step (fun _ => Nat.lt_of_succ_lt hready.count) hstep
  have hcount := hissues.length_le
  cases hresult : result made with
  | error e =>
    simp only [handles, hresult] at hrun hp hleads
    cases hrun
    refine ⟨_, hcount, hready.names, hleads.trans ?_⟩
    exact Program.leads_drop_free hp.backend [] left _ _ hready.free
  | ok a =>
    simp only [handles, hresult] at hrun hp hleads
    obtain ⟨u, session₁, hstore, hrun⟩ := run_bind_eq_ok hrun
    cases hrun
    have hp' : Program.Sound .inMemory
      ({ session with machine := machine }.program (handle a :: left) _) := hp
    obtain ⟨hnames, hleads'⟩ := leads_store hp' hready.names hready.free
      (Nat.lt_of_le_of_lt hcount hready.count) hstore
    exact ⟨_, hcount, hnames, hleads.trans hleads'⟩

theorem congr {x y : SessionM α} (hy : Finishes given y)
    (hsame : ∀ session left issued, Ready session left issued →
      (∀ h ∈ given, (session.program left issued).Available h) → x.run session = y.run session) :
    Finishes given x := by
  intro session left issued hready hgiven a session' hrun
  rw [hsame session left issued hready hgiven] at hrun
  exact hy session left issued hready hgiven a session' hrun

/-- A copy of what a register keeps is unified. -/
theorem unify {ret : NativeType} {behavior : Behavior} {specs : List ArgSpec}
    (hinputs : (Operation.unify ret behavior specs).inputs ⊆ given) (into : String) :
    Finishes given (do
      let outside := (← get).held
      storeResult into unifiedHandle
        (← onMachine (Machine.unifyTaken outside ret behavior specs))) := by
  have hmake : Finishes given (do
      storeResult into unifiedHandle (id (← onMachine (Machine.unify ret behavior specs)))) :=
    .make id (.unify ret behavior specs) (fun _ => rfl) rfl hinputs into
  refine hmake.congr fun session left issued hready hgiven => ?_
  have hkept (a : UInt64) (ha : a ∈ behavior.owned) :
      a ∈ session.held ∨ HeldByCode session.machine.codes a := by
    have havailable := hgiven behavior.handle (hinputs List.mem_cons_self)
    rw [← behavior.owned_handle] at ha
    refine (havailable.kept ha).imp_left fun hheld => ?_
    obtain ⟨h, hh, howned⟩ := mem_heldBy.mp hheld
    obtain hleft | hregister := List.mem_append.mp hh
    · rw [hready.free h hleft] at howned
      cases howned
    · rw [held_eq]
      exact mem_heldBy.mpr ⟨h, hregister, howned⟩
  have hfree : session.machine.locked = false := hready.sound.free
  have hsame : (onMachine (Machine.unifyTaken session.held ret behavior specs)).run session =
      (onMachine (Machine.unify ret behavior specs)).run session := by
    rw [run_onMachine, run_onMachine, Machine.run_unifyTaken_of_kept hfree hkept]
  simp only [StateT.run_bind, StateT.run_get, pure_bind, hsame, id]

/-- A new routine is registered, and nothing else holds it then. -/
theorem register {name : String} {captured : List Value} (body : Routine)
    (hcaptured : captured.map .value ⊆ given) (into : String) :
    Finishes given (do
      let p ← onMachine (Machine.newRoutine name captured body)
      storeHandle into (.pointer (← onMachine (Machine.register p)))) := by
  intro session left issued hready hgiven b session' hrun
  obtain ⟨p, session₁, hfirst, hrun⟩ := run_bind_eq_ok hrun
  obtain ⟨machine₁, hroutine, rfl⟩ := run_onMachine_eq_ok hfirst
  obtain ⟨q, session₂, hsecond, hrun⟩ := run_bind_eq_ok hrun
  obtain ⟨machine₂, hregister, rfl⟩ := run_onMachine_eq_ok hsecond
  obtain ⟨u, session₃, hstore, hrun⟩ := run_bind_eq_ok hrun
  cases hrun
  have hstep : (session.program left issued).Step (.routine name captured body)
      ({ session with machine := machine₁ }.program (.value (.procedure p) :: left) issued) := by
    refine .of_perform hready.sound.backend (fun h hh => hgiven h (hcaptured hh)) ?_
    cases hroutine
    exact Program.perform_routine _ name captured body
  have hleads := Program.Leads.of_step hstep
  have hp := hleads.sound hready.sound fun _ => Nat.lt_of_succ_lt hready.count
  obtain ⟨entry, hregistered⟩ := hp.leads_register rfl hregister
  have hleads' := hleads.trans hregistered
  have hp' : Program.Sound .inMemory
      ({ session with machine := machine₂ }.program (.pointer q :: left) (entry :: issued)) :=
    hleads'.sound hready.sound fun _ => hready.count
  obtain ⟨hnames, hlast⟩ := leads_store hp' hready.names hready.free hready.count hstore
  exact ⟨entry :: issued, Nat.le_refl _, hnames, hleads'.trans hlast⟩

theorem erase (name : String) : Finishes given (erase name) := by
  intro session left issued hready _ b session' hrun
  have hclean : (session.program left issued).Leads (session.program [] issued) :=
    Program.leads_drop_free hready.sound.backend [] left _ issued hready.free
  have hp := hclean.sound hready.sound fun _ => Nat.lt_of_succ_lt hready.count
  obtain ⟨s, s', hget, hrun⟩ := run_bind_eq_ok hrun
  cases hget
  cases hregister : session.register? name with
  | none =>
    rw [hregister] at hrun
    cases hrun
    exact ⟨issued, Nat.le_succ _, hready.names, hclean⟩
  | some old =>
    rw [hregister] at hrun
    obtain ⟨_, s', hset, hrun⟩ := run_bind_eq_ok hrun
    cases hset
    obtain ⟨u, s', hrelease, hrun⟩ := run_bind_eq_ok hrun
    cases hrun
    obtain ⟨machine, hmachine, rfl⟩ := run_release_eq_ok hrelease
    exact ⟨issued, Nat.le_succ _, hready.names.sublist (List.filter_sublist.map _),
      hclean.trans (leads_others hp hready.names hregister hmachine)⟩

end Finishes

theorem Evaluates.allocate (words : List UInt64) :
    Evaluates given (allocate words) fun start => [.memory start] := by
  refine of_unchanged fun session start session' hrun => ?_
  cases hrun
  refine ⟨rfl, rfl, fun left issued _ h hh => ?_⟩
  obtain rfl := List.mem_singleton.mp hh
  exact .memory _

/-- Every step of a session is a few operations of the program, of which at most one makes code. -/
theorem finishes_perform (step : Step) (hliteral : Literal step.terms) :
    Finishes [] (perform step) := by
  cases step with
  | procedure into name routine =>
    refine .of_bind (Evaluates.build hliteral) fun built => ?_
    obtain ⟨captured, body⟩ := built
    let handle (p : Procedure) : Except CallError Handle := .ok (.value (.procedure p))
    have hmake : Finishes (captured.map .value ++ []) (do
        storeResult into id (handle (← onMachine (Machine.newRoutine name captured body)))) :=
      .make handle (.routine name captured body) (fun _ => rfl) rfl (List.subset_append_left _ _)
        into
    exact hmake
  | value into term =>
    refine .of_bind (Evaluates.eval hliteral) fun v => .store into fun h hh p hp => ?_
    cases hh
    exact hp _ List.mem_cons_self
  | register into name routine =>
    refine .of_bind (Evaluates.build hliteral) fun built => ?_
    obtain ⟨captured, body⟩ := built
    exact .register body (List.subset_append_left _ _) into
  | sample into name =>
    rw [perform]
    cases hfound : Samples.lookup? name with
    | none => exact .stop _
    | some q =>
      refine .store into fun h hh p _ => ?_
      cases hh
      exact .of_owner_none (Samples.owner_of_lookup? hfound)
  | symbol into name library =>
    exact .store into fun q hq p _ => .of_owner_none (Library.owner_of_lookup hq)
  | pointer into address =>
    rw [perform]
    cases hfound : NativePointer.ofAddress? address with
    | none => exact .answer _
    | some q =>
      refine .store into fun h hh p _ => ?_
      cases hh
      exact .of_owner_none (NativePointer.owner_of_ofAddress? hfound)
  | own into name =>
    refine .of_bind (Evaluates.pointer name) fun q => .store into fun h hh p _ => ?_
    cases hh
    exact .foreign q.address
  | memory into words =>
    refine .of_bind (Evaluates.allocate words) fun start => .store into fun h hh p _ => ?_
    cases hh
    exact .memory start
  | peek name =>
    refine .of_bind (Evaluates.read name) fun h => ?_
    cases h with
    | value | pointer => exact .stop _
    | memory start => exact .of_bind Evaluates.state fun session => .answer _
  | unify into ret behavior specs =>
    refine .of_bind (Evaluates.evalSpecs hliteral) fun specs => ?_
    refine .of_bind (Evaluates.behavior behavior) fun behavior => ?_
    exact .unify (by simp [Operation.inputs]) into
  | unifyValue into ret term specs =>
    refine .of_bind (Evaluates.evalSpecs (hliteral.of_subset (by simp [Step.terms])))
      fun specs => ?_
    refine .of_bind (Evaluates.eval (hliteral.of_subset (by simp [Step.terms]))) fun v => ?_
    exact .make id (.unifyValue ret v specs) (fun _ => rfl) rfl (by simp [Operation.inputs]) into
  | invoker into ret name types =>
    refine .of_bind (Evaluates.pointer name) fun q => ?_
    exact .make id (.invoker ret q types) (fun _ => rfl) rfl (by simp [Operation.inputs]) into
  | derive into ret name types =>
    refine .of_bind (Evaluates.procedure name) fun q => ?_
    exact .make id (.derive ret q types) (fun _ => rfl) rfl (by simp [Operation.inputs]) into
  | takeProcedure into name =>
    refine .of_bind (Evaluates.procedure name) fun q => .store into fun h hh p hp => ?_
    cases hh
    exact hp _ List.mem_cons_self
  | takePointer into name =>
    refine .of_bind (Evaluates.read name) fun h => .store into fun q hq p hp => ?_
    cases h with
    | pointer | memory => cases hq
    | value v =>
      cases v with
      | unified c =>
        cases hq
        exact (hp _ List.mem_cons_self).part (.pointer c)
      | null | bool | int | float | pointer | procedure => cases hq
  | call name args =>
    refine .of_bind (Evaluates.procedure name) fun q => ?_
    refine .of_bind (Evaluates.evalAll hliteral) fun args => .callProcedure ?_
    simp
  | introspect | inspect | serializable =>
    exact .of_bind (Evaluates.eval hliteral) fun v => .answer _
  | facets name =>
    refine .of_bind (Evaluates.read name) fun h => ?_
    split
    · exact .answer _
    · exact .stop _
  | equal left right =>
    refine .of_bind (Evaluates.eval (hliteral.of_subset (by simp [Step.terms]))) fun l => ?_
    exact .of_bind (Evaluates.eval (hliteral.of_subset (by simp [Step.terms]))) fun r => .answer _
  | samePointer left right =>
    refine .of_bind (Evaluates.pointer left) fun l => ?_
    exact .of_bind (Evaluates.pointer right) fun r => .answer _
  | stats => exact .of_bind Evaluates.state fun session => .answer _
  | drop name =>
    exact (Finishes.erase name).map fun held => ({ answer := .ok (.flag held) } : StepResult)

/-- Steps lead from a session to another one as operations do from the program of the one to that
    of the other. -/
theorem leads_of_mapM {issued : List (UInt64 × Code)} {steps : List Step}
    (hp : Program.Sound .inMemory (session.program [] issued))
    (hnames : (session.registers.map Prod.fst).Nodup)
    (hliteral : ∀ step ∈ steps, Literal step.terms)
    (hcount : issued.length + steps.length < 2 ^ 60) {results : List StepResult}
    (hrun : (steps.mapM perform).run session = .ok (results, session')) :
    ∃ issued', issued'.length ≤ issued.length + steps.length ∧
      (session'.registers.map Prod.fst).Nodup ∧
      (session.program [] issued).Leads (session'.program [] issued') := by
  induction steps generalizing session issued results with
  | nil =>
    cases hrun
    exact ⟨issued, Nat.le_refl _, hnames, .refl _⟩
  | cons step steps ih =>
    obtain ⟨hfirst, hrest⟩ := List.forall_mem_cons.mp hliteral
    rw [List.mapM_cons] at hrun
    obtain ⟨result, session₁, hstep, hrun⟩ := run_bind_eq_ok hrun
    obtain ⟨results', session₂, hsteps, hrun⟩ := run_bind_eq_ok hrun
    cases hrun
    rw [List.length_cons] at hcount ⊢
    have hready : Ready session [] issued :=
      ⟨hp, hnames, fun h hh => (List.not_mem_nil hh).elim, by omega⟩
    obtain ⟨issued₁, hissued₁, hnames₁, hleads₁⟩ := finishes_perform step hfirst session [] issued
      hready (fun h hh => (List.not_mem_nil hh).elim) result session₁ hstep
    have hp₁ := hleads₁.sound hp fun _ => by
      change issued₁.length < _
      omega
    obtain ⟨issued₂, hissued₂, hnames₂, hleads₂⟩ := ih hp₁ hnames₁ hrest (by omega) hsteps
    exact ⟨issued₂, by omega, hnames₂, hleads₁.trans hleads₂⟩

/-- After any steps in memory, the registers hold what a program holds after some operations, on the
    same machine. -/
theorem exists_run_of_mapM {steps : List Step} (hliteral : ∀ step ∈ steps, Literal step.terms)
    (hcount : steps.length < 2 ^ 60) {results : List StepResult}
    (hrun : (steps.mapM perform).run inMemory = .ok (results, session)) :
    ∃ ops issued, Program.Run (Program.start .inMemory) ops (session.program [] issued) ∧
      issued.length ≤ steps.length := by
  have hstart : Program.Sound .inMemory (inMemory.program [] []) := .ofStart rfl rfl
  obtain ⟨issued, hissued, -, ops, hops⟩ :=
    leads_of_mapM hstart List.nodup_nil hliteral (by simpa using hcount) hrun
  exact ⟨ops, issued, hops, by simpa using hissued⟩

/-- A step that drops a register waits for the registry for ever exactly when the codes that go with
    the handle do not go in order. -/
theorem run_drop_eq_deadlock_iff {issued : List (UInt64 × Code)} {name : String} {h : Handle}
    (hp : Program.Sound .inMemory (session.program [] issued))
    (hnames : (session.registers.map Prod.fst).Nodup)
    (hregister : session.register? name = some h) :
    ∃ place, (session.program [] issued).handles[place]? = some h ∧
      ((perform (.drop name)).run session = .error (.abort .deadlock) ↔
        ¬ (session.program [] issued).GoesInOrder place h) := by
  obtain ⟨place, hplace, herase⟩ := exists_place_program hnames hregister
  refine ⟨place, hplace, ?_⟩
  rw [← hp.perform_drop_iff hp.backend hplace, Program.perform_eq, Operation.act_drop hplace,
    herase]
  have hmachine : (session.program [] issued).machine = session.machine := rfl
  have hrun : (perform (.drop name)).run session = (do
      release h.owned
      answer (.flag true)).run { session with registers := session.others name } := by
    rw [perform, erase]
    simp [hregister, others]
  rw [hmachine, hrun, StateT.run_bind, run_release, run_onMachine]
  rw [List.nil_append]
  cases (Machine.release (heldBy ((session.others name).map Prod.snd)) h.owned).run
    session.machine with
  | error cause =>
    constructor
    · intro hcause
      cases hcause
      rfl
    · intro hcause
      cases hcause
      rfl
  | ok result =>
    exact iff_of_false (fun herror => by cases herror) fun herror => by cases herror

end Session

end DualCall
