import DualCall.Proofs.Call.Adapter
import DualCall.Proofs.Native.Domain

namespace DualCall

/-- The values of arguments in words: each word is read as the type declared at its position. -/
structure Decoded (types : List NativeType) (words : List UInt64) (values : List Value) : Prop where
  length_eq : values.length = types.length
  getElem?_eq : ∀ (i : Nat) type word, types[i]? = some type → words[i]? = some word →
    values[i]? = some (.ofWord type word)

theorem decoded_zipWith {types : List NativeType} {words : List UInt64}
    (hwords : words.length = types.length) :
    Decoded types words (List.zipWith Value.ofWord types words) := by
  refine ⟨by simp [hwords], fun i type word htype hword => ?_⟩
  rw [List.getElem?_zipWith, htype, hword]

/-- Only one list of values is read from words. -/
theorem Decoded.eq_zipWith {types : List NativeType} {words : List UInt64} {values : List Value}
    (hwords : words.length = types.length) (hvalues : Decoded types words values) :
    values = List.zipWith Value.ofWord types words := by
  have hlength : (List.zipWith Value.ofWord types words).length = types.length :=
    (decoded_zipWith hwords).length_eq
  apply List.ext_getElem (hvalues.length_eq.trans hlength.symm)
  intro i hi hi'
  have htype := List.getElem?_eq_getElem (hlength ▸ hi')
  have hword := List.getElem?_eq_getElem (hwords ▸ hlength ▸ hi')
  have hvalue := hvalues.getElem?_eq i _ _ htype hword
  rw [List.getElem?_eq_getElem hi] at hvalue
  rw [List.getElem_zipWith]
  exact Option.some.inj hvalue

/-- A result that converts fills the whole slot, whatever was there. -/
theorem toBitVec_fillSlot {position : Nat} {ret : NativeType} {v : Value} {x : Scalar}
    (hx : Scalar.marshal position ret v = .ok x) (slot : UInt64) :
    (fillSlot ret (.value v) slot).toBitVec = x.extended := by
  have hcleared : slot &&& 0 = 0 := by simp
  simp only [fillSlot, Scalar.marshal_eq_ok_iff.mp hx, hcleared, Scalar.toBitVec_store_zero]

/-- Without a result that the type takes the slot is cleared, whatever was there. -/
theorem fillSlot_of_not_fits {ret : NativeType} {outcome : Outcome}
    (houtcome : ∀ v, outcome = .value v → ¬ v.Fits ret) (slot : UInt64) :
    fillSlot ret outcome slot = 0 := by
  have hcleared : slot &&& 0 = 0 := by simp
  cases outcome with
  | value v =>
    have hnone : Scalar.ofValue? ret v = none := by
      apply Option.eq_none_iff_forall_ne_some.mpr
      intro x hx
      exact houtcome v rfl (Scalar.exists_ofValue?_iff.mp ⟨x, hx⟩)
    simp only [fillSlot, hnone, hcleared]
  | failure e => exact hcleared
  | panic => exact hcleared

/-- The slot does not remember what was there. -/
theorem fillSlot_eq (ret : NativeType) (outcome : Outcome) (slot slot' : UInt64) :
    fillSlot ret outcome slot = fillSlot ret outcome slot' := by
  simp only [fillSlot, UInt64.and_zero]

section

variable {call : Procedure → List Value → Effect Outcome} {code : Code} {words : List UInt64}
  {slot : UInt64} {before : Activity}

theorem run_enterCode_of_ok {outcome : Outcome} {after : Activity}
    (hcall : (call code.procedure (List.zipWith Value.ofWord code.types words)).run before =
      .ok (outcome, after)) :
    (enterCode call code words slot).run before =
      .ok (fillSlot code.ret outcome slot, after) := by
  rw [enterCode, run_bind_of_ok hcall]
  rfl

/-- Nothing but the call of the procedure can keep the entry from coming back. -/
theorem run_enterCode_eq_error_iff {cause : Abort} :
    (enterCode call code words slot).run before = .error cause ↔
      (call code.procedure (List.zipWith Value.ofWord code.types words)).run before =
        .error cause := by
  cases hcall : (call code.procedure (List.zipWith Value.ofWord code.types words)).run before with
  | ok result =>
    rw [run_enterCode_of_ok hcall]
    simp
  | error cause' =>
    rw [enterCode, StateT.run_bind, hcall]
    constructor <;> (intro h; cases h; rfl)

end

/-- Code is entered with a word for each of its arguments and any return slot. Its procedure is
    called once, with the values that the words are read as; a traced routine is recorded once. If
    the procedure comes to an end, by whatever outcome, the entry comes back. It leaves in the slot
    the scalar that a returned value converts to, on the whole width of the slot, and zero when
    there is none: for void, after a failure or a panic, and for a value that the return type does
    not take. -/
theorem run_enterCode {code : Code} {words : List UInt64}
    (hwords : words.length = code.types.length) :
    ∃ values, Decoded code.types words values ∧
      ∀ outcome, ∃ left : UInt64,
        (∀ v x, outcome = .value v → Scalar.marshal 0 code.ret v = .ok x →
          left.toBitVec = x.extended) ∧
        ((∀ v, outcome = .value v → ¬ v.Fits code.ret) → left = 0) ∧
        ∀ slot,
          (∀ (call : Procedure → List Value → Effect Outcome) (before after : Activity),
            (call code.procedure values).run before = .ok (outcome, after) →
            (enterCode call code words slot).run before = .ok (left, after)) ∧
          (∀ (call : Procedure → List Value → Effect Outcome) (before : Activity) (cause : Abort),
            (enterCode call code words slot).run before = .error cause →
            (call code.procedure values).run before = .error cause) ∧
          ∀ (s : Machine) (depth : Nat) (captured : List Value)
            (answer : List Value → Memory → Outcome) (before : Activity),
            code.procedure.body = .routine captured →
            (s.routines code.procedure.identity).traced →
            (∀ args memory, (s.routines code.procedure.identity).run args memory =
              .finish (answer args memory)) →
            answer values before.memory = outcome →
            (enterCode (s.call (depth + 1)) code words slot).run before = .ok (left,
              { before with entered := before.entered ++ [⟨code.procedure.name, values⟩] }) := by
  refine ⟨_, decoded_zipWith hwords, fun outcome => ⟨fillSlot code.ret outcome 0, ?_, ?_,
    fun slot => ⟨?_, ?_, ?_⟩⟩⟩
  · rintro v x rfl hx
    exact toBitVec_fillSlot hx 0
  · intro houtcome
    exact fillSlot_of_not_fits houtcome 0
  · intro call before after hcall
    rw [run_enterCode_of_ok hcall, fillSlot_eq]
  · intro call before cause herror
    exact run_enterCode_eq_error_iff.mp herror
  · rintro s depth captured answer before hbody htraced hanswer rfl
    have hcall := Machine.run_call_routine hbody htraced hanswer depth
      (List.zipWith Value.ofWord code.types words) before
    rw [run_enterCode_of_ok hcall, fillSlot_eq]

/-- A number of 32 bits leaves zeros in the upper half of a slot that was full, and a number just
    out of range leaves only zeros. -/
theorem run_enterCode_full_slot :
    let answer : List Value → Memory → Outcome
      | [.float _, .bool true], _ => .value (.float ⟨0x3fe0000000000000⟩)
      | _, _ => .value (.int 128)
    let routine : Routine := ⟨true, fun args memory => .finish (answer args memory)⟩
    let s := { Machine.native fun _ => none with routines := fun _ => routine }
    let p : Procedure := ⟨0, "half", .routine []⟩
    let single : Code := ⟨p, .f32, [.f32, .bool], false⟩
    let byte : Code := ⟨p, .i8, [.bool], false⟩
    [(0xabcdef013f800000 : UInt64), 0xff01].length = single.types.length ∧
      [(0xff00 : UInt64)].length = byte.types.length ∧
      (enterCode (s.call 1) single [0xabcdef013f800000, 0xff01] 0xffffffffffffffff).run {} =
        .ok (0x3f000000, { entered := [⟨"half", [.float ⟨0x3ff0000000000000⟩, .bool true]⟩] }) ∧
      (enterCode (s.call 1) byte [0xff00] 0xffffffffffffffff).run {} =
        .ok (0, { entered := [⟨"half", [.bool false]⟩] }) := by
  intro answer routine s p single byte
  have hsingle : [(0xabcdef013f800000 : UInt64), 0xff01].length = single.types.length := rfl
  have hbyte : [(0xff00 : UInt64)].length = byte.types.length := rfl
  refine ⟨hsingle, hbyte, ?_, ?_⟩
  · obtain ⟨values, hvalues, hentry⟩ := run_enterCode hsingle
    obtain ⟨left, himage, -, hslot⟩ := hentry (.value (.float ⟨0x3fe0000000000000⟩))
    have hread : values = [.float ⟨0x3ff0000000000000⟩, .bool true] := by
      rw [hvalues.eq_zipWith hsingle]
      have hone : (Binary32.mk 0x3f800000).widen = ⟨0x3ff0000000000000⟩ := by decide +kernel
      exact congrArg (fun x => [Value.float x, .bool true]) hone
    have hmarshal : Scalar.marshal 0 single.ret (.float ⟨0x3fe0000000000000⟩) =
        .ok (.f32 ⟨0x3f000000⟩) := Scalar.marshal_eq_ok_iff.mpr (by decide +kernel)
    have hleft : left = 0x3f000000 := by
      rw [← UInt64.toBitVec_inj]
      exact himage _ _ rfl hmarshal
    have hrun := (hslot 0xffffffffffffffff).2.2 s 0 [] answer {} rfl rfl (fun _ _ => rfl)
    rw [hread, hleft] at hrun
    exact hrun rfl
  · obtain ⟨values, hvalues, hentry⟩ := run_enterCode hbyte
    obtain ⟨left, -, hzero, hslot⟩ := hentry (.value (.int 128))
    have hread : values = [.bool false] := hvalues.eq_zipWith hbyte
    have hleft : left = 0 := by
      apply hzero
      rintro v hv ⟨n, hn, -, hhigh⟩
      cases hv
      cases hn
      revert hhigh
      decide
    have hrun := (hslot 0xffffffffffffffff).2.2 s 0 [] answer {} rfl rfl (fun _ _ => rfl)
    rw [hread, hleft] at hrun
    exact hrun rfl

end DualCall
