import DualCall.Proofs.Ownership.Balance
import DualCall.Session.Basic
import Mathlib.Logic.Relation

namespace DualCall

/-- The owners that handles hold. -/
def heldBy (handles : List Handle) : List UInt64 :=
  handles.flatMap Handle.owned

theorem mem_heldBy {handles : List Handle} {address : UInt64} :
    address ∈ heldBy handles ↔ ∃ h ∈ handles, address ∈ h.owned :=
  List.mem_flatMap

namespace Handle

/-- What a handle is made of. -/
inductive Part : Handle → Handle → Prop where
  | procedure (c : Callable) : Part (.value (.unified c)) (.value (.procedure c.procedure))
  | pointer (c : Callable) : Part (.value (.unified c)) (.pointer c.pointer)
  | default {c : Callable} {v : Value} (hdefault : some v ∈ c.defaults) :
    Part (.value (.unified c)) (.value v)
  | captured {p : Procedure} {captured : List Value} {v : Value}
    (hbody : p.body = .routine captured) (hv : v ∈ captured) :
    Part (.value (.procedure p)) (.value v)
  | called {p : Procedure} {ret : NativeType} {pointer : NativePointer} {types : List NativeType}
    (hbody : p.body = .invoker ret pointer types) : Part (.value (.procedure p)) (.pointer pointer)
  | adapted {p raw : Procedure} {arity : Arity} {optional : List Value}
    (hbody : p.body = .adapter raw arity optional) :
    Part (.value (.procedure p)) (.value (.procedure raw))
  | optional {p raw : Procedure} {arity : Arity} {optional : List Value} {v : Value}
    (hbody : p.body = .adapter raw arity optional) (hv : v ∈ optional) :
    Part (.value (.procedure p)) (.value v)

/-- What a handle is made of, at any depth, and the handle itself. -/
def Within : Handle → Handle → Prop := Relation.ReflTransGen Part

end Handle

theorem mem_ownedByAll {values : List Value} {address : UInt64} :
    address ∈ ownedByAll values ↔ ∃ v ∈ values, address ∈ v.owned := by
  induction values with
  | nil => simp [ownedByAll]
  | cons v rest ih => simp [ownedByAll, ih]

theorem mem_ownedByDefaults {defaults : List (Option Value)} {address : UInt64} :
    address ∈ ownedByDefaults defaults ↔ ∃ v, some v ∈ defaults ∧ address ∈ v.owned := by
  induction defaults with
  | nil => simp [ownedByDefaults]
  | cons default rest ih => cases default <;> simp [ownedByDefaults, ih, or_and_right, exists_or]

theorem Procedure.owned_eq (p : Procedure) : p.owned = p.body.owned := by
  cases p
  rw [Procedure.owned]

theorem Callable.owned_eq (c : Callable) :
    c.owned = c.procedure.owned ++ c.pointer.owned ++ ownedByDefaults c.defaults := by
  cases c
  rw [Callable.owned]

theorem NativePointer.mem_owned {q : NativePointer} {address : UInt64} :
    address ∈ q.owned ↔ q.owner = some (.generated address) := by
  obtain ⟨_, owner⟩ := q
  cases owner with
  | none => simp [owned]
  | some owner => cases owner <;> simp [owned, Owner.owned, eq_comm]

namespace Handle

theorem Part.mem_owned {h h' : Handle} (hpart : h.Part h') {address : UInt64}
    (howned : address ∈ h'.owned) : address ∈ h.owned := by
  cases hpart with
  | procedure c =>
    change address ∈ c.owned
    rw [c.owned_eq]
    exact List.mem_append_left _ (List.mem_append_left _ howned)
  | pointer c =>
    change address ∈ c.owned
    rw [c.owned_eq]
    exact List.mem_append_left _ (List.mem_append_right _ howned)
  | @default c v hdefault =>
    change address ∈ c.owned
    rw [c.owned_eq]
    exact List.mem_append_right _ (mem_ownedByDefaults.mpr ⟨v, hdefault, howned⟩)
  | @captured p _ v hbody hv =>
    change address ∈ p.owned
    rw [p.owned_eq, hbody, Body.owned]
    exact mem_ownedByAll.mpr ⟨v, hv, howned⟩
  | @called p _ _ _ hbody =>
    change address ∈ p.owned
    rw [p.owned_eq, hbody, Body.owned]
    exact howned
  | @adapted p raw _ _ hbody =>
    change address ∈ p.owned
    rw [p.owned_eq, hbody, Body.owned]
    exact List.mem_append_left _ howned
  | @optional p _ _ _ v hbody hv =>
    change address ∈ p.owned
    rw [p.owned_eq, hbody, Body.owned]
    exact List.mem_append_right _ (mem_ownedByAll.mpr ⟨v, hv, howned⟩)

theorem Within.mem_owned {h h' : Handle} (hwithin : h.Within h') {address : UInt64}
    (howned : address ∈ h'.owned) : address ∈ h.owned := by
  induction hwithin with
  | refl => exact howned
  | tail _ hpart ih => exact ih (hpart.mem_owned howned)

/-- A handle is made of a pointer that owns the code at an address. -/
def HasOwner (h : Handle) (address : UInt64) : Prop :=
  ∃ q : NativePointer, h.Within (.pointer q) ∧ q.owner = some (.generated address)

theorem HasOwner.of_part {h h' : Handle} (hpart : h.Part h') {address : UInt64}
    (howner : h'.HasOwner address) : h.HasOwner address := by
  obtain ⟨q, hwithin, hq⟩ := howner
  exact ⟨q, .head hpart hwithin, hq⟩

end Handle

theorem NativePointer.hasOwner {q : NativePointer} {address : UInt64} (howned : address ∈ q.owned) :
    Handle.HasOwner (.pointer q) address :=
  ⟨q, .refl, NativePointer.mem_owned.mp howned⟩

mutual

theorem Value.hasOwner (v : Value) {address : UInt64} (howned : address ∈ v.owned) :
    Handle.HasOwner (.value v) address := by
  cases v with
  | procedure p => exact Procedure.hasOwner p howned
  | unified c => exact Callable.hasOwner c howned
  | null | bool | int | float | pointer => cases howned

theorem Procedure.hasOwner (p : Procedure) {address : UInt64} (howned : address ∈ p.owned) :
    Handle.HasOwner (.value (.procedure p)) address := by
  obtain ⟨identity, name, body⟩ := p
  exact Body.hasOwner identity name body howned

theorem Body.hasOwner (identity : Nat) (name : String) (body : Body) {address : UInt64}
    (howned : address ∈ body.owned) :
    Handle.HasOwner (.value (.procedure ⟨identity, name, body⟩)) address := by
  cases body with
  | routine captured =>
    obtain ⟨v, hv, howner⟩ := exists_hasOwner_of_ownedByAll captured howned
    exact howner.of_part (.captured rfl hv)
  | invoker ret pointer types => exact pointer.hasOwner howned |>.of_part (.called rfl)
  | adapter raw arity optional =>
    obtain hraw | hoptional := List.mem_append.mp howned
    · exact (Procedure.hasOwner raw hraw).of_part (.adapted rfl)
    · obtain ⟨v, hv, howner⟩ := exists_hasOwner_of_ownedByAll optional hoptional
      exact howner.of_part (.optional rfl hv)

theorem Callable.hasOwner (c : Callable) {address : UInt64} (howned : address ∈ c.owned) :
    Handle.HasOwner (.value (.unified c)) address := by
  obtain ⟨identity, procedure, pointer, defaults, ret, types, arity, origin⟩ := c
  obtain hfacets | hdefaults := List.mem_append.mp howned
  · obtain hprocedure | hpointer := List.mem_append.mp hfacets
    · exact (Procedure.hasOwner procedure hprocedure).of_part (.procedure _)
    · exact (pointer.hasOwner hpointer).of_part (.pointer _)
  · obtain ⟨v, hv, howner⟩ := exists_hasOwner_of_ownedByDefaults defaults hdefaults
    exact howner.of_part (.default hv)

theorem exists_hasOwner_of_ownedByAll (values : List Value) {address : UInt64}
    (howned : address ∈ ownedByAll values) :
    ∃ v ∈ values, Handle.HasOwner (.value v) address := by
  cases values with
  | nil => cases howned
  | cons v rest =>
    obtain hv | hrest := List.mem_append.mp howned
    · exact ⟨v, List.mem_cons_self, Value.hasOwner v hv⟩
    · obtain ⟨w, hw, howner⟩ := exists_hasOwner_of_ownedByAll rest hrest
      exact ⟨w, List.mem_cons_of_mem _ hw, howner⟩

theorem exists_hasOwner_of_ownedByDefaults (defaults : List (Option Value)) {address : UInt64}
    (howned : address ∈ ownedByDefaults defaults) :
    ∃ v, some v ∈ defaults ∧ Handle.HasOwner (.value v) address := by
  cases defaults with
  | nil => cases howned
  | cons default rest =>
    cases default with
    | none =>
      obtain ⟨w, hw, howner⟩ := exists_hasOwner_of_ownedByDefaults rest howned
      exact ⟨w, List.mem_cons_of_mem _ hw, howner⟩
    | some v =>
      obtain hv | hrest := List.mem_append.mp howned
      · exact ⟨v, List.mem_cons_self, Value.hasOwner v hv⟩
      · obtain ⟨w, hw, howner⟩ := exists_hasOwner_of_ownedByDefaults rest hrest
        exact ⟨w, List.mem_cons_of_mem _ hw, howner⟩

end

/-- What a handle owns are the owners of the pointers that it is made of. -/
theorem Handle.hasOwner_iff {h : Handle} {address : UInt64} :
    h.HasOwner address ↔ address ∈ h.owned := by
  constructor
  · rintro ⟨q, hwithin, hq⟩
    exact hwithin.mem_owned (NativePointer.mem_owned.mpr hq)
  · intro howned
    cases h with
    | value v => exact v.hasOwner howned
    | pointer q => exact q.hasOwner howned
    | memory start => cases howned

end DualCall
