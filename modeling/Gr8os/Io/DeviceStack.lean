import Mathlib.Logic.Relation
import Gr8os.Lib.Climb
import Gr8os.Lib.Run

/-! Device stacks: two pointers and a depth that attaching and detaching keep in step.
The I/O database lock is held for each call, so that each call is one step. -/
namespace Gr8os.Io

open Climb Runs

structure Device (D : Type) where
  nextDevice : Option D
  attachedDevice : Option D
  stackSize : BitVec 8
deriving DecidableEq, Repr

section Stacks

variable {D : Type}

/-- The memory of all devices. -/
abbrev Devices (D : Type) := D → Device D

def ioGetNextDevice (s : Devices D) (deviceObject : D) : Option D := (s deviceObject).nextDevice

/-- The loop that goes on as long as something is attached, with the turns it is given. -/
def attachedFrom (s : Devices D) : Nat → D → Option D
  | 0, _ => none
  | turns + 1, prev =>
    match (s prev).attachedDevice with
    | none => some prev
    | some attached => attachedFrom s turns attached

def ioGetAttachedDevice (s : Devices D) (turns : Nat) (deviceObject : D) : Option D :=
  match (s deviceObject).attachedDevice with
  | none => some deviceObject
  | some prev => attachedFrom s turns prev

/-- The link that a climb through a stack follows. -/
def above (s : Devices D) (d : D) : Option D := (s d).attachedDevice

/-- The loop comes to an end at the only device of the stack that has nothing attached to it. -/
structure IsTop (s : Devices D) (d top : D) : Prop where
  reached : ∃ turns, ioGetAttachedDevice s turns d = some top
  free : (s top).attachedDevice = none
  only : ∀ e, Relation.ReflTransGen (fun a b => above s a = some b) d e → (s e).attachedDevice = none → e = top

structure Consistent (s : Devices D) : Prop where
  linked : ∀ a b, (s a).nextDevice = some b ↔ (s b).attachedDevice = some a
  sized : ∀ a b, (s a).nextDevice = some b → (s a).stackSize.toNat = (s b).stackSize.toNat + 1
  topped : ∀ d, ∃ top, IsTop s d top

theorem climbs_of_attachedFrom {s : Devices D} {turns : Nat} {d top : D}
    (reached : attachedFrom s turns d = some top) : Climbs (above s) d top := by
  induction turns generalizing d with
  | zero => cases reached
  | succ turns ih =>
    rw [attachedFrom] at reached
    cases link : (s d).attachedDevice with
    | none =>
      rw [link] at reached
      cases Option.some.inj reached
      exact .top link
    | some up =>
      rw [link] at reached
      exact .step link (ih reached)

theorem attachedFrom_of_climbs {s : Devices D} {d top : D} (climbs : Climbs (above s) d top) :
    ∃ turns, attachedFrom s turns d = some top := by
  induction climbs with
  | @top d none => exact ⟨1, by rw [attachedFrom, show (s d).attachedDevice = _ from none]⟩
  | @step d up top link _ ih =>
    obtain ⟨turns, reached⟩ := ih
    exact ⟨turns + 1, by rw [attachedFrom, show (s d).attachedDevice = _ from link]; exact reached⟩

theorem climbs_of_ioGetAttachedDevice {s : Devices D} {turns : Nat} {d top : D}
    (reached : ioGetAttachedDevice s turns d = some top) : Climbs (above s) d top := by
  unfold ioGetAttachedDevice at reached
  cases link : (s d).attachedDevice with
  | none =>
    rw [link] at reached
    cases Option.some.inj reached
    exact .top link
  | some prev =>
    rw [link] at reached
    exact .step link (climbs_of_attachedFrom reached)

theorem ioGetAttachedDevice_of_climbs {s : Devices D} {d top : D} (climbs : Climbs (above s) d top) :
    ∃ turns, ioGetAttachedDevice s turns d = some top := by
  unfold ioGetAttachedDevice
  cases climbs with
  | top none => exact ⟨0, by rw [show (s d).attachedDevice = _ from none]⟩
  | step link rest =>
    rw [show (s d).attachedDevice = _ from link]
    exact attachedFrom_of_climbs rest

theorem isTop_iff {s : Devices D} {d top : D} : IsTop s d top ↔ Climbs (above s) d top := by
  constructor
  · rintro ⟨⟨turns, reached⟩, _, _⟩
    exact climbs_of_ioGetAttachedDevice reached
  · intro climbs
    refine ⟨ioGetAttachedDevice_of_climbs climbs, climbs.ends, ?_⟩
    intro e up free
    induction up using Relation.ReflTransGen.head_induction_on with
    | refl => exact Climbs.unique (.top free) climbs
    | head link _ ih =>
      cases climbs with
      | top none => exact absurd (none.symm.trans link) (by simp)
      | step link' rest =>
        cases Option.some.inj (link.symm.trans link')
        exact ih rest

theorem Consistent.climbs {s : Devices D} (ok : Consistent s) (d : D) : ∃ top, Climbs (above s) d top := by
  obtain ⟨top, isTop⟩ := ok.topped d
  exact ⟨top, isTop_iff.mp isTop⟩

theorem topped_of_climbs {s : Devices D} (climbs : ∀ d, ∃ top, Climbs (above s) d top) (d : D) :
    ∃ top, IsTop s d top := by
  obtain ⟨top, way⟩ := climbs d
  exact ⟨top, isTop_iff.mpr way⟩

/-- Devices as they are created. -/
def Unattached (s : Devices D) : Prop := ∀ d, (s d).nextDevice = none ∧ (s d).attachedDevice = none

theorem Unattached.consistent {s : Devices D} (unattached : Unattached s) : Consistent s := by
  constructor
  · intro a b
    simp [unattached a, unattached b]
  · intro a b below
    simp [unattached a] at below
  · exact topped_of_climbs fun d => ⟨d, .top (unattached d).2⟩

variable [DecidableEq D]

def ioAttachDevice (s : Devices D) (sourceDevice targetDevice : D) : Devices D :=
  let s := Function.update s sourceDevice { s sourceDevice with
    nextDevice := some targetDevice
    stackSize := (s targetDevice).stackSize + 1 }
  Function.update s targetDevice { s targetDevice with attachedDevice := some sourceDevice }

/-- With nothing attached the second write goes through a null pointer. -/
def ioDetachDevice (s : Devices D) (targetDevice : D) : Option (Devices D) :=
  match (s targetDevice).attachedDevice with
  | none => none
  | some attachedDevice =>
    let s := Function.update s targetDevice { s targetDevice with attachedDevice := none }
    some (Function.update s attachedDevice { s attachedDevice with nextDevice := none })

inductive StackOp (D : Type)
  | attach (sourceDevice targetDevice : D)
  | detach (targetDevice : D)
deriving DecidableEq, Repr

/-- A device is attached at most once at a time. -/
def stackStep (s : Devices D) : StackOp D → Option (Devices D)
  | .attach source target => if (s source).nextDevice = none then some (ioAttachDevice s source target) else none
  | .detach target => ioDetachDevice s target

theorem attach_above (s : Devices D) (source target : D) :
    above (ioAttachDevice s source target) = Function.update (above s) target (some source) := by
  funext d
  rcases Decidable.em (d = target) with rfl | other
  · simp [above, ioAttachDevice]
  · rcases Decidable.em (d = source) with rfl | apart <;> simp [above, ioAttachDevice, *]

theorem attach_next (s : Devices D) (source target d : D) :
    (ioAttachDevice s source target d).nextDevice = if d = source then some target else (s d).nextDevice := by
  rcases Decidable.em (d = target) with rfl | other
  · rcases Decidable.em (d = source) with rfl | apart <;> simp [ioAttachDevice, *]
  · rcases Decidable.em (d = source) with rfl | apart <;> simp [ioAttachDevice, *]

theorem attach_stackSize (s : Devices D) (source target d : D) :
    (ioAttachDevice s source target d).stackSize =
      if d = source then (s target).stackSize + 1 else (s d).stackSize := by
  rcases Decidable.em (d = target) with rfl | other
  · rcases Decidable.em (d = source) with rfl | apart <;> simp [ioAttachDevice, *]
  · rcases Decidable.em (d = source) with rfl | apart <;> simp [ioAttachDevice, *]

/-- Nothing is attached to the target, the target is not the source nor above it, and the depths fit. -/
structure Fits (s : Devices D) (source target : D) : Prop where
  free : (s target).attachedDevice = none
  apart : ¬ IsTop s source target
  room : (s target).stackSize ≠ 255
  level : (s source).attachedDevice = none ∨ (s source).stackSize = (s target).stackSize + 1

theorem toNat_succ {x : BitVec 8} (room : x ≠ 255) : (x + 1).toNat = x.toNat + 1 := by
  have small : x.toNat ≠ 255 := fun same => room (BitVec.eq_of_toNat_eq same)
  bv_omega

theorem Fits.consistent {s : Devices D} {source target : D} (fits : Fits s source target) (ok : Consistent s)
    (unattached : (s source).nextDevice = none) : Consistent (ioAttachDevice s source target) := by
  have link : ∀ d, (ioAttachDevice s source target d).attachedDevice =
      Function.update (above s) target (some source) d := congrFun (attach_above s source target)
  have free : above s target = none := fits.free
  have apart : source ≠ target := by
    rintro rfl
    exact fits.apart (isTop_iff.mpr (.top free))
  constructor
  · intro a b
    rw [attach_next, link]
    rcases Decidable.em (a = source) with rfl | other
    · rcases Decidable.em (b = target) with rfl | elsewhere
      · simp
      · have unlinked : above s b ≠ some a := fun here => by simp [(ok.linked a b).mpr here] at unattached
        simp [elsewhere, unlinked, Ne.symm elsewhere]
    · rcases Decidable.em (b = target) with rfl | elsewhere
      · have unlinked : (s a).nextDevice ≠ some b := by
          intro here
          have attached := (ok.linked a b).mp here
          simp [fits.free] at attached
        simp [other, unlinked, Ne.symm other]
      · simp only [other, if_false, Function.update_of_ne elsewhere]
        exact ok.linked a b
  · intro a b
    rw [attach_next, attach_stackSize, attach_stackSize]
    rcases Decidable.em (a = source) with rfl | other
    · intro below
      cases Option.some.inj ((if_pos rfl).symm.trans below)
      rw [if_pos rfl, if_neg (Ne.symm apart)]
      exact toNat_succ fits.room
    · simp only [if_neg other]
      intro below
      have depth := ok.sized a b below
      rcases Decidable.em (b = source) with rfl | elsewhere
      · have attached : (s b).attachedDevice = some a := (ok.linked a b).mp below
        rcases fits.level with none | level
        · simp [none] at attached
        · rwa [if_pos rfl, ← level]
      · rwa [if_neg elsewhere]
  · apply topped_of_climbs
    intro d
    rw [attach_above]
    obtain ⟨top, way⟩ := ok.climbs source
    have different : top ≠ target := fun same => fits.apart (isTop_iff.mpr (same ▸ way))
    have onward := way.apart free different (some source)
    obtain ⟨end_, climbs⟩ := ok.climbs d
    rcases Decidable.em (end_ = target) with rfl | other
    · exact ⟨top, climbs.join onward⟩
    · exact ⟨end_, climbs.apart free other _⟩

/-- An attachment keeps the stacks consistent exactly when it fits. -/
theorem attach_consistent_iff {s : Devices D} {source target : D} (ok : Consistent s)
    (unattached : (s source).nextDevice = none) :
    Consistent (ioAttachDevice s source target) ↔ Fits s source target := by
  constructor
  · intro after
    have next : (ioAttachDevice s source target source).nextDevice = some target := by rw [attach_next, if_pos rfl]
    have free : (s target).attachedDevice = none := by
      cases occupied : (s target).attachedDevice with
      | none => rfl
      | some x =>
        have below := (ok.linked x target).mpr occupied
        have other : x ≠ source := by
          rintro rfl
          simp [unattached] at below
        have still : (ioAttachDevice s source target x).nextDevice = some target := by
          rwa [attach_next, if_neg other]
        have first := (after.linked x target).mp still
        have second := (after.linked source target).mp next
        exact absurd (Option.some.inj (first.symm.trans second)) other
    have apart : ¬ IsTop s source target := by
      intro top
      obtain ⟨end_, way⟩ := after.climbs source
      rw [attach_above] at way
      exact (isTop_iff.mp top).loop end_ way
    have different : source ≠ target := by
      rintro rfl
      exact apart (isTop_iff.mpr (.top free))
    refine ⟨free, apart, ?_, ?_⟩
    · intro full
      have depth := after.sized source target next
      rw [attach_stackSize, attach_stackSize, if_pos rfl, if_neg (Ne.symm different), full] at depth
      exact absurd depth (by decide)
    · cases attached : (s source).attachedDevice with
      | none => exact .inl rfl
      | some a =>
        right
        have below := (ok.linked a source).mpr attached
        have other : a ≠ source := by
          rintro rfl
          simp [unattached] at below
        have still : (ioAttachDevice s source target a).nextDevice = some source := by
          rwa [attach_next, if_neg other]
        have before := ok.sized a source below
        have depth := after.sized a source still
        rw [attach_stackSize, attach_stackSize, if_pos rfl, if_neg other, before] at depth
        exact BitVec.eq_of_toNat_eq (Nat.add_right_cancel depth)
  · intro fits
    exact fits.consistent ok unattached

theorem detach_cases {s t : Devices D} {target : D} (detached : ioDetachDevice s target = some t) :
    ∃ a, (s target).attachedDevice = some a ∧ above t = Function.update (above s) target none ∧
      (∀ d, (t d).nextDevice = if d = a then none else (s d).nextDevice) ∧ ∀ d, (t d).stackSize = (s d).stackSize := by
  unfold ioDetachDevice at detached
  cases attached : (s target).attachedDevice with
  | none => simp [attached] at detached
  | some a =>
    simp only [attached, Option.some.injEq] at detached
    cases detached
    refine ⟨a, rfl, ?_, ?_, ?_⟩
    · funext d
      rcases Decidable.em (d = target) with rfl | other
      · rcases Decidable.em (d = a) with rfl | apart <;> simp [above, *]
      · rcases Decidable.em (d = a) with rfl | apart <;> simp [above, *]
    · intro d
      rcases Decidable.em (d = target) with rfl | other
      · rcases Decidable.em (d = a) with rfl | apart <;> simp [*]
      · rcases Decidable.em (d = a) with rfl | apart <;> simp [*]
    · intro d
      rcases Decidable.em (d = target) with rfl | other
      · rcases Decidable.em (d = a) with rfl | apart <;> simp [*]
      · rcases Decidable.em (d = a) with rfl | apart <;> simp [*]

theorem Consistent.detach {s t : Devices D} {target : D} (ok : Consistent s)
    (detached : ioDetachDevice s target = some t) : Consistent t := by
  obtain ⟨a, attached, links, next, size⟩ := detach_cases detached
  have link : ∀ d, (t d).attachedDevice = Function.update (above s) target none d := congrFun links
  have below := (ok.linked a target).mpr attached
  constructor
  · intro x b
    rw [next, link]
    rcases Decidable.em (x = a) with rfl | other
    · rcases Decidable.em (b = target) with rfl | elsewhere
      · simp
      · have unlinked : above s b ≠ some x := by
          intro here
          exact elsewhere (Option.some.inj (((ok.linked x b).mpr here).symm.trans below))
        simp [elsewhere, unlinked]
    · rcases Decidable.em (b = target) with rfl | elsewhere
      · have unlinked : (s x).nextDevice ≠ some b := by
          intro here
          exact other (Option.some.inj (((ok.linked x b).mp here).symm.trans attached))
        simp [other, unlinked]
      · rw [if_neg other, Function.update_of_ne elsewhere]
        exact ok.linked x b
  · intro x b
    rw [next, size, size]
    rcases Decidable.em (x = a) with rfl | other
    · simp
    · rw [if_neg other]
      exact ok.sized x b
  · apply topped_of_climbs
    intro d
    obtain ⟨top, way⟩ := ok.climbs d
    rw [links]
    exact way.cut target

/-- The attachments that fit, and every detachment. -/
def StackSafe (s : Devices D) : StackOp D → Prop
  | .attach source target => Fits s source target
  | .detach _ => True

theorem stackStep_consistent {s t : Devices D} {op : StackOp D} (ok : Consistent s)
    (step : Guarded StackSafe (fun s op t => stackStep s op = some t) s op t) : Consistent t := by
  obtain ⟨safe, step⟩ := step
  cases op with
  | attach source target =>
    simp only [stackStep, Option.ite_none_right_eq_some, Option.some.injEq] at step
    obtain ⟨unattached, rfl⟩ := step
    exact safe.consistent ok unattached
  | detach target => exact ok.detach step

theorem device_stacks_consistent {s t : Devices D} {ops : List (StackOp D)} (created : Unattached s)
    (run : Run (Guarded StackSafe fun s op t => stackStep s op = some t) s ops t) : Consistent t := by
  apply run.invariant ?_ created.consistent
  intro s op t ok step
  exact stackStep_consistent ok step

end Stacks

def createdDevices : Devices Nat := fun _ => ⟨none, none, 1⟩

def twoLevels : Devices Nat := ioAttachDevice createdDevices 1 0

def threeLevels : Devices Nat := ioAttachDevice twoLevels 2 1

theorem twoLevels_fits : Fits createdDevices 1 0 where
  free := rfl
  apart top := absurd ((isTop_iff.mp top).unique (.top rfl)) (by decide)
  room := by decide
  level := .inl rfl

theorem threeLevels_fits : Fits twoLevels 2 1 where
  free := rfl
  apart top := absurd ((isTop_iff.mp top).unique (.top rfl)) (by decide)
  room := by decide
  level := .inl rfl

theorem three_devices_consistent : ∃ t, stackStep threeLevels (.detach 0) = some t ∧ Consistent t ∧
    ioGetAttachedDevice threeLevels 2 0 = some 2 ∧ ioGetAttachedDevice t 2 0 = some 0 ∧
      ioGetAttachedDevice t 2 1 = some 2 := by
  have created : Unattached createdDevices := fun _ => ⟨rfl, rfl⟩
  refine ⟨_, rfl, ?_, rfl, rfl, rfl⟩
  exact @device_stacks_consistent _ _ _ _ [.attach 1 0, .attach 2 1, .detach 0] created
    (.next ⟨twoLevels_fits, rfl⟩ (.next ⟨threeLevels_fits, rfl⟩ (.next ⟨trivial, rfl⟩ (.done _))))

/-- A second attachment to one device leaves the first one behind. -/
theorem occupied_target_orphans : ∃ t, Run (fun s op t => stackStep s op = some t) createdDevices
    [.attach 1 0, .attach 2 0] t ∧ Unattached createdDevices ∧ ¬ Consistent t := by
  refine ⟨ioAttachDevice twoLevels 2 0, .next rfl (.next rfl (.done _)), fun _ => ⟨rfl, rfl⟩, ?_⟩
  intro ok
  have orphan := (ok.linked 1 0).mp (by decide)
  exact absurd orphan (by decide)

end Gr8os.Io
