import Gr8os.Mm.Memory
import Gr8os.Mm.PageRuns
import Gr8os.Mm.Views

/-! A page that is trimmed and faulted back: what the two encodings of its PTE and its descriptor keep. -/
namespace Gr8os.Mm

open Partial

namespace Mmpte

def owner (p : Mmpte) : Bool := p.getLsbD 2

/-- What trimming makes of a PTE. -/
def trimmed (p : Mmpte) : Mmpte :=
  let p := (p.setValid false).setPteType pteTypeTrimmed
  p.setProtection (if p.write then mmReadwrite else mmReadonly)

/-- What the fault makes of a trimmed PTE. -/
def resolved (p : Mmpte) : Mmpte :=
  (p.setWrite (p.protection = mmReadwrite ∨ p.protection = mmExecuteReadwrite)).setValid true

theorem getLsbD_setValid (p : Mmpte) (b : Bool) (i : Nat) (inside : i < 32) :
    (p.setValid b).getLsbD i = if i = 0 then b else p.getLsbD i := by
  have mask : ∀ i < 32, (0xFFFFFFFE : BitVec 32).getLsbD i = decide (i ≠ 0) := by decide
  have bit : ∀ i < 32, (if b then (1 : BitVec 32) else 0).getLsbD i = (b && decide (i = 0)) := by
    cases b <;> decide
  rw [setValid, BitVec.getLsbD_or, BitVec.getLsbD_and, mask i inside, bit i inside]
  rcases Decidable.em (i = 0) with rfl | other
  · simp
  · simp [other]

theorem getLsbD_setWrite (p : Mmpte) (b : Bool) (i : Nat) (inside : i < 32) :
    (p.setWrite b).getLsbD i = if i = 1 then b else p.getLsbD i := by
  have mask : ∀ i < 32, (0xFFFFFFFD : BitVec 32).getLsbD i = decide (i ≠ 1) := by decide
  have bit : ∀ i < 32, (if b then (2 : BitVec 32) else 0).getLsbD i = (b && decide (i = 1)) := by
    cases b <;> decide
  rw [setWrite, BitVec.getLsbD_or, BitVec.getLsbD_and, mask i inside, bit i inside]
  rcases Decidable.em (i = 1) with rfl | other
  · simp
  · simp [other]

theorem getLsbD_setPteType (p v : BitVec 32) (small : v ≤ 3) (i : Nat) (inside : i < 32) :
    (setPteType p v).getLsbD i = if 9 ≤ i ∧ i < 11 then v.getLsbD (i - 9) else p.getLsbD i := by
  have fits : ∀ i, 11 ≤ 9 + i → v.getLsbD i = false := by
    intro i past
    exact Bits.getLsbD_of_small (k := 2) (Nat.lt_succ_of_le (BitVec.le_def.mp small)) (by omega)
  exact Bits.getLsbD_setField (by decide) fits i inside

theorem protection_small (p : Mmpte) : (if p.write then mmReadwrite else mmReadonly) ≤ 7 := by
  split <;> decide

/-- The write bit is not touched before the protection is taken from it. -/
theorem write_before (p : Mmpte) : ((p.setValid false).setPteType pteTypeTrimmed).write = p.write := by
  rw [write, getLsbD_setPteType _ _ (by decide) 1 (by decide), if_neg (by decide),
    getLsbD_setValid _ _ 1 (by decide), if_neg (by decide)]
  rfl

theorem getLsbD_trimmed (p : Mmpte) (i : Nat) (inside : i < 32) : (trimmed p).getLsbD i =
    if i = 0 then false
    else if i < 4 then (if p.write then mmReadwrite else mmReadonly).getLsbD (i - 1)
    else if 9 ≤ i ∧ i < 11 then pteTypeTrimmed.getLsbD (i - 9) else p.getLsbD i := by
  rw [trimmed]
  rw [write_before, getLsbD_setProtection _ _ (protection_small p) i inside,
    getLsbD_setPteType _ _ (by decide) i inside, getLsbD_setValid _ _ i inside]
  split_ifs <;> first | rfl | omega

theorem protection_trimmed (p : Mmpte) :
    (trimmed p).protection = if p.write then mmReadwrite else mmReadonly := by
  rw [trimmed]
  rw [write_before, protection_setProtection _ _ (protection_small p)]

/-- A page comes back with its write bit, which the owner bit then repeats, and with the trimmed type. -/
theorem getLsbD_round_trip (p : Mmpte) (i : Nat) (inside : i < 32) : (resolved (trimmed p)).getLsbD i =
    if i = 0 then true
    else if i = 1 then p.write
    else if i < 4 then (if p.write then mmReadwrite else mmReadonly).getLsbD (i - 1)
    else if 9 ≤ i ∧ i < 11 then pteTypeTrimmed.getLsbD (i - 9) else p.getLsbD i := by
  have written : decide ((trimmed p).protection = mmReadwrite ∨ (trimmed p).protection = mmExecuteReadwrite) =
      p.write := by
    rw [protection_trimmed]
    cases p.write <;> decide
  rw [resolved, written, getLsbD_setValid _ _ i inside, getLsbD_setWrite _ _ i inside, getLsbD_trimmed p i inside]
  split_ifs <;> rfl

theorem valid_round_trip (p : Mmpte) : (resolved (trimmed p)).valid = true := getLsbD_round_trip p 0 (by decide)

theorem write_round_trip (p : Mmpte) : (resolved (trimmed p)).write = p.write := getLsbD_round_trip p 1 (by decide)

theorem owner_round_trip (p : Mmpte) : (resolved (trimmed p)).owner = p.write := by
  rw [owner, getLsbD_round_trip p 2 (by decide)]
  cases p.write <;> rfl

theorem pteType_round_trip (p : Mmpte) : (resolved (trimmed p)).pteType = pteTypeTrimmed := by
  have field : (setPteType p pteTypeTrimmed).pteType = pteTypeTrimmed := pteType_setPteType p _ (by decide)
  rw [← field]
  apply pteType_eq
  · rw [getLsbD_round_trip p 9 (by decide), getLsbD_setPteType _ _ (by decide) 9 (by decide)]
    rfl
  · rw [getLsbD_round_trip p 10 (by decide), getLsbD_setPteType _ _ (by decide) 10 (by decide)]
    rfl

theorem pteType_trimmed (p : Mmpte) : (trimmed p).pteType = pteTypeTrimmed := by
  rw [trimmed]
  rw [write_before, pteType_setProtection _ _ (protection_small p), pteType_setPteType _ _ (by decide)]

theorem pageFrameNumber_eq {p q : Mmpte} (same : ∀ i, 12 ≤ i → i < 32 → p.getLsbD i = q.getLsbD i) :
    p.pageFrameNumber = q.pageFrameNumber := by
  have shifted : p >>> 12 = q >>> 12 := by
    apply BitVec.eq_of_getLsbD_eq
    intro i inside
    rw [BitVec.getLsbD_ushiftRight, BitVec.getLsbD_ushiftRight]
    rcases Nat.lt_or_ge (12 + i) 32 with low | high
    · exact same (12 + i) (by omega) low
    · rw [BitVec.getLsbD_of_ge _ _ high, BitVec.getLsbD_of_ge _ _ high]
  rw [pageFrameNumber, pageFrameNumber, shifted]

theorem pageFrameNumber_trimmed (p : Mmpte) : (trimmed p).pageFrameNumber = p.pageFrameNumber := by
  apply pageFrameNumber_eq
  intro i above inside
  rw [getLsbD_trimmed p i inside, if_neg (by omega), if_neg (by omega), if_neg (by omega)]

theorem pageFrameNumber_round_trip (p : Mmpte) : (resolved (trimmed p)).pageFrameNumber = p.pageFrameNumber := by
  apply pageFrameNumber_eq
  intro i above inside
  rw [getLsbD_round_trip p i inside, if_neg (by omega), if_neg (by omega), if_neg (by omega), if_neg (by omega)]

end Mmpte

section RoundTrip

variable {checked : Bool} {s t : MmState} {va : BitVec 32} {p : Nat}

/-- A page that becomes active gets its two words cleared, whatever they were. -/
theorem miChangePageLocation_cleared (code : miChangePageLocation checked s p .activeAndValid = some t) :
    (t.ppd p).u1 = 0 ∧ (t.ppd p).u2 = 0 := by
  unfold miChangePageLocation at code
  split at code
  · cases code
  · split at code
    · cases code
    · simp only [joinLists, MmState.update, Option.bind_eq_bind, Option.bind_eq_some_iff,
        Option.ite_none_right_eq_some, Option.some.injEq] at code
      obtain ⟨left, _, joined, ⟨_, rfl⟩, _, rfl⟩ := code
      simp

/-- The descriptor of the page behind an address. -/
def descriptor (s : MmState) (va : BitVec 32) : Nat := mmPfnPpd s (s.pte (vpn va)).pageFrameNumber

structure Trimmed (s t : MmState) (va : BitVec 32) : Prop where
  lists : WellFormed t
  pte : t.pte (vpn va) = (s.pte (vpn va)).trimmed
  descriptor : descriptor t va = descriptor s va
  mapped : t.Mapped (Mm.descriptor s va)
  location : ∃ l, (t.ppd (Mm.descriptor s va)).pageLocation = .list l

/-- The page moves to one of the two lists and its PTE is rewritten. -/
theorem mmTrimPage_spec (lists : WellFormed s) (valid : (s.pte (vpn va)).valid = true)
    (mapped : s.Mapped (descriptor s va)) (active : (s.ppd (descriptor s va)).pageLocation = .activeAndValid) :
    ∃ t, mmTrimPage checked s va = some t ∧ Trimmed s t va := by
  have moves : ∀ u l, WellFormed u → u.pte = s.pte → u.physicalMemoryPages = s.physicalMemoryPages →
      u.mmPpdDatabase = s.mmPpdDatabase → (u.ppd (descriptor s va)).pageLocation = .activeAndValid →
      ∃ t, miChangePageLocation checked u (descriptor s va) (.list l) = some t ∧
        Trimmed s (t.setPte (vpn va) (s.pte (vpn va)).trimmed) va := by
    intro u l ⟨chains, ok⟩ ptes pages database location
    have here := (mapped_congr pages database (descriptor s va)).mpr mapped
    have passes : (checked && decide ((u.ppd (descriptor s va)).pageLocation = .list l)) = false := by
      simp [location]
    obtain ⟨t, code, after, moved⟩ := miChangePageLocation_moves ok here passes
    have database' := moved.database.trans database
    refine ⟨t, code, setPte_wellFormed ⟨_, after⟩ .., ?_, ?_, ?_, l, ?_⟩
    · exact if_pos rfl
    · simp only [descriptor, mmPfnPpd, MmState.setPte, if_true, database', Mmpte.pageFrameNumber_trimmed]
    · exact (mapped_congr (moved.pages.trans pages) database' _).mpr mapped
    · exact (moved.location _).trans (if_pos rfl)
  have first : (checked && !(s.pte (vpn va)).valid) = false := by simp [valid]
  have second : (checked && decide ((s.ppd (descriptor s va)).pageLocation ≠ .activeAndValid)) = false := by
    simp [active]
  unfold mmTrimPage
  dsimp only
  rw [first, if_neg Bool.false_ne_true]
  rw [show (checked && decide ((s.ppd (mmPfnPpd s (s.pte (vpn va)).pageFrameNumber)).pageLocation ≠
    .activeAndValid)) = false from second, if_neg Bool.false_ne_true]
  cases dirty : (s.pte (vpn va)).dirty with
  | true =>
    have marked := update_eq (f := fun d => { d with modified := true }) mapped
    have lists' := setModified_wellFormed lists marked
    obtain ⟨t, code, trimmed⟩ := moves _ .modifiedPageList lists' rfl rfl rfl (by simp [active])
    refine ⟨_, ?_, trimmed⟩
    rw [if_pos rfl]
    show (s.update (descriptor s va) _).bind _ = _
    rw [marked, Option.bind_some]
    show (miChangePageLocation checked _ (descriptor s va) _).bind _ = _
    rw [code, Option.bind_some]
    rfl
  | false =>
    obtain ⟨t, code, trimmed⟩ := moves s .standbyPageList lists rfl rfl rfl active
    refine ⟨_, ?_, trimmed⟩
    rw [if_neg Bool.false_ne_true]
    show (miChangePageLocation checked s (descriptor s va) _).bind _ = _
    rw [code, Option.bind_some]
    rfl

/-- A read fault on a trimmed page makes it active again. -/
theorem mmAccessFault_spec (lists : WellFormed t) (trimmed : (t.pte (vpn va)).pteType = pteTypeTrimmed)
    (mapped : t.Mapped (descriptor t va)) {l : PageList} (location : (t.ppd (descriptor t va)).pageLocation = .list l) :
    ∃ u, mmAccessFault checked t va false = some u ∧ u.pte (vpn va) = (t.pte (vpn va)).resolved ∧
      (u.ppd (descriptor t va)).pageLocation = .activeAndValid ∧ (u.ppd (descriptor t va)).u1 = 0 ∧
        (u.ppd (descriptor t va)).u2 = 0 := by
  obtain ⟨chains, ok⟩ := setPte_wellFormed lists (vpn va) (t.pte (vpn va)).resolved
  have passes : (checked && decide ((t.ppd (descriptor t va)).pageLocation = .activeAndValid)) = false := by
    simp [location]
  obtain ⟨u, code, _, moved⟩ := miChangePageLocation_moves ok mapped passes
  obtain ⟨wsIndex, pointerPte⟩ := miChangePageLocation_cleared code
  have ptes : u.pte = (t.setPte (vpn va) (t.pte (vpn va)).resolved).pte := (miChangePageLocation_pte rfl ..).of_eq code
  refine ⟨u, ?_, ?_, (moved.location _).trans (if_pos rfl), wsIndex, pointerPte⟩
  · unfold mmAccessFault
    simp only [Bool.false_and, Bool.false_eq_true, if_false, trimmed, ne_eq, not_true_eq_false]
    exact code
  · rw [ptes]
    exact if_pos rfl

/-- The PTE and the descriptor of a page are as they were. -/
structure Restored (s u : MmState) (va : BitVec 32) : Prop where
  valid : (u.pte (vpn va)).valid = (s.pte (vpn va)).valid
  write : (u.pte (vpn va)).write = (s.pte (vpn va)).write
  owner : (u.pte (vpn va)).owner = (s.pte (vpn va)).owner
  pteType : (u.pte (vpn va)).pteType = (s.pte (vpn va)).pteType
  pageFrameNumber : (u.pte (vpn va)).pageFrameNumber = (s.pte (vpn va)).pageFrameNumber
  pageLocation : (u.ppd (descriptor s va)).pageLocation = (s.ppd (descriptor s va)).pageLocation
  wsIndex : (u.ppd (descriptor s va)).u1 = (s.ppd (descriptor s va)).u1
  pointerPte : (u.ppd (descriptor s va)).u2 = (s.ppd (descriptor s va)).u2

/-- The page has the fields that an earlier round trip leaves it with. -/
structure FaultedBefore (s : MmState) (va : BitVec 32) : Prop where
  pteType : (s.pte (vpn va)).pteType = pteTypeTrimmed
  owner : (s.pte (vpn va)).owner = (s.pte (vpn va)).write
  wsIndex : (s.ppd (descriptor s va)).u1 = 0
  pointerPte : (s.ppd (descriptor s va)).u2 = 0

/-- The two calls return and leave the page with these fields. -/
theorem trim_fault_spec (lists : WellFormed s) (valid : (s.pte (vpn va)).valid = true)
    (mapped : s.Mapped (descriptor s va)) (active : (s.ppd (descriptor s va)).pageLocation = .activeAndValid) :
    ∃ t u, mmTrimPage checked s va = some t ∧ mmAccessFault checked t va false = some u ∧
      u.pte (vpn va) = (s.pte (vpn va)).trimmed.resolved ∧
      (u.ppd (descriptor s va)).pageLocation = .activeAndValid ∧ (u.ppd (descriptor s va)).u1 = 0 ∧
        (u.ppd (descriptor s va)).u2 = 0 := by
  obtain ⟨t, trim, after⟩ := @mmTrimPage_spec checked s va lists valid mapped active
  obtain ⟨l, location⟩ := after.location
  rw [← after.descriptor] at location
  have type : (t.pte (vpn va)).pteType = pteTypeTrimmed := by
    rw [after.pte]
    exact Mmpte.pteType_trimmed _
  have here : t.Mapped (descriptor t va) := by
    rw [after.descriptor]
    exact after.mapped
  obtain ⟨u, fault, pte, back⟩ := @mmAccessFault_spec checked t va after.lists type here _ location
  rw [after.pte] at pte
  rw [after.descriptor] at back
  exact ⟨t, u, trim, fault, pte, back⟩

theorem trim_fault_identity_iff (lists : WellFormed s) (valid : (s.pte (vpn va)).valid = true)
    (mapped : s.Mapped (descriptor s va)) (active : (s.ppd (descriptor s va)).pageLocation = .activeAndValid) :
    (∃ t u, mmTrimPage checked s va = some t ∧ mmAccessFault checked t va false = some u ∧ Restored s u va) ↔
      FaultedBefore s va := by
  obtain ⟨t, u, trim, fault, pte, location, wsIndex, pointerPte⟩ :=
    @trim_fault_spec checked s va lists valid mapped active
  constructor
  · rintro ⟨t', u', trim', fault', back⟩
    cases Option.some.inj (trim.symm.trans trim')
    cases Option.some.inj (fault.symm.trans fault')
    constructor
    · rw [← back.pteType, pte, Mmpte.pteType_round_trip]
    · rw [← back.owner, pte, Mmpte.owner_round_trip]
    · rw [← back.wsIndex, wsIndex]
    · rw [← back.pointerPte, pointerPte]
  · intro before
    refine ⟨t, u, trim, fault, ?_⟩
    constructor
    · rw [pte, Mmpte.valid_round_trip, valid]
    · rw [pte, Mmpte.write_round_trip]
    · rw [pte, Mmpte.owner_round_trip, before.owner]
    · rw [pte, Mmpte.pteType_round_trip, before.pteType]
    · rw [pte, Mmpte.pageFrameNumber_round_trip]
    · rw [location, active]
    · rw [wsIndex, before.wsIndex]
    · rw [pointerPte, before.pointerPte]

end RoundTrip

/-- A machine of one page, which is active and whose PTE is the same at every address. -/
def onePage (pte : Mmpte) (wsIndex pointerPte : Nat) : MmState where
  physicalMemoryPages := 1
  mmPpdDatabase := 0x90000000
  ppd := fun _ => { u1 := wsIndex, u2 := pointerPte, pageLocation := .activeAndValid, modified := false }
  pageListHead := fun _ => 0
  pte := fun _ => pte

theorem onePage_wellFormed (pte : Mmpte) (wsIndex pointerPte : Nat) : WellFormed (onePage pte wsIndex pointerPte) := by
  refine ⟨fun _ => [], (by decide : (0x90000000 : Nat) ≠ 0), fun _ => ⟨List.nodup_nil, rfl⟩, ?_⟩
  intro l p
  simp [onePage]

/-- The type is the trimmed one, and the owner bit is the write bit. -/
theorem second_trim_identity : ∃ t u, mmTrimPage true (onePage 0x407 0 0) 0x80001000 = some t ∧
    mmAccessFault true t 0x80001000 false = some u ∧ Restored (onePage 0x407 0 0) u 0x80001000 :=
  (trim_fault_identity_iff (onePage_wellFormed _ _ _) rfl (by decide) rfl).mpr ⟨by decide, by decide, rfl, rfl⟩

/-- A page of the normal type that has a place in a working set. -/
theorem first_trim_not_identity : ¬ ∃ t u, mmTrimPage true (onePage 0x7 3 0xC0200004) 0x80001000 = some t ∧
    mmAccessFault true t 0x80001000 false = some u ∧ Restored (onePage 0x7 3 0xC0200004) u 0x80001000 := by
  rintro ⟨t', u', trim', fault', back⟩
  obtain ⟨t, u, trim, fault, pte, _⟩ := @trim_fault_spec true _ 0x80001000
    (onePage_wellFormed 0x7 3 0xC0200004) rfl (by decide) rfl
  cases Option.some.inj (trim.symm.trans trim')
  cases Option.some.inj (fault.symm.trans fault')
  have changed := back.pteType
  rw [pte, Mmpte.pteType_round_trip] at changed
  exact absurd changed (by decide)

end Gr8os.Mm
