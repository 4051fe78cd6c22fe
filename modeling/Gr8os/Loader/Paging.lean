import Gr8os.Mm.Mapping
import Mathlib.Data.BitVec

/-! The page tables that the loader builds, and the page tables' view of themselves. -/
namespace Gr8os.Loader

/-- Physical memory by the addresses of its aligned double words. There is enough of it for the tables. -/
abbrev Physical := Nat → BitVec 32

def store (m : Physical) (a : Nat) (w : BitVec 32) : Physical := fun x => if x = a then w else m x

def KE_PG_PDE_START : BitVec 32 := 0x00180000
def KE_PG_PDE_START_VA : BitVec 32 := 0xC0000000
def KE_PG_PPD_START : BitVec 32 := 0x01000000
def SIZEOF_PPDS : BitVec 32 := 0xC00000
def PAGE_SIZE : BitVec 32 := 0x1000

/-- GetPteAddress, and with the virtual base MiGetPteAddress. -/
def getPteAddress (base va : BitVec 32) : BitVec 32 :=
  let ecx := (va >>> 22) <<< 12
  let eax := (va >>> 10) &&& 0xFFC#32
  eax + ecx + (base + 0x1000)

def miGetPteAddress (va : BitVec 32) : BitVec 32 := getPteAddress KE_PG_PDE_START_VA va

def repStosd (m : Physical) (edi : Nat) (eax : BitVec 32) : Nat → Physical
  | 0 => m
  | ecx + 1 => repStosd (store m edi eax) (edi + 4) eax ecx

def storePages (m : Physical) (edi : Nat) (eax : BitVec 32) : Nat → Physical
  | 0 => m
  | ecx + 1 => storePages (store m edi eax) (edi + 4) (eax + PAGE_SIZE) ecx

/-- The two words that are written to find out if there is enough memory, and what is cleared. -/
def clear (m : Physical) : Physical :=
  let m := store m KE_PG_PDE_START.toNat 0x12345678
  let m := store m KE_PG_PPD_START.toNat 0x12345678
  let m := repStosd m KE_PG_PDE_START.toNat 0 1024
  repStosd m KE_PG_PPD_START.toNat 0 (SIZEOF_PPDS >>> 2).toNat

def createDirectories (m : Physical) : Physical :=
  storePages m KE_PG_PDE_START.toNat ((KE_PG_PDE_START + PAGE_SIZE) ||| 7) 1024

/-- Map pages for GRLDR and its stack, and the video buffer. -/
def mapLoader (m : Physical) : Physical :=
  let eax := (getPteAddress KE_PG_PDE_START 0x80007000).toNat
  let m := store m (eax - 8) 0x5007
  let m := store m (eax - 4) 0x6007
  let m := store m eax 0x7007
  let m := store m (eax + 4) 0x8007
  let m := store m (eax + 8) 0x9007
  let m := store m (eax + 12) 0xA007
  let eax := (getPteAddress KE_PG_PDE_START 0x800B8000).toNat
  store m eax 0xB8007

def mapTemporary (m : Physical) : Physical :=
  let eax := (getPteAddress KE_PG_PDE_START 0x7000).toNat
  let m := store m eax 0x7007
  let m := store m (eax + 4) 0x8007
  let m := store m (eax + 8) 0x9007
  store m (eax + 12) 0xA007

def mapTables (m : Physical) : Physical :=
  storePages m (getPteAddress KE_PG_PDE_START 0xC0000000).toNat (KE_PG_PDE_START ||| 7) 1025

/-- Where the processor finds the entry of a virtual address: CR3 points to the directory. -/
def walk (m : Physical) (va : BitVec 32) : Option Nat :=
  let pde := m (KE_PG_PDE_START + 4#32 * (va >>> 22)).toNat
  if pde.getLsbD 0 then some ((pde &&& 0xFFFFF000#32) + 4#32 * ((va >>> 12) &&& 0x3FF#32)).toNat else none

def translate (m : Physical) (va : BitVec 32) : Option Nat := do
  let slot ← walk m va
  let pte := m slot
  if pte.getLsbD 0 then some ((pte &&& 0xFFFFF000#32) + (va &&& 0xFFF#32)).toNat else none

/-- rep stosd at virtual addresses. A page that is not present is a fault. -/
def repStosdVirtual (m : Physical) (edi eax : BitVec 32) : Nat → Option Physical
  | 0 => some m
  | ecx + 1 => do
    let a ← translate m edi
    repStosdVirtual (store m a eax) (edi + 4) eax ecx

/-- Paging enabled, remove temporary mapping -/
def removeTemporary (m : Physical) : Option Physical := repStosdVirtual m (miGetPteAddress 0x7000) 0 5

def enablePaging (m : Physical) : Option Physical :=
  removeTemporary (mapTables (mapTemporary (mapLoader (createDirectories (clear m)))))

def pteSlot (v : Nat) : Nat := 0x181000 + 4 * v

section words

variable {w : BitVec 32}

theorem mask_page (w : BitVec 32) : (w &&& 0xFFFFF000#32).toNat = w.toNat / 4096 * 4096 := by
  have mask : ∀ i < 32, (0xFFFFF000#32).getLsbD i = decide (12 ≤ i) := by decide
  have shifts : w &&& 0xFFFFF000#32 = (w >>> 12) <<< 12 := by
    apply BitVec.eq_of_getLsbD_eq
    intro i less
    rw [BitVec.getLsbD_and, mask i less, BitVec.getLsbD_shiftLeft, BitVec.getLsbD_ushiftRight]
    by_cases low : i < 12
    · simp [low]
    · have place : 12 + (i - 12) = i := by omega
      simp [low, less, place, Nat.le_of_not_lt low]
  have small := w.isLt
  rw [shifts, BitVec.toNat_shiftLeft, BitVec.toNat_ushiftRight, Nat.shiftLeft_eq, Nat.shiftRight_eq_div_pow]
  omega

theorem low_bits (w : BitVec 32) (k : Nat) (small : k ≤ 32) :
    (w &&& BitVec.ofNat 32 (2 ^ k - 1)).toNat = w.toNat % 2 ^ k := by
  have fits : 2 ^ k - 1 < 2 ^ 32 := by
    have := Nat.pow_le_pow_right (n := 2) (by decide) small
    have := Nat.two_pow_pos k
    omega
  rw [BitVec.toNat_and, BitVec.toNat_ofNat, Nat.mod_eq_of_lt fits, Nat.and_two_pow_sub_one_eq_mod]

/-- An entry tells a page and that it is present. -/
theorem entry_parts {k : Nat} (number : w.toNat = 4096 * k + 7) :
    w.getLsbD 0 = true ∧ (w &&& 0xFFFFF000#32).toNat = 4096 * k := by
  constructor
  · rw [← BitVec.testBit_toNat, number, Nat.testBit_zero]
    simp
    omega
  · rw [mask_page, number]
    omega

theorem table_index (va : BitVec 32) : ((va >>> 10) &&& 0xFFC#32).toNat = 4 * (va.toNat / 4096 % 1024) := by
  have mask : ∀ i < 32, (0xFFC#32).getLsbD i = (decide (2 ≤ i) && (0x3FF#32).getLsbD (i - 2)) := by decide
  have shifts : (va >>> 10) &&& 0xFFC#32 = ((va >>> 12) &&& 0x3FF#32) <<< 2 := by
    apply BitVec.eq_of_getLsbD_eq
    intro i less
    rw [BitVec.getLsbD_and, mask i less, BitVec.getLsbD_shiftLeft, BitVec.getLsbD_and, BitVec.getLsbD_ushiftRight,
      BitVec.getLsbD_ushiftRight]
    by_cases low : i < 2
    · simp [low]
    · have place : 12 + (i - 2) = 10 + i := by omega
      rw [place]
      simp [low, less, Nat.le_of_not_lt low]
  have index := low_bits (va >>> 12) 10 (by decide)
  rw [shifts, BitVec.toNat_shiftLeft, Nat.shiftLeft_eq]
  change _ = _ at index
  rw [show BitVec.ofNat 32 (2 ^ 10 - 1) = 0x3FF#32 from rfl, BitVec.toNat_ushiftRight, Nat.shiftRight_eq_div_pow] at index
  omega

theorem getPteAddress_toNat (base va : BitVec 32) (room : base.toNat + 0x1000 + 4 * 2 ^ 20 ≤ 2 ^ 32) :
    (getPteAddress base va).toNat = base.toNat + 0x1000 + 4 * (va.toNat / 4096) := by
  have small := va.isLt
  have directory : ((va >>> 22) <<< 12).toNat = va.toNat / 2 ^ 22 * 4096 := by
    rw [BitVec.toNat_shiftLeft, BitVec.toNat_ushiftRight, Nat.shiftLeft_eq, Nat.shiftRight_eq_div_pow]
    omega
  have page : (base + 0x1000).toNat = base.toNat + 0x1000 := by
    rw [BitVec.toNat_add, show (0x1000 : BitVec 32).toNat = 0x1000 from rfl]
    omega
  simp only [getPteAddress]
  rw [BitVec.toNat_add, BitVec.toNat_add, table_index, directory, page]
  omega

end words

section stores

variable {m : Physical} {a edi x n i : Nat} {w eax : BitVec 32}

theorem store_same : store m a w a = w := if_pos rfl

theorem store_other (other : x ≠ a) : store m a w x = m x := if_neg other

theorem repStosd_outside (outside : x < edi ∨ edi + 4 * n ≤ x) : repStosd m edi eax n x = m x := by
  induction n generalizing m edi with
  | zero => rfl
  | succ n ih =>
    rw [repStosd, ih (by omega)]
    exact store_other (by omega)

theorem repStosd_inside (less : i < n) : repStosd m edi eax n (edi + 4 * i) = eax := by
  induction n generalizing m edi i with
  | zero => omega
  | succ n ih =>
    rw [repStosd]
    cases i with
    | zero =>
      rw [repStosd_outside (Or.inl (by omega))]
      exact store_same
    | succ i =>
      rw [show edi + 4 * (i + 1) = edi + 4 + 4 * i by omega]
      exact ih (by omega)

theorem storePages_outside (outside : x < edi ∨ edi + 4 * n ≤ x) : storePages m edi eax n x = m x := by
  induction n generalizing m edi eax with
  | zero => rfl
  | succ n ih =>
    rw [storePages, ih (by omega)]
    exact store_other (by omega)

theorem storePages_inside (less : i < n) (room : eax.toNat + 4096 * i < 2 ^ 32) :
    (storePages m edi eax n (edi + 4 * i)).toNat = eax.toNat + 4096 * i := by
  induction n generalizing m edi eax i with
  | zero => omega
  | succ n ih =>
    rw [storePages]
    cases i with
    | zero =>
      rw [storePages_outside (Or.inl (by omega)), Nat.mul_zero, Nat.add_zero, store_same, Nat.add_zero]
    | succ i =>
      have next : (eax + PAGE_SIZE).toNat = eax.toNat + 4096 := by
        rw [BitVec.toNat_add, show PAGE_SIZE.toNat = 4096 from rfl]
        omega
      rw [show edi + 4 * (i + 1) = edi + 4 + 4 * i by omega, ih (by omega) (by omega), next]
      omega

end stores

/-- The directory points to the tables, and the tables map themselves and the directory behind 0xC0000000. -/
structure Tables (m : Physical) : Prop where
  directory : ∀ i < 1024, (m (0x180000 + 4 * i)).toNat = 4096 * (0x181 + i) + 7
  self : ∀ k ≤ 1024, (m (pteSlot (0xC0000 + k))).toNat = 4096 * (0x180 + k) + 7

section tables

variable {m : Physical} {va w : BitVec 32} {v n : Nat}

theorem walk_eq (tables : Tables m) (va : BitVec 32) : walk m va = some (pteSlot (va.toNat / 4096)) := by
  have small := va.isLt
  have index : (KE_PG_PDE_START + 4#32 * (va >>> 22)).toNat = 0x180000 + 4 * (va.toNat / 2 ^ 22) := by
    rw [BitVec.toNat_add, BitVec.toNat_mul, BitVec.toNat_ushiftRight, Nat.shiftRight_eq_div_pow,
      show KE_PG_PDE_START.toNat = 0x180000 from rfl, show (4#32).toNat = 4 from rfl]
    omega
  obtain ⟨present, page⟩ := entry_parts (tables.directory (va.toNat / 2 ^ 22) (by omega))
  have slot := low_bits (va >>> 12) 10 (by decide)
  rw [show BitVec.ofNat 32 (2 ^ 10 - 1) = 0x3FF#32 from rfl, BitVec.toNat_ushiftRight, Nat.shiftRight_eq_div_pow] at slot
  simp only [walk, index]
  rw [if_pos present, BitVec.toNat_add, BitVec.toNat_mul, page, slot, show (4#32).toNat = 4 from rfl]
  unfold pteSlot
  congr 1
  omega

/-- The array of all tables, seen from behind 0xC0001000, is the array that the processor walks. -/
theorem translate_slot (tables : Tables m) (small : v < 2 ^ 20) (place : va.toNat = 0xC0001000 + 4 * v) :
    translate m va = some (pteSlot v) := by
  have page : va.toNat / 4096 = 0xC0000 + (1 + v / 1024) := by omega
  obtain ⟨present, frame⟩ := entry_parts (tables.self (1 + v / 1024) (by omega))
  have offset := low_bits va 12 (by decide)
  rw [show BitVec.ofNat 32 (2 ^ 12 - 1) = 0xFFF#32 from rfl] at offset
  simp only [translate, walk_eq tables, Option.bind_eq_bind, Option.bind_some, page]
  rw [if_pos present, BitVec.toNat_add, frame, offset]
  unfold pteSlot
  congr 1
  omega

theorem miGetPteAddress_toNat (va : BitVec 32) : (miGetPteAddress va).toNat = 0xC0001000 + 4 * (va.toNat / 4096) :=
  getPteAddress_toNat KE_PG_PDE_START_VA va (by decide)

/-- Entries of user pages are not a part of what the tables say about themselves. -/
theorem Tables.store (tables : Tables m) (user : v < 0xC0000) : Tables (store m (pteSlot v) w) := by
  constructor
  · intro i less
    rw [store_other (by unfold pteSlot; omega)]
    exact tables.directory i less
  · intro k most
    rw [store_other (by unfold pteSlot; omega)]
    exact tables.self k most

theorem repStosdVirtual_eq (tables : Tables m) (room : v + n ≤ 0xC0000) (place : va.toNat = 0xC0001000 + 4 * v) :
    repStosdVirtual m va w n = some (repStosd m (pteSlot v) w n) := by
  induction n generalizing m va v with
  | zero => rfl
  | succ n ih =>
    have here := translate_slot tables (by omega) place
    have next : (va + 4).toNat = 0xC0001000 + 4 * (v + 1) := by
      rw [BitVec.toNat_add, show (4 : BitVec 32).toNat = 4 from rfl]
      omega
    have rest := ih (tables.store (w := w) (v := v) (by omega)) (v := v + 1) (by omega) next
    simp only [repStosdVirtual, here, Option.bind_eq_bind, Option.bind_some, rest]
    rfl

theorem Tables.repStosd (tables : Tables m) (room : v + n ≤ 0xC0000) : Tables (repStosd m (pteSlot v) w n) := by
  constructor
  · intro i less
    rw [repStosd_outside (by unfold pteSlot; omega)]
    exact tables.directory i less
  · intro k most
    rw [repStosd_outside (by unfold pteSlot; omega)]
    exact tables.self k most

end tables

/-- The pages that are mapped explicitly: the stack and the loader, the video buffer, and the tables themselves. -/
def Explicit (v : Nat) : Prop := 0x80005 ≤ v ∧ v ≤ 0x8000A ∨ v = 0x800B8 ∨ 0xC0000 ≤ v ∧ v ≤ 0xC0400

def Temporary (v : Nat) : Prop := 7 ≤ v ∧ v < 12

section building

variable {m : Physical} {x v : Nat}

def built (m : Physical) : Physical := mapTables (mapTemporary (mapLoader (createDirectories (clear m))))

theorem clear_slot (small : v < 2 ^ 20) : clear m (pteSlot v) = m (pteSlot v) := by
  have directory : KE_PG_PDE_START.toNat = 0x180000 := rfl
  have database : KE_PG_PPD_START.toNat = 0x1000000 := rfl
  simp only [clear, directory, database, pteSlot]
  rw [repStosd_outside (by omega), repStosd_outside (by omega), store_other (by omega), store_other (by omega)]

theorem createDirectories_slot : createDirectories m (pteSlot v) = m (pteSlot v) := by
  have directory : KE_PG_PDE_START.toNat = 0x180000 := rfl
  simp only [createDirectories, directory, pteSlot]
  exact storePages_outside (by omega)

theorem mapLoader_other (other : x < 0x181000 ∨ ∃ v, x = pteSlot v ∧ ¬Explicit v) : mapLoader m x = m x := by
  have first : (getPteAddress KE_PG_PDE_START 0x80007000).toNat = pteSlot 0x80007 := by decide
  have second : (getPteAddress KE_PG_PDE_START 0x800B8000).toNat = pteSlot 0x800B8 := by decide
  have apart : ∀ v, Explicit v → x ≠ pteSlot v := by
    intro v explicit same
    rcases other with below | ⟨u, here, free⟩
    · unfold pteSlot at same
      omega
    · have equal : u = v := by
        unfold pteSlot at here same
        omega
      exact free (equal ▸ explicit)
  simp only [mapLoader, first, second]
  have stack₀ := apart 0x80005 (by unfold Explicit; omega)
  have stack₁ := apart 0x80006 (by unfold Explicit; omega)
  have page₀ := apart 0x80007 (by unfold Explicit; omega)
  have page₁ := apart 0x80008 (by unfold Explicit; omega)
  have page₂ := apart 0x80009 (by unfold Explicit; omega)
  have page₃ := apart 0x8000A (by unfold Explicit; omega)
  have video := apart 0x800B8 (by unfold Explicit; omega)
  unfold pteSlot at *
  rw [store_other video, store_other (by omega), store_other (by omega), store_other (by omega), store_other page₀,
    store_other (by omega), store_other (by omega)]

theorem mapTemporary_other (other : x < 0x181000 ∨ ∃ v, x = pteSlot v ∧ ¬Temporary v) : mapTemporary m x = m x := by
  have first : (getPteAddress KE_PG_PDE_START 0x7000).toNat = pteSlot 7 := by decide
  have outside : x < pteSlot 7 ∨ pteSlot 12 ≤ x := by
    rcases other with below | ⟨v, rfl, other⟩
    · unfold pteSlot
      omega
    · unfold pteSlot Temporary at *
      omega
  simp only [mapTemporary, first]
  unfold pteSlot at *
  rw [store_other (by omega), store_other (by omega), store_other (by omega), store_other (by omega)]

theorem mapTables_other (other : x < 0x181000 ∨ ∃ v, x = pteSlot v ∧ ¬Explicit v) : mapTables m x = m x := by
  have first : (getPteAddress KE_PG_PDE_START 0xC0000000).toNat = pteSlot 0xC0000 := by decide
  simp only [mapTables, first]
  apply storePages_outside
  rcases other with below | ⟨v, rfl, free⟩
  · unfold pteSlot
    omega
  · unfold pteSlot Explicit at *
    omega

theorem built_slot (small : v < 2 ^ 20) (free : ¬Explicit v) (other : ¬Temporary v) :
    built m (pteSlot v) = m (pteSlot v) := by
  rw [built, mapTables_other (Or.inr ⟨v, rfl, free⟩), mapTemporary_other (Or.inr ⟨v, rfl, other⟩),
    mapLoader_other (Or.inr ⟨v, rfl, free⟩), createDirectories_slot, clear_slot small]

theorem built_tables : Tables (built m) := by
  constructor
  · intro i less
    have below : 0x180000 + 4 * i < 0x181000 := by omega
    rw [built, mapTables_other (Or.inl below), mapTemporary_other (Or.inl below), mapLoader_other (Or.inl below),
      createDirectories]
    have entry := @storePages_inside (clear m) 0x180000 _ _ ((KE_PG_PDE_START + PAGE_SIZE) ||| 7)
      less (by rw [show ((KE_PG_PDE_START + PAGE_SIZE) ||| 7).toNat = 0x181007 by decide]; omega)
    rw [show ((KE_PG_PDE_START + PAGE_SIZE) ||| 7).toNat = 0x181007 by decide] at entry
    rw [show KE_PG_PDE_START.toNat = 0x180000 from rfl, entry]
    omega
  · intro k most
    have first : (getPteAddress KE_PG_PDE_START 0xC0000000).toNat = pteSlot 0xC0000 := by decide
    have entry := @storePages_inside (mapTemporary (mapLoader (createDirectories (clear m))))
      (pteSlot 0xC0000) 1025 k (KE_PG_PDE_START ||| 7) (by omega)
      (by rw [show (KE_PG_PDE_START ||| 7).toNat = 0x180007 by decide]; omega)
    rw [show (KE_PG_PDE_START ||| 7).toNat = 0x180007 by decide] at entry
    have place : pteSlot (0xC0000 + k) = pteSlot 0xC0000 + 4 * k := by
      unfold pteSlot
      omega
    rw [built, mapTables, first, place, entry]
    omega

theorem enablePaging_eq (m : Physical) : enablePaging m = some (repStosd (built m) (pteSlot 7) 0 5) :=
  repStosdVirtual_eq built_tables (by decide) (by decide)

/-- Whatever memory has held, the entries of the other pages are what has been there, but for the temporary ones. -/
theorem slot_after (m : Physical) (small : v < 2 ^ 20) (free : ¬Explicit v) :
    repStosd (built m) (pteSlot 7) 0 5 (pteSlot v) = if 7 ≤ v ∧ v < 12 then 0 else m (pteSlot v) := by
  by_cases temporary : 7 ≤ v ∧ v < 12
  · have place : pteSlot v = pteSlot 7 + 4 * (v - 7) := by
      unfold pteSlot
      omega
    rw [if_pos temporary, place, repStosd_inside (by omega)]
  · rw [if_neg temporary, repStosd_outside (by unfold pteSlot; omega), built_slot small free temporary]

end building

/-- The pages that are not mapped explicitly are free. -/
def OthersFree (t : Physical) : Prop :=
  ∀ va : BitVec 32, ¬Explicit (va.toNat / 4096) → ∃ slot, walk t va = some slot ∧ Mm.mmPteIsFree (t slot) = true

/-- The tables always show themselves where MiGetPteAddress looks for them. The pages that are not mapped are free just
where memory has held free entries before. -/
theorem enablePaging_tables_iff (m : Physical) : ∃ t, enablePaging m = some t ∧
    (∀ va, ∃ slot, walk t va = some slot ∧ translate t (miGetPteAddress va) = some slot) ∧
    (OthersFree t ↔
      ∀ v < 2 ^ 20, ¬Explicit v → ¬Temporary v → Mm.mmPteIsFree (m (0x181000 + 4 * v)) = true) := by
  have tables : Tables (repStosd (built m) (pteSlot 7) 0 5) := built_tables.repStosd (by decide)
  refine ⟨_, enablePaging_eq m, fun va => ?_, ?_⟩
  · have small := va.isLt
    exact ⟨_, walk_eq tables va, translate_slot tables (by omega) (miGetPteAddress_toNat va)⟩
  · constructor
    · intro free v small other temporary
      have number : (BitVec.ofNat 32 (4096 * v)).toNat / 4096 = v := by
        rw [BitVec.toNat_ofNat]
        omega
      obtain ⟨slot, here, entry⟩ := free (BitVec.ofNat 32 (4096 * v)) (by rwa [number])
      rw [walk_eq tables, number] at here
      cases here
      have outside : ¬(7 ≤ v ∧ v < 12) := temporary
      rwa [slot_after m small other, if_neg outside] at entry
    · intro free va other
      have small : va.toNat / 4096 < 2 ^ 20 := by
        have := va.isLt
        omega
      refine ⟨_, walk_eq tables va, ?_⟩
      rw [slot_after m small other]
      split
      · decide
      · exact free _ small other ‹_›

theorem ones_left_mapped : ¬∃ t, enablePaging (fun _ => 1) = some t ∧ OthersFree t := by
  rintro ⟨t, runs, free⟩
  obtain rfl := Option.some.inj (runs.symm.trans (enablePaging_eq _))
  have tables : Tables (repStosd (built fun _ => 1) (pteSlot 7) 0 5) := built_tables.repStosd (by decide)
  obtain ⟨slot, here, entry⟩ := free 0x88000000 (by unfold Explicit; decide)
  rw [walk_eq tables] at here
  cases here
  rw [slot_after _ (by decide) (by unfold Explicit; decide), if_neg (by decide)] at entry
  exact absurd entry (by decide)

end Gr8os.Loader
