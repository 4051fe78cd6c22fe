import Gr8os.Lib.Padding
import Gr8os.Ldr.Strings

/-! The eleven bytes of a directory entry that a file name is converted to. A string is the list of its characters,
none of which is zero. -/
namespace Gr8os.FsFat

open Bytes Padding Ldr

def dot : Char8 := 0x2E

def space : Char8 := 0x20

def strtoupr (string : List Char8) : List Char8 :=
  string.map fun ch => if 0x61 ≤ ch ∧ ch ≤ 0x7A then ch + (0x41 - 0x61) else ch

/-- What the loop stores, and where: it stops behind the terminator or at the count. -/
def strncpy (to_ : Nat) : List Char8 → Nat → List (Nat × Char8)
  | _, 0 => []
  | [], _ + 1 => [(to_, 0)]
  | c :: src, count + 1 => (to_, c) :: strncpy (to_ + 1) src count

/-- What is left of the file name, and what is stored in dosname. -/
def fsFatNtNameToDosName (filename : List Char8) : List Char8 × List (Nat × Char8) :=
  let nameToConvert := strtoupr filename
  let copies := match strchr dot nameToConvert with
    | some (base, extension) => strncpy 0 nameToConvert base.length ++ strncpy 8 extension 3
    | none => strncpy 0 nameToConvert nameToConvert.length
  (nameToConvert, (List.range 11).map (fun i => (i, space)) ++ (copies ++ [(11, 0)]))

/-- Memory after some stores. -/
def afterStores (memory : Buffer) (stores : List (Nat × Char8)) : Buffer :=
  stores.foldl (fun b s => fun k => if k = s.1 then s.2 else b k) memory

/-- The eleven bytes in front of the terminator. -/
def dosName (memory : Buffer) (filename : List Char8) : List Char8 :=
  (List.range 11).map (afterStores memory (fsFatNtNameToDosName filename).2)

/-- A file name of at most 8 plus 3 characters: what stands before its dot and behind it, if it has one. -/
structure ShortName where
  base : List Char8
  extension : Option (List Char8)
  baseFits : base.length ≤ 8
  extensionFits : ∀ e ∈ extension, e.length ≤ 3
  basePlain : dot ∉ base ∧ 0 ∉ base
  extensionPlain : ∀ e ∈ extension, dot ∉ e ∧ 0 ∉ e

namespace ShortName

def text (n : ShortName) : List Char8 := n.base ++ n.extension.elim [] (dot :: ·)

/-- The entry for a name: both parts in upper case and filled up with spaces. -/
def entry (n : ShortName) : List Char8 :=
  (strtoupr n.base).rightpad 8 space ++ (strtoupr (n.extension.getD [])).rightpad 3 space

/-- What a name is but for its case, for spaces at the end of its base and for an extension of three spaces. -/
def significant (n : ShortName) : List Char8 × Option (List Char8) :=
  ((strtoupr n.base).rdropWhile (· = space),
    (n.extension.map strtoupr).filter (· ≠ List.replicate 3 space))

end ShortName

section strings

variable {memory : Buffer} {stores : List (Nat × Char8)} {src : List Char8} {to_ count k : Nat}

theorem stored_append (memory : Buffer) (xs ys : List (Nat × Char8)) :
    afterStores memory (xs ++ ys) = afterStores (afterStores memory xs) ys := List.foldl_append

/-- The copy stores the characters up to the terminator, and as many as are counted. -/
theorem stored_strncpy (memory : Buffer) (to_ : Nat) (src : List Char8) (count : Nat) :
    afterStores memory (strncpy to_ src count) =
      fill memory to_ (to_ + min count (src.length + 1)) fun k => src.getD (k - to_) 0 := by
  induction src generalizing memory to_ count with
  | nil =>
    cases count with
    | zero =>
      rw [Nat.zero_min, Nat.add_zero, fill_empty]
      rfl
    | succ count =>
      have one : min (count + 1) (([] : List Char8).length + 1) = 1 := by simp
      rw [one]
      funext k
      change (if k = to_ then 0 else memory k) = if to_ ≤ k ∧ k < to_ + 1 then _ else _
      by_cases here : k = to_
      · rw [if_pos here, if_pos (by omega)]
        rfl
      · rw [if_neg here, if_neg (by omega)]
  | cons c src ih =>
    cases count with
    | zero =>
      rw [Nat.zero_min, Nat.add_zero, fill_empty]
      rfl
    | succ count =>
      have less : min (count + 1) ((c :: src).length + 1) = min count (src.length + 1) + 1 := by
        rw [List.length_cons]
        omega
      change afterStores (fun k => if k = to_ then c else memory k) (strncpy (to_ + 1) src count) = _
      rw [ih, less]
      funext k
      unfold fill
      dsimp only
      by_cases first : k = to_
      · subst first
        rw [if_neg (by omega), if_pos rfl, if_pos (by omega), Nat.sub_self]
        rfl
      · by_cases later : to_ + 1 ≤ k ∧ k < to_ + 1 + min count (src.length + 1)
        · have index : k - to_ = k - (to_ + 1) + 1 := by omega
          rw [if_pos later, if_pos (by omega), index]
          rfl
        · rw [if_neg later, if_neg first, if_neg (by omega)]

theorem strncpy_inside {limit : Nat} : (∀ s ∈ strncpy to_ src count, s.1 < limit) ↔
    count = 0 ∨ to_ + min count (src.length + 1) ≤ limit := by
  induction src generalizing to_ count with
  | nil =>
    cases count with
    | zero => simp [strncpy]
    | succ count =>
      rw [strncpy, List.forall_mem_singleton, List.length_nil]
      omega
  | cons c src ih =>
    cases count with
    | zero => simp [strncpy]
    | succ count =>
      rw [strncpy, List.forall_mem_cons, ih, List.length_cons]
      dsimp only
      omega

theorem strtoupr_length (s : List Char8) : (strtoupr s).length = s.length := List.length_map _

theorem strtoupr_append (s t : List Char8) : strtoupr (s ++ t) = strtoupr s ++ strtoupr t := List.map_append

theorem mem_strtoupr_dot {s : List Char8} : dot ∈ strtoupr s ↔ dot ∈ s := by
  have fixed : ∀ ch : Char8, (if 0x61 ≤ ch ∧ ch ≤ 0x7A then ch + (0x41 - 0x61) else ch) = dot ↔ ch = dot := by decide
  simp only [strtoupr, List.mem_map, fixed, exists_eq_right]

theorem mem_strtoupr_zero {s : List Char8} : 0 ∈ strtoupr s ↔ 0 ∈ s := by
  have fixed : ∀ ch : Char8, (if 0x61 ≤ ch ∧ ch ≤ 0x7A then ch + (0x41 - 0x61) else ch) = 0 ↔ ch = 0 := by decide
  simp only [strtoupr, List.mem_map, fixed, exists_eq_right]

theorem strchr_split {ch : Char8} {front : List Char8} (back : List Char8) (outside : ch ∉ front) :
    strchr ch (front ++ ch :: back) = some (front, back) := by
  induction front with
  | nil => exact if_pos rfl
  | cons c front ih =>
    obtain ⟨other, rest⟩ := List.ne_and_not_mem_of_not_mem_cons outside
    rw [List.cons_append, strchr, if_neg (Ne.symm other), ih rest]
    rfl

theorem stored_spaces (memory : Buffer) (n : Nat) :
    afterStores memory ((List.range n).map fun i => (i, space)) = fill memory 0 n fun _ => space := by
  induction n with
  | zero => exact (fill_empty memory 0 _).symm
  | succ n ih =>
    rw [List.range_succ, List.map_append, stored_append, ih]
    funext k
    change (if k = n then space else fill memory 0 n (fun _ => space) k) = _
    unfold fill
    by_cases last : k = n
    · rw [if_pos last, if_pos (by omega)]
    · have same : 0 ≤ k ∧ k < n ↔ 0 ≤ k ∧ k < n + 1 := by omega
      rw [if_neg last]
      exact if_congr same rfl rfl

/-- What the copy of an extension leaves in front of the spaces: a short one ends with its terminator. -/
def extensionStored : Option (List Char8) → List Char8
  | none => []
  | some e => (e ++ [0]).take 3

/-- What is stored behind the base, before the terminator: nothing or the copy of the extension. -/
def extensionStores : Option (List Char8) → List (Nat × Char8)
  | none => []
  | some e => strncpy 8 e 3

theorem stores_text (n : ShortName) : fsFatNtNameToDosName n.text = (strtoupr n.text,
    (List.range 11).map (fun i => (i, space)) ++ (strncpy 0 (strtoupr n.text) n.base.length ++
      (extensionStores (n.extension.map strtoupr) ++ [(11, 0)]))) := by
  have outside : dot ∉ strtoupr n.base := mt mem_strtoupr_dot.mp n.basePlain.1
  unfold fsFatNtNameToDosName
  dsimp only
  rw [ShortName.text]
  cases n.extension with
  | none =>
    have whole : n.base ++ (none : Option (List Char8)).elim [] (dot :: ·) = n.base := List.append_nil _
    rw [whole, strchr_none.mpr outside, strtoupr_length]
    rfl
  | some e =>
    have split : strtoupr (n.base ++ (some e).elim [] (dot :: ·)) = strtoupr n.base ++ dot :: strtoupr e :=
      strtoupr_append _ _
    rw [split, strchr_split _ outside]
    simp only [strtoupr_length, Option.map_some, extensionStores, List.append_assoc]

theorem extensionStored_length (e : Option (List Char8)) (fits : ∀ x ∈ e, x.length ≤ 3) :
    (extensionStored e).length ≤ 3 ∧ ∀ memory : Buffer, afterStores memory (extensionStores e) =
      fill memory 8 (8 + (extensionStored e).length) fun k => (extensionStored e).getD (k - 8) 0 := by
  cases e with
  | none => exact ⟨Nat.zero_le 3, fun memory => (fill_empty memory 8 _).symm⟩
  | some x =>
    have short := fits x rfl
    have length : (extensionStored (some x)).length = min 3 (x.length + 1) := by simp [extensionStored]
    refine ⟨by omega, fun memory => ?_⟩
    rw [extensionStores, stored_strncpy, length]
    apply fill_congr
    intro k above below
    rw [extensionStored, List.getD_eq_getElem?_getD, List.getD_eq_getElem?_getD, List.getElem?_take_of_lt (by omega)]
    by_cases inside : k - 8 < x.length
    · rw [List.getElem?_append_left inside]
    · have last : k - 8 = x.length := by omega
      rw [last, List.getElem?_eq_none (Nat.le_refl _), List.getElem?_concat_length]
      rfl

theorem shortExtension (n : ShortName) : ∀ x ∈ n.extension.map strtoupr, x.length ≤ 3 := by
  intro x member
  obtain ⟨e, here, rfl⟩ := Option.map_eq_some_iff.mp member
  exact (strtoupr_length _).trans_le (n.extensionFits e here)

theorem stored_text (memory : Buffer) (n : ShortName) (below : k < 11) :
    afterStores memory (fsFatNtNameToDosName n.text).2 k =
      if k < 8 then (strtoupr n.base).getD k space
      else (extensionStored (n.extension.map strtoupr)).getD (k - 8) space := by
  have last : ∀ b : Buffer, afterStores b [(11, 0)] k = b k := fun b => if_neg (Nat.ne_of_lt below)
  have text : strtoupr n.text = strtoupr n.base ++ strtoupr (n.extension.elim [] (dot :: ·)) := strtoupr_append _ _
  have count : min n.base.length ((strtoupr n.text).length + 1) = n.base.length := by
    rw [text, List.length_append, strtoupr_length]
    omega
  rw [stores_text, stored_append, stored_append, stored_append, last, (extensionStored_length _ (shortExtension n)).2,
    stored_strncpy, stored_spaces, count, Nat.zero_add]
  by_cases first : k < 8
  · rw [if_pos first, fill_outside (.inl first)]
    by_cases inside : k < n.base.length
    · have here : k < (strtoupr n.base).length := (strtoupr_length _).symm ▸ inside
      rw [fill_inside (Nat.zero_le k) inside, text, Nat.sub_zero, List.getD_eq_getElem?_getD, List.getD_eq_getElem?_getD,
        List.getElem?_append_left here, List.getElem?_eq_getElem here]
      rfl
    · have outside : (strtoupr n.base).length ≤ k := (strtoupr_length _).trans_le (Nat.le_of_not_lt inside)
      rw [fill_outside (.inr (Nat.le_of_not_lt inside)), fill_inside (Nat.zero_le k) below,
        List.getD_eq_getElem?_getD, List.getElem?_eq_none outside]
      rfl
  · have behind : n.base.length ≤ k := Nat.le_trans n.baseFits (Nat.le_of_not_lt first)
    rw [if_neg first]
    by_cases inside : k < 8 + (extensionStored (n.extension.map strtoupr)).length
    · have here : k - 8 < (extensionStored (n.extension.map strtoupr)).length := by omega
      rw [fill_inside (Nat.le_of_not_lt first) inside, List.getD_eq_getElem?_getD, List.getD_eq_getElem?_getD,
        List.getElem?_eq_getElem here]
      rfl
    · have outside : (extensionStored (n.extension.map strtoupr)).length ≤ k - 8 := by omega
      rw [fill_outside (.inr (Nat.le_of_not_lt inside)), fill_outside (.inr behind),
        fill_inside (Nat.zero_le k) below, List.getD_eq_getElem?_getD, List.getElem?_eq_none outside]
      rfl

theorem dosName_text (memory : Buffer) (n : ShortName) : dosName memory n.text =
    (strtoupr n.base).rightpad 8 space ++ (extensionStored (n.extension.map strtoupr)).rightpad 3 space := by
  have fits : (strtoupr n.base).length ≤ 8 := (strtoupr_length _).trans_le n.baseFits
  have short := (extensionStored_length _ (shortExtension n)).1
  rw [dosName, List.range_add (n := 8) (m := 3), List.map_append, List.map_map, ← map_range_getD fits,
    ← map_range_getD short]
  congr 1
  · apply List.map_congr_left
    intro k member
    have low : k < 8 := List.mem_range.mp member
    rw [stored_text memory n (by omega), if_pos low]
  · apply List.map_congr_left
    intro k member
    have low : k < 3 := List.mem_range.mp member
    rw [Function.comp_apply, stored_text memory n (by omega), if_neg (by omega), Nat.add_sub_cancel_left]

theorem rightpad_length {xs : List Char8} {n : Nat} (fits : xs.length ≤ n) : (xs.rightpad n space).length = n := by
  rw [List.rightpad, List.length_append, List.length_replicate]
  omega

theorem base_length (n : ShortName) : ((strtoupr n.base).rightpad 8 space).length = 8 :=
  rightpad_length ((strtoupr_length _).trans_le n.baseFits)

theorem stored_full {e : List Char8} (full : e.length = 3) : (extensionStored (some e)).rightpad 3 space = e := by
  have copied : extensionStored (some e) = e := by
    rw [extensionStored, List.take_append_of_le_length (Nat.le_of_eq full.symm), ← full, List.take_length]
  rw [copied, List.rightpad, full, Nat.sub_self, List.replicate_zero, List.append_nil]

theorem stored_short {e : List Char8} (short : e.length < 3) :
    (extensionStored (some e)).rightpad 3 space = e ++ 0 :: List.replicate (2 - e.length) space := by
  have copied : extensionStored (some e) = e ++ [0] := by
    rw [extensionStored, List.take_of_length_le]
    rw [List.length_append, List.length_singleton]
    omega
  have left : 3 - (e ++ [(0 : Char8)]).length = 2 - e.length := by
    rw [List.length_append, List.length_singleton]
    omega
  rw [copied, List.rightpad, left, List.append_assoc]
  rfl

theorem extensionStored_iff (e : Option (List Char8)) (fits : ∀ x ∈ e, x.length ≤ 3) :
    (extensionStored e).rightpad 3 space = (e.getD []).rightpad 3 space ↔ ∀ x ∈ e, x.length = 3 := by
  cases e with
  | none => exact iff_of_true rfl fun x impossible => by cases impossible
  | some x =>
    rcases Nat.lt_or_eq_of_le (fits x rfl) with short | full
    · refine iff_of_false ?_ fun all => Nat.ne_of_lt short (all x rfl)
      intro same
      have left : 3 - x.length = 2 - x.length + 1 := by omega
      rw [stored_short short, Option.getD_some, List.rightpad, left, List.replicate_succ] at same
      have zero : (0 : Char8) = space := (List.cons.inj (List.append_cancel_left same)).1
      exact absurd zero (by decide)
    · refine iff_of_true ?_ fun y member => ?_
      · rw [stored_full full, Option.getD_some, List.rightpad, full, Nat.sub_self, List.replicate_zero, List.append_nil]
      · cases member
        exact full

/-- What three stored bytes tell of the extension. -/
def readExtension (bytes : List Char8) : Option (List Char8) :=
  if 0 ∈ bytes then some (bytes.takeWhile (· ≠ 0))
  else if bytes = List.replicate 3 space then none else some bytes

theorem readExtension_stored (e : Option (List Char8)) (fits : ∀ x ∈ e, x.length ≤ 3) (plain : ∀ x ∈ e, 0 ∉ x) :
    readExtension ((extensionStored e).rightpad 3 space) = e.filter (· ≠ List.replicate 3 space) := by
  cases e with
  | none => decide
  | some x =>
    have zeroFree := plain x rfl
    rcases Nat.lt_or_eq_of_le (fits x rfl) with short | full
    · have zero : (0 : Char8) ∈ x ++ 0 :: List.replicate (2 - x.length) space :=
        List.mem_append_right x List.mem_cons_self
      have nonzero : ∀ c ∈ x, decide (c ≠ 0) = true := fun c member =>
        decide_eq_true fun is_zero => zeroFree (is_zero ▸ member)
      have apart : x ≠ List.replicate 3 space := fun same => by simp [same] at short
      rw [stored_short short, readExtension, if_pos zero, List.takeWhile_append_of_pos nonzero,
        List.takeWhile_cons_of_neg (by decide), List.append_nil, Option.filter_some, if_pos (decide_eq_true apart)]
    · rw [stored_full full, readExtension, if_neg zeroFree, Option.filter_some]
      by_cases blank : x = List.replicate 3 space
      · rw [if_pos blank, if_neg (by simp [blank])]
      · rw [if_neg blank, if_pos (decide_eq_true blank)]

theorem stored_filter (e : Option (List Char8)) :
    (extensionStored (e.filter (· ≠ List.replicate 3 space))).rightpad 3 space = (extensionStored e).rightpad 3 space := by
  cases e with
  | none => rfl
  | some x =>
    rw [Option.filter_some]
    by_cases blank : x = List.replicate 3 space
    · rw [if_neg (by simp [blank]), blank]
      decide
    · rw [if_pos (decide_eq_true blank)]

end strings

def Converted (n : ShortName) : Prop := ∀ memory, dosName memory n.text = n.entry

/-- The bytes of two names are the same if the names differ only in case, and only then. -/
def ToldApart (n m : ShortName) : Prop :=
  ∀ memory memory', dosName memory n.text = dosName memory' m.text ↔ strtoupr n.text = strtoupr m.text

def StoresInside (filename : List Char8) : Prop := ∀ s ∈ (fsFatNtNameToDosName filename).2, s.1 < 12

theorem converted_iff (n : ShortName) : Converted n ↔ ∀ e ∈ n.extension, e.length = 3 := by
  have parts : ∀ memory, dosName memory n.text = n.entry ↔ ∀ e ∈ n.extension.map strtoupr, e.length = 3 := by
    intro memory
    have getD : strtoupr (n.extension.getD []) = (n.extension.map strtoupr).getD [] := by cases n.extension <;> rfl
    rw [dosName_text, ShortName.entry, getD, List.append_cancel_left_eq, extensionStored_iff _ (shortExtension n)]
  have lengths : (∀ e ∈ n.extension.map strtoupr, e.length = 3) ↔ ∀ e ∈ n.extension, e.length = 3 := by
    cases n.extension with
    | none => exact iff_of_true (fun e impossible => by cases impossible) fun e impossible => by cases impossible
    | some e => simp [strtoupr_length]
  rw [← lengths]
  exact ⟨fun converted => (parts fun _ => 0).mp (converted _), fun full memory => (parts memory).mpr full⟩

theorem dosName_eq_iff (memory memory' : Buffer) (n m : ShortName) :
    dosName memory n.text = dosName memory' m.text ↔ n.significant = m.significant := by
  have zeroFree (n : ShortName) : ∀ x ∈ n.extension.map strtoupr, 0 ∉ x := by
    intro x member
    obtain ⟨e, here, rfl⟩ := Option.map_eq_some_iff.mp member
    exact mt mem_strtoupr_zero.mp (n.extensionPlain e here).2
  have fits (n : ShortName) : (strtoupr n.base).length ≤ 8 := (strtoupr_length _).trans_le n.baseFits
  rw [dosName_text, dosName_text]
  constructor
  · intro same
    obtain ⟨base, extension⟩ := List.append_inj same ((base_length n).trans (base_length m).symm)
    have read := congrArg readExtension extension
    rw [readExtension_stored _ (shortExtension n) (zeroFree n), readExtension_stored _ (shortExtension m) (zeroFree m)]
      at read
    exact Prod.ext ((rightpad_inj (fits n) (fits m)).mp base) read
  · intro same
    obtain ⟨base, extension⟩ := Prod.mk.inj same
    rw [(rightpad_inj (fits n) (fits m)).mpr base, ← stored_filter, extension, stored_filter]

theorem toldApart_iff (n m : ShortName) :
    ToldApart n m ↔ (n.significant = m.significant → strtoupr n.text = strtoupr m.text) := by
  constructor
  · intro apart alike
    exact (apart (fun _ => 0) fun _ => 0).mp ((dosName_eq_iff _ _ n m).mpr alike)
  · intro apart memory memory'
    refine ⟨fun same => apart ((dosName_eq_iff _ _ n m).mp same), fun same => ?_⟩
    -- The bytes are made from the name in upper case.
    have bytes : dosName memory n.text = dosName memory m.text := by
      unfold dosName fsFatNtNameToDosName
      rw [same]
    rw [bytes, dosName_eq_iff]

theorem storesInside_iff (filename : List Char8) :
    StoresInside filename ↔ (filename.takeWhile (· ≠ dot)).length ≤ 12 := by
  have outer : StoresInside filename ↔ ∀ s ∈ (match strchr dot (strtoupr filename) with
      | some (base, extension) => strncpy 0 (strtoupr filename) base.length ++ strncpy 8 extension 3
      | none => strncpy 0 (strtoupr filename) (strtoupr filename).length), s.1 < 12 := by
    have pad : ∀ s ∈ (List.range 11).map (fun i => (i, space)), s.1 < 12 := by decide
    have last : ∀ s ∈ [((11 : Nat), (0 : Char8))], s.1 < 12 := by decide
    unfold StoresInside fsFatNtNameToDosName
    simp only [List.forall_mem_append]
    exact ⟨fun all => all.2.1, fun copies => ⟨pad, copies, last⟩⟩
  have plain : ∀ s : List Char8, dot ∉ s → ∀ c ∈ s, decide (c ≠ dot) = true := by
    intro s outside c member
    exact decide_eq_true fun is_dot => outside (is_dot ▸ member)
  rw [outer]
  by_cases dotted : dot ∈ filename
  · obtain ⟨base, rest, rfl, first⟩ := List.eq_append_cons_of_mem dotted
    have split : strtoupr (base ++ dot :: rest) = strtoupr base ++ dot :: strtoupr rest := strtoupr_append _ _
    rw [split, strchr_split _ (mt mem_strtoupr_dot.mp first), List.takeWhile_append_of_pos (plain base first),
      List.takeWhile_cons_of_neg (by decide), List.append_nil]
    simp only [List.forall_mem_append]
    rw [strncpy_inside, strncpy_inside, strtoupr_length, List.length_append, strtoupr_length]
    omega
  · rw [strchr_none.mpr (mt mem_strtoupr_dot.mp dotted), List.takeWhile_eq_self_iff.mpr (plain filename dotted)]
    dsimp only
    rw [strncpy_inside, strtoupr_length]
    omega

/-- Every string with one dot at most that is not too long on either side of it is a short name. -/
theorem shortName_text {string : List Char8} (terminated : 0 ∉ string) (dots : string.count dot ≤ 1)
    (base : (string.takeWhile (· ≠ dot)).length ≤ 8) (extension : (string.dropWhile (· ≠ dot)).length ≤ 4) :
    ∃ n : ShortName, n.text = string := by
  have plain : ∀ s : List Char8, dot ∉ s → ∀ c ∈ s, decide (c ≠ dot) = true := by
    intro s outside c member
    exact decide_eq_true fun is_dot => outside (is_dot ▸ member)
  by_cases dotted : dot ∈ string
  · obtain ⟨front, back, rfl, first⟩ := List.eq_append_cons_of_mem dotted
    rw [List.takeWhile_append_of_pos (plain front first), List.takeWhile_cons_of_neg (by decide), List.append_nil] at base
    rw [List.dropWhile_append_of_pos (plain front first), List.dropWhile_cons_of_neg (by decide), List.length_cons]
      at extension
    rw [List.count_append, List.count_cons_self] at dots
    have second : dot ∉ back := List.count_eq_zero.mp (by omega)
    rw [List.mem_append, List.mem_cons, not_or, not_or] at terminated
    refine ⟨⟨front, some back, base, ?_, ⟨first, terminated.1⟩, ?_⟩, rfl⟩
    · intro e same
      cases same
      omega
    · intro e same
      cases same
      exact ⟨second, terminated.2.2⟩
  · rw [List.takeWhile_eq_self_iff.mpr (plain string dotted)] at base
    refine ⟨⟨string, none, base, ?_, ⟨dotted, terminated⟩, ?_⟩, List.append_nil string⟩
    · intro e impossible
      cases impossible
    · intro e impossible
      cases impossible

/-- A name is converted as it should be unless its extension is shorter than three characters; two names are told apart
by more than case unless spaces alone make the difference; and a string stays in dosname if its dot, or its end, comes
after twelve characters at most. -/
theorem fsFatNtNameToDosName_iff (n m : ShortName) (filename : List Char8) :
    (Converted n ↔ ∀ e ∈ n.extension, e.length = 3) ∧
    (ToldApart n m ↔ (n.significant = m.significant → strtoupr n.text = strtoupr m.text)) ∧
    (StoresInside filename ↔ (filename.takeWhile (· ≠ dot)).length ≤ 12) :=
  ⟨converted_iff n, toldApart_iff n m, storesInside_iff filename⟩

def oneLetterExtension : ShortName where
  base := [0x61]
  extension := some [0x63]
  baseFits := by decide
  extensionFits := by decide
  basePlain := by decide
  extensionPlain := by decide

theorem oneLetterExtension_unpadded : ¬Converted oneLetterExtension := by
  intro converted
  exact absurd (converted fun _ => 0) (by decide)

end Gr8os.FsFat
