import Gr8os.Mm.Ppd

/-! The page lists stay a partition of the descriptors they name. -/
namespace Gr8os.Mm

open Intrusive Runs

def links (s : MmState) : Links Nat := ⟨fun p => (s.ppd p).u1, fun p => (s.ppd p).u2⟩

/-- Every list is a chain of exactly the descriptors whose location names it. -/
structure PageListsOk (s : MmState) (lists : PageList → List Nat) : Prop where
  placed : s.mmPpdDatabase ≠ 0
  chain : ∀ l, Chain 0 (links s) (s.pageListHead l) (lists l)
  member : ∀ l p, p ∈ lists l ↔ s.Mapped p ∧ (s.ppd p).pageLocation = .list l

def WellFormed (s : MmState) : Prop := ∃ lists, PageListsOk s lists

/-- Replace all links and list heads at once. -/
def MmState.relink (s : MmState) (m : Links Nat) (heads : PageList → Nat) : MmState :=
  { s with
    ppd := fun p => { s.ppd p with u1 := m.flink p, u2 := m.blink p }
    pageListHead := heads }

@[simp] theorem links_flink (s : MmState) (p : Nat) : (links s).flink p = (s.ppd p).u1 := rfl
@[simp] theorem links_blink (s : MmState) (p : Nat) : (links s).blink p = (s.ppd p).u2 := rfl
@[simp] theorem links_relink (s : MmState) (m : Links Nat) (heads : PageList → Nat) :
    links (s.relink m heads) = m := rfl
@[simp] theorem relink_head (s : MmState) (m : Links Nat) (heads : PageList → Nat) :
    (s.relink m heads).pageListHead = heads := rfl
@[simp] theorem relink_location (s : MmState) (m : Links Nat) (heads : PageList → Nat) (p : Nat) :
    ((s.relink m heads).ppd p).pageLocation = (s.ppd p).pageLocation := rfl
@[simp] theorem relink_mapped (s : MmState) (m : Links Nat) (heads : PageList → Nat) (p : Nat) :
    (s.relink m heads).Mapped p ↔ s.Mapped p := Iff.rfl

theorem relink_relink (s : MmState) (m n : Links Nat) (heads others : PageList → Nat) :
    (s.relink m heads).relink n others = s.relink n others := rfl

theorem mmGetPpdPfn_mmPfnPpd (s : MmState) (pfn : Nat) : mmGetPpdPfn s (mmPfnPpd s pfn) = pfn := by
  unfold mmGetPpdPfn mmPfnPpd
  rw [Nat.add_sub_cancel_left, Nat.mul_div_cancel_left _ (by decide : 0 < sizeofMmppd)]

theorem mapped_mmPfnPpd (s : MmState) (pfn : Nat) : s.Mapped (mmPfnPpd s pfn) ↔ pfn < s.physicalMemoryPages := by
  simp [MmState.Mapped, mmGetPpdPfn_mmPfnPpd]

theorem mapped_ne_zero {s : MmState} {p : Nat} (placed : s.mmPpdDatabase ≠ 0) (h : s.Mapped p) : p ≠ 0 := by
  have start := h.1
  unfold mmPfnPpd at start
  omega

theorem update_eq {s : MmState} {p : Nat} {f : Mmppd → Mmppd} (h : s.Mapped p) :
    s.update p f = some { s with ppd := fun q => if q = p then f (s.ppd q) else s.ppd q } := if_pos h

theorem setNextFlink_eq {s : MmState} {p : Nat} (h : s.Mapped p) (next : Nat) :
    s.setNextFlink p next = some (s.relink ((links s).setFlink p next) s.pageListHead) := by
  simp only [MmState.setNextFlink, update_eq h, Option.some.injEq]
  ext q <;> simp [MmState.relink, links] <;> split <;> rfl

theorem setPrevBlink_eq {s : MmState} {p : Nat} (h : s.Mapped p) (prev : Nat) :
    s.setPrevBlink p prev = some (s.relink ((links s).setBlink p prev) s.pageListHead) := by
  simp only [MmState.setPrevBlink, update_eq h, Option.some.injEq]
  ext q <;> simp [MmState.relink, links] <;> split <;> rfl

theorem setHead_eq (s : MmState) (l : PageList) (p : Nat) :
    s.setHead l p = s.relink (links s) (fun k => if k = l then p else s.pageListHead k) := by
  ext <;> rfl

/-- The unlink code bridges over the descriptor and moves the head with the first one. -/
theorem miUnlinkPpd_eq {s : MmState} {p : Nat} {l : PageList}
    (prevOk : (s.ppd p).u2 = 0 ∨ s.Mapped (s.ppd p).u2) (nextOk : (s.ppd p).u1 = 0 ∨ s.Mapped (s.ppd p).u1) :
    miUnlinkPpd s p l = some (s.relink ((links s).detach 0 p)
      (fun k => if k = l ∧ (s.ppd p).u2 = 0 then (s.ppd p).u1 else s.pageListHead k)) := by
  unfold Links.detach
  rw [links_flink, links_blink]
  by_cases hp : (s.ppd p).u2 = 0 <;> by_cases hn : (s.ppd p).u1 = 0
  · have code : miUnlinkPpd s p l = some (s.setHead l 0) := by simp [miUnlinkPpd, hp, hn]
    simp [code, hp, hn, setHead_eq]
  · have mn : (s.setHead l (s.ppd p).u1).Mapped (s.ppd p).u1 := nextOk.resolve_left hn
    have code : miUnlinkPpd s p l = (s.setHead l (s.ppd p).u1).setPrevBlink (s.ppd p).u1 0 := by
      simp [miUnlinkPpd, hp, hn]
    rw [code, setPrevBlink_eq mn, setHead_eq]
    simp [hp, hn, relink_relink]
  · have code : miUnlinkPpd s p l = s.setNextFlink (s.ppd p).u2 0 := by simp [miUnlinkPpd, hp, hn]
    rw [code, setNextFlink_eq (prevOk.resolve_left hp)]
    simp [hp, hn]
  · have code : miUnlinkPpd s p l = (s.setNextFlink (s.ppd p).u2 (s.ppd p).u1).bind
        fun s' => s'.setPrevBlink (s.ppd p).u1 (s.ppd p).u2 := by simp [miUnlinkPpd, hp, hn]
    rw [code, setNextFlink_eq (prevOk.resolve_left hp), Option.bind_some, setPrevBlink_eq]
    · simp [hp, hn, relink_relink]
    · exact (relink_mapped ..).mpr (nextOk.resolve_left hn)

theorem miLinkPpd_eq {s : MmState} {p : Nat} {l : PageList} (here : s.Mapped p)
    (headOk : s.pageListHead l = 0 ∨ s.Mapped (s.pageListHead l)) :
    miLinkPpd s l p = some (s.relink ((links s).push 0 (s.pageListHead l) p)
      (fun k => if k = l then p else s.pageListHead k)) := by
  have first : (s.setNextFlink p (s.pageListHead l)).bind (fun s => s.setPrevBlink p 0) =
      some (s.relink (((links s).setFlink p (s.pageListHead l)).setBlink p 0) s.pageListHead) := by
    rw [setNextFlink_eq here, Option.bind_some, setPrevBlink_eq ((relink_mapped ..).mpr here)]
    rfl
  unfold miLinkPpd Links.push
  simp only [Option.bind_eq_bind, ← Option.bind_assoc, first, Option.bind_some]
  by_cases hh : s.pageListHead l = 0
  · simp [hh, setHead_eq, relink_relink]
  · have mh := (relink_mapped s (((links s).setFlink p (s.pageListHead l)).setBlink p 0)
      s.pageListHead _).mpr (headOk.resolve_left hh)
    simp [hh, setPrevBlink_eq mh, setHead_eq, relink_relink]

/-- What a list edit leaves alone. -/
structure SameFrames (s t : MmState) : Prop where
  pages : t.physicalMemoryPages = s.physicalMemoryPages
  database : t.mmPpdDatabase = s.mmPpdDatabase
  location : ∀ p, (t.ppd p).pageLocation = (s.ppd p).pageLocation

theorem SameFrames.trans {s t u : MmState} (h : SameFrames s t) (k : SameFrames t u) : SameFrames s u :=
  ⟨k.pages.trans h.pages, k.database.trans h.database, fun p => (k.location p).trans (h.location p)⟩

theorem mapped_congr {s t : MmState} (pages : t.physicalMemoryPages = s.physicalMemoryPages)
    (database : t.mmPpdDatabase = s.mmPpdDatabase) (p : Nat) : t.Mapped p ↔ s.Mapped p := by
  simp only [MmState.Mapped, mmPfnPpd, mmGetPpdPfn, pages, database]

/-- The four lists are disjoint chains of descriptors. -/
structure Chains (s : MmState) (lists : PageList → List Nat) : Prop where
  placed : s.mmPpdDatabase ≠ 0
  chain : ∀ l, Chain 0 (links s) (s.pageListHead l) (lists l)
  mapped : ∀ l, ∀ p ∈ lists l, s.Mapped p
  disjoint : ∀ {k l p}, p ∈ lists k → p ∈ lists l → k = l

theorem PageListsOk.chains {s : MmState} {lists : PageList → List Nat} (ok : PageListsOk s lists) :
    Chains s lists where
  placed := ok.placed
  chain := ok.chain
  mapped := fun l p hp => ((ok.member l p).mp hp).1
  disjoint := by
    intro k l p hk hl
    have here := ((ok.member k p).mp hk).2.symm.trans ((ok.member l p).mp hl).2
    exact PageLocation.list.inj here

theorem chains_head {s : MmState} {lists : PageList → List Nat} (ok : Chains s lists) (l : PageList) :
    s.pageListHead l = 0 ∨ s.Mapped (s.pageListHead l) := by
  have first := chainFrom_first (ok.chain l).2
  cases h : lists l with
  | nil => exact .inl (by simp [first, h])
  | cons p ps =>
    have hp : p ∈ lists l := by simp [h]
    have head : s.pageListHead l = p := by simp [first, h]
    exact .inr (head ▸ ok.mapped l p hp)

theorem unlink_chains {s : MmState} {lists : PageList → List Nat} {l : PageList} {p : Nat}
    (ok : Chains s lists) (hp : p ∈ lists l) :
    ∃ t, miUnlinkPpd s p l = some t ∧ Chains t (fun k => (lists k).erase p) ∧ SameFrames s t := by
  have near := chain_neighbours (ok.chain l) hp
  have nextOk := near.1.imp_right (ok.mapped l _)
  have prevOk := near.2.imp_right (ok.mapped l _)
  refine ⟨_, miUnlinkPpd_eq prevOk nextOk, ⟨ok.placed, ?_, ?_, ?_⟩, ⟨rfl, rfl, fun _ => rfl⟩⟩
  · intro k
    by_cases hk : k = l
    · subst hk
      obtain ⟨xs, ys, split⟩ := List.append_of_mem hp
      have chain := ok.chain k
      rw [split] at chain
      have fresh : p ∉ xs := by
        have distinct := chain.1
        intro hx
        exact (List.nodup_append.mp distinct).2.2 p hx p (by simp) rfl
      have rest := chain_detach chain
      rw [links_blink, links_flink] at rest
      simpa [split, List.erase_append_right _ fresh] using rest
    · have apart : ∀ q ∈ lists k, q ∉ lists l := fun q hq hl => hk (ok.disjoint hq hl)
      have missing : p ∉ lists k := fun hc => hk (ok.disjoint hc hp)
      simpa [hk, List.erase_of_not_mem missing] using
        chain_detach_frame (ok.chain l) hp (ok.chain k) apart
  · intro k q hq
    exact (relink_mapped ..).mpr (ok.mapped k q (List.mem_of_mem_erase hq))
  · intro j k q hj hk
    exact ok.disjoint (List.mem_of_mem_erase hj) (List.mem_of_mem_erase hk)

theorem link_chains {s : MmState} {lists : PageList → List Nat} {p : Nat} (ok : Chains s lists)
    (l : PageList) (here : s.Mapped p) (fresh : ∀ k, p ∉ lists k) :
    ∃ t, miLinkPpd s l p = some t ∧ Chains t (fun k => if k = l then p :: lists k else lists k) ∧
      SameFrames s t := by
  refine ⟨_, miLinkPpd_eq here (chains_head ok l), ⟨ok.placed, ?_, ?_, ?_⟩, ⟨rfl, rfl, fun _ => rfl⟩⟩
  · intro k
    by_cases hk : k = l
    · subst hk
      simpa using chain_push (ok.chain k) (mapped_ne_zero ok.placed here) (fresh k)
    · have apart : ∀ q ∈ lists k, q ∉ lists l := fun q hq hl => hk (ok.disjoint hq hl)
      simpa [hk] using chain_push_frame (ok.chain l) (ok.chain k) apart (fresh k)
  · intro k q hq
    apply (relink_mapped ..).mpr
    by_cases hk : k = l
    · rcases List.mem_cons.mp (by simpa [hk] using hq) with rfl | hq
      · exact here
      · exact ok.mapped l q hq
    · exact ok.mapped k q (by simpa [hk] using hq)
  · intro j k q hj hk
    by_cases hq : q = p
    · subst hq
      have only : ∀ i, q ∈ (if i = l then q :: lists i else lists i) → i = l := by
        intro i hi
        by_cases hil : i = l
        · exact hil
        · exact absurd (by simpa [hil] using hi) (fresh i)
      exact (only j hj).trans (only k hk).symm
    · have inList : ∀ i, q ∈ (if i = l then p :: lists i else lists i) → q ∈ lists i := by
        intro i hi
        by_cases hil : i = l <;> simpa [hil, hq] using hi
      exact ok.disjoint (inList j hj) (inList k hk)

/-- Rewriting a descriptor that is in no list disturbs none. -/
theorem update_chains {s : MmState} {lists : PageList → List Nat} {p : Nat} (ok : Chains s lists)
    (here : s.Mapped p) (fresh : ∀ k, p ∉ lists k) (f : Mmppd → Mmppd) :
    ∃ t, s.update p f = some t ∧ Chains t lists := by
  refine ⟨_, update_eq here, ok.placed, ?_, ok.mapped, ok.disjoint⟩
  intro l
  apply chain_congr _ _ (ok.chain l)
  · intro q hq
    have hne : q ≠ p := by rintro rfl; exact fresh l hq
    simp [links, hne]
  · intro q hq
    have hne : q ≠ p := by rintro rfl; exact fresh l hq
    simp [links, hne]

/-- The lists after one descriptor has moved to a location. -/
def moved (lists : PageList → List Nat) (p : Nat) (newLocation : PageLocation) (k : PageList) : List Nat :=
  if newLocation = .list k then p :: (lists k).erase p else (lists k).erase p

theorem mem_moved {lists : PageList → List Nat} {p q : Nat} {newLocation : PageLocation} {k : PageList}
    (distinct : (lists k).Nodup) :
    q ∈ moved lists p newLocation k ↔ if q = p then newLocation = .list k else q ∈ lists k := by
  have erased := distinct.mem_erase_iff (a := q) (b := p)
  unfold moved
  by_cases hk : newLocation = .list k <;> by_cases hq : q = p <;> simp_all

structure Moved (s t : MmState) (p : Nat) (newLocation : PageLocation) : Prop where
  pages : t.physicalMemoryPages = s.physicalMemoryPages
  database : t.mmPpdDatabase = s.mmPpdDatabase
  location : ∀ q, (t.ppd q).pageLocation = if q = p then newLocation else (s.ppd q).pageLocation

/-- The unlink part of a change of location, which a descriptor outside of the lists skips. -/
theorem leaveLists_chains {s : MmState} {lists : PageList → List Nat} {p : Nat} (ok : PageListsOk s lists)
    (here : s.Mapped p) :
    ∃ t, leaveLists s p = some t ∧
      Chains t (fun k => (lists k).erase p) ∧ SameFrames s t ∧ ∀ k, p ∉ (lists k).erase p := by
  have absent : ∀ k, p ∉ (lists k).erase p := fun k => (ok.chain k).1.not_mem_erase
  have stay : (∀ k, p ∉ lists k) → Chains s (fun k => (lists k).erase p) := by
    intro missing
    have same : (fun k => (lists k).erase p) = lists := by
      funext k
      exact List.erase_of_not_mem (missing k)
    rw [same]
    exact ok.chains
  unfold leaveLists
  cases h : (s.ppd p).pageLocation with
  | list l =>
    obtain ⟨t, code, chains, same⟩ := unlink_chains ok.chains ((ok.member l p).mpr ⟨here, h⟩)
    exact ⟨t, code, chains, same, absent⟩
  | activeAndValid =>
    exact ⟨s, rfl, stay fun k hk => by simp [((ok.member k p).mp hk).2] at h, ⟨rfl, rfl, fun _ => rfl⟩, absent⟩
  | transitionPage =>
    exact ⟨s, rfl, stay fun k hk => by simp [((ok.member k p).mp hk).2] at h, ⟨rfl, rfl, fun _ => rfl⟩, absent⟩
  | reservedOrBadPage =>
    exact ⟨s, rfl, stay fun k hk => by simp [((ok.member k p).mp hk).2] at h, ⟨rfl, rfl, fun _ => rfl⟩, absent⟩

/-- The other part: the descriptor joins a list or has its two words cleared. -/
theorem joinLists_chains {s : MmState} {lists : PageList → List Nat} {p : Nat} (ok : Chains s lists)
    (here : s.Mapped p) (fresh : ∀ k, p ∉ lists k) (newLocation : PageLocation) :
    ∃ t, joinLists s p newLocation = some t ∧
      Chains t (fun k => if newLocation = .list k then p :: lists k else lists k) ∧ SameFrames s t := by
  have cleared : ∃ t, (s.update p fun d => { d with u1 := 0, u2 := 0 }) = some t ∧
      Chains t lists ∧ SameFrames s t := by
    obtain ⟨t, code, chains⟩ := update_chains ok here fresh fun d => { d with u1 := 0, u2 := 0 }
    refine ⟨t, code, chains, ?_⟩
    rw [update_eq here] at code
    cases Option.some.inj code
    refine ⟨rfl, rfl, fun q => ?_⟩
    by_cases hq : q = p <;> simp [hq]
  cases newLocation with
  | list l =>
    obtain ⟨t, code, chains, same⟩ := link_chains ok l here fresh
    refine ⟨t, code, ?_, same⟩
    simpa [eq_comm] using chains
  | activeAndValid => simpa [joinLists] using cleared
  | transitionPage => simpa [joinLists] using cleared
  | reservedOrBadPage => simpa [joinLists] using cleared

/-- Changing the location of any descriptor moves it to the list of its new location, or to none. -/
theorem miChangePageLocation_moves {checked : Bool} {s : MmState} {lists : PageList → List Nat} {p : Nat}
    {newLocation : PageLocation} (ok : PageListsOk s lists) (here : s.Mapped p)
    (passes : (checked && (s.ppd p).pageLocation = newLocation) = false) :
    ∃ t, miChangePageLocation checked s p newLocation = some t ∧
      PageListsOk t (moved lists p newLocation) ∧ Moved s t p newLocation := by
  obtain ⟨left, leaveCode, leftChains, leftSame, absent⟩ := leaveLists_chains ok here
  have hereLeft := (mapped_congr leftSame.pages leftSame.database p).mpr here
  obtain ⟨joined, joinCode, joinChains, joinSame⟩ := joinLists_chains leftChains hereLeft absent newLocation
  have same := leftSame.trans joinSame
  have hereJoined := (mapped_congr same.pages same.database p).mpr here
  have code : miChangePageLocation checked s p newLocation =
      joined.update p fun d => { d with pageLocation := newLocation } := by
    unfold miChangePageLocation
    simp only [here, passes, decide_true, Bool.not_true, Bool.false_eq_true, if_false, Option.bind_eq_bind]
    rw [leaveCode, Option.bind_some, joinCode, Option.bind_some]
  rw [update_eq hereJoined] at code
  refine ⟨_, code, ⟨joinChains.placed, ?_, ?_⟩, ⟨same.pages, same.database, fun q => ?_⟩⟩
  · intro k
    apply chain_congr _ _ (joinChains.chain k)
    · intro q hq
      by_cases hqp : q = p <;> simp [hqp]
    · intro q hq
      by_cases hqp : q = p <;> simp [hqp]
  · intro k q
    rw [mem_moved (ok.chain k).1, ok.member]
    have mapped : ∀ t : MmState, t.physicalMemoryPages = joined.physicalMemoryPages →
        t.mmPpdDatabase = joined.mmPpdDatabase → (t.Mapped q ↔ s.Mapped q) :=
      fun t hp hd => mapped_congr (hp.trans same.pages) (hd.trans same.database) q
    by_cases hqp : q = p
    · subst hqp
      simp [mapped, here]
    · simp [hqp, mapped, same.location]
  · by_cases hqp : q = p <;> simp [hqp, same.location]

end Gr8os.Mm
