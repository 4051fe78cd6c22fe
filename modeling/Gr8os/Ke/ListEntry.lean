import Gr8os.Lib.Ring

/-! The LIST_ENTRY primitives, as the headers inline them into their callers. -/
namespace Gr8os.Ke

open Intrusive

variable {α : Type u} [DecidableEq α]

def initializeListHead (l : Links α) (listHead : α) : Links α :=
  (l.setFlink listHead listHead).setBlink listHead listHead

def isListEmpty (l : Links α) (listHead : α) : Bool := l.flink listHead = listHead

def removeEntryList (l : Links α) (entry : α) : Links α :=
  let flink := l.flink entry
  let blink := l.blink entry
  (l.setFlink blink flink).setBlink flink blink

def insertTailList (l : Links α) (listHead entry : α) : Links α :=
  let blink := l.blink listHead
  (((l.setFlink entry listHead).setBlink entry blink).setFlink blink entry).setBlink listHead entry

def insertHeadList (l : Links α) (listHead entry : α) : Links α :=
  let flink := l.flink listHead
  (((l.setFlink entry flink).setBlink entry listHead).setBlink flink entry).setFlink listHead entry

theorem removeEntryList_eq (l : Links α) (entry : α) : removeEntryList l entry = l.unlink entry := rfl

theorem insertTailList_eq (l : Links α) (listHead entry : α) :
    insertTailList l listHead entry = l.insertBefore listHead entry := rfl

theorem insertHeadList_eq (l : Links α) (listHead entry : α) :
    insertHeadList l listHead entry = l.insertAfter listHead entry := rfl

theorem isListEmpty_iff {l : Links α} {listHead : α} {xs : List α} (ring : Ring l listHead xs) :
    isListEmpty l listHead = true ↔ xs = [] := by
  rw [isListEmpty, decide_eq_true_iff, ring_empty_iff ring]

end Gr8os.Ke
