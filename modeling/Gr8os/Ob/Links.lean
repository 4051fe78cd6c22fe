import Gr8os.Ob.References

/-! Symbolic links and directories as clients create them, by name. -/
namespace Gr8os.Ob

/-- Where the last occurrence of a character stands. -/
def wcsrchr (sourceString : List WChar) (char : WChar) : Option Nat :=
  (List.range sourceString.length).reverse.find? fun i => sourceString[i]? = some char

/-- The heap calls of ObCreateSymbolicLink, in its order: two lookups make calls of their own. -/
structure LinkAllocations where
  targetLookup : Nat → Bool
  object : Bool
  directoryName : Bool
  directoryLookup : Nat → Bool
  target : Bool

/-- The directory that a link is put in, referenced. A failed allocation of its name is not looked at. -/
def linkDirectory (allocated : LinkAllocations) (fuel : Nat) (s : ObjectManager) (symlinkName : List WChar)
    (rel : Nat) : Option (Status × Option Nat × ObjectManager) :=
  if rel ≠ 0 then
    if allocated.directoryName then
      referenceByName allocated.directoryLookup fuel s (rtlInitUnicodeString (symlinkName.take rel))
        (some .directory) .kernelMode 0
    else none
  else
    some (.success, some s.space.obRootObjectDirectory, s.obReferenceObject s.space.obRootObjectDirectory)

/-- A kernel mode lookup does not check the type, so the link may be put in what is no directory: that
overwrites something, and so does a target string that was not allocated. -/
def obCreateSymbolicLink (checked : Bool) (allocated : LinkAllocations) (fuel : Nat) (s : ObjectManager)
    (symlinkName targetPath : List WChar) : Option (Status × ObjectManager) := do
  let (status, object, s) ←
    referenceByName allocated.targetLookup fuel s (rtlInitUnicodeString targetPath) none .kernelMode 0
  match object with
  | none => some (status, s)
  | some object =>
    let rel := ((wcsrchr (symlinkName.drop 1) backslash).map (· + 1)).getD 0
    match obCreateObject allocated.object s .symbolicLink (symlinkName.drop (rel + 1)) with
    | (status, none, s) => do
      let s ← obDereferenceObject checked fuel s object
      some (status, s)
    | (_, some symlink, s) => do
      let (status, directory, s) ← linkDirectory allocated fuel s symlinkName rel
      match directory with
      | none =>
        let (_, s) ← obpDeleteObjectInternal checked fuel s symlink
        let s ← obDereferenceObject checked fuel s object
        some (status, s)
      | some directory =>
        if !allocated.target || (s.header directory).objectType ≠ .directory then none
        else
          let s := obInsertObject (storePointer s symlink object targetPath) directory symlink
          let s ← obDereferenceObject checked fuel s directory
          some (.success, s)

/-- Without a directory to insert into, the root is taken. -/
def obCreateDirectory (allocated : Bool) (s : ObjectManager) (name : List WChar) (insertInto : Option Nat) :
    Status × ObjectManager :=
  match obCreateObject allocated s .directory name with
  | (status, none, s) => (status, s)
  | (_, some directory, s) =>
    (.success, obInsertObject s (insertInto.getD s.space.obRootObjectDirectory) directory)

end Gr8os.Ob
