import Scaffold.Path.Location

/-!
The tree of files and directories. What lies in the tree always lies in a directory (`Disk.closed`),
and paths are followed step by step as far as directories lead. A failed lookup says why.
-/

namespace Scaffold

/-- Why the system refuses an operation. -/
inductive SystemError where
  | noEntry
  | exists
  | notDirectory
  | isDirectory
  | nameTooLong
  /-- A path contains the character with code zero. -/
  | nulCharacter
  deriving DecidableEq, Repr

def SystemError.message : SystemError → Text
  | noEntry => "ENOENT"
  | «exists» => "EEXIST"
  | notDirectory => "ENOTDIR"
  | isDirectory => "EISDIR"
  | nameTooLong => "ENAMETOOLONG"
  | nulCharacter => "EINVAL"

namespace Disk

inductive Entry where
  | directory
  | file (content : ByteArray)

instance : DecidableEq Entry
  | .directory, .directory => isTrue rfl
  | .directory, .file _ => isFalse nofun
  | .file _, .directory => isFalse nofun
  | .file a, .file b =>
    decidable_of_iff (a.data = b.data) (by rw [Entry.file.injEq, ByteArray.ext_iff])

/-- What stands at a location of a list of entries; the root is a directory, and the first entry for
a location counts. -/
def entryIn (entries : List (Location × Entry)) (location : Location) : Option Entry :=
  if location = [] then some .directory else entries.lookup location

end Disk

structure Disk where
  entries : List (Location × Disk.Entry)
  closed : ∀ location name, Disk.entryIn entries (location ++ [name]) ≠ none →
    Disk.entryIn entries location = some .directory

namespace Disk

/-- What stands at a location. -/
def lookup (d : Disk) (location : Location) : Option Entry :=
  entryIn d.entries location

/-- The disk that has only a root. -/
def empty : Disk := ⟨[], by simp [entryIn]⟩

@[simp] theorem lookup_root (d : Disk) : d.lookup [] = some .directory := by
  simp [lookup, entryIn]

theorem entryIn_cons (entries : List (Location × Entry)) (location other : Location) (entry : Entry)
    (h : location ≠ []) :
    entryIn ((location, entry) :: entries) other =
      if other = location then some entry else entryIn entries other := by
  unfold entryIn
  by_cases ho : other = []
  · subst ho; simp [h.symm]
  · by_cases hl : other = location
    · simp [hl, h]
    · simp [ho, hl, List.lookup_cons, beq_eq_false_iff_ne.2 hl]

/-- A disk with a new entry in a directory, in place of a file if there is one. -/
def put (d : Disk) (parent : Location) (name : Name) (entry : Entry)
    (directory : d.lookup parent = some .directory)
    (free : d.lookup (parent ++ [name]) ≠ some .directory) : Disk where
  entries := (parent ++ [name], entry) :: d.entries
  closed := by
    intro location other h
    rw [entryIn_cons _ _ _ _ (by simp)] at h ⊢
    split at h
    · rename_i he
      obtain ⟨rfl, _⟩ := List.append_inj' he rfl
      rwa [if_neg (by simp)]
    · have hd := d.closed location other h
      split
      · rename_i he
        subst he
        exact absurd hd free
      · exact hd

@[simp] theorem lookup_put {d : Disk} {parent : Location} {name : Name} {entry : Entry}
    (directory : d.lookup parent = some .directory)
    (free : d.lookup (parent ++ [name]) ≠ some .directory) (location : Location) :
    (d.put parent name entry directory free).lookup location =
      if location = parent ++ [name] then some entry else d.lookup location :=
  entryIn_cons _ _ _ _ (by simp)

/-- Where a path leads once each `..` has undone the name before it. -/
def resolve (p : Path) (cwd : Location) : Except SystemError Location :=
  if '\x00' ∈ p.toText then .error .nulCharacter else .ok (p.locate cwd)

/-- The number of bytes that a text takes in UTF-8. -/
def byteCount (t : Text) : Nat :=
  (String.ofList t).utf8ByteSize

/-- The longest name of an entry, in bytes. -/
def nameLimit : Nat := 255

/-- The longest path that an operation takes, in bytes. -/
def pathLimit : Nat := 4095

/-- Refuses a path that the system does not take whatever the disk holds. -/
def checkPath (p : Path) : Except SystemError Unit :=
  if '\x00' ∈ p.toText then .error .nulCharacter
  else if pathLimit < byteCount p.toText then .error .nameTooLong
  else .ok ()

/-- Refuses a name that no directory can hold. -/
def checkName (name : Name) : Except SystemError Unit :=
  if nameLimit < byteCount name.val then .error .nameTooLong else .ok ()

/-- Takes a step from a directory to an entry that is there. -/
def step (d : Disk) (location : Location) (s : Path.Step) : Except SystemError Location :=
  if d.lookup location = some .directory then
    match s with
    | .up => .ok location.dropLast
    | .into name => do
      checkName name
      if d.lookup (location ++ [name]) = none then .error .noEntry else return location ++ [name]
  else .error .notDirectory

/-- Takes several steps. -/
def follow (d : Disk) (location : Location) : List Path.Step → Except SystemError Location
  | [] => .ok location
  | s :: rest => do d.follow (← d.step location s) rest

/-- Where following a path begins. -/
def startOf (p : Path) (cwd : Location) : Location :=
  if p.isAbsolute then [] else cwd

/-- The entry that a path leads to. -/
def find (d : Disk) (cwd : Location) (p : Path) : Except SystemError Entry := do
  checkPath p
  let location ← d.follow (startOf p cwd) p.steps
  match d.lookup location with
  | some entry => return entry
  | none => .error .noEntry

/-- Whether a path leads to an entry of some kind; that it leads nowhere is no error. -/
def leadsTo (d : Disk) (cwd : Location) (p : Path) (kind : Entry → Bool) :
    Except SystemError Bool :=
  match d.find cwd p with
  | .ok entry => .ok (kind entry)
  | .error .nameTooLong => .error .nameTooLong
  | .error _ => .ok false

def present (d : Disk) (cwd : Location) (p : Path) : Except SystemError Bool :=
  d.leadsTo cwd p fun _ => true

def isFile (d : Disk) (cwd : Location) (p : Path) : Except SystemError Bool :=
  d.leadsTo cwd p (· matches .file _)

def isDirectory (d : Disk) (cwd : Location) (p : Path) : Except SystemError Bool :=
  d.leadsTo cwd p (· matches .directory)

/-- The bytes of a file. -/
def read (d : Disk) (cwd : Location) (p : Path) : Except SystemError ByteArray := do
  match ← d.find cwd p with
  | .directory => .error .isDirectory
  | .file content => return content

end Disk

end Scaffold
