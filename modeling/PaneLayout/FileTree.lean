set_option autoImplicit false

/-!
# File trees

Layouts and settings are kept in files. A file tree is what stands below one directory; a file holds
a text, or bytes that encode none. A path is followed name by name, and only through directories.

## Main definitions

* `PaneLayout.FilePath`: a path as it is written.
* `PaneLayout.FileTree`: the entries below a directory.
* `PaneLayout.FileTree.read`, `PaneLayout.FileTree.createDirectories`, `PaneLayout.FileTree.write`:
  the operations, each with the first thing in its way.

## Main results

* `PaneLayout.FileTree.read_write`: what was written is read.
-/

namespace PaneLayout

/-- **File paths.** The text of a path, with slashes between the names. -/
structure FilePath where
  text : String
  deriving DecidableEq, Repr

namespace FilePath

/-- A path below a directory. A path that begins with a slash is below no other one. -/
def join (path : FilePath) (below : String) : FilePath :=
  if below.startsWith "/" then ⟨below⟩
  else if path.text.isEmpty || path.text.endsWith "/" then ⟨path.text ++ below⟩
  else ⟨path.text ++ "/" ++ below⟩

/-- The parts of a text between its slashes. -/
def splitSlashes : List Char → List (List Char)
  | [] => [[]]
  | c :: s =>
    if c = '/' then [] :: splitSlashes s
    else
      match splitSlashes s with
      | [] => [[c]]
      | part :: parts => (c :: part) :: parts

/-- The parts of a path, the last one first. -/
def reversedParts (path : FilePath) : List String :=
  ((splitSlashes path.text.toList).map String.ofList).reverse

/-- Whether a part of a path leads to where one is already. -/
def isIdle (part : String) : Bool := part.isEmpty || part == "."

/-- The path of the directory around an entry. -/
def parent (path : FilePath) : FilePath :=
  let around := ((path.reversedParts.dropWhile isIdle).drop 1).dropWhile isIdle
  if around.isEmpty && path.text.startsWith "/" then ⟨"/"⟩ else ⟨"/".intercalate around.reverse⟩

/-- Whether the path asks for a directory by a slash at its end. -/
def endsInSlash (path : FilePath) : Bool := path.text.endsWith "/"

/-- The parts of a path, the last one first, without those that a slash at its end adds. -/
def reversedSteps (path : FilePath) : List String := path.reversedParts.dropWhile String.isEmpty

/-- **Extensions.** What stands behind the last dot of the last name, unless the name has no other
dot and begins with this one. -/
def extension? (path : FilePath) : Option String := do
  let reversed := (← (path.reversedParts.dropWhile isIdle).head?.filter (· != "..")).toList.reverse
  let stem := (reversed.dropWhile (· != '.')).drop 1
  if stem.isEmpty then none else some (String.ofList (reversed.takeWhile (· != '.')).reverse)

end FilePath

/-- **Faults of file operations.** What is missing, what is not a text, and what stands where
something else is wanted. -/
inductive IoFault where
  | notFound
  | notText
  | isDirectory
  | alreadyExists
  | notDirectory
  deriving DecidableEq, Repr

/-- **Entries.** A directory, or a file with its text; none if its bytes encode no text. -/
inductive FileEntry where
  | directory
  | file (text : Option String)
  deriving DecidableEq, Repr

/-- The file with the given bytes. -/
def FileEntry.ofBytes (bytes : ByteArray) : FileEntry := .file (String.fromUTF8? bytes)

/-- **File trees.** The entries below a directory, by the names on the way down to them. -/
structure FileTree where
  entries : List (List String × FileEntry)
  deriving DecidableEq, Repr

namespace FileTree

/-- The tree in which nothing stands. -/
def empty : FileTree := ⟨[]⟩

/-- The entry with the given names; at the top there is a directory. -/
def get? (tree : FileTree) (names : List String) : Option FileEntry :=
  if names.isEmpty then some .directory else tree.entries.lookup names

/-- A tree with another entry. -/
def put (tree : FileTree) (names : List String) (entry : FileEntry) : FileTree :=
  ⟨(names, entry) :: tree.entries.filter (·.1 != names)⟩

/-- What was put is there. -/
@[simp] theorem get?_put_self (tree : FileTree) {names : List String} (h : names ≠ [])
    (entry : FileEntry) : (tree.put names entry).get? names = some entry := by
  cases names with
  | nil => exact absurd rfl h
  | cons name names => simp [get?, put]

/-- Dropping the entries with some names keeps the others. -/
theorem lookup_filter_ne {names others : List String} (h : others ≠ names)
    (es : List (List String × FileEntry)) :
    (es.filter (·.1 != names)).lookup others = es.lookup others := by
  induction es with
  | nil => rfl
  | cons e es ih =>
    obtain ⟨key, value⟩ := e
    by_cases hkey : key = names
    · subst hkey
      have hne : (others == key) = false := by simpa using h
      simp [List.lookup_cons, hne, ih]
    · have hkeep : (key != names) = true := by simpa using hkey
      simp [List.lookup_cons, hkeep, ih]

/-- Nothing else has changed. -/
theorem get?_put_of_ne (tree : FileTree) {names others : List String} (h : others ≠ names)
    (entry : FileEntry) : (tree.put names entry).get? others = tree.get? others := by
  have hne : (others == names) = false := by simpa using h
  simp [get?, put, List.lookup_cons, hne, lookup_filter_ne h]

/-! ### Following paths -/

/-- Where a part of a path leads. -/
def move (names : List String) (part : String) : List String :=
  if FilePath.isIdle part then names
  else if part == ".." then names.dropLast
  else names ++ [part]

/-- Goes on to a directory. -/
def enter (tree : FileTree) (names : List String) (part : String) : Except IoFault (List String) :=
  match tree.get? (move names part) with
  | some .directory => .ok (move names part)
  | some (.file _) => .error .notDirectory
  | none => .error .notFound

/-- **Following a path.** The names of its entry, which need not be there; the directories on the
way to it have to. -/
def locate (tree : FileTree) (path : FilePath) : Except IoFault (List String) :=
  match path.reversedSteps with
  | [] => .ok []
  | last :: around => (around.reverse.foldlM tree.enter []).map (move · last)

/-- A file that stands where no directory was is in no one's way. -/
theorem foldlM_enter_put {tree : FileTree} {target : List String}
    (h : tree.get? target ≠ some .directory) (text : Option String) (parts : List String) :
    ∀ {names found : List String}, parts.foldlM tree.enter names = .ok found →
      parts.foldlM (tree.put target (.file text)).enter names = .ok found := by
  induction parts with
  | nil => exact fun hfound => hfound
  | cons part parts ih =>
    intro names found hfound
    rw [List.foldlM_cons] at hfound ⊢
    have hstep : ∀ e : FileEntry, tree.get? (move names part) = some e → e = .directory →
        (tree.put target (.file text)).get? (move names part) = some .directory := by
      intro e he hdir
      have hne : move names part ≠ target := fun heq => h (heq ▸ hdir ▸ he)
      rw [get?_put_of_ne tree hne, he, hdir]
    unfold enter at hfound ⊢
    cases hget : tree.get? (move names part) with
    | none => rw [hget] at hfound; cases hfound
    | some e =>
      rw [hget] at hfound
      cases e with
      | file t => cases hfound
      | directory =>
        rw [hstep .directory hget rfl]
        exact ih hfound

/-- **Reading a file.** -/
def read (tree : FileTree) (path : FilePath) : Except IoFault String :=
  match tree.locate path with
  | .error fault => .error fault
  | .ok names =>
    match tree.get? names with
    | none => .error .notFound
    | some .directory => .error .isDirectory
    | some (.file text) =>
      if path.endsInSlash then .error .notDirectory
      else
        match text with
        | some text => .ok text
        | none => .error .notText

/-- Whether there is an entry with the given path. -/
def contains (tree : FileTree) (path : FilePath) : Bool :=
  match tree.read path with
  | .error .notFound => false
  | .error .notDirectory => false
  | _ => true

/-- **Writing a file** into a directory that is there, in place of one that may stand there. -/
def write (tree : FileTree) (path : FilePath) (entry : FileEntry) : Except IoFault FileTree :=
  match tree.locate path with
  | .error fault => .error fault
  | .ok names =>
    if tree.get? names = some .directory ∨ path.endsInSlash then .error .isDirectory
    else .ok (tree.put names entry)

/-- **What was written is read.** -/
theorem read_write {tree after : FileTree} {path : FilePath} {text : String}
    (h : tree.write path (.file (some text)) = .ok after) : after.read path = .ok text := by
  unfold write at h
  cases hlocate : tree.locate path with
  | error fault => rw [hlocate] at h; cases h
  | ok names =>
    rw [hlocate] at h
    simp only at h
    split at h
    · cases h
    · rename_i hfree
      obtain ⟨hnodir, hslash⟩ := not_or.mp hfree
      cases h
      have hnames : names ≠ [] := fun heq => hnodir (by rw [heq]; rfl)
      have hagain : (tree.put names (.file (some text))).locate path = .ok names := by
        unfold locate at hlocate ⊢
        cases hsteps : path.reversedSteps with
        | nil => rw [hsteps] at hlocate; exact hlocate
        | cons last around =>
          rw [hsteps] at hlocate
          simp only at hlocate ⊢
          cases hfold : around.reverse.foldlM tree.enter [] with
          | error fault => rw [hfold] at hlocate; cases hlocate
          | ok found => rw [foldlM_enter_put hnodir _ _ hfold, ← hfold]; exact hlocate
      unfold read
      rw [hagain]
      simp [get?_put_self tree hnames, hslash]

/-- Creates the directories on a path from a directory on. -/
def createBelow (tree : FileTree) (names : List String) : List String → Except IoFault FileTree
  | [] => .ok tree
  | part :: parts =>
    match tree.get? (move names part) with
    | none => createBelow (tree.put (move names part) .directory) (move names part) parts
    | some .directory => createBelow tree (move names part) parts
    | some (.file _) => .error (if parts.isEmpty then .alreadyExists else .notDirectory)

/-- **Creating a directory** with all the directories on the way down to it. -/
def createDirectories (tree : FileTree) (path : FilePath) : Except IoFault FileTree :=
  tree.createBelow [] path.reversedSteps.reverse

end FileTree

end PaneLayout
