import Mathlib

/-! # File trees

Files and directories by the names on their way from a root, with the system calls that remove
them, and what listing a directory answers. Any call may fail on its own account.
-/

/-- The type that the system gives for an entry. -/
inductive FileTree.Kind where
  | file
  | directory
  | other
  deriving DecidableEq, Repr

/-- What stands at a path; links and devices are `other`. -/
inductive FileTree.Node (κ : Type*) where
  | file (content : κ)
  | directory
  | other
  deriving DecidableEq, Repr

def FileTree.Node.kind {κ : Type*} : Node κ → Kind
  | .file _ => .file
  | .directory => .directory
  | .other => .other

@[simp] theorem FileTree.Node.kind_eq_directory {κ : Type*} {node : Node κ} :
    node.kind = .directory ↔ node = .directory := by
  cases node <;> simp [kind]

/-- Why a call fails. -/
inductive FileTree.Failure where
  | notFound
  | directoryNotEmpty
  | other (message : String)
  deriving DecidableEq, Repr

/-- The paths in a tree and what stands at them. An entry stands in a directory. -/
structure FileTree (ν κ : Type*) where
  paths : List (List ν)
  node : List ν → FileTree.Node κ
  nodup : paths.Nodup
  parents : ∀ path name, path ++ [name] ∈ paths → path ∈ paths ∧ node path = .directory

namespace FileTree

variable {ν κ : Type*}

section Paths

variable {tree : FileTree ν κ}

/-- The directories above a path are in the tree. -/
theorem mem_of_append {front rest : List ν} (member : front ++ rest ∈ tree.paths) :
    front ∈ tree.paths := by
  induction rest using List.reverseRecOn with
  | nil => rwa [List.append_nil] at member
  | append_singleton rest name ih =>
      rw [← List.append_assoc] at member
      exact ih (tree.parents _ _ member).1

/-- What has an entry below it is a directory. -/
theorem node_of_append {front rest : List ν} {name : ν}
    (member : front ++ name :: rest ∈ tree.paths) : tree.node front = .directory := by
  rw [List.append_cons] at member
  exact (tree.parents front name (mem_of_append member)).2

end Paths

variable [DecidableEq ν]

/-- The name of a path in a directory. -/
def nameIn (path other : List ν) : Option ν :=
  other.getLast?.filter fun name => other = path ++ [name]

theorem nameIn_eq_some {path other : List ν} {name : ν} :
    nameIn path other = some name ↔ other = path ++ [name] := by
  simp only [nameIn, Option.filter_eq_some_iff, decide_eq_true_eq, and_iff_right_iff_imp]
  rintro rfl
  exact List.getLast?_concat

/-- The names in a directory. -/
def children (tree : FileTree ν κ) (path : List ν) : List ν := tree.paths.filterMap (nameIn path)

variable {tree : FileTree ν κ} {path : List ν} {name : ν}

@[simp] theorem mem_children : name ∈ tree.children path ↔ path ++ [name] ∈ tree.paths := by
  simp [children, List.mem_filterMap, nameIn_eq_some]

theorem nodup_children (tree : FileTree ν κ) (path : List ν) : (tree.children path).Nodup := by
  apply tree.nodup.filterMap
  intro first second name named also
  rw [nameIn_eq_some.mp named, nameIn_eq_some.mp also]

theorem children_of_node (other : tree.node path ≠ .directory) : tree.children path = [] := by
  rw [List.eq_nil_iff_forall_not_mem]
  intro name member
  exact other (tree.parents path name (mem_children.mp member)).2

/-- The tree without an entry that has nothing below it. -/
def erase (tree : FileTree ν κ) (path : List ν) (leaf : tree.children path = []) :
    FileTree ν κ where
  paths := tree.paths.filter (· ≠ path)
  node := tree.node
  nodup := tree.nodup.filter _
  parents above name member := by
    simp only [ne_eq, decide_not, List.mem_filter, Bool.not_eq_true',
      decide_eq_false_iff_not] at member ⊢
    obtain ⟨parent, directory⟩ := tree.parents above name member.1
    refine ⟨⟨parent, ?_⟩, directory⟩
    rintro rfl
    have present := mem_children.mpr member.1
    rw [leaf] at present
    cases present

@[simp] theorem mem_erase {leaf : tree.children path = []} {other : List ν} :
    other ∈ (tree.erase path leaf).paths ↔ other ∈ tree.paths ∧ other ≠ path := by
  simp [erase]

@[simp] theorem node_erase {leaf : tree.children path = []} :
    (tree.erase path leaf).node = tree.node := rfl

/-- The tree with a new entry in a directory. -/
def create (tree : FileTree ν κ) (path : List ν) (entry : Node κ) (fresh : path ∉ tree.paths)
    (above : ∀ front name, path = front ++ [name] →
      front ∈ tree.paths ∧ tree.node front = .directory) : FileTree ν κ where
  paths := path :: tree.paths
  node := Function.update tree.node path entry
  nodup := List.nodup_cons.mpr ⟨fresh, tree.nodup⟩
  parents front name member := by
    have there : front ∈ tree.paths ∧ tree.node front = .directory := by
      rcases List.mem_cons.mp member with own | old
      · exact above front name own.symm
      · exact tree.parents front name old
    have other : front ≠ path := fun same => fresh (same ▸ there.1)
    rw [Function.update_of_ne other]
    exact ⟨List.mem_cons_of_mem _ there.1, there.2⟩

/-- The tree with other content in a file. -/
def write (tree : FileTree ν κ) (path : List ν) (content : κ)
    (file : (tree.node path).kind = .file) : FileTree ν κ where
  paths := tree.paths
  node := Function.update tree.node path (.file content)
  nodup := tree.nodup
  parents front name member := by
    obtain ⟨parent, directory⟩ := tree.parents front name member
    have other : front ≠ path := by
      rintro rfl
      rw [directory] at file
      cases file
    rw [Function.update_of_ne other]
    exact ⟨parent, directory⟩

/-- `unlink(2)`, with a failure of its own when there is one. -/
def removeFile (failure : Option String) (tree : FileTree ν κ) (path : List ν) :
    Except Failure Unit × FileTree ν κ :=
  match failure with
  | some message => (.error (.other message), tree)
  | none =>
      if path ∉ tree.paths then (.error .notFound, tree)
      else if directory : (tree.node path).kind = .directory then
        (.error (.other "is a directory"), tree)
      else (.ok (), tree.erase path (children_of_node (mt Node.kind_eq_directory.mpr directory)))

/-- `rmdir(2)`, with a failure of its own when there is one. -/
def removeDir (failure : Option String) (tree : FileTree ν κ) (path : List ν) :
    Except Failure Unit × FileTree ν κ :=
  match failure with
  | some message => (.error (.other message), tree)
  | none =>
      if path ∉ tree.paths then (.error .notFound, tree)
      else if (tree.node path).kind ≠ .directory then (.error (.other "not a directory"), tree)
      else if leaf : tree.children path = [] then (.ok (), tree.erase path leaf)
      else (.error .directoryNotEmpty, tree)

/-- What stands in a tree after a removal stood there before. -/
structure Shrinks (before after : FileTree ν κ) : Prop where
  node : after.node = before.node
  paths : after.paths ⊆ before.paths

omit [DecidableEq ν] in
theorem Shrinks.refl (tree : FileTree ν κ) : tree.Shrinks tree := ⟨rfl, List.Subset.refl _⟩

theorem shrinks_erase (leaf : tree.children path = []) : tree.Shrinks (tree.erase path leaf) :=
  ⟨rfl, fun _ member => (mem_erase.mp member).1⟩

theorem shrinks_removeFile (failure : Option String) (tree : FileTree ν κ) (path : List ν) :
    tree.Shrinks (removeFile failure tree path).2 := by
  unfold removeFile
  split
  · exact .refl tree
  · split_ifs with present directory
    · exact .refl tree
    · exact shrinks_erase (children_of_node (mt Node.kind_eq_directory.mpr directory))
    · exact .refl tree

theorem shrinks_removeDir (failure : Option String) (tree : FileTree ν κ) (path : List ν) :
    tree.Shrinks (removeDir failure tree path).2 := by
  unfold removeDir
  split
  · exact .refl tree
  · split_ifs with present directory leaf
    · exact .refl tree
    · exact shrinks_erase leaf
    · exact .refl tree
    · exact .refl tree

/-- Whether there is an entry at a path. -/
def has (tree : FileTree ν κ) (path : List ν) : Bool := decide (path ∈ tree.paths)

@[simp] theorem has_eq_true : tree.has path = true ↔ path ∈ tree.paths := decide_eq_true_iff

/-- A directory entry as it is read; its type may have to be asked for. -/
structure DirEntry (ν : Type*) where
  name : ν
  kind : Except Failure Kind

/-- The answers to opening directories and reading their entries. -/
abbrev ReadDir (ν : Type*) := List ν → Except Failure (List (Except Failure (DirEntry ν)))

def entryNames (entries : List (Except Failure (DirEntry ν))) : List ν :=
  entries.filterMap fun item => item.toOption.map DirEntry.name

/-- The entries are those of a directory, each once and in any order. -/
structure Entries (tree : FileTree ν κ) (path : List ν)
    (entries : List (Except Failure (DirEntry ν))) : Prop where
  nodup : (entryNames entries).Nodup
  present : ∀ entry, .ok entry ∈ entries → path ++ [entry.name] ∈ tree.paths
  kind : ∀ entry kind, .ok entry ∈ entries → entry.kind = .ok kind →
    (tree.node (path ++ [entry.name])).kind = kind
  complete : (∀ item ∈ entries, item.isOk = true) →
    ∀ name, path ++ [name] ∈ tree.paths → name ∈ entryNames entries

/-- What `opendir(3)` and `readdir(3)` promise. -/
structure Lists (tree : FileTree ν κ) (readDir : ReadDir ν) : Prop where
  notFound : ∀ path, readDir path = .error .notFound → path ∉ tree.paths
  entries : ∀ path entries, readDir path = .ok entries → tree.Entries path entries

/-- Listing without failures of its own. -/
def readDir (tree : FileTree ν κ) : ReadDir ν := fun path =>
  if path ∉ tree.paths then .error .notFound
  else if (tree.node path).kind ≠ .directory then .error (.other "not a directory")
  else .ok ((tree.children path).map fun name =>
    .ok ⟨name, .ok (tree.node (path ++ [name])).kind⟩)

theorem lists_readDir (tree : FileTree ν κ) : tree.Lists tree.readDir where
  notFound path failed := by
    intro present
    rw [readDir, if_neg (not_not.mpr present)] at failed
    split at failed <;> cases failed
  entries path entries read := by
    unfold readDir at read
    split_ifs at read
    obtain rfl := Except.ok.inj read
    have names : entryNames ((tree.children path).map fun name =>
        (.ok ⟨name, .ok (tree.node (path ++ [name])).kind⟩ : Except Failure (DirEntry ν))) =
          tree.children path := by
      simp [entryNames, List.filterMap_map, Except.toOption]
    refine ⟨?_, ?_, ?_, ?_⟩
    · rw [names]
      exact tree.nodup_children path
    · intro entry member
      obtain ⟨name, present, same⟩ := List.mem_map.mp member
      cases same
      exact mem_children.mp present
    · intro entry kind member known
      obtain ⟨name, present, same⟩ := List.mem_map.mp member
      cases same
      exact Except.ok.inj known
    · intro _ name present
      rw [names]
      exact mem_children.mpr present

end FileTree
