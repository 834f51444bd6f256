import CopyTrial.FileTree
import CopyTrial.Proofs.Except
import Mathlib.Data.List.Basic
import Mathlib.Data.List.TakeWhile

/-!
# Where paths lead

A walk asks a tree for nothing but the directories on its way, so a path leads to the same place
in every tree that has them too. A path that gives a place to a file leads to that file once it
has been put there.

## Main definitions

* `Path.Parted` — a path as its front, up to the last slash, and the name after it.
* `FileTree.DirectoriesIn` — whatever is a directory in one tree is one in another.
* `FileTree.Slot` — a place under a name in a directory, where a file may stand.

## Main results

* `FileTree.walk_of_directoriesIn` — a walk leads to the same place in another tree.
* `FileTree.locate_eq_ok_iff` — when a path leads to a node.
* `FileTree.exists_slot`, `FileTree.locate_of_fileSlot` — the place that a path gives to a file,
  and that the path leads there afterwards.
-/

set_option autoImplicit false

namespace CopyTrial

namespace Path

/-! ## The parts of a path -/

/-- Splitting goes on after a separator. -/
theorem splitFrom_append_cons (separator : Char) (part before rest : List Char) :
    splitFrom separator part (before ++ separator :: rest) =
      splitFrom separator part before ++ splitFrom separator [] rest := by
  induction before generalizing part with
  | nil => simp [splitFrom]
  | cons c before ih =>
    rw [List.cons_append, splitFrom, splitFrom]
    split
    · rw [ih, List.cons_append]
    · rw [ih]

/-- There is nothing to split at where the separator does not occur. -/
theorem splitFrom_of_not_mem {separator : Char} (part : List Char) {cs : List Char}
    (h : separator ∉ cs) : splitFrom separator part cs = [part.reverse ++ cs] := by
  induction cs generalizing part with
  | nil => simp [splitFrom]
  | cons c cs ih =>
    rw [List.mem_cons, not_or] at h
    rw [splitFrom, if_neg (Ne.symm h.1), ih (c :: part) h.2, List.reverse_cons, List.append_assoc]
    rfl

/-- A path is made of what stands up to its last slash, and of the name after it. -/
structure Parted (path : String) (front name : List Char) : Prop where
  toList_eq : path.toList = front ++ name
  front_eq : front = [] ∨ ∃ before, front = before ++ ['/']
  not_mem : '/' ∉ name

/-- The parts that stand before the last slash. -/
def frontParts (front : List Char) : List String :=
  (splitFrom '/' [] front).dropLast.map String.ofList

/-- Every path has a name after its last slash, which may be empty. -/
theorem exists_parted (path : String) : ∃ front name, Parted path front name := by
  by_cases h : '/' ∈ path.toList.reverse
  · obtain ⟨after, before, heq, hafter⟩ := List.eq_append_cons_of_mem h
    refine ⟨before.reverse ++ ['/'], after.reverse, ?_, .inr ⟨_, rfl⟩, by simpa using hafter⟩
    rw [← List.reverse_reverse path.toList, heq]
    simp
  · exact ⟨[], path.toList, rfl, .inl rfl, by simpa using h⟩

namespace Parted

variable {path : String} {front name : List Char}

/-- The parts of a path are those before the last slash, and the name. -/
theorem split_eq (h : Parted path front name) :
    split path = frontParts front ++ [String.ofList name] := by
  rw [split, h.toList_eq, frontParts]
  rcases h.front_eq with rfl | ⟨before, rfl⟩
  · rw [List.nil_append, splitFrom_of_not_mem [] h.not_mem]
    rfl
  · rw [List.append_assoc, List.singleton_append, splitFrom_append_cons, splitFrom_append_cons,
      splitFrom_of_not_mem [] h.not_mem]
    simp [splitFrom]

/-- A path without a name is empty or ends in a slash. -/
theorem endsInSlash_of_nil (h : Parted path front []) (hpath : path ≠ "") :
    endsInSlash path = true := by
  rw [endsInSlash, h.toList_eq, List.append_nil]
  rcases h.front_eq with rfl | ⟨before, rfl⟩
  · exact absurd (String.toList_inj.1 h.toList_eq) hpath
  · simp

/-- The name of a path is its last part. -/
theorem final?_eq (h : Parted path front name) (hname : name ≠ []) :
    final? path = some (frontParts front, String.ofList name) := by
  have hne : String.ofList name ≠ "" := fun heq => hname (by simpa using heq)
  rw [final?, h.split_eq, List.reverse_append, List.reverse_singleton, List.singleton_append,
    List.dropWhile_cons_of_neg (by simpa using hne)]
  simp

end Parted

/-- The last name of a path is a part of it, after which there are only empty ones. -/
theorem exists_split_of_final? {path last : String} {before : List String}
    (h : final? path = some (before, last)) :
    last ≠ "" ∧ ∃ count, split path = before ++ last :: List.replicate count "" := by
  have hdrop : (split path).reverse.dropWhile (· = "") = last :: before.reverse := by
    rw [final?] at h
    split at h
    · cases h
    · next last' before' heq =>
      obtain ⟨rfl, rfl⟩ := Prod.mk.inj (Option.some.inj h)
      rw [heq, List.reverse_reverse]
  obtain ⟨empties, heq, hempty⟩ : ∃ empties : List String,
      (split path).reverse = empties ++ last :: before.reverse ∧ ∀ part ∈ empties, part = "" := by
    refine ⟨(split path).reverse.takeWhile (· = ""), ?_, fun part hpart => ?_⟩
    · rw [← hdrop, List.takeWhile_append_dropWhile]
    · simpa using List.mem_takeWhile_imp hpart
  refine ⟨?_, empties.length, ?_⟩
  · have hhead := List.head?_dropWhile_not (fun part => decide (part = "")) (split path).reverse
    rw [hdrop] at hhead
    simpa using hhead
  · rw [← List.reverse_inj, heq, List.eq_replicate_iff.2 ⟨rfl, hempty⟩]
    simp

end Path

namespace FileTree

/-! ## Walking through other trees -/

/-- Whatever is a directory in one tree is one in another. -/
def DirectoriesIn (tree tree' : FileTree) : Prop :=
  ∀ place, tree.node? place = some .directory → tree'.node? place = some .directory

/-- A tree has its own directories. -/
theorem DirectoriesIn.refl (tree : FileTree) : DirectoriesIn tree tree := fun _ h => h

/-- Directories stay directories through two changes. -/
theorem DirectoriesIn.trans {tree₁ tree₂ tree₃ : FileTree} (h : DirectoriesIn tree₁ tree₂)
    (h' : DirectoriesIn tree₂ tree₃) : DirectoriesIn tree₁ tree₃ :=
  fun place hplace => h' place (h place hplace)

/-- The walk of a part from a directory. -/
theorem walk_cons_of_directory {tree : FileTree} {here : Place}
    (h : tree.node? here = some .directory) (part : String) (rest : List String) :
    tree.walk here (part :: rest) =
      if part = "" ∨ part = "." then tree.walk here rest
      else if part = ".." then tree.walk here.dropLast rest
      else entryPlace here part >>= fun next => tree.walk next rest := by
  rw [walk, h]

/-- A walk with parts left starts from a directory. -/
theorem directory_of_walk_cons {tree : FileTree} {here place : Place} {part : String}
    {rest : List String} (h : tree.walk here (part :: rest) = .ok place) :
    tree.node? here = some .directory := by
  rw [walk] at h
  cases hnode : tree.node? here with
  | none => rw [hnode] at h; cases h
  | some node =>
    cases node with
    | directory => rfl
    | file content => rw [hnode] at h; cases h

/-- **A walk only needs the directories on its way**: it leads to the same place in a tree that
has them too. -/
theorem walk_of_directoriesIn {tree tree' : FileTree} (hdirs : DirectoriesIn tree tree')
    {here place : Place} {parts : List String} (h : tree.walk here parts = .ok place) :
    tree'.walk here parts = .ok place := by
  induction parts generalizing here with
  | nil => exact h
  | cons part rest ih =>
    have hhere := directory_of_walk_cons h
    rw [walk_cons_of_directory hhere] at h
    rw [walk_cons_of_directory (hdirs here hhere)]
    split at h
    · next hstay => rw [if_pos hstay]; exact ih h
    · next hstay =>
      rw [if_neg hstay]
      split at h
      · next hup => rw [if_pos hup]; exact ih h
      · next hup =>
        rw [if_neg hup]
        cases hnext : entryPlace here part with
        | error e => rw [hnext] at h; cases h
        | ok next => rw [hnext] at h; exact ih h

/-- A walk of more parts goes on from where the first ones lead. -/
theorem walk_append (tree : FileTree) (here : Place) (parts more : List String) :
    tree.walk here (parts ++ more) = (do
      let place ← tree.walk here parts
      tree.walk place more : Except IoError Place) := by
  induction parts generalizing here with
  | nil => rfl
  | cons part rest ih =>
    rw [List.cons_append, walk, walk]
    cases tree.node? here with
    | none => rfl
    | some node =>
      cases node with
      | file content => rfl
      | directory =>
        simp only [ih]
        split
        · rfl
        · split
          · rfl
          · cases entryPlace here part <;> rfl

/-- A dot after the parts of a walk makes sure that they lead to a directory. -/
theorem walk_append_dot {tree : FileTree} {here place : Place} {parts : List String}
    (h : tree.walk here (parts ++ ["."]) = .ok place) :
    tree.walk here parts = .ok place ∧ tree.node? place = some .directory := by
  rw [walk_append] at h
  cases hwalk : tree.walk here parts with
  | error e => rw [hwalk] at h; cases h
  | ok directory =>
    rw [hwalk] at h
    have h : tree.walk directory ["."] = .ok place := h
    have hdirectory := directory_of_walk_cons h
    rw [walk_cons_of_directory hdirectory, if_pos (.inr rfl)] at h
    obtain rfl := Except.ok.inj h
    exact ⟨rfl, hdirectory⟩

/-- A name that means an entry leads to it. -/
theorem walk_name {tree : FileTree} {directory place : Place} {name : String}
    (hdirectory : tree.node? directory = some .directory)
    (hne : name ≠ "" ∧ name ≠ "." ∧ name ≠ "..") (hplace : entryPlace directory name = .ok place) :
    tree.walk directory [name] = .ok place := by
  rw [walk_cons_of_directory hdirectory, if_neg (by simp [hne.1, hne.2.1]), if_neg hne.2.2,
    hplace]
  rfl

/-- The place of an entry ends in its name. -/
theorem entryPlace_eq_ok {directory place : Place} {name : String}
    (h : entryPlace directory name = .ok place) : place = directory ++ [name] := by
  rw [entryPlace] at h
  split at h
  · cases h
  · exact (Except.ok.inj h).symm

/-- A path that can be asked about leads to what stands where its parts lead. -/
theorem locate_eq_ok {tree : FileTree} {path : String} {place : Place} {node : Node}
    (hpath : checkPath path = .ok ()) (hwalk : tree.walk [] (Path.split path) = .ok place)
    (hnode : tree.node? place = some node) : tree.locate path = .ok (place, node) := by
  rw [locate]
  exact bind_eq_ok_iff.2 ⟨_, hpath, bind_eq_ok_iff.2 ⟨place, hwalk, by rw [hnode]⟩⟩

/-- When a path leads to a node. -/
theorem locate_eq_ok_iff {tree : FileTree} {path : String} {place : Place} {node : Node} :
    tree.locate path = .ok (place, node) ↔
      checkPath path = .ok () ∧ tree.walk [] (Path.split path) = .ok place ∧
        tree.node? place = some node := by
  constructor
  · intro h
    rw [locate] at h
    obtain ⟨_, hpath, h⟩ := bind_eq_ok_iff.1 h
    obtain ⟨place', hwalk, h⟩ := bind_eq_ok_iff.1 h
    split at h
    · cases h
    · next hnode =>
      obtain ⟨rfl, rfl⟩ := Prod.mk.inj (Except.ok.inj h)
      exact ⟨hpath, hwalk, hnode⟩
  · rintro ⟨hpath, hwalk, hnode⟩
    exact locate_eq_ok hpath hwalk hnode

/-- **What a path leads to stands at the same place** in a tree that has the directories of the
first one, even if the node there is another one. -/
theorem locate_of_directoriesIn {tree tree' : FileTree} (hdirs : DirectoriesIn tree tree')
    {path : String} {place : Place} {node node' : Node} (h : tree.locate path = .ok (place, node))
    (hnode : tree'.node? place = some node') : tree'.locate path = .ok (place, node') := by
  obtain ⟨hpath, hwalk, -⟩ := locate_eq_ok_iff.1 h
  exact locate_eq_ok hpath (walk_of_directoriesIn hdirs hwalk) hnode

/-- A path leads to a directory. -/
theorem isDirectory_iff {tree : FileTree} {path : String} :
    tree.isDirectory path = true ↔ ∃ place, tree.locate path = .ok (place, .directory) := by
  rw [isDirectory]
  constructor
  · intro h
    split at h
    · next place heq => exact ⟨place, heq⟩
    · cases h
  · rintro ⟨place, heq⟩
    rw [heq]

/-- The content of the file that a path leads to. -/
theorem read_of_locate {tree : FileTree} {path : String} {place : Place} {content : Bytes}
    (h : tree.locate path = .ok (place, .file content)) : tree.read path = .ok content := by
  rw [read, h]
  rfl

/-- A path is read unless it leads to no file. -/
theorem exists_read_eq_error_iff {tree : FileTree} {path : String} :
    (∃ e, tree.read path = .error e) ↔ tree.isFile path = false := by
  rw [read, isFile]
  cases tree.locate path with
  | error e => exact iff_of_true ⟨e, rfl⟩ rfl
  | ok found =>
    obtain ⟨place, _ | content⟩ := found
    · exact iff_of_true ⟨.isDirectory, rfl⟩ rfl
    · exact iff_of_false (by rintro ⟨e, h⟩; cases h) (by simp)

/-! ## Places for files -/

/-- A file may stand under a name in the directory that the front of a path leads to. -/
structure Slot (tree : FileTree) (front name : List Char) (directory : Place) : Prop where
  walk_eq : tree.walk [] (Path.frontParts front) = .ok directory
  directory_eq : tree.node? directory = some .directory
  name_ne : name ≠ [] ∧ name ≠ ['.'] ∧ name ≠ ['.', '.']
  entryPlace_eq : entryPlace directory (String.ofList name) =
    .ok (directory ++ [String.ofList name])
  node?_ne : tree.node? (directory ++ [String.ofList name]) ≠ some .directory

/-- A path that gives a place to a file has a name, and what stands before the name leads to a
directory. -/
theorem exists_slot {tree : FileTree} {path : String} {place : Place} {front name : List Char}
    (hparted : Path.Parted path front name) (h : tree.fileSlot path = .ok place) :
    checkPath path = .ok () ∧
      ∃ directory, tree.Slot front name directory ∧ place = directory ++ [String.ofList name] := by
  rw [fileSlot] at h
  obtain ⟨_, hpath, h⟩ := bind_eq_ok_iff.1 h
  refine ⟨hpath, ?_⟩
  cases hfinal : Path.final? path with
  | none => rw [hfinal] at h; cases h
  | some parts =>
    obtain ⟨before, last⟩ := parts
    rw [hfinal] at h
    obtain ⟨directory, hwalk, h⟩ := bind_eq_ok_iff.1 h
    obtain ⟨hwalk, hdirectory⟩ := walk_append_dot hwalk
    split at h
    · cases h
    · next hname =>
      simp only [not_or, Bool.not_eq_true] at hname
      obtain ⟨hdot, hdots, hslash⟩ := hname
      obtain ⟨place', hplace, h⟩ := bind_eq_ok_iff.1 h
      split at h
      · cases h
      · next hnode =>
        obtain rfl := Except.ok.inj h
        have hnil : name ≠ [] := by
          rintro rfl
          have hempty : path ≠ "" := by
            rintro rfl
            cases hpath
          rw [hparted.endsInSlash_of_nil hempty] at hslash
          cases hslash
        rw [hparted.final?_eq hnil] at hfinal
        obtain ⟨rfl, rfl⟩ := Prod.mk.inj (Option.some.inj hfinal)
        obtain rfl := entryPlace_eq_ok hplace
        refine ⟨directory, ⟨hwalk, hdirectory, ⟨hnil, ?_, ?_⟩, hplace, hnode⟩, rfl⟩
        · rintro rfl
          exact hdot rfl
        · rintro rfl
          exact hdots rfl

/-- **A path leads to the file that has been put at its place**, also when directories have been
made since. -/
theorem locate_of_fileSlot {tree tree' : FileTree} {path : String} {place : Place}
    {content : Bytes} (h : tree.fileSlot path = .ok place) (hdirs : DirectoriesIn tree tree')
    (hnode : tree'.node? place = some (.file content)) :
    tree'.locate path = .ok (place, .file content) := by
  obtain ⟨front, name, hparted⟩ := Path.exists_parted path
  obtain ⟨hpath, directory, slot, rfl⟩ := exists_slot hparted h
  refine locate_eq_ok hpath ?_ hnode
  rw [hparted.split_eq, walk_append, walk_of_directoriesIn hdirs slot.walk_eq]
  refine walk_name (hdirs _ slot.directory_eq) ⟨?_, ?_, ?_⟩ slot.entryPlace_eq
  · exact fun heq => slot.name_ne.1 (String.ofList_inj.1 heq)
  · exact fun heq => slot.name_ne.2.1 (String.ofList_inj.1 heq)
  · exact fun heq => slot.name_ne.2.2 (String.ofList_inj.1 heq)

/-- **A path gives the same place to a file in another tree** that has the directories of the first
one, unless one stands at the place. -/
theorem fileSlot_of_directoriesIn {tree tree' : FileTree} {path : String} {place : Place}
    (h : tree.fileSlot path = .ok place) (hdirs : DirectoriesIn tree tree')
    (hnode : tree'.node? place ≠ some .directory) : tree'.fileSlot path = .ok place := by
  rw [fileSlot] at h ⊢
  obtain ⟨_, hpath, h⟩ := bind_eq_ok_iff.1 h
  refine bind_eq_ok_iff.2 ⟨_, hpath, ?_⟩
  cases hfinal : Path.final? path with
  | none => rw [hfinal] at h; cases h
  | some parts =>
    obtain ⟨before, last⟩ := parts
    rw [hfinal] at h
    obtain ⟨directory, hwalk, h⟩ := bind_eq_ok_iff.1 h
    refine bind_eq_ok_iff.2 ⟨directory, walk_of_directoriesIn hdirs hwalk, ?_⟩
    split at h
    · cases h
    · next hname =>
      obtain ⟨place', hplace, h⟩ := bind_eq_ok_iff.1 h
      split at h
      · cases h
      · obtain rfl := Except.ok.inj h
        rw [if_neg hname]
        exact bind_eq_ok_iff.2 ⟨_, hplace, if_neg hnode⟩

/-- The place for a file is that of no directory, and not the root. -/
theorem fileSlot_ne {tree : FileTree} {path : String} {place : Place}
    (h : tree.fileSlot path = .ok place) :
    place ≠ [] ∧ tree.node? place ≠ some .directory := by
  obtain ⟨front, name, hparted⟩ := Path.exists_parted path
  obtain ⟨-, directory, slot, rfl⟩ := exists_slot hparted h
  exact ⟨by simp, slot.node?_ne⟩

end FileTree

end CopyTrial
