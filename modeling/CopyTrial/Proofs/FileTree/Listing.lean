import CopyTrial.Proofs.FileTree.Change

/-!
# Listings of directories

A directory is listed in the order in which the tree has its entries. The order of a listing says
nothing on the tree: trees with the same entries in other orders cannot be told apart by anything
else that is asked of them. The path of a listed entry leads to that entry.

## Main definitions

* `Path.IsEntryName` — a name that an entry of a directory can have.
* `FileTree.Relisted` — trees that differ at most in the order of their listings.

## Main results

* `FileTree.locate_join` — the path of an entry leads to it.
* `FileTree.Relisted.of_perm` — entries in another order.
-/

set_option autoImplicit false

namespace CopyTrial

/-! ## Paths of entries -/

namespace Path

/-- A name that an entry of a directory can have. -/
structure IsEntryName (name : String) : Prop where
  ne_empty : name ≠ ""
  ne_dot : name ≠ "."
  ne_dots : name ≠ ".."
  no_slash : '/' ∉ name.toList
  no_zero : '\x00' ∉ name.toList
  size_le : name.utf8ByteSize ≤ FileTree.nameLimit

/-- The parts of the path of an entry are those of the directory, up to a slash at its end, and the
name of the entry. -/
theorem exists_split_join (path : String) {name : String} (h : '/' ∉ name.toList) :
    ∃ parts, split (join path name) = parts ++ [name] ∧
      (split path = parts ∨ split path = parts ++ [""]) := by
  rw [join]
  split
  · next hslash =>
    rw [endsInSlash, decide_eq_true_iff] at hslash
    obtain ⟨before, hbefore⟩ := List.getLast?_eq_some_iff.1 hslash
    refine ⟨(splitFrom '/' [] before).map String.ofList, ?_, .inr ?_⟩
    · rw [Path.split, String.toList_append, hbefore, List.append_assoc, List.singleton_append,
        splitFrom_append_cons, splitFrom_of_not_mem [] h]
      simp
    · rw [Path.split, hbefore, splitFrom_append_cons]
      simp [splitFrom]
  · refine ⟨Path.split path, ?_, .inl rfl⟩
    have htext : (path ++ "/" ++ name).toList = path.toList ++ '/' :: name.toList := by simp
    rw [Path.split, htext, splitFrom_append_cons, splitFrom_of_not_mem [] h]
    simp [Path.split]

end Path

namespace FileTree

variable {tree tree' : FileTree}

/-- A listed name is that of something. -/
theorem exists_node?_of_mem_children {place : Place} {name : String}
    (h : name ∈ tree.children place) : ∃ node, tree.node? (place ++ [name]) = some node := by
  rw [children, List.mem_filterMap] at h
  obtain ⟨⟨place', node⟩, hentry, hname⟩ := h
  split at hname
  · next hplace =>
    obtain ⟨before, hbefore⟩ := List.getLast?_eq_some_iff.1 hname
    rw [hbefore, List.dropLast_concat] at hplace
    rw [hplace] at hbefore
    have hne : place ++ [name] ≠ [] := by simp
    have hsome : (tree.entries.lookup (place ++ [name])).isSome = true := by
      rw [List.lookup_isSome_iff]
      exact ⟨(place', node), hentry, by simpa using hbefore.symm⟩
    obtain ⟨first, rest, hplace'⟩ := List.exists_cons_of_ne_nil hne
    rw [hplace'] at hsome ⊢
    exact Option.isSome_iff_exists.1 hsome
  · cases hname

/-- **The path of an entry leads to it**, unless the path is too long. -/
theorem locate_join {path name : String} {place : Place} {node : Node}
    (h : tree.locate path = .ok (place, .directory)) (hname : Path.IsEntryName name)
    (hlong : (Path.join path name).utf8ByteSize ≤ pathLimit)
    (hnode : tree.node? (place ++ [name]) = some node) :
    tree.locate (Path.join path name) = .ok (place ++ [name], node) := by
  obtain ⟨hpath, hwalk, hdirectory⟩ := locate_eq_ok_iff.1 h
  have hentry : entryPlace place name = .ok (place ++ [name]) :=
    if_neg (Nat.not_lt.2 hname.size_le)
  have hlast : tree.walk place [name] = .ok (place ++ [name]) :=
    walk_name hdirectory ⟨hname.ne_empty, hname.ne_dot, hname.ne_dots⟩ hentry
  refine locate_eq_ok ?_ ?_ hnode
  · have hzero : '\x00' ∉ path.toList := fun hmem => by
      rw [checkPath, if_pos hmem] at hpath
      cases hpath
    have hzero' : '\x00' ∉ (Path.join path name).toList := by
      rw [Path.join]
      split <;> simp [hzero, hname.no_zero]
    have hempty : Path.join path name ≠ "" := by
      rw [Path.join]
      split <;> simp [hname.ne_empty]
    rw [checkPath, if_neg hzero', if_neg (Nat.not_lt.2 hlong), if_neg hempty]
  · obtain ⟨parts, hjoin, rfl | hparts⟩ := Path.exists_split_join path hname.no_slash
    · rw [hjoin, walk_append, hwalk]
      exact hlast
    · have hfront : tree.walk [] parts = .ok place := by
        rw [hparts, walk_append] at hwalk
        obtain ⟨there, hthere, hstay⟩ := bind_eq_ok_iff.1 hwalk
        rw [walk_cons_of_directory (directory_of_walk_cons hstay), if_pos (.inl rfl)] at hstay
        rw [hthere, Except.ok.inj hstay]
      rw [hjoin, walk_append, hfront]
      exact hlast

/-! ## Other orders -/

/-- Two trees differ at most in the order in which directories are listed. -/
structure Relisted (tree tree' : FileTree) : Prop where
  node?_eq : ∀ place, tree.node? place = tree'.node? place
  children_perm : ∀ place, (tree.children place).Perm (tree'.children place)

/-- In a list with one value for each key, the value that is found for a key is the one that stands
with it. -/
theorem lookup_eq_some_iff {entries : List (Place × Node)} (h : (entries.map Prod.fst).Nodup)
    (place : Place) (node : Node) :
    entries.lookup place = some node ↔ (place, node) ∈ entries := by
  induction entries with
  | nil => simp
  | cons entry rest ih =>
    obtain ⟨place', node'⟩ := entry
    rw [List.map_cons, List.nodup_cons] at h
    by_cases hplace : place = place'
    · subst hplace
      have hrest : (place, node) ∉ rest := fun hmem => h.1 (List.mem_map.2 ⟨_, hmem, rfl⟩)
      simp [hrest, eq_comm]
    · have hne : (place == place') = false := by simpa using hplace
      simp [List.lookup_cons, hne, hplace, ih h.2]

namespace Relisted

/-- Entries in another order make a tree that differs at most in its listings, if each place has one
entry. -/
theorem of_perm (h : tree.entries.Perm tree'.entries)
    (hone : (tree.entries.map Prod.fst).Nodup) : Relisted tree tree' where
  node?_eq place := by
    obtain _ | ⟨name, rest⟩ := place
    · rfl
    · have hone' : (tree'.entries.map Prod.fst).Nodup := (h.map Prod.fst).nodup_iff.1 hone
      refine Option.ext fun node => ?_
      show tree.entries.lookup _ = _ ↔ tree'.entries.lookup _ = _
      rw [lookup_eq_some_iff hone, lookup_eq_some_iff hone', h.mem_iff]
  children_perm _ := h.filterMap _

/-- Every path leads to the same node, or fails for the same cause. -/
theorem locate_eq (h : Relisted tree tree') (path : String) :
    tree.locate path = tree'.locate path := by
  have hshape : SameShape tree tree' := fun place => by rw [h.node?_eq]
  simp only [locate, hshape.walk_eq, h.node?_eq]

/-- Every file is read in the same way. -/
theorem read_eq (h : Relisted tree tree') (path : String) : tree.read path = tree'.read path := by
  rw [read, read, h.locate_eq]

end Relisted

end FileTree

end CopyTrial
