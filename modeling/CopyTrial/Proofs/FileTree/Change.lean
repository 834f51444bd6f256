import CopyTrial.Proofs.FileTree.Walk

/-!
# Trees that change

What a command does to a tree is of two kinds: it makes directories where nothing was, or it puts
a file at a place where no directory is. Neither takes a directory away, so what paths led to
before they still lead to. If only the contents of files change, every path leads where it led,
or fails as it failed.

## Main definitions

* `Path.Above` — a path is that of a directory above another one.
* `FileTree.GrowsAlong` — the only changes are new directories to which given paths lead.
* `FileTree.SameShape` — two trees differ at most in what files hold.

## Main results

* `FileTree.put_put`, `FileTree.put_self` — putting twice, and putting what is there.
* `FileTree.growsAlong_of_makeDirectory` — what making a directory changes.
* `FileTree.SameShape.fileSlot_eq`, `FileTree.SameShape.makeDirectory` — the shape of a tree
  decides where files and directories can be made.
-/

set_option autoImplicit false

namespace CopyTrial

namespace FileTree

/-! ## Changes -/

/-- What has been put at a place last stands there. -/
theorem put_put (tree : FileTree) (place : Place) (node node' : Node) :
    (tree.put place node).put place node' = tree.put place node' := by
  have hentries : ∀ entries : List (Place × Node),
      putEntry place node' (putEntry place node entries) = putEntry place node' entries := by
    intro entries
    induction entries with
    | nil => simp [putEntry]
    | cons entry rest ih =>
      obtain ⟨other, node''⟩ := entry
      by_cases h : other = place
      · simp [putEntry, h]
      · simp [putEntry, h, ih]
  simp [put, hentries]

/-- Nothing changes if what stands at a place is put there. -/
theorem put_self {tree : FileTree} {place : Place} (hplace : place ≠ []) {node : Node}
    (h : tree.node? place = some node) : tree.put place node = tree := by
  have hentries : ∀ entries : List (Place × Node), entries.lookup place = some node →
      putEntry place node entries = entries := by
    intro entries
    induction entries with
    | nil => simp
    | cons entry rest ih =>
      obtain ⟨other, node'⟩ := entry
      intro hlookup
      by_cases hother : other = place
      · subst hother
        simp only [List.lookup_cons, beq_self_eq_true, Option.some.injEq] at hlookup
        simp [putEntry, hlookup]
      · have hne : (place == other) = false := by simpa using fun e => hother e.symm
        rw [List.lookup_cons, hne] at hlookup
        simp [putEntry, hother, ih hlookup]
  obtain _ | ⟨name, rest⟩ := place
  · exact absurd rfl hplace
  · rw [put, hentries tree.entries h]

/-- A file that is put where no directory stands leaves all directories. -/
theorem directoriesIn_put {tree : FileTree} {place : Place}
    (hplace : tree.node? place ≠ some .directory) (node : Node) :
    DirectoriesIn tree (tree.put place node) := by
  intro other hother
  have hne : other ≠ place := by
    rintro rfl
    exact hplace hother
  rw [node?_put_of_ne tree hne node]
  exact hother

/-- A file that is put somewhere is no new directory. -/
theorem directoriesIn_of_put_file (tree : FileTree) {place : Place} (hplace : place ≠ [])
    (content : Bytes) : DirectoriesIn (tree.put place (.file content)) tree := by
  intro other hother
  by_cases hne : other = place
  · subst hne
    rw [node?_put_self tree hplace] at hother
    cases hother
  · rwa [node?_put_of_ne tree hne] at hother

/-- A file that is put at its place leaves every other path its place. -/
theorem fileSlot_put_file_iff {tree : FileTree} {path other : String} {place place' : Place}
    (h : tree.fileSlot path = .ok place) (content : Bytes) :
    (tree.put place (.file content)).fileSlot other = .ok place' ↔
      tree.fileSlot other = .ok place' := by
  obtain ⟨hplace, hnode⟩ := fileSlot_ne h
  have hless := directoriesIn_of_put_file tree hplace content
  have hmore := directoriesIn_put hnode (.file content)
  constructor
  · intro hslot
    exact fileSlot_of_directoriesIn hslot hless fun hnode' => (fileSlot_ne hslot).2 (hmore _ hnode')
  · intro hslot
    exact fileSlot_of_directoriesIn hslot hmore fun hnode' => (fileSlot_ne hslot).2 (hless _ hnode')

/-- The file that has been put at the place of a path is the one that the path leads to. -/
theorem locate_put_self {tree : FileTree} {path : String} {place : Place}
    (h : tree.fileSlot path = .ok place) (content : Bytes) :
    (tree.put place (.file content)).locate path = .ok (place, .file content) := by
  obtain ⟨hplace, hnode⟩ := fileSlot_ne h
  exact locate_of_fileSlot h (directoriesIn_put hnode _) (node?_put_self _ hplace _)

/-- **A path leads to the same file when one is put somewhere**, and that one is another or the same
file. -/
theorem locate_put_file {tree : FileTree} {path other : String} {place place' : Place}
    {content : Bytes} (h : tree.locate path = .ok (place, .file content))
    (h' : tree.fileSlot other = .ok place') (content' : Bytes) :
    (tree.put place' (.file content')).locate path =
      .ok (place, .file (if place = place' then content' else content)) := by
  obtain ⟨hplace, hnode⟩ := fileSlot_ne h'
  refine locate_of_directoriesIn (directoriesIn_put hnode _) h ?_
  split
  · next heq => rw [heq, node?_put_self _ hplace]
  · next hne => rw [node?_put_of_ne _ hne, (locate_eq_ok_iff.1 h).2.2]

end FileTree

/-! ## New directories -/

namespace Path

/-- A path is that of a directory above another one. -/
inductive Above (path : String) : String → Prop
  | parent {above : String} (h : parent? path = some above) : Above path above
  | up {between above : String} (h : Above path between) (h' : parent? between = some above) :
    Above path above

/-- What is above the parent is above the path. -/
theorem Above.of_parent {path parent above : String} (hparent : parent? path = some parent)
    (h : above = parent ∨ Above parent above) : Above path above := by
  rcases h with rfl | h
  · exact .parent hparent
  · induction h with
    | parent h => exact .up (.parent hparent) h
    | up _ h' ih => exact .up ih h'

end Path

namespace FileTree

/-- The only changes are new directories, each of which one of some paths leads to. -/
def GrowsAlong (paths : String → Prop) (tree tree' : FileTree) : Prop :=
  ∀ place, tree'.node? place = tree.node? place ∨
    tree.node? place = none ∧ tree'.node? place = some .directory ∧
      ∃ path, paths path ∧ tree'.locate path = .ok (place, .directory)

namespace GrowsAlong

variable {paths paths' : String → Prop} {tree₁ tree₂ tree₃ : FileTree}

/-- No change at all. -/
theorem refl (paths : String → Prop) (tree : FileTree) : GrowsAlong paths tree tree :=
  fun _ => .inl rfl

/-- More paths may have led to the new directories. -/
theorem mono (h : GrowsAlong paths tree₁ tree₂) (hpaths : ∀ path, paths path → paths' path) :
    GrowsAlong paths' tree₁ tree₂ := by
  intro place
  rcases h place with heq | ⟨hnone, hnew, path, hpath, hlocate⟩
  · exact .inl heq
  · exact .inr ⟨hnone, hnew, path, hpaths path hpath, hlocate⟩

/-- Whatever was there stays. -/
theorem node?_eq (h : GrowsAlong paths tree₁ tree₂) {place : Place} {node : Node}
    (hnode : tree₁.node? place = some node) : tree₂.node? place = some node := by
  rcases h place with heq | ⟨hnone, -⟩
  · rw [heq, hnode]
  · rw [hnone] at hnode
    cases hnode

/-- All directories stay. -/
theorem directoriesIn (h : GrowsAlong paths tree₁ tree₂) : DirectoriesIn tree₁ tree₂ :=
  fun _ hplace => h.node?_eq hplace

/-- Two changes after each other. -/
theorem trans (h : GrowsAlong paths tree₁ tree₂) (h' : GrowsAlong paths tree₂ tree₃) :
    GrowsAlong paths tree₁ tree₃ := by
  intro place
  rcases h' place with heq | ⟨hnone, hnew, hpath⟩
  · rcases h place with heq' | ⟨hnone', hnew', path, hpath, hlocate⟩
    · exact .inl (heq.trans heq')
    · rw [hnew'] at heq
      exact .inr ⟨hnone', heq, path, hpath, locate_of_directoriesIn h'.directoriesIn hlocate heq⟩
  · have hnone' : tree₁.node? place = none := by
      rw [Option.eq_none_iff_forall_ne_some]
      intro node hnode
      rw [h.node?_eq hnode] at hnone
      cases hnone
    exact .inr ⟨hnone', hnew, hpath⟩

end GrowsAlong

/-- **A directory is made where nothing was**, and its path leads there. -/
theorem growsAlong_of_makeDirectory {tree tree' : FileTree} {path : String}
    (h : tree.makeDirectory path = .ok tree') : GrowsAlong (· = path) tree tree' := by
  rw [makeDirectory] at h
  obtain ⟨_, hpath, h⟩ := bind_eq_ok_iff.1 h
  cases hfinal : Path.final? path with
  | none => rw [hfinal] at h; cases h
  | some parts =>
    obtain ⟨before, last⟩ := parts
    rw [hfinal] at h
    obtain ⟨directory, hwalk, h⟩ := bind_eq_ok_iff.1 h
    obtain ⟨hwalk, hdirectory⟩ := walk_append_dot hwalk
    split at h
    · cases h
    · next hname =>
      rw [not_or] at hname
      obtain ⟨new, hplace, h⟩ := bind_eq_ok_iff.1 h
      split at h
      · cases h
      · next hnone =>
        obtain rfl := Except.ok.inj h
        have hnew : new ≠ [] := by
          rw [entryPlace_eq_ok hplace]
          simp
        have hdirs : DirectoriesIn tree (tree.put new .directory) :=
          directoriesIn_put (by simp [hnone]) .directory
        have hthere := node?_put_self tree hnew .directory
        intro place
        by_cases hne : place = new
        · subst hne
          refine .inr ⟨hnone, hthere, path, rfl, locate_eq_ok hpath ?_ hthere⟩
          obtain ⟨hlast, count, hsplit⟩ := Path.exists_split_of_final? hfinal
          have hstay : ∀ count, (tree.put place .directory).walk place
              (List.replicate count "") = .ok place := by
            intro count
            induction count with
            | zero => rfl
            | succ count ih =>
              rw [List.replicate_succ, walk_cons_of_directory hthere, if_pos (.inl rfl), ih]
          rw [hsplit, ← List.singleton_append, ← List.append_assoc, walk_append, walk_append,
            walk_of_directoriesIn hdirs hwalk]
          show (tree.put place .directory).walk directory [last] >>= _ = _
          rw [walk_name (hdirs _ hdirectory) ⟨hlast, hname⟩ hplace]
          exact hstay count
        · exact .inl (node?_put_of_ne tree hne .directory)

end FileTree

/-! ## Trees of one shape -/

/-- A node without what a file holds. -/
def Node.shape : Node → Node
  | .directory => .directory
  | .file _ => .file []

namespace FileTree

/-- Two trees differ at most in what files hold. -/
def SameShape (tree tree' : FileTree) : Prop :=
  ∀ place, (tree.node? place).map Node.shape = (tree'.node? place).map Node.shape

namespace SameShape

variable {tree tree' tree'' : FileTree}

/-- A tree has its own shape. -/
theorem refl (tree : FileTree) : SameShape tree tree := fun _ => rfl

/-- The shape is the same the other way round. -/
theorem symm (h : SameShape tree tree') : SameShape tree' tree := fun place => (h place).symm

/-- The shape stays through two changes. -/
theorem trans (h : SameShape tree tree') (h' : SameShape tree' tree'') : SameShape tree tree'' :=
  fun place => (h place).trans (h' place)

/-- Nothing stands where nothing stood. -/
theorem eq_none_iff (h : SameShape tree tree') (place : Place) :
    tree.node? place = none ↔ tree'.node? place = none := by
  rw [← Option.map_eq_none_iff (f := Node.shape), h place, Option.map_eq_none_iff]

/-- Directories are directories. -/
theorem eq_directory_iff (h : SameShape tree tree') (place : Place) :
    tree.node? place = some .directory ↔ tree'.node? place = some .directory := by
  have hshape : ∀ t : FileTree, t.node? place = some .directory ↔
      (t.node? place).map Node.shape = some .directory := by
    intro t
    cases t.node? place with
    | none => simp
    | some node => cases node <;> simp [Node.shape]
  rw [hshape tree, h place, ← hshape tree']

/-- A walk leads to the same place, or fails for the same cause. -/
theorem walk_eq (h : SameShape tree tree') (here : Place) (parts : List String) :
    tree.walk here parts = tree'.walk here parts := by
  induction parts generalizing here with
  | nil => rfl
  | cons part rest ih =>
    have hhere := h here
    rw [walk, walk]
    cases hnode : tree.node? here with
    | none =>
      rw [(h.eq_none_iff here).1 hnode]
    | some node =>
      cases hnode' : tree'.node? here with
      | none =>
        rw [(h.eq_none_iff here).2 hnode'] at hnode
        cases hnode
      | some node' =>
        rw [hnode, hnode'] at hhere
        cases node with
        | directory =>
          cases node' with
          | directory => simp only [ih]
          | file content => cases hhere
        | file content =>
          cases node' with
          | directory => cases hhere
          | file content' => rfl

/-- A path gives the same place to a file, or fails for the same cause. -/
theorem fileSlot_eq (h : SameShape tree tree') (path : String) :
    tree.fileSlot path = tree'.fileSlot path := by
  simp only [fileSlot, h.walk_eq, h.eq_directory_iff]

/-- Whether a path leads to a directory. -/
theorem isDirectory_eq (h : SameShape tree tree') (path : String) :
    tree.isDirectory path = tree'.isDirectory path := by
  rw [Bool.eq_iff_iff, isDirectory_iff, isDirectory_iff]
  simp only [locate_eq_ok_iff, h.walk_eq, h.eq_directory_iff]

/-- What is put into both trees keeps their shape the same. -/
theorem put (h : SameShape tree tree') (place : Place) (node : Node) :
    SameShape (tree.put place node) (tree'.put place node) := by
  intro other
  obtain _ | ⟨name, rest⟩ := other
  · rfl
  · by_cases hother : name :: rest = place
    · subst hother
      rw [node?_put_self tree (List.cons_ne_nil _ _), node?_put_self tree' (List.cons_ne_nil _ _)]
    · rw [node?_put_of_ne tree hother, node?_put_of_ne tree' hother]
      exact h _

/-- Another content of a file does not change the shape. -/
theorem put_file {place : Place} {content : Bytes}
    (hplace : tree.node? place = some (.file content)) (content' : Bytes) :
    SameShape tree (tree.put place (.file content')) := by
  intro other
  obtain _ | ⟨name, rest⟩ := other
  · rfl
  · by_cases hother : name :: rest = place
    · subst hother
      rw [hplace, node?_put_self tree (List.cons_ne_nil _ _)]
      rfl
    · rw [node?_put_of_ne tree hother]

/-- Files that are put at one place of both trees keep their shape the same, whatever they hold. -/
theorem put_files (h : SameShape tree tree') {place : Place} (hplace : place ≠ [])
    (content content' : Bytes) :
    SameShape (tree.put place (.file content)) (tree'.put place (.file content')) := by
  have hput := put_file (node?_put_self tree hplace (.file content)) content'
  rw [put_put] at hput
  exact hput.trans (h.put place (.file content'))

/-- A directory is made in both trees, or in neither for the same cause. -/
theorem makeDirectory (h : SameShape tree tree') (path : String) :
    (∃ e, tree.makeDirectory path = .error e ∧ tree'.makeDirectory path = .error e) ∨
      ∃ place, tree.makeDirectory path = .ok (tree.put place .directory) ∧
        tree'.makeDirectory path = .ok (tree'.put place .directory) := by
  simp only [FileTree.makeDirectory, ← h.walk_eq, bind, Except.bind]
  cases checkPath path with
  | error e => exact .inl ⟨e, rfl, rfl⟩
  | ok u =>
    cases Path.final? path with
    | none => exact .inl ⟨_, rfl, rfl⟩
    | some parts =>
      obtain ⟨before, last⟩ := parts
      simp only
      cases tree.walk [] (before ++ ["."]) with
      | error e => exact .inl ⟨e, rfl, rfl⟩
      | ok directory =>
        simp only
        split
        · exact .inl ⟨_, rfl, rfl⟩
        · cases entryPlace directory last with
          | error e => exact .inl ⟨e, rfl, rfl⟩
          | ok place =>
            simp only
            cases hnode : tree.node? place with
            | none =>
              rw [(h.eq_none_iff place).1 hnode]
              exact .inr ⟨place, rfl, rfl⟩
            | some node =>
              cases hnode' : tree'.node? place with
              | none =>
                rw [(h.eq_none_iff place).2 hnode'] at hnode
                cases hnode
              | some node' => exact .inl ⟨_, rfl, rfl⟩

end SameShape

end FileTree

end CopyTrial
