import CopyTrial.Machine
import CopyTrial.Proofs.FileTree.Change

/-!
# Files of a machine

What the actions on files do to a machine: a file that is created or written changes the tree at
one place, and the directories above a file are the only ones that are made for it. Whether all
that succeeds depends on the shape of the tree alone.

## Main definitions

* `Machine.readClocks`, `Machine.print` — the machine after clocks have been read, and after
  something has been written beside the files.
* `Machine.putFile` — the machine after a file has been put at a place.
* `Machine.ByShape`, `Machine.OnlyMakes` — actions that depend on the shape of the tree alone, and
  those that do nothing but to make directories.
* `Machine.CanCreate` — the directories above a file can be made, and then the file.

## Main results

* `Machine.run_createFile`, `Machine.run_appendFile`, `Machine.run_writeFile` — what the actions
  on one file do.
* `Machine.OnlyMakes.makeParents` — making the directories above a file does nothing else.
* `Machine.CanCreate.of_sameShape`, `Machine.run_create` — when a file can be created, and what
  creating it does.
-/

set_option autoImplicit false

namespace CopyTrial

open FileTree

namespace Machine

variable {ε α β : Type}

/-- An action of which the result is known leaves some machine. -/
theorem run_eq_of_fst {machine : Machine} {action : ExceptT ε (StateM Machine) α}
    {result : Except ε α} (h : (machine.run action).1 = result) :
    machine.run action = (result, (machine.run action).2) := by
  rw [← h]

/-- The second of two actions starts from what the first one leaves. -/
theorem run_bind_of_ok {machine after : Machine} {action : ExceptT ε (StateM Machine) α} {a : α}
    (h : machine.run action = (.ok a, after)) (next : α → ExceptT ε (StateM Machine) β) :
    machine.run (action >>= next) = after.run (next a) := by
  rw [run_bind, h]

/-- The second of two actions does not start after an error. -/
theorem run_bind_of_error {machine after : Machine} {action : ExceptT ε (StateM Machine) α} {e : ε}
    (h : machine.run action = (.error e, after)) (next : α → ExceptT ε (StateM Machine) β) :
    machine.run (action >>= next) = (.error e, after) := by
  rw [run_bind, h]

/-- The second of two actions starts from what the first one leaves, if that cannot fail. -/
theorem run_bind_lift {machine after : Machine} {action : StateM Machine α} {a : α}
    (h : action machine = (a, after)) (next : α → ExceptT ε (StateM Machine) β) :
    machine.run ((liftM action : ExceptT ε (StateM Machine) α) >>= next) = after.run (next a) := by
  rw [run_bind, run_lift, h]

/-- A function may be applied to what an action gives. -/
theorem run_map_of_ok {machine after : Machine} {action : ExceptT ε (StateM Machine) α} {a : α}
    (h : machine.run action = (.ok a, after)) (f : α → β) :
    machine.run (f <$> action) = (.ok (f a), after) := by
  rw [map_eq_pure_bind, run_bind_of_ok h, run_pure]

/-- An error stays one when a function is to be applied. -/
theorem run_map_of_error {machine after : Machine} {action : ExceptT ε (StateM Machine) α} {e : ε}
    (h : machine.run action = (.error e, after)) (f : α → β) :
    machine.run (f <$> action) = (.error e, after) := by
  rw [map_eq_pure_bind, run_bind_of_error h]

/-- Where there is no error it does not matter how one would be told. -/
theorem run_adapt_of_ok {machine after : Machine} {action : ExceptT ε (StateM Machine) α} {a : α}
    (h : machine.run action = (.ok a, after)) {ε' : Type} (f : ε → ε') :
    machine.run (action.adapt f) = (.ok a, after) := by
  rw [run_adapt, h]
  rfl

/-- An error is told in another way. -/
theorem run_adapt_of_error {machine after : Machine} {action : ExceptT ε (StateM Machine) α} {e : ε}
    (h : machine.run action = (.error e, after)) {ε' : Type} (f : ε → ε') :
    machine.run (action.adapt f) = (.error (f e), after) := by
  rw [run_adapt, h]
  rfl

/-! ## What is beside the files -/

/-- The machine after its clocks have been read. -/
def readClocks (machine : Machine) (wallReadings tickReadings : Nat) : Machine :=
  { machine with wallReadings, tickReadings }

/-- The machine after something has been written beside its files. -/
def print (machine : Machine) (output : Bytes) (messages : String) : Machine :=
  { machine with
    output := machine.output ++ output
    messages := machine.messages ++ messages }

/-- Nothing changes if nothing is written. -/
@[simp] theorem print_nil (machine : Machine) : machine.print [] "" = machine := by
  simp [print]

/-- A message is written. -/
theorem run_warn (machine : Machine) (message : String) :
    (Host.warn message : StateM Machine Unit) machine = ((), machine.print [] message) := by
  rw [print, List.append_nil]
  rfl

/-- Output is written. -/
theorem run_print (machine : Machine) (bytes : Bytes) :
    machine.run (Host.print bytes : ExceptT IoError (StateM Machine) Unit) =
      (.ok (), machine.print bytes "") := by
  rw [print, String.append_empty]
  rfl

/-! ## One file -/

/-- The machine after a file has been put at a place. -/
def putFile (machine : Machine) (place : Place) (content : Bytes) : Machine :=
  { machine with tree := machine.tree.put place (.file content) }

/-- A file that is put twice holds what it got last. -/
@[simp] theorem putFile_putFile (machine : Machine) (place : Place) (content content' : Bytes) :
    (machine.putFile place content).putFile place content' = machine.putFile place content' := by
  simp [putFile, put_put]

/-- Creating a file empties the place that its path gives it. -/
theorem run_createFile (machine : Machine) (path : String) :
    machine.run (Host.createFile path : ExceptT IoError (StateM Machine) Unit) =
      match machine.tree.fileSlot path with
      | .ok place => (.ok (), machine.putFile place [])
      | .error e => (.error e, machine) := by
  show Machine.edit (·.create path) machine = _
  simp only [edit, create]
  cases machine.tree.fileSlot path <;> rfl

/-- Bytes are added to the file that a path leads to. -/
theorem run_appendFile {machine : Machine} {path : String} {place : Place} {content : Bytes}
    (h : machine.tree.locate path = .ok (place, .file content)) (bytes : Bytes) :
    machine.run (Host.appendFile path bytes : ExceptT IoError (StateM Machine) Unit) =
      (.ok (), machine.putFile place (content ++ bytes)) := by
  show Machine.edit (·.append path bytes) machine = _
  simp only [edit, append, h]
  rfl

/-- The file that has been put at the place of a path is the one that the path leads to. -/
theorem locate_putFile {machine : Machine} {path : String} {place : Place}
    (h : machine.tree.fileSlot path = .ok place) (content : Bytes) :
    (machine.putFile place content).tree.locate path = .ok (place, .file content) :=
  locate_put_self h content

/-- A file that is written holds what was written, and nothing else. -/
theorem run_writeFile (machine : Machine) (path : String) (content : Bytes) :
    machine.run (writeFile path content : ExceptT IoError (StateM Machine) Unit) =
      match machine.tree.fileSlot path with
      | .ok place => (.ok (), machine.putFile place content)
      | .error e => (.error e, machine) := by
  rw [writeFile, run_bind, run_createFile]
  cases hslot : machine.tree.fileSlot path with
  | error e => rfl
  | ok place =>
    simp only [run_appendFile (locate_putFile hslot []), putFile_putFile, List.nil_append]

/-- A file that has a place can be written. -/
theorem run_writeFile_of_fileSlot {machine : Machine} {path : String} {place : Place}
    (h : machine.tree.fileSlot path = .ok place) (content : Bytes) :
    machine.run (writeFile path content : ExceptT IoError (StateM Machine) Unit) =
      (.ok (), machine.putFile place content) := by
  rw [run_writeFile, h]

/-! ## Directories above a file -/

/-- Making a directory changes the tree if there is no error. -/
theorem run_makeDirectory (machine : Machine) (path : String) :
    machine.run (Host.makeDirectory path : ExceptT IoError (StateM Machine) Unit) =
      match machine.tree.makeDirectory path with
      | .ok tree => (.ok (), { machine with tree })
      | .error e => (.error e, machine) := rfl

/-- The shape of the tree decides about what an action does, and it gives the same shape to trees of
one shape. -/
def ByShape (action : ExceptT IoError (StateM Machine) Unit) : Prop :=
  ∀ machine machine' : Machine, SameShape machine.tree machine'.tree →
    (machine.run action).1 = (machine'.run action).1 ∧
      SameShape (machine.run action).2.tree (machine'.run action).2.tree

namespace ByShape

variable {action action' : ExceptT IoError (StateM Machine) Unit}

/-- Nothing is done. -/
theorem pure : ByShape (Pure.pure ()) := fun _ _ h => ⟨rfl, h⟩

/-- Two such actions, the second of which starts if the first one succeeds. -/
theorem seq (h : ByShape action) (h' : ByShape action') :
    ByShape (action >>= fun _ => action') := by
  intro machine machine' hshape
  obtain ⟨hresult, hshape⟩ := h machine machine' hshape
  rw [run_bind, run_bind]
  rcases hrun : machine.run action with ⟨result, after⟩
  rcases hrun' : machine'.run action with ⟨result', after'⟩
  rw [hrun, hrun'] at hresult hshape
  obtain rfl : result = result' := hresult
  cases result with
  | error e => exact ⟨rfl, hshape⟩
  | ok u => exact h' after after' hshape

/-- Such an action, and another one that starts if it fails. -/
theorem tryCatch {handle : IoError → ExceptT IoError (StateM Machine) Unit}
    (h : ByShape action) (h' : ∀ e, ByShape (handle e)) :
    ByShape (MonadExcept.tryCatch action handle) := by
  intro machine machine' hshape
  obtain ⟨hresult, hshape⟩ := h machine machine' hshape
  rw [run_tryCatch, run_tryCatch]
  rcases hrun : machine.run action with ⟨result, after⟩
  rcases hrun' : machine'.run action with ⟨result', after'⟩
  rw [hrun, hrun'] at hresult hshape
  obtain rfl : result = result' := hresult
  cases result with
  | ok u => exact ⟨rfl, hshape⟩
  | error e => exact h' e after after' hshape

/-- A file is created, or not, for what a path leads to. -/
theorem createFile (path : String) : ByShape (Host.createFile path) := by
  intro machine machine' hshape
  rw [run_createFile, run_createFile, hshape.fileSlot_eq path]
  cases machine'.tree.fileSlot path with
  | error e => exact ⟨rfl, hshape⟩
  | ok place => exact ⟨rfl, hshape.put place (.file [])⟩

end ByShape

/-- An action does nothing but to make directories to which given paths lead, and the shape of the
tree decides about what it does. -/
structure OnlyMakes (paths : String → Prop) (action : ExceptT IoError (StateM Machine) Unit) :
    Prop where
  grows : ∀ machine : Machine, ∃ result tree,
    machine.run action = (result, { machine with tree }) ∧ GrowsAlong paths machine.tree tree
  byShape : ByShape action

namespace OnlyMakes

variable {paths paths' : String → Prop} {action action' : ExceptT IoError (StateM Machine) Unit}

/-- More paths may lead to the directories. -/
theorem mono (h : OnlyMakes paths action) (hpaths : ∀ path, paths path → paths' path) :
    OnlyMakes paths' action where
  grows machine := by
    obtain ⟨result, tree, hrun, hgrows⟩ := h.grows machine
    exact ⟨result, tree, hrun, hgrows.mono hpaths⟩
  byShape := h.byShape

/-- Nothing is done. -/
theorem pure : OnlyMakes paths (Pure.pure ()) where
  grows machine := ⟨.ok (), machine.tree, rfl, .refl paths _⟩
  byShape := .pure

/-- Nothing is done but to fail. -/
theorem throw (e : IoError) : OnlyMakes paths (MonadExcept.throw e) where
  grows machine := ⟨.error e, machine.tree, rfl, .refl paths _⟩
  byShape _ _ h := ⟨rfl, h⟩

/-- One directory is made, or none. -/
theorem makeDirectory (path : String) : OnlyMakes (· = path) (Host.makeDirectory path) where
  grows machine := by
    rw [run_makeDirectory]
    cases hmake : machine.tree.makeDirectory path with
    | error e => exact ⟨.error e, machine.tree, rfl, .refl _ _⟩
    | ok tree => exact ⟨.ok (), tree, rfl, growsAlong_of_makeDirectory hmake⟩
  byShape machine machine' h := by
    rw [run_makeDirectory, run_makeDirectory]
    rcases h.makeDirectory path with ⟨e, hmake, hmake'⟩ | ⟨place, hmake, hmake'⟩
    · rw [hmake, hmake']
      exact ⟨rfl, h⟩
    · rw [hmake, hmake']
      exact ⟨rfl, h.put place .directory⟩

/-- Two such actions, the second of which starts if the first one succeeds. -/
theorem seq (h : OnlyMakes paths action) (h' : OnlyMakes paths action') :
    OnlyMakes paths (action >>= fun _ => action') where
  grows machine := by
    obtain ⟨result, tree, hrun, hgrows⟩ := h.grows machine
    rw [run_bind, hrun]
    cases result with
    | error e => exact ⟨.error e, tree, rfl, hgrows⟩
    | ok u =>
      obtain ⟨result, tree', hrun', hgrows'⟩ := h'.grows { machine with tree }
      exact ⟨result, tree', hrun', hgrows.trans hgrows'⟩
  byShape := h.byShape.seq h'.byShape

/-- Such an action, and another one that starts if it fails. -/
theorem tryCatch {handle : IoError → ExceptT IoError (StateM Machine) Unit}
    (h : OnlyMakes paths action) (h' : ∀ e, OnlyMakes paths (handle e)) :
    OnlyMakes paths (MonadExcept.tryCatch action handle) where
  grows machine := by
    obtain ⟨result, tree, hrun, hgrows⟩ := h.grows machine
    rw [run_tryCatch, hrun]
    cases result with
    | ok u => exact ⟨.ok u, tree, rfl, hgrows⟩
    | error e =>
      obtain ⟨result, tree', hrun', hgrows'⟩ := (h' e).grows { machine with tree }
      exact ⟨result, tree', hrun', hgrows.trans hgrows'⟩
  byShape := h.byShape.tryCatch fun e => (h' e).byShape

/-- An error does not matter if a path leads to a directory anyway. -/
theorem unlessDirectory (path : String) (e : IoError) :
    OnlyMakes paths (do
      if ← (Host.isDirectory path : StateM Machine Bool) then Pure.pure ()
      else MonadExcept.throw e) where
  grows machine := by
    rw [run_bind, run_lift]
    show ∃ result tree, machine.run (if machine.tree.isDirectory path then _ else _) = _ ∧ _
    split
    · exact (pure : OnlyMakes paths _).grows machine
    · exact (throw e : OnlyMakes paths _).grows machine
  byShape machine machine' h := by
    rw [run_bind, run_bind, run_lift, run_lift]
    show (machine.run (if machine.tree.isDirectory path then _ else _)).1 =
      (machine'.run (if machine'.tree.isDirectory path then _ else _)).1 ∧
      SameShape (machine.run (if machine.tree.isDirectory path then _ else _)).2.tree
        (machine'.run (if machine'.tree.isDirectory path then _ else _)).2.tree
    rw [h.isDirectory_eq path]
    split
    · exact ByShape.pure machine machine' h
    · exact (throw e : OnlyMakes paths _).byShape machine machine' h

/-- A directory is made unless it is there. -/
theorem ensureDirectory (path : String) :
    OnlyMakes (· = path) (CopyTrial.ensureDirectory path) :=
  (makeDirectory path).tryCatch fun e => unlessDirectory path e

/-- A directory is made with those above it. -/
theorem makeDirectoriesWithin (fuel : Nat) (path : String) :
    OnlyMakes (fun above => above = path ∨ Path.Above path above)
      (CopyTrial.makeDirectoriesWithin fuel path) := by
  induction fuel generalizing path with
  | zero => exact (ensureDirectory path).mono fun _ h => .inl h
  | succ fuel ih =>
    have hself : ∀ above, above = path → above = path ∨ Path.Above path above := fun _ h => .inl h
    refine ((makeDirectory path).mono hself).tryCatch fun e => ?_
    split
    · cases hparent : Path.parent? path with
      | none => exact pure.seq ((ensureDirectory path).mono hself)
      | some parent =>
        refine ((ih parent).mono fun above h => ?_).seq ((ensureDirectory path).mono hself)
        exact .inr (.of_parent hparent h)
    · exact unlessDirectory path e

/-- **The directories above a file are made**, and nothing else is done. -/
theorem makeParents (path : String) : OnlyMakes (Path.Above path) (CopyTrial.makeParents path) := by
  rw [CopyTrial.makeParents]
  cases hparent : Path.parent? path with
  | none => exact pure
  | some parent =>
    exact (makeDirectoriesWithin _ parent).mono fun above h => .of_parent hparent h

end OnlyMakes

/-! ## A file with the directories above it -/

/-- The directories above a file can be made, and then the file. -/
def CanCreate (machine : Machine) (path : String) : Prop :=
  (machine.run (do makeParents path; Host.createFile path)).1 = .ok ()

/-- Whether a file can be created depends on the shape of the tree alone. -/
theorem CanCreate.of_sameShape {machine machine' : Machine} {path : String}
    (h : machine.CanCreate path) (hshape : SameShape machine.tree machine'.tree) :
    machine'.CanCreate path := by
  have hsame := (OnlyMakes.makeParents path).byShape.seq (.createFile path) machine machine' hshape
  exact hsame.1.symm.trans h

/-- A file that can be created is empty then, and only directories above it are new besides. -/
theorem run_create {machine : Machine} {path : String} (h : machine.CanCreate path) :
    ∃ tree place, GrowsAlong (Path.Above path) machine.tree tree ∧
      tree.fileSlot path = .ok place ∧
      machine.run (do makeParents path; Host.createFile path) =
        (.ok (), ({ machine with tree } : Machine).putFile place []) := by
  obtain ⟨result, tree, hrun, hgrows⟩ := (OnlyMakes.makeParents path).grows machine
  rw [CanCreate, run_bind, hrun] at h
  rw [run_bind, hrun]
  cases result with
  | error e => cases h
  | ok u =>
    simp only [run_createFile] at h ⊢
    cases hslot : tree.fileSlot path with
    | error e => simp only [hslot] at h; cases h
    | ok place => exact ⟨tree, place, hgrows, hslot, rfl⟩

/-- Where a file cannot be created, only directories above it may be new. -/
theorem run_create_of_not_canCreate {machine : Machine} {path : String}
    (h : ¬ machine.CanCreate path) :
    ∃ e tree, GrowsAlong (Path.Above path) machine.tree tree ∧
      machine.run (do makeParents path; Host.createFile path) =
        (.error e, { machine with tree }) := by
  obtain ⟨result, tree, hrun, hgrows⟩ := (OnlyMakes.makeParents path).grows machine
  rw [CanCreate, run_bind, hrun] at h
  rw [run_bind, hrun]
  cases result with
  | error e => exact ⟨e, tree, hgrows, rfl⟩
  | ok u =>
    simp only [run_createFile] at h ⊢
    cases hslot : tree.fileSlot path with
    | error e => exact ⟨e, tree, hgrows, rfl⟩
    | ok place =>
      simp only [hslot] at h
      exact (h trivial).elim

end Machine

end CopyTrial
