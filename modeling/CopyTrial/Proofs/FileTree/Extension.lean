import CopyTrial.Proofs.FileTree.Change

/-!
# Files beside another one

A path with another extension leads to a file in the same directory, whose name has the same stem.

## Main definitions

* `Path.IsName` — characters that name an entry of a directory.

## Main results

* `Path.extension?_eq_some_iff` — when a name has an extension.
* `Path.Parted.withExtension_eq` — what replacing the extension of a path does to its name.
* `FileTree.exists_stem` — files that differ in the extension have their places in one directory.
-/

set_option autoImplicit false

namespace CopyTrial

namespace Path

/-! ## Stems -/

/-- Characters that name an entry of a directory. -/
structure IsName (name : List Char) : Prop where
  ne_nil : name ≠ []
  ne_dot : name ≠ ['.']
  not_mem : '/' ∉ name

/-- What stands up to the first dot. -/
theorem takeWhile_ne_dot {before after : List Char} (h : '.' ∉ before) :
    (before ++ '.' :: after).takeWhile (· != '.') = before := by
  rw [List.takeWhile_append_of_pos]
  · simp
  · intro c hc
    have hne : c ≠ '.' := fun heq => h (heq ▸ hc)
    simpa using hne

/-- What stands after the last dot of a name. -/
theorem takeWhile_reverse (stem : List Char) {extension : List Char} (h : '.' ∉ extension) :
    ((stem ++ '.' :: extension).reverse.takeWhile (· != '.')).reverse = extension := by
  rw [List.reverse_append, List.reverse_cons, List.append_assoc, List.singleton_append,
    takeWhile_ne_dot (by simpa using h), List.reverse_reverse]

/-- A name is cut at its last dot, if something stands before it. -/
theorem splitName_append {stem extension : List Char} (hstem : stem ≠ [])
    (hextension : '.' ∉ extension) :
    splitName (stem ++ '.' :: extension) = (stem, some extension) := by
  have hcount : (stem ++ '.' :: extension).length - extension.length - 1 = stem.length := by
    simp
    omega
  rw [splitName]
  simp only [takeWhile_reverse stem hextension, hcount, List.take_left]
  refine if_neg ?_
  simp [hstem]
  omega

/-- The dot at the end of a stem is not part of it. -/
theorem splitName_append_dot {stem : List Char} (h : stem ≠ []) :
    splitName (stem ++ ['.']) = (stem, some []) := splitName_append h (by simp)

/-- **A name without an extension is its own stem**; every other one is its stem with a dot and the
extension, in which there is no dot. -/
theorem splitName_cases (name : List Char) :
    splitName name = (name, none) ∨
      ∃ stem extension, splitName name = (stem, some extension) ∧
        name = stem ++ '.' :: extension ∧ stem ≠ [] ∧ '.' ∉ extension := by
  by_cases hdot : '.' ∈ name.reverse
  · obtain ⟨extension, stem, heq, hextension⟩ := List.eq_append_cons_of_mem hdot
    have hname : name = stem.reverse ++ '.' :: extension.reverse := by
      rw [← List.reverse_inj, heq]
      simp
    have hextension' : '.' ∉ extension.reverse := by simpa using hextension
    rw [hname]
    by_cases hstem : stem = []
    · refine .inl ?_
      rw [splitName]
      simp [hstem, takeWhile_ne_dot hextension]
    · have hstem' : stem.reverse ≠ [] := by simpa using hstem
      exact .inr ⟨_, _, splitName_append hstem' hextension', rfl, hstem', hextension'⟩
  · have htake : name.reverse.takeWhile (· != '.') = name.reverse := by
      rw [List.takeWhile_eq_self_iff]
      intro c hc
      have hne : c ≠ '.' := fun heq => hdot (heq ▸ hc)
      simpa using hne
    refine .inl ?_
    rw [splitName, htake]
    simp

/-- **When a name has an extension**: it ends in a dot and the extension, in which there is no dot,
and something stands before the dot. -/
theorem extension?_eq_some_iff (name extension : String) :
    extension? name = some extension ↔
      '.' ∉ extension.toList ∧ ∃ stem, stem ≠ "" ∧ name = stem ++ "." ++ extension := by
  rw [extension?, Option.map_eq_some_iff]
  constructor
  · rintro ⟨found, hfound, rfl⟩
    rcases splitName_cases name.toList with hsplit | ⟨stem, found', hsplit, heq, hstem, hdot⟩
    · rw [hsplit] at hfound
      cases hfound
    · rw [hsplit] at hfound
      obtain rfl := Option.some.inj hfound
      refine ⟨by simpa using hdot, String.ofList stem, by simpa using hstem, ?_⟩
      rw [← String.toList_inj, heq]
      simp
  · rintro ⟨hdot, stem, hstem, rfl⟩
    have hstem' : stem.toList ≠ [] := by simpa using hstem
    have heq : (stem ++ "." ++ extension).toList = stem.toList ++ '.' :: extension.toList := by
      simp
    rw [heq, splitName_append hstem' hdot]
    exact ⟨_, rfl, String.ofList_toList⟩

/-! ## Another extension -/

/-- Nothing is trimmed from a path that ends in a name. -/
theorem trimReverse_append {name : List Char} (h : IsName name) (front : List Char) :
    trimReverse (front ++ name).reverse = name.reverse ++ front.reverse := by
  rw [List.reverse_append]
  obtain ⟨last, before, hreverse⟩ : ∃ last before, name.reverse = last :: before :=
    List.exists_cons_of_ne_nil (by simpa using h.ne_nil)
  have hslash : ∀ c ∈ name.reverse, c ≠ '/' := fun c hc heq => h.not_mem (by simpa [heq] using hc)
  rw [hreverse] at hslash ⊢
  rw [List.cons_append]
  unfold trimReverse
  split
  · next heq => exact absurd (List.cons.inj heq).1 (hslash last List.mem_cons_self)
  · next rest heq =>
    obtain ⟨rfl, hrest⟩ := List.cons.inj heq
    cases before with
    | nil =>
      refine absurd ?_ h.ne_dot
      rw [← List.reverse_inj, hreverse]
      rfl
    | cons c before =>
      exact absurd (List.cons.inj hrest).1 (hslash c (by simp))
  · rfl

/-- The extension of a name is put after its stem, unless the name is two dots. -/
theorem putExtension_append {front name : List Char} (h : IsName name)
    (hfront : front = [] ∨ ∃ before, front = before ++ ['/']) (extension : List Char) :
    putExtension (front ++ name) extension =
      if name = ['.', '.'] then front ++ name
      else front ++ ((splitName name).1 ++ '.' :: extension) := by
  have hslash : ∀ c ∈ name.reverse, (c != '/') = true := by
    intro c hc
    simpa using fun heq => h.not_mem (by simpa [heq] using hc)
  have hname : (name.reverse ++ front.reverse).takeWhile (· != '/') = name.reverse := by
    rw [List.takeWhile_append_of_pos hslash]
    rcases hfront with rfl | ⟨before, rfl⟩ <;> simp
  have hdirectory : (name.reverse ++ front.reverse).dropWhile (· != '/') = front.reverse := by
    rw [List.dropWhile_append_of_pos hslash]
    rcases hfront with rfl | ⟨before, rfl⟩ <;> simp
  rw [putExtension, trimReverse_append h]
  simp only [hname, hdirectory, List.reverse_reverse]
  simp [h.ne_nil, h.ne_dot]

namespace Parted

variable {path : String} {front name : List Char}

/-- A name is the last one of its path. -/
theorem getLast?_names (h : Parted path front name) (hname : IsName name) :
    (names path).getLast? = some (String.ofList name) := by
  have hempty : String.ofList name ≠ "" := fun heq => hname.ne_nil (by simpa using heq)
  have hdot : String.ofList name ≠ "." := fun heq => hname.ne_dot (String.ofList_inj.1 heq)
  rw [names, h.split_eq]
  cases frontParts front with
  | nil => simp [hempty]
  | cons first rest => simp [hempty, hdot]

/-- **What replacing the extension of a path does to its name**: the extension follows the stem. If
the name starts with two dots and has no others, they are all that is left of it. -/
theorem withExtension_eq (h : Parted path front name) (hname : IsName name)
    (hdots : name ≠ ['.', '.']) :
    (∃ stem, '/' ∉ stem ∧ (∀ extension, '.' ∈ extension → name ≠ stem ++ '.' :: extension) ∧
      ∀ extension : String,
        withExtension path extension = String.ofList (front ++ (stem ++ '.' :: extension.toList))) ∨
      ∀ extension, withExtension path extension = String.ofList (front ++ ['.', '.']) := by
  have hold : ((names path).getLast?.bind extension?).getD "" =
      String.ofList ((splitName name).2.getD []) := by
    rw [h.getLast?_names hname, Option.bind_some, extension?, String.toList_ofList]
    cases (splitName name).2 <;> rfl
  have hlength : path.length = front.length + name.length := by
    rw [← String.length_toList, h.toList_eq, List.length_append]
  simp only [withExtension, hold, String.length_ofList, hlength, h.toList_eq]
  rcases splitName_cases name with hsplit | ⟨stem, old, hsplit, heq, hstem, hnodot⟩
  · refine .inl ⟨name, hname.not_mem, fun extension _ => by simp, fun extension => ?_⟩
    rw [hsplit, Option.getD_none, List.length_nil, Nat.sub_zero, ← List.length_append,
      List.take_length, putExtension_append hname h.front_eq, if_neg hdots, hsplit]
  · have hslash : '/' ∉ stem ++ ['.'] := fun hmem => hname.not_mem (by
      rw [heq]
      simp only [List.mem_append, List.mem_cons] at hmem ⊢
      tauto)
    have hcut : IsName (stem ++ ['.']) := ⟨by simp, by simpa using hstem, hslash⟩
    have htake : (front ++ name).take (front.length + name.length - old.length) =
        front ++ (stem ++ ['.']) := by
      have hcount :
          front.length + name.length - old.length = (front ++ (stem ++ ['.'])).length := by
        rw [heq]
        simp
        omega
      have hwhole : front ++ name = front ++ (stem ++ ['.']) ++ old := by simp [heq]
      rw [hcount, hwhole, List.take_left]
    by_cases hdot : stem = ['.']
    · refine .inr fun extension => ?_
      rw [hsplit, Option.getD_some, htake, putExtension_append hcut h.front_eq, hdot]
      rfl
    · refine .inl ⟨stem, fun hmem => hslash (List.mem_append_left _ hmem), ?_, ?_⟩
      · intro extension hextension hname'
        have hsame := List.append_cancel_left (heq.symm.trans hname')
        rw [(List.cons.inj hsame).2] at hnodot
        exact hnodot hextension
      · intro extension
        have hne : stem ++ ['.'] ≠ ['.', '.'] := fun hdots' => hdot (by
          simpa using List.append_cancel_right (hdots' : stem ++ ['.'] = ['.'] ++ ['.']))
        rw [hsplit, Option.getD_some, htake, putExtension_append hcut h.front_eq, if_neg hne,
          splitName_append_dot hstem]

end Parted

end Path

namespace FileTree

/-- **Files with other extensions stand beside a file**: if a path still gives a place to a file
when it has got another extension, the names of all files that differ in the extension have one
stem, and their places are in one directory. -/
theorem exists_stem {tree : FileTree} {path extension : String} {place beside : Place}
    (h : tree.fileSlot path = .ok place)
    (hbeside : tree.fileSlot (Path.withExtension path extension) = .ok beside) :
    ∃ front name stem directory, Path.Parted path front name ∧
      place = directory ++ [String.ofList name] ∧
      (∀ extension, '.' ∈ extension → name ≠ stem ++ '.' :: extension) ∧
      ∀ extension : String, '/' ∉ extension.toList →
        Path.withExtension path extension =
            String.ofList (front ++ (stem ++ '.' :: extension.toList)) ∧
          ∀ beside, tree.fileSlot (Path.withExtension path extension) = .ok beside →
            beside = directory ++ [String.ofList (stem ++ '.' :: extension.toList)] := by
  obtain ⟨front, name, hparted⟩ := Path.exists_parted path
  obtain ⟨-, directory, slot, rfl⟩ := exists_slot hparted h
  obtain ⟨hnil, hdot, hdots⟩ := slot.name_ne
  rcases hparted.withExtension_eq ⟨hnil, hdot, hparted.not_mem⟩ hdots with
    ⟨stem, hstem, hname, hwith⟩ | hwith
  · refine ⟨front, name, stem, directory, hparted, rfl, hname, fun extension hslash => ?_⟩
    refine ⟨hwith extension, fun beside hbeside => ?_⟩
    have hparted' : Path.Parted (Path.withExtension path extension) front
        (stem ++ '.' :: extension.toList) := by
      refine ⟨by rw [hwith, String.toList_ofList], hparted.front_eq, ?_⟩
      simp [hstem, hslash]
    obtain ⟨-, directory', slot', rfl⟩ := exists_slot hparted' hbeside
    rw [Except.ok.inj (slot'.walk_eq.symm.trans slot.walk_eq)]
  · -- the path would end in two dots, which are no name of a file
    rw [hwith] at hbeside
    have hparted' : Path.Parted (String.ofList (front ++ ['.', '.'])) front ['.', '.'] :=
      ⟨String.toList_ofList, hparted.front_eq, by decide⟩
    obtain ⟨-, directory', slot', -⟩ := exists_slot hparted' hbeside
    exact absurd rfl slot'.name_ne.2.2

end FileTree

end CopyTrial
