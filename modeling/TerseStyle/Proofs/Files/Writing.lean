/-
Writing to a file. A write changes what one location holds and nothing else. Since the location stays a file, the disk
keeps its shape, and every path leads where it led before.

Results:
- `Holds.write`: a write to a file that is not locked replaces its text, and only that (`replaces_write`).
- `locate_congr`: where a path leads depends on the shape of a disk alone.
- `Replaces.read_apart`: what other files read as stays the same.
-/
import TerseStyle.Files.Tree

namespace TerseStyle.Files

/-- whether something at a location is a directory -/
def Entry.isDirectory : Entry → Bool
  | .directory => true
  | .file _ => false

/-! ## One write -/

namespace Tree

variable {tree : Tree} {location : Location} {t : Text}

theorem lookup_write (tree : Tree) (location other : Location) (t : Text) :
    (tree.write location t).lookup other =
      if other = location then (tree.lookup other).map fun _ => .file (.text t) else tree.lookup other := by
  induction tree with
  | nil => simp [write]
  | cons e rest ih =>
    obtain ⟨place, entry⟩ := e
    simp only [write, List.map_cons] at ih ⊢
    by_cases hplace : other = place
    · subst hplace
      by_cases hother : other = location
      · simp [hother]
      · simp [hother]
    · have hne : (other == place) = false := by simp [hplace]
      have hsplit : (if place = location then (place, Entry.file (.text t)) else (place, entry)) =
          (place, if place = location then Entry.file (.text t) else entry) := by
        split <;> rfl
      rw [hsplit, List.lookup_cons, hne, List.lookup_cons, hne]
      exact ih

theorem get?_write_self {content : Content} (h : tree.get? location = some (.file content)) :
    (tree.write location t).get? location = some (.file (.text t)) := by
  have hplace : location.isEmpty = false := by
    cases location with
    | nil => cases h
    | cons => rfl
  simp only [get?, hplace, Bool.false_eq_true, if_false] at h ⊢
  rw [lookup_write, if_pos rfl, h]
  rfl

theorem get?_write_other {other : Location} (h : other ≠ location) :
    (tree.write location t).get? other = tree.get? other := by
  simp only [get?, lookup_write, if_neg h]

theorem locations_write (tree : Tree) (location : Location) (t : Text) :
    (tree.write location t).map Prod.fst = tree.map Prod.fst := by
  rw [write, List.map_map]
  apply List.map_congr_left
  intro e _
  simp only [Function.comp_apply]
  split <;> rfl

end Tree

namespace Disk

/-- a path leads to a file with some text -/
structure Holds (disk : Disk) (path : Text) (location : Location) (t : Text) : Prop where
  located : disk.locate path = .ok location
  held : disk.tree.get? location = some (.file (.text t))

/-- a disk holds a text in the file at a location, and otherwise what the disk before held -/
structure Replaces (disk : Disk) (location : Location) (t : Text) (after : Disk) : Prop where
  written : after.tree.get? location = some (.file (.text t))
  kept : ∀ other, other ≠ location → after.tree.get? other = disk.tree.get? other
  locations : after.tree.map Prod.fst = disk.tree.map Prod.fst
  directory : after.directory = disk.directory
  locked : after.locked = disk.locked

/-- two disks have files at the same locations, directories at the same locations, and the same files are locked -/
structure SameShape (a b : Disk) : Prop where
  kinds : ∀ location, (a.tree.get? location).map Entry.isDirectory = (b.tree.get? location).map Entry.isDirectory
  directory : a.directory = b.directory
  locked : a.locked = b.locked

/-- two paths lead to one file -/
def SameFile (disk : Disk) (p q : Text) : Prop :=
  ∃ location content, disk.locate p = .ok location ∧ disk.locate q = .ok location ∧
    disk.tree.get? location = some (.file content)

/-- what a path leads to is not locked -/
def Writable (disk : Disk) (path : Text) : Prop := ∀ location, disk.locate path = .ok location → location ∉ disk.locked

variable {disk after a b : Disk} {location : Location} {path p q t t' : Text}

theorem replaces_write {content : Content} (h : disk.tree.get? location = some (.file content)) :
    disk.Replaces location t { disk with tree := disk.tree.write location t } where
  written := Tree.get?_write_self h
  kept := fun _ hother => Tree.get?_write_other hother
  locations := Tree.locations_write _ _ _
  directory := rfl
  locked := rfl

/-- a write to a file succeeds unless the file is locked -/
theorem Holds.write (h : disk.Holds path location t) :
    disk.write path t' =
      if location ∈ disk.locked then .error .denied else .ok { disk with tree := disk.tree.write location t' } := by
  unfold Disk.write
  rw [h.located]
  simp only [bind, Except.bind, h.held, List.contains_iff_mem]
  by_cases hlocked : location ∈ disk.locked
  · rw [if_pos hlocked, if_pos hlocked]
    rfl
  · rw [if_neg hlocked, if_neg hlocked]
    rfl

/-! ## Shapes -/

theorem SameShape.symm (h : a.SameShape b) : b.SameShape a where
  kinds := fun location => (h.kinds location).symm
  directory := h.directory.symm
  locked := h.locked.symm

theorem Replaces.shape {content : Content} (h : disk.Replaces location t after)
    (hfile : disk.tree.get? location = some (.file content)) : disk.SameShape after where
  kinds := by
    intro other
    by_cases hother : other = location
    · rw [hother, hfile, h.written]
      rfl
    · rw [h.kept other hother]
  directory := h.directory.symm
  locked := h.locked.symm

theorem step_congr (h : a.SameShape b) (here : Location) (piece : Text) :
    a.tree.step here piece = b.tree.step here piece := by
  have hnext := h.kinds (here ++ [piece])
  have hsome : (a.tree.get? (here ++ [piece])).isSome = (b.tree.get? (here ++ [piece])).isSome := by
    simpa using congrArg Option.isSome hnext
  have hhere := h.kinds here
  unfold Tree.step
  rw [hsome]
  -- both trees have the same kind of entry here, so that the cases agree
  rcases ha : a.tree.get? here with _ | (_ | ca) <;> rcases hb : b.tree.get? here with _ | (_ | cb) <;>
    simp [ha, hb, Entry.isDirectory] at hhere ⊢

theorem walk_congr (h : a.SameShape b) (here : Location) (pieces : List Text) :
    a.tree.walk here pieces = b.tree.walk here pieces := by
  induction pieces generalizing here with
  | nil => rfl
  | cons piece rest ih =>
    simp only [Tree.walk, step_congr h, ih]

/-- where a path leads depends on the shape of a disk alone -/
theorem locate_congr (h : a.SameShape b) (path : Text) : a.locate path = b.locate path := by
  unfold locate start
  rw [walk_congr h, h.directory]

theorem Writable.congr (h : a.SameShape b) (hpath : a.Writable path) : b.Writable path := by
  intro location hlocate
  rw [← locate_congr h] at hlocate
  rw [← h.locked]
  exact hpath location hlocate

theorem sameFile_congr (h : a.SameShape b) : a.SameFile p q ↔ b.SameFile p q := by
  have hstep : ∀ {a b : Disk}, a.SameShape b → a.SameFile p q → b.SameFile p q := by
    intro a b h hsame
    obtain ⟨location, content, hp, hq, hfile⟩ := hsame
    have hkind := h.kinds location
    rw [hfile] at hkind
    rcases hb : b.tree.get? location with _ | (_ | content')
    · simp [hb] at hkind
    · simp [hb, Entry.isDirectory] at hkind
    · exact ⟨location, content', (locate_congr h p).symm.trans hp, (locate_congr h q).symm.trans hq, hb⟩
  exact ⟨hstep h, hstep h.symm⟩

/-! ## Reading -/

theorem read_of_lost {fault : Fault} (h : disk.locate path = .error fault) : disk.read path = .error fault := by
  unfold read
  rw [h]
  rfl

theorem read_of_located (h : disk.locate path = .ok location) :
    disk.read path =
      match disk.tree.get? location with
      | some (.file (.text t)) => .ok t
      | some (.file .undecodable) => .error .undecodable
      | some .directory => .error .isDirectory
      | none => .error .notFound := by
  unfold read
  rw [h]
  rfl

theorem read_eq_ok : disk.read path = .ok t ↔ ∃ location, disk.Holds path location t := by
  constructor
  · intro h
    rcases hplace : disk.locate path with fault | location
    · simp [read_of_lost hplace] at h
    · rw [read_of_located hplace] at h
      rcases hentry : disk.tree.get? location with _ | (_ | (t' | _)) <;> simp only [hentry] at h <;> cases h
      exact ⟨location, hplace, hentry⟩
  · intro h
    obtain ⟨location, h⟩ := h
    rw [read_of_located h.located, h.held]

/-- two disks read a path alike where they have one shape and hold the same at its end -/
theorem read_congr (h : a.SameShape b)
    (hend : ∀ location, a.locate path = .ok location → a.tree.get? location = b.tree.get? location) :
    a.read path = b.read path := by
  rcases hplace : a.locate path with fault | location
  · rw [read_of_lost hplace, read_of_lost ((locate_congr h path).symm.trans hplace)]
  · rw [read_of_located hplace, read_of_located ((locate_congr h path).symm.trans hplace), hend location hplace]

/-- what a path to another file reads as stays the same -/
theorem Replaces.read_apart (h : disk.Replaces location t' after) (hold : disk.Holds p location t)
    (hapart : ¬ disk.SameFile p q) : after.read q = disk.read q := by
  symm
  apply read_congr (h.shape hold.held)
  intro other hother
  by_cases heq : other = location
  · subst heq
    exact absurd ⟨other, _, hold.located, hother, hold.held⟩ hapart
  · exact (h.kept other heq).symm

end Disk

end TerseStyle.Files
