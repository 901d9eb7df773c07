import H5GG.Library.Posix

/-!
# Files that are written aside before they get their name
-/

namespace Posix

/-- A path names what it has named before, and that has not changed. -/
def SameAt (before after : Disk) (path : Path) : Prop :=
  after.find path = before.find path ∧ after.content path = before.content path

theorem SameAt.rfl {disk : Disk} {path : Path} : SameAt disk disk path := ⟨.refl _, .refl _⟩

theorem SameAt.trans {first second third : Disk} {path : Path} (early : SameAt first second path)
    (late : SameAt second third path) : SameAt first third path :=
  ⟨late.1.trans early.1, late.2.trans early.2⟩

theorem SameAt.unlink {disk : Disk} {path removed : Path} (apart : path ≠ removed) :
    SameAt disk (disk.unlink removed) path := by
  have same : (disk.unlink removed).find path = disk.find path := by
    rw [Disk.find_unlink, if_neg apart]
  refine ⟨same, ?_⟩
  rw [Disk.content, Disk.content, same]
  rfl

/-- Only a temporary file has been added and worked on. -/
structure Staged (before : Disk) (temporary : Path) (after : Disk) : Prop where
  absent : before.find temporary = none
  links : ∀ path, path ≠ temporary → after.find path = before.find path
  nodes : ∀ file < before.nodes.length, after.nodes[file]? = before.nodes[file]?
  fresh : ∀ file, after.find temporary = some file → before.nodes.length ≤ file

namespace Staged
variable {before after : Disk} {temporary : Path}

theorem create (absent : before.find temporary = none) :
    Staged before temporary (before.create temporary) where
  absent := absent
  links path apart := by rw [Disk.find_create, if_neg apart]
  nodes file known := List.getElem?_append_left known
  fresh file found := by
    rw [Disk.find_create, if_pos rfl] at found
    cases found
    exact Nat.le_refl _

variable (staged : Staged before temporary after)
include staged

theorem edit {file : Nat} (fresh : before.nodes.length ≤ file) (change : Node → Node) :
    Staged before temporary (after.edit file change) where
  absent := staged.absent
  links := staged.links
  nodes other known := by
    have apart : file ≠ other := fun same => absurd known (Nat.not_lt.mpr (same ▸ fresh))
    exact (List.getElem?_modify_ne change _ apart).trans (staged.nodes other known)
  fresh := staged.fresh

theorem unlink : Staged before temporary (after.unlink temporary) where
  absent := staged.absent
  links path apart := by rw [Disk.find_unlink, if_neg apart, staged.links path apart]
  nodes := staged.nodes
  fresh file found := by
    rw [Disk.find_unlink, if_pos rfl] at found
    cases found

theorem content {path : Path} (same : after.find path = before.find path) :
    SameAt before after path := by
  refine ⟨same, ?_⟩
  rw [Disk.content, Disk.content, same]
  cases found : before.find path with
  | none => rfl
  | some file => exact staged.nodes file (Disk.find_lt found)

theorem elsewhere {path : Path} (apart : path ≠ temporary) : SameAt before after path :=
  staged.content (staged.links path apart)

theorem gone (removed : after.find temporary = none) (path : Path) : SameAt before after path := by
  by_cases here : path = temporary
  · subst here
    exact staged.content (removed.trans staged.absent.symm)
  · exact staged.elsewhere here

theorem rename {target : Path} (apart : target ≠ temporary) {file : Nat}
    (found : after.find temporary = some file) :
    (∀ path, path ≠ target → SameAt before (after.rename temporary target) path) ∧
      (after.rename temporary target).content target = after.content temporary := by
  have other : after.find target ≠ some file := by
    intro same
    rw [staged.links target apart] at same
    exact absurd (staged.fresh file found) (Nat.not_le.mpr (Disk.find_lt same))
  have names := Disk.find_rename found other
  constructor
  · intro path notTarget
    have same : (after.rename temporary target).find path = before.find path := by
      rw [names, if_neg notTarget]
      split_ifs with here
      · rw [here, staged.absent]
      · exact staged.links path here
    refine ⟨same, ?_⟩
    rw [Disk.content, Disk.content, same, Disk.nodes_rename]
    cases known : before.find path with
    | none => rfl
    | some old => exact staged.nodes old (Disk.find_lt known)
  · rw [Disk.content, Disk.content, names, if_pos rfl, Disk.nodes_rename, found]

end Staged

/-- The file holds all of the bytes, or writing them has gone wrong. -/
theorem Staged.writes {before : Disk} {temporary : Path} {system : System}
    (staged : Staged before temporary system.disk) {file : Nat}
    (found : system.disk.find temporary = some file)
    (empty : system.disk.content temporary = some (.regular [])) (bytes : Bytes) :
    Ensures (writeFully file bytes) system
      (fun reply later => later.log = system.log ∧ Staged before temporary later.disk ∧
        (reply = .ok () → later.disk.content temporary = some (.regular bytes)))
      (fun stop later => stop = .waiting ∧ later.answers = [] ∧ later.log = system.log ∧
        Staged before temporary later.disk) := by
  have fresh := staged.fresh file found
  refine (writeFully_ensures file bytes).mono ?_ ?_
  · rintro reply later ⟨log, written, part, disk, all⟩
    refine ⟨log, disk ▸ staged.edit fresh _, fun success => ?_⟩
    rw [disk, all success, Disk.append, Disk.content_edit found, empty]
    rfl
  · rintro stop later ⟨waiting, none_left, log, written, part, disk⟩
    exact ⟨waiting, none_left, log, disk ▸ staged.edit fresh _⟩

end Posix
