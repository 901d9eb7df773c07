import H5GG.Library.Staging

/-!
# The entries of a directory
-/

namespace Posix

def within (directory name : Path) : Path := directory ++ 0x2F :: name

/-- The names that a directory stream hands out; in which order is up to the system. -/
def Disk.entries (directory : Path) (disk : Disk) : List Path :=
  [0x2E] :: [0x2E, 0x2E] :: (disk.links.filterMap fun link =>
    if (within directory []).isPrefixOf link.1 then
      let name := link.1.drop (directory.length + 1)
      if name.contains 0x2F then none else some name
    else none)

def opendir (directory : Path) : Program (Except Nat (List Path)) := do
  record (.listed directory)
  call fun _ disk => (.ok (disk.entries directory), disk)

def readdir : Program (Except Nat Unit) := call fun _ disk => (.ok (), disk)

def closedir : Program (Except Nat Unit) := call fun _ disk => (.ok (), disk)

/-- `fstat` of what a path names itself. -/
def lstat (path : Path) : Program (Except Nat Stat) := do
  record (.inspected path)
  call fun _ disk =>
    match disk.content path with
    | none => (.error ENOENT, disk)
    | some (.regular bytes) => (.ok { isRegular := true, size := bytes.length }, disk)
    | some _ => (.ok { isRegular := false, size := 0 }, disk)

section
variable {system : System}

theorem opendir_ensures (directory : Path) :
    Ensures (opendir directory) system
      (fun _ after => Rests [.listed directory] system after)
      (Waits [.listed directory] system) := by
  refine Ensures.bind (call_ensures (fun none_left => ⟨rfl, none_left, rfl, rfl⟩) ?_ ?_)
  · exact fun errno answers => ⟨rfl, rfl⟩
  · exact fun answer answers => ⟨rfl, rfl⟩

theorem readdir_ensures :
    Ensures readdir system (fun _ after => Rests [] system after) (Waits [] system) := close_ensures

theorem closedir_ensures :
    Ensures closedir system (fun _ after => Rests [] system after) (Waits [] system) := close_ensures

theorem lstat_ensures (path : Path) :
    Ensures (lstat path) system (fun _ after => Rests [.inspected path] system after)
      (Waits [.inspected path] system) := by
  refine Ensures.bind (call_ensures (fun none_left => ⟨rfl, none_left, rfl, rfl⟩) ?_ ?_)
  · exact fun errno answers => ⟨rfl, rfl⟩
  · intro answer answers
    dsimp only
    split
    · exact ⟨rfl, rfl⟩
    · exact ⟨rfl, rfl⟩
    · exact ⟨rfl, rfl⟩

end

end Posix
