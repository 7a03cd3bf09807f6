import TaoSubnet.Lib.Files
import TaoSubnet.Security.Structure

/-!
# Extracting an archive

What an archive becomes on a POSIX filesystem: its members written in order below a root, one that
comes later in place of what is there. A member is written where its name leads from the root, `.` and
empty components dropped, the directories on the way made and links among them followed.
-/

namespace TaoSubnet

open Py Files

/-- A name as a path. -/
def pathOf (name : PyStr) : Path PyStr where
  absolute := name.head? == some 47
  steps := ((splitSlash name).filter fun part => part != [] && part != [46]).map fun part =>
    if part = [46, 46] then .up else .into part

abbrev FileTree := Tree PyStr (List UInt8)

/-- Writes a member at a location. A directory stays what it is if it is one. A hard link is what it is
    linked to, a file or itself a link; to a directory there is none. -/
def writeMember (limit : Nat) (root : Loc PyStr) (fs : FileTree) (loc : Loc PyStr) (m : TarMember) :
    Option FileTree :=
  match m.type with
  | .regular | .oldRegular =>
    match m.data with
    | .ok bytes => some (replace fs loc (.file bytes))
    | .error _ => none
  | .directory =>
    match fs loc with
    | some .directory => some fs
    | _ => some (replace fs loc .directory)
  | .symlink => some (replace fs loc (.link (pathOf m.linkname)))
  | .hardlink =>
    match nodeAt limit (clear fs loc) root (pathOf m.linkname) with
    | some (.file bytes) => some (replace fs loc (.file bytes))
    | some (.link target) => some (replace fs loc (.link target))
    | _ => none
  | .other _ => none

/-- Where a member is written. -/
def landing (limit : Nat) (root : Loc PyStr) (fs : FileTree) (m : TarMember) : Option (Loc PyStr) :=
  (locate limit fs root (pathOf m.name)).map Prod.snd

/-- One member; what names the root itself is only a directory. -/
def extractMember (limit : Nat) (root : Loc PyStr) (fs : FileTree) (m : TarMember) :
    Option FileTree :=
  if (pathOf m.name).steps.isEmpty then
    if m.type = .directory then some fs else none
  else
    (locate limit fs root (pathOf m.name)).bind fun located =>
      writeMember limit root located.1 located.2 m

def extract (limit : Nat) (root : Loc PyStr) : FileTree → List TarMember → Option FileTree
  | fs, [] => some fs
  | fs, m :: rest => (extractMember limit root fs m).bind fun fs => extract limit root fs rest

/-- A directory with nothing in it. -/
structure EmptyRoot (root : Loc PyStr) (fs : FileTree) : Prop where
  directory : fs root = some .directory
  empty : ∀ l, Below root l → fs l = none

end TaoSubnet
