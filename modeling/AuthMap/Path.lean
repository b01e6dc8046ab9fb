import AuthMap.Text.Encoding
import AuthMap.Text.Parts

/-! Paths of files: their normal form, and the home directories that a tilde stands for. -/

namespace AuthMap

structure Homes where
  own : Text
  others : List (Text × Text) := []
  deriving DecidableEq, Repr, Inhabited

inductive HomeFault where
  | unknown
  /-- A name that no user can have. -/
  | refused (text : String)
  deriving DecidableEq, Repr

namespace Homes

/-- The entry for a user; the own one has no name. -/
def entry (user : Text) (hs : Homes) : Except HomeFault Text :=
  if user.isEmpty then .ok hs.own
  else match user.nameFault? with
    | some text => .error (.refused text)
    | none =>
      if user.contains (.char '\x00') then .error (.refused "embedded null byte")
      else match hs.others.find? fun h => h.1 = user with
        | some (_, home) => .ok home
        | none => .error .unknown

/-- A directory without slashes at its end, but for the root. -/
def directory (home : Text) : Text :=
  match (home.reverse.dropWhile (· = .char '/')).reverse with
  | [] => [.char '/']
  | home => home

/-- The home directory of a user. One that has a tilde in front itself is as good as none. -/
def lookup (user : Text) (hs : Homes) : Except HomeFault Text := do
  let home := directory (← hs.entry user)
  if home.head? = some (.char '~') then throw .unknown else pure home

end Homes

structure Path where
  /-- Nothing, one slash, or exactly two. -/
  root : Text
  parts : List Text
  deriving DecidableEq, Repr

namespace Path

abbrev slash : Text.CodePoint := .char '/'

def rootOf : Text → Text
  | .char '/' :: .char '/' :: .char '/' :: _ => [slash]
  | .char '/' :: .char '/' :: _ => [slash, slash]
  | .char '/' :: _ => [slash]
  | _ => []

def ofText (t : Text) : Path :=
  -- repeated slashes count once, and parts that stay in place do not count
  ⟨rootOf t, (Text.splitOn slash t).filter fun part => part ≠ [] && part ≠ [.char '.']⟩

def toText (p : Path) : Text :=
  match p.root ++ [slash].intercalate p.parts with
  | [] => [.char '.']
  | t => t

/-- Puts a home directory in the place of a tilde at the start, the own one or that of the user
whose name follows. -/
def expand (hs : Homes) (p : Path) : Except HomeFault Path :=
  match p.root, p.parts with
  | [], (.char '~' :: user) :: parts => do
    let h := ofText (← hs.lookup user)
    pure ⟨h.root, h.parts ++ parts⟩
  | _, _ => .ok p

end Path

end AuthMap
