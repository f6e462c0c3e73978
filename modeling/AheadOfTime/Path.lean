import AheadOfTime.Text.Split

/-! # Paths

    A path is an anchor and the names below it.  Reading a path drops empty names and
    single dots and keeps double dots, since what a double dot means depends on links.
    One leading slash, or three and more, stand for the root; exactly two are an anchor
    of their own.

    The last name of a path has a stem and an extension: the extension starts at the
    last dot, unless that dot is the first or the last character of the name. -/

namespace AheadOfTime

/-- Where a path starts. -/
inductive Anchor where
  | relative
  | root
  | doubleRoot
  deriving DecidableEq, Repr

namespace Anchor

/-- The slashes in front of the names. -/
def text : Anchor → String
  | relative => ""
  | root => "/"
  | doubleRoot => "//"

/-- The anchor of a written path. -/
def ofChars : List Char → Anchor
  | '/' :: '/' :: '/' :: _ => root
  | '/' :: '/' :: _ => doubleRoot
  | '/' :: _ => root
  | _ => relative

end Anchor

/-- A path: an anchor and the names below it. -/
structure Path where
  anchor : Anchor
  parts : List String
  deriving DecidableEq, Repr

namespace Path

/-- Whether a piece between two slashes names something. -/
def isName (piece : String) : Bool := piece != "" && piece != "."

/-- Reads a path. -/
def ofString (s : String) : Path :=
  ⟨Anchor.ofChars s.toList, (Text.pieces '/' s).filter isName⟩

/-- The path as text; the path without anchor and names is a single dot. -/
def toString (p : Path) : String :=
  if p.anchor = .relative ∧ p.parts = [] then "."
  else p.anchor.text ++ String.intercalate "/" p.parts

instance : ToString Path := ⟨Path.toString⟩

/-- The second path seen from the first one; an anchored path replaces what stands before it. -/
def join (p q : Path) : Path :=
  if q.anchor = .relative then ⟨p.anchor, p.parts ++ q.parts⟩ else q

/-- What `s` names, seen from `p`. -/
def child (p : Path) (s : String) : Path := p.join (ofString s)

/-- The names of `p` below `top`, whatever `p` was anchored at. -/
def below (top p : Path) : Path := ⟨top.anchor, top.parts ++ p.parts⟩

/-- The path without its last name. -/
def parent (p : Path) : Path := ⟨p.anchor, p.parts.dropLast⟩

/-- The last name, empty if there is none. -/
def name (p : Path) : String := p.parts.getLast?.getD ""

/-- A name as what stands before its last dot and what stands from that dot on. -/
def splitAtLastDot (cs : List Char) : Option (List Char × List Char) :=
  let tail := cs.reverse.takeWhile (· ≠ '.')
  if tail.length = cs.length then none
  else some (cs.take (cs.length - tail.length - 1), '.' :: tail.reverse)

/-- A name as its stem and its extension, which may be empty. -/
def splitName (name : String) : String × String :=
  match splitAtLastDot name.toList with
  | some (before, extension) =>
    if before ≠ [] ∧ extension ≠ ['.'] then (String.ofList before, String.ofList extension)
    else (name, "")
  | none => (name, "")

/-- The last name without its extension. -/
def stem (p : Path) : String := (splitName p.name).1

/-- The extension of the last name, with its dot. -/
def extension (p : Path) : String := (splitName p.name).2

/-- Whether `s` can stand as an extension: empty, or a dot and more, without a slash. -/
def isExtension (s : String) : Bool :=
  !s.toList.contains '/' && (s == "" || (s.toList.head? == some '.' && s != "."))

/-- The path with another last name. -/
def withName (p : Path) (name : String) : Path := ⟨p.anchor, p.parts.dropLast ++ [name]⟩

end Path

end AheadOfTime
