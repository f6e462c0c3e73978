import AheadOfTime.System.Octets

/-! # Fields

    What a word becomes when parameters and substitutions are replaced: glyphs, some of
    which lie in regions that are split at separators.  Fields are what is left of the
    glyphs between separators; a field is read as a text or as a pattern. -/

namespace AheadOfTime.Shell

/-- A piece of an expanded word. -/
inductive Glyph where
  /-- A byte, which stands for nothing but itself if it is protected. -/
  | char (c : Char) (isProtected : Bool)
  /-- Quotes begin or end here. -/
  | quote
  deriving DecidableEq, Repr

/-- A part of an expanded word that is split at separators, or only where one parameter
    ends and the next one begins, which is marked by a NUL. -/
structure Region where
  start : Nat
  stop : Nat
  isList : Bool
  deriving DecidableEq, Repr

/-- A word that is being expanded. -/
structure Expansion where
  glyphs : Array Glyph := #[]
  regions : List Region := []

namespace Glyph

/-- The text that glyphs write. -/
def text (glyphs : List Glyph) : Octets :=
  String.ofList (glyphs.filterMap fun
    | char c _ => some c
    | quote => none)

/-- The pattern that glyphs write; a byte that is not protected may be a backslash that
    protects the next one. -/
def pattern (glyphs : List Glyph) : List Char := go false glyphs
where
  /-- Goes on behind a backslash that protects, or behind something else. -/
  go (isGuarded : Bool) : List Glyph → List Char
    | [] => []
    | quote :: rest => go false rest
    | char c true :: rest => if isGuarded then c :: go false rest else '\\' :: c :: go false rest
    | char '\\' false :: rest => '\\' :: go true rest
    | char c false :: rest => c :: go false rest

/-- Whether glyphs hold a byte that can describe others. -/
def hasWildcard (glyphs : List Glyph) : Bool :=
  glyphs.any fun
    | char c _ => c == '*' || c == '?' || c == '['
    | quote => false

end Glyph

/-- A word that is being split: where the present field starts, the complete fields,
    last one first, whether a blank has just ended one, what is cut off at the end, and
    how many fields there may be if that is limited. -/
structure Splitting where
  start : Nat := 0
  fields : List (List Glyph) := []
  isAfterBlank : Bool := false
  cut : Option Nat := none
  limit : Option Nat := none

namespace Splitting

/-- The glyphs between two places. -/
def between (glyphs : Array Glyph) (start stop : Nat) : List Glyph :=
  (glyphs.extract start stop).toList

/-- How a byte separates fields. -/
structure Separator where
  separates : Bool
  isBlank : Bool

/-- How a glyph separates fields. -/
def separator (separators : Octets) : Glyph → Separator
  | .quote => ⟨false, false⟩
  | .char c _ =>
    let separates := c == '\x00' || separators.contains c
    ⟨separates, separates && (c == '\x00' || " \t\n".contains c)⟩

/-- Goes on with the glyph at a place when no further field may begin: a separator at
    the end belongs to the last field only if it has more of them. -/
def stepLast (s : Splitting) (place : Nat) (c : Separator) : Splitting :=
  if c.isBlank then { s with cut := s.cut.or (some place) }
  else { s with
    cut := if c.separates && s.isAfterBlank then s.cut else none
    isAfterBlank := false }

/-- Goes on with the glyph at a place; blanks count as such only if `joins`. -/
def step (glyphs : Array Glyph) (joins : Bool) (s : Splitting) (place : Nat) (c : Separator) :
    Splitting :=
  if s.limit = some 0 then s.stepLast place c
  else if s.isAfterBlank then
    let s := { s with start := if c.separates then place + 1 else place }
    if c.isBlank then s else { s with isAfterBlank := false }
  else if !c.separates then s
  else
    let isAfterBlank := joins && c.isBlank
    if place = s.start && isAfterBlank then { s with start := place + 1 }
    else
      let limit := s.limit.map (· - 1)
      if limit = some 0 then { s with limit, isAfterBlank, cut := some place }
      else { s with
        limit, isAfterBlank
        fields := between glyphs s.start place :: s.fields
        start := place + 1 }

/-- Goes on with a region; `afterList` if the region before was a list. -/
def region (glyphs : Array Glyph) (separators : Octets) (afterList : Bool) (s : Splitting)
    (r : Region) : Splitting :=
  let separators := if r.isList then "" else separators
  let joins := !afterList && !r.isList
  (List.range (r.stop - r.start)).foldl (fun s i =>
    let place := r.start + i
    s.step glyphs joins place (separator separators (glyphs[place]?.getD .quote)))
    { s with isAfterBlank := false }

/-- The fields of an expanded word, at most as many as there may be. -/
def run (separators : Octets) (limit : Option Nat) (e : Expansion) : List (List Glyph) :=
  let (s, isList) := e.regions.foldl (fun (s, afterList) r =>
    (s.region e.glyphs separators afterList r, r.isList)) (({ limit } : Splitting), false)
  let last := between e.glyphs s.start (s.cut.getD e.glyphs.size)
  let last := last.takeWhile (· ≠ .char '\x00' false)
  (if last.isEmpty && !isList then s.fields else last :: s.fields).reverse

end Splitting

namespace Expansion

/-- The fields of an expanded word, at most as many as there may be. -/
def fields (e : Expansion) (separators : Octets) (limit : Option Nat := none) :
    List (List Glyph) :=
  Splitting.run separators limit e

/-- The text of an expanded word that is not split. -/
def text (e : Expansion) : Octets := Glyph.text e.glyphs.toList

/-- The pattern that an expanded word writes. -/
def pattern (e : Expansion) : List Char := Glyph.pattern e.glyphs.toList

/-- The expanded word with a glyph more. -/
def push (e : Expansion) (g : Glyph) : Expansion := { e with glyphs := e.glyphs.push g }

/-- The expanded word with a text more. -/
def pushText (e : Expansion) (isProtected : Bool) (text : Octets) : Expansion :=
  { e with glyphs := text.foldl (fun glyphs c => glyphs.push (.char c isProtected)) e.glyphs }

/-- The expanded word with a region from a place to its end. -/
def mark (e : Expansion) (start : Nat) (isList : Bool) : Expansion :=
  { e with regions := e.regions ++ [⟨start, e.glyphs.size, isList⟩] }

/-- The expanded word cut off at a place. -/
def takeTo (e : Expansion) (place : Nat) : Expansion :=
  { glyphs := e.glyphs.extract 0 place
    regions := (e.regions.filter fun r => r.start < place).map fun r =>
      { r with stop := min r.stop place } }

end Expansion

end AheadOfTime.Shell
